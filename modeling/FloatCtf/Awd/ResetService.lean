import FloatCtf.Awd.FlagService
import FloatCtf.Awd.Scheduler

/-!
# Resets of game boxes

`reset_service`: a reset is checked, recorded, carried out by Docker and then charged to the team if
its free resets are used up.  A request that finds its instance `Resetting` takes over the reset that
is under way.

The endpoints and their rate limit can only refuse a request, and the rows of the team networks, the
credentials and the columns of the container, which are only read for Docker or written, are left
out; what they refuse is the failure of a statement.
-/

namespace FloatCtf.Awd

open Process

/-! ## Eligibility -/

/-- Who asks for a reset. -/
inductive ResetActor where
  | player (userId teamId : Nat)
  | admin (adminId : Nat) (chargeTeam : Bool)
  | system
  deriving DecidableEq

/-- Whether the reset counts for the team. -/
def ResetActor.charges : ResetActor → Bool
  | player _ _ => true
  | admin _ chargeTeam => chargeTeam
  | system => false

/-- The columns `requested_by` and `requested_by_admin`. -/
def requesterColumns : ResetActor → Option Nat × Option Nat
  | .player userId _ => (some userId, none)
  | .admin adminId _ => (none, some adminId)
  | .system => (none, none)

/-- A running event with an open round allows resets. -/
def checkResetEligibility (awdEvent : AwdEvent) (hasActiveRound : Bool) : Except AwdError Unit :=
  if awdEvent.status ≠ .running then
    .error (.forbidden
      "Event is not running (must be Running; Paused/Finished/Archived not allowed)")
  else if awdEvent.phase = .pause then
    .error (.forbidden "Reset is not allowed while the event is Paused")
  else if ¬ (awdEvent.phase = .hardening ∨ awdEvent.phase = .attack) then
    .error (.forbidden s!"Reset is not allowed in {awdEvent.phase.debug} phase")
  else if awdEvent.phase = .attack ∧ ¬ hasActiveRound ∧ awdEvent.roundCount.any (0 < ·) then
    .error (.forbidden "Reset is not allowed during final settlement")
  else .ok ()

/-- The team of an instance. -/
def requireOwnerTeam (inst : GameboxInstance) : AwdM Nat :=
  match inst.ownerTeamId with
  | none => .fail (.invalidState "GameBox instance is not bound to a team")
  | some team => pure team

/-- The team that the reset is for; a player must belong to it. -/
def resetTeam (actor : ResetActor) (inst : GameboxInstance) : AwdM Nat := do
  let owner ← requireOwnerTeam inst
  match actor with
  | .player _ teamId =>
    if teamId ≠ owner then .fail (.forbidden "This GameBox does not belong to your team")
    else pure owner
  | .admin _ _ | .system => pure owner

/-! ## Rows -/

/-- Changes the status of an instance. -/
def setInstanceStatus (id : Nat) (status : GameboxStatus) (db : Db) : Db :=
  { db with instances := db.instances.map fun i => if i.id = id then { i with status } else i }

/-- Changes one record. -/
def updateResetRecord (id : Nat) (f : ResetRecord → ResetRecord) (db : Db) : Db :=
  { db with resetRecords := db.resetRecords.map fun r => if r.id = id then f r else r }

/-- `team_reset_count`: all records of the team. -/
def teamResetCount (db : Db) (teamId : Nat) : Nat := db.resetRecords.countP (·.teamId = teamId)

/-- Whether the actor's reset is free after `used` others. -/
def ResetActor.isFree (actor : ResetActor) (used : Nat) (freeResetCount : Int) : Bool :=
  match actor with
  | player _ _ => used < freeResetCount
  | admin _ chargeTeam => !chargeTeam || used < freeResetCount
  | system => true

/-- The record of a reset. -/
def resetRecord (teamId instanceId : Nat) (actor : ResetActor) (free : Bool) (db : Db) :
    ResetRecord :=
  { id := db.nextId, teamId, gameboxInstanceId := instanceId
    requestedBy := (requesterColumns actor).1, requestedByAdmin := (requesterColumns actor).2
    freeReset := free, status := .pending, createdAt := db.now, completedAt := none }

/-- Inserts the record of a reset. -/
def insertReset (teamId instanceId : Nat) (actor : ResetActor) (used : Nat) (free : Bool) :
    AwdM Nat :=
  Prog.exec (.insertReset teamId actor.charges used) dbError fun db =>
    .ok ({ db with
      resetRecords := db.resetRecords ++ [resetRecord teamId instanceId actor free db]
      nextId := db.nextId + 1 }, db.nextId)

/-- The newest pending record of the instance. -/
def pendingReset (db : Db) (instanceId : Nat) : Option ResetRecord :=
  latestBy (·.createdAt) (db.resetRecords.filter fun r =>
    r.gameboxInstanceId = instanceId ∧ r.status = .pending)

/-- The penalty for a reset. -/
def resetPenaltyEvent (eventId teamId : Nat) (penalty : Int64) (resetId id : Nat) : ScoreEvent :=
  { id, eventId, roundId := none, teamId, eventType := .resetPenalty, delta := -penalty
    idempotencyKey := .reset resetId, relatedTeamId := none, gameboxInstanceId := none
    eventGameboxId := none, reason := some "excess reset penalty" }

/-- `create_score_event` on the unique key. -/
def insertPenalty (awdEvent : AwdEvent) (teamId resetId : Nat) (db : Db) :
    Except AwdError (Db × Unit) :=
  if db.scores.any (·.idempotencyKey = .reset resetId) then
    .error (.database "duplicate key value violates unique constraint")
  else .ok ({ db with
    scores := db.scores ++
      [resetPenaltyEvent awdEvent.eventId teamId awdEvent.extraResetPenalty resetId db.nextId]
    nextId := db.nextId + 1 }, ())

/-! ## The reset -/

/-- The penalty of a reset that is not free. -/
def chargePenalty (awdEvent : AwdEvent) (resetId teamId : Nat) (free : Bool) : AwdM Unit :=
  if free then pure ()
  else Prog.exec (.resetPenalty resetId) dbError (insertPenalty awdEvent teamId resetId)

/-- What follows the rebuilt container: the instance is ready, and the reset is charged unless it is
free. -/
def finishReset (awdEvent : AwdEvent) (instanceId resetId teamId : Nat) (free : Bool) :
    AwdM Unit := do
  write (.resetReady resetId free) (setInstanceStatus instanceId .ready)
  write (.runtimeRoot resetId free) id
  chargePenalty awdEvent resetId teamId free
  write (.completeReset resetId) fun db => updateResetRecord resetId
    (fun r => { r with status := .completed, completedAt := some db.now }) db

/-- A reset has failed: instance and record say so. -/
def failReset (instanceId resetId : Nat) (e : AwdError) : AwdM Unit := do
  updateInstanceStatus instanceId .resetFailed
  write (.resetFailed resetId) (updateResetRecord resetId fun r => { r with status := .failed })
  .fail e

/-- The reset itself: the container, its flag, and the penalty. -/
def doDockerReset (awdEvent : AwdEvent) (inst : GameboxInstance) (resetId teamId : Nat)
    (free : Bool) : AwdM Unit := do
  let resolved ← select fun db => resolveEventGamebox db inst.eventGameboxId
  let _ ← orNotFound "未找到该赛事靶机" resolved
  requireEventNetwork
  Prog.query .select (.notFound "未找到队伍网络") fun _ => ()
  let rebuilt ← (call .resetGamebox (.docker "GameBox docker reset failed")).attempt
  match rebuilt with
  | .ok () => finishReset awdEvent inst.id resetId teamId free
  | .error e => failReset inst.id resetId e

/-- A reset that starts here. -/
def freshReset (awdEvent : AwdEvent) (inst : GameboxInstance) (teamId : Nat) (actor : ResetActor) :
    AwdM Unit := do
  let used ← select fun db => teamResetCount db teamId
  let free := actor.isFree used awdEvent.freeResetCount
  let resetId ← insertReset teamId inst.id actor used free
  updateInstanceStatus inst.id .resetting
  doDockerReset awdEvent inst resetId teamId free

/-- `recover_in_flight_reset`; `again` is what it does without a pending record. -/
def recoverInFlightReset (awdEvent : AwdEvent) (inst : GameboxInstance) (teamId : Nat)
    (again : AwdM Unit) : AwdM Unit := do
  let pending ← select fun db => pendingReset db inst.id
  match pending with
  | some record => doDockerReset awdEvent inst record.id teamId record.freeReset
  | none => again

/-- One turn of `execute_reset`. -/
def resetTurn (instanceId : Nat) (actor : ResetActor) (again : AwdM Unit) : AwdM Unit := do
  let awdEvent ← select (·.event)
  let found ← select fun db => findInstanceById db instanceId
  let inst ← orNotFound "未找到该靶机实例" found
  let teamId ← resetTeam actor inst
  let ban ← select fun db => findActiveBan db teamId
  if ban.isSome then .fail (.forbidden "Team is banned")
  else
    let active ← select fun db => findActiveRound db.rounds
    match checkResetEligibility awdEvent active.isSome with
    | .error e => .fail e
    | .ok () =>
      if inst.status = .resetting then recoverInFlightReset awdEvent inst teamId again
      else freshReset awdEvent inst teamId actor

/-- `execute_reset`.  Without a pending record it starts over as the system, and the recursion is
unrolled `turns` times; a request that is not out of it by then has done nothing but read. -/
def executeReset (instanceId : Nat) : Nat → ResetActor → AwdM Unit
  | 0, actor => resetTurn instanceId actor (.fail (.internal "still starting over"))
  | turns + 1, actor => resetTurn instanceId actor (executeReset instanceId turns .system)

end FloatCtf.Awd
