import FloatCtf.Awd.Db
import Mathlib.Data.List.MinMax

/-!
# The repositories of the event lifecycle

The writes of `event_repo`, `round_repo` and `score_repo` and the scheduler rows of the rounds and
of the hardening stage.  Each of them is one atomic statement: `transition_event` and
`update_phase` lock the event row for as long as they look at it, and an update by id is a single
`UPDATE`.  A round write also answers for the two unique indexes of `awd_rounds`.
-/

namespace FloatCtf.Awd

open Process

/-! ## `event_repo` -/

/-- The columns a status change writes with it; `none` leaves a column alone. -/
structure TransitionPatch where
  phase : Option AwdPhase := none
  startedAt : Option Int := none
  verifiedRevision : Option String := none
  verifiedAt : Option Int := none
  pausedPhase : Option AwdPhase := none
  pauseRemainingSecs : Option Int := none
  finishedAt : Option Int := none
  clearVerified : Bool := false
  verifiedGeneration : Option Int := none
  hardeningEndsAt : Option (Option Int) := none

/-- What the end of an event writes. -/
def TransitionPatch.finished (now : Int) : TransitionPatch := { finishedAt := some now }

/-- What a pause writes. -/
def TransitionPatch.paused (pausedFrom : AwdPhase) (remainingSecs : Int) : TransitionPatch :=
  { phase := some .pause, pausedPhase := some pausedFrom, pauseRemainingSecs := some remainingSecs }

/-- What a change of the configuration writes. -/
def TransitionPatch.configChanged : TransitionPatch := { clearVerified := true }

/-- The event row after the update that `active_model_from_patch` describes. -/
def AwdEvent.patched (e : AwdEvent) (target : AwdEventStatus) (p : TransitionPatch) : AwdEvent :=
  { e with
    status := target
    phase := p.phase.getD e.phase
    startedAt := p.startedAt.or e.startedAt
    verifiedRevision :=
      if p.clearVerified then none else p.verifiedRevision.or e.verifiedRevision
    verifiedAt := if p.clearVerified then none else p.verifiedAt.or e.verifiedAt
    pausedPhase := p.pausedPhase.or e.pausedPhase
    pauseRemainingSecs := p.pauseRemainingSecs.or e.pauseRemainingSecs
    finishedAt := p.finishedAt.or e.finishedAt
    verifiedGeneration := p.verifiedGeneration.or
      (if p.clearVerified then none else e.verifiedGeneration)
    hardeningEndsAt := p.hardeningEndsAt.getD e.hardeningEndsAt }

/-- `transition_event` on the locked row: the transition must be valid, and the current status
must be the one the caller saw. -/
def transitionRow (expected target : AwdEventStatus) (patch : TransitionPatch) (db : Db) :
    Except AwdError (Db × Unit) :=
  match db.event.status.canTransitionTo target with
  | .error msg => .error (.invalidState msg)
  | .ok () =>
    if db.event.status ≠ expected then
      .error (.conflict (s!"concurrent status transition: event expected {expected.debug} but " ++
        s!"actual is {db.event.status.debug}"))
    else .ok ({ db with event := db.event.patched target patch }, ())

theorem transitionRow_ok {s t : AwdEventStatus} {p : TransitionPatch} {db db' : Db} {a : Unit}
    (h : transitionRow s t p db = .ok (db', a)) :
    db' = { db with event := db.event.patched t p } ∧ db.event.status = s ∧
      db.event.status.canTransitionTo t = .ok () := by
  unfold transitionRow at h
  cases hc : db.event.status.canTransitionTo t with
  | error msg =>
    rw [hc] at h
    cases h
  | ok u =>
    rw [hc] at h
    dsimp only at h
    split_ifs at h with hs
    cases h
    exact ⟨rfl, not_not.1 hs, rfl⟩

/-- The event goes from one status to another, if it is still in the first. -/
def transitionEvent (expected target : AwdEventStatus) (patch : TransitionPatch) : AwdM Unit :=
  Prog.exec (.transition expected target) dbError (transitionRow expected target patch)

/-- The event in its attack. -/
def AwdEvent.inAttack (e : AwdEvent) : AwdEvent :=
  { e with phase := .attack, hardeningEndsAt := none }

/-- `update_phase` followed by the update that clears `hardening_ends_at`, one transaction. -/
def enterAttackRow (db : Db) : Except AwdError (Db × Unit) :=
  match db.event.phase.canTransitionTo .attack with
  | .error msg => .error (.database msg)
  | .ok () => .ok ({ db with event := db.event.inAttack }, ())

/-! ## `round_repo` -/

/-- A round that is active or paused is open. -/
def RoundStatus.isOpen (s : RoundStatus) : Bool := s = .active ∨ s = .paused

/-- The round is open. -/
def AwdRound.isOpen (r : AwdRound) : Bool := r.status.isOpen

/-- The open round. -/
def findActiveRound (rounds : List AwdRound) : Option AwdRound := rounds.find? (·.isOpen)

/-- `ORDER BY key DESC LIMIT 1`; the instances are named, so that the order of `Int` is the same one
under any imports. -/
abbrev latestBy {α : Type} (key : α → Int) (rows : List α) : Option α :=
  @List.argmax α Int Int.instLinearOrder.toPartialOrder.toPreorder (fun a b => Int.decLt a b) key
    rows

/-- The latest round. -/
def findLatestRound (rounds : List AwdRound) : Option AwdRound := latestBy (·.roundNumber) rounds

/-- The round with this id. -/
def findRoundById (rounds : List AwdRound) (id : Nat) : Option AwdRound :=
  rounds.find? (·.id = id)

/-- The round of this number. -/
def findRoundByNumber (rounds : List AwdRound) (n : Int) : Option AwdRound :=
  rounds.find? (·.roundNumber = n)

/-- The unique indexes of `awd_rounds`: `(event_id, round_number)`, and `idx_awd_rounds_one_active`
on `(event_id, status)` for the open statuses. -/
def RoundIndexes (rounds : List AwdRound) : Prop :=
  (rounds.map (·.roundNumber)).Nodup ∧ rounds.countP (·.status = .active) ≤ 1 ∧
    rounds.countP (·.status = .paused) ≤ 1

instance (rounds : List AwdRound) : Decidable (RoundIndexes rounds) :=
  inferInstanceAs (Decidable (_ ∧ _ ∧ _))

/-- `UPDATE awd_rounds … WHERE id`, which fails on a missing row or on a unique index. -/
def updateRoundRow (id : Nat) (f : AwdRound → AwdRound) (rounds : List AwdRound) :
    List AwdRound := rounds.map fun r => if r.id = id then f r else r

/-- Changes one round; no such round is an error. -/
def writeRound (id : Nat) (f : Int → AwdRound → AwdRound) (db : Db) : Except AwdError (Db × Unit) :=
  let rounds := updateRoundRow id (f db.now) db.rounds
  if (findRoundById db.rounds id).isNone then
    .error (.database "None of the records are updated")
  else if RoundIndexes rounds then .ok ({ db with rounds }, ())
  else .error (.database "duplicate key value violates unique constraint")

theorem writeRound_ok {id : Nat} {f : Int → AwdRound → AwdRound} {db db' : Db} {a : Unit}
    (h : writeRound id f db = .ok (db', a)) :
    db' = { db with rounds := updateRoundRow id (f db.now) db.rounds } ∧
      (findRoundById db.rounds id).isSome = true ∧
      RoundIndexes (updateRoundRow id (f db.now) db.rounds) := by
  simp only [writeRound] at h
  split_ifs at h with h0 h1
  cases h
  exact ⟨rfl, by simpa [Option.isSome_iff_ne_none] using h0, h1⟩

/-- The round as it is completed. -/
def completedRound (now : Int) (r : AwdRound) : AwdRound :=
  { r with status := .completed, completedAt := some now }

/-- The round as it is paused. -/
def pausedRound (remainingSecs : Int) (now : Int) (r : AwdRound) : AwdRound :=
  { r with status := .paused, pausedAt := some now, remainingSecs := some remainingSecs }

/-- Pauses a round. -/
def pauseRound (id : Nat) (remainingSecs : Int) : AwdM Unit :=
  Prog.exec (.pauseRound id) dbError (writeRound id (pausedRound remainingSecs))

/-- `update_round_status` with the status `Paused`, which leaves the remaining time alone. -/
def pauseRoundStatus (id : Nat) : AwdM Unit :=
  Prog.exec (.pauseRound id) dbError (writeRound id fun _ r => { r with status := .paused })

/-- The update of the open round in `resume_event`. -/
def resumedRound (newEnd : Int) (r : AwdRound) : AwdRound :=
  { r with status := .active, scheduledEndAt := newEnd, remainingSecs := none, pausedAt := none }

/-- A round goes on to a new end. -/
def resumeRound (id : Nat) (newEnd : Int) : AwdM Unit :=
  Prog.exec (.resumeRound id) dbError (writeRound id fun _ => resumedRound newEnd)

/-! ## Scheduler rows -/

/-- A fresh one-shot scheduler row with the defaults of `scheduled_tasks`. -/
def pendingTask (id : Nat) (key : TaskKey) (executeAt : Int) (roundId batchId : Option Nat) :
    ScheduledTask :=
  { id, taskKey := key, status := .pending, executeAt, roundId, batchId, attemptCount := 0,
    maxAttempts := 3 }

/-- Schedules a task. -/
def Db.schedule (db : Db) (key : TaskKey) (executeAt : Int) (roundId batchId : Option Nat) : Db :=
  { db with
    tasks := db.tasks ++ [pendingTask db.nextId key executeAt roundId batchId]
    nextId := db.nextId + 1 }

/-- A pending task of this kind. -/
def ScheduledTask.isPending (key : TaskKey) (t : ScheduledTask) : Bool :=
  t.taskKey = key ∧ t.status = .pending

/-- Whether a pending task of this key is there. -/
def Db.hasPending (db : Db) (key : TaskKey) : Bool := db.tasks.any (·.isPending key)

/-- Schedules the end of the hardening. -/
def scheduleHardeningEnd (executeAt : Int) : AwdM Unit :=
  write .scheduleTask fun db => db.schedule .awdHardeningEnd executeAt none none

/-- Cancels what is scheduled for the end of the hardening. -/
def cancelPendingHardeningEnd : AwdM Unit :=
  write .cancelTasks fun db =>
    { db with tasks := db.tasks.filter fun t => !t.isPending .awdHardeningEnd }

/-- The row of `create_round`. -/
def createdRound (id : Nat) (roundNumber now scheduledEndAt : Int) : AwdRound :=
  { id, roundNumber, status := .active, phase := .attack, startedAt := now, scheduledEndAt,
    pausedAt := none, remainingSecs := none, completedAt := none }

/-- The two inserts of the transaction of `start_round`. -/
def insertRoundRow (roundNumber : Int) (scheduledEndAt : Int) (db : Db) :
    Except AwdError (Db × AwdRound) :=
  let round := createdRound db.nextId roundNumber db.now scheduledEndAt
  let rounds := db.rounds ++ [round]
  if RoundIndexes rounds then
    let db' : Db := { db with rounds, nextId := db.nextId + 1 }
    .ok (db'.schedule .awdRoundEnd scheduledEndAt (some round.id) none, round)
  else .error (.database "duplicate key value violates unique constraint")

theorem insertRoundRow_ok {n executeAt : Int} {db db' : Db} {r : AwdRound}
    (h : insertRoundRow n executeAt db = .ok (db', r)) :
    r = createdRound db.nextId n db.now executeAt ∧ RoundIndexes (db.rounds ++ [r]) ∧
      db' = Db.schedule { db with rounds := db.rounds ++ [r], nextId := db.nextId + 1 }
        .awdRoundEnd executeAt (some r.id) none := by
  simp only [insertRoundRow] at h
  split_ifs at h with h0
  cases h
  exact ⟨rfl, h0, rfl⟩

/-! ## `score_repo` -/

/-- `INSERT … ON CONFLICT (idempotency_key) DO NOTHING`. -/
def scoreIfAbsentRow (row : Nat → ScoreEvent) (db : Db) : Db × Bool :=
  if db.scores.any fun s => s.idempotencyKey = (row db.nextId).idempotencyKey then (db, false)
  else ({ db with scores := db.scores ++ [row db.nextId], nextId := db.nextId + 1 }, true)

/-- A score, unless its key is there. -/
def createScoreEventIfAbsent (l : Stmt) (row : Nat → ScoreEvent) : AwdM Bool :=
  Prog.exec l dbError fun db => .ok (scoreIfAbsentRow row db)

/-! ## The firewall -/

/-- `next_network_revision`; the counter is a row of the settings. -/
def nextNetworkRevision : AwdM Unit :=
  Prog.query .networkRevision (.database "revision persist: database error") fun _ => ()

/-- `reconcile_global`: the rules are built from the database and written to the firewall. -/
def reconcileGlobal (site : Ext) : AwdM Unit := call site (.network "firewall reconcile failed")

/-- A reconcile under the next revision whose outcome the caller looks at or drops; an error of the
revision itself is raised. -/
def tryReconcile (site : Ext) : AwdM (Except AwdError Unit) := do
  nextNetworkRevision
  (reconcileGlobal site).attempt

/-- `event_network_repo::require_by_event_id`. -/
def requireEventNetwork : AwdM Unit := do
  let row ← select (·.networkRow)
  if row then pure () else .fail (.notFound "event network not allocated")

end FloatCtf.Awd
