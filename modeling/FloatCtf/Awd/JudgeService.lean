import FloatCtf.Awd.Repo

/-!
# Judge batches

`create_batch` of `judge_service`: one batch row for a round and one task row for every game box
instance of every team that is not banned, each written by its own statement.
-/

namespace FloatCtf.Awd

open Process

/-- One task that a batch asks for: the team, the game box and the instance to probe. -/
structure BatchSlot where
  team : EventTeam
  gamebox : EventGamebox
  inst : GameboxInstance
  deriving DecidableEq

/-- The instance of a team for a game box, as the loop of `create_batch` finds it. -/
def findInstance (instances : List GameboxInstance) (team : EventTeam) (eg : EventGamebox) :
    Option GameboxInstance :=
  instances.find? fun i => i.teamId = team.id ∧ i.eventGameboxId = eg.id

/-- The iterations of the two loops of `create_batch` that insert a task: banned teams are skipped,
and so is a game box for which the team has no instance. -/
def batchSlots (teams : List EventTeam) (bannedTeamIds : List Nat) (gameboxes : List EventGamebox)
    (instances : List GameboxInstance) : List BatchSlot :=
  (teams.filter fun t => t.id ∉ bannedTeamIds).flatMap fun team =>
    gameboxes.filterMap fun gamebox =>
      (findInstance instances team gamebox).map fun inst => { team, gamebox, inst }

/-- An instance that is resetting, or not created yet, is not probed. -/
def initialTaskStatus (i : GameboxInstance) : JudgeTaskStatus :=
  if i.status = .resetting ∨ i.status = .pending then .skippedResetting else .pending

/-- A new task. -/
def newJudgeTask (id batchId eventId roundId : Nat) (deadline now : Int) (slot : BatchSlot) :
    JudgeTask :=
  { id, batchId, eventId, roundId
    gameboxInstanceId := slot.inst.id
    eventGameboxId := some slot.gamebox.id
    teamId := slot.team.id
    status := initialTaskStatus slot.inst
    attemptCount := 0
    maxAttempts := 2
    deadlineAt := deadline
    startedAt := none
    finishedAt := none
    exitCode := none
    stdoutLimited := none
    stderrLimited := none
    durationMs := none
    callbackIdempotencyKey :=
      some s!"judge:{eventId}:{roundId}:{slot.team.id}:{slot.inst.id}"
    workerId := none
    leaseTokenHash := none
    leaseExpiresAt := none
    heartbeatAt := none
    claimedAt := none
    createdAt := now }

/-- A new batch. -/
def newBatch (id roundId : Nat) (totalTasks : Int) : JudgeBatch :=
  { id, roundId, totalTasks, completedTasks := 0, failedTasks := 0, status := .pending }

/-- `judge_repo::create_batch`. -/
def insertBatch (roundId : Nat) (totalTasks : Int) : AwdM Nat :=
  Prog.exec .insertBatch dbError fun db => .ok
    ({ db with
        batches := db.batches ++ [newBatch db.nextId roundId totalTasks]
        nextId := db.nextId + 1 }, db.nextId)

/-- Inserts the task of one instance. -/
def insertJudgeTask (batchId roundId : Nat) (deadline : Int) (slot : BatchSlot) : AwdM Unit :=
  write .insertJudgeTask fun db =>
    { db with
      judgeTasks := db.judgeTasks ++
        [newJudgeTask db.nextId batchId db.event.eventId roundId deadline db.now slot]
      nextId := db.nextId + 1 }

/-- A read of `create_batch`. -/
def batchRead {α : Type} (f : Db → α) : AwdM α := Prog.query .batchSelect dbError f

/-- The `Utc::now()` of `create_batch`. -/
def batchNow : AwdM Int := Prog.look .batchSelect (·.now)

/-- `create_batch`: a batch with a task for every instance that is to be judged. -/
def createBatch (roundId : Nat) : AwdM Nat := do
  let awdEvent ← batchRead (·.event)
  let eventGameboxes ← batchRead (·.gameboxes)
  if eventGameboxes.isEmpty then .fail (.validation "No gameboxes configured for event")
  else
    let teams ← batchRead (·.teams)
    let bans ← batchRead fun db => db.bans.filter (·.status = .active)
    let instances ← batchRead (·.instances)
    let batch ← insertBatch roundId (asI32 (eventGameboxes.length * teams.length))
    let now ← batchNow
    let deadline :=
      now + (awdEvent.judgeDefaultTimeoutSecs + awdEvent.judgeGracePeriodSecs) * sec
    Prog.each (batchSlots teams (bans.map (·.teamId)) eventGameboxes instances)
      (insertJudgeTask batch roundId deadline)
    pure batch

/-- `max_task_deadline` of `round_service`. -/
def maxTaskDeadline (batchId : Nat) : AwdM Int := do
  let task ← select fun db => latestBy (·.deadlineAt) (db.judgeTasks.filter (·.batchId = batchId))
  match task with
  | none => .fail (.notFound "No tasks in batch")
  | some t => pure t.deadlineAt

/-- `all_event_judge_tasks_terminal`. -/
def Db.allJudgeTasksTerminal (db : Db) : Bool :=
  (db.judgeTasks.filter fun t =>
    t.eventId = db.event.eventId ∧ (t.status = .pending ∨ t.status = .running)).isEmpty

end FloatCtf.Awd
