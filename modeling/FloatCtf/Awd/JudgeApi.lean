import FloatCtf.Awd.JudgeRepo
import FloatCtf.Awd.RoundService
import FloatCtf.Net.Text

/-!
# The judge endpoints

The internal endpoints through which the judge workers claim tasks, renew their leases and report
results, and the scheduler handler that closes a batch at its deadline.
-/

namespace FloatCtf.Awd

open Process

/-- The outcome of a result request, from its text. -/
inductive Outcome where
  | up | down | targetTimeout | workerError | unknown (text : String)
  deriving DecidableEq

/-- The outcome that a text stands for. -/
def Outcome.ofString (s : String) : Outcome :=
  if s = "up" then up
  else if s = "down" then down
  else if s = "target_timeout" then targetTimeout
  else if s = "worker_error" then workerError
  else unknown s

/-- The result of a task as a worker posts it. -/
structure JudgeResultRequest where
  workerId : String
  attempt : Int
  leaseToken : String
  resultId : String
  outcome : String
  exitCode : Option Int
  stdout : Option String
  stderr : Option String
  durationMs : Option Int
  deriving DecidableEq

/-- The lease that a result refers to. -/
def JudgeResultRequest.lease (hash : String → String) (taskId : Nat) (req : JudgeResultRequest) :
    Lease :=
  { taskId, workerId := req.workerId, attempt := req.attempt, tokenHash := hash req.leaseToken }

/-- What is written of a result. -/
def JudgeResultRequest.report (req : JudgeResultRequest) (status : JudgeTaskStatus) : JudgeReport :=
  { resultId := req.resultId, status, exitCode := req.exitCode, stdout := req.stdout
    stderr := req.stderr, durationMs := req.durationMs }

/-! ## Claim and heartbeat -/

/-- `judge_claim`.  The events whose tasks the sweeps closed are then tried for settlement; of these
only the event of this database has rows here. -/
def judgeClaim (hash : String → String) (token : Nat → String) (workerId : String)
    (limit : Option Nat) : AwdM (List ClaimedTask) := do
  let worker := Text.trim workerId
  if worker.isEmpty ∨ worker.utf8ByteSize > 256 then
    .fail (.badRequest "worker_id must be 1-256 chars")
  else
    let now ← utcNow
    let swept ← (terminalizePastDeadline now).attempt
    let deadlineEvents := match swept with
      | .ok ids => ids
      | .error _ => []
    let claim ← claimTasks hash token worker (max (min (limit.getD 5) 20) 1)
    let eventId ← Prog.look .select (·.event.eventId)
    if eventId ∈ deadlineEvents ++ claim.terminalizedEventIds then
      let _ ← maybeFinishEvent.attempt
      pure claim.tasks
    else pure claim.tasks

/-- A heartbeat and its answer. -/
def judgeHeartbeat (l : Lease) : AwdM Unit := do
  let now ← utcNow
  let result ← heartbeatTask l now
  match result with
  | .ok => pure ()
  | .stale => .fail (.conflict "stale lease or attempt")
  | .notFound => .fail (.notFound "task not found")

/-! ## Results -/

/-- `resolve_event_gamebox_spec`, as far as the scores need it. -/
def resolveEventGamebox (db : Db) (id : Nat) : Option EventGamebox :=
  db.gameboxes.find? fun g => g.id = id ∧ g.specReady

/-- The team is banned. -/
def Db.teamBanned (db : Db) (teamId : Nat) : Bool :=
  db.bans.any fun b => b.teamId = teamId ∧ b.status = .active

/-- The penalty for a service that is down. -/
def judgeDownEvent (taskId : Nat) (task : JudgeTask) (gamebox : EventGamebox) (id : Nat) :
    ScoreEvent :=
  { id, eventId := task.eventId, roundId := some task.roundId, teamId := task.teamId
    eventType := .judgeDown
    delta := -gamebox.judgeDownPenalty
    idempotencyKey := .judgeDown taskId
    relatedTeamId := none
    gameboxInstanceId := some task.gameboxInstanceId
    eventGameboxId := some gamebox.id
    reason := some "judge check" }

/-- A plain insert, refused by the unique index on the idempotency key. -/
def insertScoreRow (row : Nat → ScoreEvent) (db : Db) : Except AwdError (Db × Unit) :=
  if db.scores.any fun s => s.idempotencyKey = (row db.nextId).idempotencyKey then
    .error (.database "duplicate key value violates unique constraint")
  else .ok ({ db with scores := db.scores ++ [row db.nextId], nextId := db.nextId + 1 }, ())

/-- The scoring part of `judge_result`, for a request whose outcome is down. -/
def scoreDown (taskId : Nat) (task : JudgeTask) : AwdM Unit := do
  let awdEvent ← Prog.query (.scoreCheck taskId) dbError (·.event)
  let frozen := awdEvent.status ≠ .running ∨ !awdEvent.phase.allowsJudge
  if frozen then pure ()
  else
    let teamBanned ← Prog.query (.banCheck taskId task.teamId) dbError (·.teamBanned task.teamId)
    if teamBanned then pure ()
    else
      match task.eventGameboxId with
      | none => pure ()
      | some egId =>
        let resolved ← (Prog.query (.specCheck taskId egId) dbError
          fun db => resolveEventGamebox db egId).attempt
        match resolved with
        | .ok (some gamebox) =>
          let _ ← (Prog.exec (.scoreJudgeDown taskId) dbError
            (insertScoreRow (judgeDownEvent taskId task gamebox))).attempt
        | _ => pure ()

/-- What `judge_result` does for an accepted or repeated result: score it, and try to settle. -/
def scoreResult (taskId : Nat) (task : JudgeTask) (status : JudgeTaskStatus) : AwdM Unit := do
  let _ ← (if status = .down then scoreDown taskId task else pure ())
  let _ ← maybeFinishEvent.attempt

/-- `judge_result` after the outcome was read as a status. -/
def submitAndScore (hash : String → String) (taskId : Nat) (task : JudgeTask)
    (req : JudgeResultRequest) (status : JudgeTaskStatus) : AwdM Unit := do
  let now ← utcNow
  let result ← submitResult (req.lease hash taskId) (req.report status) now
  match result with
  | .stale => .fail (.conflict "stale lease or attempt")
  | .notFound => .fail (.notFound "task not found")
  | .ok | .idempotent => scoreResult taskId task status

/-- `judge_result`: writes the result of a lease that still holds, and its penalty. -/
def judgeResult (hash : String → String) (taskId : Nat) (req : JudgeResultRequest) :
    AwdM Unit := do
  let found ← select fun db => (findTaskById db.judgeTasks taskId, db.event.eventId)
  match found.1 with
  | none => .fail (.notFound "Judge task not found")
  | some task =>
    if task.eventId ≠ found.2 then .fail (.forbidden "Task does not belong to event")
    else
      match Outcome.ofString req.outcome with
      | .up => submitAndScore hash taskId task req .up
      | .down => submitAndScore hash taskId task req .down
      | .targetTimeout => submitAndScore hash taskId task req .down
      | .workerError =>
        if task.attemptCount < task.maxAttempts then
          let now ← utcNow
          if now < task.deadlineAt then
            writeTask (.releaseTask (req.lease hash taskId) task) taskId JudgeTask.released
          else submitAndScore hash taskId task req .judgeError
        else submitAndScore hash taskId task req .judgeError
      | .unknown text => .fail (.badRequest s!"unknown outcome: {text}")

/-- `AwdJudgeBatchDeadlineHandler::run`. -/
def handleJudgeBatchDeadline (batchId : Nat) : AwdM Unit := do
  let now ← utcNow
  let _ ← terminalizeBatchDeadline batchId now
  let _ ← (maybeCompleteBatch batchId).attempt
  let _ ← maybeFinishEvent.attempt

end FloatCtf.Awd
