import FloatCtf.Awd.JudgeService

/-!
# The judge tasks

`judge_repo`: claiming under a lease, heartbeats, results, the reclaim of expired leases and the
deadline sweeps.  Except for the claim, which locks the rows it takes, an operation reads a task,
decides, and then writes the row by its id in a second statement.

The hash of the lease tokens is a parameter of the operations that use it.
-/

namespace FloatCtf.Awd

open Process

/-- The length of a lease. -/
def leaseTtlSecs : Int := 120

/-- How a heartbeat is answered. -/
inductive HeartbeatResult where
  | ok | stale | notFound
  deriving DecidableEq

/-- How a result is answered. -/
inductive SubmitResult where
  | ok | idempotent | stale | notFound
  deriving DecidableEq

/-- The task with this id. -/
def findTaskById (tasks : List JudgeTask) (id : Nat) : Option JudgeTask := tasks.find? (·.id = id)

/-! ## Row updates -/

/-- The task without a lease. -/
def JudgeTask.clearLease (t : JudgeTask) : JudgeTask :=
  { t with workerId := none, leaseTokenHash := none, leaseExpiresAt := none, heartbeatAt := none,
           claimedAt := none }

/-- `release_task_to_pending`, also the retry of an expired lease. -/
def JudgeTask.released (t : JudgeTask) : JudgeTask := { t.clearLease with status := .pending }

/-- The end of a task that a deadline or its last expired lease closes. -/
def JudgeTask.failed (now : Int) (t : JudgeTask) : JudgeTask :=
  { t.clearLease with status := .judgeError, finishedAt := some now }

/-- The task as it is claimed. -/
def JudgeTask.claimed (worker tokenHash : String) (now expires : Int) (t : JudgeTask) : JudgeTask :=
  { t with
    status := .running
    workerId := some worker
    attemptCount := t.attemptCount + 1
    startedAt := if t.attemptCount = 0 then some now else t.startedAt
    claimedAt := some now
    heartbeatAt := some now
    leaseExpiresAt := some expires
    leaseTokenHash := some tokenHash }

/-- The task with a lease that begins anew. -/
def JudgeTask.renewed (now expires : Int) (t : JudgeTask) : JudgeTask :=
  { t with heartbeatAt := some now, leaseExpiresAt := some expires }

/-- The task with its result. -/
def JudgeTask.reported (now : Int) (r : JudgeReport) (t : JudgeTask) : JudgeTask :=
  { t.clearLease with
    status := r.status
    finishedAt := some now
    exitCode := r.exitCode
    stdoutLimited := r.stdout
    stderrLimited := r.stderr
    durationMs := r.durationMs
    callbackIdempotencyKey := some r.resultId }

/-- Changes one task. -/
def updateTaskRow (id : Nat) (f : JudgeTask → JudgeTask) (tasks : List JudgeTask) :
    List JudgeTask := tasks.map fun t => if t.id = id then f t else t

/-- `UPDATE awd_judge_tasks … WHERE id`. -/
def writeTask (l : Stmt) (id : Nat) (f : JudgeTask → JudgeTask) : AwdM Unit :=
  Prog.exec l dbError fun db =>
    if (findTaskById db.judgeTasks id).isNone then
      .error (.database "None of the records are updated")
    else .ok ({ db with judgeTasks := updateTaskRow id f db.judgeTasks }, ())

/-! ## Leases -/

/-- The worker, the attempt and the token are the ones the task was claimed with. -/
def JudgeTask.holds (t : JudgeTask) (l : Lease) : Bool :=
  t.status = .running ∧ t.workerId = some l.workerId ∧ t.attemptCount = l.attempt ∧
    t.leaseTokenHash = some l.tokenHash

/-- The lease of the task is over. -/
def JudgeTask.leaseExpired (now : Int) (t : JudgeTask) : Bool :=
  t.status = .running ∧ (t.leaseExpiresAt.map fun e => decide (e < now)).getD false

/-- The task has attempts and time left. -/
def JudgeTask.canRetry (now : Int) (t : JudgeTask) : Bool :=
  t.attemptCount < t.maxAttempts ∧ now < t.deadlineAt

/-- The update that `reclaim_expired_leases` makes for a task it read. -/
def reclaimUpdate (now : Int) (seen : JudgeTask) : JudgeTask → JudgeTask :=
  if seen.canRetry now then JudgeTask.released else JudgeTask.failed now

/-- Reopens or ends the expired tasks one after the other. -/
def reclaimRows (now : Int) (expired : List JudgeTask) (tasks : List JudgeTask) : List JudgeTask :=
  expired.foldl (fun ts seen => updateTaskRow seen.id (reclaimUpdate now seen) ts) tasks

/-- A task as its worker is given it. -/
structure ClaimedTask where
  taskId : Nat
  attempt : Int
  leaseToken : String
  deriving DecidableEq

/-- What a claim gives: tasks, and the events with tasks that have ended. -/
structure ClaimResult where
  tasks : List ClaimedTask
  terminalizedEventIds : List Nat
  deriving DecidableEq

/-- The pending tasks of the event, oldest first, that one claim takes. -/
def claimable (eventId limit : Nat) (tasks : List JudgeTask) : List JudgeTask :=
  ((tasks.filter fun t => t.eventId = eventId ∧ t.status = .pending).mergeSort
    fun a b => a.createdAt ≤ b.createdAt).take limit

/-- What `claim_tasks` commits: the reclaims it decided on, and the lease of every pending row that
it locked. -/
def claimRows (hash : String → String) (token : Nat → String) (worker : String) (limit : Nat)
    (now : Int) (expired : List JudgeTask) (db : Db) : Db × List ClaimedTask :=
  let tasks := reclaimRows now expired db.judgeTasks
  let rows := claimable db.event.eventId limit tasks
  let expires := db.now + leaseTtlSecs * sec
  ({ db with judgeTasks := rows.foldl (fun ts row =>
      updateTaskRow row.id (JudgeTask.claimed worker (hash (token row.id)) now expires) ts) tasks },
    rows.map fun row => { taskId := row.id, attempt := row.attemptCount + 1,
                          leaseToken := token row.id })

/-- `claim_tasks`: takes expired leases back and hands tasks out. -/
def claimTasks (hash : String → String) (token : Nat → String) (worker : String) (limit : Nat) :
    AwdM ClaimResult := do
  let now ← utcNow
  let expired ← select fun db => db.judgeTasks.filter (·.leaseExpired now)
  let tasks ← Prog.exec (.claimTasks expired) dbError fun db =>
    .ok (claimRows hash token worker limit now expired db)
  pure { tasks, terminalizedEventIds := (expired.filter fun t => !t.canRetry now).map (·.eventId) }

/-- `heartbeat_task`: renews a lease that still holds. -/
def heartbeatTask (l : Lease) (now : Int) : AwdM HeartbeatResult := do
  let found ← select fun db => findTaskById db.judgeTasks l.taskId
  match found with
  | none => pure .notFound
  | some task =>
    if !task.holds l then pure .stale
    else if task.deadlineAt ≤ now then pure .stale
    else
      writeTask (.heartbeatTask l task) l.taskId
        (JudgeTask.renewed now (min (now + leaseTtlSecs * sec) task.deadlineAt))
      pure .ok

/-- `submit_result`: writes the result of a lease that still holds. -/
def submitResult (l : Lease) (r : JudgeReport) (now : Int) : AwdM SubmitResult := do
  let found ← Prog.query (.readResult l r) dbError fun db => findTaskById db.judgeTasks l.taskId
  match found with
  | none => pure .notFound
  | some task =>
    if task.callbackIdempotencyKey = some r.resultId ∧ task.status.isTerminal then
      pure .idempotent
    else if !task.holds l then pure .stale
    else if task.deadlineAt ≤ now then pure .stale
    else
      writeTask (.submitResult l task r) l.taskId (JudgeTask.reported now r)
      pure .ok

/-! ## Deadlines -/

/-- The task is pending or running. -/
def JudgeTask.isUnfinished (t : JudgeTask) : Bool := t.status = .pending ∨ t.status = .running

/-- Ends the tasks one after the other. -/
def terminalizeTasks (tasks : List JudgeTask) (now : Int) : AwdM Unit :=
  Prog.each tasks fun t => writeTask (.terminalizeTask t) t.id (JudgeTask.failed now)

/-- Ends the tasks of a batch whose deadline has passed. -/
def terminalizeBatchDeadline (batchId : Nat) (now : Int) : AwdM Nat := do
  let tasks ← select fun db =>
    db.judgeTasks.filter fun t => t.batchId = batchId ∧ t.isUnfinished
  let late := tasks.filter fun t => t.deadlineAt ≤ now
  terminalizeTasks late now
  pure late.length

/-- Ends all tasks whose deadline has passed. -/
def terminalizePastDeadline (now : Int) : AwdM (List Nat) := do
  let tasks ← select fun db => db.judgeTasks.filter fun t => t.isUnfinished ∧ t.deadlineAt ≤ now
  terminalizeTasks tasks now
  pure (tasks.map (·.eventId))

/-- `maybe_complete_batch`. -/
def maybeCompleteBatch (batchId : Nat) : AwdM Bool := do
  let tasks ← select fun db => db.judgeTasks.filter (·.batchId = batchId)
  if tasks.all (·.status.isTerminal) then
    let completed := tasks.countP fun t => t.status = .up ∨ t.status = .down
    write .completeBatch fun db =>
      { db with batches := db.batches.map fun b =>
          if b.id = batchId then
            { b with status := .completed, completedTasks := completed
                     failedTasks := tasks.length - completed }
          else b }
    pure true
  else pure false

end FloatCtf.Awd
