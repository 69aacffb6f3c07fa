import FloatCtf.Awd.EventService
import FloatCtf.Awd.JudgeApi

/-!
# Task delivery and restart recovery

The part of the scheduler engine that takes a due task, runs its handler and records the outcome,
and `recovery_service`, which a restarting process runs before the engine puts the tasks it had
left running back to pending.
-/

namespace FloatCtf.Awd

open Process

/-! ## Task delivery -/

/-- The row of `fetch_and_run`: a due pending task becomes running. -/
def fetchTask (id : Nat) : AwdM ScheduledTask :=
  Prog.exec .fetchTask dbError fun db =>
    match db.tasks.find? fun t => t.id = id ∧ t.status = .pending ∧ t.executeAt ≤ db.now with
    | none => .error (.notFound "no due task")
    | some t =>
      .ok ({ db with tasks := db.tasks.map fun u =>
              if u.id = id then { u with status := .running } else u }, t)

/-- The outcome that `mark_done` records for a one-shot task: done, or another try later. -/
def ScheduledTask.settled (t : ScheduledTask) (now : Int) (res : Except AwdError Unit) :
    ScheduledTask → ScheduledTask :=
  match res with
  | .ok () => fun u => { u with status := .completed, attemptCount := 0 }
  | .error _ =>
    let attempts := min (t.attemptCount + 1) (2 ^ 31 - 1)
    if attempts < max t.maxAttempts 1 then fun u =>
      { u with status := .pending, attemptCount := attempts
               executeAt := now + 30 * attempts * sec }
    else fun u => { u with status := .failed, attemptCount := attempts }

/-- Settles a task with its result. -/
def markDone (t : ScheduledTask) (res : Except AwdError Unit) : AwdM Unit :=
  write .markDone fun db =>
    { db with tasks := db.tasks.map fun u => if u.id = t.id then t.settled db.now res u else u }

/-- The handler that the registry has for the task. -/
def runHandler (t : ScheduledTask) : AwdM Unit :=
  match t.taskKey with
  | .awdHardeningEnd => handleHardeningEnd
  | .awdRoundEnd => handleRoundEnd t.roundId
  | .awdJudgeBatchDeadline =>
    match t.batchId with
    | some batchId => handleJudgeBatchDeadline batchId
    | none => .fail (.validation "invalid type: null, expected a UUID")

/-- `dispatch_with_precision` of a task whose time has come. -/
def deliver (id : Nat) : AwdM Unit := do
  let task ← fetchTask id
  let res ← (runHandler task).attempt
  markDone task res

/-! ## Restart recovery -/

/-- What the container runtime reports for the container of an instance. -/
inductive Container where
  | absent | stopped | running (sameId : Bool)
  deriving DecidableEq

/-- What the recovery finds outside the database: the containers, and the WireGuard key of the
event, `none` when it has no key and `some false` when the key does not decrypt. -/
structure Host where
  container : GameboxInstance → Container
  wireguardKey : Option Bool

/-- The status the recovery gives an instance, if it writes one. -/
def Host.repair (host : Host) (i : GameboxInstance) : Option GameboxStatus :=
  match host.container i with
  | .running true => none
  | .running false => some .ready
  | _ =>
    if i.status = .ready ∨ i.status = .running ∨ i.status = .creating ∨ i.status = .pending then
      some .missing
    else none

/-- Whether the instance counts as recovered. -/
def Host.counts (host : Host) (i : GameboxInstance) : Bool :=
  match host.container i with
  | .running _ => true
  | _ => (host.repair i).isSome

/-- Changes the status of an instance. -/
def updateInstanceStatus (id : Nat) (status : GameboxStatus) : AwdM Unit :=
  write .instanceStatus fun db =>
    { db with instances := db.instances.map fun i => if i.id = id then { i with status } else i }

/-- Containers: step 1 of `recover_event`. -/
def reconcileContainers (host : Host) : AwdM Nat := do
  call .listContainers (.docker "list containers failed")
  let instances ← select (·.instances)
  Prog.each instances fun i =>
    match host.repair i with
    | some status => updateInstanceStatus i.id status
    | none => pure ()
  pure (instances.countP host.counts)

/-- WireGuard: step 2 of `recover_event`. -/
def restoreWireguard (host : Host) : AwdM Nat :=
  match host.wireguardKey with
  | none => pure 0
  | some false => .fail (.crypto "failed to decrypt WG private key for recovery")
  | some true => do
    call .ensureWireguard (.network "ensure_wireguard failed")
    pure 1

/-- Step 4a of `recover_event`: the hardening task of a running event. -/
def restoreHardeningEnd (event : AwdEvent) : AwdM Nat :=
  if event.phase = .hardening ∧ event.status = .running then
    match event.hardeningEndsAt with
    | none => pure 0
    | some deadline => do
      let pending ← select (·.hasPending .awdHardeningEnd)
      if pending then pure 0
      else
        scheduleHardeningEnd deadline
        pure 1
  else pure 0

/-- One iteration of `restore_batch_deadlines`. -/
def restoreBatchDeadline (batch : JudgeBatch) : AwdM Nat := do
  let pending ← select (·.hasPending .awdJudgeBatchDeadline)
  if pending then pure 0
  else
    let latest ← select fun db =>
      latestBy (·.deadlineAt) (db.judgeTasks.filter (·.batchId = batch.id))
    let now ← utcNow
    scheduleBatchDeadlineTask batch.id ((latest.map (·.deadlineAt)).getD now)
    pure 1

/-- The deadlines of several batches. -/
def restoreBatches : List JudgeBatch → AwdM Nat
  | [] => pure 0
  | batch :: batches => do
    let one ← restoreBatchDeadline batch
    let others ← restoreBatches batches
    pure (one + others)

/-- The deadlines of all open batches. -/
def restoreBatchDeadlines : AwdM Nat := do
  let batches ← select fun db => db.batches.filter (·.status ≠ .completed)
  restoreBatches batches

/-- Step 5 of `recover_event`: an event that waits only for its settlement is tried again. -/
def recoverSettlement (event : AwdEvent) : AwdM Unit :=
  if event.status = .running ∧ event.phase = .attack then do
    let activeRound ← select fun db => findActiveRound db.rounds
    if activeRound.isSome then pure ()
    else
      let latest ← select fun db => findLatestRound db.rounds
      if isFinalSettlement event latest then
        let _ ← maybeFinishEvent.attempt
      else pure ()
  else pure ()

/-- The network of a finished event is closed again. -/
def recoverFinished (event : AwdEvent) : AwdM Nat :=
  if event.status = .finished then do
    let _ ← tryReconcile .finishEvent
    let _ ← requireEventNetwork.attempt
    pure 1
  else pure 0

/-- `recover_event` from its step 4b on. -/
def recoverSchedules (event : AwdEvent) : AwdM Nat := do
  let restoredTasks ← restoreRoundScheduling
  let restoredBatches ← restoreBatchDeadlines
  recoverSettlement event
  let lockdown ← recoverFinished event
  pure (restoredTasks + restoredBatches + lockdown)

/-- What the recovery does for an event. -/
def recoverEvent (host : Host) (event : AwdEvent) : AwdM Nat := do
  let containers ← reconcileContainers host
  let wireguard ← restoreWireguard host
  nextNetworkRevision
  reconcileGlobal .recoverEvent
  let hardening ← restoreHardeningEnd event
  let schedules ← recoverSchedules event
  pure (containers + wireguard + 1 + hardening + schedules)

/-- The statuses of `find_active_events`. -/
def AwdEventStatus.isRecovered (s : AwdEventStatus) : Bool :=
  s ∈ [running, paused, verified, deploying, deployed, prechecking]

/-- `recover_all`: the recovery of an event in one of the states for it. -/
def recoverAll (host : Host) : AwdM Unit := do
  let event ← select (·.event)
  if event.status.isRecovered then
    let row ← (select (·.networkRow)).attempt
    match row with
    | .ok true =>
      let _ ← (recoverEvent host event).attempt
    | _ => pure ()
  else pure ()

/-- The part of `init_and_recover` that concerns one-shot tasks. -/
def initAndRecover : AwdM Unit :=
  write .resetTasks fun db =>
    { db with tasks := db.tasks.map fun t =>
        if t.status = .running then { t with status := .pending } else t }

/-- What a restarting process does with the event. -/
def restart (host : Host) : AwdM Unit := do
  let _ ← (recoverAll host).attempt
  initAndRecover

end FloatCtf.Awd
