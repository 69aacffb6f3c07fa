import FloatCtf.Awdp.EvaluationSteps
import FloatCtf.Awdp.RunRepo

/-!
# The tick and the fix timeline

One recurring task moves all runs along: it creates the runs of events that are due, ends the Break,
resets the instances, writes the rounds of the Fix one by one, materialises the evaluations of a round
after its cutoff, and ends the run after the last one.  The admin routes make the same transitions by
hand.
-/

namespace FloatCtf.Awdp

open Process

/-! ## Rounds -/

/-- The row of a new round. -/
def FixRound.created (id runId : Nat) (w : RoundWindow) : FixRound where
  id := id
  runId := runId
  sequence := w.sequence
  startsAt := w.startsAt
  cutoffAt := w.cutoffAt
  status := .pending
  expectedEvalCount := none

/-- Inserts a round. -/
def Db.insertRound (db : Db) (runId : Nat) (w : RoundWindow) : Db :=
  { db with
    rounds := db.rounds ++ [.created db.nextId runId w]
    nextId := db.nextId + 1 }

/-- One window of `materialize_rounds`: a sequence that is there is skipped. -/
def materializeWindow (runId : Nat) (w : RoundWindow) : AwdpM Unit := do
  if (← findBySequence runId w.sequence).isSome then pure ()
  else
    Prog.exec (.insertRound runId w.sequence) dbError fun db =>
      if db.rounds.any fun r => r.runId = runId ∧ r.sequence = w.sequence then .error dbError
      else .ok (db.insertRound runId w, ())

/-- `materialize_rounds`. -/
def materializeRounds (runId : Nat) : AwdpM Unit := do
  let run ← requireRun runId
  match run.fixStartedAt with
  | none => .fail (.invalidState "fix_started_at is not set")
  | some fixStart =>
    let count := run.config.fixDurationSecs.tdiv run.config.fixRoundIntervalSecs
    Prog.each (roundWindows fixStart run.config.fixRoundIntervalSecs count)
      (materializeWindow runId)

/-- The rounds by their sequence, the lowest first. -/
def lowestRound (rounds : List FixRound) : Option FixRound :=
  (rounds.insertionSort fun a b => a.sequence ≤ b.sequence).head?

/-- `next_pending_due_round`. -/
def nextPendingDueRound (runId : Nat) (now : Int) : AwdpM (Option FixRound) :=
  select fun db => lowestRound (db.rounds.filter fun r =>
    r.runId = runId ∧ r.status = .pending ∧ r.cutoffAt ≤ now)

/-- `next_pending_round`. -/
def nextPendingRound (runId : Nat) : AwdpM (Option FixRound) :=
  select fun db => lowestRound (db.rounds.filter fun r => r.runId = runId ∧ r.status = .pending)

/-- Changes one round. -/
def Db.editRound (db : Db) (id : Nat) (f : FixRound → FixRound) : Db :=
  { db with rounds := db.rounds.map fun r => if r.id = id then f r else r }

/-- The instances of the run that have been started, and have no evaluation of the round. -/
def Db.unevaluated (db : Db) (runId roundId : Nat) : List Instance :=
  db.instances.filter fun i => i.runId = runId ∧ i.runtimeState ≠ .pending ∧
    (db.official roundId i.id).isNone

/-- The transaction of `materialize_round_atomic`. -/
def Db.materializeRound (db : Db) (runId roundId : Nat) (now : Int) : Db :=
  let instances := db.unevaluated runId roundId
  let db' := instances.foldl (fun db i =>
    db.insertEvaluation runId i.id (some roundId) .official now) db
  db'.editRound roundId fun r => { r with
    status := .evaluating
    expectedEvalCount := some instances.length }

/-- `materialize_round_atomic`; a round that is not pending any more is skipped. -/
def materializeRoundAtomic (runId roundId : Nat) (now : Int) : AwdpM Nat :=
  Prog.exec (.materializeRound runId roundId) dbError fun db =>
    match db.roundById roundId with
    | none => .error (.notFound "未找到该 AWDP 修复回合")
    | some round =>
      if round.status ≠ .pending then .ok (db, 0)
      else .ok (db.materializeRound runId roundId now, (db.unevaluated runId roundId).length)

/-- The evaluations of the round are there and terminal. -/
def FixRound.finishedBy (r : FixRound) (evaluations : List Evaluation) : Bool :=
  let finished := evaluations.all (·.status.terminal)
  match r.expectedEvalCount with
  | some (n + 1) => evaluations.length = n + 1 ∧ finished
  | _ => 0 < evaluations.length ∧ finished

/-- `set_status` to completed. -/
def completeRound (roundId : Nat) : AwdpM Unit := do
  let _ ← findRound roundId
  Prog.exec (.completeRound roundId) dbError fun db =>
    match db.roundById roundId with
    | none => .error dbError
    | some _ => .ok (db.editRound roundId fun r => { r with status := .completed }, ())

/-- One round of `complete_finished_rounds`. -/
def completeFinished (round : FixRound) : AwdpM Unit := do
  let all ← select fun db => db.evaluations.filter (·.fixRoundId = some round.id)
  if round.finishedBy all then completeRound round.id else pure ()

/-- `complete_finished_rounds`. -/
def completeFinishedRounds : AwdpM Unit := do
  let evaluating ← select fun db => db.rounds.filter (·.status = .evaluating)
  Prog.each evaluating completeFinished

/-! ## Break to Fix -/

/-- `transition_break_to_preparing_fix`. -/
def transitionBreakToPreparingFix (runId : Nat) : AwdpM Unit := do
  let now ← utcNow
  transitionPhase runId .break .preparingFix { nextActionAt := some now }

/-- The resets of `reconcile_preparing_fix`, up to the first one that fails. -/
def resetInstances : List Instance → AwdpM Bool
  | [] => pure true
  | i :: is => do
    match ← (resetInstance i.id).attempt with
    | .ok _ => resetInstances is
    | .error _ => pure false

/-- How long the preparation is left alone between two looks. -/
def preparingReconcileIntervalSecs : Int := 15

/-- The transition of `reconcile_preparing_fix`, after the resets. -/
def enterFix (runId : Nat) (config : AwdpConfig) : AwdpM Unit := do
  let now ← utcNow
  transitionPhase runId .preparingFix .fix
    { fixStartedAt := some now, fixEndsAt := some (now + config.fixDurationSecs),
      currentRound := some 0, nextActionAt := some (now + config.fixRoundIntervalSecs) }
  materializeRounds runId

/-- `reconcile_preparing_fix`. -/
def reconcilePreparingFix (runId : Nat) : AwdpM Bool := do
  let run ← requireRun runId
  if run.phase ≠ .preparingFix then pure false
  else do
    ofExcept run.config.validate
    let rows ← select fun db => db.instances.filter (·.runId = runId)
    if ← resetInstances (rows.filter (·.runtimeState ≠ .pending)) then do
      enterFix runId run.config
      pure true
    else do
      let now ← utcNow
      let _ ← (touchTickState runId run.currentRound
        (now + preparingReconcileIntervalSecs)).attempt
      pure false

/-- The CAS of `transition_break_to_fix`, for a run that is still in Break. -/
def leaveBreak (run : Run) : AwdpM Unit :=
  if run.phase = .break then transitionBreakToPreparingFix run.id else pure ()

/-- `transition_break_to_fix`. -/
def transitionBreakToFix (runId : Nat) : AwdpM Unit := do
  let run ← requireRun runId
  leaveBreak run
  if ← reconcilePreparingFix runId then pure ()
  else .fail (.invalidState "PreparingFix reconcile 未完成（实例 reset 失败）")

/-! ## The tick -/

/-- The end of the Fix, after the last round; a failing transition is only logged. -/
def finishFix (run : Run) (now : Int) : AwdpM (Option Nat) := do
  let r ← (transitionPhase run.id .fix .ended
    { finishedAt := some (run.fixEndsAt.getD (now + run.config.fixDurationSecs)),
      currentRound := some run.currentRound }).attempt
  match r with
  | .ok _ => pure (some run.eventId)
  | .error _ => pure none

/-- `process_fix_round_cutoffs`: one round at most. -/
def processFixRoundCutoffs (runId : Nat) (now : Int) : AwdpM (Nat × Option Nat) := do
  match ← nextPendingDueRound runId now with
  | none => pure (0, none)
  | some round => do
    let _ ← materializeRoundAtomic runId round.id now
    let run ← requireRun runId
    match ← nextPendingRound runId with
    | some next => do
      touchTickState runId next.sequence next.cutoffAt
      pure (1, none)
    | none => do
      let ended ← finishFix run now
      pure (1, ended)

/-- The timeline of a run in Fix is written when it has no round at all. -/
def ensureRounds (runId : Nat) : AwdpM Unit := do
  let rounds ← select fun db => db.rounds.filter (·.runId = runId)
  if rounds.isEmpty then materializeRounds runId else pure ()

/-- What a tick has done. -/
structure TickSummary where
  started : Nat := 0
  toFix : Nat := 0
  roundCutoffs : Nat := 0
  phaseTransitions : List (Nat × String) := []

/-- The work of two parts of a tick. -/
def TickSummary.add (s t : TickSummary) : TickSummary where
  started := s.started + t.started
  toFix := s.toFix + t.toFix
  roundCutoffs := s.roundCutoffs + t.roundCutoffs
  phaseTransitions := s.phaseTransitions ++ t.phaseTransitions

/-- A transition of the tick; a failing one is only logged. -/
def logged {α : Type} (p : AwdpM α) (done : α → TickSummary) : AwdpM TickSummary := do
  match ← p.attempt with
  | .ok a => pure (done a)
  | .error _ => pure {}

/-- A run that waits for the start of its event. -/
def tickPending (run : Run) (now : Int) : AwdpM TickSummary := do
  match ← select fun db => db.events.find? (·.id = run.eventId) with
  | none => pure {}
  | some event =>
    if event.startTime ≤ now then
      let breakEnds := now + run.config.breakDurationSecs
      logged (transitionPhase run.id .pending .break
        { startedAt := some now, breakEndsAt := some breakEnds, nextActionAt := some breakEnds })
        fun _ => { started := 1, phaseTransitions := [(run.eventId, "break")] }
    else pure {}

/-- A run in its fix: its rounds exist, and those that are over are closed. -/
def tickFix (run : Run) (now : Int) : AwdpM TickSummary := do
  ensureRounds run.id
  let (processed, ended) ← processFixRoundCutoffs run.id now
  pure { roundCutoffs := processed, phaseTransitions := ended.toList.map (·, "ended") }

/-- One due run of the tick. -/
def tickRun (now : Int) (run : Run) : AwdpM TickSummary :=
  match run.phase with
  | .pending => tickPending run now
  | .break =>
    logged (transitionBreakToPreparingFix run.id)
      fun _ => { toFix := 1, phaseTransitions := [(run.eventId, "preparing_fix")] }
  | .preparingFix =>
    logged (reconcilePreparingFix run.id) fun fixed =>
      if fixed then { toFix := 1, phaseTransitions := [(run.eventId, "fix")] } else {}
  | .fix => tickFix run now
  | .ended => pure {}

/-- Run `f` on the members of a list and add up what they report. -/
def tally {ι : Type} (f : ι → AwdpM TickSummary) : List ι → AwdpM TickSummary
  | [] => pure {}
  | i :: is => do
    let s ← f i
    let t ← tally f is
    pure (s.add t)

/-- `find_unstarted_awdp_events`. -/
def findUnstartedAwdpEvents (now : Int) (limit : Nat) : AwdpM (List Event) := do
  let rows ← select fun db => (db.events.filter fun e => e.competition ∧ e.startTime ≤ now)
    |>.insertionSort fun a b => a.startTime ≤ b.startTime
  if rows.isEmpty then pure []
  else do
    let used ← select fun db => db.runs.map (·.eventId)
    pure ((rows.filter (·.id ∉ used)).take limit)

/-- The run of an event whose time has come; a failure is only logged. -/
def startEvent (e : Event) : AwdpM Unit := do
  let event ← ofOption "未找到该赛事" (← select fun db => db.events.find? (·.id = e.id))
  let _ ← (createCompetitionRun e.id event.config).attempt

/-- `find_due_runs`; `skipped` are the rows that other transactions hold. -/
def findDueRuns (now : Int) (limit : Nat) (skipped : List Nat) : AwdpM (List Run) :=
  select fun db => ((db.runs.filter fun r =>
      r.nextActionAt.any (· ≤ now) ∧ r.phase ≠ .ended ∧ r.id ∉ skipped).insertionSort
    fun a b => a.nextActionAt.getD 0 ≤ b.nextActionAt.getD 0).take limit

/-- `tick_once`. -/
def tickOnce (skipped : List Nat) : AwdpM TickSummary := do
  let now ← utcNow
  let unstarted ← findUnstartedAwdpEvents now 10
  Prog.each unstarted startEvent
  let due ← findDueRuns now 10 skipped
  let summary ← tally (tickRun now) due
  completeFinishedRounds
  pure summary

/-! ## The admin routes -/

/-- The transition of `start_awdp_event`. -/
def startBreak (run : Run) (config : AwdpConfig) : AwdpM Unit := do
  let now ← utcNow
  let breakEnds := now + config.breakDurationSecs
  transitionPhase run.id .pending .break
    { startedAt := some now, breakEndsAt := some breakEnds, nextActionAt := some breakEnds }

/-- `start_awdp_event`. -/
def startAwdpEvent (eventId : Nat) : AwdpM Unit := do
  let event ← ofOption "未找到该赛事" (← select fun db => db.events.find? (·.id = eventId))
  let run ← createCompetitionRun eventId event.config
  if run.phase = .pending then startBreak run event.config else pure ()

/-- `require_active_run`. -/
def requireActiveRun (eventId : Nat) : AwdpM Run := do
  match ← findActiveCompetitionForEvent eventId with
  | some run => pure run
  | none => .fail (.invalidState "AWDP 事件尚未启动（无 active run）")

/-- `break_to_fix`. -/
def breakToFix (eventId : Nat) : AwdpM Unit := do
  let run ← requireActiveRun eventId
  transitionBreakToFix run.id

/-- `finish_awdp_event`. -/
def finishAwdpEvent (eventId : Nat) : AwdpM Unit := do
  let run ← requireActiveRun eventId
  let now ← utcNow
  transitionPhase run.id .fix .ended { finishedAt := some now }

end FloatCtf.Awdp
