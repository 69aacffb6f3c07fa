import FloatCtf.Awd.JudgeService

/-!
# The rounds of an event

`round_service`: a round starts when the event is in its attack phase, ends with a judge batch and
the start of the next round, and is put back on schedule after a restart.  The final settlement of
`event_service`, which `end_round` tries after the last round, is here as well.
-/

namespace FloatCtf.Awd

open Process

/-! ## Final settlement -/

/-- The last round is completed in a running attack. -/
def isFinalSettlement (awdEvent : AwdEvent) (latestRound : Option AwdRound) : Bool :=
  if awdEvent.status ≠ .running then false
  else if awdEvent.phase ≠ .attack then false
  else match awdEvent.roundCount, latestRound with
    | none, _ => false
    | _, none => false
    | some roundCount, some latest =>
      if latest.roundNumber ≠ roundCount then false
      else if latest.status ≠ .completed then false
      else true

/-- The event is over behind its last round. -/
def maybeFinishEvent : AwdM Unit := do
  let awdEvent ← select (·.event)
  if awdEvent.status = .finished then pure ()
  else if awdEvent.status ≠ .running then pure ()
  else
    let latestRound ← select fun db => findLatestRound db.rounds
    if !isFinalSettlement awdEvent latestRound then pure ()
    else
      let allTerminal ← select (·.allJudgeTasksTerminal)
      if !allTerminal then pure ()
      else
        let now ← utcNow
        let moved ← (transitionEvent .running .finished (.finished now)).attempt
        match moved with
        | .error (.conflict _) => pure ()
        | .error (.invalidState _) => pure ()
        | .error e => .fail e
        | .ok () =>
          let _ ← tryReconcile .finishEvent
          let _ ← requireEventNetwork.attempt

/-! ## Starting a round -/

/-- A round that was started or found. -/
structure RoundStarted where
  roundId : Nat
  roundNumber : Int
  phase : AwdPhase
  created : Bool
  deriving DecidableEq

/-- The number of the round to start: the one the caller expects, or the one after the latest. -/
def nextRoundNumber (expected : Option Int) (rounds : List AwdRound) : Int :=
  match expected with
  | some n => if 1 ≤ n then n else ((findLatestRound rounds).map (·.roundNumber + 1)).getD 1
  | none => ((findLatestRound rounds).map (·.roundNumber + 1)).getD 1

/-- `start_round`: the next round, unless one is open. -/
def startRound (expectedRoundNumber : Option Int) : AwdM RoundStarted := do
  let awdEvent ← select (·.event)
  if awdEvent.status ≠ .running then
    .fail (.invalidState s!"Cannot start round in {awdEvent.status.debug} status")
  else if awdEvent.phase ≠ .attack then
    .fail (.invalidState "Cannot start round outside Attack phase")
  else
    let roundNumber ← select fun db => nextRoundNumber expectedRoundNumber db.rounds
    let existing ← select fun db => findRoundByNumber db.rounds roundNumber
    match existing with
    | some round =>
      pure { roundId := round.id, roundNumber := round.roundNumber, phase := round.phase,
             created := false }
    | none =>
      let now ← utcNow
      let round ← Prog.exec (.insertRound roundNumber) dbError
        (insertRoundRow roundNumber (now + awdEvent.roundDurationSecs * sec))
      nextNetworkRevision
      reconcileGlobal .startRound
      requireEventNetwork
      pure { roundId := round.id, roundNumber := round.roundNumber, phase := .attack,
             created := true }

/-! ## Ending a round -/

/-- The transaction that completes a round, with the event row it reads before it commits. -/
def completeRound (id : Nat) : AwdM AwdEvent :=
  Prog.exec (.completeRound id) dbError fun db =>
    (writeRound id completedRound db).map fun r => (r.1, r.1.event)

/-- `schedule_batch_deadline_task`. -/
def scheduleBatchDeadlineTask (batchId : Nat) (executeAt : Int) : AwdM Unit :=
  write .scheduleTask fun db => db.schedule .awdJudgeBatchDeadline executeAt none (some batchId)

/-- What `end_round` does after the round is completed and its batch attempted: the settlement of
the last round, or the start of the next one. -/
def advanceAfter (roundNumber : Int) (isFinal : Bool) : AwdM Unit := do
  if isFinal then
    let _ ← tryReconcile .endRound
    let _ ← requireEventNetwork.attempt
    let _ ← maybeFinishEvent.attempt
  else
    let _ ← (startRound (some (roundNumber + 1))).attempt

/-- The deadline task of the batch that `end_round` created, if it created one. -/
def scheduleBatchDeadline (judgeResult : Except AwdError Nat) : AwdM Unit := do
  match judgeResult with
  | .error _ => pure ()
  | .ok batchId =>
    let deadline ← (maxTaskDeadline batchId).attempt
    match deadline with
    | .error _ => pure ()
    | .ok deadline =>
      let _ ← (scheduleBatchDeadlineTask batchId deadline).attempt

/-- `end_round`: completes a round and starts what follows. -/
def endRound (roundId : Nat) : AwdM Unit := do
  let found ← select fun db => findRoundById db.rounds roundId
  match found with
  | none => .fail (.notFound "未找到该回合")
  | some round =>
    if round.status ≠ .active then pure ()
    else
      let awdEvent ← completeRound roundId
      let isFinal := (awdEvent.roundCount.map fun rc => decide (rc ≤ round.roundNumber)).getD false
      let judgeResult ← (createBatch roundId).attempt
      advanceAfter round.roundNumber isFinal
      scheduleBatchDeadline judgeResult

/-! ## Recovery of the round schedule -/

/-- `recover_round_gap`: starts the next round where none is open. -/
def recoverRoundGap : AwdM Nat := do
  let awdEvent ← select (·.event)
  match awdEvent.roundCount with
  | none => pure 0
  | some roundCount =>
    if roundCount ≤ 0 then pure 0
    else
      let highestRound ← select fun db => findLatestRound db.rounds
      match highestRound with
      | none =>
        let _ ← startRound (some 1)
        pure 1
      | some round =>
        if round.roundNumber > roundCount then pure 0
        else if round.roundNumber ≥ roundCount then pure 0
        else
          let _ ← startRound (some (round.roundNumber + 1))
          pure 1

/-- Schedules the end of a round, unless it is scheduled. -/
def restoreRoundEndTask (roundId : Nat) (scheduledEndAt : Int) : AwdM Nat := do
  let found ← select (·.hasPending .awdRoundEnd)
  if found then pure 0
  else
    write .scheduleTask fun db => db.schedule .awdRoundEnd scheduledEndAt (some roundId) none
    pure 1

/-- Schedules the end of the open round. -/
def restoreRoundScheduling : AwdM Nat := do
  let maybeRound ← select fun db => findActiveRound db.rounds
  match maybeRound with
  | some round =>
    if round.status = .active then restoreRoundEndTask round.id round.scheduledEndAt else pure 0
  | none =>
    let awdEvent ← select (·.event)
    if awdEvent.status = .running ∧ awdEvent.phase = .attack then recoverRoundGap else pure 0

end FloatCtf.Awd
