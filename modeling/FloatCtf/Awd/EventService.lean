import FloatCtf.Awd.RoundService

/-!
# The lifecycle of an event

`event_service`, the scheduler handlers of the lifecycle and `recovery_service`: an event starts in
its hardening stage or in round 1, is paused and resumed by an administrator, is stopped by a
network error, and is put back in order after a restart of the process.
-/

namespace FloatCtf.Awd

open Process

/-! ## Start -/

/-- The initial score of a team. -/
def initialScoreEvent (eventId : Nat) (initialScore : Int64) (team : EventTeam) (id : Nat) :
    ScoreEvent :=
  { id, eventId, roundId := none, teamId := team.id, eventType := .initialScore
    delta := initialScore
    idempotencyKey := .initialScore eventId team.id
    relatedTeamId := none, gameboxInstanceId := none, eventGameboxId := none
    reason := some "initial score" }

/-- The initial score of every team, once. -/
def seedInitialScores (initialScore : Int64) : AwdM Unit := do
  let eventId ← select (·.event.eventId)
  let teams ← select (·.teams)
  Prog.each teams fun team => do
    let _ ← createScoreEventIfAbsent .seedScore (initialScoreEvent eventId initialScore team)

/-- `start_event`: a verified event starts with its hardening. -/
def startEvent : AwdM Unit := do
  let awdEvent ← select (·.event)
  if awdEvent.status ≠ .verified then
    .fail (.invalidState s!"当前状态（{awdEvent.status.debug}）无法开始比赛，需先完成验证")
  else if awdEvent.verifiedAt = none then
    .fail (.invalidState "Cannot start event: precheck has not passed (AWD_NOT_VERIFIED)")
  else if awdEvent.verifiedGeneration ≠ some awdEvent.configurationGeneration then
    let _ ← (transitionEvent .verified .startBlocked .configChanged).attempt
    .fail (.invalidState
      "Cannot start event: configuration changed since verification (AWD_CONFIG_CHANGED)")
  else
    let generic ← select (·.generic)
    match computeTiming generic.startTime generic.endTime awdEvent.roundCount
        awdEvent.roundDurationSecs with
    | .error e => .fail (.invalidState s!"Invalid AWD timing: {e.message}")
    | .ok timing =>
      let now ← utcNow
      seedInitialScores awdEvent.initialScore
      if timing.hardeningDurationSecs > 0 then
        let endsAt := now + timing.hardeningDurationSecs * sec
        transitionEvent .verified .running
          { phase := some .hardening, startedAt := some now, hardeningEndsAt := some (some endsAt) }
        scheduleHardeningEnd endsAt
        let _ ← tryReconcile .startEvent
      else
        transitionEvent .verified .running { phase := some .attack, startedAt := some now }
        let _ ← tryReconcile .startEvent
        let _ ← startRound (some 1)

/-! ## Pause and network error -/

/-- The part that `pause_event` and `handle_network_error` share: how much time the current stage
has left, with the hardening task cancelled or the open round paused. -/
def freezeStage (awdEvent : AwdEvent) (now : Int) : AwdM Int := do
  match awdEvent.phase with
  | .hardening =>
    let _ ← cancelPendingHardeningEnd.attempt
    pure ((awdEvent.hardeningEndsAt.map fun h => remainingSecs h now).getD 0)
  | .attack =>
    let open? ← select fun db => findActiveRound db.rounds
    match open? with
    | some round =>
      let remaining := remainingSecs round.scheduledEndAt now
      pauseRound round.id remaining
      pure remaining
    | none => pure 0
  | .pause => pure 0

/-- `pause_event`: a running event stands still. -/
def pauseEvent : AwdM Unit := do
  let awdEvent ← select (·.event)
  if awdEvent.status ≠ .running then .fail (.invalidState "只有进行中的比赛才能暂停")
  else
    let now ← utcNow
    let remaining ← freezeStage awdEvent now
    transitionEvent .running .paused
      { TransitionPatch.paused awdEvent.phase remaining with hardeningEndsAt := some none }
    let reconciled ← tryReconcile .pauseEvent
    match reconciled with
    | .ok () => requireEventNetwork
    | .error _ =>
      let _ ← (transitionEvent .paused .networkError {}).attempt
      .fail (.network "pause network reconcile failed")

/-- An event stands still after an error of its network. -/
def handleNetworkError : AwdM Unit := do
  let awdEvent ← select (·.event)
  let now ← utcNow
  let remaining ← freezeStage awdEvent now
  transitionEvent awdEvent.status .networkError
    { phase := some .pause, pausedPhase := some awdEvent.phase, pauseRemainingSecs := some remaining,
      hardeningEndsAt := some none }
  let open? ← select fun db => findActiveRound db.rounds
  match open? with
  | some round => pauseRoundStatus round.id
  | none => pure ()

/-! ## Resume -/

/-- The transaction that moves the event from hardening to its attack phase. -/
def enterAttack : AwdM Unit := Prog.exec .updatePhase dbError enterAttackRow

/-- The hardening goes on with what was left of it. -/
def resumeHardening (awdEvent : AwdEvent) (remaining now : Int) : AwdM Unit := do
  let endsAt := if remaining > 0 then some (now + remaining * sec) else none
  transitionEvent awdEvent.status .running
    { phase := some .hardening, pauseRemainingSecs := some 0, hardeningEndsAt := some endsAt }
  match endsAt with
  | some deadline => scheduleHardeningEnd deadline
  | none => enterAttack

/-- The attack goes on with what was left of its round. -/
def resumeAttack (awdEvent : AwdEvent) (now : Int) : AwdM Unit := do
  let open? ← select fun db => findActiveRound db.rounds
  match open? with
  | some round =>
    resumeRound round.id
      (now + round.remainingSecs.getD awdEvent.roundDurationSecs * sec)
  | none => pure ()
  transitionEvent awdEvent.status .running
    { phase := some .attack, pauseRemainingSecs := some 0 }

/-- The end of `resume_event`: the network, and then the round schedule. -/
def reconcileResumed (resumePhase : AwdPhase) : AwdM Unit := do
  let reconciled ← tryReconcile .resumeEvent
  match reconciled with
  | .ok () =>
    requireEventNetwork
    if resumePhase = .attack then
      let _ ← restoreRoundScheduling
  | .error _ =>
    let _ ← (transitionEvent .running .networkError {}).attempt
    .fail (.network "resume network reconcile failed")

/-- `resume_event`: an event goes on in the phase it was in. -/
def resumeEvent : AwdM Unit := do
  let awdEvent ← select (·.event)
  if awdEvent.status ≠ .paused ∧ awdEvent.status ≠ .networkError then
    .fail (.invalidState "Can only resume a paused or network-error event")
  else
    let resumePhase := awdEvent.pausedPhase.getD .hardening
    let remaining := awdEvent.pauseRemainingSecs.getD 0
    let now ← utcNow
    match resumePhase with
    | .hardening => resumeHardening awdEvent remaining now
    | .attack => resumeAttack awdEvent now
    | .pause => .fail (.invalidState s!"Cannot resume from phase {resumePhase.debug}")
    reconcileResumed resumePhase

/-! ## Scheduler handlers -/

/-- The hardening is over and the first round begins. -/
def handleHardeningEnd : AwdM Unit := do
  let event ← select (·.event)
  if event.status ≠ .running ∨ event.phase ≠ .hardening then pure ()
  else
    let now ← utcNow
    if (event.hardeningEndsAt.map fun deadline => decide (now < deadline)).getD false then pure ()
    else
      let ev ← select (·.event)
      if ev.status ≠ .running ∨ ev.phase ≠ .hardening then pure ()
      else
        enterAttack
        let _ ← tryReconcile .hardeningEnd
        let _ ← startRound (some 1)

/-- `AwdRoundStartHandler::run`. -/
def handleRoundStart (roundNumber : Option Int) : AwdM Unit := do
  let event ← select (·.event)
  if !event.status.isActive then pure ()
  else
    let _ ← startRound roundNumber

/-- `AwdRoundEndHandler::run`. -/
def handleRoundEnd (payloadRoundId : Option Nat) : AwdM Unit := do
  let roundId ← match payloadRoundId with
    | some id => pure (some id)
    | none => select fun db => (findActiveRound db.rounds).map (·.id)
  match roundId with
  | none => pure ()
  | some roundId =>
    let event ← select (·.event)
    if event.status = .networkError then pure () else endRound roundId

end FloatCtf.Awd
