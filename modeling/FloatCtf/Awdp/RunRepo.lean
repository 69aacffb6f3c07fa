import FloatCtf.Awdp.Evaluation

/-!
# Runs and their phases

The repository of the runs: competition runs, one for an event, practice runs, for a gamebox and a
user, and the transitions of their phases.  Pending, Break and Fix are what the two queries and the
unique index call active, and a row with a NULL column never meets another one in the
index. -/

namespace FloatCtf.Awdp

open Process

/-! ## The unique index -/

/-- The phases of the two queries and of the index. -/
def AwdpPhase.indexed : AwdpPhase → Bool
  | .pending | .break | .fix => true
  | .preparingFix | .ended => false

/-- The columns of a row in `awdp_runs_event_active_uidx`, when none of them is NULL. -/
def Run.indexKey (r : Run) : Option (Nat × Nat × Nat) :=
  match r.gameboxId, r.ownerUserId with
  | some g, some u => if r.phase.indexed then some (r.eventId, g, u) else none
  | _, _ => none

/-- Another row has the place of `r` in the index. -/
def Db.slotTaken (db : Db) (r : Run) : Bool :=
  r.indexKey.isSome ∧ db.runs.any fun r' => r'.id ≠ r.id ∧ r'.indexKey = r.indexKey

/-! ## New runs -/

/-- A row of a new run. -/
def Run.created (id eventId : Nat) (gameboxId ownerUserId : Option Nat) (config : AwdpConfig)
    (nextActionAt : Option Int) : Run where
  id := id
  eventId := eventId
  gameboxId := gameboxId
  ownerUserId := ownerUserId
  phase := .pending
  config := config
  startedAt := none
  breakEndsAt := none
  fixStartedAt := none
  fixEndsAt := none
  finishedAt := none
  currentRound := 0
  totalRounds := config.totalRounds
  nextActionAt := nextActionAt

/-- Inserts a run. -/
def Db.insertRun (db : Db) (r : Run) : Db :=
  { db with
    runs := db.runs ++ [r]
    nextId := db.nextId + 1 }

/-- The insert of a run, which the index may refuse; `seen` are the runs that were listed before. -/
def insertRun (eventId : Nat) (gameboxId ownerUserId : Option Nat) (config : AwdpConfig)
    (nextActionAt : Option Int) (seen : List Run) : AwdpM (Option Run) :=
  Prog.exec (.createRun eventId gameboxId ownerUserId seen) dbError fun db =>
    let r := Run.created db.nextId eventId gameboxId ownerUserId config nextActionAt
    if db.slotTaken r then .ok (db, none) else .ok (db.insertRun r, some r)

/-- The id of the practice event. -/
def eventPracticeAwdp : Nat := 2

/-- The key of the practice event. -/
def practiceSystemKey : String := "awdp-practice"

/-- The virtual event of the practice runs. -/
def practiceEvent (now : Int) : Event where
  id := eventPracticeAwdp
  competition := false
  systemKey := some practiceSystemKey
  startTime := now
  config := .default

/-- The practice event. -/
def findPracticeEvent : AwdpM (Option Event) :=
  select fun db => db.events.find? (·.systemKey = some practiceSystemKey)

/-- `ensure_practice_event`. -/
def ensurePracticeEvent : AwdpM Nat := do
  match ← findPracticeEvent with
  | some e => pure e.id
  | none => do
    let now ← utcNow
    let created ← Prog.exec .createPracticeEvent dbError fun db =>
      if db.events.any fun e => e.id = eventPracticeAwdp ∨ e.systemKey = some practiceSystemKey then
        .ok (db, false)
      else .ok ({ db with events := db.events ++ [practiceEvent now] }, true)
    if created then pure eventPracticeAwdp
    else
      match ← findPracticeEvent with
      | some e => pure e.id
      | none => .fail (.database "virtual event create race")

/-- `create_practice_run`. -/
def createPracticeRun (gameboxId ownerUserId : Nat) (config : AwdpConfig) : AwdpM Run := do
  ofExcept config.validate
  let eventId ← ensurePracticeEvent
  match ← insertRun eventId (some gameboxId) (some ownerUserId) config none [] with
  | some r => pure r
  | none => .fail (.conflict "该 GameBox 已有一个进行中的训练 run")

/-- `find_active_practice_for`. -/
def findActivePracticeFor (gameboxId ownerUserId : Nat) : AwdpM (Option Run) :=
  select fun db => db.runs.find? fun r =>
    r.gameboxId = some gameboxId ∧ r.ownerUserId = some ownerUserId ∧ r.phase.indexed

/-- `find_active_competition_for_event`. -/
def findActiveCompetitionForEvent (eventId : Nat) : AwdpM (Option Run) :=
  select fun db => db.runs.find? fun r => r.eventId = eventId ∧ r.phase.indexed

/-- `list_for_event`. -/
def listForEvent (eventId : Nat) : AwdpM (List Run) :=
  select fun db => db.runs.filter (·.eventId = eventId)

/-- The insert of `create_competition_run`. -/
def insertCompetitionRun (eventId : Nat) (config : AwdpConfig) (seen : List Run) : AwdpM Run := do
  let event ← ofOption "未找到该赛事" (← select fun db => db.events.find? (·.id = eventId))
  match ← insertRun eventId none none config (some event.startTime) seen with
  | some r => pure r
  | none =>
    match ← findActiveCompetitionForEvent eventId with
    | some r => pure r
    | none => .fail (.internal "competition run missing after conflict")

/-- `create_competition_run`. -/
def createCompetitionRun (eventId : Nat) (config : AwdpConfig) : AwdpM Run := do
  ofExcept config.validate
  match ← findActiveCompetitionForEvent eventId with
  | some existing => pure existing
  | none => do
    let seen ← listForEvent eventId
    if seen.any (·.phase = .ended) then
      .fail (.invalidState "该事件已经结束，不能重新启动")
    else insertCompetitionRun eventId config seen

/-! ## Transitions -/

/-- Changes one run. -/
def Db.editRun (db : Db) (id : Nat) (f : Run → Run) : Db :=
  { db with runs := db.runs.map fun r => if r.id = id then f r else r }

/-- The columns that a transition writes beside the phase; `none` leaves a column as it is. -/
structure PhaseTransitionPatch where
  startedAt : Option Int := none
  breakEndsAt : Option Int := none
  fixStartedAt : Option Int := none
  fixEndsAt : Option Int := none
  finishedAt : Option Int := none
  currentRound : Option Int := none
  nextActionAt : Option Int := none

/-- The run in another phase. -/
def Run.moved (r : Run) (target : AwdpPhase) (p : PhaseTransitionPatch) : Run :=
  { r with
    phase := target
    startedAt := p.startedAt <|> r.startedAt
    breakEndsAt := p.breakEndsAt <|> r.breakEndsAt
    fixStartedAt := p.fixStartedAt <|> r.fixStartedAt
    fixEndsAt := p.fixEndsAt <|> r.fixEndsAt
    finishedAt := p.finishedAt <|> r.finishedAt
    currentRound := p.currentRound.getD r.currentRound
    nextActionAt := p.nextActionAt <|> r.nextActionAt }

/-- The run is not there. -/
def runMissing : AwdpError := .notFound "未找到该 AWDP 运行"

/-- The run is in another phase than expected. -/
def phaseConflict (current expected : AwdpPhase) : AwdpError :=
  .conflict s!"concurrent AWDP phase transition: current={current.debug} expected={expected.debug}"

/-- `transition_phase`. -/
def transitionPhase (runId : Nat) (expected target : AwdpPhase) (p : PhaseTransitionPatch) :
    AwdpM Unit :=
  if !expected.canTransitionTo target then
    .fail (.invalidState
      s!"Invalid AWDP phase transition: {expected.debug} -> {target.debug}")
  else
    Prog.exec (.transition runId expected target) dbError fun db =>
      match db.runById runId with
      | none => .error runMissing
      | some run =>
        if run.phase ≠ expected then .error (phaseConflict run.phase expected)
        else if db.slotTaken (run.moved target p) then .error dbError
        else .ok (db.editRun runId (·.moved target p), ())

/-- Back to a new Break, as `transition_fix_to_break` writes it. -/
def Run.rewound (r : Run) (now : Int) : Run :=
  { r with
    phase := .break
    startedAt := some now
    breakEndsAt := some (now + r.config.breakDurationSecs)
    fixStartedAt := none
    fixEndsAt := none
    finishedAt := none
    currentRound := 0
    nextActionAt := some (now + r.config.breakDurationSecs) }

/-- `clear_fix_session`: the rounds of the run, with what refers to them. -/
def Db.clearFixSession (db : Db) (runId : Nat) : Db :=
  let gone := (db.rounds.filter (·.runId = runId)).map (·.id)
  let kept (round : Option Nat) : Bool := round.all (· ∉ gone)
  { db with
    rounds := db.rounds.filter (·.runId ≠ runId)
    evaluations := db.evaluations.filter (kept ·.fixRoundId)
    scores := db.scores.filter (kept ·.fixRoundId)
    patches := db.patches.map fun p =>
      if kept p.fixRoundId then p else { p with fixRoundId := none } }

/-- `transition_fix_to_break`. -/
def transitionFixToBreak (runId : Nat) : AwdpM Unit :=
  Prog.exec (.rewind runId) dbError fun db =>
    match db.runById runId with
    | none => .error runMissing
    | some run =>
      if !run.practice then .error (.invalidState "只有练习 run 支持手动回到 Break")
      else if run.phase ≠ .fix then .error (phaseConflict run.phase .fix)
      else if db.slotTaken (run.rewound db.now) then .error dbError
      else .ok ((db.editRun runId (·.rewound db.now)).clearFixSession runId, ())

/-- `launch_practice_run`. -/
def launchPracticeRun (runId : Nat) : AwdpM Unit :=
  Prog.exec (.transition runId .pending .break) dbError fun db =>
    match db.runById runId with
    | none => .error runMissing
    | some run =>
      let breakEnds := db.now + run.config.breakDurationSecs
      let p : PhaseTransitionPatch :=
        { startedAt := some db.now, breakEndsAt := some breakEnds, nextActionAt := some breakEnds }
      if !run.practice then .error (.invalidState "只有练习 run 支持 Launch")
      else if run.phase ≠ .pending then .ok (db, ())
      else if db.slotTaken (run.moved .break p) then .error dbError
      else .ok (db.editRun runId (·.moved .break p), ())

/-- `touch_tick_state`: the row is read, and then two columns are written. -/
def touchTickState (runId : Nat) (currentRound nextActionAt : Int) : AwdpM Unit := do
  let _ ← ofOption "未找到该 AWDP 运行" (← select (·.runById runId))
  Prog.exec (.touchTick runId) dbError fun db =>
    match db.runById runId with
    | none => .error dbError
    | some _ => .ok (db.editRun runId fun r => { r with
        currentRound := currentRound
        nextActionAt := some nextActionAt }, ())

/-! ## Training -/

/-- `start_training`, for a gamebox that can be trained. -/
def startTraining (userId gameboxId : Nat) : AwdpM Run := do
  let _ ← findGameboxIdentity gameboxId
  match ← findActivePracticeFor gameboxId userId with
  | some run => pure run
  | none => do
    let eventId ← ensurePracticeEvent
    let event ← ofOption "未找到该赛事" (← select fun db => db.events.find? (·.id = eventId))
    createPracticeRun gameboxId userId event.config

/-- `train_again`. -/
def trainAgain (userId oldRunId : Nat) : AwdpM Run := do
  let old ← requireRun oldRunId
  if old.ownerUserId ≠ some userId then .fail (.forbidden "该训练 run 不属于你")
  else if old.phase ≠ .ended then
    .fail (.invalidState s!"只有 ended 的训练 run 可以重新训练（当前 {old.phase.debug}）")
  else
    match old.gameboxId with
    | none => .fail (.internal "practice run 必须携带 gamebox")
    | some gameboxId => startTraining userId gameboxId

end FloatCtf.Awdp
