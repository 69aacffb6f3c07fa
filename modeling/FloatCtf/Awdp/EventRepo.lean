import FloatCtf.Awdp.RunRepo
import Mathlib.Algebra.Group.Int.Defs
import Mathlib.Algebra.Group.Nat.Defs

/-!
# The configuration of an event

`domain/config.rs` and the repository of `awdp_events`: the initial configuration, derived from the
length of the event, and the update, which rounds the Fix down to whole rounds and gives the rest of
the event to the Break.  An update needs an event without an active run, and moves the end of the
event.

Times are in microseconds, as the database keeps them; a length in seconds is cast to
`i32`. -/

namespace FloatCtf.Awdp

open Process

/-! ## Integers of the machine -/

/-- `as i32`, and the result of an operation on two of them. -/
def wrap32 (x : Int) : Int := x.bmod (2 ^ 32)

theorem wrap32_bounds (x : Int) : -2 ^ 31 ≤ wrap32 x ∧ wrap32 x < 2 ^ 31 :=
  ⟨Int.le_bmod (by decide), Int.bmod_lt (by decide)⟩

theorem wrap32_of_fits {x : Int} (h : -2 ^ 31 ≤ x) (h' : x < 2 ^ 31) : wrap32 x = x := by
  rw [wrap32, Int.bmod_eq_of_le] <;> omega

/-- What the saturating operations of `i64` do with a result. -/
def saturate64 (x : Int) : Int := max (-2 ^ 63) (min x (2 ^ 63 - 1))

/-! ## Values -/

/-- The shortest break. -/
def breakMinSecs : Int := 60

/-- The largest score. -/
def maxScore : Int := 1000000000

/-- `derived_break_score`: three fifths of what a full defence of the Fix brings. -/
def AwdpConfig.derivedBreakScore (c : AwdpConfig) : Int :=
  saturate64 ((saturate64 (saturate64 (c.fixRoundScore * c.totalRounds) * 3)).tdiv 5)

/-- The Fix of an event that is long enough is made of rounds of the default length. -/
def AwdpConfig.deriveLong (total half : Int) : AwdpConfig :=
  let rounds := half.tdiv AwdpConfig.default.fixRoundIntervalSecs
  let fix := rounds * AwdpConfig.default.fixRoundIntervalSecs
  { AwdpConfig.default with
    fixDurationSecs := fix
    breakDurationSecs := total - fix }

/-- The Fix of a short event is one round. -/
def AwdpConfig.deriveShort (total half : Int) : AwdpConfig :=
  { AwdpConfig.default with
    fixRoundIntervalSecs := half
    fixDurationSecs := half
    breakDurationSecs := total - half }

/-- The configuration with the break score of a full fix. -/
def AwdpConfig.withBreakScore (c : AwdpConfig) : AwdpConfig :=
  { c with breakScore := c.derivedBreakScore }

/-- `derive_for_total`. -/
def AwdpConfig.deriveForTotal : Option Int → AwdpConfig
  | none => .default
  | some total =>
    let half := total.tdiv 2
    if total ≤ 0 then .default
    else if half ≤ 0 then .default
    else if AwdpConfig.default.fixRoundIntervalSecs ≤ half then
      (AwdpConfig.deriveLong total half).withBreakScore
    else (AwdpConfig.deriveShort total half).withBreakScore

/-- A change of a configuration; what is missing stays. -/
structure AwdpConfigPatch where
  expectedUpdatedAt : Option Int
  breakDurationSecs : Option Int
  fixDurationSecs : Option Int
  fixRoundIntervalSecs : Option Int
  breakScore : Option Int
  fixRoundScore : Option Int
  deriving DecidableEq

/-- A length is positive. -/
def checkDuration (name : String) (v : Option Int) : Except AwdpError Unit :=
  match v with
  | some v => if v ≤ 0 then .error (.validation s!"{name} 必须大于 0") else .ok ()
  | none => .ok ()

/-- A score is within its bounds. -/
def checkScore (name : String) (v : Option Int) : Except AwdpError Unit :=
  match v with
  | some v =>
    if v < 0 then .error (.validation s!"{name} 必须大于等于 0")
    else if v > maxScore then .error (.validation s!"{name} 不能超过 {maxScore}")
    else .ok ()
  | none => .ok ()

/-- The checks of a patch on its own. -/
def AwdpConfigPatch.validate (p : AwdpConfigPatch) : Except AwdpError Unit := do
  checkDuration "break_duration_secs" p.breakDurationSecs
  checkDuration "fix_duration_secs" p.fixDurationSecs
  checkDuration "fix_round_interval_secs" p.fixRoundIntervalSecs
  checkScore "break_score" p.breakScore
  checkScore "fix_round_score" p.fixRoundScore

/-- The configuration behind a patch. -/
def AwdpConfigPatch.applyTo (p : AwdpConfigPatch) (base : AwdpConfig) : AwdpConfig where
  breakDurationSecs := p.breakDurationSecs.getD base.breakDurationSecs
  fixDurationSecs := p.fixDurationSecs.getD base.fixDurationSecs
  fixRoundIntervalSecs := p.fixRoundIntervalSecs.getD base.fixRoundIntervalSecs
  breakScore := p.breakScore.getD base.breakScore
  fixRoundScore := p.fixRoundScore.getD base.fixRoundScore

/-- The Fix rounded down to whole rounds, and the Break that is left of the event. -/
def AwdpConfig.rounded (c : AwdpConfig) (totalSecs : Int) : AwdpConfig :=
  let fix := wrap32 (c.fixDurationSecs.tdiv c.fixRoundIntervalSecs * c.fixRoundIntervalSecs)
  { c with
    fixDurationSecs := fix
    breakDurationSecs := wrap32 (totalSecs - fix) }

/-- The configuration that an update stores. -/
def AwdpConfigPatch.settle (p : AwdpConfigPatch) (base : AwdpConfig) (totalSecs : Int) :
    Except AwdpError AwdpConfig :=
  let next := p.applyTo base
  let rounded := next.rounded totalSecs
  if p.breakDurationSecs.any (· ≠ wrap32 (totalSecs - next.fixDurationSecs)) then
    .error (.validation
      "break_duration_secs is derived from event total duration - fix_duration")
  else if rounded.fixDurationSecs ≤ 0 then .error (.validation "fix 时长至少需覆盖一个完整回合")
  else if rounded.breakDurationSecs < breakMinSecs then
    .error (.validation
      s!"break 时长至少需要 {breakMinSecs} 秒（赛事总时长减去 fix 时长后过小）")
  else do
    rounded.validate
    pure rounded

/-! ## Rows -/

/-- The family of an event. -/
inductive EventFamily where
  | jeopardy
  | awd
  | awdp
  deriving DecidableEq

/-- A row of `events`. -/
structure EventRow where
  id : Nat
  family : EventFamily
  startTime : Int
  endTime : Option Int
  deriving DecidableEq

/-- `num_seconds`. -/
def wholeSecs (startTime endTime : Int) : Int := (endTime - startTime).tdiv 1000000

/-- A row of `awdp_events`. -/
structure ConfigRow where
  eventId : Nat
  config : AwdpConfig
  configurationGeneration : Int
  updatedAt : Int
  deriving DecidableEq

/-- The tables of the runs with the rows of the events. -/
structure ConfigDb where
  core : Db
  events : List EventRow
  configs : List ConfigRow
  deriving DecidableEq

/-- The event with this id. -/
def ConfigDb.eventById (db : ConfigDb) (id : Nat) : Option EventRow := db.events.find? (·.id = id)

/-- `find_by_event_id`. -/
def ConfigDb.configById (db : ConfigDb) (eventId : Nat) : Option ConfigRow :=
  db.configs.find? (·.eventId = eventId)

/-- The runs are created with what the row says. -/
def Db.configure (db : Db) (eventId : Nat) (c : AwdpConfig) : Db :=
  { db with events := db.events.map fun e => if e.id = eventId then { e with config := c } else e }

/-! ## Statements -/

/-- The statements on configurations, and those of the core. -/
inductive ConfigStmt where
  | core (l : Stmt)
  | readConfig (eventId : Nat)
  | readEvent (eventId : Nat)
  | insertConfig (eventId : Nat)
  | updateConfig (eventId : Nat) (patch : AwdpConfigPatch) (expected : Int)
  deriving DecidableEq

/-- A request on configurations, statement by statement. -/
abbrev ConfigM := Prog ConfigStmt ConfigDb AwdpError

/-- A program on the tables of the runs. -/
def onRuns {α : Type} (p : AwdpM α) : ConfigM α :=
  p.zoom .core ConfigDb.core fun core db => { db with core }

/-- The row of a new configuration. -/
def ConfigRow.initial (eventId : Nat) (c : AwdpConfig) (now : Int) : ConfigRow :=
  ⟨eventId, c, 1, now⟩

/-- A row needs its event, of the family `awdp`, and is unique. -/
def ConfigDb.insertConfig (db : ConfigDb) (eventId : Nat) (c : AwdpConfig) :
    Except AwdpError (ConfigDb × ConfigRow) :=
  let row := ConfigRow.initial eventId c db.core.now
  if (db.eventById eventId).all (·.family ≠ .awdp) ∨ (db.configById eventId).isSome then
    .error dbError
  else .ok ({ db with core := db.core.configure eventId c, configs := db.configs ++ [row] }, row)

/-- The initial configuration: an event that cannot be read gets the one of the caller. -/
def initialConfig (eventId : Nat) (config : AwdpConfig) : ConfigM AwdpConfig :=
  .stmt (.readEvent eventId) id
    (fun db => .ret <| match db.eventById eventId with
      | some ev => .deriveForTotal (ev.endTime.map fun e => wrap32 (wholeSecs ev.startTime e))
      | none => config)
    fun _ => .ret config

/-- The insert of `ensure_by_event_id`. -/
def insertInitial (eventId : Nat) (initial : AwdpConfig) : ConfigM ConfigRow :=
  match initial.validate with
  | .error e => .fail e
  | .ok () => Prog.exec (.insertConfig eventId) dbError (·.insertConfig eventId initial)

/-- `ensure_by_event_id`. -/
def ensureByEventId (eventId : Nat) (config : AwdpConfig) : ConfigM ConfigRow := do
  match ← Prog.query (.readConfig eventId) dbError (·.configById eventId) with
  | some existing => pure existing
  | none => do
    let initial ← initialConfig eventId config
    insertInitial eventId initial

/-! ## The update -/

/-- The row behind an update, one generation on. -/
def ConfigRow.changed (row : ConfigRow) (c : AwdpConfig) (now : Int) : ConfigRow where
  eventId := row.eventId
  config := c
  configurationGeneration := row.configurationGeneration + 1
  updatedAt := now

/-- The event ends after its Break and its Fix. -/
def EventRow.ending (e : EventRow) (c : AwdpConfig) : EventRow :=
  { e with endTime := some (e.startTime + c.breakDurationSecs * 1000000 +
      c.fixDurationSecs * 1000000) }

/-- The two writes of `update_config`. -/
def ConfigDb.storeConfig (db : ConfigDb) (eventId : Nat) (c : AwdpConfig) : ConfigDb where
  core := db.core.configure eventId c
  events := db.events.map fun e => if e.id = eventId then e.ending c else e
  configs := db.configs.map fun r =>
    if r.eventId = eventId then r.changed c db.core.now else r

/-- `find_active_competition_for_event` finds a run. -/
def ConfigDb.active (db : ConfigDb) (eventId : Nat) : Bool :=
  db.core.runs.any fun r => r.eventId = eventId ∧ r.phase.indexed

/-- `update_config` behind the checks of the rows. -/
def ConfigDb.changeConfig (db : ConfigDb) (eventId : Nat) (current : ConfigRow) (totalSecs : Int)
    (patch : AwdpConfigPatch) (expected : Int) : Except AwdpError (ConfigDb × ConfigRow) :=
  if db.active eventId then
    .error (.invalidState "AWDP config is locked (event has an active run)")
  else if expected ≠ current.updatedAt then
    .error (.conflict "concurrent awdp config update (expected_updated_at mismatch)")
  else match patch.settle current.config totalSecs with
    | .error e => .error e
    | .ok next => .ok (db.storeConfig eventId next, current.changed next db.core.now)

/-- The transaction of `update_config`. -/
def ConfigDb.updateConfig (db : ConfigDb) (eventId : Nat) (patch : AwdpConfigPatch)
    (expected : Int) : Except AwdpError (ConfigDb × ConfigRow) :=
  match db.eventById eventId with
  | none => .error (.notFound "未找到该赛事")
  | some event =>
    if event.family ≠ .awdp then
      .error (.validation s!"event {eventId} is not an AWDP event")
    else match db.configById eventId, event.endTime with
      | none, _ => .error (.notFound "awdp event not configured")
      | some _, none =>
        .error (.validation "AWDP event end_time is required to derive break duration")
      | some current, some endTime => db.changeConfig eventId current
          (wrap32 (wholeSecs event.startTime endTime)) patch expected

/-- `update_config`. -/
def updateConfig (eventId : Nat) (patch : AwdpConfigPatch) : ConfigM ConfigRow :=
  match patch.validate, patch.expectedUpdatedAt with
  | .error e, _ => .fail e
  | .ok (), none => .fail (.validation "更新配置必须携带 expected_updated_at")
  | .ok (), some expected =>
    Prog.exec (.updateConfig eventId patch expected) dbError
      (·.updateConfig eventId patch expected)

end FloatCtf.Awdp
