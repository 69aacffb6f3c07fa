import Mathlib.Data.List.Basic

/-!
# Phases, verdicts and the fix timeline

The pure part of an AWDP run: the phases and their transitions, the configuration snapshot, the
windows of the fix rounds, the verdicts of an evaluation and the keys of the score ledger.
-/

namespace FloatCtf.Awdp

/-- The errors of the services. -/
inductive AwdpError where
  | database (message : String)
  | notFound (message : String)
  | invalidState (message : String)
  | validation (message : String)
  | docker (message : String)
  | forbidden (message : String)
  | conflict (message : String)
  | internal (message : String)
  deriving DecidableEq

/-- The error of a failed statement. -/
def dbError : AwdpError := .database "database error"

/-- The text of an error. -/
def AwdpError.display : AwdpError → String
  | database m => s!"Database error: {m}"
  | notFound m => s!"Not found: {m}"
  | invalidState m => s!"Invalid state: {m}"
  | validation m => s!"Validation error: {m}"
  | docker m => s!"Docker error: {m}"
  | forbidden m => s!"Forbidden: {m}"
  | conflict m => s!"Conflict: {m}"
  | internal m => s!"Internal error: {m}"

/-! ## Phases -/

/-- The phases of a run. -/
inductive AwdpPhase where
  | pending
  | break
  | preparingFix
  | fix
  | ended
  deriving DecidableEq

/-- `can_transition_to`. -/
def AwdpPhase.canTransitionTo : AwdpPhase → AwdpPhase → Bool
  | .pending, .break => true
  | .break, .preparingFix => true
  | .preparingFix, .fix => true
  | .fix, .ended => true
  | _, _ => false

/-- The name of a phase in an error message. -/
def AwdpPhase.debug : AwdpPhase → String
  | .pending => "Pending"
  | .break => "Break"
  | .preparingFix => "PreparingFix"
  | .fix => "Fix"
  | .ended => "Ended"

/-! ## Configuration -/

/-- The configuration of an event. -/
structure AwdpConfig where
  breakDurationSecs : Int
  fixDurationSecs : Int
  fixRoundIntervalSecs : Int
  breakScore : Int
  fixRoundScore : Int
  deriving DecidableEq

/-- `AwdpConfig::default`. -/
def AwdpConfig.default : AwdpConfig where
  breakDurationSecs := 3600
  fixDurationSecs := 3600
  fixRoundIntervalSecs := 600
  breakScore := 540
  fixRoundScore := 150

/-- What a failed check of a practice run costs. -/
def defaultFixRoundPenalty : Int := 100

/-- `validate`: the checks of a configuration in their order. -/
def AwdpConfig.validate (c : AwdpConfig) : Except AwdpError Unit :=
  if c.breakDurationSecs ≤ 0 then .error (.validation "break_duration_secs must be > 0")
  else if c.fixDurationSecs ≤ 0 then .error (.validation "fix_duration_secs must be > 0")
  else if c.fixRoundIntervalSecs ≤ 0 then
    .error (.validation "fix_round_interval_secs must be > 0")
  else if c.breakScore < 0 ∨ c.fixRoundScore < 0 then
    .error (.validation "break_score 与 fix_round_score 必须大于等于 0")
  else if c.fixDurationSecs.tmod c.fixRoundIntervalSecs ≠ 0 then
    .error (.validation (s!"fix 时长（{c.fixDurationSecs}）必须能被回合间隔" ++
      s!"（{c.fixRoundIntervalSecs}）整除"))
  else .ok ()

/-- The number of whole rounds in the fix. -/
def AwdpConfig.totalRounds (c : AwdpConfig) : Int :=
  c.fixDurationSecs.tdiv c.fixRoundIntervalSecs

/-! ## The fix timeline -/

/-- The times of a round. -/
structure RoundWindow where
  sequence : Int
  startsAt : Int
  cutoffAt : Int
  deriving DecidableEq

/-- Round `i` lasts from `fixStart + (i - 1) * interval` to `fixStart + i * interval`. -/
def roundWindow (fixStart interval i : Int) : RoundWindow where
  sequence := i
  startsAt := fixStart + interval * (i - 1)
  cutoffAt := fixStart + interval * i

/-- The times of the first `count` rounds. -/
def roundWindows (fixStart interval count : Int) : List RoundWindow :=
  (List.range count.toNat).map fun n : Nat => roundWindow fixStart interval (n + 1)

/-! ## Verdicts -/

/-- What an evaluation is made for. -/
inductive EvaluationKind where
  | manual
  | official
  deriving DecidableEq

/-- The status of an evaluation. -/
inductive EvaluationStatus where
  | pending
  | running
  | noPatch
  | serviceDown
  | functionalBroken
  | vulnerable
  | patched
  | platformError
  deriving DecidableEq

/-- The evaluation is over. -/
def EvaluationStatus.terminal : EvaluationStatus → Bool
  | .pending | .running => false
  | _ => true

/-- `parse_terminal_status`. -/
def parseTerminalStatus (s : String) : Except AwdpError EvaluationStatus :=
  match s with
  | "no_patch" => .ok .noPatch
  | "service_down" => .ok .serviceDown
  | "functional_broken" => .ok .functionalBroken
  | "vulnerable" => .ok .vulnerable
  | "patched" => .ok .patched
  | "platform_error" => .ok .platformError
  | other => .error (.validation s!"invalid terminal evaluation status: {other.quote}")

/-- The name of a status in an error message. -/
def EvaluationStatus.debug : EvaluationStatus → String
  | .pending => "Pending"
  | .running => "Running"
  | .noPatch => "NoPatch"
  | .serviceDown => "ServiceDown"
  | .functionalBroken => "FunctionalBroken"
  | .vulnerable => "Vulnerable"
  | .patched => "Patched"
  | .platformError => "PlatformError"

/-- The name under which a verdict travels. -/
def EvaluationStatus.wire : EvaluationStatus → String
  | .pending => "pending"
  | .running => "running"
  | .noPatch => "no_patch"
  | .serviceDown => "service_down"
  | .functionalBroken => "functional_broken"
  | .vulnerable => "vulnerable"
  | .patched => "patched"
  | .platformError => "platform_error"

theorem parseTerminalStatus_wire {s : EvaluationStatus} (h : s.terminal = true) :
    parseTerminalStatus s.wire = .ok s := by
  cases s <;> first | rfl | cases h

/-- What is accepted as a verdict is terminal. -/
theorem terminal_of_parse {w : String} {s : EvaluationStatus}
    (h : parseTerminalStatus w = .ok s) : s.terminal = true := by
  unfold parseTerminalStatus at h
  split at h <;> cases h <;> rfl

/-! ## The score ledger -/

/-- What a score is given for. -/
inductive ScoreType where
  | break
  | fix
  deriving DecidableEq

/-- The key under which a score is written once: `awdp:break:…` and `awdp:fix:…`. -/
inductive IdempotencyKey where
  | break (runId gameboxId : Nat) (userId teamId : Option Nat)
  | fix (runId fixRoundId instanceId : Nat)
  deriving DecidableEq

end FloatCtf.Awdp
