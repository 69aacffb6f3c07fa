import Mathlib.Data.Int.Basic
import Mathlib.Tactic.Linarith

/-!
# The AWD domain

The enumerations of the AWD module with their transition tables, its error type, the time model of
an event and the clock arithmetic the services use.  Instants are counted in microseconds, the
resolution of the database's timestamps, and durations come from the code in whole
seconds. -/

namespace FloatCtf.Awd

/-! ## Clock arithmetic -/

/-- One second. -/
def sec : Int := 1000000

/-- `chrono::Duration::num_seconds`: whole seconds, rounded towards zero. -/
def numSeconds (d : Int) : Int := d.tdiv sec

/-- The cast `as i32`, which keeps the low 32 bits. -/
def asI32 (x : Int) : Int := (x + 2 ^ 31) % 2 ^ 32 - 2 ^ 31

/-- `(deadline - now).num_seconds().max(0) as i32`. -/
def remainingSecs (deadline now : Int) : Int := asI32 (max (numSeconds (deadline - now)) 0)

theorem asI32_of_lt {x : Int} (h0 : 0 ≤ x) (h : x < 2 ^ 31) : asI32 x = x := by
  unfold asI32
  omega

theorem numSeconds_nonpos {d : Int} (h : d ≤ 0) : numSeconds d ≤ 0 := by
  unfold numSeconds
  rw [← Int.neg_nonneg, ← Int.neg_tdiv]
  exact Int.tdiv_nonneg (by omega) (by decide)

/-- Only a whole number of seconds survives the rounding. -/
theorem numSeconds_mul_eq {d : Int} (h : sec ∣ d) : numSeconds d * sec = d := by
  unfold numSeconds
  exact Int.tdiv_mul_cancel h

/-- The time up to the deadline is a whole number of seconds within the range of an `i32`, or it is
used up. -/
def WholeSecs (deadline now : Int) : Prop :=
  deadline ≤ now ∨ sec ∣ deadline - now ∧ deadline - now < 2 ^ 31 * sec

instance (deadline now : Int) : Decidable (WholeSecs deadline now) :=
  inferInstanceAs (Decidable (_ ∨ _ ∧ _))

/-- A whole number of seconds is saved without loss. -/
theorem le_remainingSecs_mul {deadline now : Int} (h : WholeSecs deadline now) :
    deadline - now ≤ remainingSecs deadline now * sec ∧ 0 ≤ remainingSecs deadline now := by
  unfold remainingSecs
  rcases h with h | ⟨hd, hlt⟩
  · have h0 : numSeconds (deadline - now) ≤ 0 := numSeconds_nonpos (by omega)
    rw [max_eq_right h0, asI32_of_lt le_rfl (by decide)]
    omega
  · rcases le_or_gt (deadline - now) 0 with h0 | h0
    · rw [max_eq_right (numSeconds_nonpos h0), asI32_of_lt le_rfl (by decide)]
      omega
    · have he := numSeconds_mul_eq hd
      have hpos : 0 < numSeconds (deadline - now) := by
        rcases le_or_gt (numSeconds (deadline - now)) 0 with hn | hn
        · have : numSeconds (deadline - now) * sec ≤ 0 :=
            mul_nonpos_of_nonpos_of_nonneg hn (by decide)
          omega
        · exact hn
      have hsmall : numSeconds (deadline - now) < 2 ^ 31 := by
        unfold sec at he hlt
        omega
      rw [max_eq_left hpos.le, asI32_of_lt hpos.le hsmall]
      exact ⟨he.ge, hpos.le⟩

/-! ## Enumerations -/

/-- The status of an event. -/
inductive AwdEventStatus where
  | draft | configuring | deploying | deployed | prechecking | verified | running | paused
  | networkError | startBlocked | finished | archived | deployFailed | verificationFailed
  deriving DecidableEq, Repr

/-- The phase of an event. -/
inductive AwdPhase where
  | hardening | attack | pause
  deriving DecidableEq, Repr

/-- The status of a round. -/
inductive RoundStatus where
  | active | completed | paused
  deriving DecidableEq, Repr

/-- The status of a judge task. -/
inductive JudgeTaskStatus where
  | pending | running | up | down | judgeError | skippedResetting | skippedBanned
  deriving DecidableEq, Repr

/-- The status of an instance. -/
inductive GameboxStatus where
  | pending | creating | running | ready | resetting | missing | orphan | conflict | startFailed
  | resetFailed | stopped
  deriving DecidableEq, Repr

/-- The status of a ban. -/
inductive BanStatus where
  | active | pendingUnban | unbanned
  deriving DecidableEq, Repr

/-- What a score is given for. -/
inductive ScoreEventType where
  | attack | victimLoss | judgeDown | firstBonus | resetPenalty | adjustment | initialScore
  deriving DecidableEq, Repr

/-- The keys of the scheduler tasks the event lifecycle writes. -/
inductive TaskKey where
  | awdHardeningEnd | awdRoundEnd | awdJudgeBatchDeadline
  deriving DecidableEq, Repr

/-- The status of a scheduler task. -/
inductive SchedStatus where
  | pending | running | completed | failed
  deriving DecidableEq, Repr

/-- The errors of the services, with the one that only the endpoints raise. -/
inductive AwdError where
  | database (msg : String) | notFound (msg : String) | invalidState (msg : String)
  | validation (msg : String) | network (msg : String) | docker (msg : String)
  | crypto (msg : String) | forbidden (msg : String) | conflict (msg : String)
  | badRequest (msg : String) | networkLocked (msg : String) | networkOverlap (msg : String)
  | poolExhausted (msg : String) | internal (msg : String)
  deriving DecidableEq, Repr

/-- The variant name, as the `Debug` format prints it. -/
def AwdEventStatus.debug : AwdEventStatus → String
  | draft => "Draft" | configuring => "Configuring" | deploying => "Deploying"
  | deployed => "Deployed" | prechecking => "Prechecking" | verified => "Verified"
  | running => "Running" | paused => "Paused" | networkError => "NetworkError"
  | startBlocked => "StartBlocked" | finished => "Finished" | archived => "Archived"
  | deployFailed => "DeployFailed" | verificationFailed => "VerificationFailed"

/-- The name of a phase in a message. -/
def AwdPhase.debug : AwdPhase → String
  | hardening => "Hardening" | attack => "Attack" | pause => "Pause"

/-! ## Transition tables -/

/-- The event is over. -/
def AwdEventStatus.isTerminal (s : AwdEventStatus) : Bool := s = finished ∨ s = archived

/-- The event runs or is paused. -/
def AwdEventStatus.isActive (s : AwdEventStatus) : Bool := s = running ∨ s = paused

/-- The event may be configured. -/
def AwdEventStatus.isConfigurable (s : AwdEventStatus) : Bool :=
  s ∈ [draft, configuring, deployed, prechecking, verified, startBlocked, deployFailed,
    verificationFailed]

/-- Where a status may lead. -/
def AwdEventStatus.validTransitions : AwdEventStatus → List AwdEventStatus
  | draft => [configuring]
  | configuring => [deploying, draft, prechecking]
  | deploying => [deployed, deployFailed]
  | deployed => [prechecking, configuring]
  | prechecking => [verified, verificationFailed, deployed]
  | verified => [running, startBlocked, configuring]
  | running => [paused, finished, networkError]
  | paused => [running, finished, networkError]
  | networkError => [paused, running, finished]
  | startBlocked => [prechecking, configuring]
  | finished => [archived]
  | archived => []
  | deployFailed => [configuring]
  | verificationFailed => [prechecking, configuring]

/-- A status leads to another, or the error says that it does not. -/
def AwdEventStatus.canTransitionTo (s target : AwdEventStatus) : Except String Unit :=
  if target ∈ s.validTransitions then .ok ()
  else .error s!"Invalid transition: {s.debug} -> {target.debug}"

/-- Flags count in the attack. -/
def AwdPhase.allowsFlagSubmission (p : AwdPhase) : Bool := p = attack

/-- The judge works in both phases. -/
def AwdPhase.allowsJudge (p : AwdPhase) : Bool := p = attack ∨ p = hardening

/-- `can_transition_to`: the phases lead to each other. -/
def AwdPhase.canTransitionTo (p target : AwdPhase) : Except String Unit :=
  if p = target then .ok ()
  else match p, target with
    | _, pause => .ok ()
    | pause, hardening => .ok ()
    | pause, attack => .ok ()
    | hardening, attack => .ok ()
    | attack, hardening => .ok ()
    | _, _ => .error s!"Invalid phase transition: {p.debug} -> {target.debug}"

/-- The task is over. -/
def JudgeTaskStatus.isTerminal : JudgeTaskStatus → Bool
  | up | down | judgeError | skippedResetting | skippedBanned => true
  | pending | running => false

/-- Every change of phase is one the phase guard lets through. -/
theorem AwdPhase.canTransitionTo_ok (p target : AwdPhase) : p.canTransitionTo target = .ok () := by
  cases p <;> cases target <;> rfl

/-! ## The time model -/

/-- The times of an event. -/
structure AwdTiming where
  eventDurationSecs : Int
  attackDurationSecs : Int
  hardeningDurationSecs : Int
  roundCount : Int
  roundDurationSecs : Int
  deriving DecidableEq, Repr

/-- Why an event has no times. -/
inductive TimingValidationError where
  | missingEndTime | endTimeNotAfterStart | roundCountNotConfigured | roundCountNotPositive
  | roundDurationNotPositive | attackExceedsEvent | arithmeticOverflow
  deriving DecidableEq, Repr

/-- The message of an error. -/
def TimingValidationError.message : TimingValidationError → String
  | missingEndTime => "event end_time is required"
  | endTimeNotAfterStart => "event end_time must be after start_time"
  | roundCountNotConfigured => "round_count is not configured"
  | roundCountNotPositive => "round_count must be > 0"
  | roundDurationNotPositive => "round_duration_secs must be > 0"
  | attackExceedsEvent => "round_count × round_duration_secs exceeds event duration"
  | arithmeticOverflow => "arithmetic overflow in timing calculation"

/-- `i64::checked_mul`. -/
def checkedMulI64 (a b : Int) : Option Int :=
  if -2 ^ 63 ≤ a * b ∧ a * b < 2 ^ 63 then some (a * b) else none

/-- `compute_timing`: the attack and the hardening within the event. -/
def computeTiming (eventStart : Int) (eventEnd : Option Int) (roundCount : Option Int)
    (roundDurationSecs : Int) : Except TimingValidationError AwdTiming :=
  match eventEnd with
  | none => .error .missingEndTime
  | some endAt =>
    if endAt ≤ eventStart then .error .endTimeNotAfterStart
    else if numSeconds (endAt - eventStart) < 0 then .error .endTimeNotAfterStart
    else match roundCount with
      | none => .error .roundCountNotConfigured
      | some rc =>
        if rc ≤ 0 then .error .roundCountNotPositive
        else if roundDurationSecs ≤ 0 then .error .roundDurationNotPositive
        else match checkedMulI64 rc roundDurationSecs with
          | none => .error .arithmeticOverflow
          | some attackDurationSecs =>
            if attackDurationSecs > numSeconds (endAt - eventStart) then
              .error .attackExceedsEvent
            else .ok {
              eventDurationSecs := numSeconds (endAt - eventStart)
              attackDurationSecs
              hardeningDurationSecs := numSeconds (endAt - eventStart) - attackDurationSecs
              roundCount := rc
              roundDurationSecs }

/-- An accepted configuration has a positive number of rounds of positive length, and a hardening
stage of whatever the rounds leave of the event. -/
theorem computeTiming_ok {a : Int} {b rc : Option Int} {d : Int} {t : AwdTiming}
    (h : computeTiming a b rc d = .ok t) :
    rc = some t.roundCount ∧ 0 < t.roundCount ∧ t.roundDurationSecs = d ∧ 0 < d ∧
      0 ≤ t.hardeningDurationSecs := by
  rcases b with _ | b
  · cases h
  rcases rc with _ | rc
  · simp only [computeTiming] at h
    split_ifs at h
  simp only [computeTiming] at h
  rcases hm : checkedMulI64 rc d with _ | m <;> rw [hm] at h <;> dsimp only at h <;>
    split_ifs at h with h1 h2 h3 h4
  cases h
  exact ⟨rfl, not_le.1 h3, rfl, not_le.1 h4, by dsimp only; omega⟩

end FloatCtf.Awd
