import FloatCtf.Awd.Db
import FloatCtf.Process.Transaction

/-!
# Flag submissions

`submission_service::process_submission` is one transaction over two tables, the submissions and
the score ledger, each with its unique index: `(event_id, round_id, attacker_team_id,
gamebox_instance_id)` for a submission and `idempotency_key` for a score event.  A plain insert that
meets the index ends the transaction; the first-blood bonus is inserted with `ON CONFLICT DO
NOTHING`, which does not.
-/

namespace FloatCtf.Awd

open Process

/-! ## The two tables -/

/-- A row of the two tables that a submission writes. -/
inductive LedgerRow where
  | submission (s : FlagSubmission)
  | score (s : ScoreEvent)
  deriving DecidableEq

/-- The unique key of a row. -/
inductive LedgerKey where
  | submission (eventId roundId attackerTeamId gameboxInstanceId : Nat)
  | score (key : IdempotencyKey)
  deriving DecidableEq

/-- What is unique in a row. -/
def LedgerRow.key : LedgerRow → LedgerKey
  | submission s => .submission s.eventId s.roundId s.attackerTeamId s.gameboxInstanceId
  | score s => .score s.idempotencyKey

/-- The submission of a row. -/
def LedgerRow.submission? : LedgerRow → Option FlagSubmission
  | submission s => some s
  | score _ => none

/-- The score of a row. -/
def LedgerRow.score? : LedgerRow → Option ScoreEvent
  | submission _ => none
  | score s => some s

/-! ## `process_submission` -/

/-- A captured flag that has passed its checks. -/
structure SubmissionRequest where
  eventId : Nat
  roundId : Nat
  flagIssueId : Nat
  attackerTeamId : Nat
  victimTeamId : Nat
  gameboxInstanceId : Nat
  submittedByUserId : Nat
  attackScore : Int64
  firstBonus : Int64
  eventGameboxId : Nat
  deriving DecidableEq

/-- What a submission has moved. -/
structure SubmissionResult where
  attackScoreDelta : Int64
  victimLossDelta : Int64
  firstBonusDelta : Int64
  wasFirstBlood : Bool
  deriving DecidableEq

namespace SubmissionRequest

variable (r : SubmissionRequest)

/-- The row of `create_submission`. -/
def submission (id : Nat) : FlagSubmission :=
  { id, eventId := r.eventId, roundId := r.roundId, flagIssueId := r.flagIssueId
    attackerTeamId := r.attackerTeamId, victimTeamId := r.victimTeamId
    gameboxInstanceId := r.gameboxInstanceId, submittedByUserId := r.submittedByUserId }

/-- The points of the attacker. -/
def attackEvent (id : Nat) : ScoreEvent :=
  { id, eventId := r.eventId, roundId := some r.roundId, teamId := r.attackerTeamId
    eventType := .attack, delta := r.attackScore
    idempotencyKey := .attack r.eventId r.roundId r.attackerTeamId r.gameboxInstanceId
    relatedTeamId := some r.victimTeamId, gameboxInstanceId := some r.gameboxInstanceId
    eventGameboxId := none, reason := some "flag capture" }

/-- The points that the victim loses. -/
def victimLossEvent (id : Nat) : ScoreEvent :=
  { id, eventId := r.eventId, roundId := some r.roundId, teamId := r.victimTeamId
    eventType := .victimLoss, delta := -r.attackScore
    idempotencyKey := .victimLoss r.eventId r.roundId r.attackerTeamId r.gameboxInstanceId
    relatedTeamId := some r.attackerTeamId, gameboxInstanceId := some r.gameboxInstanceId
    eventGameboxId := none, reason := some "flag stolen" }

/-- The bonus for the first capture. -/
def firstBonusEvent (id : Nat) : ScoreEvent :=
  { id, eventId := r.eventId, roundId := some r.roundId, teamId := r.attackerTeamId
    eventType := .firstBonus, delta := r.firstBonus
    idempotencyKey := .firstBonus r.eventId r.eventGameboxId
    relatedTeamId := none, gameboxInstanceId := none
    eventGameboxId := some r.eventGameboxId, reason := some "first blood" }

/-- `flag_repo::has_submission`. -/
def hasSubmission (rows : List LedgerRow) : Bool :=
  rows.any fun row => row.key =
    .submission r.eventId r.roundId r.attackerTeamId r.gameboxInstanceId

/-- The last write of the transaction, and what it returns. -/
def firstBlood : Tx LedgerRow AwdError SubmissionResult := do
  let wasFirstBlood ← Tx.insertIfAbsent (fun id => .score (r.firstBonusEvent id))
    (.database "First blood bonus write failed: database error")
  pure {
    attackScoreDelta := r.attackScore
    victimLossDelta := r.attackScore
    firstBonusDelta := if wasFirstBlood then r.firstBonus else 0
    wasFirstBlood }

end SubmissionRequest

/-- The text with which the database refuses a key that is taken. -/
def duplicateKey : String := "duplicate key value violates unique constraint"

/-- `process_submission`: the submission with its scores in one transaction. -/
def processSubmission (r : SubmissionRequest) : Tx LedgerRow AwdError SubmissionResult := do
  let alreadySubmitted ← Tx.query dbError r.hasSubmission
  if alreadySubmitted then .fail (.conflict "本轮已提交过该目标的 flag")
  else
    Tx.insertRow (fun id => .submission (r.submission id))
      (.conflict "该 flag 已提交（并发请求）") dbError
    Tx.insertRow (fun id => .score (r.attackEvent id))
      (.conflict "该攻击已计分，请勿重复提交") dbError
    Tx.insertRow (fun id => .score (r.victimLossEvent id))
      (.database s!"Victim loss scoring failed: {duplicateKey}")
      (.database "Victim loss scoring failed: database error")
    r.firstBlood

/-- The submissions of all events, side by side. -/
def submissionSystem : TxSystem LedgerRow LedgerKey AwdError SubmissionResult SubmissionRequest where
  key := LedgerRow.key
  prog := processSubmission

/-! ## What a submission writes -/

variable {r : SubmissionRequest} {ws : List LedgerRow} {a : SubmissionResult}

theorem firstBlood_yields (h : r.firstBlood.Yields ws a) :
    a.wasFirstBlood = true ∧ (∃ n, ws = [.score (r.firstBonusEvent n)]) ∨
      a.wasFirstBlood = false ∧ ws = [] := by
  obtain ⟨won, ws₁, ws₂, rfl, h₁, rfl, rfl⟩ := Tx.yields_bind h
  rw [List.append_nil]
  exact Tx.yields_insertIfAbsent h₁

/-- A submission that returns has written the submission and the pair of score events, and the bonus
exactly when it was first. -/
theorem processSubmission_yields (h : (processSubmission r).Yields ws a) :
    ∃ n₁ n₂ n₃ bonus, ws = [.submission (r.submission n₁), .score (r.attackEvent n₂),
        .score (r.victimLossEvent n₃)] ++ bonus ∧
      (a.wasFirstBlood = true ∧ (∃ n, bonus = [.score (r.firstBonusEvent n)]) ∨
        a.wasFirstBlood = false ∧ bonus = []) := by
  obtain ⟨already, ws₀, ws', rfl, h₀, hrest⟩ := Tx.yields_bind h
  obtain rfl := Tx.yields_query h₀
  cases already with
  | true => exact hrest.elim
  | false =>
    obtain ⟨_, ws₁, ws', rfl, h₁, hattack⟩ := Tx.yields_bind hrest
    obtain ⟨_, ws₂, ws', rfl, h₂, hloss⟩ := Tx.yields_bind hattack
    obtain ⟨_, ws₃, bonus, rfl, h₃, hbonus⟩ := Tx.yields_bind hloss
    obtain ⟨n₁, rfl⟩ := Tx.yields_insertRow h₁
    obtain ⟨n₂, rfl⟩ := Tx.yields_insertRow h₂
    obtain ⟨n₃, rfl⟩ := Tx.yields_insertRow h₃
    exact ⟨n₁, n₂, n₃, bonus, rfl, firstBlood_yields hbonus⟩

end FloatCtf.Awd
