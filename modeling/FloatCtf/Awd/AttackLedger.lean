import FloatCtf.Awd.ScoreService
import FloatCtf.Awd.SubmissionService
import FloatCtf.Process.Trace
import Mathlib.Data.List.Nodup

/-!
# The attack ledger

Any number of submissions run side by side, statement by statement, and any of them may be rolled
back.  What is committed is always a ledger in which the attacks, the losses and the accepted
submissions match one to one, the points of a pair cancel, and each game box of an event has given
at most one first-blood bonus, to a team with an attack on that game box.
-/

namespace FloatCtf.Awd

open Process

/-! ## The law -/

/-- The submissions among the rows. -/
def submissionsOf (rows : List LedgerRow) : List FlagSubmission := rows.filterMap (·.submission?)

/-- The scores among the rows. -/
def scoresOf (rows : List LedgerRow) : List ScoreEvent := rows.filterMap (·.score?)

/-- What a submission is about: the event, the round, the attacker and the instance. -/
structure Capture where
  eventId : Nat
  roundId : Nat
  attackerTeamId : Nat
  gameboxInstanceId : Nat
  deriving DecidableEq

namespace Capture

variable (c : Capture)

/-- An attack row of this capture. -/
def Attack (s : ScoreEvent) : Prop :=
  s.eventType = .attack ∧ s.eventId = c.eventId ∧ s.roundId = some c.roundId ∧
    s.teamId = c.attackerTeamId ∧ s.gameboxInstanceId = some c.gameboxInstanceId

/-- A loss row of this capture; its attacker is the related team. -/
def Loss (s : ScoreEvent) : Prop :=
  s.eventType = .victimLoss ∧ s.eventId = c.eventId ∧ s.roundId = some c.roundId ∧
    s.relatedTeamId = some c.attackerTeamId ∧ s.gameboxInstanceId = some c.gameboxInstanceId

/-- An accepted submission of this capture. -/
def Accepted (s : FlagSubmission) : Prop :=
  s.eventId = c.eventId ∧ s.roundId = c.roundId ∧ s.attackerTeamId = c.attackerTeamId ∧
    s.gameboxInstanceId = c.gameboxInstanceId

instance (s : ScoreEvent) : Decidable (c.Attack s) := inferInstanceAs (Decidable (_ ∧ _))

instance (s : ScoreEvent) : Decidable (c.Loss s) := inferInstanceAs (Decidable (_ ∧ _))

instance (s : FlagSubmission) : Decidable (c.Accepted s) := inferInstanceAs (Decidable (_ ∧ _))

end Capture

/-- A first-blood row of this game box of the event. -/
def FirstBlood (eventId eventGameboxId : Nat) (s : ScoreEvent) : Prop :=
  s.eventType = .firstBonus ∧ s.eventId = eventId ∧ s.eventGameboxId = some eventGameboxId

instance (e g : Nat) (s : ScoreEvent) : Decidable (FirstBlood e g s) :=
  inferInstanceAs (Decidable (_ ∧ _))

/-- The rows that move points between two teams. -/
def ScoreEvent.isTransfer (s : ScoreEvent) : Bool :=
  s.eventType = .attack ∨ s.eventType = .victimLoss

/-- The scores that move points from one team to another. -/
def transfers (rows : List LedgerRow) : List ScoreEvent := (scoresOf rows).filter (·.isTransfer)

/-- The law of the ledger; `boxOf` is the game box of an instance. -/
structure AttackLedger (boxOf : Nat → Nat) (rows : List LedgerRow) : Prop where
  oneAttack : ∀ c : Capture, (scoresOf rows).countP c.Attack ≤ 1
  oneLoss : ∀ c : Capture, (scoresOf rows).countP c.Loss ≤ 1
  attack_iff_loss : ∀ c : Capture, (∃ s ∈ scoresOf rows, c.Attack s) ↔ ∃ s ∈ scoresOf rows, c.Loss s
  attack_iff_accepted : ∀ c : Capture,
    (∃ s ∈ scoresOf rows, c.Attack s) ↔ ∃ s ∈ submissionsOf rows, c.Accepted s
  opposite : ∀ c : Capture, ∀ s ∈ scoresOf rows, ∀ l ∈ scoresOf rows, c.Attack s → c.Loss l →
    l.delta = -s.delta ∧ s.relatedTeamId = some l.teamId
  balanced : ((transfers rows).map (·.delta)).sum = 0
  balancedInt : (∀ s ∈ transfers rows, s.delta ≠ Int64.minValue) →
    ((transfers rows).map (·.delta.toInt)).sum = 0
  oneBonus : ∀ e g, (scoresOf rows).countP (FirstBlood e g) ≤ 1
  bonusOwner : ∀ e g, ∀ b ∈ scoresOf rows, FirstBlood e g b →
    ∃ c : Capture, c.eventId = e ∧ c.attackerTeamId = b.teamId ∧ boxOf c.gameboxInstanceId = g ∧
      ∃ s ∈ scoresOf rows, c.Attack s

/-- A ledger before the first submission: it may hold score events of other kinds. -/
structure FreshLedger (rows : List LedgerRow) : Prop where
  keys : (rows.map LedgerRow.key).Nodup
  plain : ∀ row ∈ rows, ∃ s, row = .score s ∧ s.eventType ≠ .attack ∧ s.eventType ≠ .victimLoss ∧
    s.eventType ≠ .firstBonus

/-- The submission names the game box of its instance, as `submit_flag` passes it on. -/
def NamesBox (boxOf : Nat → Nat) (r : SubmissionRequest) : Prop :=
  r.eventGameboxId = boxOf r.gameboxInstanceId

/-! ## Where a row comes from -/

theorem mem_scoresOf {rows : List LedgerRow} {s : ScoreEvent} :
    s ∈ scoresOf rows ↔ .score s ∈ rows := by
  simp only [scoresOf, List.mem_filterMap]
  constructor
  · rintro ⟨row, hrow, hs⟩
    cases row with
    | submission t => cases hs
    | score t =>
      cases hs
      exact hrow
  · exact fun h => ⟨_, h, rfl⟩

theorem mem_submissionsOf {rows : List LedgerRow} {s : FlagSubmission} :
    s ∈ submissionsOf rows ↔ .submission s ∈ rows := by
  simp only [submissionsOf, List.mem_filterMap]
  constructor
  · rintro ⟨row, hrow, hs⟩
    cases row with
    | submission t =>
      cases hs
      exact hrow
    | score t => cases hs
  · exact fun h => ⟨_, h, rfl⟩

/-- What is captured: an instance, in a round, by a team. -/
def SubmissionRequest.capture (r : SubmissionRequest) : Capture :=
  ⟨r.eventId, r.roundId, r.attackerTeamId, r.gameboxInstanceId⟩

variable {c : Capture} {r : SubmissionRequest} {n : Nat}

theorem attack_attackEvent : c.Attack (r.attackEvent n) ↔ r.capture = c := by
  cases c
  simp [Capture.Attack, SubmissionRequest.attackEvent, SubmissionRequest.capture]

theorem loss_victimLossEvent : c.Loss (r.victimLossEvent n) ↔ r.capture = c := by
  cases c
  simp [Capture.Loss, SubmissionRequest.victimLossEvent, SubmissionRequest.capture]

theorem accepted_submission : c.Accepted (r.submission n) ↔ r.capture = c := by
  cases c
  simp [Capture.Accepted, SubmissionRequest.submission, SubmissionRequest.capture]

/-- The three rows of a submission that was accepted. -/
structure Served (boxOf : Nat → Nat) (rows : List LedgerRow) (r : SubmissionRequest)
    (n₁ n₂ n₃ : Nat) : Prop where
  namesBox : NamesBox boxOf r
  submission : r.submission n₁ ∈ submissionsOf rows
  attack : r.attackEvent n₂ ∈ scoresOf rows
  loss : r.victimLossEvent n₃ ∈ scoresOf rows

variable {boxOf : Nat → Nat} {rows₀ rows : List LedgerRow}

/-- Every row is one of the start, or belongs to a submission that was accepted as a whole. -/
theorem row_origin (h0 : FreshLedger rows₀)
    (h : submissionSystem.Committed (NamesBox boxOf) rows₀ rows) {row : LedgerRow}
    (hr : row ∈ rows) :
    (∃ s, row = .score s ∧ s.eventType ≠ .attack ∧ s.eventType ≠ .victimLoss ∧
      s.eventType ≠ .firstBonus) ∨
    ∃ r n₁ n₂ n₃, Served boxOf rows r n₁ n₂ n₃ ∧ (row = .submission (r.submission n₁) ∨
      row = .score (r.attackEvent n₂) ∨ row = .score (r.victimLossEvent n₃) ∨
      ∃ n, row = .score (r.firstBonusEvent n)) := by
  rcases h.mem hr with hold | ⟨r, ws, a, hbox, hy, hmem, hsub⟩
  · exact .inl (h0.plain row hold)
  · obtain ⟨n₁, n₂, n₃, bonus, rfl, hbonus⟩ := processSubmission_yields hy
    refine .inr ⟨r, n₁, n₂, n₃, ⟨hbox, ?_, ?_, ?_⟩, ?_⟩
    · exact mem_submissionsOf.2 (hsub (by simp))
    · exact mem_scoresOf.2 (hsub (by simp))
    · exact mem_scoresOf.2 (hsub (by simp))
    · rcases hbonus with ⟨-, n, rfl⟩ | ⟨-, rfl⟩
      · simp only [List.cons_append, List.nil_append, List.mem_cons, List.not_mem_nil] at hmem
        simp only [or_false] at hmem
        exact hmem.imp id (.imp id (.imp id fun h => ⟨n, h⟩))
      · simp only [List.append_nil, List.mem_cons, List.not_mem_nil, or_false] at hmem
        exact hmem.imp id (.imp id .inl)

section Origin

variable (h0 : FreshLedger rows₀) (h : submissionSystem.Committed (NamesBox boxOf) rows₀ rows)

include h0 h

theorem attack_origin {s : ScoreEvent} (hs : s ∈ scoresOf rows) (ht : s.eventType = .attack) :
    ∃ r n₁ n₂ n₃, Served boxOf rows r n₁ n₂ n₃ ∧ s = r.attackEvent n₂ := by
  rcases row_origin h0 h (mem_scoresOf.1 hs) with ⟨t, he, hne, -, -⟩ |
    ⟨r, n₁, n₂, n₃, hserved, he | he | he | ⟨n, he⟩⟩ <;> cases he
  · exact absurd ht hne
  · exact ⟨r, n₁, n₂, n₃, hserved, rfl⟩
  · cases ht
  · cases ht

theorem loss_origin {s : ScoreEvent} (hs : s ∈ scoresOf rows) (ht : s.eventType = .victimLoss) :
    ∃ r n₁ n₂ n₃, Served boxOf rows r n₁ n₂ n₃ ∧ s = r.victimLossEvent n₃ := by
  rcases row_origin h0 h (mem_scoresOf.1 hs) with ⟨t, he, -, hne, -⟩ |
    ⟨r, n₁, n₂, n₃, hserved, he | he | he | ⟨n, he⟩⟩ <;> cases he
  · exact absurd ht hne
  · cases ht
  · exact ⟨r, n₁, n₂, n₃, hserved, rfl⟩
  · cases ht

theorem bonus_origin {s : ScoreEvent} (hs : s ∈ scoresOf rows) (ht : s.eventType = .firstBonus) :
    ∃ r n₁ n₂ n₃ n, Served boxOf rows r n₁ n₂ n₃ ∧ s = r.firstBonusEvent n := by
  rcases row_origin h0 h (mem_scoresOf.1 hs) with ⟨t, he, -, -, hne⟩ |
    ⟨r, n₁, n₂, n₃, hserved, he | he | he | ⟨n, he⟩⟩ <;> cases he
  · exact absurd ht hne
  · cases ht
  · cases ht
  · exact ⟨r, n₁, n₂, n₃, n, hserved, rfl⟩

theorem submission_origin {s : FlagSubmission} (hs : s ∈ submissionsOf rows) :
    ∃ r n₁ n₂ n₃, Served boxOf rows r n₁ n₂ n₃ ∧ s = r.submission n₁ := by
  rcases row_origin h0 h (mem_submissionsOf.1 hs) with ⟨t, he, -, -, hne⟩ |
    ⟨r, n₁, n₂, n₃, hserved, he | he | he | ⟨n, he⟩⟩ <;> cases he
  exact ⟨r, n₁, n₂, n₃, hserved, rfl⟩

/-! ## One row for each key -/

omit h0 h in
theorem scoreKeys_nodup (hd : (rows.map LedgerRow.key).Nodup) :
    ((scoresOf rows).map (·.idempotencyKey)).Nodup := by
  have hsub : ((scoresOf rows).map fun s => LedgerKey.score s.idempotencyKey).Sublist
      (rows.map LedgerRow.key) := by
    induction rows with
    | nil => exact List.Sublist.slnil
    | cons row rows ih =>
      have hrest := ih (List.nodup_cons.1 hd).2
      cases row with
      | submission s => exact hrest.cons _
      | score s => exact hrest.cons_cons _
  have hmap : (((scoresOf rows).map (·.idempotencyKey)).map LedgerKey.score).Nodup := by
    rw [List.map_map]
    exact hd.sublist hsub
  exact hmap.of_map _

omit h0 h in
/-- Rows that share a key that is unique are one row at most. -/
theorem countP_le_one_of_key (hd : (rows.map LedgerRow.key).Nodup) {p : ScoreEvent → Prop}
    [DecidablePred p] {k : IdempotencyKey} (hk : ∀ s ∈ scoresOf rows, p s → s.idempotencyKey = k) :
    (scoresOf rows).countP p ≤ 1 := by
  have hcount := List.nodup_iff_count_le_one.1 (scoreKeys_nodup hd) k
  rw [List.count, List.countP_map] at hcount
  refine le_trans (List.countP_mono_left fun s hs hp => ?_) hcount
  simpa using hk s hs (of_decide_eq_true hp)

theorem oneAttack_of_committed (hd : (rows.map LedgerRow.key).Nodup) (c : Capture) :
    (scoresOf rows).countP c.Attack ≤ 1 := by
  refine countP_le_one_of_key hd
    (k := .attack c.eventId c.roundId c.attackerTeamId c.gameboxInstanceId) fun s hs hc => ?_
  obtain ⟨r, n₁, n₂, n₃, -, rfl⟩ := attack_origin h0 h hs hc.1
  obtain rfl := attack_attackEvent.1 hc
  rfl

theorem oneLoss_of_committed (hd : (rows.map LedgerRow.key).Nodup) (c : Capture) :
    (scoresOf rows).countP c.Loss ≤ 1 := by
  refine countP_le_one_of_key hd
    (k := .victimLoss c.eventId c.roundId c.attackerTeamId c.gameboxInstanceId) fun s hs hc => ?_
  obtain ⟨r, n₁, n₂, n₃, -, rfl⟩ := loss_origin h0 h hs hc.1
  obtain rfl := loss_victimLossEvent.1 hc
  rfl

theorem oneBonus_of_committed (hd : (rows.map LedgerRow.key).Nodup) (e g : Nat) :
    (scoresOf rows).countP (FirstBlood e g) ≤ 1 := by
  refine countP_le_one_of_key hd (k := .firstBonus e g) fun s hs hb => ?_
  obtain ⟨r, n₁, n₂, n₃, n, -, rfl⟩ := bonus_origin h0 h hs hb.1
  obtain ⟨-, rfl, hg⟩ := hb
  obtain rfl : r.eventGameboxId = g := Option.some.inj hg
  rfl

/-! ## The pairs -/

/-- An attack, a loss or a submission of a capture is there exactly when the whole submission is. -/
theorem attack_iff_served (c : Capture) : (∃ s ∈ scoresOf rows, c.Attack s) ↔
    ∃ r n₁ n₂ n₃, Served boxOf rows r n₁ n₂ n₃ ∧ r.capture = c := by
  constructor
  · rintro ⟨s, hs, hc⟩
    obtain ⟨r, n₁, n₂, n₃, hserved, rfl⟩ := attack_origin h0 h hs hc.1
    exact ⟨r, n₁, n₂, n₃, hserved, attack_attackEvent.1 hc⟩
  · rintro ⟨r, n₁, n₂, n₃, hserved, hc⟩
    exact ⟨_, hserved.attack, attack_attackEvent.2 hc⟩

theorem loss_iff_served (c : Capture) : (∃ s ∈ scoresOf rows, c.Loss s) ↔
    ∃ r n₁ n₂ n₃, Served boxOf rows r n₁ n₂ n₃ ∧ r.capture = c := by
  constructor
  · rintro ⟨s, hs, hc⟩
    obtain ⟨r, n₁, n₂, n₃, hserved, rfl⟩ := loss_origin h0 h hs hc.1
    exact ⟨r, n₁, n₂, n₃, hserved, loss_victimLossEvent.1 hc⟩
  · rintro ⟨r, n₁, n₂, n₃, hserved, hc⟩
    exact ⟨_, hserved.loss, loss_victimLossEvent.2 hc⟩

theorem accepted_iff_served (c : Capture) : (∃ s ∈ submissionsOf rows, c.Accepted s) ↔
    ∃ r n₁ n₂ n₃, Served boxOf rows r n₁ n₂ n₃ ∧ r.capture = c := by
  constructor
  · rintro ⟨s, hs, hc⟩
    obtain ⟨r, n₁, n₂, n₃, hserved, rfl⟩ := submission_origin h0 h hs
    exact ⟨r, n₁, n₂, n₃, hserved, accepted_submission.1 hc⟩
  · rintro ⟨r, n₁, n₂, n₃, hserved, hc⟩
    exact ⟨_, hserved.submission, accepted_submission.2 hc⟩

omit h0 h in
theorem eq_of_countP_le_one {p : ScoreEvent → Prop} [DecidablePred p] {l : List ScoreEvent}
    (h1 : l.countP p ≤ 1) {s t : ScoreEvent} (hs : s ∈ l) (ht : t ∈ l) (hps : p s) (hpt : p t) :
    s = t := by
  rw [List.countP_eq_length_filter] at h1
  have hs' : s ∈ l.filter p := List.mem_filter.2 ⟨hs, decide_eq_true hps⟩
  have ht' : t ∈ l.filter p := List.mem_filter.2 ⟨ht, decide_eq_true hpt⟩
  obtain ⟨x, hx⟩ : ∃ x, l.filter p = [x] :=
    List.length_eq_one_iff.1 (le_antisymm h1 (List.length_pos_of_mem hs'))
  rw [hx] at hs' ht'
  rw [List.mem_singleton.1 hs', List.mem_singleton.1 ht']

/-- The two rows of a capture come from the same submission, since each of them is the only one. -/
theorem opposite_of_committed (hd : (rows.map LedgerRow.key).Nodup) (c : Capture) {s l : ScoreEvent}
    (hs : s ∈ scoresOf rows) (hl : l ∈ scoresOf rows) (hcs : c.Attack s) (hcl : c.Loss l) :
    l.delta = -s.delta ∧ s.relatedTeamId = some l.teamId := by
  obtain ⟨r, n₁, n₂, n₃, hserved, rfl⟩ := attack_origin h0 h hs hcs.1
  have hcr : c.Loss (r.victimLossEvent n₃) :=
    loss_victimLossEvent.2 (attack_attackEvent.1 hcs)
  obtain rfl : l = r.victimLossEvent n₃ :=
    eq_of_countP_le_one (oneLoss_of_committed h0 h hd c) hl hserved.loss hcl hcr
  exact ⟨rfl, rfl⟩

theorem bonusOwner_of_committed {e g : Nat} {b : ScoreEvent} (hs : b ∈ scoresOf rows)
    (hb : FirstBlood e g b) : ∃ c : Capture, c.eventId = e ∧ c.attackerTeamId = b.teamId ∧
      boxOf c.gameboxInstanceId = g ∧ ∃ s ∈ scoresOf rows, c.Attack s := by
  obtain ⟨r, n₁, n₂, n₃, n, hserved, rfl⟩ := bonus_origin h0 h hs hb.1
  obtain ⟨-, rfl, hg⟩ := hb
  refine ⟨r.capture, rfl, rfl, ?_, _, hserved.attack, attack_attackEvent.2 rfl⟩
  exact hserved.namesBox.symm.trans (Option.some.inj hg)

/-! ## The balance -/

omit h0 h in
theorem transfers_append (l l' : List LedgerRow) :
    transfers (l ++ l') = transfers l ++ transfers l' := by
  simp [transfers, scoresOf]

omit h h0 in
theorem transfers_block {ws : List LedgerRow} {a : SubmissionResult}
    (hy : (processSubmission r).Yields ws a) :
    ∃ n₂ n₃, transfers ws = [r.attackEvent n₂, r.victimLossEvent n₃] := by
  obtain ⟨n₁, n₂, n₃, bonus, rfl, ⟨-, n, rfl⟩ | ⟨-, rfl⟩⟩ := processSubmission_yields hy <;>
    exact ⟨n₂, n₃, rfl⟩

omit h in
theorem transfers_start : transfers rows₀ = [] := by
  refine List.filter_eq_nil_iff.2 fun s hs => ?_
  obtain ⟨t, he, hattack, hloss, -⟩ := h0.plain _ (mem_scoresOf.1 hs)
  cases he
  simp [ScoreEvent.isTransfer, hattack, hloss]

theorem balanced_of_committed : ((transfers rows).map (·.delta)).sum = 0 := by
  induction h with
  | start =>
    rw [transfers_start h0]
    rfl
  | @block rows ws r a _ _ hy ih =>
    obtain ⟨n₂, n₃, hws⟩ := transfers_block hy
    have hpair : r.attackScore + (-r.attackScore + 0) = 0 := by
      rw [Int64.add_zero, Int64.add_right_neg]
    rw [transfers_append, hws, List.map_append, List.sum_append, ih]
    simpa [SubmissionRequest.attackEvent, SubmissionRequest.victimLossEvent] using hpair

omit h0 h in
theorem toInt_neg_of_ne {x : Int64} (hx : x ≠ Int64.minValue) : (-x).toInt = -x.toInt := by
  have hlow := Int64.le_toInt x
  have hup := Int64.toInt_lt x
  have hne : x.toInt ≠ -2 ^ 63 := fun he => hx (Int64.toInt_inj.1 he)
  rw [Int64.toInt_neg, Int.bmod_eq_of_le] <;> omega

theorem balancedInt_of_committed (hmin : ∀ s ∈ transfers rows, s.delta ≠ Int64.minValue) :
    ((transfers rows).map (·.delta.toInt)).sum = 0 := by
  induction h with
  | start =>
    rw [transfers_start h0]
    rfl
  | @block rows ws r a _ _ hy ih =>
    obtain ⟨n₂, n₃, hws⟩ := transfers_block hy
    rw [transfers_append, hws] at hmin ⊢
    have hne : r.attackScore ≠ Int64.minValue := hmin (r.attackEvent n₂) (by simp)
    rw [List.map_append, List.sum_append, ih fun s hs => hmin s (List.mem_append_left _ hs)]
    simp only [SubmissionRequest.attackEvent, SubmissionRequest.victimLossEvent, List.map_cons,
      List.map_nil, List.sum_cons, List.sum_nil, toInt_neg_of_ne hne]
    omega

theorem attackLedger_of_committed (hd : (rows.map LedgerRow.key).Nodup) :
    AttackLedger boxOf rows where
  oneAttack := oneAttack_of_committed h0 h hd
  oneLoss := oneLoss_of_committed h0 h hd
  attack_iff_loss := fun c => (attack_iff_served h0 h c).trans (loss_iff_served h0 h c).symm
  attack_iff_accepted := fun c => (attack_iff_served h0 h c).trans (accepted_iff_served h0 h c).symm
  opposite := fun c _ hs _ hl => opposite_of_committed h0 h hd c hs hl
  balanced := balanced_of_committed h0 h
  balancedInt := balancedInt_of_committed h0 h
  oneBonus := oneBonus_of_committed h0 h hd
  bonusOwner := fun _ _ _ hs hb => bonusOwner_of_committed h0 h hs hb

end Origin

/-! ## Runs -/

/-- The submissions and their scores as a database. -/
abbrev SubmissionStore := Store LedgerRow AwdError SubmissionResult SubmissionRequest

/-- The action leaves the two tables as they were, unless it commits a submission that returned,
which adds the rows of that submission. -/
def OnlyCommitWrites (w : SubmissionStore) (a : TxAct SubmissionRequest) : Prop :=
  (submissionSystem.step w a).rows = w.rows ∨ ∃ i s result, a = .commit i ∧
    w.sessions[i]? = some s ∧ s.prog = .ret result ∧
    (submissionSystem.step w a).rows = w.rows ++ s.writes

/-- The submission at index `i` comes to its first-blood bonus and finds it taken: with its next
statement and its commit, the submission and its pair are in the ledger. -/
def LoserKeepsPair (w : SubmissionStore) : Prop :=
  ∀ i s, w.sessions[i]? = some s → s.prog = s.job.firstBlood →
    submissionSystem.Taken w.rows (.score (s.job.firstBonusEvent w.nextId)) →
    ∃ n₁ n₂ n₃, (submissionSystem.step (submissionSystem.step w (.step i true)) (.commit i)).rows =
      w.rows ++ [.submission (s.job.submission n₁), .score (s.job.attackEvent n₂),
        .score (s.job.victimLossEvent n₃)]

/-- What a submission returns when the bonus is taken. -/
def SubmissionRequest.lostResult (r : SubmissionRequest) : SubmissionResult :=
  ⟨r.attackScore, r.attackScore, 0, false⟩

theorem loserKeepsPair_of_storeOk {P : SubmissionRequest → Prop} {w : SubmissionStore}
    (h : submissionSystem.StoreOk P rows₀ w) : LoserKeepsPair w := by
  intro i s hi hprog htaken
  have hlt : i < w.sessions.length := (List.getElem?_eq_some_iff.1 hi).1
  have htaken' : submissionSystem.Taken (w.rows ++ s.writes)
      (.score (s.job.firstBonusEvent w.nextId)) := by
    unfold TxSystem.Taken at htaken ⊢
    rw [List.map_append]
    exact List.mem_append_left _ htaken
  have hstep : submissionSystem.step w (.step i true) =
      { w with sessions := w.sessions.set i { s with prog := .ret s.job.lostResult } } := by
    have hanswer : submissionSystem.step w (.step i true) = submissionSystem.answer w i s := by
      simp only [TxSystem.step, hi, ↓reduceIte]
    rw [hanswer]
    unfold TxSystem.answer
    rw [hprog]
    exact if_pos htaken'
  have hcommit : (submissionSystem.step (submissionSystem.step w (.step i true)) (.commit i)).rows =
      w.rows ++ s.writes := by
    rw [hstep]
    simp only [TxSystem.step, List.getElem?_set_self hlt]
  have hlost : s.job.firstBlood.Yields [] s.job.lostResult := .inr ⟨rfl, rfl⟩
  have hrest := (h.session hi).rest [] s.job.lostResult
  rw [hprog, List.append_nil] at hrest
  obtain ⟨n₁, n₂, n₃, bonus, hws, ⟨hwon, -⟩ | ⟨-, rfl⟩⟩ := processSubmission_yields (hrest hlost)
  · cases hwon
  · rw [hcommit, hws, List.append_nil]
    exact ⟨n₁, n₂, n₃, rfl⟩

/-- Whatever the submissions do, in whatever order, the committed ledger keeps the law, an
aborted submission leaves nothing, and one that loses the race for first blood keeps its pair. -/
theorem attackLedger_run (boxOf : Nat → Nat) {rows₀ : List LedgerRow} (h0 : FreshLedger rows₀)
    (nextId : Nat) {acts : List (TxAct SubmissionRequest)}
    (hbox : ∀ r, .begin r ∈ acts → NamesBox boxOf r) :
    AttackLedger boxOf (acts.foldl submissionSystem.step ⟨rows₀, nextId, []⟩).rows ∧
      Along submissionSystem.step OnlyCommitWrites ⟨rows₀, nextId, []⟩ acts ∧
      LoserKeepsPair (acts.foldl submissionSystem.step ⟨rows₀, nextId, []⟩) := by
  have h := TxSystem.storeOk_run (S := submissionSystem) (n := nextId) h0.keys hbox
  have hd := h.distinct.sublist ((List.sublist_append_left _ _).map _)
  refine ⟨attackLedger_of_committed h0 h.committed hd, ?_, loserKeepsPair_of_storeOk h⟩
  exact along_of_forall TxSystem.step_rows _ _

/-- Two teams race for the game box 7, the first of them repeats its submission. -/
def raceRun : List (TxAct SubmissionRequest) :=
  let first : SubmissionRequest := ⟨1, 5, 50, 11, 13, 30, 101, 100, 20, 7⟩
  let second : SubmissionRequest := ⟨1, 5, 50, 12, 13, 30, 102, 100, 20, 7⟩
  [.begin first, .begin second, .step 0 true, .step 0 true, .step 1 true, .step 1 true,
    .step 0 true, .step 1 true, .step 0 true, .step 1 true, .step 0 true, .step 1 true, .commit 0,
    .step 0 true, .commit 0, .begin first, .step 0 true, .abort 0]

theorem attackLedger_raceRun :
    (scoresOf (raceRun.foldl submissionSystem.step ⟨[], 1, []⟩).rows).map
        (fun s => (s.eventType, s.teamId, s.delta)) =
      [(.attack, 11, 100), (.victimLoss, 13, -100), (.firstBonus, 11, 20), (.attack, 12, 100),
        (.victimLoss, 13, -100)] ∧
    AttackLedger (fun _ => 7) (raceRun.foldl submissionSystem.step ⟨[], 1, []⟩).rows := by
  have h0 : FreshLedger [] := ⟨List.nodup_nil, fun row hrow => absurd hrow List.not_mem_nil⟩
  have hbox : ∀ r, .begin r ∈ raceRun → NamesBox (fun _ => 7) r := by
    intro r hr
    simp only [raceRun, List.mem_cons, TxAct.begin.injEq, reduceCtorEq, List.not_mem_nil,
      or_false, false_or] at hr
    rcases hr with rfl | rfl | rfl <;> rfl
  exact ⟨by decide +kernel, (attackLedger_run (fun _ => 7) h0 1 hbox).1⟩

end FloatCtf.Awd
