import FloatCtf.Awd.FlagService
import FloatCtf.Awd.RecordFrame
import FloatCtf.Awd.RoundClock
import FloatCtf.Process.Pool

/-!
# Flags and rounds

A flag that was issued in a round should count for that round only.

`submit_flag` looks up the active round twice, once to validate the flag and once to write the
submission, and a round that ends in between is followed by the next one
(`flag_counts_for_next_round`).  `flagsBound_run` shows that every submission carries the round of
its flag, and every attack and loss the round of its submission, in every interleaving in which a
submission finds the same active round twice.
-/

namespace FloatCtf.Awd

open Process

/-! ## The system -/

/-- The jobs around a flag. -/
inductive FlagJob where
  | submit (userId : Nat) (flag : String)
  | startRound (expected : Option Int)
  | endRound (roundId : Nat)
  | pause
  | resume

/-- The program of a job. -/
def FlagJob.prog (hash : String → String) : FlagJob → AwdM Unit
  | submit userId flag => do let _ ← submitFlag hash userId flag
  | startRound expected => do let _ ← Awd.startRound expected
  | endRound roundId => Awd.endRound roundId
  | pause => pauseEvent
  | resume => resumeEvent

/-- What happens around the submissions: time passes, flags are issued, and teams, bans and game
boxes change. -/
inductive FlagEnv where
  | tick (d : Nat)
  | issue (i : FlagIssue)
  | members (ms : List TeamMember)
  | bans (bs : List TeamBan)
  | gameboxes (gs : List EventGamebox) (is : List GameboxInstance)

/-- The keys of `awd_flag_issues`. -/
def FlagIssue.clashes (i : FlagIssue) (db : Db) : Bool :=
  db.flagIssues.any fun k => k.id = i.id ∨ k.roundId = i.roundId ∧
    (k.flagHash = i.flagHash ∨ k.gameboxInstanceId = i.gameboxInstanceId)

/-- A flag is issued, unless it clashes. -/
def Db.issueFlag (db : Db) (i : FlagIssue) : Db :=
  if i.clashes db then db else { db with flagIssues := db.flagIssues ++ [i] }

/-- What happens beside the jobs. -/
def FlagEnv.apply : FlagEnv → Db → Db
  | tick d, db => { db with now := db.now + d }
  | issue i, db => db.issueFlag i
  | members ms, db => { db with members := ms }
  | bans bs, db => { db with bans := bs }
  | gameboxes gs is, db => { db with gameboxes := gs, instances := is }

/-- The jobs, without ghost state. -/
def flagSystem (hash : String → String) : System Stmt Db AwdError Unit FlagJob FlagEnv where
  prog := FlagJob.prog hash
  env := FlagEnv.apply
  watch _ _ _ _ := ()

/-- The jobs under way. -/
abbrev FlagPool := Pool Stmt Db AwdError Unit FlagJob

/-- Nothing has been submitted. -/
def FlagPool.initial (db : Db) : FlagPool := { state := db, ghost := (), threads := [] }

/-! ## The law -/

/-- The score event is the attack or the loss of the submission. -/
def FlagSubmission.Scores (s : FlagSubmission) (e : ScoreEvent) : Prop :=
  e.roundId = some s.roundId ∧
    (e.idempotencyKey = .attack s.eventId s.roundId s.attackerTeamId s.gameboxInstanceId ∨
      e.idempotencyKey = .victimLoss s.eventId s.roundId s.attackerTeamId s.gameboxInstanceId)

/-- The flag of the submission was issued in its round. -/
def FlagSubmission.Matches (s : FlagSubmission) (i : FlagIssue) : Prop :=
  i.id = s.flagIssueId ∧ i.roundId = s.roundId ∧ i.gameboxInstanceId = s.gameboxInstanceId

instance (s : FlagSubmission) (e : ScoreEvent) : Decidable (s.Scores e) :=
  inferInstanceAs (Decidable (_ ∧ _))

instance (s : FlagSubmission) (i : FlagIssue) : Decidable (s.Matches i) :=
  inferInstanceAs (Decidable (_ ∧ _ ∧ _))

/-- Every submission carries the round of its flag, and every attack and loss that of a
submission. -/
structure FlagsBound (db : Db) : Prop where
  issues : (db.flagIssues.map (·.id)).Nodup
  submissions : ∀ s ∈ db.submissions, ∃ i ∈ db.flagIssues, s.Matches i
  scores : ∀ e ∈ db.scores, e.eventType = .attack ∨ e.eventType = .victimLoss →
    ∃ s ∈ db.submissions, s.Scores e

/-- The second look-up of a submission finds the round of the first one, or none. -/
def SameRound (_ : FlagJob) (l : Stmt) (v : Db × Unit) : Prop :=
  match l with
  | .submissionRound validated => ∀ r ∈ findActiveRound v.1.rounds, r.id = validated
  | _ => True

instance (j : FlagJob) (l : Stmt) (v : Db × Unit) : Decidable (SameRound j l v) := by
  unfold SameRound
  split <;> infer_instance

/-- The law of the flags. -/
def flagLaw (hash : String → String) : Process.Law (flagSystem hash) where
  rely v v' := v.1.flagIssues ⊆ v'.1.flagIssues
  guar _ v v' := v.1.flagIssues ⊆ v'.1.flagIssues
  inv v := FlagsBound v.1
  cond := SameRound
  refl _ := List.Subset.refl _
  trans h h' := List.Subset.trans h h'
  guar_refl _ _ := List.Subset.refl _
  rely_of_guar := id

section Law

variable {hash : String → String} {j : FlagJob} {v : Db × Unit} {α : Type}

theorem FlagsBound.of_sameRecords {db db' : Db} (h : FlagsBound db) (hs : SameRecords db db') :
    FlagsBound db' := by
  refine ⟨?_, ?_, ?_⟩
  · rw [hs.flagIssues]
    exact h.issues
  · rw [hs.submissions, hs.flagIssues]
    exact h.submissions
  · rw [hs.scores, hs.submissions]
    exact h.scores

theorem flagLaw_guar {v' : Db × Unit} (h : v'.1.flagIssues = v.1.flagIssues) :
    (flagLaw hash).guar j v v' := by
  show v.1.flagIssues ⊆ v'.1.flagIssues
  rw [h]
  exact List.Subset.refl _

theorem flagLaw_sameRecords {p : AwdM α} (hp : p.Within SameRecords) :
    (flagLaw hash).Safe j (fun _ _ => True) p v :=
  Process.Law.safe_of_does hp fun _ _ _ _ hi _ hs =>
    ⟨flagLaw_guar hs.flagIssues, FlagsBound.of_sameRecords hi hs⟩

theorem flagLaw_select {Q : α → Db × Unit → Prop} {f : Db → α}
    (h : ∀ v', (flagLaw hash).rely v v' → Q (f v'.1) v') :
    (flagLaw hash).Safe j Q (select f) v :=
  Process.Law.safe_query (fun _ _ => rfl) fun v' hv _ _ => h v' hv

theorem flagLaw_orNotFound {Q : α → Db × Unit → Prop} {msg : String} {o : Option α}
    (h : ∀ a, o = some a → Q a v) : (flagLaw hash).Safe j Q (orNotFound msg o) v := by
  cases o with
  | none => trivial
  | some a => exact h a rfl

/-- What the validation has found. -/
def ValidatedFlag.Issued (valid : ValidatedFlag) (flagHash : String) (v : Db × Unit) : Prop :=
  ∃ i ∈ v.1.flagIssues, i.id = valid.flagIssueId ∧ i.roundId = valid.roundId ∧
    i.gameboxInstanceId = valid.gameboxInstanceId ∧ i.flagHash = flagHash

theorem ValidatedFlag.Issued.mono {valid : ValidatedFlag} {flagHash : String} {v' : Db × Unit}
    (h : valid.Issued flagHash v) (hv : (flagLaw hash).rely v v') : valid.Issued flagHash v' := by
  obtain ⟨i, hi, hrest⟩ := h
  exact ⟨i, hv hi, hrest⟩

theorem flagLaw_validateSubmission (flag : String) (attacker : Nat) :
    (flagLaw hash).Safe j (fun valid v' => valid.Issued (hash flag) v')
      (validateSubmission hash flag attacker) v := by
  refine Process.Law.safe_bind (flagLaw_select fun v₁ _ => Process.Law.safe_ite (fun _ => trivial)
    fun _ => Process.Law.safe_ite (fun _ => trivial) fun _ => ?_)
  refine Process.Law.safe_bind (flagLaw_select fun v₂ _ => Process.Law.safe_bind
    (flagLaw_orNotFound fun round _ => ?_))
  refine Process.Law.safe_bind (flagLaw_select fun v₃ _ => Process.Law.safe_bind
    (flagLaw_orNotFound fun issue hissue => ?_))
  have hmem := List.mem_of_find?_eq_some hissue
  have hfound : issue.roundId = round.id ∧ issue.flagHash = hash flag := by
    simpa using List.find?_some hissue
  refine Process.Law.safe_bind (flagLaw_select fun v₄ h₄ => Process.Law.safe_bind
    (flagLaw_orNotFound fun inst hinst => ?_))
  have hid : inst.id = issue.gameboxInstanceId := by simpa using List.find?_some hinst
  refine Process.Law.safe_ite (fun _ => trivial) fun _ => Process.Law.safe_bind
    (flagLaw_select fun v₅ h₅ => Process.Law.safe_ite (fun _ => trivial) fun _ =>
      Process.Law.safe_bind (flagLaw_select fun v₆ h₆ => Process.Law.safe_ite (fun _ => trivial)
        fun _ => ?_))
  exact ⟨issue, h₆ (h₅ (h₄ hmem)), rfl, hfound.1, hid.symm, hfound.2⟩

/-- The write of a submission for the round of its flag. -/
theorem FlagsBound.submissionTx {r : SubmissionRequest} {db db' : Db} {a : SubmissionResult}
    (h : FlagsBound db) (htx : submissionTx r db = .ok (db', a))
    (hissue : ∃ i ∈ db.flagIssues, i.id = r.flagIssueId ∧ i.roundId = r.roundId ∧
      i.gameboxInstanceId = r.gameboxInstanceId) :
    FlagsBound db' ∧ db'.flagIssues = db.flagIssues := by
  obtain ⟨n₁, n₂, n₃, n₄, nextId, bonus, -, hbonus, rfl⟩ := submissionTx_ok htx
  refine ⟨⟨h.issues, fun s hs => ?_, fun e he ht => ?_⟩, rfl⟩
  · rcases List.mem_append.1 hs with hs | hs
    · exact h.submissions s hs
    · rw [List.mem_singleton.1 hs]
      exact hissue
  · have hnew : r.submission n₁ ∈ db.submissions ++ [r.submission n₁] :=
      List.mem_append_right _ (List.mem_singleton_self _)
    rcases List.mem_append.1 he with he | he
    · obtain ⟨s, hs, hsc⟩ := h.scores e he ht
      exact ⟨s, List.mem_append_left _ hs, hsc⟩
    · rcases List.mem_append.1 he with he | he
      · rcases List.mem_pair.1 he with rfl | rfl
        · exact ⟨_, hnew, rfl, .inl rfl⟩
        · exact ⟨_, hnew, rfl, .inr rfl⟩
      · rcases hbonus with rfl | rfl
        · rw [List.mem_singleton.1 he] at ht
          rcases ht with ht | ht <;> cases ht
        · exact absurd he List.not_mem_nil

theorem flagLaw_submitFlag (userId : Nat) (flag : String) :
    (flagLaw hash).Safe j (fun _ _ => True) (submitFlag hash userId flag) v := by
  refine Process.Law.safe_bind (flagLaw_select fun v₁ _ => Process.Law.safe_ite (fun _ => trivial)
    fun _ => Process.Law.safe_bind (flagLaw_select fun v₂ _ => Process.Law.safe_bind
      (flagLaw_orNotFound fun membership _ => ?_)))
  refine Process.Law.safe_bind ((flagLaw_validateSubmission flag _).imp fun valid v₃ hvalid => ?_)
  refine Process.Law.safe_bind (Process.Law.safe_query (fun _ _ => rfl) fun v₄ h₄ _ hsame =>
    Process.Law.safe_bind (flagLaw_orNotFound fun round hround => ?_))
  have hr : round.id = valid.roundId := hsame round hround
  refine Process.Law.safe_bind (flagLaw_select fun v₅ h₅ => ?_)
  split
  · trivial
  · refine Process.Law.safe_bind (flagLaw_select fun v₆ h₆ => ?_)
    split
    · trivial
    · refine Process.Law.safe_exec (fun _ _ => rfl) fun v₇ h₇ hi _ db' a htx => ?_
      obtain ⟨i, hmem, hid, hir, hig, -⟩ := (((hvalid.mono h₄).mono h₅).mono h₆).mono h₇
      obtain ⟨hb, hsub⟩ := FlagsBound.submissionTx hi htx ⟨i, hmem, hid, hir.trans hr.symm, hig⟩
      exact ⟨flagLaw_guar hsub, hb, trivial⟩

theorem FlagsBound.issueFlag {db : Db} (h : FlagsBound db) (i : FlagIssue) :
    db.flagIssues ⊆ (db.issueFlag i).flagIssues ∧ FlagsBound (db.issueFlag i) := by
  unfold Db.issueFlag
  split_ifs with hclash
  · exact ⟨List.Subset.refl _, h⟩
  · refine ⟨List.subset_append_left _ _, ?_, fun s hs => ?_, h.scores⟩
    · rw [List.map_append, List.map_singleton, List.nodup_append]
      refine ⟨h.issues, List.nodup_singleton _, fun a ha b hb => ?_⟩
      obtain ⟨k, hk, rfl⟩ := List.mem_map.1 ha
      rw [List.mem_singleton.1 hb]
      exact fun he => hclash (List.any_eq_true.2 ⟨k, hk, decide_eq_true (.inl he)⟩)
    · obtain ⟨k, hk, hm⟩ := h.submissions s hs
      exact ⟨k, List.mem_append_left _ hk, hm⟩

theorem flagLaw_keeps (hash : String → String) : (flagLaw hash).Keeps := by
  refine ⟨fun j v _ => ?_, fun env v hi => ?_⟩
  · cases j with
    | submit userId flag =>
      exact Process.Law.safe_seq (flagLaw_submitFlag userId flag) fun _ _ _ => trivial
    | startRound expected =>
      exact Process.Law.safe_seq (flagLaw_sameRecords (sameRecords_startRound expected))
        fun _ _ _ => trivial
    | endRound roundId => exact flagLaw_sameRecords (sameRecords_endRound roundId)
    | pause => exact flagLaw_sameRecords sameRecords_pauseEvent
    | resume => exact flagLaw_sameRecords sameRecords_resumeEvent
  · have hi : FlagsBound v.1 := hi
    cases env with
    | issue i => exact hi.issueFlag i
    | _ => exact ⟨List.Subset.refl _, hi.issues, hi.submissions, hi.scores⟩

end Law

/-! ## Runs -/

theorem flagsBound_run (hash : String → String) {db : Db} (h0 : FlagsBound db)
    {acts : List (Act FlagJob FlagEnv)}
    (h : Along (flagSystem hash).step (Meets SameRound) (FlagPool.initial db) acts) :
    FlagsBound (acts.foldl (flagSystem hash).step (FlagPool.initial db)).state :=
  (Process.Law.poolOk_run (flagLaw_keeps hash) (w := FlagPool.initial db)
    ⟨h0, fun _ ht => absurd ht List.not_mem_nil⟩ h).1.inv

/-- Round 5 of two is on, with one flag, and the user 7 plays for the team 6. -/
def flagDb : Db :=
  { oneRoundDb with
    event := { oneRoundDb.event with status := .running, phase := .attack, roundCount := some 2 }
    rounds := [createdRound 5 1 0 (100 * sec)]
    teams := [{ id := 2 }, { id := 6 }]
    members := [{ userId := 7, teamId := 6 }]
    flagIssues := [{ id := 8, roundId := 5, gameboxInstanceId := 4, flagHash := "flag" }] }

theorem flagsBound_flagDb : FlagsBound flagDb :=
  ⟨by decide, by decide, by decide⟩

/-- The program at index `i` makes `n` statements. -/
def flagSteps (i n : Nat) : List (Act FlagJob FlagEnv) := List.replicate n (.step i true)

/-- The round ends after the flag is validated, and the submission goes on in the next one. -/
def lateSubmission : List (Act FlagJob FlagEnv) :=
  .spawn (.submit 7 "flag") :: flagSteps 0 8 ++ .spawn (.endRound 5) :: flagSteps 1 20 ++
    flagSteps 0 4

/-- The same flag, submitted while its round is on. -/
def timelySubmission : List (Act FlagJob FlagEnv) := .spawn (.submit 7 "flag") :: flagSteps 0 12

theorem flag_counts_for_next_round : FlagsBound flagDb ∧
    ¬ FlagsBound (lateSubmission.foldl (flagSystem id).step (FlagPool.initial flagDb)).state := by
  refine ⟨flagsBound_flagDb, fun h => ?_⟩
  have hsubmissions := h.submissions
  revert hsubmissions
  decide +kernel

theorem flagsBound_run_timely :
    (timelySubmission.foldl (flagSystem id).step (FlagPool.initial flagDb)).state.scores.length = 3 ∧
      FlagsBound (timelySubmission.foldl (flagSystem id).step (FlagPool.initial flagDb)).state := by
  have hsame : Along (flagSystem id).step (Meets SameRound) (FlagPool.initial flagDb)
      timelySubmission := by decide +kernel
  exact ⟨by decide +kernel, flagsBound_run id flagsBound_flagDb hsame⟩

end FloatCtf.Awd
