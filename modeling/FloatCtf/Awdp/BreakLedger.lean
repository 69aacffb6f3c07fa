import FloatCtf.Awdp.BreakService
import FloatCtf.Process.Duty
import FloatCtf.Process.Table
import FloatCtf.Process.Visits

/-!
# The scores of the break phase

A subject whose flag was accepted should have one break row and one row of the ledger.  The two rows
are two statements, and a submission that finds a break row writes no score: where the first request
ends between the two, the score is lost (`break_score_lost`).

`breakLedger_run` shows that both rows are there, in every run in which no request ends between its
two rows.
-/

namespace FloatCtf.Awdp

open Process

/-! ## The system -/

/-- A submission of a flag for one gamebox of one subject. -/
structure BreakJob where
  key : BreakKey
  flag : String
  deriving DecidableEq

/-- The key of a break score. -/
def IdempotencyKey.isBreak : IdempotencyKey → Bool
  | .break .. => true
  | _ => false

/-- Time passes, a run is created or moves to another phase, the prefix of the flags is set, or a
score of another kind is written. -/
inductive BreakEnv where
  | advance (secs : Nat)
  | createRun (run : Run)
  | phase (runId : Nat) (phase : AwdpPhase)
  | flagPrefix (text : Option String)
  | otherScore (s : NewScore) (eventId : Nat)

/-- What happens beside the submissions. -/
def BreakEnv.act : BreakEnv → BreakDb → BreakDb
  | advance secs, db => { db with core := { db.core with now := db.core.now + secs } }
  | createRun run, db =>
    if (db.core.runById run.id).isSome then db
    else { db with core := { db.core with runs := db.core.runs ++ [run] } }
  | .phase runId p, db =>
    { db with core := { db.core with
      runs := db.core.runs.map fun r => if r.id = runId then { r with phase := p } else r } }
  | flagPrefix text, db => { db with flagPrefix := text }
  | otherScore s eventId, db =>
    if s.scoreType = .break ∨ s.idempotencyKey.isBreak ∨ db.core.scored s.idempotencyKey then db
    else { db with core := db.core.insertScore s eventId }

/-- What is noted of a run: the break rows that were inserted, the keys of which a request found the
break row before its score was there, and the keys for which a flag was accepted. -/
structure BreakNotes where
  opened : List BreakKey := []
  overtaken : List BreakKey := []
  accepted : List BreakKey := []

/-- The statement would insert a row. -/
def BreakDb.opens (db : BreakDb) (k : BreakKey) : Bool :=
  (db.core.runById k.runId).isSome && !db.broken k

/-- A break row whose score is still to be written. -/
def BreakDb.unscored (db : BreakDb) (k : BreakKey) : Bool :=
  db.broken k && !db.core.scored (breakIdempotencyKey k)

/-- What the notes learn of a statement: a break that is opened, or one that finds another before
its score. -/
def BreakNotes.watch (_ : BreakJob) (l : BreakStmt) (db : BreakDb) (g : BreakNotes) : BreakNotes :=
  match l with
  | .recordBreak k =>
    if db.opens k then { g with opened := k :: g.opened }
    else if db.unscored k then { g with overtaken := k :: g.overtaken }
    else g
  | .answered k (.ok r) => if r.accepted then { g with accepted := k :: g.accepted } else g
  | _ => g

section System

variable (awdpFlag : BreakKey → String → String) (hashFlag : String → String)

/-- The submissions, with the notes as ghost state. -/
def breakSystem : System BreakStmt BreakDb AwdpError BreakNotes BreakJob BreakEnv where
  prog j := submitRequest awdpFlag hashFlag j.key j.flag
  env := BreakEnv.act
  watch := BreakNotes.watch

end System

/-- The submissions under way. -/
abbrev BreakPool := Pool BreakStmt BreakDb AwdpError BreakNotes BreakJob

/-- Nothing has been submitted. -/
def BreakPool.initial (db : BreakDb) : BreakPool := ⟨db, {}, []⟩

/-! ## The ledger -/

/-- The row is a break score of the subject for the gamebox in the run. -/
def ScoreEvent.creditsBreak (k : BreakKey) (s : ScoreEvent) : Bool :=
  s.scoreType = .break ∧ s.runId = k.runId ∧ s.gameboxId = k.gameboxId ∧
    s.userId = k.subject.userId ∧ s.teamId = k.subject.teamId

/-- The scores of a break. -/
def BreakDb.credits (db : BreakDb) (k : BreakKey) : List ScoreEvent :=
  db.core.scores.filter (·.creditsBreak k)

/-- One break row, and one score of the run's break score. -/
def BreakDb.ScoredOnce (db : BreakDb) (k : BreakKey) : Prop :=
  (db.breaks.filter (·.key = k)).length = 1 ∧
    ∃ run, db.core.runById k.runId = some run ∧
      (db.credits k).map (·.delta) = [run.config.breakScore]

/-! ## The condition -/

/-- The statement belongs to the score of the break row with this key. -/
def BreakStmt.scores (k : BreakKey) : BreakStmt → Bool
  | .scoring k' _ => k' = k
  | _ => false

/-- No request ends between its two rows: there is no crash while a score is to be written, and the
statements that write it do not fail. -/
def Finishes (w : BreakPool) : Act BreakJob BreakEnv → Prop
  | .crash => ∀ b ∈ w.state.breaks, w.state.unscored b.key = false
  | .step i false => ∀ s ∈ w.next i, ∀ b ∈ w.state.breaks, s.2.scores b.key = true →
      w.state.unscored b.key = false
  | _ => True

instance (w : BreakPool) (a : Act BreakJob BreakEnv) : Decidable (Finishes w a) :=
  match a with
  | .crash => inferInstanceAs (Decidable (∀ b ∈ w.state.breaks, _))
  | .step i false => inferInstanceAs (Decidable (∀ s ∈ w.next i, ∀ b ∈ w.state.breaks, _))
  | .step _ true | .spawn _ | .env _ => inferInstanceAs (Decidable True)

/-! ## The invariant -/

/-- The invariant of the submissions: one row and one score for each break, and a score only for a
break. -/
structure BreakInv (v : BreakDb × BreakNotes) : Prop where
  breaks : Table.Keyed Break.key v.1.breaks
  scores : Table.Keyed ScoreEvent.idempotencyKey v.1.core.scores
  credit : ∀ s ∈ v.1.core.scores, ∀ k,
    s.creditsBreak k = true ↔ s.idempotencyKey = breakIdempotencyKey k
  delta : ∀ s ∈ v.1.core.scores, ∀ k, s.idempotencyKey = breakIdempotencyKey k →
    ∃ run, v.1.core.runById k.runId = some run ∧ s.delta = run.config.breakScore
  runs : ∀ b ∈ v.1.breaks, (v.1.core.runById b.key.runId).isSome = true
  opened : ∀ k, k ∈ v.2.opened ↔ v.1.broken k = true
  accepted : ∀ k ∈ v.2.accepted, v.1.broken k = true ∧
    (v.1.core.scored (breakIdempotencyKey k) = true ∨ k ∈ v.2.overtaken)

/-- Rows stay, and a run keeps its configuration. -/
structure BreakGrows (db db' : BreakDb) : Prop where
  broken : ∀ k, db.broken k = true → db'.broken k = true
  scored : ∀ key, db.core.scored key = true → db'.core.scored key = true
  runs : ∀ id run, db.core.runById id = some run →
    ∃ run', db'.core.runById id = some run' ∧ run'.config = run.config

variable {db db' : BreakDb} {g : BreakNotes} {k : BreakKey} {v : BreakDb × BreakNotes}

theorem BreakGrows.refl (db : BreakDb) : BreakGrows db db :=
  ⟨fun _ h => h, fun _ h => h, fun _ run h => ⟨run, h, rfl⟩⟩

theorem BreakGrows.trans {a b c : BreakDb} (h : BreakGrows a b) (h' : BreakGrows b c) :
    BreakGrows a c := by
  refine ⟨fun k hk => h'.broken k (h.broken k hk), fun key hk => h'.scored key (h.scored key hk),
    fun id run hr => ?_⟩
  obtain ⟨run1, h1, hc1⟩ := h.runs id run hr
  obtain ⟨run2, h2, hc2⟩ := h'.runs id run1 h1
  exact ⟨run2, h2, hc2.trans hc1⟩

theorem BreakSubject.eq_of_ids {a b : BreakSubject} (hu : a.userId = b.userId) (ht : a.teamId = b.teamId) :
    a = b := by
  cases a <;> cases b <;> simp_all [BreakSubject.userId, BreakSubject.teamId]

theorem breakIdempotencyKey_inj {k' : BreakKey}
    (h : breakIdempotencyKey k = breakIdempotencyKey k') : k = k' := by
  obtain ⟨hr, hg, hu, ht⟩ := IdempotencyKey.break.inj h
  cases k
  cases k'
  cases hr
  cases hg
  cases BreakSubject.eq_of_ids hu ht
  rfl

theorem broken_iff : db.broken k = true ↔ ∃ b ∈ db.breaks, b.key = k := by
  simp [BreakDb.broken]

theorem scored_iff {core : Db} {key : IdempotencyKey} :
    core.scored key = true ↔ ∃ s ∈ core.scores, s.idempotencyKey = key := by
  simp [Db.scored]

/-! ## Two new rows -/

theorem broken_insertBreak_iff {k' : BreakKey} {eventId : Nat} {sha : String} :
    (db.insertBreak k eventId sha).broken k' = true ↔ db.broken k' = true ∨ k' = k := by
  simp [BreakDb.broken, BreakDb.insertBreak, eq_comm (a := k)]

theorem grows_insertBreak (db : BreakDb) (k : BreakKey) (eventId : Nat) (sha : String) :
    BreakGrows db (db.insertBreak k eventId sha) := by
  refine ⟨fun k' hk => ?_, fun _ h => h, fun id run h => ⟨run, h, rfl⟩⟩
  exact broken_insertBreak_iff.2 (.inl hk)

theorem BreakInv.insertBreak (h : BreakInv (db, g)) (hno : db.broken k = false)
    (hrun : (db.core.runById k.runId).isSome = true) (eventId : Nat) (sha : String) :
    BreakInv (db.insertBreak k eventId sha, { g with opened := k :: g.opened }) := by
  have hgrow := grows_insertBreak db k eventId sha
  refine ⟨?_, h.scores, h.credit, h.delta, fun b hb => ?_, fun k' => ?_, fun k' hk => ?_⟩
  · refine Table.keyed_append h.breaks fun b hb he => ?_
    rw [broken_iff.2 ⟨b, hb, he⟩] at hno
    cases hno
  · rcases List.mem_append.1 hb with hb | hb
    · exact h.runs b hb
    · rw [List.mem_singleton.1 hb]
      exact hrun
  · rw [List.mem_cons, h.opened k', broken_insertBreak_iff, or_comm]
  · exact ⟨hgrow.broken k' (h.accepted k' hk).1, (h.accepted k' hk).2⟩

/-- The state after the score of a break. -/
def BreakDb.credit (db : BreakDb) (s : NewScore) (eventId : Nat) : BreakDb :=
  { db with core := db.core.insertScore s eventId }

theorem grows_credit (db : BreakDb) (s : NewScore) (eventId : Nat) :
    BreakGrows db (db.credit s eventId) := by
  refine ⟨fun _ h => h, fun key hk => ?_, fun id run h => ⟨run, h, rfl⟩⟩
  obtain ⟨x, hx, he⟩ := scored_iff.1 hk
  exact scored_iff.2 ⟨x, List.mem_append_left _ hx, he⟩

theorem scored_credit (db : BreakDb) (s : NewScore) (eventId : Nat) :
    (db.credit s eventId).core.scored s.idempotencyKey = true :=
  scored_iff.2 ⟨_, List.mem_append_right _ (List.mem_singleton_self _), rfl⟩

theorem credits_breakScore (k k' : BreakKey) (run : Run) (id eventId : Nat) :
    ((breakScore k run).row id eventId).creditsBreak k' = true ↔
      breakIdempotencyKey k = breakIdempotencyKey k' := by
  simp [ScoreEvent.creditsBreak, NewScore.row, breakScore, breakIdempotencyKey]

theorem BreakInv.credited (h : BreakInv (db, g)) {run run' : Run}
    (hno : db.core.scored (breakIdempotencyKey k) = false)
    (hrun : db.core.runById k.runId = some run') (hconf : run'.config = run.config)
    (eventId : Nat) : BreakInv (db.credit (breakScore k run) eventId, g) := by
  have hgrow := grows_credit db (breakScore k run) eventId
  refine ⟨h.breaks, ?_, fun s hs k' => ?_, fun s hs k' hk => ?_, h.runs, h.opened, fun k' hk => ?_⟩
  · refine Table.keyed_append h.scores fun s hs he => ?_
    have hkey : s.idempotencyKey = breakIdempotencyKey k := he
    rw [scored_iff.2 ⟨s, hs, hkey⟩] at hno
    cases hno
  · rcases List.mem_append.1 hs with hs | hs
    · exact h.credit s hs k'
    · rw [List.mem_singleton.1 hs]
      exact credits_breakScore k k' run _ eventId
  · rcases List.mem_append.1 hs with hs | hs
    · exact h.delta s hs k' hk
    · rw [List.mem_singleton.1 hs] at hk ⊢
      cases breakIdempotencyKey_inj hk
      exact ⟨run', hrun, congrArg AwdpConfig.breakScore hconf.symm⟩
  · exact ⟨(h.accepted k' hk).1, (h.accepted k' hk).2.imp_left (hgrow.scored _)⟩

/-- What the invariant says of a key with both rows. -/
theorem BreakInv.scoredOnce (h : BreakInv (db, g)) (hb : db.broken k = true)
    (hs : db.core.scored (breakIdempotencyKey k) = true) : db.ScoredOnce k := by
  obtain ⟨b, hmem, rfl⟩ := broken_iff.1 hb
  obtain ⟨s, hsmem, hkey⟩ := scored_iff.1 hs
  obtain ⟨run, hrun, hdelta⟩ := h.delta s hsmem b.key hkey
  have hcredits : db.credits b.key = [s] := by
    rw [← Table.filter_of_mem h.scores hsmem, BreakDb.credits]
    refine List.filter_congr fun x hx => ?_
    rw [hkey, Bool.eq_iff_iff, h.credit x hx, decide_eq_true_iff]
  refine ⟨?_, run, hrun, ?_⟩
  · rw [Table.filter_of_mem h.breaks hmem]
    rfl
  · rw [hcredits, List.map_singleton, hdelta]

/-! ## The environment -/

/-- A state with the same rows, in which the runs keep their configuration. -/
theorem BreakInv.of_runs (h : BreakInv (db, g)) (hb : db'.breaks = db.breaks)
    (hs : db'.core.scores = db.core.scores) (hr : ∀ id run, db.core.runById id = some run →
      ∃ run', db'.core.runById id = some run' ∧ run'.config = run.config) :
    BreakGrows db db' ∧ BreakInv (db', g) := by
  have hbroken (k : BreakKey) : db'.broken k = db.broken k := by
    rw [BreakDb.broken, BreakDb.broken, hb]
  have hscored (key : IdempotencyKey) : db'.core.scored key = db.core.scored key := by
    rw [Db.scored, Db.scored, hs]
  refine ⟨⟨fun k hk => (hbroken k).trans hk, fun key hk => (hscored key).trans hk, hr⟩, ?_⟩
  refine ⟨hb ▸ h.breaks, hs ▸ h.scores, hs ▸ h.credit, fun s hmem k hk => ?_, fun b hmem => ?_,
    fun k => (h.opened k).trans (by rw [hbroken]), fun k hk => ?_⟩
  · obtain ⟨run, hrun, hdelta⟩ := h.delta s (hs ▸ hmem) k hk
    obtain ⟨run', hrun', hconf⟩ := hr _ run hrun
    exact ⟨run', hrun', hdelta.trans (congrArg AwdpConfig.breakScore hconf.symm)⟩
  · obtain ⟨run, hrun⟩ := Option.isSome_iff_exists.1 (h.runs b (hb ▸ hmem))
    obtain ⟨run', hrun', -⟩ := hr _ run hrun
    exact Option.isSome_iff_exists.2 ⟨run', hrun'⟩
  · rw [hbroken, hscored]
    exact h.accepted k hk

/-- A score of another kind. -/
theorem BreakInv.otherScore (h : BreakInv (db, g)) {s : NewScore} (htype : s.scoreType ≠ .break)
    (hkey : s.idempotencyKey.isBreak = false) (hno : db.core.scored s.idempotencyKey = false)
    (eventId : Nat) : BreakInv (db.credit s eventId, g) := by
  have hgrow := grows_credit db s eventId
  have hne (k : BreakKey) : (s.row db.core.nextId eventId).idempotencyKey ≠
      breakIdempotencyKey k := by
    intro he
    have hisBreak : s.idempotencyKey.isBreak = true := congrArg IdempotencyKey.isBreak he
    rw [hkey] at hisBreak
    cases hisBreak
  refine ⟨h.breaks, ?_, fun x hx k => ?_, fun x hx k hk => ?_, h.runs, h.opened, fun k hk => ?_⟩
  · refine Table.keyed_append h.scores fun x hx he => ?_
    have hkey : x.idempotencyKey = s.idempotencyKey := he
    rw [scored_iff.2 ⟨x, hx, hkey⟩] at hno
    cases hno
  · rcases List.mem_append.1 hx with hx | hx
    · exact h.credit x hx k
    · rw [List.mem_singleton.1 hx]
      refine ⟨fun hc => absurd ?_ htype, fun he => absurd he (hne k)⟩
      exact (of_decide_eq_true hc).1
  · rcases List.mem_append.1 hx with hx | hx
    · exact h.delta x hx k hk
    · rw [List.mem_singleton.1 hx] at hk
      exact absurd hk (hne k)
  · exact ⟨(h.accepted k hk).1, (h.accepted k hk).2.imp_left (hgrow.scored _)⟩

theorem BreakInv.env (h : BreakInv (db, g)) (e : BreakEnv) :
    BreakGrows db (e.act db) ∧ BreakInv (e.act db, g) := by
  have hsame : BreakGrows db db ∧ BreakInv (db, g) := ⟨.refl db, h⟩
  cases e with
  | advance secs => exact h.of_runs rfl rfl fun _ run hr => ⟨run, hr, rfl⟩
  | flagPrefix text => exact h.of_runs rfl rfl fun _ run hr => ⟨run, hr, rfl⟩
  | createRun new =>
    simp only [BreakEnv.act]
    split_ifs with hex
    · exact hsame
    · exact h.of_runs rfl rfl fun id run hr => ⟨run, Table.find_append hr _, rfl⟩
  | phase runId p =>
    refine h.of_runs rfl rfl fun id run hr => ?_
    refine ⟨if run.id = runId then { run with phase := p } else run, ?_, ?_⟩
    · have hid (r : Run) : (if r.id = runId then { r with phase := p } else r).id = r.id := by
        split_ifs <;> rfl
      exact (Table.find_map hid db.core.runs id).trans (congrArg (Option.map _) hr)
    · split_ifs <;> rfl
  | otherScore s eventId =>
    simp only [BreakEnv.act]
    split_ifs with hc
    · exact hsame
    · simp only [not_or, Bool.not_eq_true] at hc
      exact ⟨grows_credit db s eventId, h.otherScore hc.1 hc.2.1 hc.2.2 eventId⟩

/-! ## The requests -/

/-- A read that finds a run, or the error of `requireRun`. -/
theorem onCore_requireRun (label : Stmt → BreakStmt) (id : Nat) :
    onCore label (requireRun id) = Prog.query (label .select) dbError (·.core.runById id) >>=
      fun run => onCore label (ofOption s!"未找到该 AWDP 运行（{id}）" run) := by
  rw [onCore, requireRun, Prog.zoom_bind, select, Prog.zoom_query fun _ => rfl]
  rfl

/-- The score of a break, in one piece. -/
theorem onCore_createScoreEvent (label : Stmt → BreakStmt) (s : NewScore) :
    onCore label (createScoreEvent s) = onCore label (requireRun s.runId) >>= fun run =>
      Prog.exec (label (.createScore s)) dbError fun db =>
        if db.core.scored s.idempotencyKey then .ok (db, false)
        else .ok (db.credit s run.eventId, true) := by
  rw [onCore, createScoreEvent, Prog.zoom_bind]
  refine congrArg _ (funext fun run => ?_)
  rw [Prog.zoom_exec fun _ => rfl]
  refine congrArg _ (funext fun db => ?_)
  split_ifs <;> rfl

theorem BreakInv.overtake (h : BreakInv (db, g)) (k : BreakKey) :
    BreakInv (db, { g with overtaken := k :: g.overtaken }) :=
  ⟨h.breaks, h.scores, h.credit, h.delta, h.runs, h.opened, fun k' hk =>
    (h.accepted k' hk).imp_right (Or.imp_right (List.mem_cons_of_mem k))⟩

theorem BreakInv.accept (h : BreakInv (db, g)) (hb : db.broken k = true)
    (hs : db.core.scored (breakIdempotencyKey k) = true ∨ k ∈ g.overtaken) :
    BreakInv (db, { g with accepted := k :: g.accepted }) := by
  refine ⟨h.breaks, h.scores, h.credit, h.delta, h.runs, h.opened, fun k' hk => ?_⟩
  rcases List.mem_cons.1 hk with rfl | hk
  · exact ⟨hb, hs⟩
  · exact h.accepted k' hk

theorem record_of_opens (h : db.opens k = true) (eventId : Nat) (sha : String) :
    db.record k eventId sha = .ok (db.insertBreak k eventId sha, true) := by
  obtain ⟨hrun, hno⟩ := Bool.and_eq_true_iff.1 h
  obtain ⟨run, hrun⟩ := Option.isSome_iff_exists.1 hrun
  rw [Bool.not_eq_true'] at hno
  simp [BreakDb.record, hrun, hno]

/-- A statement that inserts no row is refused, or it has found one. -/
theorem record_of_not_opens (h : ¬ db.opens k = true) (eventId : Nat) (sha : String) :
    Prog.after (·.record k eventId sha) db = db ∧
      ∀ s a, db.record k eventId sha = .ok (s, a) → s = db ∧ a = false ∧ db.broken k = true := by
  cases hrun : db.core.runById k.runId with
  | none => simp [Prog.after, BreakDb.record, hrun]
  | some run =>
    have hb : db.broken k = true := by simpa [BreakDb.opens, hrun] using h
    simp [Prog.after, BreakDb.record, hrun, hb, eq_comm]

section Law

variable (awdpFlag : BreakKey → String → String) (hashFlag : String → String)

/-- The law of the submissions. -/
def breakLaw : Law (breakSystem awdpFlag hashFlag) where
  rely v v' := BreakGrows v.1 v'.1 ∧ v.2.overtaken ⊆ v'.2.overtaken
  guar _ v v' := BreakGrows v.1 v'.1 ∧ v.2.overtaken ⊆ v'.2.overtaken
  inv := BreakInv
  cond _ _ _ := True
  refl v := ⟨.refl v.1, List.Subset.refl _⟩
  trans h h' := ⟨h.1.trans h'.1, List.Subset.trans h.2 h'.2⟩
  guar_refl _ v := ⟨.refl v.1, List.Subset.refl _⟩
  rely_of_guar h := h

variable {awdpFlag hashFlag} {j : BreakJob}

/-- The rows behind an accepted flag, or the mark of a request that came in between. -/
def Recorded (k : BreakKey) (v : BreakDb × BreakNotes) : Prop :=
  v.1.broken k = true ∧ (v.1.core.scored (breakIdempotencyKey k) = true ∨ k ∈ v.2.overtaken)

theorem Recorded.mono (h : Recorded k v) {v' : BreakDb × BreakNotes}
    (hv : (breakLaw awdpFlag hashFlag).rely v v') : Recorded k v' :=
  ⟨hv.1.broken k h.1, h.2.imp (hv.1.scored _) (hv.2 ·)⟩

theorem safe_requireRun {label : Stmt → BreakStmt}
    (hl : ∀ l, (breakSystem awdpFlag hashFlag).Unseen j (label l)) (id : Nat)
    {Q : Run → BreakDb × BreakNotes → Prop} (hQ : ∀ run v', (breakLaw awdpFlag hashFlag).rely v v' →
      BreakInv v' → v'.1.core.runById id = some run → Q run v') :
    (breakLaw awdpFlag hashFlag).Safe j Q (onCore label (requireRun id)) v := by
  rw [onCore_requireRun]
  refine Law.safe_bind (Law.safe_query (hl _) fun v' hr hi _ => ?_)
  cases hrun : v'.1.core.runById id with
  | none => trivial
  | some run => exact hQ run v' hr hi hrun

theorem safe_recordBreak (k : BreakKey) (sha : String) :
    (breakLaw awdpFlag hashFlag).Safe j
      (fun first v' => v'.1.broken k = true ∧ (first = false → Recorded k v'))
      (recordBreak k sha) v := by
  refine Law.safe_bind (safe_requireRun (fun _ _ _ => rfl) k.runId fun run v' _ _ _ => ?_)
  refine Law.safe_exec_seen fun v' _ hi _ => ?_
  obtain ⟨db, g⟩ := v'
  by_cases hopens : db.opens k = true
  · have hrec := record_of_opens hopens run.eventId sha
    have hafter : Prog.after (·.record k run.eventId sha) db =
        db.insertBreak k run.eventId sha := Prog.after_of_ok hrec
    obtain ⟨hrun, hno⟩ := Bool.and_eq_true_iff.1 hopens
    rw [Bool.not_eq_true'] at hno
    simp only [System.after, hafter, breakSystem, BreakNotes.watch, hopens, ↓reduceIte]
    refine ⟨⟨grows_insertBreak db k _ _, List.Subset.refl _⟩, hi.insertBreak hno hrun _ _, ?_⟩
    rintro s a h
    cases hrec.symm.trans h
    exact ⟨broken_insertBreak_iff.2 (.inr rfl), fun hfirst => by cases hfirst⟩
  · obtain ⟨hafter, hanswer⟩ := record_of_not_opens hopens run.eventId sha
    simp only [System.after, hafter, breakSystem, BreakNotes.watch, hopens, Bool.false_eq_true,
      ↓reduceIte]
    split_ifs with hun
    · refine ⟨⟨.refl db, List.subset_cons_self k _⟩, hi.overtake k, fun s a h => ?_⟩
      obtain ⟨-, -, hb⟩ := hanswer s a h
      exact ⟨hb, fun _ => ⟨hb, .inr List.mem_cons_self⟩⟩
    · refine ⟨⟨.refl db, List.Subset.refl _⟩, hi, fun s a h => ?_⟩
      obtain ⟨-, -, hb⟩ := hanswer s a h
      refine ⟨hb, fun _ => ⟨hb, .inl ?_⟩⟩
      simpa [BreakDb.unscored, hb] using hun

theorem safe_acceptFlag (k : BreakKey) {run run' : Run} (expected : String)
    (hrun : v.1.core.runById k.runId = some run') (hconf : run'.config = run.config) :
    (breakLaw awdpFlag hashFlag).Safe j (fun r v' => r.accepted = true → Recorded k v')
      (acceptFlag hashFlag k run expected) v := by
  refine Law.safe_bind ?_
  refine (safe_recordBreak k (hashFlag expected)).and_rely.imp fun first v1 hv1 => ?_
  obtain ⟨⟨hb, hfound⟩, hr1⟩ := hv1
  cases first with
  | false => exact Law.safe_pure fun _ => hfound rfl
  | true =>
    refine Law.safe_bind ?_
    rw [onCore_createScoreEvent]
    refine Law.safe_bind (safe_requireRun (fun _ _ _ => rfl) _ fun scored v2 hr2 _ _ => ?_)
    refine Law.safe_exec (fun _ _ => rfl) fun v3 hr3 hi _ s a h => ?_
    obtain ⟨db, g⟩ := v3
    have hr : BreakGrows v.1 db := (hr1.1.trans hr2.1).trans hr3.1
    have hb : db.broken k = true := (hr2.1.trans hr3.1).broken k hb
    obtain ⟨run3, hrun3, hconf3⟩ := hr.runs _ _ hrun
    split_ifs at h with hs <;> cases h
    · exact ⟨⟨.refl _, List.Subset.refl _⟩, hi, fun _ => ⟨hb, .inl hs⟩⟩
    · have hgrow := grows_credit db (breakScore k run) scored.eventId
      rw [Bool.not_eq_true] at hs
      exact ⟨⟨hgrow, List.Subset.refl _⟩, hi.credited hs hrun3 (hconf3.trans hconf) _,
        fun _ => ⟨hgrow.broken k hb, .inl (scored_credit db _ _)⟩⟩

theorem safe_submitRequest (k : BreakKey) (flag : String) :
    (breakLaw awdpFlag hashFlag).Safe j (fun _ _ => True)
      (submitRequest awdpFlag hashFlag k flag) v := by
  have hsubmit : (breakLaw awdpFlag hashFlag).Safe j
      (fun r v' => r.accepted = true → Recorded k v') (submitFlag awdpFlag hashFlag k flag) v := by
    refine Law.safe_bind (safe_requireRun (fun _ _ _ => rfl) k.runId fun run v1 _ _ hrun => ?_)
    refine Law.safe_ite (fun _ => trivial) fun _ => Law.safe_ite (fun _ => trivial) fun _ => ?_
    refine Law.safe_bind (Law.safe_read (fun _ _ => rfl) (fun v2 hr _ _ => ?_) fun v2 hr _ => ?_)
    all_goals
      refine Law.safe_ite (fun _ => Law.safe_pure nofun) fun _ => ?_
      obtain ⟨run', hrun', hconf⟩ := hr.1.runs _ _ hrun
      exact safe_acceptFlag k _ hrun' hconf
  refine Law.safe_bind (Law.safe_attempt (hsubmit.imp fun r v1 hrec => ?_) fun e v1 _ => ?_)
  · refine fun v2 hr hi => ⟨fun _ => ?_, trivial⟩
    by_cases hacc : r.accepted = true
    · have hrec := (hrec hacc).mono hr
      simp only [System.after, breakSystem, BreakNotes.watch, hacc, ↓reduceIte]
      exact ⟨⟨.refl _, List.Subset.refl _⟩, hi.accept hrec.1 hrec.2, trivial⟩
    · simp only [System.after, breakSystem, BreakNotes.watch, hacc, Bool.false_eq_true, ↓reduceIte]
      exact ⟨⟨.refl _, List.Subset.refl _⟩, hi, trivial⟩
  · exact fun v2 hr hi => ⟨fun _ => ⟨⟨.refl _, List.Subset.refl _⟩, hi, trivial⟩, trivial⟩

theorem breakLaw_keeps : (breakLaw awdpFlag hashFlag).Keeps where
  prog j _ _ := safe_submitRequest j.key j.flag
  env e _ h := ⟨⟨(BreakInv.env h e).1, List.Subset.refl _⟩, (BreakInv.env h e).2⟩

end Law

/-! ## The score that is owed -/

/-- A request that inserts the break row of `k` owes its score. -/
def scoreDuty (k : BreakKey) : Duties BreakStmt BreakDb BreakNotes Unit where
  ok db := ∃ g, BreakInv (db, g)
  cond _ _ := True
  opens l db _ := l = .recordBreak k ∧ db.opens k = true
  due _ db := db.broken k = true
  paid _ db := db.core.scored (breakIdempotencyKey k) = true
  window := BreakStmt.scores k
  owed g := if k ∈ g.opened then [()] else []

section Duty

variable (awdpFlag : BreakKey → String → String) (hashFlag : String → String)

/-- Every statement of the program but `record_break` opens no duty. -/
theorem honours_of_label {α : Type} {p : BreakM α}
    (hp : p.Does fun l _ _ => ∀ k, l ≠ .recordBreak k) (k : BreakKey) : p.Honours (scoreDuty k) :=
  Prog.honours_of_does hp fun _ _ _ _ hl ho => hl k ho.1

theorem does_onCore {α : Type} {label : Stmt → BreakStmt}
    (hl : ∀ l k, label l ≠ .recordBreak k) (p : AwdpM α) :
    (onCore label p).Does fun l _ _ => ∀ k, l ≠ .recordBreak k :=
  Prog.does_zoom (fun l _ _ => hl l) p

/-- The score of the break is written as long as it is due. -/
theorem fulfils_score (k : BreakKey) (run : Run) :
    (onCore (.scoring k) (createScoreEvent (breakScore k run))).Fulfils (scoreDuty k) () := by
  have hwindow (l : Stmt) : (scoreDuty k).window (.scoring k l) = true := decide_eq_true rfl
  rw [onCore_createScoreEvent, onCore_requireRun, Prog.bind_assoc]
  refine Prog.fulfils_query_bind (hwindow _) fun db hok hdue => ?_
  obtain ⟨g, h⟩ := hok
  obtain ⟨b, hb, hkey⟩ := broken_iff.1 hdue
  obtain ⟨found, hfound⟩ := Option.isSome_iff_exists.1 (hkey ▸ h.runs b hb)
  rw [show db.core.runById (breakScore k run).runId = some found from hfound]
  refine ⟨hwindow _, fun db _ _ _ => .inl ?_⟩
  show (Prog.after _ db).core.scored (breakIdempotencyKey k) = true
  simp only [Prog.after]
  split_ifs with h
  · exact h
  · exact scored_credit db _ _

theorem honours_acceptFlag (k k' : BreakKey) (run : Run) (expected : String) :
    (acceptFlag hashFlag k' run expected).Honours (scoreDuty k) := by
  have hrun : (onCore .core (requireRun k'.runId)).Honours (scoreDuty k) :=
    honours_of_label (does_onCore (fun _ _ => by nofun) _) k
  rw [acceptFlag, recordBreak, Prog.bind_assoc]
  refine Prog.honours_seq hrun fun found => Prog.honours_exec_bind (fun db u _ _ ho => ?_)
    fun first => Prog.honours_if (fun _ => ?_) fun _ => trivial
  · obtain ⟨hk, ho⟩ := ho
    cases hk
    exact ⟨_, true, record_of_opens ho _ _, (fulfils_score k run).bind _⟩
  · exact Prog.honours_seq (honours_of_label (does_onCore (fun _ _ => by nofun) _) k)
      fun _ => trivial

theorem honours_submitRequest (k k' : BreakKey) (flag : String) :
    (submitRequest awdpFlag hashFlag k' flag).Honours (scoreDuty k) := by
  refine Prog.honours_seq (Prog.honours_attempt ?_) fun r =>
    honours_of_label (Prog.does_look (fun _ _ => by nofun) _) k
  refine Prog.honours_seq (honours_of_label (does_onCore (fun _ _ => by nofun) _) k) fun run => ?_
  refine Prog.honours_if (fun _ => trivial) fun _ => Prog.honours_if (fun _ => trivial) fun _ => ?_
  have hsetting : getFlagPrefix.Does fun l _ _ => ∀ k, l ≠ .recordBreak k :=
    fun _ => ⟨fun _ => by nofun, trivial, trivial⟩
  refine Prog.honours_seq (honours_of_label hsetting k) fun _ => ?_
  exact Prog.honours_if (fun _ => trivial) fun _ => honours_acceptFlag hashFlag k k' run _

end Duty

section Own

variable {awdpFlag : BreakKey → String → String} {hashFlag : String → String}

/-- A request writes no score but that of its own key. -/
def ScoresOwn (key : BreakKey) (l : BreakStmt) (_ _ : BreakDb) : Prop :=
  ∀ k, l.scores k = true → k = key

theorem scoresOwn_of_none {key : BreakKey} {l : BreakStmt} (hl : ∀ k, l.scores k = false)
    (db db' : BreakDb) : ScoresOwn key l db db' := fun k h => by simp [hl k] at h

theorem scoresOwn_submitRequest (key : BreakKey) (flag : String) :
    (submitRequest awdpFlag hashFlag key flag).Does (ScoresOwn key) := by
  have hcore {α : Type} (p : AwdpM α) : (onCore .core p).Does (ScoresOwn key) :=
    Prog.does_zoom (fun _ _ _ => scoresOwn_of_none (fun _ => rfl) _ _) p
  have hscore {α : Type} (p : AwdpM α) : (onCore (.scoring key) p).Does (ScoresOwn key) :=
    Prog.does_zoom (fun _ _ _ k h => (show key = k from of_decide_eq_true h).symm) p
  have haccept (run : Run) (expected : String) :
      (acceptFlag hashFlag key run expected).Does (ScoresOwn key) := by
    refine Prog.does_bind (Prog.does_bind (hcore _) fun found => ?_) fun first => ?_
    · exact Prog.does_exec (fun _ => scoresOwn_of_none (fun _ => rfl) _ _)
        fun _ _ _ _ => scoresOwn_of_none (fun _ => rfl) _ _
    · exact Prog.does_if (fun _ => Prog.does_bind (hscore _) fun _ => trivial) fun _ => trivial
  refine Prog.does_bind (Prog.does_attempt ?_) fun r =>
    Prog.does_look (fun _ => scoresOwn_of_none (fun _ => rfl) _ _) _
  refine Prog.does_bind (hcore _) fun run => ?_
  refine Prog.does_if (fun _ => trivial) fun _ => Prog.does_if (fun _ => trivial) fun _ => ?_
  have hsetting : getFlagPrefix.Does (ScoresOwn key) :=
    fun _ => ⟨scoresOwn_of_none (fun _ => rfl) _ _, trivial, trivial⟩
  refine Prog.does_bind hsetting fun _ => ?_
  exact Prog.does_if (fun _ => trivial) fun _ => haccept run _

end Own

/-! ## Runs -/

section Runs

variable {awdpFlag : BreakKey → String → String} {hashFlag : String → String} {w : BreakPool}

theorem mem_owed {u : Unit} : u ∈ (scoreDuty k).owed g ↔ k ∈ g.opened := by
  simp only [scoreDuty]
  split_ifs with h <;> simp [h]

/-- What the invariant says of a duty that is owed, where no break row is without its score. -/
theorem BreakInv.paid (h : BreakInv (db, g)) {u : Unit} (hk : u ∈ (scoreDuty k).owed g)
    (hall : ∀ b ∈ db.breaks, b.key = k → db.unscored b.key = false) :
    (scoreDuty k).paid u db := by
  have hb : db.broken k = true := (h.opened k).1 (mem_owed.1 hk)
  obtain ⟨b, hmem, hkey⟩ := broken_iff.1 hb
  have hun := hall b hmem hkey
  rw [hkey] at hun
  show db.core.scored (breakIdempotencyKey k) = true
  simpa [BreakDb.unscored, hb] using hun

theorem Finishes.reliable (h : BreakInv w.view) {a : Act BreakJob BreakEnv} (ha : Finishes w a)
    (k : BreakKey) : Reliable (scoreDuty k) w a := by
  cases a with
  | spawn j => trivial
  | env e => trivial
  | crash => exact fun u hk => h.paid hk fun b hb _ => ha b hb
  | step i answered =>
    cases answered with
    | true => exact fun _ _ => trivial
    | false =>
      intro s hs hwindow u hk
      exact h.paid hk fun b hb hkey => ha s hs b hb (hkey ▸ hwindow)

theorem opens_of_opened {j : BreakJob} {l : BreakStmt} (hold : k ∉ g.opened)
    (hnew : k ∈ (BreakNotes.watch j l db g).opened) : l = .recordBreak k ∧ db.opens k = true := by
  unfold BreakNotes.watch at hnew
  split at hnew
  · split_ifs at hnew with ho
    · rcases List.mem_cons.1 hnew with rfl | hnew
      · exact ⟨rfl, ho⟩
      · exact absurd hnew hold
    · exact absurd hnew hold
    · exact absurd hnew hold
  · split_ifs at hnew <;> exact absurd hnew hold
  · exact absurd hnew hold

/-- What holds between two actions. -/
structure BreakOk (awdpFlag : BreakKey → String → String) (hashFlag : String → String)
    (w : BreakPool) : Prop where
  pool : (breakLaw awdpFlag hashFlag).PoolOk w
  kept : ∀ k, Kept (scoreDuty k) w
  own : w.Does fun j => ScoresOwn j.key

theorem BreakOk.step (h : BreakOk awdpFlag hashFlag w) {a : Act BreakJob BreakEnv}
    (ha : Finishes w a) : BreakOk awdpFlag hashFlag ((breakSystem awdpFlag hashFlag).step w a) := by
  have hcond : Meets (breakLaw awdpFlag hashFlag).cond w a := by
    unfold Meets
    split
    · exact fun _ _ => trivial
    · trivial
  refine ⟨(Law.poolOk_step breakLaw_keeps h.pool hcond).poolOk, fun k => ?_,
    h.own.step (fun j => scoresOwn_submitRequest j.key j.flag) a⟩
  refine (h.kept k).step (fun j => honours_submitRequest awdpFlag hashFlag k j.key j.flag)
    (fun e db hok => ?_) (fun i j l u ok err hi _ => ?_) (ha.reliable h.pool.inv k)
  · obtain ⟨g, hinv⟩ := hok
    obtain ⟨hgrow, hinv⟩ := hinv.env e
    exact ⟨⟨g, hinv⟩, fun _ => ⟨hgrow.scored _, fun hdue => .inl (hgrow.broken k hdue)⟩⟩
  · obtain ⟨⟨hgrow, -⟩, hinv, -⟩ := (h.pool.safe _ (List.mem_of_getElem? hi) w.view
      ((breakLaw awdpFlag hashFlag).refl _) h.pool.inv).1 trivial
    refine ⟨⟨_, hinv⟩, fun u hk => ?_⟩
    by_cases hold : k ∈ w.ghost.opened
    · exact .inl ⟨mem_owed.2 hold, hgrow.scored _, fun hdue => .inl (hgrow.broken k hdue)⟩
    · refine .inr ⟨?_, .inl ((hinv.opened k).1 (mem_owed.1 hk))⟩
      exact opens_of_opened (j := j) hold (mem_owed.1 hk)

/-- A state before the first flag of the runs. -/
structure BreakDb.Fresh (db : BreakDb) : Prop where
  breaks : db.breaks = []
  scores : Table.Keyed ScoreEvent.idempotencyKey db.core.scores
  others : ∀ s ∈ db.core.scores, s.scoreType ≠ .break ∧ s.idempotencyKey.isBreak = false

theorem BreakDb.Fresh.inv (h : db.Fresh) : BreakInv (db, {}) where
  breaks := h.breaks ▸ List.nodup_nil
  scores := h.scores
  credit s hs k := by
    obtain ⟨htype, hkey⟩ := h.others s hs
    refine ⟨fun hc => absurd (of_decide_eq_true hc).1 htype, fun he => ?_⟩
    rw [he] at hkey
    cases hkey
  delta s hs k he := by
    have hkey := (h.others s hs).2
    rw [he] at hkey
    cases hkey
  runs b hb := absurd (h.breaks ▸ hb) List.not_mem_nil
  opened k := by simp [BreakDb.broken, h.breaks]
  accepted := List.forall_mem_nil _

/-- What is claimed of the state at the end of a run. -/
structure BreaksScored (w : BreakPool) : Prop where
  /-- No subject has two scores for one gamebox. -/
  once : ∀ k, (w.state.credits k).length ≤ 1
  /-- An accepted flag has both rows, unless a request came in between them. -/
  accepted : ∀ k ∈ w.ghost.accepted, k ∉ w.ghost.overtaken → w.state.ScoredOnce k
  /-- No score is lost: where no request of its key is under way, a break row has its score. -/
  settled : ∀ k, (∀ t ∈ w.threads, t.1.key = k → t.2.live = false) →
    w.state.broken k = true ∨ k ∈ w.ghost.accepted → w.state.ScoredOnce k

/-- The score of a key is paid where no request of the key is under way. -/
theorem BreakOk.paid (h : BreakOk awdpFlag hashFlag w) (hk : k ∈ w.ghost.opened)
    (hidle : ∀ t ∈ w.threads, t.1.key = k → t.2.live = false) :
    w.state.core.scored (breakIdempotencyKey k) = true := by
  refine (h.kept k).paid_of_none (k := ()) (mem_owed.2 hk) fun t ht hp => ?_
  obtain ⟨j, p⟩ := t
  cases p with
  | ret a => exact hp
  | fail e => exact hp
  | stmt l u ok err =>
    have hkey : k = j.key := (h.own _ ht w.state).1 k hp.1
    cases hidle _ ht hkey.symm

theorem BreakInv.once (h : BreakInv (db, g)) (k : BreakKey) : (db.credits k).length ≤ 1 := by
  refine Table.length_filter_le_one h.scores fun s hs s' hs' hc hc' => ?_
  have hkey := (h.credit s hs k).1 hc
  exact Table.eq_of_key h.scores hs hs' (hkey.trans ((h.credit s' hs' k).1 hc').symm)

/-- Every run in which no request ends between its break row and its score. -/
theorem breakLedger_run (awdpFlag : BreakKey → String → String) (hashFlag : String → String)
    (db : BreakDb) (hdb : db.Fresh) (acts : List (Act BreakJob BreakEnv))
    (hacts : Along (breakSystem awdpFlag hashFlag).step Finishes (BreakPool.initial db) acts) :
    BreaksScored (acts.foldl (breakSystem awdpFlag hashFlag).step (BreakPool.initial db)) := by
  have hinit : BreakOk awdpFlag hashFlag (BreakPool.initial db) :=
    { pool := ⟨hdb.inv, List.forall_mem_nil _⟩
      kept := fun k => ⟨⟨_, hdb.inv⟩, List.forall_mem_nil _, List.forall_mem_nil _⟩
      own := List.forall_mem_nil _ }
  have hok := inv_of_along (BreakOk awdpFlag hashFlag) (fun w a h ha => h.step ha) hinit hacts
  refine ⟨hok.pool.inv.once, fun k hk hno => ?_, fun k hidle hk => ?_⟩
  · obtain ⟨hb, hs⟩ := hok.pool.inv.accepted k hk
    exact hok.pool.inv.scoredOnce hb (hs.resolve_right hno)
  · have hb := hk.elim id fun hk => (hok.pool.inv.accepted k hk).1
    exact hok.pool.inv.scoredOnce hb (hok.paid ((hok.pool.inv.opened k).2 hb) hidle)

end Runs

/-! ## A score that is lost -/

section Lost

variable (awdpFlag : BreakKey → String → String) (hashFlag : String → String)

/-- No request writes the score of `k`. -/
def lostLaw (k : BreakKey) : Law (breakSystem awdpFlag hashFlag) where
  rely _ _ := True
  guar _ _ _ := True
  inv v := v.1.unscored k = true
  cond _ _ _ := True
  refl _ := trivial
  trans _ _ := trivial
  guar_refl _ _ := trivial
  rely_of_guar _ := trivial

variable {awdpFlag hashFlag} {j : BreakJob} {k' : BreakKey}

theorem unscored_iff :
    db.unscored k = true ↔ db.broken k = true ∧ db.core.scored (breakIdempotencyKey k) = false := by
  simp [BreakDb.unscored]

theorem unscored_credit (h : db.unscored k = true) {s : NewScore}
    (hs : s.idempotencyKey ≠ breakIdempotencyKey k) (eventId : Nat) :
    (db.credit s eventId).unscored k = true := by
  refine unscored_iff.2 ⟨(unscored_iff.1 h).1, ?_⟩
  have hno := (unscored_iff.1 h).2
  simp only [BreakDb.credit, Db.scored, Db.insertScore, List.any_append,
    Bool.or_eq_false_iff] at hno ⊢
  exact ⟨hno, by simpa [NewScore.row] using hs⟩

theorem lost_requireRun (label : Stmt → BreakStmt) (id : Nat) :
    (lostLaw awdpFlag hashFlag k).Safe j (fun _ _ => True) (onCore label (requireRun id)) v := by
  have hreads : (onCore label (requireRun id)).Within Eq := by
    rw [onCore_requireRun]
    refine Prog.does_bind (Prog.does_query (fun _ => rfl) _ _) fun run => ?_
    cases run <;> trivial
  exact Law.safe_of_does hreads fun l s s' g hi _ he => ⟨trivial, he ▸ hi⟩

/-- A request finds the break row, or it is about another key. -/
theorem lost_recordBreak (sha : String) : (lostLaw awdpFlag hashFlag k).Safe j
    (fun first _ => first = true → k' ≠ k) (recordBreak k' sha) v := by
  refine Law.safe_seq (lost_requireRun .core k'.runId) fun run v1 _ => ?_
  refine Law.safe_exec_seen fun v2 _ hi _ => ⟨trivial, ?_⟩
  obtain ⟨hb, hno⟩ := unscored_iff.1 hi
  by_cases hopens : v2.1.opens k' = true
  · have hrec := record_of_opens hopens run.eventId sha
    have hne : k' ≠ k := by
      rintro rfl
      simp [BreakDb.opens, hb] at hopens
    refine ⟨?_, fun _ _ _ _ => hne⟩
    show (Prog.after (·.record k' run.eventId sha) v2.1).unscored k = true
    rw [Prog.after_of_ok hrec]
    exact unscored_iff.2 ⟨broken_insertBreak_iff.2 (.inl hb), hno⟩
  · obtain ⟨hafter, hanswer⟩ := record_of_not_opens hopens run.eventId sha
    refine ⟨?_, fun s a h ha => ?_⟩
    · show (Prog.after (·.record k' run.eventId sha) v2.1).unscored k = true
      rw [hafter]
      exact hi
    · rw [(hanswer s a h).2.1] at ha
      cases ha

theorem lost_acceptFlag (run : Run) (expected : String) :
    (lostLaw awdpFlag hashFlag k).Safe j (fun _ _ => True)
      (acceptFlag hashFlag k' run expected) v := by
  refine Law.safe_bind ((lost_recordBreak (hashFlag expected)).imp fun first v1 hne => ?_)
  refine Law.safe_ite (fun hfirst => ?_) fun _ => trivial
  refine Law.safe_bind ?_
  rw [onCore_createScoreEvent]
  refine Law.safe_seq (lost_requireRun _ _) fun found v2 _ => ?_
  refine Law.safe_exec (fun _ _ => rfl) fun v3 _ hi _ s a h => ⟨trivial, ?_, trivial⟩
  split_ifs at h <;> cases h
  · exact hi
  · exact unscored_credit hi (fun he => hne hfirst (breakIdempotencyKey_inj he)) _

theorem lostLaw_keeps : (lostLaw awdpFlag hashFlag k).Keeps where
  prog j v _ := by
    refine Law.safe_seq (Law.safe_tried ?_) fun r v1 _ =>
      fun v2 _ hi => ⟨fun _ => ⟨trivial, hi, trivial⟩, trivial⟩
    refine Law.safe_seq (lost_requireRun .core j.key.runId) fun run v1 _ => ?_
    refine Law.safe_ite (fun _ => trivial) fun _ => Law.safe_ite (fun _ => trivial) fun _ => ?_
    refine Law.safe_bind (Law.safe_read (fun _ _ => rfl) (fun v2 _ _ _ => ?_) fun v2 _ _ => ?_)
    all_goals exact Law.safe_ite (fun _ => trivial) fun _ => lost_acceptFlag run _
  env e v h := by
    refine ⟨trivial, ?_⟩
    obtain ⟨db, g⟩ := v
    cases e with
    | advance secs => exact h
    | flagPrefix text => exact h
    | phase runId p => exact h
    | createRun new =>
      simp only [breakSystem, BreakEnv.act]
      split_ifs <;> exact h
    | otherScore s eventId =>
      simp only [breakSystem, BreakEnv.act]
      split_ifs with hc
      · exact h
      · simp only [not_or, Bool.not_eq_true] at hc
        refine unscored_credit h (fun he => ?_) eventId
        rw [he] at hc
        cases hc.2.1

/-- A break row that no request is about to score never gets its score. -/
theorem unscored_run {w : BreakPool} (hlost : w.state.unscored k = true)
    (hidle : ∀ t ∈ w.threads, t.2.live = false) (acts : List (Act BreakJob BreakEnv)) :
    (acts.foldl (breakSystem awdpFlag hashFlag).step w).state.unscored k = true := by
  have hstart : (lostLaw awdpFlag hashFlag k).PoolOk w :=
    ⟨hlost, fun t ht => Law.safe_of_not_live (hidle t ht)⟩
  refine (Law.poolOk_run lostLaw_keeps hstart (along_of_forall (fun w a => ?_) w acts)).1.inv
  unfold Meets
  split
  · exact fun _ _ => trivial
  · trivial

end Lost

/-! ## A request that ends between its two rows -/

/-- One hour for the break, one for the fix, rounds of ten minutes. -/
def breakConfig : AwdpConfig := ⟨3600, 3600, 600, 540, 150⟩

/-- A training run in its break. -/
def breakRun : Run where
  id := 1
  eventId := 2
  gameboxId := some 3
  ownerUserId := some 4
  phase := .break
  config := breakConfig
  startedAt := some 0
  breakEndsAt := some 3600
  fixStartedAt := none
  fixEndsAt := none
  finishedAt := none
  currentRound := 0
  totalRounds := 6
  nextActionAt := some 3600

/-- A run in its break phase. -/
def breakDb : BreakDb where
  core :=
    { now := 100
      nextId := 20
      events := []
      runs := [breakRun]
      rounds := []
      instances := []
      gameboxes := []
      evaluations := []
      patches := []
      scores := []
      locks := [] }
  breaks := []
  flagPrefix := none

theorem breakDb_fresh : breakDb.Fresh := ⟨rfl, by decide, List.forall_mem_nil _⟩

/-- The break of the owner of the run. -/
def breakKey : BreakKey := ⟨1, 3, .user 4⟩

/-- Every subject has the flag `p-1`, where `p` is the prefix. -/
def plainFlag (_ : BreakKey) (flagPrefix : String) : String := flagPrefix ++ "-1"

/-- A digest that is the text itself. -/
def plainHash (flag : String) : String := flag

/-- The process stops after the break row, and the flag is submitted again. -/
def lostActs : List (Act BreakJob BreakEnv) :=
  .spawn ⟨breakKey, "flag-1"⟩ :: List.replicate 4 (.step 0 true) ++
    [.crash, .spawn ⟨breakKey, "flag-1"⟩] ++ List.replicate 5 (.step 0 true)

/-- The flag is accepted, and whatever is done afterwards there is no score. -/
theorem break_score_lost :
    let w := lostActs.foldl (breakSystem plainFlag plainHash).step (BreakPool.initial breakDb)
    breakDb.Fresh ∧ breakKey ∈ w.ghost.accepted ∧ (∀ t ∈ w.threads, t.2.live = false) ∧
      w.state.credits breakKey = [] ∧
      ∀ acts : List (Act BreakJob BreakEnv),
        (acts.foldl (breakSystem plainFlag plainHash).step w).state.unscored breakKey = true :=
  ⟨breakDb_fresh, by decide +kernel, by decide +kernel, by decide +kernel,
    fun acts => unscored_run (by decide +kernel) (by decide +kernel) acts⟩

/-- Two requests of one subject and one of another. -/
def scoredActs : List (Act BreakJob BreakEnv) :=
  [.spawn ⟨breakKey, "flag-1"⟩, .spawn ⟨breakKey, "flag-1"⟩,
    .spawn ⟨⟨1, 3, .team 5⟩, " flag-1"⟩] ++
    List.replicate 7 (.step 0 true) ++ List.replicate 5 (.step 1 true) ++
      List.replicate 7 (.step 2 true)

/-- Each of them ends, and the two subjects have one score each. -/
theorem breakLedger_run_two :
    let w := scoredActs.foldl (breakSystem plainFlag plainHash).step (BreakPool.initial breakDb)
    Along (breakSystem plainFlag plainHash).step Finishes (BreakPool.initial breakDb) scoredActs ∧
      w.state.core.scores.map (·.delta) = [540, 540] ∧ w.ghost.accepted.length = 3 ∧
      BreaksScored w :=
  ⟨by decide +kernel, by decide +kernel, by decide +kernel,
    breakLedger_run plainFlag plainHash breakDb breakDb_fresh scoredActs (by decide +kernel)⟩

end FloatCtf.Awdp
