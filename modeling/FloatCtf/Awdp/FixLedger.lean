import FloatCtf.Awdp.EvaluationSteps
import FloatCtf.Awdp.ExecutionPaths
import FloatCtf.Process.Pool

/-!
# The fix rows of a competition run

An official evaluation that ends as patched is worth a row of the ledger.  The worker of the platform
writes the row before it knows whether its lease still counts, and a JudgeServer's verdict is written
before its row; an evaluation that was scored can be claimed again and end with another verdict.
`fixAgrees_run` shows that verdicts and rows agree in every state of the runs in which no evaluation
is closed that way, and `fixAgrees_not_expired` that a worker whose lease ran out leaves its row
behind.
-/

namespace FloatCtf.Awdp

open Process

/-! ## The system -/

/-- The jobs on official evaluations. -/
inductive OfficialJob where
  | worker (workerId : String) (concurrency : Nat) (skipped : List Nat) (draw : Draw)
      (probe : Nat → Probe)
  | claim (workerId : String) (capacity : Nat) (eventId : Option Nat) (skipped : List Nat)
      (draw : Draw)
  | heartbeat (id : Nat) (workerId token : String)
  | result (r : ResultRequest) (examined : List Applied)

/-- The program of a job. -/
def OfficialJob.prog (c : Settings) : OfficialJob → AwdpM Unit
  | worker workerId concurrency skipped draw probe =>
    workerRound c workerId concurrency skipped draw probe
  | claim workerId capacity eventId skipped draw => do
    let _ ← judgeClaimJobs c workerId capacity eventId skipped draw
  | heartbeat id workerId token => do let _ ← Awdp.heartbeat c id workerId token
  | result r examined => recordResult c r examined

/-- Time passes, a tick asks for the evaluation of an instance of its run, or the session of a lock
ends. -/
inductive OfficialEnv where
  | advance (secs : Nat)
  | create (runId instanceId fixRoundId : Nat)
  | dropLock (instanceId : Nat)

/-- What happens beside the jobs. -/
def OfficialEnv.act : OfficialEnv → Db → Db
  | advance secs, db => { db with now := db.now + secs }
  | create runId instanceId fixRoundId, db =>
    if (db.official fixRoundId instanceId).isNone ∧
        (db.instanceById instanceId).any (·.runId = runId) then
      db.insertEvaluation runId instanceId (some fixRoundId) .official db.now
    else db
  | dropLock instanceId, db => { db with locks := db.locks.erase instanceId }

/-- The jobs on official evaluations, without ghost state. -/
def officialSystem (c : Settings) :
    System Stmt Db AwdpError Unit OfficialJob OfficialEnv where
  prog := OfficialJob.prog c
  env := OfficialEnv.act
  watch _ _ _ g := g

/-- The jobs under way. -/
abbrev OfficialPool := Pool Stmt Db AwdpError Unit OfficialJob

/-- Nothing has been claimed. -/
def OfficialPool.initial (db : Db) : OfficialPool := ⟨db, (), []⟩

/-! ## Agreement -/

/-- The key of the score of an official evaluation. -/
def Evaluation.fixKey (e : Evaluation) : Option IdempotencyKey :=
  if e.kind = .official then e.fixRoundId.map (.fix e.runId · e.instanceId) else none

/-- The rows of the ledger under the key. -/
def Db.fixRows (db : Db) (key : IdempotencyKey) : List ScoreEvent :=
  db.scores.filter (·.idempotencyKey = key)

/-- A terminal evaluation of a competition run has one fix row when it is patched, and none when it
is anything else. -/
def Db.FixAgrees (db : Db) : Prop :=
  ∀ e ∈ db.evaluations, ∀ run, db.runById e.runId = some run → run.practice = false →
    ∀ key, e.fixKey = some key → e.status.terminal = true →
      (db.fixRows key).map (fun s => (s.scoreType, s.delta)) =
        if e.status = .patched then [(.fix, run.config.fixRoundScore)] else []

/-- The evaluation belongs to a competition run. -/
def Db.competes (db : Db) (e : Evaluation) : Bool := (db.runById e.runId).any (!·.practice)

/-- A worker has written the score of the evaluation. -/
def Db.hasFix (db : Db) (e : Evaluation) : Bool := e.fixKey.any db.scored

/-- An evaluation that has its score gets no verdict but patched, nor is it given up; a verdict of a
JudgeServer is patched only for an evaluation that has its score; and a score is not written for an
evaluation that has another verdict. -/
def fixOk (c : Settings) (l : Stmt) (db : Db) : Bool :=
  match l with
  | .finishWithLease reporter lease status => (db.evaluationById lease.evaluationId).all fun row =>
      !row.leaseValid c lease db.now || !db.competes row || match status, reporter with
        | .patched, .inProcess _ => true
        | .patched, .judgeServer _ _ => db.hasFix row
        | _, _ => !db.hasFix row
  | .releaseOrFail _ lease detail => (db.evaluationById lease.evaluationId).all fun row =>
      !row.givesBack c lease detail || !db.competes row || lease.attempt < c.maxAttempts ||
        !db.hasFix row
  | .claimJobs _ now => db.evaluations.all fun row =>
      !row.stale now || !db.competes row || row.attemptCount < c.maxAttempts || !db.hasFix row
  | .createScore s => db.scored s.idempotencyKey || db.evaluations.all fun e =>
      e.fixKey ≠ some s.idempotencyKey || !db.competes e || !e.status.terminal ||
        e.status = .patched
  | _ => true

/-- The next statement keeps clear of the defects. -/
def FixOk (c : Settings) (_ : OfficialJob) (l : Stmt) (v : Db × Unit) : Prop :=
  fixOk c l v.1 = true

instance (c : Settings) (j : OfficialJob) (l : Stmt) (v : Db × Unit) :
    Decidable (FixOk c j l v) := inferInstanceAs (Decidable (_ = true))

/-! ## The invariant -/

/-- What holds of the evaluations and of the ledger. -/
structure FixInv (db : Db) : Prop where
  keyed : Table.Keyed Evaluation.id db.evaluations
  ids : ∀ e ∈ db.evaluations, e.id < db.nextId
  owned : ∀ e ∈ db.evaluations, ∀ i, db.instanceById e.instanceId = some i → i.runId = e.runId
  once : Table.Keyed ScoreEvent.idempotencyKey db.scores
  rows : ∀ s ∈ db.scores, ∀ runId r i run, s.idempotencyKey = .fix runId r i →
    db.runById runId = some run → run.practice = false →
      s.scoreType = .fix ∧ s.delta = run.config.fixRoundScore
  agrees : ∀ e ∈ db.evaluations, db.competes e = true → ∀ key, e.fixKey = some key →
    e.status.terminal = true → (db.scored key = true ↔ e.status = .patched)

theorem Db.competes_of_run {db : Db} {e : Evaluation} {run : Run}
    (hrun : db.runById e.runId = some run) (hp : run.practice = false) : db.competes e = true := by
  simp [Db.competes, hrun, hp]

theorem Evaluation.fixKey_eq {e : Evaluation} {key : IdempotencyKey} (h : e.fixKey = some key) :
    ∃ r, e.kind = .official ∧ e.fixRoundId = some r ∧ key = .fix e.runId r e.instanceId := by
  unfold Evaluation.fixKey at h
  split_ifs at h with hk
  obtain ⟨r, hr, rfl⟩ := Option.map_eq_some_iff.1 h
  exact ⟨r, hk, hr, rfl⟩

/-- A key that was scored has exactly one row. -/
theorem fixRows_of_scored {db : Db} (h : Table.Keyed ScoreEvent.idempotencyKey db.scores)
    {key : IdempotencyKey} (hs : db.scored key = true) :
    ∃ s ∈ db.scores, s.idempotencyKey = key ∧ db.fixRows key = [s] := by
  obtain ⟨s, hmem, hkey⟩ := List.any_eq_true.1 hs
  rw [decide_eq_true_eq] at hkey
  subst hkey
  exact ⟨s, hmem, rfl, Table.filter_of_mem h hmem⟩

theorem FixInv.fixAgrees {db : Db} (h : FixInv db) : db.FixAgrees := by
  intro e he run hrun hp key hkey ht
  have hiff := h.agrees e he (Db.competes_of_run hrun hp) key hkey ht
  split_ifs with hpatched
  · obtain ⟨s, hs, hskey, hrows⟩ := fixRows_of_scored h.once (hiff.2 hpatched)
    obtain ⟨r, -, -, rfl⟩ := Evaluation.fixKey_eq hkey
    obtain ⟨htype, hdelta⟩ := h.rows s hs _ _ _ run hskey hrun hp
    rw [hrows, List.map_singleton, htype, hdelta]
  · have hnone : db.scored key = false := by
      rw [← Bool.not_eq_true, hiff]
      exact hpatched
    have : db.fixRows key = [] := by
      rw [Db.fixRows, List.filter_eq_nil_iff]
      exact fun s hs => by simpa using List.any_eq_false.1 hnone s hs
    rw [this, List.map_nil]

/-! ## One statement -/

/-- The columns of an evaluation that are never written again. -/
def Evaluation.origin (e : Evaluation) : Nat × Nat × Option Nat × EvaluationKind :=
  (e.runId, e.instanceId, e.fixRoundId, e.kind)

theorem fixKey_of_origin {e e' : Evaluation} (h : e'.origin = e.origin) : e'.fixKey = e.fixKey := by
  simp only [Evaluation.origin, Prod.mk.injEq] at h
  simp only [Evaluation.fixKey, h.1, h.2.1, h.2.2.1, h.2.2.2]

theorem runId_of_origin {e e' : Evaluation} (h : e'.origin = e.origin) : e'.runId = e.runId :=
  congrArg Prod.fst h

theorem competes_of_origin {db : Db} {e e' : Evaluation} (h : e'.origin = e.origin) :
    db.competes e' = db.competes e := by
  rw [Db.competes, Db.competes, runId_of_origin h]

/-- What a program relies on: runs and instances are the same, evaluations are what they were
created for, and a score stays. -/
structure FixRely (db db' : Db) : Prop where
  runs : db'.runs = db.runs
  instances : db'.instances = db.instances
  kept : ∀ e ∈ db.evaluations, ∃ e' ∈ db'.evaluations, e'.id = e.id ∧ e'.origin = e.origin
  scored : ∀ key, db.scored key = true → db'.scored key = true

theorem FixRely.refl (db : Db) : FixRely db db :=
  ⟨rfl, rfl, fun e he => ⟨e, he, rfl, rfl⟩, fun _ h => h⟩

theorem FixRely.trans {a b d : Db} (h : FixRely a b) (h' : FixRely b d) : FixRely a d := by
  refine ⟨h'.runs.trans h.runs, h'.instances.trans h.instances, fun e he => ?_,
    fun key hk => h'.scored key (h.scored key hk)⟩
  obtain ⟨e', he', hid, ho⟩ := h.kept e he
  obtain ⟨e'', he'', hid', ho'⟩ := h'.kept e' he'
  exact ⟨e'', he'', hid'.trans hid, ho'.trans ho⟩

theorem FixRely.runById {db db' : Db} (h : FixRely db db') (id : Nat) :
    db'.runById id = db.runById id := by rw [Db.runById, h.runs]; rfl

section Steps

variable {c : Settings} {db db' : Db}

/-- The rows are edited in place, and a new verdict agrees with the ledger. -/
theorem FixInv.map (h : FixInv db) {f : Evaluation → Evaluation}
    (hsame : db'.runs = db.runs ∧ db'.instances = db.instances ∧ db'.scores = db.scores ∧
      db'.nextId = db.nextId)
    (heval : db'.evaluations = db.evaluations.map f)
    (hid : ∀ e, (f e).id = e.id) (ho : ∀ e, (f e).origin = e.origin)
    (hnew : ∀ e ∈ db.evaluations, (f e).status = e.status ∨ (db.competes e = true → ∀ key,
      e.fixKey = some key → (f e).status.terminal = true →
        (db.scored key = true ↔ (f e).status = .patched))) :
    FixRely db db' ∧ FixInv db' := by
  obtain ⟨hruns, hinst, hscores, hnext⟩ := hsame
  have hby (id : Nat) : db'.runById id = db.runById id := by rw [Db.runById, hruns]; rfl
  have hib (id : Nat) : db'.instanceById id = db.instanceById id := by
    rw [Db.instanceById, hinst]; rfl
  have hsc (key : IdempotencyKey) : db'.scored key = db.scored key := by
    rw [Db.scored, hscores]; rfl
  have hmem {e : Evaluation} (he : e ∈ db'.evaluations) : ∃ e₀ ∈ db.evaluations, f e₀ = e := by
    rw [heval] at he
    exact List.mem_map.1 he
  refine ⟨⟨hruns, hinst, fun e he => ⟨f e, ?_, hid e, ho e⟩, fun key hk => by rwa [hsc]⟩,
    ?_, fun e he => ?_, fun e he i hi => ?_, ?_, ?_, fun e he hcomp key hkey ht => ?_⟩
  · rw [heval]
    exact List.mem_map_of_mem he
  · rw [heval]
    exact Table.keyed_map hid h.keyed
  · obtain ⟨e₀, he₀, rfl⟩ := hmem he
    rw [hid, hnext]
    exact h.ids e₀ he₀
  · obtain ⟨e₀, he₀, rfl⟩ := hmem he
    rw [hib, show (f e₀).instanceId = e₀.instanceId from congrArg (·.2.1) (ho e₀)] at hi
    rw [runId_of_origin (ho e₀)]
    exact h.owned e₀ he₀ i hi
  · rw [hscores]
    exact h.once
  · rw [hscores]
    intro s hs runId r i run hk hrun
    rw [hby] at hrun
    exact h.rows s hs runId r i run hk hrun
  · obtain ⟨e₀, he₀, rfl⟩ := hmem he
    have hcomp₀ : db.competes e₀ = true := by
      rw [← competes_of_origin (ho e₀)]
      simpa only [Db.competes, hby] using hcomp
    rw [fixKey_of_origin (ho e₀)] at hkey
    rw [hsc]
    rcases hnew e₀ he₀ with hs | hn
    · rw [hs] at ht ⊢
      exact h.agrees e₀ he₀ hcomp₀ key hkey ht
    · exact hn hcomp₀ key hkey ht

theorem FixInv.same (h : FixInv db) (hsame : db'.runs = db.runs ∧ db'.instances = db.instances ∧
      db'.scores = db.scores ∧ db'.nextId = db.nextId)
    (heval : db'.evaluations = db.evaluations) : FixRely db db' ∧ FixInv db' :=
  h.map (f := id) hsame (by simpa using heval) (fun _ => rfl) (fun _ => rfl) fun _ _ => .inl rfl

/-- One row is edited. -/
theorem FixInv.edit (h : FixInv db) {id : Nat} {row : Evaluation} {f : Evaluation → Evaluation}
    (hrow : db.evaluationById id = some row) (hid : ∀ e, (f e).id = e.id)
    (ho : ∀ e, (f e).origin = e.origin)
    (hnew : (f row).status = row.status ∨ (db.competes row = true → ∀ key,
      row.fixKey = some key → (f row).status.terminal = true →
        (db.scored key = true ↔ (f row).status = .patched))) :
    FixRely db (db.editEvaluation id f) ∧ FixInv (db.editEvaluation id f) := by
  obtain ⟨hmem, hrowId⟩ := Table.mem_of_find hrow
  refine h.map ⟨rfl, rfl, rfl, rfl⟩ rfl (fun e => ?_) (fun e => ?_) fun e he => ?_
  · split_ifs
    · exact hid e
    · rfl
  · split_ifs
    · exact ho e
    · rfl
  · split_ifs with heid
    · rw [Table.eq_of_key h.keyed he hmem (heid.trans hrowId.symm)]
      exact hnew
    · exact .inl rfl

/-- A new evaluation of an instance of the run. -/
theorem FixInv.insert (h : FixInv db) {runId instanceId : Nat}
    (hown : ∀ i, db.instanceById instanceId = some i → i.runId = runId) (fixRoundId : Option Nat)
    (kind : EvaluationKind) (now : Int) :
    FixRely db (db.insertEvaluation runId instanceId fixRoundId kind now) ∧
      FixInv (db.insertEvaluation runId instanceId fixRoundId kind now) := by
  refine ⟨⟨rfl, rfl, fun e he => ⟨e, List.mem_append_left _ he, rfl, rfl⟩, fun _ hk => hk⟩,
    Table.keyed_append h.keyed fun e he heq => Nat.lt_irrefl _ (heq ▸ h.ids e he),
    fun e he => ?_, fun e he i hi => ?_, h.once, h.rows, fun e he hcomp key hkey ht => ?_⟩
  all_goals rcases List.mem_append.1 he with he | he
  · exact Nat.lt_succ_of_lt (h.ids e he)
  · rw [List.mem_singleton.1 he]
    exact Nat.lt_succ_self _
  · exact h.owned e he i hi
  · rw [List.mem_singleton.1 he] at hi ⊢
    exact hown i hi
  · exact h.agrees e he hcomp key hkey ht
  · rw [List.mem_singleton.1 he] at ht
    cases ht

/-- The score is what the run gives for a round. -/
def Db.worth (db : Db) (s : NewScore) : Prop :=
  ∃ r i, s.idempotencyKey = .fix s.runId r i ∧ ∀ run, db.runById s.runId = some run →
    run.practice = false → s.scoreType = .fix ∧ s.delta = run.config.fixRoundScore

theorem scored_insertScore {s : NewScore} {eventId : Nat} {key : IdempotencyKey} :
    (db.insertScore s eventId).scored key = true ↔
      db.scored key = true ∨ s.idempotencyKey = key := by
  simp [Db.scored, Db.insertScore, NewScore.row]

/-- A new score, for evaluations without another verdict. -/
theorem FixInv.score (h : FixInv db) {s : NewScore} (eventId : Nat) (hw : db.worth s)
    (hfresh : db.scored s.idempotencyKey = false)
    (hopen : ∀ e ∈ db.evaluations, e.fixKey = some s.idempotencyKey → db.competes e = true →
      e.status.terminal = true → e.status = .patched) :
    FixRely db (db.insertScore s eventId) ∧ FixInv (db.insertScore s eventId) := by
  refine ⟨⟨rfl, rfl, fun e he => ⟨e, he, rfl, rfl⟩, fun key hk => scored_insertScore.2 (.inl hk)⟩,
    h.keyed, fun e he => Nat.lt_succ_of_lt (h.ids e he), h.owned, ?_, ?_, ?_⟩
  · refine Table.keyed_append h.once fun r hr heq => ?_
    exact List.any_eq_false.1 hfresh r hr (decide_eq_true heq)
  · intro row hrow runId r i run hk hrun hp
    rcases List.mem_append.1 hrow with hrow | hrow
    · exact h.rows row hrow runId r i run hk hrun hp
    · rw [List.mem_singleton.1 hrow] at hk ⊢
      obtain ⟨r', i', hkey, hworth⟩ := hw
      have hid : s.runId = runId := by
        have : s.idempotencyKey = .fix runId r i := hk
        rw [hkey] at this
        cases this
        rfl
      exact hworth run (hid ▸ hrun) hp
  · intro e he hcomp key hkey ht
    rw [scored_insertScore]
    have hold := h.agrees e he hcomp key hkey ht
    constructor
    · rintro (hk | rfl)
      · exact hold.1 hk
      · exact hopen e he hkey hcomp ht
    · exact fun hpatched => .inl (hold.2 hpatched)

/-- What the programs see to before a statement: the worker of the platform has written the score of
an evaluation that it calls patched, and a score is worth what the run gives. -/
def Stmt.fixReady (l : Stmt) (db : Db) : Prop :=
  match l with
  | .finishWithLease (.inProcess _) lease .patched =>
    ∀ row, db.evaluationById lease.evaluationId = some row → db.competes row = true →
      ∀ key, row.fixKey = some key → db.scored key = true
  | .createScore s => db.worth s
  | .finish _ _ | .createOfficial _ _ _ | .resetInstance _ | .endPractice _ => False
  | _ => True

theorem hasFix_eq {e : Evaluation} {key : IdempotencyKey} (h : e.fixKey = some key) :
    db.hasFix e = db.scored key := by
  simp [Db.hasFix, h]

/-- A verdict under the lease. -/
theorem FixInv.finish (h : FixInv db) {reporter : Reporter} {lease : Lease}
    {status : EvaluationStatus} {row : Evaluation} (outputs : Outputs)
    (hok : fixOk c (.finishWithLease reporter lease status) db = true)
    (hready : (Stmt.finishWithLease reporter lease status).fixReady db)
    (hrow : db.evaluationById lease.evaluationId = some row)
    (hv : row.leaseValid c lease db.now = true) :
    FixRely db (db.editEvaluation lease.evaluationId (·.finished status outputs)) ∧
      FixInv (db.editEvaluation lease.evaluationId (·.finished status outputs)) := by
  refine h.edit hrow (fun _ => rfl) (fun _ => rfl) (.inr fun hcomp key hkey _ => ?_)
  show db.scored key = true ↔ status = .patched
  simp only [fixOk, hrow, hv, hcomp, hasFix_eq hkey, Option.all_some, Bool.not_true,
    Bool.false_or] at hok
  cases status
  case patched =>
    cases reporter with
    | inProcess examined => exact ⟨fun _ => rfl, fun _ => hready row hrow hcomp key hkey⟩
    | judgeServer generation examined => exact ⟨fun _ => rfl, fun _ => hok⟩
  all_goals
    simp only [Bool.not_eq_true'] at hok
    simp [hok]

/-- An evaluation that its worker gives back. -/
theorem FixInv.release (h : FixInv db) {reporter : Reporter} {lease : Lease} {row : Evaluation}
    {detail : String} (hok : fixOk c (.releaseOrFail reporter lease detail) db = true)
    (hrow : db.evaluationById lease.evaluationId = some row)
    (hv : row.givesBack c lease detail = true) :
    FixRely db (db.editEvaluation lease.evaluationId (·.givenBack c lease.attempt detail)) ∧
      FixInv (db.editEvaluation lease.evaluationId (·.givenBack c lease.attempt detail)) := by
  refine h.edit hrow (fun e => ?_) (fun e => ?_) (.inr fun hcomp key hkey ht => ?_)
  · unfold Evaluation.givenBack
    split_ifs <;> rfl
  · unfold Evaluation.givenBack
    split_ifs <;> rfl
  · simp only [fixOk, hrow, hv, hcomp, hasFix_eq hkey, Option.all_some, Bool.not_true,
      Bool.false_or, Bool.or_eq_true, decide_eq_true_eq, Bool.not_eq_true'] at hok
    unfold Evaluation.givenBack at ht ⊢
    split_ifs at ht ⊢ with hm
    · have hnone : db.scored key = false := hok.resolve_left (by omega)
      simp [hnone, Evaluation.released]
    · cases ht

/-- A claim, which gives up evaluations whose lease ran out once too often. -/
theorem FixInv.claim (h : FixInv db) (q : ClaimQuery) (draw : Draw) {now : Int}
    (hok : fixOk c (.claimJobs q now) db = true) :
    FixRely db (db.claimJobs c q draw now).1 ∧ FixInv (db.claimJobs c q draw now).1 := by
  refine h.map ⟨rfl, rfl, rfl, rfl⟩ claimJobs_evaluations (fun e => ?_) (fun e => ?_) fun e he => ?_
  · simp only [Db.claimRow, Evaluation.refreshed]
    split_ifs <;> rfl
  · simp only [Db.claimRow, Evaluation.refreshed]
    split_ifs <;> rfl
  · have hrow := List.all_eq_true.1 hok e he
    have hcases : db.claimRow c q draw now e = e.refreshed c now ∨ _ := claimRow_cases h.keyed he
    rcases hcases with hr | hr
    · rw [hr]
      unfold Evaluation.refreshed
      split_ifs with hstale
      · refine .inr fun hcomp key hkey ht => ?_
        simp only [hstale, hcomp, hasFix_eq hkey, Bool.not_true, Bool.false_or, Bool.or_eq_true,
          decide_eq_true_eq, Bool.not_eq_true'] at hrow
        unfold Evaluation.recovered at ht ⊢
        split_ifs at ht ⊢ with hm
        · have hnone : db.scored key = false := hrow.resolve_left (by omega)
          simp [hnone, Evaluation.released]
        · cases ht
      · exact .inl rfl
    · rw [hr.2]
      exact .inr fun _ _ _ ht => nomatch ht

/-- One statement under the condition. -/
theorem FixInv.step (h : FixInv db) {l : Stmt} (hok : fixOk c l db = true)
    (hready : l.fixReady db) (hs : EvalStep c l db db') : FixRely db db' ∧ FixInv db' := by
  rcases hs with ⟨-, hsame⟩ | hs
  · exact h.same ⟨hsame.runs, hsame.instances, hsame.scores, hsame.nextId⟩ hsame.evaluations
  · cases l
    case claimJobs q now =>
      obtain ⟨draw, rfl⟩ := hs
      exact h.claim q draw hok
    case heartbeat id workerId token =>
      obtain ⟨row, hrow, hv, rfl⟩ := hs
      exact h.edit hrow (fun _ => rfl) (fun _ => rfl) (.inl rfl)
    case finishWithLease reporter lease status =>
      obtain ⟨-, row, outputs, hrow, hv, rfl⟩ := hs
      exact h.finish outputs hok hready hrow hv
    case releaseOrFail reporter lease detail =>
      obtain ⟨row, hrow, hv, rfl⟩ := hs
      exact h.release hok hrow hv
    case createScore s =>
      obtain ⟨hfresh, eventId, rfl⟩ := hs
      refine h.score eventId hready hfresh fun e he hkey hcomp ht => ?_
      simp only [fixOk, hfresh, Bool.false_or, List.all_eq_true] at hok
      simpa [hkey, hcomp, ht] using hok e he
    case finish => cases hready
    case createOfficial => cases hready
    case resetInstance => cases hready
    case endPractice => cases hready
    all_goals cases hs

end Steps

/-! ## Programs -/

/-- What every interleaving keeps under the condition. -/
def fixLaw (c : Settings) : Law (officialSystem c) where
  rely v v' := FixRely v.1 v'.1
  guar _ v v' := FixRely v.1 v'.1
  inv v := FixInv v.1
  cond := FixOk c
  refl v := .refl v.1
  trans h h' := h.trans h'
  guar_refl _ v := .refl v.1
  rely_of_guar h := h

/-- The evaluation is in the table, whatever has become of it. -/
def Db.knows (db : Db) (e : Evaluation) : Prop :=
  ∃ e' ∈ db.evaluations, e'.id = e.id ∧ e'.origin = e.origin

theorem FixRely.knows {db db' : Db} (h : FixRely db db') {e : Evaluation} (he : db.knows e) :
    db'.knows e := by
  obtain ⟨e', he', hid, ho⟩ := he
  obtain ⟨e'', he'', hid', ho'⟩ := h.kept e' he'
  exact ⟨e'', he'', hid'.trans hid, ho'.trans ho⟩

theorem FixRely.worth {db db' : Db} (h : FixRely db db') {s : NewScore} (hw : db.worth s) :
    db'.worth s := by
  obtain ⟨r, i, hk, hworth⟩ := hw
  exact ⟨r, i, hk, fun run hrun => hworth run (by rwa [← h.runById])⟩

theorem runById_id {db : Db} {id : Nat} {run : Run} (h : db.runById id = some run) : run.id = id :=
  (Table.mem_of_find h).2

/-- A score of a run that was read: the penalty is for practice runs. -/
theorem worth_fixScore {db : Db} {run : Run} (hrun : db.runById run.id = some run) (roundId : Nat)
    (ext : Instance) {delta : Int}
    (hd : run.practice = false → delta = run.config.fixRoundScore) :
    db.worth (fixScore run roundId ext delta) := by
  refine ⟨roundId, ext.id, rfl, fun run' hrun' hp => ⟨rfl, ?_⟩⟩
  have heq : run' = run := Option.some.inj (hrun'.symm.trans hrun)
  subst heq
  exact hd hp

section Safe

variable {c : Settings} {j : OfficialJob} {v : Db × Unit} {α : Type} {Q : α → Db × Unit → Prop}

theorem fix_select {f : Db → α} (h : ∀ v' : Db × Unit, FixRely v.1 v'.1 → FixInv v'.1 →
    Q (f v'.1) v') : (fixLaw c).Safe j Q (select f) v :=
  Process.Law.safe_query (fun _ _ => rfl) fun v' hv hi _ => h v' hv hi

/-- A row that was found. -/
theorem fix_require {m : String} {f : Db → Option α} :
    (fixLaw c).Safe j (fun a v' => FixInv v'.1 ∧ f v'.1 = some a)
      (do ofOption m (← select f) : AwdpM α) v := by
  refine Process.Law.safe_bind (fix_select fun v' _ hi => ?_)
  cases hf : f v'.1 with
  | none => trivial
  | some a => exact ⟨hi, hf⟩

/-- A program of reads of which nothing is remembered. -/
theorem fix_reads {p : AwdpM α}
    (hp : p.Does QuietStep) :
    (fixLaw c).Safe j (fun _ _ => True) p v := by
  refine Process.Law.safe_of_does hp fun l db db' _ hi _ ⟨locks, hdb⟩ => ?_
  subst hdb
  exact hi.same ⟨rfl, rfl, rfl, rfl⟩ rfl

/-- A statement of the evaluation programs. -/
theorem fix_exec {l : Stmt} {e : AwdpError} {f : Db → Except AwdpError (Db × α)}
    (hdoes : (Prog.exec l e f : AwdpM α).Does (EvalStep c))
    (hready : ∀ db, FixRely v.1 db → FixInv db → l.fixReady db)
    (hQ : ∀ db db' a, FixRely v.1 db → FixInv db → f db = .ok (db', a) → Q a (db', ())) :
    (fixLaw c).Safe j Q (Prog.exec l e f) v := by
  refine Process.Law.safe_exec (fun _ _ => rfl) fun v' hv hi hc s a hf => ?_
  have hstep := (hdoes v'.1).1
  rw [Prog.after_of_ok hf] at hstep
  obtain ⟨hr, hinv⟩ := hi.step hc (hready v'.1 hv hi) hstep
  exact ⟨hr, hinv, hQ _ _ _ hv hi hf⟩

theorem fix_withLock {p : AwdpM α} (instanceId : Nat)
    (hp : ∀ v' : Db × Unit, FixRely v.1 v'.1 → (fixLaw c).Safe j (fun _ _ => True) p v') :
    (fixLaw c).Safe j (fun _ _ => True) (withLock instanceId p) v := by
  refine Process.Law.safe_seq (fix_reads (does_acquireLock _)) fun _ v' hv => ?_
  refine Process.Law.safe_seq (Process.Law.safe_tried (hp v' hv)) fun r _ _ => ?_
  exact Process.Law.safe_seq (fix_reads (does_releaseLock _)) fun _ _ _ =>
    fix_reads (does_ofExcept r)

theorem fix_requireRun (id : Nat) : (fixLaw c).Safe j
    (fun run v' => v'.1.runById id = some run) (requireRun id) v :=
  fix_require.imp fun _ _ h => h.2

theorem fix_createScoreEvent {s : NewScore} (hw : v.1.worth s) : (fixLaw c).Safe j
    (fun _ v' => v'.1.scored s.idempotencyKey = true) (createScoreEvent s) v := by
  refine Process.Law.safe_seq (fix_reads (does_requireRun _)) fun run v' hv => ?_
  refine fix_exec (does_writeScore s run.eventId) (fun db hdb _ => (hv.trans hdb).worth hw)
    fun db db' a _ _ hf => ?_
  split_ifs at hf with hs
  · cases hf
    exact hs
  · cases hf
    exact scored_insertScore.2 (.inr rfl)

theorem fix_penalizePractice {run : Run} (hrun : v.1.runById run.id = some run) (roundId : Nat)
    (ext : Instance) : (fixLaw c).Safe j (fun _ _ => True) (penalizePractice run roundId ext) v := by
  refine Process.Law.safe_ite (fun hp => ?_) fun _ => Process.Law.safe_pure trivial
  have hw : v.1.worth (fixScore run roundId ext (-defaultFixRoundPenalty)) :=
    worth_fixScore hrun roundId ext fun hnot => absurd (hp.symm.trans hnot) (by decide)
  exact Process.Law.safe_bind ((fix_createScoreEvent hw).imp fun _ _ _ => trivial)

theorem fix_finishWithLease (reporter : Reporter) (l : Lease) {status : EvaluationStatus}
    (hs : status.terminal = true) (outputs : Outputs)
    (hready : ∀ db, FixRely v.1 db → FixInv db →
      (Stmt.finishWithLease reporter l status).fixReady db) :
    (fixLaw c).Safe j (fun _ _ => True) (finishWithLease c reporter l status outputs) v :=
  fix_exec (does_finishWithLease reporter l hs outputs) hready fun _ _ _ _ _ _ => trivial

theorem fix_releaseOrFail (reporter : Reporter) (l : Lease) (detail : String) :
    (fixLaw c).Safe j (fun _ _ => True) (releaseOrFail c reporter l detail) v :=
  fix_exec (does_releaseOrFail reporter l detail) (fun _ _ _ => trivial) fun _ _ _ _ _ _ => trivial

theorem fix_finishEval {l : Lease} (ht : l.token ≠ "") {o : CheckOutcome}
    (hs : o.status.terminal = true) (outputs : Outputs)
    (hready : ∀ db, FixRely v.1 db → FixInv db →
      (Stmt.finishWithLease (.inProcess o.examined) l o.status).fixReady db) :
    (fixLaw c).Safe j (fun _ _ => True) (finishEval c l o outputs) v := by
  unfold finishEval
  rw [if_neg ht]
  exact Process.Law.safe_seq (fix_finishWithLease _ _ hs _ hready) fun _ _ _ => trivial

theorem fixReady_of_ne {reporter : Reporter} {l : Lease} {status : EvaluationStatus}
    (h : status ≠ .patched) (db : Db) : (Stmt.finishWithLease reporter l status).fixReady db := by
  unfold Stmt.fixReady
  split
  case h_1 heq => cases heq; exact absurd rfl h
  all_goals trivial

theorem fix_settleFailed {run : Run} (hrun : v.1.runById run.id = some run) (round : FixRound)
    (ext : Instance) {l : Lease} (ht : l.token ≠ "") {o : CheckOutcome}
    (hs : o.status.terminal = true) (hne : o.status ≠ .patched) (outputs : Outputs) :
    (fixLaw c).Safe j (fun _ _ => True) (settleFailed c run round ext l o outputs) v := by
  refine Process.Law.safe_seq (fix_penalizePractice hrun _ _) fun _ v' hv => ?_
  exact Process.Law.safe_seq (fix_finishEval ht hs _ fun db _ _ => fixReady_of_ne hne db)
    fun _ _ _ => trivial

/-- The worker has written the score of an evaluation that it calls patched. -/
theorem fixReady_patched {db : Db} (h : FixInv db) {ev : Evaluation} (hk : db.knows ev)
    {examined : Option Instance} {l : Lease} (hl : l.evaluationId = ev.id)
    (hscored : ∀ key, ev.fixKey = some key → db.scored key = true) :
    (Stmt.finishWithLease (.inProcess examined) l .patched).fixReady db := by
  intro row hrow _ key hkey
  obtain ⟨e', he', hid, ho⟩ := hk
  obtain ⟨hmem, hrowId⟩ := Table.mem_of_find hrow
  have heq : row = e' := Table.eq_of_key h.keyed hmem he' (hrowId.trans (hl.trans hid.symm))
  rw [heq, fixKey_of_origin ho] at hkey
  exact hscored key hkey

/-- The run, the round and the instance that a worker has found for an evaluation. -/
structure Handles (db : Db) (ev : Evaluation) (run : Run) (round : FixRound) (ext : Instance) :
    Prop where
  found : db.runById run.id = some run
  known : db.knows ev
  runId : run.id = ev.runId
  roundId : ev.fixRoundId = some round.id
  instanceId : ext.id = ev.instanceId

theorem Handles.rely {db db' : Db} {ev : Evaluation} {run : Run} {round : FixRound}
    {ext : Instance} (h : Handles db ev run round ext) (hr : FixRely db db') :
    Handles db' ev run round ext :=
  ⟨by rw [hr.runById]; exact h.found, hr.knows h.known, h.runId, h.roundId, h.instanceId⟩

theorem Handles.key {db : Db} {ev : Evaluation} {run : Run} {round : FixRound} {ext : Instance}
    (h : Handles db ev run round ext) {key : IdempotencyKey} (hk : ev.fixKey = some key) :
    key = .fix run.id round.id ext.id := by
  obtain ⟨r, -, hr, rfl⟩ := Evaluation.fixKey_eq hk
  have : r = round.id := Option.some.inj (hr.symm.trans h.roundId)
  rw [h.runId, h.instanceId, this]

theorem fix_settleOutcome {ev : Evaluation} {run : Run} {round : FixRound} {ext : Instance}
    (h : Handles v.1 ev run round ext) {l : Lease} (hl : l.evaluationId = ev.id)
    (ht : l.token ≠ "") (o : CheckOutcome) :
    (fixLaw c).Safe j (fun _ _ => True) (settleOutcome c run round ext l o) v := by
  unfold settleOutcome
  split
  case h_5 hs =>
    have hw : v.1.worth (fixScore run round.id ext run.config.fixRoundScore) :=
      worth_fixScore h.found round.id ext fun _ => rfl
    refine Process.Law.safe_bind ((fix_createScoreEvent hw).and_rely.imp fun _ v' hv' => ?_)
    refine Process.Law.safe_seq (fix_finishEval ht (by rw [hs]; rfl) _ fun db hr hi => ?_)
      fun _ _ _ => trivial
    rw [hs]
    refine fixReady_patched hi ((h.rely hv'.2).rely hr).known hl fun key hkey => ?_
    rw [h.key hkey]
    exact hr.scored _ hv'.1
  case h_6 => trivial
  all_goals
    rename_i hs
    exact fix_settleFailed h.found round ext ht (by rw [hs]; rfl) (by rw [hs]; decide) _

/-- The run of an evaluation is the run of its instance. -/
theorem FixInv.run_eq {db : Db} (h : FixInv db) {ev : Evaluation} (hk : db.knows ev) {i : Instance}
    (hi : db.instanceById ev.instanceId = some i) : i.runId = ev.runId := by
  obtain ⟨e', he', -, ho⟩ := hk
  have hinst : e'.instanceId = ev.instanceId := congrArg (·.2.1) ho
  rw [h.owned e' he' i (hinst ▸ hi), runId_of_origin ho]

theorem fix_processOfficialLocked {ev : Evaluation} (hk : v.1.knows ev) {l : Lease}
    (hl : l.evaluationId = ev.id) (ht : l.token ≠ "") (probe : Probe) :
    (fixLaw c).Safe j (fun _ _ => True) (processOfficialLocked c ev l probe) v := by
  refine Process.Law.safe_bind (fix_require.and_rely.imp fun ext v₁ h₁ => ?_)
  obtain ⟨⟨hinv₁, hext⟩, hv₁⟩ := h₁
  have hrunId := hinv₁.run_eq (hv₁.knows hk) hext
  refine Process.Law.safe_bind ((fix_requireRun ext.runId).and_rely.imp fun run v₂ h₂ => ?_)
  obtain ⟨hrun, hv₂⟩ := h₂
  refine Process.Law.safe_seq (fix_reads (does_findGameboxIdentity _)) fun gamebox v₃ hv₃ => ?_
  cases hround : ev.fixRoundId with
  | none => trivial
  | some roundId =>
    refine Process.Law.safe_bind (fix_require.and_rely.imp fun round v₄ h₄ => ?_)
    have hid : round.id = roundId := (Table.mem_of_find h₄.1.2).2
    refine Process.Law.safe_seq ?_ fun _ _ _ => trivial
    refine Process.Law.safe_bind (fix_require.and_rely.imp fun ext' v₅ h₅ => ?_)
    have hrely : FixRely v₂.1 v₅.1 := (hv₃.trans h₄.2).trans h₅.2
    have hknows : v₅.1.knows ev := hrely.knows (hv₂.knows (hv₁.knows hk))
    have hfound : v₅.1.runById ext.runId = some run := by rw [hrely.runById, hrun]
    have hh : Handles v₅.1 ev run round ext' :=
      ⟨by rw [runById_id hrun]; exact hfound, hknows, (runById_id hrun).trans hrunId,
        by rw [hround, hid], (Table.mem_of_find h₅.1.2).2⟩
    refine Process.Law.safe_seq (fix_reads (does_runChecks _ _ _ _)) fun o v₆ hv₆ => ?_
    exact fix_settleOutcome (hh.rely hv₆) hl ht o

theorem fix_processJob {workerId : String} {probe : Nat → Probe} {job : ClaimedJob}
    (hk : v.1.knows job.evaluation) (ht : job.leaseToken ≠ "") :
    (fixLaw c).Safe j (fun _ _ => True) (processJob c workerId probe job) v := by
  have hlocked : (fixLaw c).Safe j (fun _ _ => True) (processOfficialLeased c job.evaluation
      (job.lease workerId) (probe job.evaluation.id)) v :=
    fix_withLock _ fun v₁ hv₁ => Process.Law.safe_seq (fix_reads (Prog.does_look (reads_refl rfl) _))
      fun seen v₂ hv₂ => Process.Law.safe_seq (Process.Law.safe_tried
        (fix_processOfficialLocked ((hv₁.trans hv₂).knows hk) rfl ht _)) fun _ _ _ => trivial
  refine Process.Law.safe_seq (Process.Law.safe_tried hlocked) fun r v' _ => ?_
  have hback (seen : Option Instance) (e : AwdpError) : (fixLaw c).Safe j (fun _ _ => True)
      (giveBack c seen (job.lease workerId) e) v' :=
    Process.Law.safe_seq (Process.Law.safe_tried (fix_releaseOrFail _ _ _)) fun _ _ _ => trivial
  split
  · trivial
  · exact hback _ _
  · exact hback _ _

/-- What a claim hands out. -/
theorem fix_claimJobs (q : ClaimQuery) (draw : Draw) : (fixLaw c).Safe j
    (fun jobs v' => ∀ job ∈ jobs, v'.1.knows job.evaluation ∧ job.leaseToken ≠ "")
    (claimJobs c q draw) v := by
  refine Process.Law.safe_seq (fix_reads does_utcNow) fun now v' _ => ?_
  refine fix_exec (does_claimTx q draw now) (fun _ _ _ => trivial) fun db db' jobs _ hi hf => ?_
  cases hf
  intro job hjob
  obtain ⟨-, htoken, -, hrow⟩ := claimed_row hi.keyed hjob
  refine ⟨⟨_, (Table.mem_of_find hrow).1, rfl, rfl⟩, ?_⟩
  rw [htoken]
  exact draw.ne _

theorem fix_workerRound (workerId : String) (concurrency : Nat) (skipped : List Nat) (draw : Draw)
    (probe : Nat → Probe) : (fixLaw c).Safe j (fun _ _ => True)
      (workerRound c workerId concurrency skipped draw probe) v := by
  refine Process.Law.safe_bind ((fix_claimJobs _ _).imp fun jobs v' hjobs => ?_)
  have hturn (job : ClaimedJob) (hjob : job ∈ jobs) (v₁ : Db × Unit)
      (h₁ : ∀ job ∈ jobs, v₁.1.knows job.evaluation ∧ job.leaseToken ≠ "") :
      (fixLaw c).Safe j (fun _ v₂ => ∀ job ∈ jobs, v₂.1.knows job.evaluation ∧ job.leaseToken ≠ "")
        (processJob c workerId probe job) v₁ := by
    refine (fix_processJob (h₁ job hjob).1 (h₁ job hjob).2).and_rely.imp fun _ v₂ h₂ => ?_
    exact fun job' hjob' => ⟨FixRely.knows h₂.2 (h₁ job' hjob').1, (h₁ job' hjob').2⟩
  exact (Process.Law.safe_each hturn hjobs).imp fun _ _ _ => trivial

theorem fix_buildJob (workerId : String) (job : ClaimedJob) :
    (fixLaw c).Safe j (fun _ _ => True) (buildJob c workerId job) v := by
  refine Process.Law.safe_seq (fix_reads (does_findByInstanceId _)) fun inst v₁ _ => ?_
  refine Process.Law.safe_bind ((fix_requireRun inst.runId).imp fun run v₂ hrun => ?_)
  refine Process.Law.safe_seq (fix_reads (does_findGameboxIdentity _)) fun _ v₃ hv₃ => ?_
  split
  · refine Process.Law.safe_seq (fix_reads (does_hasAppliedPatch _ _)) fun applied v₄ hv₄ => ?_
    refine Process.Law.safe_ite (fun _ => ?_) fun _ => Process.Law.safe_pure trivial
    have hfound : v₄.1.runById run.id = some run := by
      rw [FixRely.runById (hv₃.trans hv₄), runById_id hrun]
      exact hrun
    refine Process.Law.safe_seq ?_ fun _ _ _ => trivial
    refine Process.Law.safe_seq (fix_penalizePractice hfound _ _) fun _ v₅ _ => ?_
    exact Process.Law.safe_seq (fix_finishWithLease _ _ rfl _ fun db _ _ =>
      fixReady_of_ne (by decide) db) fun _ _ _ => trivial
  · trivial

theorem fix_buildJobs (workerId : String) (jobs : List ClaimedJob) :
    (fixLaw c).Safe j (fun _ _ => True) (buildJobs c workerId jobs) v := by
  induction jobs generalizing v with
  | nil => trivial
  | cons job jobs ih =>
    refine Process.Law.safe_seq (fix_buildJob _ _) fun _ v' _ => ?_
    exact Process.Law.safe_seq ih fun _ _ _ => trivial

theorem fix_acceptOutcome (o : FinishOutcome) :
    (fixLaw c).Safe j (fun _ _ => True) (acceptOutcome o) v := by
  cases o <;> trivial

theorem fix_scoreVerdict (ev : Evaluation) (status : EvaluationStatus) :
    (fixLaw c).Safe j (fun _ _ => True) (scoreVerdict ev status) v := by
  refine Process.Law.safe_ite (fun _ => ?_) fun _ => Process.Law.safe_pure trivial
  split
  · trivial
  · refine Process.Law.safe_bind ((fix_requireRun ev.runId).imp fun run v₁ hrun => ?_)
    refine Process.Law.safe_seq (fix_reads (does_findByInstanceId _)) fun ext v₂ hv₂ => ?_
    have hfound : v₂.1.runById run.id = some run := by
      rw [FixRely.runById hv₂, runById_id hrun]
      exact hrun
    refine Process.Law.safe_bind ((fix_createScoreEvent ?_).imp fun _ _ _ => trivial)
    exact worth_fixScore hfound _ _ fun _ => rfl

theorem fix_recordResult (r : ResultRequest) (examined : List Applied) :
    (fixLaw c).Safe j (fun _ _ => True) (recordResult c r examined) v := by
  refine Process.Law.safe_seq (fix_reads (does_findEvaluation _)) fun ev v₁ _ => ?_
  refine Process.Law.safe_seq (fix_reads (does_findByInstanceId _)) fun inst v₂ _ => ?_
  refine Process.Law.safe_ite (fun _ => trivial) fun _ => ?_
  cases hp : parseTerminalStatus r.status with
  | error e => trivial
  | ok status =>
    refine Process.Law.safe_ite (fun _ => ?_) fun _ => ?_
    · exact Process.Law.safe_seq (fix_releaseOrFail _ _ _) fun _ _ _ => fix_acceptOutcome _
    · refine Process.Law.safe_seq (fix_finishWithLease _ _ (terminal_of_parse hp) _
        fun _ _ _ => trivial) fun _ v₃ _ => ?_
      exact Process.Law.safe_seq (fix_acceptOutcome _) fun _ _ _ => fix_scoreVerdict _ _

end Safe

/-! ## Runs -/

theorem fixLaw_keeps (c : Settings) : (fixLaw c).Keeps := by
  refine ⟨fun j v _ => ?_, fun e v h => ?_⟩
  · cases j with
    | worker workerId concurrency skipped draw probe => exact fix_workerRound _ _ _ _ _
    | claim workerId capacity eventId skipped draw =>
      refine Process.Law.safe_bind (Process.Law.safe_bind
        ((fix_claimJobs _ _).imp fun jobs v' _ => ?_))
      exact (fix_buildJobs _ _).imp fun _ _ _ => trivial
    | heartbeat id workerId token =>
      refine Process.Law.safe_bind (fix_exec (does_heartbeat _ _ _) (fun _ _ _ => trivial) ?_)
      exact fun _ _ _ _ _ _ => trivial
    | result r examined => exact fix_recordResult r examined
  · cases e with
    | advance secs => exact FixInv.same h ⟨rfl, rfl, rfl, rfl⟩ rfl
    | create runId instanceId fixRoundId =>
      simp only [officialSystem, OfficialEnv.act]
      split_ifs with hnew
      · refine FixInv.insert h (fun i hi => ?_) _ _ _
        simpa [hi] using hnew.2
      · exact ⟨.refl _, h⟩
    | dropLock instanceId => exact FixInv.same h ⟨rfl, rfl, rfl, rfl⟩ rfl

/-- A competition run whose first round has a patch and waits for its evaluation. -/
def competitionDb : Db :=
  { practiceDb with runs := [{ practiceRun with gameboxId := none, ownerUserId := none }] }

theorem competitionDb_fixInv : FixInv competitionDb := by
  refine ⟨by decide, by decide, fun e he i hi => ?_, by decide, (fun s hs => nomatch hs),
    fun e he _ key _ ht => ?_⟩
  · rw [List.mem_singleton.1 he] at hi ⊢
    cases hi
    rfl
  · rw [List.mem_singleton.1 he] at ht
    cases ht

/-- A worker of the platform finds the instance patched. -/
def patchedActs (steps : Nat) : List (Act OfficialJob OfficialEnv) :=
  .spawn (.worker "worker" 4 [] practiceDraw fun _ => probeOf true) ::
    List.replicate steps (.step 0 true)

/-- It is held up after its score, a JudgeServer claims the evaluation and finds the instance
vulnerable, and then the worker goes on. -/
def expiredActs : List (Act OfficialJob OfficialEnv) :=
  patchedActs 15 ++
    [.env (.advance 300), .spawn (.claim "judge-server" 4 none [] practiceDraw)] ++
    List.replicate 10 (.step 1 true) ++
    [.spawn (.result ⟨7, "judge-server", "token", 2, 1, "vulnerable", .empty⟩ [])] ++
    List.replicate 10 (.step 2 true) ++ List.replicate 10 (.step 0 true)

end FloatCtf.Awdp
