import FloatCtf.Awdp.EvaluationSteps
import FloatCtf.Awdp.ExecutionPaths
import FloatCtf.Process.Pool

/-!
# The lease protocol of the evaluations

Workers claim evaluations under a lease, and a verdict counts when the lease is the current one.
The check of all rounds of a practice run writes without a lease, the generation of an instance is
compared before the lease is, and an evaluation can be given back after its lease ran out.
`leaseProtocol_run` shows the protocol for every interleaving in which none of the three happens, and
`leaseProtocol_not_swept` that a verdict does not stay what it was without that.
-/

namespace FloatCtf.Awdp

open Process

/-! ## The system -/

/-- The jobs on evaluations. -/
inductive EvalJob where
  | worker (workerId : String) (concurrency : Nat) (skipped : List Nat) (draw : Draw)
      (probe : Nat → Probe)
  | claim (workerId : String) (capacity : Nat) (eventId : Option Nat) (skipped : List Nat)
      (draw : Draw)
  | heartbeat (id : Nat) (workerId token : String)
  | result (r : ResultRequest) (examined : List Applied)
  | allCheck (runId instanceId : Nat) (subject : Subject) (probe : Probe)
  | reset (instanceId : Nat)

/-- The program of a job. -/
def EvalJob.prog (c : Settings) : EvalJob → AwdpM Unit
  | worker workerId concurrency skipped draw probe =>
    workerRound c workerId concurrency skipped draw probe
  | claim workerId capacity eventId skipped draw => do
    let _ ← judgeClaimJobs c workerId capacity eventId skipped draw
  | heartbeat id workerId token => do let _ ← Awdp.heartbeat c id workerId token
  | result r examined => recordResult c r examined
  | allCheck runId instanceId subject probe => do
    let _ ← Awdp.allCheck runId instanceId subject probe
  | reset instanceId => resetInstance instanceId

/-- Time passes, a tick asks for an evaluation, or the session of a lock ends. -/
inductive EvalEnv where
  | advance (secs : Nat)
  | create (runId instanceId fixRoundId : Nat)
  | dropLock (instanceId : Nat)

/-- What happens beside the jobs. -/
def EvalEnv.act : EvalEnv → Db → Db
  | advance secs, db => { db with now := db.now + secs }
  | create runId instanceId fixRoundId, db =>
    if (db.official fixRoundId instanceId).isSome then db
    else db.insertEvaluation runId instanceId (some fixRoundId) .official db.now
  | dropLock instanceId, db => { db with locks := db.locks.erase instanceId }

/-- The generation that a report is about. -/
def Reporter.generation : Reporter → Option Int
  | inProcess examined => examined.map (·.runtimeGeneration)
  | judgeServer generation _ => some generation

/-- Where a terminal status came from. -/
inductive Source where
  | verdict (reporter : Reporter) (lease : Lease)
  | release (reporter : Reporter) (lease : Lease)
  | sweep
  deriving DecidableEq

/-- A result that was accepted: where it came from, the status it gave the evaluation, and the row,
the time and the generation of the instance at that moment. -/
structure Accepted where
  source : Source
  status : EvaluationStatus
  row : Evaluation
  now : Int
  generation : Option Int
  deriving DecidableEq

/-- The generation of the container of an evaluation. -/
def Db.generationOf (db : Db) (row : Evaluation) : Option Int :=
  (db.instanceById row.instanceId).map (·.runtimeGeneration)

/-- The observer keeps the results that are accepted. -/
def noteAccepted (c : Settings) (l : Stmt) (db : Db) (log : List Accepted) : List Accepted :=
  match l with
  | .finishWithLease reporter lease status =>
    match db.evaluationById lease.evaluationId with
    | some row =>
      if row.leaseValid c lease db.now then
        log ++ [⟨.verdict reporter lease, status, row, db.now, db.generationOf row⟩]
      else log
    | none => log
  | .releaseOrFail reporter lease detail =>
    match db.evaluationById lease.evaluationId with
    | some row =>
      if row.givesBack c lease detail then
        log ++ [⟨.release reporter lease, (row.givenBack c lease.attempt detail).status, row, db.now,
          db.generationOf row⟩]
      else log
    | none => log
  | .finish id status =>
    match db.evaluationById id with
    | some row => log ++ [⟨.sweep, status, row, db.now, db.generationOf row⟩]
    | none => log
  | _ => log

/-- The jobs, with a log of the terminal statuses as ghost state. -/
def evalSystem (c : Settings) : System Stmt Db AwdpError (List Accepted) EvalJob EvalEnv where
  prog := EvalJob.prog c
  env := EvalEnv.act
  watch _ l db log := noteAccepted c l db log

/-- The jobs under way. -/
abbrev EvalPool := Pool Stmt Db AwdpError (List Accepted) EvalJob

/-- Nothing has been claimed. -/
def EvalPool.initial (db : Db) : EvalPool := ⟨db, [], []⟩

/-! ## The protocol -/

/-- Every column of the lease is set. -/
def LeaseRow.isSet (l : LeaseRow) : Bool :=
  l.claimedBy.isSome ∧ l.claimedAt.isSome ∧ l.heartbeatAt.isSome ∧ l.expiresAt.isSome ∧
    l.tokenHash.isSome

/-- The result came from the holder of the lease, before it ran out, and is about the generation of
the instance; or nobody held the evaluation. -/
def Accepted.byHolder (c : Settings) (a : Accepted) : Bool :=
  match a.source with
  | .verdict reporter lease => a.row.leaseValid c lease a.now ∧
      reporter.generation.all fun g => a.generation = some g
  | .release reporter lease => a.row.leaseValid c lease a.now ∧
      reporter.generation.all fun g => a.generation = some g
  | .sweep => a.row.status = .pending

/-- Results come from the holder, an evaluation gets one verdict at most and keeps it, attempts are
bounded, and the lease columns are set exactly where an evaluation is running. -/
structure LeaseProtocol (c : Settings) (db : Db) (log : List Accepted) : Prop where
  byHolder : ∀ a ∈ log, a.byHolder c = true
  once : ((log.filter (·.status.terminal)).map (·.row.id)).Nodup
  recorded : ∀ a ∈ log, a.status.terminal = true →
    ∃ e ∈ db.evaluations, e.id = a.row.id ∧ e.status = a.status
  attempts : ∀ e ∈ db.evaluations, e.attemptCount ≤ c.maxAttempts
  leased : ∀ e ∈ db.evaluations, e.status = .running → e.lease.isSet = true
  cleared : ∀ e ∈ db.evaluations, e.status ≠ .running → e.lease = .empty

/-- The evaluations that have a terminal status keep it. -/
def KeepsVerdicts (db db' : Db) : Prop :=
  ∀ e ∈ db.evaluations, e.status.terminal = true →
    ∃ e' ∈ db'.evaluations, e'.id = e.id ∧ e'.status = e.status

/-- A report is about the generation that the instance still has, an evaluation is given back before
its lease runs out, and the check of all rounds writes to evaluations that are pending. -/
def leaseOk (c : Settings) (l : Stmt) (db : Db) : Bool :=
  match l with
  | .finishWithLease reporter lease _ => (db.evaluationById lease.evaluationId).all fun row =>
      !row.leaseValid c lease db.now ||
        reporter.generation.all fun g => db.generationOf row = some g
  | .releaseOrFail reporter lease detail => (db.evaluationById lease.evaluationId).all fun row =>
      !row.givesBack c lease detail || (row.lease.expiresAt.any (db.now ≤ ·) &&
        reporter.generation.all fun g => db.generationOf row = some g)
  | .finish id _ => (db.evaluationById id).all (·.status = .pending)
  | _ => true

/-- The next statement keeps clear of the defects. -/
def LeaseOk (c : Settings) (_ : EvalJob) (l : Stmt) (v : Db × List Accepted) : Prop :=
  leaseOk c l v.1 = true

instance (c : Settings) (j : EvalJob) (l : Stmt) (v : Db × List Accepted) :
    Decidable (LeaseOk c j l v) := inferInstanceAs (Decidable (_ = true))

/-! ## Rows -/

/-- What holds of every row: its attempts are bounded, and it has a lease when it is running. -/
structure Evaluation.Sound (c : Settings) (e : Evaluation) : Prop where
  attempts : e.attemptCount ≤ c.maxAttempts
  pending : e.status = .pending → e.attemptCount < c.maxAttempts
  leased : e.status = .running → e.lease.isSet = true
  cleared : e.status ≠ .running → e.lease = .empty

section Rows

variable {c : Settings} {e : Evaluation}

/-- A row that loses its lease for a status other than running. -/
theorem Evaluation.Sound.unleased (h : e.Sound c) {s : EvaluationStatus} {o : Outputs}
    (hs : s ≠ .running) (hp : s = .pending → e.attemptCount < c.maxAttempts) :
    ({ e with status := s, outputs := o, lease := .empty } : Evaluation).Sound c :=
  ⟨h.attempts, hp, fun hr => absurd hr hs, fun _ => rfl⟩

theorem Evaluation.Sound.recovered (h : e.Sound c) : (e.recovered c).Sound c := by
  unfold Evaluation.recovered
  split_ifs with hm
  · exact h.unleased nofun nofun
  · exact h.unleased nofun fun _ => by omega

theorem Evaluation.Sound.claimed (h : e.Sound c) (hp : e.status = .pending) (workerId token : String)
    (now : Int) : (e.claimed c workerId token now).Sound c := by
  have := h.pending hp
  refine ⟨?_, nofun, fun _ => rfl, fun hs => absurd rfl hs⟩
  show e.attemptCount + 1 ≤ c.maxAttempts
  omega

theorem Evaluation.Sound.finished (h : e.Sound c) {s : EvaluationStatus} (hs : s.terminal = true)
    (outputs : Outputs) : (e.finished s outputs).Sound c := by
  refine h.unleased (fun hr => ?_) fun hp => ?_
  · rw [hr] at hs
    cases hs
  · rw [hp] at hs
    cases hs

theorem Evaluation.Sound.givenBack (h : e.Sound c) {attempt : Int} (ha : e.attemptCount = attempt)
    (detail : String) : (e.givenBack c attempt detail).Sound c := by
  unfold Evaluation.givenBack
  split_ifs with hm
  · exact h.unleased nofun nofun
  · exact h.unleased nofun fun _ => by omega

theorem Evaluation.Sound.extended (h : e.Sound c) (hr : e.status = .running) (now until_ : Int) :
    ({ e with lease := { e.lease with heartbeatAt := some now, expiresAt := some until_ } } :
      Evaluation).Sound c := by
  refine ⟨h.attempts, h.pending, fun _ => ?_, fun hs => absurd hr hs⟩
  have := h.leased hr
  simp only [LeaseRow.isSet, decide_eq_true_eq] at this ⊢
  exact ⟨this.1, this.2.1, rfl, rfl, this.2.2.2.2⟩

theorem Evaluation.heldBy_iff {l : Lease} :
    e.heldBy c l = true ↔ e.status = .running ∧ e.lease.claimedBy = some l.workerId ∧
      e.lease.tokenHash = some (c.hash l.token) ∧ e.attemptCount = l.attempt := by
  simp [Evaluation.heldBy]

theorem Evaluation.heldBy_of_givesBack {l : Lease} {detail : String}
    (h : e.givesBack c l detail = true) : e.heldBy c l = true := (Bool.and_eq_true_iff.1 h).1

theorem Evaluation.leaseValid_iff {l : Lease} {now : Int} :
    e.leaseValid c l now = true ↔
      e.heldBy c l = true ∧ e.lease.expiresAt.any (now ≤ ·) = true := by
  simp [Evaluation.leaseValid]

theorem Evaluation.fresh_sound (hm : 0 < c.maxAttempts) (db : Db) (runId instanceId : Nat)
    (fixRoundId : Option Nat) (kind : EvaluationKind) (now : Int) :
    (Evaluation.fresh db runId instanceId fixRoundId kind now).Sound c :=
  ⟨Int.le_of_lt hm, fun _ => hm, nofun, fun _ => rfl⟩

end Rows

/-! ## The invariant -/

/-- What holds of the evaluations and of the results that were accepted. -/
structure LeaseInv (c : Settings) (v : Db × List Accepted) : Prop where
  keyed : Table.Keyed Evaluation.id v.1.evaluations
  ids : ∀ e ∈ v.1.evaluations, e.id < v.1.nextId
  sound : ∀ e ∈ v.1.evaluations, e.Sound c
  byHolder : ∀ a ∈ v.2, a.byHolder c = true
  once : ((v.2.filter (·.status.terminal)).map (·.row.id)).Nodup
  recorded : ∀ a ∈ v.2, a.status.terminal = true →
    ∃ e ∈ v.1.evaluations, e.id = a.row.id ∧ e.status = a.status

theorem LeaseInv.protocol {c : Settings} {v : Db × List Accepted} (h : LeaseInv c v) :
    LeaseProtocol c v.1 v.2 :=
  ⟨h.byHolder, h.once, h.recorded, fun e he => (h.sound e he).attempts,
    fun e he => (h.sound e he).leased, fun e he => (h.sound e he).cleared⟩

theorem KeepsVerdicts.refl (db : Db) : KeepsVerdicts db db := fun e he _ => ⟨e, he, rfl, rfl⟩

theorem KeepsVerdicts.trans {a b d : Db} (h : KeepsVerdicts a b) (h' : KeepsVerdicts b d) :
    KeepsVerdicts a d := by
  intro e he ht
  obtain ⟨e', he', hid, hs⟩ := h e he ht
  obtain ⟨e'', he'', hid', hs'⟩ := h' e' he' (hs ▸ ht)
  exact ⟨e'', he'', hid'.trans hid, hs'.trans hs⟩

section Steps

variable {c : Settings} {v : Db × List Accepted} {db' : Db}

/-- The rows are edited in place, and those with a verdict keep their status. -/
theorem LeaseInv.map (h : LeaseInv c v) {f : Evaluation → Evaluation}
    (heval : db'.evaluations = v.1.evaluations.map f) (hnext : v.1.nextId ≤ db'.nextId)
    (hid : ∀ e, (f e).id = e.id)
    (hkeep : ∀ e ∈ v.1.evaluations, e.status.terminal = true → (f e).status = e.status)
    (hsound : ∀ e ∈ v.1.evaluations, e.Sound c → (f e).Sound c) :
    KeepsVerdicts v.1 db' ∧ LeaseInv c (db', v.2) := by
  have hverdicts : KeepsVerdicts v.1 db' := by
    intro e he ht
    exact ⟨f e, heval ▸ List.mem_map_of_mem he, hid e, hkeep e he ht⟩
  refine ⟨hverdicts, ?_, fun e he => ?_, fun e he => ?_, h.byHolder, h.once, fun a ha ht => ?_⟩
  · show Table.Keyed Evaluation.id db'.evaluations
    rw [heval]
    exact Table.keyed_map hid h.keyed
  · change e ∈ db'.evaluations at he
    rw [heval] at he
    obtain ⟨e₀, he₀, rfl⟩ := List.mem_map.1 he
    rw [hid]
    exact Nat.lt_of_lt_of_le (h.ids e₀ he₀) hnext
  · change e ∈ db'.evaluations at he
    rw [heval] at he
    obtain ⟨e₀, he₀, rfl⟩ := List.mem_map.1 he
    exact hsound e₀ he₀ (h.sound e₀ he₀)
  · obtain ⟨e, he, hea, hs⟩ := h.recorded a ha ht
    obtain ⟨e', he', hid', hs'⟩ := hverdicts e he (hs ▸ ht)
    exact ⟨e', he', hid'.trans hea, hs'.trans hs⟩

/-- The evaluations do not change. -/
theorem LeaseInv.same (h : LeaseInv c v) (heval : db'.evaluations = v.1.evaluations)
    (hnext : v.1.nextId ≤ db'.nextId) : KeepsVerdicts v.1 db' ∧ LeaseInv c (db', v.2) :=
  h.map (f := id) (by simpa using heval) hnext (fun _ => rfl) (fun _ _ _ => rfl) fun _ _ hs => hs

/-- The row of one evaluation that has no verdict is edited. -/
theorem LeaseInv.edit (h : LeaseInv c v) {id : Nat} {row : Evaluation} {f : Evaluation → Evaluation}
    (hrow : v.1.evaluationById id = some row) (hid : ∀ e, (f e).id = e.id)
    (hopen : row.status.terminal = false) (hsound : row.Sound c → (f row).Sound c) :
    KeepsVerdicts v.1 (v.1.editEvaluation id f) ∧ LeaseInv c (v.1.editEvaluation id f, v.2) := by
  obtain ⟨hmem, hrowId⟩ := Table.mem_of_find hrow
  have hthe (e : Evaluation) (he : e ∈ v.1.evaluations) (heid : e.id = id) : e = row :=
    Table.eq_of_key h.keyed he hmem (heid.trans hrowId.symm)
  refine h.map rfl (Nat.le_refl _) (fun e => ?_) (fun e he ht => ?_) fun e he hs => ?_
  · split_ifs
    · exact hid e
    · rfl
  · split_ifs with heid
    · rw [hthe e he heid, hopen] at ht
      cases ht
    · rfl
  · split_ifs with heid
    · rw [hthe e he heid] at hs ⊢
      exact hsound hs
    · exact hs

/-- A new evaluation. -/
theorem LeaseInv.insert (h : LeaseInv c v) (hm : 0 < c.maxAttempts) (runId instanceId : Nat)
    (fixRoundId : Option Nat) (kind : EvaluationKind) (now : Int) :
    KeepsVerdicts v.1 (v.1.insertEvaluation runId instanceId fixRoundId kind now) ∧
      LeaseInv c (v.1.insertEvaluation runId instanceId fixRoundId kind now, v.2) := by
  refine ⟨fun e he _ => ⟨e, List.mem_append_left _ he, rfl, rfl⟩, ?_, fun e he => ?_, fun e he => ?_,
    h.byHolder, h.once, fun a ha ht => ?_⟩
  · exact Table.keyed_append h.keyed fun e he heq => Nat.lt_irrefl _ (heq ▸ h.ids e he)
  · rcases List.mem_append.1 he with he | he
    · exact Nat.lt_succ_of_lt (h.ids e he)
    · rw [List.mem_singleton.1 he]
      exact Nat.lt_succ_self _
  · rcases List.mem_append.1 he with he | he
    · exact h.sound e he
    · rw [List.mem_singleton.1 he]
      exact Evaluation.fresh_sound hm _ _ _ _ _ _
  · obtain ⟨e, he, hea⟩ := h.recorded a ha ht
    exact ⟨e, List.mem_append_left _ he, hea⟩

/-- A result is accepted for an evaluation that had no verdict. -/
theorem LeaseInv.accept (h : LeaseInv c v) (h' : LeaseInv c (db', v.2)) {a : Accepted}
    (hrow : a.row ∈ v.1.evaluations) (hopen : a.row.status.terminal = false)
    (hby : a.byHolder c = true) (hrec : a.status.terminal = true →
      ∃ e ∈ db'.evaluations, e.id = a.row.id ∧ e.status = a.status) :
    LeaseInv c (db', v.2 ++ [a]) := by
  refine ⟨h'.keyed, h'.ids, h'.sound, fun b hb => ?_, ?_, fun b hb ht => ?_⟩
  · rcases List.mem_append.1 hb with hb | hb
    · exact h.byHolder b hb
    · rw [List.mem_singleton.1 hb]
      exact hby
  · rw [List.filter_append, List.map_append, List.nodup_append]
    refine ⟨h.once, ?_, fun n hn m hm heq => ?_⟩
    · simp only [List.filter_cons, List.filter_nil]
      split <;> simp
    · obtain ⟨b, hb, rfl⟩ := List.mem_map.1 hn
      obtain ⟨a', ha', rfl⟩ := List.mem_map.1 hm
      rw [List.mem_singleton.1 (List.mem_filter.1 ha').1] at heq
      obtain ⟨hbmem, hbt⟩ := List.mem_filter.1 hb
      obtain ⟨e, he, hid, hs⟩ := h.recorded b hbmem hbt
      have : e = a.row := Table.eq_of_key h.keyed he hrow (hid.trans heq)
      rw [← this, hs, hbt] at hopen
      cases hopen
  · rcases List.mem_append.1 hb with hb | hb
    · exact h'.recorded b hb ht
    · rw [List.mem_singleton.1 hb] at ht ⊢
      exact hrec ht

/-- A claim takes back leases that ran out and hands out evaluations that are pending. -/
theorem LeaseInv.claim (h : LeaseInv c v) (q : ClaimQuery) (draw : Draw) (now : Int) :
    KeepsVerdicts v.1 (v.1.claimJobs c q draw now).1 ∧
      LeaseInv c ((v.1.claimJobs c q draw now).1, v.2) := by
  refine h.map claimJobs_evaluations (Nat.le_refl _) (fun e => ?_) (fun e he ht => ?_)
    fun e he hs => ?_
  · simp only [Db.claimRow, Evaluation.refreshed]
    split_ifs <;> rfl
  · have hsame : e.refreshed c now = e := if_neg fun hstale => by
      rw [Evaluation.stale, decide_eq_true_eq] at hstale
      rw [hstale.1] at ht
      cases ht
    have hcases : v.1.claimRow c q draw now e = e.refreshed c now ∨ _ := claimRow_cases h.keyed he
    rcases hcases with hr | hr
    · rw [hr, hsame]
    · rw [hsame] at hr
      rw [hr.1] at ht
      cases ht
  · have hsound : (e.refreshed c now).Sound c := by
      unfold Evaluation.refreshed
      split_ifs
      · exact hs.recovered
      · exact hs
    have hcases : v.1.claimRow c q draw now e = e.refreshed c now ∨ _ := claimRow_cases h.keyed he
    rcases hcases with hr | hr
    · rw [hr]
      exact hsound
    · rw [hr.2]
      exact hsound.claimed hr.1 _ _ _

theorem noteAccepted_idle {l : Stmt} {db : Db} (h : l.idle c db = true) (log : List Accepted) :
    noteAccepted c l db log = log := by
  cases l
  case finishWithLease reporter lease status =>
    cases hrow : db.evaluationById lease.evaluationId <;>
      simp_all [Stmt.idle, noteAccepted]
  case releaseOrFail reporter lease detail =>
    cases hrow : db.evaluationById lease.evaluationId <;>
      simp_all [Stmt.idle, noteAccepted]
  case finish id status =>
    cases hrow : db.evaluationById id <;> simp_all [Stmt.idle, noteAccepted]
  all_goals rfl

/-- The row that an edit has written. -/
theorem mem_editEvaluation {db : Db} {id : Nat} {row : Evaluation} {f : Evaluation → Evaluation}
    (hrow : db.evaluationById id = some row) :
    f row ∈ (db.editEvaluation id f).evaluations := by
  obtain ⟨hmem, hid⟩ := Table.mem_of_find hrow
  exact List.mem_map.2 ⟨row, hmem, if_pos hid⟩

/-- A result is accepted, and the row gets the status of the result. -/
theorem LeaseInv.result (h : LeaseInv c v) {id : Nat} {row : Evaluation}
    {f : Evaluation → Evaluation} (hrow : v.1.evaluationById id = some row)
    (hid : ∀ e, (f e).id = e.id) (hopen : row.status.terminal = false)
    (hsound : row.Sound c → (f row).Sound c) {a : Accepted} (ha : a.row = row)
    (hstatus : (f row).status = a.status) (hby : a.byHolder c = true) :
    KeepsVerdicts v.1 (v.1.editEvaluation id f) ∧
      LeaseInv c (v.1.editEvaluation id f, v.2 ++ [a]) := by
  obtain ⟨hkeep, hinv⟩ := h.edit hrow hid hopen hsound
  refine ⟨hkeep, h.accept hinv ?_ (ha ▸ hopen) hby fun _ => ?_⟩
  · rw [ha]
    exact (Table.mem_of_find hrow).1
  · exact ⟨f row, mem_editEvaluation hrow, by rw [hid, ha], hstatus⟩

/-- One statement under the condition. -/
theorem LeaseInv.step (hm : 0 < c.maxAttempts) (h : LeaseInv c v) {l : Stmt}
    (hok : leaseOk c l v.1 = true) (hs : EvalStep c l v.1 db') :
    KeepsVerdicts v.1 db' ∧ LeaseInv c (db', noteAccepted c l v.1 v.2) := by
  rcases hs with ⟨hidle, hsame⟩ | hs
  · rw [noteAccepted_idle hidle]
    exact h.same hsame.evaluations (Nat.le_of_eq hsame.nextId.symm)
  · cases l
    case claimJobs q now =>
      obtain ⟨draw, rfl⟩ := hs
      exact h.claim q draw now
    case heartbeat id workerId token =>
      obtain ⟨row, hrow, hv, rfl⟩ := hs
      have hr : row.status = .running := (of_decide_eq_true hv).1
      exact h.edit hrow (fun _ => rfl) (by rw [hr]; rfl) fun hs => hs.extended hr _ _
    case finishWithLease reporter lease status =>
      obtain ⟨ht, row, outputs, hrow, hv, rfl⟩ := hs
      have hr := (Evaluation.heldBy_iff.1 (Evaluation.leaseValid_iff.1 hv).1).1
      simp only [noteAccepted, hrow, hv, if_true]
      refine h.result (f := (·.finished status outputs)) hrow (fun _ => rfl) (by rw [hr]; rfl)
        (fun hs => hs.finished ht _) rfl rfl ?_
      simp only [leaseOk, hrow, hv, Option.all_some, Bool.not_true, Bool.false_or] at hok
      exact decide_eq_true ⟨hv, hok⟩
    case releaseOrFail reporter lease detail =>
      obtain ⟨row, hrow, hv, rfl⟩ := hs
      have hheld := Evaluation.heldBy_of_givesBack hv
      obtain ⟨hr, -, -, hattempt⟩ := Evaluation.heldBy_iff.1 hheld
      simp only [noteAccepted, hrow, hv, if_true]
      refine h.result hrow (fun e => ?_) (by rw [hr]; rfl) (fun hs => hs.givenBack hattempt _) rfl
        rfl ?_
      · unfold Evaluation.givenBack
        split_ifs <;> rfl
      · simp only [leaseOk, hrow, hv, Option.all_some, Bool.not_true, Bool.false_or,
          Bool.and_eq_true] at hok
        exact decide_eq_true ⟨Evaluation.leaseValid_iff.2 ⟨hheld, hok.1⟩, hok.2⟩
    case finish id status =>
      obtain ⟨ht, row, outputs, hrow, rfl⟩ := hs
      simp only [leaseOk, hrow, Option.all_some, decide_eq_true_eq] at hok
      simp only [noteAccepted, hrow]
      exact h.result (f := (·.finished status outputs)) hrow (fun _ => rfl) (by rw [hok]; rfl)
        (fun hs => hs.finished ht _) rfl rfl (decide_eq_true hok)
    case createOfficial runId instanceId fixRoundId =>
      obtain ⟨-, -, now, rfl⟩ := hs
      exact h.insert hm _ _ _ _ _
    case createScore s =>
      obtain ⟨-, eventId, rfl⟩ := hs
      exact h.same rfl (Nat.le_succ _)
    case resetInstance id =>
      obtain ⟨generation, rfl⟩ := hs
      exact h.same rfl (Nat.le_refl _)
    case endPractice runId =>
      obtain ⟨runs, rfl⟩ := hs
      exact h.same rfl (Nat.le_refl _)
    all_goals cases hs

end Steps

/-! ## Runs -/

/-- What every interleaving keeps under the condition. -/
def leaseLaw (c : Settings) : Law (evalSystem c) where
  rely v v' := KeepsVerdicts v.1 v'.1
  guar _ v v' := KeepsVerdicts v.1 v'.1
  inv := LeaseInv c
  cond := LeaseOk c
  refl v := .refl v.1
  trans h h' := h.trans h'
  guar_refl _ v := .refl v.1
  rely_of_guar h := h

theorem does_evalJob (c : Settings) (j : EvalJob) : (j.prog c).Does (EvalStep c) := by
  cases j with
  | worker workerId concurrency skipped draw probe => exact does_workerRound _ _ _ _ _
  | claim workerId capacity eventId skipped draw =>
    exact Prog.does_bind (does_judgeClaimJobs _ _ _ _ _) fun _ => trivial
  | heartbeat id workerId token => exact Prog.does_bind (does_heartbeat _ _ _) fun _ => trivial
  | result r examined => exact does_recordResult _ _
  | allCheck runId instanceId subject probe =>
    exact Prog.does_bind (does_allCheck _ _ _ _) fun _ => trivial
  | reset instanceId => exact does_resetInstance _

theorem leaseLaw_keeps {c : Settings} (hm : 0 < c.maxAttempts) : (leaseLaw c).Keeps := by
  refine ⟨fun j v _ => Process.Law.safe_of_does (does_evalJob c j) ?_, fun e v h => ?_⟩
  · exact fun l db db' log hinv hok hstep => hinv.step hm hok hstep
  · cases e with
    | advance secs => exact h.same rfl (Nat.le_refl _)
    | create runId instanceId fixRoundId =>
      simp only [evalSystem, EvalEnv.act]
      split_ifs
      · exact ⟨.refl _, h⟩
      · exact h.insert hm _ _ _ _ _
    | dropLock instanceId => exact h.same rfl (Nat.le_refl _)

theorem practiceDb_leaseInv : LeaseInv practiceSettings (practiceDb, []) := by
  refine ⟨by decide, by decide, fun e he => ?_, fun a ha => absurd ha List.not_mem_nil, by simp,
    fun a ha => absurd ha List.not_mem_nil⟩
  rw [List.mem_singleton.1 he]
  exact ⟨by decide, fun _ => by decide, nofun, fun _ => rfl⟩

/-- A worker of the platform finds the service down. -/
def workerActs : List (Act EvalJob EvalEnv) :=
  .spawn (.worker "worker" 4 [] practiceDraw fun _ => probeOf false) ::
    List.replicate 30 (.step 0 true)

/-- Then the owner lets all rounds be checked. -/
def sweepActs : List (Act EvalJob EvalEnv) :=
  .spawn (.allCheck 1 6 ⟨some 4, none⟩ (probeOf true)) :: List.replicate 30 (.step 1 true)

end FloatCtf.Awdp
