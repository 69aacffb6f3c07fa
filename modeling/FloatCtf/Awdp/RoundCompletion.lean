import FloatCtf.Awdp.RoundMaterialisation

/-!
# Rounds that are completed

A round of the Fix is evaluating from the moment its evaluations are there until all of them are
terminal.  The snapshot counts the rows of one transaction, and `complete_finished_rounds` compares
it with the rows that are there.  A round without a row is not completed: the snapshot has to be
positive.  A round with a row of somebody else has a snapshot that is too small (`not_roundsKept`).

`roundsKept_run` shows that rounds are counted right and completed in time, in every run in which the
rows of a round are those of the transaction that opens it.
-/

namespace FloatCtf.Awdp

open Process

/-! ## The system -/

/-- The jobs on rounds and their evaluations. -/
inductive RoundJob where
  | materialize (runId roundId : Nat) (now : Int)
  | complete
  | evaluation (j : EvalJob)

/-- The program of a job. -/
def RoundJob.prog (c : Settings) : RoundJob → RoundM Unit
  | materialize runId roundId now => do let _ ← materializeRoundTxn runId roundId now
  | complete => beside completeFinishedRounds
  | evaluation j => beside (j.prog c)

/-- Time passes, a round is planned, a training run is rewound, and runs and instances change. -/
inductive RoundEnv where
  | advance (secs : Nat)
  | insertRound (runId : Nat) (w : RoundWindow)
  | rewind (runId : Nat)
  | runs (rows : List Run)
  | instances (rows : List Instance)

/-- What happens beside the jobs. -/
def RoundEnv.act : RoundEnv → Db → Db
  | advance secs, db => { db with now := db.now + secs }
  | insertRound runId w, db =>
    if db.rounds.any fun r => r.runId = runId ∧ r.sequence = w.sequence then db
    else db.insertRound runId w
  | rewind runId, db => db.clearFixSession runId
  | runs rows, db => { db with runs := rows }
  | instances rows, db => { db with instances := rows }

/-- The evaluations of a round. -/
def Db.rowsOf (db : Db) (roundId : Nat) : List Evaluation :=
  db.evaluations.filter (·.fixRoundId = some roundId)

/-- The observer keeps the rounds that were completed too early. -/
def noteEarly (j : RoundJob) (l : RoundStmt) (db : Db) (early : List Nat) : List Nat :=
  match j, l with
  | .complete, .core (.completeRound id) =>
    if (db.rowsOf id).all (·.status.terminal) then early else id :: early
  | _, _ => early

/-- The jobs, with the rounds that were completed early as ghost state. -/
def roundSystem (c : Settings) : System RoundStmt Db AwdpError (List Nat) RoundJob RoundEnv where
  prog := RoundJob.prog c
  env := RoundEnv.act
  watch := noteEarly

/-- The jobs under way. -/
abbrev RoundPool := Pool RoundStmt Db AwdpError (List Nat) RoundJob

/-- Nothing has been materialised. -/
def RoundPool.initial (db : Db) : RoundPool := ⟨db, [], []⟩

/-! ## The condition -/

/-- A round is opened without rows of others, and the check of all rounds adds rows to rounds that are
pending only. -/
def Timely (_ : RoundJob) (l : RoundStmt) (v : Db × List Nat) : Prop :=
  match l with
  | .commit _ roundId _ => v.1.rowsOf roundId = []
  | .core (.createOfficial _ instanceId roundId) =>
    (v.1.official roundId instanceId).isSome = true ∨
      (v.1.roundById roundId).all (·.status = .pending) = true
  | _ => True

instance (j : RoundJob) (l : RoundStmt) (v : Db × List Nat) : Decidable (Timely j l v) := by
  unfold Timely
  split <;> infer_instance

/-! ## The invariant -/

/-- The invariant of the rounds: ids are distinct, and no round is completed before its
evaluations. -/
structure RoundInv (v : Db × List Nat) : Prop where
  rounds : Table.Keyed FixRound.id v.1.rounds
  roundsBelow : ∀ r ∈ v.1.rounds, r.id < v.1.nextId
  evals : Table.Keyed Evaluation.id v.1.evaluations
  evalsBelow : ∀ e ∈ v.1.evaluations, e.id < v.1.nextId
  counted : ∀ r ∈ v.1.rounds, r.status = .evaluating →
    r.expectedEvalCount = some (v.1.rowsOf r.id).length
  early : v.2 = []

/-- The round has been opened, or it was deleted. -/
structure Opened (db : Db) (roundId : Nat) : Prop where
  below : roundId < db.nextId
  status : ∀ r ∈ db.rounds, r.id = roundId → r.status ≠ .pending

/-- A round that has been opened gets no new rows, and its terminal rows stay terminal. -/
structure RoundRely (db db' : Db) : Prop where
  opened : ∀ id, Opened db id → Opened db' id
  rows : ∀ id, Opened db id → ∀ e' ∈ db'.rowsOf id, ∃ e ∈ db.rowsOf id,
    e.status.terminal = true → e'.status.terminal = true

variable {c : Settings} {db db' : Db} {g : List Nat} {v v' : Db × List Nat} {roundId : Nat}

theorem RoundRely.refl (db : Db) : RoundRely db db :=
  ⟨fun _ h => h, fun _ _ e he => ⟨e, he, id⟩⟩

theorem RoundRely.trans {a b c : Db} (h : RoundRely a b) (h' : RoundRely b c) : RoundRely a c := by
  refine ⟨fun id ho => h'.opened id (h.opened id ho), fun id ho e'' he'' => ?_⟩
  obtain ⟨e', he', ht'⟩ := h'.rows id (h.opened id ho) e'' he''
  obtain ⟨e, he, ht⟩ := h.rows id ho e' he'
  exact ⟨e, he, ht' ∘ ht⟩

theorem mem_rowsOf {e : Evaluation} :
    e ∈ db.rowsOf roundId ↔ e ∈ db.evaluations ∧ e.fixRoundId = some roundId := by
  simp [Db.rowsOf]

/-- A state in which each row is what a row was before. -/
theorem RoundInv.map (h : RoundInv (db, g)) (hr : db'.rounds = db.rounds)
    (hn : db.nextId ≤ db'.nextId) {f : Evaluation → Evaluation}
    (he : db'.evaluations = db.evaluations.map f) (hid : ∀ e, (f e).id = e.id)
    (hround : ∀ e, (f e).fixRoundId = e.fixRoundId)
    (hterm : ∀ e ∈ db.evaluations, e.status.terminal = true → (f e).status.terminal = true) :
    RoundRely db db' ∧ RoundInv (db', g) := by
  have hrows (id : Nat) : db'.rowsOf id = (db.rowsOf id).map f := by
    rw [Db.rowsOf, he, List.filter_map]
    refine congrArg (List.map f) (List.filter_congr fun e _ => ?_)
    simp [hround]
  refine ⟨⟨fun id ho => ⟨ho.below.trans_le hn, hr ▸ ho.status⟩, fun id _ e' he' => ?_⟩, ?_⟩
  · rw [hrows] at he'
    obtain ⟨e, hmem, rfl⟩ := List.mem_map.1 he'
    exact ⟨e, hmem, hterm e (mem_rowsOf.1 hmem).1⟩
  · refine ⟨hr ▸ h.rounds, fun r hmem => (h.roundsBelow r (hr ▸ hmem)).trans_le hn,
      he ▸ Table.keyed_map hid h.evals, fun e' hmem => ?_, fun r hmem hs => ?_, h.early⟩
    · rw [he] at hmem
      obtain ⟨e, hold, rfl⟩ := List.mem_map.1 hmem
      exact (hid e).symm ▸ (h.evalsBelow e hold).trans_le hn
    · rw [hrows, List.length_map]
      exact h.counted r (hr ▸ hmem) hs

/-- A state with the same rounds and evaluations. -/
theorem RoundInv.same (h : RoundInv (db, g)) (hr : db'.rounds = db.rounds)
    (hn : db.nextId ≤ db'.nextId) (he : db'.evaluations = db.evaluations) :
    RoundRely db db' ∧ RoundInv (db', g) :=
  h.map hr hn (f := id) (by rw [he, List.map_id]) (fun _ => rfl) (fun _ => rfl) fun _ _ ht => ht

/-! ## New rows -/

theorem rowsOf_insertEvaluation (db : Db) (runId instanceId id : Nat) (now : Int) (id' : Nat) :
    (db.insertEvaluation runId instanceId (some id) .official now).rowsOf id' =
      db.rowsOf id' ++ if id = id' then
        [.fresh db runId instanceId (some id) .official now] else [] := by
  rw [Db.rowsOf, Db.insertEvaluation, List.filter_append]
  refine congrArg (db.rowsOf id' ++ ·) ?_
  by_cases h : id = id' <;> simp [Evaluation.fresh, h]

/-- The tables with more rows of one round. -/
structure MoreRows (db db' : Db) (roundId n : Nat) : Prop where
  rounds : db'.rounds = db.rounds
  nextId : db.nextId ≤ db'.nextId
  evals : Table.Keyed Evaluation.id db'.evaluations
  evalsBelow : ∀ e ∈ db'.evaluations, e.id < db'.nextId
  others : ∀ id ≠ roundId, db'.rowsOf id = db.rowsOf id
  length : (db'.rowsOf roundId).length = (db.rowsOf roundId).length + n

theorem MoreRows.insert {n : Nat} (h : MoreRows db db' roundId n) (runId instanceId : Nat)
    (now : Int) : MoreRows db
      (db'.insertEvaluation runId instanceId (some roundId) .official now) roundId (n + 1) := by
  refine ⟨h.rounds, h.nextId.trans (Nat.le_succ _), ?_, fun e he => ?_, fun id hid => ?_, ?_⟩
  · exact Table.keyed_append h.evals fun e he => (h.evalsBelow e he).ne
  · rcases List.mem_append.1 he with he | he
    · exact (h.evalsBelow e he).trans (Nat.lt_succ_self _)
    · rw [List.mem_singleton.1 he]
      exact Nat.lt_succ_self _
  · rw [rowsOf_insertEvaluation, if_neg hid.symm, List.append_nil, h.others id hid]
  · rw [rowsOf_insertEvaluation, if_pos rfl, List.length_append, h.length]
    rfl

theorem RoundInv.noRows (h : RoundInv (db, g)) (roundId : Nat) : MoreRows db db roundId 0 :=
  ⟨rfl, Nat.le_refl _, h.evals, h.evalsBelow, fun _ _ => rfl, rfl⟩

theorem MoreRows.insertOfficials {n : Nat} (h : MoreRows db db' roundId n) (runId : Nat) (now : Int)
    (rows : List Nat) : MoreRows db (db'.insertOfficials runId roundId now rows) roundId
      (n + rows.length) := by
  induction rows generalizing db' n with
  | nil => exact h
  | cons i rows ih =>
    have hstep := ih (h.insert runId i now)
    rwa [Nat.add_right_comm] at hstep

/-- A round that is pending gets a row. -/
theorem RoundInv.insert (h : RoundInv (db, g)) {round : FixRound}
    (hround : db.roundById roundId = some round) (hs : round.status = .pending)
    (runId instanceId : Nat) (now : Int) :
    RoundRely db (db.insertEvaluation runId instanceId (some roundId) .official now) ∧
      RoundInv (db.insertEvaluation runId instanceId (some roundId) .official now, g) := by
  have hmore := (h.noRows roundId).insert runId instanceId now
  have hmem := List.mem_of_find?_eq_some hround
  have hkey : round.id = roundId := of_decide_eq_true (List.find?_some hround :)
  refine ⟨⟨fun id ho => ⟨ho.below.trans_le hmore.nextId, ho.status⟩, fun id ho e he => ?_⟩, h.rounds,
    fun r hr => (h.roundsBelow r hr).trans_le hmore.nextId, hmore.evals, hmore.evalsBelow,
    fun r hr hev => ?_, h.early⟩
  · have hne : id ≠ roundId := by
      rintro rfl
      exact ho.status round hmem hkey hs
    rw [hmore.others id hne] at he
    exact ⟨e, he, fun ht => ht⟩
  · have hne : r.id ≠ roundId := by
      intro heq
      rw [Table.eq_of_key h.rounds hr hmem (heq.trans hkey.symm), hs] at hev
      cases hev
    rw [hmore.others r.id hne]
    exact h.counted r hr hev

/-! ## Rounds -/

/-- A round that is pending is opened, or one that was opened is completed. -/
theorem Opened.editRound {f : FixRound → FixRound} (hs : ∀ r, (f r).status ≠ .pending) {id : Nat}
    (h : Opened db id) : Opened (db.editRound roundId f) id := by
  refine ⟨h.below, fun r' hr' heq => ?_⟩
  obtain ⟨r, hr, rfl⟩ := List.mem_map.1 hr'
  split_ifs at heq ⊢
  · exact hs r
  · exact h.status r hr heq

theorem keyed_editRound {f : FixRound → FixRound} (hid : ∀ r, (f r).id = r.id)
    (h : Table.Keyed FixRound.id db.rounds) :
    Table.Keyed FixRound.id (db.editRound roundId f).rounds := by
  refine Table.keyed_map (fun r => ?_) h
  split_ifs
  · exact hid r
  · rfl

theorem below_editRound {f : FixRound → FixRound} (hid : ∀ r, (f r).id = r.id)
    (h : ∀ r ∈ db.rounds, r.id < db.nextId) :
    ∀ r ∈ (db.editRound roundId f).rounds, r.id < db.nextId := by
  intro r' hr'
  obtain ⟨r, hr, rfl⟩ := List.mem_map.1 hr'
  split_ifs
  · exact (hid r).symm ▸ h r hr
  · exact h r hr

theorem undisturbed_iff {rows : List Nat} : db.undisturbed roundId rows = true ↔
    (∃ round, db.roundById roundId = some round ∧ round.status = .pending) ∧
      ∀ i ∈ rows, (db.official roundId i).isNone = true := by
  simp [Db.undisturbed, Option.any_eq_true]

/-- The commit of a transaction whose rows are all the rows of the round. -/
theorem RoundInv.commit (h : RoundInv (db, g)) {rows : List Nat}
    (hfree : db.undisturbed roundId rows = true) (hold : db.rowsOf roundId = []) (runId : Nat)
    (now : Int) : RoundRely db (db.commitRound runId roundId rows now) ∧
      RoundInv (db.commitRound runId roundId rows now, g) := by
  have hmore := (h.noRows roundId).insertOfficials runId now rows
  have hlength : ((db.insertOfficials runId roundId now rows).rowsOf roundId).length =
      rows.length := by
    rw [hmore.length, hold, List.length_nil, Nat.zero_add, Nat.zero_add]
  obtain ⟨⟨round, hround, hs⟩, -⟩ := undisturbed_iff.1 hfree
  have hmem := List.mem_of_find?_eq_some hround
  have hkey : round.id = roundId := of_decide_eq_true (List.find?_some hround :)
  have hid (r : FixRound) : (r.opened rows.length).id = r.id := rfl
  refine ⟨⟨fun id ho => ?_, fun id ho e he => ?_⟩, ?_, ?_, hmore.evals, hmore.evalsBelow,
    fun r' hr' hev => ?_, h.early⟩
  · refine Opened.editRound (fun _ => by nofun) ⟨ho.below.trans_le hmore.nextId, ?_⟩
    exact hmore.rounds ▸ ho.status
  · have hne : id ≠ roundId := by
      rintro rfl
      exact ho.status round hmem hkey hs
    have he : e ∈ (db.insertOfficials runId roundId now rows).rowsOf id := he
    rw [hmore.others id hne] at he
    exact ⟨e, he, fun ht => ht⟩
  · exact keyed_editRound hid (hmore.rounds ▸ h.rounds)
  · refine below_editRound hid fun r hr => ?_
    exact (h.roundsBelow r (hmore.rounds ▸ hr)).trans_le hmore.nextId
  · show r'.expectedEvalCount =
      some ((db.insertOfficials runId roundId now rows).rowsOf r'.id).length
    obtain ⟨r, hr, rfl⟩ := List.mem_map.1 hr'
    split_ifs at hev ⊢ with heq
    · rw [hid, heq, hlength]
      rfl
    · rw [hmore.others r.id heq]
      exact h.counted r (hmore.rounds ▸ hr) hev

theorem RoundInv.complete (h : RoundInv (db, g)) (roundId : Nat) :
    RoundRely db (db.editRound roundId fun r => { r with status := .completed }) ∧
      RoundInv (db.editRound roundId fun r => { r with status := .completed }, g) := by
  have hid (r : FixRound) : { r with status := RoundStatus.completed }.id = r.id := rfl
  refine ⟨⟨fun id ho => ho.editRound fun _ => by nofun, fun id _ e he => ⟨e, he, fun ht => ht⟩⟩,
    keyed_editRound hid h.rounds, below_editRound hid h.roundsBelow, h.evals, h.evalsBelow,
    fun r' hr' hev => ?_, h.early⟩
  obtain ⟨r, hr, rfl⟩ := List.mem_map.1 hr'
  split_ifs at hev ⊢
  exact h.counted r hr hev

theorem RoundInv.insertRound (h : RoundInv (db, g)) (runId : Nat) (w : RoundWindow) :
    RoundRely db (db.insertRound runId w) ∧ RoundInv (db.insertRound runId w, g) := by
  refine ⟨⟨fun id ho => ⟨ho.below.trans (Nat.lt_succ_self _), fun r hr heq => ?_⟩,
    fun id _ e he => ⟨e, he, fun ht => ht⟩⟩, ?_, fun r hr => ?_, h.evals,
    fun e he => (h.evalsBelow e he).trans (Nat.lt_succ_self _), fun r hr hev => ?_, h.early⟩
  · rcases List.mem_append.1 hr with hr | hr
    · exact ho.status r hr heq
    · rw [List.mem_singleton.1 hr] at heq
      exact absurd heq ho.below.ne'
  · exact Table.keyed_append h.rounds fun r hr => (h.roundsBelow r hr).ne
  · rcases List.mem_append.1 hr with hr | hr
    · exact (h.roundsBelow r hr).trans (Nat.lt_succ_self _)
    · rw [List.mem_singleton.1 hr]
      exact Nat.lt_succ_self _
  · rcases List.mem_append.1 hr with hr | hr
    · exact h.counted r hr hev
    · rw [List.mem_singleton.1 hr] at hev
      cases hev

/-- The rounds of a run are deleted, with their rows. -/
theorem RoundInv.rewind (h : RoundInv (db, g)) (runId : Nat) :
    RoundRely db (db.clearFixSession runId) ∧ RoundInv (db.clearFixSession runId, g) := by
  have hrows {e : Evaluation} {id : Nat} (he : e ∈ (db.clearFixSession runId).rowsOf id) :
      e ∈ db.rowsOf id :=
    mem_rowsOf.2 ⟨(List.mem_filter.1 (mem_rowsOf.1 he).1).1, (mem_rowsOf.1 he).2⟩
  have hkept {r : FixRound} (hr : r ∈ db.rounds) (hrun : r.runId ≠ runId) :
      (db.clearFixSession runId).rowsOf r.id = db.rowsOf r.id := by
    rw [Db.rowsOf, Db.clearFixSession, List.filter_filter, Db.rowsOf]
    refine List.filter_congr fun e _ => ?_
    by_cases he : e.fixRoundId = some r.id
    · have hgone (x : FixRound) (hx : x ∈ db.rounds) (hxrun : x.runId = runId) : x.id ≠ r.id := by
        intro heq
        rw [Table.eq_of_key h.rounds hx hr heq] at hxrun
        exact hrun hxrun
      simpa [he] using hgone
    · simp [he]
  refine ⟨⟨fun id ho => ⟨ho.below, fun r hr => ho.status r (List.mem_filter.1 hr).1⟩,
    fun id _ e he => ⟨e, hrows he, fun ht => ht⟩⟩, ?_, fun r hr => ?_, ?_, fun e he => ?_,
    fun r hr hev => ?_, h.early⟩
  · exact List.Nodup.sublist (List.filter_sublist.map _) h.rounds
  · exact h.roundsBelow r (List.mem_filter.1 hr).1
  · exact List.Nodup.sublist (List.filter_sublist.map _) h.evals
  · exact h.evalsBelow e (List.mem_filter.1 he).1
  · obtain ⟨hr, hrun⟩ := List.mem_filter.1 hr
    rw [hkept hr (of_decide_eq_true hrun)]
    exact h.counted r hr hev

/-! ## Statements of the evaluation programs -/

/-- One row is written, and a terminal one stays terminal. -/
theorem RoundInv.edit (h : RoundInv (db, g)) {id : Nat} {row : Evaluation}
    {f : Evaluation → Evaluation} (hrow : db.evaluationById id = some row)
    (hid : ∀ e, (f e).id = e.id) (hround : ∀ e, (f e).fixRoundId = e.fixRoundId)
    (hterm : row.status.terminal = true → (f row).status.terminal = true) :
    RoundRely db (db.editEvaluation id f) ∧ RoundInv (db.editEvaluation id f, g) := by
  obtain ⟨hmem, hrowId⟩ := Table.mem_of_find hrow
  refine h.map rfl (Nat.le_refl _) rfl (fun e => ?_) (fun e => ?_) fun e he ht => ?_
  · split_ifs
    · exact hid e
    · rfl
  · split_ifs
    · exact hround e
    · rfl
  · split_ifs with heid
    · have heq : e = row := Table.eq_of_key h.evals he hmem (heid.trans hrowId.symm)
      rw [heq] at ht ⊢
      exact hterm ht
    · exact ht

/-- A claim takes back and hands out rows that are not terminal. -/
theorem RoundInv.claim (h : RoundInv (db, g)) (q : ClaimQuery) (draw : Draw) (now : Int) :
    RoundRely db (db.claimJobs c q draw now).1 ∧ RoundInv ((db.claimJobs c q draw now).1, g) := by
  refine h.map rfl (Nat.le_refl _) claimJobs_evaluations (fun e => ?_) (fun e => ?_)
    fun e he ht => ?_
  · simp only [Db.claimRow, Evaluation.refreshed]
    split_ifs <;> rfl
  · simp only [Db.claimRow, Evaluation.refreshed]
    split_ifs <;> rfl
  · have hsame : e.refreshed c now = e := if_neg fun hstale => by
      rw [Evaluation.stale, decide_eq_true_eq] at hstale
      rw [hstale.1] at ht
      cases ht
    have hcases : db.claimRow c q draw now e = e.refreshed c now ∨ _ := claimRow_cases h.evals he
    rcases hcases with hr | hr
    · rwa [hr, hsame]
    · rw [hsame] at hr
      rw [hr.1] at ht
      cases ht

/-- A statement of the evaluation programs. -/
theorem RoundInv.evalStep (h : RoundInv (db, g)) {j : RoundJob} {l : Stmt}
    (hok : Timely j (.core l) (db, g)) (hs : EvalStep c l db db') :
    RoundRely db db' ∧ RoundInv (db', g) := by
  rcases hs with ⟨-, hsame⟩ | hs
  · exact h.same hsame.rounds (Nat.le_of_eq hsame.nextId.symm) hsame.evaluations
  · cases l
    case claimJobs q now =>
      obtain ⟨draw, rfl⟩ := hs
      exact h.claim q draw now
    case heartbeat id workerId token =>
      obtain ⟨row, hrow, hv, rfl⟩ := hs
      exact h.edit hrow (fun _ => rfl) (fun _ => rfl) fun ht => ht
    case finishWithLease reporter lease status =>
      obtain ⟨ht, row, outputs, hrow, hv, rfl⟩ := hs
      exact h.edit hrow (fun _ => rfl) (fun _ => rfl) fun _ => ht
    case releaseOrFail reporter lease detail =>
      obtain ⟨row, hrow, hv, rfl⟩ := hs
      have hrunning := (Evaluation.heldBy_iff.1 (Evaluation.heldBy_of_givesBack hv)).1
      refine h.edit hrow (fun e => ?_) (fun e => ?_) fun ht => ?_
      · unfold Evaluation.givenBack
        split_ifs <;> rfl
      · unfold Evaluation.givenBack
        split_ifs <;> rfl
      · rw [hrunning] at ht
        cases ht
    case finish id status =>
      obtain ⟨ht, row, outputs, hrow, rfl⟩ := hs
      exact h.edit hrow (fun _ => rfl) (fun _ => rfl) fun _ => ht
    case createOfficial runId instanceId fixRoundId =>
      obtain ⟨hnone, hround, now, rfl⟩ := hs
      obtain ⟨round, hround⟩ := Option.isSome_iff_exists.1 hround
      have hpending : (db.roundById fixRoundId).all (·.status = .pending) = true := by
        refine Or.resolve_left hok ?_
        rw [hnone]
        nofun
      rw [hround, Option.all_some, decide_eq_true_iff] at hpending
      exact h.insert hround hpending runId instanceId now
    case createScore s =>
      obtain ⟨-, eventId, rfl⟩ := hs
      exact h.same rfl (Nat.le_succ _) rfl
    case resetInstance id =>
      obtain ⟨generation, rfl⟩ := hs
      exact h.same rfl (Nat.le_refl _) rfl
    case endPractice runId =>
      obtain ⟨runs, rfl⟩ := hs
      exact h.same rfl (Nat.le_refl _) rfl
    all_goals cases hs

/-! ## The programs -/

/-- Reads, by their labels. -/
def CalmStep (l : Stmt) (db db' : Db) : Prop :=
  l.quiet = true ∧ ∃ locks, db' = { db with locks := locks }

instance : Reads CalmStep := ⟨fun _ _ locks hl => ⟨hl, locks, rfl⟩⟩

/-- A step of a program beside the transactions. -/
def CoreStep (T : Stmt → Db → Db → Prop) : RoundStmt → Db → Db → Prop
  | .core l, db, db' => T l db db'
  | _, _, _ => False

theorem does_beside {T : Stmt → Db → Db → Prop} {α : Type} {p : AwdpM α} (hp : p.Does T) :
    (beside p).Does (CoreStep T) := by
  unfold beside
  refine Prog.Does.zoom ?_ hp
  exact fun _ _ _ h => h

section Law

variable (c : Settings)

/-- The law of the rounds. -/
def roundLaw : Law (roundSystem c) where
  rely v v' := RoundRely v.1 v'.1
  guar _ v v' := RoundRely v.1 v'.1
  inv := RoundInv
  cond := Timely
  refl v := .refl v.1
  trans h h' := h.trans h'
  guar_refl _ v := .refl v.1
  rely_of_guar h := h

variable {c} {j : RoundJob} {α : Type}

theorem safe_evaluation (j : EvalJob) : (roundLaw c).Safe (.evaluation j) (fun _ _ => True)
    (beside (j.prog c)) v := by
  refine Law.safe_of_does (does_beside (does_evalJob c j)) fun l db db' g hi hc ht => ?_
  cases l with
  | core l => exact hi.evalStep (j := .evaluation j) hc ht
  | _ => exact ht.elim

/-- Statements that only read. -/
theorem safe_reads {p : RoundM α} (hp : p.Does fun l db db' => db' = db ∧ ∀ l', l ≠ .core l') :
    (roundLaw c).Safe j (fun _ _ => True) p v := by
  refine Law.safe_of_does hp fun l db db' g hi _ hl => ?_
  obtain ⟨rfl, hcore⟩ := hl
  have hnote : noteEarly j l db' g = g := by
    unfold noteEarly
    split
    · exact absurd rfl (hcore _)
    · rfl
  show RoundRely db' db' ∧ RoundInv (db', noteEarly j l db' g)
  rw [hnote]
  exact ⟨.refl _, hi⟩

theorem safe_calm {p : AwdpM α} (hp : p.Does CalmStep) :
    (roundLaw c).Safe j (fun _ _ => True) (beside p) v := by
  refine Law.safe_of_does (does_beside hp) fun l db db' g hi _ ht => ?_
  cases l with
  | core l =>
    obtain ⟨hquiet, locks, rfl⟩ := ht
    have hnote : noteEarly j (.core l) db g = g := by
      cases l with
      | completeRound id => cases hquiet
      | _ => cases j <;> rfl
    show RoundRely db { db with locks := locks } ∧ RoundInv (_, noteEarly j (.core l) db g)
    rw [hnote]
    exact hi.same rfl (Nat.le_refl _) rfl
  | _ => exact ht.elim

theorem reads_visitInstance (roundId : Nat) (rows : List Nat) (ext : Instance) :
    (visitInstance roundId rows ext).Does fun l db db' => db' = db ∧ ∀ l', l ≠ .core l' := by
  refine Prog.does_bind (Prog.does_query (fun _ => ⟨rfl, by simp⟩) _ _) fun found => ?_
  cases found with
  | none => trivial
  | some i =>
    refine Prog.does_ite trivial ?_
    refine Prog.does_bind (Prog.does_query (fun _ => ⟨rfl, by simp⟩) _ _) fun found => ?_
    exact Prog.does_ite trivial (Prog.does_query (fun _ => ⟨rfl, by simp⟩) _ _)

theorem reads_visitInstances (roundId : Nat) (exts : List Instance) (rows : List Nat) :
    (visitInstances roundId exts rows).Does fun l db db' => db' = db ∧ ∀ l', l ≠ .core l' := by
  induction exts generalizing rows with
  | nil => trivial
  | cons ext exts ih =>
    refine Prog.does_bind (reads_visitInstance roundId rows ext) fun visit => ?_
    cases visit with
    | skipped => exact ih rows
    | inserted => exact ih _
    | taken => trivial

theorem safe_commitRound (runId roundId : Nat) (rows : List Nat) (now now' : Int) :
    (roundLaw c).Safe (.materialize runId roundId now') (fun _ _ => True)
      (commitRound runId roundId rows now) v := by
  refine Law.safe_exec (fun _ _ => rfl) fun v' _ hi hold db' a h => ?_
  split_ifs at h with hfree
  cases h
  obtain ⟨hr, hinv⟩ := RoundInv.commit hi hfree hold runId now
  exact ⟨hr, hinv, trivial⟩

theorem safe_materializeRoundInner (runId roundId : Nat) (now now' : Int) (retried : Bool) :
    (roundLaw c).Safe (.materialize runId roundId now') (fun _ _ => True)
      (materializeRoundInner runId roundId now retried) v := by
  have hread {l : RoundStmt} (hl : ∀ l', l ≠ .core l') (e : AwdpError) {β : Type} (f : Db → β)
      (v : Db × List Nat) : (roundLaw c).Safe (.materialize runId roundId now') (fun _ _ => True)
        (Prog.query l e f) v :=
    safe_reads (Prog.does_query (fun _ => ⟨rfl, hl⟩) e f)
  refine Law.safe_seq (hread (by simp) _ _ v) fun found v1 _ => ?_
  cases found with
  | none => trivial
  | some current =>
    refine Law.safe_ite (fun _ => trivial) fun _ => ?_
    refine Law.safe_seq (hread (by simp) _ _ v1) fun exts v2 _ => ?_
    refine Law.safe_seq (safe_reads (reads_visitInstances roundId exts [])) fun rows v3 _ => ?_
    cases rows with
    | none => exact Law.safe_ite (fun _ => trivial) fun _ => trivial
    | some rows =>
      exact Law.safe_seq (safe_commitRound runId roundId rows now now') fun _ _ _ => trivial

theorem safe_materializeRoundTxn (runId roundId : Nat) (now now' : Int) :
    (roundLaw c).Safe (.materialize runId roundId now') (fun _ _ => True)
      (materializeRoundTxn runId roundId now) v := by
  refine Law.safe_seq (safe_materializeRoundInner runId roundId now now' false) fun first v1 _ => ?_
  cases first with
  | some expected => trivial
  | none =>
    refine Law.safe_seq (safe_materializeRoundInner runId roundId now now' true) fun again v2 _ => ?_
    cases again <;> trivial

theorem terminal_of_finishedBy {r : FixRound} {rows : List Evaluation}
    (h : r.finishedBy rows = true) : ∀ e ∈ rows, e.status.terminal = true := by
  unfold FixRound.finishedBy at h
  split at h <;> exact List.all_eq_true.1 (of_decide_eq_true h).2

theorem RoundInv.opened (h : RoundInv (db, g)) {r : FixRound} (hr : r ∈ db.rounds)
    (hs : r.status = .evaluating) : Opened db r.id := by
  refine ⟨h.roundsBelow r hr, fun r' hr' heq => ?_⟩
  rw [Table.eq_of_key h.rounds hr' hr heq, hs]
  nofun

/-- Where the rows of a round were all terminal, they are when it is completed. -/
theorem safe_completeRound (ho : Opened v.1 roundId)
    (hrows : ∀ e ∈ v.1.rowsOf roundId, e.status.terminal = true) :
    (roundLaw c).Safe .complete (fun _ _ => True) (beside (completeRound roundId)) v := by
  rw [beside, completeRound, Prog.zoom_bind]
  refine Law.safe_seq (safe_calm (does_findRound roundId)) fun _ v1 hr1 => ?_
  rw [Prog.zoom_exec fun _ => rfl]
  refine Law.safe_exec_seen fun v2 hr2 hi _ => ?_
  obtain ⟨db, g⟩ := v2
  have hr : RoundRely v.1 db := hr1.trans hr2
  have hterm : (db.rowsOf roundId).all (·.status.terminal) = true := by
    refine List.all_eq_true.2 fun e' he' => ?_
    obtain ⟨e, he, ht⟩ := hr.rows roundId ho e' he'
    exact ht (hrows e he)
  have hnote : noteEarly .complete (.core (.completeRound roundId)) db g = g := if_pos hterm
  simp only [System.after, roundSystem, hnote, Prog.after]
  cases hround : db.roundById roundId with
  | none => exact ⟨.refl db, hi, fun _ _ _ => trivial⟩
  | some round =>
    obtain ⟨hrely, hinv⟩ := RoundInv.complete hi roundId
    exact ⟨hrely, hinv, fun _ _ _ => trivial⟩

theorem completeFinished_eq (round : FixRound) : completeFinished round =
    select (·.rowsOf round.id) >>= fun all =>
      if round.finishedBy all then completeRound round.id else pure () := rfl

theorem safe_completeFinished {round : FixRound} (ho : Opened v.1 round.id) :
    (roundLaw c).Safe .complete (fun _ _ => True) (beside (completeFinished round)) v := by
  rw [beside, completeFinished_eq, Prog.zoom_bind, select, Prog.zoom_query fun _ => rfl]
  refine Law.safe_bind (Law.safe_query (fun _ _ => rfl) fun v1 hr1 _ _ => ?_)
  by_cases hf : round.finishedBy (v1.1.rowsOf round.id) = true
  · rw [if_pos hf]
    exact safe_completeRound (hr1.opened _ ho) (terminal_of_finishedBy hf)
  · rw [if_neg hf]
    trivial

theorem safe_completeFinishedRounds :
    (roundLaw c).Safe .complete (fun _ _ => True) (beside completeFinishedRounds) v := by
  rw [beside, completeFinishedRounds, Prog.zoom_bind, select, Prog.zoom_query fun _ => rfl]
  refine Law.safe_bind (Law.safe_query (fun _ _ => rfl) fun v1 _ hi _ => ?_)
  rw [Prog.zoom_each]
  have hopen : ∀ r ∈ v1.1.rounds.filter (·.status = .evaluating), Opened v1.1 r.id := by
    intro r hr
    obtain ⟨hr, hs⟩ := List.mem_filter.1 hr
    exact RoundInv.opened hi hr (of_decide_eq_true hs)
  refine (Law.safe_each (P := fun v => ∀ r ∈ v1.1.rounds.filter (·.status = .evaluating),
    Opened v.1 r.id) (fun r hr v2 hv2 => ?_) hopen).imp fun _ _ _ => trivial
  refine (safe_completeFinished (hv2 r hr)).and_rely.imp fun _ v3 hv3 => ?_
  exact fun r' hr' => hv3.2.opened _ (hv2 r' hr')

theorem roundLaw_keeps : (roundLaw c).Keeps where
  prog j v _ := by
    cases j with
    | materialize runId roundId now =>
      exact Law.safe_seq (safe_materializeRoundTxn runId roundId now now) fun _ _ _ => trivial
    | complete => exact safe_completeFinishedRounds
    | evaluation j => exact safe_evaluation j
  env e v h := by
    cases e with
    | advance secs => exact RoundInv.same h rfl (Nat.le_refl _) rfl
    | runs rows => exact RoundInv.same h rfl (Nat.le_refl _) rfl
    | instances rows => exact RoundInv.same h rfl (Nat.le_refl _) rfl
    | rewind runId => exact RoundInv.rewind h runId
    | insertRound runId w =>
      simp only [roundSystem, RoundEnv.act]
      split_ifs
      · exact ⟨.refl _, h⟩
      · exact RoundInv.insertRound h runId w

end Law

/-! ## One pass over the rounds -/

/-- An evaluating round that has evaluations, all of them terminal. -/
def Db.finished (db : Db) (r : FixRound) : Bool :=
  r.status = .evaluating ∧ db.rowsOf r.id ≠ [] ∧ (db.rowsOf r.id).all (·.status.terminal)

/-- One of the rounds `rs` has this id, and is completed. -/
def Db.completes (db : Db) (rs : List FixRound) (id : Nat) : Bool :=
  rs.any fun x => x.id = id ∧ x.finishedBy (db.rowsOf x.id)

/-- The round after a pass over `rs`. -/
def FixRound.passed (db : Db) (rs : List FixRound) (r : FixRound) : FixRound :=
  if db.completes rs r.id then { r with status := .completed } else r

theorem id_passed (db : Db) (rs : List FixRound) (r : FixRound) : (r.passed db rs).id = r.id := by
  unfold FixRound.passed
  split_ifs <;> rfl

theorem passed_cons (db : Db) (r : FixRound) (rs : List FixRound) (x : FixRound) :
    (x.passed db [r]).passed db rs = x.passed db (r :: rs) := by
  have hcons : db.completes (r :: rs) x.id = (db.completes [r] x.id || db.completes rs x.id) := by
    simp [Db.completes]
  unfold FixRound.passed
  rw [hcons]
  cases db.completes [r] x.id <;> cases hrs : db.completes rs x.id <;> simp [hrs]

/-- The tables after a pass over `rs`. -/
def Db.pass (db : Db) (rs : List FixRound) : Db :=
  { db with rounds := db.rounds.map (·.passed db rs) }

theorem run_completeFinished {r : FixRound} (hr : (db.roundById r.id).isSome = true) :
    (completeFinished r).run (fun _ => true) db = (db.pass [r], .ok ()) := by
  obtain ⟨found, hfound⟩ := Option.isSome_iff_exists.1 hr
  have hselect {α : Type} (f : Db → α) : (select f).run (fun _ => true) db = (db, .ok (f db)) := rfl
  rw [completeFinished_eq, Prog.run_bind, hselect]
  by_cases hf : r.finishedBy (db.rowsOf r.id) = true
  · have hpassed (x : FixRound) : x.passed db [r] =
        if x.id = r.id then { x with status := .completed } else x := by
      have hdone : db.completes [r] x.id = decide (r.id = x.id) := by
        simp [Db.completes, hf]
      simp only [FixRound.passed, hdone, decide_eq_true_eq, @eq_comm _ r.id]
    simp only [hf, ↓reduceIte, completeRound, findRound, Prog.run_bind, hselect, hfound, ofOption,
      Prog.run_pure, Prog.run_exec, Db.editRound, Db.pass, hpassed]
  · have hsame (x : FixRound) : x.passed db [r] = x := by
      simp [FixRound.passed, Db.completes, hf]
    simp only [hf, Bool.false_eq_true, ↓reduceIte, Prog.run_pure, Db.pass, hsame, List.map_id']

theorem run_completeEach (rs : List FixRound) :
    ∀ db : Db, (∀ r ∈ rs, (db.roundById r.id).isSome = true) →
      (Prog.each rs completeFinished).run (fun _ => true) db = (db.pass rs, .ok ()) := by
  induction rs with
  | nil =>
    intro db _
    have hsame (x : FixRound) : x.passed db [] = x := rfl
    simp only [Prog.each, Prog.run_ret, Db.pass, hsame, List.map_id']
  | cons r rs ih =>
    intro db hrs
    have hrest (x : FixRound) (hx : x ∈ rs) : ((db.pass [r]).roundById x.id).isSome = true := by
      have hfind : (db.pass [r]).roundById x.id =
          (db.roundById x.id).map (·.passed db [r]) := Table.find_map (id_passed db [r]) _ _
      rw [hfind, Option.isSome_map]
      exact hrs x (List.mem_cons_of_mem r hx)
    have hpass : (db.pass [r]).pass rs = db.pass (r :: rs) := by
      simp only [Db.pass, List.map_map]
      refine congrArg (fun rounds => { db with rounds }) (List.map_congr_left fun x _ => ?_)
      exact passed_cons db r rs x
    rw [Prog.each, ← Prog.bind_eq_bind, Prog.run_bind, run_completeFinished (hrs r List.mem_cons_self)]
    simp only [ih _ hrest, hpass]

theorem run_completeFinishedRounds (h : RoundInv (db, g)) :
    completeFinishedRounds.run (fun _ => true) db =
      (db.pass (db.rounds.filter (·.status = .evaluating)), .ok ()) := by
  refine run_completeEach _ db fun r hr => ?_
  have hfind : db.roundById r.id = some r := Table.find_of_mem h.rounds (List.mem_filter.1 hr).1
  rw [hfind]
  rfl

/-- Under the invariant the pass completes a round for its rows alone. -/
theorem RoundInv.finishedBy (h : RoundInv (db, g)) {r : FixRound} (hr : r ∈ db.rounds)
    (hs : r.status = .evaluating) : r.finishedBy (db.rowsOf r.id) = true ↔
      db.rowsOf r.id ≠ [] ∧ (db.rowsOf r.id).all (·.status.terminal) = true := by
  have hcount := h.counted r hr hs
  generalize db.rowsOf r.id = rows at hcount ⊢
  cases rows with
  | nil => simp [FixRound.finishedBy, hcount]
  | cons e rows => simp [FixRound.finishedBy, hcount]

theorem finished_iff {r : FixRound} : db.finished r = true ↔ r.status = .evaluating ∧
    db.rowsOf r.id ≠ [] ∧ (db.rowsOf r.id).all (·.status.terminal) = true :=
  decide_eq_true_iff

theorem RoundInv.passed (h : RoundInv (db, g)) {r : FixRound} (hr : r ∈ db.rounds) :
    r.passed db (db.rounds.filter (·.status = .evaluating)) =
      if db.finished r then { r with status := .completed } else r := by
  have hcompletes : db.completes (db.rounds.filter (·.status = .evaluating)) r.id =
      db.finished r := by
    rw [Bool.eq_iff_iff, Db.completes, List.any_eq_true, finished_iff]
    constructor
    · rintro ⟨x, hx, hboth⟩
      obtain ⟨hid, hdone⟩ := of_decide_eq_true hboth
      obtain ⟨hx, hs⟩ := List.mem_filter.1 hx
      obtain rfl := Table.eq_of_key h.rounds hx hr hid
      exact ⟨of_decide_eq_true hs, (h.finishedBy hr (of_decide_eq_true hs)).1 hdone⟩
    · rintro ⟨hs, hdone⟩
      have hmem : r ∈ db.rounds.filter (·.status = .evaluating) :=
        List.mem_filter.2 ⟨hr, decide_eq_true hs⟩
      exact ⟨r, hmem, decide_eq_true ⟨rfl, (h.finishedBy hr hs).2 hdone⟩⟩
  rw [FixRound.passed, hcompletes]

/-! ## Runs -/

/-- What is claimed of a reachable state. -/
structure RoundsKept (db : Db) (early : List Nat) : Prop where
  /-- The snapshot of a round that is evaluating is the number of its evaluations. -/
  counted : ∀ r ∈ db.rounds, r.status = .evaluating →
    r.expectedEvalCount = some (db.rowsOf r.id).length
  /-- No round was completed while one of its evaluations was pending or running. -/
  early : early = []
  /-- A pass over the rounds completes those that are finished, and no others: a round without an
  evaluation stays as it is. -/
  completed : ∀ r ∈ db.rounds,
    (completeFinishedRounds.run (fun _ => true) db).1.roundById r.id =
      some (if db.finished r then { r with status := .completed } else r)
  /-- The round whose turn it is after a pass is not a finished one. -/
  due : ∀ runId r, ((nextDueRound runId).run (fun _ => true)
    (completeFinishedRounds.run (fun _ => true) db).1).2 = .ok (some r) →
      (completeFinishedRounds.run (fun _ => true) db).1.finished r = false

theorem RoundInv.kept (h : RoundInv (db, g)) : RoundsKept db g where
  counted := h.counted
  early := h.early
  completed r hr := by
    let rs := db.rounds.filter (·.status = .evaluating)
    have hfind : (db.pass rs).roundById r.id = (db.roundById r.id).map (·.passed db rs) :=
      Table.find_map (id_passed db rs) _ _
    have hround : db.roundById r.id = some r := Table.find_of_mem h.rounds hr
    rw [run_completeFinishedRounds h, hfind, hround, Option.map_some, h.passed hr]
  due runId r hdue := by
    rw [run_completeFinishedRounds h] at hdue ⊢
    have hhead : _ = some r := Except.ok.inj hdue
    have hmem := List.mem_of_mem_head? hhead
    rw [List.mem_insertionSort] at hmem
    obtain ⟨r₀, hr₀, rfl⟩ := List.mem_map.1 (List.mem_filter.1 hmem).1
    rw [h.passed hr₀]
    split_ifs with hf
    · exact decide_eq_false fun hs => nomatch hs.1
    · rw [Bool.not_eq_true] at hf
      exact hf

/-- Every run of materialisations, checks and passes under the condition. -/
theorem roundsKept_run (c : Settings) (db : Db) (hdb : RoundInv (db, []))
    (acts : List (Act RoundJob RoundEnv))
    (hacts : Along (roundSystem c).step (Meets Timely) (RoundPool.initial db) acts) :
    let w := acts.foldl (roundSystem c).step (RoundPool.initial db)
    RoundsKept w.state w.ghost := by
  have hstart : (roundLaw c).PoolOk (RoundPool.initial db) := ⟨hdb, List.forall_mem_nil _⟩
  exact RoundInv.kept (Law.poolOk_run roundLaw_keeps hstart hacts).1.inv

/-! ## The check of all rounds comes in between, and a round nobody plays -/

/-- The first round is due, and the instance is running. -/
def dueDb : Db :=
  { practiceDb with
    rounds := [{ practiceRound with status := .pending, expectedEvalCount := none }]
    evaluations := [] }

/-- The same, and the instance was never started. -/
def unplayedDb : Db :=
  { dueDb with instances := [{ practiceInstance with runtimeState := .pending }] }

theorem dueDb_roundInv : RoundInv (dueDb, []) := by
  refine ⟨by decide, by decide, by decide, by decide, fun r hr hs => ?_, rfl⟩
  rw [List.mem_singleton.1 hr] at hs
  cases hs

/-- A round is materialised. -/
def openActs : List (Act RoundJob RoundEnv) :=
  .spawn (.materialize 1 5 4210) :: List.replicate 10 (.step 0 true)

/-- The transaction has seen that there is no row, then the owner lets all rounds be checked. -/
def betweenActs : List (Act RoundJob RoundEnv) :=
  .spawn (.materialize 1 5 4210) :: List.replicate 4 (.step 0 true) ++
    [.spawn (.evaluation (.allCheck 1 6 ⟨some 4, none⟩ (probeOf true)))] ++
    List.replicate 16 (.step 1 true) ++ List.replicate 20 (.step 0 true)

/-- The second attempt finds the row and counts none; and a round without rows is what it was after a
pass, and the next one that is due. -/
theorem not_roundsKept :
    let between := (betweenActs.foldl (roundSystem practiceSettings).step
      (RoundPool.initial dueDb)).state
    let unplayed := (openActs.foldl (roundSystem practiceSettings).step
      (RoundPool.initial unplayedDb)).state
    between.rounds = [{ practiceRound with expectedEvalCount := some 0 }] ∧
      (between.rowsOf 5).map (·.status) = [.pending] ∧
      unplayed.rounds = [{ practiceRound with expectedEvalCount := some 0 }] ∧
      unplayed.rowsOf 5 = [] ∧
      completeFinishedRounds.run (fun _ => true) unplayed = (unplayed, .ok ()) ∧
      ((nextDueRound 1).run (fun _ => true) unplayed).2 =
        .ok (some { practiceRound with expectedEvalCount := some 0 }) := by
  decide +kernel

/-- The worker finds the instance patched, and the round is completed. -/
def completedActs : List (Act RoundJob RoundEnv) :=
  openActs ++ [.spawn (.evaluation (.worker "worker" 4 [] practiceDraw fun _ => probeOf true))] ++
    List.replicate 30 (.step 1 true) ++ [.spawn .complete] ++ List.replicate 6 (.step 2 true)

theorem roundsKept_run_completed :
    let w := completedActs.foldl (roundSystem practiceSettings).step (RoundPool.initial dueDb)
    Along (roundSystem practiceSettings).step (Meets Timely) (RoundPool.initial dueDb)
        completedActs ∧
      w.state.rounds = [{ practiceRound with status := .completed }] ∧
      RoundsKept w.state w.ghost :=
  ⟨by decide +kernel, by decide +kernel,
    roundsKept_run practiceSettings dueDb dueDb_roundInv completedActs (by decide +kernel)⟩

end FloatCtf.Awdp
