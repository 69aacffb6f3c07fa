import FloatCtf.Process.Trace
import Mathlib.Data.List.Pairwise

/-!
# Transactions that insert and delete rows

A store holds versions of rows of type `R`.  A version carries the transaction that has inserted it
and the one that has deleted it, as long as these have not ended: a transaction (`Txn`) sees the
committed rows and its own when a statement starts, and nobody else sees what it does before it
commits.  A row has unique keys and refers to other rows by theirs; the deletion of a row takes the
rows that refer to it along.  A statement that would touch what another transaction has inserted,
deleted or locked waits for it.

`Txn.Safe` is the weakest precondition of a transaction, whatever the others do between its
statements (`Rows.Beside`), and `dbOk_run` is the rule: in every run the keys are distinct, every
row finds the rows it refers to, and the committed rows have each property that a commit
keeps. -/

namespace Process

variable {L E R K ε α β J A P : Type}

/-! ## Programs -/

/-- A transaction that returns an `α`, or raises an `ε` and is rolled back.  The argument of a new
row is its fresh identifier; a deletion has a label and returns the number of rows it meets. -/
inductive Txn (L E R K ε α : Type) : Type where
  | ret (a : α)
  | fail (e : ε)
  | read (ok : E → List R → Txn L E R K ε α)
  | lock (k : K) (ok : E → Txn L E R K ε α)
  | insert (row : Nat → R) (ok : Nat → Txn L E R K ε α) (taken orphan : ε)
  | delete (l : L) (p : R → Bool) (ok : Nat → Txn L E R K ε α)

namespace Txn

/-- One transaction after the other; a failure ends both. -/
def bind : Txn L E R K ε α → (α → Txn L E R K ε β) → Txn L E R K ε β
  | ret a, f => f a
  | fail e, _ => fail e
  | read ok, f => read fun env rows => (ok env rows).bind f
  | lock k ok, f => lock k fun env => (ok env).bind f
  | insert row ok taken orphan, f => insert row (fun n => (ok n).bind f) taken orphan
  | delete l p ok, f => delete l p fun n => (ok n).bind f

instance : Monad (Txn L E R K ε) where
  pure := ret
  bind := bind

theorem bind_eq_bind (p : Txn L E R K ε α) (f : α → Txn L E R K ε β) : p >>= f = p.bind f := rfl

theorem bind_assoc {γ : Type} (p : Txn L E R K ε α) (f : α → Txn L E R K ε β)
    (g : β → Txn L E R K ε γ) : p >>= f >>= g = p >>= fun a => f a >>= g := by
  simp only [bind_eq_bind]
  induction p with
  | ret a => rfl
  | fail e => rfl
  | read ok ih => exact congrArg _ (funext fun env => funext fun rows => ih env rows)
  | lock k ok ih => exact congrArg _ (funext ih)
  | insert row ok taken orphan ih =>
    exact congrArg (fun ok' => insert row ok' taken orphan) (funext ih)
  | delete l p ok ih => exact congrArg _ (funext ih)

/-- Reads what `f` needs of the rows. -/
def query (f : List R → α) : Txn L E R K ε α := read fun _ rows => ret (f rows)

/-- Reads what `f` needs of the environment. -/
def ask (f : E → α) : Txn L E R K ε α := read fun env _ => ret (f env)

/-- Locks a row and reads what `f` needs of the environment. -/
def lockRow (k : K) (f : E → α) : Txn L E R K ε α := lock k fun env => ret (f env)

/-- Inserts a row and answers its id. -/
def insertRow (row : Nat → R) (taken orphan : ε) : Txn L E R K ε Nat := insert row ret taken orphan

/-- Deletes the rows that meet `p` and answers their number. -/
def deleteRows (l : L) (p : R → Bool) : Txn L E R K ε Nat := delete l p ret

end Txn

/-! ## Versions -/

/-- A row with the open transactions that have inserted and deleted it. -/
structure Version (R : Type) where
  row : R
  ins : Option Nat
  del : Option Nat
  deriving DecidableEq

/-- The unique keys of a row, the keys of the rows it refers to and is deleted with, and the keys of
the rows that an insert of it locks besides. -/
structure Schema (R K : Type) where
  keys : R → List K
  refs : R → List K
  shares : R → List K

/-- No row refers to one that refers to another. -/
def Schema.Flat (S : Schema R K) : Prop :=
  ∀ r r' k, k ∈ S.keys r → k ∈ S.refs r' → S.refs r = []

/-- The environment, the versions of the rows, the locks and the next id. -/
structure Rows (E R K : Type) where
  env : E
  versions : List (Version R)
  locks : List (Nat × K)
  nextId : Nat

/-- Nobody but the transaction `i` has left the mark. -/
def free (i : Nat) (mark : Option Nat) : Bool := mark.all (· = i)

namespace Version

/-- The transaction `i` sees the version. -/
def seenBy (v : Version R) (i : Nat) : Bool := free i v.ins && v.del != some i

/-- The version after the transaction `i` has committed. -/
def settled (v : Version R) (i : Nat) : Version R :=
  { v with ins := if v.ins = some i then none else v.ins }

/-- The version after the transaction `i` was rolled back. -/
def revived (v : Version R) (i : Nat) : Version R :=
  { v with del := if v.del = some i then none else v.del }

/-- The version after the transaction `i` has deleted it. -/
def condemned (v : Version R) (i : Nat) : Version R := { v with del := some i }

end Version

namespace Rows

/-- The rows that a transaction sees: what is committed, and its own. -/
def visible (s : Rows E R K) (i : Nat) : List R :=
  (s.versions.filter (·.seenBy i)).map (·.row)

/-- The rows that every transaction has settled. -/
def committed (s : Rows E R K) : List R := (s.versions.filter (·.ins.isNone)).map (·.row)

variable [DecidableEq K]

/-- Somebody else has locked one of the keys. -/
def lockedBeside (s : Rows E R K) (i : Nat) (ks : List K) : Bool :=
  s.locks.any fun l => l.1 != i && ks.contains l.2

/-! ### Inserts -/

/-- Two lists of keys have one in common. -/
def meets (ks ks' : List K) : Bool := ks.any ks'.contains

/-- How an insert is answered. -/
inductive Answer where
  | waits
  | taken
  | orphan
  | done
  deriving DecidableEq

/-- An insert waits for a key in doubt, fails on a taken key or on a reference to nothing, or is
done. -/
def answerInsert (S : Schema R K) (s : Rows E R K) (i : Nat) (r : R) : Answer :=
  if s.versions.any fun v => meets (S.keys r) (S.keys v.row) && (free i v.ins && free i v.del) then
    .taken
  else if s.versions.any fun v => meets (S.keys r) (S.keys v.row) then .waits
  else if (S.refs r).any fun k => s.versions.all fun v => !((S.keys v.row).contains k && v.seenBy i)
  then .orphan
  else if (s.versions.any fun v => meets (S.refs r) (S.keys v.row) && !free i v.del) ||
      s.lockedBeside i (S.refs r ++ S.shares r) then .waits
  else .done

/-- Adds a version for the row. -/
def insert (s : Rows E R K) (i : Nat) (r : R) : Rows E R K :=
  { s with versions := s.versions ++ [⟨r, some i, none⟩], nextId := s.nextId + 1 }

/-! ### Deletions -/

/-- The version is deleted with the rows of `p`: it is one of them or refers to one. -/
def doomed (S : Schema R K) (s : Rows E R K) (i : Nat) (p : R → Bool) (v : Version R) : Bool :=
  (v.seenBy i && p v.row) ||
    s.versions.any fun t => t.seenBy i && p t.row && meets (S.refs v.row) (S.keys t.row)

/-- A delete waits while one of its rows is in doubt or locked by another. -/
def deleteWaits (S : Schema R K) (s : Rows E R K) (i : Nat) (p : R → Bool) : Bool :=
  s.versions.any fun v => s.doomed S i p v &&
    (!(free i v.ins && free i v.del) || s.lockedBeside i (S.keys v.row))

/-- Marks the rows of the delete. -/
def delete (S : Schema R K) (s : Rows E R K) (i : Nat) (p : R → Bool) : Rows E R K :=
  { s with versions := s.versions.map fun v => if s.doomed S i p v then v.condemned i else v }

/-- The number of rows that the delete finds. -/
def countOf (s : Rows E R K) (i : Nat) (p : R → Bool) : Nat :=
  (s.versions.filter fun v => v.seenBy i && p v.row).length

/-! ### Locks -/

/-- A lock waits for another lock, and for an open insert that refers to the row. -/
def lockWaits (S : Schema R K) (s : Rows E R K) (i : Nat) (k : K) : Bool :=
  s.lockedBeside i [k] ||
    s.versions.any fun v => !free i v.ins && (S.refs v.row ++ S.shares v.row).contains k

/-- Takes the lock. -/
def lock (s : Rows E R K) (i : Nat) (k : K) : Rows E R K := { s with locks := (i, k) :: s.locks }

/-! ### Ends -/

/-- The transaction commits: its inserts stay, its deletes go, its locks are free. -/
def commit (s : Rows E R K) (i : Nat) : Rows E R K :=
  { s with
    versions := (s.versions.filter (·.del != some i)).map (·.settled i)
    locks := s.locks.filter (·.1 != i) }

/-- The transaction is rolled back: its inserts go, its deletes are undone. -/
def rollback (s : Rows E R K) (i : Nat) : Rows E R K :=
  { s with
    versions := (s.versions.filter (·.ins != some i)).map (·.revived i)
    locks := s.locks.filter (·.1 != i) }

end Rows

/-! ## Systems -/

/-- The schema and the transaction of each job. -/
structure TxnSystem (L E R K ε α J A : Type) where
  schema : Schema R K
  prog : J → Txn L E R K ε α
  /-- What happens beside the transactions, and the key of the row it writes. -/
  edit : A → E → E
  writes : A → Option K

/-- A transaction under way. -/
structure Running (L E R K ε α J : Type) where
  id : Nat
  job : J
  prog : Txn L E R K ε α

/-- The database with its open transactions. -/
structure Rdb (L E R K ε α J : Type) where
  rows : Rows E R K
  nextTxn : Nat
  sessions : List (Running L E R K ε α J)

/-- The rows when nobody works on them. -/
def Rdb.quiet (env : E) (rows : List R) (nextId : Nat) : Rdb L E R K ε α J where
  rows := ⟨env, rows.map (⟨·, none, none⟩), [], nextId⟩
  nextTxn := 0
  sessions := []

/-- What can happen next: a transaction begins, the one at index `n` makes its next statement, it
commits, it fails or is rolled back, or something happens beside them. -/
inductive RdbAct (J A : Type) where
  | begin (j : J)
  | step (n : Nat)
  | commit (n : Nat)
  | abort (n : Nat)
  | edit (a : A)

namespace TxnSystem

variable [DecidableEq K] (S : TxnSystem L E R K ε α J A)

/-- The next statement of a transaction: the rows it leaves, and how it goes on.  A statement that
waits changes nothing. -/
def answer (s : Rows E R K) (i : Nat) : Txn L E R K ε α → Rows E R K × Txn L E R K ε α
  | .ret a => (s, .ret a)
  | .fail e => (s, .fail e)
  | .read ok => (s, ok s.env (s.visible i))
  | .lock k ok => if s.lockWaits S.schema i k then (s, .lock k ok) else (s.lock i k, ok s.env)
  | .insert row ok taken orphan =>
    match s.answerInsert S.schema i (row s.nextId) with
    | .waits => (s, .insert row ok taken orphan)
    | .taken => (s, .fail taken)
    | .orphan => (s, .fail orphan)
    | .done => (s.insert i (row s.nextId), ok s.nextId)
  | .delete l p ok =>
    if s.deleteWaits S.schema i p then (s, .delete l p ok)
    else (s.delete S.schema i p, ok (s.countOf i p))

/-- One step: a transaction begins, runs a statement or waits, commits or is rolled back, or the
environment is edited. -/
def step (w : Rdb L E R K ε α J) : RdbAct J A → Rdb L E R K ε α J
  | .begin j =>
    { w with nextTxn := w.nextTxn + 1, sessions := w.sessions ++ [⟨w.nextTxn, j, S.prog j⟩] }
  | .step n =>
    match w.sessions[n]? with
    | some t =>
      { w with
        rows := (S.answer w.rows t.id t.prog).1
        sessions := w.sessions.set n { t with prog := (S.answer w.rows t.id t.prog).2 } }
    | none => w
  | .commit n =>
    match w.sessions[n]? with
    | some ⟨i, _, .ret _⟩ => { w with rows := w.rows.commit i, sessions := w.sessions.eraseIdx n }
    | _ => w
  | .abort n =>
    match w.sessions[n]? with
    | some t => { w with rows := w.rows.rollback t.id, sessions := w.sessions.eraseIdx n }
    | none => w
  | .edit a =>
    if (S.writes a).any fun k => w.rows.locks.any (·.2 = k) then w
    else { w with rows := { w.rows with env := S.edit a w.rows.env } }

end TxnSystem

/-! ## What the store keeps -/

/-- The rows have no key in common. -/
def Schema.Apart (S : Schema R K) (r r' : R) : Prop := ∀ k ∈ S.keys r, k ∉ S.keys r'

instance [DecidableEq K] (S : Schema R K) (r r' : R) : Decidable (S.Apart r r') :=
  inferInstanceAs (Decidable (∀ k ∈ S.keys r, k ∉ S.keys r'))

/-- Two versions share no key, a version finds those it refers to and shares their fate, nobody
deletes what another transaction has inserted, and a key that is locked is shared by no insert of
another transaction. -/
structure Rows.Sound (S : Schema R K) (s : Rows E R K) : Prop where
  unique : s.versions.Pairwise fun v t => S.Apart v.row t.row
  linked : ∀ v ∈ s.versions, ∀ k ∈ S.refs v.row, ∃ t ∈ s.versions, k ∈ S.keys t.row ∧
    (t.ins = none ∨ t.ins = v.ins) ∧ (t.del = none ∨ t.del = v.del)
  owned : ∀ v ∈ s.versions, ∀ i, v.del = some i → free i v.ins = true
  guarded : ∀ l ∈ s.locks, ∀ v ∈ s.versions, l.2 ∈ S.refs v.row ++ S.shares v.row →
    free l.1 v.ins = true

theorem Schema.Apart.symm {S : Schema R K} {r r' : R} (h : S.Apart r r') : S.Apart r' r :=
  fun k hk hk' => h k hk' hk

/-- At most one row has the key. -/
theorem Schema.length_filter_le_one {S : Schema R K} {rows : List R} (h : rows.Pairwise S.Apart)
    {p : R → Bool} {k : K} (hp : ∀ r, p r = true → k ∈ S.keys r) : (rows.filter p).length ≤ 1 := by
  induction rows with
  | nil => simp
  | cons r rows ih =>
    rw [List.pairwise_cons] at h
    rw [List.filter_cons]
    split
    · next hr =>
      have hnil : rows.filter p = [] :=
        List.filter_eq_nil_iff.2 fun r' hr' hpr' => h.1 r' hr' k (hp r hr) (hp r' hpr')
      simp [hnil]
    · exact ih h.2

theorem free_iff {i : Nat} {m : Option Nat} : free i m = true ↔ m = none ∨ m = some i := by
  cases m <;> simp [free]

theorem meets_iff [DecidableEq K] {ks ks' : List K} :
    Rows.meets ks ks' = true ↔ ∃ k ∈ ks, k ∈ ks' := by
  simp [Rows.meets]

namespace Rows

section Sound

variable {S : Schema R K} {s : Rows E R K} {i : Nat}

theorem Sound.eq_of_key (h : s.Sound S) {v t : Version R} (hv : v ∈ s.versions)
    (ht : t ∈ s.versions) {k : K} (hkv : k ∈ S.keys v.row) (hkt : k ∈ S.keys t.row) : v = t := by
  by_contra hne
  have : Std.Symm fun v t : Version R => S.Apart v.row t.row := ⟨fun _ _ h => h.symm⟩
  exact h.unique.forall hv ht hne k hkv hkt

/-- An edit of the marks keeps the rows apart. -/
theorem pairwise_map {vs : List (Version R)} {f : Version R → Version R}
    (hf : ∀ v, (f v).row = v.row) (h : vs.Pairwise fun v t => S.Apart v.row t.row) :
    (vs.map f).Pairwise fun v t => S.Apart v.row t.row := by
  rw [List.pairwise_map]
  exact h.imp fun hab => by rwa [hf, hf]

theorem mem_commit {v : Version R} :
    v ∈ (s.commit i).versions ↔ ∃ v₀ ∈ s.versions, v₀.del ≠ some i ∧ v₀.settled i = v := by
  simp [commit, and_assoc]

theorem mem_rollback {v : Version R} :
    v ∈ (s.rollback i).versions ↔ ∃ v₀ ∈ s.versions, v₀.ins ≠ some i ∧ v₀.revived i = v := by
  simp [rollback, and_assoc]

theorem Sound.commit (h : s.Sound S) (i : Nat) : (s.commit i).Sound S := by
  have hfree : ∀ {j : Nat} {v : Version R}, free j v.ins = true → free j (v.settled i).ins = true := by
    intro j v hfree
    unfold Version.settled
    dsimp only
    split
    · rfl
    · exact hfree
  refine ⟨pairwise_map (fun _ => rfl) (h.unique.filter _), fun v hv k hk => ?_,
    fun v hv j hj => ?_, fun l hl v hv hk => ?_⟩
  · obtain ⟨v₀, hv₀, hkept, rfl⟩ := mem_commit.1 hv
    obtain ⟨t, ht, hkt, hins, hdel⟩ := h.linked v₀ hv₀ k hk
    have htkept : t.del ≠ some i := by
      rcases hdel with hdel | hdel
      · simp [hdel]
      · rwa [hdel]
    refine ⟨t.settled i, mem_commit.2 ⟨t, ht, htkept, rfl⟩, hkt, ?_, hdel⟩
    rcases hins with hins | hins <;> simp [Version.settled, hins]
  · obtain ⟨v₀, hv₀, -, rfl⟩ := mem_commit.1 hv
    exact hfree (h.owned v₀ hv₀ j hj)
  · obtain ⟨v₀, hv₀, -, rfl⟩ := mem_commit.1 hv
    exact hfree (h.guarded l (List.mem_filter.1 hl).1 v₀ hv₀ hk)

theorem Sound.rollback (h : s.Sound S) (i : Nat) : (s.rollback i).Sound S := by
  refine ⟨pairwise_map (fun _ => rfl) (h.unique.filter _), fun v hv k hk => ?_,
    fun v hv j hj => ?_, fun l hl v hv hk => ?_⟩
  · obtain ⟨v₀, hv₀, hkept, rfl⟩ := mem_rollback.1 hv
    obtain ⟨t, ht, hkt, hins, hdel⟩ := h.linked v₀ hv₀ k hk
    have htkept : t.ins ≠ some i := by
      rcases hins with hins | hins
      · simp [hins]
      · rwa [hins]
    refine ⟨t.revived i, mem_rollback.2 ⟨t, ht, htkept, rfl⟩, hkt, hins, ?_⟩
    rcases hdel with hdel | hdel <;> simp [Version.revived, hdel]
  · obtain ⟨v₀, hv₀, -, rfl⟩ := mem_rollback.1 hv
    have hdel : v₀.del = some j := by
      simp only [Version.revived] at hj
      split at hj
      · cases hj
      · exact hj
    exact h.owned v₀ hv₀ j hdel
  · obtain ⟨v₀, hv₀, -, rfl⟩ := mem_rollback.1 hv
    exact h.guarded l (List.mem_filter.1 hl).1 v₀ hv₀ hk

variable [DecidableEq K]

theorem Sound.lock (h : s.Sound S) {k : K} (hw : s.lockWaits S i k = false) :
    (s.lock i k).Sound S := by
  refine ⟨h.unique, h.linked, h.owned, fun l hl v hv hk => ?_⟩
  rcases List.mem_cons.1 hl with rfl | hl
  · simp only [lockWaits, Bool.or_eq_false_iff, List.any_eq_false, Bool.and_eq_true,
      Bool.not_eq_true'] at hw
    by_contra hno
    exact hw.2 v hv ⟨by simpa using hno, by simpa using hk⟩
  · exact h.guarded l hl v hv hk

theorem answerInsert_done {r : R} (h : s.answerInsert S i r = .done) :
    (∀ v ∈ s.versions, S.Apart r v.row) ∧
    (∀ k ∈ S.refs r, ∃ t ∈ s.versions, k ∈ S.keys t.row ∧ free i t.ins = true ∧ t.del = none) ∧
    s.lockedBeside i (S.refs r ++ S.shares r) = false := by
  unfold answerInsert at h
  split at h
  · cases h
  split at h
  · cases h
  split at h
  · cases h
  split at h
  · cases h
  rename_i hrival horphan hwaits
  simp only [List.any_eq_true, meets_iff, not_exists, not_and, Bool.or_eq_true, Bool.and_eq_true,
    List.all_eq_true, Bool.not_eq_true', not_or, Bool.and_eq_false_iff] at hrival horphan hwaits
  refine ⟨fun v hv k hk hkv => hrival v hv k hk hkv, fun k hk => ?_, by simpa using hwaits.2⟩
  have hex := horphan k hk
  push Not at hex
  obtain ⟨t, ht, hkt, hseen⟩ := hex
  have hkt : k ∈ S.keys t.row := by simpa using hkt
  have hseen : free i t.ins = true ∧ t.del ≠ some i := by
    simpa [Version.seenBy] using hseen
  refine ⟨t, ht, hkt, hseen.1, ?_⟩
  have hfree := hwaits.1 t ht ⟨k, hk, hkt⟩
  rcases free_iff.1 (by simpa using hfree) with hnone | hmine
  · exact hnone
  · exact absurd hmine hseen.2

theorem Sound.insert (h : s.Sound S) {r : R} (hd : s.answerInsert S i r = .done) :
    (s.insert i r).Sound S := by
  obtain ⟨hapart, hparent, hlocked⟩ := answerInsert_done hd
  refine ⟨?_, fun v hv k hk => ?_, fun v hv j hj => ?_, fun l hl v hv hk => ?_⟩
  · refine List.pairwise_append.2 ⟨h.unique, List.pairwise_singleton _ _, fun v hv t ht => ?_⟩
    rw [List.mem_singleton.1 ht]
    exact (hapart v hv).symm
  · rcases List.mem_append.1 hv with hv | hv
    · obtain ⟨t, ht, hrest⟩ := h.linked v hv k hk
      exact ⟨t, List.mem_append_left _ ht, hrest⟩
    · rw [List.mem_singleton.1 hv] at hk ⊢
      obtain ⟨t, ht, hkt, hins, hdel⟩ := hparent k hk
      exact ⟨t, List.mem_append_left _ ht, hkt, free_iff.1 hins, .inl hdel⟩
  · rcases List.mem_append.1 hv with hv | hv
    · exact h.owned v hv j hj
    · rw [List.mem_singleton.1 hv] at hj
      cases hj
  · rcases List.mem_append.1 hv with hv | hv
    · exact h.guarded l hl v hv hk
    · rw [List.mem_singleton.1 hv] at hk ⊢
      rw [free_iff]
      by_contra hne
      simp only [lockedBeside, List.any_eq_false, Bool.and_eq_true] at hlocked
      refine hlocked l hl ⟨?_, by simpa using hk⟩
      simp only [reduceCtorEq, Option.some.injEq, false_or] at hne
      simpa using fun heq : l.1 = i => hne heq.symm

theorem doomed_iff {p : R → Bool} {v : Version R} : s.doomed S i p v = true ↔
    (v.seenBy i = true ∧ p v.row = true) ∨
      ∃ t ∈ s.versions, (t.seenBy i = true ∧ p t.row = true) ∧
        ∃ k ∈ S.refs v.row, k ∈ S.keys t.row := by
  simp [doomed, meets_iff, and_assoc]

theorem mem_delete {p : R → Bool} {v : Version R} : v ∈ (s.delete S i p).versions ↔
    ∃ v₀ ∈ s.versions, (if s.doomed S i p v₀ then v₀.condemned i else v₀) = v := by
  simp [delete]

theorem deleteWaits_eq_false {p : R → Bool} (h : s.deleteWaits S i p = false) {v : Version R}
    (hv : v ∈ s.versions) (hd : s.doomed S i p v = true) :
    free i v.ins = true ∧ free i v.del = true := by
  simp only [deleteWaits, List.any_eq_false, Bool.and_eq_true, Bool.or_eq_true] at h
  have hno := h v hv
  simpa [hd] using fun hne => hno ⟨hd, .inl hne⟩

/-- What is referred to is deleted only as a row of `p`. -/
theorem doomed_of_parent (hflat : S.Flat) {p : R → Bool} {v t : Version R} {k : K}
    (ht : t ∈ s.versions) (hkt : k ∈ S.keys t.row) (hkv : k ∈ S.refs v.row)
    (hd : s.doomed S i p t = true) : s.doomed S i p v = true := by
  rcases doomed_iff.1 hd with htarget | ⟨t', -, -, k', hk', -⟩
  · exact doomed_iff.2 (.inr ⟨t, ht, htarget, k, hkv, hkt⟩)
  · rw [hflat t.row v.row k hkt hkv] at hk'
    cases hk'

theorem Sound.delete (hflat : S.Flat) (h : s.Sound S) {p : R → Bool}
    (hw : s.deleteWaits S i p = false) : (s.delete S i p).Sound S := by
  have hrow : ∀ v : Version R, (if s.doomed S i p v then v.condemned i else v).row = v.row := by
    intro v
    split <;> rfl
  have hins : ∀ v : Version R, (if s.doomed S i p v then v.condemned i else v).ins = v.ins := by
    intro v
    split <;> rfl
  refine ⟨pairwise_map hrow h.unique, fun v hv k hk => ?_, fun v hv j hj => ?_,
    fun l hl v hv hk => ?_⟩
  · obtain ⟨v₀, hv₀, rfl⟩ := mem_delete.1 hv
    rw [hrow] at hk
    obtain ⟨t, ht, hkt, htins, htdel⟩ := h.linked v₀ hv₀ k hk
    refine ⟨_, mem_delete.2 ⟨t, ht, rfl⟩, by rwa [hrow], by rwa [hins, hins], ?_⟩
    by_cases hdt : s.doomed S i p t = true
    · rw [if_pos hdt, if_pos (doomed_of_parent hflat ht hkt hk hdt)]
      exact .inr rfl
    · rw [if_neg hdt]
      split
      · next hdv =>
        rcases htdel with htdel | htdel
        · exact .inl htdel
        · rw [htdel]
          exact free_iff.1 (deleteWaits_eq_false hw hv₀ hdv).2
      · exact htdel
  · obtain ⟨v₀, hv₀, rfl⟩ := mem_delete.1 hv
    rw [hins]
    split at hj
    · next hd =>
      cases hj
      exact (deleteWaits_eq_false hw hv₀ hd).1
    · exact h.owned v₀ hv₀ j hj
  · obtain ⟨v₀, hv₀, rfl⟩ := mem_delete.1 hv
    rw [hrow] at hk
    rw [hins]
    exact h.guarded l hl v₀ hv₀ hk

end Sound

/-! ### The committed rows -/

section Committed

variable (s : Rows E R K) (i : Nat)

/-- A commit shows what the transaction sees. -/
theorem committed_commit : (s.commit i).committed = s.visible i := by
  have hseen : ∀ v : Version R,
      ((v.settled i).ins.isNone && v.del != some i) = v.seenBy i := by
    intro v
    cases hins : v.ins with
    | none => simp [Version.settled, Version.seenBy, free, hins]
    | some j =>
      by_cases hj : j = i <;> simp [Version.settled, Version.seenBy, free, hins, hj]
  simp only [committed, commit, visible, List.filter_map, List.map_map, List.filter_filter]
  exact congrArg _ (List.filter_congr fun v _ => hseen v)

theorem committed_rollback : (s.rollback i).committed = s.committed := by
  have hsame : ∀ v : Version R, ((v.revived i).ins.isNone && v.ins != some i) = v.ins.isNone := by
    intro v
    cases hins : v.ins <;> simp [Version.revived, hins]
  simp only [committed, rollback, List.filter_map, List.map_map, List.filter_filter]
  exact congrArg _ (List.filter_congr fun v _ => hsame v)

theorem committed_insert (r : R) : (s.insert i r).committed = s.committed := by
  simp [committed, insert]

theorem committed_delete [DecidableEq K] (S : Schema R K) (p : R → Bool) :
    (s.delete S i p).committed = s.committed := by
  have hins : ∀ v : Version R, (if s.doomed S i p v then v.condemned i else v).ins = v.ins := by
    intro v
    split <;> rfl
  have hrow : ∀ v : Version R, (if s.doomed S i p v then v.condemned i else v).row = v.row := by
    intro v
    split <;> rfl
  simp only [committed, delete, List.filter_map, List.map_map]
  have hfilter : s.versions.filter
      ((·.ins.isNone) ∘ fun v => if s.doomed S i p v then v.condemned i else v) =
      s.versions.filter (·.ins.isNone) :=
    List.filter_congr fun v _ => congrArg Option.isNone (hins v)
  rw [hfilter]
  exact List.map_congr_left fun v _ => hrow v

variable {s} {S : Schema R K}

theorem Sound.committed_apart (h : s.Sound S) : s.committed.Pairwise S.Apart :=
  List.pairwise_map.2 (h.unique.filter _)

/-- A committed row finds the rows that it refers to. -/
theorem Sound.committed_linked (h : s.Sound S) {r : R} (hr : r ∈ s.committed) {k : K}
    (hk : k ∈ S.refs r) : ∃ r' ∈ s.committed, k ∈ S.keys r' := by
  obtain ⟨v, hv, rfl⟩ := List.mem_map.1 hr
  obtain ⟨hv, hnone⟩ := List.mem_filter.1 hv
  have hins : v.ins = none := Option.isNone_iff_eq_none.1 hnone
  obtain ⟨t, ht, hkt, htins, -⟩ := h.linked v hv k hk
  rw [hins, or_self] at htins
  exact ⟨t.row, List.mem_map_of_mem (List.mem_filter.2 ⟨ht, by simp [htins]⟩), hkt⟩

end Committed

/-! ## What the others do -/

/-- A row that the transaction `i` has inserted. -/
def Inserted (s : Rows E R K) (i : Nat) (r : R) : Prop := ∃ v ∈ s.versions, v.row = r ∧ v.ins = some i

/-- The transaction has deleted this row. -/
def Deleted (s : Rows E R K) (i : Nat) (r : R) : Prop := ∃ v ∈ s.versions, v.row = r ∧ v.del = some i

/-- Some version of the row is there. -/
def Has (s : Rows E R K) (r : R) : Prop := ∃ v ∈ s.versions, v.row = r

section Effects

variable {s : Rows E R K} {i : Nat} {r r' : R}

@[simp] theorem inserted_insert : (s.insert i r).Inserted i r' ↔ s.Inserted i r' ∨ r' = r := by
  simp only [Inserted, insert, List.mem_append, List.mem_singleton]
  constructor
  · rintro ⟨v, hv | rfl, rfl, hins⟩
    · exact .inl ⟨v, hv, rfl, hins⟩
    · exact .inr rfl
  · rintro (⟨v, hv, rfl, hins⟩ | rfl)
    · exact ⟨v, .inl hv, rfl, hins⟩
    · exact ⟨_, .inr rfl, rfl, rfl⟩

@[simp] theorem deleted_insert : (s.insert i r).Deleted i r' ↔ s.Deleted i r' := by
  simp [Deleted, insert]

@[simp] theorem inserted_delete [DecidableEq K] {S : Schema R K} {p : R → Bool} :
    (s.delete S i p).Inserted i r ↔ s.Inserted i r := by
  constructor
  · rintro ⟨v, hv, rfl, hins⟩
    obtain ⟨v₀, hv₀, rfl⟩ := mem_delete.1 hv
    exact ⟨v₀, hv₀, by split <;> rfl, by split at hins <;> exact hins⟩
  · rintro ⟨v, hv, rfl, hins⟩
    exact ⟨_, mem_delete.2 ⟨v, hv, rfl⟩, by split <;> rfl, by split <;> exact hins⟩

theorem deleted_delete [DecidableEq K] {S : Schema R K} {p : R → Bool} :
    (s.delete S i p).Deleted i r ↔
      s.Deleted i r ∨ ∃ v ∈ s.versions, v.row = r ∧ s.doomed S i p v = true := by
  constructor
  · rintro ⟨v, hv, rfl, hdel⟩
    obtain ⟨v₀, hv₀, rfl⟩ := mem_delete.1 hv
    split at hdel
    · next hd => exact .inr ⟨v₀, hv₀, by rw [if_pos hd]; rfl, hd⟩
    · next hd => exact .inl ⟨v₀, hv₀, by rw [if_neg hd], hdel⟩
  · rintro (⟨v, hv, rfl, hdel⟩ | ⟨v, hv, rfl, hd⟩)
    · exact ⟨_, mem_delete.2 ⟨v, hv, rfl⟩, by split <;> rfl, by split <;> [rfl; exact hdel]⟩
    · exact ⟨_, mem_delete.2 ⟨v, hv, rfl⟩, by rw [if_pos hd]; rfl, by rw [if_pos hd]; rfl⟩

end Effects

/-- What happens between two statements of the transaction `i`: its own rows and locks stay, no row
comes under a key that it has locked, and `part` of the environment is what it was there. -/
structure Beside (S : Schema R K) (part : K → E → P) (i : Nat) (s s' : Rows E R K) : Prop where
  ins : ∀ r, s'.Inserted i r ↔ s.Inserted i r
  del : ∀ r, s'.Deleted i r ↔ s.Deleted i r
  locks : ∀ k, (i, k) ∈ s'.locks ↔ (i, k) ∈ s.locks
  held : ∀ k, (i, k) ∈ s.locks → ∀ r, k ∈ S.refs r ++ S.shares r → s'.Has r → s.Has r
  env : ∀ k, (i, k) ∈ s.locks → part k s'.env = part k s.env

section Beside

variable {S : Schema R K} {part : K → E → P} {s s' s'' : Rows E R K} {i j : Nat}

theorem Beside.refl (S : Schema R K) (part : K → E → P) (i : Nat) (s : Rows E R K) :
    Beside S part i s s :=
  ⟨fun _ => .rfl, fun _ => .rfl, fun _ => .rfl, fun _ _ _ _ h => h, fun _ _ => rfl⟩

theorem Beside.trans (h : Beside S part i s s') (h' : Beside S part i s' s'') :
    Beside S part i s s'' where
  ins r := (h'.ins r).trans (h.ins r)
  del r := (h'.del r).trans (h.del r)
  locks k := (h'.locks k).trans (h.locks k)
  held k hk r hr hv := h.held k hk r hr (h'.held k ((h.locks k).2 hk) r hr hv)
  env k hk := (h'.env k ((h.locks k).2 hk)).trans (h.env k hk)

theorem beside_env {env : E} (henv : ∀ k, (i, k) ∈ s.locks → part k env = part k s.env) :
    Beside S part i s { s with env := env } :=
  ⟨fun _ => .rfl, fun _ => .rfl, fun _ => .rfl, fun _ _ _ _ h => h, henv⟩

theorem beside_commit (h : s.Sound S) (hne : j ≠ i) : Beside S part i s (s.commit j) where
  ins r := by
    constructor
    · rintro ⟨v, hv, rfl, hins⟩
      obtain ⟨v₀, hv₀, -, rfl⟩ := mem_commit.1 hv
      simp only [Version.settled] at hins
      split at hins
      · cases hins
      · exact ⟨v₀, hv₀, rfl, hins⟩
    · rintro ⟨v, hv, rfl, hins⟩
      have hdel : v.del ≠ some j := by
        intro hdel
        rcases free_iff.1 (h.owned v hv j hdel) with hfree | hfree
        · rw [hins] at hfree
          cases hfree
        · rw [hins] at hfree
          exact hne (Option.some.inj hfree).symm
      refine ⟨v.settled j, mem_commit.2 ⟨v, hv, hdel, rfl⟩, rfl, ?_⟩
      simp [Version.settled, hins, hne.symm]
  del r := by
    constructor
    · rintro ⟨v, hv, rfl, hdel⟩
      obtain ⟨v₀, hv₀, -, rfl⟩ := mem_commit.1 hv
      exact ⟨v₀, hv₀, rfl, hdel⟩
    · rintro ⟨v, hv, rfl, hdel⟩
      refine ⟨v.settled j, mem_commit.2 ⟨v, hv, ?_, rfl⟩, rfl, hdel⟩
      rw [hdel]
      simpa using hne.symm
  locks k := by simp [commit, hne.symm]
  held k _ r _ := by
    rintro ⟨v, hv, rfl⟩
    obtain ⟨v₀, hv₀, -, rfl⟩ := mem_commit.1 hv
    exact ⟨v₀, hv₀, rfl⟩
  env _ _ := rfl

theorem beside_rollback (h : s.Sound S) (hne : j ≠ i) : Beside S part i s (s.rollback j) where
  ins r := by
    constructor
    · rintro ⟨v, hv, rfl, hins⟩
      obtain ⟨v₀, hv₀, -, rfl⟩ := mem_rollback.1 hv
      exact ⟨v₀, hv₀, rfl, hins⟩
    · rintro ⟨v, hv, rfl, hins⟩
      refine ⟨v.revived j, mem_rollback.2 ⟨v, hv, ?_, rfl⟩, rfl, hins⟩
      rw [hins]
      simpa using hne.symm
  del r := by
    constructor
    · rintro ⟨v, hv, rfl, hdel⟩
      obtain ⟨v₀, hv₀, -, rfl⟩ := mem_rollback.1 hv
      simp only [Version.revived] at hdel
      split at hdel
      · cases hdel
      · exact ⟨v₀, hv₀, rfl, hdel⟩
    · rintro ⟨v, hv, rfl, hdel⟩
      have hins : v.ins ≠ some j := by
        intro hins
        rcases free_iff.1 (h.owned v hv i hdel) with hfree | hfree
        · rw [hins] at hfree
          cases hfree
        · rw [hins] at hfree
          exact hne (Option.some.inj hfree)
      refine ⟨v.revived j, mem_rollback.2 ⟨v, hv, hins, rfl⟩, rfl, ?_⟩
      simp [Version.revived, hdel, hne.symm]
  locks k := by simp [rollback, hne.symm]
  held k _ r _ := by
    rintro ⟨v, hv, rfl⟩
    obtain ⟨v₀, hv₀, -, rfl⟩ := mem_rollback.1 hv
    exact ⟨v₀, hv₀, rfl⟩
  env _ _ := rfl

theorem beside_lock {k : K} (hne : j ≠ i) : Beside S part i s (s.lock j k) where
  ins _ := .rfl
  del _ := .rfl
  locks k := by simp [lock, hne.symm]
  held _ _ _ _ h := h
  env _ _ := rfl

variable [DecidableEq K]

theorem beside_insert {r : R} (hd : s.answerInsert S j r = .done) (hne : j ≠ i) :
    Beside S part i s (s.insert j r) where
  ins r' := by simp [Inserted, insert, hne]
  del r' := by simp [Deleted, insert]
  locks _ := .rfl
  held k hk r' hr := by
    rintro ⟨v, hv, rfl⟩
    rcases List.mem_append.1 hv with hv | hv
    · exact ⟨v, hv, rfl⟩
    · rw [List.mem_singleton.1 hv] at hr
      have hno := (answerInsert_done hd).2.2
      simp only [lockedBeside, List.any_eq_false, Bool.and_eq_true] at hno
      exact absurd ⟨by simpa using hne.symm, by simpa using hr⟩ (hno (i, k) hk)
  env _ _ := rfl

theorem beside_delete {p : R → Bool} (hw : s.deleteWaits S j p = false) (hne : j ≠ i) :
    Beside S part i s (s.delete S j p) where
  ins r := by
    constructor
    · rintro ⟨v, hv, rfl, hins⟩
      obtain ⟨v₀, hv₀, rfl⟩ := mem_delete.1 hv
      split at hins
      · exact ⟨v₀, hv₀, by split <;> rfl, hins⟩
      · exact ⟨v₀, hv₀, by split <;> rfl, hins⟩
    · rintro ⟨v, hv, rfl, hins⟩
      exact ⟨_, mem_delete.2 ⟨v, hv, rfl⟩, by split <;> rfl, by split <;> exact hins⟩
  del r := by
    constructor
    · rintro ⟨v, hv, rfl, hdel⟩
      obtain ⟨v₀, hv₀, rfl⟩ := mem_delete.1 hv
      by_cases hd : s.doomed S j p v₀ = true
      · rw [if_pos hd] at hdel
        exact absurd (Option.some.inj hdel) hne
      · rw [if_neg hd] at hdel ⊢
        exact ⟨v₀, hv₀, rfl, hdel⟩
    · rintro ⟨v, hv, rfl, hdel⟩
      have hd : ¬ s.doomed S j p v = true := by
        intro hd
        rcases free_iff.1 (deleteWaits_eq_false hw hv hd).2 with hfree | hfree
        · rw [hdel] at hfree
          cases hfree
        · rw [hdel] at hfree
          exact hne (Option.some.inj hfree).symm
      exact ⟨_, mem_delete.2 ⟨v, hv, rfl⟩, by rw [if_neg hd], by rw [if_neg hd]; exact hdel⟩
  locks _ := .rfl
  held k _ r _ := by
    rintro ⟨v, hv, rfl⟩
    obtain ⟨v₀, hv₀, rfl⟩ := mem_delete.1 hv
    exact ⟨v₀, hv₀, by split <;> rfl⟩
  env _ _ := rfl

end Beside

end Rows

/-! ## Safe transactions -/

/-- `part` of the environment belongs to the row of a key, and `cond` and `calm` are what a deletion
and what happens beside the transactions have to meet.  A transaction commits only when it `ends`
with its job done, which keeps the committed rows `good`. -/
structure TxnLaw (L E R K J A P : Type) where
  part : K → E → P
  cond : L → Rows E R K → Prop
  calm : A → Rows E R K → Prop
  ends : J → Nat → Rows E R K → Prop
  good : List R → Prop

namespace Txn

variable [DecidableEq K]

/-- Whatever the others do between its statements, the transaction `i` returns only with `Q`. -/
def Safe (S : Schema R K) (M : TxnLaw L E R K J A P) (i : Nat) (Q : α → Rows E R K → Prop) :
    Txn L E R K ε α → Rows E R K → Prop
  | .ret a, s => ∀ s', s.Beside S M.part i s' → s'.Sound S → Q a s'
  | .fail _, _ => True
  | .read ok, s => ∀ s', s.Beside S M.part i s' → s'.Sound S →
      Safe S M i Q (ok s'.env (s'.visible i)) s'
  | .lock k ok, s => ∀ s', s.Beside S M.part i s' → s'.Sound S → s'.lockWaits S i k = false →
      Safe S M i Q (ok s'.env) (s'.lock i k)
  | .insert row ok _ _, s => ∀ s', s.Beside S M.part i s' → s'.Sound S →
      s'.answerInsert S i (row s'.nextId) = .done →
      Safe S M i Q (ok s'.nextId) (s'.insert i (row s'.nextId))
  | .delete l p ok, s => ∀ s', s.Beside S M.part i s' → s'.Sound S →
      s'.deleteWaits S i p = false → M.cond l s' →
      Safe S M i Q (ok (s'.countOf i p)) (s'.delete S i p)

section Safe

variable {S : Schema R K} {M : TxnLaw L E R K J A P} {i : Nat} {s s' : Rows E R K}

theorem Safe.beside {Q : α → Rows E R K → Prop} {p : Txn L E R K ε α} (h : p.Safe S M i Q s)
    (hb : s.Beside S M.part i s') : p.Safe S M i Q s' := by
  cases p with
  | ret a => exact fun s'' hb' => h s'' (hb.trans hb')
  | fail e => trivial
  | read ok => exact fun s'' hb' => h s'' (hb.trans hb')
  | lock k ok => exact fun s'' hb' => h s'' (hb.trans hb')
  | insert row ok taken orphan => exact fun s'' hb' => h s'' (hb.trans hb')
  | delete l p ok => exact fun s'' hb' => h s'' (hb.trans hb')

theorem safe_of_beside {Q : α → Rows E R K → Prop} {p : Txn L E R K ε α}
    (h : ∀ s', s.Beside S M.part i s' → s'.Sound S → p.Safe S M i Q s') : p.Safe S M i Q s := by
  cases p with
  | ret a => exact fun s' hb hs => h s' hb hs s' (.refl ..) hs
  | fail e => trivial
  | read ok => exact fun s' hb hs => h s' hb hs s' (.refl ..) hs
  | lock k ok => exact fun s' hb hs => h s' hb hs s' (.refl ..) hs
  | insert row ok taken orphan => exact fun s' hb hs => h s' hb hs s' (.refl ..) hs
  | delete l p ok => exact fun s' hb hs => h s' hb hs s' (.refl ..) hs

theorem safe_bind {Q : β → Rows E R K → Prop} {p : Txn L E R K ε α}
    {f : α → Txn L E R K ε β} (h : p.Safe S M i (fun a s => (f a).Safe S M i Q s) s) :
    (p >>= f).Safe S M i Q s := by
  rw [bind_eq_bind]
  induction p generalizing s with
  | ret a => exact safe_of_beside h
  | fail e => trivial
  | read ok ih => exact fun s' hb hs => ih _ _ (h s' hb hs)
  | lock k ok ih => exact fun s' hb hs hw => ih _ (h s' hb hs hw)
  | insert row ok taken orphan ih => exact fun s' hb hs hd => ih _ (h s' hb hs hd)
  | delete l p ok ih => exact fun s' hb hs hw hc => ih _ (h s' hb hs hw hc)

theorem Safe.and {Q Q' : α → Rows E R K → Prop} {p : Txn L E R K ε α} (h : p.Safe S M i Q s)
    (h' : p.Safe S M i Q' s) : p.Safe S M i (fun a s => Q a s ∧ Q' a s) s := by
  induction p generalizing s with
  | ret a => exact fun s' hb hs => ⟨h s' hb hs, h' s' hb hs⟩
  | fail e => trivial
  | read ok ih => exact fun s' hb hs => ih _ _ (h s' hb hs) (h' s' hb hs)
  | lock k ok ih => exact fun s' hb hs hw => ih _ (h s' hb hs hw) (h' s' hb hs hw)
  | insert row ok taken orphan ih => exact fun s' hb hs hd => ih _ (h s' hb hs hd) (h' s' hb hs hd)
  | delete l p ok ih => exact fun s' hb hs hw hc => ih _ (h s' hb hs hw hc) (h' s' hb hs hw hc)

theorem Safe.mono {Q Q' : α → Rows E R K → Prop} (hQ : ∀ a s, Q a s → Q' a s)
    {p : Txn L E R K ε α} (h : p.Safe S M i Q s) : p.Safe S M i Q' s := by
  induction p generalizing s with
  | ret a => exact fun s' hb hs => hQ a s' (h s' hb hs)
  | fail e => trivial
  | read ok ih => exact fun s' hb hs => ih _ _ (h s' hb hs)
  | lock k ok ih => exact fun s' hb hs hw => ih _ (h s' hb hs hw)
  | insert row ok taken orphan ih => exact fun s' hb hs hd => ih _ (h s' hb hs hd)
  | delete l p ok ih => exact fun s' hb hs hw hc => ih _ (h s' hb hs hw hc)

/-- A transaction whose result nobody looks at. -/
theorem safe_discard {Q : Rows E R K → Prop} {p : Txn L E R K ε α}
    (h : p.Safe S M i (fun _ => Q) s) : (do let _ ← p).Safe S M i (fun _ => Q) s := by
  rw [bind_eq_bind]
  induction p generalizing s with
  | ret a => exact h
  | fail e => trivial
  | read ok ih => exact fun s' hb hs => ih _ _ (h s' hb hs)
  | lock k ok ih => exact fun s' hb hs hw => ih _ (h s' hb hs hw)
  | insert row ok taken orphan ih => exact fun s' hb hs hd => ih _ (h s' hb hs hd)
  | delete l p ok ih => exact fun s' hb hs hw hc => ih _ (h s' hb hs hw hc)

/-- A fact about the locks of a transaction and about the environment, which its own statements do
not touch. -/
theorem safe_of_locks {F : Rows E R K → Prop}
    (hb : ∀ s s', s.Beside S M.part i s' → F s → F s')
    (hF : ∀ s s', s'.env = s.env → (∀ l ∈ s.locks, l ∈ s'.locks) → F s → F s')
    (p : Txn L E R K ε α) (h : F s) : p.Safe S M i (fun _ s => F s) s := by
  induction p generalizing s with
  | ret a => exact fun s' hs _ => hb s s' hs h
  | fail e => trivial
  | read ok ih => exact fun s' hs _ => ih _ _ (hb s s' hs h)
  | lock k ok ih =>
    exact fun s' hs _ _ => ih _ (hF s' _ rfl (fun _ hl => List.mem_cons_of_mem _ hl) (hb s s' hs h))
  | insert row ok taken orphan ih =>
    exact fun s' hs _ _ => ih _ (hF s' _ rfl (fun _ hl => hl) (hb s s' hs h))
  | delete l p ok ih =>
    exact fun s' hs _ _ _ => ih _ (hF s' _ rfl (fun _ hl => hl) (hb s s' hs h))

theorem safe_pure {Q : α → Rows E R K → Prop} {a : α}
    (h : ∀ s', s.Beside S M.part i s' → s'.Sound S → Q a s') :
    (pure a : Txn L E R K ε α).Safe S M i Q s := h

theorem safe_query {Q : β → Rows E R K → Prop} {f : List R → α} {k : α → Txn L E R K ε β}
    (h : ∀ s', s.Beside S M.part i s' → s'.Sound S → (k (f (s'.visible i))).Safe S M i Q s') :
    (query f >>= k).Safe S M i Q s := h

theorem safe_ask {Q : β → Rows E R K → Prop} {f : E → α} {k : α → Txn L E R K ε β}
    (h : ∀ s', s.Beside S M.part i s' → s'.Sound S → (k (f s'.env)).Safe S M i Q s') :
    (ask f >>= k).Safe S M i Q s := h

theorem safe_lockRow {Q : β → Rows E R K → Prop} {x : K} {f : E → α} {k : α → Txn L E R K ε β}
    (h : ∀ s', s.Beside S M.part i s' → s'.Sound S → s'.lockWaits S i x = false →
      (k (f s'.env)).Safe S M i Q (s'.lock i x)) :
    (lockRow x f >>= k).Safe S M i Q s := h

theorem safe_insertRow {Q : β → Rows E R K → Prop} {row : Nat → R} {taken orphan : ε}
    {k : Nat → Txn L E R K ε β}
    (h : ∀ s', s.Beside S M.part i s' → s'.Sound S →
      s'.answerInsert S i (row s'.nextId) = .done →
      (k s'.nextId).Safe S M i Q (s'.insert i (row s'.nextId))) :
    (insertRow row taken orphan >>= k).Safe S M i Q s := h

theorem safe_deleteRows {Q : β → Rows E R K → Prop} {l : L} {p : R → Bool}
    {k : Nat → Txn L E R K ε β}
    (h : ∀ s', s.Beside S M.part i s' → s'.Sound S → s'.deleteWaits S i p = false → M.cond l s' →
      (k (s'.countOf i p)).Safe S M i Q (s'.delete S i p)) :
    (deleteRows l p >>= k).Safe S M i Q s := h

end Safe

end Txn

/-! ## Runs -/

namespace TxnLaw

variable (M : TxnLaw L E R K J A P)

/-- A deletion, and what happens beside the transactions, meet what the law asks. -/
def Heeds (w : Rdb L E R K ε α J) : RdbAct J A → Prop
  | .step n => ∀ t ∈ w.sessions[n]?, match t.prog with
    | .delete l _ _ => M.cond l w.rows
    | _ => True
  | .edit a => M.calm a w.rows
  | _ => True

/-- The transaction that commits has ended with its job done. -/
def Fulfils (w : Rdb L E R K ε α J) : RdbAct J A → Prop
  | .commit n => ∀ t ∈ w.sessions[n]?, match t.prog with
    | .ret _ => M.ends t.job t.id w.rows
    | _ => True
  | _ => True

instance [∀ l s, Decidable (M.cond l s)] [∀ a s, Decidable (M.calm a s)] (w : Rdb L E R K ε α J)
    (a : RdbAct J A) : Decidable (M.Heeds w a) :=
  match a with
  | .step n => by
    unfold Heeds
    have : ∀ t : Running L E R K ε α J, Decidable (match t.prog with
        | .delete l _ _ => M.cond l w.rows
        | _ => True) := fun t => by split <;> infer_instance
    infer_instance
  | .edit a => inferInstanceAs (Decidable (M.calm a w.rows))
  | .begin _ | .commit _ | .abort _ => inferInstanceAs (Decidable True)

end TxnLaw

/-- The transaction `i` has no rows and no locks. -/
structure Rows.Untouched (s : Rows E R K) (i : Nat) : Prop where
  ins : ∀ r, ¬ s.Inserted i r
  del : ∀ r, ¬ s.Deleted i r
  locks : ∀ k, (i, k) ∉ s.locks

namespace TxnLaw

variable {S : TxnSystem L E R K ε α J A} {M : TxnLaw L E R K J A P}

/-- The transactions and the edits keep the law. -/
structure Keeps [DecidableEq K] (S : TxnSystem L E R K ε α J A) (M : TxnLaw L E R K J A P) : Prop where
  flat : S.schema.Flat
  prog : ∀ j i (s : Rows E R K), s.Sound S.schema → s.Untouched i →
    (S.prog j).Safe S.schema M i (fun _ => M.ends j i) s
  commit : ∀ j i (s : Rows E R K), s.Sound S.schema → M.good s.committed → M.ends j i s →
    M.good (s.visible i)
  edit : ∀ a (s : Rows E R K), M.calm a s → (∀ l ∈ s.locks, some l.2 ≠ S.writes a) →
    ∀ l ∈ s.locks, M.part l.2 (S.edit a s.env) = M.part l.2 s.env

/-- The invariant of a database under a law: its marks and locks belong to open transactions, and
each is safe. -/
structure DbOk [DecidableEq K] (S : TxnSystem L E R K ε α J A) (M : TxnLaw L E R K J A P)
    (w : Rdb L E R K ε α J) : Prop where
  sound : w.rows.Sound S.schema
  good : M.good w.rows.committed
  marks : ∀ v ∈ w.rows.versions, ∀ i, v.ins = some i ∨ v.del = some i → i < w.nextTxn
  locks : ∀ l ∈ w.rows.locks, l.1 < w.nextTxn
  ids : (w.sessions.map (·.id)).Nodup
  fresh : ∀ t ∈ w.sessions, t.id < w.nextTxn
  safe : ∀ t ∈ w.sessions, t.prog.Safe S.schema M t.id (fun _ => M.ends t.job t.id) w.rows

section Run

variable {w : Rdb L E R K ε α J} {n : Nat} {t t' : Running L E R K ε α J} {i : Nat}

theorem ids_ne (h : (w.sessions.map (·.id)).Nodup) {m : Nat} (hn : w.sessions[n]? = some t)
    (hm : w.sessions[m]? = some t') (hne : m ≠ n) : t.id ≠ t'.id := by
  intro heq
  have hn' : (w.sessions.map (·.id))[n]? = some t.id := by simp [hn]
  have hm' : (w.sessions.map (·.id))[m]? = some t.id := by simp [hm, heq]
  obtain ⟨hlen, -⟩ := List.getElem?_eq_some_iff.1 hm'
  exact hne ((List.getElem?_inj hlen h).1 (hm'.trans hn'.symm))

theorem of_mem_set {p : Txn L E R K ε α} (h : (w.sessions.map (·.id)).Nodup)
    (hn : w.sessions[n]? = some t) (ht' : t' ∈ w.sessions.set n { t with prog := p }) :
    t' = { t with prog := p } ∨ (t' ∈ w.sessions ∧ t.id ≠ t'.id) := by
  obtain ⟨m, hm⟩ := List.mem_iff_getElem?.1 ht'
  rw [List.getElem?_set] at hm
  split at hm
  · split at hm
    · exact .inl (Option.some.inj hm).symm
    · cases hm
  · next hne => exact .inr ⟨List.mem_of_getElem? hm, ids_ne h hn hm (Ne.symm hne)⟩

theorem of_mem_erase (h : (w.sessions.map (·.id)).Nodup) (hn : w.sessions[n]? = some t)
    (ht' : t' ∈ w.sessions.eraseIdx n) : t' ∈ w.sessions ∧ t.id ≠ t'.id := by
  obtain ⟨m, hne, hm⟩ := List.mem_eraseIdx_iff_getElem?.1 ht'
  exact ⟨List.mem_of_getElem? hm, ids_ne h hn hm hne⟩

variable [DecidableEq K]

/-- The transaction at index `n` goes on, and the others see it as something that happens beside
them. -/
theorem DbOk.goesOn (h : DbOk S M w) (hn : w.sessions[n]? = some t) {s : Rows E R K}
    {p : Txn L E R K ε α} (hs : s.Sound S.schema) (hgood : s.committed = w.rows.committed)
    (hmarks : ∀ v ∈ s.versions, ∀ i, v.ins = some i ∨ v.del = some i → i < w.nextTxn)
    (hlocks : ∀ l ∈ s.locks, l.1 < w.nextTxn)
    (hb : ∀ i, t.id ≠ i → w.rows.Beside S.schema M.part i s)
    (hp : p.Safe S.schema M t.id (fun _ => M.ends t.job t.id) s) :
    DbOk S M { w with rows := s, sessions := w.sessions.set n { t with prog := p } } := by
  refine ⟨hs, hgood ▸ h.good, hmarks, hlocks, ?_, fun t' ht' => ?_, fun t' ht' => ?_⟩
  · have hsame : (w.sessions.set n { t with prog := p }).map (·.id) = w.sessions.map (·.id) := by
      obtain ⟨hlen, rfl⟩ := List.getElem?_eq_some_iff.1 hn
      rw [List.map_set]
      have hlen' : n < (w.sessions.map (·.id)).length := by rwa [List.length_map]
      simpa using List.set_getElem_self hlen'
    rw [hsame]
    exact h.ids
  · rcases of_mem_set h.ids hn ht' with rfl | ⟨hmem, -⟩
    · exact h.fresh t (List.mem_of_getElem? hn)
    · exact h.fresh t' hmem
  · rcases of_mem_set h.ids hn ht' with rfl | ⟨hmem, hne⟩
    · exact hp
    · exact (h.safe t' hmem).beside (hb _ hne)

/-- The transaction at index `n` has ended. -/
theorem DbOk.ended (h : DbOk S M w) (hn : w.sessions[n]? = some t) {s : Rows E R K}
    (hs : s.Sound S.schema) (hgood : M.good s.committed)
    (hmarks : ∀ v ∈ s.versions, ∀ i, v.ins = some i ∨ v.del = some i → i < w.nextTxn)
    (hlocks : ∀ l ∈ s.locks, l.1 < w.nextTxn)
    (hb : ∀ i, t.id ≠ i → w.rows.Beside S.schema M.part i s) :
    DbOk S M { w with rows := s, sessions := w.sessions.eraseIdx n } := by
  refine ⟨hs, hgood, hmarks, hlocks, ?_, fun t' ht' => ?_, fun t' ht' => ?_⟩
  · exact h.ids.sublist ((List.eraseIdx_sublist _ n).map _)
  · exact h.fresh t' (of_mem_erase h.ids hn ht').1
  · obtain ⟨hmem, hne⟩ := of_mem_erase h.ids hn ht'
    exact (h.safe t' hmem).beside (hb _ hne)

theorem DbOk.marks_insert (h : DbOk S M w) (hi : i < w.nextTxn) (r : R) :
    ∀ v ∈ (w.rows.insert i r).versions, ∀ j, v.ins = some j ∨ v.del = some j → j < w.nextTxn := by
  intro v hv j hj
  rcases List.mem_append.1 hv with hv | hv
  · exact h.marks v hv j hj
  · rw [List.mem_singleton.1 hv] at hj
    simp only [Option.some.injEq, reduceCtorEq, or_false] at hj
    exact hj ▸ hi

theorem DbOk.marks_delete (h : DbOk S M w) (hi : i < w.nextTxn) (p : R → Bool) :
    ∀ v ∈ (w.rows.delete S.schema i p).versions, ∀ j,
      v.ins = some j ∨ v.del = some j → j < w.nextTxn := by
  intro v hv j hj
  obtain ⟨v₀, hv₀, rfl⟩ := Rows.mem_delete.1 hv
  split at hj
  · rcases hj with hj | hj
    · exact h.marks v₀ hv₀ j (.inl hj)
    · exact Option.some.inj hj ▸ hi
  · exact h.marks v₀ hv₀ j hj

theorem DbOk.marks_commit (h : DbOk S M w) (i : Nat) :
    ∀ v ∈ (w.rows.commit i).versions, ∀ j, v.ins = some j ∨ v.del = some j → j < w.nextTxn := by
  intro v hv j hj
  obtain ⟨v₀, hv₀, -, rfl⟩ := Rows.mem_commit.1 hv
  refine h.marks v₀ hv₀ j (hj.imp_left fun hj => ?_)
  simp only [Version.settled] at hj
  split at hj
  · cases hj
  · exact hj

theorem DbOk.marks_rollback (h : DbOk S M w) (i : Nat) :
    ∀ v ∈ (w.rows.rollback i).versions, ∀ j, v.ins = some j ∨ v.del = some j → j < w.nextTxn := by
  intro v hv j hj
  obtain ⟨v₀, hv₀, -, rfl⟩ := Rows.mem_rollback.1 hv
  refine h.marks v₀ hv₀ j (hj.imp_right fun hj => ?_)
  simp only [Version.revived] at hj
  split at hj
  · cases hj
  · exact hj

/-- The statement at index `n`. -/
theorem DbOk.answer (hM : Keeps S M) (h : DbOk S M w) (hn : w.sessions[n]? = some t)
    (hc : M.Heeds w (.step n)) : DbOk S M (S.step w (.step n)) := by
  obtain ⟨i, job, prog⟩ := t
  have hi : i < w.nextTxn := h.fresh _ (List.mem_of_getElem? hn)
  have hsafe := h.safe _ (List.mem_of_getElem? hn)
  have hrefl := Rows.Beside.refl S.schema M.part i w.rows
  have hstay : ∀ {p : Txn L E R K ε α}, p.Safe S.schema M i (fun _ => M.ends job i) w.rows →
      DbOk S M { w with sessions := w.sessions.set n { id := i, job := job, prog := p } } :=
    fun hp => h.goesOn hn h.sound rfl h.marks h.locks (fun _ _ => .refl ..) hp
  simp only [TxnSystem.step, hn]
  cases prog with
  | ret a => exact hstay hsafe
  | fail e => exact hstay hsafe
  | read ok => exact hstay (hsafe w.rows hrefl h.sound)
  | lock k ok =>
    simp only [TxnSystem.answer]
    cases hw : w.rows.lockWaits S.schema i k with
    | true => exact hstay hsafe
    | false =>
      refine h.goesOn hn (h.sound.lock hw) rfl h.marks (fun l hl => ?_)
        (fun _ hne => Rows.beside_lock hne) (hsafe w.rows hrefl h.sound hw)
      rcases List.mem_cons.1 hl with rfl | hl
      · exact hi
      · exact h.locks l hl
  | insert row ok taken orphan =>
    simp only [TxnSystem.answer]
    cases hd : w.rows.answerInsert S.schema i (row w.rows.nextId) with
    | waits => exact hstay hsafe
    | taken => exact hstay trivial
    | orphan => exact hstay trivial
    | done =>
      exact h.goesOn hn (h.sound.insert hd) (Rows.committed_insert ..) (h.marks_insert hi _) h.locks
        (fun _ hne => Rows.beside_insert hd hne) (hsafe w.rows hrefl h.sound hd)
  | delete l p ok =>
    simp only [TxnSystem.answer]
    cases hw : w.rows.deleteWaits S.schema i p with
    | true => exact hstay hsafe
    | false =>
      exact h.goesOn hn (h.sound.delete hM.flat hw) (Rows.committed_delete ..) (h.marks_delete hi p)
        h.locks (fun _ hne => Rows.beside_delete hw hne)
        (hsafe w.rows hrefl h.sound hw (hc _ hn))

theorem DbOk.untouched (h : DbOk S M w) : w.rows.Untouched w.nextTxn where
  ins := by
    rintro r ⟨v, hv, -, hins⟩
    exact absurd (h.marks v hv _ (.inl hins)) (Nat.lt_irrefl _)
  del := by
    rintro r ⟨v, hv, -, hdel⟩
    exact absurd (h.marks v hv _ (.inr hdel)) (Nat.lt_irrefl _)
  locks k hk := absurd (h.locks _ hk) (Nat.lt_irrefl _)

theorem DbOk.begin (hM : Keeps S M) (h : DbOk S M w) (j : J) : DbOk S M (S.step w (.begin j)) := by
  have hnew : ∀ t ∈ w.sessions ++ [(⟨w.nextTxn, j, S.prog j⟩ : Running L E R K ε α J)],
      t ∈ w.sessions ∨ t = ⟨w.nextTxn, j, S.prog j⟩ := by
    intro t ht
    simpa using ht
  refine ⟨h.sound, h.good, fun v hv i hi => ?_, fun l hl => ?_, ?_, fun t ht => ?_, fun t ht => ?_⟩
  · exact Nat.lt_succ_of_lt (h.marks v hv i hi)
  · exact Nat.lt_succ_of_lt (h.locks l hl)
  · simp only [TxnSystem.step, List.map_append, List.map_cons, List.map_nil]
    refine List.nodup_append.2 ⟨h.ids, by simp, fun a ha b hb => ?_⟩
    obtain ⟨t, ht, rfl⟩ := List.mem_map.1 ha
    rw [List.mem_singleton.1 hb]
    exact Nat.ne_of_lt (h.fresh t ht)
  · rcases hnew t ht with ht | rfl
    · exact Nat.lt_succ_of_lt (h.fresh t ht)
    · exact Nat.lt_succ_self _
  · rcases hnew t ht with ht | rfl
    · exact h.safe t ht
    · exact hM.prog j w.nextTxn w.rows h.sound h.untouched

/-- One action: the invariant, and a commit of a job that is done. -/
theorem dbOk_step (hM : Keeps S M) (h : DbOk S M w) {a : RdbAct J A} (ha : M.Heeds w a) :
    DbOk S M (S.step w a) ∧ M.Fulfils w a := by
  cases a with
  | begin j => exact ⟨h.begin hM j, trivial⟩
  | step n =>
    cases hn : w.sessions[n]? with
    | none =>
      simp only [TxnSystem.step, hn]
      exact ⟨h, trivial⟩
    | some t => exact ⟨h.answer hM hn ha, trivial⟩
  | commit n =>
    cases hn : w.sessions[n]? with
    | none =>
      simp only [TxnSystem.step, hn]
      exact ⟨h, fun t ht => by rw [hn] at ht; cases ht⟩
    | some t =>
      obtain ⟨i, job, prog⟩ := t
      have hsafe := h.safe _ (List.mem_of_getElem? hn)
      cases prog with
      | ret a =>
        have hends : M.ends job i w.rows := hsafe w.rows (.refl ..) h.sound
        simp only [TxnSystem.step, hn]
        refine ⟨h.ended hn (h.sound.commit i) ?_ (h.marks_commit i) (fun l hl => ?_)
          (fun _ hne => Rows.beside_commit h.sound hne), fun t ht => ?_⟩
        · rw [Rows.committed_commit]
          exact hM.commit job i w.rows h.sound h.good hends
        · exact h.locks l (List.mem_filter.1 hl).1
        · rw [hn] at ht
          cases ht
          exact hends
      | _ =>
        simp only [TxnSystem.step, hn]
        refine ⟨h, fun t ht => ?_⟩
        rw [hn] at ht
        cases ht
        trivial
  | abort n =>
    cases hn : w.sessions[n]? with
    | none =>
      simp only [TxnSystem.step, hn]
      exact ⟨h, trivial⟩
    | some t =>
      simp only [TxnSystem.step, hn]
      refine ⟨h.ended hn (h.sound.rollback t.id) ?_ (h.marks_rollback t.id) (fun l hl => ?_)
        (fun _ hne => Rows.beside_rollback h.sound hne), trivial⟩
      · rw [Rows.committed_rollback]
        exact h.good
      · exact h.locks l (List.mem_filter.1 hl).1
  | edit a =>
    refine ⟨?_, trivial⟩
    simp only [TxnSystem.step]
    split
    · exact h
    · next hfree =>
      have hnone : ∀ l ∈ w.rows.locks, some l.2 ≠ S.writes a := by
        intro l hl heq
        refine hfree ?_
        rw [← heq]
        simpa using ⟨l.1, hl⟩
      have henv := hM.edit a w.rows ha hnone
      have hs : ({ w.rows with env := S.edit a w.rows.env } : Rows E R K).Sound S.schema :=
        ⟨h.sound.unique, h.sound.linked, h.sound.owned, h.sound.guarded⟩
      refine ⟨hs, h.good, h.marks, h.locks, h.ids, h.fresh, fun t ht => ?_⟩
      exact (h.safe t ht).beside (Rows.beside_env fun k hk => henv _ hk)

/-- Only the commit of a transaction that has returned changes the committed rows. -/
theorem committed_step (S : TxnSystem L E R K ε α J A) (w : Rdb L E R K ε α J) {a : RdbAct J A}
    (h : ∀ n t x, a = .commit n → w.sessions[n]? = some t → t.prog ≠ .ret x) :
    (S.step w a).rows.committed = w.rows.committed := by
  cases a with
  | begin j => rfl
  | step n =>
    cases hn : w.sessions[n]? with
    | none => simp only [TxnSystem.step, hn]
    | some t =>
      simp only [TxnSystem.step, hn]
      cases t.prog with
      | ret a => rfl
      | fail e => rfl
      | read ok => rfl
      | lock k ok =>
        simp only [TxnSystem.answer]
        split <;> rfl
      | insert row ok taken orphan =>
        simp only [TxnSystem.answer]
        split
        · rfl
        · rfl
        · rfl
        · exact Rows.committed_insert ..
      | delete l p ok =>
        simp only [TxnSystem.answer]
        split
        · rfl
        · exact Rows.committed_delete ..
  | commit n =>
    cases hn : w.sessions[n]? with
    | none => simp only [TxnSystem.step, hn]
    | some t =>
      obtain ⟨i, job, prog⟩ := t
      cases prog with
      | ret x => exact absurd rfl (h n _ x rfl hn)
      | _ => simp only [TxnSystem.step, hn]
  | abort n =>
    cases hn : w.sessions[n]? with
    | none => simp only [TxnSystem.step, hn]
    | some t =>
      simp only [TxnSystem.step, hn]
      exact Rows.committed_rollback ..
  | edit a =>
    simp only [TxnSystem.step]
    split <;> rfl

omit [DecidableEq K] in
theorem committed_quiet (env : E) (rows : List R) (nextId : Nat) :
    (Rdb.quiet env rows nextId : Rdb L E R K ε α J).rows.committed = rows := by
  induction rows with
  | nil => rfl
  | cons r rows ih => exact congrArg (r :: ·) ih

/-- The constraints hold of the rows when nobody works on them. -/
theorem dbOk_quiet {env : E} {rows : List R} {nextId : Nat}
    (hapart : rows.Pairwise S.schema.Apart)
    (hlinked : ∀ r ∈ rows, ∀ k ∈ S.schema.refs r, ∃ r' ∈ rows, k ∈ S.schema.keys r')
    (hgood : M.good rows) : DbOk S M (Rdb.quiet env rows nextId) := by
  have hunmarked : ∀ v ∈ (Rdb.quiet env rows nextId : Rdb L E R K ε α J).rows.versions,
      v.row ∈ rows ∧ v.ins = none ∧ v.del = none := by
    intro v hv
    obtain ⟨r, hr, rfl⟩ := List.mem_map.1 hv
    exact ⟨hr, rfl, rfl⟩
  refine ⟨⟨?_, fun v hv k hk => ?_, fun v hv i hi => ?_, fun l hl => ?_⟩, ?_, fun v hv i hi => ?_,
    fun l hl => ?_, List.Pairwise.nil, fun t ht => ?_, fun t ht => ?_⟩
  · exact List.pairwise_map.2 hapart
  · obtain ⟨hr, hins, hdel⟩ := hunmarked v hv
    obtain ⟨r', hr', hk'⟩ := hlinked v.row hr k hk
    exact ⟨⟨r', none, none⟩, List.mem_map_of_mem hr', hk', .inl rfl, .inl rfl⟩
  · rw [(hunmarked v hv).2.2] at hi
    cases hi
  · cases hl
  · rwa [committed_quiet]
  · rw [(hunmarked v hv).2.1, (hunmarked v hv).2.2] at hi
    rcases hi with hi | hi <;> cases hi
  · cases hl
  · cases ht
  · cases ht

/-- Every run that heeds the law. -/
theorem dbOk_run (hM : Keeps S M) (h : DbOk S M w) {acts : List (RdbAct J A)}
    (ha : Along S.step M.Heeds w acts) :
    DbOk S M (acts.foldl S.step w) ∧ Along S.step M.Fulfils w acts :=
  run_of_along (DbOk S M) (fun _ _ h ha => dbOk_step hM h ha) h ha

end Run

end TxnLaw

end Process
