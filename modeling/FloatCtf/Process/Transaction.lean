import Mathlib.Data.List.Flatten
import Mathlib.Data.List.Perm.Basic

/-!
# Transactions that insert rows under a unique key

A store holds committed rows of type `R`, no two of them with the same key.  A transaction (`Tx`)
reads and inserts rows, one statement at a time; it sees the rows that are committed when a
statement starts and its own.  An insert whose key is held by a transaction that has not ended yet
waits for it, and one whose key is taken says so.  A transaction that returns may commit, and its
rows then become visible at once; until then it can be rolled back at any point.

`storeOk_run` is the rule: at the end of every run the keys are distinct, and the rows are those
of the start followed by the complete writes of some transactions, one block after the
other. -/

namespace Process

variable {R K ε α β J : Type}

/-! ## Programs -/

/-- A transaction that returns an `α`, or raises an `ε` and is rolled back.  The argument of a row
is its fresh identifier. -/
inductive Tx (R ε α : Type) : Type where
  | ret (a : α)
  | fail (e : ε)
  | read (ok : List R → Tx R ε α) (err : ε)
  | insert (row : Nat → R) (fresh taken : Tx R ε α) (err : ε)

namespace Tx

/-- One transaction after the other; a failure ends both. -/
def bind : Tx R ε α → (α → Tx R ε β) → Tx R ε β
  | ret a, f => f a
  | fail e, _ => fail e
  | read ok err, f => read (fun rows => (ok rows).bind f) err
  | insert row fresh taken err, f => insert row (fresh.bind f) (taken.bind f) err

instance : Monad (Tx R ε) where
  pure := ret
  bind := bind

/-- `SELECT`. -/
def query (err : ε) (f : List R → α) : Tx R ε α := read (fun rows => ret (f rows)) err

/-- `INSERT`, which ends the transaction with `dup` when the key is taken. -/
def insertRow (row : Nat → R) (dup err : ε) : Tx R ε Unit := insert row (ret ()) (fail dup) err

/-- `INSERT … ON CONFLICT DO NOTHING`, which says whether it inserted the row. -/
def insertIfAbsent (row : Nat → R) (err : ε) : Tx R ε Bool :=
  insert row (ret true) (ret false) err

/-- The transaction may return `a` having inserted the rows `ws`. -/
def Yields : Tx R ε α → List R → α → Prop
  | ret a, ws, b => ws = [] ∧ b = a
  | fail _, _, _ => False
  | read ok _, ws, b => ∃ rows, (ok rows).Yields ws b
  | insert row fresh taken _, ws, b =>
    (∃ n ws', ws = row n :: ws' ∧ fresh.Yields ws' b) ∨ taken.Yields ws b

/-- The transaction by itself: `rows` are committed, `ws` are its rows so far and `n` is the next
identifier. -/
def runAlone [DecidableEq K] (key : R → K) :
    Tx R ε α → List R → List R → Nat → Except ε (List R × Nat × α)
  | ret a, _, ws, n => .ok (ws, n, a)
  | fail e, _, _, _ => .error e
  | read ok _, rows, ws, n => (ok (rows ++ ws)).runAlone key rows ws n
  | insert row fresh taken _, rows, ws, n =>
    if key (row n) ∈ (rows ++ ws).map key then taken.runAlone key rows ws n
    else fresh.runAlone key rows (ws ++ [row n]) (n + 1)

/-- What it returns by itself, it may return. -/
theorem yields_of_runAlone_from [DecidableEq K] {key : R → K} {p : Tx R ε α} {rows ws ws' : List R}
    {n n' : Nat} {a : α} (h : p.runAlone key rows ws n = .ok (ws', n', a)) :
    n ≤ n' ∧ ∃ new, ws' = ws ++ new ∧ p.Yields new a := by
  induction p generalizing ws n with
  | ret b =>
    cases h
    exact ⟨Nat.le_refl _, [], (List.append_nil _).symm, rfl, rfl⟩
  | fail e => cases h
  | read ok err ih =>
    obtain ⟨hle, new, rfl, hy⟩ := ih (rows ++ ws) h
    exact ⟨hle, new, rfl, rows ++ ws, hy⟩
  | insert row fresh taken err ihf iht =>
    rw [runAlone] at h
    split_ifs at h
    · obtain ⟨hle, new, rfl, hy⟩ := iht h
      exact ⟨hle, new, rfl, .inr hy⟩
    · obtain ⟨hle, new, rfl, hy⟩ := ihf h
      exact ⟨Nat.le_of_succ_le hle, row n :: new, by simp, .inl ⟨n, new, rfl, hy⟩⟩

theorem yields_of_runAlone [DecidableEq K] {key : R → K} {p : Tx R ε α} {rows ws : List R}
    {n n' : Nat} {a : α} (h : p.runAlone key rows [] n = .ok (ws, n', a)) :
    p.Yields ws a ∧ n ≤ n' := by
  obtain ⟨hle, new, rfl, hy⟩ := yields_of_runAlone_from h
  exact ⟨hy, hle⟩

theorem yields_bind {p : Tx R ε α} {f : α → Tx R ε β} {ws : List R} {b : β}
    (h : (p >>= f).Yields ws b) :
    ∃ a ws₁ ws₂, ws = ws₁ ++ ws₂ ∧ p.Yields ws₁ a ∧ (f a).Yields ws₂ b := by
  change (p.bind f).Yields ws b at h
  induction p generalizing ws with
  | ret a => exact ⟨a, [], ws, rfl, ⟨rfl, rfl⟩, h⟩
  | fail e => exact h.elim
  | read ok err ih =>
    obtain ⟨rows, h⟩ := h
    obtain ⟨a, ws₁, ws₂, rfl, h₁, h₂⟩ := ih rows h
    exact ⟨a, ws₁, ws₂, rfl, ⟨rows, h₁⟩, h₂⟩
  | insert row fresh taken err ihf iht =>
    rcases h with ⟨n, ws', rfl, h⟩ | h
    · obtain ⟨a, ws₁, ws₂, rfl, h₁, h₂⟩ := ihf h
      exact ⟨a, row n :: ws₁, ws₂, rfl, .inl ⟨n, ws₁, rfl, h₁⟩, h₂⟩
    · obtain ⟨a, ws₁, ws₂, rfl, h₁, h₂⟩ := iht h
      exact ⟨a, ws₁, ws₂, rfl, .inr h₁, h₂⟩

theorem yields_query {err : ε} {f : List R → α} {ws : List R} {a : α}
    (h : (query err f).Yields ws a) : ws = [] := by
  obtain ⟨rows, h, -⟩ := h
  exact h

theorem yields_insertRow {row : Nat → R} {dup err : ε} {ws : List R} {a : Unit}
    (h : (insertRow row dup err).Yields ws a) : ∃ n, ws = [row n] := by
  rcases h with ⟨n, ws', rfl, rfl, -⟩ | h
  · exact ⟨n, rfl⟩
  · exact h.elim

theorem yields_insertIfAbsent {row : Nat → R} {err : ε} {ws : List R} {a : Bool}
    (h : (insertIfAbsent row err).Yields ws a) :
    a = true ∧ (∃ n, ws = [row n]) ∨ a = false ∧ ws = [] := by
  rcases h with ⟨n, ws', rfl, rfl, rfl⟩ | ⟨rfl, rfl⟩
  · exact .inl ⟨rfl, n, rfl⟩
  · exact .inr ⟨rfl, rfl⟩

end Tx

/-! ## The store -/

/-- A transaction under way: the call it serves, what it has still to do, and its rows so far. -/
structure Session (R ε α J : Type) where
  job : J
  prog : Tx R ε α
  writes : List R

/-- The committed rows, the next id, and the open transactions. -/
structure Store (R ε α J : Type) where
  rows : List R
  nextId : Nat
  sessions : List (Session R ε α J)

/-- The unique key of a row, and the transaction of each job. -/
structure TxSystem (R K ε α J : Type) where
  key : R → K
  prog : J → Tx R ε α

/-- What can happen next: a transaction begins, the one at index `i` makes its next statement, which
is answered or fails, it commits, it is rolled back, or the process crashes. -/
inductive TxAct (J : Type) where
  | begin (j : J)
  | step (i : Nat) (answered : Bool)
  | commit (i : Nat)
  | abort (i : Nat)
  | crash

/-- The rows of the transactions that have not ended yet. -/
def Store.held (w : Store R ε α J) : List R := w.sessions.flatMap (·.writes)

/-- Those of them that are not of the transaction at index `i`. -/
def Store.heldBeside (w : Store R ε α J) (i : Nat) : List R :=
  (w.sessions.eraseIdx i).flatMap (·.writes)

/-- The statement of the session `s` at index `i` fails. -/
def Store.refuse (w : Store R ε α J) (i : Nat) (s : Session R ε α J) : Store R ε α J :=
  match s.prog with
  | .read _ err | .insert _ _ _ err =>
    { w with sessions := w.sessions.set i { s with prog := .fail err } }
  | _ => w

namespace TxSystem

variable (S : TxSystem R K ε α J)

/-- The row meets one of `rows` on the unique key. -/
def Taken (rows : List R) (r : R) : Prop := S.key r ∈ rows.map S.key

instance [DecidableEq K] (rows : List R) (r : R) : Decidable (S.Taken rows r) :=
  inferInstanceAs (Decidable (S.key r ∈ rows.map S.key))

/-- The answered statement of the session `s` at index `i`. -/
def answer [DecidableEq K] (w : Store R ε α J) (i : Nat) (s : Session R ε α J) : Store R ε α J :=
  match s.prog with
  | .read ok _ => { w with sessions := w.sessions.set i { s with prog := ok (w.rows ++ s.writes) } }
  | .insert row fresh taken _ =>
    if S.Taken (w.rows ++ s.writes) (row w.nextId) then
      { w with sessions := w.sessions.set i { s with prog := taken } }
    else if S.Taken (w.heldBeside i) (row w.nextId) then w
    else
      { w with
        nextId := w.nextId + 1
        sessions := w.sessions.set i
          { s with prog := fresh, writes := s.writes ++ [row w.nextId] } }
  | _ => w

/-- One step of an open transaction: a statement that is answered or fails, a commit or a
rollback. -/
def step [DecidableEq K] (w : Store R ε α J) : TxAct J → Store R ε α J
  | .begin j => { w with sessions := w.sessions ++ [⟨j, S.prog j, []⟩] }
  | .step i answered =>
    match w.sessions[i]? with
    | some s => if answered then S.answer w i s else w.refuse i s
    | none => w
  | .commit i =>
    match w.sessions[i]? with
    | some ⟨_, .ret _, writes⟩ =>
      { w with rows := w.rows ++ writes, sessions := w.sessions.eraseIdx i }
    | _ => w
  | .abort i => { w with sessions := w.sessions.eraseIdx i }
  | .crash => { w with sessions := [] }

/-! ## Runs -/

/-- Rows that the complete writes of transactions for calls in `P` were added to, one block after
the other. -/
inductive Committed (P : J → Prop) (rows₀ : List R) : List R → Prop
  | start : Committed P rows₀ rows₀
  | block {rows ws : List R} {j : J} {a : α} : Committed P rows₀ rows → P j →
      (S.prog j).Yields ws a → Committed P rows₀ (rows ++ ws)

/-- The session is on its way through the transaction of its call, which is one of `P`. -/
structure Underway (P : J → Prop) (s : Session R ε α J) : Prop where
  call : P s.job
  rest : ∀ ws a, s.prog.Yields ws a → (S.prog s.job).Yields (s.writes ++ ws) a

/-- The invariant of a store: committed rows come from the jobs, keys are distinct, and open
transactions are under way. -/
structure StoreOk (P : J → Prop) (rows₀ : List R) (w : Store R ε α J) : Prop where
  committed : S.Committed P rows₀ w.rows
  distinct : ((w.rows ++ w.held).map S.key).Nodup
  underway : ∀ s ∈ w.sessions, S.Underway P s

variable {S} {P : J → Prop} {rows₀ : List R} {w : Store R ε α J} {i : Nat} {s : Session R ε α J}

/-- A row that was not there at the start came with the rest of its block. -/
theorem Committed.mem {rows : List R} (h : S.Committed P rows₀ rows) {r : R} (hr : r ∈ rows) :
    r ∈ rows₀ ∨ ∃ j ws a, P j ∧ (S.prog j).Yields ws a ∧ r ∈ ws ∧ ws ⊆ rows := by
  induction h with
  | start => exact .inl hr
  | @block rows ws j a _ hj hy ih =>
    rcases List.mem_append.1 hr with hold | hnew
    · refine (ih hold).imp id fun ⟨j', ws', a', hj', hy', hmem, hsub⟩ => ?_
      exact ⟨j', ws', a', hj', hy', hmem, fun x hx => List.mem_append_left ws (hsub hx)⟩
    · exact .inr ⟨j, ws, a, hj, hy, hnew, fun x hx => List.mem_append_right rows hx⟩

theorem held_perm (hi : w.sessions[i]? = some s) : w.held.Perm (s.writes ++ w.heldBeside i) := by
  obtain ⟨hlt, rfl⟩ := List.getElem?_eq_some_iff.1 hi
  exact ((List.getElem_cons_eraseIdx_perm hlt).flatMap_right _).symm

theorem held_set_perm (hi : w.sessions[i]? = some s) (s' : Session R ε α J) :
    ((w.sessions.set i s').flatMap (·.writes)).Perm (s'.writes ++ w.heldBeside i) := by
  obtain ⟨hlt, -⟩ := List.getElem?_eq_some_iff.1 hi
  exact (List.set_perm_cons_eraseIdx hlt s').flatMap_right _

theorem StoreOk.session (h : S.StoreOk P rows₀ w) (hi : w.sessions[i]? = some s) :
    S.Underway P s := h.underway s (List.mem_of_getElem? hi)

theorem StoreOk.distinct_session (h : S.StoreOk P rows₀ w) (hi : w.sessions[i]? = some s) :
    ((w.rows ++ (s.writes ++ w.heldBeside i)).map S.key).Nodup :=
  ((((held_perm hi).append_left w.rows).map S.key).nodup_iff).1 h.distinct

/-- The session at index `i` goes on. -/
theorem StoreOk.set (h : S.StoreOk P rows₀ w) (hi : w.sessions[i]? = some s) {n : Nat}
    {s' : Session R ε α J} (hs : S.Underway P s')
    (hd : ((w.rows ++ (s'.writes ++ w.heldBeside i)).map S.key).Nodup) :
    S.StoreOk P rows₀ { w with nextId := n, sessions := w.sessions.set i s' } where
  committed := h.committed
  distinct := ((((held_set_perm hi s').append_left w.rows).map S.key).nodup_iff).2 hd
  underway := by
    intro t ht
    rcases List.mem_or_eq_of_mem_set ht with hold | rfl
    · exact h.underway t hold
    · exact hs

/-- Some sessions end without leaving anything. -/
theorem StoreOk.drop (h : S.StoreOk P rows₀ w) {sessions : List (Session R ε α J)}
    (hs : sessions.Sublist w.sessions) : S.StoreOk P rows₀ { w with sessions } where
  committed := h.committed
  distinct := h.distinct.sublist (((hs.flatMap _).append_left _).map _)
  underway := fun s hmem => h.underway s (hs.subset hmem)

/-- A session that commits leaves its block of rows. -/
theorem StoreOk.commit (h : S.StoreOk P rows₀ w) {a : α} (hi : w.sessions[i]? = some s)
    (ha : s.prog = .ret a) :
    S.StoreOk P rows₀ { w with rows := w.rows ++ s.writes, sessions := w.sessions.eraseIdx i } where
  committed := by
    have hy := (h.session hi).rest [] a (by rw [ha]; exact ⟨rfl, rfl⟩)
    rw [List.append_nil] at hy
    exact h.committed.block (h.session hi).call hy
  distinct := by
    have hd := h.distinct_session hi
    rwa [← List.append_assoc] at hd
  underway := fun t ht => h.underway t ((List.eraseIdx_sublist _ _).subset ht)

theorem StoreOk.refuse (h : S.StoreOk P rows₀ w) (hi : w.sessions[i]? = some s) :
    S.StoreOk P rows₀ (w.refuse i s) := by
  obtain ⟨j, p, ws⟩ := s
  have hs := h.session hi
  have hd := h.distinct_session hi
  unfold Store.refuse
  cases p with
  | ret a => exact h
  | fail e => exact h
  | read ok err => exact h.set hi ⟨hs.call, fun vs a hy => hy.elim⟩ hd
  | insert row fresh taken err => exact h.set hi ⟨hs.call, fun vs a hy => hy.elim⟩ hd

variable [DecidableEq K]

theorem StoreOk.answer (h : S.StoreOk P rows₀ w) (hi : w.sessions[i]? = some s) :
    S.StoreOk P rows₀ (S.answer w i s) := by
  obtain ⟨j, p, ws⟩ := s
  have hs := h.session hi
  have hd := h.distinct_session hi
  unfold TxSystem.answer
  cases p with
  | ret a => exact h
  | fail e => exact h
  | read ok err => exact h.set hi ⟨hs.call, fun vs a hy => hs.rest vs a ⟨_, hy⟩⟩ hd
  | insert row fresh taken err =>
    dsimp only
    split_ifs with htaken hheld
    · exact h.set hi ⟨hs.call, fun vs a hy => hs.rest vs a (.inr hy)⟩ hd
    · exact h
    · refine h.set hi ⟨hs.call, fun vs a hy => ?_⟩ ?_
      · rw [List.append_assoc]
        exact hs.rest (row w.nextId :: vs) a (.inl ⟨w.nextId, vs, rfl, hy⟩)
      · -- the new key is neither committed, nor the session's own, nor held by another one
        have hp : (w.rows ++ (ws ++ [row w.nextId] ++ w.heldBeside i)).Perm
            (row w.nextId :: (w.rows ++ (ws ++ w.heldBeside i))) := by
          simp only [List.append_assoc, List.singleton_append]
          rw [← List.append_assoc, ← List.append_assoc]
          exact List.perm_middle
        refine ((hp.map S.key).nodup_iff).2 (List.nodup_cons.2 ⟨?_, hd⟩)
        simp only [Taken, List.map_append, List.mem_append] at htaken hheld ⊢
        tauto

/-- One action, with a call of `P` where a transaction begins. -/
theorem StoreOk.step (h : S.StoreOk P rows₀ w) {a : TxAct J} (ha : ∀ j, a = .begin j → P j) :
    S.StoreOk P rows₀ (S.step w a) := by
  cases a with
  | begin j =>
    refine ⟨h.committed, ?_, fun s hs => ?_⟩
    · simpa [TxSystem.step, Store.held] using h.distinct
    · rcases List.mem_append.1 hs with hold | hnew
      · exact h.underway s hold
      · rw [List.mem_singleton.1 hnew]
        exact ⟨ha j rfl, fun ws a hy => hy⟩
  | step i answered =>
    cases hi : w.sessions[i]? with
    | none => simpa only [TxSystem.step, hi] using h
    | some s =>
      cases answered with
      | true => simpa only [TxSystem.step, hi, ↓reduceIte] using h.answer hi
      | false =>
        simpa only [TxSystem.step, hi, Bool.false_eq_true, ↓reduceIte] using h.refuse hi
  | commit i =>
    unfold TxSystem.step
    dsimp only
    split
    · exact h.commit ‹_› rfl
    · exact h
  | abort i => exact h.drop (List.eraseIdx_sublist _ _)
  | crash => exact h.drop (List.nil_sublist _)

/-- Only a commit of a transaction that returned changes the rows, and it adds those of the
transaction. -/
theorem step_rows (w : Store R ε α J) (a : TxAct J) :
    (S.step w a).rows = w.rows ∨ ∃ i s r, a = .commit i ∧ w.sessions[i]? = some s ∧
      s.prog = .ret r ∧ (S.step w a).rows = w.rows ++ s.writes := by
  cases a with
  | begin j => exact .inl rfl
  | abort i => exact .inl rfl
  | crash => exact .inl rfl
  | step i answered =>
    left
    unfold TxSystem.step TxSystem.answer Store.refuse
    dsimp only
    split
    · split_ifs <;> split <;> (try split_ifs) <;> rfl
    · rfl
  | commit i =>
    unfold TxSystem.step
    dsimp only
    split
    · exact .inr ⟨i, _, _, rfl, ‹_›, rfl, rfl⟩
    · exact .inl rfl

/-- A run from a store with distinct keys in which no transaction is under way. -/
theorem storeOk_run {n : Nat} (h0 : (rows₀.map S.key).Nodup) {acts : List (TxAct J)}
    (ha : ∀ j, .begin j ∈ acts → P j) :
    S.StoreOk P rows₀ (acts.foldl S.step ⟨rows₀, n, []⟩) := by
  have hstart : S.StoreOk P rows₀ ⟨rows₀, n, []⟩ := by
    refine ⟨.start, ?_, fun s hs => absurd hs List.not_mem_nil⟩
    simpa [Store.held] using h0
  generalize (⟨rows₀, n, []⟩ : Store R ε α J) = w at hstart
  induction acts generalizing w with
  | nil => exact hstart
  | cons a acts ih =>
    exact ih (fun j hj => ha j (List.mem_cons_of_mem a hj)) _
      (hstart.step fun j hj => ha j (hj ▸ List.mem_cons_self))

end TxSystem

end Process
