import FloatCtf.Process.Prog
import FloatCtf.Process.Trace

/-!
# Transactions behind one lock

Every job takes the same lock first, so at most one of their transactions is open.  It works on a
draft, which is the committed state with its own writes, one statement at a time.  What is written
outside the lock is committed at once and shows in the draft as well.  A transaction that has
returned may commit its draft, and until then it can be rolled back at any point.

`Settles` is what a program owes: whatever its draft has become when it makes a statement, it
returns only with the invariant.  `Locked.Ok.step` is the rule: a write outside the lock has to keep
the invariant of the committed state, and that of a draft that is about to be committed.
-/

namespace Process

variable {L σ ε J E α β : Type}

/-- Jobs under one lock, with writes that come from beside it. -/
structure LockSystem (L σ ε J E : Type) where
  prog : J → Prog L σ ε Unit
  /-- What the write does, if the committed state allows it. -/
  direct : E → σ → Option (σ → σ)

/-- The open transaction: what it has still to do, and the rows as it sees them. -/
structure Draft (L σ ε : Type) where
  prog : Prog L σ ε Unit
  view : σ

/-- The committed state, and the transaction that holds the lock. -/
structure Locked (L σ ε : Type) where
  state : σ
  draft : Option (Draft L σ ε)

/-- What can happen next: a transaction takes the lock, it makes its next statement, which is
answered or fails, it commits, it is rolled back, or something is written outside the lock. -/
inductive LockAct (J E : Type) where
  | begin (j : J)
  | step (answered : Bool)
  | commit
  | rollback
  | direct (e : E)
  deriving DecidableEq

/-- The transaction has returned. -/
def Draft.done (d : Draft L σ ε) : Bool :=
  match d.prog with
  | .ret _ => true
  | _ => false

/-- The statement that the transaction makes next. -/
def Draft.next (d : Draft L σ ε) : Option L :=
  match d.prog with
  | .stmt l _ _ _ => some l
  | _ => none

/-- One step: a job begins, runs a statement, commits or is rolled back, or a write comes from
beside. -/
def LockSystem.step (S : LockSystem L σ ε J E) (w : Locked L σ ε) : LockAct J E → Locked L σ ε
  | .begin j =>
    match w.draft with
    | none => { w with draft := some { prog := S.prog j, view := w.state } }
    | some _ => w
  | .step answered =>
    match w.draft with
    | some { prog := .stmt _ u ok err, view } =>
      if answered then { w with draft := some { prog := ok view, view := u view } }
      else { w with draft := some { prog := err view, view } }
    | _ => w
  | .commit =>
    match w.draft with
    | some { prog := .ret _, view } => { state := view, draft := none }
    | _ => w
  | .rollback => { w with draft := none }
  | .direct e =>
    match S.direct e w.state with
    | some f =>
      { state := f w.state, draft := w.draft.map fun d => { d with view := f d.view } }
    | none => w

/-- A state in which nobody holds the lock. -/
def Locked.initial (s : σ) : Locked L σ ε := { state := s, draft := none }

/-! ## What a transaction owes -/

/-- The program returns only with `I`, if its statements meet `C`. -/
def Settles (C : L → σ → Prop) (I : σ → Prop) : Prog L σ ε α → σ → Prop
  | .ret _, s => I s
  | .fail _, _ => True
  | .stmt l u ok err, _ => ∀ s, (C l s → Settles C I (ok s) (u s)) ∧ Settles C I (err s) s

variable {C : L → σ → Prop} {I : σ → Prop} {S : LockSystem L σ ε J E} {w : Locked L σ ε}

/-- What the end of a sequence settles, the sequence settles. -/
theorem settles_bind {p : Prog L σ ε α} {f : α → Prog L σ ε β} (hf : ∀ a s, Settles C I (f a) s)
    (s : σ) : Settles C I (p >>= f) s := by
  rw [Prog.bind_eq_bind]
  induction p generalizing s with
  | ret a => exact hf a s
  | fail e => trivial
  | stmt l u ok err ihok iherr => exact fun v => ⟨fun _ => ihok v (u v), iherr v v⟩

theorem settles_query {l : L} {e : ε} {f : σ → α} {k : α → Prog L σ ε β}
    (h : ∀ s, C l s → Settles C I (k (f s)) s) (s : σ) :
    Settles C I (Prog.query l e f >>= k) s := fun v => ⟨h v, trivial⟩

/-- The committed state has the invariant, and the open transaction owes it. -/
structure Locked.Ok (C : L → σ → Prop) (I : σ → Prop) (w : Locked L σ ε) : Prop where
  state : I w.state
  draft : ∀ d ∈ w.draft, Settles C I d.prog d.view

/-- The next statement meets `C`, and a write outside the lock spares the committed state and a
draft that is about to be committed. -/
def LockSystem.Heeds (S : LockSystem L σ ε J E) (C : L → σ → Prop) (I : σ → Prop)
    (w : Locked L σ ε) : LockAct J E → Prop
  | .step true => ∀ d ∈ w.draft, ∀ l ∈ d.next, C l d.view
  | .direct e => ∀ f ∈ S.direct e w.state, I (f w.state) ∧
      ∀ d ∈ w.draft, d.done = true → I (f d.view)
  | _ => True

theorem Locked.Ok.initial {s : σ} (h : I s) : Locked.Ok C I (Locked.initial s : Locked L σ ε) :=
  ⟨h, fun _ hd => nomatch hd⟩

theorem Locked.Ok.step (hprog : ∀ j s, Settles C I (S.prog j) s) (h : w.Ok C I) {a : LockAct J E}
    (ha : S.Heeds C I w a) : (S.step w a).Ok C I := by
  obtain ⟨s, draft⟩ := w
  cases a with
  | begin j =>
    cases draft with
    | none =>
      refine ⟨h.state, fun d hd => ?_⟩
      cases hd
      exact hprog j s
    | some d => exact h
  | rollback => exact ⟨h.state, fun _ hd => nomatch hd⟩
  | commit =>
    rcases draft with _ | ⟨_ | _ | _, v⟩
    · exact h
    · exact ⟨h.draft _ rfl, fun _ hd => nomatch hd⟩
    · exact h
    · exact h
  | step answered =>
    rcases draft with _ | ⟨_ | _ | ⟨l, u, ok, err⟩, v⟩
    · exact h
    · exact h
    · exact h
    · have hsettles := h.draft _ rfl v
      cases answered with
      | false =>
        refine ⟨h.state, fun d hd => ?_⟩
        cases hd
        exact hsettles.2
      | true =>
        refine ⟨h.state, fun d hd => ?_⟩
        cases hd
        exact hsettles.1 (ha _ rfl l rfl)
  | direct e =>
    unfold LockSystem.step
    dsimp only
    split
    · next f hf =>
      obtain ⟨hs, hd⟩ := ha f hf
      refine ⟨hs, fun d hmem => ?_⟩
      obtain ⟨d₀, rfl, rfl⟩ := Option.map_eq_some_iff.1 hmem
      -- only a program that has returned looks at its draft before the next statement
      obtain ⟨p, v⟩ := d₀
      cases p with
      | ret a => exact hd _ rfl rfl
      | fail err => trivial
      | stmt l u ok err =>
        have hsettles := h.draft ⟨.stmt l u ok err, v⟩ rfl
        exact hsettles
    · exact h

/-- A transaction that has not returned writes nothing. -/
theorem LockSystem.state_step_of_not_done (hd : ∀ d ∈ w.draft, d.done = false) {a : LockAct J E}
    (ha : ∀ e, a ≠ .direct e) : (S.step w a).state = w.state := by
  obtain ⟨s, draft⟩ := w
  cases a with
  | begin j => cases draft <;> rfl
  | rollback => rfl
  | direct e => exact absurd rfl (ha e)
  | commit =>
    rcases draft with _ | ⟨_ | _ | _, v⟩
    · rfl
    · cases hd _ rfl
    · rfl
    · rfl
  | step answered =>
    rcases draft with _ | ⟨_ | _ | ⟨l, u, ok, err⟩, v⟩
    · rfl
    · rfl
    · rfl
    · cases answered <;> rfl

end Process
