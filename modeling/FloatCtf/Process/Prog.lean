import Mathlib.Data.List.Basic

/-!
# Programs made of atomic statements

A `Prog L σ ε α` runs against a shared state `σ`, one statement at a time.  A statement carries a
label of type `L`, updates the state in one atomic step and continues from the state it found; the
environment may also answer a statement with an error, and the program then continues on its error
branch.  Between two statements other programs may act on `σ`, or the process may stop.

This file has the monad, the run in which nothing happens between two statements (`Prog.run`), and
the rule for what every single statement of a program respects (`Prog.Does`,
`Prog.Within`). -/

namespace Process

theorem except_bind_ok {ε α β : Type} {x : Except ε α} {f : α → Except ε β} {b : β}
    (h : (x >>= f) = .ok b) : ∃ a, x = .ok a ∧ f a = .ok b := by
  cases x with
  | error e => cases h
  | ok a => exact ⟨a, rfl, h⟩

/-- A program over the shared state `σ` that returns an `α` or raises an `ε`. -/
inductive Prog (L σ ε α : Type) : Type where
  | ret (a : α)
  | fail (e : ε)
  | stmt (l : L) (upd : σ → σ) (ok err : σ → Prog L σ ε α)

namespace Prog

variable {L σ ε α β : Type}

/-- One program after the other; a failure ends both. -/
def bind : Prog L σ ε α → (α → Prog L σ ε β) → Prog L σ ε β
  | ret a, f => f a
  | fail e, _ => fail e
  | stmt l u ok err, f => stmt l u (fun s => (ok s).bind f) (fun s => (err s).bind f)

instance : Monad (Prog L σ ε) where
  pure := ret
  bind := bind

/-- Run `p` and hand its outcome, result or error, to the caller. -/
def attempt : Prog L σ ε α → Prog L σ ε (Except ε α)
  | ret a => ret (.ok a)
  | fail e => ret (.error e)
  | stmt l u ok err => stmt l u (fun s => (ok s).attempt) (fun s => (err s).attempt)

/-- Read the state without the possibility of an error. -/
def look (l : L) (f : σ → α) : Prog L σ ε α :=
  stmt l id (fun s => ret (f s)) (fun s => ret (f s))

/-- A read; the environment may answer with the error `e`. -/
def query (l : L) (e : ε) (f : σ → α) : Prog L σ ε α :=
  stmt l id (fun s => ret (f s)) fun _ => fail e

/-- The state after a statement that may refuse to act. -/
def after (f : σ → Except ε (σ × α)) (s : σ) : σ :=
  match f s with
  | .ok (s', _) => s'
  | .error _ => s

theorem after_of_ok {f : σ → Except ε (σ × α)} {s s' : σ} {a : α} (h : f s = .ok (s', a)) :
    after f s = s' := by
  rw [after, h]

theorem after_of_error {f : σ → Except ε (σ × α)} {s : σ} {e : ε} (h : f s = .error e) :
    after f s = s := by
  rw [after, h]

/-- The program after a statement that may refuse to act. -/
def answer (f : σ → Except ε (σ × α)) (s : σ) : Prog L σ ε α :=
  match f s with
  | .ok (_, a) => ret a
  | .error e => fail e

/-- A guarded write: `f` refuses with its own error, or the environment answers with `e`. -/
def exec (l : L) (e : ε) (f : σ → Except ε (σ × α)) : Prog L σ ε α :=
  stmt l (after f) (answer f) fun _ => fail e

/-- Run `f` on the members of a list, one after the other. -/
def each {ι : Type} : List ι → (ι → Prog L σ ε Unit) → Prog L σ ε Unit
  | [], _ => ret ()
  | i :: is, f => (f i).bind fun _ => each is f

/-- The program on a part of a larger state, with other labels. -/
def zoom {L' τ : Type} (label : L → L') (get : τ → σ) (set : σ → τ → τ) :
    Prog L σ ε α → Prog L' τ ε α
  | ret a => ret a
  | fail e => fail e
  | stmt l u ok err => stmt (label l) (fun t => set (u (get t)) t)
      (fun t => (ok (get t)).zoom label get set) fun t => (err (get t)).zoom label get set

theorem bind_eq_bind (p : Prog L σ ε α) (f : α → Prog L σ ε β) : p >>= f = p.bind f := rfl

/-! ## The undisturbed run -/

/-- The statement labelled `l` succeeds when `ans l` holds, and nothing acts on the state between
two statements. -/
def run (ans : L → Bool) : Prog L σ ε α → σ → σ × Except ε α
  | ret a, s => (s, .ok a)
  | fail e, s => (s, .error e)
  | stmt l u ok err, s => if ans l then (ok s).run ans (u s) else (err s).run ans s

variable (ans : L → Bool)

@[simp] theorem run_pure (a : α) (s : σ) : (pure a : Prog L σ ε α).run ans s = (s, .ok a) := rfl

@[simp] theorem run_ret (a : α) (s : σ) : (ret a : Prog L σ ε α).run ans s = (s, .ok a) := rfl

@[simp] theorem run_fail (e : ε) (s : σ) : (fail e : Prog L σ ε α).run ans s = (s, .error e) := rfl

@[simp] theorem run_look (l : L) (f : σ → α) (s : σ) :
    (look l f : Prog L σ ε α).run ans s = (s, .ok (f s)) := by
  simp only [look, run, id, ite_self]

theorem run_query {l : L} (h : ans l = true) (e : ε) (f : σ → α) (s : σ) :
    (query l e f).run ans s = (s, .ok (f s)) := by
  simp only [query, run, h, id, ↓reduceIte]

theorem run_exec {l : L} (h : ans l = true) (e : ε) (f : σ → Except ε (σ × α)) (s : σ) :
    (exec l e f).run ans s = match f s with
      | .ok (s', a) => (s', .ok a)
      | .error e => (s, .error e) := by
  simp only [exec, run, after, answer, h, ↓reduceIte]
  split <;> rfl

/-- The run of a sequence: the second part starts where the first one returned. -/
@[simp] theorem run_bind (p : Prog L σ ε α) (f : α → Prog L σ ε β) (s : σ) :
    (p >>= f).run ans s = match p.run ans s with
      | (s', .ok a) => (f a).run ans s'
      | (s', .error e) => (s', .error e) := by
  rw [bind_eq_bind]
  induction p generalizing s with
  | ret a => rfl
  | fail e => rfl
  | stmt l u ok err ihok iherr =>
    simp only [bind, run]
    split_ifs
    · exact ihok s (u s)
    · exact iherr s s

/-- A sequence that returns went through its first part. -/
theorem run_bind_ok {p : Prog L σ ε α} {f : α → Prog L σ ε β} {s : σ} {b : β}
    (h : ((p >>= f).run ans s).2 = .ok b) : ∃ a, (p.run ans s).2 = .ok a ∧
      (p >>= f).run ans s = (f a).run ans (p.run ans s).1 := by
  rw [run_bind] at h ⊢
  rcases hp : p.run ans s with ⟨s', e | a⟩ <;> rw [hp] at h
  · cases h
  · exact ⟨a, rfl, rfl⟩

/-- A sequence that returns, in parts. -/
theorem run_bind_inv {p : Prog L σ ε α} {f : α → Prog L σ ε β} {s s' : σ} {b : β}
    (h : (p >>= f).run ans s = (s', .ok b)) :
    ∃ s₁ a, p.run ans s = (s₁, .ok a) ∧ (f a).run ans s₁ = (s', .ok b) := by
  rw [run_bind] at h
  rcases hp : p.run ans s with ⟨s₁, e | a⟩ <;> rw [hp] at h
  · cases h
  · exact ⟨s₁, a, rfl, h⟩

theorem run_query_inv {l : L} {e : ε} {f : σ → α} {s s' : σ} {a : α}
    (h : (query l e f).run ans s = (s', .ok a)) : s' = s ∧ a = f s := by
  simp only [query, run, id] at h
  split_ifs at h
  · cases h
    exact ⟨rfl, rfl⟩
  · cases h

theorem run_exec_inv {l : L} {e : ε} {f : σ → Except ε (σ × α)} {s s' : σ} {a : α}
    (h : (exec l e f).run ans s = (s', .ok a)) : f s = .ok (s', a) := by
  simp only [exec, run, after, answer] at h
  split_ifs at h
  · cases hf : f s with
    | error e =>
      rw [hf] at h
      cases h
    | ok r =>
      rw [hf] at h
      cases h
      rfl
  · cases h

/-- The state after a transaction: a program that does not return leaves nothing. -/
def committed (p : Prog L σ ε α) (s : σ) : σ :=
  match p.run ans s with
  | (s', .ok _) => s'
  | (_, .error _) => s

/-- A transaction leaves the state, or it returned. -/
theorem committed_cases (p : Prog L σ ε α) (s : σ) :
    p.committed ans s = s ∨ ∃ a, p.run ans s = (p.committed ans s, .ok a) := by
  unfold committed
  rcases p.run ans s with ⟨s', e | a⟩
  · exact .inl rfl
  · exact .inr ⟨a, rfl⟩

theorem run_query_ok {l : L} {e : ε} {f : σ → α} {s : σ} {a : α}
    (h : ((query l e f).run ans s).2 = .ok a) :
    a = f s ∧ ((query l e f).run ans s).1 = s := by
  simp only [query, run, id] at h ⊢
  split_ifs at h ⊢
  cases h
  exact ⟨rfl, rfl⟩

theorem run_exec_ok {l : L} {e : ε} {f : σ → Except ε (σ × α)} {s : σ} {a : α}
    (h : ((exec l e f).run ans s).2 = .ok a) : f s = .ok (((exec l e f).run ans s).1, a) := by
  simp only [exec, run, after, answer] at h ⊢
  split_ifs at h ⊢
  cases hf : f s with
  | error e => simp [hf] at h
  | ok r =>
    simp only [hf, run] at h ⊢
    cases h
    rfl

@[simp] theorem run_attempt (p : Prog L σ ε α) (s : σ) :
    p.attempt.run ans s = ((p.run ans s).1, .ok (p.run ans s).2) := by
  induction p generalizing s with
  | ret a => rfl
  | fail e => rfl
  | stmt l u ok err ihok iherr =>
    simp only [attempt, run]
    split_ifs
    · exact ihok s (u s)
    · exact iherr s s

/-- A loop whose body never fails does not fail. -/
theorem run_each_ok {ι : Type} {f : ι → Prog L σ ε Unit}
    (hf : ∀ i s, ((f i).run ans s).2 = .ok ()) :
    ∀ (is : List ι) (s : σ), ((each is f).run ans s).2 = .ok ()
  | [], _ => rfl
  | i :: is, s => by
    have hi := hf i s
    rw [each, ← bind_eq_bind, run_bind]
    rcases hr : (f i).run ans s with ⟨s', e | a⟩
    · rw [hr] at hi
      cases hi
    · exact run_each_ok hf is s'

theorem run_ite (c : Prop) [Decidable c] (p q : Prog L σ ε α) (s : σ) :
    (if c then p else q).run ans s = if c then p.run ans s else q.run ans s := by
  split_ifs <;> rfl

/-! ## What a program returns -/

/-- Whatever its statements find, the program returns only what meets `Q`. -/
def Returns (Q : α → Prop) : Prog L σ ε α → Prop
  | ret a => Q a
  | fail _ => True
  | stmt _ _ ok err => ∀ s, (ok s).Returns Q ∧ (err s).Returns Q

theorem returns_true (p : Prog L σ ε α) : p.Returns fun _ => True := by
  induction p with
  | ret a => trivial
  | fail e => trivial
  | stmt l u ok err ihok iherr => exact fun s => ⟨ihok s, iherr s⟩

theorem returns_exec {l : L} {e : ε} {f : σ → Except ε (σ × α)} {Q : α → Prop}
    (h : ∀ s s' a, f s = .ok (s', a) → Q a) : (exec l e f).Returns Q := by
  refine fun s => ⟨?_, trivial⟩
  unfold answer
  split
  · exact h _ _ _ ‹_›
  · trivial

theorem returns_bind {p : Prog L σ ε α} {f : α → Prog L σ ε β} {Q : β → Prop} {P : α → Prop}
    (hp : p.Returns P) (hf : ∀ a, P a → (f a).Returns Q) : (p >>= f).Returns Q := by
  rw [bind_eq_bind]
  induction p with
  | ret a => exact hf a hp
  | fail e => trivial
  | stmt l u ok err ihok iherr => exact fun s => ⟨ihok s (hp s).1, iherr s (hp s).2⟩

theorem run_returns {p : Prog L σ ε α} {Q : α → Prop} (hp : p.Returns Q) {s : σ} {a : α}
    (h : (p.run ans s).2 = .ok a) : Q a := by
  induction p generalizing s with
  | ret b =>
    cases h
    exact hp
  | fail e => cases h
  | stmt l u ok err ihok iherr =>
    simp only [run] at h
    split_ifs at h
    · exact ihok s (hp s).1 h
    · exact iherr s (hp s).2 h

/-! ## What every statement respects -/

/-- Every statement of the program, labelled `l`, moves the state along `T l`. -/
def Does (T : L → σ → σ → Prop) : Prog L σ ε α → Prop
  | ret _ => True
  | fail _ => True
  | stmt l u ok err => ∀ s, T l s (u s) ∧ (ok s).Does T ∧ (err s).Does T

/-- Every statement of the program moves the state along `R`. -/
abbrev Within (R : σ → σ → Prop) (p : Prog L σ ε α) : Prop := p.Does fun _ => R

variable {T : L → σ → σ → Prop} {R : σ → σ → Prop}

theorem Does.mono {T' : L → σ → σ → Prop} (h : ∀ l s s', T l s s' → T' l s s') {p : Prog L σ ε α}
    (hp : p.Does T) : p.Does T' := by
  induction p with
  | ret a => trivial
  | fail e => trivial
  | stmt l u ok err ihok iherr =>
    exact fun s => ⟨h l s _ (hp s).1, ihok s (hp s).2.1, iherr s (hp s).2.2⟩

theorem does_pure (a : α) : (pure a : Prog L σ ε α).Does T := trivial

theorem does_bind {p : Prog L σ ε α} {f : α → Prog L σ ε β} (hp : p.Does T)
    (hf : ∀ a, (f a).Does T) : (p >>= f).Does T := by
  rw [bind_eq_bind]
  induction p with
  | ret a => exact hf a
  | fail e => trivial
  | stmt l u ok err ihok iherr =>
    exact fun s => ⟨(hp s).1, ihok s (hp s).2.1, iherr s (hp s).2.2⟩

theorem does_attempt {p : Prog L σ ε α} (hp : p.Does T) : p.attempt.Does T := by
  induction p with
  | ret a => trivial
  | fail e => trivial
  | stmt l u ok err ihok iherr =>
    exact fun s => ⟨(hp s).1, ihok s (hp s).2.1, iherr s (hp s).2.2⟩

theorem does_if {c : Prop} [Decidable c] {p q : Prog L σ ε α} (hp : c → p.Does T)
    (hq : ¬ c → q.Does T) : (if c then p else q).Does T := by
  split_ifs with h
  · exact hp h
  · exact hq h

theorem does_ite {c : Prop} [Decidable c] {p q : Prog L σ ε α} (hp : p.Does T) (hq : q.Does T) :
    (if c then p else q).Does T := does_if (fun _ => hp) fun _ => hq

theorem does_look {l : L} (hr : ∀ s, T l s s) (f : σ → α) :
    (look l f : Prog L σ ε α).Does T := fun s => ⟨hr s, trivial, trivial⟩

theorem does_query {l : L} (hr : ∀ s, T l s s) (e : ε) (f : σ → α) :
    (query l e f).Does T := fun s => ⟨hr s, trivial, trivial⟩

theorem does_answer (f : σ → Except ε (σ × α)) (s : σ) :
    (answer f s : Prog L σ ε α).Does T := by
  unfold answer
  split <;> trivial

theorem does_exec {l : L} (hr : ∀ s, T l s s) {e : ε} {f : σ → Except ε (σ × α)}
    (hf : ∀ s s' a, f s = .ok (s', a) → T l s s') : (exec l e f).Does T := by
  refine fun s => ⟨?_, does_answer f s, trivial⟩
  unfold after
  split
  · exact hf s _ _ ‹_›
  · exact hr s

/-- A write of which it matters whether it was refused. -/
theorem does_exec_cases {l : L} {e : ε} {f : σ → Except ε (σ × α)}
    (hok : ∀ s s' a, f s = .ok (s', a) → T l s s') (hno : ∀ s e, f s = .error e → T l s s) :
    (exec l e f).Does T := by
  refine fun s => ⟨?_, does_answer f s, trivial⟩
  unfold after
  split
  · exact hok s _ _ ‹_›
  · exact hno s _ ‹_›

theorem does_exec_after {l : L} {e : ε} {f : σ → Except ε (σ × α)}
    (hf : ∀ s, T l s (after f s)) : (exec l e f).Does T :=
  fun s => ⟨hf s, does_answer f s, trivial⟩

theorem does_each {ι : Type} {f : ι → Prog L σ ε Unit} {is : List ι}
    (hf : ∀ i ∈ is, (f i).Does T) : (each is f).Does T := by
  induction is with
  | nil => trivial
  | cons i is ih =>
    exact does_bind (hf i List.mem_cons_self) fun _ =>
      ih fun i' hi' => hf i' (List.mem_cons_of_mem i hi')

/-- A program on a part of the state leaves the rest. -/
theorem does_zoom {L' τ : Type} {T : L' → τ → τ → Prop} {label : L → L'} {get : τ → σ}
    {set : σ → τ → τ} (h : ∀ l s t, T (label l) t (set s t)) (p : Prog L σ ε α) :
    (p.zoom label get set).Does T := by
  induction p with
  | ret a => trivial
  | fail e => trivial
  | stmt l u ok err ihok iherr => exact fun t => ⟨h l _ t, ihok (get t), iherr (get t)⟩

/-- What every statement respects, the run respects. -/
theorem run_within (hr : ∀ s, R s s) (ht : ∀ {a b c}, R a b → R b c → R a c)
    {p : Prog L σ ε α} (hp : p.Within R) (s : σ) : R s (p.run ans s).1 := by
  induction p generalizing s with
  | ret a => exact hr s
  | fail e => exact hr s
  | stmt l u ok err ihok iherr =>
    simp only [run]
    split_ifs
    · exact ht (hp s).1 (ihok s (hp s).2.1 (u s))
    · exact iherr s (hp s).2.2 s

/-- A sequence whose first part respects `R`: it stops where that part failed, or goes on from
where it returned. -/
theorem run_bind_within (hr : ∀ s, R s s) (ht : ∀ {a b c}, R a b → R b c → R a c)
    {p : Prog L σ ε α} (hp : p.Within R) {f : α → Prog L σ ε β} {s : σ} {T : σ → Prop}
    (hfail : ∀ s', R s s' → T s') (hok : ∀ a s', R s s' → T ((f a).run ans s').1) :
    T ((p >>= f).run ans s).1 := by
  have h := run_within ans hr ht hp s
  rw [run_bind]
  rcases hp : p.run ans s with ⟨s', e | a⟩ <;> rw [hp] at h
  · exact hfail s' h
  · exact hok a s' h

end Prog

end Process
