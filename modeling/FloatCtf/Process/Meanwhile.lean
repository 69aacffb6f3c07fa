import FloatCtf.Process.Pool

/-!
# What one program does meanwhile

`Prog.Ends C T Q F` says of a program that it returns only with `Q` and fails only with errors of
`F`, and that the labels of its statements meet `T`, as long as the states in which it makes them
meet `C` and answer them.  `ends_run` carries this to a pool: whatever the others do in between, the statements of
the program at an index meet `T` as long as its states meet `C`.
-/

namespace Process

variable {L σ ε γ J E α β : Type}

namespace Prog

variable {C : L → σ → Prop} {T : L → Prop} {F : ε → Prop}

/-- The program ends with `Q` or `F`, keeps to the labels of `T`, and decides each step under what
the committed state says then. -/
def Ends (C : L → σ → Prop) (T : L → Prop) (Q : α → Prop) (F : ε → Prop) : Prog L σ ε α → Prop
  | ret a => Q a
  | fail e => F e
  | stmt l _ ok err => T l ∧ ∀ s, (C l s → (ok s).Ends C T Q F) ∧ (err s).Ends C T Q F

theorem Ends.imp {Q Q' : α → Prop} {F' : ε → Prop} (hQ : ∀ a, Q a → Q' a) (hF : ∀ e, F e → F' e)
    {p : Prog L σ ε α} (h : p.Ends C T Q F) : p.Ends C T Q' F' := by
  induction p with
  | ret a => exact hQ a h
  | fail e => exact hF e h
  | stmt l u ok err ihok iherr =>
    exact ⟨h.1, fun s => ⟨fun hs => ihok s ((h.2 s).1 hs), iherr s (h.2 s).2⟩⟩

theorem ends_bind {Q : β → Prop} {p : Prog L σ ε α} {f : α → Prog L σ ε β}
    (h : p.Ends C T (fun a => (f a).Ends C T Q F) F) : (p >>= f).Ends C T Q F := by
  rw [bind_eq_bind]
  induction p with
  | ret a => exact h
  | fail e => exact h
  | stmt l u ok err ihok iherr =>
    exact ⟨h.1, fun s => ⟨fun hs => ihok s ((h.2 s).1 hs), iherr s (h.2 s).2⟩⟩

theorem ends_attempt {Q : Except ε α → Prop} {F' : ε → Prop} {p : Prog L σ ε α}
    (h : p.Ends C T (fun a => Q (.ok a)) fun e => Q (.error e)) : p.attempt.Ends C T Q F' := by
  induction p with
  | ret a => exact h
  | fail e => exact h
  | stmt l u ok err ihok iherr =>
    exact ⟨h.1, fun s => ⟨fun hs => ihok s ((h.2 s).1 hs), iherr s (h.2 s).2⟩⟩

theorem ends_query {Q : α → Prop} {l : L} {e : ε} {f : σ → α} (hl : T l)
    (h : ∀ s, C l s → Q (f s)) (he : F e) : (query l e f).Ends C T Q F :=
  ⟨hl, fun s => ⟨h s, he⟩⟩

theorem ends_look {Q : α → Prop} {l : L} {f : σ → α} (hl : T l) (h : ∀ s, Q (f s)) :
    (look l f : Prog L σ ε α).Ends C T Q F :=
  ⟨hl, fun s => ⟨fun _ => h s, h s⟩⟩

end Prog

/-! ## Pools -/

variable {S : System L σ ε γ J E} {w : Pool L σ ε γ J} {C : L → σ → Prop} {T : L → Prop}

/-- The program at index `n` makes its statements in states that meet `C`, and nothing crashes. -/
def Meanwhile (C : L → σ → Prop) (n : Nat) (w : Pool L σ ε γ J) : Act J E → Prop
  | .step i true => i = n → ∀ x ∈ w.next n, C x.2 w.state
  | .crash => False
  | _ => True

/-- The statement that the program at index `n` makes meets `T`. -/
def Says (T : L → Prop) (n : Nat) (w : Pool L σ ε γ J) : Act J E → Prop
  | .step i _ => i = n → ∀ x ∈ w.next n, T x.2
  | _ => True

/-- The program at index `n` ends well. -/
def Pool.EndsAt (C : L → σ → Prop) (T : L → Prop) (n : Nat) (w : Pool L σ ε γ J) : Prop :=
  ∃ t, w.threads[n]? = some t ∧ t.2.Ends C T (fun _ => True) fun _ => True

theorem endsAt_step {n : Nat} (h : w.EndsAt C T n) {a : Act J E} (ha : Meanwhile C n w a) :
    (S.step w a).EndsAt C T n ∧ Says T n w a := by
  obtain ⟨⟨j, p⟩, hn, hp⟩ := h
  have hlt : n < w.threads.length := (List.getElem?_eq_some_iff.1 hn).1
  cases a with
  | spawn j' =>
    refine ⟨⟨(j, p), ?_, hp⟩, trivial⟩
    simp only [System.step]
    rw [List.getElem?_append_left hlt, hn]
  | env e => exact ⟨⟨(j, p), hn, hp⟩, trivial⟩
  | crash => exact absurd ha id
  | step i answered =>
    by_cases hi : i = n
    · subst hi
      cases p with
      | ret a =>
        refine ⟨⟨(j, .ret a), by simp only [System.step, hn], hp⟩, fun _ x hx => ?_⟩
        simp [Pool.next, hn] at hx
      | fail e =>
        refine ⟨⟨(j, .fail e), by simp only [System.step, hn], hp⟩, fun _ x hx => ?_⟩
        simp [Pool.next, hn] at hx
      | stmt l u ok err =>
        have hnext : w.next i = some (j, l) := by simp [Pool.next, hn]
        obtain ⟨hok, herr⟩ := hp.2 w.state
        refine ⟨?_, fun _ x hx => ?_⟩
        · cases answered with
          | true =>
            refine ⟨(j, ok w.state), ?_, hok (ha rfl (j, l) hnext)⟩
            simp only [System.step, hn, ↓reduceIte]
            exact List.getElem?_set_self hlt
          | false =>
            refine ⟨(j, err w.state), ?_, herr⟩
            simp only [System.step, hn, Bool.false_eq_true, ↓reduceIte]
            exact List.getElem?_set_self hlt
        · rw [hnext] at hx
          cases hx
          exact hp.1
    · refine ⟨⟨(j, p), ?_, hp⟩, fun h => absurd h hi⟩
      simp only [System.step]
      split
      · split <;> exact (List.getElem?_set_ne hi).trans hn
      · exact hn

/-- A program that was started at index `n`, in a run. -/
theorem ends_run {n : Nat} (h : w.EndsAt C T n) {acts : List (Act J E)}
    (ha : Along S.step (Meanwhile C n) w acts) : Along S.step (Says T n) w acts :=
  (run_of_along (Pool.EndsAt C T n) (fun _ _ hw hc => endsAt_step hw hc) h ha).2

end Process
