import FloatCtf.Process.Pool

/-!
# Jobs that rely on different things

In a `Pact` every job has its own rely, so that a statement may disturb the jobs that do not depend
on it.  A program is safe under the law of its job, a program without a statement left is not
disturbed by anything, and `Pact.Ok.step` is the rule: a statement that meets the condition of the
pact and moves the view along what every live program relies on keeps the pact.
-/

namespace Process

variable {L σ ε γ J E : Type}

/-- What each job relies on, the invariant, the condition on the statements, and what they can do. -/
structure Pact (S : System L σ ε γ J E) where
  rely : J → σ × γ → σ × γ → Prop
  inv : σ × γ → Prop
  cond : J → L → σ × γ → Prop
  does : J → L → σ → σ → Prop
  refl : ∀ j v, rely j v v
  trans : ∀ {j a b c}, rely j a b → rely j b c → rely j a c

variable {S : System L σ ε γ J E}

namespace Pact

/-- The law of one job. -/
def law (P : Pact S) (j : J) : Law S where
  rely := P.rely j
  guar _ := P.rely j
  inv := P.inv
  cond := P.cond
  refl := P.refl j
  trans := P.trans
  guar_refl _ := P.refl j
  rely_of_guar := id

/-- The state of a pool under a pact: its invariant, and every thread doing what its job may and
safe under its law. -/
structure Ok (P : Pact S) (w : Pool L σ ε γ J) : Prop where
  inv : P.inv w.view
  does : ∀ t ∈ w.threads, t.2.Does (P.does t.1)
  safe : ∀ t ∈ w.threads, (P.law t.1).Safe t.1 (fun _ _ => True) t.2 w.view

/-- The jobs and the environment keep the pact. -/
structure Keeps (P : Pact S) : Prop where
  does : ∀ j, (S.prog j).Does (P.does j)
  safe : ∀ j v, P.inv v → (P.law j).Safe j (fun _ _ => True) (S.prog j) v
  env : ∀ e v, P.inv v → (∀ j, P.rely j v (S.env e v.1, v.2)) ∧ P.inv (S.env e v.1, v.2)

/-- The statement of the action, if it makes one, moves the view along what every live program
relies on. -/
def Mild (P : Pact S) (w : Pool L σ ε γ J) : Act J E → Prop
  | .step i true => ∀ j l u ok err, w.threads[i]? = some (j, .stmt l u ok err) →
      ∀ t ∈ w.threads, t.2.live = true → P.rely t.1 w.view (S.after j l u w.view)
  | _ => True

variable {P : Pact S} {w : Pool L σ ε γ J}

theorem Ok.initial {v : σ × γ} (h : P.inv v) : P.Ok ⟨v.1, v.2, []⟩ :=
  ⟨h, fun _ ht => absurd ht List.not_mem_nil, fun _ ht => absurd ht List.not_mem_nil⟩

/-- What the next statement of a program does. -/
theorem Ok.stmt (h : P.Ok w) {i : Nat} {j : J} {l : L} {u : σ → σ} {ok err : σ → Prog L σ ε Unit}
    (hi : w.threads[i]? = some (j, .stmt l u ok err)) : P.does j l w.state (u w.state) :=
  (h.does _ (List.mem_of_getElem? hi) w.state).1

/-- The program at index `i` goes on as `q`. -/
theorem Ok.set (h : P.Ok w) {i : Nat} {j : J} {q : Prog L σ ε Unit} {s : σ} {g : γ}
    (hinv : P.inv (s, g)) (hdoes : q.Does (P.does j))
    (hsafe : (P.law j).Safe j (fun _ _ => True) q (s, g))
    (hrely : ∀ t ∈ w.threads, t.2.live = true → P.rely t.1 w.view (s, g)) :
    P.Ok { state := s, ghost := g, threads := w.threads.set i (j, q) } := by
  refine ⟨hinv, fun t ht => ?_, fun t ht => ?_⟩
  · rcases List.mem_or_eq_of_mem_set ht with ht | rfl
    · exact h.does t ht
    · exact hdoes
  · rcases List.mem_or_eq_of_mem_set ht with ht | rfl
    · cases hlive : t.2.live with
      | false => exact Law.safe_of_not_live hlive
      | true => exact (h.safe t ht).mono (fun _ _ _ _ _ => trivial) (hrely t ht hlive)
    · exact hsafe

theorem Ok.step (hP : P.Keeps) (h : P.Ok w) {a : Act J E} (hc : Meets P.cond w a)
    (ha : P.Mild w a) : P.Ok (S.step w a) := by
  cases a with
  | spawn j =>
    refine ⟨h.inv, fun t ht => ?_, fun t ht => ?_⟩
    · rcases List.mem_append.1 ht with ht | ht
      · exact h.does t ht
      · rw [List.mem_singleton.1 ht]
        exact hP.does j
    · rcases List.mem_append.1 ht with ht | ht
      · exact h.safe t ht
      · rw [List.mem_singleton.1 ht]
        exact hP.safe j _ h.inv
  | env e =>
    obtain ⟨hr, hi⟩ := hP.env e w.view h.inv
    exact ⟨hi, h.does, fun t ht => (h.safe t ht).mono (fun _ _ _ _ _ => trivial) (hr t.1)⟩
  | crash => exact ⟨h.inv, fun t ht => absurd ht List.not_mem_nil,
      fun t ht => absurd ht List.not_mem_nil⟩
  | step i answered =>
    cases hi : w.threads[i]? with
    | none => simpa only [System.step, hi] using h
    | some t =>
      obtain ⟨j, p⟩ := t
      cases p with
      | ret a => simpa only [System.step, hi] using h
      | fail err => simpa only [System.step, hi] using h
      | stmt l u ok err =>
        have hmem := List.mem_of_getElem? hi
        have hdoes := h.does _ hmem w.state
        have hsafe := h.safe _ hmem w.view (P.refl _ _) h.inv
        cases answered with
        | true =>
          obtain ⟨-, hinv, hs⟩ := hsafe.1 (hc (j, l) (Pool.mem_next hi))
          simp only [System.step, hi, ↓reduceIte]
          exact h.set hinv hdoes.2.1 hs (ha j l u ok err hi)
        | false =>
          simp only [System.step, hi, Bool.false_eq_true, ↓reduceIte]
          exact h.set h.inv hdoes.2.2 hsafe.2 fun t _ _ => P.refl t.1 _

/-- A run of mild statements under the condition. -/
theorem Ok.run (hP : P.Keeps) (h : P.Ok w) {C : Pool L σ ε γ J → Act J E → Prop}
    (hC : ∀ w a, P.Ok w → C w a → Meets P.cond w a ∧ P.Mild w a) {acts : List (Act J E)}
    (ha : Along S.step C w acts) : P.Ok (acts.foldl S.step w) :=
  inv_of_along P.Ok (fun w a hw hc => hw.step hP (hC w a hw hc).1 (hC w a hw hc).2) h ha

end Pact

end Process
