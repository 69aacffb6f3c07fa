import Mathlib.Data.List.Forall2
import FloatCtf.Process.Pool

/-!
# Two runs side by side

`Prog.Alike R C Q` says of two programs that they make the same statements and end alike, as long as
their states are related by `R` and meet `C`.  `alike_run` carries this to pools: two pools that start
alike and take the same actions show the same to an observer who sees only labels, so whatever `R`
does not look at has no influence on it.
-/

namespace Process

variable {L L' σ ε ε' γ J E α β α' β' ι : Type}

/-- Two outcomes, with the same error or with results that `Q` relates. -/
def SameOutcome (Q : α → β → Prop) : Except ε α → Except ε β → Prop
  | .ok a, .ok b => Q a b
  | .error e, .error e' => e = e'
  | _, _ => False

namespace Prog

/-- The program with other labels and other errors. -/
def embed (label : L → L') (f : ε → ε') : Prog L σ ε α → Prog L' σ ε' α
  | ret a => ret a
  | fail e => fail (f e)
  | stmt l u ok err => stmt (label l) u (fun s => (ok s).embed label f) fun s =>
      (err s).embed label f

variable {R : σ → σ → Prop} {C : L → σ → Prop}

/-- Two programs run alike: statement by statement under the same label, with `R` kept by the writes
and `Q` at the end. -/
def Alike (R : σ → σ → Prop) (C : L → σ → Prop) (Q : α → β → Prop) :
    Prog L σ ε α → Prog L σ ε β → Prop
  | ret a, ret b => Q a b
  | fail e, fail e' => e = e'
  | stmt l u ok err, stmt l' u' ok' err' => l = l' ∧ ∀ s s', R s s' →
      (C l s → R (u s) (u' s') ∧ (ok s).Alike R C Q (ok' s')) ∧ (err s).Alike R C Q (err' s')
  | _, _ => False

variable {Q : α → β → Prop}

theorem Alike.imp {Q' : α → β → Prop} (hQ : ∀ a b, Q a b → Q' a b) {p : Prog L σ ε α}
    {p' : Prog L σ ε β} (h : p.Alike R C Q p') : p.Alike R C Q' p' := by
  induction p generalizing p' with
  | ret a =>
    cases p' with
    | ret b => exact hQ a b h
    | fail e => exact h
    | stmt l u ok err => exact h
  | fail e => cases p' <;> exact h
  | stmt l u ok err ihok iherr =>
    cases p' with
    | ret b => exact h
    | fail e => exact h
    | stmt l' u' ok' err' =>
      refine ⟨h.1, fun s s' hs => ⟨fun hc => ?_, iherr s (h.2 s s' hs).2⟩⟩
      exact ((h.2 s s' hs).1 hc).imp_right (ihok s)

theorem alike_bind {Q' : α' → β' → Prop} {p : Prog L σ ε α} {p' : Prog L σ ε β}
    {f : α → Prog L σ ε α'} {f' : β → Prog L σ ε β'} (h : p.Alike R C Q p')
    (hf : ∀ a b, Q a b → (f a).Alike R C Q' (f' b)) : (p >>= f).Alike R C Q' (p' >>= f') := by
  rw [bind_eq_bind, bind_eq_bind]
  induction p generalizing p' with
  | ret a =>
    cases p' with
    | ret b => exact hf a b h
    | fail e => exact absurd h id
    | stmt l u ok err => exact absurd h id
  | fail e =>
    cases p' with
    | ret b => exact absurd h id
    | fail e' => exact h
    | stmt l u ok err => exact absurd h id
  | stmt l u ok err ihok iherr =>
    cases p' with
    | ret b => exact absurd h id
    | fail e => exact absurd h id
    | stmt l' u' ok' err' =>
      refine ⟨h.1, fun s s' hs => ⟨fun hc => ?_, iherr s (h.2 s s' hs).2⟩⟩
      exact ((h.2 s s' hs).1 hc).imp_right (ihok s)

theorem alike_attempt {p : Prog L σ ε α} {p' : Prog L σ ε β} (h : p.Alike R C Q p') :
    p.attempt.Alike R C (SameOutcome Q) p'.attempt := by
  induction p generalizing p' with
  | ret a => cases p' <;> exact h
  | fail e => cases p' <;> exact h
  | stmt l u ok err ihok iherr =>
    cases p' with
    | ret b => exact h
    | fail e => exact h
    | stmt l' u' ok' err' =>
      refine ⟨h.1, fun s s' hs => ⟨fun hc => ?_, iherr s (h.2 s s' hs).2⟩⟩
      exact ((h.2 s s' hs).1 hc).imp_right (ihok s)

theorem alike_embed {C : L' → σ → Prop} {label : L → L'} {f : ε → ε'} {p : Prog L σ ε α}
    {p' : Prog L σ ε β} (h : p.Alike R (fun l => C (label l)) Q p') :
    (p.embed label f).Alike R C Q (p'.embed label f) := by
  induction p generalizing p' with
  | ret a => cases p' <;> exact h
  | fail e =>
    cases p' with
    | ret b => exact h
    | fail e' => exact congrArg f h
    | stmt l u ok err => exact h
  | stmt l u ok err ihok iherr =>
    cases p' with
    | ret b => exact h
    | fail e => exact h
    | stmt l' u' ok' err' =>
      refine ⟨congrArg label h.1, fun s s' hs => ⟨fun hc => ?_, iherr s (h.2 s s' hs).2⟩⟩
      exact ((h.2 s s' hs).1 hc).imp_right (ihok s)

theorem alike_query {l : L} {e : ε} {f : σ → α} {f' : σ → β}
    (h : ∀ s s', R s s' → C l s → Q (f s) (f' s')) : (query l e f).Alike R C Q (query l e f') :=
  ⟨rfl, fun s s' hs => ⟨fun hc => ⟨hs, h s s' hs hc⟩, rfl⟩⟩

theorem alike_look {l : L} {f : σ → α} {f' : σ → β} (h : ∀ s s', R s s' → Q (f s) (f' s')) :
    (look l f : Prog L σ ε α).Alike R C Q (look l f') :=
  ⟨rfl, fun s s' hs => ⟨fun _ => ⟨hs, h s s' hs⟩, h s s' hs⟩⟩

/-- A statement that refuses in both states or in none. -/
theorem alike_exec {l : L} {e : ε} {f : σ → Except ε (σ × α)} {f' : σ → Except ε (σ × β)}
    (h : ∀ s s', R s s' → SameOutcome (fun r r' => R r.1 r'.1 ∧ Q r.2 r'.2) (f s) (f' s')) :
    (exec l e f).Alike R C Q (exec l e f') := by
  refine ⟨rfl, fun s s' hs => ⟨fun _ => ?_, rfl⟩⟩
  have hss := h s s' hs
  unfold after answer
  cases hf : f s with
  | ok r =>
    cases hf' : f' s' with
    | ok r' =>
      rw [hf, hf'] at hss
      exact hss
    | error e' =>
      rw [hf, hf'] at hss
      exact absurd hss id
  | error e' =>
    cases hf' : f' s' with
    | ok r' =>
      rw [hf, hf'] at hss
      exact absurd hss id
    | error e'' =>
      rw [hf, hf'] at hss
      exact ⟨hs, hss⟩

theorem alike_ite {c : Prop} [Decidable c] {p q : Prog L σ ε α} {p' q' : Prog L σ ε β}
    (hp : p.Alike R C Q p') (hq : q.Alike R C Q q') :
    (if c then p else q).Alike R C Q (if c then p' else q') := by
  split
  · exact hp
  · exact hq

/-- The program is alike to itself. -/
abbrev Blind (R : σ → σ → Prop) (C : L → σ → Prop) (p : Prog L σ ε α) : Prop := p.Alike R C Eq p

theorem blind_bind {p : Prog L σ ε α} {f : α → Prog L σ ε β} (h : p.Blind R C)
    (hf : ∀ a, (f a).Blind R C) : (p >>= f).Blind R C :=
  alike_bind h fun a _ hab => hab ▸ hf a

theorem blind_attempt {p : Prog L σ ε α} (h : p.Blind R C) : p.attempt.Blind R C := by
  refine (alike_attempt h).imp fun a b hab => ?_
  cases a <;> cases b <;> first | exact congrArg _ hab | exact absurd hab id

theorem blind_each {is : List ι} {f : ι → Prog L σ ε Unit} (h : ∀ i, (f i).Blind R C) :
    (each is f).Blind R C := by
  induction is with
  | nil => rfl
  | cons i is ih => exact blind_bind (h i) fun _ => ih

end Prog

/-! ## Pools -/

section Pools

variable (R : σ → σ → Prop) (C : L → σ → Prop)

/-- Nobody can tell the states apart: neither the programs nor the environment nor the observer. -/
structure System.Oblivious (S : System L σ ε γ J E) : Prop where
  prog : ∀ j, (S.prog j).Blind R C
  env : ∀ e s s', R s s' → R (S.env e s) (S.env e s')
  watch : ∀ j l s s' g, S.watch j l s g = S.watch j l s' g

/-- Two pools are alike: their states are related, and thread by thread their programs run alike. -/
structure Pool.Alike (w w' : Pool L σ ε γ J) : Prop where
  state : R w.state w'.state
  ghost : w.ghost = w'.ghost
  threads : List.Forall₂ (fun t t' => t.1 = t'.1 ∧ t.2.Alike R C Eq t'.2) w.threads w'.threads

variable {R C} {S : System L σ ε γ J E} {w w' : Pool L σ ε γ J}

theorem forall₂_set {Q : α → β → Prop} {l : List α} {l' : List β} (h : List.Forall₂ Q l l') {a : α}
    {b : β} (hab : Q a b) (i : Nat) : List.Forall₂ Q (l.set i a) (l'.set i b) := by
  induction h generalizing i with
  | nil => exact .nil
  | cons hd tl ih =>
    cases i with
    | zero => exact .cons hab tl
    | succ i => exact .cons hd (ih i)

/-- What the pools have at an index. -/
theorem Pool.Alike.getElem? (h : w.Alike R C w') (i : Nat) :
    w.threads[i]? = none ∧ w'.threads[i]? = none ∨
      ∃ j p p', w.threads[i]? = some (j, p) ∧ w'.threads[i]? = some (j, p') ∧
        p.Alike R C Eq p' := by
  have hall := h.threads
  generalize w.threads = ts, w'.threads = ts' at hall ⊢
  induction hall generalizing i with
  | nil => exact .inl ⟨rfl, rfl⟩
  | @cons t t' ts ts' hd tl ih =>
    cases i with
    | zero =>
      obtain ⟨j, p⟩ := t
      obtain ⟨j', p'⟩ := t'
      obtain ⟨rfl, hp⟩ := hd
      exact .inr ⟨j, p, p', rfl, rfl, hp⟩
    | succ i => exact ih i

theorem alike_step (hS : S.Oblivious R C) (h : w.Alike R C w') {a : Act J E}
    (ha : Meets (fun _ l v => C l v.1) w a) : (S.step w a).Alike R C (S.step w' a) := by
  cases a with
  | spawn j =>
    refine ⟨h.state, h.ghost, ?_⟩
    exact List.rel_append h.threads (List.Forall₂.cons ⟨rfl, hS.prog j⟩ List.Forall₂.nil)
  | env e => exact ⟨hS.env e _ _ h.state, h.ghost, h.threads⟩
  | crash => exact ⟨h.state, h.ghost, .nil⟩
  | step i answered =>
    rcases h.getElem? i with ⟨hi, hi'⟩ | ⟨j, p, p', hi, hi', hp⟩
    · simpa only [System.step, hi, hi'] using h
    cases p with
    | ret a => cases p' <;> first | exact absurd hp id | simpa only [System.step, hi, hi'] using h
    | fail e => cases p' <;> first | exact absurd hp id | simpa only [System.step, hi, hi'] using h
    | stmt l u ok err =>
      cases p' with
      | ret a => exact absurd hp id
      | fail e => exact absurd hp id
      | stmt l' u' ok' err' =>
        obtain ⟨rfl, hnext⟩ := hp
        obtain ⟨hok, herr⟩ := hnext _ _ h.state
        cases answered with
        | true =>
          obtain ⟨hstate, hok⟩ := hok (ha (j, l) (Pool.mem_next hi))
          simp only [System.step, hi, hi', ↓reduceIte]
          refine ⟨hstate, ?_, forall₂_set h.threads (a := (j, ok w.state)) (b := (j, ok' w'.state)) ⟨rfl, hok⟩ i⟩
          rw [h.ghost]
          exact hS.watch j l _ _ _
        | false =>
          simp only [System.step, hi, hi', Bool.false_eq_true, ↓reduceIte]
          exact ⟨h.state, h.ghost,
            forall₂_set h.threads (a := (j, err w.state)) (b := (j, err' w'.state)) ⟨rfl, herr⟩ i⟩

/-- Two runs with the same actions. -/
theorem alike_run (hS : S.Oblivious R C) (h : w.Alike R C w') {acts : List (Act J E)}
    (ha : Along S.step (Meets fun _ l v => C l v.1) w acts) :
    (acts.foldl S.step w).Alike R C (acts.foldl S.step w') := by
  induction acts generalizing w w' with
  | nil => exact h
  | cons a acts ih => exact ih (alike_step hS h ha.1) ha.2

end Pools

end Process
