import FloatCtf.Process.Pool

/-!
# Statements that owe another one

A statement can leave a debt that a later statement of the same program pays, with nothing but
statements of a window in between.  `Prog.Settles` says that a program never leaves a debt without
going on to pay it, and `Backed.step` that every debt of a pool is backed by a program that is about
to pay it, as long as no program fails or is lost in the window of a debt.
-/

namespace Process

variable {L σ ε γ J E K α β : Type}

/-- The statements that leave a debt, those that pay it, and those of the window between the two,
which include the payment. -/
structure Debts (L K : Type) where
  opens : L → Option K
  pays : L → Option K
  window : L → Option K

namespace Prog

/-- The program is in the window of `k` and pays it, if its statements are answered. -/
def Pays (D : Debts L K) (k : K) : Prog L σ ε α → Prop
  | ret _ => False
  | fail _ => False
  | stmt l _ ok _ => D.window l = some k ∧ (D.pays l = some k ∨ ∀ s, (ok s).Pays D k)

/-- Where a statement of the program leaves a debt, the program goes on to pay it. -/
def Settles (D : Debts L K) : Prog L σ ε α → Prop
  | ret _ => True
  | fail _ => True
  | stmt l _ ok err => ∀ s, (∀ k, D.opens l = some k → (ok s).Pays D k) ∧
      (ok s).Settles D ∧ (err s).Settles D

variable {D : Debts L K} {k : K}

theorem Pays.live {p : Prog L σ ε α} (h : p.Pays D k) : p.live = true := by
  cases p with
  | ret a => exact h.elim
  | fail e => exact h.elim
  | stmt l u ok err => rfl

theorem Pays.bind {p : Prog L σ ε α} (h : p.Pays D k) (f : α → Prog L σ ε β) :
    (p >>= f).Pays D k := by
  rw [bind_eq_bind]
  induction p with
  | ret a => exact h.elim
  | fail e => exact h.elim
  | stmt l u ok err ihok iherr => exact ⟨h.1, h.2.imp_right fun hok s => ihok s (hok s)⟩

/-- A statement of the window that is never refused, in front of the payment. -/
theorem pays_exec_bind {l : L} {e : ε} {f : σ → Except ε (σ × α)} {q : α → Prog L σ ε β}
    (hw : D.window l = some k) (hf : ∀ s, ∃ s' a, f s = .ok (s', a) ∧ (q a).Pays D k) :
    (exec l e f >>= q).Pays D k := by
  refine ⟨hw, .inr fun s => ?_⟩
  obtain ⟨s', a, hok, hq⟩ := hf s
  show ((answer f s).bind q).Pays D k
  rw [answer, hok]
  exact hq

theorem pays_exec {l : L} {e : ε} {f : σ → Except ε (σ × α)} (hw : D.window l = some k)
    (hp : D.pays l = some k) : (exec l e f).Pays D k := ⟨hw, .inl hp⟩

/-- A program all of whose statements leave no debt. -/
theorem settles_of_does {T : L → σ → σ → Prop} {p : Prog L σ ε α} (hp : p.Does T)
    (hT : ∀ l s s', T l s s' → D.opens l = none) : p.Settles D := by
  induction p with
  | ret a => trivial
  | fail e => trivial
  | stmt l u ok err ihok iherr =>
    intro s
    obtain ⟨ht, hok, herr⟩ := hp s
    refine ⟨fun k hk => ?_, ihok s hok, iherr s herr⟩
    rw [hT l s _ ht] at hk
    cases hk

theorem settles_bind {p : Prog L σ ε α} {f : α → Prog L σ ε β} (hp : p.Settles D)
    (hf : ∀ a, (f a).Settles D) : (p >>= f).Settles D := by
  rw [bind_eq_bind]
  induction p with
  | ret a => exact hf a
  | fail e => trivial
  | stmt l u ok err ihok iherr =>
    intro s
    obtain ⟨hpays, hok, herr⟩ := hp s
    exact ⟨fun k hk => (hpays k hk).bind f, ihok s hok, iherr s herr⟩

/-- A statement that leaves a debt and is never refused, in front of what pays it. -/
theorem settles_exec_bind {l : L} {e : ε} {f : σ → Except ε (σ × α)} {q : α → Prog L σ ε β}
    (hf : ∀ s, ∃ s' a, f s = .ok (s', a)) (hpays : ∀ a k, D.opens l = some k → (q a).Pays D k)
    (hq : ∀ a, (q a).Settles D) : (exec l e f >>= q).Settles D := by
  intro s
  obtain ⟨s', a, hok⟩ := hf s
  show (∀ k, D.opens l = some k → ((answer f s).bind q).Pays D k) ∧
    ((answer f s).bind q).Settles D ∧ True
  rw [answer, hok]
  exact ⟨hpays a, hq a, trivial⟩

theorem settles_if {c : Prop} [Decidable c] {p q : Prog L σ ε α} (hp : c → p.Settles D)
    (hq : ¬ c → q.Settles D) : (if c then p else q).Settles D := by
  split_ifs with h
  · exact hp h
  · exact hq h

end Prog

/-! ## Pools -/

variable {D : Debts L K} {S : System L σ ε γ J E}

/-- Every debt is backed by a program that is about to pay it. -/
structure Backed (D : Debts L K) (owed : γ → List K) (w : Pool L σ ε γ J) : Prop where
  settles : ∀ t ∈ w.threads, t.2.Settles D
  backed : ∀ k ∈ owed w.ghost, ∃ t ∈ w.threads, t.2.Pays D k

/-- No program is lost or fails in the window of a debt. -/
def Solvent (D : Debts L K) (owed : γ → List K) (w : Pool L σ ε γ J) : Act J E → Prop
  | .crash => owed w.ghost = []
  | .step i false => ∀ s ∈ w.next i, ∀ k ∈ D.window s.2, k ∉ owed w.ghost
  | _ => True

instance [DecidableEq K] (owed : γ → List K) (w : Pool L σ ε γ J) (a : Act J E) :
    Decidable (Solvent D owed w a) :=
  match a with
  | .crash => inferInstanceAs (Decidable (owed w.ghost = []))
  | .step i false =>
    inferInstanceAs (Decidable (∀ s ∈ w.next i, ∀ k ∈ D.window s.2, k ∉ owed w.ghost))
  | .step _ true | .spawn _ | .env _ => inferInstanceAs (Decidable True)

section Step

variable {owed : γ → List K} {w : Pool L σ ε γ J}

/-- Where nothing is under way, nothing is owed. -/
theorem Backed.owed_eq_nil (h : Backed D owed w) (hq : ∀ t ∈ w.threads, t.2.live = false) :
    owed w.ghost = [] := by
  refine List.eq_nil_iff_forall_not_mem.2 fun k hk => ?_
  obtain ⟨t, ht, hp⟩ := h.backed k hk
  have hlive := hp.live
  rw [hq t ht] at hlive
  cases hlive

/-- The program at index `i` goes on as `q`, which pays what it did and what it has left. -/
theorem Backed.set (h : Backed D owed w) {i : Nat} {j : J} {p q : Prog L σ ε Unit}
    (hi : w.threads[i]? = some (j, p)) (hq : q.Settles D) {s : σ} {g : γ}
    (hk : ∀ k ∈ owed g, q.Pays D k ∨ k ∈ owed w.ghost ∧ (p.Pays D k → q.Pays D k)) :
    Backed D owed { state := s, ghost := g, threads := w.threads.set i (j, q) } := by
  obtain ⟨hlt, hget⟩ := List.getElem?_eq_some_iff.1 hi
  have hmem : (j, q) ∈ w.threads.set i (j, q) := List.mem_set hlt _
  refine ⟨fun t ht => ?_, fun k hk' => ?_⟩
  · rcases List.mem_or_eq_of_mem_set ht with ht | rfl
    · exact h.settles t ht
    · exact hq
  · rcases hk k hk' with hpays | ⟨howed, hpays⟩
    · exact ⟨_, hmem, hpays⟩
    · obtain ⟨t, ht, hp⟩ := h.backed k howed
      obtain ⟨n, hn, rfl⟩ := List.getElem_of_mem ht
      rcases eq_or_ne i n with rfl | hne
      · rw [hget] at hp
        exact ⟨_, hmem, hpays hp⟩
      · refine ⟨w.threads[n], ?_, hp⟩
        rw [← List.getElem_set_ne hne (by simpa using hn)]
        exact List.getElem_mem _

/-- One action; the observer notes debts as the statements leave and pay them. -/
theorem Backed.step (hS : ∀ j, (S.prog j).Settles D)
    (hwatch : ∀ j l s g k, k ∈ owed (S.watch j l s g) →
      D.opens l = some k ∨ k ∈ owed g ∧ D.pays l ≠ some k)
    (h : Backed D owed w) {a : Act J E} (ha : Solvent D owed w a) : Backed D owed (S.step w a) := by
  cases a with
  | spawn j =>
    refine ⟨fun t ht => ?_, fun k hk => ?_⟩
    · rcases List.mem_append.1 ht with ht | ht
      · exact h.settles t ht
      · rw [List.mem_singleton.1 ht]
        exact hS j
    · obtain ⟨t, ht, hp⟩ := h.backed k hk
      exact ⟨t, List.mem_append_left _ ht, hp⟩
  | env e => exact ⟨h.settles, h.backed⟩
  | crash =>
    refine ⟨fun t ht => absurd ht List.not_mem_nil, fun k hk => ?_⟩
    have hnone : owed w.ghost = [] := ha
    change k ∈ owed w.ghost at hk
    rw [hnone] at hk
    exact absurd hk List.not_mem_nil
  | step i answered =>
    cases hi : w.threads[i]? with
    | none => simpa only [System.step, hi] using h
    | some t =>
      obtain ⟨j, p⟩ := t
      cases p with
      | ret a => simpa only [System.step, hi] using h
      | fail err => simpa only [System.step, hi] using h
      | stmt l u ok err =>
        obtain ⟨hopens, hok, herr⟩ := h.settles _ (List.mem_of_getElem? hi) w.state
        cases answered with
        | true =>
          simp only [System.step, hi, ↓reduceIte]
          refine h.set hi hok fun k hk => ?_
          rcases hwatch j l w.state w.ghost k hk with hnew | ⟨hold, hpays⟩
          · exact .inl (hopens k hnew)
          · exact .inr ⟨hold, fun hp => hp.2.resolve_left hpays w.state⟩
        | false =>
          simp only [System.step, hi, Bool.false_eq_true, ↓reduceIte]
          refine h.set hi herr fun k hk => .inr ⟨hk, fun hp => ?_⟩
          exact absurd hk (ha (j, l) (Pool.mem_next hi) k hp.1)

end Step

end Process
