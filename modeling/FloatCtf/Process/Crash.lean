import FloatCtf.Process.Prog

/-!
# Programs that stop halfway

One program runs alone, and a list of answers says what becomes of its statements: each one succeeds
or fails, and the process stops where the answers run out.  An observer keeps a ghost state of the
statements that succeed.

`CrashLaw` names an invariant that has to hold wherever the process can stop, and the statements
that belong to a block which is not interrupted.  `Guards` is the weakest precondition of a program
under such a law, with one rule for each combinator of `Prog`.
-/

namespace Process

variable {L σ ε γ α β ι : Type}

namespace Prog

/-- The statements are answered in order, `true` for success, and the process stops where the
answers end. -/
def crashRun (watch : L → σ → γ → γ) : List Bool → Prog L σ ε α → σ × γ → σ × γ
  | _, ret _, v => v
  | _, fail _, v => v
  | [], stmt _ _ _ _, v => v
  | true :: as, stmt l u ok _, v => crashRun watch as (ok v.1) (u v.1, watch l v.1 v.2)
  | false :: as, stmt _ _ _ err, v => crashRun watch as (err v.1) v

/-- No statement of the block fails, and the process does not stop in front of one. -/
def unbroken (block : L → Bool) : List Bool → Prog L σ ε α → σ → Bool
  | _, ret _, _ => true
  | _, fail _, _ => true
  | [], stmt l _ _ _, _ => !block l
  | true :: as, stmt _ u ok _, s => unbroken block as (ok s) (u s)
  | false :: as, stmt l _ _ err, s => !block l && unbroken block as (err s) s

theorem unbroken_of_no_block (p : Prog L σ ε α) (answers : List Bool) (s : σ) :
    p.unbroken (fun _ => false) answers s = true := by
  induction p generalizing answers s with
  | ret a => cases answers <;> rfl
  | fail e => cases answers <;> rfl
  | stmt l u ok err ihok iherr =>
    rcases answers with _ | ⟨_ | _, as⟩
    · rfl
    · exact iherr s as s
    · exact ihok s as (u s)

end Prog

/-- The invariant holds at every point where the process can stop, and the observer sees what
succeeds; the statements of the block are not interrupted. -/
structure CrashLaw (L σ γ : Type) where
  watch : L → σ → γ → γ
  block : L → Bool
  inv : σ × γ → Prop

namespace CrashLaw

variable {K : CrashLaw L σ γ} {Q Q' : Except ε α → σ × γ → Prop} {v : σ × γ}

/-- From `v` the program keeps the law, wherever its statements fail or the process stops, and it
ends only with `Q`. -/
def Guards (K : CrashLaw L σ γ) (Q : Except ε α → σ × γ → Prop) : Prog L σ ε α → σ × γ → Prop
  | .ret a, v => Q (.ok a) v
  | .fail e, v => Q (.error e) v
  | .stmt l u ok err, v => (K.block l = false → K.inv v ∧ K.Guards Q (err v.1) v) ∧
      K.Guards Q (ok v.1) (u v.1, K.watch l v.1 v.2)

/-- The program keeps the invariant. -/
abbrev Kept (K : CrashLaw L σ γ) (p : Prog L σ ε α) (v : σ × γ) : Prop :=
  K.Guards (fun _ => K.inv) p v

/-- What a guarded program leaves behind. -/
theorem Guards.inv_crashRun (hQ : ∀ r v, Q r v → K.inv v) {p : Prog L σ ε α} (h : K.Guards Q p v)
    {as : List Bool} (hu : p.unbroken K.block as v.1 = true) :
    K.inv (p.crashRun K.watch as v) := by
  induction p generalizing v as with
  | ret a =>
    cases as <;> exact hQ _ _ h
  | fail e =>
    cases as <;> exact hQ _ _ h
  | stmt l u ok err ihok iherr =>
    rcases as with _ | ⟨_ | _, as⟩
    · exact (h.1 (by simpa [Prog.unbroken] using hu)).1
    · simp only [Prog.unbroken, Bool.and_eq_true, Bool.not_eq_eq_eq_not, Bool.not_true] at hu
      exact iherr _ (h.1 hu.1).2 hu.2
    · exact ihok _ h.2 hu

theorem Guards.imp (hQ : ∀ r v, Q r v → Q' r v) {p : Prog L σ ε α} (h : K.Guards Q p v) :
    K.Guards Q' p v := by
  induction p generalizing v with
  | ret a => exact hQ _ _ h
  | fail e => exact hQ _ _ h
  | stmt l u ok err ihok iherr =>
    exact ⟨fun hl => ⟨(h.1 hl).1, iherr _ (h.1 hl).2⟩, ihok _ h.2⟩

theorem guards_bind {p : Prog L σ ε α} {f : α → Prog L σ ε β} {Q : Except ε β → σ × γ → Prop}
    (h : K.Guards (fun r v => match r with
      | .ok a => K.Guards Q (f a) v
      | .error e => Q (.error e) v) p v) : K.Guards Q (p >>= f) v := by
  rw [Prog.bind_eq_bind]
  induction p generalizing v with
  | ret a => exact h
  | fail e => exact h
  | stmt l u ok err ihok iherr =>
    exact ⟨fun hl => ⟨(h.1 hl).1, iherr _ (h.1 hl).2⟩, ihok _ h.2⟩

theorem guards_attempt {Q : Except ε (Except ε α) → σ × γ → Prop} {p : Prog L σ ε α}
    (h : K.Guards (fun r v => Q (.ok r) v) p v) : K.Guards Q p.attempt v := by
  induction p generalizing v with
  | ret a => exact h
  | fail e => exact h
  | stmt l u ok err ihok iherr =>
    exact ⟨fun hl => ⟨(h.1 hl).1, iherr _ (h.1 hl).2⟩, ihok _ h.2⟩

theorem guards_ite {c : Prop} [Decidable c] {p q : Prog L σ ε α} (hp : c → K.Guards Q p v)
    (hq : ¬ c → K.Guards Q q v) : K.Guards Q (if c then p else q) v := by
  split_ifs with h
  · exact hp h
  · exact hq h

/-- The observer does not look at the statement. -/
def Unseen (K : CrashLaw L σ γ) (l : L) : Prop := ∀ s g, K.watch l s g = g

theorem guards_query {l : L} (hl : K.Unseen l) {e : ε} {f : σ → α} (h : Q (.ok (f v.1)) v)
    (he : K.block l = false → K.inv v ∧ Q (.error e) v) : K.Guards Q (Prog.query l e f) v := by
  refine ⟨he, ?_⟩
  rw [hl]
  exact h

theorem guards_look {l : L} (hl : K.Unseen l) {f : σ → α} (h : Q (.ok (f v.1)) v)
    (hi : K.block l = false → K.inv v) : K.Guards Q (Prog.look l f : Prog L σ ε α) v := by
  refine ⟨fun hb => ⟨hi hb, h⟩, ?_⟩
  rw [hl]
  exact h

theorem guards_exec {l : L} {e : ε} {f : σ → Except ε (σ × α)}
    (hok : ∀ s a, f v.1 = .ok (s, a) → Q (.ok a) (s, K.watch l v.1 v.2))
    (hno : ∀ e, f v.1 = .error e → Q (.error e) (v.1, K.watch l v.1 v.2))
    (he : K.block l = false → K.inv v ∧ Q (.error e) v) : K.Guards Q (Prog.exec l e f) v := by
  refine ⟨he, ?_⟩
  unfold Prog.answer Prog.after
  cases hf : f v.1 with
  | ok r => exact hok r.1 r.2 hf
  | error e => exact hno e hf

/-- A loop of which every turn succeeds. -/
theorem guards_each {P : List ι → σ × γ → Prop} {f : ι → Prog L σ ε Unit}
    (hf : ∀ is i v, P is v → K.Guards (fun r v' => r = .ok () ∧ P (is ++ [i]) v') (f i) v)
    (is : List ι) : ∀ (done : List ι) (v : σ × γ), P done v →
      K.Guards (fun r v' => r = .ok () ∧ P (done ++ is) v') (Prog.each is f) v := by
  induction is with
  | nil =>
    intro done v h
    rw [List.append_nil]
    exact ⟨rfl, h⟩
  | cons i is ih =>
    intro done v h
    rw [Prog.each, ← Prog.bind_eq_bind]
    refine guards_bind ((hf done i v h).imp fun r v' hr => ?_)
    obtain ⟨rfl, hP⟩ := hr
    have := ih (done ++ [i]) v' hP
    rwa [List.append_assoc, List.singleton_append] at this

/-- A loop that keeps a condition of its own, wherever it stops. -/
theorem guards_each_inv {I : σ × γ → Prop} {f : ι → Prog L σ ε Unit} (is : List ι)
    (hf : ∀ i ∈ is, ∀ v, I v → K.Guards (fun _ v' => I v') (f i) v) :
    ∀ v, I v → K.Guards (fun _ v' => I v') (Prog.each is f) v := by
  induction is with
  | nil => exact fun _ h => h
  | cons i is ih =>
    intro v h
    rw [Prog.each, ← Prog.bind_eq_bind]
    refine guards_bind ((hf i List.mem_cons_self v h).imp fun r v' hv => ?_)
    cases r with
    | error e => exact hv
    | ok u => exact ih (fun j hj => hf j (List.mem_cons_of_mem i hj)) v' hv

/-! ## Programs that keep the invariant -/

theorem kept_bind {p : Prog L σ ε α} {f : α → Prog L σ ε β} (hp : K.Kept p v)
    (hf : ∀ a v', K.inv v' → K.Kept (f a) v') : K.Kept (p >>= f) v := by
  refine guards_bind (hp.imp fun r v' hv => ?_)
  cases r with
  | ok a => exact hf a v' hv
  | error e => exact hv

theorem kept_attempt {p : Prog L σ ε α} (hp : K.Kept p v) : K.Kept p.attempt v :=
  guards_attempt hp

/-- A read whose answer the rest of the program can use, since nothing happens in between. -/
theorem kept_query_bind {l : L} (hl : K.Unseen l) (hi : K.inv v) {e : ε} {f : σ → α}
    {k : α → Prog L σ ε β} (hk : K.Kept (k (f v.1)) v) : K.Kept (Prog.query l e f >>= k) v :=
  guards_bind (guards_query hl hk fun _ => ⟨hi, hi⟩)

theorem kept_look_bind {l : L} (hl : K.Unseen l) (hi : K.inv v) {f : σ → α}
    {k : α → Prog L σ ε β} (hk : K.Kept (k (f v.1)) v) : K.Kept (Prog.look l f >>= k) v :=
  guards_bind (guards_look hl hk fun _ => hi)

theorem kept_exec {l : L} (hl : K.Unseen l) (hi : K.inv v) {e : ε} {f : σ → Except ε (σ × α)}
    (hf : ∀ s a, f v.1 = .ok (s, a) → K.inv (s, v.2)) : K.Kept (Prog.exec l e f) v := by
  refine guards_exec (fun s a h => ?_) (fun _ _ => ?_) fun _ => ⟨hi, hi⟩
  · rw [hl]
    exact hf s a h
  · rw [hl]
    exact hi

/-- A program whose statements all keep the invariant. -/
theorem kept_of_within {R : σ → σ → Prop} {p : Prog L σ ε α} (hp : p.Within R)
    (hR : ∀ l s s' g, K.inv (s, g) → R s s' → K.inv (s', K.watch l s g)) (hi : K.inv v) :
    K.Kept p v := by
  induction p generalizing v with
  | ret a => exact hi
  | fail e => exact hi
  | stmt l u ok err ihok iherr =>
    obtain ⟨hr, hok, herr⟩ := hp v.1
    exact ⟨fun _ => ⟨hi, iherr _ herr hi⟩, ihok _ hok (hR l v.1 _ v.2 hi hr)⟩

end CrashLaw

end Process
