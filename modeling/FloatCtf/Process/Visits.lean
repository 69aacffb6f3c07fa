import FloatCtf.Process.Prog

/-!
# The states and the ends of a run

`Prog.run` gives the state in which a run ends; `Prog.Visits` speaks about every state that it goes
through, and `Prog.EndsIn` about every run, whichever of its statements succeed.  The last section has
equations between programs.
-/

namespace Process.Prog

variable {L σ ε α β : Type} {ans : L → Bool} {p : Prog L σ ε α} {f : α → Prog L σ ε β} {s t : σ}

/-- The run of the program from `s` goes through `t`. -/
def Visits (ans : L → Bool) : Prog L σ ε α → σ → σ → Prop
  | ret _, s, t => t = s
  | fail _, s, t => t = s
  | stmt l u ok err, s, t =>
    t = s ∨ if ans l then (ok s).Visits ans (u s) t else (err s).Visits ans s t

theorem visits_end (p : Prog L σ ε α) (s : σ) : p.Visits ans s (p.run ans s).1 := by
  induction p generalizing s with
  | ret a => rfl
  | fail e => rfl
  | stmt l u ok err ihok iherr =>
    refine .inr ?_
    rw [run]
    split_ifs
    · exact ihok s (u s)
    · exact iherr s s

theorem visits_query {l : L} {e : ε} {g : σ → α} : (query l e g).Visits ans s t ↔ t = s := by
  simp only [query, Visits, id]
  split_ifs <;> exact or_self_iff

theorem visits_exec {l : L} {e : ε} {g : σ → Except ε (σ × α)} :
    (exec l e g).Visits ans s t ↔ t = s ∨ ans l = true ∧ t = after g s := by
  simp only [exec, Visits]
  split_ifs with h
  · rw [answer]
    cases hg : g s <;> simp [Visits, h]
  · simp [h]

/-- What a sequence goes through: the states of its first part, then those of the second. -/
theorem visits_bind : (p >>= f).Visits ans s t ↔
    p.Visits ans s t ∨ ∃ a, (p.run ans s).2 = .ok a ∧ (f a).Visits ans (p.run ans s).1 t := by
  rw [bind_eq_bind]
  induction p generalizing s with
  | ret a =>
    simp only [bind, Visits, run, Except.ok.injEq, exists_eq_left']
    refine ⟨.inr, Or.rec (fun h => ?_) id⟩
    cases h
    cases f a with
    | ret b => rfl
    | fail e => rfl
    | stmt l u ok err => exact .inl rfl
  | fail e => simp [bind, Visits, run]
  | stmt l u ok err ihok iherr =>
    simp only [bind, Visits, run, or_assoc]
    refine or_congr Iff.rfl ?_
    split_ifs
    · exact ihok s
    · exact iherr s

/-! ## The ends -/

variable {α β γ : Type} {p : Prog L σ ε α} {f : α → Prog L σ ε β} {s' : σ} {r : Except ε α} {a : α}

/-- A run of the program from `s` ends in `s'` with the result `r`, for some answers to its
statements. -/
def EndsIn : Prog L σ ε α → σ → σ → Except ε α → Prop
  | ret a, s, s', r => s' = s ∧ r = .ok a
  | fail e, s, s', r => s' = s ∧ r = .error e
  | stmt _ u ok err, s, s', r => (ok s).EndsIn (u s) s' r ∨ (err s).EndsIn s s' r

theorem endsIn_pure : (pure a : Prog L σ ε α).EndsIn s s' r ↔ s' = s ∧ r = .ok a := Iff.rfl

theorem endsIn_fail {e : ε} : (fail e : Prog L σ ε α).EndsIn s s' r ↔ s' = s ∧ r = .error e := Iff.rfl

theorem endsIn_query {l : L} {e : ε} {g : σ → α} :
    (query l e g).EndsIn s s' (.ok a) ↔ s' = s ∧ a = g s := by
  simp [query, EndsIn]

theorem endsIn_bind {b : β} : (p >>= f).EndsIn s s' (.ok b) ↔
    ∃ a t, p.EndsIn s t (.ok a) ∧ (f a).EndsIn t s' (.ok b) := by
  rw [bind_eq_bind]
  induction p generalizing s with
  | ret a => simp [bind, EndsIn]
  | fail e => simp [bind, EndsIn]
  | stmt l u ok err ihok iherr =>
    simp only [bind, EndsIn, ihok, iherr]
    constructor
    · rintro (⟨a, t, h, h'⟩ | ⟨a, t, h, h'⟩)
      · exact ⟨a, t, .inl h, h'⟩
      · exact ⟨a, t, .inr h, h'⟩
    · rintro ⟨a, t, h | h, h'⟩
      · exact .inl ⟨a, t, h, h'⟩
      · exact .inr ⟨a, t, h, h'⟩

/-! ## Equations -/

theorem bind_assoc (p : Prog L σ ε α) (f : α → Prog L σ ε β) (g : β → Prog L σ ε γ) :
    p >>= f >>= g = p >>= fun a => f a >>= g := by
  simp only [bind_eq_bind]
  induction p with
  | ret a => rfl
  | fail e => rfl
  | stmt l u ok err ihok iherr => simp only [bind, ihok, iherr]

theorem bind_pure (p : Prog L σ ε α) : p >>= pure = p := by
  rw [bind_eq_bind]
  induction p with
  | ret a => rfl
  | fail e => rfl
  | stmt l u ok err ihok iherr => simp only [bind, ihok, iherr]

/-- Any program does something. -/
theorem does_any (p : Prog L σ ε α) : p.Does fun _ _ _ => True := by
  induction p with
  | ret a => trivial
  | fail e => trivial
  | stmt l u ok err ihok iherr => exact fun s => ⟨trivial, ihok s, iherr s⟩

section Zoom

variable {L' τ : Type} {label : L → L'} {get : τ → σ} {set : σ → τ → τ}

theorem zoom_bind (p : Prog L σ ε α) (f : α → Prog L σ ε β) :
    (p >>= f).zoom label get set =
      (p.zoom label get set >>= fun a => (f a).zoom label get set) := by
  simp only [bind_eq_bind]
  induction p with
  | ret a => rfl
  | fail e => rfl
  | stmt l u ok err ihok iherr => simp only [bind, zoom, ihok, iherr]

theorem zoom_each {ι : Type} (is : List ι) (f : ι → Prog L σ ε Unit) :
    (each is f).zoom label get set = each is fun i => (f i).zoom label get set := by
  induction is with
  | nil => rfl
  | cons i is ih =>
    rw [each, ← bind_eq_bind, zoom_bind, ih]
    rfl

theorem zoom_query (hs : ∀ t, set (get t) t = t) (l : L) (e : ε) (f : σ → α) :
    (query l e f).zoom label get set = query (label l) e fun t => f (get t) := by
  have hid : (fun t => set (id (get t)) t) = id := funext hs
  rw [query, query, zoom, hid]
  rfl

/-- What the statements of a program do on the part, they do on the whole. -/
theorem Does.zoom {T : L → σ → σ → Prop} {T' : L' → τ → τ → Prop}
    (h : ∀ l s t, T l (get t) s → T' (label l) t (set s t)) {p : Prog L σ ε α} (hp : p.Does T) :
    (p.zoom label get set).Does T' := by
  induction p with
  | ret a => trivial
  | fail e => trivial
  | stmt l u ok err ihok iherr =>
    intro t
    obtain ⟨hu, hok, herr⟩ := hp (get t)
    exact ⟨h l _ t hu, ihok (get t) hok, iherr (get t) herr⟩

/-- A guarded write on the part is one on the whole. -/
theorem zoom_exec (hs : ∀ t, set (get t) t = t) (l : L) (e : ε) (f : σ → Except ε (σ × α)) :
    (exec l e f).zoom label get set = exec (label l) e fun t =>
      match f (get t) with
      | .ok (s, a) => .ok (set s t, a)
      | .error e => .error e := by
  rw [exec, exec, zoom]
  congr 1
  · funext t
    rw [after, after]
    cases f (get t) with
    | ok r => rfl
    | error e => exact hs t
  · funext t
    rw [answer, answer]
    cases f (get t) <;> rfl

end Zoom

end Process.Prog
