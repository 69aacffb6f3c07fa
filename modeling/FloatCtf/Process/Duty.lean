import FloatCtf.Process.Pool

/-!
# Statements that owe something in the state

A statement can leave duties: things that later statements of the same program have to see to, as
long as they are still due.  Whether a duty is due and whether it is paid is read off the state, so
that one statement can leave many duties and the rest of the program finds out how to pay them.

`Prog.Honours` says that a program that leaves a duty goes on to pay it, and `Kept.step` that every
duty that was noted is paid, or due with a program that is about to pay it, as long as no program
fails or is lost in the window of its duties.  States are those of an invariant `ok`, and statements
those that meet a condition.
-/

namespace Process

variable {L σ ε γ J E K α β : Type}

/-- A family of duties, one for each key: `opens` says when one arises, `due` that it is open,
`paid` that it is settled, and `owed` which keys the ghost state holds open. -/
structure Duties (L σ γ K : Type) where
  ok : σ → Prop
  cond : L → σ → Prop
  opens : L → σ → K → Prop
  due : K → σ → Prop
  paid : K → σ → Prop
  window : L → Bool
  owed : γ → List K

namespace Prog

/-- The program pays `k` if it is still due, before it leaves the window, as long as its statements
meet the condition. -/
def Fulfils (D : Duties L σ γ K) (k : K) : Prog L σ ε α → Prop
  | ret _ => False
  | fail _ => False
  | stmt l u ok _ => D.window l = true ∧
      ∀ s, D.ok s → D.cond l s → D.due k s → D.paid k (u s) ∨ (ok s).Fulfils D k

/-- Where a statement of the program leaves a duty, the program goes on to pay it. -/
def Honours (D : Duties L σ γ K) : Prog L σ ε α → Prop
  | ret _ => True
  | fail _ => True
  | stmt l _ ok err => ∀ s, D.ok s →
      (D.cond l s → ∀ k, D.opens l s k → (ok s).Fulfils D k) ∧
      (ok s).Honours D ∧ (err s).Honours D

variable {D : Duties L σ γ K} {k : K}

theorem Fulfils.live {p : Prog L σ ε α} (h : p.Fulfils D k) : p.live = true := by
  cases p with
  | ret a => exact h.elim
  | fail e => exact h.elim
  | stmt l u ok err => rfl

theorem Fulfils.bind {p : Prog L σ ε α} (h : p.Fulfils D k) (f : α → Prog L σ ε β) :
    (p >>= f).Fulfils D k := by
  rw [bind_eq_bind]
  induction p with
  | ret a => exact h.elim
  | fail e => exact h.elim
  | stmt l u ok err ihok iherr =>
    exact ⟨h.1, fun s hs hc hd => (h.2 s hs hc hd).imp_right fun hp => ihok s hp⟩

/-- A statement of the window whose rest pays. -/
theorem fulfils_query_bind {l : L} {e : ε} {f : σ → α} {q : α → Prog L σ ε β}
    (hw : D.window l = true) (hq : ∀ s, D.ok s → D.due k s → (q (f s)).Fulfils D k) :
    (query l e f >>= q).Fulfils D k := ⟨hw, fun s hs _ hd => .inr (hq s hs hd)⟩

/-- A write of the window that is not refused where it meets the condition, and whose rest pays. -/
theorem fulfils_exec_bind {l : L} {e : ε} {f : σ → Except ε (σ × α)} {q : α → Prog L σ ε β}
    (hw : D.window l = true) (hf : ∀ s, D.ok s → D.cond l s → D.due k s →
      ∃ s' a, f s = .ok (s', a) ∧ (q a).Fulfils D k) : (exec l e f >>= q).Fulfils D k := by
  refine ⟨hw, fun s hs hc hd => .inr ?_⟩
  obtain ⟨s', a, hok, hq⟩ := hf s hs hc hd
  show ((answer f s).bind q).Fulfils D k
  rw [answer, hok]
  exact hq

/-- The program returns only what meets `Q`. -/
def Yields (D : Duties L σ γ K) (Q : α → Prop) : Prog L σ ε α → Prop
  | ret a => Q a
  | fail _ => True
  | stmt _ _ ok err => ∀ s, D.ok s → (ok s).Yields D Q ∧ (err s).Yields D Q

theorem yields_bind {p : Prog L σ ε α} {f : α → Prog L σ ε β} {Q : α → Prop} {R : β → Prop}
    (hp : p.Yields D Q) (hf : ∀ a, Q a → (f a).Yields D R) : (p >>= f).Yields D R := by
  rw [bind_eq_bind]
  induction p with
  | ret a => exact hf a hp
  | fail e => trivial
  | stmt l u ok err ihok iherr =>
    intro s hs
    exact ⟨ihok s (hp s hs).1, iherr s (hp s hs).2⟩

theorem yields_true (p : Prog L σ ε α) : p.Yields D fun _ => True := by
  induction p with
  | ret a => trivial
  | fail e => trivial
  | stmt l u ok err ihok iherr => exact fun s _ => ⟨ihok s, iherr s⟩

theorem honours_bind {p : Prog L σ ε α} {f : α → Prog L σ ε β} {Q : α → Prop} (hp : p.Honours D)
    (hy : p.Yields D Q) (hf : ∀ a, Q a → (f a).Honours D) : (p >>= f).Honours D := by
  rw [bind_eq_bind]
  induction p with
  | ret a => exact hf a hy
  | fail e => trivial
  | stmt l u ok err ihok iherr =>
    intro s hs
    obtain ⟨hpays, hok, herr⟩ := hp s hs
    exact ⟨fun hc k hk => (hpays hc k hk).bind f, ihok s hok (hy s hs).1,
      iherr s herr (hy s hs).2⟩

theorem honours_seq {p : Prog L σ ε α} {f : α → Prog L σ ε β} (hp : p.Honours D)
    (hf : ∀ a, (f a).Honours D) : (p >>= f).Honours D :=
  honours_bind hp (yields_true p) fun a _ => hf a

theorem Fulfils.attempt {p : Prog L σ ε α} (h : p.Fulfils D k) : p.attempt.Fulfils D k := by
  induction p with
  | ret a => exact h.elim
  | fail e => exact h.elim
  | stmt l u ok err ihok iherr =>
    exact ⟨h.1, fun s hs hc hd => (h.2 s hs hc hd).imp_right fun hp => ihok s hp⟩

theorem honours_attempt {p : Prog L σ ε α} (hp : p.Honours D) : p.attempt.Honours D := by
  induction p with
  | ret a => trivial
  | fail e => trivial
  | stmt l u ok err ihok iherr =>
    intro s hs
    obtain ⟨hpays, hok, herr⟩ := hp s hs
    exact ⟨fun hc k hk => (hpays hc k hk).attempt, ihok s hok, iherr s herr⟩

/-- A write that is not refused where it leaves a duty, and whose rest pays. -/
theorem honours_exec_bind {l : L} {e : ε} {f : σ → Except ε (σ × α)} {q : α → Prog L σ ε β}
    (hopens : ∀ s k, D.ok s → D.cond l s → D.opens l s k →
      ∃ s' a, f s = .ok (s', a) ∧ (q a).Fulfils D k)
    (hq : ∀ a, (q a).Honours D) : (exec l e f >>= q).Honours D := by
  refine fun s hs => ⟨fun hc k hk => ?_, ?_, trivial⟩
  · obtain ⟨s', a, hok, hp⟩ := hopens s k hs hc hk
    show ((answer f s).bind q).Fulfils D k
    rw [answer, hok]
    exact hp
  · show ((answer f s).bind q).Honours D
    unfold answer
    split
    · exact hq _
    · trivial

/-- The statements of the program are in the window, they are never refused, and leave at most the
duties of `A`; one that fails ends the program or is passed over. -/
def Incurs (D : Duties L σ γ K) (A : K → Prop) : Prog L σ ε α → Prop
  | ret _ => True
  | fail _ => False
  | stmt l _ ok err => D.window l = true ∧ ∀ s, D.ok s →
      (D.cond l s → ∀ k, D.opens l s k → A k) ∧ (ok s).Incurs D A ∧
        ((∃ e, err s = .fail e) ∨ (err s).Incurs D A)

/-- What comes after it pays. -/
theorem Incurs.fulfils {A : K → Prop} {p : Prog L σ ε α} {f : α → Prog L σ ε β}
    (hp : p.Incurs D A) (hf : ∀ a, (f a).Fulfils D k) : (p >>= f).Fulfils D k := by
  rw [bind_eq_bind]
  induction p with
  | ret a => exact hf a
  | fail e => exact hp.elim
  | stmt l u ok err ihok iherr =>
    exact ⟨hp.1, fun s hs _ _ => .inr (ihok s (hp.2 s hs).2.1)⟩

theorem Incurs.honours {A : K → Prop} {p : Prog L σ ε α} {f : α → Prog L σ ε β}
    (hp : p.Incurs D A) (hf : ∀ a k, A k → (f a).Fulfils D k) (hh : ∀ a, (f a).Honours D) :
    (p >>= f).Honours D := by
  rw [bind_eq_bind]
  induction p with
  | ret a => exact hh a
  | fail e => exact hp.elim
  | stmt l u ok err ihok iherr =>
    intro s hs
    obtain ⟨hopens, hok, herr⟩ := hp.2 s hs
    refine ⟨fun hc k hk => hok.fulfils fun a => hf a k (hopens hc k hk), ihok s hok, ?_⟩
    rcases herr with ⟨e, he⟩ | herr
    · simp only [he, bind]
      trivial
    · exact iherr s herr

theorem incurs_bind {A : K → Prop} {p : Prog L σ ε α} {f : α → Prog L σ ε β}
    (hp : p.Incurs D A) (hf : ∀ a, (f a).Incurs D A) : (p >>= f).Incurs D A := by
  rw [bind_eq_bind]
  induction p with
  | ret a => exact hf a
  | fail e => exact hp.elim
  | stmt l u ok err ihok iherr =>
    refine ⟨hp.1, fun s hs => ?_⟩
    obtain ⟨hopens, hok, herr⟩ := hp.2 s hs
    refine ⟨hopens, ihok s hok, herr.imp ?_ (iherr s)⟩
    rintro ⟨e, he⟩
    exact ⟨e, by simp only [he, bind]⟩

/-- A program whose statements leave no duties. -/
theorem honours_of_does {T : L → σ → σ → Prop} {p : Prog L σ ε α} (hp : p.Does T)
    (hT : ∀ l s s' k, T l s s' → ¬ D.opens l s k) : p.Honours D := by
  induction p with
  | ret a => trivial
  | fail e => trivial
  | stmt l u ok err ihok iherr =>
    intro s _
    obtain ⟨ht, hok, herr⟩ := hp s
    exact ⟨fun _ k hk => absurd hk (hT l s _ k ht), ihok s hok, iherr s herr⟩

theorem honours_query {l : L} (hl : ∀ s k, ¬ D.opens l s k) (e : ε) (f : σ → α) :
    (query l e f).Honours D := fun s _ => ⟨fun _ k hk => absurd hk (hl s k), trivial, trivial⟩

theorem honours_if {c : Prop} [Decidable c] {p q : Prog L σ ε α} (hp : c → p.Honours D)
    (hq : ¬ c → q.Honours D) : (if c then p else q).Honours D := by
  split_ifs with h
  · exact hp h
  · exact hq h

end Prog

/-! ## Pools -/

/-- Every program of the pool moves the state along the relation of its job. -/
def Pool.Does (T : J → L → σ → σ → Prop) (w : Pool L σ ε γ J) : Prop :=
  ∀ t ∈ w.threads, t.2.Does (T t.1)

theorem Pool.Does.step {S : System L σ ε γ J E} {T : J → L → σ → σ → Prop} {w : Pool L σ ε γ J}
    (hS : ∀ j, (S.prog j).Does (T j)) (h : w.Does T) (a : Act J E) : (S.step w a).Does T := by
  intro t ht
  cases a with
  | spawn j =>
    rcases List.mem_append.1 ht with ht | ht
    · exact h t ht
    · rw [List.mem_singleton.1 ht]
      exact hS j
  | env e => exact h t ht
  | crash => exact absurd ht List.not_mem_nil
  | step i answered =>
    cases hi : w.threads[i]? with
    | none => exact h t (by simpa only [System.step, hi] using ht)
    | some t' =>
      obtain ⟨j, p⟩ := t'
      cases p with
      | ret a => exact h t (by simpa only [System.step, hi] using ht)
      | fail err => exact h t (by simpa only [System.step, hi] using ht)
      | stmt l u ok err =>
        obtain ⟨-, hok, herr⟩ := h _ (List.mem_of_getElem? hi) w.state
        cases answered with
        | true =>
          simp only [System.step, hi, ↓reduceIte] at ht
          rcases List.mem_or_eq_of_mem_set ht with ht | rfl
          · exact h t ht
          · exact hok
        | false =>
          simp only [System.step, hi, Bool.false_eq_true, ↓reduceIte] at ht
          rcases List.mem_or_eq_of_mem_set ht with ht | rfl
          · exact h t ht
          · exact herr

variable {D : Duties L σ γ K} {S : System L σ ε γ J E} {w : Pool L σ ε γ J}

/-- Every duty that was noted is paid, or it is due and a program is about to pay it. -/
structure Kept (D : Duties L σ γ K) (w : Pool L σ ε γ J) : Prop where
  ok : D.ok w.state
  honours : ∀ t ∈ w.threads, t.2.Honours D
  kept : ∀ k ∈ D.owed w.ghost, D.paid k w.state ∨
    D.due k w.state ∧ ∃ t ∈ w.threads, t.2.Fulfils D k

/-- No program is lost or fails in the window while something is owed. -/
def Reliable (D : Duties L σ γ K) (w : Pool L σ ε γ J) : Act J E → Prop
  | .crash => ∀ k ∈ D.owed w.ghost, D.paid k w.state
  | .step i false => ∀ s ∈ w.next i, D.window s.2 = true →
      ∀ k ∈ D.owed w.ghost, D.paid k w.state
  | .step i true => ∀ s ∈ w.next i, D.cond s.2 w.state
  | _ => True

/-- What a statement does to the duties. -/
structure Duties.Watched (D : Duties L σ γ K) (l : L) (s s' : σ) (g g' : γ) : Prop where
  ok : D.ok s'
  noted : ∀ k ∈ D.owed g', k ∈ D.owed g ∧ (D.paid k s → D.paid k s') ∧
      (D.due k s → D.due k s' ∨ D.paid k s') ∨
    D.opens l s k ∧ (D.due k s' ∨ D.paid k s')

/-- A debt is paid where no program whose next statements are in the window is under way. -/
theorem Kept.paid_of_none (h : Kept D w) {k : K} (hk : k ∈ D.owed w.ghost)
    (hq : ∀ t ∈ w.threads, ¬ t.2.Fulfils D k) : D.paid k w.state :=
  (h.kept k hk).resolve_right fun ⟨_, t, ht, hp⟩ => hq t ht hp

/-- Every debt is paid where nothing is under way. -/
theorem Kept.paid_of_idle (h : Kept D w) (hq : ∀ t ∈ w.threads, t.2.live = false) :
    ∀ k ∈ D.owed w.ghost, D.paid k w.state := by
  intro k hk
  refine h.paid_of_none hk fun t ht hp => ?_
  have hlive := hp.live
  rw [hq t ht] at hlive
  cases hlive

theorem mem_set_self {ts : List (J × Prog L σ ε Unit)} {i : Nat} {t t' : J × Prog L σ ε Unit}
    (hi : ts[i]? = some t) : t' ∈ ts.set i t' := by
  obtain ⟨hlt, -⟩ := List.getElem?_eq_some_iff.1 hi
  exact List.mem_set hlt t'

/-- A program beside the one at index `i`, or that one. -/
theorem mem_set_or_eq {ts : List (J × Prog L σ ε Unit)} {i : Nat} {t t' u : J × Prog L σ ε Unit}
    (hi : ts[i]? = some t) (hu : u ∈ ts) : u ∈ ts.set i t' ∨ u = t := by
  obtain ⟨n, hn, rfl⟩ := List.getElem_of_mem hu
  rcases eq_or_ne i n with rfl | hne
  · rw [List.getElem?_eq_getElem hn] at hi
    exact .inr (Option.some.inj hi)
  · refine .inl ?_
    rw [← List.getElem_set_ne hne (by simpa using hn)]
    exact List.getElem_mem _

theorem Kept.step (hS : ∀ j, (S.prog j).Honours D)
    (henv : ∀ e s, D.ok s → D.ok (S.env e s) ∧ ∀ k, (D.paid k s → D.paid k (S.env e s)) ∧
      (D.due k s → D.due k (S.env e s) ∨ D.paid k (S.env e s)))
    (hwatch : ∀ (i : Nat) j l u ok err, w.threads[i]? = some (j, Prog.stmt l u ok err) →
      D.cond l w.state → D.Watched l w.state (u w.state) w.ghost (S.watch j l w.state w.ghost))
    (h : Kept D w) {a : Act J E} (ha : Reliable D w a) : Kept D (S.step w a) := by
  cases a with
  | spawn j =>
    refine ⟨h.ok, fun t ht => ?_, fun k hk => ?_⟩
    · rcases List.mem_append.1 ht with ht | ht
      · exact h.honours t ht
      · rw [List.mem_singleton.1 ht]
        exact hS j
    · rcases h.kept k hk with hp | ⟨hd, t, ht, hp⟩
      · exact .inl hp
      · exact .inr ⟨hd, t, List.mem_append_left _ ht, hp⟩
  | env e =>
    obtain ⟨hok, hk⟩ := henv e w.state h.ok
    refine ⟨hok, h.honours, fun k hk' => ?_⟩
    rcases h.kept k hk' with hp | ⟨hd, hpay⟩
    · exact .inl ((hk k).1 hp)
    · rcases (hk k).2 hd with hd | hp
      · exact .inr ⟨hd, hpay⟩
      · exact .inl hp
  | crash => exact ⟨h.ok, fun t ht => absurd ht List.not_mem_nil, fun k hk => .inl (ha k hk)⟩
  | step i answered =>
    cases hi : w.threads[i]? with
    | none => simpa only [System.step, hi] using h
    | some t =>
      obtain ⟨j, p⟩ := t
      cases p with
      | ret a => simpa only [System.step, hi] using h
      | fail err => simpa only [System.step, hi] using h
      | stmt l u ok err =>
        obtain ⟨hopens, hok, herr⟩ := h.honours _ (List.mem_of_getElem? hi) w.state h.ok
        cases answered with
        | true =>
          have hc := ha _ (Pool.mem_next hi)
          have hw := hwatch i j l u ok err hi hc
          simp only [System.step, hi, ↓reduceIte]
          refine ⟨hw.ok, fun t ht => ?_, fun k hk => ?_⟩
          · rcases List.mem_or_eq_of_mem_set ht with ht | rfl
            · exact h.honours t ht
            · exact hok
          · rcases hw.noted k hk with ⟨hold, hpaid, hdue⟩ | ⟨hopen, hd | hp⟩
            · rcases h.kept k hold with hp | ⟨hd, t, ht, hp⟩
              · exact .inl (hpaid hp)
              · rcases hdue hd with hd' | hp'
                · rcases mem_set_or_eq hi ht with ht | rfl
                  · exact .inr ⟨hd', t, ht, hp⟩
                  · rcases hp.2 w.state h.ok hc hd with hp | hp
                    · exact .inl hp
                    · exact .inr ⟨hd', _, mem_set_self hi, hp⟩
                · exact .inl hp'
            · exact .inr ⟨hd, _, mem_set_self hi, hopens hc k hopen⟩
            · exact .inl hp
        | false =>
          simp only [System.step, hi, Bool.false_eq_true, ↓reduceIte]
          refine ⟨h.ok, fun t ht => ?_, fun k hk => ?_⟩
          · rcases List.mem_or_eq_of_mem_set ht with ht | rfl
            · exact h.honours t ht
            · exact herr
          · rcases h.kept k hk with hp | ⟨hd, t, ht, hp⟩
            · exact .inl hp
            · rcases mem_set_or_eq hi ht with ht | rfl
              · exact .inr ⟨hd, t, ht, hp⟩
              · exact .inl (ha _ (Pool.mem_next hi) hp.1 k hk)

end Process
