import FloatCtf.Process.Follow

/-!
# Shares that are tested before they are taken

A program tests whether there is room below a limit, and takes its share later.  In between it holds
a claim to the share, which shows in the labels of its statements.  The test looks at the shares that
are taken, not at the claims.

`Prog.Obeys` says of a program that it holds a claim only after such a test, and takes a share only
with a claim.  `inQuota_run` is the rule: shares and claims together stay below the limit, in every
run in which a test succeeds only when nobody holds a claim, or when there is room beside the
claims. -/

namespace Process

variable {L σ ε γ J E α β K : Type}

/-- What a statement holds while it is still to be made, whether it takes a share for it, and the
shares that are taken.  States are those that are `ok`. -/
structure Quota (L σ K : Type) where
  holds : L → Option K
  takes : L → Bool
  used : K → σ → Nat
  limit : K → Nat
  ok : σ → Prop

namespace Prog

variable [DecidableEq K] {q : Quota L σ K}

/-- The claim that the program holds. -/
def claim (q : Quota L σ K) (p : Prog L σ ε α) : Option K := p.head.bind q.holds

/-- The program holds no claims but `b` and those that it gets by a test, and it returns only with
`Q`. -/
def Obeys (q : Quota L σ K) (Q : α → Option K → Prop) : Prog L σ ε α → Option K → Prop
  | ret a, b => Q a b
  | fail _, _ => True
  | stmt l u ok err, b => ∀ s, q.ok s →
      (∀ k, q.holds l = some k → b = some k) ∧ q.ok (u s) ∧
      (∀ k, q.used k (u s) ≤ q.used k s + if q.takes l ∧ q.holds l = some k then 1 else 0) ∧
      (∃ b', (∀ k, b' = some k →
        q.takes l = false ∧ (q.holds l = some k ∨ q.used k s < q.limit k)) ∧ (ok s).Obeys q Q b') ∧
      (err s).Obeys q Q (q.holds l)

variable {b : Option K}

theorem Obeys.imp {Q Q' : α → Option K → Prop} (hQ : ∀ a b, Q a b → Q' a b)
    {p : Prog L σ ε α} (h : p.Obeys q Q b) : p.Obeys q Q' b := by
  induction p generalizing b with
  | ret a => exact hQ a b h
  | fail e => trivial
  | stmt l u ok err ihok iherr =>
    intro s hs
    obtain ⟨hheld, hok, hused, ⟨b', hb', hnext⟩, herr⟩ := h s hs
    exact ⟨hheld, hok, hused, ⟨b', hb', ihok s hnext⟩, iherr s herr⟩

theorem obeys_bind {Q : β → Option K → Prop} {p : Prog L σ ε α} {f : α → Prog L σ ε β}
    (h : p.Obeys q (fun a b => (f a).Obeys q Q b) b) : (p >>= f).Obeys q Q b := by
  rw [bind_eq_bind]
  induction p generalizing b with
  | ret a => exact h
  | fail e => trivial
  | stmt l u ok err ihok iherr =>
    intro s hs
    obtain ⟨hheld, hok, hused, ⟨b', hb', hnext⟩, herr⟩ := h s hs
    exact ⟨hheld, hok, hused, ⟨b', hb', ihok s hnext⟩, iherr s herr⟩

theorem obeys_attempt {Q : Except ε α → Option K → Prop} {p : Prog L σ ε α}
    (h : p.Obeys q (fun a b => Q (.ok a) b) b) (he : ∀ e b, Q (.error e) b) :
    p.attempt.Obeys q Q b := by
  induction p generalizing b with
  | ret a => exact h
  | fail e => exact he e b
  | stmt l u ok err ihok iherr =>
    intro s hs
    obtain ⟨hheld, hok, hused, ⟨b', hb', hnext⟩, herr⟩ := h s hs
    exact ⟨hheld, hok, hused, ⟨b', hb', ihok s hnext⟩, iherr s herr⟩

/-- A statement that holds `b` and takes nothing. -/
structure Idle (q : Quota L σ K) (b : Option K) (l : L) (s s' : σ) : Prop where
  holds : q.holds l = b
  takes : q.takes l = false
  ok : q.ok s → q.ok s'
  used : q.ok s → ∀ k, q.used k s' ≤ q.used k s

theorem obeys_of_idle {p : Prog L σ ε α} (hp : p.Does (Idle q b)) :
    p.Obeys q (fun _ b' => b' = b) b := by
  induction p with
  | ret a => rfl
  | fail e => trivial
  | stmt l u ok err ihok iherr =>
    intro s hs
    obtain ⟨hl, hok, herr⟩ := hp s
    refine ⟨fun k hk => hl.holds ▸ hk, hl.ok hs, fun k => ?_, ⟨b, fun k hk => ?_, ihok s hok⟩, ?_⟩
    · exact Nat.le_trans (hl.used hs k) (Nat.le_add_right _ _)
    · exact ⟨hl.takes, .inl (hl.holds.trans hk)⟩
    · rw [hl.holds]
      exact iherr s herr

theorem obeys_seq {Q : β → Option K → Prop} {p : Prog L σ ε α} {f : α → Prog L σ ε β}
    (hp : p.Does (Idle q b)) (hf : ∀ a, (f a).Obeys q Q b) : (p >>= f).Obeys q Q b := by
  refine obeys_bind ((obeys_of_idle hp).imp fun a b' hb => ?_)
  rw [hb]
  exact hf a

theorem obeys_query {Q : α → Option K → Prop} {l : L} {e : ε} {f : σ → α} (hl : q.holds l = b)
    (ht : q.takes l = false) (h : ∀ s, q.ok s → Q (f s) b) : (query l e f).Obeys q Q b := by
  refine fun s hs => ⟨fun k hk => hl ▸ hk, hs, fun k => Nat.le_add_right _ _, ⟨b, fun k hk => ?_, h s hs⟩,
    trivial⟩
  exact ⟨ht, .inl (hl.trans hk)⟩

/-- A test: what comes after it may have a claim to a share for which there is room. -/
theorem obeys_test {Q : β → Option K → Prop} {l : L} {e : ε} {f : σ → α} {g : α → Prog L σ ε β}
    (hl : q.holds l = none) (ht : q.takes l = false)
    (h : ∀ s, q.ok s → ∃ b', (∀ k, b' = some k → q.used k s < q.limit k) ∧
      (g (f s)).Obeys q Q b') : (query l e f >>= g).Obeys q Q none := by
  intro s hs
  obtain ⟨b', hb', hg⟩ := h s hs
  refine ⟨fun k hk => ?_, hs, fun k => Nat.le_add_right _ _, ⟨b', fun k hk => ?_, hg⟩, trivial⟩
  · exact nomatch hl.symm.trans hk
  · exact ⟨ht, .inr (hb' k hk)⟩

/-- A program that needs no claim may have one, and gives it up. -/
theorem obeys_of_none {Q : α → Prop} {p : Prog L σ ε α} (h : p.Obeys q (fun a _ => Q a) none) :
    p.Obeys q (fun a _ => Q a) b := by
  cases p with
  | ret a => exact h
  | fail e => trivial
  | stmt l u ok err =>
    intro s hs
    obtain ⟨hheld, hrest⟩ := h s hs
    exact ⟨fun k hk => absurd (hheld k hk) nofun, hrest⟩

/-- A program holds no claim but the one it may have. -/
theorem Obeys.claim_eq {Q : α → Option K → Prop} {p : Prog L σ ε α} (h : p.Obeys q Q b) {s : σ}
    (hs : q.ok s) {k : K} (hk : p.claim q = some k) : b = some k := by
  cases p with
  | ret a => cases hk
  | fail e => cases hk
  | stmt l u ok err => exact (h s hs).1 k hk

/-- The claim that shows is the one that counts. -/
theorem Obeys.of_claim {p : Prog L σ ε α} (h : p.Obeys q (fun _ _ => True) b) :
    p.Obeys q (fun _ _ => True) (p.claim q) := by
  cases p with
  | ret a => trivial
  | fail e => trivial
  | stmt l u ok err => exact fun s hs => ⟨fun k hk => hk, (h s hs).2⟩

end Prog

/-! ## Pools -/

section Pools

variable [DecidableEq K] (q : Quota L σ K) {S : System L σ ε γ J E} {w : Pool L σ ε γ J}

/-- How many programs hold a claim to a share of `k`. -/
def Pool.held (w : Pool L σ ε γ J) (k : K) : Nat := w.threads.countP fun t => t.2.claim q = some k

/-- The claim that the program at index `i` gets by its next statement. -/
def Pool.granted (w : Pool L σ ε γ J) (i : Nat) : Option K :=
  match w.threads[i]? with
  | some (_, .stmt l _ ok _) => ((ok w.state).claim q).filter fun k => q.holds l ≠ some k
  | _ => none

/-- A test that succeeds finds nobody with a claim, or room beside the claims. -/
def Room (w : Pool L σ ε γ J) : Act J E → Prop
  | .step i true => ∀ k ∈ w.granted q i,
      w.held q k = 0 ∨ q.used k w.state + w.held q k < q.limit k
  | _ => True

instance (w : Pool L σ ε γ J) (a : Act J E) : Decidable (Room q w a) :=
  match a with
  | .step i true => inferInstanceAs (Decidable (∀ k ∈ w.granted q i, _))
  | .step _ false | .spawn _ | .env _ | .crash => inferInstanceAs (Decidable True)

/-- A pool within the quota: what is used and what the threads still hold stays below the limit of
each key. -/
structure InQuota (w : Pool L σ ε γ J) : Prop where
  ok : q.ok w.state
  obeys : ∀ t ∈ w.threads, t.2.Obeys q (fun _ _ => True) (t.2.claim q)
  within : ∀ k, q.used k w.state + w.held q k ≤ q.limit k

/-- The jobs and the environment obey the quota. -/
structure Quota.Obeyed (S : System L σ ε γ J E) : Prop where
  prog : ∀ j, (S.prog j).Obeys q (fun _ _ => True) none
  env : ∀ e s, q.ok s → q.ok (S.env e s) ∧ ∀ k, q.used k (S.env e s) ≤ q.used k s

variable {q}

/-- The program at index `i` goes on as `p`. -/
theorem held_set {i : Nat} {t : J × Prog L σ ε Unit} (hi : w.threads[i]? = some t) (j : J)
    (p : Prog L σ ε Unit) (k : K) :
    (w.threads.set i (j, p)).countP (fun t => t.2.claim q = some k) +
        (if t.2.claim q = some k then 1 else 0) =
      w.held q k + if p.claim q = some k then 1 else 0 := by
  obtain ⟨hlt, rfl⟩ := List.getElem?_eq_some_iff.1 hi
  have hpos : (if w.threads[i].2.claim q = some k then 1 else 0) ≤ w.held q k := by
    split
    · next h =>
      exact List.countP_pos_iff.2 ⟨_, List.getElem_mem hlt, by simpa using h⟩
    · exact Nat.zero_le _
  rw [List.countP_set hlt]
  simp only [decide_eq_true_eq]
  unfold Pool.held at hpos ⊢
  omega

/-- After a statement that was answered there are no more shares and claims than the limit. -/
theorem within_answered {i : Nat} {j : J} {l : L} {u : σ → σ} {ok err : σ → Prog L σ ε Unit} {k : K}
    (hi : w.threads[i]? = some (j, .stmt l u ok err))
    (hw : q.used k w.state + w.held q k ≤ q.limit k)
    (hused : q.used k (u w.state) ≤
      q.used k w.state + if q.takes l ∧ q.holds l = some k then 1 else 0)
    (hclaim : (ok w.state).claim q = some k →
      q.takes l = false ∧ (q.holds l = some k ∨ q.used k w.state < q.limit k))
    (hroom : k ∈ w.granted q i → w.held q k = 0 ∨ q.used k w.state + w.held q k < q.limit k) :
    q.used k (u w.state) +
      (w.threads.set i (j, ok w.state)).countP (fun t => t.2.claim q = some k) ≤ q.limit k := by
  have hset := held_set (q := q) hi j (ok w.state) k
  have hold : Prog.claim q (.stmt l u ok err) = q.holds l := rfl
  simp only [hold] at hset
  by_cases hnew : (ok w.state).claim q = some k
  · obtain ⟨htakes, hwhy⟩ := hclaim hnew
    rw [if_neg (by simp [htakes])] at hused
    rw [if_pos hnew] at hset
    by_cases hheld : q.holds l = some k
    · rw [if_pos hheld] at hset
      omega
    · rw [if_neg hheld] at hset
      have hgranted : k ∈ w.granted q i := by simp [Pool.granted, hi, hnew, hheld]
      have hlt : q.used k w.state < q.limit k := hwhy.resolve_left hheld
      rcases hroom hgranted with hzero | hroom <;> omega
  · rw [if_neg hnew] at hset
    by_cases hheld : q.holds l = some k
    · rw [if_pos hheld] at hset
      split at hused <;> omega
    · rw [if_neg fun h => hheld h.2] at hused
      rw [if_neg hheld] at hset
      omega

/-- A statement that fails gives no claim. -/
theorem within_failed {i : Nat} {j : J} {l : L} {u : σ → σ} {ok err : σ → Prog L σ ε Unit} {k : K}
    (hi : w.threads[i]? = some (j, .stmt l u ok err))
    (hw : q.used k w.state + w.held q k ≤ q.limit k)
    (hclaim : (err w.state).claim q = some k → q.holds l = some k) :
    q.used k w.state +
      (w.threads.set i (j, err w.state)).countP (fun t => t.2.claim q = some k) ≤ q.limit k := by
  have hset := held_set (q := q) hi j (err w.state) k
  have hold : Prog.claim q (.stmt l u ok err) = q.holds l := rfl
  simp only [hold] at hset
  by_cases hnew : (err w.state).claim q = some k
  · rw [if_pos hnew, if_pos (hclaim hnew)] at hset
    omega
  · rw [if_neg hnew] at hset
    omega

theorem InQuota.step (hS : q.Obeyed S) (h : InQuota q w) {a : Act J E} (ha : Room q w a) :
    InQuota q (S.step w a) := by
  cases a with
  | spawn j =>
    have hclaim : (S.prog j).claim q = none := by
      refine Option.eq_none_iff_forall_ne_some.2 fun k hk => ?_
      exact nomatch (hS.prog j).claim_eq h.ok hk
    refine ⟨h.ok, fun t ht => ?_, fun k => ?_⟩
    · rcases List.mem_append.1 ht with ht | ht
      · exact h.obeys t ht
      · rw [List.mem_singleton.1 ht]
        exact (hS.prog j).of_claim
    · have hw := h.within k
      simpa [System.step, Pool.held, List.countP_append, hclaim] using hw
  | env e =>
    obtain ⟨hok, hused⟩ := hS.env e w.state h.ok
    exact ⟨hok, h.obeys, fun k => Nat.le_trans (Nat.add_le_add_right (hused k) _) (h.within k)⟩
  | crash =>
    refine ⟨h.ok, fun t ht => absurd ht List.not_mem_nil, fun k => ?_⟩
    exact Nat.le_trans (Nat.add_le_add_left (Nat.zero_le _) _) (h.within k)
  | step i answered =>
    cases hi : w.threads[i]? with
    | none => simpa only [System.step, hi] using h
    | some t =>
      obtain ⟨j, p⟩ := t
      cases p with
      | ret a => simpa only [System.step, hi] using h
      | fail err => simpa only [System.step, hi] using h
      | stmt l u ok err =>
        have hmem := List.mem_of_getElem? hi
        obtain ⟨-, hok, hused, ⟨b, hb, hnext⟩, herr⟩ := h.obeys _ hmem w.state h.ok
        have hthreads : ∀ p : Prog L σ ε Unit, p.Obeys q (fun _ _ => True) (p.claim q) →
            ∀ t ∈ w.threads.set i (j, p), t.2.Obeys q (fun _ _ => True) (t.2.claim q) := by
          intro p hp t ht
          rcases List.mem_or_eq_of_mem_set ht with ht | rfl
          · exact h.obeys t ht
          · exact hp
        cases answered with
        | true =>
          simp only [System.step, hi, ↓reduceIte]
          refine ⟨hok, hthreads _ hnext.of_claim, fun k => ?_⟩
          exact within_answered hi (h.within k) (hused k) (fun hk => hb k (hnext.claim_eq hok hk))
            (ha k)
        | false =>
          simp only [System.step, hi, Bool.false_eq_true, ↓reduceIte]
          refine ⟨h.ok, hthreads _ herr.of_claim, fun k => ?_⟩
          exact within_failed hi (h.within k) fun hk => herr.claim_eq h.ok hk

/-- Every run in which the tests find room. -/
theorem inQuota_run (hS : q.Obeyed S) (h : InQuota q w) {acts : List (Act J E)}
    (ha : Along S.step (Room q) w acts) : InQuota q (acts.foldl S.step w) :=
  inv_of_along (InQuota q) (fun _ _ hw hroom => hw.step hS hroom) h ha

end Pools

end Process
