import Mathlib.Computability.Language
import Mathlib.Data.List.Chain
import Mathlib.Data.List.DropRight
import Mathlib.Data.List.TakeWhile

/-!
# Patterns of character classes

`subst p n r` is the substitution of the pattern `[p]{n,}` by `r`: every maximal run of at least `n`
characters of the class `p` gives way to one `r`, from left to right.

`words a s` is the language of the pattern `[a]+(?:[s][a]+)*`, and `Separated` says the same of a
list without a regular expression: it begins and ends in `a`, and between two neighbours there is
one of `a`.
-/

namespace CharClass

variable {α : Type}

/-! ## Substitution -/

/-- Replaces every run of at least `n` members of the class by one `r`. -/
def subst (p : α → Bool) (n : ℕ) (r : α) : List α → List α
  | [] => []
  | c :: cs =>
    if p c then
      (if n ≤ (c :: cs.takeWhile p).length then [r] else c :: cs.takeWhile p) ++
        subst p n r (cs.dropWhile p)
    else c :: subst p n r cs
termination_by l => l.length
decreasing_by
  · have := cs.dropWhile_suffix p |>.length_le
    simp only [List.length_cons]
    omega
  · simp

section Subst

variable {p : α → Bool} {n : ℕ} {r : α}

@[simp] theorem subst_nil : subst p n r [] = [] := by
  rw [subst]

theorem subst_cons_of_neg {c : α} (h : p c = false) (cs : List α) :
    subst p n r (c :: cs) = c :: subst p n r cs := by
  rw [subst, if_neg (by simp [h])]

theorem subst_cons_of_pos {c : α} (h : p c = true) (cs : List α) :
    subst p n r (c :: cs) =
      (if n ≤ (c :: cs.takeWhile p).length then [r] else c :: cs.takeWhile p) ++
        subst p n r (cs.dropWhile p) := by
  rw [subst, if_pos h]

/-- The head of what comes after a run. -/
theorem head?_dropWhile {l : List α} {c : α} (h : c ∈ (l.dropWhile p).head?) : p c = false := by
  have hne : l.dropWhile p ≠ [] := by
    rintro hnil
    simp [hnil] at h
  rw [List.head?_eq_some_head hne] at h
  cases h
  simpa using List.head_dropWhile_not p hne

theorem mem_subst {l : List α} {x : α} (h : x ∈ subst p n r l) : x ∈ l ∨ x = r := by
  induction l using subst.induct p with
  | case1 => simp at h
  | case2 c cs hc ih =>
    rw [subst_cons_of_pos hc, List.mem_append] at h
    obtain h | h := h
    · split_ifs at h
      · exact .inr (List.mem_singleton.1 h)
      · refine .inl ((List.mem_cons.1 h).elim (fun hx => hx ▸ List.mem_cons_self) fun hx => ?_)
        exact List.mem_cons_of_mem _ (cs.takeWhile_subset p hx)
    · refine (ih h).imp_left fun hx => List.mem_cons_of_mem _ (cs.dropWhile_suffix p |>.subset hx)
  | case3 c cs hc ih =>
    rw [subst_cons_of_neg (by simpa using hc)] at h
    obtain rfl | h := List.mem_cons.1 h
    · exact .inl List.mem_cons_self
    · exact (ih h).imp_left (List.mem_cons_of_mem _)

/-- Where every run is substituted, nothing of the class is left but the substitute. -/
theorem mem_subst_one {l : List α} {x : α} (h : x ∈ subst p 1 r l) : p x = false ∨ x = r := by
  induction l using subst.induct p with
  | case1 => simp at h
  | case2 c cs hc ih =>
    rw [subst_cons_of_pos hc, if_pos (by simp), List.mem_append, List.mem_singleton] at h
    exact h.elim .inr ih
  | case3 c cs hc ih =>
    rw [subst_cons_of_neg (by simpa using hc)] at h
    obtain rfl | h := List.mem_cons.1 h
    · exact .inl (by simpa using hc)
    · exact ih h

/-- What is not of the class stays. -/
theorem mem_subst_of_neg {l : List α} {x : α} (hx : p x = false) (h : x ∈ l) :
    x ∈ subst p n r l := by
  induction l using subst.induct p with
  | case1 => simp at h
  | case2 c cs hc ih =>
    rw [subst_cons_of_pos hc]
    refine List.mem_append_right _ (ih ?_)
    obtain rfl | h := List.mem_cons.1 h
    · simp [hx] at hc
    rw [← cs.takeWhile_append_dropWhile (p := p), List.mem_append] at h
    exact h.resolve_left fun h' => by simp [List.mem_takeWhile_imp h'] at hx
  | case3 c cs hc ih =>
    rw [subst_cons_of_neg (by simpa using hc)]
    obtain rfl | h := List.mem_cons.1 h
    · exact List.mem_cons_self
    · exact List.mem_cons_of_mem _ (ih h)

/-- A text without a character of the class has nothing to substitute. -/
theorem subst_of_forall_neg {l : List α} (h : ∀ c ∈ l, p c = false) : subst p n r l = l := by
  induction l with
  | nil => simp
  | cons c cs ih =>
    rw [subst_cons_of_neg (h c List.mem_cons_self), ih fun d hd => h d (List.mem_cons_of_mem _ hd)]

/-- The head of a text after a substitution that begins with no run. -/
theorem head?_subst_dropWhile {l : List α} {c : α} (h : c ∈ (subst p n r (l.dropWhile p)).head?) :
    p c = false := by
  cases hl : l.dropWhile p with
  | nil => simp [hl] at h
  | cons d ds =>
    have hd : p d = false := head?_dropWhile (l := l) (by simp [hl])
    rw [hl, subst_cons_of_neg hd] at h
    obtain rfl : d = c := by simpa using h
    exact hd

/-- After the substitution of the runs of two and more, no two neighbours are of the class. -/
theorem isChain_subst_two (l : List α) :
    (subst p 2 r l).IsChain fun c d => p c = false ∨ p d = false := by
  induction l using subst.induct p with
  | case1 => simp
  | case2 c cs hc ih =>
    have hone : ∀ x, ([x] ++ subst p 2 r (cs.dropWhile p)).IsChain
        fun c d => p c = false ∨ p d = false := fun x =>
      ih.cons fun d hd => .inr (head?_subst_dropWhile hd)
    rw [subst_cons_of_pos hc]
    split_ifs with hlen
    · exact hone r
    · have hnil : cs.takeWhile p = [] := by
        rw [← List.length_eq_zero_iff]
        simp only [List.length_cons] at hlen
        omega
      rw [hnil]
      exact hone c
  | case3 c cs hc ih =>
    rw [subst_cons_of_neg (by simpa using hc)]
    exact ih.cons fun d _ => .inl (by simpa using hc)

/-- Where no two neighbours are of the class, there are no such runs. -/
theorem subst_two_of_isChain {l : List α} (h : l.IsChain fun c d => p c = false ∨ p d = false) :
    subst p 2 r l = l := by
  induction l with
  | nil => simp
  | cons c cs ih =>
    have hcs := ih h.tail
    by_cases hc : p c = true
    · have hhead : ∀ d ∈ cs.head?, p d = false := fun d hd =>
        (h.rel_head? hd).resolve_left (by simp [hc])
      have htake : cs.takeWhile p = [] ∧ cs.dropWhile p = cs := by
        cases cs with
        | nil => simp
        | cons d ds => simp [hhead d rfl]
      rw [subst_cons_of_pos hc, htake.1, htake.2, hcs]
      simp
    · rw [subst_cons_of_neg (by simpa using hc), hcs]

end Subst

/-! ## Words with separators -/

open scoped Computability

/-- `[p]`. -/
def single (p : α → Bool) : Language α := {w | ∃ c, w = [c] ∧ p c = true}

/-- `L+`. -/
def plus (L : Language α) : Language α := L * L∗

/-- `[a]+(?:[s][a]+)*`. -/
def words (a s : α → Bool) : Language α := plus (single a) * (single s * plus (single a))∗

/-- A text of `a`s with single `s`s between them: it begins and ends with an `a`, and no two `s`s
touch. -/
structure Separated (a s : α → Bool) (l : List α) : Prop where
  chars : ∀ c ∈ l, a c = true ∨ s c = true
  head : ∃ c ∈ l.head?, a c = true
  last : ∃ c ∈ l.getLast?, a c = true
  chain : l.IsChain fun c d => a c = true ∨ a d = true

section Words

variable {a s p : α → Bool}

theorem mem_kstar_single {w : List α} : w ∈ (single p)∗ ↔ ∀ c ∈ w, p c = true := by
  rw [Language.mem_kstar]
  constructor
  · rintro ⟨L, rfl, hL⟩ c hc
    obtain ⟨v, hv, hcv⟩ := List.mem_flatten.1 hc
    obtain ⟨d, rfl, hd⟩ := hL v hv
    rwa [List.mem_singleton.1 hcv]
  · intro h
    refine ⟨w.map fun c => [c], by rw [← List.flatMap_def, List.flatMap_singleton'], fun v hv => ?_⟩
    obtain ⟨c, hc, rfl⟩ := List.mem_map.1 hv
    exact ⟨c, rfl, h c hc⟩

theorem mem_plus_single {w : List α} :
    w ∈ plus (single p) ↔ w ≠ [] ∧ ∀ c ∈ w, p c = true := by
  rw [plus, Language.mem_mul]
  constructor
  · rintro ⟨_, ⟨c, rfl, hc⟩, v, hv, rfl⟩
    rw [mem_kstar_single] at hv
    simpa using ⟨hc, hv⟩
  · rintro ⟨hne, h⟩
    cases w with
    | nil => exact absurd rfl hne
    | cons c w =>
      exact ⟨[c], ⟨c, rfl, h c List.mem_cons_self⟩, w,
        mem_kstar_single.2 fun d hd => h d (List.mem_cons_of_mem _ hd), rfl⟩

theorem separated_of_forall {w : List α} (hne : w ≠ []) (h : ∀ c ∈ w, a c = true) :
    Separated a s w where
  chars c hc := .inl (h c hc)
  head := ⟨_, List.head?_eq_some_head hne, h _ (List.head_mem hne)⟩
  last := ⟨_, List.getLast?_eq_some_getLast hne, h _ (List.getLast_mem hne)⟩
  chain := by
    induction w with
    | nil => exact absurd rfl hne
    | cons c w ih =>
      cases w with
      | nil => simp
      | cons d w =>
        exact .cons_cons (.inl (h c List.mem_cons_self))
          (ih (by simp) fun x hx => h x (List.mem_cons_of_mem _ hx))

/-- A word and a separator in front. -/
theorem Separated.cons {w v : List α} {c : α} (hv : Separated a s v) (hne : w ≠ [])
    (hw : ∀ d ∈ w, a d = true) (hc : s c = true) : Separated a s (w ++ c :: v) := by
  have hword : Separated a s w := separated_of_forall hne hw
  refine ⟨?_, ?_, ?_, ?_⟩
  · intro d hd
    obtain hd | hd := List.mem_append.1 hd
    · exact .inl (hw d hd)
    · obtain rfl | hd := List.mem_cons.1 hd
      · exact .inr hc
      · exact hv.chars d hd
  · obtain ⟨d, hd, had⟩ := hword.head
    refine ⟨d, ?_, had⟩
    cases w with
    | nil => exact absurd rfl hne
    | cons e w => simpa using hd
  · obtain ⟨d, hd, had⟩ := hv.last
    refine ⟨d, ?_, had⟩
    cases v with
    | nil => simp at hd
    | cons e v => simpa using hd
  · refine hword.chain.append (hv.chain.cons fun d hd => .inr ?_) fun d hd e _ => .inl ?_
    · obtain ⟨e, he, hae⟩ := hv.head
      rwa [Option.mem_unique hd he]
    · exact hw d (List.mem_of_getLast? hd)

/-- What is left after the first word and the separator behind it. -/
theorem Separated.tail {w v : List α} {c : α} (h : Separated a s (w ++ c :: v))
    (hc : a c = false) : Separated a s v := by
  have hchain := (List.isChain_append.1 h.chain).2.1
  have hlast : ∃ d ∈ (c :: v).getLast?, a d = true := by
    obtain ⟨d, hd, had⟩ := h.last
    refine ⟨d, ?_, had⟩
    rwa [List.getLast?_append_of_ne_nil _ (by simp)] at hd
  cases v with
  | nil =>
    obtain ⟨d, hd, had⟩ := hlast
    obtain rfl : c = d := by simpa using hd
    simp [hc] at had
  | cons d v =>
    refine ⟨fun e he => h.chars e (by simp [he]), ⟨d, rfl, ?_⟩, ?_, hchain.tail⟩
    · exact (hchain.rel_head? (y := d) rfl).resolve_left (by simp [hc])
    · simpa using hlast

theorem separated_of_words {l : List α} (h : l ∈ words a s) : Separated a s l := by
  obtain ⟨w, hw, _, ⟨L, rfl, hL⟩, rfl⟩ := h
  obtain ⟨hne, hall⟩ := mem_plus_single.1 hw
  induction L generalizing w with
  | nil => simpa using separated_of_forall hne hall
  | cons u L ih =>
    obtain ⟨_, ⟨c, rfl, hc⟩, v, hv, rfl⟩ := hL u List.mem_cons_self
    have hrest := ih v hv (fun y hy => hL y (List.mem_cons_of_mem _ hy))
      (mem_plus_single.1 hv).1 (mem_plus_single.1 hv).2
    simpa using hrest.cons hne hall hc

theorem Separated.words {l : List α} (h : Separated a s l) : l ∈ words a s := by
  induction hn : l.length using Nat.strong_induction_on generalizing l with
  | h n ih =>
    have htake : l.takeWhile a ∈ plus (single a) := by
      refine mem_plus_single.2 ⟨?_, fun c hc => List.mem_takeWhile_imp hc⟩
      obtain ⟨c, hc, hac⟩ := h.head
      cases l with
      | nil => simp at hc
      | cons d l =>
        obtain rfl : d = c := by simpa using hc
        simp [hac]
    have hsplit := l.takeWhile_append_dropWhile (p := a)
    refine ⟨l.takeWhile a, htake, l.dropWhile a, ?_, hsplit⟩
    cases hdrop : l.dropWhile a with
    | nil => exact ⟨[], rfl, by simp⟩
    | cons c v =>
      rw [hdrop] at hsplit
      have hc : a c = false := head?_dropWhile (l := l) (by simp [hdrop])
      have hs : s c = true := (h.chars c (by rw [← hsplit]; simp)).resolve_left (by simp [hc])
      have hv : Separated a s v := by
        rw [← hsplit] at h
        exact h.tail hc
      have hlen : v.length < n := by
        rw [← hn, ← hsplit]
        simp
        omega
      obtain ⟨w, hw, _, ⟨L, rfl, hL⟩, rfl⟩ := ih _ hlen hv rfl
      refine ⟨([c] ++ w) :: L, by simp, fun y hy => ?_⟩
      obtain rfl | hy := List.mem_cons.1 hy
      · exact ⟨[c], ⟨c, rfl, hs⟩, w, hw, rfl⟩
      · exact hL y hy

/-- The two readings of the pattern are the same. -/
theorem mem_words_iff {l : List α} : l ∈ words a s ↔ Separated a s l :=
  ⟨separated_of_words, Separated.words⟩

/-- A word with separators that is spelled in other characters. -/
theorem separated_map_iff {β : Type} {a' s' : β → Bool} {f : β → α} {l : List β}
    (ha : ∀ c ∈ l, a (f c) = a' c) (hs : ∀ c ∈ l, s (f c) = s' c) :
    Separated a s (l.map f) ↔ Separated a' s' l := by
  have hchain : (l.map f).IsChain (fun c d => a c = true ∨ a d = true) ↔
      l.IsChain fun c d => a' c = true ∨ a' d = true := by
    rw [List.isChain_map]
    exact List.IsChain.iff_of_mem_imp fun c d hc hd => by rw [ha c hc, ha d hd]
  constructor
  · rintro ⟨hchars, ⟨c, hc, hac⟩, ⟨d, hd, had⟩, hch⟩
    rw [List.head?_map] at hc
    rw [List.getLast?_map] at hd
    obtain ⟨c, hc', rfl⟩ := Option.map_eq_some_iff.1 hc
    obtain ⟨d, hd', rfl⟩ := Option.map_eq_some_iff.1 hd
    refine ⟨fun e he => ?_, ⟨c, hc', ?_⟩, ⟨d, hd', ?_⟩, hchain.1 hch⟩
    · rw [← ha e he, ← hs e he]
      exact hchars _ (List.mem_map_of_mem he)
    · rwa [← ha c (List.mem_of_head? hc')]
    · rwa [← ha d (List.mem_of_getLast? hd')]
  · rintro ⟨hchars, ⟨c, hc, hac⟩, ⟨d, hd, had⟩, hch⟩
    refine ⟨?_, ⟨f c, ?_, ?_⟩, ⟨f d, ?_, ?_⟩, hchain.2 hch⟩
    · intro e he
      obtain ⟨x, hx, rfl⟩ := List.mem_map.1 he
      rw [ha x hx, hs x hx]
      exact hchars x hx
    · rw [List.head?_map, Option.mem_def.1 hc]
      rfl
    · rwa [ha c (List.mem_of_head? hc)]
    · rw [List.getLast?_map, Option.mem_def.1 hd]
      rfl
    · rwa [ha d (List.mem_of_getLast? hd)]

end Words

/-! ## Stripping -/

section Strip

variable {p : α → Bool}

/-- What is not of the class is not stripped off the ends. -/
theorem mem_strip {l : List α} {c : α} (hc : p c = false) (h : c ∈ l) :
    c ∈ (l.dropWhile p).rdropWhile p := by
  have hdrop : ∀ l : List α, c ∈ l → c ∈ l.dropWhile p := fun l h => by
    rw [← l.takeWhile_append_dropWhile (p := p), List.mem_append] at h
    exact h.resolve_left fun h' => by simp [List.mem_takeWhile_imp h'] at hc
  rw [List.rdropWhile, List.mem_reverse]
  exact hdrop _ (List.mem_reverse.2 (hdrop l h))

theorem isInfix_strip (l : List α) : (l.dropWhile p).rdropWhile p <:+: l :=
  ( List.rdropWhile_prefix p (l.dropWhile p)).isInfix.trans (l.dropWhile_suffix p).isInfix

/-- The ends of a stripped list are not of the class. -/
theorem head?_strip {l : List α} {c : α} (h : c ∈ ((l.dropWhile p).rdropWhile p).head?) :
    p c = false := by
  have hpre := (List.singleton_prefix_iff_head?_eq_some.2 h).trans
    ( List.rdropWhile_prefix p (l.dropWhile p))
  exact head?_dropWhile (l := l) (List.singleton_prefix_iff_head?_eq_some.1 hpre)

theorem getLast?_strip {l : List α} {c : α} (h : c ∈ ((l.dropWhile p).rdropWhile p).getLast?) :
    p c = false := by
  rw [List.rdropWhile, List.getLast?_reverse] at h
  exact head?_dropWhile h

theorem strip_eq_self {l : List α} (hhead : ∀ c ∈ l.head?, p c = false)
    (hlast : ∀ c ∈ l.getLast?, p c = false) : (l.dropWhile p).rdropWhile p = l := by
  have hdrop : ∀ l : List α, (∀ c ∈ l.head?, p c = false) → l.dropWhile p = l := by
    rintro (_ | ⟨c, l⟩) h
    · rfl
    · rw [List.dropWhile_cons_of_neg (by simp [h c rfl])]
  rw [hdrop l hhead, List.rdropWhile, hdrop _ (by rwa [List.head?_reverse]), List.reverse_reverse]

end Strip

end CharClass
