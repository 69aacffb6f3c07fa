import Mathlib.Data.List.Basic

/-!
# Words that hide what is behind them

`hide` puts a mask for the `width` letters behind the first place of a word in a text, and `hideAll`
does so for one word after the other.

`hideAll_eq_iff` says when two texts in which the words are at the same places become equal: when
they differ in hidden letters only.  The places of a word that has no letter of the mask move with
the text around them, so the words must not be behind one another.
-/

namespace Mask

variable {α : Type*} [DecidableEq α]

/-! ## Places -/

/-- The first place of a word in a text. -/
def firstPlace (word text : List α) : Option ℕ :=
  (List.range text.length).find? fun i => decide (word <+: text.drop i)

variable {word v text text' : List α} {i p : ℕ}

omit [DecidableEq α] in
theorem prefix_drop_iff :
    word <+: text.drop i ↔ ∀ k, k < word.length → text[i + k]? = word[k]? := by
  rw [List.prefix_iff_getElem?]
  constructor
  · intro h k hk
    rw [← List.getElem?_drop, h k hk, List.getElem?_eq_getElem hk]
  · intro h k hk
    rw [List.getElem?_drop, h k hk, List.getElem?_eq_getElem hk]

omit [DecidableEq α] in
theorem lt_length_of_prefix_drop (hne : word ≠ []) (h : word <+: text.drop i) :
    i < text.length := by
  by_contra hle
  rw [List.drop_eq_nil_of_le (Nat.le_of_not_lt hle)] at h
  exact hne (List.prefix_nil.1 h)

theorem firstPlace_eq_some_iff (hne : word ≠ []) : firstPlace word text = some i ↔
    word <+: text.drop i ∧ ∀ j < i, ¬ word <+: text.drop j := by
  rw [firstPlace, List.find?_range_eq_some]
  simp only [decide_eq_true_eq, Bool.not_eq_true', decide_eq_false_iff_not, List.mem_range]
  exact ⟨fun h => ⟨h.1, h.2.2⟩, fun h => ⟨h.1, lt_length_of_prefix_drop hne h.1, h.2⟩⟩

theorem firstPlace_eq_none_iff (hne : word ≠ []) :
    firstPlace word text = none ↔ ∀ i, ¬ word <+: text.drop i := by
  rw [firstPlace, List.find?_eq_none]
  simp only [decide_eq_true_eq, List.mem_range]
  exact ⟨fun h i hpre => h i (lt_length_of_prefix_drop hne hpre) hpre, fun h i _ => h i⟩

theorem add_length_le (hne : word ≠ []) (h : firstPlace word text = some p) :
    p + word.length ≤ text.length := by
  obtain ⟨hpre, -⟩ := (firstPlace_eq_some_iff hne).1 h
  have hlt := lt_length_of_prefix_drop hne hpre
  have hle := hpre.length_le
  rw [List.length_drop] at hle
  omega

/-! ## Hiding -/

section Hide

variable (width : ℕ) (stars : List α)

/-- The mask for the letters behind the first place of a word. -/
def hide (word text : List α) : List α :=
  match firstPlace word text with
  | none => text
  | some p => text.take (p + word.length) ++ stars ++ text.drop (p + word.length + width)

/-- Hides the words one after the other. -/
def hideAll (words : List (List α)) (text : List α) : List α :=
  words.foldl (fun text word => hide width stars word text) text

/-- The letter is behind the first place of one of the words. -/
def Covered (words : List (List α)) (text : List α) (i : ℕ) : Prop :=
  ∃ word ∈ words, ∃ p ∈ firstPlace word text,
    p + word.length ≤ i ∧ i < p + word.length + width

instance (words : List (List α)) (text : List α) (i : ℕ) : Decidable (Covered width words text i) :=
  inferInstanceAs (Decidable (∃ word ∈ words, ∃ p ∈ firstPlace word text, _))

/-- Words at the same places of two texts, each with what is hidden behind it apart from the
others. -/
structure Aligned (words : List (List α)) (text text' : List α) : Prop where
  places : ∀ word ∈ words, firstPlace word text = firstPlace word text'
  apart : words.Pairwise fun word v => ∀ p ∈ firstPlace word text, ∀ q ∈ firstPlace v text,
    p + word.length + width ≤ q ∨ q + v.length + width ≤ p

end Hide

/-! ## One word -/

section Step

variable {width : ℕ} {stars : List α}

theorem hide_of_none (h : firstPlace word text = none) : hide width stars word text = text := by
  rw [hide, h]

/-- The letters of a text with one word hidden. -/
theorem getElem?_hide (hne : word ≠ []) (h : firstPlace word text = some p) (m : ℕ) :
    (hide width stars word text)[m]? =
      if m < p + word.length then text[m]?
      else if m < p + word.length + stars.length then stars[m - (p + word.length)]?
      else text[m - stars.length + width]? := by
  have hlen : (text.take (p + word.length)).length = p + word.length := by
    rw [List.length_take, Nat.min_eq_left (add_length_le hne h)]
  have heq : hide width stars word text =
      text.take (p + word.length) ++ (stars ++ text.drop (p + word.length + width)) := by
    rw [hide, h, ← List.append_assoc]
  rw [heq, List.getElem?_append, hlen]
  split_ifs with hlt hstar
  · rw [List.getElem?_take_of_lt hlt]
  · rw [List.getElem?_append_left (by omega)]
  · rw [List.getElem?_append_right (by omega), List.getElem?_drop]
    congr 1
    omega

variable (hv : v ≠ []) (hstars : stars ≠ []) (hout : ∀ a ∈ stars, a ∉ v) (hne : word ≠ [])
  (h : firstPlace word text = some p)

include hv hstars hout hne h

/-- A word without letters of the mask is in front of it or behind it. -/
theorem prefix_drop_hide_iff : v <+: (hide width stars word text).drop i ↔
    i + v.length ≤ p + word.length ∧ v <+: text.drop i ∨
      p + word.length + stars.length ≤ i ∧ v <+: text.drop (i - stars.length + width) := by
  have hpos := List.length_pos_of_ne_nil hstars
  have hvpos := List.length_pos_of_ne_nil hv
  simp only [prefix_drop_iff, getElem?_hide hne h]
  constructor
  · intro hall
    -- no letter of the word is in the mask
    have hnot : ∀ k, k < v.length → ¬ (p + word.length ≤ i + k ∧
        i + k < p + word.length + stars.length) := by
      rintro k hk ⟨hlo, hhi⟩
      have hget := hall k hk
      rw [if_neg (by omega), if_pos hhi, List.getElem?_eq_getElem hk] at hget
      exact hout _ (List.mem_of_getElem? hget) (List.getElem_mem hk)
    by_cases hend : i + v.length ≤ p + word.length
    · refine .inl ⟨hend, fun k hk => ?_⟩
      rw [← hall k hk, if_pos (by omega)]
    · have hstart : p + word.length + stars.length ≤ i := by
        by_contra hlt
        by_cases hi : p + word.length ≤ i
        · exact hnot 0 hvpos ⟨by omega, by omega⟩
        · exact hnot (p + word.length - i) (by omega) ⟨by omega, by omega⟩
      refine .inr ⟨hstart, fun k hk => ?_⟩
      rw [← hall k hk, if_neg (by omega), if_neg (by omega)]
      congr 1
      omega
  · rintro (⟨hend, hall⟩ | ⟨hstart, hall⟩) k hk
    · rw [if_pos (by omega), hall k hk]
    · rw [if_neg (by omega), if_neg (by omega), ← hall k hk]
      congr 1
      omega

/-- Where a place goes. -/
theorem firstPlace_hide (happart : ∀ q ∈ firstPlace v text,
      p + word.length + width ≤ q ∨ q + v.length + width ≤ p) :
    firstPlace v (hide width stars word text) = (firstPlace v text).map fun q =>
      if q < p then q else q - width + stars.length := by
  have hpos := List.length_pos_of_ne_nil hv
  cases hq : firstPlace v text with
  | none =>
    rw [firstPlace_eq_none_iff hv] at hq
    rw [Option.map_none, firstPlace_eq_none_iff hv]
    intro i hpre
    obtain ⟨-, hin⟩ | ⟨-, hin⟩ := (prefix_drop_hide_iff hv hstars hout hne h).1 hpre
    · exact hq _ hin
    · exact hq _ hin
  | some q =>
    obtain ⟨hin, hfirst⟩ := (firstPlace_eq_some_iff hv).1 hq
    rw [Option.map_some, firstPlace_eq_some_iff hv]
    simp only [prefix_drop_hide_iff hv hstars hout hne h]
    obtain hbehind | hfront := happart q hq
    · rw [if_neg (by omega)]
      refine ⟨.inr ⟨by omega, ?_⟩, fun j hj => ?_⟩
      · rwa [Nat.add_sub_cancel, Nat.sub_add_cancel (by omega)]
      · rintro (⟨hend, hin'⟩ | ⟨hstart, hin'⟩)
        · exact hfirst j (by omega) hin'
        · exact hfirst _ (by omega) hin'
    · rw [if_pos (by omega)]
      refine ⟨.inl ⟨by omega, hin⟩, fun j hj => ?_⟩
      rintro (⟨-, hin'⟩ | ⟨hstart, -⟩)
      · exact hfirst j hj hin'
      · omega

end Step

/-! ## All words -/

theorem length_hide_le (width : ℕ) (stars word text : List α) :
    (hide width stars word text).length ≤ text.length + stars.length := by
  unfold hide
  split
  · omega
  · simp only [List.length_append, List.length_take, List.length_drop]
    omega

theorem length_hideAll_le (width : ℕ) (stars : List α) (words : List (List α)) (text : List α) :
    (hideAll width stars words text).length ≤ text.length + words.length * stars.length := by
  induction words generalizing text with
  | nil => simp [hideAll]
  | cons word words ih =>
    have hrest : (hideAll width stars (word :: words) text).length ≤
        (hide width stars word text).length + words.length * stars.length := ih _
    have hword := length_hide_le width stars word text
    rw [List.length_cons, Nat.succ_mul]
    omega

section Run

variable {width : ℕ} {stars : List α} {words : List (List α)}

theorem covered_cons : Covered width (word :: words) text i ↔
    (∃ p ∈ firstPlace word text, p + word.length ≤ i ∧ i < p + word.length + width) ∨
      Covered width words text i :=
  List.exists_mem_cons_iff ..

variable (hstars : stars ≠ [])

include hstars

/-- Where the places of the words that follow go. -/
theorem Aligned.firstPlace_hide (hwords : ∀ v ∈ word :: words, v ≠ [] ∧ ∀ a ∈ stars, a ∉ v)
    (h : Aligned width (word :: words) text text') (hp : firstPlace word text = some p) :
    ∀ v ∈ words, firstPlace v (Mask.hide width stars word text) =
      (firstPlace v text).map fun q => if q < p then q else q - width + stars.length := by
  obtain ⟨⟨hne, -⟩, hrest⟩ := List.forall_mem_cons.1 hwords
  obtain ⟨hhead, -⟩ := List.pairwise_cons.1 h.apart
  exact fun v hv =>
    Mask.firstPlace_hide (hrest v hv).1 hstars (hrest v hv).2 hne hp (hhead v hv p hp)

/-- The words that follow stay aligned. -/
theorem Aligned.hide (hwords : ∀ v ∈ word :: words, v ≠ [] ∧ ∀ a ∈ stars, a ∉ v)
    (h : Aligned width (word :: words) text text') :
    Aligned width words (hide width stars word text) (hide width stars word text') := by
  obtain ⟨⟨hne, -⟩, hrest⟩ := List.forall_mem_cons.1 hwords
  obtain ⟨hplace, hplaces⟩ := List.forall_mem_cons.1 h.places
  obtain ⟨hhead, htail⟩ := List.pairwise_cons.1 h.apart
  cases hp : firstPlace word text with
  | none =>
    rw [hide_of_none hp, hide_of_none (hplace ▸ hp)]
    exact ⟨hplaces, htail⟩
  | some p =>
    have hmove := h.firstPlace_hide hstars hwords hp
    constructor
    · intro v hv
      rw [hmove v hv, hplaces v hv]
      refine (Mask.firstPlace_hide (hrest v hv).1 hstars (hrest v hv).2 hne (hplace ▸ hp) ?_).symm
      rw [← hplaces v hv]
      exact hhead v hv p hp
    · refine htail.imp_of_mem fun {v u} hv hu hvu => ?_
      rw [hmove v hv, hmove u hu]
      intro q hq r hr
      obtain ⟨q, hq', rfl⟩ := Option.map_eq_some_iff.1 hq
      obtain ⟨r, hr', rfl⟩ := Option.map_eq_some_iff.1 hr
      have hq := hhead v hv p hp q hq'
      have hr := hhead u hu p hp r hr'
      have := hvu q hq' r hr'
      have := List.length_pos_of_ne_nil (hrest v hv).1
      have := List.length_pos_of_ne_nil (hrest u hu).1
      split_ifs <;> omega

/-- One word hides the letters behind it, and no other one. -/
theorem differ_hide_iff (hwords : ∀ v ∈ word :: words, v ≠ [] ∧ ∀ a ∈ stars, a ∉ v)
    (h : Aligned width (word :: words) text text') :
    (∀ m, (hide width stars word text)[m]? ≠ (hide width stars word text')[m]? →
        Covered width words (hide width stars word text) m) ↔
      ∀ i, text[i]? ≠ text'[i]? → Covered width (word :: words) text i := by
  obtain ⟨⟨hne, -⟩, hrest⟩ := List.forall_mem_cons.1 hwords
  obtain ⟨hplace, -⟩ := List.forall_mem_cons.1 h.places
  obtain ⟨hhead, -⟩ := List.pairwise_cons.1 h.apart
  cases hp : firstPlace word text with
  | none =>
    rw [hide_of_none hp, hide_of_none (hplace ▸ hp)]
    simp [covered_cons, hp]
  | some p =>
    have hget := @getElem?_hide α _ _ _ _ width stars hne hp
    have hget' := @getElem?_hide α _ _ _ _ width stars hne (hplace ▸ hp)
    have hmove := h.firstPlace_hide hstars hwords hp
    have hpos : ∀ v ∈ words, 0 < v.length := fun v hv =>
      List.length_pos_of_ne_nil (hrest v hv).1
    constructor
    · intro hall i hi
      rw [covered_cons]
      by_cases hwin : p + word.length ≤ i ∧ i < p + word.length + width
      · exact .inl ⟨p, hp, hwin⟩
      refine .inr ?_
      -- the letter is still there, in front of the mask or behind it
      obtain ⟨m, hm, hdiff⟩ : ∃ m, (i < p + word.length ∧ m = i ∨
          p + word.length + width ≤ i ∧ m = i - width + stars.length) ∧
            (hide width stars word text)[m]? ≠ (hide width stars word text')[m]? := by
        by_cases hlt : i < p + word.length
        · refine ⟨i, .inl ⟨hlt, rfl⟩, ?_⟩
          rwa [hget, hget', if_pos hlt, if_pos hlt]
        · refine ⟨i - width + stars.length, .inr ⟨by omega, rfl⟩, ?_⟩
          rw [hget, hget', if_neg (by omega), if_neg (by omega), if_neg (by omega),
            if_neg (by omega), Nat.add_sub_cancel, Nat.sub_add_cancel (by omega)]
          exact hi
      obtain ⟨v, hv, q, hq, hlo, hhi⟩ := hall m hdiff
      rw [hmove v hv] at hq
      obtain ⟨q, hq', rfl⟩ := Option.map_eq_some_iff.1 hq
      have := hhead v hv p hp q hq'
      have := hpos v hv
      refine ⟨v, hv, q, hq', ?_⟩
      split_ifs at hlo hhi <;> omega
    · intro hall m hm
      rw [hget, hget'] at hm
      obtain ⟨i, hi, hdiff⟩ : ∃ i, (m < p + word.length ∧ i = m ∨
          p + word.length + stars.length ≤ m ∧ i = m - stars.length + width) ∧
            text[i]? ≠ text'[i]? := by
        split_ifs at hm with hlt hstar
        · exact ⟨m, .inl ⟨hlt, rfl⟩, hm⟩
        · exact absurd rfl hm
        · exact ⟨_, .inr ⟨by omega, rfl⟩, hm⟩
      obtain ⟨q, hq, hlo, hhi⟩ | ⟨v, hv, q, hq, hlo, hhi⟩ := covered_cons.1 (hall i hdiff)
      · rw [hp, Option.mem_some] at hq
        omega
      · have := hhead v hv p hp q hq
        have := hpos v hv
        refine ⟨v, hv, _, by rw [hmove v hv, hq]; rfl, ?_⟩
        simp only
        split_ifs <;> omega

/-- Aligned texts become equal exactly when they differ in hidden letters only. -/
theorem hideAll_eq_iff (hwords : ∀ v ∈ words, v ≠ [] ∧ ∀ a ∈ stars, a ∉ v)
    (h : Aligned width words text text') :
    hideAll width stars words text = hideAll width stars words text' ↔
      ∀ i, text[i]? ≠ text'[i]? → Covered width words text i := by
  induction words generalizing text text' with
  | nil =>
    refine ⟨fun heq i hi => absurd (congrArg (·[i]?) heq) hi, fun hall => List.ext_getElem? ?_⟩
    intro i
    by_contra hi
    obtain ⟨v, hv, -⟩ := hall i hi
    cases hv
  | cons word words ih =>
    exact (ih (List.forall_mem_cons.1 hwords).2 (h.hide hstars hwords)).trans
      (differ_hide_iff hstars hwords h)

end Run

end Mask
