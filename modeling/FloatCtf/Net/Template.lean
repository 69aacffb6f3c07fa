import Mathlib.Data.List.Basic
import Mathlib.Logic.Relation

/-!
# Texts with references

A text is a list of pieces: characters, and references to keys.  `Unfolds` is its meaning over
definitions that may refer to each other.  A reference stands for the unfolding of its definition,
and one to an undefined key for itself.  `reduce` computes with the keys on its path, and leaves the
references to them as they are.

`unfolds_iff` says that a text has an unfolding exactly when it reaches no cycle, and that `reduce`
finds it.
-/

namespace Template

open Relation

/-- A piece of a template: plain text, or a reference to a definition. -/
inductive Piece (κ α : Type*) where
  | text (a : α)
  | ref (k : κ)
  deriving DecidableEq

variable {κ α : Type*}

/-- The characters of a text, a reference as it is written. -/
def render (lit : κ → List α) : List (Piece κ α) → List α
  | [] => []
  | .text a :: ps => a :: render lit ps
  | .ref k :: ps => lit k ++ render lit ps

theorem render_append (lit : κ → List α) (ps qs : List (Piece κ α)) :
    render lit (ps ++ qs) = render lit ps ++ render lit qs := by
  induction ps with
  | nil => rfl
  | cons p ps ih => cases p <;> simp [render, ih]

section Defs

variable [DecidableEq κ] (defs : List (κ × List (Piece κ α)))

/-! ## The meaning -/

/-- The definition of the first key refers to the second. -/
def Refers (k k' : κ) : Prop := ∃ qs, defs.lookup k = some qs ∧ .ref k' ∈ qs

/-- The text refers to the key, at once or through definitions. -/
def Reaches (ps : List (Piece κ α)) (k : κ) : Prop :=
  ∃ k₀, .ref k₀ ∈ ps ∧ ReflTransGen (Refers defs) k₀ k

/-- A name whose definition leads back to it. -/
def Cyclic (k : κ) : Prop := TransGen (Refers defs) k k

/-- The text of a template with every defined reference replaced by its own text. -/
inductive Unfolds : List (Piece κ α) → List (Piece κ α) → Prop where
  | nil : Unfolds [] []
  | text {a ps out} : Unfolds ps out → Unfolds (.text a :: ps) (.text a :: out)
  | undefined {k ps out} : defs.lookup k = none → Unfolds ps out →
      Unfolds (.ref k :: ps) (.ref k :: out)
  | defined {k qs mid ps out} : defs.lookup k = some qs → Unfolds qs mid → Unfolds ps out →
      Unfolds (.ref k :: ps) (mid ++ out)

/-! ## The computation -/

/-- The keys that are not on the path. -/
def unseen (seen : List κ) : List κ := (defs.map (·.1)).filter (· ∉ seen)

variable {defs} in
theorem mem_keys_of_lookup {k : κ} {qs : List (Piece κ α)} (h : defs.lookup k = some qs) :
    k ∈ defs.map (·.1) := by
  obtain ⟨l₁, l₂, rfl, -⟩ := List.lookup_eq_some_iff.1 h
  simp

variable {defs} in
theorem length_unseen_lt {k : κ} {seen : List κ} {qs : List (Piece κ α)} (hk : k ∉ seen)
    (h : defs.lookup k = some qs) :
    (unseen defs (k :: seen)).length < (unseen defs seen).length := by
  have hsub : unseen defs (k :: seen) = (unseen defs seen).filter (· ≠ k) := by
    simp [unseen, List.filter_filter]
  rw [hsub, List.length_filter_lt_length_iff_exists]
  exact ⟨k, List.mem_filter.2 ⟨mem_keys_of_lookup h, by simpa using hk⟩, by simp⟩

/-- The keys of `seen` are on the path. -/
def reduce (seen : List κ) : List (Piece κ α) → List (Piece κ α)
  | [] => []
  | .text a :: ps => .text a :: reduce seen ps
  | .ref k :: ps =>
    if _hk : k ∈ seen then .ref k :: reduce seen ps
    else
      match _h : defs.lookup k with
      | none => .ref k :: reduce seen ps
      | some qs => reduce (k :: seen) qs ++ reduce seen ps
termination_by ps => ((unseen defs seen).length, ps.length)
decreasing_by
  all_goals simp_wf
  · exact .right _ (by omega)
  · exact .right _ (by omega)
  · exact .right _ (by omega)
  · exact .left _ _ (length_unseen_lt _hk _h)
  · exact .right _ (by omega)

variable {defs} {seen : List κ} {ps : List (Piece κ α)} {k : κ}

@[simp] theorem reduce_nil : reduce defs seen ([] : List (Piece κ α)) = [] := by rw [reduce]

@[simp] theorem reduce_text (a : α) :
    reduce defs seen (.text a :: ps) = .text a :: reduce defs seen ps := by
  rw [reduce]

theorem reduce_of_mem (hk : k ∈ seen) :
    reduce defs seen (.ref k :: ps) = .ref k :: reduce defs seen ps := by
  rw [reduce, dif_pos hk]

theorem reduce_of_undefined (h : defs.lookup k = none) :
    reduce defs seen (.ref k :: ps) = .ref k :: reduce defs seen ps := by
  by_cases hk : k ∈ seen
  · exact reduce_of_mem hk
  · rw [reduce, dif_neg hk]
    split
    · rfl
    · rename_i h'
      rw [h] at h'
      cases h'

theorem reduce_of_defined {qs : List (Piece κ α)} (hk : k ∉ seen) (h : defs.lookup k = some qs) :
    reduce defs seen (.ref k :: ps) = reduce defs (k :: seen) qs ++ reduce defs seen ps := by
  rw [reduce, dif_neg hk]
  split
  · rename_i h'
    rw [h] at h'
    cases h'
  · rename_i h'
    rw [Option.some.inj (h.symm.trans h')]

theorem render_reduce_text (lit : κ → List α) (as : List α) :
    render lit (reduce defs seen (as.map .text ++ ps)) =
      as ++ render lit (reduce defs seen ps) := by
  induction as with
  | nil => rfl
  | cons a as ih =>
    rw [List.map_cons, List.cons_append, reduce_text, render, ih]
    rfl

/-! ## Cycles -/

theorem Reaches.of_mem (h : .ref k ∈ ps) : Reaches defs ps k := ⟨k, h, .refl⟩

theorem Reaches.cons {p : Piece κ α} (h : Reaches defs ps k) : Reaches defs (p :: ps) k :=
  h.imp fun _ h => ⟨List.mem_cons_of_mem _ h.1, h.2⟩

theorem Reaches.of_defined {k₀ : κ} {qs : List (Piece κ α)} (h : defs.lookup k₀ = some qs)
    (hq : Reaches defs qs k) : Reaches defs (.ref k₀ :: ps) k := by
  obtain ⟨k₁, hmem, hreach⟩ := hq
  exact ⟨k₀, List.mem_cons_self, .head ⟨qs, h, hmem⟩ hreach⟩

/-- A text that has an unfolding is well founded. -/
theorem Unfolds.acc {out : List (Piece κ α)} (h : Unfolds defs ps out) (hk : .ref k ∈ ps) :
    Acc (flip (Refers defs)) k := by
  induction h generalizing k with
  | nil => cases hk
  | text _ ih =>
    obtain hk | hk := List.mem_cons.1 hk
    · cases hk
    · exact ih hk
  | undefined hnone _ ih =>
    obtain hk | hk := List.mem_cons.1 hk
    · cases hk
      refine ⟨_, fun k' hk' => ?_⟩
      obtain ⟨qs, hqs, -⟩ := hk'
      rw [hnone] at hqs
      cases hqs
    · exact ih hk
  | defined hsome _ _ ihq ih =>
    obtain hk | hk := List.mem_cons.1 hk
    · cases hk
      refine ⟨_, fun k' hk' => ?_⟩
      obtain ⟨qs, hqs, hmem⟩ := hk'
      rw [hsome] at hqs
      cases hqs
      exact ihq hmem
    · exact ih hk

theorem not_cyclic_of_acc (h : Acc (flip (Refers defs)) k) : ¬ Cyclic defs k := by
  have hacc : Acc (TransGen (flip (Refers defs))) k := h.transGen
  intro hcyc
  clear h
  induction hacc with
  | intro k _ ih => exact ih k (transGen_swap.2 hcyc) hcyc

theorem Unfolds.not_cyclic {out : List (Piece κ α)} (h : Unfolds defs ps out)
    (hk : Reaches defs ps k) : ¬ Cyclic defs k := by
  obtain ⟨k₀, hmem, hreach⟩ := hk
  refine not_cyclic_of_acc ?_
  induction hreach with
  | refl => exact h.acc hmem
  | tail _ hstep ih => exact ih.inv hstep

/-! ## The computation has the meaning -/

/-- Where the path is not reached again, `reduce` finds the unfolding. -/
theorem Unfolds.reduce_eq {out : List (Piece κ α)} (h : Unfolds defs ps out)
    (hseen : ∀ k ∈ seen, ¬ Reaches defs ps k) : reduce defs seen ps = out := by
  induction h generalizing seen with
  | nil => exact reduce_nil
  | text _ ih => rw [reduce_text, ih fun k hk hr => hseen k hk hr.cons]
  | undefined hnone _ ih =>
    rw [reduce_of_undefined hnone, ih fun k hk hr => hseen k hk hr.cons]
  | @defined k qs mid ps out hsome hq hp ihq ih =>
    have hk : k ∉ seen := fun hk => hseen k hk (.of_mem List.mem_cons_self)
    rw [reduce_of_defined hk hsome, ih fun k hk hr => hseen k hk hr.cons, ihq]
    intro k' hk' hr
    obtain rfl | hk' := List.mem_cons.1 hk'
    · obtain ⟨k₁, hmem, hreach⟩ := hr
      have hcyc : Cyclic defs k' := TransGen.head' ⟨qs, hsome, hmem⟩ hreach
      exact (Unfolds.defined hsome hq hp).not_cyclic (.of_mem List.mem_cons_self) hcyc
    · exact hseen k' hk' (.of_defined hsome hr)

/-- The keys on the path lead to the text. -/
def Leads (defs : List (κ × List (Piece κ α))) (seen : List κ) (ps : List (Piece κ α)) : Prop :=
  ∀ k ∈ seen, ∀ k', .ref k' ∈ ps → TransGen (Refers defs) k k'

theorem Leads.cons_inv {p : Piece κ α} (h : Leads defs seen (p :: ps)) : Leads defs seen ps :=
  fun k hk k' hk' => h k hk k' (List.mem_cons_of_mem _ hk')

theorem Leads.defined {qs : List (Piece κ α)} (h : Leads defs seen (.ref k :: ps))
    (hk : defs.lookup k = some qs) : Leads defs (k :: seen) qs := by
  intro k₀ hk₀ k' hk'
  have hstep : Refers defs k k' := ⟨qs, hk, hk'⟩
  obtain rfl | hk₀ := List.mem_cons.1 hk₀
  · exact .single hstep
  · exact (h k₀ hk₀ k List.mem_cons_self).tail hstep

theorem unfolds_reduce (hlead : Leads defs seen ps)
    (hac : ∀ k, Reaches defs ps k → ¬ Cyclic defs k) : Unfolds defs ps (reduce defs seen ps) := by
  fun_induction reduce defs seen ps with
  | case1 => exact .nil
  | case2 seen a ps ih => exact .text (ih hlead.cons_inv fun k hk => hac k hk.cons)
  | case3 seen k ps hk ih =>
    have hcyc : Cyclic defs k := hlead k hk k List.mem_cons_self
    exact absurd hcyc (hac k (.of_mem List.mem_cons_self))
  | case4 seen k ps hk h ih => exact .undefined h (ih hlead.cons_inv fun k hk => hac k hk.cons)
  | case5 seen k ps hk qs h ihq ih =>
    exact .defined h (ihq (hlead.defined h) fun k' hk' => hac k' (.of_defined h hk'))
      (ih hlead.cons_inv fun k hk => hac k hk.cons)

theorem leads_nil (defs : List (κ × List (Piece κ α))) (ps : List (Piece κ α)) :
    Leads defs [] ps :=
  fun _ hk => absurd hk List.not_mem_nil

/-- A text has an unfolding exactly when it reaches no cycle, and it is the one computed. -/
theorem unfolds_iff {out : List (Piece κ α)} : Unfolds defs ps out ↔
    (∀ k, Reaches defs ps k → ¬ Cyclic defs k) ∧ reduce defs [] ps = out := by
  constructor
  · intro h
    exact ⟨fun _ hk => h.not_cyclic hk, h.reduce_eq fun _ hk => absurd hk List.not_mem_nil⟩
  · rintro ⟨hac, rfl⟩
    exact unfolds_reduce (leads_nil defs ps) hac

/-- The references that are left are to undefined keys and to keys on cycles. -/
theorem undefined_or_cyclic (hlead : Leads defs seen ps) (hk : .ref k ∈ reduce defs seen ps) :
    defs.lookup k = none ∨ Cyclic defs k := by
  fun_induction reduce defs seen ps with
  | case1 => cases hk
  | case2 seen a ps ih =>
    obtain hk | hk := List.mem_cons.1 hk
    · cases hk
    · exact ih hlead.cons_inv hk
  | case3 seen k₀ ps hk₀ ih =>
    obtain hk | hk := List.mem_cons.1 hk
    · cases hk
      exact .inr (hlead k hk₀ k List.mem_cons_self)
    · exact ih hlead.cons_inv hk
  | case4 seen k₀ ps hk₀ h ih =>
    obtain hk | hk := List.mem_cons.1 hk
    · cases hk
      exact .inl h
    · exact ih hlead.cons_inv hk
  | case5 seen k₀ ps hk₀ qs h ihq ih =>
    obtain hk | hk := List.mem_append.1 hk
    · exact ihq (hlead.defined h) hk
    · exact ih hlead.cons_inv hk

/-- Only the keys that the text reaches matter. -/
theorem reduce_congr {defs' : List (κ × List (Piece κ α))}
    (h : ∀ k, Reaches defs ps k → defs'.lookup k = defs.lookup k) :
    reduce defs' seen ps = reduce defs seen ps := by
  fun_induction reduce defs seen ps with
  | case1 => exact reduce_nil
  | case2 seen a ps ih => rw [reduce_text, ih fun k hk => h k hk.cons]
  | case3 seen k ps hk ih => rw [reduce_of_mem hk, ih fun k hk => h k hk.cons]
  | case4 seen k ps hk hnone ih =>
    rw [reduce_of_undefined ((h k (.of_mem List.mem_cons_self)).trans hnone),
      ih fun k hk => h k hk.cons]
  | case5 seen k ps hk qs hsome ihq ih =>
    rw [reduce_of_defined hk ((h k (.of_mem List.mem_cons_self)).trans hsome),
      ih fun k hk => h k hk.cons, ihq fun k hk => h k (.of_defined hsome hk)]

end Defs

end Template
