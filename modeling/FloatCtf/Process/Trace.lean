import Mathlib.Data.List.Basic

/-!
# Runs of a state machine under a condition on its steps

A machine is a step function on worlds `W` with operations `O`; a run is a list of operations.
`Along` says that every step of a run meets a condition on the world before it and the operation,
and `inv_of_along` is the induction: what every such step keeps holds at the end of the
run. -/

namespace Process

variable {W O : Type}

/-- Every step of the run from `w` meets `C`. -/
def Along (step : W → O → W) (C : W → O → Prop) : W → List O → Prop
  | _, [] => True
  | w, o :: os => C w o ∧ Along step C (step w o) os

variable {step : W → O → W} {C : W → O → Prop}

instance instDecidableAlong [∀ w o, Decidable (C w o)] :
    ∀ (w : W) (os : List O), Decidable (Along step C w os)
  | _, [] => .isTrue trivial
  | w, o :: os =>
    haveI := instDecidableAlong (step w o) os
    inferInstanceAs (Decidable (C w o ∧ Along step C (step w o) os))

/-- What every step that meets the condition keeps, the run keeps. -/
theorem inv_of_along (Inv : W → Prop) (hstep : ∀ w o, Inv w → C w o → Inv (step w o)) {w : W}
    (hw : Inv w) : ∀ {os : List O}, Along step C w os → Inv (os.foldl step w) := by
  intro os
  induction os generalizing w with
  | nil => exact fun _ => hw
  | cons o os ih => exact fun h => ih (hstep w o hw h.1) h.2

/-- Every step that meets the condition keeps the invariant, and it meets `D` because of it. -/
theorem run_of_along (Inv : W → Prop) {D : W → O → Prop}
    (hstep : ∀ w o, Inv w → C w o → Inv (step w o) ∧ D w o) {w : W} (hw : Inv w) :
    ∀ {os : List O}, Along step C w os → Inv (os.foldl step w) ∧ Along step D w os := by
  intro os
  induction os generalizing w with
  | nil => exact fun _ => ⟨hw, trivial⟩
  | cons o os ih =>
    intro h
    obtain ⟨hinv, hd⟩ := hstep w o hw h.1
    obtain ⟨hend, hrest⟩ := ih hinv h.2
    exact ⟨hend, hd, hrest⟩

theorem along_append {w : W} {os os' : List O} :
    Along step C w (os ++ os') ↔ Along step C w os ∧ Along step C (os.foldl step w) os' := by
  induction os generalizing w with
  | nil => simp [Along]
  | cons o os ih => simp [Along, ih, and_assoc]

theorem Along.imp {C' : W → O → Prop} (h : ∀ w o, C w o → C' w o) {w : W} {os : List O}
    (ha : Along step C w os) : Along step C' w os := by
  induction os generalizing w with
  | nil => trivial
  | cons o os ih => exact ⟨h w o ha.1, ih ha.2⟩

/-- The operations of a run are among its operations. -/
theorem Along.mem {w : W} {os : List O} (ha : Along step C w os) :
    Along step (fun w o => C w o ∧ o ∈ os) w os := by
  induction os generalizing w with
  | nil => trivial
  | cons o os ih =>
    refine ⟨⟨ha.1, List.mem_cons_self⟩, (ih ha.2).imp fun w o' h => ?_⟩
    exact ⟨h.1, List.mem_cons_of_mem o h.2⟩

theorem Along.and {D : W → O → Prop} {w : W} {os : List O} (h : Along step C w os)
    (h' : Along step D w os) : Along step (fun w o => C w o ∧ D w o) w os := by
  induction os generalizing w with
  | nil => trivial
  | cons o os ih => exact ⟨⟨h.1, h'.1⟩, ih h.2 h'.2⟩

theorem along_of_forall (h : ∀ w o, C w o) (w : W) (os : List O) : Along step C w os := by
  induction os generalizing w with
  | nil => trivial
  | cons o os ih => exact ⟨h w o, ih _⟩

/-- A condition on each step that says exactly whether the next state is fine says of a run whether
all its states are. -/
theorem forall_prefix_iff_along (Inv Ok : W → Prop) (hok : ∀ w, Inv w → Ok w)
    (hiff : ∀ w o, Inv w → (Ok (step w o) ↔ C w o)) (hstep : ∀ w o, Inv w → C w o → Inv (step w o))
    {w : W} (hw : Inv w) {os : List O} :
    (∀ pre, pre <+: os → Ok (pre.foldl step w)) ↔ Along step C w os := by
  induction os generalizing w with
  | nil =>
    refine ⟨fun _ => trivial, fun _ pre hpre => ?_⟩
    rw [List.prefix_nil.1 hpre]
    exact hok w hw
  | cons o os ih =>
    constructor
    · intro h
      have hc : C w o := (hiff w o hw).1 (h [o] (List.prefix_append [o] os))
      refine ⟨hc, (ih (hstep w o hw hc)).1 fun pre hpre => ?_⟩
      exact h (o :: pre) (List.cons_prefix_cons.2 ⟨rfl, hpre⟩)
    · rintro ⟨hc, hrest⟩ pre hpre
      cases pre with
      | nil => exact hok w hw
      | cons o' pre =>
        obtain ⟨rfl, hrel⟩ := List.cons_prefix_cons.1 hpre
        exact (ih (hstep w o' hw hc)).2 hrest pre hrel

end Process
