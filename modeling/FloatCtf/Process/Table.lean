import Mathlib.Data.List.Nodup

/-!
# Tables with a key

A table is a list of rows of which no two have the same key.  The lemmas say how a row is found by
its key after the rows were edited in place or a row with a new key was appended.
-/

namespace Process.Table

variable {R K : Type} {key : R → K} {rows : List R}

/-- No two rows have the same key. -/
def Keyed (key : R → K) (rows : List R) : Prop := (rows.map key).Nodup

instance [DecidableEq K] (key : R → K) (rows : List R) : Decidable (Keyed key rows) :=
  inferInstanceAs (Decidable (rows.map key).Nodup)

theorem eq_of_key (hn : Keyed key rows) {r r' : R} (hr : r ∈ rows) (hr' : r' ∈ rows)
    (h : key r = key r') : r = r' := List.inj_on_of_nodup_map hn hr hr' h

theorem find_of_mem [DecidableEq K] (hn : Keyed key rows) {r : R} (hr : r ∈ rows) :
    rows.find? (fun x => key x = key r) = some r := by
  cases hf : rows.find? (fun x => key x = key r) with
  | none => simpa using List.find?_eq_none.1 hf r hr
  | some r' =>
    have hkey : key r' = key r := by simpa using List.find?_some hf
    rw [eq_of_key hn (List.mem_of_find?_eq_some hf) hr hkey]

theorem mem_of_find [DecidableEq K] {k : K} {r : R} (h : rows.find? (fun x => key x = k) = some r) :
    r ∈ rows ∧ key r = k :=
  ⟨List.mem_of_find?_eq_some h, by simpa using List.find?_some h⟩

/-- A key that is taken has exactly one row. -/
theorem filter_of_mem [DecidableEq K] (hn : Keyed key rows) {r : R} (hr : r ∈ rows) :
    rows.filter (fun x => key x = key r) = [r] := by
  induction rows with
  | nil => cases hr
  | cons a rows ih =>
    obtain ⟨ha, hn⟩ := List.nodup_cons.1 hn
    rcases List.mem_cons.1 hr with rfl | hr
    · have hrest : rows.filter (fun x => key x = key r) = [] := by
        refine List.filter_eq_nil_iff.2 fun x hx hkey => ha ?_
        exact of_decide_eq_true hkey ▸ List.mem_map_of_mem hx
      rw [List.filter_cons_of_pos (by simp), hrest]
    · have hne : key a ≠ key r := fun heq => ha (heq ▸ List.mem_map_of_mem hr)
      rw [List.filter_cons_of_neg (by simpa using hne), ih hn hr]

theorem length_filter_le_one (hn : Keyed key rows) {p : R → Bool}
    (h : ∀ r ∈ rows, ∀ r' ∈ rows, p r = true → p r' = true → r = r') :
    (rows.filter p).length ≤ 1 := by
  have hnodup : (rows.filter p).Nodup := (List.Nodup.of_map key hn).filter p
  match hrows : rows.filter p with
  | [] => simp
  | [_] => simp
  | r :: r' :: rest =>
    have hmem (x : R) (hx : x ∈ r :: r' :: rest) : x ∈ rows ∧ p x = true :=
      List.mem_filter.1 (hrows ▸ hx)
    have hr := hmem r (by simp)
    have hr' := hmem r' (by simp)
    rw [hrows, h r hr.1 r' hr'.1 hr.2 hr'.2] at hnodup
    simp at hnodup

/-! ## Edits in place -/

theorem keyed_map {f : R → R} (hf : ∀ r, key (f r) = key r) (hn : Keyed key rows) :
    Keyed key (rows.map f) := by
  have hsame : (rows.map f).map key = rows.map key := by
    rw [List.map_map]
    exact List.map_congr_left fun r _ => hf r
  unfold Keyed
  rw [hsame]
  exact hn

theorem find_map [DecidableEq K] {f : R → R} (hf : ∀ r, key (f r) = key r) (rows : List R)
    (k : K) :
    (rows.map f).find? (fun x => key x = k) = (rows.find? fun x => key x = k).map f := by
  simp only [List.find?_map, Function.comp_def, hf]

/-! ## New rows -/

theorem keyed_append {new : R} (hn : Keyed key rows) (hfresh : ∀ r ∈ rows, key r ≠ key new) :
    Keyed key (rows ++ [new]) := by
  unfold Keyed
  rw [List.map_append, List.nodup_append]
  refine ⟨hn, List.nodup_singleton _, fun a ha b hb => ?_⟩
  obtain ⟨r, hr, rfl⟩ := List.mem_map.1 ha
  rw [List.mem_singleton.1 hb]
  exact hfresh r hr

theorem find_append [DecidableEq K] {k : K} {r : R} (h : rows.find? (fun x => key x = k) = some r)
    (more : List R) : (rows ++ more).find? (fun x => key x = k) = some r := by
  rw [List.find?_append, h]
  rfl

end Process.Table
