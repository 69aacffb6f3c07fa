import FloatCtf.Net.Template

/-!
# Settings that refer to settings

A setting may hold `{{KEY}}` for other settings.  `resolve_impl` replaces these references and
keeps the keys that it is resolving in a set.

`resolve_meaning` says what it computes: the unfolding of the value where there is one, and
otherwise a text in which only the references to undefined settings and to settings on cycles are
left.
-/

namespace FloatCtf.Infrastructure

open Template (Piece render reduce Refers Reaches Cyclic Unfolds)

/-! ## The scanner -/

/-- What is before the first `}}`, and what is behind it. -/
def findClose : List Char → Option (List Char × List Char)
  | [] => none
  | c :: cs =>
    if c = '}' ∧ cs.head? = some '}' then some ([], cs.tail)
    else (findClose cs).map fun x => (c :: x.1, x.2)

/-- The characters between the braces of a reference. -/
def validKey (key : List Char) : Bool :=
  !key.isEmpty && key.all fun c => c.isAlphanum || c == '_' || c == '-'

/-- The reference that a text begins with, and what is behind it. -/
def token : List Char → Option (String × List Char)
  | '{' :: '{' :: cs =>
    (findClose cs).bind fun x => if validKey x.1 then some (.ofList x.1, x.2) else none
  | _ => none

/-- A reference as it is written. -/
def literal (key : String) : List Char := '{' :: '{' :: (key.toList ++ ['}', '}'])

theorem findClose_eq_some {cs key rest : List Char} (h : findClose cs = some (key, rest)) :
    cs = key ++ '}' :: '}' :: rest := by
  induction cs generalizing key with
  | nil => cases h
  | cons c cs ih =>
    rw [findClose] at h
    split_ifs at h with hclose
    · obtain ⟨rfl, hhead⟩ := hclose
      cases cs with
      | nil => cases hhead
      | cons d cs =>
        cases h
        cases hhead
        rfl
    · obtain ⟨x, hx, heq⟩ := Option.map_eq_some_iff.1 h
      cases heq
      rw [ih hx]
      rfl

theorem token_eq_some {cs rest : List Char} {key : String} (h : token cs = some (key, rest)) :
    validKey key.toList = true ∧ cs = literal key ++ rest := by
  unfold token at h
  split at h
  · obtain ⟨x, hx, hkey⟩ := Option.bind_eq_some_iff.1 h
    split_ifs at hkey with hvalid
    cases hkey
    rw [findClose_eq_some hx]
    simp [hvalid, literal]
  · cases h

theorem length_lt_of_token {cs rest : List Char} {key : String}
    (h : token cs = some (key, rest)) : rest.length < cs.length := by
  rw [(token_eq_some h).2, List.length_append]
  simp only [literal, List.length_cons]
  omega

/-! ## The resolver -/

/-- The raw values by their keys. -/
abbrev SettingsMap := List (String × String)

/-- The keys that are not yet being resolved. -/
def unresolved (map : SettingsMap) (seen : List String) : List String :=
  (map.map (·.1)).filter (· ∉ seen)

theorem length_unresolved_lt {map : SettingsMap} {seen : List String} {key value : String}
    (hkey : key ∉ seen) (h : map.lookup key = some value) :
    (unresolved map (key :: seen)).length < (unresolved map seen).length := by
  have hsub : unresolved map (key :: seen) = (unresolved map seen).filter (· ≠ key) := by
    simp [unresolved, List.filter_filter]
  obtain ⟨l₁, l₂, rfl, -⟩ := List.lookup_eq_some_iff.1 h
  rw [hsub, List.length_filter_lt_length_iff_exists]
  exact ⟨key, by simp [unresolved, hkey], by simp⟩

/-- `seen` is the set of the keys that are being resolved. -/
def resolveImpl (map : SettingsMap) (seen : List String) : List Char → List Char
  | [] => []
  | c :: cs =>
    match _htoken : token (c :: cs) with
    | some (key, rest) =>
      if _hkey : key ∈ seen then literal key ++ resolveImpl map seen rest
      else
        match _hvalue : map.lookup key with
        | some value =>
          resolveImpl map (key :: seen) value.toList ++ resolveImpl map seen rest
        | none => c :: resolveImpl map seen cs
    | none => c :: resolveImpl map seen cs
termination_by cs => ((unresolved map seen).length, cs.length)
decreasing_by
  · exact .right _ (length_lt_of_token _htoken)
  · exact .left _ _ (length_unresolved_lt _hkey _hvalue)
  · exact .right _ (length_lt_of_token _htoken)
  · exact .right _ (by simp)
  · exact .right _ (by simp)

/-- `resolve_value_with_map`: replaces the references of a value by what the map says. -/
def resolveValueWithMap (value : String) (map : SettingsMap) : String :=
  .ofList (resolveImpl map [] value.toList)

/-- `get_setting`, with the map that it has loaded. -/
def getSetting (map : SettingsMap) (key : String) : Except String String :=
  match map.lookup key with
  | none => .error s!"Setting 不存在:{key}"
  | some raw => .ok (resolveValueWithMap raw map)

/-! ## What a value refers to -/

/-- The references of a value, to settings that are there or not. -/
def scan : List Char → List (Piece String Char)
  | [] => []
  | c :: cs =>
    match _htoken : token (c :: cs) with
    | some (key, rest) => .ref key :: scan rest
    | none => .text c :: scan cs
termination_by cs => cs.length
decreasing_by
  · exact length_lt_of_token _htoken
  · simp

/-- The settings as definitions of a template. -/
def definitions (map : SettingsMap) : List (String × List (Piece String Char)) :=
  map.map fun x => (x.1, scan x.2.toList)

theorem lookup_definitions (map : SettingsMap) (key : String) :
    (definitions map).lookup key = (map.lookup key).map fun value => scan value.toList := by
  induction map with
  | nil => rfl
  | cons x map ih =>
    obtain ⟨k, v⟩ := x
    simp only [definitions, List.map_cons, List.lookup_cons] at ih ⊢
    split
    · rfl
    · exact ih

theorem scan_of_token {c : Char} {cs rest : List Char} {key : String}
    (h : token (c :: cs) = some (key, rest)) : scan (c :: cs) = .ref key :: scan rest := by
  rw [scan]
  split
  · rename_i h'
    rw [h] at h'
    cases h'
    rfl
  · rename_i h'
    rw [h] at h'
    cases h'

theorem scan_of_not_token {c : Char} {cs : List Char} (h : token (c :: cs) = none) :
    scan (c :: cs) = .text c :: scan cs := by
  rw [scan]
  split
  · rename_i h'
    rw [h] at h'
    cases h'
  · rfl

/-- Scanning loses nothing. -/
theorem render_scan (cs : List Char) : render literal (scan cs) = cs := by
  fun_induction scan cs with
  | case1 => rfl
  | case2 c cs key rest h ih => rw [render, ih, ← (token_eq_some h).2]
  | case3 c cs h ih => rw [render, ih]

/-! ## The resolver computes the unfolding -/

theorem token_of_ne {c : Char} {cs : List Char} (h : c ≠ '{') : token (c :: cs) = none := by
  unfold token
  split
  · rename_i heq
    cases heq
    exact absurd rfl h
  · rfl

theorem token_of_second_ne {c d : Char} {cs : List Char} (h : d ≠ '{') :
    token (c :: d :: cs) = none := by
  unfold token
  split
  · rename_i heq
    cases heq
    exact absurd rfl h
  · rfl

theorem scan_append {t : List Char} (h : '{' ∉ t) (cs : List Char) :
    scan (t ++ cs) = t.map .text ++ scan cs := by
  induction t with
  | nil => rfl
  | cons c t ih =>
    rw [List.mem_cons, not_or] at h
    rw [List.cons_append, scan_of_not_token (token_of_ne (Ne.symm h.1)), ih h.2]
    rfl

theorem ne_of_validKey {key : List Char} (h : validKey key = true) : '{' ∉ key := by
  intro hmem
  simp only [validKey, Bool.and_eq_true, List.all_eq_true] at h
  exact absurd (h.2 _ hmem) (by decide)

/-- Behind its first character a reference is read as text. -/
theorem exists_scan_behind {c : Char} {cs rest : List Char} {key : String}
    (h : token (c :: cs) = some (key, rest)) :
    ∃ t, literal key = c :: t ∧ scan cs = t.map .text ++ scan rest := by
  obtain ⟨hvalid, heq⟩ := token_eq_some h
  obtain ⟨rfl, rfl⟩ : c = '{' ∧ cs = '{' :: (key.toList ++ ['}', '}'] ++ rest) := by
    simpa [literal] using heq
  have hplain : '{' ∉ key.toList ++ ['}', '}'] := by
    simp [ne_of_validKey hvalid]
  have hsecond : token ('{' :: (key.toList ++ ['}', '}'] ++ rest)) = none := by
    cases hkey : key.toList with
    | nil => exact token_of_second_ne (by decide)
    | cons d ds =>
      rw [hkey] at hplain
      exact token_of_second_ne fun hd => hplain (hd ▸ List.mem_cons_self)
  refine ⟨'{' :: (key.toList ++ ['}', '}']), rfl, ?_⟩
  rw [scan_of_not_token hsecond, scan_append hplain]
  rfl

/-- The resolver renders what `reduce` makes of the value. -/
theorem resolveImpl_eq (map : SettingsMap) (seen : List String) (cs : List Char) :
    resolveImpl map seen cs = render literal (reduce (definitions map) seen (scan cs)) := by
  fun_induction resolveImpl map seen cs with
  | case1 => rw [scan, Template.reduce_nil, render]
  | case2 seen c cs key rest htoken hkey ih =>
    rw [scan_of_token htoken, Template.reduce_of_mem hkey, render, ih]
  | case3 seen c cs key rest htoken hkey value hvalue ihvalue ih =>
    have hdef : (definitions map).lookup key = some (scan value.toList) := by
      rw [lookup_definitions, hvalue]
      rfl
    rw [scan_of_token htoken, Template.reduce_of_defined hkey hdef, Template.render_append,
      ihvalue, ih]
  | case4 seen c cs key rest htoken hkey hvalue ih =>
    have hdef : (definitions map).lookup key = none := by
      rw [lookup_definitions, hvalue]
      rfl
    obtain ⟨t, hliteral, hscan⟩ := exists_scan_behind htoken
    rw [ih, hscan, Template.render_reduce_text, scan_of_token htoken,
      Template.reduce_of_undefined hdef, render, hliteral]
    rfl
  | case5 seen c cs htoken ih =>
    rw [scan_of_not_token htoken, Template.reduce_text, render, ih]

/-- What is left of a value: the references that the resolver does not replace. -/
def remaining (map : SettingsMap) (value : String) : List (Piece String Char) :=
  reduce (definitions map) [] (scan value.toList)

/-- The resolver finds the unfolding of a value that reaches no cycle, there is none for the others,
and the only references that it leaves are to undefined settings and to settings on cycles.  A
setting that the value does not reach has no influence. -/
theorem resolve_meaning (map : SettingsMap) (value : String) :
    (resolveValueWithMap value map).toList = render literal (remaining map value) ∧
    (∀ out, Unfolds (definitions map) (scan value.toList) out ↔
      (∀ key, Reaches (definitions map) (scan value.toList) key → ¬ Cyclic (definitions map) key) ∧
        remaining map value = out) ∧
    (∀ key, .ref key ∈ remaining map value →
      map.lookup key = none ∨ Cyclic (definitions map) key) ∧
    ∀ map', (∀ key, Reaches (definitions map) (scan value.toList) key →
        map'.lookup key = map.lookup key) →
      resolveValueWithMap value map' = resolveValueWithMap value map := by
  refine ⟨?_, fun out => Template.unfolds_iff, fun key hkey => ?_, fun map' hmap => ?_⟩
  · rw [resolveValueWithMap, String.toList_ofList, resolveImpl_eq, remaining]
  · obtain h | h := Template.undefined_or_cyclic (Template.leads_nil _ _) hkey
    · rw [lookup_definitions, Option.map_eq_none_iff] at h
      exact .inl h
    · exact .inr h
  · rw [resolveValueWithMap, resolveValueWithMap, resolveImpl_eq, resolveImpl_eq,
      Template.reduce_congr fun key hkey => ?_]
    rw [lookup_definitions, lookup_definitions, hmap key hkey]

end FloatCtf.Infrastructure
