import FloatCtf.Net.CharClass
import FloatCtf.Net.Text
import Mathlib.Data.List.DropRight
import Mathlib.Data.Set.Function

/-!
# The identity of a content

A content has a safe name, which is given or derived from its id, and a version; together with its
kind they name its image.

`derive_eq_reference` says that the two scanners of `derive_safe_name` are the substitutions of the
patterns that its documentation names.  A name is derived as soon as a letter or a digit is left of
the id, and the image of a content determines its kind, its name and its version.
-/

namespace FloatCtf.Content

open CharClass

/-- The two kinds of content. -/
inductive ArtifactKind where
  | challenge
  | gameBox
  deriving DecidableEq

/-- The name of a kind in an image tag. -/
def ArtifactKind.contentType : ArtifactKind → String
  | .challenge => "challenge"
  | .gameBox => "gamebox"

/-- The namespace of the images. -/
def contentImageNamespace : String := "floatctf"

/-! ## Safe names -/

/-- A lower-case letter or a digit of ASCII. -/
def isAlnumByte (b : UInt8) : Bool := (97 ≤ b && b ≤ 122) || (48 ≤ b && b ≤ 57)

/-- A dot, an underscore or a hyphen. -/
def isSepByte (b : UInt8) : Bool := b = 46 || b = 95 || b = 45

/-- The loop of `is_valid_safe_name`. -/
def scanName (prevSep : Bool) : List UInt8 → Bool
  | [] => true
  | b :: bs =>
    if isAlnumByte b then scanName false bs
    else if isSepByte b then
      if prevSep then false else scanName true bs
    else false

/-- `is_valid_safe_name`: letters and digits with single separators between them. -/
def isValidSafeName (s : String) : Bool :=
  match (Text.encode s).head?, (Text.encode s).getLast? with
  | some a, some b =>
    if !isAlnumByte a || !isAlnumByte b then false else scanName false (Text.encode s)
  | _, _ => false

/-- A lower-case letter or a digit of ASCII. -/
def isAlnum (c : Char) : Bool := ('a' ≤ c && c ≤ 'z') || ('0' ≤ c && c ≤ '9')

/-- A dot, an underscore or a hyphen. -/
def isSep (c : Char) : Bool := c = '.' || c = '_' || c = '-'

/-- The characters of safe names. -/
def isNameChar (c : Char) : Bool := isAlnum c || isSep c

/-- Lowercasing, the decomposition NFKD and the combining class of a character, which leave the
characters of safe names alone. -/
structure Unicode where
  toLowercase : List Char → List Char
  nfkd : List Char → List Char
  canonicalCombiningClass : Char → Nat
  toLowercase_eq : ∀ cs, (∀ c ∈ cs, isNameChar c = true) → toLowercase cs = cs
  nfkd_eq : ∀ cs, (∀ c ∈ cs, isNameChar c = true) → nfkd cs = cs
  class_eq : ∀ c, isNameChar c = true → canonicalCombiningClass c = 0

/-- The codes of the characters of safe names. -/
theorem toNat_of_isNameChar {c : Char} (h : isNameChar c = true) :
    97 ≤ c.toNat ∧ c.toNat ≤ 122 ∨ 48 ≤ c.toNat ∧ c.toNat ≤ 57 ∨ c.toNat = 46 ∨ c.toNat = 95 ∨
      c.toNat = 45 := by
  simp only [isNameChar, isAlnum, isSep, Bool.or_eq_true, Bool.and_eq_true, decide_eq_true_eq,
    Char.le_def, UInt32.le_iff_toNat_le] at h
  obtain (h | h) | (rfl | rfl) | rfl := h
  · exact .inl h
  · exact .inr (.inl h)
  all_goals decide

theorem toLower_of_isNameChar {c : Char} (h : isNameChar c = true) : c.toLower = c := by
  refine dif_neg fun hupper => ?_
  have hlo : 65 ≤ c.toNat := UInt32.le_iff_toNat_le.1 hupper.1
  have hhi : c.toNat ≤ 90 := UInt32.le_iff_toNat_le.1 hupper.2
  have := toNat_of_isNameChar h
  omega

/-- Texts of ASCII characters. -/
def Unicode.ascii : Unicode where
  toLowercase cs := cs.map Char.toLower
  nfkd cs := cs
  canonicalCombiningClass _ := 0
  toLowercase_eq cs h := by
    conv_rhs => rw [← List.map_id cs]
    exact List.map_congr_left fun c hc => toLower_of_isNameChar (h c hc)
  nfkd_eq _ _ := rfl
  class_eq _ _ := rfl

/-- The apostrophe and the right single quotation mark. -/
def isApostrophe (c : Char) : Bool := c.toNat = 0x27 || c.toNat = 0x2019

/-- The steps 1 to 4 of `derive_safe_name`. -/
def normalized (u : Unicode) (contentId : String) : List Char :=
  ((u.nfkd (u.toLowercase contentId.toList)).filter fun c => u.canonicalCombiningClass c = 0).filter
    fun c => !isApostrophe c

/-- Step 5. -/
def replaceOthers (inReplacement : Bool) : List Char → List Char
  | [] => []
  | c :: cs =>
    if isNameChar c then c :: replaceOthers false cs
    else if !inReplacement then '-' :: replaceOthers true cs
    else replaceOthers true cs

/-- Separators that have gathered: a single one stays, several become a hyphen. -/
def flushSeparators (out pending : List Char) : List Char :=
  match pending with
  | [] => out
  | [c] => out ++ [c]
  | _ => out ++ ['-']

/-- Step 6. -/
def replaceSeparators (out pending : List Char) : List Char → List Char
  | [] => flushSeparators out pending
  | c :: cs =>
    if isSep c then replaceSeparators out (pending ++ [c]) cs
    else replaceSeparators (flushSeparators out pending ++ [c]) [] cs

/-- Step 7. -/
def trimSeparators (cs : List Char) : List Char := (cs.dropWhile isSep).rdropWhile isSep

/-- `derive_safe_name`: the safe name of a content id, if one is left of it. -/
def deriveSafeName (u : Unicode) (contentId : String) : Option String :=
  let trimmed := String.ofList (trimSeparators
    (replaceSeparators [] [] (replaceOthers false (normalized u contentId))))
  if isValidSafeName trimmed then some trimmed else none

/-- The value of a `safe_name` that is not blank. -/
def explicitSafeName (raw : Option String) : Option String :=
  (raw.map Text.trim).filter fun s => s ≠ ""

/-- Why there is no safe name. -/
inductive SafeNameError where
  | invalid (raw : String)
  | underivable
  deriving DecidableEq

/-- The message of an error. -/
def SafeNameError.message : SafeNameError → String
  | .invalid raw => s!"invalid safe_name '{raw}'"
  | .underivable => "unable to derive Docker safe_name; set safe_name explicitly"

/-- `resolve_safe_name`: the explicit name if there is one, else the derived one. -/
def resolveSafeName (u : Unicode) (contentId : String) (explicit : Option String) :
    Except SafeNameError String :=
  match explicit with
  | some raw =>
    match explicitSafeName (some raw) with
    | some trimmed => if isValidSafeName trimmed then .ok trimmed else .error (.invalid raw)
    | none => .error (.invalid raw)
  | none =>
    match deriveSafeName u contentId with
    | some name => .ok name
    | none => .error .underivable

/-! ## Versions and images -/

/-- A digit of ASCII. -/
def isDigitByte (b : UInt8) : Bool := 48 ≤ b && b ≤ 57

/-- `is_valid_version`: three groups of digits with dots between them. -/
def isValidVersion (version : String) : Bool :=
  match version.toList.splitOn '.' with
  | [major, minor, patch] =>
    [major, minor, patch].all fun part =>
      !part.isEmpty && (Text.encode (.ofList part)).all isDigitByte
  | _ => false

/-- The prefix of the images, without the slashes at its end. -/
def imagePrefix (registryPrefix : String) : String :=
  let pre := String.ofList ((Text.trim registryPrefix).toList.rdropWhile (· = '/'))
  if pre = "" then contentImageNamespace else pre

/-- The image reference of a content. -/
def contentImageRef (kind : ArtifactKind) (registryPrefix safeName version : String) : String :=
  s!"{imagePrefix registryPrefix}/{safeName}:{kind.contentType}-v{version}"

/-! ## The documented pattern and derivation -/

/-- The pattern `[a-z0-9]+(?:[._-][a-z0-9]+)*`. -/
def safeNamePattern : Language Char := words isAlnum isSep

open scoped Classical in
/-- The derivation as it is documented: lowercase, NFKD, no combining marks, no apostrophes,
`[^a-z0-9._-]+` and `[._-]{2,}` to a hyphen, no separators at the ends, and a match of the
pattern. -/
noncomputable def referenceSafeName (u : Unicode) (contentId : String) : Option String :=
  let lower := u.toLowercase contentId.toList
  let base := (u.nfkd lower).filter fun c => u.canonicalCombiningClass c = 0
  let bare := base.filter fun c => !isApostrophe c
  let joined := subst isSep 2 '-' (subst (fun c => !isNameChar c) 1 '-' bare)
  let stripped := (joined.dropWhile isSep).rdropWhile isSep
  if stripped ∈ safeNamePattern then some (.ofList stripped) else none

/-! ## The pattern on bytes -/

theorem scanName_iff (prevSep : Bool) (bs : List UInt8) :
    scanName prevSep bs = true ↔ (∀ b ∈ bs, isAlnumByte b = true ∨ isSepByte b = true) ∧
      bs.IsChain (fun a b => isAlnumByte a = true ∨ isAlnumByte b = true) ∧
      (prevSep = true → ∀ b ∈ bs.head?, isAlnumByte b = true) := by
  induction bs generalizing prevSep with
  | nil => simp [scanName]
  | cons b bs ih =>
    rw [scanName, List.isChain_cons]
    by_cases hb : isAlnumByte b = true
    · rw [if_pos hb, ih]
      simp [hb]
    · rw [if_neg hb]
      by_cases hs : isSepByte b = true
      · rw [if_pos hs]
        cases prevSep with
        | true => simp [hb]
        | false =>
          rw [if_neg (by simp), ih]
          simp [hb, hs, and_comm, and_left_comm]
      · rw [if_neg hs]
        simp [hb, hs]

theorem separated_of_bytes_iff (s : String) : isValidSafeName s = true ↔
    Separated isAlnumByte isSepByte (Text.encode s) := by
  unfold isValidSafeName
  constructor
  · intro h
    split at h
    · rename_i a b ha hb
      split_ifs at h with hends
      obtain ⟨ha', hb'⟩ : isAlnumByte a = true ∧ isAlnumByte b = true := by simpa using hends
      obtain ⟨hchars, hchain, -⟩ := (scanName_iff _ _).1 h
      exact ⟨hchars, ⟨a, ha, ha'⟩, ⟨b, hb, hb'⟩, hchain⟩
    · cases h
  · rintro ⟨hchars, ⟨a, ha, ha'⟩, ⟨b, hb, hb'⟩, hchain⟩
    simp only [Option.mem_def.1 ha, Option.mem_def.1 hb, ha', hb']
    exact (scanName_iff _ _).2 ⟨hchars, hchain, by simp⟩

theorem isNameByte_lt {b : UInt8} (h : isAlnumByte b = true ∨ isSepByte b = true) : b < 0x80 := by
  simp only [isAlnumByte, isSepByte, Bool.or_eq_true, Bool.and_eq_true, decide_eq_true_eq,
    UInt8.le_iff_toNat_le, UInt8.lt_iff_toNat_lt, ← UInt8.toNat_inj, UInt8.reduceToNat] at h ⊢
  omega

theorem isNameChar_lt {c : Char} (h : isNameChar c = true) : c.toNat < 0x80 := by
  have := toNat_of_isNameChar h
  omega

/-- The classes of bytes are those of the characters they stand for. -/
theorem class_ofNat {b : UInt8} (h : b < 0x80) :
    isAlnum (Char.ofNat b.toNat) = isAlnumByte b ∧ isSep (Char.ofNat b.toNat) = isSepByte b := by
  have key : ∀ n : Fin 128, isAlnum (Char.ofNat n) = isAlnumByte (UInt8.ofNat n) ∧
      isSep (Char.ofNat n) = isSepByte (UInt8.ofNat n) := by
    decide +kernel
  have := key ⟨b.toNat, UInt8.lt_iff_toNat_lt.1 h⟩
  simpa only [UInt8.ofNat_toNat] using this

theorem encode_lt_of_name {s : String} (h : ∀ c ∈ s.toList, isNameChar c = true) :
    ∀ b ∈ Text.encode s, b < 0x80 := by
  intro b hb
  rw [← String.ofList_toList (s := s), Text.encode_ofList] at hb
  obtain ⟨c, hc, hbc⟩ := List.mem_flatMap.1 hb
  have hlt := isNameChar_lt (h c hc)
  rw [Text.utf8EncodeChar_of_lt hlt, List.mem_singleton] at hbc
  rw [hbc, UInt8.lt_iff_toNat_lt, UInt8.toNat_ofNat', Nat.mod_eq_of_lt (by omega)]
  exact hlt

/-- The scanner of the bytes accepts the names of the pattern. -/
theorem isValidSafeName_iff (s : String) :
    isValidSafeName s = true ↔ Separated isAlnum isSep s.toList := by
  rw [separated_of_bytes_iff]
  by_cases hlt : ∀ b ∈ Text.encode s, b < 0x80
  · have hs : s = Text.ofAscii (Text.encode s) := by
      have h := Text.ofUtf8_encode (Text.ofAscii (Text.encode s))
      rw [Text.encode_ofAscii hlt, Text.ofUtf8_encode] at h
      exact Option.some.inj h
    have hlist : s.toList = (Text.encode s).map fun b => Char.ofNat b.toNat := by
      conv_lhs => rw [hs]
      rw [Text.ofAscii, String.toList_ofList]
    rw [hlist, separated_map_iff (fun b hb => (class_ofNat (hlt b hb)).1)
      fun b hb => (class_ofNat (hlt b hb)).2]
  · refine iff_of_false (fun h => hlt fun b hb => isNameByte_lt (h.chars b hb)) fun h => hlt ?_
    refine encode_lt_of_name fun c hc => ?_
    rw [isNameChar, Bool.or_eq_true]
    exact h.chars c hc

/-! ## The scanners of the derivation -/

theorem replaceOthers_true (cs : List Char) :
    replaceOthers true cs = replaceOthers false (cs.dropWhile fun c => !isNameChar c) := by
  induction cs with
  | nil => rfl
  | cons c cs ih =>
    by_cases hc : isNameChar c = true
    · simp [replaceOthers, hc]
    · simp [replaceOthers, hc, ih]

/-- The flag of step 5 marks the rest of a run. -/
theorem replaceOthers_eq (cs : List Char) :
    replaceOthers false cs = subst (fun c => !isNameChar c) 1 '-' cs := by
  induction cs using subst.induct (fun c => !isNameChar c) with
  | case1 => simp [replaceOthers]
  | case2 c cs hc ih =>
    have hc' : isNameChar c = false := by simpa using hc
    rw [subst_cons_of_pos (p := fun c => !isNameChar c) hc, if_pos (by simp), ← ih,
      ← replaceOthers_true]
    simp [replaceOthers, hc']
  | case3 c cs hc ih =>
    have hc' : isNameChar c = true := by simpa using hc
    rw [subst_cons_of_neg (p := fun c => !isNameChar c) (by simpa using hc), ← ih]
    simp [replaceOthers, hc']

/-- What becomes of a run of separators. -/
def joined (run : List Char) : List Char := if 2 ≤ run.length then ['-'] else run

theorem flushSeparators_eq (out pending : List Char) :
    flushSeparators out pending = out ++ joined pending := by
  rcases pending with _ | ⟨c, _ | ⟨d, cs⟩⟩ <;> simp [flushSeparators, joined]

/-- What is written stays in front. -/
theorem replaceSeparators_append (out pending cs : List Char) :
    replaceSeparators out pending cs = out ++ replaceSeparators [] pending cs := by
  induction cs generalizing out pending with
  | nil => simp [replaceSeparators, flushSeparators_eq]
  | cons c cs ih =>
    by_cases hc : isSep c = true
    · simp only [replaceSeparators, hc, if_true]
      exact ih out _
    · simp only [replaceSeparators, hc, flushSeparators_eq]
      rw [if_neg (by simp), if_neg (by simp), ih, ih ([] ++ joined pending ++ [c])]
      simp

/-- The buffer of step 6 holds the beginning of a run. -/
theorem replaceSeparators_pending (pending cs : List Char) :
    replaceSeparators [] pending cs =
      joined (pending ++ cs.takeWhile isSep) ++ replaceSeparators [] [] (cs.dropWhile isSep) := by
  induction cs generalizing pending with
  | nil => simp [replaceSeparators, flushSeparators_eq, joined]
  | cons c cs ih =>
    by_cases hc : isSep c = true
    · simp only [replaceSeparators, hc, if_true, List.takeWhile_cons_of_pos,
        List.dropWhile_cons_of_pos]
      rw [ih]
      simp
    · simp only [replaceSeparators, hc, flushSeparators_eq]
      rw [if_neg (by simp), replaceSeparators_append, List.takeWhile_cons_of_neg hc,
        List.dropWhile_cons_of_neg hc]
      simp only [replaceSeparators, hc, flushSeparators_eq]
      rw [if_neg (by simp), replaceSeparators_append ([] ++ joined [] ++ [c])]
      simp [joined]

theorem replaceSeparators_eq (cs : List Char) :
    replaceSeparators [] [] cs = subst isSep 2 '-' cs := by
  induction cs using subst.induct isSep with
  | case1 => simp [replaceSeparators, flushSeparators]
  | case2 c cs hc ih =>
    rw [subst_cons_of_pos hc, ← ih, replaceSeparators_pending, List.nil_append,
      List.takeWhile_cons_of_pos hc, List.dropWhile_cons_of_pos hc]
    rfl
  | case3 c cs hc ih =>
    rw [subst_cons_of_neg (by simpa using hc), ← ih, replaceSeparators, if_neg hc,
      replaceSeparators_append]
    simp [flushSeparators]

theorem derive_eq_reference (u : Unicode) (contentId : String) :
    deriveSafeName u contentId = referenceSafeName u contentId := by
  unfold deriveSafeName referenceSafeName
  simp only [replaceSeparators_eq, replaceOthers_eq, trimSeparators, normalized]
  classical
  refine if_congr ?_ rfl rfl
  rw [isValidSafeName_iff, String.toList_ofList, safeNamePattern, mem_words_iff]

/-! ## What is derived -/

theorem isSep_of_isAlnum {c : Char} (h : isAlnum c = true) : isSep c = false := by
  rw [← Bool.not_eq_true]
  intro hs
  simp only [isSep, Bool.or_eq_true, decide_eq_true_eq] at hs
  obtain (rfl | rfl) | rfl := hs <;> revert h <;> decide

theorem isAlnum_of_isNameChar {c : Char} (h : isNameChar c = true) (hs : isSep c = false) :
    isAlnum c = true := by
  simpa [isNameChar, hs] using h

theorem not_isApostrophe {c : Char} (h : isNameChar c = true) : isApostrophe c = false := by
  simp only [isApostrophe, Bool.or_eq_false_iff, decide_eq_false_iff_not]
  have := toNat_of_isNameChar h
  omega

/-- The text that is left before the pattern is matched. -/
def stripped (u : Unicode) (contentId : String) : List Char :=
  trimSeparators (subst isSep 2 '-' (subst (fun c => !isNameChar c) 1 '-' (normalized u contentId)))

theorem derive_eq (u : Unicode) (contentId : String) :
    deriveSafeName u contentId =
      if isValidSafeName (.ofList (stripped u contentId)) then
        some (.ofList (stripped u contentId)) else none := by
  have heq : trimSeparators (replaceSeparators [] []
      (replaceOthers false (normalized u contentId))) = stripped u contentId := by
    rw [replaceSeparators_eq, replaceOthers_eq, stripped]
  rw [← heq]
  rfl

theorem isNameChar_of_mem_stripped {u : Unicode} {contentId : String} {c : Char}
    (h : c ∈ stripped u contentId) : isNameChar c = true := by
  obtain h | rfl := mem_subst ((isInfix_strip _).subset h)
  · obtain h | rfl := mem_subst_one h
    · simpa using h
    · rfl
  · rfl

/-- What is left is a name as soon as it has a letter or a digit. -/
theorem separated_stripped_iff (u : Unicode) (contentId : String) :
    Separated isAlnum isSep (stripped u contentId) ↔
      ∃ c ∈ normalized u contentId, isAlnum c = true := by
  have hname : ∀ c, isAlnum c = true → (!isNameChar c) = false := fun c hc => by
    simp [isNameChar, hc]
  constructor
  · rintro ⟨-, ⟨c, hc, hac⟩, -, -⟩
    have hne : c ≠ '-' := by
      rintro rfl
      revert hac
      decide
    have hmem := (isInfix_strip _).subset (List.mem_of_head? hc)
    exact ⟨c, (mem_subst ((mem_subst hmem).resolve_right hne)).resolve_right hne, hac⟩
  · rintro ⟨c, hc, hac⟩
    have hmem : c ∈ stripped u contentId := mem_strip (isSep_of_isAlnum hac)
      (mem_subst_of_neg (isSep_of_isAlnum hac) (mem_subst_of_neg (hname c hac) hc))
    have hne : stripped u contentId ≠ [] := List.ne_nil_of_mem hmem
    have hends : ∀ d ∈ stripped u contentId, isSep d = false → isAlnum d = true := fun d hd =>
      isAlnum_of_isNameChar (isNameChar_of_mem_stripped hd)
    have hhead := List.head?_eq_some_head hne
    have hlast := List.getLast?_eq_some_getLast hne
    refine ⟨fun d hd => ?_, ⟨_, hhead, hends _ (List.head_mem hne) (head?_strip hhead)⟩,
      ⟨_, hlast, hends _ (List.getLast_mem hne) (getLast?_strip hlast)⟩, ?_⟩
    · simpa [isNameChar] using isNameChar_of_mem_stripped hd
    · refine ( List.IsChain.infix (isChain_subst_two _) (isInfix_strip _)).imp_of_mem_imp ?_
      exact fun d e hd he => Or.imp (hends d hd) (hends e he)

theorem derive_isSome_iff (u : Unicode) (contentId : String) :
    (deriveSafeName u contentId).isSome ↔ ∃ c ∈ normalized u contentId, isAlnum c = true := by
  rw [← separated_stripped_iff, derive_eq]
  have hvalid := isValidSafeName_iff (.ofList (stripped u contentId))
  rw [String.toList_ofList] at hvalid
  rw [← hvalid]
  split_ifs with h <;> simp [h]

theorem derive_valid {u : Unicode} {contentId name : String}
    (h : deriveSafeName u contentId = some name) : isValidSafeName name = true := by
  rw [derive_eq] at h
  split_ifs at h with hvalid
  cases h
  exact hvalid

/-- A valid name goes through every step as it is. -/
theorem derive_of_valid (u : Unicode) {name : String} (h : isValidSafeName name = true) :
    deriveSafeName u name = some name := by
  have hsep := (isValidSafeName_iff name).1 h
  have hname : ∀ c ∈ name.toList, isNameChar c = true := fun c hc => by
    rw [isNameChar, Bool.or_eq_true]
    exact hsep.chars c hc
  have hnorm : normalized u name = name.toList := by
    rw [normalized, u.toLowercase_eq _ hname, u.nfkd_eq _ hname,
      List.filter_eq_self.2 fun c hc => decide_eq_true (u.class_eq c (hname c hc)),
      List.filter_eq_self.2 fun c hc => by simp [not_isApostrophe (hname c hc)]]
  have hchain : name.toList.IsChain fun c d => isSep c = false ∨ isSep d = false :=
    hsep.chain.imp fun c d => Or.imp isSep_of_isAlnum isSep_of_isAlnum
  have hothers : subst (fun c => !isNameChar c) 1 '-' name.toList = name.toList :=
    subst_of_forall_neg fun c hc => by simp [hname c hc]
  have hstripped : stripped u name = name.toList := by
    rw [stripped, hnorm, hothers, subst_two_of_isChain hchain]
    refine strip_eq_self (fun c hc => ?_) fun c hc => ?_
    · obtain ⟨d, hd, had⟩ := hsep.head
      rw [Option.mem_unique hc hd]
      exact isSep_of_isAlnum had
    · obtain ⟨d, hd, had⟩ := hsep.last
      rw [Option.mem_unique hc hd]
      exact isSep_of_isAlnum had
  rw [derive_eq, hstripped, String.ofList_toList, if_pos h]

/-- A name that is resolved is valid, wherever it comes from. -/
theorem resolve_valid {u : Unicode} {contentId name : String} {explicit : Option String}
    (h : resolveSafeName u contentId explicit = .ok name) : isValidSafeName name = true := by
  unfold resolveSafeName at h
  split at h
  · split at h
    · split_ifs at h with hvalid
      cases h
      exact hvalid
    · cases h
  · split at h
    · rename_i hderive
      cases h
      exact derive_valid hderive
    · cases h

/-! ## Images -/

theorem colon_notMem {name : String} (h : isValidSafeName name = true) : ':' ∉ name.toList := by
  intro hmem
  have := ((isValidSafeName_iff name).1 h).chars ':' hmem
  revert this
  decide

/-- The name ends at the first colon behind the prefix. -/
theorem imageRef_name_inj {pre name name' rest rest' : String}
    (h : isValidSafeName name = true) (h' : isValidSafeName name' = true)
    (heq : pre ++ (name ++ (String.singleton ':' ++ rest)) =
      pre ++ (name' ++ (String.singleton ':' ++ rest'))) : name = name' ∧ rest = rest' := by
  have htail : name ++ (String.singleton ':' ++ rest) =
      name' ++ (String.singleton ':' ++ rest') := by
    have hlist := congrArg String.toList heq
    simp only [String.toList_append (s := pre)] at hlist
    exact String.toList_inj.1 (List.append_cancel_left hlist)
  have hsplit := Text.splitOnce_append (colon_notMem h) rest
  rw [htail, Text.splitOnce_append (colon_notMem h') rest'] at hsplit
  cases hsplit
  exact ⟨rfl, rfl⟩

theorem contentImageRef_eq (kind : ArtifactKind) (registryPrefix safeName version : String) :
    contentImageRef kind registryPrefix safeName version =
      (imagePrefix registryPrefix ++ "/") ++ (safeName ++ (String.singleton ':' ++
        (kind.contentType ++ ("-v" ++ version)))) := by
  simp only [contentImageRef, toString, String.append_assoc]
  rfl

/-- The tag has the kind in front, and the version behind it. -/
theorem tag_inj {kind kind' : ArtifactKind} {version version' : String}
    (h : kind.contentType ++ ("-v" ++ version) = kind'.contentType ++ ("-v" ++ version')) :
    kind = kind' ∧ version = version' := by
  have hlist := congrArg String.toList h
  simp only [String.toList_append] at hlist
  cases kind <;> cases kind' <;> simp [ArtifactKind.contentType] at hlist ⊢
  · exact String.toList_inj.1 hlist
  · exact String.toList_inj.1 hlist

theorem contentImageRef_injOn (registryPrefix : String) :
    Set.InjOn (fun c : ArtifactKind × String × String =>
        contentImageRef c.1 registryPrefix c.2.1 c.2.2)
      {c | isValidSafeName c.2.1 = true ∧ isValidVersion c.2.2 = true} := by
  rintro ⟨kind, name, version⟩ ⟨h, -⟩ ⟨kind', name', version'⟩ ⟨h', -⟩ heq
  simp only [contentImageRef_eq] at heq
  obtain ⟨rfl, htag⟩ := imageRef_name_inj h h' heq
  obtain ⟨rfl, rfl⟩ := tag_inj htag
  rfl

/-! ## The identity -/

/-- Safe names are those of the documented pattern, they are derived as it is documented, and an
image names one content. -/
theorem content_identity (u : Unicode) :
    (∀ s, isValidSafeName s = true ↔ s.toList ∈ safeNamePattern) ∧
    (∀ s, deriveSafeName u s = referenceSafeName u s) ∧
    (∀ s, (deriveSafeName u s).isSome ↔ ∃ c ∈ normalized u s, isAlnum c = true) ∧
    (∀ s name, deriveSafeName u s = some name → isValidSafeName name = true) ∧
    (∀ name, isValidSafeName name = true → deriveSafeName u name = some name) ∧
    (∀ s name, deriveSafeName u s = some name → deriveSafeName u name = some name) ∧
    ∀ registryPrefix, Set.InjOn (fun c : ArtifactKind × String × String =>
        contentImageRef c.1 registryPrefix c.2.1 c.2.2)
      {c | isValidSafeName c.2.1 = true ∧ isValidVersion c.2.2 = true} := by
  refine ⟨fun s => ?_, derive_eq_reference u, derive_isSome_iff u, fun _ _ => derive_valid,
    fun _ => derive_of_valid u, fun _ _ h => derive_of_valid u (derive_valid h),
    contentImageRef_injOn⟩
  rw [isValidSafeName_iff, safeNamePattern, mem_words_iff]

/-- With ASCII letters alone, a name that is derived is safe and is its own. -/
theorem content_identity_ascii :
    deriveSafeName .ascii "--Foo..Bar--" = some "foo-bar" ∧ isValidSafeName "foo-bar" = true ∧
      deriveSafeName .ascii "foo-bar" = some "foo-bar" := by
  have hname : deriveSafeName .ascii "--Foo..Bar--" = some "foo-bar" := by decide +kernel
  obtain ⟨-, -, -, hvalid, -, hagain, -⟩ := content_identity .ascii
  exact ⟨hname, hvalid _ _ hname, hagain _ _ hname⟩

end FloatCtf.Content
