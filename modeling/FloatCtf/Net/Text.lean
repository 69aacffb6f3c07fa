import Mathlib.Data.List.Chain

/-!
# Text

UTF-8 as bytes, with a decoder that replaces what is not well formed, and the Unicode properties of
characters that the platform asks for.
-/

namespace Text

/-! ## UTF-8 -/

/-- The bytes of a string in UTF-8. -/
def encode (s : String) : List UInt8 := s.toUTF8.data.toList

/-- `String::from_utf8`. -/
def ofUtf8 (bs : List UInt8) : Option String := String.fromUTF8? ⟨bs.toArray⟩

theorem ofUtf8_encode (s : String) : ofUtf8 (encode s) = some s := by
  have hb : (⟨(encode s).toArray⟩ : ByteArray) = s.toUTF8 := by simp [encode]
  rw [ofUtf8, hb, String.fromUTF8?, String.toUTF8_eq_toByteArray, dif_pos s.isValidUTF8]
  rfl

theorem encode_injective : Function.Injective encode := fun s t h =>
  Option.some.inj ((ofUtf8_encode s).symm.trans (h ▸ ofUtf8_encode t))

/-- The second byte may follow the first in UTF-8. -/
def continues (a b : UInt8) : Bool :=
  if a = 0xE0 then 0xA0 ≤ b && b ≤ 0xBF
  else if a = 0xED then 0x80 ≤ b && b ≤ 0x9F
  else if a = 0xF0 then 0x90 ≤ b && b ≤ 0xBF
  else if a = 0xF4 then 0x80 ≤ b && b ≤ 0x8F
  else 0xC2 ≤ a && a ≤ 0xF4 && 0x80 ≤ b && b ≤ 0xBF

/-- How many bytes a character that begins with the byte takes, if one can begin with it. -/
def width (a : UInt8) : Nat :=
  if a < 0x80 then 1 else if a < 0xC2 then 0 else if a < 0xE0 then 2 else if a < 0xF0 then 3
  else if a < 0xF5 then 4 else 0

/-- How many of the bytes one replacement character stands for: the longest part of a character. -/
def broken : List UInt8 → Nat
  | a :: b :: c :: _ =>
    if width a ≤ 2 ∨ !continues a b then 1
    else if width a = 4 ∧ 0x80 ≤ c ∧ c ≤ 0xBF then 3 else 2
  | a :: b :: [] => if width a ≤ 2 ∨ !continues a b then 1 else 2
  | _ => 1

/-- The characters of the bytes, with U+FFFD for what is not well formed. -/
def lossyChars : Nat → List UInt8 → List Char
  | 0, _ => []
  | _, [] => []
  | n + 1, a :: bs =>
    match width a, String.fromUTF8? ⟨((a :: bs).take (width a)).toArray⟩ with
    | w + 1, some s => s.toList ++ lossyChars n (bs.drop w)
    | _, _ => '\uFFFD' :: lossyChars n ((a :: bs).drop (broken (a :: bs)))

/-- UTF-8 decoding that replaces what is not well formed. -/
def decodeLossy (bs : List UInt8) : String :=
  match String.fromUTF8? ⟨bs.toArray⟩ with
  | some s => s
  | none => String.ofList (lossyChars bs.length bs)

theorem decodeLossy_encode (s : String) : decodeLossy (encode s) = s := by
  have h : String.fromUTF8? ⟨(encode s).toArray⟩ = some s := ofUtf8_encode s
  rw [decodeLossy, h]

/-! ### Bytes that are UTF-8 -/

theorem ofUtf8_eq_some_iff {bs : List UInt8} {s : String} : ofUtf8 bs = some s ↔ encode s = bs := by
  constructor
  · intro h
    unfold ofUtf8 String.fromUTF8? at h
    split at h
    · rename_i hvalid
      cases h
      simp [encode, String.fromUTF8]
    · cases h
  · rintro rfl
    exact ofUtf8_encode s

theorem encode_ofList (cs : List Char) :
    encode (.ofList cs) = cs.flatMap String.utf8EncodeChar := by
  simp [encode, List.utf8Encode]

theorem encode_append (s t : String) : encode (s ++ t) = encode s ++ encode t := by
  simp [encode]

/-- A byte that goes on with a character. -/
def isContinuation (b : UInt8) : Bool := 0x80 ≤ b && b < 0xC0

/-- `str::is_char_boundary`. -/
def isCharBoundary (bs : List UInt8) (i : ℕ) : Bool :=
  match bs[i]? with
  | none => i = bs.length
  | some b => !isContinuation b

/-- `str::get` of a range of bytes: nothing when it cuts a character or leaves the string. -/
def getRange (bs : List UInt8) (a b : ℕ) : Option (List UInt8) :=
  if a ≤ b ∧ isCharBoundary bs a ∧ isCharBoundary bs b then some ((bs.drop a).take (b - a))
  else none

theorem utf8EncodeChar_of_lt {c : Char} (h : c.toNat < 0x80) :
    String.utf8EncodeChar c = [UInt8.ofNat c.toNat] :=
  if_pos (show c.val.toNat ≤ 0x7f from Nat.le_of_lt_succ h)

theorem not_ofNat_lt {n : ℕ} (h : 0x80 ≤ n) (h' : n < 0x100) : ¬ UInt8.ofNat n < 0x80 := by
  rw [UInt8.lt_iff_toNat_lt, UInt8.toNat_ofNat', Nat.mod_eq_of_lt h']
  exact Nat.not_lt.2 h

/-- A byte below 128 is a character of its own. -/
theorem lt_of_mem_utf8EncodeChar {c : Char} {b : UInt8} (hb : b ∈ String.utf8EncodeChar c)
    (hlt : b < 0x80) : c.toNat < 0x80 := by
  by_contra hc
  have hv : ¬ c.val.toNat ≤ 0x7f := fun h => hc (Nat.lt_succ_of_le h)
  unfold String.utf8EncodeChar at hb
  simp only [hv, if_false] at hb
  split_ifs at hb
  · obtain rfl | rfl : b = _ ∨ b = _ := by
      simpa only [List.mem_cons, List.not_mem_nil, or_false] using hb
    all_goals exact not_ofNat_lt (by omega) (by omega) hlt
  · obtain rfl | rfl | rfl : b = _ ∨ b = _ ∨ b = _ := by
      simpa only [List.mem_cons, List.not_mem_nil, or_false] using hb
    all_goals exact not_ofNat_lt (by omega) (by omega) hlt
  · obtain rfl | rfl | rfl | rfl : b = _ ∨ b = _ ∨ b = _ ∨ b = _ := by
      simpa only [List.mem_cons, List.not_mem_nil, or_false] using hb
    all_goals exact not_ofNat_lt (by omega) (by omega) hlt

theorem not_isContinuation_of_first {b : UInt8} (h : b.IsUTF8FirstByte) :
    isContinuation b = false := by
  have key : ∀ n : Fin 256, (UInt8.ofNat n).IsUTF8FirstByte →
      isContinuation (UInt8.ofNat n) = false := by
    unfold UInt8.IsUTF8FirstByte
    decide +kernel
  have hb := key ⟨b.toNat, b.toNat_lt⟩
  simp only [UInt8.ofNat_toNat] at hb
  exact hb h

theorem not_isContinuation_head {c : Char} {b : UInt8}
    (h : (String.utf8EncodeChar c).head? = some b) : isContinuation b = false := by
  rw [List.head?_eq_getElem?, List.getElem?_eq_some_iff] at h
  obtain ⟨_, rfl⟩ := h
  exact not_isContinuation_of_first (UInt8.isUTF8FirstByte_getElem_utf8EncodeChar.2 rfl)

/-- No byte below 128 is followed by one that goes on with a character, and no string begins so. -/
theorem isChain_encode (s : String) :
    (∀ b ∈ (encode s).head?, isContinuation b = false) ∧
      (encode s).IsChain fun a b => a < 0x80 → isContinuation b = false := by
  obtain ⟨cs, rfl⟩ : ∃ cs, s = .ofList cs := ⟨s.toList, by simp⟩
  rw [encode_ofList]
  induction cs with
  | nil => simp
  | cons c cs ih =>
    obtain ⟨b, bs, hc⟩ := List.exists_cons_of_ne_nil (@String.utf8EncodeChar_ne_nil c)
    refine ⟨?_, ?_⟩
    · intro a ha
      rw [List.flatMap_cons, hc] at ha
      exact not_isContinuation_head (by rw [hc]; exact ha)
    · rw [List.flatMap_cons, List.isChain_append]
      refine ⟨?_, ih.2, fun a _ b hb _ => ih.1 b hb⟩
      by_cases hlt : c.toNat < 0x80
      · rw [utf8EncodeChar_of_lt hlt]
        exact .singleton _
      · refine List.Pairwise.isChain (List.pairwise_of_forall_mem_list ?_)
        exact fun a ha _ _ h => absurd (lt_of_mem_utf8EncodeChar ha h) hlt

theorem mem_utf8EncodeChar_of_lt {c : Char} {b : UInt8} (hb : b < 0x80) :
    b ∈ String.utf8EncodeChar c ↔ c.toNat = b.toNat := by
  have hlt : b.toNat < 0x80 := UInt8.lt_iff_toNat_lt.1 hb
  constructor
  · intro h
    have hc := lt_of_mem_utf8EncodeChar h hb
    rw [utf8EncodeChar_of_lt hc, List.mem_singleton] at h
    rw [h, UInt8.toNat_ofNat', Nat.mod_eq_of_lt (by omega)]
  · intro h
    rw [utf8EncodeChar_of_lt (by omega), h]
    simp

/-- The bytes of every character of UTF-8 are bytes of the text. -/
theorem mem_of_mem_toList {bs : List UInt8} {s : String} (h : ofUtf8 bs = some s) {c : Char}
    (hc : c ∈ s.toList) {b : UInt8} (hb : b ∈ String.utf8EncodeChar c) : b ∈ bs := by
  rw [← ofUtf8_eq_some_iff.1 h, ← s.ofList_toList, encode_ofList]
  exact List.mem_flatMap.2 ⟨c, hc, hb⟩

theorem mem_of_mem_lossyChars {n : ℕ} {bs : List UInt8} {c : Char} (hc : c ∈ lossyChars n bs)
    (hne : c ≠ '\uFFFD') {b : UInt8} (hb : b ∈ String.utf8EncodeChar c) : b ∈ bs := by
  induction n, bs using lossyChars.induct with
  | case1 bs => simp [lossyChars] at hc
  | case2 n hn =>
    cases n with
    | zero => exact absurd rfl hn
    | succ n => simp [lossyChars] at hc
  | case3 n a bs w s hs hw ih =>
    rw [lossyChars, hs, hw] at hc
    rcases List.mem_append.1 hc with h | h
    · exact List.mem_of_mem_take (mem_of_mem_toList hs h hb)
    · exact .tail _ (List.mem_of_mem_drop (ih h))
  | case4 n a bs hnone ih =>
    have hc' : c ∈ '\uFFFD' :: lossyChars n ((a :: bs).drop (broken (a :: bs))) := by
      rw [lossyChars] at hc
      split at hc
      · rename_i w s hw hs
        exact absurd hs (hnone w s hw)
      · exact hc
    exact List.mem_of_mem_drop (ih ((List.mem_cons.1 hc').resolve_left hne))

/-- A character that does not stand for something else comes from its own bytes. -/
theorem mem_of_mem_decodeLossy {bs : List UInt8} {c : Char} (hc : c ∈ (decodeLossy bs).toList)
    (hne : c ≠ '\uFFFD') {b : UInt8} (hb : b ∈ String.utf8EncodeChar c) : b ∈ bs := by
  unfold decodeLossy at hc
  split at hc
  · rename_i s hs
    exact mem_of_mem_toList hs hc hb
  · exact mem_of_mem_lossyChars (by simpa using hc) hne hb

/-- The string of bytes below 128. -/
def ofAscii (bs : List UInt8) : String := .ofList (bs.map fun b => Char.ofNat b.toNat)

theorem toNat_ofNat_of_lt {n : ℕ} (h : n < 0x80) : (Char.ofNat n).toNat = n := by
  rw [Char.ofNat, dif_pos (.inl (by omega)), Char.toNat]
  rfl

theorem encode_ofAscii {bs : List UInt8} (h : ∀ b ∈ bs, b < 0x80) : encode (ofAscii bs) = bs := by
  rw [ofAscii, encode_ofList]
  induction bs with
  | nil => rfl
  | cons b bs ih =>
    have hb : b.toNat < 0x80 := UInt8.lt_iff_toNat_lt.1 (h b (by simp))
    rw [List.map_cons, List.flatMap_cons, ih fun b hb => h b (by simp [hb]),
      utf8EncodeChar_of_lt (by rwa [toNat_ofNat_of_lt hb]), toNat_ofNat_of_lt hb,
      UInt8.ofNat_toNat]
    rfl

theorem utf8Size_eq_one_iff {c : Char} : c.utf8Size = 1 ↔ c.toNat < 0x80 := by
  have hval : c.val ≤ UInt32.ofNatLT 127 (by decide) ↔ c.toNat < 0x80 := by
    rw [UInt32.le_iff_toNat_le, UInt32.toNat_ofNatLT]
    exact Nat.lt_succ_iff.symm
  rw [Char.utf8Size]
  split
  · rename_i h
    simpa using hval.1 h
  · rename_i h
    rw [hval] at h
    split
    · simpa using h
    · split <;> simpa using h

/-! ## Characters -/

/-- The Unicode property `White_Space`. -/
def isWhitespace (c : Char) : Bool :=
  (0x9 ≤ c.toNat && c.toNat ≤ 0xD) || (0x2000 ≤ c.toNat && c.toNat ≤ 0x200A) ||
    c.toNat ∈ [0x20, 0x85, 0xA0, 0x1680, 0x2028, 0x2029, 0x202F, 0x205F, 0x3000]

/-- `char::is_control`: the code points of the category Cc. -/
def isControl (c : Char) : Bool := c.toNat ≤ 0x1F || (0x7F ≤ c.toNat && c.toNat ≤ 0x9F)

/-- `str::to_ascii_lowercase`. -/
def toAsciiLowercase (s : String) : String := .ofList (s.toList.map Char.toLower)

/-- `str::split_once` at a character. -/
def splitOnce (c : Char) (s : String) : Option (String × String) :=
  if c ∈ s.toList then
    some (.ofList (s.toList.takeWhile (· ≠ c)), .ofList ((s.toList.dropWhile (· ≠ c)).drop 1))
  else none

theorem splitOnce_append {c : Char} {s : String} (h : c ∉ s.toList) (t : String) :
    splitOnce c (s ++ (String.singleton c ++ t)) = some (s, t) := by
  have hne : ∀ x ∈ s.toList, decide (x ≠ c) = true := by
    intro x hx
    simp only [decide_eq_true_eq]
    rintro rfl
    exact h hx
  have hlist : (s ++ (String.singleton c ++ t)).toList = s.toList ++ c :: t.toList := by simp
  rw [splitOnce, hlist, if_pos (by simp), List.takeWhile_append_of_pos hne,
    List.dropWhile_append_of_pos hne]
  simp

/-- `str::trim`: without whitespace at both ends. -/
def trim (s : String) : String :=
  .ofList ((s.toList.dropWhile isWhitespace).reverse.dropWhile isWhitespace).reverse

theorem trim_eq_self {s : String} (hhead : ∀ c ∈ s.toList.head?, isWhitespace c = false)
    (hlast : ∀ c ∈ s.toList.getLast?, isWhitespace c = false) : trim s = s := by
  have hdrop : ∀ l : List Char, (∀ c ∈ l.head?, isWhitespace c = false) →
      l.dropWhile isWhitespace = l := by
    rintro (_ | ⟨c, l⟩) hl
    · rfl
    · rw [List.dropWhile_cons_of_neg (by simp [hl c rfl])]
  rw [trim, hdrop _ hhead, hdrop _ (by rwa [List.head?_reverse])]
  simp

-- a program that trims a text which is not known yet would be evaluated at every unification
attribute [irreducible] trim

/-! ## Texts in texts -/

/-- A list without a separator is on one side of it. -/
theorem infix_append_cons {α : Type} {c : α} {l a b : List α} (hl : c ∉ l) (hne : l ≠ [])
    (h : l <:+: a ++ c :: b) : l <:+: a ∨ l <:+: b := by
  obtain ⟨x, y, h⟩ := h
  rw [List.append_assoc, List.append_eq_append_iff] at h
  obtain ⟨t, rfl, h⟩ | ⟨t, rfl, h⟩ := h
  · rw [List.append_eq_append_iff] at h
    obtain ⟨u, rfl, h⟩ | ⟨u, rfl, h⟩ := h
    · exact .inl ⟨x, u, by simp⟩
    · cases u with
      | nil => exact .inl ⟨x, [], by simp⟩
      | cons d u =>
        cases h
        exact absurd (List.mem_append_right _ List.mem_cons_self) hl
  · cases t with
    | nil =>
      obtain ⟨d, l, rfl⟩ := List.exists_cons_of_ne_nil hne
      cases h
      exact absurd List.mem_cons_self hl
    | cons d t =>
      cases h
      exact .inr ⟨t, y, by simp⟩

/-! ## Texts that are cut at a byte -/

/-- The first `n` bytes of a text, which have to end with a character. -/
def cutAt : List Char → Nat → Option (List Char)
  | _, 0 => some []
  | [], _ + 1 => none
  | c :: cs, n => if c.utf8Size ≤ n then (cutAt cs (n - c.utf8Size)).map (c :: ·) else none

/-- `&s[..n]` with a note on the whole length, for a text of more than `n` bytes; `none` is the
panic of a cut inside a character. -/
def truncate (note : Nat → String) (s : String) (n : Nat) : Option String :=
  if s.utf8ByteSize ≤ n then some s
  else (cutAt s.toList n).map fun cs => String.ofList cs ++ note s.utf8ByteSize

theorem utf8ByteSize_ofList_cons (c : Char) (cs : List Char) :
    (String.ofList (c :: cs)).utf8ByteSize = c.utf8Size + (String.ofList cs).utf8ByteSize := by
  rw [String.ofList_cons, String.utf8ByteSize_append, String.utf8ByteSize_singleton]

theorem cutAt_eq_some_iff {cs p : List Char} {n : Nat} :
    cutAt cs n = some p ↔ p <+: cs ∧ (String.ofList p).utf8ByteSize = n := by
  induction cs, n using cutAt.induct generalizing p with
  | case1 cs =>
    rw [cutAt, Option.some_inj]
    constructor
    · rintro rfl
      exact ⟨List.nil_prefix, rfl⟩
    · rintro ⟨-, hsize⟩
      cases p with
      | nil => rfl
      | cons c p =>
        have := c.utf8Size_pos
        rw [utf8ByteSize_ofList_cons] at hsize
        omega
  | case2 n =>
    refine ⟨fun h => by simp [cutAt] at h, ?_⟩
    rintro ⟨hp, hsize⟩
    rw [List.prefix_nil.1 hp] at hsize
    cases hsize
  | case3 c cs n hn hc ih =>
    rw [cutAt.eq_3 _ _ _ hn, if_pos hc, Option.map_eq_some_iff]
    constructor
    · rintro ⟨q, hq, rfl⟩
      obtain ⟨hpre, hsize⟩ := ih.1 hq
      refine ⟨List.cons_prefix_cons.2 ⟨rfl, hpre⟩, ?_⟩
      rw [utf8ByteSize_ofList_cons]
      omega
    · rintro ⟨hp, hsize⟩
      cases p with
      | nil => exact absurd hsize.symm hn
      | cons d p =>
        obtain ⟨rfl, hpre⟩ := List.cons_prefix_cons.1 hp
        rw [utf8ByteSize_ofList_cons] at hsize
        exact ⟨p, ih.2 ⟨hpre, by omega⟩, rfl⟩
  | case4 c cs n hn hc =>
    rw [cutAt.eq_3 _ _ _ hn, if_neg hc]
    refine ⟨fun h => by simp at h, ?_⟩
    rintro ⟨hp, hsize⟩
    cases p with
    | nil => exact absurd hsize.symm hn
    | cons d p =>
      obtain ⟨rfl, -⟩ := List.cons_prefix_cons.1 hp
      rw [utf8ByteSize_ofList_cons] at hsize
      omega

/-- A text that is short enough, or has a character that ends at the byte `n`. -/
def Cuts (n : Nat) (s : String) : Prop :=
  s.utf8ByteSize ≤ n ∨ ∃ p rest, s = p ++ rest ∧ p.utf8ByteSize = n

theorem truncate_eq_some_iff {note : Nat → String} {s t : String} {n : Nat} :
    truncate note s n = some t ↔ s.utf8ByteSize ≤ n ∧ t = s ∨
      n < s.utf8ByteSize ∧ ∃ p rest, s = p ++ rest ∧ p.utf8ByteSize = n ∧
        t = p ++ note s.utf8ByteSize := by
  unfold truncate
  split
  · rename_i h
    simp [h, Nat.not_lt.2 h, eq_comm]
  · rename_i h
    simp only [Option.map_eq_some_iff, cutAt_eq_some_iff, h, false_and, false_or,
      Nat.lt_of_not_le h, true_and]
    constructor
    · rintro ⟨p, ⟨⟨rest, hrest⟩, hsize⟩, rfl⟩
      exact ⟨.ofList p, .ofList rest, by rw [← String.ofList_append, hrest, String.ofList_toList],
        hsize, rfl⟩
    · rintro ⟨p, rest, rfl, hsize, rfl⟩
      refine ⟨p.toList, ⟨⟨rest.toList, by rw [String.toList_append]⟩, ?_⟩, ?_⟩
      · rwa [String.ofList_toList]
      · rw [String.ofList_toList]

theorem truncate_ne_none_iff {note : Nat → String} {s : String} {n : Nat} :
    truncate note s n ≠ none ↔ Cuts n s := by
  rw [Option.ne_none_iff_exists']
  simp only [truncate_eq_some_iff, Cuts]
  constructor
  · rintro ⟨t, ⟨h, -⟩ | ⟨-, p, rest, hs, hsize, -⟩⟩
    · exact .inl h
    · exact .inr ⟨p, rest, hs, hsize⟩
  · intro h
    by_cases hlen : s.utf8ByteSize ≤ n
    · exact ⟨s, .inl ⟨hlen, rfl⟩⟩
    · obtain ⟨p, rest, hs, hsize⟩ := h.resolve_left hlen
      exact ⟨_, .inr ⟨Nat.lt_of_not_le hlen, p, rest, hs, hsize, rfl⟩⟩

theorem cutAt_append (p cs : List Char) (n : Nat) :
    cutAt (p ++ cs) ((String.ofList p).utf8ByteSize + n) = (cutAt cs n).map (p ++ ·) := by
  induction p with
  | nil => simp
  | cons c p ih =>
    have hc := c.utf8Size_pos
    rw [utf8ByteSize_ofList_cons, Nat.add_assoc, List.cons_append,
      cutAt.eq_3 _ _ _ (by omega), if_pos (Nat.le_add_right _ _), Nat.add_sub_cancel_left, ih,
      Option.map_map]
    rfl

/-- A last character is cut between its bytes. -/
theorem not_cuts_concat {p : List Char} {c : Char} {n : Nat}
    (h : (String.ofList p).utf8ByteSize < n)
    (h' : n < (String.ofList p).utf8ByteSize + c.utf8Size) : ¬ Cuts n (.ofList (p ++ [c])) := by
  obtain ⟨k, rfl⟩ := Nat.exists_eq_add_of_lt h
  rw [← @truncate_ne_none_iff fun _ => "", not_not, truncate, if_neg, String.toList_ofList,
    Nat.add_assoc, cutAt_append, cutAt.eq_3 _ _ _ (by simp), if_neg (by omega)]
  · rfl
  · rw [String.ofList_append, String.utf8ByteSize_append, utf8ByteSize_ofList_cons]
    omega

/-! ### The boundaries of characters -/

theorem length_encode (s : String) : (encode s).length = s.utf8ByteSize := rfl

theorem isContinuation_ofNat {n : ℕ} (h : 0x80 ≤ n) (h' : n < 0xC0) :
    isContinuation (UInt8.ofNat n) = true := by
  have hn : (UInt8.ofNat n).toNat = n := by rw [UInt8.toNat_ofNat', Nat.mod_eq_of_lt (by omega)]
  simp only [isContinuation, Bool.and_eq_true, decide_eq_true_eq, UInt8.le_iff_toNat_le,
    UInt8.lt_iff_toNat_lt, hn]
  exact ⟨h, h'⟩

/-- The bytes of a character behind its first one. -/
theorem isContinuation_of_mem_tail {c : Char} {b : UInt8}
    (h : b ∈ (String.utf8EncodeChar c).tail) : isContinuation b = true := by
  unfold String.utf8EncodeChar at h
  simp only at h
  split_ifs at h
  · cases h
  · obtain rfl : b = _ := by simpa only [List.tail_cons, List.mem_singleton] using h
    exact isContinuation_ofNat (by omega) (by omega)
  · obtain rfl | rfl : b = _ ∨ b = _ := by
      simpa only [List.tail_cons, List.mem_cons, List.not_mem_nil, or_false] using h
    all_goals exact isContinuation_ofNat (by omega) (by omega)
  · obtain rfl | rfl | rfl : b = _ ∨ b = _ ∨ b = _ := by
      simpa only [List.tail_cons, List.mem_cons, List.not_mem_nil, or_false] using h
    all_goals exact isContinuation_ofNat (by omega) (by omega)

theorem isContinuation_of_lt {b : UInt8} (h : b < 0x80) : isContinuation b = false := by
  have hb : ¬ (0x80 : UInt8) ≤ b := UInt8.not_le.2 h
  rw [isContinuation, decide_eq_false hb, Bool.false_and]

theorem ofNat_lt_of_utf8Size {c : Char} (hc : c.utf8Size = 1) : UInt8.ofNat c.toNat < 0x80 := by
  have hlt := utf8Size_eq_one_iff.1 hc
  rw [UInt8.lt_iff_toNat_lt, UInt8.toNat_ofNat', Nat.mod_eq_of_lt (by omega)]
  exact hlt

theorem encode_ofList_cons (c : Char) (cs : List Char) :
    encode (.ofList (c :: cs)) = String.utf8EncodeChar c ++ encode (.ofList cs) := by
  rw [encode_ofList, encode_ofList, List.flatMap_cons]

/-- The boundaries of characters are where the text can be cut. -/
theorem isCharBoundary_encode_iff {cs : List Char} {i : ℕ} :
    isCharBoundary (encode (.ofList cs)) i = true ↔
      ∃ p r, cs = p ++ r ∧ (String.ofList p).utf8ByteSize = i := by
  constructor
  · intro h
    induction cs generalizing i with
    | nil =>
      refine ⟨[], [], rfl, ?_⟩
      have hnil : encode (.ofList []) = [] := rfl
      rw [hnil] at h
      simpa [isCharBoundary, eq_comm] using h
    | cons c cs ih =>
      by_cases hzero : i = 0
      · exact ⟨[], c :: cs, rfl, hzero.symm⟩
      rw [encode_ofList_cons] at h
      have hlen : (String.utf8EncodeChar c).length = c.utf8Size := String.length_utf8EncodeChar c
      by_cases hlt : i < c.utf8Size
      · -- the byte goes on with the first character
        obtain ⟨b, hb⟩ : ∃ b, (String.utf8EncodeChar c)[i]? = some b :=
          ⟨_, List.getElem?_eq_getElem (by omega)⟩
        have htail : b ∈ (String.utf8EncodeChar c).tail := by
          rw [List.mem_iff_getElem?]
          refine ⟨i - 1, ?_⟩
          rw [List.getElem?_tail, Nat.sub_add_cancel (by omega), hb]
        rw [isCharBoundary, List.getElem?_append_left (by omega), hb] at h
        simp [isContinuation_of_mem_tail htail] at h
      · obtain ⟨j, rfl⟩ := Nat.exists_eq_add_of_le (Nat.le_of_not_lt hlt)
        have hj : isCharBoundary (encode (.ofList cs)) j = true := by
          rw [isCharBoundary, List.getElem?_append_right (by omega), hlen,
            Nat.add_sub_cancel_left, List.length_append, hlen] at h
          rw [isCharBoundary]
          split at h
          · simpa using h
          · exact h
        obtain ⟨p, r, rfl, hp⟩ := ih hj
        exact ⟨c :: p, r, rfl, by rw [utf8ByteSize_ofList_cons, hp]⟩
  · rintro ⟨p, r, rfl, rfl⟩
    have hhead := (isChain_encode (.ofList r)).1
    rw [String.ofList_append, encode_append, isCharBoundary, ← length_encode,
      List.getElem?_append_right le_rfl, Nat.sub_self, List.length_append]
    cases hr : (encode (.ofList r))[0]? with
    | none =>
      rw [List.getElem?_eq_none_iff, Nat.le_zero] at hr
      simp [hr]
    | some b =>
      simp [hhead b (by rwa [List.head?_eq_getElem?])]

/-- A text of characters of one byte begins the bytes of another text. -/
theorem prefix_of_prefix_encode {ks cs : List Char} (hk : ∀ c ∈ ks, c.utf8Size = 1)
    (h : encode (.ofList ks) <+: encode (.ofList cs)) : ks <+: cs := by
  induction ks generalizing cs with
  | nil => exact List.nil_prefix
  | cons k ks ih =>
    obtain ⟨hone, hrest⟩ := List.forall_mem_cons.1 hk
    have hlt := utf8Size_eq_one_iff.1 hone
    rw [encode_ofList_cons, utf8EncodeChar_of_lt hlt] at h
    cases cs with
    | nil => exact absurd (List.prefix_nil.1 h) (List.cons_ne_nil _ _)
    | cons c cs =>
      rw [encode_ofList_cons] at h
      obtain ⟨b, bs, hc⟩ := List.exists_cons_of_ne_nil (@String.utf8EncodeChar_ne_nil c)
      rw [hc, List.singleton_append, List.cons_append, List.cons_prefix_cons] at h
      obtain ⟨rfl, h⟩ := h
      have hmem : UInt8.ofNat k.toNat ∈ String.utf8EncodeChar c := by simp [hc]
      have heq : c = k := by
        have := (mem_utf8EncodeChar_of_lt (ofNat_lt_of_utf8Size hone)).1 hmem
        rw [UInt8.toNat_ofNat', Nat.mod_eq_of_lt (by omega)] at this
        exact Char.toNat_inj.1 this
      subst heq
      rw [utf8EncodeChar_of_lt hlt, List.cons.injEq] at hc
      obtain ⟨-, rfl⟩ := hc
      exact List.cons_prefix_cons.2 ⟨rfl, ih hrest h⟩

/-- The places of a text of characters of one byte in the bytes of another text. -/
theorem prefix_drop_encode_iff {ks cs : List Char} (hk : ∀ c ∈ ks, c.utf8Size = 1) (hne : ks ≠ [])
    {i : ℕ} : encode (.ofList ks) <+: (encode (.ofList cs)).drop i ↔
      ∃ p r, cs = p ++ ks ++ r ∧ (String.ofList p).utf8ByteSize = i := by
  constructor
  · intro h
    have hboundary : isCharBoundary (encode (.ofList cs)) i = true := by
      obtain ⟨k, ks', rfl⟩ := List.exists_cons_of_ne_nil hne
      have hone := hk k List.mem_cons_self
      obtain ⟨t, ht⟩ := h
      rw [encode_ofList_cons, utf8EncodeChar_of_lt (utf8Size_eq_one_iff.1 hone)] at ht
      have hget : (encode (.ofList cs))[i]? = some (UInt8.ofNat k.toNat) := by
        rw [← Nat.add_zero i, ← List.getElem?_drop, ← ht]
        rfl
      rw [isCharBoundary, hget]
      simp only [isContinuation_of_lt (ofNat_lt_of_utf8Size hone), Bool.not_false]
    obtain ⟨p, r, rfl, rfl⟩ := isCharBoundary_encode_iff.1 hboundary
    rw [String.ofList_append, encode_append, ← length_encode, List.drop_left] at h
    obtain ⟨r, rfl⟩ := prefix_of_prefix_encode hk h
    exact ⟨p, r, by rw [List.append_assoc], rfl⟩
  · rintro ⟨p, r, rfl, rfl⟩
    rw [String.ofList_append, String.ofList_append, encode_append, encode_append, ← length_encode,
      List.append_assoc, List.drop_left]
    exact List.prefix_append _ _

/-! ### Characters of one width -/

theorem utf8ByteSize_of_width {w : Nat} {cs : List Char} (h : ∀ c ∈ cs, c.utf8Size = w) :
    (String.ofList cs).utf8ByteSize = cs.length * w := by
  induction cs with
  | nil => simp
  | cons c cs ih =>
    rw [List.forall_mem_cons] at h
    rw [utf8ByteSize_ofList_cons, ih h.2, h.1, List.length_cons, Nat.add_mul, Nat.one_mul,
      Nat.add_comm]

theorem utf8ByteSize_ofList_replicate (n : Nat) (c : Char) :
    (String.ofList (List.replicate n c)).utf8ByteSize = n * c.utf8Size := by
  rw [utf8ByteSize_of_width fun d hd => by rw [List.eq_of_mem_replicate hd],
    List.length_replicate]

end Text
