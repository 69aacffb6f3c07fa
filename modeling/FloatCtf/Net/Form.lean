import Mathlib.Data.List.Basic

/-!
# The form encoding of name and value pairs

`application/x-www-form-urlencoded` as the URL standard defines it, on bytes: `serialize` writes the
bytes of a name or a value, `appendPair` adds a pair to a query, and `parse` reads the pairs of a
query.

`parse_appendPair` says that a pair that is appended is read back, after the pairs that were
there. -/

namespace Form

/-- A text as bytes. -/
abbrev Bytes := List UInt8

/-! ## Serializing -/

/-- The bytes that stand for themselves: letters, digits, `*`, `-`, `.` and `_`. -/
def isPlain (b : UInt8) : Bool :=
  (0x30 ≤ b && b ≤ 0x39) || (0x41 ≤ b && b ≤ 0x5A) || (0x61 ≤ b && b ≤ 0x7A) ||
    b == 0x2A || b == 0x2D || b == 0x2E || b == 0x5F

/-- An upper-case hexadecimal digit. -/
def hexDigit (n : UInt8) : UInt8 := if n < 10 then 0x30 + n else 0x37 + n

/-- A byte of a form: a plus for a blank, a plain byte as it is, any other as a percent escape. -/
def serializeByte (b : UInt8) : Bytes :=
  if b == 0x20 then [0x2B]
  else if isPlain b then [b]
  else [0x25, hexDigit (b / 16), hexDigit (b % 16)]

/-- The bytes of a value, each in its form. -/
def serialize (bs : Bytes) : Bytes := bs.flatMap serializeByte

/-- A name and a value with the equality sign between them. -/
def serializePair (p : Bytes × Bytes) : Bytes := serialize p.1 ++ 0x3D :: serialize p.2

/-- A pair is separated from what stands before it. -/
def appendPair (query : Bytes) (p : Bytes × Bytes) : Bytes :=
  if query.isEmpty then serializePair p else query ++ 0x26 :: serializePair p

/-! ## Parsing -/

/-- The value of a hexadecimal digit of either case. -/
def hexValue (b : UInt8) : Option UInt8 :=
  if 0x30 ≤ b ∧ b ≤ 0x39 then some (b - 0x30)
  else if 0x41 ≤ b ∧ b ≤ 0x46 then some (b - 0x37)
  else if 0x61 ≤ b ∧ b ≤ 0x66 then some (b - 0x57)
  else none

/-- A `%` that two hexadecimal digits do not follow stands for itself. -/
def percentDecode : Bytes → Bytes
  | [] => []
  | [a] => [a]
  | [a, b] => [a, b]
  | a :: b :: c :: rest =>
    if a = 0x25 then
      match hexValue b, hexValue c with
      | some h, some l => (h * 16 + l) :: percentDecode rest
      | _, _ => a :: percentDecode (b :: c :: rest)
    else a :: percentDecode (b :: c :: rest)

/-- A plus stands for a blank. -/
def plusToSpace (bs : Bytes) : Bytes := bs.map fun b => if b = 0x2B then 0x20 else b

/-- Reads a name or a value back. -/
def decode (bs : Bytes) : Bytes := percentDecode (plusToSpace bs)

/-- The name ends at the first `=`. -/
def parsePair (piece : Bytes) : Bytes × Bytes :=
  (decode (piece.takeWhile (· ≠ 0x3D)), decode ((piece.dropWhile (· ≠ 0x3D)).drop 1))

/-- The pairs of a query; empty parts are passed over. -/
def parse (query : Bytes) : List (Bytes × Bytes) :=
  ((query.splitOn 0x26).filter fun p => !p.isEmpty).map parsePair

/-! ## What is written is read back -/

theorem percentDecode_cons {b : UInt8} (h : b ≠ 0x25) (rest : Bytes) :
    percentDecode (b :: rest) = b :: percentDecode rest := by
  match rest with
  | [] => rfl
  | [_] => rfl
  | _ :: _ :: _ => rw [percentDecode, if_neg h]

theorem percentDecode_escape (h l : UInt8) {a b : UInt8} (ha : hexValue h = some a)
    (hb : hexValue l = some b) (rest : Bytes) :
    percentDecode (0x25 :: h :: l :: rest) = (a * 16 + b) :: percentDecode rest := by
  rw [percentDecode, if_pos rfl, ha, hb]

/-- The bytes that separate pairs, names from values, and the query from the fragment. -/
def separators : Bytes := [0x26, 0x3D, 0x23]

theorem hexDigit_spec : ∀ n : Fin 16, hexValue (hexDigit (UInt8.ofNat n)) = some (UInt8.ofNat n) ∧
    hexDigit (UInt8.ofNat n) ≠ 0x2B ∧ hexDigit (UInt8.ofNat n) ∉ separators ∧
    hexDigit (UInt8.ofNat n) < 0x80 ∧ hexDigit (UInt8.ofNat n) ≠ 0x3A := by
  decide +kernel

theorem exists_nibbles (b : UInt8) : ∃ m n : Fin 16,
    b / 16 = UInt8.ofNat m ∧ b % 16 = UInt8.ofNat n ∧ UInt8.ofNat m * 16 + UInt8.ofNat n = b := by
  have hb := b.toNat_lt
  refine ⟨⟨b.toNat / 16, by omega⟩, ⟨b.toNat % 16, by omega⟩, ?_, ?_, ?_⟩
  · apply UInt8.toNat_inj.1
    simp only [UInt8.toNat_div, UInt8.toNat_ofNat', UInt8.reduceToNat]
    omega
  · apply UInt8.toNat_inj.1
    simp only [UInt8.toNat_mod, UInt8.toNat_ofNat', UInt8.reduceToNat]
    omega
  · apply UInt8.toNat_inj.1
    simp only [UInt8.toNat_add, UInt8.toNat_mul, UInt8.toNat_ofNat', UInt8.reduceToNat]
    omega

theorem isPlain_spec {b : UInt8} (h : isPlain b = true) :
    b ≠ 0x2B ∧ b ≠ 0x25 ∧ b ∉ separators ∧ b < 0x80 ∧ b ≠ 0x3A := by
  simp only [isPlain, Bool.or_eq_true, Bool.and_eq_true, decide_eq_true_eq, beq_iff_eq,
    UInt8.le_iff_toNat_le, ← UInt8.toNat_inj, UInt8.reduceToNat] at h
  simp only [separators, List.mem_cons, List.not_mem_nil, or_false, ne_eq, ← UInt8.toNat_inj,
    UInt8.lt_iff_toNat_lt, UInt8.reduceToNat]
  omega

theorem serializeByte_cases (b : UInt8) :
    (b = 0x20 ∧ serializeByte b = [0x2B]) ∨
    (b ≠ 0x2B ∧ b ≠ 0x25 ∧ b ∉ separators ∧ serializeByte b = [b]) ∨
    ∃ h l x y, serializeByte b = [0x25, h, l] ∧ hexValue h = some x ∧ hexValue l = some y ∧
      x * 16 + y = b ∧ h ≠ 0x2B ∧ l ≠ 0x2B ∧ h ∉ separators ∧ l ∉ separators := by
  unfold serializeByte
  split_ifs with hspace hplain
  · exact .inl ⟨eq_of_beq hspace, rfl⟩
  · obtain ⟨hplus, hpct, hsep, -⟩ := isPlain_spec hplain
    exact .inr (.inl ⟨hplus, hpct, hsep, rfl⟩)
  · obtain ⟨m, n, hm, hn, hb⟩ := exists_nibbles b
    obtain ⟨hm', hmplus, hmsep, -⟩ := hexDigit_spec m
    obtain ⟨hn', hnplus, hnsep, -⟩ := hexDigit_spec n
    exact .inr (.inr ⟨_, _, _, _, rfl, hm ▸ hm', hn ▸ hn', hb, hm ▸ hmplus, hn ▸ hnplus,
      hm ▸ hmsep, hn ▸ hnsep⟩)

theorem decode_serialize (bs : Bytes) : decode (serialize bs) = bs := by
  induction bs with
  | nil => rfl
  | cons b bs ih =>
    have happ : decode (serialize (b :: bs)) =
        percentDecode (plusToSpace (serializeByte b) ++ plusToSpace (serialize bs)) := by
      simp [decode, serialize, plusToSpace]
    rw [happ]
    rcases serializeByte_cases b with ⟨rfl, hs⟩ | ⟨hplus, hpct, -, hs⟩ |
      ⟨h, l, x, y, hs, hx, hy, hxy, hh, hl, -⟩
    · rw [hs]
      exact (percentDecode_cons (by decide) _).trans (congrArg _ ih)
    · rw [hs]
      simp only [plusToSpace, List.map_cons, if_neg hplus, List.map_nil, List.singleton_append]
      exact (percentDecode_cons hpct _).trans (congrArg _ ih)
    · rw [hs]
      simp only [plusToSpace, List.map_cons, if_neg hh, if_neg hl, List.map_nil, List.cons_append,
        List.nil_append]
      rw [if_neg (by decide), percentDecode_escape h l hx hy, hxy]
      exact congrArg _ ih

/-- The separators do not occur in what the serializer writes. -/
theorem not_mem_serialize {sep : UInt8} (hsep : sep ∈ separators) (bs : Bytes) :
    sep ∉ serialize bs := by
  have hne : ∀ b ∉ separators, sep ≠ b := fun b hb h => hb (h ▸ hsep)
  have hpct : sep ≠ 0x25 := hne 0x25 (by decide)
  have hplus : sep ≠ 0x2B := hne 0x2B (by decide)
  induction bs with
  | nil => exact List.not_mem_nil
  | cons b bs ih =>
    simp only [serialize, List.flatMap_cons, List.mem_append, not_or]
    refine ⟨?_, ih⟩
    rcases serializeByte_cases b with ⟨-, hs⟩ | ⟨-, -, hb, hs⟩ |
      ⟨h, l, x, y, hs, -, -, -, -, -, hh, hl⟩
    · simp [hs, hplus]
    · simp [hs, hne b hb]
    · simp [hs, hpct, hne h hh, hne l hl]

/-- What the serializer writes is ASCII, without a colon. -/
theorem lt_of_mem_serialize {bs : Bytes} {b : UInt8} (h : b ∈ serialize bs) :
    b < 0x80 ∧ b ≠ 0x3A := by
  obtain ⟨a, -, hb⟩ := List.mem_flatMap.1 h
  unfold serializeByte at hb
  split_ifs at hb with hspace hplain
  · rw [List.mem_singleton.1 hb]
    decide
  · rw [List.mem_singleton.1 hb]
    exact (isPlain_spec hplain).2.2.2
  · obtain ⟨m, n, hm, hn, -⟩ := exists_nibbles a
    rw [hm, hn] at hb
    simp only [List.mem_cons, List.not_mem_nil, or_false] at hb
    obtain rfl | rfl | rfl := hb
    · decide
    · exact (hexDigit_spec m).2.2.2
    · exact (hexDigit_spec n).2.2.2

theorem parsePair_serializePair (p : Bytes × Bytes) : parsePair (serializePair p) = p := by
  have hname : ∀ b ∈ serialize p.1, decide (b ≠ 0x3D) = true := by
    intro b hb
    simp only [decide_eq_true_eq]
    rintro rfl
    exact not_mem_serialize (by decide) p.1 hb
  rw [parsePair, serializePair, List.takeWhile_append_of_pos hname,
    List.dropWhile_append_of_pos hname]
  simp [decode_serialize]

theorem parse_serializePair (p : Bytes × Bytes) : parse (serializePair p) = [p] := by
  have hser (bs : Bytes) : (0x26 : UInt8) ∉ serialize bs := not_mem_serialize (by decide) bs
  have hamp : (0x26 : UInt8) ∉ serializePair p := by simp [serializePair, hser]
  have hne : (serializePair p).isEmpty = false := by simp [serializePair]
  simp [parse, List.splitOn_eq_singleton hamp, hne, parsePair_serializePair]

theorem parse_append (query rest : Bytes) :
    parse (query ++ 0x26 :: rest) = parse query ++ parse rest := by
  rw [parse, List.splitOn_append_cons_self, List.filter_append, List.map_append]
  rfl

/-- A pair that is appended is read back, after the pairs that were there. -/
theorem parse_appendPair (query : Bytes) (p : Bytes × Bytes) :
    parse (appendPair query p) = parse query ++ [p] := by
  unfold appendPair
  split_ifs with h
  · rw [List.isEmpty_iff.1 h, parse_serializePair]
    rfl
  · rw [parse_append, parse_serializePair]

theorem parse_foldl_appendPair (ps : List (Bytes × Bytes)) (query : Bytes) :
    parse (ps.foldl appendPair query) = parse query ++ ps := by
  induction ps generalizing query with
  | nil => simp
  | cons p ps ih => simp [ih, parse_appendPair]

/-- Appended pairs bring no `#`. -/
theorem not_mem_foldl_appendPair (ps : List (Bytes × Bytes)) {query : Bytes}
    (h : (0x23 : UInt8) ∉ query) : (0x23 : UInt8) ∉ ps.foldl appendPair query := by
  induction ps generalizing query with
  | nil => exact h
  | cons p ps ih =>
    have hser (bs : Bytes) : (0x23 : UInt8) ∉ serialize bs := not_mem_serialize (by decide) bs
    refine ih ?_
    unfold appendPair
    split_ifs <;> simp [serializePair, hser, h]

/-! ## Decoding that refuses a bad escape -/

/-- Every `%` is followed by two hexadecimal digits. -/
def Escaped (bs : Bytes) : Prop :=
  ∀ i, bs[i]? = some (0x25 : UInt8) → ∃ h l, bs[i + 1]? = some h ∧ bs[i + 2]? = some l ∧
    (hexValue h).isSome ∧ (hexValue l).isSome

/-- `percentDecode` where a bad escape is refused. -/
def unescape : Bytes → Option Bytes
  | [] => some []
  | a :: rest =>
    if a = 0x25 then
      match rest with
      | h :: l :: rest =>
        match hexValue h, hexValue l with
        | some x, some y => (unescape rest).map ((x * 16 + y) :: ·)
        | _, _ => none
      | _ => none
    else (unescape rest).map (a :: ·)

theorem unescape_cons {b : UInt8} (h : b ≠ 0x25) (rest : Bytes) :
    unescape (b :: rest) = (unescape rest).map (b :: ·) := by
  rw [unescape.eq_def]
  exact if_neg h

theorem Escaped.tail {a : UInt8} {bs : Bytes} (h : Escaped (a :: bs)) : Escaped bs :=
  fun i hi => h (i + 1) hi

theorem escaped_cons {a : UInt8} {bs : Bytes} (ha : a ≠ 0x25) :
    Escaped (a :: bs) ↔ Escaped bs := by
  refine ⟨Escaped.tail, fun h i hi => ?_⟩
  cases i with
  | zero => exact absurd (Option.some.inj hi) ha
  | succ i => exact h i hi

/-- An escape is not read as the beginning of another. -/
theorem escaped_escape {h l : UInt8} {bs : Bytes} (hh : (hexValue h).isSome)
    (hl : (hexValue l).isSome) : Escaped (0x25 :: h :: l :: bs) ↔ Escaped bs := by
  have hne : ∀ b, (hexValue b).isSome → b ≠ 0x25 := by
    rintro b hb rfl
    exact absurd hb (by decide)
  have htail : Escaped (h :: l :: bs) ↔ Escaped bs :=
    (escaped_cons (hne h hh)).trans (escaped_cons (hne l hl))
  refine ⟨fun he => htail.1 he.tail, fun he i hi => ?_⟩
  cases i with
  | zero => exact ⟨h, l, rfl, rfl, hh, hl⟩
  | succ i => exact htail.2 he i hi

theorem escaped_serialize (bs : Bytes) : Escaped (serialize bs) := by
  induction bs with
  | nil => exact fun i hi => by simp [serialize] at hi
  | cons b bs ih =>
    rw [serialize, List.flatMap_cons]
    rcases serializeByte_cases b with ⟨-, hs⟩ | ⟨-, hpct, -, hs⟩ | ⟨h, l, x, y, hs, hx, hy, -⟩
    · rw [hs]
      exact (escaped_cons (by decide)).2 ih
    · rw [hs]
      exact (escaped_cons hpct).2 ih
    · rw [hs]
      exact (escaped_escape (by simp [hx]) (by simp [hy])).2 ih

theorem hexValue_plus {b : UInt8} : (hexValue (if b = 0x2B then 0x20 else b)).isSome ↔
    (hexValue b).isSome := by
  split_ifs with h
  · rw [h]
    decide
  · rfl

/-- Spaces for `+` leave the escapes as they are. -/
theorem escaped_plusToSpace {bs : Bytes} : Escaped (plusToSpace bs) ↔ Escaped bs := by
  have hget : ∀ i : Nat, (plusToSpace bs)[i]? =
      (bs[i]?).map fun b => if b = 0x2B then 0x20 else b := fun i => List.getElem?_map
  have hpct : ∀ i : Nat, (plusToSpace bs)[i]? = some 0x25 ↔ bs[i]? = some 0x25 := by
    intro i
    rw [hget]
    cases bs[i]? with
    | none => simp
    | some b =>
      by_cases hb : b = 0x2B
      · simp [hb]
      · simp [hb]
  constructor
  · intro he i hi
    obtain ⟨h, l, hh, hl, hh', hl'⟩ := he i ((hpct i).2 hi)
    rw [hget] at hh hl
    obtain ⟨h, hbh, rfl⟩ := Option.map_eq_some_iff.1 hh
    obtain ⟨l, hbl, rfl⟩ := Option.map_eq_some_iff.1 hl
    exact ⟨h, l, hbh, hbl, hexValue_plus.1 hh', hexValue_plus.1 hl'⟩
  · intro he i hi
    obtain ⟨h, l, hh, hl, hh', hl'⟩ := he i ((hpct i).1 hi)
    exact ⟨_, _, by rw [hget, hh]; rfl, by rw [hget, hl]; rfl, hexValue_plus.2 hh',
      hexValue_plus.2 hl'⟩

theorem unescape_eq_some_iff {bs out : Bytes} :
    unescape bs = some out ↔ Escaped bs ∧ percentDecode bs = out := by
  fun_induction unescape bs generalizing out with
  | case1 =>
    have hnil : Escaped [] := fun i hi => by simp at hi
    simp [hnil, percentDecode]
  | case2 h l rest x y hl hh ih =>
    rw [escaped_escape (by simp [hh]) (by simp [hl]), percentDecode_escape h l hh hl]
    constructor
    · intro hm
      obtain ⟨r, hr, rfl⟩ := Option.map_eq_some_iff.1 hm
      obtain ⟨he, rfl⟩ := ih.1 hr
      exact ⟨he, rfl⟩
    · rintro ⟨he, rfl⟩
      rw [ih.2 ⟨he, rfl⟩]
      rfl
  | case3 h l rest hno =>
    refine iff_of_false nofun fun ⟨he, _⟩ => ?_
    obtain ⟨h', l', hh', hl', hh, hl⟩ := he 0 rfl
    cases hh'
    cases hl'
    obtain ⟨x, hx⟩ := Option.isSome_iff_exists.1 hh
    obtain ⟨y, hy⟩ := Option.isSome_iff_exists.1 hl
    exact hno x y hx hy
  | case4 rest hno =>
    refine iff_of_false nofun fun ⟨he, _⟩ => ?_
    obtain ⟨h, l, hh, hl, -⟩ := he 0 rfl
    match rest with
    | [] => simp at hh
    | [_] => simp at hl
    | h :: l :: rest => exact hno h l rest rfl
  | case5 a rest ha ih =>
    rw [escaped_cons ha, percentDecode_cons ha]
    constructor
    · intro hm
      obtain ⟨r, hr, rfl⟩ := Option.map_eq_some_iff.1 hm
      obtain ⟨he, rfl⟩ := ih.1 hr
      exact ⟨he, rfl⟩
    · rintro ⟨he, rfl⟩
      rw [ih.2 ⟨he, rfl⟩]
      rfl

end Form
