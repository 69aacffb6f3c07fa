import Mathlib.Data.List.Basic
import Mathlib.Tactic

/-!
# Base64

The standard alphabet with padding, on bytes.  Decoding refuses a text whose length is not a
multiple of four, padding before the end, and bits that the encoder leaves zero.
-/

namespace Base64

/-! ## Symbols -/

/-- The 64 symbols of the standard alphabet. -/
def alphabet : List Char :=
  "ABCDEFGHIJKLMNOPQRSTUVWXYZabcdefghijklmnopqrstuvwxyz0123456789+/".toList

/-- The symbol of six bits. -/
def symbol (n : ℕ) : Char := alphabet.getD n 'A'

/-- The six bits of a symbol. -/
def value (c : Char) : Option ℕ := if c ∈ alphabet then some (alphabet.idxOf c) else none

theorem alphabet_spec :
    alphabet.length = 64 ∧ alphabet.Nodup ∧ '=' ∉ alphabet ∧ 'A' ∈ alphabet := by
  decide +kernel

theorem symbol_mem (n : ℕ) : symbol n ∈ alphabet := by
  rw [symbol, List.getD_eq_getElem?_getD]
  cases hn : alphabet[n]? with
  | none => exact alphabet_spec.2.2.2
  | some c => exact List.mem_of_getElem? hn

theorem value_symbol {n : ℕ} (h : n < 64) : value (symbol n) = some n := by
  have hlen : n < alphabet.length := alphabet_spec.1.symm ▸ h
  have hget : symbol n = alphabet[n] := by
    rw [symbol, List.getD_eq_getElem?_getD, List.getElem?_eq_getElem hlen, Option.getD_some]
  rw [value, if_pos (symbol_mem n), hget, alphabet_spec.2.1.idxOf_getElem]

theorem symbol_ne_pad (n : ℕ) : symbol n ≠ '=' := by
  intro h
  exact alphabet_spec.2.2.1 (h ▸ symbol_mem n)

/-! ## Encoding and decoding -/

/-- Standard base64 with padding, three bytes at a time. -/
def encode : List UInt8 → List Char
  | [] => []
  | [a] => [symbol (a.toNat / 4), symbol (a.toNat % 4 * 16), '=', '=']
  | [a, b] =>
    [symbol (a.toNat / 4), symbol (a.toNat % 4 * 16 + b.toNat / 16), symbol (b.toNat % 16 * 4), '=']
  | a :: b :: c :: rest =>
    symbol (a.toNat / 4) :: symbol (a.toNat % 4 * 16 + b.toNat / 16) ::
      symbol (b.toNat % 16 * 4 + c.toNat / 64) :: symbol (c.toNat % 64) :: encode rest

/-- The bytes of the last group, which may be padded. -/
def decodeLast (p q r s : Char) : Option (List UInt8) := do
  let x ← value p
  let y ← value q
  if r = '=' ∧ s = '=' then
    if y % 16 = 0 then return [UInt8.ofNat (x * 4 + y / 16)] else none
  else
    let z ← value r
    if s = '=' then
      if z % 4 = 0 then return [UInt8.ofNat (x * 4 + y / 16), UInt8.ofNat (y % 16 * 16 + z / 4)]
      else none
    else
      let w ← value s
      return [UInt8.ofNat (x * 4 + y / 16), UInt8.ofNat (y % 16 * 16 + z / 4),
        UInt8.ofNat (z % 4 * 64 + w)]

/-- The bytes of a padded text, four symbols at a time. -/
def decode : List Char → Option (List UInt8)
  | [] => some []
  | p :: q :: r :: s :: rest =>
    if rest = [] then decodeLast p q r s
    else do
      let group ← decodeLast p q r s
      if s = '=' then none else (decode rest).map (group ++ ·)
  | _ => none

/-! ## What is written is read back -/

theorem decodeLast_one (a : UInt8) :
    decodeLast (symbol (a.toNat / 4)) (symbol (a.toNat % 4 * 16)) '=' '=' = some [a] := by
  have ha := a.toNat_lt
  rw [decodeLast, value_symbol (by omega), value_symbol (by omega)]
  simp only [Option.bind_eq_bind, Option.bind_some, and_self, if_true]
  rw [if_pos (by omega), show a.toNat / 4 * 4 + a.toNat % 4 * 16 / 16 = a.toNat by omega,
    UInt8.ofNat_toNat]
  rfl

theorem decodeLast_two (a b : UInt8) :
    decodeLast (symbol (a.toNat / 4)) (symbol (a.toNat % 4 * 16 + b.toNat / 16))
      (symbol (b.toNat % 16 * 4)) '=' = some [a, b] := by
  have ha := a.toNat_lt
  have hb := b.toNat_lt
  rw [decodeLast, value_symbol (by omega), value_symbol (by omega), value_symbol (by omega)]
  simp only [Option.bind_eq_bind, Option.bind_some, symbol_ne_pad, false_and, if_false, if_true]
  rw [if_pos (by omega),
    show a.toNat / 4 * 4 + (a.toNat % 4 * 16 + b.toNat / 16) / 16 = a.toNat by omega,
    show (a.toNat % 4 * 16 + b.toNat / 16) % 16 * 16 + b.toNat % 16 * 4 / 4 = b.toNat by omega,
    UInt8.ofNat_toNat, UInt8.ofNat_toNat]
  rfl

theorem decodeLast_three (a b c : UInt8) :
    decodeLast (symbol (a.toNat / 4)) (symbol (a.toNat % 4 * 16 + b.toNat / 16))
      (symbol (b.toNat % 16 * 4 + c.toNat / 64)) (symbol (c.toNat % 64)) = some [a, b, c] := by
  have ha := a.toNat_lt
  have hb := b.toNat_lt
  have hc := c.toNat_lt
  rw [decodeLast, value_symbol (by omega), value_symbol (by omega), value_symbol (by omega),
    value_symbol (by omega)]
  simp only [Option.bind_eq_bind, Option.bind_some, symbol_ne_pad, false_and, if_false]
  rw [show a.toNat / 4 * 4 + (a.toNat % 4 * 16 + b.toNat / 16) / 16 = a.toNat by omega,
    show (a.toNat % 4 * 16 + b.toNat / 16) % 16 * 16 + (b.toNat % 16 * 4 + c.toNat / 64) / 4 =
      b.toNat by omega,
    show (b.toNat % 16 * 4 + c.toNat / 64) % 4 * 64 + c.toNat % 64 = c.toNat by omega,
    UInt8.ofNat_toNat, UInt8.ofNat_toNat, UInt8.ofNat_toNat]
  rfl

theorem encode_eq_nil_iff {bs : List UInt8} : encode bs = [] ↔ bs = [] := by
  fun_cases encode bs <;> simp

theorem decode_encode (bs : List UInt8) : decode (encode bs) = some bs := by
  fun_induction encode bs with
  | case1 => rfl
  | case2 a => exact decodeLast_one a
  | case3 a b => exact decodeLast_two a b
  | case4 a b c rest ih =>
    rw [decode, decodeLast_three]
    by_cases hrest : encode rest = []
    · rw [if_pos hrest, encode_eq_nil_iff.1 hrest]
    · rw [if_neg hrest, ih]
      simp [symbol_ne_pad]

/-- What is written consists of the alphabet and padding. -/
theorem mem_encode {bs : List UInt8} {c : Char} (h : c ∈ encode bs) : c ∈ alphabet ∨ c = '=' := by
  fun_induction encode bs with
  | case1 => exact absurd h List.not_mem_nil
  | case2 =>
    simp only [List.mem_cons, List.not_mem_nil, or_false] at h
    obtain rfl | rfl | h | h := h
    · exact .inl (symbol_mem _)
    · exact .inl (symbol_mem _)
    · exact .inr h
    · exact .inr h
  | case3 =>
    simp only [List.mem_cons, List.not_mem_nil, or_false] at h
    obtain rfl | rfl | rfl | h := h
    · exact .inl (symbol_mem _)
    · exact .inl (symbol_mem _)
    · exact .inl (symbol_mem _)
    · exact .inr h
  | case4 a b c rest ih =>
    simp only [List.mem_cons] at h
    rcases h with rfl | rfl | rfl | rfl | h
    · exact .inl (symbol_mem _)
    · exact .inl (symbol_mem _)
    · exact .inl (symbol_mem _)
    · exact .inl (symbol_mem _)
    · exact ih h

end Base64
