import FloatCtf.Net.Block

/-!
# Internet addresses

IPv4 and IPv6 addresses, their text, the classes of them that the standard library tests, and the
blocks of the special purpose registries.
-/

namespace Ip

/-- An IPv4 address, octet by octet. -/
structure Ipv4Addr where
  o0 : UInt8
  o1 : UInt8
  o2 : UInt8
  o3 : UInt8
  deriving DecidableEq

/-- An IPv6 address, segment by segment. -/
structure Ipv6Addr where
  s0 : UInt16
  s1 : UInt16
  s2 : UInt16
  s3 : UInt16
  s4 : UInt16
  s5 : UInt16
  s6 : UInt16
  s7 : UInt16
  deriving DecidableEq

/-- An address of either family. -/
inductive IpAddr
  | v4 (ip : Ipv4Addr)
  | v6 (ip : Ipv6Addr)
  deriving DecidableEq

/-- The address as a number of 32 bits. -/
def Ipv4Addr.bits (ip : Ipv4Addr) : ℕ :=
  ((ip.o0.toNat * 2 ^ 8 + ip.o1.toNat) * 2 ^ 8 + ip.o2.toNat) * 2 ^ 8 + ip.o3.toNat

/-- `u16::from_be_bytes`. -/
def fromBeBytes (a b : UInt8) : UInt16 := UInt16.ofNat (a.toNat * 2 ^ 8 + b.toNat)

/-- The upper and the lower half, as two segments of an IPv6 address. -/
def Ipv4Addr.segments (ip : Ipv4Addr) : UInt16 × UInt16 :=
  (fromBeBytes ip.o0 ip.o1, fromBeBytes ip.o2 ip.o3)

/-- The address as a number of 128 bits. -/
def Ipv6Addr.bits (ip : Ipv6Addr) : ℕ :=
  ((((((ip.s0.toNat * 2 ^ 16 + ip.s1.toNat) * 2 ^ 16 + ip.s2.toNat) * 2 ^ 16 + ip.s3.toNat)
    * 2 ^ 16 + ip.s4.toNat) * 2 ^ 16 + ip.s5.toNat) * 2 ^ 16 + ip.s6.toNat) * 2 ^ 16 + ip.s7.toNat

/-- The IPv4 address whose octets are two segments. -/
def ofSegments (s t : UInt16) : Ipv4Addr :=
  ⟨UInt8.ofNat (s.toNat / 2 ^ 8), UInt8.ofNat s.toNat, UInt8.ofNat (t.toNat / 2 ^ 8),
    UInt8.ofNat t.toNat⟩

theorem ofSegments_segments (ip : Ipv4Addr) : ofSegments ip.segments.1 ip.segments.2 = ip := by
  have h0 := ip.o0.toNat_lt
  have h1 := ip.o1.toNat_lt
  have h2 := ip.o2.toNat_lt
  have h3 := ip.o3.toNat_lt
  obtain ⟨a, b, c, d⟩ := ip
  simp only [ofSegments, Ipv4Addr.segments, fromBeBytes, UInt16.toNat_ofNat', Ipv4Addr.mk.injEq,
    ← UInt8.toNat_inj, UInt8.toNat_ofNat'] at h0 h1 h2 h3 ⊢
  omega

theorem bits_ofSegments (s t : UInt16) : (ofSegments s t).bits = s.toNat * 2 ^ 16 + t.toNat := by
  have h0 := s.toNat_lt
  have h1 := t.toNat_lt
  simp only [ofSegments, Ipv4Addr.bits, UInt8.toNat_ofNat']
  omega

theorem Ipv4Addr.bits_segments (ip : Ipv4Addr) :
    ip.segments.1.toNat * 2 ^ 16 + ip.segments.2.toNat = ip.bits := by
  rw [← bits_ofSegments, ofSegments_segments]

/-! ## IPv6 forms of an IPv4 address -/

namespace Ipv4Addr

variable (ip : Ipv4Addr)

/-- `::ffff:a` -/
def toMapped : Ipv6Addr := ⟨0, 0, 0, 0, 0, 0xffff, ip.segments.1, ip.segments.2⟩

/-- `::a` -/
def toCompatible : Ipv6Addr := ⟨0, 0, 0, 0, 0, 0, ip.segments.1, ip.segments.2⟩

/-- `64:ff9b::a` -/
def toNat64 : Ipv6Addr := ⟨0x0064, 0xff9b, 0, 0, 0, 0, ip.segments.1, ip.segments.2⟩

/-- An address of `2002:a::/48`. -/
def to6to4 (s3 s4 s5 s6 s7 : UInt16) : Ipv6Addr :=
  ⟨0x2002, ip.segments.1, ip.segments.2, s3, s4, s5, s6, s7⟩

theorem bits_toCompatible : ip.toCompatible.bits = ip.bits := by
  rw [← ip.bits_segments]
  simp [Ipv6Addr.bits, toCompatible]

end Ipv4Addr

/-! ## Text -/

section Text

variable {α : Type}

/-- `char::to_digit`, for a radix up to 16. -/
def digit (radix : ℕ) (c : Char) : Option ℕ :=
  let value :=
    if '0' ≤ c ∧ c ≤ '9' then some (c.toNat - '0'.toNat)
    else if 'a' ≤ c ∧ c ≤ 'f' then some (c.toNat - 'a'.toNat + 10)
    else if 'A' ≤ c ∧ c ≤ 'F' then some (c.toNat - 'A'.toNat + 10)
    else none
  value.filter (· < radix)

/-- Reads a number of at most so many digits that fits a word of so many bits. -/
def readNumber (radix maxDigits bits : ℕ) (allowZeroPrefix : Bool) (s : List Char) :
    Option (ℕ × List Char) :=
  let digits := s.takeWhile fun c => (digit radix c).isSome
  let value := digits.foldl (fun n c => n * radix + (digit radix c).getD 0) 0
  if digits = [] ∨ maxDigits < digits.length then none
  else if !allowZeroPrefix ∧ digits.head? = some '0' ∧ 1 < digits.length then none
  else if 2 ^ bits ≤ value then none
  else some (value, s.drop digits.length)

/-- Reads this character. -/
def readGiven (c : Char) : List Char → Option (List Char)
  | [] => none
  | x :: s => if x = c then some s else none

/-- Reads a value, after a separator unless it is the first. -/
def readSeparator (sep : Char) (first : Bool) (read : List Char → Option (α × List Char))
    (s : List Char) : Option (α × List Char) :=
  if first then read s else readGiven sep s >>= read

/-- Reads a number from 0 to 255 without leading zeros. -/
def readOctet (s : List Char) : Option (UInt8 × List Char) :=
  (readNumber 10 3 8 false s).map fun p => (UInt8.ofNat p.1, p.2)

/-- Reads up to four hexadecimal digits. -/
def readSegment (s : List Char) : Option (UInt16 × List Char) :=
  (readNumber 16 4 16 true s).map fun p => (UInt16.ofNat p.1, p.2)

/-- Reads four octets with dots between them. -/
def readIpv4Addr (s : List Char) : Option (Ipv4Addr × List Char) := do
  let (a, s) ← readSeparator '.' true readOctet s
  let (b, s) ← readSeparator '.' false readOctet s
  let (c, s) ← readSeparator '.' false readOctet s
  let (d, s) ← readSeparator '.' false readOctet s
  return (⟨a, b, c, d⟩, s)

/-- Reads at most so many segments, and says whether the last two were an IPv4 address. -/
def readGroups : ℕ → Bool → List Char → List UInt16 × Bool × List Char
  | 0, _, s => ([], false, s)
  | n + 1, first, s =>
    let ipv4 := if n = 0 then none else readSeparator ':' first readIpv4Addr s
    match ipv4 with
    | some (ip, s) => ([ip.segments.1, ip.segments.2], true, s)
    | none =>
      match readSeparator ':' first readSegment s with
      | none => ([], false, s)
      | some (g, s) =>
        let rest := readGroups n false s
        (g :: rest.1, rest.2)

/-- The address of eight groups. -/
def ofGroups (gs : List UInt16) : Ipv6Addr :=
  ⟨gs.getD 0 0, gs.getD 1 0, gs.getD 2 0, gs.getD 3 0, gs.getD 4 0, gs.getD 5 0, gs.getD 6 0,
    gs.getD 7 0⟩

/-- Reads eight groups, or two parts around a double colon; an IPv4 address may close either
part. -/
def readIpv6Addr (s : List Char) : Option (Ipv6Addr × List Char) :=
  let (head, headIpv4, s) := readGroups 8 true s
  if head.length = 8 then some (ofGroups head, s)
  else if headIpv4 then none
  else do
    let s ← readGiven ':' s
    let s ← readGiven ':' s
    let (tail, _, s) := readGroups (8 - (head.length + 1)) true s
    let zeros := List.replicate (8 - head.length - tail.length) 0
    return (ofGroups (head ++ zeros ++ tail), s)

/-- Reads an IPv4 address, or else an IPv6 address. -/
def readIpAddr (s : List Char) : Option (IpAddr × List Char) :=
  match readIpv4Addr s with
  | some (ip, s) => some (.v4 ip, s)
  | none => (readIpv6Addr s).map fun p => (.v6 p.1, p.2)

/-- `str::parse::<IpAddr>`. -/
def parse (s : String) : Option IpAddr :=
  match readIpAddr s.toList with
  | some (ip, []) => some ip
  | _ => none

example : parse "::ffff:10.0.0.1" = some (.v6 ⟨0, 0, 0, 0, 0, 0xffff, 0x0a00, 1⟩) := by
  decide +kernel

example : parse "10.0.0.01" = none := by decide +kernel

end Text

/-! ## What the standard library tests -/

/-- `0.0.0.0`. -/
def Ipv4Addr.isUnspecified (ip : Ipv4Addr) : Bool := ip.bits = 0

/-- `127.0.0.0/8`. -/
def Ipv4Addr.isLoopback (ip : Ipv4Addr) : Bool := ip.o0 = 127

/-- `10.0.0.0/8`, `172.16.0.0/12` and `192.168.0.0/16`. -/
def Ipv4Addr.isPrivate (ip : Ipv4Addr) : Bool :=
  ip.o0 = 10 || (ip.o0 = 172 && 16 ≤ ip.o1 && ip.o1 ≤ 31) || (ip.o0 = 192 && ip.o1 = 168)

/-- `169.254.0.0/16`. -/
def Ipv4Addr.isLinkLocal (ip : Ipv4Addr) : Bool := ip.o0 = 169 && ip.o1 = 254

/-- `255.255.255.255`. -/
def Ipv4Addr.isBroadcast (ip : Ipv4Addr) : Bool := ip.bits = 0xffffffff

/-- `192.0.2.0/24`, `198.51.100.0/24` and `203.0.113.0/24`. -/
def Ipv4Addr.isDocumentation (ip : Ipv4Addr) : Bool :=
  (ip.o0 = 192 && ip.o1 = 0 && ip.o2 = 2) || (ip.o0 = 198 && ip.o1 = 51 && ip.o2 = 100)
    || (ip.o0 = 203 && ip.o1 = 0 && ip.o2 = 113)

/-- `224.0.0.0/4`. -/
def Ipv4Addr.isMulticast (ip : Ipv4Addr) : Bool := 224 ≤ ip.o0 && ip.o0 ≤ 239

/-- `::`. -/
def Ipv6Addr.isUnspecified (ip : Ipv6Addr) : Bool := ip.bits = 0

/-- `::1`. -/
def Ipv6Addr.isLoopback (ip : Ipv6Addr) : Bool := ip.bits = 1

/-- `ff00::/8`. -/
def Ipv6Addr.isMulticast (ip : Ipv6Addr) : Bool := ip.s0 &&& 0xff00 = 0xff00

/-- The address behind the prefix `::ffff:0:0/96`. -/
def Ipv6Addr.toIpv4Mapped (ip : Ipv6Addr) : Option Ipv4Addr :=
  if ip.s0 = 0 ∧ ip.s1 = 0 ∧ ip.s2 = 0 ∧ ip.s3 = 0 ∧ ip.s4 = 0 ∧ ip.s5 = 0xffff then
    some (ofSegments ip.s6 ip.s7)
  else none

/-! ## Blocks -/

open Block (Same)

variable {s a : ℕ}

theorem Ipv4Addr.bits_lt (ip : Ipv4Addr) : ip.bits < 2 ^ 32 := by
  have h0 := ip.o0.toNat_lt
  have h1 := ip.o1.toNat_lt
  have h2 := ip.o2.toNat_lt
  have h3 := ip.o3.toNat_lt
  unfold Ipv4Addr.bits
  omega

theorem Ipv4Addr.bits_div_24 (ip : Ipv4Addr) : ip.bits / 2 ^ 24 = ip.o0.toNat := by
  have h1 := ip.o1.toNat_lt
  have h2 := ip.o2.toNat_lt
  have h3 := ip.o3.toNat_lt
  unfold Ipv4Addr.bits
  omega

theorem Ipv4Addr.bits_div_16 (ip : Ipv4Addr) :
    ip.bits / 2 ^ 16 = ip.o0.toNat * 2 ^ 8 + ip.o1.toNat := by
  have h2 := ip.o2.toNat_lt
  have h3 := ip.o3.toNat_lt
  unfold Ipv4Addr.bits
  omega

theorem Ipv4Addr.bits_div_8 (ip : Ipv4Addr) :
    ip.bits / 2 ^ 8 = (ip.o0.toNat * 2 ^ 8 + ip.o1.toNat) * 2 ^ 8 + ip.o2.toNat := by
  have h3 := ip.o3.toNat_lt
  unfold Ipv4Addr.bits
  omega

/-- A block that fixes at most the first octet, by that octet. -/
theorem Ipv4Addr.same_24 (ip : Ipv4Addr) (k a : ℕ) :
    Same (24 + k) a ip.bits ↔ ip.o0.toNat / 2 ^ k = a / 2 ^ (24 + k) := by
  rw [Same, pow_add, ← Nat.div_div_eq_div_mul, ip.bits_div_24]

/-- A block by the first two octets. -/
theorem Ipv4Addr.same_16 (ip : Ipv4Addr) (k a : ℕ) :
    Same (16 + k) a ip.bits ↔
      (ip.o0.toNat * 2 ^ 8 + ip.o1.toNat) / 2 ^ k = a / 2 ^ (16 + k) := by
  rw [Same, pow_add, ← Nat.div_div_eq_div_mul, ip.bits_div_16]

/-- A block by the first three octets. -/
theorem Ipv4Addr.same_8 (ip : Ipv4Addr) (k a : ℕ) :
    Same (8 + k) a ip.bits ↔
      ((ip.o0.toNat * 2 ^ 8 + ip.o1.toNat) * 2 ^ 8 + ip.o2.toNat) / 2 ^ k =
        a / 2 ^ (8 + k) := by
  rw [Same, pow_add, ← Nat.div_div_eq_div_mul, ip.bits_div_8]

/-! ### The classes of the standard library as blocks -/

section V4

variable (ip : Ipv4Addr)

theorem Ipv4Addr.isUnspecified_iff : ip.isUnspecified = true ↔ ip.bits = 0 :=
  decide_eq_true_iff

theorem Ipv4Addr.isBroadcast_iff : ip.isBroadcast = true ↔ ip.bits = 0xffffffff :=
  decide_eq_true_iff

theorem Ipv4Addr.isLoopback_iff : ip.isLoopback = true ↔ Same 24 0x7f000000 ip.bits := by
  rw [ip.same_24 0]
  simp only [Ipv4Addr.isLoopback, decide_eq_true_iff, ← UInt8.toNat_inj, UInt8.reduceToNat]
  omega

theorem Ipv4Addr.isPrivate_iff : ip.isPrivate = true ↔
    Same 24 0x0a000000 ip.bits ∨ Same 20 0xac100000 ip.bits ∨ Same 16 0xc0a80000 ip.bits := by
  have h1 := ip.o1.toNat_lt
  rw [ip.same_24 0, ip.same_16 4, ip.same_16 0]
  simp only [Ipv4Addr.isPrivate, Bool.or_eq_true, Bool.and_eq_true, decide_eq_true_iff,
    ← UInt8.toNat_inj, UInt8.le_iff_toNat_le, UInt8.reduceToNat]
  omega

theorem Ipv4Addr.isLinkLocal_iff : ip.isLinkLocal = true ↔ Same 16 0xa9fe0000 ip.bits := by
  have h1 := ip.o1.toNat_lt
  rw [ip.same_16 0]
  simp only [Ipv4Addr.isLinkLocal, Bool.and_eq_true, decide_eq_true_iff, ← UInt8.toNat_inj,
    UInt8.reduceToNat]
  omega

theorem Ipv4Addr.isDocumentation_iff : ip.isDocumentation = true ↔
    Same 8 0xc0000200 ip.bits ∨ Same 8 0xc6336400 ip.bits ∨ Same 8 0xcb007100 ip.bits := by
  have h1 := ip.o1.toNat_lt
  have h2 := ip.o2.toNat_lt
  rw [ip.same_8 0, ip.same_8 0, ip.same_8 0]
  simp only [Ipv4Addr.isDocumentation, Bool.or_eq_true, Bool.and_eq_true, decide_eq_true_iff,
    ← UInt8.toNat_inj, UInt8.reduceToNat]
  omega

theorem Ipv4Addr.isMulticast_iff : ip.isMulticast = true ↔ Same 28 0xe0000000 ip.bits := by
  rw [ip.same_24 4]
  simp only [Ipv4Addr.isMulticast, Bool.and_eq_true, decide_eq_true_iff,
    UInt8.le_iff_toNat_le, UInt8.reduceToNat]
  omega

end V4

/-- The first sixteen bits decide which block of `2 ^ 112` or more an address is in. -/
theorem Ipv6Addr.bits_div_112 (ip : Ipv6Addr) : ip.bits / 2 ^ 112 = ip.s0.toNat := by
  have h1 := ip.s1.toNat_lt
  have h2 := ip.s2.toNat_lt
  have h3 := ip.s3.toNat_lt
  have h4 := ip.s4.toNat_lt
  have h5 := ip.s5.toNat_lt
  have h6 := ip.s6.toNat_lt
  have h7 := ip.s7.toNat_lt
  unfold Ipv6Addr.bits
  omega

theorem Ipv6Addr.bits_div_96 (ip : Ipv6Addr) :
    ip.bits / 2 ^ 96 = ip.s0.toNat * 2 ^ 16 + ip.s1.toNat := by
  have h2 := ip.s2.toNat_lt
  have h3 := ip.s3.toNat_lt
  have h4 := ip.s4.toNat_lt
  have h5 := ip.s5.toNat_lt
  have h6 := ip.s6.toNat_lt
  have h7 := ip.s7.toNat_lt
  unfold Ipv6Addr.bits
  omega

/-- A block that fixes at most the first segment, by that segment. -/
theorem Ipv6Addr.same_112 (ip : Ipv6Addr) (k a : ℕ) :
    Same (112 + k) a ip.bits ↔ ip.s0.toNat / 2 ^ k = a / 2 ^ (112 + k) := by
  rw [Same, pow_add, ← Nat.div_div_eq_div_mul, ip.bits_div_112]

/-- A block by the first two segments. -/
theorem Ipv6Addr.same_96 (ip : Ipv6Addr) (k a : ℕ) :
    Same (96 + k) a ip.bits ↔
      (ip.s0.toNat * 2 ^ 16 + ip.s1.toNat) / 2 ^ k = a / 2 ^ (96 + k) := by
  rw [Same, pow_add, ← Nat.div_div_eq_div_mul, ip.bits_div_96]

theorem Ipv6Addr.bits_div_32 (ip : Ipv6Addr) :
    ip.bits / 2 ^ 32 = ((((ip.s0.toNat * 2 ^ 16 + ip.s1.toNat) * 2 ^ 16 + ip.s2.toNat) * 2 ^ 16
      + ip.s3.toNat) * 2 ^ 16 + ip.s4.toNat) * 2 ^ 16 + ip.s5.toNat := by
  have h6 := ip.s6.toNat_lt
  have h7 := ip.s7.toNat_lt
  unfold Ipv6Addr.bits
  omega

theorem Ipv6Addr.bits_mod_32 (ip : Ipv6Addr) :
    ip.bits % 2 ^ 32 = (ofSegments ip.s6 ip.s7).bits := by
  have h6 := ip.s6.toNat_lt
  have h7 := ip.s7.toNat_lt
  rw [bits_ofSegments]
  unfold Ipv6Addr.bits
  omega

theorem Ipv6Addr.isMulticast_iff (ip : Ipv6Addr) :
    ip.isMulticast = true ↔ Same 120 (0xff00 * 2 ^ 112) ip.bits := by
  rw [ip.same_112 8, Ipv6Addr.isMulticast, decide_eq_true_iff, ← UInt16.toNat_inj,
    UInt16.toNat_and]
  exact (Block.land_mask_eq_iff (s := 8) (w := 16) (a := 0xff00) (by decide) (by decide)
    ip.s0.toNat_lt).trans (by rw [Same]; omega)

theorem Ipv6Addr.isMapped_iff (ip : Ipv6Addr) :
    (ip.s0 = 0 ∧ ip.s1 = 0 ∧ ip.s2 = 0 ∧ ip.s3 = 0 ∧ ip.s4 = 0 ∧ ip.s5 = 0xffff) ↔
      Same 32 (0xffff * 2 ^ 32) ip.bits := by
  have h5 := ip.s5.toNat_lt
  rw [Same, ip.bits_div_32]
  simp only [← UInt16.toNat_inj, UInt16.reduceToNat]
  omega

theorem Ipv6Addr.toIpv4Mapped_of_same {ip : Ipv6Addr}
    (h : Same 32 (0xffff * 2 ^ 32) ip.bits) :
    ip.toIpv4Mapped = some (ofSegments ip.s6 ip.s7) :=
  if_pos (ip.isMapped_iff.2 h)

theorem Ipv6Addr.toIpv4Mapped_eq_none {ip : Ipv6Addr}
    (h : ¬ Same 32 (0xffff * 2 ^ 32) ip.bits) : ip.toIpv4Mapped = none :=
  if_neg fun hm => h (ip.isMapped_iff.1 hm)

/-- The address is in one of the blocks, each given by its free bits and its first address. -/
def Among (blocks : List (ℕ × ℕ)) (x : ℕ) : Prop := ∃ b ∈ blocks, Same b.1 b.2 x

instance (blocks : List (ℕ × ℕ)) (x : ℕ) : Decidable (Among blocks x) :=
  inferInstanceAs (Decidable (∃ b ∈ blocks, _))

theorem among_cons {b : ℕ × ℕ} {blocks : List (ℕ × ℕ)} {x : ℕ} :
    Among (b :: blocks) x ↔ Same b.1 b.2 x ∨ Among blocks x := by
  simp [Among]

theorem not_among_nil {x : ℕ} : ¬ Among [] x := by simp [Among]

/-- The IPv4 special purpose registry, and multicast. -/
def specialV4 : List (ℕ × ℕ) :=
  [(24, 0x00000000), (24, 0x0a000000), (22, 0x64400000), (24, 0x7f000000), (16, 0xa9fe0000),
    (20, 0xac100000), (8, 0xc0000000), (8, 0xc0000200), (16, 0xc0a80000), (17, 0xc6120000),
    (8, 0xc6336400), (8, 0xcb007100), (28, 0xe0000000), (28, 0xf0000000)]

/-- The IPv6 special purpose registry, and multicast, without the blocks that embed IPv4. -/
def specialV6 : List (ℕ × ℕ) :=
  [(80, 0x0064ff9b0001 * 2 ^ 80), (64, 0x0100 * 2 ^ 112), (64, 0x0100000000000001 * 2 ^ 64),
    (105, 0x2001 * 2 ^ 112), (96, 0x20010db8 * 2 ^ 96), (108, 0x3fff * 2 ^ 112),
    (112, 0x5f00 * 2 ^ 112), (121, 0xfc00 * 2 ^ 112), (118, 0xfe80 * 2 ^ 112),
    (120, 0xff00 * 2 ^ 112)]

/-- The IPv4 address that an IPv6 address embeds: compatible, mapped, NAT64 or 6to4. -/
def embedded (x : ℕ) : Option ℕ :=
  if Same 32 0 x ∨ Same 32 (0xffff * 2 ^ 32) x ∨ Same 32 (0x0064ff9b * 2 ^ 96) x then
    some (x % 2 ^ 32)
  else if Same 112 (0x2002 * 2 ^ 112) x then some (x / 2 ^ 80 % 2 ^ 32)
  else none

/-- Globally routable: no block of the registries has the address.  An address that embeds another
is where that one is. -/
def Routable : IpAddr → Prop
  | .v4 ip => ¬ Among specialV4 ip.bits
  | .v6 ip =>
    match embedded ip.bits with
    | some a => ¬ Among specialV4 a
    | none => ¬ Among specialV6 ip.bits

theorem routable_def (x : IpAddr) : Routable x =
    match x with
    | .v4 ip => ¬ Among specialV4 ip.bits
    | .v6 ip =>
      match embedded ip.bits with
      | some a => ¬ Among specialV4 a
      | none => ¬ Among specialV6 ip.bits := rfl

theorem match_v6 (f : Ipv4Addr → Prop) (g : Ipv6Addr → Prop) (ip : Ipv6Addr) :
    (match IpAddr.v6 ip with | .v4 a => f a | .v6 a => g a) = g ip := rfl

-- Not by `rfl`, which makes the kernel evaluate `embedded` at numbers of 128 bits.
theorem routable_v6 (ip : Ipv6Addr) : Routable (.v6 ip) =
    match embedded ip.bits with
    | some a => ¬ Among specialV4 a
    | none => ¬ Among specialV6 ip.bits := by
  rw [routable_def, match_v6 (fun ip => ¬ Among specialV4 ip.bits) fun ip =>
    match embedded ip.bits with
    | some a => ¬ Among specialV4 a
    | none => ¬ Among specialV6 ip.bits]

end Ip
