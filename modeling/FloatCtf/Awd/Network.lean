import FloatCtf.Awd.Domain
import FloatCtf.Net.Block

/-!
# Address blocks of AWD

`domain/network.rs`: parsed IPv4 blocks with their arithmetic on 32-bit words, the address pools of
the platform, the port range and the slots of the teams in the block of an event.

`Ipv4Cidr.Mem` is what a block stands for.  The masks of the source agree with it for every prefix
but `0`, where the shift by 32 wraps around and the mask has all its bits.
-/

namespace FloatCtf.Awd

open Block

/-! ## Text -/

/-- One number of a dotted address: one to three digits, no leading zero, at most 255. -/
def parseOctet (s : String) : Option (Fin 256) :=
  let digits := s.toList
  let n := digits.foldl (fun n c => n * 10 + (c.toNat - 48)) 0
  if digits.length = 0 ∨ 3 < digits.length ∨ !digits.all Char.isDigit then none
  else if 1 < digits.length ∧ digits.head? = some '0' then none
  else if h : n < 256 then some ⟨n, h⟩ else none

/-- `Ipv4Addr::from_str`. -/
def parseIpv4Addr (s : String) : Option (Fin (2 ^ 32)) :=
  match s.splitOn "." with
  | [a, b, c, d] => do
    let a ← parseOctet a
    let b ← parseOctet b
    let c ← parseOctet c
    let d ← parseOctet d
    pure ⟨a * 2 ^ 24 + b * 2 ^ 16 + c * 2 ^ 8 + d, by omega⟩
  | _ => none

/-- `u8::from_str`, with the texts of its errors. -/
def parseU8 (s : String) : Except String Nat :=
  let digits := match s.toList with
    | '+' :: c :: cs => c :: cs
    | cs => cs
  if digits = [] then .error "cannot parse integer from empty string"
  else digits.foldlM (fun n c =>
    if !c.isDigit then .error "invalid digit found in string"
    else if 255 < n * 10 + (c.toNat - 48) then
      .error "number too large to fit in target type"
    else .ok (n * 10 + (c.toNat - 48))) 0

/-! ## Blocks -/

/-- A block of addresses; the network address need not be the first one of the block. -/
structure Ipv4Cidr where
  network : Nat
  prefixLen : Nat
  network_lt : network < 2 ^ 32
  prefix_le : prefixLen ≤ 32
  deriving DecidableEq

namespace Ipv4Cidr

/-- Reads a block in CIDR notation. -/
def parse (cidrStr : String) : Except AwdError Ipv4Cidr :=
  match cidrStr.splitOn "/" with
  | [ip, len] =>
    match parseIpv4Addr ip with
    | none => .error (.validation "Invalid IP in CIDR: invalid IPv4 address syntax")
    | some network =>
      match parseU8 len with
      | .error e => .error (.validation s!"Invalid prefix length: {e}")
      | .ok prefixLen =>
        if hp : 32 < prefixLen then
          .error (.validation s!"Prefix length must be <= 32, got {prefixLen}")
        else .ok ⟨network, prefixLen, network.isLt, Nat.le_of_not_lt hp⟩
  | _ => .error (.validation s!"Invalid CIDR format: {cidrStr}")

variable (c : Ipv4Cidr)

/-- The dotted form of an address. -/
def ipText (ip : Nat) : String :=
  s!"{ip / 2 ^ 24 % 256}.{ip / 2 ^ 16 % 256}.{ip / 2 ^ 8 % 256}.{ip % 256}"

/-- `Ipv4Cidr::to_string`. -/
def text : String := s!"{ipText c.network}/{c.prefixLen}"

/-- The `Debug` format. -/
def debug : String :=
  s!"Ipv4Cidr \x7b network: {ipText c.network}, prefix_len: {c.prefixLen} \x7d"

/-- The number of addresses in a block. -/
def totalAddresses : Nat := 2 ^ (32 - c.prefixLen)

/-- The mask; a shift of a word by 32 is a shift by 0. -/
def mask : Nat := (2 ^ 32 - 1) <<< ((32 - c.prefixLen) % 32) % 2 ^ 32

/-- The last address of a block. -/
def broadcastAddress : Nat := c.network ||| (2 ^ 32 - 1 - c.mask)

/-- The address is in the block. -/
def contains (ip : Nat) : Bool := ip &&& c.mask = c.network &&& c.mask

/-- `overlaps`: one block contains an end of the other. -/
def overlaps (other : Ipv4Cidr) : Bool :=
  c.contains other.network || c.contains other.broadcastAddress || other.contains c.network ||
    other.contains c.broadcastAddress

/-- The `n`th host, the network address and the last one left out. -/
def nthHost (n : Nat) : Option Nat :=
  if c.totalAddresses < 3 ∨ c.totalAddresses - 2 ≤ n then none
  else some ((c.network + (n + 1)) % 2 ^ 32)

/-- The block of this number among those of a longer prefix. -/
def nthSubnet (newPrefix index : Nat) : Option Ipv4Cidr :=
  if h : newPrefix < c.prefixLen ∨ 32 < newPrefix then none
  else if 2 ^ (newPrefix - c.prefixLen) ≤ index then none
  else some
    ⟨(c.network + index * 2 ^ (32 - newPrefix) % 2 ^ 32) % 2 ^ 32, newPrefix,
      Nat.mod_lt _ (by positivity), Nat.le_of_not_lt fun hp => h (.inr hp)⟩

/-! ## What a block stands for -/

/-- The addresses of the block. -/
def Mem (a : Nat) : Prop := Same (32 - c.prefixLen) c.network a

/-- No address is in both blocks. -/
def Disjoint (d : Ipv4Cidr) : Prop := ∀ a, c.Mem a → ¬ d.Mem a

/-- The block lies in the other one. -/
def Within (d : Ipv4Cidr) : Prop := ∀ a, c.Mem a → d.Mem a

/-- The network address is the first one of the block. -/
def Aligned : Prop := 2 ^ (32 - c.prefixLen) ∣ c.network

instance : Decidable c.Aligned := inferInstanceAs (Decidable (_ ∣ _))

variable {c} {d : Ipv4Cidr}

theorem Disjoint.symm (h : c.Disjoint d) : d.Disjoint c := fun a hd hc => h a hc hd

theorem mem_network : c.Mem c.network := rfl

theorem mask_eq (c : Ipv4Cidr) : c.mask = 2 ^ 32 - 2 ^ ((32 - c.prefixLen) % 32) := by
  have hs : (32 - c.prefixLen) % 32 < 32 := Nat.mod_lt _ (by decide)
  unfold mask
  interval_cases (32 - c.prefixLen) % 32 <;> rfl

section Masks

variable (hc : 0 < c.prefixLen)

include hc

theorem mask_eq_of_pos : c.mask = 2 ^ 32 - 2 ^ (32 - c.prefixLen) := by
  rw [mask_eq, Nat.mod_eq_of_lt (by omega)]

theorem contains_iff {a : Nat} (ha : a < 2 ^ 32) : c.contains a = true ↔ c.Mem a := by
  rw [contains, decide_eq_true_eq, mask_eq_of_pos hc]
  exact land_mask_eq_iff (by omega) c.network_lt ha

theorem broadcastAddress_eq : c.broadcastAddress = c.network ||| (2 ^ (32 - c.prefixLen) - 1) := by
  have hle : 2 ^ (32 - c.prefixLen) ≤ 2 ^ 32 := Nat.pow_le_pow_right (by decide) (by omega)
  have hpos : 0 < 2 ^ (32 - c.prefixLen) := by positivity
  rw [broadcastAddress, mask_eq_of_pos hc]
  congr 1
  omega

theorem broadcastAddress_lt : c.broadcastAddress < 2 ^ 32 := by
  have hle : 2 ^ (32 - c.prefixLen) ≤ 2 ^ 32 := Nat.pow_le_pow_right (by decide) (by omega)
  rw [broadcastAddress_eq hc]
  exact Nat.or_lt_two_pow c.network_lt (by omega)

theorem mem_broadcastAddress : c.Mem c.broadcastAddress := by
  rw [broadcastAddress_eq hc, Mem, Same, ← Nat.shiftRight_eq_div_pow, ← Nat.shiftRight_eq_div_pow,
    Nat.shiftRight_or_distrib]
  have hlow : (2 ^ (32 - c.prefixLen) - 1) >>> (32 - c.prefixLen) = 0 := by
    rw [Nat.shiftRight_eq_div_pow]
    exact Nat.div_eq_of_lt (Nat.sub_lt (by positivity) (by decide))
  rw [hlow, Nat.or_zero]

/-- The test of the source finds two blocks apart exactly when they are disjoint. -/
theorem overlaps_eq_false_iff (hd : 0 < d.prefixLen) : c.overlaps d = false ↔ c.Disjoint d := by
  constructor
  · intro h a ha hda
    simp only [overlaps, Bool.or_eq_false_iff] at h
    obtain ⟨⟨⟨hcd, -⟩, hdc⟩, -⟩ := h
    rcases Nat.le_total (32 - c.prefixLen) (32 - d.prefixLen) with hle | hle
    · have hmem : d.Mem c.network := Same.of_meet hle hda ha
      exact Bool.false_ne_true (hdc.symm.trans ((contains_iff hd c.network_lt).2 hmem))
    · have hmem : c.Mem d.network := Same.of_meet hle ha hda
      exact Bool.false_ne_true (hcd.symm.trans ((contains_iff hc d.network_lt).2 hmem))
  · intro h
    have hno {e f : Ipv4Cidr} (he : 0 < e.prefixLen) (hef : e.Disjoint f) {a : Nat}
        (ha : a < 2 ^ 32) (hfa : f.Mem a) : e.contains a = false :=
      Bool.eq_false_of_not_eq_true fun hea => hef a ((contains_iff he ha).1 hea) hfa
    rw [overlaps, hno hc h d.network_lt mem_network,
      hno hc h (broadcastAddress_lt hd) (mem_broadcastAddress hd),
      hno hd h.symm c.network_lt mem_network,
      hno hd h.symm (broadcastAddress_lt hc) (mem_broadcastAddress hc)]
    rfl

end Masks

/-! ## Subnets -/

theorem Aligned.mem_iff (h : c.Aligned) {a : Nat} :
    c.Mem a ↔ c.network ≤ a ∧ a < c.network + 2 ^ (32 - c.prefixLen) := same_iff_of_dvd h

theorem Aligned.end_le (h : c.Aligned) : c.network + 2 ^ (32 - c.prefixLen) ≤ 2 ^ 32 := by
  obtain ⟨k, hk⟩ := h
  have hsplit : 2 ^ 32 = 2 ^ (32 - c.prefixLen) * 2 ^ c.prefixLen := by
    rw [← pow_add, Nat.sub_add_cancel c.prefix_le]
  have hlt := c.network_lt
  rw [hk, hsplit] at hlt
  have hkp : k < 2 ^ c.prefixLen := Nat.lt_of_mul_lt_mul_left hlt
  rw [hk, hsplit]
  exact Nat.mul_le_mul_left _ hkp

/-- The subnet of an aligned block: the slot behind the first `index` ones. -/
theorem nthSubnet_eq_some (hc : c.Aligned) {newPrefix index : Nat}
    (h : c.nthSubnet newPrefix index = some d) :
    d.prefixLen = newPrefix ∧ c.prefixLen ≤ newPrefix ∧
      d.network = c.network + index * 2 ^ (32 - newPrefix) ∧
      (index + 1) * 2 ^ (32 - newPrefix) ≤ 2 ^ (32 - c.prefixLen) := by
  unfold nthSubnet at h
  split_ifs at h with h0 h1
  have hp : c.prefixLen ≤ newPrefix := by omega
  have hp32 : newPrefix ≤ 32 := by omega
  have hsplit : 2 ^ (32 - c.prefixLen) = 2 ^ (newPrefix - c.prefixLen) * 2 ^ (32 - newPrefix) := by
    rw [← pow_add]
    congr 1
    omega
  have hroom : (index + 1) * 2 ^ (32 - newPrefix) ≤ 2 ^ (32 - c.prefixLen) := by
    rw [hsplit]
    exact Nat.mul_le_mul_right _ (by omega)
  have hend := hc.end_le
  have hpos : 0 < 2 ^ (32 - newPrefix) := by positivity
  rw [add_mul, one_mul] at hroom
  have hlt : index * 2 ^ (32 - newPrefix) < 2 ^ 32 := by omega
  cases h
  refine ⟨rfl, hp, ?_, by rwa [add_mul, one_mul]⟩
  show (c.network + index * 2 ^ (32 - newPrefix) % 2 ^ 32) % 2 ^ 32 = _
  rw [Nat.mod_eq_of_lt hlt, Nat.mod_eq_of_lt (by omega)]

theorem nthSubnet_aligned (hc : c.Aligned) {newPrefix index : Nat}
    (h : c.nthSubnet newPrefix index = some d) : d.Aligned := by
  obtain ⟨hp, hle, hnet, -⟩ := nthSubnet_eq_some hc h
  rw [Aligned, hp, hnet]
  refine Dvd.dvd.add ?_ (Dvd.intro_left index rfl)
  exact (pow_dvd_pow 2 (by omega)).trans hc

theorem nthSubnet_within (hc : c.Aligned) {newPrefix index : Nat}
    (h : c.nthSubnet newPrefix index = some d) : d.Within c := by
  obtain ⟨hp, -, hnet, hroom⟩ := nthSubnet_eq_some hc h
  intro a ha
  rw [(nthSubnet_aligned hc h).mem_iff, hp, hnet] at ha
  rw [add_mul, one_mul] at hroom
  rw [hc.mem_iff]
  omega

/-- Distinct slots are disjoint. -/
theorem nthSubnet_disjoint (hc : c.Aligned) {newPrefix i j : Nat} (hij : i ≠ j) {e : Ipv4Cidr}
    (hd : c.nthSubnet newPrefix i = some d) (he : c.nthSubnet newPrefix j = some e) :
    d.Disjoint e := by
  obtain ⟨hpd, -, hnd, -⟩ := nthSubnet_eq_some hc hd
  obtain ⟨hpe, -, hne, -⟩ := nthSubnet_eq_some hc he
  intro a had hae
  rw [(nthSubnet_aligned hc hd).mem_iff, hpd, hnd] at had
  rw [(nthSubnet_aligned hc he).mem_iff, hpe, hne] at hae
  rcases Nat.lt_or_gt_of_ne hij with hlt | hlt
  · have := Nat.mul_le_mul_right (2 ^ (32 - newPrefix)) hlt
    rw [Nat.succ_mul] at this
    omega
  · have := Nat.mul_le_mul_right (2 ^ (32 - newPrefix)) hlt
    rw [Nat.succ_mul] at this
    omega

end Ipv4Cidr

/-! ## Pools and slots -/

/-- The address pool of the platform for one kind of block. -/
structure NetworkPool where
  pool : Ipv4Cidr
  eventPrefix : Nat
  teamPrefix : Nat

/-- A pool with prefixes for its events and their teams. -/
def NetworkPool.new (pool : Ipv4Cidr) (eventPrefix teamPrefix : Nat) :
    Except AwdError NetworkPool :=
  if eventPrefix < pool.prefixLen then
    .error (.validation
      s!"赛事前缀 /{eventPrefix} 不能比地址池前缀 /{pool.prefixLen} 更短")
  else if teamPrefix < eventPrefix then
    .error (.validation s!"队伍前缀 /{teamPrefix} 不能比赛事前缀 /{eventPrefix} 更短")
  else if 32 < teamPrefix then
    .error (.validation s!"队伍前缀 /{teamPrefix} 超出范围（最大 32）")
  else .ok ⟨pool, eventPrefix, teamPrefix⟩

/-- The number of blocks for events. -/
def NetworkPool.eventCapacity (p : NetworkPool) : Nat := 2 ^ (p.eventPrefix - p.pool.prefixLen)

/-- The block of this number. -/
def NetworkPool.nthEventSubnet (p : NetworkPool) (index : Nat) : Option Ipv4Cidr :=
  p.pool.nthSubnet p.eventPrefix index

/-- A range of ports. -/
structure WireGuardPortRange where
  min : Nat
  max : Nat

/-- A range whose ends are in order. -/
def WireGuardPortRange.new (min max : Nat) : Except AwdError WireGuardPortRange :=
  if min < 1 ∨ max < min then .error (.validation s!"WireGuard 端口范围无效：{min}-{max}")
  else .ok ⟨min, max⟩

/-- The port is in the range. -/
def WireGuardPortRange.contains (r : WireGuardPortRange) (port : Nat) : Bool :=
  r.min ≤ port ∧ port ≤ r.max

/-- `InfraHostPolicy::service_ip`: the host with this last byte. -/
def serviceIp (infra : Ipv4Cidr) (offset : Nat) : Option Nat := infra.nthHost (offset - 1)

/-- The first index from `i` on, among `n`, that is not used. -/
def freeIndexFrom (used : List Nat) : Nat → Nat → Option Nat
  | 0, _ => none
  | n + 1, i => if used.contains i then freeIndexFrom used n (i + 1) else some i

/-- `TeamSubnetAllocator::next_free_index`; slot 0 is the infrastructure. -/
def nextFreeIndex (eventCidr : Ipv4Cidr) (teamPrefix : Nat) (usedIndexes : List Nat) : Option Nat :=
  freeIndexFrom usedIndexes (2 ^ (teamPrefix - eventCidr.prefixLen) - 1) 1

/-- `instance_ip = team.gamebox_subnet + event_gamebox.host_offset`. -/
def instanceIpForOffset (subnet : Ipv4Cidr) (hostOffset : Int) : Option Nat :=
  if hostOffset < 2 ∨ 254 < hostOffset then none else subnet.nthHost (hostOffset.toNat - 1)

/-! ## Columns -/

namespace Ipv4Cidr

/-- The value of a `cidr` column: the bits behind the prefix are cleared. -/
def toColumn (c : Ipv4Cidr) : Ipv4Cidr :=
  { c with
    network := c.network / 2 ^ (32 - c.prefixLen) * 2 ^ (32 - c.prefixLen)
    network_lt := (Nat.div_mul_le_self _ _).trans_lt c.network_lt }

/-- The operator `&&` of the database: the blocks agree on the shorter prefix. -/
def inetOverlaps (c d : Ipv4Cidr) : Bool :=
  let s := 32 - min c.prefixLen d.prefixLen
  c.network / 2 ^ s = d.network / 2 ^ s

/-- The operator `<<=`: the block is in the other one, or the same. -/
def inetWithinEq (c d : Ipv4Cidr) : Bool :=
  d.prefixLen ≤ c.prefixLen ∧
    c.network / 2 ^ (32 - d.prefixLen) = d.network / 2 ^ (32 - d.prefixLen)

/-- The operator `<<` for a host address. -/
def inetHolds (d : Ipv4Cidr) (ip : Nat) : Bool :=
  d.prefixLen < 32 ∧ ip / 2 ^ (32 - d.prefixLen) = d.network / 2 ^ (32 - d.prefixLen)

variable {c d : Ipv4Cidr}

theorem toColumn_aligned (c : Ipv4Cidr) : c.toColumn.Aligned := Dvd.intro_left _ rfl

theorem toColumn_of_aligned (h : c.Aligned) : c.toColumn = c := by
  obtain ⟨n, p, hn, hp⟩ := c
  simp only [toColumn, mk.injEq, and_true]
  exact Nat.div_mul_cancel h

/-- The column has the addresses of the block. -/
theorem mem_toColumn {a : Nat} : c.toColumn.Mem a ↔ c.Mem a := by
  have hpos : 0 < 2 ^ (32 - c.prefixLen) := by positivity
  simp only [Mem, Same, toColumn, Nat.mul_div_cancel _ hpos]

theorem disjoint_of_inetOverlaps (h : c.inetOverlaps d = false) : c.Disjoint d := by
  intro a hc hd
  have hsame : ∀ {e : Ipv4Cidr}, e.Mem a → min c.prefixLen d.prefixLen ≤ e.prefixLen →
      Same (32 - min c.prefixLen d.prefixLen) e.network a :=
    fun he hle => Same.mono (by omega) he
  exact of_decide_eq_false h
    ((hsame hd (Nat.min_le_right _ _)).trans (hsame hc (Nat.min_le_left _ _)).symm)

/-- A block of prefix `0` has every address, so a disjoint one is missing. -/
theorem Disjoint.pos (h : c.Disjoint d) : 0 < c.prefixLen := by
  by_contra h0
  have hp : c.prefixLen = 0 := by omega
  refine h d.network ?_ mem_network
  rw [Mem, Same, hp, Nat.sub_zero, Nat.div_eq_of_lt c.network_lt, Nat.div_eq_of_lt d.network_lt]

theorem Within.disjoint {e : Ipv4Cidr} (h : c.Within d) (hd : d.Disjoint e) : c.Disjoint e :=
  fun a hc he => hd a (h a hc) he

end Ipv4Cidr

/-! ## Rows -/

/-- An `awd_team_networks` row. -/
structure TeamNetwork where
  eventId : Nat
  teamId : Nat
  subnetIndex : Int
  gameboxSubnet : Ipv4Cidr
  wireguardSubnet : Ipv4Cidr
  nextWireguardHost : Nat
  deriving DecidableEq

end FloatCtf.Awd
