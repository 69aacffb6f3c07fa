import FloatCtf.Awd.NetworkArithmetic
import FloatCtf.Awdp.Domain

/-!
# The networks of the events

`repo/event_network_repo.rs`: each event has a block of the pool, the upper half of which is for the
instances, and a fixed address for its judge.  The arithmetic runs with overflow checks, `none` is a
panic.  What the code uses of the crate `ipnetwork` is a parameter.

A block that is returned is free, but for a block of size 31 the judge gets the network address, and
the rows of released networks keep their blocks.
-/

namespace FloatCtf.Awdp

open Awd (Ipv4Cidr)
open Awd.Ipv4Cidr (child)

/-! ## The crate `ipnetwork` -/

/-- An address with a prefix length; the address may have bits behind the prefix. -/
abbrev Ipv4Network := Ipv4Cidr

/-- A network of either family. -/
inductive IpNetwork where
  | v4 (net : Ipv4Network)
  | v6
  deriving DecidableEq

/-- `Ipv4Network::new`. -/
def Ipv4Network.new (addr prefixLen : Nat) : Option Ipv4Network :=
  if h : addr < 2 ^ 32 ∧ prefixLen ≤ 32 then some ⟨addr, prefixLen, h.1, h.2⟩ else none

/-- What the code calls. -/
structure NetworkCrate where
  network : Ipv4Network → Nat
  contains : Ipv4Network → Nat → Bool
  nth : Ipv4Network → Nat → Option Nat

/-- What the crate documents: the lowest address, membership, and the address at a position. -/
structure NetworkCrate.Documented (crate : NetworkCrate) : Prop where
  network (n : Ipv4Network) : crate.network n = n.toColumn.network
  contains (n : Ipv4Network) {a : Nat} (ha : a < 2 ^ 32) : crate.contains n a = true ↔ n.Mem a
  nth (n : Ipv4Network) (i : Nat) (hn : 0 < n.prefixLen) : crate.nth n i =
    if i < 2 ^ (32 - n.prefixLen) then some (n.toColumn.network + i) else none

/-! ## Rows -/

/-- How far a network has come. -/
inductive NetworkStatus where
  | allocated
  | deployed
  | released
  deriving DecidableEq

/-- An `awdp_event_networks` row. -/
structure EventNetwork where
  eventId : Nat
  networkName : String
  subnetCidr : IpNetwork
  dynamicPoolCidr : IpNetwork
  judgeIp : IpNetwork
  dockerNetworkId : Option String
  status : NetworkStatus
  deriving DecidableEq

/-- The `CHECK` constraints on the addresses of a row; the code only writes IPv4 ones. -/
def EventNetwork.checks (r : EventNetwork) : Bool :=
  match r.subnetCidr, r.dynamicPoolCidr, r.judgeIp with
  | .v4 subnet, .v4 dynamicPool, .v4 judge =>
    subnet.inetHolds judge.network ∧ dynamicPool.inetWithinEq subnet ∧
      !judge.inetWithinEq dynamicPool
  | _, _, _ => false

/-! ## The choice of a block -/

section Choice

variable (crate : NetworkCrate)

/-- The two networks have an address in common, as the crate is asked. -/
def v4Overlaps (a : Ipv4Network) : IpNetwork → Bool
  | .v4 b => crate.contains a b.network || crate.contains b a.network
  | .v6 => false

/-- The loop over the blocks with the indices of the list. -/
def pickFrom (poolBase blockSize eventNetmask : Nat) (existing : List EventNetwork)
    (dockerSubnets : List IpNetwork) : List Nat → Option (Option Ipv4Network)
  | [] => some none
  | i :: rest => do
    let offset ← Word.mul 32 i blockSize
    let base ← Word.add 32 poolBase offset
    match Ipv4Network.new base eventNetmask with
    | none => some none
    | some cand =>
      if existing.any (fun m => v4Overlaps crate cand m.subnetCidr) ||
          dockerSubnets.any (v4Overlaps crate cand) then
        pickFrom poolBase blockSize eventNetmask existing dockerSubnets rest
      else some (some cand)

/-- `pick_subnet`: the first block of the pool that overlaps nothing. -/
def pickSubnet (pool : IpNetwork) (eventNetmask : Nat) (existing : List EventNetwork)
    (dockerSubnets : List IpNetwork) : Option (Option Ipv4Network) :=
  match pool with
  | .v6 => some none
  | .v4 pool =>
    if eventNetmask < pool.prefixLen ∨ 32 < eventNetmask then some none
    else do
      let blockSize ← Word.shl 32 1 (32 - eventNetmask)
      let blockCount ← Word.shl 32 1 (eventNetmask - pool.prefixLen)
      pickFrom crate (crate.network pool) blockSize eventNetmask existing dockerSubnets
        (List.range blockCount)

/-- The upper half of the block. -/
def dynamicPoolFor (subnet : Ipv4Network) : Option Ipv4Network := do
  let shift ← Word.sub 31 subnet.prefixLen
  let hostHalf ← Word.shl 32 1 shift
  let poolNet ← Word.add 32 (crate.network subnet) hostHalf
  Ipv4Network.new poolNet (subnet.prefixLen + 1)

/-- The address of the judge: the second one behind the network address. -/
def judgeIpFor (subnet : Ipv4Network) : Option Ipv4Network :=
  Ipv4Network.new ((crate.nth subnet 2).getD (crate.network subnet)) 32

/-- `practice_judge::dynamic_ip_range`, behind the parser of its argument. -/
def dynamicIpRange (ipnet : Ipv4Network) : Option (Option (Nat × Nat)) :=
  if 31 ≤ ipnet.prefixLen then some none
  else do
    let half ← Word.shl 32 1 (31 - ipnet.prefixLen)
    let base ← Word.add 32 (crate.network ipnet) half
    pure (some (base, ipnet.prefixLen + 1))

/-! ## Rows that are written -/

/-- The row that `allocate_event_network` inserts for a block. -/
def newRow (eventId : Nat) (networkName : String) (subnet : Ipv4Network) : Option EventNetwork := do
  let dynamicPool ← dynamicPoolFor crate subnet
  let judgeIp ← judgeIpFor crate subnet
  pure { eventId, networkName, subnetCidr := .v4 subnet, dynamicPoolCidr := .v4 dynamicPool,
         judgeIp := .v4 judgeIp, dockerNetworkId := none, status := .allocated }

/-- `mark_released`: the row stays. -/
def markReleased (eventId : Nat) (rows : List EventNetwork) : List EventNetwork :=
  rows.map fun r =>
    if r.eventId = eventId then { r with dockerNetworkId := none, status := .released } else r

/-- `allocate_event_network`: the row of the event, or a new one with the first free block. -/
def allocateEventNetwork (rows : List EventNetwork) (eventId : Nat) (networkName : String)
    (pool : IpNetwork) (eventNetmask : Nat) (dockerSubnets : List IpNetwork) :
    Option (Except AwdpError EventNetwork × List EventNetwork) :=
  match rows.find? (·.eventId = eventId) with
  | some row => some (.ok row, rows)
  | none => do
    match ← pickSubnet crate pool eventNetmask rows dockerSubnets with
    | none => some (.error (.internal "awdp event network pool exhausted"), rows)
    | some subnet =>
      let row ← newRow crate eventId networkName subnet
      if rows.any (fun r => r.networkName = networkName ∨ r.subnetCidr = row.subnetCidr) ||
          !row.checks then
        some (.error dbError, rows)
      else some (.ok row, row :: rows)

end Choice

/-! ## What a block should be -/

/-- The blocks of size `p` in the pool. -/
def PoolBlock (pool : Ipv4Network) (p : Nat) (b : Ipv4Network) : Prop :=
  b.prefixLen = p ∧ b.Aligned ∧ b.Within pool

/-- The block shares no address with the network. -/
def Apart (b : Ipv4Network) : IpNetwork → Prop
  | .v4 n => b.Disjoint n
  | .v6 => True

/-- The block overlaps no row and no Docker subnet. -/
def Free (existing : List EventNetwork) (dockerSubnets : List IpNetwork) (b : Ipv4Network) : Prop :=
  (∀ r ∈ existing, Apart b r.subnetCidr) ∧ ∀ s ∈ dockerSubnets, Apart b s

/-- The block overlaps a Docker subnet or a row that is not released. -/
def Taken (existing : List EventNetwork) (dockerSubnets : List IpNetwork) (b : Ipv4Network) :
    Prop :=
  (∃ s ∈ dockerSubnets, ¬ Apart b s) ∨
    ∃ r ∈ existing, r.status ≠ .released ∧ ¬ Apart b r.subnetCidr

section Layout

variable (crate : NetworkCrate) (b : Ipv4Network)

/-- The row of the block satisfies the constraints of the table. -/
def Admitted : Prop :=
  ∃ row, newRow crate 0 "" b = some row ∧ row.checks = true

/-- The dynamic pool is the upper half of the block, and the judge has the address of a host of the
lower half behind the gateway. -/
def GoodLayout : Prop :=
  ∃ pool judge, dynamicPoolFor crate b = some pool ∧ judgeIpFor crate b = some judge ∧
    (∀ a, pool.Mem a ↔ b.Mem a ∧ b.network + 2 ^ (31 - b.prefixLen) ≤ a) ∧
    judge.prefixLen = 32 ∧ b.Mem judge.network ∧ ¬ pool.Mem judge.network ∧
    judge.network ≠ b.network ∧ judge.network ≠ b.network + 1 ∧
    judge.network + 1 ≠ b.network + 2 ^ (32 - b.prefixLen)

end Layout

/-- The choice is right: no overflow, a free block of the pool with a good layout, and none only if
all blocks are taken. -/
def Allocates (crate : NetworkCrate) (pool : Ipv4Network) (eventNetmask : Nat)
    (existing : List EventNetwork) (dockerSubnets : List IpNetwork) : Prop :=
  ∃ r, pickSubnet crate (.v4 pool) eventNetmask existing dockerSubnets = some r ∧
    (∀ b, r = some b → PoolBlock pool eventNetmask b ∧ Free existing dockerSubnets b ∧
      (Admitted crate b → GoodLayout crate b)) ∧
    (r = none → ∀ b, PoolBlock pool eventNetmask b → Taken existing dockerSubnets b)

/-! ## Overlaps -/

variable {crate : NetworkCrate} {a b : Ipv4Network} {p i : Nat} {existing : List EventNetwork}
  {dockerSubnets : List IpNetwork}

theorem v4Overlaps_eq_false_iff (hI : crate.Documented) (n : IpNetwork) :
    v4Overlaps crate a n = false ↔ Apart a n := by
  cases n with
  | v6 => exact iff_of_true rfl trivial
  | v4 b =>
    show (crate.contains a b.network || crate.contains b a.network) = false ↔ a.Disjoint b
    rw [Bool.or_eq_false_iff, ← Bool.not_eq_true, ← Bool.not_eq_true, hI.contains a b.network_lt,
      hI.contains b a.network_lt]
    constructor
    · rintro ⟨hab, hba⟩ x hxa hxb
      rcases Nat.le_total (32 - a.prefixLen) (32 - b.prefixLen) with hle | hle
      · exact hba (Block.Same.of_meet hle hxb hxa)
      · exact hab (Block.Same.of_meet hle hxa hxb)
    · intro h
      exact ⟨fun hab => h _ hab rfl, fun hba => h _ rfl hba⟩

/-- The test of the loop. -/
def isTaken (crate : NetworkCrate) (existing : List EventNetwork) (dockerSubnets : List IpNetwork)
    (cand : Ipv4Network) : Bool :=
  existing.any (fun m => v4Overlaps crate cand m.subnetCidr) ||
    dockerSubnets.any (v4Overlaps crate cand)

theorem isTaken_eq_false_iff (hI : crate.Documented) :
    isTaken crate existing dockerSubnets b = false ↔ Free existing dockerSubnets b := by
  simp only [isTaken, Bool.or_eq_false_iff, List.any_eq_false, Bool.not_eq_true,
    v4Overlaps_eq_false_iff hI, Free]

/-- Releasing a network frees nothing: the status of a row is not read. -/
theorem pickSubnet_markReleased (eventId : Nat) (pool : IpNetwork) (eventNetmask : Nat) :
    pickSubnet crate pool eventNetmask (markReleased eventId existing) dockerSubnets =
      pickSubnet crate pool eventNetmask existing dockerSubnets := by
  have htest : ∀ cand, (markReleased eventId existing).any
      (fun m => v4Overlaps crate cand m.subnetCidr) =
        existing.any (fun m => v4Overlaps crate cand m.subnetCidr) := by
    intro cand
    rw [markReleased, List.any_map]
    refine congrArg existing.any (funext fun m => ?_)
    show v4Overlaps crate cand (if m.eventId = eventId then _ else m : EventNetwork).subnetCidr = _
    split_ifs <;> rfl
  have hloop : ∀ base size l, pickFrom crate base size eventNetmask (markReleased eventId existing)
      dockerSubnets l = pickFrom crate base size eventNetmask existing dockerSubnets l := by
    intro base size l
    induction l with
    | nil => rfl
    | cons i l ih => simp only [pickFrom, htest, ih]
  unfold pickSubnet
  simp only [hloop]

/-! ## The loop -/

section Loop

variable {pool : Ipv4Network} (hpool : pool.toColumn.prefixLen ≤ p) (hp : p ≤ 32)

include hpool

/-- The loop returns the first child of the pool that is not taken. -/
theorem pickFrom_eq (l : List Nat) (hl : ∀ i ∈ l, i < 2 ^ (p - pool.prefixLen)) :
    pickFrom crate pool.toColumn.network (2 ^ (32 - p)) p existing dockerSubnets l =
      some ((l.map (pool.toColumn.child p hp)).find? fun b =>
        !isTaken crate existing dockerSubnets b) := by
  induction l with
  | nil => rfl
  | cons i l ih =>
    obtain ⟨hi, hrest⟩ := List.forall_mem_cons.1 hl
    have hnet := Ipv4Cidr.child_network hpool hp pool.toColumn_aligned hi
    have hlt := (pool.toColumn.child p hp i).network_lt
    rw [hnet] at hlt
    have hnew : Ipv4Network.new (pool.toColumn.network + i * 2 ^ (32 - p)) p =
        some (pool.toColumn.child p hp i) := by
      rw [Ipv4Network.new, dif_pos ⟨hlt, hp⟩, Option.some_inj]
      exact Ipv4Cidr.eq_of_fields hnet.symm rfl
    rw [pickFrom, Word.mul_of_lt (by omega)]
    show (do
      let base ← Word.add 32 pool.toColumn.network (i * 2 ^ (32 - p))
      match Ipv4Network.new base p with
      | none => some none
      | some cand => if isTaken crate existing dockerSubnets cand then _ else some (some cand)) = _
    rw [Word.add_of_lt hlt]
    simp only [bind, Option.bind_some, hnew, ih hrest, List.map_cons, List.find?_cons]
    cases isTaken crate existing dockerSubnets (pool.toColumn.child p hp i) <;> rfl

include hp

/-- A block of the pool is one of the children. -/
theorem PoolBlock.eq_child (h : PoolBlock pool p b) :
    ∃ i < 2 ^ (p - pool.prefixLen), b = pool.toColumn.child p hp i := by
  obtain ⟨rfl, haligned, hwithin⟩ := h
  have hmem : pool.toColumn.Mem b.network := Ipv4Cidr.mem_toColumn.2 (hwithin _ rfl)
  obtain ⟨hi, hin⟩ := Ipv4Cidr.mem_some_child hpool hp pool.toColumn_aligned hmem
  refine ⟨_, hi, Ipv4Cidr.eq_of_fields ?_ rfl⟩
  obtain ⟨k, hk⟩ := haligned
  obtain ⟨j, hj⟩ := Ipv4Cidr.child_aligned hpool hp pool.toColumn_aligned hi
  have hpos : 0 < 2 ^ (32 - b.prefixLen) := by positivity
  have hkj : b.network / 2 ^ (32 - b.prefixLen) = _ / 2 ^ (32 - b.prefixLen) := hin
  rw [hj, hk, Nat.mul_div_cancel_left _ hpos] at hkj
  rw [hj, hk, hkj]
  exact congrArg _ (Nat.mul_div_cancel_left _ hpos)

theorem poolBlock_child (hi : i < 2 ^ (p - pool.prefixLen)) :
    PoolBlock pool p (pool.toColumn.child p hp i) :=
  ⟨rfl, Ipv4Cidr.child_aligned hpool hp pool.toColumn_aligned hi, fun _ ha =>
    Ipv4Cidr.mem_toColumn.1 (Ipv4Cidr.child_within hpool hp pool.toColumn_aligned hi _ ha)⟩

/-- The blocks of the pool in their order. -/
def poolBlocks (pool : Ipv4Network) (p : Nat) (hp : p ≤ 32) : List Ipv4Network :=
  (List.range (2 ^ (p - pool.prefixLen))).map (pool.toColumn.child p hp)

end Loop

/-! ## The layout of a block -/

theorem upperHalf_fits (hb : b.Aligned) (h31 : b.prefixLen ≤ 31) :
    b.network + 2 ^ (31 - b.prefixLen) < 2 ^ 32 ∧
      2 ^ (32 - b.prefixLen) = 2 ^ (31 - b.prefixLen) + 2 ^ (31 - b.prefixLen) := by
  have hend := hb.end_le
  have hhalf : 2 ^ (32 - b.prefixLen) = 2 ^ (31 - b.prefixLen) + 2 ^ (31 - b.prefixLen) := by
    rw [← Nat.two_mul, ← pow_succ']
    congr 1
    omega
  have hpos : 0 < 2 ^ (31 - b.prefixLen) := by positivity
  exact ⟨by omega, hhalf⟩

theorem admitted_iff {pool judge : Ipv4Network} (hpool : dynamicPoolFor crate b = some pool)
    (hjudge : judgeIpFor crate b = some judge) : Admitted crate b ↔
      b.inetHolds judge.network = true ∧ pool.inetWithinEq b = true ∧
        judge.inetWithinEq pool = false := by
  simp [Admitted, newRow, hpool, hjudge, EventNetwork.checks]

section Layout

variable (hI : crate.Documented) (hb : b.Aligned)

include hI hb

theorem network_eq : crate.network b = b.network := by
  rw [hI.network, Ipv4Cidr.toColumn_of_aligned hb]

/-- The dynamic pool is the upper half of the block. -/
theorem dynamicPoolFor_eq (h31 : b.prefixLen ≤ 31) :
    ∃ pool, dynamicPoolFor crate b = some pool ∧ pool.Aligned ∧
      pool.network = b.network + 2 ^ (31 - b.prefixLen) ∧ pool.prefixLen = b.prefixLen + 1 := by
  obtain ⟨hlt, hhalf⟩ := upperHalf_fits hb h31
  refine ⟨⟨b.network + 2 ^ (31 - b.prefixLen), b.prefixLen + 1, hlt, by omega⟩, ?_, ?_, rfl, rfl⟩
  · rw [dynamicPoolFor, Word.sub_of_le h31, network_eq hI hb]
    show (do
      let hostHalf ← Word.shl 32 1 (31 - b.prefixLen)
      let poolNet ← Word.add 32 b.network hostHalf
      Ipv4Network.new poolNet (b.prefixLen + 1)) = _
    rw [Word.shl_one (by omega)]
    show (do
      let poolNet ← Word.add 32 b.network (2 ^ (31 - b.prefixLen))
      Ipv4Network.new poolNet (b.prefixLen + 1)) = _
    rw [Word.add_of_lt hlt]
    exact dif_pos ⟨hlt, by omega⟩
  · rw [Ipv4Cidr.Aligned]
    show 2 ^ (32 - (b.prefixLen + 1)) ∣ b.network + 2 ^ (31 - b.prefixLen)
    rw [show 32 - (b.prefixLen + 1) = 31 - b.prefixLen by omega]
    exact Dvd.dvd.add ((pow_dvd_pow 2 (by omega)).trans hb) dvd_rfl

theorem dynamicIpRange_eq (h31 : b.prefixLen < 31) :
    ∃ pool, dynamicPoolFor crate b = some pool ∧
      dynamicIpRange crate b = some (some (pool.network, pool.prefixLen)) := by
  obtain ⟨pool, hpool, -, hnet, hlen⟩ := dynamicPoolFor_eq hI hb h31.le
  refine ⟨pool, hpool, ?_⟩
  obtain ⟨hlt, -⟩ := upperHalf_fits hb h31.le
  rw [dynamicIpRange, if_neg (by omega), Word.shl_one (by omega), network_eq hI hb]
  show (do
    let base ← Word.add 32 b.network (2 ^ (31 - b.prefixLen))
    pure (some (base, b.prefixLen + 1))) = _
  rw [Word.add_of_lt hlt, hnet, hlen]
  rfl

theorem judgeIpFor_eq (hpos : 0 < b.prefixLen) :
    ∃ judge, judgeIpFor crate b = some judge ∧ judge.prefixLen = 32 ∧
      judge.network = if b.prefixLen < 31 then b.network + 2 else b.network := by
  have hend := hb.end_le
  have hlt := b.network_lt
  have hsize : 2 < 2 ^ (32 - b.prefixLen) ↔ b.prefixLen < 31 := by
    constructor
    · intro h
      by_contra hge
      have hle : 2 ^ (32 - b.prefixLen) ≤ 2 ^ 1 := Nat.pow_le_pow_right (by decide) (by omega)
      omega
    · intro h
      have hle : 2 ^ 2 ≤ 2 ^ (32 - b.prefixLen) := Nat.pow_le_pow_right (by decide) (by omega)
      omega
  have hfits : (if b.prefixLen < 31 then b.network + 2 else b.network) < 2 ^ 32 := by
    split_ifs with h
    · have := hsize.2 h
      omega
    · exact hlt
  refine ⟨⟨_, 32, hfits, le_rfl⟩, ?_, rfl, rfl⟩
  have hip : (crate.nth b 2).getD (crate.network b) =
      if b.prefixLen < 31 then b.network + 2 else b.network := by
    rw [hI.nth b 2 hpos, network_eq hI hb, Ipv4Cidr.toColumn_of_aligned hb]
    simp only [hsize]
    split_ifs <;> rfl
  rw [judgeIpFor, hip]
  exact dif_pos ⟨hfits, le_rfl⟩

theorem goodLayout (hpos : 0 < b.prefixLen) (h29 : b.prefixLen ≤ 29) : GoodLayout crate b := by
  obtain ⟨pool, hpool, haligned, hnet, hlen⟩ := dynamicPoolFor_eq hI hb (by omega)
  obtain ⟨judge, hjudge, hjlen, hjnet⟩ := judgeIpFor_eq hI hb hpos
  obtain ⟨-, hhalf⟩ := upperHalf_fits hb (by omega : b.prefixLen ≤ 31)
  have hfour : 2 ^ 2 ≤ 2 ^ (31 - b.prefixLen) := Nat.pow_le_pow_right (by decide) (by omega)
  rw [if_pos (by omega)] at hjnet
  have hsize : 2 ^ (32 - pool.prefixLen) = 2 ^ (31 - b.prefixLen) := by
    rw [hlen]
    congr 1
    omega
  refine ⟨pool, judge, hpool, hjudge, fun a => ?_, hjlen, ?_⟩
  · rw [haligned.mem_iff, hb.mem_iff, hsize, hnet, hhalf]
    omega
  · rw [haligned.mem_iff, hb.mem_iff, hsize, hnet, hhalf, hjnet]
    omega

/-- At size 30 the judge would be in the dynamic pool, and at size 32 there is none. -/
theorem not_admitted (hpos : 0 < b.prefixLen) (h : b.prefixLen = 30 ∨ b.prefixLen = 32) :
    ¬ Admitted crate b := by
  rcases h with h30 | h32
  · obtain ⟨pool, hpool, -, hnet, hlen⟩ := dynamicPoolFor_eq hI hb (by omega)
    obtain ⟨judge, hjudge, hjlen, hjnet⟩ := judgeIpFor_eq hI hb hpos
    rw [admitted_iff hpool hjudge]
    rintro ⟨-, -, hout⟩
    rw [h30] at hnet hlen hjnet
    simp [Ipv4Cidr.inetWithinEq, hlen, hjlen, hnet, hjnet] at hout
  · rintro ⟨row, hrow, -⟩
    have hnone : dynamicPoolFor crate b = none := by
      rw [dynamicPoolFor, h32]
      rfl
    simp [newRow, hnone] at hrow

/-- At size 31 the row is admitted, and the judge has the network address. -/
theorem admitted_thirtyOne (h31 : b.prefixLen = 31) :
    Admitted crate b ∧ ¬ GoodLayout crate b := by
  obtain ⟨pool, hpool, -, hnet, hlen⟩ := dynamicPoolFor_eq hI hb (by omega)
  obtain ⟨judge, hjudge, hjlen, hjnet⟩ := judgeIpFor_eq hI hb (by omega)
  rw [h31] at hnet hlen hjnet
  have heven : 2 ∣ b.network := by
    rw [Ipv4Cidr.Aligned, h31] at hb
    exact hb
  constructor
  · rw [admitted_iff hpool hjudge]
    simp [Ipv4Cidr.inetHolds, Ipv4Cidr.inetWithinEq, h31, hlen, hjlen, hnet, hjnet]
    omega
  · rintro ⟨pool', judge', -, hjudge', -, -, -, -, hne, -⟩
    rw [hjudge] at hjudge'
    cases hjudge'
    exact hne hjnet

end Layout

/-! ## The whole choice -/

/-- What an allocation does to the rows: at most one is added, for the event and with the name, and
its name is new. -/
theorem allocateEventNetwork_rows {eventId : Nat} {networkName : String} {pool : IpNetwork}
    {m : Nat} {rows rows' : List EventNetwork} {result : Except AwdpError EventNetwork}
    (h : allocateEventNetwork crate rows eventId networkName pool m dockerSubnets =
      some (result, rows')) :
    (rows' = rows ∨ ∃ row, rows' = row :: rows ∧ row.eventId = eventId ∧
      row.networkName = networkName ∧ ∀ r ∈ rows, r.networkName ≠ networkName) ∧
    ∀ row, result = .ok row → row ∈ rows' ∧ row.eventId = eventId := by
  unfold allocateEventNetwork at h
  split at h
  next row' hfind =>
    cases h
    refine ⟨.inl rfl, ?_⟩
    rintro _ ⟨⟩
    exact ⟨List.mem_of_find?_eq_some hfind, of_decide_eq_true (List.find?_some hfind :)⟩
  next =>
    obtain ⟨r, -, h⟩ := Option.bind_eq_some_iff.1 h
    cases r with
    | none =>
      cases h
      exact ⟨.inl rfl, nofun⟩
    | some b =>
      obtain ⟨row', hrow, h⟩ := Option.bind_eq_some_iff.1 h
      obtain ⟨dynamicPool, -, hrow⟩ := Option.bind_eq_some_iff.1 hrow
      obtain ⟨judgeIp, -, hrow⟩ := Option.bind_eq_some_iff.1 hrow
      split_ifs at h with hbad
      · cases h
        exact ⟨.inl rfl, nofun⟩
      · simp only [Option.some.injEq, Prod.mk.injEq] at h
        obtain ⟨rfl, rfl⟩ := h
        cases hrow
        rw [Bool.not_eq_true, Bool.or_eq_false_iff, List.any_eq_false] at hbad
        refine ⟨.inr ⟨_, rfl, rfl, rfl, fun r hr heq => hbad.1 r hr (by simp [heq])⟩, ?_⟩
        rintro _ ⟨⟩
        exact ⟨List.mem_cons_self, rfl⟩

section Pick

variable {pool : Ipv4Network} {m : Nat} (hI : crate.Documented) (hpool : pool.prefixLen ≤ m)
  (hm : m ≤ 32)

theorem Free.not_taken (h : Free existing dockerSubnets b) : ¬ Taken existing dockerSubnets b := by
  rintro (⟨s, hs, hno⟩ | ⟨r, hr, -, hno⟩)
  · exact hno (h.2 s hs)
  · exact hno (h.1 r hr)

include hpool hm

/-- A shift by 32 is an overflow. -/
theorem pickSubnet_panics (h : ¬ (0 < m ∧ m - pool.prefixLen < 32)) :
    pickSubnet crate (.v4 pool) m existing dockerSubnets = none := by
  rw [pickSubnet, if_neg (by omega)]
  by_cases h0 : 0 < m
  · rw [Word.shl_one (by omega), Word.shl_eq_none_iff.2 (by omega : 32 ≤ m - pool.prefixLen)]
    rfl
  · rw [Word.shl_eq_none_iff.2 (by omega)]
    rfl

include hI

theorem pickSubnet_eq (h : 0 < m ∧ m - pool.prefixLen < 32) :
    pickSubnet crate (.v4 pool) m existing dockerSubnets =
      some ((poolBlocks pool m hm).find? fun b => !isTaken crate existing dockerSubnets b) := by
  rw [pickSubnet, if_neg (by omega), Word.shl_one (by omega)]
  show (do
    let blockCount ← Word.shl 32 1 (m - pool.prefixLen)
    pickFrom crate (crate.network pool) (2 ^ (32 - m)) m existing dockerSubnets
      (List.range blockCount)) = _
  rw [Word.shl_one h.2, hI.network]
  exact pickFrom_eq hpool hm _ fun i hi => List.mem_range.1 hi

omit hI in
theorem mem_poolBlocks_iff : b ∈ poolBlocks pool m hm ↔ PoolBlock pool m b := by
  constructor
  · intro h
    obtain ⟨i, hi, rfl⟩ := List.mem_map.1 h
    exact poolBlock_child hpool hm (List.mem_range.1 hi)
  · intro h
    obtain ⟨i, hi, rfl⟩ := h.eq_child hpool hm
    exact List.mem_map_of_mem (List.mem_range.2 hi)

/-- A block that is returned is free; none is returned if no block is free. -/
theorem pickSubnet_some (h : 0 < m ∧ m - pool.prefixLen < 32)
    (hb : pickSubnet crate (.v4 pool) m existing dockerSubnets = some (some b)) :
    PoolBlock pool m b ∧ Free existing dockerSubnets b := by
  rw [pickSubnet_eq hI hpool hm h, Option.some_inj] at hb
  refine ⟨(mem_poolBlocks_iff hpool hm).1 (List.mem_of_find?_eq_some hb), ?_⟩
  have htest := List.find?_some hb
  rwa [Bool.not_eq_true', isTaken_eq_false_iff hI] at htest

theorem pickSubnet_none_iff (h : 0 < m ∧ m - pool.prefixLen < 32) :
    pickSubnet crate (.v4 pool) m existing dockerSubnets = some none ↔
      ∀ b, PoolBlock pool m b → ¬ Free existing dockerSubnets b := by
  rw [pickSubnet_eq hI hpool hm h, Option.some_inj, List.find?_eq_none]
  simp only [mem_poolBlocks_iff hpool hm, Bool.not_eq_true', isTaken_eq_false_iff hI]

/-- The choice is right if and only if no shift is by 32, and either all blocks are taken by Docker
or by rows that are not released, or some block is free of all rows and the size is not 31. -/
theorem allocates_iff :
    Allocates crate pool m existing dockerSubnets ↔
      (0 < m ∧ m - pool.prefixLen < 32) ∧
        ((∀ b, PoolBlock pool m b → Taken existing dockerSubnets b) ∨
          m ≠ 31 ∧ ∃ b, PoolBlock pool m b ∧ Free existing dockerSubnets b) := by
  constructor
  · rintro ⟨r, hr, hsome, hnone⟩
    have hsize : 0 < m ∧ m - pool.prefixLen < 32 := by
      by_contra h
      rw [pickSubnet_panics hpool hm h] at hr
      cases hr
    refine ⟨hsize, ?_⟩
    cases r with
    | none => exact .inl (hnone rfl)
    | some b =>
      obtain ⟨hblock, hfree, hlayout⟩ := hsome b rfl
      refine .inr ⟨fun h31 => ?_, b, hblock, hfree⟩
      obtain ⟨hadm, hbad⟩ := admitted_thirtyOne hI hblock.2.1 (hblock.1.trans h31)
      exact hbad (hlayout hadm)
  · rintro ⟨hsize, hcase⟩
    refine ⟨_, pickSubnet_eq hI hpool hm hsize, fun b hb => ?_, fun hnone => ?_⟩
    · obtain ⟨hblock, hfree⟩ := pickSubnet_some hI hpool hm hsize
        ((pickSubnet_eq hI hpool hm hsize).trans (congrArg some hb))
      refine ⟨hblock, hfree, fun hadm => ?_⟩
      have h31 : m ≠ 31 := by
        rcases hcase with htaken | ⟨h31, -⟩
        · exact absurd (htaken b hblock) hfree.not_taken
        · exact h31
      obtain ⟨hlen, haligned, -⟩ := hblock
      have h29 : b.prefixLen ≤ 29 := by
        by_contra hgt
        exact not_admitted hI haligned (by omega) (by omega) hadm
      exact goodLayout hI haligned (by omega) h29
    · rcases hcase with htaken | ⟨-, b, hblock, hfree⟩
      · exact htaken
      · exact absurd hfree ((pickSubnet_none_iff hI hpool hm hsize).1
          ((pickSubnet_eq hI hpool hm hsize).trans (congrArg some hnone)) b hblock)

/-- A row that is inserted has a free block of the pool and satisfies the constraints. -/
theorem allocateEventNetwork_ok {eventId : Nat} {networkName : String} {row : EventNetwork}
    {rows rows' : List EventNetwork}
    (h : allocateEventNetwork crate rows eventId networkName (.v4 pool) m dockerSubnets =
      some (.ok row, rows')) :
    rows' = rows ∧ row ∈ rows ∨ rows' = row :: rows ∧ row.eventId = eventId ∧ row.checks = true ∧
      ∃ b, row.subnetCidr = .v4 b ∧ PoolBlock pool m b ∧ Free rows dockerSubnets b := by
  unfold allocateEventNetwork at h
  split at h
  next row' hfind =>
    cases h
    exact .inl ⟨rfl, List.mem_of_find?_eq_some hfind⟩
  next =>
    obtain ⟨r, hpick, h⟩ := Option.bind_eq_some_iff.1 h
    cases r with
    | none => cases h
    | some b =>
      obtain ⟨row', hrow, h⟩ := Option.bind_eq_some_iff.1 h
      obtain ⟨dynamicPool, -, hrow⟩ := Option.bind_eq_some_iff.1 hrow
      obtain ⟨judgeIp, -, hrow⟩ := Option.bind_eq_some_iff.1 hrow
      cases hrow
      split_ifs at h with hbad
      · cases h
      simp only [Option.some.injEq, Prod.mk.injEq, Except.ok.injEq] at h
      obtain ⟨rfl, rfl⟩ := h
      rw [Bool.not_eq_true, Bool.or_eq_false_iff, Bool.not_eq_false'] at hbad
      have hsize : 0 < m ∧ m - pool.prefixLen < 32 := by
        by_contra hno
        rw [pickSubnet_panics hpool hm hno] at hpick
        cases hpick
      exact .inr ⟨rfl, rfl, hbad.2, b, rfl, pickSubnet_some hI hpool hm hsize hpick⟩

end Pick

/-! ## A crate as documented -/

/-- The functions of the crate by their documentation. -/
def NetworkCrate.reference : NetworkCrate where
  network n := n.toColumn.network
  contains n a := a / 2 ^ (32 - n.prefixLen) = n.network / 2 ^ (32 - n.prefixLen)
  nth n i := if i < 2 ^ (32 - n.prefixLen) then some (n.toColumn.network + i) else none

theorem NetworkCrate.reference_documented : NetworkCrate.reference.Documented where
  network _ := rfl
  contains _ _ _ := decide_eq_true_iff
  nth _ _ _ := rfl

/-- The network `10.b.c.d` of this size. -/
def tenBlock (b c d prefixLen : Nat) (h : b < 256 ∧ c < 256 ∧ d < 256 ∧ prefixLen ≤ 32) :
    Ipv4Network where
  network := 10 * 2 ^ 24 + b * 2 ^ 16 + c * 256 + d
  prefixLen := prefixLen
  network_lt := by omega
  prefix_le := h.2.2.2

/-- The row of an event with the block `10.42.k.0/24`. -/
def exampleRow (eventId : Nat) (k : Fin 256) (status : NetworkStatus) : EventNetwork where
  eventId := eventId
  networkName := s!"fctf-awdp-{eventId}"
  subnetCidr := .v4 (tenBlock 42 k 0 24 (by omega))
  dynamicPoolCidr := .v4 (tenBlock 42 k 128 25 (by omega))
  judgeIp := .v4 (tenBlock 42 k 2 32 (by omega))
  dockerNetworkId := none
  status := status

/-- In `10.42.0.0/16` the first blocks of size 24 have a row that is deployed, a row that is released
and a Docker subnet; the fourth one is returned. -/
theorem allocates_example :
    pickSubnet .reference (.v4 ⟨(10 * 256 + 42) * 2 ^ 16, 16, by decide, by decide⟩) 24
        [exampleRow 1 0 .deployed, exampleRow 2 1 .released]
        [.v6, .v4 ⟨(10 * 256 + 42) * 2 ^ 16 + 512, 24, by decide, by decide⟩] =
      some (some ⟨(10 * 256 + 42) * 2 ^ 16 + 768, 24, by decide, by decide⟩) ∧
    Allocates .reference ⟨(10 * 256 + 42) * 2 ^ 16, 16, by decide, by decide⟩ 24
      [exampleRow 1 0 .deployed, exampleRow 2 1 .released]
      [.v6, .v4 ⟨(10 * 256 + 42) * 2 ^ 16 + 512, 24, by decide, by decide⟩] :=
  ⟨by decide, (allocates_iff NetworkCrate.reference_documented (by decide) (by decide)).2
    ⟨by decide, .inr ⟨by decide,
      ⟨(10 * 256 + 42) * 2 ^ 16 + 768, 24, by decide, by decide⟩,
      ⟨rfl, by decide, fun a ha => Block.Same.trans (b := (10 * 256 + 42) * 2 ^ 16 + 768) (by decide)
        (Block.Same.mono (s := 8) (by decide) ha)⟩,
      (isTaken_eq_false_iff NetworkCrate.reference_documented).1 (by decide)⟩⟩⟩

/-- A pool of one block, the block of an event whose network was released: there is no block for the
next event.  A pool of two blocks of size 31: the judge gets the network address.  With the pool of
all addresses, blocks of size 0 or 32 overflow. -/
theorem allocates_fails :
    ¬ Allocates .reference ⟨10 * 2 ^ 24, 24, by decide, by decide⟩ 24
        (markReleased 1 [{ eventId := 1, networkName := "fctf-awdp-1",
                           subnetCidr := .v4 ⟨10 * 2 ^ 24, 24, by decide, by decide⟩,
                           dynamicPoolCidr := .v4 ⟨10 * 2 ^ 24 + 128, 25, by decide, by decide⟩,
                           judgeIp := .v4 ⟨10 * 2 ^ 24 + 2, 32, by decide, by decide⟩,
                           dockerNetworkId := some "net", status := .deployed }]) [] ∧
      ¬ Allocates .reference ⟨10 * 2 ^ 24, 30, by decide, by decide⟩ 31 [] [] ∧
      pickSubnet .reference (.v4 ⟨0, 0, by decide, by decide⟩) 0 [] [] = none ∧
      pickSubnet .reference (.v4 ⟨0, 0, by decide, by decide⟩) 32 [] [] = none := by
  refine ⟨?_, ?_, by decide, by decide⟩
  · rintro ⟨r, hr, -, hnone⟩
    have hr' : r = none := Option.some_inj.1 (hr.symm.trans (by decide))
    rcases hnone hr' ⟨10 * 2 ^ 24, 24, by decide, by decide⟩
      ⟨rfl, by decide, fun _ ha => ha⟩ with ⟨s, hs, -⟩ | ⟨row, hrow, hstatus, -⟩
    · cases hs
    · rw [markReleased, List.map_singleton, List.mem_singleton] at hrow
      exact hstatus (by rw [hrow]; rfl)
  · rintro ⟨r, hr, hsome, -⟩
    have hr' : r = some ⟨10 * 2 ^ 24, 31, by decide, by decide⟩ :=
      Option.some_inj.1 (hr.symm.trans (by decide))
    obtain ⟨hblock, -, hlayout⟩ := hsome _ hr'
    obtain ⟨hadm, hbad⟩ := admitted_thirtyOne NetworkCrate.reference_documented hblock.2.1 rfl
    exact hbad (hlayout hadm)

end FloatCtf.Awdp
