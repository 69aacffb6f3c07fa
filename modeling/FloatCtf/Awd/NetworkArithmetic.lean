import FloatCtf.Awd.Network
import FloatCtf.Net.Word

/-!
# The arithmetic of a block with overflow checks

The functions of `Ipv4Cidr` as a build with overflow checks runs them: `none` is a panic.  They are
exact for a block whose network address is its first one and whose prefix is not `0`, and only
there: a prefix of `0` shifts a word by its whole width, and `parse` keeps the bits of the address
behind the prefix, from which the children and the hosts are then counted.
-/

namespace FloatCtf.Awd.Ipv4Cidr

open Block

/-! ## The functions -/

namespace Checked

/-- The mask on 32 bits; a shift by 32 overflows. -/
def mask (c : Ipv4Cidr) : Option Nat := Word.shl 32 (2 ^ 32 - 1) (32 - c.prefixLen)

/-- The last address, if the mask can be computed. -/
def broadcastAddress (c : Ipv4Cidr) : Option Nat := do
  let mask ← mask c
  pure (c.network ||| (2 ^ 32 - 1 - mask))

/-- The test of an address, if the mask can be computed. -/
def contains (c : Ipv4Cidr) (ip : Nat) : Option Bool := do
  let mask ← mask c
  pure (ip &&& mask = c.network &&& mask)

/-- `a || b`: the second one is only computed when the first one is false. -/
def orElse (a b : Option Bool) : Option Bool := a.bind fun v => if v then some true else b

/-- The test of two blocks, up to the first part that is true or overflows. -/
def overlaps (c d : Ipv4Cidr) : Option Bool :=
  orElse (contains c d.network) <|
    orElse ((broadcastAddress d).bind (contains c)) <|
      orElse (contains d c.network) ((broadcastAddress c).bind (contains d))

/-- The address of a host, if nothing overflows. -/
def nthHost (c : Ipv4Cidr) (n : Nat) : Option (Option Nat) :=
  if c.totalAddresses < 3 ∨ c.totalAddresses - 2 ≤ n then some none
  else do
    let host ← Word.add 32 n 1
    let ip ← Word.add 32 c.network host
    pure (some ip)

/-- The block `index` of the size of `newPrefix`, counted from the network address. -/
def slot (c : Ipv4Cidr) (newPrefix : Nat) (hp : newPrefix ≤ 32) (index : Nat) : Option Ipv4Cidr :=
  if h : c.network + index * 2 ^ (32 - newPrefix) % 2 ^ 32 < 2 ^ 32 then
    some ⟨c.network + index * 2 ^ (32 - newPrefix) % 2 ^ 32, newPrefix, h, hp⟩
  else none

theorem le_of_not_outside {c : Ipv4Cidr} {newPrefix : Nat}
    (h : ¬ (newPrefix < c.prefixLen ∨ 32 < newPrefix)) : newPrefix ≤ 32 := by
  omega

/-- All blocks of a longer prefix, if nothing overflows. -/
def subnets (c : Ipv4Cidr) (newPrefix : Nat) : Option (Option (List Ipv4Cidr)) :=
  if h : newPrefix < c.prefixLen ∨ 32 < newPrefix then some none
  else
    ((List.range (2 ^ (newPrefix - c.prefixLen))).mapM
      (slot c newPrefix (le_of_not_outside h))).map some

/-- One block of a longer prefix, if nothing overflows. -/
def nthSubnet (c : Ipv4Cidr) (newPrefix index : Nat) : Option (Option Ipv4Cidr) :=
  if h : newPrefix < c.prefixLen ∨ 32 < newPrefix then some none
  else if 2 ^ (newPrefix - c.prefixLen) ≤ index then some none
  else (slot c newPrefix (le_of_not_outside h) index).map some

/-- The number of a block in its parent, if nothing overflows. -/
def subnetIndexIn (c parent : Ipv4Cidr) : Option (Option Nat) :=
  if c.prefixLen < parent.prefixLen then some none
  else do
    let inside ← contains parent c.network
    -- `wrapping_sub`
    let offset := (c.network + 2 ^ 32 - parent.network) % 2 ^ 32
    let size := 2 ^ (32 - c.prefixLen)
    pure (if !inside ∨ offset % size ≠ 0 then none else some (offset / size))

end Checked

/-! ## What they should mean -/

/-- `l` is what the functions make of the children of size `p`. -/
structure ExactChildren (c : Ipv4Cidr) (p : Nat) (l : List Ipv4Cidr) : Prop where
  subnets : Checked.subnets c p = some (some l)
  length : l.length = 2 ^ (p - c.prefixLen)
  nth : ∀ i, Checked.nthSubnet c p i = some l[i]?
  size : ∀ d ∈ l, d.prefixLen = p
  apart : l.Pairwise Disjoint
  within : ∀ d ∈ l, d.Within c
  cover : ∀ a, c.Mem a → ∃ d ∈ l, d.Mem a
  index : ∀ i d, l[i]? = some d → Checked.subnetIndexIn d c = some (some i)

/-- The functions of one block: nothing overflows, and each one means what it should. -/
structure ExactBlock (c : Ipv4Cidr) : Prop where
  contains : ∃ last, Checked.broadcastAddress c = some last ∧
    ∀ ip < 2 ^ 32, Checked.contains c ip = some (decide (c.network ≤ ip ∧ ip ≤ last))
  children : ∀ p, c.prefixLen ≤ p → p ≤ 32 → ∃ l, ExactChildren c p l
  hosts : ∀ n, ∃ host, Checked.nthHost c n = some host ∧ ∀ ip, host = some ip →
    c.Mem ip ∧ ip ≠ c.network ∧ Checked.broadcastAddress c ≠ some ip

/-- The functions of two blocks. -/
structure ExactPair (c d : Ipv4Cidr) : Prop where
  overlaps : ∃ v, Checked.overlaps c d = some v ∧ (v = true ↔ ∃ a, c.Mem a ∧ d.Mem a)
  strangers : (∀ i, Checked.nthSubnet c d.prefixLen i ≠ some (some d)) →
    Checked.subnetIndexIn d c = some none

/-- All functions are exact on the two blocks. -/
def Exact (c d : Ipv4Cidr) : Prop :=
  (ExactBlock c ∧ ExactBlock d) ∧ ExactPair c d ∧ ExactPair d c

/-- The prefix is not `0` and the network address has no bits behind it. -/
def Normalised (c : Ipv4Cidr) : Prop := 0 < c.prefixLen ∧ c.Aligned

instance (c : Ipv4Cidr) : Decidable c.Normalised := inferInstanceAs (Decidable (_ ∧ _))

/-! ## Masks -/

variable {c d : Ipv4Cidr}

theorem checked_mask (hc : 0 < c.prefixLen) : Checked.mask c = some c.mask := by
  have hs : 32 - c.prefixLen < 32 := by omega
  rw [Checked.mask, Word.shl_of_lt hs, mask, Nat.mod_eq_of_lt hs]

theorem checked_mask_zero (hc : c.prefixLen = 0) : Checked.mask c = none := by
  rw [Checked.mask, Word.shl_eq_none_iff, hc]

theorem checked_broadcastAddress (hc : 0 < c.prefixLen) :
    Checked.broadcastAddress c = some c.broadcastAddress := by
  rw [Checked.broadcastAddress, checked_mask hc]
  rfl

theorem checked_contains (hc : 0 < c.prefixLen) (ip : Nat) :
    Checked.contains c ip = some (c.contains ip) := by
  rw [Checked.contains, checked_mask hc]
  rfl

theorem orElse_some (a b : Bool) : Checked.orElse (some a) (some b) = some (a || b) := by
  cases a <;> rfl

theorem checked_overlaps (hc : 0 < c.prefixLen) (hd : 0 < d.prefixLen) :
    Checked.overlaps c d = some (c.overlaps d) := by
  simp only [Checked.overlaps, checked_contains hc, checked_contains hd,
    checked_broadcastAddress hc, checked_broadcastAddress hd, Option.bind_some, orElse_some,
    overlaps, Bool.or_assoc]

/-- The last address of an aligned block. -/
theorem Aligned.broadcastAddress_eq (h : c.Aligned) (hc : 0 < c.prefixLen) :
    c.broadcastAddress = c.network + (2 ^ (32 - c.prefixLen) - 1) := by
  have hlow : 2 ^ (32 - c.prefixLen) - 1 < 2 ^ (32 - c.prefixLen) :=
    Nat.sub_lt (by positivity) (by decide)
  rw [Ipv4Cidr.broadcastAddress_eq hc]
  obtain ⟨k, hk⟩ := h
  rw [hk, Nat.two_pow_add_eq_or_of_lt hlow]

/-! ## Children -/

theorem mapM_eq_some_map {α β : Type} {f : α → Option β} {g : α → β} {l : List α}
    (h : ∀ x ∈ l, f x = some (g x)) : l.mapM f = some (l.map g) := by
  induction l with
  | nil => rfl
  | cons x l ih =>
    obtain ⟨hx, hl⟩ := List.forall_mem_cons.1 h
    rw [List.mapM_cons, hx, ih hl]
    rfl

/-- The child `i` of size `p`. -/
def child (c : Ipv4Cidr) (p : Nat) (hp : p ≤ 32) (i : Nat) : Ipv4Cidr :=
  ⟨(c.network + i * 2 ^ (32 - p)) % 2 ^ 32, p, Nat.mod_lt _ (by positivity), hp⟩

section Children

variable {p i : Nat} (hcp : c.prefixLen ≤ p) (hp : p ≤ 32)

include hcp hp

theorem size_eq : 2 ^ (32 - c.prefixLen) = 2 ^ (p - c.prefixLen) * 2 ^ (32 - p) := by
  rw [← pow_add]
  congr 1
  omega

/-- The first `i + 1` children fit into the block. -/
theorem child_room (hi : i < 2 ^ (p - c.prefixLen)) :
    i * 2 ^ (32 - p) + 2 ^ (32 - p) ≤ 2 ^ (32 - c.prefixLen) := by
  rw [size_eq hcp hp, ← Nat.succ_mul]
  exact Nat.mul_le_mul_right _ hi

variable (h : c.Aligned)

include h

theorem child_network (hi : i < 2 ^ (p - c.prefixLen)) :
    (c.child p hp i).network = c.network + i * 2 ^ (32 - p) := by
  have hroom := child_room hcp hp hi
  have hend := h.end_le
  have hpos : 0 < 2 ^ (32 - p) := by positivity
  exact Nat.mod_eq_of_lt (by omega)

theorem checked_slot (hi : i < 2 ^ (p - c.prefixLen)) :
    Checked.slot c p hp i = some (c.child p hp i) := by
  have hroom := child_room hcp hp hi
  have hend := h.end_le
  have hpos : 0 < 2 ^ (32 - p) := by positivity
  have hoff : i * 2 ^ (32 - p) % 2 ^ 32 = i * 2 ^ (32 - p) := Nat.mod_eq_of_lt (by omega)
  have hfit : c.network + i * 2 ^ (32 - p) < 2 ^ 32 := by omega
  rw [Checked.slot, dif_pos (by rwa [hoff]), Option.some_inj, child, mk.injEq, hoff,
    Nat.mod_eq_of_lt hfit]
  exact ⟨rfl, rfl⟩

theorem checked_nthSubnet (i : Nat) : Checked.nthSubnet c p i =
    some (if i < 2 ^ (p - c.prefixLen) then some (c.child p hp i) else none) := by
  rw [Checked.nthSubnet, dif_neg (by omega)]
  by_cases hi : i < 2 ^ (p - c.prefixLen)
  · rw [if_neg (Nat.not_le_of_lt hi), checked_slot hcp hp h hi, if_pos hi]
    rfl
  · rw [if_pos (Nat.le_of_not_lt hi), if_neg hi]

theorem checked_subnets : Checked.subnets c p =
    some (some ((List.range (2 ^ (p - c.prefixLen))).map (c.child p hp))) := by
  rw [Checked.subnets, dif_neg (by omega), mapM_eq_some_map fun i hi =>
    checked_slot hcp hp h (List.mem_range.1 hi)]
  rfl

theorem child_aligned (hi : i < 2 ^ (p - c.prefixLen)) : (c.child p hp i).Aligned := by
  rw [Aligned, child_network hcp hp h hi]
  exact Dvd.dvd.add ((pow_dvd_pow 2 (by show 32 - p ≤ _; omega)).trans h) (Dvd.intro_left i rfl)

theorem mem_child_iff {a : Nat} (hi : i < 2 ^ (p - c.prefixLen)) :
    (c.child p hp i).Mem a ↔
      c.network + i * 2 ^ (32 - p) ≤ a ∧ a < c.network + i * 2 ^ (32 - p) + 2 ^ (32 - p) := by
  rw [(child_aligned hcp hp h hi).mem_iff, child_network hcp hp h hi]
  rfl

theorem child_within (hi : i < 2 ^ (p - c.prefixLen)) : (c.child p hp i).Within c := by
  intro a ha
  have hroom := child_room hcp hp hi
  rw [mem_child_iff hcp hp h hi] at ha
  rw [h.mem_iff]
  omega

theorem child_disjoint {j : Nat} (hij : i < j) (hj : j < 2 ^ (p - c.prefixLen)) :
    (c.child p hp i).Disjoint (c.child p hp j) := by
  intro a hai haj
  rw [mem_child_iff hcp hp h (hij.trans hj)] at hai
  rw [mem_child_iff hcp hp h hj] at haj
  have hle := Nat.mul_le_mul_right (2 ^ (32 - p)) (Nat.succ_le_of_lt hij)
  rw [Nat.succ_mul] at hle
  omega

/-- An address of the block is in the child that its distance from the start names. -/
theorem mem_some_child {a : Nat} (ha : c.Mem a) :
    (a - c.network) / 2 ^ (32 - p) < 2 ^ (p - c.prefixLen) ∧
      (c.child p hp ((a - c.network) / 2 ^ (32 - p))).Mem a := by
  rw [h.mem_iff] at ha
  have hpos : 0 < 2 ^ (32 - p) := by positivity
  have hi : (a - c.network) / 2 ^ (32 - p) < 2 ^ (p - c.prefixLen) := by
    rw [Nat.div_lt_iff_lt_mul hpos, ← size_eq hcp hp]
    omega
  refine ⟨hi, (mem_child_iff hcp hp h hi).2 ?_⟩
  have hle := Nat.div_mul_le_self (a - c.network) (2 ^ (32 - p))
  have hlt := Nat.lt_div_mul_add hpos (a := a - c.network)
  omega

variable (hc : 0 < c.prefixLen)

include hc

theorem checked_subnetIndexIn_child (hi : i < 2 ^ (p - c.prefixLen)) :
    Checked.subnetIndexIn (c.child p hp i) c = some (some i) := by
  have hroom := child_room hcp hp hi
  have hend := h.end_le
  have hpos : 0 < 2 ^ (32 - p) := by positivity
  have hin : c.contains (c.child p hp i).network = true :=
    (contains_iff hc (c.child p hp i).network_lt).2 (child_within hcp hp h hi _ mem_network)
  have hoff : ((c.child p hp i).network + 2 ^ 32 - c.network) % 2 ^ 32 = i * 2 ^ (32 - p) := by
    rw [child_network hcp hp h hi,
      show c.network + i * 2 ^ (32 - p) + 2 ^ 32 - c.network = i * 2 ^ (32 - p) + 2 ^ 32 by omega,
      Nat.add_mod_right]
    exact Nat.mod_eq_of_lt (by omega)
  have hlen : (c.child p hp i).prefixLen = p := rfl
  rw [Checked.subnetIndexIn, if_neg (by omega), checked_contains hc, hin, hlen, hoff]
  show some (if !true ∨ i * 2 ^ (32 - p) % 2 ^ (32 - p) ≠ 0 then none
    else some (i * 2 ^ (32 - p) / 2 ^ (32 - p))) = _
  rw [Nat.mul_mod_left, Nat.mul_div_cancel _ hpos]
  rfl

end Children

/-- What the functions make of the children of a block in normal form. -/
theorem exactChildren (hc : c.Normalised) {p : Nat} (hcp : c.prefixLen ≤ p) (hp : p ≤ 32) :
    ExactChildren c p ((List.range (2 ^ (p - c.prefixLen))).map (c.child p hp)) := by
  obtain ⟨hpos, h⟩ := hc
  have hget : ∀ i, ((List.range (2 ^ (p - c.prefixLen))).map (c.child p hp))[i]? =
      if i < 2 ^ (p - c.prefixLen) then some (c.child p hp i) else none := by
    intro i
    by_cases hi : i < 2 ^ (p - c.prefixLen)
    · simp [hi]
    · simp [hi]
  constructor
  · exact checked_subnets hcp hp h
  · simp
  · exact fun i => (checked_nthSubnet hcp hp h i).trans (congrArg some (hget i).symm)
  · intro d hd
    obtain ⟨i, -, rfl⟩ := List.mem_map.1 hd
    rfl
  · rw [List.pairwise_map]
    exact List.pairwise_lt_range.imp_of_mem fun _ hj hij =>
      child_disjoint hcp hp h hij (List.mem_range.1 hj)
  · intro d hd
    obtain ⟨i, hi, rfl⟩ := List.mem_map.1 hd
    exact child_within hcp hp h (List.mem_range.1 hi)
  · intro a ha
    obtain ⟨hi, hmem⟩ := mem_some_child hcp hp h ha
    exact ⟨_, List.mem_map_of_mem (List.mem_range.2 hi), hmem⟩
  · intro i d hid
    rw [hget] at hid
    split_ifs at hid with hi
    cases hid
    exact checked_subnetIndexIn_child hcp hp h hpos hi

/-! ## Hosts and strangers -/

theorem exact_hosts (hc : c.Normalised) (n : Nat) :
    ∃ host, Checked.nthHost c n = some host ∧ ∀ ip, host = some ip →
      c.Mem ip ∧ ip ≠ c.network ∧ Checked.broadcastAddress c ≠ some ip := by
  obtain ⟨hpos, h⟩ := hc
  rw [Checked.nthHost]
  split_ifs with hn
  · exact ⟨none, rfl, nofun⟩
  · have hend := h.end_le
    have htotal : c.totalAddresses = 2 ^ (32 - c.prefixLen) := rfl
    rw [htotal] at hn
    rw [Word.add_of_lt (by omega)]
    refine ⟨some (c.network + (n + 1)), ?_, ?_⟩
    · show (do let ip ← Word.add 32 c.network (n + 1); pure (some ip)) = _
      rw [Word.add_of_lt (by omega)]
      rfl
    · rintro ip ⟨⟩
      rw [h.mem_iff, checked_broadcastAddress hpos, h.broadcastAddress_eq hpos, ne_eq, ne_eq,
        Option.some_inj]
      omega

theorem eq_of_fields (hn : c.network = d.network) (hp : c.prefixLen = d.prefixLen) : c = d := by
  cases c
  cases d
  cases hn
  cases hp
  rfl

/-- A block that is no child has no index: it starts outside or between two children. -/
theorem exact_strangers (hc : c.Normalised)
    (hd : ∀ i, Checked.nthSubnet c d.prefixLen i ≠ some (some d)) :
    Checked.subnetIndexIn d c = some none := by
  obtain ⟨hpos, h⟩ := hc
  rw [Checked.subnetIndexIn]
  split_ifs with hlt
  · rfl
  rw [checked_contains hpos]
  show some _ = _
  refine congrArg some (if_pos ?_)
  by_contra hno
  rw [not_or, Bool.not_eq_true', Bool.not_eq_false, ne_eq, not_not] at hno
  obtain ⟨hin, hdvd⟩ := hno
  have hcp : c.prefixLen ≤ d.prefixLen := Nat.le_of_not_lt hlt
  have hmem := (contains_iff hpos d.network_lt).1 hin
  obtain ⟨hi, -⟩ := mem_some_child hcp d.prefix_le h hmem
  rw [h.mem_iff] at hmem
  have hoff : (d.network + 2 ^ 32 - c.network) % 2 ^ 32 = d.network - c.network := by
    have hnd := d.network_lt
    rw [show d.network + 2 ^ 32 - c.network = d.network - c.network + 2 ^ 32 by omega,
      Nat.add_mod_right]
    exact Nat.mod_eq_of_lt (by omega)
  rw [hoff] at hdvd
  have hself : c.child d.prefixLen d.prefix_le
      ((d.network - c.network) / 2 ^ (32 - d.prefixLen)) = d := by
    refine eq_of_fields ?_ rfl
    rw [child_network hcp d.prefix_le h hi, Nat.div_mul_cancel (Nat.dvd_of_mod_eq_zero hdvd)]
    exact Nat.add_sub_cancel' hmem.1
  refine hd ((d.network - c.network) / 2 ^ (32 - d.prefixLen)) ?_
  rw [checked_nthSubnet hcp d.prefix_le h, if_pos hi, hself]

/-! ## Exactly the normal form -/

theorem exact_contains (hc : c.Normalised) :
    ∃ last, Checked.broadcastAddress c = some last ∧
      ∀ ip < 2 ^ 32, Checked.contains c ip = some (decide (c.network ≤ ip ∧ ip ≤ last)) := by
  obtain ⟨hpos, h⟩ := hc
  refine ⟨_, checked_broadcastAddress hpos, fun ip hip => ?_⟩
  rw [checked_contains hpos, Option.some_inj, Bool.eq_iff_iff, contains_iff hpos hip, h.mem_iff,
    h.broadcastAddress_eq hpos, decide_eq_true_eq]
  have hsize : 0 < 2 ^ (32 - c.prefixLen) := by positivity
  omega

theorem ExactBlock.of_normalised (hc : c.Normalised) : ExactBlock c where
  contains := exact_contains hc
  children _ hcp hp := ⟨_, exactChildren hc hcp hp⟩
  hosts := exact_hosts hc

/-- The block of an address that is not the first one holds addresses before it. -/
theorem ExactBlock.normalised (h : ExactBlock c) : c.Normalised := by
  obtain ⟨last, hlast, hin⟩ := h.contains
  have hpos : 0 < c.prefixLen := by
    refine Nat.pos_of_ne_zero fun h0 => ?_
    rw [Checked.broadcastAddress, checked_mask_zero h0] at hlast
    cases hlast
  have hmem : c.Mem c.toColumn.network := by
    show c.toColumn.network / 2 ^ (32 - c.prefixLen) = _
    exact Nat.mul_div_cancel _ (by positivity)
  have hfirst := hin _ c.toColumn.network_lt
  rw [checked_contains hpos, (contains_iff hpos c.toColumn.network_lt).2 hmem, Option.some_inj,
    eq_comm, decide_eq_true_eq] at hfirst
  have hle : c.toColumn.network ≤ c.network := Nat.div_mul_le_self _ _
  refine ⟨hpos, ?_⟩
  have haligned := c.toColumn_aligned
  rwa [Aligned, Nat.le_antisymm hle hfirst.1] at haligned

theorem ExactPair.of_normalised (hc : c.Normalised) (hd : d.Normalised) : ExactPair c d where
  overlaps := by
    refine ⟨_, checked_overlaps hc.1 hd.1, ?_⟩
    rw [← not_iff_not, Bool.not_eq_true, overlaps_eq_false_iff hc.1 hd.1]
    simp only [Disjoint, not_exists, not_and]
  strangers := exact_strangers hc

/-- The functions are exact on two blocks if and only if both are in normal form. -/
theorem exact_iff (c d : Ipv4Cidr) : Exact c d ↔ c.Normalised ∧ d.Normalised :=
  ⟨fun h => ⟨h.1.1.normalised, h.1.2.normalised⟩, fun ⟨hc, hd⟩ =>
    ⟨⟨.of_normalised hc, .of_normalised hd⟩, .of_normalised hc hd, .of_normalised hd hc⟩⟩

/-- `10.0.0.250/24` holds `10.0.0.4`, which lies before its network address, and its host 10 is the
address `10.0.1.5` outside; the child 1 of size 26 of `255.255.255.250/24` does not fit into a
word; the mask of `0.0.0.0/0` is a shift by 32. -/
theorem exact_fails :
    ¬ Exact ⟨10 * 2 ^ 24 + 250, 24, by decide, by decide⟩ ⟨0, 0, by decide, by decide⟩ ∧
      Checked.contains ⟨10 * 2 ^ 24 + 250, 24, by decide, by decide⟩ (10 * 2 ^ 24 + 4) =
        some true ∧
      Checked.nthHost ⟨10 * 2 ^ 24 + 250, 24, by decide, by decide⟩ 10 =
        some (some (10 * 2 ^ 24 + 2 ^ 8 + 5)) ∧
      Checked.nthSubnet ⟨2 ^ 32 - 6, 24, by decide, by decide⟩ 26 1 = none ∧
      Checked.contains ⟨0, 0, by decide, by decide⟩ 1 = none := by
  refine ⟨fun h => ?_, by decide, by decide, by decide, by decide⟩
  exact absurd h.1.1.normalised.2 (by decide)

end FloatCtf.Awd.Ipv4Cidr
