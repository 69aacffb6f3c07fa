import FloatCtf.Awd.NetworkArithmetic
import FloatCtf.Awd.NetworkSystem
import FloatCtf.Process.Crash

/-!
# The addresses of the teams

A team has a slot in the two blocks of its event, and its game boxes have addresses in the slot.

`ensure_team_networks` keeps the rows that are there.  A deployment that fails leaves the rows of
the teams behind and unlocks the network, and after a reallocation they lie outside the new blocks
of the event (`team_outside_new_block`).  Also, a manual block whose address is not the first one of
the block puts the infrastructure into the slot of a team.  `teamsPlaced_run` shows that neither
happens to the teams of an event that is not reallocated once it has team rows, when the manual
blocks are written with their first slot.
-/

namespace FloatCtf.Awd

open Process

/-! ## Instance addresses -/

namespace Ipv4Cidr

variable {c : Ipv4Cidr}

/-- An address of a game box: in the block, and none of the addresses with a meaning of their
own. -/
structure HostIn (c : Ipv4Cidr) (ip : Nat) : Prop where
  mem : c.Mem ip
  ne_network : ip ≠ c.network
  ne_gateway : ip ≠ c.network + 1
  ne_broadcast : ip ≠ c.broadcastAddress

theorem instanceIpForOffset_eq_some (h : c.Aligned) {offset : Int} {ip : Nat}
    (hip : instanceIpForOffset c offset = some ip) :
    2 ≤ offset ∧ offset + 1 < (2 ^ (32 - c.prefixLen) : Nat) ∧ (ip : Int) = c.network + offset := by
  unfold instanceIpForOffset nthHost totalAddresses at hip
  split_ifs at hip with ho hn
  have hend := h.end_le
  rw [Option.some.injEq, Nat.mod_eq_of_lt (by omega)] at hip
  refine ⟨by omega, by omega, by omega⟩

theorem hostIn_of_instanceIpForOffset (h : c.Aligned) (hc : 0 < c.prefixLen) {offset : Int}
    {ip : Nat} (hip : instanceIpForOffset c offset = some ip) : c.HostIn ip := by
  obtain ⟨hlow, hhigh, heq⟩ := instanceIpForOffset_eq_some h hip
  refine ⟨?_, by omega, by omega, ?_⟩
  · rw [h.mem_iff]
    omega
  · rw [h.broadcastAddress_eq hc]
    omega

theorem instanceIpForOffset_injective (h : c.Aligned) {a b : Int} {ip : Nat}
    (ha : instanceIpForOffset c a = some ip) (hb : instanceIpForOffset c b = some ip) : a = b := by
  have h1 := (instanceIpForOffset_eq_some h ha).2.2
  have h2 := (instanceIpForOffset_eq_some h hb).2.2
  omega

theorem nthSubnet_prefixLen {d : Ipv4Cidr} {newPrefix index : Nat}
    (h : c.nthSubnet newPrefix index = some d) : d.prefixLen = newPrefix := by
  unfold nthSubnet at h
  split_ifs at h
  cases h
  rfl

/-- The address of the block lies in its first slot. -/
def InFirstSlot (c : Ipv4Cidr) (newPrefix : Nat) : Prop :=
  c.network % 2 ^ (32 - c.prefixLen) < 2 ^ (32 - newPrefix)

instance (newPrefix : Nat) : Decidable (c.InFirstSlot newPrefix) :=
  inferInstanceAs (Decidable (_ < _))

theorem Aligned.inFirstSlot (h : c.Aligned) (newPrefix : Nat) : c.InFirstSlot newPrefix := by
  rw [InFirstSlot, Nat.mod_eq_zero_of_dvd h]
  positivity

/-- The first slot of a block whose address lies in that slot. -/
theorem toColumn_nthSubnet_zero {d : Ipv4Cidr} {newPrefix : Nat}
    (h : c.nthSubnet newPrefix 0 = some d)
    (hc : c.InFirstSlot newPrefix) :
    c.toColumn.nthSubnet newPrefix 0 = some d.toColumn := by
  unfold InFirstSlot at hc
  unfold nthSubnet at h ⊢
  split_ifs at h with h0 h1
  have hp : c.prefixLen ≤ newPrefix ∧ newPrefix ≤ 32 := by omega
  rw [dif_neg (show ¬ (newPrefix < c.toColumn.prefixLen ∨ 32 < newPrefix) from h0),
    if_neg (show ¬ 2 ^ (newPrefix - c.toColumn.prefixLen) ≤ 0 from h1)]
  cases h
  simp only [toColumn, Option.some.injEq, mk.injEq, and_true, Nat.zero_mul, Nat.zero_mod,
    Nat.add_zero, Nat.mod_eq_of_lt c.network_lt]
  -- the block is a whole number of slots, and its address is in the first of them
  obtain ⟨k, hk⟩ : 2 ^ (32 - newPrefix) ∣ 2 ^ (32 - c.prefixLen) := pow_dvd_pow 2 (by omega)
  have hpos : 0 < 2 ^ (32 - newPrefix) := by positivity
  have hdiv : c.network / 2 ^ (32 - newPrefix) = k * (c.network / 2 ^ (32 - c.prefixLen)) := by
    have hsplit := Nat.div_add_mod c.network (2 ^ (32 - c.prefixLen))
    rw [hk, mul_assoc] at hsplit
    rw [hk] at hc ⊢
    conv_lhs => rw [← hsplit]
    rw [Nat.mul_add_div hpos, Nat.div_eq_of_lt hc, Nat.add_zero]
  rw [Nat.mod_eq_of_lt ((Nat.div_mul_le_self _ _).trans_lt c.network_lt), hdiv, hk]
  ring

end Ipv4Cidr

/-! ## Slots -/

/-- The row of an event: its blocks are apart, and the infrastructure is the first slot. -/
structure EventNetwork.Shaped (r : EventNetwork) : Prop where
  gb_aligned : r.gameboxCidr.Aligned
  wg_aligned : r.wireguardCidr.Aligned
  apart : r.gameboxCidr.Disjoint r.wireguardCidr
  infra : r.gameboxCidr.nthSubnet r.infrastructureSubnet.prefixLen 0 = some r.infrastructureSubnet

/-- The team has the `i`th slot of the two blocks. -/
structure EventNetwork.Slot (r : EventNetwork) (n : TeamNetwork) (i : Nat) : Prop where
  pos : 0 < i
  event : n.eventId = r.eventId
  gamebox : r.gameboxCidr.nthSubnet r.infrastructureSubnet.prefixLen i = some n.gameboxSubnet
  wireguard : r.wireguardCidr.nthSubnet r.infrastructureSubnet.prefixLen i = some n.wireguardSubnet

/-- Rows of one event share none of the unique columns. -/
def TeamNetwork.Apart (n m : TeamNetwork) : Prop := n.eventId = m.eventId →
  n.teamId ≠ m.teamId ∧ n.gameboxSubnet ≠ m.gameboxSubnet ∧ n.wireguardSubnet ≠ m.wireguardSubnet

instance : Std.Symm TeamNetwork.Apart where
  symm _ _ h he := ⟨(h he.symm).1.symm, (h he.symm).2.1.symm, (h he.symm).2.2.symm⟩

/-- Every team row is a slot of the row of its event, and no two of an event share a column. -/
structure TeamsInv (db : NetDb) : Prop where
  events : (db.rows.map (·.eventId)).Nodup
  shaped : ∀ r ∈ db.rows, r.Shaped
  slots : ∀ n ∈ db.teamNetworks, ∃ r ∈ db.rows, ∃ i, r.Slot n i
  unique : db.teamNetworks.Pairwise TeamNetwork.Apart

/-- Where the team rows have to be. -/
structure NetDb.TeamsPlaced (db : NetDb) : Prop where
  inside : ∀ r ∈ db.rows, ∀ n ∈ db.teamNetworks, n.eventId = r.eventId →
    n.gameboxSubnet.Within r.gameboxCidr ∧ n.wireguardSubnet.Within r.wireguardCidr
  infra : ∀ r ∈ db.rows, ∀ n ∈ db.teamNetworks, n.eventId = r.eventId →
    n.gameboxSubnet.Disjoint r.infrastructureSubnet ∧
      n.wireguardSubnet.Disjoint r.infrastructureSubnet
  apart : ∀ n ∈ db.teamNetworks, ∀ m ∈ db.teamNetworks, n.eventId = m.eventId → n ≠ m →
    n.teamId ≠ m.teamId ∧ n.gameboxSubnet.Disjoint m.gameboxSubnet ∧
      n.wireguardSubnet.Disjoint m.wireguardSubnet ∧ n.gameboxSubnet.Disjoint m.wireguardSubnet
  instances : ∀ n ∈ db.teamNetworks, ∀ offset ip,
    instanceIpForOffset n.gameboxSubnet offset = some ip → n.gameboxSubnet.HostIn ip ∧
      ∀ offset', instanceIpForOffset n.gameboxSubnet offset' = some ip → offset' = offset

section Slots

variable {db db' : NetDb}

/-- The slot of a team row in the row of its event. -/
theorem TeamsInv.slot (h : TeamsInv db) {r : EventNetwork} (hr : r ∈ db.rows) {n : TeamNetwork}
    (hn : n ∈ db.teamNetworks) (he : n.eventId = r.eventId) : ∃ i, r.Slot n i := by
  obtain ⟨r', hr', i, hi⟩ := h.slots n hn
  have heq : r' = r := List.inj_on_of_nodup_map h.events hr' hr (hi.event.symm.trans he)
  exact ⟨i, heq ▸ hi⟩

theorem TeamsInv.placed (h : TeamsInv db) : db.TeamsPlaced := by
  refine ⟨fun r hr n hn he => ?_, fun r hr n hn he => ?_, fun n hn m hm he hne => ?_,
    fun n hn offset ip hip => ?_⟩
  · obtain ⟨i, hi⟩ := h.slot hr hn he
    have hs := h.shaped r hr
    exact ⟨Ipv4Cidr.nthSubnet_within hs.gb_aligned hi.gamebox,
      Ipv4Cidr.nthSubnet_within hs.wg_aligned hi.wireguard⟩
  · obtain ⟨i, hi⟩ := h.slot hr hn he
    have hs := h.shaped r hr
    refine ⟨Ipv4Cidr.nthSubnet_disjoint hs.gb_aligned hi.pos.ne' hi.gamebox hs.infra, ?_⟩
    have hin := Ipv4Cidr.nthSubnet_within hs.gb_aligned hs.infra
    have hwg := Ipv4Cidr.nthSubnet_within hs.wg_aligned hi.wireguard
    exact hwg.disjoint (hin.disjoint hs.apart).symm
  · obtain ⟨r, hr, i, hi⟩ := h.slots n hn
    obtain ⟨j, hj⟩ := h.slot hr hm (he.symm.trans hi.event)
    have hs := h.shaped r hr
    have hu := h.unique.forall hn hm hne he
    have hij : i ≠ j := by
      rintro rfl
      exact hu.2.1 (Option.some.inj (hi.gamebox.symm.trans hj.gamebox))
    refine ⟨hu.1, Ipv4Cidr.nthSubnet_disjoint hs.gb_aligned hij hi.gamebox hj.gamebox,
      Ipv4Cidr.nthSubnet_disjoint hs.wg_aligned hij hi.wireguard hj.wireguard, ?_⟩
    have hgb := Ipv4Cidr.nthSubnet_within hs.gb_aligned hi.gamebox
    have hwg := Ipv4Cidr.nthSubnet_within hs.wg_aligned hj.wireguard
    exact (hwg.disjoint (hgb.disjoint hs.apart).symm).symm
  · obtain ⟨r, hr, i, hi⟩ := h.slots n hn
    have hs := h.shaped r hr
    have hal := Ipv4Cidr.nthSubnet_aligned hs.gb_aligned hi.gamebox
    obtain ⟨hp, hle, -⟩ := Ipv4Cidr.nthSubnet_eq_some hs.gb_aligned hi.gamebox
    have hpos : 0 < n.gameboxSubnet.prefixLen := hp ▸ hs.apart.pos.trans_le hle
    exact ⟨Ipv4Cidr.hostIn_of_instanceIpForOffset hal hpos hip,
      fun offset' h' => Ipv4Cidr.instanceIpForOffset_injective hal h' hip⟩

/-! ## Writes -/

/-- The rows of some events change; an event with team rows keeps its addresses. -/
theorem TeamsInv.map_rows (h : TeamsInv db) (f : EventNetwork → EventNetwork)
    (hf : ∀ r ∈ db.rows, (f r).eventId = r.eventId ∧ (f r).Shaped ∧
      ((∀ n ∈ db.teamNetworks, n.eventId ≠ r.eventId) ∨ (f r).gameboxCidr = r.gameboxCidr ∧
        (f r).wireguardCidr = r.wireguardCidr ∧
        (f r).infrastructureSubnet = r.infrastructureSubnet)) (as : List NetworkAllocation) :
    TeamsInv { db with rows := db.rows.map f, allocations := as } := by
  refine ⟨?_, fun r hr => ?_, fun n hn => ?_, h.unique⟩
  · show ((db.rows.map f).map (·.eventId)).Nodup
    rw [List.map_map]
    exact (List.map_congr_left fun r hr => (hf r hr).1) ▸ h.events
  · obtain ⟨r₀, hr₀, rfl⟩ := List.mem_map.1 hr
    exact (hf r₀ hr₀).2.1
  · obtain ⟨r, hr, i, hi⟩ := h.slots n hn
    refine ⟨f r, List.mem_map_of_mem hr, i, ?_⟩
    obtain ⟨he, -, hno | ⟨hgb, hwg, hinfra⟩⟩ := hf r hr
    · exact absurd hi.event (hno n hn)
    · exact ⟨hi.pos, hi.event.trans he.symm, hgb ▸ hinfra ▸ hi.gamebox, hwg ▸ hinfra ▸ hi.wireguard⟩

theorem TeamsInv.add_row (h : TeamsInv db) {row : EventNetwork} (hs : row.Shaped)
    (hnew : ∀ r ∈ db.rows, r.eventId ≠ row.eventId) (as : List NetworkAllocation) :
    TeamsInv { db with rows := db.rows ++ [row], allocations := as } := by
  refine ⟨?_, fun r hr => ?_, fun n hn => ?_, h.unique⟩
  · show ((db.rows ++ [row]).map (·.eventId)).Nodup
    rw [List.map_append, List.nodup_append]
    refine ⟨h.events, List.nodup_singleton _, fun a ha b hb => ?_⟩
    obtain ⟨r, hr, rfl⟩ := List.mem_map.1 ha
    rw [List.map_singleton, List.mem_singleton] at hb
    exact hb ▸ hnew r hr
  · rcases List.mem_append.1 hr with hr | hr
    · exact h.shaped r hr
    · exact List.mem_singleton.1 hr ▸ hs
  · obtain ⟨r, hr, i, hi⟩ := h.slots n hn
    exact ⟨r, List.mem_append_left _ hr, i, hi⟩

theorem TeamsInv.add_team (h : TeamsInv db) {r : EventNetwork} (hr : r ∈ db.rows) {n : TeamNetwork}
    {i : Nat} (hi : r.Slot n i) (hclash : db.teamClash n = false) :
    TeamsInv { db with teamNetworks := db.teamNetworks ++ [n] } := by
  refine ⟨h.events, h.shaped, fun m hm => ?_, ?_⟩
  · rcases List.mem_append.1 hm with hm | hm
    · exact h.slots m hm
    · rw [List.mem_singleton.1 hm]
      exact ⟨r, hr, i, hi⟩
  · refine List.pairwise_append.2 ⟨h.unique, List.pairwise_singleton _ _, fun m hm n' hn' => ?_⟩
    rw [List.mem_singleton.1 hn']
    have hno := List.any_eq_false.1 hclash m hm
    simp only [decide_eq_true_eq, not_and, not_or] at hno
    exact hno

theorem freeIndexFrom_ge {used : List Nat} {n i j : Nat} (h : freeIndexFrom used n i = some j) :
    i ≤ j := by
  induction n generalizing i with
  | zero => cases h
  | succ n ih =>
    rw [freeIndexFrom] at h
    split_ifs at h
    · exact (Nat.le_succ i).trans (ih h)
    · cases h
      exact le_rfl

/-- The slot that a new team gets. -/
theorem deriveTeamNetwork_slot {r : EventNetwork} (hs : r.Shaped) {teamId index : Nat}
    {used : List Nat} {n : TeamNetwork}
    (h : deriveTeamNetwork r.gameboxCidr r.wireguardCidr r.infrastructureSubnet.prefixLen r.eventId
      teamId used = .ok (index, n)) : r.Slot n index ∧ n.teamId = teamId := by
  unfold deriveTeamNetwork at h
  split at h
  · cases h
  · rename_i i hi
    split at h
    · cases h
    · cases h
    · rename_i gb wg hgb hwg
      cases h
      refine ⟨⟨freeIndexFrom_ge hi, rfl, ?_, ?_⟩, rfl⟩
      · rw [hgb, Ipv4Cidr.toColumn_of_aligned (Ipv4Cidr.nthSubnet_aligned hs.gb_aligned hgb)]
      · rw [hwg, Ipv4Cidr.toColumn_of_aligned (Ipv4Cidr.nthSubnet_aligned hs.wg_aligned hwg)]

theorem TeamsInv.addTeamNetworks {r : EventNetwork} {existing : List TeamNetwork}
    {teams : List NetTeam} {used : List Nat} {ns : List TeamNetwork} (h : TeamsInv db)
    (hr : r ∈ db.rows)
    (hadd : addTeamNetworks r.gameboxCidr r.wireguardCidr r.infrastructureSubnet.prefixLen r.eventId
      existing teams used db = .ok (db', ns)) : TeamsInv db' := by
  induction teams generalizing used db ns with
  | nil =>
    cases hadd
    exact h
  | cons team teams ih =>
    rw [Awd.addTeamNetworks] at hadd
    split at hadd
    · obtain ⟨⟨db₁, ns₁⟩, hrec, hadd⟩ := except_bind_ok hadd
      cases hadd
      exact ih h hr hrec
    · obtain ⟨⟨index, n⟩, hderive, hadd⟩ := except_bind_ok hadd
      dsimp only at hadd
      split_ifs at hadd with hclash
      obtain ⟨⟨db₁, ns₁⟩, hrec, hadd⟩ := except_bind_ok hadd
      cases hadd
      have hslot := (deriveTeamNetwork_slot (h.shaped r hr) hderive).1
      exact ih (h.add_team hr hslot (Bool.eq_false_of_not_eq_true hclash)) hr hrec

theorem shaped_of_derive {e : Nat} {mode : AllocationMode} {gb wg : Ipv4Cidr} {port : Int}
    {teamPrefix : Nat} {row : EventNetwork}
    (h : deriveNetwork e mode gb wg port teamPrefix = .ok row) (hc : row.checks = true)
    (hgb : gb.InFirstSlot teamPrefix) : row.Shaped := by
  obtain ⟨-, hrgb, hrwg, -, infra, hinfra, hri⟩ := deriveNetwork_ok h
  refine ⟨hrgb ▸ gb.toColumn_aligned, hrwg ▸ wg.toColumn_aligned, row.disjoint_of_checks hc, ?_⟩
  have hp := Ipv4Cidr.nthSubnet_prefixLen hinfra
  rw [hri, hrgb, show infra.toColumn.prefixLen = teamPrefix from hp]
  exact Ipv4Cidr.toColumn_nthSubnet_zero hinfra hgb

theorem chooseNetwork_aligned {ext : List Ipv4Cidr} {gb wg : Ipv4Cidr} {port : Int}
    {teamPrefix : Nat} (h : chooseNetwork ext db = .ok (gb, wg, port, teamPrefix)) :
    gb.Aligned := by
  obtain ⟨p, i, hgb⟩ := chooseNetwork_slot h
  exact Ipv4Cidr.nthSubnet_aligned db.settings.gb_aligned hgb

theorem TeamsInv.automaticTx {e : Nat} {ext : List Ipv4Cidr} {row : EventNetwork}
    (h : TeamsInv db) (htx : automaticTx e ext db = .ok (db', row)) : TeamsInv db' := by
  obtain ⟨⟨gb, wg, port, teamPrefix⟩, hchoose, htx⟩ := except_bind_ok htx
  obtain ⟨hrow, hc, hnew, rfl⟩ := buildAndPersist_inv htx
  have he := (deriveNetwork_ok hrow).1
  have hgb := (chooseNetwork_aligned hchoose).inFirstSlot teamPrefix
  exact h.add_row (shaped_of_derive hrow hc hgb) (fun r hr => he ▸ hnew r hr) _

theorem TeamsInv.manualTx {e : Nat} {gb wg : Ipv4Cidr} {port : Option Int} {row : EventNetwork}
    (h : TeamsInv db) (hgb : gb.InFirstSlot (db.settings.gameboxTeamPrefix % 256))
    (htx : manualTx e gb wg port db = .ok (db', row)) : TeamsInv db' := by
  unfold Awd.manualTx at htx
  split at htx
  · cases htx
  · dsimp only at htx
    split_ifs at htx
    obtain ⟨p, -, htx⟩ := except_bind_ok htx
    obtain ⟨hrow, hc, hnew, rfl⟩ := buildAndPersist_inv htx
    have he := (deriveNetwork_ok hrow).1
    exact h.add_row (shaped_of_derive hrow hc hgb) (fun r hr => he ▸ hnew r hr) _

theorem TeamsInv.reallocateTx {e : Nat} {ext : List Ipv4Cidr} {res : EventNetwork}
    (h : TeamsInv db) (hno : ∀ n ∈ db.teamNetworks, n.eventId ≠ e)
    (htx : reallocateTx e ext db = .ok (db', res)) : TeamsInv db' := by
  obtain ⟨gb, wg, port, teamPrefix, new, hchoose, hnew, hc, -, rfl⟩ := reallocateTx_inv htx
  have hs := shaped_of_derive hnew hc ((chooseNetwork_aligned hchoose).inFirstSlot teamPrefix)
  refine h.map_rows _ (fun r hr => ?_) _
  by_cases he : r.eventId = e
  · rw [if_pos he]
    exact ⟨rfl, ⟨hs.gb_aligned, hs.wg_aligned, hs.apart, hs.infra⟩, .inl (he ▸ hno)⟩
  · rw [if_neg he]
    exact ⟨rfl, h.shaped r hr, .inr ⟨rfl, rfl, rfl⟩⟩

/-- A statement that takes no manual block, replaces no block and gives no slot. -/
theorem TeamsInv.step {l : NetStmt} (h : TeamsInv db)
    (hs : NetStep (fun _ => False) (fun _ => False) l db db') : TeamsInv db' := by
  cases hs with
  | same => exact h
  | start _ ht => exact ht.elim
  | automatic htx => exact h.automaticTx htx
  | manual hp => exact hp.elim
  | reallocate ht => exact ht.elim
  | release e => exact ⟨h.events, h.shaped, h.slots, h.unique⟩
  | lock e now =>
    refine h.map_rows _ (fun r hr => ?_) _
    have hsh := h.shaped r hr
    split_ifs
    · exact ⟨rfl, ⟨hsh.gb_aligned, hsh.wg_aligned, hsh.apart, hsh.infra⟩, .inr ⟨rfl, rfl, rfl⟩⟩
    · exact ⟨rfl, hsh, .inr ⟨rfl, rfl, rfl⟩⟩
  | unlock e =>
    refine h.map_rows _ (fun r hr => ?_) _
    have hsh := h.shaped r hr
    split_ifs
    · exact ⟨rfl, ⟨hsh.gb_aligned, hsh.wg_aligned, hsh.apart, hsh.infra⟩, .inr ⟨rfl, rfl, rfl⟩⟩
    · exact ⟨rfl, hsh, .inr ⟨rfl, rfl, rfl⟩⟩
  | transition e events => exact ⟨h.events, h.shaped, h.slots, h.unique⟩
  | ensureTeams ht => exact ht.elim

end Slots

/-! ## Calls -/

/-- The invariant of the team rows, wherever a call stops. -/
def teamLaw : CrashLaw NetStmt NetDb Unit where
  watch _ _ _ := ()
  block _ := false
  inv v := TeamsInv v.1

section Calls

variable {v : NetDb × Unit} {α β : Type}

theorem teamLaw_unseen (l : NetStmt) : teamLaw.Unseen l := fun _ _ => rfl

theorem kept_netStep {p : NetM α} (hp : p.Does (NetStep (fun _ => False) fun _ => False))
    (hi : TeamsInv v.1) : teamLaw.Kept p v := by
  have hwithin : p.Within fun db db' => TeamsInv db → TeamsInv db' :=
    hp.mono fun _ _ _ hs h => h.step hs
  exact CrashLaw.kept_of_within hwithin (fun _ _ _ _ h hR => hR h) hi

theorem kept_netSelect_bind (hi : TeamsInv v.1) {f : NetDb → α} {k : α → NetM β}
    (hk : teamLaw.Kept (k (f v.1)) v) : teamLaw.Kept (netSelect f >>= k) v :=
  CrashLaw.kept_query_bind (teamLaw_unseen _) hi hk

theorem kept_findAwdEvent_bind {e : Nat} (hi : TeamsInv v.1) {k : NetEvent → NetM β}
    (hk : ∀ ev, v.1.findEvent e = some ev → teamLaw.Kept (k ev) v) :
    teamLaw.Kept (findAwdEvent e >>= k) v := by
  refine CrashLaw.guards_bind (CrashLaw.guards_bind (CrashLaw.guards_query (teamLaw_unseen _) ?_
    fun _ => ⟨hi, hi⟩))
  dsimp only
  cases hev : v.1.findEvent e with
  | none => exact hi
  | some ev => exact hk ev hev

theorem kept_requireNetwork_bind {e : Nat} (hi : TeamsInv v.1) {k : EventNetwork → NetM β}
    (hk : ∀ row, v.1.findNetwork e = some row → teamLaw.Kept (k row) v) :
    teamLaw.Kept (requireNetwork e >>= k) v := by
  refine CrashLaw.guards_bind (CrashLaw.guards_bind (CrashLaw.guards_query (teamLaw_unseen _) ?_
    fun _ => ⟨hi, hi⟩))
  dsimp only
  cases hrow : v.1.findNetwork e with
  | none => exact hi
  | some row => exact hk row hrow

theorem kept_assertNetworkEditable_bind {s : AwdEventStatus} (hi : TeamsInv v.1)
    {k : Unit → NetM β} (hk : s = .draft ∨ s = .configuring → teamLaw.Kept (k ()) v) :
    teamLaw.Kept (assertNetworkEditable s >>= k) v := by
  cases s with
  | draft => exact hk (.inl rfl)
  | configuring => exact hk (.inr rfl)
  | _ => exact hi

theorem kept_ensureTeamNetworks {e : Nat} (hi : TeamsInv v.1) :
    teamLaw.Kept (ensureTeamNetworks e) v := by
  refine kept_requireNetwork_bind hi fun row hrow =>
    kept_netSelect_bind hi (kept_netSelect_bind hi ?_)
  refine CrashLaw.kept_exec (teamLaw_unseen _) hi fun db' ns h => ?_
  have hmem := List.mem_of_find?_eq_some hrow
  have he : row.eventId = e := by simpa using List.find?_some hrow
  exact TeamsInv.addTeamNetworks hi hmem (he ▸ h)

theorem kept_netCall {l : NetStmt} (hi : TeamsInv v.1) : teamLaw.Kept (netCall l) v :=
  CrashLaw.kept_exec (teamLaw_unseen _) hi fun _ _ h => by cases h; exact hi

theorem kept_tryDeploy {e : Nat} (hi : TeamsInv v.1) : teamLaw.Kept (tryDeploy e) v := by
  have hsteps : teamLaw.Kept (deploySteps e) v :=
    CrashLaw.kept_bind (kept_netStep (netDoes_requireNetwork e) hi) fun _ _ h1 =>
      CrashLaw.kept_bind (kept_netStep (netDoes_lock e) h1) fun _ _ h2 =>
        CrashLaw.kept_bind (kept_netCall h2) fun _ _ h3 =>
          CrashLaw.kept_bind (kept_ensureTeamNetworks h3) fun _ _ h4 =>
            CrashLaw.kept_bind (kept_netCall h4) fun _ _ h5 =>
              CrashLaw.kept_bind (kept_netCall h5) fun _ _ h6 =>
                kept_netStep (netDoes_transition _ _ _) h6
  refine CrashLaw.kept_bind (CrashLaw.kept_attempt hsteps) fun result v' hv => ?_
  rcases result with err | _
  · exact kept_netStep (netDoes_recordFailure e err) hv
  · exact hv

theorem kept_deployEvent {e : Nat} (hi : TeamsInv v.1) : teamLaw.Kept (deployEvent e) v := by
  refine kept_netSelect_bind hi ?_
  split
  · exact hi
  · refine CrashLaw.guards_ite (fun _ => hi) fun _ => CrashLaw.guards_ite (fun _ => ?_) fun _ =>
      kept_tryDeploy hi
    exact CrashLaw.kept_bind (kept_netStep (netDoes_transition _ _ _) hi) fun _ _ h1 =>
      kept_tryDeploy h1

/-- The network of the event may be changed now. -/
def NetDb.Editable (db : NetDb) (e : Nat) : Prop :=
  (∃ ev ∈ db.findEvent e, ev.status = .draft ∨ ev.status = .configuring) ∧
    ∃ row ∈ db.findNetwork e, row.lockedAt = none

theorem kept_reallocate {e : Nat} {ext : List Ipv4Cidr} (hi : TeamsInv v.1)
    (hno : v.1.Editable e → ∀ n ∈ v.1.teamNetworks, n.eventId ≠ e) :
    teamLaw.Kept (reallocate e ext) v := by
  refine kept_findAwdEvent_bind hi fun ev hev => kept_assertNetworkEditable_bind hi fun hs =>
    kept_requireNetwork_bind hi fun row hrow => CrashLaw.guards_ite (fun _ => hi) fun hl => ?_
  refine CrashLaw.kept_exec (teamLaw_unseen _) hi fun db' res h => ?_
  exact TeamsInv.reallocateTx hi (hno ⟨⟨ev, hev, hs⟩, row, hrow, by simpa using hl⟩) h

theorem kept_allocateManual {e : Nat} {req : ManualNetworkRequest} {ext : List Ipv4Cidr}
    (hi : TeamsInv v.1) (hreq : ∀ gb, Ipv4Cidr.parse req.gameboxCidr = .ok gb →
      gb.InFirstSlot (v.1.settings.gameboxTeamPrefix % 256)) :
    teamLaw.Kept (allocateManual e req ext) v := by
  refine kept_findAwdEvent_bind hi fun ev _ => kept_assertNetworkEditable_bind hi fun _ =>
    kept_netSelect_bind hi (CrashLaw.guards_ite (fun _ => hi) fun _ => ?_)
  cases hgb : Ipv4Cidr.parse req.gameboxCidr with
  | error err => exact hi
  | ok gb =>
    cases hwg : Ipv4Cidr.parse req.wireguardCidr with
    | error err => exact hi
    | ok wg =>
      refine CrashLaw.guards_ite (fun _ => hi) fun _ => ?_
      split
      · exact hi
      · refine CrashLaw.kept_exec (teamLaw_unseen _) hi fun db' res h => ?_
        exact TeamsInv.manualTx hi (hreq gb hgb) h

end Calls

/-! ## Runs -/

/-- A call that runs by itself, with the answers to its statements, or an act of the environment. -/
inductive TeamOp where
  | call (j : NetJob) (answers : List Bool)
  | env (e : NetEnv)

/-- One call that may stop anywhere, or a change beside it. -/
def TeamOp.apply (db : NetDb) : TeamOp → NetDb
  | call j answers => (j.prog.crashRun teamLaw.watch answers (db, ())).1
  | env e => e.apply db

/-- An event with team rows is not reallocated, and the address of a manual block lies in the first
slot of the block. -/
def TeamOp.KeepsTeams (db : NetDb) : TeamOp → Prop
  | call (.reallocate e _) _ => db.Editable e → ∀ n ∈ db.teamNetworks, n.eventId ≠ e
  | call (.manual _ req _) _ => ∀ gb, Ipv4Cidr.parse req.gameboxCidr = .ok gb →
      gb.InFirstSlot (db.settings.gameboxTeamPrefix % 256)
  | _ => True

theorem kept_prog {j : NetJob} {answers : List Bool} {db : NetDb} (hi : TeamsInv db)
    (hc : (TeamOp.call j answers).KeepsTeams db) : teamLaw.Kept j.prog (db, ()) := by
  cases j with
  | automatic e ext =>
    exact CrashLaw.kept_bind (kept_netStep (netDoes_allocateAutomatic e ext) hi) fun _ _ h => h
  | manual e req ext => exact CrashLaw.kept_bind (kept_allocateManual hi hc) fun _ _ h => h
  | reallocate e ext => exact CrashLaw.kept_bind (kept_reallocate hi hc) fun _ _ h => h
  | release e => exact kept_netStep (netDoes_releaseAllocations e) hi
  | lock e => exact kept_netStep (netDoes_lock e) hi
  | unlock e => exact kept_netStep (netDoes_unlock e) hi
  | ensureTeams e => exact CrashLaw.kept_bind (kept_ensureTeamNetworks hi) fun _ _ h => h
  | deploy id e => exact kept_deployEvent hi

theorem TeamsInv.apply {db : NetDb} (op : TeamOp) (hi : TeamsInv db) (hc : op.KeepsTeams db) :
    TeamsInv (op.apply db) := by
  cases op with
  | call j answers =>
    exact (kept_prog hi hc).inv_crashRun (fun _ _ h => h) (Prog.unbroken_of_no_block _ _ _)
  | env e => cases e <;> exact ⟨hi.events, hi.shaped, hi.slots, hi.unique⟩

theorem teamNetworks_apply (db : NetDb) (op : TeamOp) :
    db.teamNetworks <+: (op.apply db).teamNetworks := by
  cases op with
  | call j answers =>
    let K : CrashLaw NetStmt NetDb Unit :=
      ⟨teamLaw.watch, teamLaw.block, fun v => db.teamNetworks <+: v.1.teamNetworks⟩
    have hwithin : j.prog.Within fun db db' => db.teamNetworks <+: db'.teamNetworks :=
      (netDoes_prog j).mono fun _ _ _ => netStep_teamNetworks
    have hkept : K.Kept j.prog (db, ()) :=
      CrashLaw.kept_of_within hwithin (fun _ _ _ _ h hR => List.IsPrefix.trans h hR)
        List.prefix_rfl
    exact hkept.inv_crashRun (fun _ _ h => h) (Prog.unbroken_of_no_block _ _ _)
  | env e => cases e <;> exact List.prefix_rfl

theorem teamNetworks_run (db : NetDb) (ops : List TeamOp) :
    db.teamNetworks <+: (ops.foldl TeamOp.apply db).teamNetworks := by
  induction ops generalizing db with
  | nil => exact List.prefix_rfl
  | cons op ops ih => exact (teamNetworks_apply db op).trans (ih _)

theorem addTeamNetworks_covers {gb wg : Ipv4Cidr} {teamPrefix e : Nat} {existing : List TeamNetwork}
    {teams : List NetTeam} {used : List Nat} {db db' : NetDb} {ns : List TeamNetwork}
    (hex : ∀ n ∈ existing, n ∈ db.teamNetworks ∧ n.eventId = e)
    (h : addTeamNetworks gb wg teamPrefix e existing teams used db = .ok (db', ns)) :
    ∀ team ∈ teams, ∃ n ∈ db'.teamNetworks, n.eventId = e ∧ n.teamId = team.id := by
  induction teams generalizing used db ns with
  | nil => exact fun team ht => absurd ht List.not_mem_nil
  | cons team teams ih =>
    rw [addTeamNetworks] at h
    split at h
    · rename_i n hn
      obtain ⟨⟨db₁, ns₁⟩, hrec, h⟩ := except_bind_ok h
      cases h
      intro t ht
      rcases List.mem_cons.1 ht with rfl | ht
      · obtain ⟨new, rfl⟩ := addTeamNetworks_frame hrec
        obtain ⟨hmem, he⟩ := hex n (List.mem_of_find?_eq_some hn)
        exact ⟨n, List.mem_append_left _ hmem, he, by simpa using List.find?_some hn⟩
      · exact ih hex hrec t ht
    · obtain ⟨⟨index, n⟩, hderive, h⟩ := except_bind_ok h
      dsimp only at h
      split_ifs at h
      obtain ⟨⟨db₁, ns₁⟩, hrec, h⟩ := except_bind_ok h
      cases h
      have hn : n.eventId = e ∧ n.teamId = team.id := by
        unfold deriveTeamNetwork at hderive
        split at hderive
        · cases hderive
        · split at hderive <;> cases hderive
          exact ⟨rfl, rfl⟩
      intro t ht
      rcases List.mem_cons.1 ht with rfl | ht
      · obtain ⟨new, rfl⟩ := addTeamNetworks_frame hrec
        exact ⟨n, by simp, hn⟩
      · exact ih (fun m hm => ⟨List.mem_append_left _ (hex m hm).1, (hex m hm).2⟩) hrec t ht

theorem requireNetwork_run_ok {ans : NetStmt → Bool} {db : NetDb} {e : Nat} {row : EventNetwork}
    (h : ((requireNetwork e).run ans db).2 = .ok row) :
    db.findNetwork e = some row ∧ ((requireNetwork e).run ans db).1 = db := by
  unfold requireNetwork at h ⊢
  obtain ⟨found, hfound, heq⟩ := Prog.run_bind_ok ans h
  obtain ⟨rfl, hdb⟩ := Prog.run_query_ok ans hfound
  rw [heq, hdb] at h ⊢
  cases hrow : db.findNetwork e with
  | none => simp [hrow] at h
  | some r =>
    rw [hrow] at h
    cases h
    exact ⟨rfl, rfl⟩

/-- When the call succeeds, every team of the event has a row. -/
theorem ensureTeamNetworks_covers {ans : NetStmt → Bool} {db : NetDb} {e : Nat}
    {ns : List TeamNetwork} (h : ((ensureTeamNetworks e).run ans db).2 = .ok ns) :
    ∀ team ∈ db.teams, team.eventId = e →
      ∃ n ∈ ((ensureTeamNetworks e).run ans db).1.teamNetworks,
        n.eventId = e ∧ n.teamId = team.id := by
  unfold ensureTeamNetworks netSelect at h ⊢
  obtain ⟨row, hrow, heq⟩ := Prog.run_bind_ok ans h
  obtain ⟨hrow, hdb⟩ := requireNetwork_run_ok hrow
  rw [heq, hdb] at h ⊢
  obtain ⟨teams, hteams, heq⟩ := Prog.run_bind_ok ans h
  obtain ⟨rfl, hdb⟩ := Prog.run_query_ok ans hteams
  rw [heq, hdb] at h ⊢
  obtain ⟨existing, hex, heq⟩ := Prog.run_bind_ok ans h
  obtain ⟨rfl, hdb⟩ := Prog.run_query_ok ans hex
  rw [heq, hdb] at h ⊢
  intro team ht he
  refine addTeamNetworks_covers (fun n hn => ?_) (Prog.run_exec_ok ans h) team
    (List.mem_filter.2 ⟨ht, by simpa using he⟩)
  simpa using hn

theorem teamsPlaced_run {db : NetDb} (hrows : db.rows = []) (hteams : db.teamNetworks = [])
    {ops : List TeamOp} (h : Along TeamOp.apply (fun db op => op.KeepsTeams db) db ops) :
    let db' := ops.foldl TeamOp.apply db
    db'.TeamsPlaced ∧
      (∀ ops' : List TeamOp, db'.teamNetworks <+: (ops'.foldl TeamOp.apply db').teamNetworks) ∧
      ∀ (ans : NetStmt → Bool) (e : Nat) (ns : List TeamNetwork),
        ((ensureTeamNetworks e).run ans db').2 = .ok ns → ∀ team ∈ db'.teams, team.eventId = e →
          ∃ n ∈ ((ensureTeamNetworks e).run ans db').1.teamNetworks,
            n.eventId = e ∧ n.teamId = team.id := by
  have hstart : TeamsInv db := by
    refine ⟨?_, ?_, ?_, ?_⟩ <;> simp [hrows, hteams]
  have hinv : TeamsInv (ops.foldl TeamOp.apply db) :=
    inv_of_along TeamsInv (fun _ op hi hc => hi.apply op hc) hstart h
  exact ⟨hinv.placed, teamNetworks_run _, fun _ _ _ hok => ensureTeamNetworks_covers hok⟩

/-- All statements succeed. -/
def allAnswered : List Bool := List.replicate 20 true

/-- Every statement of a deployment succeeds up to the game boxes, which do not start. -/
def boxesFail : List Bool := List.replicate 10 true ++ false :: List.replicate 5 true

/-- The blocks are replaced before the team has a slot, and then the event is deployed. -/
def deployedTeam : List TeamOp :=
  [.call (.automatic 1 []) allAnswered, .call (.reallocate 1 []) allAnswered,
    .call (.deploy 1 1) allAnswered]

/-- The way back from a failed deployment: the event is configured again, gets new blocks and is
deployed. -/
def redeployedTeam : List TeamOp :=
  [.call (.automatic 1 []) allAnswered, .call (.deploy 1 1) boxesFail,
    .env (.setStatus 1 .configuring), .call (.reallocate 1 []) allAnswered,
    .call (.deploy 2 1) allAnswered]

/-- The event is deployed again, and its team is outside the block of the event. -/
theorem team_outside_new_block :
    (redeployedTeam.foldl TeamOp.apply .oneTeam).findEvent 1 = some ⟨1, .deployed⟩ ∧
      ¬ (redeployedTeam.foldl TeamOp.apply .oneTeam).TeamsPlaced := by
  refine ⟨by decide +kernel, fun h => ?_⟩
  have hout : ∃ r ∈ (redeployedTeam.foldl TeamOp.apply .oneTeam).rows,
      ∃ n ∈ (redeployedTeam.foldl TeamOp.apply .oneTeam).teamNetworks,
        n.eventId = r.eventId ∧ ¬ r.gameboxCidr.Mem n.gameboxSubnet.network := by
    unfold Ipv4Cidr.Mem
    decide +kernel
  obtain ⟨r, hr, n, hn, he, hmem⟩ := hout
  exact hmem ((h.inside r hr n hn he).1 _ Ipv4Cidr.mem_network)

theorem teamsPlaced_run_deployed :
    (deployedTeam.foldl TeamOp.apply .oneTeam).TeamsPlaced ∧
      (deployedTeam.foldl TeamOp.apply .oneTeam).teamNetworks.length = 1 := by
  have hkeeps : Along TeamOp.apply (fun db op => op.KeepsTeams db) .oneTeam deployedTeam := by
    refine ⟨trivial, fun _ => ?_, trivial, trivial⟩
    decide +kernel
  exact ⟨(teamsPlaced_run rfl rfl hkeeps).1, by decide +kernel⟩

end FloatCtf.Awd
