import FloatCtf.Awd.NetworkSystem

/-!
# The ledger of the network allocations

However the allocator is called, the blocks that are reserved are pairwise disjoint, the ports of
the events are distinct and in the range of the platform, and the row of an event records the blocks
that are reserved for it, until its blocks are released: the row stays then, as a record of the
past, and the blocks are free for others.
-/

namespace FloatCtf.Awd

open Process

/-! ## What the transactions choose -/

/-- The block meets none of the reserved ones. -/
def NetDb.Free (db : NetDb) (c : Ipv4Cidr) : Prop := ∀ a ∈ db.active, a.cidr.overlaps c = false

theorem firstFreeEventSubnet_free {db : NetDb} {pool : NetworkPool} {ext : List Ipv4Cidr}
    {label : String} {c : Ipv4Cidr}
    (h : firstFreeEventSubnet pool db.active ext label = .ok c) : db.Free c := by
  have ht := (freeSubnetFrom_ok h).1
  rw [Bool.or_eq_false_iff, List.any_eq_false] at ht
  exact fun a ha => Bool.eq_false_of_not_eq_true (ht.1 a ha)

theorem freePortFrom_ok {range : WireGuardPortRange} {used : List Int} {n p : Nat} {port : Int}
    (h : freePortFrom range used n p = .ok port) :
    port ∉ used ∧ (p : Int) ≤ port ∧ port < p + n := by
  induction n generalizing p with
  | zero => cases h
  | succ n ih =>
    rw [freePortFrom] at h
    split_ifs at h with hu
    · obtain ⟨h1, h2, h3⟩ := ih h
      push_cast at h2 h3 ⊢
      exact ⟨h1, by omega, by omega⟩
    · cases h
      refine ⟨by simpa using hu, le_rfl, ?_⟩
      push_cast
      omega

/-- The port is one of the platform's range, and no row has it. -/
structure NetDb.GoodPort (db : NetDb) (port : Int) : Prop where
  low : (db.settings.wireguardPortMin : Int) ≤ port
  high : port ≤ db.settings.wireguardPortMax
  unused : port ∉ db.usedPorts

theorem portRange_ok {s : NetworkSettings} {range : WireGuardPortRange}
    (h : WireGuardPortRange.new (s.wireguardPortMin % 65536) (s.wireguardPortMax % 65536) =
      .ok range) : range.min = s.wireguardPortMin ∧ range.max = s.wireguardPortMax := by
  have hr := s.port_range
  unfold WireGuardPortRange.new at h
  split_ifs at h
  cases h
  exact ⟨Nat.mod_eq_of_lt (by omega), Nat.mod_eq_of_lt (by omega)⟩

theorem allocatePort_good {db : NetDb} {range : WireGuardPortRange} {port : Int}
    (hr : range.min = db.settings.wireguardPortMin ∧ range.max = db.settings.wireguardPortMax)
    (h : allocatePort range db.usedPorts = .ok port) : db.GoodPort port := by
  obtain ⟨hu, hlow, hhigh⟩ := freePortFrom_ok h
  have hs := db.settings.port_range
  rw [hr.1] at hlow hhigh
  rw [hr.2] at hhigh
  exact ⟨hlow, by omega, hu⟩

theorem chooseNetwork_ok {db : NetDb} {ext : List Ipv4Cidr} {gb wg : Ipv4Cidr} {port : Int}
    {teamPrefix : Nat} (h : chooseNetwork ext db = .ok (gb, wg, port, teamPrefix)) :
    db.Free gb ∧ db.Free wg ∧ db.GoodPort port := by
  obtain ⟨gbPool, -, h⟩ := except_bind_ok h
  obtain ⟨wgPool, -, h⟩ := except_bind_ok h
  obtain ⟨gb', hgb, h⟩ := except_bind_ok h
  obtain ⟨wg', hwg, h⟩ := except_bind_ok h
  obtain ⟨range, hrange, h⟩ := except_bind_ok h
  obtain ⟨port', hport, h⟩ := except_bind_ok h
  cases h
  exact ⟨firstFreeEventSubnet_free hgb, firstFreeEventSubnet_free hwg,
    allocatePort_good (portRange_ok hrange) hport⟩

/-- The port of the request, if there is one, is a 16-bit number. -/
def PortFits (port : Option Int) : Prop := ∀ p ∈ port, 0 ≤ p ∧ p < 65536

instance (port : Option Int) : Decidable (PortFits port) :=
  inferInstanceAs (Decidable (∀ p ∈ port, _))

theorem manualPort_good {db : NetDb} {requested : Option Int} {port : Int}
    (hp : PortFits requested) (h : manualPort requested db = .ok port) : db.GoodPort port := by
  obtain ⟨range, hrange, h⟩ := except_bind_ok h
  have hr := portRange_ok hrange
  cases requested with
  | none => exact allocatePort_good hr h
  | some p =>
    obtain ⟨h0, h1⟩ := hp p rfl
    dsimp only at h
    split_ifs at h with hc hu
    cases h
    simp only [WireGuardPortRange.contains, Bool.not_eq_true', decide_eq_false_iff_not, not_not,
      Int.emod_eq_of_lt h0 h1, hr.1, hr.2] at hc
    exact ⟨by omega, by omega, by simpa using hu⟩

/-- A row with its two blocks and its port, all free. -/
structure NetDb.Offers (db : NetDb) (row : EventNetwork) : Prop where
  gamebox : ∀ a ∈ db.active, a.cidr.Disjoint row.gameboxCidr
  wireguard : ∀ a ∈ db.active, a.cidr.Disjoint row.wireguardCidr
  apart : row.gameboxCidr.Disjoint row.wireguardCidr
  port : db.GoodPort row.wireguardListenPort

theorem NetDb.Free.disjoint {db : NetDb} {c d : Ipv4Cidr} (hfree : db.Free c)
    (hpos : ∀ a ∈ db.active, 0 < a.cidr.prefixLen) (hd : d = c.toColumn) (hd0 : 0 < d.prefixLen) :
    ∀ a ∈ db.active, a.cidr.Disjoint d := by
  subst hd
  intro a ha x hax hx
  have hc0 : 0 < c.prefixLen := hd0
  have hc : a.cidr.Disjoint c := (Ipv4Cidr.overlaps_eq_false_iff (hpos a ha) hc0).1 (hfree a ha)
  exact hc x hax (Ipv4Cidr.mem_toColumn.1 hx)

theorem offers_of_checks {db : NetDb} {row : EventNetwork} {gb wg : Ipv4Cidr}
    (hpos : ∀ a ∈ db.active, 0 < a.cidr.prefixLen) (hgb : db.Free gb) (hwg : db.Free wg)
    (hport : db.GoodPort row.wireguardListenPort) (hrgb : row.gameboxCidr = gb.toColumn)
    (hrwg : row.wireguardCidr = wg.toColumn) (hchecks : row.checks = true) : db.Offers row := by
  have hapart := row.disjoint_of_checks hchecks
  exact ⟨hgb.disjoint hpos hrgb hapart.pos, hwg.disjoint hpos hrwg hapart.symm.pos, hapart, hport⟩

theorem buildAndPersist_ok {db db' : NetDb} {e : Nat} {mode : AllocationMode}
    {gb wg : Ipv4Cidr} {port : Int} {teamPrefix : Nat} {row : EventNetwork}
    (hpos : ∀ a ∈ db.active, 0 < a.cidr.prefixLen) (hgb : db.Free gb) (hwg : db.Free wg)
    (hport : db.GoodPort port)
    (h : buildAndPersist e mode gb wg port teamPrefix db = .ok (db', row)) :
    db.Offers row ∧ (∀ r ∈ db.rows, r.eventId ≠ row.eventId) ∧
      db' = { db with rows := db.rows ++ [row], allocations := db.allocations ++ row.allocations } := by
  obtain ⟨hrow, hc, hnew, rfl⟩ := buildAndPersist_inv h
  obtain ⟨he, hrgb, hrwg, hp, -⟩ := deriveNetwork_ok hrow
  exact ⟨offers_of_checks hpos hgb hwg (hp ▸ hport) hrgb hrwg hc, fun r hr => he ▸ hnew r hr, rfl⟩

theorem reallocateTx_ok {db db' : NetDb} {e : Nat} {ext : List Ipv4Cidr} {res : EventNetwork}
    (hpos : ∀ a ∈ db.active, 0 < a.cidr.prefixLen)
    (h : reallocateTx e ext db = .ok (db', res)) :
    ∃ new : EventNetwork, db.Offers new ∧ new.eventId = e ∧ (∃ r ∈ db.rows, r.eventId = e) ∧
      db' = { db with
        rows := db.rows.map fun r => if r.eventId = e then r.readdressed new else r
        allocations := releaseAll e db.allocations ++ new.allocations } := by
  obtain ⟨gb, wg, port, teamPrefix, new, hchoose, hnew, hc, hrow, rfl⟩ := reallocateTx_inv h
  obtain ⟨hgb, hwg, hport⟩ := chooseNetwork_ok hchoose
  obtain ⟨he, hngb, hnwg, hp, -⟩ := deriveNetwork_ok hnew
  exact ⟨new, offers_of_checks hpos hgb hwg (hp ▸ hport) hngb hnwg hc, he, hrow, rfl⟩

/-! ## The invariant -/

/-- The state of the ledger; `released` are the events whose blocks have been released. -/
structure AllocationInv (released : List Nat) (db : NetDb) : Prop where
  disjoint : db.active.Pairwise fun a b => a.cidr.Disjoint b.cidr
  positive : ∀ a ∈ db.active, 0 < a.cidr.prefixLen
  owners : ∀ a ∈ db.active, ∃ r ∈ db.rows, r.eventId = a.eventId
  events : (db.rows.map (·.eventId)).Nodup
  ports : (db.rows.map (·.wireguardListenPort)).Nodup
  range : ∀ r ∈ db.rows, (db.settings.wireguardPortMin : Int) ≤ r.wireguardListenPort ∧
    r.wireguardListenPort ≤ db.settings.wireguardPortMax
  recorded : ∀ r ∈ db.rows, r.eventId ∉ released →
    db.active.filter (·.eventId = r.eventId) = r.allocations

section Ledger

variable {released : List Nat} {db db' : NetDb}

theorem active_releaseAll (e : Nat) (as : List NetworkAllocation) :
    (releaseAll e as).filter (!·.released) = (as.filter (!·.released)).filter (·.eventId ≠ e) := by
  unfold releaseAll
  induction as with
  | nil => rfl
  | cons a as ih =>
    rw [List.map_cons, List.filter_cons, List.filter_cons, ih]
    by_cases ha : a.eventId = e <;> cases hr : a.released <;> simp [ha, hr]

theorem pairwise_append_allocations {row : EventNetwork} {as : List NetworkAllocation}
    (has : as.Pairwise fun a b => a.cidr.Disjoint b.cidr)
    (hgb : ∀ a ∈ as, a.cidr.Disjoint row.gameboxCidr)
    (hwg : ∀ a ∈ as, a.cidr.Disjoint row.wireguardCidr)
    (hapart : row.gameboxCidr.Disjoint row.wireguardCidr) :
    (as ++ row.allocations).Pairwise fun a b => a.cidr.Disjoint b.cidr := by
  refine List.pairwise_append.2 ⟨has, ?_, fun a ha b hb => ?_⟩
  · exact List.pairwise_pair.2 hapart
  · simp only [EventNetwork.allocations, List.mem_cons, List.not_mem_nil, or_false] at hb
    rcases hb with rfl | rfl
    · exact hgb a ha
    · exact hwg a ha

theorem mem_allocations {row : EventNetwork} {a : NetworkAllocation} (h : a ∈ row.allocations) :
    a.eventId = row.eventId ∧ a.released = false ∧
      (a.cidr = row.gameboxCidr ∨ a.cidr = row.wireguardCidr) := by
  simp only [EventNetwork.allocations, List.mem_cons, List.not_mem_nil, or_false] at h
  rcases h with rfl | rfl <;> simp

theorem filter_allocations (row : EventNetwork) (e : Nat) :
    row.allocations.filter (·.eventId = e) = if row.eventId = e then row.allocations else [] := by
  by_cases h : row.eventId = e <;> simp [EventNetwork.allocations, h]

theorem active_append (db : NetDb) (rows : List EventNetwork) (as : List NetworkAllocation)
    (row : EventNetwork) :
    ({ db with rows, allocations := as ++ row.allocations } : NetDb).active =
      as.filter (!·.released) ++ row.allocations := by
  simp [NetDb.active, EventNetwork.allocations]

/-- A new row with the blocks that are offered for it. -/
theorem AllocationInv.persist {row : EventNetwork} (h : AllocationInv released db) (ho : db.Offers row)
    (hnew : ∀ r ∈ db.rows, r.eventId ≠ row.eventId) :
    AllocationInv released { db with
      rows := db.rows ++ [row], allocations := db.allocations ++ row.allocations } := by
  have hact := active_append db (db.rows ++ [row]) db.allocations row
  have hno (a : NetworkAllocation) (ha : a ∈ db.active) : a.eventId ≠ row.eventId := by
    intro he
    obtain ⟨r, hr, hre⟩ := h.owners a ha
    exact hnew r hr (hre.trans he)
  refine ⟨?_, ?_, ?_, ?_, ?_, ?_, ?_⟩
  · rw [hact]
    exact pairwise_append_allocations h.disjoint ho.gamebox ho.wireguard ho.apart
  · intro a ha
    rw [hact] at ha
    rcases List.mem_append.1 ha with ha | ha
    · exact h.positive a ha
    · rcases (mem_allocations ha).2.2 with he | he
      · exact he ▸ ho.apart.pos
      · exact he ▸ ho.apart.symm.pos
  · intro a ha
    rw [hact] at ha
    rcases List.mem_append.1 ha with ha | ha
    · obtain ⟨r, hr, hre⟩ := h.owners a ha
      exact ⟨r, List.mem_append_left _ hr, hre⟩
    · exact ⟨row, List.mem_append_right _ (List.mem_singleton_self row), (mem_allocations ha).1.symm⟩
  · rw [List.map_append, List.nodup_append]
    refine ⟨h.events, List.nodup_singleton _, fun a ha b hb => ?_⟩
    obtain ⟨r, hr, rfl⟩ := List.mem_map.1 ha
    rw [List.map_singleton, List.mem_singleton] at hb
    exact hb ▸ hnew r hr
  · rw [List.map_append, List.nodup_append]
    refine ⟨h.ports, List.nodup_singleton _, fun a ha b hb he => ho.port.unused ?_⟩
    rw [List.map_singleton, List.mem_singleton] at hb
    rw [← hb, ← he]
    exact ha
  · intro r hr
    rcases List.mem_append.1 hr with hr | hr
    · exact h.range r hr
    · rw [List.mem_singleton.1 hr]
      exact ⟨ho.port.low, ho.port.high⟩
  · intro r hr hrel
    rw [hact, List.filter_append, filter_allocations]
    rcases List.mem_append.1 hr with hr | hr
    · rw [if_neg (hnew r hr).symm, List.append_nil]
      exact h.recorded r hr hrel
    · rw [List.mem_singleton.1 hr, if_pos rfl]
      refine (congrArg (· ++ row.allocations) (List.filter_eq_nil_iff.2 fun a ha => ?_)).trans
        (List.nil_append _)
      simpa using hno a ha

/-- New addresses in the row of the event, and the swap of its blocks. -/
theorem AllocationInv.readdress {e : Nat} {new : EventNetwork} (h : AllocationInv released db)
    (ho : db.Offers new) (he : new.eventId = e) (hrow : ∃ r ∈ db.rows, r.eventId = e) :
    AllocationInv (released.filter (· ≠ e)) { db with
      rows := db.rows.map fun r => if r.eventId = e then r.readdressed new else r
      allocations := releaseAll e db.allocations ++ new.allocations } := by
  set rows := db.rows.map fun r => if r.eventId = e then r.readdressed new else r with hrows
  have hact : ({ db with rows, allocations := releaseAll e db.allocations ++ new.allocations } :
      NetDb).active = db.active.filter (·.eventId ≠ e) ++ new.allocations := by
    rw [active_append, active_releaseAll]
    rfl
  have hsub (a : NetworkAllocation) (ha : a ∈ db.active.filter (·.eventId ≠ e)) : a ∈ db.active :=
    List.mem_of_mem_filter ha
  have hids : rows.map (·.eventId) = db.rows.map (·.eventId) := by
    rw [hrows, List.map_map]
    refine List.map_congr_left fun r _ => ?_
    dsimp only [Function.comp]
    split_ifs <;> rfl
  have hmem (r : EventNetwork) (hr : r ∈ rows) : (∃ r₀ ∈ db.rows, r₀.eventId = e ∧
      r = r₀.readdressed new) ∨ (r ∈ db.rows ∧ r.eventId ≠ e) := by
    obtain ⟨r₀, hr₀, rfl⟩ := List.mem_map.1 hr
    by_cases h0 : r₀.eventId = e
    · rw [if_pos h0]
      exact .inl ⟨r₀, hr₀, h0, rfl⟩
    · rw [if_neg h0]
      exact .inr ⟨hr₀, h0⟩
  refine ⟨?_, ?_, ?_, ?_, ?_, ?_, ?_⟩
  · rw [hact]
    exact pairwise_append_allocations (h.disjoint.filter _) (fun a ha => ho.gamebox a (hsub a ha))
      (fun a ha => ho.wireguard a (hsub a ha)) ho.apart
  · intro a ha
    rw [hact] at ha
    rcases List.mem_append.1 ha with ha | ha
    · exact h.positive a (hsub a ha)
    · rcases (mem_allocations ha).2.2 with hc | hc
      · exact hc ▸ ho.apart.pos
      · exact hc ▸ ho.apart.symm.pos
  · intro a ha
    rw [hact] at ha
    have hex : ∃ r₀ ∈ db.rows, r₀.eventId = a.eventId := by
      rcases List.mem_append.1 ha with ha | ha
      · exact h.owners a (hsub a ha)
      · rw [(mem_allocations ha).1, he]
        exact hrow
    have hin : a.eventId ∈ rows.map (·.eventId) := by
      obtain ⟨r₀, hr₀, h0⟩ := hex
      rw [hids]
      exact h0 ▸ List.mem_map_of_mem hr₀
    obtain ⟨r, hr, h0⟩ := List.mem_map.1 hin
    exact ⟨r, hr, h0⟩
  · show (rows.map (·.eventId)).Nodup
    rw [hids]
    exact h.events
  · show (rows.map (·.wireguardListenPort)).Nodup
    rw [hrows, List.map_map]
    refine List.Nodup.map_on (fun r hr r' hr' hp => ?_) (List.Nodup.of_map _ h.events)
    dsimp only [Function.comp] at hp
    have hfresh (x : EventNetwork) (hx : x ∈ db.rows) :
        x.wireguardListenPort ≠ new.wireguardListenPort := fun hxp =>
      ho.port.unused (hxp ▸ List.mem_map_of_mem hx)
    by_cases h1 : r.eventId = e <;> by_cases h2 : r'.eventId = e
    · exact List.inj_on_of_nodup_map h.events hr hr' (h1.trans h2.symm)
    · rw [if_pos h1, if_neg h2] at hp
      exact absurd hp.symm (hfresh r' hr')
    · rw [if_neg h1, if_pos h2] at hp
      exact absurd hp (hfresh r hr)
    · rw [if_neg h1, if_neg h2] at hp
      exact List.inj_on_of_nodup_map h.ports hr hr' hp
  · intro r hr
    rcases hmem r hr with ⟨r₀, -, -, rfl⟩ | ⟨hr, -⟩
    · exact ⟨ho.port.low, ho.port.high⟩
    · exact h.range r hr
  · intro r hr hrel
    rw [hact, List.filter_append, filter_allocations, List.filter_filter, he]
    rcases hmem r hr with ⟨r₀, -, h0, rfl⟩ | ⟨hr, hne⟩
    · have hid : (r₀.readdressed new).eventId = e := h0
      rw [hid, if_pos rfl]
      have hnil : db.active.filter (fun a => decide (a.eventId = e) && decide (a.eventId ≠ e)) = [] :=
        List.filter_eq_nil_iff.2 fun a _ => by simp
      rw [hnil, List.nil_append]
      simp only [EventNetwork.allocations, EventNetwork.readdressed, h0, he]
    · have hrel' : r.eventId ∉ released := fun hmem =>
        hrel (List.mem_filter.2 ⟨hmem, decide_eq_true hne⟩)
      rw [if_neg hne.symm, List.append_nil, ← h.recorded r hr hrel']
      refine List.filter_congr fun a _ => ?_
      by_cases ha : a.eventId = r.eventId
      · simp [ha, hne]
      · simp [ha]

theorem AllocationInv.release (h : AllocationInv released db) (e : Nat) :
    AllocationInv (e :: released) { db with allocations := releaseAll e db.allocations } := by
  have hact : ({ db with allocations := releaseAll e db.allocations } : NetDb).active =
      db.active.filter (·.eventId ≠ e) := active_releaseAll e db.allocations
  refine ⟨?_, ?_, ?_, h.events, h.ports, h.range, ?_⟩
  · rw [hact]
    exact h.disjoint.filter _
  · rw [hact]
    exact fun a ha => h.positive a (List.mem_of_mem_filter ha)
  · rw [hact]
    exact fun a ha => h.owners a (List.mem_of_mem_filter ha)
  · intro r hr hrel
    rw [List.mem_cons, not_or] at hrel
    rw [hact, List.filter_filter, ← h.recorded r hr hrel.2]
    refine List.filter_congr fun a _ => ?_
    by_cases ha : a.eventId = r.eventId
    · simp [ha, hrel.1]
    · simp [ha]

/-- A write to the rows that keeps what the ledger sees of them. -/
theorem AllocationInv.of_rows {rows : List EventNetwork} {f : EventNetwork → EventNetwork}
    (h : AllocationInv released db) (hrows : rows = db.rows.map f)
    (hf : ∀ r, (f r).eventId = r.eventId ∧ (f r).gameboxCidr = r.gameboxCidr ∧
      (f r).wireguardCidr = r.wireguardCidr ∧
      (f r).wireguardListenPort = r.wireguardListenPort) : AllocationInv released { db with rows } := by
  subst hrows
  refine ⟨h.disjoint, h.positive, fun a ha => ?_, ?_, ?_, fun r hr => ?_, fun r hr hrel => ?_⟩
  · obtain ⟨r, hr, he⟩ := h.owners a ha
    exact ⟨f r, List.mem_map_of_mem hr, (hf r).1.trans he⟩
  · show ((db.rows.map f).map (·.eventId)).Nodup
    rw [List.map_map]
    exact (List.map_congr_left fun r _ => (hf r).1) ▸ h.events
  · show ((db.rows.map f).map (·.wireguardListenPort)).Nodup
    rw [List.map_map]
    exact (List.map_congr_left fun r _ => (hf r).2.2.2) ▸ h.ports
  · obtain ⟨r₀, hr₀, rfl⟩ := List.mem_map.1 hr
    rw [(hf r₀).2.2.2]
    exact h.range r₀ hr₀
  · obtain ⟨r₀, hr₀, rfl⟩ := List.mem_map.1 hr
    rw [(hf r₀).1] at hrel ⊢
    refine (h.recorded r₀ hr₀ hrel).trans ?_
    simp only [EventNetwork.allocations, (hf r₀).1, (hf r₀).2.1, (hf r₀).2.2.1]

theorem AllocationInv.mono {released' : List Nat} (h : AllocationInv released db)
    (hsub : released ⊆ released') : AllocationInv released' db :=
  ⟨h.disjoint, h.positive, h.owners, h.events, h.ports, h.range,
    fun r hr hrel => h.recorded r hr fun hmem => hrel (hsub hmem)⟩

/-! ## Steps -/

/-- The events that are released after the statement. -/
def NetStmt.releasing : NetStmt → List Nat → List Nat
  | release e, es => e :: es
  | _, es => es

theorem NetStmt.subset_releasing (l : NetStmt) (es : List Nat) : es ⊆ l.releasing es := by
  unfold releasing
  split
  · exact List.subset_cons_self _ _
  · exact List.Subset.refl _

theorem AllocationInv.reallocateTx {e : Nat} {ext : List Ipv4Cidr} {res : EventNetwork}
    (h : AllocationInv released db) (htx : reallocateTx e ext db = .ok (db', res)) :
    AllocationInv (released.filter (· ≠ e)) db' := by
  obtain ⟨new, ho, he, hrow, rfl⟩ := reallocateTx_ok h.positive htx
  exact h.readdress ho he hrow

theorem AllocationInv.manualTx {e : Nat} {gb wg : Ipv4Cidr} {port : Option Int} {row : EventNetwork}
    (h : AllocationInv released db) (hp : PortFits port)
    (htx : manualTx e gb wg port db = .ok (db', row)) : AllocationInv released db' := by
  unfold Awd.manualTx at htx
  split at htx
  · cases htx
  · rename_i hnone
    have hfree : ∀ a ∈ db.active, a.cidr.overlaps gb = false ∧ a.cidr.overlaps wg = false := by
      intro a ha
      simpa using List.find?_eq_none.1 hnone a ha
    dsimp only at htx
    split_ifs at htx
    obtain ⟨p, hport, htx⟩ := except_bind_ok htx
    obtain ⟨ho, hnew, rfl⟩ := buildAndPersist_ok h.positive (fun a ha => (hfree a ha).1)
      (fun a ha => (hfree a ha).2) (manualPort_good hp hport) htx
    exact h.persist ho hnew

theorem AllocationInv.automaticTx {e : Nat} {ext : List Ipv4Cidr} {row : EventNetwork}
    (h : AllocationInv released db) (htx : automaticTx e ext db = .ok (db', row)) :
    AllocationInv released db' := by
  obtain ⟨⟨gb, wg, port, teamPrefix⟩, hchoose, htx⟩ := except_bind_ok htx
  obtain ⟨hgb, hwg, hport⟩ := chooseNetwork_ok hchoose
  obtain ⟨ho, hnew, rfl⟩ := buildAndPersist_ok h.positive hgb hwg hport htx
  exact h.persist ho hnew

/-- One statement of a call whose port fits. -/
theorem AllocationInv.step {P : Option Int → Prop} {T : Nat → Prop} {l : NetStmt} (h : AllocationInv released db)
    (hP : ∀ port, P port → PortFits port) (hs : NetStep P T l db db') :
    AllocationInv (l.releasing released) db' := by
  cases hs with
  | same | start => exact h.mono (l.subset_releasing released)
  | automatic htx => exact h.automaticTx htx
  | manual hp htx => exact h.manualTx (hP _ hp) htx
  | reallocate _ htx => exact (h.reallocateTx htx).mono (List.filter_subset_self _)
  | release e => exact h.release e
  | lock e now =>
    refine h.of_rows rfl fun r => ?_
    split_ifs <;> exact ⟨rfl, rfl, rfl, rfl⟩
  | unlock e =>
    refine h.of_rows rfl fun r => ?_
    split_ifs <;> exact ⟨rfl, rfl, rfl, rfl⟩
  | transition e events =>
    exact ⟨h.disjoint, h.positive, h.owners, h.events, h.ports, h.range, h.recorded⟩
  | ensureTeams _ hadd =>
    obtain ⟨new, rfl⟩ := addTeamNetworks_frame hadd
    exact ⟨h.disjoint, h.positive, h.owners, h.events, h.ports, h.range, h.recorded⟩

end Ledger

/-! ## Runs -/

/-- The port that the call asks for is a 16-bit number. -/
def PortsFit (j : NetJob) (_ : NetStmt) (_ : NetDb × NetNotes) : Prop := PortFits j.port

instance (j : NetJob) (l : NetStmt) (v : NetDb × NetNotes) : Decidable (PortsFit j l v) :=
  inferInstanceAs (Decidable (PortFits j.port))

/-- The law of the blocks. -/
def allocationLaw : Process.Law netSystem where
  rely _ _ := True
  guar _ _ _ := True
  inv v := AllocationInv v.2.released v.1
  cond := PortsFit
  refl _ := trivial
  trans _ _ := trivial
  guar_refl _ _ := trivial
  rely_of_guar _ := trivial

theorem watch_released {j : NetJob} {l : NetStmt}
    (h : (∀ e, l ≠ .reallocate e) ∨ ∀ e ext, j ≠ .reallocate e ext) (db : NetDb) (g : NetNotes) :
    (NetNotes.watch j l db g).released = l.releasing g.released := by
  cases l with
  | reallocate e =>
    cases j with
    | reallocate e ext => exact (h.elim (fun h => h _ rfl) fun h => h _ _ rfl).elim
    | _ => rfl
  | readNetwork e => cases j <;> rfl
  | _ => rfl

theorem watch_reallocate (e e' : Nat) (ext : List Ipv4Cidr) (db : NetDb) (g : NetNotes) :
    (NetNotes.watch (.reallocate e ext) (.reallocate e') db g).released =
      if (reallocateTx e ext db).isOk then g.released.filter (· ≠ e) else g.released := by
  rw [NetNotes.watch]
  split_ifs <;> rfl

/-- A program of reads, as a part of any call. -/
theorem allocationLaw_reads {α : Type} {p : NetM α} (hp : p.Does NetStmt.Reads) (j : NetJob)
    (v : NetDb × NetNotes) : allocationLaw.Safe j (fun _ _ => True) p v := by
  refine Process.Law.safe_of_does hp fun l db db' g hi _ hl => ⟨trivial, ?_⟩
  obtain ⟨hread, rfl⟩ := hl
  have hne : ∀ e, l ≠ .reallocate e := by
    rintro e rfl
    rcases hread with h | ⟨_, h⟩ <;> cases h
  show AllocationInv (NetNotes.watch j l db' g).released db'
  rw [watch_released (.inl hne)]
  exact AllocationInv.mono hi (l.subset_releasing _)

/-- The call of `reallocate`: its transaction reserves the blocks of the event again. -/
theorem allocationLaw_reallocate (e : Nat) (ext : List Ipv4Cidr) (v : NetDb × NetNotes) :
    allocationLaw.Safe (.reallocate e ext) (fun _ _ => True) (reallocate e ext) v := by
  refine Process.Law.safe_seq (allocationLaw_reads (reads_findAwdEvent e) _ v) fun awd v₁ _ =>
    Process.Law.safe_seq (allocationLaw_reads (reads_assertNetworkEditable _) _ v₁) fun _ v₂ _ =>
      Process.Law.safe_seq (allocationLaw_reads (reads_requireNetwork e) _ v₂) fun current v₃ _ => ?_
  refine Process.Law.safe_ite (fun _ => trivial) fun _ => ?_
  refine Process.Law.safe_exec_seen fun v' _ hi _ => ⟨trivial, ?_, fun _ _ _ => trivial⟩
  change AllocationInv (NetNotes.watch _ _ v'.1 v'.2).released (Prog.after (reallocateTx e ext) v'.1)
  rw [watch_reallocate, Prog.after]
  cases htx : reallocateTx e ext v'.1 with
  | error err => exact hi
  | ok res => exact AllocationInv.reallocateTx hi htx

theorem allocationLaw_keeps : allocationLaw.Keeps := by
  refine ⟨fun j v _ => ?_, fun env v hi => ⟨trivial, ?_⟩⟩
  · by_cases hj : ∃ e ext, j = .reallocate e ext
    · obtain ⟨e, ext, rfl⟩ := hj
      exact Process.Law.safe_seq (allocationLaw_reallocate e ext v) fun _ _ _ => trivial
    · refine Process.Law.safe_of_does (netDoes_prog j) fun l db db' g hi hc hs => ⟨trivial, ?_⟩
      show AllocationInv (NetNotes.watch j l db g).released db'
      rw [watch_released (.inr fun e ext h => hj ⟨e, ext, h⟩)]
      exact AllocationInv.step (P := (· = j.port)) hi (fun port hport => hport.symm ▸ hc) hs
  · cases env <;> exact ⟨hi.disjoint, hi.positive, hi.owners, hi.events, hi.ports, hi.range,
      hi.recorded⟩

/-- What the ledger promises: the reserved blocks are disjoint, the ports are distinct and in the
range of the platform, and the row of an event whose blocks are not released records them. -/
structure NetDb.LedgerSound (db : NetDb) (released : List Nat) : Prop where
  disjoint : db.active.Pairwise fun a b => a.cidr.Disjoint b.cidr
  ports : (db.rows.map (·.wireguardListenPort)).Nodup
  range : ∀ r ∈ db.rows, (db.settings.wireguardPortMin : Int) ≤ r.wireguardListenPort ∧
    r.wireguardListenPort ≤ db.settings.wireguardPortMax
  recorded : ∀ r ∈ db.rows, r.eventId ∉ released →
    db.active.filter (·.eventId = r.eventId) = r.allocations

theorem ledger_sound {db : NetDb} (hrows : db.rows = []) (hallocs : db.allocations = [])
    {acts : List (Act NetJob NetEnv)}
    (hports : Along netSystem.step (Meets PortsFit) (NetPool.initial db) acts) :
    let w := acts.foldl netSystem.step (NetPool.initial db)
    w.state.LedgerSound w.ghost.released := by
  have hactive : db.active = [] := by rw [NetDb.active, hallocs, List.filter_nil]
  have hstart : AllocationInv [] db := by
    refine ⟨?_, ?_, ?_, ?_, ?_, ?_, ?_⟩ <;> simp [hrows, hactive]
  have h := (Process.Law.poolOk_run allocationLaw_keeps
    (w := NetPool.initial db) ⟨hstart, fun t ht => absurd ht List.not_mem_nil⟩ hports).1.inv
  exact ⟨h.disjoint, h.ports, h.range, h.recorded⟩

/-- An automatic allocation, and then the release of its blocks. -/
def allocateAndRelease : List (Act NetJob NetEnv) :=
  [.spawn (.automatic 1 []), .step 0 true, .step 0 true, .step 0 true, .spawn (.release 1),
    .step 1 true]

theorem ledger_sound_released :
    Along netSystem.step (Meets PortsFit) (NetPool.initial .oneTeam) allocateAndRelease ∧
      (allocateAndRelease.foldl netSystem.step (NetPool.initial .oneTeam)).state.LedgerSound
        (allocateAndRelease.foldl netSystem.step (NetPool.initial .oneTeam)).ghost.released :=
  have hports : Along netSystem.step (Meets PortsFit) (NetPool.initial .oneTeam)
    allocateAndRelease := by decide +kernel
  ⟨hports, ledger_sound rfl rfl hports⟩

/-- A row outlives the release of its blocks. -/
theorem released_row_kept : ¬ ∀ (db : NetDb) (acts : List (Act NetJob NetEnv)), db.rows = [] →
    db.allocations = [] → ∀ r ∈ (acts.foldl netSystem.step (NetPool.initial db)).state.rows,
      (acts.foldl netSystem.step (NetPool.initial db)).state.active.filter
        (·.eventId = r.eventId) = r.allocations := by
  intro h
  have hkept := h .oneTeam allocateAndRelease rfl rfl
  revert hkept
  decide +kernel

end FloatCtf.Awd
