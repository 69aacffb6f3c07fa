import FloatCtf.Awd.FirewallMatrix

/-!
# The events of one table

All events share the base chain, and an accept in the chain of one event is final for the packet.
Between addresses of one event the chains of the others are silent, up to one rule: the return path
of the hardening and attack phases names no address.  An event listed earlier in such a phase lets
an established packet through that the event's own chain cuts, and in no other way does an event
change the verdict of another.
-/

namespace FloatCtf.Awd

open Nft

namespace DesiredEventPolicy

variable (e : DesiredEventPolicy)

/-- The address is in one of the blocks of the event. -/
def Belongs (a : Addr) : Prop :=
  e.gameboxNetwork.contains a = true ∨ e.infrastructureNetwork.contains a = true ∨
    e.hasPlayer a = true ∨ e.hasBox a = true ∨ e.isJudge a = true ∨ e.isFlag a = true

/-- The address is a player or a game box of the event. -/
def isCompetitor (a : Addr) : Bool := e.hasPlayer a || e.hasBox a

/-- The event is in a phase with a return path. -/
def hasReturnPath : Bool := e.stage = .hardening || e.stage = .attack

/-- The event cuts an established packet between its own addresses: one to a box of a banned team,
and what its pause, its settlement or its end forbid. -/
def Cuts (p : FwPacket) : Prop :=
  e.isCompetitor p.src = true ∧ e.hasBannedBox p.dst = true ∨
    match e.stage with
    | .hardening | .attack => False
    | .pause => e.isCompetitor p.src = true
    | .settlement =>
      e.hasPlayer p.src = true ∨ e.hasBox p.src = true ∧ e.isJudge p.dst = false ∧
        ¬ (e.isJudge p.src = true ∧ e.hasBox p.dst = true)
    | .finished =>
      e.isCompetitor p.src = true ∨ e.isJudge p.src = true ∧ e.hasBox p.dst = true

end DesiredEventPolicy

/-- No address belongs to both events. -/
def Foreign (A B : DesiredEventPolicy) : Prop := ∀ a, B.Belongs a → ¬ A.Belongs a

/-! ## A foreign chain -/

section Foreign

variable {A B : DesiredEventPolicy} {a : Addr} {p : FwPacket}

theorem hasPlayer_or_hasBox_of_hasBanned {e : DesiredEventPolicy} (h : e.hasBanned a = true) :
    e.hasPlayer a = true ∨ e.hasBox a = true := by
  obtain ⟨net, hnet, h⟩ := List.any_eq_true.1 h
  obtain ⟨t, ht, hnet⟩ := List.mem_flatMap.1 hnet
  have ht := (List.mem_filter.1 ht).1
  simp only [List.mem_cons, List.not_mem_nil, or_false] at hnet
  rcases hnet with rfl | rfl
  · exact .inl (List.any_eq_true.2 ⟨t, ht, h⟩)
  · exact .inr (List.any_eq_true.2 ⟨t, ht, h⟩)

theorem hasBox_of_hasBannedBox {e : DesiredEventPolicy} (h : e.hasBannedBox a = true) :
    e.hasBox a = true := by
  obtain ⟨_, hnet, h⟩ := List.any_eq_true.1 h
  obtain ⟨t, ht, rfl⟩ := List.mem_map.1 hnet
  exact List.any_eq_true.2 ⟨t, (List.mem_filter.1 ht).1, h⟩

/-- What the tests of a foreign chain say of an address: nothing. -/
structure Silent (A : DesiredEventPolicy) (a : Addr) : Prop where
  player : A.hasPlayer a = false
  box : A.hasBox a = false
  judge : A.isJudge a = false
  infra : A.infrastructureNetwork.contains a = false
  banned : A.hasBanned a = false
  bannedBox : A.hasBannedBox a = false

theorem Foreign.silent (h : Foreign A B) (ha : B.Belongs a) : Silent A a := by
  have hno := h a ha
  have hplayer : A.hasPlayer a = false := Bool.eq_false_of_not_eq_true fun hp =>
    hno (.inr (.inr (.inl hp)))
  have hbox : A.hasBox a = false := Bool.eq_false_of_not_eq_true fun hb =>
    hno (.inr (.inr (.inr (.inl hb))))
  refine ⟨hplayer, hbox, ?_, ?_, ?_, ?_⟩
  · exact Bool.eq_false_of_not_eq_true fun hj => hno (.inr (.inr (.inr (.inr (.inl hj)))))
  · exact Bool.eq_false_of_not_eq_true fun hi => hno (.inr (.inl hi))
  · refine Bool.eq_false_of_not_eq_true fun hb => ?_
    obtain hp | hp := hasPlayer_or_hasBox_of_hasBanned hb
    · exact Bool.false_ne_true (hplayer.symm.trans hp)
    · exact Bool.false_ne_true (hbox.symm.trans hp)
  · exact Bool.eq_false_of_not_eq_true fun hb =>
      Bool.false_ne_true (hbox.symm.trans (hasBox_of_hasBannedBox hb))

/-- A chain that knows neither end of a packet accepts it when it is established and the phase has
a return path, and says nothing else. -/
theorem chainVerdict_silent (hsrc : Silent A p.src) (hdst : Silent A p.dst)
    (toBanned toInfra : Bool) : A.chainVerdict toBanned toInfra p =
      if p.established && A.hasReturnPath then some .accept else none := by
  have hown : A.ownTeam p = false := by
    refine Bool.eq_false_of_not_eq_true fun h => ?_
    obtain ⟨t, ht, h⟩ := List.any_eq_true.1 h
    rw [Bool.and_eq_true] at h
    exact Bool.false_ne_true (hdst.box.symm.trans (List.any_eq_true.2 ⟨t, ht, h.2⟩))
  simp only [DesiredEventPolicy.chainVerdict, DesiredEventPolicy.phaseVerdict,
    DesiredEventPolicy.hasReturnPath, DesiredEventPolicy.stage, hsrc.player, hsrc.box, hsrc.judge,
    hdst.box, hown]
  by_cases hsettle : A.isFinalSettlement = true
  · simp [hsettle]
  · by_cases hfinished : A.isFinished = true
    · simp [hsettle, hfinished]
    · obtain hphase | hphase | hphase :
          A.phase = .hardening ∨ A.phase = .attack ∨ A.phase = .pause := by cases A.phase <;> simp
      all_goals cases p.established <;> simp [hsettle, hfinished, hphase]

end Foreign

/-! ## The verdict between addresses of one event -/

section Isolation

variable {eventKey : Nat → String} {pre post : List DesiredEventPolicy} {B : DesiredEventPolicy}
  {p : FwPacket}

theorem any_foreign {f : DesiredEventPolicy → Bool} (h : ∀ A ∈ pre ++ post, f A = false) :
    (pre ++ B :: post).any f = f B := by
  have hpre : pre.any f = false := by
    rw [List.any_eq_false]
    exact fun A hA => by simp [h A (List.mem_append_left _ hA)]
  have hpost : post.any f = false := by
    rw [List.any_eq_false]
    exact fun A hA => by simp [h A (List.mem_append_right _ hA)]
  rw [List.any_append, List.any_cons, hpre, hpost, Bool.or_false, Bool.false_or]

/-- Chains that accept under one test, and say nothing else. -/
theorem findSome?_accept {l : List DesiredEventPolicy} {f : DesiredEventPolicy → Option Verdict}
    {g : DesiredEventPolicy → Bool} (h : ∀ A ∈ l, f A = if g A then some .accept else none) :
    l.findSome? f = if l.any g then some .accept else none := by
  induction l with
  | nil => rfl
  | cons A l ih =>
    rw [List.findSome?_cons, h A List.mem_cons_self,
      ih fun A' hA' => h A' (List.mem_cons_of_mem A hA'), List.any_cons]
    cases g A <;> simp

/-- The verdict for one event in the table of all events. -/
theorem firewallVerdict_of_foreign (hk : DistinctKeys eventKey (pre ++ B :: post))
    (hfar : ∀ A ∈ pre ++ post, Foreign A B) (hsrc : B.Belongs p.src) (hdst : B.Belongs p.dst)
    (revision : Nat) : firewallVerdict eventKey ⟨revision, pre ++ B :: post⟩ p =
      if B.hasBanned p.src then .drop
      else if p.established && pre.any (·.hasReturnPath) then .accept
      else (B.chainVerdict (B.hasBannedBox p.dst) (B.infrastructureNetwork.contains p.dst)
        p).getD .accept := by
  have hs (A : DesiredEventPolicy) (hA : A ∈ pre ++ post) : Silent A p.src :=
    (hfar A hA).silent hsrc
  have hd (A : DesiredEventPolicy) (hA : A ∈ pre ++ post) : Silent A p.dst :=
    (hfar A hA).silent hdst
  have hany (l : List DesiredEventPolicy) : (l.any fun A => p.established && A.hasReturnPath) =
      (p.established && l.any (·.hasReturnPath)) := by
    cases p.established <;> simp
  rw [firewallVerdict_eq hk]
  simp only [any_foreign (B := B) fun A hA => (hs A hA).banned,
    any_foreign (B := B) fun A hA => (hd A hA).bannedBox,
    any_foreign (B := B) fun A hA => (hd A hA).infra]
  have hpre := findSome?_accept (l := pre) fun A hA =>
    chainVerdict_silent (hs A (List.mem_append_left _ hA)) (hd A (List.mem_append_left _ hA))
      (B.hasBannedBox p.dst) (B.infrastructureNetwork.contains p.dst)
  have hpost := findSome?_accept (l := post) fun A hA =>
    chainVerdict_silent (hs A (List.mem_append_right _ hA)) (hd A (List.mem_append_right _ hA))
      (B.hasBannedBox p.dst) (B.infrastructureNetwork.contains p.dst)
  rw [List.findSome?_append, List.findSome?_cons, hpre, hpost, hany, hany]
  congr 1
  cases p.established && pre.any (·.hasReturnPath)
  · cases B.chainVerdict (B.hasBannedBox p.dst) (B.infrastructureNetwork.contains p.dst) p
    · cases p.established && post.any (·.hasReturnPath) <;> rfl
    · rfl
  · rfl

/-- What the chain of the event cuts of its established packets. -/
theorem chainVerdict_drop_iff (hest : p.established = true) :
    (B.chainVerdict (B.hasBannedBox p.dst) (B.infrastructureNetwork.contains p.dst) p).getD
      .accept = .drop ↔ B.Cuts p := by
  simp only [DesiredEventPolicy.chainVerdict, DesiredEventPolicy.phaseVerdict,
    DesiredEventPolicy.Cuts, DesiredEventPolicy.stage, DesiredEventPolicy.isCompetitor, hest]
  by_cases hsettle : B.isFinalSettlement = true
  · simp only [if_pos hsettle]
    cases B.hasBannedBox p.dst <;> cases B.hasPlayer p.src <;> cases B.hasBox p.src <;>
      cases B.isJudge p.src <;> cases B.isJudge p.dst <;> cases B.hasBox p.dst <;> simp
  · simp only [if_neg hsettle]
    by_cases hfinished : B.isFinished = true
    · simp only [if_pos hfinished]
      cases B.hasBannedBox p.dst <;> cases B.hasPlayer p.src <;> cases B.hasBox p.src <;>
        cases B.isJudge p.src <;> cases B.hasBox p.dst <;> simp
    · simp only [if_neg hfinished]
      cases hphase : B.phase <;> cases B.hasBannedBox p.dst <;> cases B.hasPlayer p.src <;>
        cases B.hasBox p.src <;> simp

/-- The table of all events agrees with the table of one event on its own packets, unless an event
before it has a return path and the event itself would cut the established packet. -/
theorem isolated_iff (hk : DistinctKeys eventKey (pre ++ B :: post))
    (hfar : ∀ A ∈ pre ++ post, Foreign A B) (hsrc : B.Belongs p.src) (hdst : B.Belongs p.dst)
    (revision revision' : Nat) :
    firewallVerdict eventKey ⟨revision, pre ++ B :: post⟩ p =
        firewallVerdict eventKey ⟨revision', [B]⟩ p ↔
      ¬ (p.established = true ∧ (∃ A ∈ pre, A.hasReturnPath = true) ∧
        B.hasBanned p.src = false ∧ B.Cuts p) := by
  have halone : firewallVerdict eventKey ⟨revision', [B]⟩ p =
      if B.hasBanned p.src then .drop
      else (B.chainVerdict (B.hasBannedBox p.dst) (B.infrastructureNetwork.contains p.dst)
        p).getD .accept := by
    have h := @firewallVerdict_of_foreign eventKey [] [] B p (List.nodup_singleton _) nofun hsrc hdst
      revision'
    simpa using h
  rw [firewallVerdict_of_foreign hk hfar hsrc hdst, halone]
  have hreturn : (p.established && pre.any (·.hasReturnPath)) = true ↔
      p.established = true ∧ ∃ A ∈ pre, A.hasReturnPath = true := by
    rw [Bool.and_eq_true, List.any_eq_true]
  cases hban : B.hasBanned p.src
  · simp only [Bool.false_eq_true, if_false, true_and]
    by_cases hret : (p.established && pre.any (·.hasReturnPath)) = true
    · obtain ⟨hest, hopen⟩ := hreturn.1 hret
      rw [if_pos hret, ← chainVerdict_drop_iff hest]
      cases (B.chainVerdict (B.hasBannedBox p.dst) (B.infrastructureNetwork.contains p.dst)
        p).getD .accept <;> simp [hest, hopen]
    · rw [if_neg hret]
      exact iff_of_true rfl fun h => hret (hreturn.2 ⟨h.1, h.2.1⟩)
  · simp

end Isolation

/-! ## Two events -/

/-- A second event of two teams, on addresses of its own. -/
def secondDuel (phase : AwdPhase) : DesiredEventPolicy where
  eventId := 2
  phase := phase
  gameboxNetwork := ⟨ipv4 10 61 0 0, 16⟩
  infrastructureNetwork := ⟨ipv4 10 61 0 0, 24⟩
  flagserverIp := ipv4 10 61 0 2
  judgeserverIp := ipv4 10 61 0 3
  teams := [⟨1, ⟨ipv4 10 71 1 0, 24⟩, ⟨ipv4 10 61 1 0, 24⟩⟩,
    ⟨2, ⟨ipv4 10 71 2 0, 24⟩, ⟨ipv4 10 61 2 0, 24⟩⟩]
  bannedTeams := []
  isFinalSettlement := false
  isFinished := false

theorem contains_v4 (net : IpNet) (a : Nat) : net.contains (.v4 a) = true ↔
    a / 2 ^ (32 - net.prefixLen) = net.addr / 2 ^ (32 - net.prefixLen) := decide_eq_true_iff

/-- The second byte of an address tells the events apart. -/
theorem foreign_duel (phase phase' : AwdPhase) (banned : List Nat) :
    Foreign (duel phase banned) (secondDuel phase') := by
  rintro (a | a) hB hA
  · simp only [DesiredEventPolicy.Belongs, DesiredEventPolicy.hasPlayer, DesiredEventPolicy.hasBox,
      DesiredEventPolicy.isJudge, DesiredEventPolicy.isFlag, List.any_eq_true, contains_v4, duel,
      secondDuel, IpNet.host, ipv4, List.mem_cons, List.not_mem_nil, exists_eq_or_imp, or_false,
      exists_eq_left] at hA hB
    omega
  · simp [DesiredEventPolicy.Belongs, DesiredEventPolicy.hasPlayer, DesiredEventPolicy.hasBox,
      DesiredEventPolicy.isJudge, DesiredEventPolicy.isFlag, IpNet.contains, duel] at hA

/-- An established packet of a player of the second event to a box of the same event. -/
def keptOpen : FwPacket := ⟨.v4 (ipv4 10 71 1 9), .v4 (ipv4 10 61 2 2), true⟩

/-- The second event is paused and its own table drops the packet; with the first event in its
attack phase before it, the packet passes. -/
theorem paused_event_kept_open :
    DistinctKeys Nat.repr [duel .attack [], secondDuel .pause] ∧
    Foreign (duel .attack []) (secondDuel .pause) ∧
    (secondDuel .pause).Belongs keptOpen.src ∧ (secondDuel .pause).Belongs keptOpen.dst ∧
    firewallVerdict Nat.repr ⟨1, [duel .attack [], secondDuel .pause]⟩ keptOpen = .accept ∧
    firewallVerdict Nat.repr ⟨1, [secondDuel .pause]⟩ keptOpen = .drop := by
  refine ⟨?_, foreign_duel _ _ _, ?_, ?_, ?_, ?_⟩
  · unfold DistinctKeys
    decide +kernel
  · exact .inr (.inr (.inl (by decide)))
  · exact .inl (by decide)
  · decide +kernel
  · decide +kernel

/-- Listed after the paused event, the first event changes nothing. -/
theorem isolated_iff_paused_first :
    firewallVerdict Nat.repr ⟨1, [secondDuel .pause, duel .attack []]⟩ keptOpen =
      firewallVerdict Nat.repr ⟨1, [secondDuel .pause]⟩ keptOpen := by
  refine (@isolated_iff Nat.repr [] [duel .attack []] (secondDuel .pause) keptOpen ?_ ?_ ?_ ?_
    1 1).2 fun h => ?_
  · unfold DistinctKeys
    decide +kernel
  · intro A hA
    rw [List.nil_append, List.mem_singleton] at hA
    rw [hA]
    exact foreign_duel _ _ _
  · exact .inr (.inr (.inl (by decide)))
  · exact .inl (by decide)
  · obtain ⟨-, ⟨A, hA, -⟩, -⟩ := h
    exact List.not_mem_nil hA

end FloatCtf.Awd
