import FloatCtf.Awd.Firewall

/-!
# The access matrix of one event

Seen from outside, an address of an event is a player of a team, a game box of a team, a service of
the infrastructure, or foreign to the event (`HostRole`).  For an event whose blocks are apart, the
rendered table decides by the stage of the event and by the roles of the two ends alone, as
`accessMatrix` says.

`specMatrix` is the plain reading of the phases, which knows neither of return traffic nor of banned
targets; the table differs from it on both.
-/

namespace FloatCtf.Awd

open Nft

/-! ## Roles -/

/-- What an address is to an event. -/
inductive HostRole where
  | player (team : Nat)
  | gamebox (team : Nat)
  | judge | flag | infra | outside
  deriving DecidableEq

/-- The stages of an event, as the firewall tells them apart. -/
inductive Stage where
  | hardening | attack | pause | settlement | finished
  deriving DecidableEq

namespace HostRole

/-- The team of a competitor. -/
def team? : HostRole → Option Nat
  | .player team | .gamebox team => some team
  | _ => none

/-- The address is a player's. -/
def isPlayer : HostRole → Bool
  | .player _ => true
  | _ => false

/-- The address is a gamebox. -/
def isGamebox : HostRole → Bool
  | .gamebox _ => true
  | _ => false

/-- The address belongs to the infrastructure. -/
def isInfra : HostRole → Bool
  | .judge | .flag | .infra => true
  | _ => false

/-- From a competitor to a game box of the same team. -/
def sameTeam : HostRole → HostRole → Bool
  | .player t, .gamebox u | .gamebox t, .gamebox u => t = u
  | _, _ => false

/-- A competitor whose team is banned. -/
def isBanned (banned : Nat → Bool) (r : HostRole) : Bool := r.team?.any banned

/-- A game box whose team is banned. -/
def isBannedBox (banned : Nat → Bool) (r : HostRole) : Bool := r.isGamebox && r.isBanned banned

end HostRole

/-! ## The matrix -/

/-- Whether a packet passes, by the stage of the event and the roles of its ends.  A banned team
neither sends nor is reached by a competitor, in any stage. -/
def accessMatrix (stage : Stage) (banned : Nat → Bool) (established : Bool) (src dst : HostRole) :
    Verdict :=
  if src.isBanned banned then .drop
  else if src.team?.isSome && dst.isBannedBox banned then .drop
  else
    match stage with
    | .hardening =>
      if established then .accept
      else
        match src, dst with
        | .player t, .gamebox u | .gamebox t, .gamebox u => if t = u then .accept else .drop
        | .player _, .judge | .player _, .flag | .player _, .infra => .drop
        | .gamebox _, _ => .drop
        | _, _ => .accept
    | .attack =>
      if established then .accept
      else
        match src, dst with
        | .player _, .judge | .player _, .flag | .player _, .infra => .drop
        | .gamebox _, .gamebox _ | .gamebox _, .flag => .accept
        | .gamebox _, _ => .drop
        | _, _ => .accept
    | .pause =>
      match src with
      | .player _ | .gamebox _ => .drop
      | _ => .accept
    | .settlement =>
      match src, dst with
      | .gamebox _, .judge => if established then .accept else .drop
      | .player _, _ | .gamebox _, _ => .drop
      | _, _ => .accept
    | .finished =>
      match src, dst with
      | .player _, _ | .gamebox _, _ | .judge, .gamebox _ => .drop
      | _, _ => .accept

/-- The plain matrix of the phases between a player and a game box: hardening allows a team its own
boxes, attack allows a player who is not banned every box, and no other stage allows any. -/
def specMatrix (stage : Stage) (banned : Nat → Bool) (player gamebox : Nat) : Verdict :=
  if banned player then .drop
  else
    match stage with
    | .hardening => if player = gamebox then .accept else .drop
    | .attack => .accept
    | .pause | .settlement | .finished => .drop

/-! ## The roles of the addresses -/

namespace DesiredEventPolicy

variable (e : DesiredEventPolicy)

/-- What an address is in an event. -/
def roleOf (a : Addr) : HostRole :=
  match e.teams.find? fun team => team.wireguardNetwork.contains a with
  | some team => .player team.teamId
  | none =>
    match e.teams.find? fun team => team.gameboxNetwork.contains a with
    | some team => .gamebox team.teamId
    | none =>
      if e.isJudge a then .judge
      else if e.isFlag a then .flag
      else if e.infrastructureNetwork.contains a then .infra
      else .outside

/-- Settlement goes before the end, and both before the phase. -/
def stage : Stage :=
  if e.isFinalSettlement then .settlement
  else if e.isFinished then .finished
  else
    match e.phase with
    | .hardening => .hardening
    | .attack => .attack
    | .pause => .pause

end DesiredEventPolicy

/-- No address is in both blocks. -/
def IpNet.Apart (m n : IpNet) : Prop := ∀ a, m.contains a = true → n.contains a = false

/-- The blocks of an event are apart, and its two services are distinct hosts of the
infrastructure. -/
structure Separated (e : DesiredEventPolicy) : Prop where
  teamIds : ∀ t ∈ e.teams, ∀ u ∈ e.teams, t.teamId = u.teamId → t = u
  players : ∀ t ∈ e.teams, ∀ u ∈ e.teams, t ≠ u → t.wireguardNetwork.Apart u.wireguardNetwork
  boxes : ∀ t ∈ e.teams, ∀ u ∈ e.teams, t ≠ u → t.gameboxNetwork.Apart u.gameboxNetwork
  cross : ∀ t ∈ e.teams, ∀ u ∈ e.teams, t.wireguardNetwork.Apart u.gameboxNetwork
  infraPlayers : ∀ t ∈ e.teams, t.wireguardNetwork.Apart e.infrastructureNetwork
  infraBoxes : ∀ t ∈ e.teams, t.gameboxNetwork.Apart e.infrastructureNetwork
  judge : e.infrastructureNetwork.contains (.v4 e.judgeserverIp) = true
  flag : e.infrastructureNetwork.contains (.v4 e.flagserverIp) = true
  services : e.judgeserverIp ≠ e.flagserverIp

namespace Separated

variable {e : DesiredEventPolicy} {t : DesiredTeamPolicy} {a : Addr} {n : Nat}

theorem roleOf_eq_player (h : e.roleOf a = .player n) :
    ∃ t ∈ e.teams, t.teamId = n ∧ t.wireguardNetwork.contains a = true := by
  unfold DesiredEventPolicy.roleOf at h
  split at h
  · rename_i t ht
    have hta := List.find?_some ht
    exact ⟨t, List.mem_of_find?_eq_some ht, HostRole.player.inj h, hta⟩
  · split at h
    · cases h
    · split_ifs at h

theorem roleOf_eq_gamebox (h : e.roleOf a = .gamebox n) :
    ∃ t ∈ e.teams, t.teamId = n ∧ t.gameboxNetwork.contains a = true := by
  unfold DesiredEventPolicy.roleOf at h
  split at h
  · cases h
  · split at h
    · rename_i t ht
      have hta := List.find?_some ht
      exact ⟨t, List.mem_of_find?_eq_some ht, HostRole.gamebox.inj h, hta⟩
    · split_ifs at h

theorem contains_host (addr : Nat) : (IpNet.host addr).contains a = decide (a = .v4 addr) := by
  cases a <;> simp [IpNet.contains, IpNet.host]

variable (hs : Separated e)

include hs

/-- The players of a team are the addresses of its WireGuard block. -/
theorem wireguard_iff (ht : t ∈ e.teams) :
    t.wireguardNetwork.contains a = true ↔ e.roleOf a = .player t.teamId := by
  constructor
  · intro h
    obtain ⟨u, hu⟩ : ∃ u, e.teams.find? (fun u => u.wireguardNetwork.contains a) = some u :=
      Option.isSome_iff_exists.1 (List.find?_isSome.2 ⟨t, ht, h⟩)
    have hmem := List.mem_of_find?_eq_some hu
    have hua := List.find?_some hu
    have heq : u = t := by
      by_contra hne
      exact Bool.false_ne_true ((hs.players u hmem t ht hne a hua).symm.trans h)
    rw [DesiredEventPolicy.roleOf, hu, heq]
  · intro h
    obtain ⟨u, hu, hid, hua⟩ := roleOf_eq_player h
    rwa [hs.teamIds u hu t ht hid] at hua

theorem not_wireguard (h : t.gameboxNetwork.contains a = true) (ht : t ∈ e.teams) :
    e.teams.find? (fun u => u.wireguardNetwork.contains a) = none := by
  refine List.find?_eq_none.2 fun u hu hua => ?_
  exact Bool.false_ne_true ((hs.cross u hu t ht a hua).symm.trans h)

/-- The game boxes of a team are the addresses of its game box block. -/
theorem gamebox_iff (ht : t ∈ e.teams) :
    t.gameboxNetwork.contains a = true ↔ e.roleOf a = .gamebox t.teamId := by
  constructor
  · intro h
    obtain ⟨u, hu⟩ : ∃ u, e.teams.find? (fun u => u.gameboxNetwork.contains a) = some u :=
      Option.isSome_iff_exists.1 (List.find?_isSome.2 ⟨t, ht, h⟩)
    have hmem := List.mem_of_find?_eq_some hu
    have hua := List.find?_some hu
    have heq : u = t := by
      by_contra hne
      exact Bool.false_ne_true ((hs.boxes u hmem t ht hne a hua).symm.trans h)
    rw [DesiredEventPolicy.roleOf, hs.not_wireguard h ht, hu, heq]
  · intro h
    obtain ⟨u, hu, hid, hua⟩ := roleOf_eq_gamebox h
    rwa [hs.teamIds u hu t ht hid] at hua

/-- An address of the infrastructure is no competitor. -/
theorem roleOf_of_infra (h : e.infrastructureNetwork.contains a = true) : e.roleOf a =
    if e.isJudge a then .judge else if e.isFlag a then .flag else .infra := by
  have hplayers : e.teams.find? (fun u => u.wireguardNetwork.contains a) = none := by
    refine List.find?_eq_none.2 fun u hu hua => ?_
    exact Bool.false_ne_true ((hs.infraPlayers u hu a hua).symm.trans h)
  have hboxes : e.teams.find? (fun u => u.gameboxNetwork.contains a) = none := by
    refine List.find?_eq_none.2 fun u hu hua => ?_
    exact Bool.false_ne_true ((hs.infraBoxes u hu a hua).symm.trans h)
  rw [DesiredEventPolicy.roleOf, hplayers, hboxes]
  simp only [h, if_true]

omit hs in
theorem infra_of_roleOf (h : (e.roleOf a).isInfra = true) :
    e.isJudge a = true ∨ e.isFlag a = true ∨ e.infrastructureNetwork.contains a = true := by
  unfold DesiredEventPolicy.roleOf at h
  split at h
  · cases h
  · split at h
    · cases h
    · split_ifs at h with h1 h2 h3
      · exact .inl h1
      · exact .inr (.inl h2)
      · exact .inr (.inr h3)
      · cases h

theorem judge_infra (h : e.isJudge a = true) : e.infrastructureNetwork.contains a = true := by
  rw [DesiredEventPolicy.isJudge, contains_host, decide_eq_true_eq] at h
  rw [h]
  exact hs.judge

theorem flag_infra (h : e.isFlag a = true) : e.infrastructureNetwork.contains a = true := by
  rw [DesiredEventPolicy.isFlag, contains_host, decide_eq_true_eq] at h
  rw [h]
  exact hs.flag

theorem not_judge_of_flag (h : e.isFlag a = true) : e.isJudge a = false := by
  rw [DesiredEventPolicy.isFlag, contains_host, decide_eq_true_eq] at h
  rw [DesiredEventPolicy.isJudge, contains_host, decide_eq_false_iff_not, h]
  exact fun heq => hs.services (Addr.v4.inj heq).symm

/-! ## The tests of the chain, by role -/

theorem infra_eq : e.infrastructureNetwork.contains a = (e.roleOf a).isInfra := by
  refine Bool.eq_iff_iff.2 ⟨fun h => ?_, fun h => ?_⟩
  · rw [hs.roleOf_of_infra h]
    split_ifs <;> rfl
  · obtain h | h | h := infra_of_roleOf h
    · exact hs.judge_infra h
    · exact hs.flag_infra h
    · exact h

theorem isJudge_eq : e.isJudge a = decide (e.roleOf a = .judge) := by
  refine Bool.eq_iff_iff.2 ⟨fun h => ?_, fun h => ?_⟩
  · rw [hs.roleOf_of_infra (hs.judge_infra h), if_pos h]
    rfl
  · have hrole := of_decide_eq_true h
    have hinfra : e.infrastructureNetwork.contains a = true := by
      rw [hs.infra_eq, hrole]
      rfl
    rw [hs.roleOf_of_infra hinfra] at hrole
    by_contra hne
    rw [if_neg hne] at hrole
    split_ifs at hrole

theorem isFlag_eq : e.isFlag a = decide (e.roleOf a = .flag) := by
  refine Bool.eq_iff_iff.2 ⟨fun h => ?_, fun h => ?_⟩
  · rw [hs.roleOf_of_infra (hs.flag_infra h), hs.not_judge_of_flag h, if_pos h]
    rfl
  · have hrole := of_decide_eq_true h
    have hinfra : e.infrastructureNetwork.contains a = true := by
      rw [hs.infra_eq, hrole]
      rfl
    rw [hs.roleOf_of_infra hinfra] at hrole
    by_contra hne
    rw [if_neg hne] at hrole
    split_ifs at hrole

theorem hasPlayer_eq : e.hasPlayer a = (e.roleOf a).isPlayer := by
  refine Bool.eq_iff_iff.2 ⟨fun h => ?_, fun h => ?_⟩
  · obtain ⟨t, ht, h⟩ := List.any_eq_true.1 h
    rw [(hs.wireguard_iff ht).1 h]
    rfl
  · cases hrole : e.roleOf a with
    | player n =>
      obtain ⟨t, ht, -, h⟩ := roleOf_eq_player hrole
      exact List.any_eq_true.2 ⟨t, ht, h⟩
    | _ =>
      rw [hrole] at h
      cases h

theorem hasBox_eq : e.hasBox a = (e.roleOf a).isGamebox := by
  refine Bool.eq_iff_iff.2 ⟨fun h => ?_, fun h => ?_⟩
  · obtain ⟨t, ht, h⟩ := List.any_eq_true.1 h
    rw [(hs.gamebox_iff ht).1 h]
    rfl
  · cases hrole : e.roleOf a with
    | gamebox n =>
      obtain ⟨t, ht, -, h⟩ := roleOf_eq_gamebox hrole
      exact List.any_eq_true.2 ⟨t, ht, h⟩
    | _ =>
      rw [hrole] at h
      cases h

theorem hasBannedBox_eq :
    e.hasBannedBox a = (e.roleOf a).isBannedBox e.bannedTeams.contains := by
  refine Bool.eq_iff_iff.2 ⟨fun h => ?_, fun h => ?_⟩
  · obtain ⟨_, hnet, h⟩ := List.any_eq_true.1 h
    obtain ⟨t, ht, rfl⟩ := List.mem_map.1 hnet
    obtain ⟨ht, hban⟩ := List.mem_filter.1 ht
    rw [(hs.gamebox_iff ht).1 h]
    exact hban
  · cases hrole : e.roleOf a with
    | gamebox n =>
      obtain ⟨t, ht, rfl, hta⟩ := roleOf_eq_gamebox hrole
      rw [hrole] at h
      exact List.any_eq_true.2
        ⟨_, List.mem_map.2 ⟨t, List.mem_filter.2 ⟨ht, h⟩, rfl⟩, hta⟩
    | _ =>
      rw [hrole] at h
      cases h

theorem hasBanned_eq : e.hasBanned a = (e.roleOf a).isBanned e.bannedTeams.contains := by
  refine Bool.eq_iff_iff.2 ⟨fun h => ?_, fun h => ?_⟩
  · obtain ⟨net, hnet, h⟩ := List.any_eq_true.1 h
    obtain ⟨t, ht, hnet⟩ := List.mem_flatMap.1 hnet
    obtain ⟨ht, hban⟩ := List.mem_filter.1 ht
    simp only [List.mem_cons, List.not_mem_nil, or_false] at hnet
    rcases hnet with rfl | rfl
    · rw [(hs.wireguard_iff ht).1 h]
      exact hban
    · rw [(hs.gamebox_iff ht).1 h]
      exact hban
  · have hmem (t : DesiredTeamPolicy) (ht : t ∈ e.teams) (hban : e.isBanned t = true)
        (net : IpNet) (hnet : net ∈ [t.wireguardNetwork, t.gameboxNetwork])
        (hta : net.contains a = true) : e.hasBanned a = true :=
      List.any_eq_true.2
        ⟨net, List.mem_flatMap.2 ⟨t, List.mem_filter.2 ⟨ht, hban⟩, hnet⟩, hta⟩
    cases hrole : e.roleOf a with
    | player n =>
      obtain ⟨t, ht, rfl, hta⟩ := roleOf_eq_player hrole
      rw [hrole] at h
      exact hmem t ht h _ List.mem_cons_self hta
    | gamebox n =>
      obtain ⟨t, ht, rfl, hta⟩ := roleOf_eq_gamebox hrole
      rw [hrole] at h
      exact hmem t ht h _ (List.mem_cons_of_mem _ List.mem_cons_self) hta
    | _ =>
      rw [hrole] at h
      cases h

theorem ownTeam_eq (p : FwPacket) :
    e.ownTeam p = (e.roleOf p.src).sameTeam (e.roleOf p.dst) := by
  refine Bool.eq_iff_iff.2 ⟨fun h => ?_, fun h => ?_⟩
  · obtain ⟨t, ht, h⟩ := List.any_eq_true.1 h
    rw [Bool.and_eq_true, Bool.or_eq_true, hs.wireguard_iff ht, hs.gamebox_iff ht,
      hs.gamebox_iff ht] at h
    obtain ⟨hsrc | hsrc, hdst⟩ := h
    · rw [hsrc, hdst]
      exact decide_eq_true rfl
    · rw [hsrc, hdst]
      exact decide_eq_true rfl
  · have hmem (n : Nat) (hdst : e.roleOf p.dst = .gamebox n)
        (hsrc : e.roleOf p.src = .player n ∨ e.roleOf p.src = .gamebox n) :
        e.ownTeam p = true := by
      obtain ⟨t, ht, rfl, hta⟩ := roleOf_eq_gamebox hdst
      refine List.any_eq_true.2 ⟨t, ht, ?_⟩
      rw [Bool.and_eq_true, Bool.or_eq_true, hs.wireguard_iff ht, hs.gamebox_iff ht,
        hs.gamebox_iff ht]
      exact ⟨hsrc, hdst⟩
    cases hsrc : e.roleOf p.src <;> cases hdst : e.roleOf p.dst <;>
      simp only [hsrc, hdst, HostRole.sameTeam, decide_eq_true_eq, reduceCtorEq] at h
    · exact hmem _ hdst (.inl (h ▸ hsrc))
    · exact hmem _ hdst (.inr (h ▸ hsrc))

end Separated

/-! ## The table follows the matrix -/

variable {eventKey : Nat → String} {e : DesiredEventPolicy}

/-- The chain of the event, by roles. -/
theorem chainVerdict_eq_accessMatrix (hs : Separated e) (p : FwPacket)
    (hban : (e.roleOf p.src).isBanned e.bannedTeams.contains = false) :
    (e.chainVerdict ((e.roleOf p.dst).isBannedBox e.bannedTeams.contains)
      (e.roleOf p.dst).isInfra p).getD .accept =
      accessMatrix e.stage e.bannedTeams.contains p.established (e.roleOf p.src)
        (e.roleOf p.dst) := by
  rw [DesiredEventPolicy.chainVerdict, DesiredEventPolicy.phaseVerdict, DesiredEventPolicy.stage]
  simp only [hs.hasPlayer_eq, hs.hasBox_eq, hs.isJudge_eq, hs.isFlag_eq, hs.ownTeam_eq]
  unfold accessMatrix
  rw [hban]
  generalize (e.roleOf p.dst).isBannedBox e.bannedTeams.contains = toBanned
  generalize e.roleOf p.src = src
  generalize e.roleOf p.dst = dst
  by_cases hsettle : e.isFinalSettlement = true
  · simp only [if_pos hsettle]
    cases toBanned <;> cases p.established <;> cases src <;> cases dst <;>
      simp [HostRole.isPlayer, HostRole.isGamebox, HostRole.team?, HostRole.isInfra]
  · simp only [if_neg hsettle]
    by_cases hfinished : e.isFinished = true
    · simp only [if_pos hfinished]
      cases toBanned <;> cases src <;> cases dst <;>
        simp [HostRole.isPlayer, HostRole.isGamebox, HostRole.team?, HostRole.isInfra]
    · simp only [if_neg hfinished]
      cases e.phase with
      | hardening =>
        cases toBanned <;> cases p.established <;> cases src <;> cases dst <;>
          simp [HostRole.isPlayer, HostRole.isGamebox, HostRole.team?, HostRole.isInfra, HostRole.sameTeam]
        all_goals split_ifs <;> rfl
      | attack =>
        cases toBanned <;> cases p.established <;> cases src <;> cases dst <;>
          simp [HostRole.isPlayer, HostRole.isGamebox, HostRole.team?, HostRole.isInfra]
      | pause =>
        cases toBanned <;> cases src <;> cases dst <;>
          simp [HostRole.isPlayer, HostRole.isGamebox, HostRole.team?, HostRole.isInfra]

/-- The table of one event follows its access matrix, for every packet. -/
theorem verdict_eq_accessMatrix (hs : Separated e) (revision : Nat) (p : FwPacket) :
    firewallVerdict eventKey ⟨revision, [e]⟩ p =
      accessMatrix e.stage e.bannedTeams.contains p.established (e.roleOf p.src)
        (e.roleOf p.dst) := by
  have hk : DistinctKeys eventKey [e] := List.nodup_singleton _
  rw [firewallVerdict_eq hk]
  simp only [List.any_cons, List.any_nil, Bool.or_false, List.findSome?_cons, List.findSome?_nil,
    hs.hasBanned_eq, hs.hasBannedBox_eq, hs.infra_eq]
  by_cases hban : (e.roleOf p.src).isBanned e.bannedTeams.contains = true
  · rw [if_pos hban]
    unfold accessMatrix
    rw [if_pos hban]
  · rw [if_neg hban, ← chainVerdict_eq_accessMatrix hs p (Bool.eq_false_of_not_eq_true hban)]
    cases e.chainVerdict _ _ p <;> rfl

/-! ## Two teams -/

/-- An address by its four octets. -/
def ipv4 (a b c d : Nat) : Nat := a * 2 ^ 24 + b * 2 ^ 16 + c * 2 ^ 8 + d

/-- Two teams, one block `/24` for the players and one for the boxes of each. -/
def duel (phase : AwdPhase) (banned : List Nat) : DesiredEventPolicy where
  eventId := 1
  phase := phase
  gameboxNetwork := ⟨ipv4 10 60 0 0, 16⟩
  infrastructureNetwork := ⟨ipv4 10 60 0 0, 24⟩
  flagserverIp := ipv4 10 60 0 2
  judgeserverIp := ipv4 10 60 0 3
  teams := [⟨1, ⟨ipv4 10 70 1 0, 24⟩, ⟨ipv4 10 60 1 0, 24⟩⟩,
    ⟨2, ⟨ipv4 10 70 2 0, 24⟩, ⟨ipv4 10 60 2 0, 24⟩⟩]
  bannedTeams := banned
  isFinalSettlement := false
  isFinished := false

theorem separated_duel (phase : AwdPhase) (banned : List Nat) : Separated (duel phase banned) := by
  have happart (m n : Nat) (h : m / 2 ^ 8 ≠ n / 2 ^ 8) : IpNet.Apart ⟨m, 24⟩ ⟨n, 24⟩ := by
    rintro (a | a) ha
    · simp only [IpNet.contains, decide_eq_true_eq, decide_eq_false_iff_not] at ha ⊢
      exact fun hn => h (ha.symm.trans hn)
    · cases ha
  constructor <;> simp only [duel, List.forall_mem_cons, List.not_mem_nil, IsEmpty.forall_iff,
    implies_true, and_true]
  case teamIds => decide
  case players | boxes =>
    exact ⟨⟨nofun, fun _ => happart _ _ (by decide)⟩, fun _ => happart _ _ (by decide), nofun⟩
  case cross =>
    exact ⟨⟨happart _ _ (by decide), happart _ _ (by decide)⟩,
      happart _ _ (by decide), happart _ _ (by decide)⟩
  case infraPlayers | infraBoxes => exact ⟨happart _ _ (by decide), happart _ _ (by decide)⟩
  all_goals decide

/-- The packet of a player of the first team to a box of the second. -/
def crossTeam (established : Bool) : FwPacket :=
  ⟨.v4 (ipv4 10 70 1 9), .v4 (ipv4 10 60 2 2), established⟩

/-- The table is stricter than the plain matrix in the attack phase, where the boxes of a banned
team are out of reach, and wider in the hardening phase, where packets of a known connection
pass. -/
theorem table_ne_specMatrix :
    (Separated (duel .attack [2]) ∧
      (duel .attack [2]).roleOf (crossTeam false).src = .player 1 ∧
      (duel .attack [2]).roleOf (crossTeam false).dst = .gamebox 2 ∧
      firewallVerdict Nat.repr ⟨1, [duel .attack [2]]⟩ (crossTeam false) ≠
        specMatrix .attack [2].contains 1 2) ∧
    (Separated (duel .hardening []) ∧
      (duel .hardening []).roleOf (crossTeam true).src = .player 1 ∧
      (duel .hardening []).roleOf (crossTeam true).dst = .gamebox 2 ∧
      firewallVerdict Nat.repr ⟨1, [duel .hardening []]⟩ (crossTeam true) ≠
        specMatrix .hardening [].contains 1 2) := by
  refine ⟨⟨separated_duel _ _, by decide +kernel, by decide +kernel, by decide +kernel⟩,
    separated_duel _ _, by decide +kernel, by decide +kernel, by decide +kernel⟩

theorem verdict_eq_accessMatrix_duel :
    firewallVerdict Nat.repr ⟨1, [duel .hardening []]⟩ (crossTeam false) = .drop := by
  rw [verdict_eq_accessMatrix (separated_duel _ _)]
  decide +kernel

end FloatCtf.Awd
