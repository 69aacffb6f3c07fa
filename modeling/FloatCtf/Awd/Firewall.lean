import FloatCtf.Awd.Domain
import FloatCtf.Net.Nft

/-!
# The firewall of the AWD events

`DesiredFirewallState` is what the firewall should enforce for every event, and `renderTable` is the
table `floatctf_awd` that `render_table` writes for it, as a packet filter table: the base chain
drops what comes from a banned team and jumps into the chain of every event in turn, and the chain
of an event has the rules of its phase.

The short key of an event is the start of the SHA-256 hash of its id; `eventKey` stands for it.  A
host address is the block `/32` of that address.
-/

namespace FloatCtf.Awd

open Nft

/-! ## The desired state -/

/-- An address of a packet. -/
inductive Addr where
  | v4 (bits : Nat)
  | v6 (bits : Nat)
  deriving DecidableEq

/-- A block of addresses. -/
structure IpNet where
  addr : Nat
  prefixLen : Nat
  deriving DecidableEq

/-- The addresses that agree with the block on the first `prefixLen` bits. -/
def IpNet.contains (net : IpNet) : Addr → Bool
  | .v4 a => a / 2 ^ (32 - net.prefixLen) = net.addr / 2 ^ (32 - net.prefixLen)
  | .v6 _ => false

/-- The block of one address. -/
def IpNet.host (addr : Nat) : IpNet := ⟨addr, 32⟩

/-- The networks of a team. -/
structure DesiredTeamPolicy where
  teamId : Nat
  wireguardNetwork : IpNet
  gameboxNetwork : IpNet
  deriving DecidableEq

/-- What an event asks of the firewall. -/
structure DesiredEventPolicy where
  eventId : Nat
  phase : AwdPhase
  gameboxNetwork : IpNet
  infrastructureNetwork : IpNet
  flagserverIp : Nat
  judgeserverIp : Nat
  teams : List DesiredTeamPolicy
  bannedTeams : List Nat
  isFinalSettlement : Bool
  isFinished : Bool
  deriving DecidableEq

/-- What all events ask of the firewall. -/
structure DesiredFirewallState where
  revision : Nat
  events : List DesiredEventPolicy

/-! ## Names -/

/-- The sets of the table; those of an event carry its key. -/
inductive SetName where
  | allGameboxes | infrastructure | playerWg | bannedPlayers | bannedGameboxes | bannedPlayersV6
  | gameboxes (key : String) | players (key : String)
  | gameboxesV6 (key : String) | playersV6 (key : String)
  deriving DecidableEq

/-- A rule of the table. -/
abbrev FwRule := Rule SetName IpNet

/-- A table; a chain is named by the key of its event. -/
abbrev FwTable := Table SetName String IpNet

/-- A packet between two addresses. -/
abbrev FwPacket := Packet Addr

/-! ## The event chain -/

variable (eventKey : Nat → String)

/-- The team is banned. -/
def DesiredEventPolicy.isBanned (e : DesiredEventPolicy) (team : DesiredTeamPolicy) : Bool :=
  e.bannedTeams.contains team.teamId

/-- The two rules of a team in the hardening phase: from its players, and from its game boxes, to
its own game boxes. -/
def ownTeamRules (team : DesiredTeamPolicy) : List FwRule :=
  [{ saddr := .block team.wireguardNetwork, daddr := .block team.gameboxNetwork, verdict := .accept },
    { saddr := .block team.gameboxNetwork, daddr := .block team.gameboxNetwork, verdict := .accept }]

/-- The rules of the phase of an event, of its settlement, or of its end. -/
def phaseRules (e : DesiredEventPolicy) : List FwRule :=
  let players : Match SetName IpNet := .set (.players (eventKey e.eventId))
  let gameboxes : Match SetName IpNet := .set (.gameboxes (eventKey e.eventId))
  let judge : Match SetName IpNet := .block (.host e.judgeserverIp)
  let flag : Match SetName IpNet := .block (.host e.flagserverIp)
  if e.isFinalSettlement then
    [{ saddr := players, verdict := .drop },
      { saddr := judge, daddr := gameboxes, verdict := .accept },
      { saddr := gameboxes, daddr := judge, established := true, verdict := .accept },
      { saddr := gameboxes, verdict := .drop }]
  else if e.isFinished then
    [{ saddr := players, verdict := .drop },
      { saddr := judge, daddr := gameboxes, verdict := .drop },
      { saddr := gameboxes, verdict := .drop }]
  else
    match e.phase with
    | .hardening =>
      { established := true, verdict := .accept } ::
        (e.teams.flatMap ownTeamRules ++
          [{ saddr := players, daddr := gameboxes, verdict := .drop },
            { saddr := gameboxes, verdict := .drop }])
    | .attack =>
      [{ established := true, verdict := .accept },
        { saddr := gameboxes, daddr := gameboxes, verdict := .accept },
        { saddr := gameboxes, daddr := flag, verdict := .accept },
        { saddr := gameboxes, verdict := .drop }]
    | .pause =>
      [{ saddr := players, verdict := .drop },
        { saddr := gameboxes, verdict := .drop }]

/-- The rules before the phase: nothing of the event reaches the game boxes of a banned team. -/
def bannedTargetRules (e : DesiredEventPolicy) : List FwRule :=
  [{ saddr := .set (.players (eventKey e.eventId)), daddr := .set .bannedGameboxes, verdict := .drop },
    { saddr := .set (.gameboxes (eventKey e.eventId)), daddr := .set .bannedGameboxes
      verdict := .drop }]

/-- The rules after the phase: nothing of the event reaches the infrastructure. -/
def commonRules (e : DesiredEventPolicy) : List FwRule :=
  [{ saddr := .set (.players (eventKey e.eventId)), daddr := .set .infrastructure, verdict := .drop },
    { saddr := .set (.gameboxes (eventKey e.eventId)), daddr := .set .infrastructure
      verdict := .drop },
    { saddr := .set (.playersV6 (eventKey e.eventId)), verdict := .drop },
    { saddr := .set (.gameboxesV6 (eventKey e.eventId)), verdict := .drop }]

/-- The chain of an event: bans first, then the phase, then what holds in every phase. -/
def renderEventChain (e : DesiredEventPolicy) : List FwRule :=
  bannedTargetRules eventKey e ++ (phaseRules eventKey e ++ commonRules eventKey e)

/-! ## The table -/

/-- The networks of the banned teams. -/
def DesiredEventPolicy.bannedNets (e : DesiredEventPolicy) : List IpNet :=
  (e.teams.filter e.isBanned).flatMap fun team => [team.wireguardNetwork, team.gameboxNetwork]

/-- The gameboxes of the banned teams. -/
def DesiredEventPolicy.bannedBoxes (e : DesiredEventPolicy) : List IpNet :=
  (e.teams.filter e.isBanned).map (·.gameboxNetwork)

/-- The sets of all events together. -/
def globalSets (events : List DesiredEventPolicy) : List (SetName × List IpNet) :=
  [(.allGameboxes, events.map (·.gameboxNetwork)),
    (.infrastructure, events.map (·.infrastructureNetwork)),
    (.playerWg, events.flatMap fun e => e.teams.map (·.wireguardNetwork)),
    (.bannedPlayers, events.flatMap (·.bannedNets)),
    (.bannedGameboxes, events.flatMap (·.bannedBoxes)),
    (.bannedPlayersV6, [])]

/-- The sets of one event. -/
def eventSets (e : DesiredEventPolicy) : List (SetName × List IpNet) :=
  [(.gameboxes (eventKey e.eventId), e.teams.map (·.gameboxNetwork)),
    (.players (eventKey e.eventId), e.teams.map (·.wireguardNetwork)),
    (.gameboxesV6 (eventKey e.eventId), []),
    (.playersV6 (eventKey e.eventId), [])]

/-- The table of all events. -/
def renderTable (desired : DesiredFirewallState) : FwTable where
  sets := globalSets desired.events ++ desired.events.flatMap (eventSets eventKey)
  chains := desired.events.map fun e => (eventKey e.eventId, renderEventChain eventKey e)
  base :=
    .rule { saddr := .set .bannedPlayers, verdict := .drop } ::
      .rule { saddr := .set .bannedPlayersV6, verdict := .drop } ::
      desired.events.map fun e => .jump (eventKey e.eventId)
  policy := .accept

/-- The verdict of the rendered table. -/
def firewallVerdict (desired : DesiredFirewallState) (p : FwPacket) : Verdict :=
  (renderTable eventKey desired).verdict IpNet.contains p

/-! ## The sets of the table -/

/-- The events have distinct keys. -/
def DistinctKeys (events : List DesiredEventPolicy) : Prop :=
  (events.map fun e => eventKey e.eventId).Nodup

variable {eventKey} {d : DesiredFirewallState} {e : DesiredEventPolicy} {p : FwPacket}

theorem setBlocks_renderTable (name : SetName) : (renderTable eventKey d).setBlocks name =
    ((globalSets d.events).filter (·.1 = name)).flatMap (·.2) ++
      d.events.flatMap fun e => ((eventSets eventKey e).filter (·.1 = name)).flatMap (·.2) := by
  simp only [Table.setBlocks, renderTable, List.filter_append, List.flatMap_append,
    List.filter_flatMap, List.flatMap_assoc]

theorem setBlocks_bannedPlayers :
    (renderTable eventKey d).setBlocks .bannedPlayers = d.events.flatMap (·.bannedNets) := by
  rw [setBlocks_renderTable]
  simp [globalSets, eventSets]

theorem setBlocks_bannedGameboxes :
    (renderTable eventKey d).setBlocks .bannedGameboxes = d.events.flatMap (·.bannedBoxes) := by
  rw [setBlocks_renderTable]
  simp [globalSets, eventSets]

theorem setBlocks_infrastructure :
    (renderTable eventKey d).setBlocks .infrastructure =
      d.events.map (·.infrastructureNetwork) := by
  rw [setBlocks_renderTable]
  simp [globalSets, eventSets]

theorem setBlocks_v6 (key : String) : (renderTable eventKey d).setBlocks .bannedPlayersV6 = [] ∧
    (renderTable eventKey d).setBlocks (.playersV6 key) = [] ∧
    (renderTable eventKey d).setBlocks (.gameboxesV6 key) = [] := by
  simp [setBlocks_renderTable, globalSets, eventSets, List.filter_cons, apply_ite]

theorem setBlocks_players (hk : DistinctKeys eventKey d.events) (he : e ∈ d.events) :
    (renderTable eventKey d).setBlocks (.players (eventKey e.eventId)) =
      e.teams.map (·.wireguardNetwork) := by
  rw [setBlocks_renderTable, ← flatMap_ite_of_nodup hk he fun e => e.teams.map (·.wireguardNetwork)]
  simp [globalSets, eventSets, List.filter_cons, apply_ite]

theorem setBlocks_gameboxes (hk : DistinctKeys eventKey d.events) (he : e ∈ d.events) :
    (renderTable eventKey d).setBlocks (.gameboxes (eventKey e.eventId)) =
      e.teams.map (·.gameboxNetwork) := by
  rw [setBlocks_renderTable, ← flatMap_ite_of_nodup hk he fun e => e.teams.map (·.gameboxNetwork)]
  simp [globalSets, eventSets, List.filter_cons, apply_ite]

theorem chainRules_renderTable (hk : DistinctKeys eventKey d.events) (he : e ∈ d.events) :
    (renderTable eventKey d).chainRules (eventKey e.eventId) = renderEventChain eventKey e := by
  rw [← flatMap_ite_of_nodup hk he (renderEventChain eventKey)]
  simp only [Table.chainRules, renderTable]
  induction d.events with
  | nil => rfl
  | cons x l ih =>
    rw [List.map_cons, List.filter_cons, List.flatMap_cons]
    split_ifs with h1 h2 h2 <;> simp_all

/-! ## What a chain says -/

namespace DesiredEventPolicy

/-- The address is one of the players of a team. -/
def hasPlayer (e : DesiredEventPolicy) (a : Addr) : Bool :=
  e.teams.any fun team => team.wireguardNetwork.contains a

/-- The address is one of the game boxes of a team. -/
def hasBox (e : DesiredEventPolicy) (a : Addr) : Bool :=
  e.teams.any fun team => team.gameboxNetwork.contains a

/-- The packet stays with one team: from its players or game boxes to its game boxes. -/
def ownTeam (e : DesiredEventPolicy) (p : FwPacket) : Bool :=
  e.teams.any fun team =>
    (team.wireguardNetwork.contains p.src || team.gameboxNetwork.contains p.src) &&
      team.gameboxNetwork.contains p.dst

/-- The address of the judge server. -/
def isJudge (e : DesiredEventPolicy) (a : Addr) : Bool := (IpNet.host e.judgeserverIp).contains a

/-- The address of the flag server. -/
def isFlag (e : DesiredEventPolicy) (a : Addr) : Bool := (IpNet.host e.flagserverIp).contains a

/-- The address belongs to a banned team. -/
def hasBanned (e : DesiredEventPolicy) (a : Addr) : Bool := e.bannedNets.any (·.contains a)

/-- The address is a gamebox of a banned team. -/
def hasBannedBox (e : DesiredEventPolicy) (a : Addr) : Bool := e.bannedBoxes.any (·.contains a)

/-- The verdict of the rules of the phase. -/
def phaseVerdict (e : DesiredEventPolicy) (p : FwPacket) : Option Verdict :=
  if e.isFinalSettlement then
    if e.hasPlayer p.src then some .drop
    else if e.isJudge p.src && e.hasBox p.dst then some .accept
    else if e.hasBox p.src && e.isJudge p.dst && p.established then some .accept
    else if e.hasBox p.src then some .drop
    else none
  else if e.isFinished then
    if e.hasPlayer p.src || e.isJudge p.src && e.hasBox p.dst || e.hasBox p.src then some .drop
    else none
  else
    match e.phase with
    | .hardening =>
      if p.established || e.ownTeam p then some .accept
      else if e.hasPlayer p.src && e.hasBox p.dst || e.hasBox p.src then some .drop
      else none
    | .attack =>
      if p.established || e.hasBox p.src && (e.hasBox p.dst || e.isFlag p.dst) then some .accept
      else if e.hasBox p.src then some .drop
      else none
    | .pause => if e.hasPlayer p.src || e.hasBox p.src then some .drop else none

/-- The verdict of the whole chain, for a destination that is or is not in the sets of the banned
game boxes and of the infrastructure. -/
def chainVerdict (e : DesiredEventPolicy) (toBanned toInfra : Bool) (p : FwPacket) :
    Option Verdict :=
  if (e.hasPlayer p.src || e.hasBox p.src) && toBanned then some .drop
  else (e.phaseVerdict p).or
    (if (e.hasPlayer p.src || e.hasBox p.src) && toInfra then some .drop else none)

end DesiredEventPolicy

section Chain

variable (hk : DistinctKeys eventKey d.events) (he : e ∈ d.events)

include hk he

theorem matchesAddr_players (a : Addr) : (renderTable eventKey d).matchesAddr IpNet.contains a
    (.set (.players (eventKey e.eventId))) = e.hasPlayer a := by
  simp only [Table.matchesAddr, setBlocks_players hk he, List.any_map]
  rfl

theorem matchesAddr_gameboxes (a : Addr) : (renderTable eventKey d).matchesAddr IpNet.contains a
    (.set (.gameboxes (eventKey e.eventId))) = e.hasBox a := by
  simp only [Table.matchesAddr, setBlocks_gameboxes hk he, List.any_map]
  rfl

omit hk he in
theorem applies_ownTeamRules (team : DesiredTeamPolicy) :
    (ownTeamRules team).any ((renderTable eventKey d).applies IpNet.contains p) =
      ((team.wireguardNetwork.contains p.src || team.gameboxNetwork.contains p.src) &&
        team.gameboxNetwork.contains p.dst) := by
  simp [ownTeamRules, Table.applies, Bool.and_or_distrib_right]

omit hk he in
/-- The own-team rules accept exactly what stays with one team. -/
theorem firstVerdict_ownTeamRules : (renderTable eventKey d).firstVerdict IpNet.contains p
    (e.teams.flatMap ownTeamRules) = if e.ownTeam p then some .accept else none := by
  have hown : ∀ r ∈ e.teams.flatMap ownTeamRules, r.verdict = .accept := by
    intro r hr
    obtain ⟨team, -, hr⟩ := List.mem_flatMap.1 hr
    simp only [ownTeamRules, List.mem_cons, List.not_mem_nil, or_false] at hr
    rcases hr with rfl | rfl <;> rfl
  rw [Table.firstVerdict_uniform hown, List.any_flatMap]
  simp only [applies_ownTeamRules, DesiredEventPolicy.ownTeam]
  rfl

/-- The rules of each phase, one after the other. -/
theorem firstVerdict_phaseRules : (renderTable eventKey d).firstVerdict IpNet.contains p
    (phaseRules eventKey e) = e.phaseVerdict p := by
  have hplayer := matchesAddr_players hk he
  have hbox := matchesAddr_gameboxes hk he
  unfold phaseRules DesiredEventPolicy.phaseVerdict DesiredEventPolicy.isJudge
    DesiredEventPolicy.isFlag
  dsimp only
  by_cases hfinal : e.isFinalSettlement = true
  · rw [if_pos hfinal, if_pos hfinal]
    simp only [Table.firstVerdict_cons, Table.firstVerdict_nil, Table.applies, hplayer, hbox,
      Table.matchesAddr_any, Table.matchesAddr_block]
    cases e.hasPlayer p.src <;> cases e.hasBox p.src <;> simp
  · rw [if_neg hfinal, if_neg hfinal]
    by_cases hfinished : e.isFinished = true
    · rw [if_pos hfinished, if_pos hfinished]
      simp only [Table.firstVerdict_cons, Table.firstVerdict_nil, Table.applies, hplayer, hbox,
        Table.matchesAddr_any, Table.matchesAddr_block]
      cases e.hasPlayer p.src <;> cases e.hasBox p.src <;> simp
    · rw [if_neg hfinished, if_neg hfinished]
      cases e.phase <;>
        simp only [Table.firstVerdict_cons, Table.firstVerdict_append, firstVerdict_ownTeamRules,
          Table.firstVerdict_nil, Table.applies, hplayer, hbox, Table.matchesAddr_any,
          Table.matchesAddr_block]
      · cases p.established <;> cases e.ownTeam p <;> cases e.hasPlayer p.src <;>
          cases e.hasBox p.src <;> simp
      · cases p.established <;> cases e.hasBox p.src <;> cases e.hasBox p.dst <;> simp
      · cases e.hasPlayer p.src <;> simp

/-- The chain of an event in the table of all events. -/
theorem firstVerdict_renderEventChain : (renderTable eventKey d).firstVerdict IpNet.contains p
    (renderEventChain eventKey e) =
      e.chainVerdict (d.events.any (·.hasBannedBox p.dst))
        (d.events.any (·.infrastructureNetwork.contains p.dst)) p := by
  have hplayer := matchesAddr_players hk he
  have hbox := matchesAddr_gameboxes hk he
  have hbanned : (renderTable eventKey d).matchesAddr IpNet.contains p.dst
      (.set .bannedGameboxes) = d.events.any (·.hasBannedBox p.dst) := by
    simp only [Table.matchesAddr, setBlocks_bannedGameboxes, List.any_flatMap]
    rfl
  have hinfra : (renderTable eventKey d).matchesAddr IpNet.contains p.dst
      (.set .infrastructure) = d.events.any (·.infrastructureNetwork.contains p.dst) := by
    simp only [Table.matchesAddr, setBlocks_infrastructure, List.any_map]
    rfl
  have hv6 (key : String) (a : Addr) :
      (renderTable eventKey d).matchesAddr IpNet.contains a (.set (.playersV6 key)) = false ∧
      (renderTable eventKey d).matchesAddr IpNet.contains a (.set (.gameboxesV6 key)) = false := by
    simp only [Table.matchesAddr, (setBlocks_v6 key).2.1, (setBlocks_v6 key).2.2]
    exact ⟨rfl, rfl⟩
  have hcommon : (renderTable eventKey d).firstVerdict IpNet.contains p (commonRules eventKey e) =
      if (e.hasPlayer p.src || e.hasBox p.src) &&
        d.events.any (·.infrastructureNetwork.contains p.dst) then some .drop else none := by
    simp only [commonRules, Table.firstVerdict_cons, Table.firstVerdict_nil, Table.applies, hplayer,
      hbox, hinfra, (hv6 _ _).1, (hv6 _ _).2, Table.matchesAddr_any]
    cases e.hasPlayer p.src <;> cases e.hasBox p.src <;>
      cases d.events.any (·.infrastructureNetwork.contains p.dst) <;> simp
  rw [renderEventChain, Table.firstVerdict_append, Table.firstVerdict_append,
    firstVerdict_phaseRules hk he, hcommon]
  simp only [bannedTargetRules, Table.firstVerdict_cons, Table.firstVerdict_nil, Table.applies,
    hplayer, hbox, hbanned, DesiredEventPolicy.chainVerdict]
  cases e.hasPlayer p.src <;> cases e.hasBox p.src <;>
    cases d.events.any (·.hasBannedBox p.dst) <;> simp

end Chain

/-- The verdict of the table: a banned source is dropped, then the chains of the events decide in
their order. -/
theorem firewallVerdict_eq (hk : DistinctKeys eventKey d.events) :
    firewallVerdict eventKey d p =
      if d.events.any (·.hasBanned p.src) then .drop
      else (d.events.findSome? fun e => e.chainVerdict (d.events.any (·.hasBannedBox p.dst))
        (d.events.any (·.infrastructureNetwork.contains p.dst)) p).getD .accept := by
  have hbanned : (renderTable eventKey d).matchesAddr IpNet.contains p.src
      (.set .bannedPlayers) = d.events.any (·.hasBanned p.src) := by
    simp only [Table.matchesAddr, setBlocks_bannedPlayers, List.any_flatMap]
    rfl
  have hv6 : (renderTable eventKey d).matchesAddr IpNet.contains p.src
      (.set .bannedPlayersV6) = false := by
    simp only [Table.matchesAddr, (setBlocks_v6 "").1]
    rfl
  have hchains : (d.events.map fun e => BaseRule.jump (eventKey e.eventId)).findSome?
      ((renderTable eventKey d).baseVerdict IpNet.contains p) =
      d.events.findSome? fun e => e.chainVerdict (d.events.any (·.hasBannedBox p.dst))
        (d.events.any (·.infrastructureNetwork.contains p.dst)) p := by
    rw [List.findSome?_map]
    refine findSome?_congr fun e he => ?_
    simp only [Function.comp, Table.baseVerdict, chainRules_renderTable hk he,
      firstVerdict_renderEventChain hk he]
  have hbase : (renderTable eventKey d).base =
      .rule { saddr := .set .bannedPlayers, verdict := .drop } ::
        .rule { saddr := .set .bannedPlayersV6, verdict := .drop } ::
        d.events.map fun e => .jump (eventKey e.eventId) := rfl
  rw [firewallVerdict, Table.verdict, hbase]
  simp only [List.findSome?_cons, hchains, Table.baseVerdict, Table.firstVerdict_cons,
    Table.firstVerdict_nil, Table.applies, hbanned, hv6, Table.matchesAddr_any]
  cases d.events.any (·.hasBanned p.src)
  · simp
    rfl
  · simp

end FloatCtf.Awd
