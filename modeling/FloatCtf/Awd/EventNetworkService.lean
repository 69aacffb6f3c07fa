import FloatCtf.Awd.Network
import FloatCtf.Awd.Repo

/-!
# The networks of the events

`event_network_service`, `team_network_allocator` and the network part of `deploy_service`: the
blocks and the port of an event are reserved from the pools of the platform, every team gets a slot
in the blocks of its event, and a deployment locks the addresses of the event and starts its
containers there.

`NetDb` has the rows of all events.  The text of a block goes through the `cidr` columns, which
clear the bits behind the prefix and keep the checks of the tables.  A transaction of the allocator,
which runs under one advisory lock, is one statement.
-/

namespace FloatCtf.Awd

open Process

/-! ## Rows -/

/-- The `awd_network_settings` row, with the checks of its table. -/
structure NetworkSettings where
  gameboxPool : Ipv4Cidr
  gameboxEventPrefix : Nat
  gameboxTeamPrefix : Nat
  wireguardPool : Ipv4Cidr
  wireguardEventPrefix : Nat
  wireguardTeamPrefix : Nat
  wireguardPortMin : Nat
  wireguardPortMax : Nat
  gb_aligned : gameboxPool.Aligned
  wg_aligned : wireguardPool.Aligned
  gb_prefix_order : gameboxPool.prefixLen ≤ gameboxEventPrefix ∧
    gameboxEventPrefix ≤ gameboxTeamPrefix
  wg_prefix_order : wireguardPool.prefixLen ≤ wireguardEventPrefix ∧
    wireguardEventPrefix ≤ wireguardTeamPrefix
  pools_no_overlap : gameboxPool.inetOverlaps wireguardPool = false
  port_range : 1 ≤ wireguardPortMin ∧ wireguardPortMax ≤ 65535 ∧ wireguardPortMin ≤ wireguardPortMax

/-- The pools of a new platform. -/
def NetworkSettings.initial : NetworkSettings where
  gameboxPool := ⟨10 * 2 ^ 24, 8, by decide, by decide⟩
  gameboxEventPrefix := 16
  gameboxTeamPrefix := 24
  wireguardPool := ⟨172 * 2 ^ 24 + 16 * 2 ^ 16, 12, by decide, by decide⟩
  wireguardEventPrefix := 16
  wireguardTeamPrefix := 24
  wireguardPortMin := 30000
  wireguardPortMax := 40000
  gb_aligned := by decide
  wg_aligned := by decide
  gb_prefix_order := by decide
  wg_prefix_order := by decide
  pools_no_overlap := by decide
  port_range := by decide

/-- Who chose the addresses. -/
inductive AllocationMode where
  | automatic | manual
  deriving DecidableEq

/-- What a block is for. -/
inductive AllocationKind where
  | gamebox | wireguard
  deriving DecidableEq

/-- An `awd_event_networks` row. -/
structure EventNetwork where
  eventId : Nat
  allocationMode : AllocationMode
  gameboxCidr : Ipv4Cidr
  wireguardCidr : Ipv4Cidr
  infrastructureSubnet : Ipv4Cidr
  flagserverIp : Nat
  judgeserverIp : Nat
  wireguardListenPort : Int
  lockedAt : Option Int
  deriving DecidableEq

/-- An `awd_network_allocations` row. -/
structure NetworkAllocation where
  eventId : Nat
  kind : AllocationKind
  cidr : Ipv4Cidr
  released : Bool
  deriving DecidableEq

/-- An event with its status. -/
structure NetEvent where
  eventId : Nat
  status : AwdEventStatus
  deriving DecidableEq

/-- A team of an event. -/
structure NetTeam where
  id : Nat
  eventId : Nat
  deriving DecidableEq

/-- The clock, the settings and the tables of the networks. -/
structure NetDb where
  now : Int
  settings : NetworkSettings
  events : List NetEvent
  rows : List EventNetwork
  allocations : List NetworkAllocation
  teams : List NetTeam
  teamNetworks : List TeamNetwork

/-! ## Statements -/

/-- The statements; those that write name their event, and the calls of a deployment the addresses
they are made for. -/
inductive NetStmt where
  | select
  | readNetwork (eventId : Nat)
  | allocate (eventId : Nat)
  | reallocate (eventId : Nat)
  | release (eventId : Nat)
  | lock (eventId : Nat)
  | unlock (eventId : Nat)
  | transition (eventId : Nat)
  | ensureTeams (eventId : Nat)
  | infrastructure (network : EventNetwork)
  | gameboxes (networks : List TeamNetwork)
  deriving DecidableEq

/-- An operation on networks, statement by statement. -/
abbrev NetM := Prog NetStmt NetDb AwdError

/-- A read that can fail. -/
def netSelect {α : Type} (f : NetDb → α) : NetM α := Prog.query .select dbError f

/-- The error of a unique index. -/
def uniqueError : AwdError := .database "duplicate key value violates unique constraint"

/-- The error of a check constraint. -/
def checkError : AwdError := .database "new row violates check constraint"

namespace NetDb

variable (db : NetDb)

/-- The event with this id. -/
def findEvent (eventId : Nat) : Option NetEvent := db.events.find? (·.eventId = eventId)

/-- `find_by_event_id` of `awd_event_networks`. -/
def findNetwork (eventId : Nat) : Option EventNetwork := db.rows.find? (·.eventId = eventId)

/-- `list_active`. -/
def active : List NetworkAllocation := db.allocations.filter (!·.released)

/-- `list_used_ports`: the ports of all rows, also of released events. -/
def usedPorts : List Int := db.rows.map (·.wireguardListenPort)

end NetDb

/-! ## Choosing -/

/-- The first free block from the `i`th on, among `n`. -/
def freeSubnetFrom (pool : NetworkPool) (taken : Ipv4Cidr → Bool) (label : String) :
    Nat → Nat → Except AwdError Ipv4Cidr
  | 0, _ => .error (.poolExhausted
      (s!"AWD_{label.toUpper}_POOL_EXHAUSTED: {label} 地址池 {pool.pool.text} 已无空闲 event 子网" ++
        s!"（容量 {pool.eventCapacity}）"))
  | n + 1, i =>
    match pool.nthEventSubnet i with
    | none => .error (.internal s!"event subnet {i} 超出容量 {pool.eventCapacity}")
    | some candidate =>
      if taken candidate then freeSubnetFrom pool taken label n (i + 1) else .ok candidate

/-- The first block of the pool that overlaps nothing. -/
def firstFreeEventSubnet (pool : NetworkPool) (active : List NetworkAllocation)
    (externalReserved : List Ipv4Cidr) (label : String) : Except AwdError Ipv4Cidr :=
  freeSubnetFrom pool (fun candidate => active.any (·.cidr.overlaps candidate) ||
    externalReserved.any (·.overlaps candidate)) label pool.eventCapacity 0

/-- The first free port from `p` on, among `n`. -/
def freePortFrom (range : WireGuardPortRange) (used : List Int) : Nat → Nat → Except AwdError Int
  | 0, _ => .error (.poolExhausted
      s!"AWD_WG_PORT_POOL_EXHAUSTED: WG 端口池 {range.min}-{range.max} 已无空闲端口")
  | n + 1, p => if used.contains (p : Int) then freePortFrom range used n (p + 1) else .ok p

/-- The first port of the range that is not used. -/
def allocatePort (range : WireGuardPortRange) (used : List Int) : Except AwdError Int :=
  freePortFrom range used (range.max + 1 - range.min) range.min

/-! ## The transactions of the allocator -/

/-- The checks of `awd_event_networks`. -/
def EventNetwork.checks (n : EventNetwork) : Bool :=
  n.infrastructureSubnet.inetHolds n.flagserverIp && n.flagserverIp ≠ n.judgeserverIp &&
    !n.gameboxCidr.inetOverlaps n.wireguardCidr &&
    n.infrastructureSubnet.inetWithinEq n.gameboxCidr &&
    n.infrastructureSubnet.inetHolds n.judgeserverIp

/-- The addresses of an event: its blocks, and the services in the first slot of the game boxes. -/
def deriveNetwork (eventId : Nat) (mode : AllocationMode) (gb wg : Ipv4Cidr) (port : Int)
    (teamPrefix : Nat) : Except AwdError EventNetwork :=
  match gb.nthSubnet teamPrefix 0 with
  | none => .error (.validation "infra block 超出容量")
  | some infra =>
    match serviceIp infra 2, serviceIp infra 3 with
    | none, _ => .error (.internal "flagserver ip 派生失败")
    | _, none => .error (.internal "judgeserver ip 派生失败")
    | some flag, some judge => .ok
      { eventId, allocationMode := mode, gameboxCidr := gb.toColumn, wireguardCidr := wg.toColumn
        infrastructureSubnet := infra.toColumn, flagserverIp := flag, judgeserverIp := judge
        wireguardListenPort := port, lockedAt := none }

/-- The two ledger rows of an event. -/
def EventNetwork.allocations (n : EventNetwork) : List NetworkAllocation :=
  [⟨n.eventId, .gamebox, n.gameboxCidr, false⟩, ⟨n.eventId, .wireguard, n.wireguardCidr, false⟩]

/-- `build_and_persist`. -/
def buildAndPersist (eventId : Nat) (mode : AllocationMode) (gb wg : Ipv4Cidr) (port : Int)
    (teamPrefix : Nat) (db : NetDb) : Except AwdError (NetDb × EventNetwork) := do
  let row ← deriveNetwork eventId mode gb wg port teamPrefix
  if !row.checks then .error checkError
  else if db.rows.any fun r => r.eventId = eventId ∨ r.wireguardListenPort = port then
    .error uniqueError
  else .ok ({ db with rows := db.rows ++ [row], allocations := db.allocations ++ row.allocations },
    row)

/-- What the settings and the ledger offer: a block of each kind, a port and the team prefix. -/
def chooseNetwork (externalReserved : List Ipv4Cidr) (db : NetDb) :
    Except AwdError (Ipv4Cidr × Ipv4Cidr × Int × Nat) := do
  let s := db.settings
  let gbPool ← NetworkPool.new s.gameboxPool (s.gameboxEventPrefix % 256) (s.gameboxTeamPrefix % 256)
  let wgPool ← NetworkPool.new s.wireguardPool (s.wireguardEventPrefix % 256)
    (s.wireguardTeamPrefix % 256)
  let gb ← firstFreeEventSubnet gbPool db.active externalReserved "gamebox"
  let wg ← firstFreeEventSubnet wgPool db.active externalReserved "wireguard"
  let range ← WireGuardPortRange.new (s.wireguardPortMin % 65536) (s.wireguardPortMax % 65536)
  let port ← allocatePort range db.usedPorts
  pure (gb, wg, port, gbPool.teamPrefix)

/-- The transaction that chooses the addresses itself. -/
def automaticTx (eventId : Nat) (externalReserved : List Ipv4Cidr) (db : NetDb) :
    Except AwdError (NetDb × EventNetwork) := do
  let (gb, wg, port, teamPrefix) ← chooseNetwork externalReserved db
  buildAndPersist eventId .automatic gb wg port teamPrefix db

/-- The port of a manual request: the given one, of which the range test sees 16 bits, or a free
one. -/
def manualPort (requested : Option Int) (db : NetDb) : Except AwdError Int := do
  let range ← WireGuardPortRange.new (db.settings.wireguardPortMin % 65536)
    (db.settings.wireguardPortMax % 65536)
  match requested with
  | some p =>
    if !range.contains (p % 65536).toNat then
      .error (.validation s!"wg port {p} 不在平台端口池 {range.min}-{range.max} 内")
    else if db.usedPorts.contains p then .error (.conflict s!"wg port {p} 已被其他 Event 占用")
    else .ok p
  | none => allocatePort range db.usedPorts

/-- The transaction with the addresses of the administrator. -/
def manualTx (eventId : Nat) (gb wg : Ipv4Cidr) (requestedPort : Option Int) (db : NetDb) :
    Except AwdError (NetDb × EventNetwork) := do
  match db.active.find? fun a => a.cidr.overlaps gb || a.cidr.overlaps wg with
  | some a =>
    .error (.networkOverlap s!"AWD_NETWORK_OVERLAP: 与 Event {a.eventId} 的 {a.cidr.text} 冲突")
  | none =>
    let teamPrefix := db.settings.gameboxTeamPrefix % 256
    if teamPrefix < gb.prefixLen then
      .error (.validation
        s!"manual gamebox_cidr /{gb.prefixLen} 不可小于 team prefix /{teamPrefix}（infra 派生需要）")
    else
      let port ← manualPort requestedPort db
      buildAndPersist eventId .manual gb wg port teamPrefix db

/-- The addresses of `n`, in the row that is there. -/
def EventNetwork.readdressed (old n : EventNetwork) : EventNetwork :=
  { n with eventId := old.eventId, lockedAt := old.lockedAt }

/-- `release_all_in_tx`. -/
def releaseAll (eventId : Nat) (allocations : List NetworkAllocation) : List NetworkAllocation :=
  allocations.map fun a => if a.eventId = eventId then { a with released := true } else a

/-- The transaction of `reallocate`: the row gets new addresses, the old blocks are released and
the new ones reserved. -/
def reallocateTx (eventId : Nat) (externalReserved : List Ipv4Cidr) (db : NetDb) :
    Except AwdError (NetDb × EventNetwork) := do
  let (gb, wg, port, teamPrefix) ← chooseNetwork externalReserved db
  let new ← deriveNetwork eventId .automatic gb wg port teamPrefix
  match db.findNetwork eventId with
  | none => .error (.database "None of the records are updated")
  | some current =>
    if !new.checks then .error checkError
    else if db.rows.any fun r => r.eventId ≠ eventId ∧ r.wireguardListenPort = port then
      .error uniqueError
    else .ok ({ db with
        rows := db.rows.map fun r => if r.eventId = eventId then r.readdressed new else r
        allocations := releaseAll eventId db.allocations ++ new.allocations },
      current.readdressed new)

/-! ## The services -/

/-- The event, or the error that there is none. -/
def findAwdEvent (eventId : Nat) : NetM NetEvent := do
  let found ← netSelect (·.findEvent eventId)
  match found with
  | none => .fail (.notFound s!"未找到该 AWD 赛事（{eventId}）")
  | some event => pure event

/-- Only a draft or an event that is being configured may change its network. -/
def assertNetworkEditable (status : AwdEventStatus) : NetM Unit :=
  match status with
  | .draft | .configuring => pure ()
  | other => .fail (.networkLocked
      s!"network addressing locked in status {other.debug}（仅 Draft/Configuring 可改）")

/-- `require_by_event_id`. -/
def requireNetwork (eventId : Nat) : NetM EventNetwork := do
  let found ← Prog.query (.readNetwork eventId) dbError (·.findNetwork eventId)
  match found with
  | none => .fail (.notFound s!"event network for {eventId}")
  | some row => pure row

/-- `allocate_automatic`: an event without a network is given one. -/
def allocateAutomatic (eventId : Nat) (externalReserved : List Ipv4Cidr) : NetM EventNetwork := do
  let awd ← findAwdEvent eventId
  assertNetworkEditable awd.status
  let existing ← netSelect (·.findNetwork eventId)
  match existing with
  | some row =>
    if row.lockedAt.isSome then .fail (.networkLocked "network already locked after deploy")
    else pure row
  | none => Prog.exec (.allocate eventId) dbError (automaticTx eventId externalReserved)

/-- The addresses that an administrator asks for. -/
structure ManualNetworkRequest where
  gameboxCidr : String
  wireguardCidr : String
  wireguardListenPort : Option Int

/-- A parse error of the request. -/
def ofExcept {α : Type} : Except AwdError α → NetM α
  | .error e => .fail e
  | .ok a => pure a

/-- `allocate_manual`: an event without a network is given these addresses. -/
def allocateManual (eventId : Nat) (req : ManualNetworkRequest)
    (externalReserved : List Ipv4Cidr) : NetM EventNetwork := do
  let awd ← findAwdEvent eventId
  assertNetworkEditable awd.status
  let existing ← netSelect (·.findNetwork eventId)
  if existing.isSome then
    .fail (.conflict "event network already allocated；请用 reallocate")
  else
    let gb ← ofExcept (Ipv4Cidr.parse req.gameboxCidr)
    let wg ← ofExcept (Ipv4Cidr.parse req.wireguardCidr)
    if gb.overlaps wg then
      .fail (.networkOverlap s!"gamebox {gb.text} 与 wireguard {wg.text} 重叠")
    else
      match externalReserved.find? fun ext => ext.overlaps gb || ext.overlaps wg with
      | some ext => .fail (.networkOverlap
          s!"manual CIDR 与宿主外部占用 {ext.text} 重叠（Docker 网络/路由），请另选网段")
      | none =>
        Prog.exec (.allocate eventId) dbError (manualTx eventId gb wg req.wireguardListenPort)

/-- `reallocate`: other addresses for a network that is not locked. -/
def reallocate (eventId : Nat) (externalReserved : List Ipv4Cidr) : NetM EventNetwork := do
  let awd ← findAwdEvent eventId
  assertNetworkEditable awd.status
  let current ← requireNetwork eventId
  if current.lockedAt.isSome then
    .fail (.networkLocked "network locked after deploy；不可 reallocate")
  else Prog.exec (.reallocate eventId) dbError (reallocateTx eventId externalReserved)

/-- `UPDATE awd_event_networks … WHERE id`. -/
def updateNetwork (l : NetStmt) (eventId : Nat) (f : Int → EventNetwork → EventNetwork) :
    NetM Unit :=
  Prog.exec l dbError fun db =>
    if (db.findNetwork eventId).isNone then
      .error (.database "None of the records are updated")
    else
      .ok ({ db with rows := db.rows.map fun r => if r.eventId = eventId then f db.now r else r },
        ())

/-- Locks the addresses of a network. -/
def lock (eventId : Nat) : NetM Unit := do
  let net ← requireNetwork eventId
  if net.lockedAt.isNone then
    updateNetwork (.lock eventId) eventId fun now r => { r with lockedAt := some now }
  else pure ()

/-- Unlocks the addresses of a network. -/
def unlock (eventId : Nat) : NetM Unit := do
  let net ← requireNetwork eventId
  if net.lockedAt.isSome then
    updateNetwork (.unlock eventId) eventId fun _ r => { r with lockedAt := none }
  else pure ()

/-- Releases the blocks of an event. -/
def releaseAllocations (eventId : Nat) : NetM Unit :=
  Prog.exec (.release eventId) dbError fun db =>
    .ok ({ db with allocations := releaseAll eventId db.allocations }, ())

/-! ## Team networks -/

/-- The slot of a new team, or the reason why there is none. -/
def deriveTeamNetwork (gb wg : Ipv4Cidr) (teamPrefix eventId teamId : Nat) (used : List Nat) :
    Except AwdError (Nat × TeamNetwork) :=
  match nextFreeIndex gb teamPrefix used with
  | none => .error (.poolExhausted
      s!"AWD_TEAM_SUBNET_EXHAUSTED: Event {eventId} 的 team 子网容量已满")
  | some index =>
    match gb.nthSubnet teamPrefix index, wg.nthSubnet teamPrefix index with
    | none, _ => .error (.internal s!"team subnet for index {index} 派生失败")
    | _, none => .error (.internal s!"wg subnet for index {index} 派生失败")
    | some gbSubnet, some wgSubnet => .ok (index,
      { eventId, teamId, subnetIndex := Int.bmod index (2 ^ 16)
        gameboxSubnet := gbSubnet.toColumn, wireguardSubnet := wgSubnet.toColumn
        nextWireguardHost := 2 })

/-- The unique columns of a team network, within its event. -/
def NetDb.teamClash (db : NetDb) (n : TeamNetwork) : Bool :=
  db.teamNetworks.any fun m => m.eventId = n.eventId ∧
    (m.teamId = n.teamId ∨ m.gameboxSubnet = n.gameboxSubnet ∨
      m.wireguardSubnet = n.wireguardSubnet)

/-- The loop over the teams: a team with a row keeps it, another one gets the first free slot. -/
def addTeamNetworks (gb wg : Ipv4Cidr) (teamPrefix eventId : Nat) (existing : List TeamNetwork) :
    List NetTeam → List Nat → NetDb → Except AwdError (NetDb × List TeamNetwork)
  | [], _, db => .ok (db, [])
  | team :: teams, used, db =>
    match existing.find? (·.teamId = team.id) with
    | some n => do
      let (db, ns) ← addTeamNetworks gb wg teamPrefix eventId existing teams used db
      pure (db, n :: ns)
    | none => do
      let (index, n) ← deriveTeamNetwork gb wg teamPrefix eventId team.id used
      if db.teamClash n then .error uniqueError
      else
        let (db, ns) ← addTeamNetworks gb wg teamPrefix eventId existing teams (index :: used)
          { db with teamNetworks := db.teamNetworks ++ [n] }
        pure (db, n :: ns)

/-- A stored slot number, as the 64-bit word the source compares. -/
def TeamNetwork.usedIndex (n : TeamNetwork) : Nat := (n.subnetIndex % 2 ^ 64).toNat

/-- A block for every team that has none. -/
def ensureTeamNetworks (eventId : Nat) : NetM (List TeamNetwork) := do
  let net ← requireNetwork eventId
  let teams ← netSelect fun db => db.teams.filter (·.eventId = eventId)
  let existing ← netSelect fun db => db.teamNetworks.filter (·.eventId = eventId)
  Prog.exec (.ensureTeams eventId) dbError
    (addTeamNetworks net.gameboxCidr net.wireguardCidr net.infrastructureSubnet.prefixLen eventId
      existing teams (existing.map (·.usedIndex)))

/-! ## Deployment -/

/-- `transition_event` of the event. -/
def transitionNetEvent (eventId : Nat) (expected target : AwdEventStatus) : NetM Unit :=
  Prog.exec (.transition eventId) dbError fun db =>
    match db.findEvent eventId with
    | none => .error (.database "None of the records are updated")
    | some event =>
      match event.status.canTransitionTo target with
      | .error msg => .error (.invalidState msg)
      | .ok () =>
        if event.status ≠ expected then
          .error (.conflict (s!"concurrent status transition: event expected {expected.debug} " ++
            s!"but actual is {event.status.debug}"))
        else .ok ({ db with
          events := db.events.map fun e =>
            if e.eventId = eventId then { e with status := target } else e }, ())

/-- A call to the container runtime or the host, for the addresses in its label. -/
def netCall (l : NetStmt) : NetM Unit :=
  Prog.exec l (.docker "container runtime error") fun db => .ok (db, ())

/-- The steps of a deployment on the addresses it has read: the Docker network with the two
services, the teams with their game boxes, the WireGuard interface and the firewall. -/
def deploySteps (eventId : Nat) : NetM Unit := do
  let eventNetwork ← requireNetwork eventId
  lock eventId
  netCall (.infrastructure eventNetwork)
  let teamNetworks ← ensureTeamNetworks eventId
  netCall (.gameboxes teamNetworks)
  netCall (.infrastructure eventNetwork)
  transitionNetEvent eventId .deploying .deployed

/-- The record of a failure: the event goes to `DeployFailed` and its network is unlocked for
another attempt. -/
def recordFailure (eventId : Nat) (e : AwdError) : NetM Unit := do
  let current ← (netSelect (·.findEvent eventId)).attempt
  match current with
  | .ok (some ev) =>
    if ev.status = .deploying then
      let failed ← (transitionNetEvent eventId .deploying .deployFailed).attempt
      match failed with
      | .ok () =>
        let _ ← (unlock eventId).attempt
        .fail e
      | .error _ => .fail e
    else .fail e
  | _ => .fail e

/-- Deploys, and records why it has failed. -/
def tryDeploy (eventId : Nat) : NetM Unit := do
  let result ← (deploySteps eventId).attempt
  match result with
  | .ok () => pure ()
  | .error e => recordFailure eventId e

/-- `deploy_event`: deploys an event in one of the states for it. -/
def deployEvent (eventId : Nat) : NetM Unit := do
  let found ← netSelect (·.findEvent eventId)
  match found with
  | none => .fail (.notFound "未找到该 AWD 赛事")
  | some event =>
    if !event.status.isConfigurable ∧ event.status ≠ .deploying ∧ event.status ≠ .deployed then
      .fail (.invalidState s!"Cannot deploy event in {event.status.debug} status")
    else if event.status ≠ .deploying then
      transitionNetEvent eventId event.status .deploying
      tryDeploy eventId
    else tryDeploy eventId

end FloatCtf.Awd
