import FloatCtf.Awd.EventService
import FloatCtf.Awd.JudgeApi
import FloatCtf.Awd.Network

/-!
# WireGuard peers and bans

`ban_service` and `wireguard_service` for one event: a peer is a row of the database and an entry of
the WireGuard interface of the host, and a ban takes the entries of a team off the host while the
rows stay as they are.

The calls of this file run one after the other, and every command on the host succeeds.  The key
pair that a call generates is its argument, a key being a number; the encryption of the private keys
and the calls of the firewall, which touch neither peers nor bans, are left out.
-/

namespace FloatCtf.Awd

/-- The status of a peer. -/
inductive WgPeerStatus where
  | active | revoked | rotating
  deriving DecidableEq

/-- The variant name, as the `Debug` format prints it. -/
def WgPeerStatus.debug : WgPeerStatus → String
  | active => "Active" | revoked => "Revoked" | rotating => "Rotating"

/-- A peer of a user. -/
structure WgPeer where
  id : Nat
  teamId : Nat
  userId : Nat
  status : WgPeerStatus
  assignedIp : Nat
  publicKey : Nat
  deriving DecidableEq

/-- An entry of the interface; an address that another peer takes over is gone. -/
structure HostPeer where
  publicKey : Nat
  allowedIp : Option Nat
  deriving DecidableEq

/-- The event, its peers, the networks of its teams, and the peers on the host. -/
structure WgWorld where
  db : Db
  networks : List TeamNetwork
  peers : List WgPeer
  host : List HostPeer

namespace WgWorld

variable (w : WgWorld)

/-- The team is banned. -/
def banned (teamId : Nat) : Bool := w.db.teamBanned teamId

/-! ## The host -/

/-- `wg set <iface> peer <key> allowed-ips <ip>`. -/
def addPeer (publicKey ip : Nat) : WgWorld :=
  { w with
    host := (w.host.filter (·.publicKey ≠ publicKey)).map (fun h =>
        if h.allowedIp = some ip then { h with allowedIp := none } else h) ++
      [⟨publicKey, some ip⟩] }

/-- `wg set <iface> peer <key> remove`. -/
def removePeer (publicKey : Nat) : WgWorld :=
  { w with host := w.host.filter (·.publicKey ≠ publicKey) }

/-- `restore_peers_to_host`. -/
def restorePeersToHost (peers : List WgPeer) : WgWorld :=
  peers.foldl (fun w peer => w.addPeer peer.publicKey peer.assignedIp) w

/-- The event has no network. -/
def networkError : AwdError := .notFound s!"event network for {w.db.event.eventId}"

/-- Every active peer of the event goes back on the host. -/
def restoreActivePeersToHost : WgWorld × Except AwdError Nat :=
  if !w.db.networkRow then (w, .error w.networkError)
  else
    let peers := w.peers.filter (·.status = .active)
    (w.restorePeersToHost peers, .ok peers.length)

/-- The peers of a team go off the host; their rows stay. -/
def suspendTeamPeersFromHost (teamId : Nat) : WgWorld × Except AwdError Nat :=
  if !w.db.networkRow then (w, .error w.networkError)
  else
    let peers := w.peers.filter (·.teamId = teamId)
    (peers.foldl (fun w peer => w.removePeer peer.publicKey) w, .ok peers.length)

/-! ## Bans -/

/-- `create_ban`, which fails on the index of one active ban for a team. -/
def createBan (teamId : Nat) : Except AwdError WgWorld :=
  if w.banned teamId then .error (.database "duplicate key value violates unique constraint")
  else .ok { w with db := { w.db with bans := w.db.bans ++ [⟨teamId, .active⟩] } }

/-- `complete_unban` of the active ban of a team. -/
def completeUnban (teamId : Nat) : WgWorld :=
  { w with db := { w.db with
      bans := w.db.bans.map fun b =>
        if b.teamId = teamId ∧ b.status = .active then { b with status := .unbanned } else b } }

/-- `ban_team`: bans a team and takes its peers from the host. -/
def banTeam (teamId : Nat) : WgWorld × Except AwdError Unit :=
  match w.createBan teamId with
  | .error e => (w, .error e)
  | .ok w =>
    let (w, removed) := w.suspendTeamPeersFromHost teamId
    (w, removed.map fun _ => ())

/-- `unban_team`: ends a ban and puts the peers back. -/
def unbanTeam (teamId : Nat) : WgWorld × Except AwdError Unit :=
  if !w.banned teamId then (w, .error (.notFound "No active ban found"))
  else
    let (w, restored) := (w.completeUnban teamId).restoreActivePeersToHost
    (w, restored.map fun _ => ())

/-! ## Peers -/

/-- `allocate_peer_ip`: the address and the next host number. -/
def allocatePeerIp (subnet : Ipv4Cidr) (nextHost : Nat) : Except AwdError (Nat × Nat) :=
  match subnet.nthHost nextHost with
  | none => .error (.network s!"WireGuard subnet {subnet.debug} exhausted at host index {nextHost}")
  | some ip => .ok (ip, nextHost + 1)

/-- The unique columns of a peer: its user, its address and its key. -/
def peerClash (userId ip publicKey : Nat) : Bool :=
  w.peers.any fun p => p.userId = userId ∨ p.assignedIp = ip ∨ p.publicKey = publicKey

/-- A new peer of the team: its row, the host counter of the network, the entry on the host. -/
def createPeer (userId teamId publicKey : Nat) : WgWorld × Except AwdError WgPeer :=
  if !w.db.networkRow then (w, .error w.networkError)
  else
    match w.networks.find? (·.teamId = teamId) with
    | none => (w, .error (.notFound "Team network not configured"))
    | some net =>
      match allocatePeerIp net.wireguardSubnet net.nextWireguardHost with
      | .error e => (w, .error e)
      | .ok (ip, nextHost) =>
        if w.peerClash userId ip publicKey then
          (w, .error (.database "duplicate key value violates unique constraint"))
        else
          let peer : WgPeer :=
            { id := w.db.nextId, teamId, userId, status := .active, assignedIp := ip, publicKey }
          let networks := w.networks.map fun n =>
            if n.teamId = teamId then { n with nextWireguardHost := nextHost } else n
          let w : WgWorld :=
            { w with
              db := { w.db with nextId := w.db.nextId + 1 }
              peers := w.peers ++ [peer]
              networks }
          (w.addPeer publicKey ip, .ok peer)

/-- `ensure_peer_for_user`: the peer of a user, active unless the team is banned. -/
def ensurePeerForUser (userId teamId publicKey : Nat) : WgWorld × Except AwdError WgPeer :=
  match w.peers.find? (·.userId = userId) with
  | some peer =>
    if peer.status = .active then (w, .ok peer)
    else if w.banned teamId then
      (w, .error (.forbidden
        s!"Team {teamId} is banned for event {w.db.event.eventId} — WG peer creation denied"))
    else w.createPeer userId teamId publicKey
  | none =>
    if w.banned teamId then
      (w, .error (.forbidden
        s!"Team {teamId} is banned for event {w.db.event.eventId} — WG peer creation denied"))
    else w.createPeer userId teamId publicKey

/-- Changes one peer. -/
def editPeer (id : Nat) (f : WgPeer → WgPeer) : WgWorld :=
  { w with peers := w.peers.map fun p => if p.id = id then f p else p }

/-- The update of the key, which fails on the unique index of the keys. -/
def rotatePeer (id publicKey : Nat) : WgWorld × Except AwdError Unit :=
  if w.peers.any fun p => p.id ≠ id ∧ p.publicKey = publicKey then
    (w, .error (.database "duplicate key value violates unique constraint"))
  else (w.editPeer id fun p => { p with status := .active, publicKey }, .ok ())

/-- `rotate_peer_keys`: gives an active peer a new key. -/
def rotatePeerKeys (peerId publicKey : Nat) : WgWorld × Except AwdError Unit :=
  match w.peers.find? (·.id = peerId) with
  | none => (w, .error (.notFound s!"未找到 WireGuard 对端 {peerId}"))
  | some peer =>
    if peer.status ≠ .active then
      (w, .error (.invalidState
        s!"WireGuard peer {peer.id} status is {peer.status.debug}, rotation requires Active"))
    else if !w.db.networkRow then (w, .error w.networkError)
    else
      let w := w.editPeer peerId fun p => { p with status := .rotating }
      let w := (w.addPeer publicKey peer.assignedIp).removePeer peer.publicKey
      w.rotatePeer peerId publicKey

/-- `revoke_peer`: takes a peer away. -/
def revokePeer (peerId : Nat) : WgWorld × Except AwdError Unit :=
  match w.peers.find? (·.id = peerId) with
  | none => (w, .error (.notFound s!"未找到 WireGuard 对端 {peerId}"))
  | some peer =>
    if !w.db.networkRow then (w, .error w.networkError)
    else
      ((w.removePeer peer.publicKey).editPeer peerId fun p => { p with status := .revoked }, .ok ())

end WgWorld

end FloatCtf.Awd
