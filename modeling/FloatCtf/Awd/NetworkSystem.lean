import FloatCtf.Awd.EventNetworkService
import FloatCtf.Process.Pool

/-!
# The network services side by side

`NetStep` says once what each statement of the network services can do, and `netSystem` runs any
number of their calls at the same time.  The environment creates events, lets teams join and moves
the status of an event as the rest of the platform does.

The observer notes the events whose blocks have been released since their row was written, the
deployments that have read the row of their event, and where the containers were started.
-/

namespace FloatCtf.Awd

open Process

/-! ## What a statement can do -/

/-- The statement starts no containers. -/
def NetStmt.Quiet : NetStmt → Prop
  | infrastructure _ | gameboxes _ => False
  | _ => True

/-- One statement of the network services; `P` is a condition on the ports of manual requests and
`T` on the events whose blocks are replaced, whose teams get slots or whose containers start. -/
inductive NetStep (P : Option Int → Prop) (T : Nat → Prop) : NetStmt → NetDb → NetDb → Prop where
  | same (l : NetStmt) (hl : l.Quiet) (db : NetDb) : NetStep P T l db db
  | start (l : NetStmt) {e : Nat} (ht : T e) (db : NetDb) : NetStep P T l db db
  | automatic {e : Nat} {ext : List Ipv4Cidr} {db db' : NetDb} {row : EventNetwork}
      (h : automaticTx e ext db = .ok (db', row)) : NetStep P T (.allocate e) db db'
  | manual {e : Nat} {gb wg : Ipv4Cidr} {port : Option Int} {db db' : NetDb} {row : EventNetwork}
      (hp : P port) (h : manualTx e gb wg port db = .ok (db', row)) :
      NetStep P T (.allocate e) db db'
  | reallocate {e : Nat} {ext : List Ipv4Cidr} {db db' : NetDb} {row : EventNetwork} (ht : T e)
      (h : reallocateTx e ext db = .ok (db', row)) : NetStep P T (.reallocate e) db db'
  | release (e : Nat) (db : NetDb) : NetStep P T (.release e) db
      { db with allocations := releaseAll e db.allocations }
  | lock (e : Nat) (now : Int) (db : NetDb) : NetStep P T (.lock e) db
      { db with rows := db.rows.map fun r =>
          if r.eventId = e then { r with lockedAt := some now } else r }
  | unlock (e : Nat) (db : NetDb) : NetStep P T (.unlock e) db
      { db with rows := db.rows.map fun r =>
          if r.eventId = e then { r with lockedAt := none } else r }
  | transition (e : Nat) (events : List NetEvent) (db : NetDb) :
      NetStep P T (.transition e) db { db with events }
  | ensureTeams {gb wg : Ipv4Cidr} {teamPrefix e : Nat} {existing ns : List TeamNetwork}
      {teams : List NetTeam} {used : List Nat} {db db' : NetDb} (ht : T e)
      (h : addTeamNetworks gb wg teamPrefix e existing teams used db = .ok (db', ns)) :
      NetStep P T (.ensureTeams e) db db'

section Does

variable {P : Option Int → Prop} {T : Nat → Prop}

theorem netDoes_select {α : Type} (f : NetDb → α) : (netSelect f).Does (NetStep P T) :=
  Prog.does_query (.same _ trivial) _ f

theorem netDoes_findAwdEvent (e : Nat) : (findAwdEvent e).Does (NetStep P T) := by
  refine Prog.does_bind (netDoes_select _) fun found => ?_
  split <;> trivial

theorem netDoes_assertNetworkEditable (s : AwdEventStatus) :
    (assertNetworkEditable s).Does (NetStep P T) := by
  cases s <;> trivial

theorem netDoes_requireNetwork (e : Nat) : (requireNetwork e).Does (NetStep P T) := by
  refine Prog.does_bind (Prog.does_query (.same _ trivial) _ _) fun found => ?_
  split <;> trivial

theorem netDoes_ofExcept {α : Type} (r : Except AwdError α) :
    (ofExcept r).Does (NetStep P T) := by
  cases r <;> trivial

theorem netDoes_allocateAutomatic (e : Nat) (ext : List Ipv4Cidr) :
    (allocateAutomatic e ext).Does (NetStep P T) := by
  refine Prog.does_bind (netDoes_findAwdEvent e) fun awd =>
    Prog.does_bind (netDoes_assertNetworkEditable _) fun _ =>
      Prog.does_bind (netDoes_select _) fun existing => ?_
  split
  · exact Prog.does_ite trivial (Prog.does_pure _)
  · exact Prog.does_exec (.same _ trivial) fun db db' row h => .automatic h

theorem netDoes_allocateManual (e : Nat) (req : ManualNetworkRequest) (ext : List Ipv4Cidr)
    (hp : P req.wireguardListenPort) : (allocateManual e req ext).Does (NetStep P T) := by
  refine Prog.does_bind (netDoes_findAwdEvent e) fun awd =>
    Prog.does_bind (netDoes_assertNetworkEditable _) fun _ =>
      Prog.does_bind (netDoes_select _) fun existing => Prog.does_ite trivial ?_
  refine Prog.does_bind (netDoes_ofExcept _) fun gb =>
    Prog.does_bind (netDoes_ofExcept _) fun wg => Prog.does_ite trivial ?_
  split
  · trivial
  · exact Prog.does_exec (.same _ trivial) fun db db' row h => .manual hp h

theorem netDoes_reallocate {e : Nat} (ht : T e) (ext : List Ipv4Cidr) :
    (reallocate e ext).Does (NetStep P T) := by
  refine Prog.does_bind (netDoes_findAwdEvent e) fun awd =>
    Prog.does_bind (netDoes_assertNetworkEditable _) fun _ =>
      Prog.does_bind (netDoes_requireNetwork e) fun current => Prog.does_ite trivial ?_
  exact Prog.does_exec (.same _ trivial) fun db db' row h => .reallocate ht h

theorem netDoes_releaseAllocations (e : Nat) : (releaseAllocations e).Does (NetStep P T) := by
  refine Prog.does_exec (.same _ trivial) fun db db' a h => ?_
  cases h
  exact .release e db

theorem netDoes_lock (e : Nat) : (lock e).Does (NetStep P T) := by
  refine Prog.does_bind (netDoes_requireNetwork e) fun net => Prog.does_ite ?_ (Prog.does_pure _)
  refine Prog.does_exec (.same _ trivial) fun db db' a h => ?_
  split_ifs at h
  cases h
  exact .lock e db.now db

theorem netDoes_unlock (e : Nat) : (unlock e).Does (NetStep P T) := by
  refine Prog.does_bind (netDoes_requireNetwork e) fun net => Prog.does_ite ?_ (Prog.does_pure _)
  refine Prog.does_exec (.same _ trivial) fun db db' a h => ?_
  split_ifs at h
  cases h
  exact .unlock e db

theorem netDoes_ensureTeamNetworks {e : Nat} (ht : T e) : (ensureTeamNetworks e).Does (NetStep P T) := by
  refine Prog.does_bind (netDoes_requireNetwork e) fun net =>
    Prog.does_bind (netDoes_select _) fun teams =>
      Prog.does_bind (netDoes_select _) fun existing => ?_
  exact Prog.does_exec (.same _ trivial) fun db db' ns h => .ensureTeams ht h

theorem netDoes_transition (e : Nat) (s t : AwdEventStatus) :
    (transitionNetEvent e s t).Does (NetStep P T) := by
  refine Prog.does_exec (.same _ trivial) fun db db' a h => ?_
  split at h
  · cases h
  · split at h
    · cases h
    · split_ifs at h
      cases h
      exact .transition e _ db

theorem netDoes_netCall {e : Nat} (ht : T e) (l : NetStmt) : (netCall l).Does (NetStep P T) := by
  refine Prog.does_exec (.start l ht) fun db db' a h => ?_
  cases h
  exact .start l ht db

theorem netDoes_recordFailure (e : Nat) (err : AwdError) :
    (recordFailure e err).Does (NetStep P T) := by
  refine Prog.does_bind (Prog.does_attempt (netDoes_select _)) fun current => ?_
  split
  · refine Prog.does_ite (Prog.does_bind (Prog.does_attempt (netDoes_transition _ _ _))
      fun failed => ?_) trivial
    rcases failed with _ | _
    · trivial
    · exact Prog.does_bind (Prog.does_attempt (netDoes_unlock e)) fun _ => trivial
  · trivial

theorem netDoes_tryDeploy {e : Nat} (ht : T e) : (tryDeploy e).Does (NetStep P T) := by
  have hsteps : (deploySteps e).Does (NetStep P T) :=
    Prog.does_bind (netDoes_requireNetwork e) fun net => Prog.does_bind (netDoes_lock e) fun _ =>
      Prog.does_bind (netDoes_netCall ht _) fun _ =>
        Prog.does_bind (netDoes_ensureTeamNetworks ht) fun ns =>
          Prog.does_bind (netDoes_netCall ht _) fun _ => Prog.does_bind (netDoes_netCall ht _) fun _ =>
            netDoes_transition _ _ _
  refine Prog.does_bind (Prog.does_attempt hsteps) fun result => ?_
  rcases result with err | _
  · exact netDoes_recordFailure e err
  · trivial

theorem netDoes_deployEvent {e : Nat} (ht : T e) : (deployEvent e).Does (NetStep P T) := by
  refine Prog.does_bind (netDoes_select _) fun found => ?_
  split
  · trivial
  · exact Prog.does_ite trivial (Prog.does_ite
      (Prog.does_bind (netDoes_transition _ _ _) fun _ => netDoes_tryDeploy ht)
      (netDoes_tryDeploy ht))

end Does

/-- A statement that only reads. -/
def NetStmt.Reads (l : NetStmt) (db db' : NetDb) : Prop :=
  (l = .select ∨ ∃ e, l = .readNetwork e) ∧ db' = db

theorem reads_findAwdEvent (e : Nat) : (findAwdEvent e).Does NetStmt.Reads := by
  refine Prog.does_bind (Prog.does_query (fun _ => ⟨.inl rfl, rfl⟩) _ _) fun found => ?_
  split <;> trivial

theorem reads_assertNetworkEditable (s : AwdEventStatus) :
    (assertNetworkEditable s).Does NetStmt.Reads := by
  cases s <;> trivial

theorem reads_requireNetwork (e : Nat) : (requireNetwork e).Does NetStmt.Reads := by
  refine Prog.does_bind (Prog.does_query (fun _ => ⟨.inr ⟨e, rfl⟩, rfl⟩) _ _) fun found => ?_
  split <;> trivial

/-! ## What the transactions do -/

theorem freeSubnetFrom_ok {pool : NetworkPool} {taken : Ipv4Cidr → Bool} {label : String}
    {n i : Nat} {c : Ipv4Cidr} (h : freeSubnetFrom pool taken label n i = .ok c) :
    taken c = false ∧ ∃ j, pool.nthEventSubnet j = some c := by
  induction n generalizing i with
  | zero => cases h
  | succ n ih =>
    rw [freeSubnetFrom] at h
    split at h
    · cases h
    · rename_i candidate hc
      split_ifs at h with ht
      · exact ih h
      · cases h
        exact ⟨Bool.eq_false_of_not_eq_true ht, i, hc⟩

/-- The automatic block of the game boxes is a slot of its pool. -/
theorem chooseNetwork_slot {ext : List Ipv4Cidr} {db : NetDb} {gb wg : Ipv4Cidr} {port : Int}
    {teamPrefix : Nat} (h : chooseNetwork ext db = .ok (gb, wg, port, teamPrefix)) :
    ∃ p i, db.settings.gameboxPool.nthSubnet p i = some gb := by
  obtain ⟨gbPool, hpool, h⟩ := except_bind_ok h
  obtain ⟨wgPool, -, h⟩ := except_bind_ok h
  obtain ⟨gb', hgb, h⟩ := except_bind_ok h
  obtain ⟨wg', -, h⟩ := except_bind_ok h
  obtain ⟨range, -, h⟩ := except_bind_ok h
  obtain ⟨port', -, h⟩ := except_bind_ok h
  cases h
  obtain ⟨i, hi⟩ := (freeSubnetFrom_ok hgb).2
  unfold NetworkPool.new at hpool
  split_ifs at hpool
  cases hpool
  exact ⟨_, i, hi⟩

/-- What a derived row records. -/
theorem deriveNetwork_ok {e : Nat} {mode : AllocationMode} {gb wg : Ipv4Cidr} {port : Int}
    {teamPrefix : Nat} {row : EventNetwork}
    (h : deriveNetwork e mode gb wg port teamPrefix = .ok row) :
    row.eventId = e ∧ row.gameboxCidr = gb.toColumn ∧ row.wireguardCidr = wg.toColumn ∧
      row.wireguardListenPort = port ∧
      ∃ infra, gb.nthSubnet teamPrefix 0 = some infra ∧ row.infrastructureSubnet = infra.toColumn := by
  unfold deriveNetwork at h
  split at h
  · cases h
  · rename_i infra hinfra
    split at h <;> cases h
    exact ⟨rfl, rfl, rfl, rfl, infra, hinfra, rfl⟩

theorem EventNetwork.disjoint_of_checks {row : EventNetwork} (h : row.checks = true) :
    row.gameboxCidr.Disjoint row.wireguardCidr := by
  simp only [checks, Bool.and_eq_true, Bool.not_eq_true'] at h
  exact Ipv4Cidr.disjoint_of_inetOverlaps h.1.1.2

theorem buildAndPersist_inv {db db' : NetDb} {e : Nat} {mode : AllocationMode}
    {gb wg : Ipv4Cidr} {port : Int} {teamPrefix : Nat} {row : EventNetwork}
    (h : buildAndPersist e mode gb wg port teamPrefix db = .ok (db', row)) :
    deriveNetwork e mode gb wg port teamPrefix = .ok row ∧ row.checks = true ∧
      (∀ r ∈ db.rows, r.eventId ≠ e) ∧
      db' = { db with rows := db.rows ++ [row], allocations := db.allocations ++ row.allocations } := by
  obtain ⟨row', hrow, h⟩ := except_bind_ok h
  split_ifs at h with hc hu
  cases h
  refine ⟨hrow, by simpa using hc, fun r hr heq => ?_, rfl⟩
  exact hu (List.any_eq_true.2 ⟨r, hr, decide_eq_true (.inl heq)⟩)

theorem reallocateTx_inv {db db' : NetDb} {e : Nat} {ext : List Ipv4Cidr} {res : EventNetwork}
    (h : reallocateTx e ext db = .ok (db', res)) :
    ∃ gb wg port teamPrefix new, chooseNetwork ext db = .ok (gb, wg, port, teamPrefix) ∧
      deriveNetwork e .automatic gb wg port teamPrefix = .ok new ∧ new.checks = true ∧
      (∃ r ∈ db.rows, r.eventId = e) ∧
      db' = { db with
        rows := db.rows.map fun r => if r.eventId = e then r.readdressed new else r
        allocations := releaseAll e db.allocations ++ new.allocations } := by
  obtain ⟨⟨gb, wg, port, teamPrefix⟩, hchoose, h⟩ := except_bind_ok h
  obtain ⟨new, hnew, h⟩ := except_bind_ok h
  split at h
  · cases h
  · rename_i current hcurrent
    split_ifs at h with hc hu
    cases h
    exact ⟨gb, wg, port, teamPrefix, new, hchoose, hnew, by simpa using hc,
      ⟨current, List.mem_of_find?_eq_some hcurrent, by simpa using List.find?_some hcurrent⟩, rfl⟩

/-- The loop over the teams adds rows, and does nothing else. -/
theorem addTeamNetworks_frame {gb wg : Ipv4Cidr} {teamPrefix e : Nat} {existing : List TeamNetwork}
    {teams : List NetTeam} {used : List Nat} {db db' : NetDb} {ns : List TeamNetwork}
    (h : addTeamNetworks gb wg teamPrefix e existing teams used db = .ok (db', ns)) :
    ∃ new, db' = { db with teamNetworks := db.teamNetworks ++ new } := by
  induction teams generalizing used db ns with
  | nil =>
    cases h
    exact ⟨[], by rw [List.append_nil]⟩
  | cons team teams ih =>
    rw [addTeamNetworks] at h
    split at h
    · obtain ⟨⟨db₁, ns₁⟩, hrec, h⟩ := except_bind_ok h
      cases h
      exact ih hrec
    · obtain ⟨⟨index, n⟩, -, h⟩ := except_bind_ok h
      dsimp only at h
      split_ifs at h
      obtain ⟨⟨db₁, ns₁⟩, hrec, h⟩ := except_bind_ok h
      cases h
      obtain ⟨new, rfl⟩ := ih hrec
      exact ⟨n :: new, by simp⟩

/-- No statement touches a team row that is there. -/
theorem netStep_teamNetworks {P : Option Int → Prop} {T : Nat → Prop} {l : NetStmt} {db db' : NetDb}
    (h : NetStep P T l db db') : db.teamNetworks <+: db'.teamNetworks := by
  cases h with
  | automatic htx =>
    obtain ⟨⟨gb, wg, port, teamPrefix⟩, -, htx⟩ := except_bind_ok htx
    obtain ⟨-, -, -, rfl⟩ := buildAndPersist_inv htx
    exact List.prefix_rfl
  | manual _ htx =>
    unfold manualTx at htx
    split at htx
    · cases htx
    · dsimp only at htx
      split_ifs at htx
      obtain ⟨p, -, htx⟩ := except_bind_ok htx
      obtain ⟨-, -, -, rfl⟩ := buildAndPersist_inv htx
      exact List.prefix_rfl
  | reallocate _ htx =>
    obtain ⟨_, _, _, _, _, -, -, -, -, rfl⟩ := reallocateTx_inv htx
    exact List.prefix_rfl
  | ensureTeams _ hadd =>
    obtain ⟨new, rfl⟩ := addTeamNetworks_frame hadd
    exact List.prefix_append _ _
  | _ => exact List.prefix_rfl

/-! ## The system -/

/-- The jobs on networks. -/
inductive NetJob where
  | automatic (eventId : Nat) (externalReserved : List Ipv4Cidr)
  | manual (eventId : Nat) (req : ManualNetworkRequest) (externalReserved : List Ipv4Cidr)
  | reallocate (eventId : Nat) (externalReserved : List Ipv4Cidr)
  | release (eventId : Nat)
  | lock (eventId : Nat)
  | unlock (eventId : Nat)
  | ensureTeams (eventId : Nat)
  | deploy (id eventId : Nat)

/-- The program of a job. -/
def NetJob.prog : NetJob → NetM Unit
  | automatic e ext => do let _ ← allocateAutomatic e ext
  | manual e req ext => do let _ ← allocateManual e req ext
  | reallocate e ext => do let _ ← Awd.reallocate e ext
  | release e => releaseAllocations e
  | lock e => Awd.lock e
  | unlock e => Awd.unlock e
  | ensureTeams e => do let _ ← ensureTeamNetworks e
  | deploy _ e => deployEvent e

/-- The rest of the platform: the clock, new events, the status of an event, and teams. -/
inductive NetEnv where
  | tick (d : Nat)
  | createEvent (eventId : Nat)
  | setStatus (eventId : Nat) (status : AwdEventStatus)
  | join (team : NetTeam)

/-- What happens beside the jobs. -/
def NetEnv.apply (db : NetDb) : NetEnv → NetDb
  | tick d => { db with now := db.now + d }
  | createEvent e => { db with events := db.events ++ [⟨e, .draft⟩] }
  | setStatus e status => { db with
      events := db.events.map fun ev => if ev.eventId = e then { ev with status } else ev }
  | join team => { db with teams := db.teams ++ [team] }

/-- What the observer notes. -/
structure NetNotes where
  /-- The events whose blocks have been released since their row was written. -/
  released : List Nat
  /-- The deployments that have read the row of their event. -/
  readers : List Nat
  /-- The addresses where services were started, with the row of the event at that moment. -/
  services : List (EventNetwork × Option EventNetwork)
  /-- The addresses where game boxes were started, with the rows of the teams at that moment. -/
  boxes : List (List TeamNetwork × List TeamNetwork)

/-- What the notes learn of a statement: the events whose blocks are released. -/
def NetNotes.watch : NetJob → NetStmt → NetDb → NetNotes → NetNotes
  | _, .release e, _, g => { g with released := e :: g.released }
  | .reallocate e ext, .reallocate _, db, g =>
    if (reallocateTx e ext db).isOk then { g with released := g.released.filter (· ≠ e) } else g
  | .deploy id _, .readNetwork _, _, g => { g with readers := id :: g.readers }
  | _, .infrastructure n, db, g => { g with services := (n, db.findNetwork n.eventId) :: g.services }
  | _, .gameboxes ns, db, g => { g with boxes := (ns, db.teamNetworks) :: g.boxes }
  | _, _, _, g => g

/-- The jobs, with the notes as ghost state. -/
def netSystem : System NetStmt NetDb AwdError NetNotes NetJob NetEnv where
  prog := NetJob.prog
  env e db := NetEnv.apply db e
  watch := NetNotes.watch

/-- The jobs under way. -/
abbrev NetPool := Pool NetStmt NetDb AwdError NetNotes NetJob

/-- No call is under way and nothing has been noted. -/
def NetPool.initial (db : NetDb) : NetPool :=
  { state := db, ghost := ⟨[], [], [], []⟩, threads := [] }

/-- A new platform with one event that is being configured and one team. -/
def NetDb.oneTeam : NetDb where
  now := 0
  settings := .initial
  events := [⟨1, .configuring⟩]
  rows := []
  allocations := []
  teams := [⟨1, 1⟩]
  teamNetworks := []

/-- The port that the call asks for. -/
def NetJob.port : NetJob → Option Int
  | manual _ req _ => req.wireguardListenPort
  | _ => none

theorem netDoes_prog (j : NetJob) : j.prog.Does (NetStep (· = j.port) fun _ => True) := by
  cases j with
  | automatic e ext => exact Prog.does_bind (netDoes_allocateAutomatic e ext) fun _ => trivial
  | manual e req ext => exact Prog.does_bind (netDoes_allocateManual e req ext rfl) fun _ => trivial
  | reallocate e ext => exact Prog.does_bind (netDoes_reallocate trivial ext) fun _ => trivial
  | release e => exact netDoes_releaseAllocations e
  | lock e => exact netDoes_lock e
  | unlock e => exact netDoes_unlock e
  | ensureTeams e => exact Prog.does_bind (netDoes_ensureTeamNetworks trivial) fun _ => trivial
  | deploy id e => exact netDoes_deployEvent trivial

end FloatCtf.Awd
