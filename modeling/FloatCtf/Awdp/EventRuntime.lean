import FloatCtf.Awdp.EventNetworkRepo
import FloatCtf.Net.Text

/-!
# The runtime of an event

`domain/judge.rs` and the lifecycle of `service/practice_judge.rs` and `service/practice_acl.rs`: the
Docker network of an event, the container of its judge and its table of the firewall are created by
`ensure_event_network` and `deploy_judge`, and removed by `cleanup_event_network`, or when the event
is deleted.  Every command succeeds.

The table is installed under a name that comes from the name of the network, with twelve digits of
the id, and is removed under a name with eight digits: it is never removed.
-/

namespace FloatCtf.Awdp

/-! ## Names -/

/-- An id of 128 bits. -/
abbrev Uuid := Fin (2 ^ 128)

/-- The first `n` of the hexadecimal digits. -/
def hexPrefix (n : Nat) (id : Uuid) : List Char :=
  (List.range n).map fun i => Nat.digitChar (id / 16 ^ (31 - i) % 16)

/-- The id of the practice event. -/
def practiceEventId : Uuid := 2

/-- The event is the practice event. -/
def isPracticeEvent (id : Uuid) : Bool := id = practiceEventId

/-- The network of the practice event. -/
def practiceNetworkName : String := "fctf-awdp-practice"

/-- The table of the practice event. -/
def practiceAclTableName : String := "floatctf_awdp_practice"

/-- The network of an event, with 12 digits of its id. -/
def eventNetworkName (id : Uuid) : String := "fctf-awdp-" ++ String.ofList (hexPrefix 12 id)

/-- The judge container of an event, with 12 digits of its id. -/
def eventJudgeContainerName (id : Uuid) : String :=
  if isPracticeEvent id then "fctf-awdp-practice-judge"
  else "fctf-awdp-judge-" ++ String.ofList (hexPrefix 12 id)

/-- The table of an event, with 8 digits of its id. -/
def eventAclTableName (id : Uuid) : String := "floatctf_awdp_" ++ String.ofList (hexPrefix 8 id)

/-- `str::replace`, behind the next `n` characters, which belong to a match. -/
def replaceFrom (pat rep : List Char) : Nat → List Char → List Char
  | _, [] => []
  | 0, c :: cs =>
    if pat <+: c :: cs then rep ++ replaceFrom pat rep (pat.length - 1) cs
    else c :: replaceFrom pat rep 0 cs
  | n + 1, _ :: cs => replaceFrom pat rep n cs

/-- The name under which `apply_practice_acl` installs the table of a network. -/
def aclTableFor (networkName : String) : String :=
  if networkName = practiceNetworkName then practiceAclTableName
  else
    String.ofList
      (replaceFrom "fctf-awdp-".toList "floatctf_awdp_".toList 0 networkName.toList)

/-! ## The host -/

/-- A resource with the event for which it was created. -/
structure Resource where
  name : String
  owner : Uuid
  deriving DecidableEq

/-- The rows of the networks, and what is installed on the host. -/
structure Host where
  rows : List EventNetwork
  networks : List Resource
  judges : List Resource
  tables : List Resource

/-- The resources without those of this name. -/
def dropNamed (name : String) (rs : List Resource) : List Resource := rs.filter (·.name ≠ name)

/-- The resource takes the place of those of its name. -/
def install (r : Resource) (rs : List Resource) : List Resource := dropNamed r.name rs ++ [r]

section Lifecycle

variable (crate : NetworkCrate)

/-- Creates the network, unless one of its name is there. -/
def ensureNetworkExists (eventId : Uuid) (row : EventNetwork) (h : Host) : Host :=
  if h.networks.any (·.name = row.networkName) then h
  else { h with networks := h.networks ++ [⟨row.networkName, eventId⟩] }

/-- `apply_practice_acl`: without the network there is nothing to do. -/
def applyPracticeAcl (eventId : Uuid) (networkName : String) (h : Host) : Host :=
  if h.networks.any (·.name = networkName) then
    { h with tables := install ⟨aclTableFor networkName, eventId⟩ h.tables }
  else h

/-- The network of a row and its table. -/
def ensureDataPlane (eventId : Uuid) (row : EventNetwork) (h : Host) : Host :=
  applyPracticeAcl eventId row.networkName (ensureNetworkExists eventId row h)

/-- `ensure_event_network` for a competition. -/
def ensureEventNetwork (pool : IpNetwork) (eventNetmask : Nat) (dockerSubnets : List IpNetwork)
    (eventId : Uuid) (h : Host) : Option Host := do
  let (result, rows) ← allocateEventNetwork crate h.rows eventId (eventNetworkName eventId) pool
    eventNetmask dockerSubnets
  match result with
  | .error _ => some { h with rows }
  | .ok row => some (ensureDataPlane eventId row { h with rows })

/-- `mark_deployed`. -/
def markDeployed (eventId : Uuid) (networkId : String) (rows : List EventNetwork) :
    List EventNetwork :=
  rows.map fun r =>
    if r.eventId = eventId.val then { r with dockerNetworkId := some networkId, status := .deployed }
    else r

/-- The container of the judge; one that is not as expected is replaced. -/
def installJudge (eventId : Uuid) (h : Host) : Host :=
  { h with judges := install ⟨eventJudgeContainerName eventId, eventId⟩ h.judges }

/-- `deploy_judge` for a competition. -/
def deployJudge (platformInternalUrl networkId : String) (eventId : Uuid) (h : Host) : Host :=
  if platformInternalUrl.toList.all Text.isWhitespace then h
  else match h.rows.find? (·.eventId = eventId.val) with
  | none => h
  | some row =>
    { installJudge eventId (ensureDataPlane eventId row h) with
      rows := markDeployed eventId networkId h.rows }

/-- `cleanup_event_network`: removes what an event has on the host; practice stays. -/
def cleanupEventNetwork (eventId : Uuid) (h : Host) : Host :=
  if isPracticeEvent eventId then h
  else match h.rows.find? (·.eventId = eventId.val) with
  | none => { h with judges := dropNamed (eventJudgeContainerName eventId) h.judges }
  | some row =>
    { h with
      judges := dropNamed (eventJudgeContainerName eventId) h.judges
      tables := dropNamed (eventAclTableName eventId) h.tables
      networks := dropNamed row.networkName h.networks
      rows := markReleased eventId h.rows }

/-- The names of an event that is deleted; its instances are left out. -/
structure AwdpEventRuntimeSnapshot where
  eventId : Uuid
  judgeContainer : String
  networkName : String
  aclTable : String

/-- The names of what an event has on the host. -/
def snapshotEventRuntime (eventId : Uuid) : Option AwdpEventRuntimeSnapshot :=
  if isPracticeEvent eventId then none
  else some ⟨eventId, eventJudgeContainerName eventId, eventNetworkName eventId,
    eventAclTableName eventId⟩

/-- Removes what the snapshot names. -/
def teardownEventRuntime (s : AwdpEventRuntimeSnapshot) (h : Host) : Host :=
  { h with
    judges := dropNamed s.judgeContainer h.judges
    tables := dropNamed s.aclTable h.tables
    networks := dropNamed s.networkName h.networks }

/-- `delete_event`: the row of the network goes with the event, and then its runtime. -/
def deleteEvent (eventId : Uuid) (h : Host) : Host :=
  let h' := { h with rows := h.rows.filter (·.eventId ≠ eventId.val) }
  match snapshotEventRuntime eventId with
  | none => h'
  | some s => teardownEventRuntime s h'

/-- The operations on a host. -/
inductive Op where
  | ensure (pool : IpNetwork) (eventNetmask : Nat) (dockerSubnets : List IpNetwork)
      (eventId : Uuid)
  | deploy (platformInternalUrl networkId : String) (eventId : Uuid)
  | cleanup (eventId : Uuid)
  | delete (eventId : Uuid)

/-- The event of an operation. -/
def Op.eventId : Op → Uuid
  | ensure _ _ _ id | deploy _ _ id | cleanup id | delete id => id

/-- The host behind an operation, if it has not failed. -/
def Op.run : Op → Host → Option Host
  | ensure pool eventNetmask dockerSubnets id, h =>
    ensureEventNetwork crate pool eventNetmask dockerSubnets id h
  | deploy url networkId id, h => some (deployJudge url networkId id h)
  | cleanup id, h => some (cleanupEventNetwork id h)
  | delete id, h => some (deleteEvent id h)

/-- The hosts that the competitions can reach; a panic changes nothing. -/
inductive Reachable : Host → Prop
  | init : Reachable ⟨[], [], [], []⟩
  | step {h h' : Host} {op : Op} (hr : Reachable h) (hid : op.eventId ≠ practiceEventId)
      (hop : op.run crate h = some h') : Reachable h'

end Lifecycle

/-! ## The names -/

variable {id id' : Uuid} {n : Nat}

theorem length_hexPrefix : (hexPrefix n id).length = n := by simp [hexPrefix]

theorem digitChar_ne (d : Fin 16) : Nat.digitChar d ≠ 't' := by
  revert d
  decide

theorem notMem_hexPrefix : 't' ∉ hexPrefix n id := by
  intro h
  obtain ⟨i, -, hi⟩ := List.mem_map.1 h
  exact digitChar_ne ⟨id / 16 ^ (31 - i) % 16, Nat.mod_lt _ (by decide)⟩ hi

/-- A text without a character of the pattern is not changed. -/
theorem replaceFrom_of_notMem {pat rep l : List Char} {c : Char} (hc : c ∈ pat) (hl : c ∉ l) :
    replaceFrom pat rep 0 l = l := by
  induction l with
  | nil => rfl
  | cons x l ih =>
    rw [replaceFrom, if_neg fun hpre => hl (hpre.subset hc), ih fun h => hl (.tail _ h)]

theorem replaceFrom_append {pat rep : List Char} (xs l : List Char) :
    replaceFrom pat rep xs.length (xs ++ l) = replaceFrom pat rep 0 l := by
  induction xs with
  | nil => rfl
  | cons x xs ih => exact ih

/-- The pattern in front of a text that it does not meet. -/
theorem replaceFrom_pattern {p : Char} {ps rep l : List Char}
    (hl : replaceFrom (p :: ps) rep 0 l = l) :
    replaceFrom (p :: ps) rep 0 (p :: ps ++ l) = rep ++ l := by
  show (if p :: ps <+: p :: ps ++ l then rep ++ replaceFrom (p :: ps) rep ps.length (ps ++ l)
    else _) = _
  rw [if_pos (List.prefix_append _ _), replaceFrom_append, hl]

/-- The name of the table that is installed for an event. -/
theorem aclTableFor_eventNetworkName (id : Uuid) :
    aclTableFor (eventNetworkName id) = "floatctf_awdp_" ++ String.ofList (hexPrefix 12 id) := by
  have hne : eventNetworkName id ≠ practiceNetworkName := by
    intro h
    have hlen := congrArg (fun s : String => s.toList.length) h
    simp only [eventNetworkName, String.toList_append, List.length_append, String.toList_ofList,
      length_hexPrefix] at hlen
    exact absurd hlen (by decide)
  rw [aclTableFor, if_neg hne, eventNetworkName, String.toList_append, String.toList_ofList,
    String.toList_ofList, String.toList_ofList,
    replaceFrom_pattern (replaceFrom_of_notMem (by decide) notMem_hexPrefix), String.ofList_append]

/-- It is never the name of a table that is removed. -/
theorem aclTableFor_ne (id id' : Uuid) :
    aclTableFor (eventNetworkName id) ≠ eventAclTableName id' := by
  intro h
  have hlen := congrArg (fun s : String => s.toList.length) h
  simp only [aclTableFor_eventNetworkName, eventAclTableName, String.toList_append,
    List.length_append, String.toList_ofList, length_hexPrefix] at hlen
  omega

theorem eventJudgeContainerName_eq_iff (hid : id ≠ practiceEventId) (hid' : id' ≠ practiceEventId) :
    eventJudgeContainerName id = eventJudgeContainerName id' ↔
      eventNetworkName id = eventNetworkName id' := by
  rw [eventJudgeContainerName, eventJudgeContainerName, isPracticeEvent, isPracticeEvent,
    decide_eq_false hid, decide_eq_false hid', eventNetworkName, eventNetworkName]
  simp

/-! ## What the resources are -/

/-- The names are those of the owners, and each network has a row. -/
structure Sound (h : Host) : Prop where
  row : ∀ r ∈ h.rows, ∃ id : Uuid, r.eventId = id.val ∧ r.networkName = eventNetworkName id
  names : (h.rows.map (·.networkName)).Nodup
  network : ∀ r ∈ h.networks, r.name = eventNetworkName r.owner ∧
    ∃ row ∈ h.rows, row.eventId = r.owner.val
  judge : ∀ r ∈ h.judges, r.owner ≠ practiceEventId ∧ r.name = eventJudgeContainerName r.owner
  table : ∀ r ∈ h.tables, r.name = aclTableFor (eventNetworkName r.owner)

variable {h h' : Host} {row : EventNetwork} {r : Resource} {rs : List Resource} {name : String}
  {crate : NetworkCrate}

@[simp]
theorem mem_dropNamed : r ∈ dropNamed name rs ↔ r ∈ rs ∧ r.name ≠ name := by
  simp [dropNamed]

theorem of_mem_install {r' : Resource} (hr : r' ∈ install r rs) : r' ∈ rs ∨ r' = r := by
  rcases List.mem_append.1 hr with hr | hr
  · exact .inl (mem_dropNamed.1 hr).1
  · exact .inr (List.mem_singleton.1 hr)

/-- The row of an event has the name of its network. -/
theorem Sound.row_name (hs : Sound h) (hrow : row ∈ h.rows) (hid : row.eventId = id.val) :
    row.networkName = eventNetworkName id := by
  obtain ⟨id', hid', hname⟩ := hs.row row hrow
  rw [hname, Fin.val_injective (hid'.symm.trans hid)]

theorem Sound.ensureNetworkExists (hs : Sound h) (hrow : row ∈ h.rows)
    (hid : row.eventId = id.val) : Sound (ensureNetworkExists id row h) := by
  unfold Awdp.ensureNetworkExists
  split_ifs
  · exact hs
  · refine ⟨hs.row, hs.names, fun r hr => ?_, hs.judge, hs.table⟩
    rcases List.mem_append.1 hr with hr | hr
    · exact hs.network r hr
    · rw [List.mem_singleton.1 hr]
      exact ⟨hs.row_name hrow hid, row, hrow, hid⟩

theorem Sound.applyPracticeAcl (hs : Sound h) (hname : name = eventNetworkName id) :
    Sound (applyPracticeAcl id name h) := by
  unfold Awdp.applyPracticeAcl
  split_ifs
  · refine ⟨hs.row, hs.names, hs.network, hs.judge, fun r hr => ?_⟩
    rcases of_mem_install hr with hr | rfl
    · exact hs.table r hr
    · rw [hname]
  · exact hs

theorem Sound.ensureDataPlane (hs : Sound h) (hrow : row ∈ h.rows)
    (hid : row.eventId = id.val) : Sound (ensureDataPlane id row h) :=
  (hs.ensureNetworkExists hrow hid).applyPracticeAcl (hs.row_name hrow hid)

theorem rows_ensureDataPlane (id : Uuid) (row : EventNetwork) (h : Host) :
    (ensureDataPlane id row h).rows = h.rows := by
  have hnet : (Awdp.ensureNetworkExists id row h).rows = h.rows := by
    unfold Awdp.ensureNetworkExists
    split_ifs <;> rfl
  unfold Awdp.ensureDataPlane Awdp.applyPracticeAcl
  split_ifs <;> exact hnet

/-- Rows that keep their event and their name. -/
theorem Sound.mapRows (hs : Sound h) {f : EventNetwork → EventNetwork}
    (hf : ∀ r, (f r).eventId = r.eventId ∧ (f r).networkName = r.networkName) :
    Sound { h with rows := h.rows.map f } := by
  refine ⟨fun r hr => ?_, ?_, fun r hr => ?_, hs.judge, hs.table⟩
  · obtain ⟨r', hr', rfl⟩ := List.mem_map.1 hr
    rw [(hf r').1, (hf r').2]
    exact hs.row r' hr'
  · rw [List.map_map]
    show (h.rows.map fun r => (f r).networkName).Nodup
    simp only [fun r => (hf r).2]
    exact hs.names
  · obtain ⟨hname, row, hrow, hid⟩ := hs.network r hr
    exact ⟨hname, f row, List.mem_map_of_mem hrow, (hf row).1.trans hid⟩

/-- Resources that are removed. -/
theorem Sound.drop (hs : Sound h) (judge network table : String) :
    Sound { h with judges := dropNamed judge h.judges, networks := dropNamed network h.networks,
                   tables := dropNamed table h.tables } :=
  ⟨hs.row, hs.names, fun r hr => hs.network r (mem_dropNamed.1 hr).1,
    fun r hr => hs.judge r (mem_dropNamed.1 hr).1, fun r hr => hs.table r (mem_dropNamed.1 hr).1⟩

theorem dropNamed_of_notMem (hno : ∀ r ∈ rs, r.name ≠ name) : dropNamed name rs = rs :=
  List.filter_eq_self.2 fun r hr => decide_eq_true (hno r hr)

theorem Sound.ensureEventNetwork (hs : Sound h) {pool : IpNetwork} {eventNetmask : Nat}
    {dockerSubnets : List IpNetwork}
    (hop : ensureEventNetwork crate pool eventNetmask dockerSubnets id h = some h') : Sound h' := by
  obtain ⟨⟨result, rows⟩, halloc, hop⟩ := Option.bind_eq_some_iff.1 hop
  obtain ⟨hrows, hok⟩ := allocateEventNetwork_rows halloc
  have hs' : Sound { h with rows } := by
    rcases hrows with rfl | ⟨row, rfl, hid, hname, hnew⟩
    · exact hs
    · refine ⟨fun r hr => ?_, ?_, fun r hr => ?_, hs.judge, hs.table⟩
      · rcases List.mem_cons.1 hr with rfl | hr
        · exact ⟨id, hid, hname⟩
        · exact hs.row r hr
      · refine List.nodup_cons.2 ⟨fun hmem => ?_, hs.names⟩
        obtain ⟨r, hr, heq⟩ := List.mem_map.1 hmem
        exact hnew r hr (heq.trans hname)
      · obtain ⟨hn, row', hrow', hid'⟩ := hs.network r hr
        exact ⟨hn, row', List.mem_cons_of_mem _ hrow', hid'⟩
  cases result with
  | error e =>
    cases hop
    exact hs'
  | ok row =>
    cases hop
    obtain ⟨hrow, hid⟩ := hok row rfl
    exact hs'.ensureDataPlane hrow hid

theorem Sound.deployJudge (hs : Sound h) (url networkId : String) (hid : id ≠ practiceEventId) :
    Sound (deployJudge url networkId id h) := by
  unfold Awdp.deployJudge
  split_ifs
  · exact hs
  split
  · exact hs
  next row hfind =>
    have hrow := List.mem_of_find?_eq_some hfind
    have hrid : row.eventId = id.val := of_decide_eq_true (List.find?_some hfind :)
    have hplane := hs.ensureDataPlane hrow hrid
    have hjudge : Sound (installJudge id (Awdp.ensureDataPlane id row h)) := by
      refine ⟨hplane.row, hplane.names, hplane.network, fun r hr => ?_, hplane.table⟩
      rcases of_mem_install hr with hr | rfl
      · exact hplane.judge r hr
      · exact ⟨hid, rfl⟩
    rw [← rows_ensureDataPlane id row h]
    exact hjudge.mapRows fun r => by split_ifs <;> exact ⟨rfl, rfl⟩

theorem Sound.cleanupEventNetwork (hs : Sound h) (hid : id ≠ practiceEventId) :
    Sound (cleanupEventNetwork id h) := by
  unfold Awdp.cleanupEventNetwork
  rw [isPracticeEvent, decide_eq_false hid, if_neg (by decide)]
  split
  · exact ⟨hs.row, hs.names, hs.network, fun r hr => hs.judge r (mem_dropNamed.1 hr).1, hs.table⟩
  next row hfind =>
    have hdrop := hs.drop (eventJudgeContainerName id) row.networkName (eventAclTableName id)
    exact hdrop.mapRows fun r => by split_ifs <;> exact ⟨rfl, rfl⟩

theorem snapshot_eq (hid : id ≠ practiceEventId) : snapshotEventRuntime id =
    some ⟨id, eventJudgeContainerName id, eventNetworkName id, eventAclTableName id⟩ := by
  rw [snapshotEventRuntime, isPracticeEvent, decide_eq_false hid]
  rfl

theorem Sound.deleteEvent (hs : Sound h) (hid : id ≠ practiceEventId) : Sound (deleteEvent id h) := by
  have hdrop := hs.drop (eventJudgeContainerName id) (eventNetworkName id) (eventAclTableName id)
  rw [Awdp.deleteEvent, snapshot_eq hid]
  refine ⟨fun r hr => hs.row r (List.mem_of_mem_filter hr),
    hs.names.sublist ((List.filter_sublist).map _), fun r hr => ?_, hdrop.judge, hdrop.table⟩
  obtain ⟨hname, row, hrow, hrid⟩ := hdrop.network r hr
  refine ⟨hname, row, List.mem_filter.2 ⟨hrow, decide_eq_true fun heq => ?_⟩, hrid⟩
  have howner : r.owner = id := Fin.val_injective (hrid.symm.trans heq)
  exact (mem_dropNamed.1 hr).2 (by rw [hname, howner])

theorem Reachable.sound (hr : Reachable crate h) : Sound h := by
  induction hr with
  | init => exact ⟨nofun, List.nodup_nil, nofun, nofun, nofun⟩
  | @step h h' op _ hid hop ih =>
    cases op with
    | ensure pool eventNetmask dockerSubnets id => exact ih.ensureEventNetwork hop
    | deploy url networkId id =>
      cases hop
      exact ih.deployJudge url networkId hid
    | cleanup id =>
      cases hop
      exact ih.cleanupEventNetwork hid
    | delete id =>
      cases hop
      exact ih.deleteEvent hid

/-! ## The tables stay -/

/-- A table that is installed stays, or another one takes its place. -/
def KeepsTables (h h' : Host) : Prop := ∀ r ∈ h.tables, ∃ r' ∈ h'.tables, r'.name = r.name

theorem keepsTables_of_eq (heq : h'.tables = h.tables) : KeepsTables h h' :=
  fun r hr => ⟨r, heq ▸ hr, rfl⟩

theorem keepsTables_ensureDataPlane (id : Uuid) (row : EventNetwork) (h : Host) :
    KeepsTables h (ensureDataPlane id row h) := by
  have hnet : (Awdp.ensureNetworkExists id row h).tables = h.tables := by
    unfold Awdp.ensureNetworkExists
    split_ifs <;> rfl
  intro r hr
  rw [← hnet] at hr
  unfold Awdp.ensureDataPlane Awdp.applyPracticeAcl
  split_ifs
  · by_cases hname : r.name = aclTableFor row.networkName
    · exact ⟨_, List.mem_append_right _ (List.mem_singleton_self _), hname.symm⟩
    · exact ⟨r, List.mem_append_left _ (mem_dropNamed.2 ⟨hr, hname⟩), rfl⟩
  · exact ⟨r, hr, rfl⟩

/-- Removing the table of an event removes nothing. -/
theorem Sound.dropTable (hs : Sound h) (id : Uuid) :
    dropNamed (eventAclTableName id) h.tables = h.tables :=
  dropNamed_of_notMem fun r hr => by
    rw [hs.table r hr]
    exact aclTableFor_ne r.owner id

theorem Sound.keepsTables (hs : Sound h) {op : Op} (hop : op.run crate h = some h') :
    KeepsTables h h' := by
  cases op with
  | ensure pool eventNetmask dockerSubnets id =>
    obtain ⟨⟨result, rows⟩, -, hop⟩ := Option.bind_eq_some_iff.1 hop
    cases result with
    | error e =>
      cases hop
      exact keepsTables_of_eq rfl
    | ok row =>
      cases hop
      exact keepsTables_ensureDataPlane id row { h with rows }
  | deploy url networkId id =>
    cases hop
    unfold Awdp.deployJudge
    split_ifs
    · exact keepsTables_of_eq rfl
    split
    · exact keepsTables_of_eq rfl
    next row _ => exact keepsTables_ensureDataPlane id row h
  | cleanup id =>
    cases hop
    unfold Awdp.cleanupEventNetwork
    split_ifs
    · exact keepsTables_of_eq rfl
    split
    · exact keepsTables_of_eq rfl
    · exact keepsTables_of_eq (hs.dropTable id)
  | delete id =>
    cases hop
    unfold Awdp.deleteEvent snapshotEventRuntime
    split_ifs
    · exact keepsTables_of_eq rfl
    · exact keepsTables_of_eq (hs.dropTable id)

/-- Whatever is done for the competitions, a table that was installed is there ever after. -/
theorem tables_stay (hr : Reachable crate h)
    (hrun : Relation.ReflTransGen (fun h h' => ∃ op : Op, op.eventId ≠ practiceEventId ∧
      op.run crate h = some h') h h') : KeepsTables h h' := by
  have hboth : Reachable crate h' ∧ KeepsTables h h' := by
    induction hrun with
    | refl => exact ⟨hr, keepsTables_of_eq rfl⟩
    | tail _ hstep ih =>
      obtain ⟨hr', hkeep⟩ := ih
      obtain ⟨op, hid, hop⟩ := hstep
      refine ⟨.step hr' hid hop, fun r hmem => ?_⟩
      obtain ⟨r₁, hr₁, hn₁⟩ := hkeep r hmem
      obtain ⟨r₂, hr₂, hn₂⟩ := hr'.sound.keepsTables hop r₁ hr₁
      exact ⟨r₂, hr₂, hn₂.trans hn₁⟩
  exact hboth.2

/-! ## What a cleanup leaves -/

/-- Nothing of the event is left, and nothing of another event is removed. -/
structure Cleaned (id : Uuid) (h h' : Host) : Prop where
  gone : ∀ r ∈ h'.networks ++ h'.judges ++ h'.tables, r.owner ≠ id
  networks : ∀ r ∈ h.networks, r.owner ≠ id → r ∈ h'.networks
  judges : ∀ r ∈ h.judges, r.owner ≠ id → r ∈ h'.judges
  tables : ∀ r ∈ h.tables, r.owner ≠ id → r ∈ h'.tables

/-- No table was installed for the event. -/
def NoTable (id : Uuid) (h : Host) : Prop := ∀ r ∈ h.tables, r.owner ≠ id

/-- No other event has a resource under the names of the event. -/
def OnlyOwn (id : Uuid) (rs : List Resource) : Prop :=
  ∀ r ∈ rs, eventNetworkName r.owner = eventNetworkName id → r.owner = id

theorem Sound.mem_dropJudges (hs : Sound h) (hid : id ≠ practiceEventId) :
    r ∈ dropNamed (eventJudgeContainerName id) h.judges ↔
      r ∈ h.judges ∧ eventNetworkName r.owner ≠ eventNetworkName id := by
  rw [mem_dropNamed]
  refine and_congr_right fun hr => ?_
  obtain ⟨howner, hname⟩ := hs.judge r hr
  rw [hname, ne_eq, eventJudgeContainerName_eq_iff howner hid]

theorem Sound.mem_dropNetworks (hs : Sound h) : r ∈ dropNamed (eventNetworkName id) h.networks ↔
    r ∈ h.networks ∧ eventNetworkName r.owner ≠ eventNetworkName id := by
  rw [mem_dropNamed]
  refine and_congr_right fun hr => ?_
  rw [(hs.network r hr).1]

/-- What is removed by the name is the event's own if nobody else uses the name. -/
theorem kept_iff (id : Uuid) (rs : List Resource) :
    (∀ r ∈ rs, r.owner ≠ id → r ∈ rs ∧ eventNetworkName r.owner ≠ eventNetworkName id) ↔
      OnlyOwn id rs := by
  constructor
  · intro h r hr heq
    by_contra hne
    exact (h r hr hne).2 heq
  · exact fun h r hr hne => ⟨hr, fun heq => hne (h r hr heq)⟩

/-- With its own row an event shares its name with nobody. -/
theorem Sound.onlyOwn_networks (hs : Sound h) (hrow : row ∈ h.rows)
    (hid : row.eventId = id.val) : OnlyOwn id h.networks := by
  intro r hr heq
  obtain ⟨-, row', hrow', hid'⟩ := hs.network r hr
  have hnames : row'.networkName = row.networkName := by
    rw [hs.row_name hrow' hid', hs.row_name hrow hid, heq]
  have hsame := List.inj_on_of_nodup_map hs.names hrow' hrow hnames
  exact Fin.val_injective (hid'.symm.trans ((congrArg (·.eventId) hsame).trans hid))

theorem cleaned_cleanup_iff (hs : Sound h) (hid : id ≠ practiceEventId) :
    Cleaned id h (cleanupEventNetwork id h) ↔ NoTable id h ∧ OnlyOwn id h.judges := by
  unfold Awdp.cleanupEventNetwork
  rw [isPracticeEvent, decide_eq_false hid, if_neg (by decide)]
  have hjudges : (∀ r ∈ h.judges, r.owner ≠ id →
      r ∈ dropNamed (eventJudgeContainerName id) h.judges) ↔ OnlyOwn id h.judges := by
    simp only [hs.mem_dropJudges hid, kept_iff]
  have hgone : ∀ r ∈ dropNamed (eventJudgeContainerName id) h.judges, r.owner ≠ id :=
    fun r hr heq => ((hs.mem_dropJudges hid).1 hr).2 (by rw [heq])
  split
  next hfind =>
    -- without a row the event has no network
    have hnone : ∀ r ∈ h.networks, r.owner ≠ id := by
      rintro r hr rfl
      obtain ⟨-, row, hrow, hrid⟩ := hs.network r hr
      exact absurd (decide_eq_true hrid) (List.find?_eq_none.1 hfind row hrow)
    constructor
    · intro hc
      exact ⟨fun r hr => hc.gone r (List.mem_append_right _ hr), hjudges.1 hc.judges⟩
    · rintro ⟨htable, hown⟩
      refine ⟨fun r hr => ?_, fun r hr _ => hr, hjudges.2 hown, fun r hr _ => hr⟩
      rcases List.mem_append.1 hr with hr | hr
      · rcases List.mem_append.1 hr with hr | hr
        · exact hnone r hr
        · exact hgone r hr
      · exact htable r hr
  next row hfind =>
    have hrow := List.mem_of_find?_eq_some hfind
    have hrid : row.eventId = id.val := of_decide_eq_true (List.find?_some hfind :)
    rw [hs.row_name hrow hrid, hs.dropTable id]
    constructor
    · intro hc
      exact ⟨fun r hr => hc.gone r (List.mem_append_right _ hr), hjudges.1 hc.judges⟩
    · rintro ⟨htable, hown⟩
      refine ⟨fun r hr => ?_, fun r hr hne => ?_, hjudges.2 hown, fun r hr _ => hr⟩
      · rcases List.mem_append.1 hr with hr | hr
        · rcases List.mem_append.1 hr with hr | hr
          · exact fun heq => (hs.mem_dropNetworks.1 hr).2 (by rw [heq])
          · exact hgone r hr
        · exact htable r hr
      · exact hs.mem_dropNetworks.2
          ⟨hr, fun heq => hne (hs.onlyOwn_networks hrow hrid r hr heq)⟩

theorem cleaned_delete_iff (hs : Sound h) (hid : id ≠ practiceEventId) :
    Cleaned id h (deleteEvent id h) ↔
      NoTable id h ∧ OnlyOwn id h.judges ∧ OnlyOwn id h.networks := by
  rw [Awdp.deleteEvent, snapshot_eq hid]
  unfold teardownEventRuntime
  simp only [hs.dropTable id]
  have hjudges : (∀ r ∈ h.judges, r.owner ≠ id →
      r ∈ dropNamed (eventJudgeContainerName id) h.judges) ↔ OnlyOwn id h.judges := by
    simp only [hs.mem_dropJudges hid, kept_iff]
  have hnetworks : (∀ r ∈ h.networks, r.owner ≠ id →
      r ∈ dropNamed (eventNetworkName id) h.networks) ↔ OnlyOwn id h.networks := by
    simp only [hs.mem_dropNetworks, kept_iff]
  constructor
  · intro hc
    exact ⟨fun r hr => hc.gone r (List.mem_append_right _ hr), hjudges.1 hc.judges,
      hnetworks.1 hc.networks⟩
  · rintro ⟨htable, hown, hownNet⟩
    refine ⟨fun r hr => ?_, hnetworks.2 hownNet, hjudges.2 hown, fun r hr _ => hr⟩
    rcases List.mem_append.1 hr with hr | hr
    · rcases List.mem_append.1 hr with hr | hr
      · exact fun heq => (hs.mem_dropNetworks.1 hr).2 (by rw [heq])
      · exact fun heq => ((hs.mem_dropJudges hid).1 hr).2 (by rw [heq])
    · exact htable r hr

/-- In every reachable host: the table of an event is installed under a name that is never removed,
and so a cleanup or a deletion leaves nothing of the event and removes nothing of another one if and
only if no table was installed for it and no other event has a resource of the name that is
removed. -/
theorem cleaned_iff (hr : Reachable crate h) (hid : id ≠ practiceEventId) :
    aclTableFor (eventNetworkName id) ≠ eventAclTableName id ∧
      (Cleaned id h (cleanupEventNetwork id h) ↔ NoTable id h ∧ OnlyOwn id h.judges) ∧
        (Cleaned id h (deleteEvent id h) ↔
          NoTable id h ∧ OnlyOwn id h.judges ∧ OnlyOwn id h.networks) :=
  ⟨aclTableFor_ne id id, cleaned_cleanup_iff hr.sound hid, cleaned_delete_iff hr.sound hid⟩

/-! ## A host with the runtime of event 7 -/

/-- A pool of one block. -/
def samplePool : IpNetwork := .v4 (tenBlock 43 0 0 24 (by decide))

/-- The row of event 7, whose network is the whole pool `10.43.0.0/24`. -/
def sampleRow : EventNetwork where
  eventId := 7
  networkName := eventNetworkName 7
  subnetCidr := samplePool
  dynamicPoolCidr := .v4 (tenBlock 43 0 128 25 (by decide))
  judgeIp := .v4 (tenBlock 43 0 2 32 (by decide))
  dockerNetworkId := none
  status := .allocated

/-- The network of event 7 is ensured. -/
def ensuredHost : Host :=
  ⟨[sampleRow], [⟨eventNetworkName 7, 7⟩], [], [⟨aclTableFor (eventNetworkName 7), 7⟩]⟩

/-- And its judge is deployed. -/
def deployedHost : Host :=
  ⟨markDeployed 7 "network-7" [sampleRow], [⟨eventNetworkName 7, 7⟩],
    [⟨eventJudgeContainerName 7, 7⟩], [⟨aclTableFor (eventNetworkName 7), 7⟩]⟩

theorem reachable_ensuredHost : Reachable .reference ensuredHost := by
  have hensure : Op.run .reference (.ensure samplePool 24 [] 7) ⟨[], [], [], []⟩ =
      some (ensureDataPlane 7 sampleRow ⟨[sampleRow], [], [], []⟩) := rfl
  have hplane : ensureDataPlane 7 sampleRow ⟨[sampleRow], [], [], []⟩ = ensuredHost := by
    simp [ensureDataPlane, ensureNetworkExists, applyPracticeAcl, install, dropNamed, sampleRow,
      ensuredHost]
  rw [hplane] at hensure
  exact .step .init (by decide) hensure

theorem reachable_deployedHost : Reachable .reference deployedHost := by
  have hdeploy : Op.run .reference (.deploy "http://api" "network-7" 7) ensuredHost =
      some deployedHost := by
    rw [Op.run, deployJudge, if_neg (by decide)]
    simp [ensuredHost, deployedHost, ensureDataPlane, ensureNetworkExists, applyPracticeAcl,
      installJudge, install, dropNamed, sampleRow]
  exact .step reachable_ensuredHost (by decide) hdeploy

/-- An event with other digits. -/
def otherEvent : Uuid := ⟨2 ^ 127, by decide⟩

/-- The other event has no table: nothing of the deployed one is removed. -/
theorem cleaned_iff_deployedHost :
    Cleaned otherEvent deployedHost (cleanupEventNetwork otherEvent deployedHost) ∧
      Cleaned otherEvent deployedHost (deleteEvent otherEvent deployedHost) := by
  have htable : NoTable otherEvent deployedHost := by
    intro r hr
    rw [List.mem_singleton.1 hr]
    decide
  have hown (name : String) : OnlyOwn otherEvent [⟨name, 7⟩] := by
    intro r hr hname
    rw [List.mem_singleton.1 hr, eventNetworkName, eventNetworkName, String.append_right_inj,
      String.ofList_inj] at hname
    exact absurd hname (show hexPrefix 12 7 ≠ hexPrefix 12 otherEvent by decide)
  have hid : otherEvent ≠ practiceEventId := by decide
  obtain ⟨-, hcleanup, hdelete⟩ := cleaned_iff reachable_deployedHost hid
  exact ⟨hcleanup.2 ⟨htable, hown _⟩, hdelete.2 ⟨htable, hown _, hown _⟩⟩

/-- The network of an event is ensured in the pool `10.43.0.0/24` and cleaned up: the table is
left. -/
theorem cleanup_leaves_table :
    ∃ h, Reachable .reference h ∧ (cleanupEventNetwork 7 h).networks = [] ∧
      (cleanupEventNetwork 7 h).tables = [⟨aclTableFor (eventNetworkName 7), 7⟩] ∧
        ¬ Cleaned 7 h (cleanupEventNetwork 7 h) := by
  have hcleanup : cleanupEventNetwork 7 ensuredHost =
      ⟨markReleased 7 [sampleRow], [], [], [⟨aclTableFor (eventNetworkName 7), 7⟩]⟩ := by
    have hne := aclTableFor_ne 7 7
    simp [cleanupEventNetwork, dropNamed, ensuredHost, sampleRow, hne,
      show isPracticeEvent 7 = false by decide]
  refine ⟨_, reachable_ensuredHost, by rw [hcleanup], by rw [hcleanup], fun hc => ?_⟩
  rw [hcleanup] at hc
  exact hc.gone _ (List.mem_append_right _ (List.mem_singleton_self _)) rfl

end FloatCtf.Awdp
