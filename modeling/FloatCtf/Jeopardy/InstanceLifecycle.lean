import FloatCtf.Jeopardy.Instances
import FloatCtf.Process.Table

/-!
# Containers of instances

Launches, destructions, the cleanup and the reconciliation interleaved, one statement of the
database or command of Docker at a time.  An observer notes when a command takes the container of
another running instance, and when the reconciliation fails an instance that never had a container.

`lifecycle_run` shows that neither happens, and that no completed instance has its container left,
in every run in which a command for a name finds the instance that holds the name or its own
container, no removal meets a container that the daemon is removing by itself, the version of the
challenge that a destruction reads has a port if the instance has a container, and the
reconciliation looks only at instances with containers.
-/

namespace FloatCtf.Jeopardy

open Process

variable {P : Type}

/-! ## The observer -/

/-- The containers of others that a job has removed, and the instances that were failed with a
container still there. -/
structure LifecycleReport where
  harmed : List (Nat × Nat)
  misjudged : List Nat
  deriving DecidableEq

/-- The other running instances of which the command takes the container. -/
def Site.victims (s : Site P) (instanceId : Nat) (target : Target) : List Nat :=
  (s.instances.filter fun i => i.runtimeState = .running && i.id ≠ instanceId &&
    s.containers.any fun c => target.hits c && i.container = some c.id).map (·.id)

/-- The running instances with the key that have never had a container. -/
def Site.bare (s : Site P) (id : Nat) : List Nat :=
  (s.instances.filter fun i => i.id = id && i.runtimeState = .running && i.container = none).map
    (·.id)

/-- What the report learns of a statement. -/
def watchSite (s : Site P) (g : LifecycleReport) : Stmt → LifecycleReport
  | .stop id target | .remove id target =>
    { g with harmed := g.harmed ++ (s.victims id target).map (id, ·) }
  | .transition .missing id _ _ => { g with misjudged := g.misjudged ++ s.bare id }
  | _ => g

/-- The jobs and the events of a site, with the report as ghost state. -/
def sites : System Stmt (Site P) String LifecycleReport SiteJob SiteEvent where
  prog := SiteJob.prog
  env := SiteEvent.act
  watch _ l s g := watchSite s g l

/-! ## Consistent states -/

/-- The container was created for the instance under the name. -/
def Site.Started (s : Site P) (id instanceId : Nat) (name : String) : Prop :=
  ∃ c ∈ s.created, c.id = id ∧ c.name = name ∧ c.instance = instanceId

/-- The keys of the tables and of Docker, and the containers of the instances. -/
structure Consistent (s : Site P) : Prop where
  keys : Table.Keyed (·.id) s.instances
  names : Table.Keyed (·.containerName) s.instances
  used : ∀ i ∈ s.instances, i.id ∈ s.usedIds
  log : ∀ c ∈ s.created, s.created[c.id]? = some c
  alive : ∀ c ∈ s.containers, c ∈ s.created
  started : ∀ i ∈ s.instances, ∀ id, i.container = some id → s.Started id i.id i.containerName
  completed : ∀ i ∈ s.instances, i.runtimeState = .completed → ∀ id, i.container = some id →
    ∀ c ∈ s.containers, c.id ≠ id

/-- What the programs leave as it is: old keys keep their rows, and no old container comes back. -/
structure Site.Later (s s' : Site P) : Prop where
  created : s.created <+: s'.created
  used : s.usedIds ⊆ s'.usedIds
  rows : ∀ i' ∈ s'.instances, i'.id ∈ s.usedIds → ∃ i ∈ s.instances,
    i.id = i'.id ∧ i.challengeId = i'.challengeId ∧ i.container = i'.container
  containers : ∀ c ∈ s'.containers, c.id < s.created.length → c ∈ s.containers

variable {s s' s'' : Site P}

theorem Site.Later.refl (s : Site P) : s.Later s :=
  ⟨List.prefix_refl _, List.Subset.refl _, fun i hi _ => ⟨i, hi, rfl, rfl, rfl⟩, fun _ hc _ => hc⟩

theorem Site.Later.trans (h : s.Later s') (h' : s'.Later s'') : s.Later s'' where
  created := h.created.trans h'.created
  used := fun _ hid => h'.used (h.used hid)
  rows i'' hi'' hid := by
    obtain ⟨i', hi', hkey', hch', hcon'⟩ := h'.rows i'' hi'' (h.used hid)
    obtain ⟨i, hi, hkey, hch, hcon⟩ := h.rows i' hi' (hkey' ▸ hid)
    exact ⟨i, hi, hkey.trans hkey', hch.trans hch', hcon.trans hcon'⟩
  containers c hc hlt :=
    h.containers c (h'.containers c hc (Nat.lt_of_lt_of_le hlt h.created.length_le)) hlt

theorem Consistent.container_eq (h : Consistent s) {c c' : Container} (hc : c ∈ s.created)
    (hc' : c' ∈ s.created) (hid : c.id = c'.id) : c = c' := by
  have heq := h.log c hc
  rw [hid, h.log c' hc'] at heq
  exact (Option.some.inj heq).symm

theorem Consistent.id_lt (h : Consistent s) {c : Container} (hc : c ∈ s.created) :
    c.id < s.created.length := (List.getElem?_eq_some_iff.1 (h.log c hc)).1

/-- The row of a key that was there keeps its challenge and its container. -/
theorem Site.Later.row_eq (h : s.Later s') (hs : Consistent s) {i i' : InstanceRow}
    (hi : i ∈ s.instances) (hi' : i' ∈ s'.instances) (hid : i'.id = i.id) :
    i'.challengeId = i.challengeId ∧ i'.container = i.container := by
  obtain ⟨j, hj, hkey, hch, hcon⟩ := h.rows i' hi' (hid ▸ hs.used i hi)
  rw [Table.eq_of_key hs.keys hj hi (hkey.trans hid)] at hch hcon
  exact ⟨hch.symm, hcon.symm⟩

theorem Site.Started.mono {id instanceId : Nat} {name : String}
    (hst : s.Started id instanceId name) (h : s.Later s') : s'.Started id instanceId name := by
  obtain ⟨c, hc, hfacts⟩ := hst
  exact ⟨c, h.created.subset hc, hfacts⟩

/-! ## What the statements do -/

theorem later_of_same (hcreated : s'.created = s.created) (hused : s'.usedIds = s.usedIds)
    (hrows : ∀ i' ∈ s'.instances, ∃ i ∈ s.instances,
      i.id = i'.id ∧ i.challengeId = i'.challengeId ∧ i.container = i'.container)
    (hcon : s'.containers ⊆ s.containers) : s.Later s' :=
  ⟨hcreated ▸ List.prefix_refl _, hused ▸ List.Subset.refl _, fun i' hi' _ => hrows i' hi',
    fun _ hc _ => hcon hc⟩

theorem later_removeContainers (s : Site P) (target : Target) :
    s.Later (s.removeContainers target) :=
  later_of_same rfl rfl (fun i hi => ⟨i, hi, rfl, rfl, rfl⟩) (List.filter_subset_self _)

theorem Consistent.removeContainers (h : Consistent s) (target : Target) :
    Consistent (s.removeContainers target) where
  keys := h.keys
  names := h.names
  used := h.used
  log := h.log
  alive c hc := h.alive c (List.mem_of_mem_filter hc)
  started := h.started
  completed i hi hdone id hid c hc := h.completed i hi hdone id hid c (List.mem_of_mem_filter hc)

/-- The lists of what ends and goes do not matter. -/
theorem Consistent.daemon (h : Consistent s) (ended going : List Nat) :
    Consistent { s with ended := ended, going := going } :=
  ⟨h.keys, h.names, h.used, h.log, h.alive, h.started, h.completed⟩

theorem later_daemon (s : Site P) (ended going : List Nat) :
    s.Later { s with ended := ended, going := going } :=
  later_of_same rfl rfl (fun i hi => ⟨i, hi, rfl, rfl, rfl⟩) (List.Subset.refl _)

theorem createContainer_inv {spec : ChallengeRuntimeSpec} {name : String} {instanceId id : Nat}
    (h : s.createContainer spec name instanceId = .ok (s', id)) :
    ∃ c : Container, c.id = s.created.length ∧ c.name = name ∧ c.instance = instanceId ∧
      id = c.id ∧
      s' = { s with containers := s.containers ++ [c], created := s.created ++ [c] } := by
  unfold Site.createContainer at h
  split at h
  · cases h
  · cases h
    exact ⟨_, rfl, rfl, rfl, rfl, rfl⟩

theorem Consistent.create (h : Consistent s) {c : Container} (hid : c.id = s.created.length) :
    Consistent { s with containers := s.containers ++ [c], created := s.created ++ [c] } where
  keys := h.keys
  names := h.names
  used := h.used
  log c' hc' := by
    rcases List.mem_append.1 hc' with hc' | hc'
    · rw [List.getElem?_append_left (h.id_lt hc')]
      exact h.log c' hc'
    · rw [List.mem_singleton.1 hc', hid]
      exact List.getElem?_concat_length
  alive c' hc' := by
    rcases List.mem_append.1 hc' with hc' | hc'
    · exact List.mem_append_left _ (h.alive c' hc')
    · exact List.mem_append_right _ hc'
  started i hi id hcon := by
    obtain ⟨c', hc', hfacts⟩ := h.started i hi id hcon
    exact ⟨c', List.mem_append_left _ hc', hfacts⟩
  completed i hi hdone id hcon c' hc' := by
    rcases List.mem_append.1 hc' with hc' | hc'
    · exact h.completed i hi hdone id hcon c' hc'
    · obtain ⟨d, hd, rfl, -⟩ := h.started i hi id hcon
      have hlt := h.id_lt hd
      rw [List.mem_singleton.1 hc', hid]
      omega

theorem later_create (s : Site P) {c : Container} (hid : c.id = s.created.length) :
    s.Later { s with containers := s.containers ++ [c], created := s.created ++ [c] } where
  created := List.prefix_append _ _
  used := List.Subset.refl _
  rows i hi _ := ⟨i, hi, rfl, rfl, rfl⟩
  containers c' hc' hlt := by
    rcases List.mem_append.1 hc' with hc' | hc'
    · exact hc'
    · rw [List.mem_singleton.1 hc', hid] at hlt
      exact absurd hlt (Nat.lt_irrefl _)

theorem later_deleteCompleted (s : Site P) (name : String) : s.Later (s.deleteCompleted name) :=
  later_of_same rfl rfl (fun i hi => ⟨i, List.mem_of_mem_filter hi, rfl, rfl, rfl⟩)
    (List.Subset.refl _)

theorem Consistent.deleteCompleted (h : Consistent s) (name : String) :
    Consistent (s.deleteCompleted name) where
  keys := h.keys.sublist (List.filter_sublist.map _)
  names := h.names.sublist (List.filter_sublist.map _)
  used i hi := h.used i (List.mem_of_mem_filter hi)
  log := h.log
  alive := h.alive
  started i hi := h.started i (List.mem_of_mem_filter hi)
  completed i hi := h.completed i (List.mem_of_mem_filter hi)

theorem insertInstance_inv {row : InstanceRow} (h : s.insertInstance row = .ok s') :
    row.id ∉ s.usedIds ∧ (∀ i ∈ s.instances, i.containerName ≠ row.containerName) ∧
      s' = { s with instances := s.instances ++ [row], usedIds := s.usedIds ++ [row.id] } := by
  unfold Site.insertInstance at h
  split at h
  · cases h
  · next hused =>
    split at h
    · cases h
    · next hname =>
      cases h
      exact ⟨hused, by simpa using hname, rfl⟩

theorem Consistent.insert (h : Consistent s) {row : InstanceRow} (hused : row.id ∉ s.usedIds)
    (hname : ∀ i ∈ s.instances, i.containerName ≠ row.containerName)
    (hrun : row.runtimeState = .running)
    (hcon : ∀ id, row.container = some id → s.Started id row.id row.containerName) :
    Consistent { s with instances := s.instances ++ [row], usedIds := s.usedIds ++ [row.id] } where
  keys := Table.keyed_append h.keys fun i hi heq => hused (heq ▸ h.used i hi)
  names := Table.keyed_append h.names hname
  used i hi := by
    rcases List.mem_append.1 hi with hi | hi
    · exact List.mem_append_left _ (h.used i hi)
    · rw [List.mem_singleton.1 hi]
      exact List.mem_append_right _ List.mem_cons_self
  log := h.log
  alive := h.alive
  started i hi := by
    rcases List.mem_append.1 hi with hi | hi
    · exact h.started i hi
    · rw [List.mem_singleton.1 hi]
      exact hcon
  completed i hi hdone := by
    rcases List.mem_append.1 hi with hi | hi
    · exact h.completed i hi hdone
    · rw [List.mem_singleton.1 hi, hrun] at hdone
      cases hdone

theorem later_insert {row : InstanceRow} (hused : row.id ∉ s.usedIds) :
    s.Later { s with instances := s.instances ++ [row], usedIds := s.usedIds ++ [row.id] } where
  created := List.prefix_refl _
  used := List.subset_append_left _ _
  rows i hi hid := by
    rcases List.mem_append.1 hi with hi | hi
    · exact ⟨i, hi, rfl, rfl, rfl⟩
    · rw [List.mem_singleton.1 hi] at hid
      exact absurd hid hused
  containers _ hc _ := hc

theorem transition_inv {id : Nat} {expected next : RuntimeState}
    (h : s.transition id expected next = .ok s') :
    s' = { s with instances := s.instances.map fun i =>
        if i.id = id ∧ i.runtimeState = expected then
          { i with runtimeState := next, updatedAt := s.now }
        else i } := by
  unfold Site.transition at h
  split at h
  · cases h
    rfl
  · cases h

/-- The rows after a transition. -/
theorem mem_transition {id : Nat} {expected next : RuntimeState}
    (h : s.transition id expected next = .ok s') {i' : InstanceRow} (hi' : i' ∈ s'.instances) :
    ∃ i ∈ s.instances, i.id = i'.id ∧ i.challengeId = i'.challengeId ∧
      i.container = i'.container ∧ i.containerName = i'.containerName ∧
      (i'.runtimeState = i.runtimeState ∨ i.id = id ∧ i'.runtimeState = next) := by
  rw [transition_inv h] at hi'
  obtain ⟨i, hi, rfl⟩ := List.mem_map.1 hi'
  refine ⟨i, hi, ?_⟩
  split
  · next hcond => exact ⟨rfl, rfl, rfl, rfl, .inr ⟨hcond.1, rfl⟩⟩
  · exact ⟨rfl, rfl, rfl, rfl, .inl rfl⟩

theorem later_transition {id : Nat} {expected next : RuntimeState}
    (h : s.transition id expected next = .ok s') : s.Later s' := by
  refine later_of_same ?_ ?_ (fun i' hi' => ?_) ?_
  · rw [transition_inv h]
  · rw [transition_inv h]
  · obtain ⟨i, hi, hkey, hch, hcon, -⟩ := mem_transition h hi'
    exact ⟨i, hi, hkey, hch, hcon⟩
  · rw [transition_inv h]
    exact List.Subset.refl _

/-- A transition to a state other than completed, or of an instance whose container is gone. -/
theorem Consistent.transition (hs : Consistent s) {id : Nat} {expected next : RuntimeState}
    (h : s.transition id expected next = .ok s')
    (hgone : next = .completed → ∀ i ∈ s.instances, i.id = id → ∀ cid, i.container = some cid →
      ∀ c ∈ s.containers, c.id ≠ cid) : Consistent s' := by
  have heq := transition_inv h
  refine ⟨?_, ?_, fun i' hi' => ?_, ?_, ?_, fun i' hi' cid hcid => ?_, fun i' hi' hdone cid hcid => ?_⟩
  · rw [heq]
    exact Table.keyed_map (fun i => by split <;> rfl) hs.keys
  · rw [heq]
    exact Table.keyed_map (fun i => by split <;> rfl) hs.names
  · obtain ⟨i, hi, hkey, -⟩ := mem_transition h hi'
    have hused : s'.usedIds = s.usedIds := by rw [heq]
    exact hused ▸ hkey ▸ hs.used i hi
  · rw [heq]
    exact hs.log
  · rw [heq]
    exact hs.alive
  · obtain ⟨i, hi, hkey, -, hcon, hname, -⟩ := mem_transition h hi'
    have hcreated : s'.created = s.created := by rw [heq]
    rw [Site.Started, hcreated, ← hname, ← hkey]
    exact hs.started i hi cid (hcon.trans hcid)
  · obtain ⟨i, hi, hkey, -, hcon, -, hstate⟩ := mem_transition h hi'
    have hcontainers : s'.containers = s.containers := by rw [heq]
    rw [hcontainers]
    rcases hstate with hstate | ⟨hid, hnext⟩
    · exact hs.completed i hi (hstate.symm.trans hdone) cid (hcon.trans hcid)
    · exact hgone (hnext.symm.trans hdone) i hi hid cid (hcon.trans hcid)

theorem consistent_act (a : SiteEvent) (h : Consistent s) :
    s.Later (a.act s) ∧ Consistent (a.act s) := by
  cases a with
  | passes seconds =>
    exact ⟨later_of_same rfl rfl (fun i hi => ⟨i, hi, rfl, rfl, rfl⟩) (List.Subset.refl _),
      ⟨h.keys, h.names, h.used, h.log, h.alive, h.started, h.completed⟩⟩
  | imported challenge =>
    exact ⟨later_of_same rfl rfl (fun i hi => ⟨i, hi, rfl, rfl, rfl⟩) (List.Subset.refl _),
      ⟨h.keys, h.names, h.used, h.log, h.alive, h.started, h.completed⟩⟩
  | exits id => exact ⟨later_daemon s _ _, h.daemon _ _⟩
  | autoRemoves id =>
    rw [SiteEvent.act]
    split
    · exact ⟨later_daemon s _ _, h.daemon _ _⟩
    · exact ⟨.refl s, h⟩
  | gone id =>
    rw [SiteEvent.act]
    split
    · exact ⟨later_removeContainers s _, h.removeContainers _⟩
    · exact ⟨.refl s, h⟩

/-! ## The law -/

/-- The instance that is destroyed still holds the name, or the container under the name is its
own. -/
def Site.Careful (s : Site P) (instanceId : Nat) (name : String) : Prop :=
  (∃ i ∈ s.instances, i.id = instanceId ∧ i.containerName = name ∧ i.runtimeState ≠ .completed) ∨
  ∀ c ∈ s.containers, c.name = name → c.instance = instanceId

instance (s : Site P) (instanceId : Nat) (name : String) : Decidable (s.Careful instanceId name) :=
  inferInstanceAs (Decidable (_ ∨ _))

/-- The challenge of an instance with a container still has a port. -/
def Site.PortKept (s : Site P) (instanceId : Nat) : Prop :=
  ∀ i ∈ s.instances, i.id = instanceId → i.container.isSome = true →
    ∀ c ∈ s.challenges, c.id = i.challengeId → c.containerPort.isSome = true

instance (s : Site P) (instanceId : Nat) : Decidable (s.PortKept instanceId) :=
  inferInstanceAs (Decidable (∀ i ∈ s.instances, _))

/-- The reconciliation looks only at instances that were started with a container. -/
def Site.OldHaveContainers (s : Site P) (minAge : Int) : Prop :=
  ∀ i ∈ s.runningOlderThan minAge, i.container.isSome = true

instance (s : Site P) (minAge : Int) : Decidable (s.OldHaveContainers minAge) :=
  inferInstanceAs (Decidable (∀ i ∈ s.runningOlderThan minAge, _))

/-- Where a statement keeps clear of the defects. -/
def LifecycleCond (_ : SiteJob) (l : Stmt) (v : Site P × LifecycleReport) : Prop :=
  match l with
  | .stop id (.name name) => v.1.Careful id name
  | .remove id (.name name) => v.1.Careful id name ∧ v.1.isGoing (.name name) = false
  | .findChallenge id => v.1.PortKept id
  | .listOld minAge => v.1.OldHaveContainers minAge
  | _ => True

/-- The law of the jobs: the site stays consistent and the report empty. -/
def lifecycleLaw : Law (sites (P := P)) where
  rely v v' := v.1.Later v'.1
  guar _ v v' := v.1.Later v'.1
  inv v := Consistent v.1 ∧ v.2.harmed = [] ∧ v.2.misjudged = []
  cond := LifecycleCond
  refl v := .refl v.1
  trans := .trans
  guar_refl _ v := .refl v.1
  rely_of_guar := id

/-! ## Commands for containers -/

theorem victims_of_careful (hs : Consistent s) {instanceId : Nat} {name : String}
    (hc : s.Careful instanceId name) : s.victims instanceId (.name name) = [] := by
  refine List.map_eq_nil_iff.2 (List.filter_eq_nil_iff.2 fun i hi hvictim => ?_)
  simp only [Bool.and_eq_true, decide_eq_true_eq, List.any_eq_true, Target.hits] at hvictim
  obtain ⟨⟨-, hne⟩, c, hcmem, hcname, hcon⟩ := hvictim
  obtain ⟨d, hd, hdid, hdname, hdinst⟩ := hs.started i hi c.id hcon
  obtain rfl : d = c := hs.container_eq hd (hs.alive c hcmem) hdid
  rcases hc with ⟨i', hi', hid', hname', -⟩ | hown
  · have heq : i' = i := Table.eq_of_key hs.names hi' hi (by rw [hname', ← hcname, hdname])
    exact hne (heq ▸ hid')
  · exact hne (hdinst.symm.trans (hown d hcmem hcname))

theorem victims_of_started (hs : Consistent s) {id instanceId : Nat} {name : String}
    (hst : s.Started id instanceId name) : s.victims instanceId (.id id) = [] := by
  obtain ⟨c, hc, hcid, -, hcinst⟩ := hst
  refine List.map_eq_nil_iff.2 (List.filter_eq_nil_iff.2 fun i hi hvictim => ?_)
  simp only [Bool.and_eq_true, decide_eq_true_eq, List.any_eq_true, Target.hits] at hvictim
  obtain ⟨⟨-, hne⟩, d, -, hdid, hcon⟩ := hvictim
  obtain ⟨e, he, heid, -, heinst⟩ := hs.started i hi d.id hcon
  obtain rfl : e = c := hs.container_eq he hc (heid.trans (hdid.trans hcid.symm))
  exact hne (heinst.symm.trans hcinst)

section Programs

variable {α : Type} {j : SiteJob} {v : Site P × LifecycleReport}

/-- The command may be given: it takes no container of another running instance. -/
def Harmless (v : Site P × LifecycleReport) (instanceId : Nat) (target : Target) : Prop :=
  ∀ v' : Site P × LifecycleReport, v.1.Later v'.1 → Consistent v'.1 →
    LifecycleCond j (.stop instanceId target) v' → v'.1.victims instanceId target = []

theorem harmless_name (v : Site P × LifecycleReport) (instanceId : Nat) (name : String) :
    Harmless (j := j) v instanceId (.name name) := fun _ _ hs hc => victims_of_careful hs hc

theorem harmless_id {id instanceId : Nat} {name : String}
    (h : v.1.Started id instanceId name) : Harmless (j := j) v instanceId (.id id) :=
  fun _ hv hs _ => victims_of_started hs (h.mono hv)

theorem Harmless.mono {instanceId : Nat} {target : Target}
    (h : Harmless (j := j) v instanceId target) {v' : Site P × LifecycleReport}
    (hv : v.1.Later v'.1) : Harmless (j := j) v' instanceId target :=
  fun v'' hv' => h v'' (hv.trans hv')

theorem watch_harmless (s : Site P) (g : LifecycleReport) {instanceId : Nat} {target : Target}
    (h : s.victims instanceId target = []) :
    watchSite s g (.stop instanceId target) = g ∧ watchSite s g (.remove instanceId target) = g := by
  simp [watchSite, h]

theorem safe_stopContainer {instanceId : Nat} {target : Target}
    (h : Harmless (j := j) v instanceId target) :
    lifecycleLaw.Safe j (fun _ _ => True) (stopContainer instanceId target) v := by
  refine Law.safe_exec_seen fun v' hv hi hc => ?_
  have hwatch := (watch_harmless v'.1 v'.2 (h v' hv hi.1 hc)).1
  simp only [System.after, sites, hwatch, Prog.after]
  split
  · next hok =>
    obtain ⟨ended, rfl⟩ := stopContainers_inv hok
    exact ⟨later_daemon _ _ _, ⟨hi.1.daemon _ _, hi.2⟩, fun _ _ _ => trivial⟩
  · exact ⟨.refl _, hi, fun _ _ _ => trivial⟩

/-- A removal by name does not meet a container that is going. -/
def Unnamed (target : Target) (s : Site P) : Prop :=
  ∀ name, target = .name name → ∀ c ∈ s.containers, target.hits c = false

theorem safe_removeContainer {instanceId : Nat} {target : Target}
    (h : Harmless (j := j) v instanceId target) :
    lifecycleLaw.Safe j (fun _ v' => Consistent v'.1 ∧ Unnamed target v'.1)
      (removeContainer instanceId target) v := by
  refine Law.safe_exec_seen fun v' hv hi hc => ?_
  have hcond : LifecycleCond j (.stop instanceId target) v' := by
    cases target with
    | name n => exact hc.1
    | id n => trivial
  have hwatch := (watch_harmless v'.1 v'.2 (h v' hv hi.1 hcond)).2
  simp only [System.after, sites, hwatch, Prog.after]
  obtain ⟨hgoing, heq⟩ | ⟨-, heq⟩ := removeOrWait_cases v'.1 target <;> rw [heq]
  · refine ⟨.refl _, hi, fun _ _ _ => ⟨hi.1, ?_⟩⟩
    rintro name rfl
    cases hgoing.symm.trans hc.2
  · refine ⟨later_removeContainers _ _, ⟨hi.1.removeContainers _, hi.2⟩, fun _ _ _ => ?_⟩
    refine ⟨hi.1.removeContainers _, fun _ _ c hcmem => ?_⟩
    simpa using (List.mem_filter.1 hcmem).2

theorem safe_stopAndRemove {instanceId : Nat} {target : Target}
    (h : Harmless (j := j) v instanceId target) :
    lifecycleLaw.Safe j (fun _ v' => Consistent v'.1 ∧ Unnamed target v'.1)
      (stopAndRemove instanceId target) v :=
  Law.safe_seq (Law.safe_tried (safe_stopContainer h)) fun _ _ hv => safe_removeContainer (h.mono hv)

/-! ## Launch -/

/-- Neither the observer nor the conditions look at the statement. -/
def Stmt.quiet : Stmt → Bool
  | gate | countRunning _ _ | findRunning _ _ | prepare _ | start _ | inspect _ | findInstance
  | listCandidates | containerExists _ | reply _ _ => true
  | _ => false

/-- A statement that reads, or makes room for a new row. -/
def Mild (l : Stmt) (s s' : Site P) : Prop :=
  l.quiet = true ∧ (s' = s ∨ ∃ name, s' = s.deleteCompleted name)

theorem safe_of_mild {p : SiteM P α} (hp : p.Does Mild) :
    lifecycleLaw.Safe j (fun _ _ => True) p v := by
  refine Law.safe_of_does hp fun l s s' g hi _ ht => ?_
  have hwatch : watchSite s g l = g := by
    obtain ⟨hq, -⟩ := ht
    cases l <;> first | rfl | cases hq
  simp only [sites, hwatch]
  rcases ht.2 with rfl | ⟨name, rfl⟩
  · exact ⟨.refl _, hi⟩
  · exact ⟨later_deleteCompleted _ _, hi.1.deleteCompleted name, hi.2⟩

theorem safe_of_reads {l₀ : Stmt} (hl : l₀.quiet = true) {p : SiteM P α}
    (hp : p.Does (Reads l₀)) : lifecycleLaw.Safe j (fun _ _ => True) p v :=
  safe_of_mild (hp.mono fun _ _ _ h => ⟨h.1 ▸ hl, .inl h.2⟩)

theorem safe_launchContainer (p : Participant) (instanceId : Nat) (name : String)
    (spec : ChallengeRuntimeSpec) :
    lifecycleLaw.Safe j (fun r v' => v'.1.Started r.1 instanceId name)
      (launchContainer p instanceId name spec) v := by
  refine Law.safe_seq (safe_of_reads rfl (reads_query _ _ _)) fun _ v₁ _ => ?_
  refine Law.safe_bind (Law.safe_exec (fun _ _ => rfl) fun v₂ _ hi _ s id hcreate => ?_)
  obtain ⟨c, hcid, hcname, hcinst, rfl, rfl⟩ := createContainer_inv hcreate
  refine ⟨later_create _ hcid, ⟨hi.1.create hcid, hi.2⟩, ?_⟩
  have hst : Site.Started { v₂.1 with
      containers := v₂.1.containers ++ [c], created := v₂.1.created ++ [c] } c.id instanceId name :=
    ⟨c, List.mem_append_right _ List.mem_cons_self, rfl, hcname, hcinst⟩
  refine Law.safe_seq (safe_of_reads rfl (reads_query _ _ _)) fun _ v₃ hv₃ => ?_
  refine Law.safe_seq (safe_of_reads rfl (Prog.does_attempt (reads_inspectPort p _ _))) fun r v₄ hv₄ => ?_
  have hst' : v₄.1.Started c.id instanceId name := hst.mono (hv₃.trans hv₄)
  cases r with
  | ok port => exact hst'
  | error e =>
    exact Law.safe_seq (Law.safe_tried ((safe_stopAndRemove (harmless_id hst')).imp
      fun _ _ _ => trivial)) fun _ _ _ => trivial

theorem safe_compensate (row : InstanceRow) :
    lifecycleLaw.Safe j (fun _ _ => True) (compensate row) v := by
  unfold compensate
  split
  · exact Law.safe_seq (Law.safe_tried ((safe_stopAndRemove (harmless_name v _ _)).imp
      fun _ _ _ => trivial)) fun _ _ _ => trivial
  · trivial

theorem safe_persistInstance (p : Participant) {row : InstanceRow}
    (hrun : row.runtimeState = .running)
    (hcon : ∀ id, row.container = some id → v.1.Started id row.id row.containerName) :
    lifecycleLaw.Safe j (fun _ _ => True) (persistInstance p row) v := by
  refine Law.safe_seq (Law.safe_tried (Law.safe_exec (fun _ _ => rfl)
    fun v₁ hv₁ hi _ s a hinsert => ?_)) fun r v₁ _ => ?_
  · obtain ⟨s', hs', hok⟩ := except_bind_ok hinsert
    cases hok
    obtain ⟨hused, hname, rfl⟩ := insertInstance_inv hs'
    exact ⟨later_insert hused, ⟨hi.1.insert hused hname hrun fun id hid => (hcon id hid).mono hv₁,
      hi.2⟩, trivial⟩
  · cases r with
    | ok a => trivial
    | error e => exact Law.safe_seq (safe_compensate row) fun _ _ _ => trivial

theorem safe_launch (p : Participant) (event : EventRow) (req : LaunchRequest)
    (identifier : String) :
    lifecycleLaw.Safe j (fun _ _ => True) (launch p event req identifier) v := by
  have hdelete : (Prog.exec (.prepare p) dbError fun s : Site P =>
      .ok (s.deleteCompleted identifier, ())).Does Mild :=
    Prog.does_exec_after fun s => ⟨rfl, .inr ⟨identifier, rfl⟩⟩
  refine Law.safe_seq (safe_of_mild hdelete) fun _ _ _ => ?_
  refine Law.safe_seq (safe_of_reads rfl (reads_query _ _ _)) fun _ _ _ => ?_
  refine Law.safe_seq (safe_of_mild (does_orFail _ _)) fun challenge _ _ => ?_
  refine Law.safe_ite (fun _ => trivial) fun _ => ?_
  refine Law.safe_seq (safe_of_reads rfl (reads_launchFlag p event req challenge)) fun flag _ _ => ?_
  refine Law.safe_seq (safe_of_mild (does_ofExcept _)) fun spec _ _ => ?_
  refine Law.safe_seq (safe_of_reads rfl (reads_getSetting p _)) fun _ _ _ => ?_
  refine Law.safe_seq (safe_of_reads rfl (reads_getSetting p _)) fun _ _ _ => ?_
  refine Law.safe_seq (safe_of_reads rfl (reads_getSetting p _)) fun _ _ _ => ?_
  refine Law.safe_seq (safe_of_mild (does_ofExcept _)) fun _ _ _ => ?_
  refine Law.safe_seq (safe_of_reads rfl (reads_query _ _ _)) fun _ _ _ => ?_
  refine Law.safe_ite (fun _ => trivial) fun _ => ?_
  refine Law.safe_seq (safe_of_reads rfl (reads_look _ _)) fun _ _ _ => ?_
  cases spec with
  | none => exact safe_persistInstance p rfl fun id hid => nomatch hid
  | some spec =>
    refine Law.safe_bind ((safe_launchContainer p _ _ spec).imp fun r v' hst => ?_)
    refine safe_persistInstance p rfl fun id hid => ?_
    obtain rfl : r.1 = id := Option.some.inj hid
    exact hst

theorem safe_reuseOrLaunch (p : Participant) (event : EventRow) (req : LaunchRequest) :
    lifecycleLaw.Safe j (fun _ _ => True) (reuseOrLaunch p event req) v := by
  refine Law.safe_seq (safe_of_reads rfl (reads_query _ _ _)) fun found _ _ => ?_
  cases found with
  | some row => trivial
  | none => exact safe_launch p event req _

theorem safe_launchInstance (event : EventRow) (req : LaunchRequest) :
    lifecycleLaw.Safe j (fun _ _ => True) (launchInstance event req) v := by
  refine Law.safe_seq (safe_of_mild (Prog.does_ite trivial trivial)) fun _ _ _ => ?_
  refine Law.safe_seq (safe_of_mild (Prog.does_ite trivial trivial)) fun _ _ _ => ?_
  refine Law.safe_seq (safe_of_reads rfl (reads_requireAccess _ _)) fun _ _ _ => ?_
  refine Law.safe_seq (safe_of_reads rfl (reads_resolveParticipant _ _)) fun participant _ _ => ?_
  refine Law.safe_seq (safe_of_reads rfl (reads_requireEventChallenge _ _)) fun _ _ _ => ?_
  refine Law.safe_seq (safe_of_reads rfl (reads_query _ _ _)) fun _ _ _ => ?_
  exact Law.safe_ite (fun _ => trivial) fun _ => safe_reuseOrLaunch _ event req

theorem safe_launchRequested (req : LaunchRequest) :
    lifecycleLaw.Safe j (fun _ _ => True) (launchRequested req) v :=
  Law.safe_seq (safe_of_reads rfl (reads_loadEvent _)) fun event _ _ => safe_launchInstance event req

/-! ## Destruction -/

/-- What a program knows of a row that it has read: the key keeps its challenge and its container. -/
structure Site.Knows (s : Site P) (row : InstanceRow) : Prop where
  used : row.id ∈ s.usedIds
  same : ∀ i ∈ s.instances, i.id = row.id →
    i.challengeId = row.challengeId ∧ i.container = row.container
  started : ∀ id, row.container = some id → s.Started id row.id row.containerName
  old : ∀ id, row.container = some id → id < s.created.length

theorem Consistent.knows (hs : Consistent s) {row : InstanceRow} (h : row ∈ s.instances) :
    s.Knows row := by
  refine ⟨hs.used row h, fun _ hi hid => (Site.Later.refl s).row_eq hs h hi hid, hs.started row h,
    fun id hid => ?_⟩
  obtain ⟨c, hc, rfl, -⟩ := hs.started row h id hid
  exact hs.id_lt hc

theorem Site.Knows.mono {row : InstanceRow} (h : s.Knows row) (hl : s.Later s') : s'.Knows row := by
  refine ⟨hl.used h.used, fun i' hi' hid => ?_, fun id hid => (h.started id hid).mono hl,
    fun id hid => Nat.lt_of_lt_of_le (h.old id hid) hl.created.length_le⟩
  obtain ⟨i, hi, hkey, hch, hcon⟩ := hl.rows i' hi' (hid ▸ h.used)
  obtain ⟨hch', hcon'⟩ := h.same i hi (hkey.trans hid)
  exact ⟨hch.symm.trans hch', hcon.symm.trans hcon'⟩

/-- The container of the row is gone, if the row is still there. -/
def Site.Gone (s : Site P) (row : InstanceRow) : Prop :=
  ∀ i ∈ s.instances, i.id = row.id → ∀ id, i.container = some id → ∀ c ∈ s.containers, c.id ≠ id

theorem Site.Gone.mono {row : InstanceRow} (h : s.Gone row) (hk : s.Knows row)
    (hl : s.Later s') : s'.Gone row := by
  intro i' hi' hid id hcon' c hc hcid
  obtain ⟨i, hi, hkey, -, hcon⟩ := hl.rows i' hi' (hid ▸ hk.used)
  have hcon : i.container = some id := hcon.trans hcon'
  have hlt : c.id < s.created.length :=
    hcid ▸ hk.old id ((hk.same i hi (hkey.trans hid)).2.symm.trans hcon)
  exact h i hi (hkey.trans hid) id hcon c (hl.containers c hc hlt) hcid

/-- No container has the name of the row. -/
theorem gone_of_unnamed {row : InstanceRow} (hk : s.Knows row) (hs : Consistent s)
    (h : ∀ c ∈ s.containers, (Target.name row.containerName).hits c = false) : s.Gone row := by
  intro i hi hid id hcon c hc hcid
  obtain ⟨d, hd, hdid, hdname, -⟩ := hk.started id ((hk.same i hi hid).2.symm.trans hcon)
  obtain rfl : c = d := hs.container_eq (hs.alive c hc) hd (hcid.trans hdid.symm)
  simpa [Target.hits, hdname] using h c hc

theorem safe_removeRuntimeIfNeeded {row : InstanceRow} (hk : v.1.Knows row) :
    lifecycleLaw.Safe j (fun _ v' => v'.1.Knows row ∧ v'.1.Gone row)
      (removeRuntimeIfNeeded row) v := by
  refine Law.safe_bind (Law.safe_query (fun _ _ => rfl) fun v₁ hv₁ _ hc => ?_)
  have hk₁ : v₁.1.Knows row := hk.mono hv₁
  cases hfind : v₁.1.challenges.find? (·.id = row.challengeId) with
  | none => trivial
  | some challenge =>
    obtain ⟨hmem, hid⟩ := Table.mem_of_find hfind
    refine Law.safe_ite (fun _ => ?_) fun hport => ?_
    · refine (safe_stopAndRemove (harmless_name v₁ _ _)).and_rely.imp fun _ v₂ h₂ => ?_
      have hk₂ : v₂.1.Knows row := hk₁.mono h₂.2
      exact ⟨hk₂, gone_of_unnamed hk₂ h₂.1.1 (h₂.1.2 _ rfl)⟩
    · refine ⟨hk₁, fun i hi hkey id hcon => absurd ?_ hport⟩
      have hch : i.challengeId = row.challengeId := (hk₁.same i hi hkey).1
      exact hc i hi hkey (hcon ▸ rfl) challenge hmem (hid.trans hch.symm)

/-- A transition of a row that is known; to completed only when its container is gone. -/
theorem safe_transition {row : InstanceRow} {cause : Cause} {expected next : RuntimeState}
    (hk : v.1.Knows row) (hgone : next = .completed → v.1.Gone row)
    (hcause : cause = .missing → row.container.isSome = true) :
    lifecycleLaw.Safe j (fun _ _ => True)
      (transitionRuntimeState cause row.id expected next) v := by
  refine Law.safe_exec_seen fun v' hv hi _ => ?_
  have hk' : v'.1.Knows row := hk.mono hv
  have hbare : cause = .missing → v'.1.bare row.id = [] := fun hc => by
    refine List.map_eq_nil_iff.2 (List.filter_eq_nil_iff.2 fun i hi hb => ?_)
    simp only [Bool.and_eq_true, decide_eq_true_eq] at hb
    have hsome := hcause hc
    rw [← (hk'.same i hi hb.1.1).2, hb.2] at hsome
    cases hsome
  have hwatch : watchSite v'.1 v'.2 (.transition cause row.id expected next) = v'.2 := by
    cases cause with
    | missing => simp [watchSite, hbare rfl]
    | destroyed => rfl
    | cleanupFailed => rfl
  simp only [System.after, sites, hwatch, Prog.after]
  split
  · next s' _ hok =>
    obtain ⟨s'', htr, hs''⟩ := except_bind_ok hok
    cases hs''
    refine ⟨later_transition htr, ⟨hi.1.transition htr fun hnext i hi hid => ?_, hi.2⟩,
      fun _ _ _ => trivial⟩
    exact (hgone hnext).mono hk hv i hi hid
  · exact ⟨.refl _, hi, fun _ _ _ => trivial⟩

theorem safe_markCleanupFailed {row : InstanceRow} (hk : v.1.Knows row) :
    lifecycleLaw.Safe j (fun _ _ => True) (markCleanupFailed row) v := by
  unfold markCleanupFailed
  split
  · exact Law.safe_seq (Law.safe_tried (safe_transition hk nofun nofun)) fun _ _ _ => trivial
  · trivial

theorem safe_destroyModel {row : InstanceRow} (hk : v.1.Knows row) :
    lifecycleLaw.Safe j (fun _ _ => True) (destroyModel row) v := by
  have htried : lifecycleLaw.Safe j (fun r v' => v'.1.Knows row ∧ (r = .ok () → v'.1.Gone row))
      (removeRuntimeIfNeeded row).attempt v :=
    Law.safe_attempt ((safe_removeRuntimeIfNeeded hk).imp fun _ _ h => ⟨h.1, fun _ => h.2⟩)
      fun e v' hv => ⟨hk.mono hv, nofun⟩
  refine Law.safe_bind (htried.imp fun r v' h => ?_)
  cases r with
  | ok a => exact safe_transition h.1 (fun _ => h.2 rfl) nofun
  | error e => exact Law.safe_seq (safe_markCleanupFailed h.1) fun _ _ _ => trivial

theorem safe_destroyFound {found : Option InstanceRow} (hk : ∀ row ∈ found, v.1.Knows row) :
    lifecycleLaw.Safe j (fun _ _ => True) (destroyFound found) v := by
  cases found with
  | none => trivial
  | some row => exact Law.safe_seq (safe_destroyModel (hk row rfl)) fun _ _ _ => trivial

theorem safe_destroyOwned (id userId : Nat) :
    lifecycleLaw.Safe j (fun _ _ => True) (destroyOwned id userId) v := by
  refine Law.safe_bind (Law.safe_query (fun _ _ => rfl) fun v' _ hi _ => ?_)
  refine safe_destroyFound fun row hrow => hi.1.knows ?_
  exact List.mem_of_find?_eq_some (Option.filter_eq_some_iff.1 hrow).1

theorem safe_destroyTeamOwned (id eventId teamId : Nat) :
    lifecycleLaw.Safe j (fun _ _ => True) (destroyTeamOwned id eventId teamId) v := by
  refine Law.safe_bind (Law.safe_query (fun _ _ => rfl) fun v' _ hi _ => ?_)
  refine safe_destroyFound fun row hrow => hi.1.knows ?_
  exact List.mem_of_find?_eq_some (Option.filter_eq_some_iff.1 hrow).1

/-! ## Cleanup and reconciliation -/

/-- A program is run for each of the rows that were read, one after the other. -/
theorem safe_eachRow {rows : List InstanceRow} {f : InstanceRow → SiteM P Unit}
    (hf : ∀ row ∈ rows, ∀ v : Site P × LifecycleReport, v.1.Knows row →
      lifecycleLaw.Safe j (fun _ _ => True) (f row) v)
    (hk : ∀ row ∈ rows, v.1.Knows row) :
    lifecycleLaw.Safe j (fun _ _ => True) (Prog.each rows f) v := by
  refine (Law.safe_each (P := fun v => ∀ row ∈ rows, v.1.Knows row) (fun row hrow v hv => ?_)
    hk).imp fun _ _ _ => trivial
  refine (hf row hrow v (hv row hrow)).and_rely.imp fun _ v' h row' hrow' => ?_
  exact (hv row' hrow').mono h.2

theorem safe_cleanupRunning :
    lifecycleLaw.Safe j (fun _ _ => True) (cleanupRunning : SiteM P Unit) v := by
  refine Law.safe_bind (Law.safe_query (fun _ _ => rfl) fun v' _ hi _ => ?_)
  refine safe_eachRow (fun row _ v hk => ?_) fun row hrow => hi.1.knows (List.mem_of_mem_filter hrow)
  exact Law.safe_seq (Law.safe_tried (safe_destroyModel hk)) fun _ _ _ => trivial

theorem safe_reconcileInstance {row : InstanceRow} (hk : v.1.Knows row)
    (hcon : row.container.isSome = true) :
    lifecycleLaw.Safe j (fun _ _ => True) (reconcileInstance row : SiteM P Unit) v := by
  refine Law.safe_seq (safe_of_reads rfl (Prog.does_attempt (reads_query _ _ _))) fun r v' hv => ?_
  match r with
  | .ok true => trivial
  | .ok false => exact safe_transition (hk.mono hv) nofun fun _ => hcon
  | .error e => trivial

theorem safe_reconcileMissingContainers (minAge : Int) :
    lifecycleLaw.Safe j (fun _ _ => True) (reconcileMissingContainers minAge : SiteM P Unit) v := by
  refine Law.safe_bind (Law.safe_query (fun _ _ => rfl) fun v' _ hi hc => ?_)
  exact safe_eachRow (fun row hrow v hk => safe_reconcileInstance hk (hc row hrow))
    fun row hrow => hi.1.knows (List.mem_of_mem_filter hrow)

end Programs

theorem lifecycleLaw_keeps : (lifecycleLaw (P := P)).Keeps where
  prog j v _ := by
    cases j with
    | launch req =>
      exact Law.safe_seq (Law.safe_tried (safe_launchRequested req)) fun _ _ _ =>
        safe_of_reads rfl (reads_look _ _)
    | destroyOwned id userId => exact Law.safe_seq (safe_destroyOwned id userId) fun _ _ _ => trivial
    | destroyTeamOwned id eventId teamId =>
      exact Law.safe_seq (safe_destroyTeamOwned id eventId teamId) fun _ _ _ => trivial
    | cleanupRunning => exact safe_cleanupRunning
    | reconcile minAge => exact safe_reconcileMissingContainers minAge
  env e v hi := by
    obtain ⟨hl, hs⟩ := consistent_act e hi.1
    exact ⟨hl, hs, hi.2⟩

/-! ## Runs -/

/-- A site before any job. -/
def SitePool.initial (s : Site P) : Pool Stmt (Site P) String LifecycleReport SiteJob :=
  ⟨s, ⟨[], []⟩, []⟩

/-- In every run that meets the conditions no command takes the container of another running
instance, no completed instance has its container left, and the reconciliation fails only instances
that were started with a container. -/
theorem lifecycle_run {s : Site P} (h : Consistent s) {acts : List (Act SiteJob SiteEvent)}
    (ha : Along sites.step (Meets LifecycleCond) (SitePool.initial s) acts) :
    let w := acts.foldl sites.step (SitePool.initial s)
    w.ghost.harmed = [] ∧
    (∀ i ∈ w.state.instances, i.runtimeState = .completed → ∀ id, i.container = some id →
      ∀ c ∈ w.state.containers, c.id ≠ id) ∧
    w.ghost.misjudged = [] := by
  have hstart : lifecycleLaw.PoolOk (SitePool.initial s) :=
    ⟨⟨h, rfl, rfl⟩, fun _ ht => absurd ht List.not_mem_nil⟩
  have hinv := (Law.poolOk_run lifecycleLaw_keeps hstart ha).1.inv
  exact ⟨hinv.2.1, hinv.1.completed, hinv.2.2⟩

instance (j : SiteJob) (l : Stmt) (v : Site P × LifecycleReport) :
    Decidable (LifecycleCond j l v) :=
  match l with
  | .stop id (.name name) => inferInstanceAs (Decidable (v.1.Careful id name))
  | .remove id (.name name) =>
    inferInstanceAs (Decidable (v.1.Careful id name ∧ v.1.isGoing (.name name) = false))
  | .findChallenge id => inferInstanceAs (Decidable (v.1.PortKept id))
  | .listOld minAge => inferInstanceAs (Decidable (v.1.OldHaveContainers minAge))
  | .stop _ (.id _) | .remove _ (.id _) | .gate | .countRunning _ _ | .findRunning _ _ | .prepare _
  | .create _ _ _ | .start _ | .inspect _ | .persist _ _ | .findInstance | .transition _ _ _ _
  | .listCandidates | .containerExists _ | .reply _ _ => inferInstanceAs (Decidable True)

/-- An event of single players without an end. -/
def demoEvent : EventRow where
  id := 0
  family := .jeopardy
  purpose := .competition
  participantMode := .individual
  systemKey := none
  startTime := 0
  endTime := none
  title := "demo"
  hidden := false
  flagPrefix := some "flag"

/-- A challenge with a flag of its own for every player. -/
def demoChallenge (containerPort : Option Nat) : ChallengeRow where
  id := 7
  name := "web"
  category := "web"
  hidden := false
  buildStatus := some "ready"
  flagType := some "dynamic"
  staticFlagValue := none
  containerPort := containerPort
  imageRepoDigest := none
  imageId := some "sha256:0"

/-- An event with one player and one challenge. -/
def demoSite (containerPort : Option Nat) : Site Nat where
  now := 100
  settings := [("NODE_IP", "10.0.0.1"), ("HTTP_PREFIX", "http://"), ("INSTANCE_DESTROY_DELAY", "60")]
  events := [demoEvent]
  users := [⟨1, "player"⟩]
  eventUsers := [⟨0, 1, 0, false⟩]
  members := []
  eventChallenges := [⟨0, 7, 100, false⟩]
  challenges := [demoChallenge containerPort]
  solves := []
  awdp := []
  instances := []
  usedIds := []
  containers := []
  ended := []
  going := []
  created := []
  assignPort id := 30000 + id

/-- The job arrives as thread `n` and makes all its statements. -/
def runAlone (n : Nat) (j : SiteJob) : List (Act SiteJob SiteEvent) :=
  .spawn j :: List.replicate 20 (.step n true)

/-- The first player launches an instance. -/
def demoLaunch (instanceId : Nat) : SiteJob := .launch ⟨some 0, 7, 1, instanceId, "uuid"⟩

theorem consistent_demoSite (containerPort : Option Nat) : Consistent (demoSite containerPort) where
  keys := List.nodup_nil
  names := List.nodup_nil
  used _ h := absurd h List.not_mem_nil
  log _ h := absurd h List.not_mem_nil
  alive _ h := absurd h List.not_mem_nil
  started _ h := absurd h List.not_mem_nil
  completed _ h := absurd h List.not_mem_nil

/-- A launch, its destruction and another launch, with a reconciliation in between. -/
def quietDay : List (Act SiteJob SiteEvent) :=
  runAlone 0 (demoLaunch 1) ++ [.env (.passes 400)] ++ runAlone 1 (.reconcile 300) ++
    runAlone 2 (.destroyOwned 1 1) ++ runAlone 3 (demoLaunch 2)

theorem lifecycle_quietDay :
    let w := quietDay.foldl sites.step (SitePool.initial (demoSite (some 80)))
    w.state.instances.map (·.id) = [2] ∧ w.ghost.harmed = [] :=
  ⟨by decide +kernel, (lifecycle_run (consistent_demoSite _) (by decide +kernel)).1⟩

/-- Two destructions of one instance: the second one removes the container of its successor. -/
def lateDestruction : List (Act SiteJob SiteEvent) :=
  runAlone 0 (demoLaunch 1) ++ [.spawn (.destroyOwned 1 1), .step 1 true] ++
    runAlone 2 (.destroyOwned 1 1) ++ runAlone 3 (demoLaunch 2) ++
    List.replicate 3 (.step 1 true)

/-- The challenge loses its port while an instance runs. -/
def reimported : List (Act SiteJob SiteEvent) :=
  runAlone 0 (demoLaunch 1) ++ [.env (.imported (demoChallenge none))] ++
    runAlone 1 (.destroyOwned 1 1)

/-- An instance without a container gets old. -/
def oldAndBare : List (Act SiteJob SiteEvent) :=
  runAlone 0 (demoLaunch 1) ++ [.env (.passes 400)] ++ runAlone 1 (.reconcile 300)

/-- The daemon begins to remove a stopped container before the destruction does. -/
def conflicting : List (Act SiteJob SiteEvent) :=
  runAlone 0 (demoLaunch 1) ++ [.spawn (.destroyOwned 1 1)] ++ List.replicate 3 (.step 1 true) ++
    [.env (.autoRemoves 0)] ++ List.replicate 2 (.step 1 true)

theorem lifecycle_broken :
    (lateDestruction.foldl sites.step (SitePool.initial (demoSite (some 80)))).ghost.harmed ≠ [] ∧
    (let w := reimported.foldl sites.step (SitePool.initial (demoSite (some 80)))
      ∃ i ∈ w.state.instances, i.runtimeState = .completed ∧
        ∃ c ∈ w.state.containers, i.container = some c.id) ∧
    (oldAndBare.foldl sites.step (SitePool.initial (demoSite none))).ghost.misjudged = [1] ∧
    let w := conflicting.foldl sites.step (SitePool.initial (demoSite (some 80)))
    ∃ i ∈ w.state.instances, i.runtimeState = .completed ∧
      ∃ c ∈ w.state.containers, i.container = some c.id := by
  decide +kernel

end FloatCtf.Jeopardy
