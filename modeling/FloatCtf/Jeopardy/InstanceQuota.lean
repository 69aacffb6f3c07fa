import FloatCtf.Jeopardy.InstanceLifecycle
import FloatCtf.Process.Meanwhile
import FloatCtf.Process.Quota

/-!
# The quota of running instances

A launch counts the running instances of its participant, looks for one of the same challenge, and
inserts its row at the end, with an image pull and the start of a container in between.

`quota_run` shows that the running instances stay within the quota, one for each challenge, and that
a launch of a challenge that runs answers with the instance that is there, in every run in which a
launch passes the count only when no other launch of the participant is on its way to the insert, or
when there is room beside those, and the quota is not exhausted when an instance of the challenge is
there already.
-/

namespace FloatCtf.Jeopardy

open Process

variable {P : Type}

/-! ## Participants -/

/-- The subject of a row is its team, or else its user. -/
def InstanceRow.participant (i : InstanceRow) : Participant where
  eventId := i.eventId
  subject := match i.teamId with
    | some id => .team id
    | none => .user i.userId

/-- The running instances of the participant. -/
def Site.taken (k : Participant) (s : Site P) : Nat :=
  s.instances.countP fun i => i.runtimeState = .running && i.participant = k

/-- How many instances the participant may have at the same time. -/
def Site.quotaOf (s : Site P) (k : Participant) : Nat :=
  match s.findEvent k.eventId with
  | none => 0
  | some event => maxConcurrentInstances event (k.subject.teamId.map s.memberCount)

/-- A row of an event, under the name that belongs to its participant and its challenge. -/
structure Placed (s : Site P) (i : InstanceRow) : Prop where
  event : ∃ event, s.findEvent i.eventId = some event ∧
    i.containerName = identifierOf event i.participant.subject i.challengeId ∧
    (event.participantMode = .individual ↔ i.teamId = none)

/-- The state has the events and the members of `s₀`, and its rows are in order. -/
structure Orderly (s₀ s : Site P) : Prop where
  events : s.events = s₀.events
  members : s.members = s₀.members
  eventKeys : Table.Keyed (·.id) s₀.events
  names : Table.Keyed (·.containerName) s.instances
  placed : ∀ i ∈ s.instances, Placed s₀ i

/-- The quota of running instances: a launch holds a place for its participant from the look for a
running instance until the row is written. -/
def instanceQuota (s₀ : Site P) : Quota Stmt (Site P) Participant where
  holds
    | .findRunning p _ | .prepare p | .create p _ _ | .start p | .inspect p | .persist p _ => some p
    | _ => none
  takes
    | .persist _ _ => true
    | _ => false
  used := Site.taken
  limit := s₀.quotaOf
  ok := Orderly s₀

section Rows

variable {s₀ s s' : Site P}

theorem Orderly.findEvent (h : Orderly s₀ s) (id : Nat) : s.findEvent id = s₀.findEvent id := by
  rw [Site.findEvent, Site.findEvent, h.events]

/-- At most one row of a participant for a challenge, running or not. -/
theorem Orderly.unique (h : Orderly s₀ s) {i i' : InstanceRow} (hi : i ∈ s.instances)
    (hi' : i' ∈ s.instances) (hp : i.participant = i'.participant)
    (hc : i.challengeId = i'.challengeId) : i = i' := by
  obtain ⟨event, hevent, hname, -⟩ := (h.placed i hi).event
  obtain ⟨event', hevent', hname', -⟩ := (h.placed i' hi').event
  have heid : i.eventId = i'.eventId := congrArg Participant.eventId hp
  obtain rfl : event = event' := by
    rw [heid] at hevent
    exact Option.some.inj (hevent.symm.trans hevent')
  refine Table.eq_of_key h.names hi hi' ?_
  rw [hname, hname', hp, hc]

/-- What runs for a participant of the event is counted for it. -/
theorem Orderly.participant_of_runs (h : Orderly s₀ s) {i : InstanceRow} (hi : i ∈ s.instances)
    {p : Participant} {event : EventRow} (hevent : s₀.findEvent p.eventId = some event)
    (hmode : event.participantMode = .individual ↔ p.subject.teamId = none)
    (hruns : p.runs i = true) : i.participant = p := by
  obtain ⟨eventId, subject⟩ := p
  simp only [Participant.runs, Bool.and_eq_true, decide_eq_true_eq] at hruns
  obtain ⟨⟨heid, -⟩, howns⟩ := hruns
  obtain ⟨event', hevent', -, hmode'⟩ := (h.placed i hi).event
  obtain rfl : event' = event := by
    rw [heid] at hevent'
    exact Option.some.inj (hevent'.symm.trans hevent)
  have hteam : i.teamId = none ↔ subject.teamId = none := hmode'.symm.trans hmode
  unfold InstanceRow.participant
  rw [heid]
  cases subject with
  | user id =>
    have hnone : i.teamId = none := hteam.2 rfl
    simp only [Subject.owns, decide_eq_true_eq] at howns
    rw [hnone, howns]
  | team id =>
    simp only [Subject.owns, decide_eq_true_eq] at howns
    rw [howns]

theorem runs_of_participant {i : InstanceRow} (hrun : i.runtimeState = .running) :
    i.participant.runs i = true := by
  unfold Participant.runs InstanceRow.participant
  cases hteam : i.teamId <;> simp [hrun, Subject.owns, hteam]

/-- The query counts at least the instances of the participant. -/
theorem taken_le_runningCount (s : Site P) (p : Participant) : s.taken p ≤ s.runningCount p := by
  unfold Site.taken Site.runningCount
  rw [← List.countP_eq_length_filter]
  refine List.countP_mono_left fun i _ h => ?_
  simp only [Bool.and_eq_true, decide_eq_true_eq] at h
  exact h.2 ▸ runs_of_participant h.1

end Rows

/-! ## Statements -/

section Statements

variable {s₀ s s' : Site P} {b : Option Participant} {l : Stmt} {α : Type}

theorem idle_of_same (hl : (instanceQuota s₀).holds l = b) (ht : (instanceQuota s₀).takes l = false)
    (hevents : s'.events = s.events) (hmembers : s'.members = s.members)
    (hrows : s'.instances = s.instances) : Prog.Idle (instanceQuota s₀) b l s s' where
  holds := hl
  takes := ht
  ok h := ⟨hevents.trans h.events, hmembers.trans h.members, h.eventKeys, hrows ▸ h.names,
    hrows ▸ h.placed⟩
  used _ _ := Nat.le_of_eq (congrArg (List.countP _) hrows)

theorem idle_of_reads {l₀ : Stmt} (hl : (instanceQuota s₀).holds l₀ = b)
    (ht : (instanceQuota s₀).takes l₀ = false) {p : SiteM P α} (hp : p.Does (Reads l₀)) :
    p.Does (Prog.Idle (instanceQuota s₀) b) :=
  hp.mono fun _ _ _ ⟨h, h'⟩ => by
    subst h h'
    exact idle_of_same hl ht rfl rfl rfl

theorem idle_deleteCompleted (hl : (instanceQuota s₀).holds l = b)
    (ht : (instanceQuota s₀).takes l = false) (s : Site P) (name : String) :
    Prog.Idle (instanceQuota s₀) b l s (s.deleteCompleted name) where
  holds := hl
  takes := ht
  ok h := ⟨h.events, h.members, h.eventKeys, h.names.sublist (List.filter_sublist.map _),
    fun i hi => h.placed i (List.mem_of_mem_filter hi)⟩
  used _ _ := List.filter_sublist.countP_le

/-- A transition to a state other than running. -/
theorem idle_transition {id : Nat} {expected next : RuntimeState}
    (hl : (instanceQuota s₀).holds l = b) (ht : (instanceQuota s₀).takes l = false)
    (hnext : next ≠ .running) (h : s.transition id expected next = .ok s') :
    Prog.Idle (instanceQuota s₀) b l s s' := by
  rw [transition_inv h]
  refine ⟨hl, ht, fun hs => ⟨hs.events, hs.members, hs.eventKeys, ?_, fun i' hi' => ?_⟩,
    fun _ k => ?_⟩
  · exact Table.keyed_map (fun i => by split <;> rfl) hs.names
  · obtain ⟨i, hi, rfl⟩ := List.mem_map.1 hi'
    obtain ⟨hplaced⟩ := hs.placed i hi
    split <;> exact ⟨hplaced⟩
  · refine Nat.le_trans (Nat.le_of_eq List.countP_map) (List.countP_mono_left fun i _ hi => ?_)
    simp only [Function.comp_apply] at hi
    split at hi
    · simp [hnext] at hi
    · exact hi

theorem idle_stopAndRemove (instanceId : Nat) (target : Target) :
    (stopAndRemove instanceId target : SiteM P Unit).Does (Prog.Idle (instanceQuota s₀) none) := by
  refine Prog.does_bind (Prog.does_attempt (Prog.does_exec_after fun s => ?_)) fun _ =>
    Prog.does_exec_after fun s => ?_
  · unfold Prog.after
    split
    · next hok =>
      obtain ⟨ended, rfl⟩ := stopContainers_inv hok
      exact idle_of_same rfl rfl rfl rfl rfl
    · exact idle_of_same rfl rfl rfl rfl rfl
  · change Prog.Idle _ none _ s (s.removeOrWait target)
    obtain ⟨-, heq⟩ | ⟨-, heq⟩ := removeOrWait_cases s target
    · rw [heq]
      exact idle_of_same rfl rfl rfl rfl rfl
    · rw [heq]
      exact idle_of_same rfl rfl rfl rfl rfl

theorem idle_transitionRuntimeState (cause : Cause) (id : Nat) (expected : RuntimeState)
    {next : RuntimeState} (hnext : next ≠ .running) :
    (transitionRuntimeState cause id expected next : SiteM P Unit).Does
      (Prog.Idle (instanceQuota s₀) none) := by
  refine Prog.does_exec_after fun s => ?_
  unfold Prog.after
  split
  · next hok =>
    obtain ⟨s'', htr, hs''⟩ := except_bind_ok hok
    cases hs''
    exact idle_transition rfl rfl hnext htr
  · exact idle_of_same rfl rfl rfl rfl rfl

theorem idle_destroyModel (row : InstanceRow) :
    (destroyModel row : SiteM P Unit).Does (Prog.Idle (instanceQuota s₀) none) := by
  refine Prog.does_bind (Prog.does_attempt (Prog.does_bind
    (idle_of_reads (by rfl) (by rfl) (reads_query _ _ _)) fun _ => Prog.does_bind (does_orFail _ _) fun _ =>
      Prog.does_ite (idle_stopAndRemove _ _) trivial)) fun r => ?_
  cases r with
  | ok a => exact idle_transitionRuntimeState _ _ _ (by decide)
  | error e =>
    refine Prog.does_bind (Prog.does_ite (Prog.does_bind (Prog.does_attempt ?_) fun _ => trivial)
      trivial) fun _ => trivial
    exact idle_transitionRuntimeState _ _ _ (by decide)

theorem idle_destroyFound (found : Option InstanceRow) :
    (destroyFound found : SiteM P Bool).Does (Prog.Idle (instanceQuota s₀) none) := by
  cases found with
  | none => trivial
  | some row => exact Prog.does_bind (idle_destroyModel row) fun _ => trivial

theorem idle_reconcileInstance (row : InstanceRow) :
    (reconcileInstance row : SiteM P Unit).Does (Prog.Idle (instanceQuota s₀) none) := by
  refine Prog.does_bind (Prog.does_attempt (idle_of_reads (by rfl) (by rfl) (reads_query _ _ _))) fun r => ?_
  match r with
  | .ok true => trivial
  | .ok false => exact idle_transitionRuntimeState _ _ _ (by decide)
  | .error e => trivial

/-- Only launches take shares. -/
theorem idle_job {j : SiteJob} (hj : ∀ req, j ≠ .launch req) :
    (j.prog : SiteM P Unit).Does (Prog.Idle (instanceQuota s₀) none) := by
  cases j with
  | launch req => exact absurd rfl (hj req)
  | destroyOwned id userId =>
    refine Prog.does_bind (Prog.does_bind (idle_of_reads (by rfl) (by rfl) (reads_query _ _ _)) fun _ => ?_)
      fun _ => trivial
    exact idle_destroyFound _
  | destroyTeamOwned id eventId teamId =>
    refine Prog.does_bind (Prog.does_bind (idle_of_reads (by rfl) (by rfl) (reads_query _ _ _)) fun _ => ?_)
      fun _ => trivial
    exact idle_destroyFound _
  | cleanupRunning =>
    refine Prog.does_bind (idle_of_reads (by rfl) (by rfl) (reads_query _ _ _)) fun _ => ?_
    refine Prog.does_each fun row _ => Prog.does_bind (Prog.does_attempt ?_) fun _ => trivial
    exact idle_destroyModel row
  | reconcile minAge =>
    refine Prog.does_bind (idle_of_reads (by rfl) (by rfl) (reads_query _ _ _)) fun _ => ?_
    exact Prog.does_each fun row _ => idle_reconcileInstance row

end Statements

/-! ## Launch -/

section Launch

variable {s₀ : Site P} {p : Participant} {event : EventRow}

/-- The user takes part in the event as the participant. -/
structure Entered (s₀ : Site P) (p : Participant) (event : EventRow) (userId : Nat) : Prop where
  found : s₀.findEvent p.eventId = some event
  user : ∀ id, p.subject = .user id → id = userId
  mode : event.participantMode = .individual ↔ p.subject.teamId = none

theorem participant_newInstance {req : LaunchRequest} (h : Entered s₀ p event req.userId)
    (identifier flag content : String) (imageRef : Option String) (container : Option Nat)
    (now delay : Int) :
    (newInstance p req identifier flag content imageRef container now delay).participant = p := by
  obtain ⟨eventId, subject⟩ := p
  cases subject with
  | user id =>
    rw [h.user id rfl]
    simp only [InstanceRow.participant, newInstance, Subject.teamId]
  | team id => simp only [InstanceRow.participant, newInstance, Subject.teamId]

theorem placed_newInstance {req : LaunchRequest} (h : Entered s₀ p event req.userId)
    (flag content : String)
    (imageRef : Option String) (container : Option Nat) (now delay : Int) :
    Placed s₀ (newInstance p req (identifierOf event p.subject req.challengeId) flag content imageRef
      container now delay) := by
  refine ⟨event, h.found, ?_, h.mode⟩
  rw [participant_newInstance h]
  rfl

/-- The insert takes the share. -/
theorem obeys_insert {row : InstanceRow} (hrow : Placed s₀ row) (hp : row.participant = p)
    (hrun : row.runtimeState = .running) :
    (Prog.exec (.persist p row.id) dbError fun s => do
      let s' ← s.insertInstance row
      .ok (s', ())).Obeys (instanceQuota s₀) (fun (_ : Unit) _ => True) (some p) := by
  refine fun s hs => ⟨fun k hk => hk, ?_, fun k => ?_, ⟨none, nofun, ?_⟩, trivial⟩
  · unfold Prog.after
    split
    · next hok =>
      obtain ⟨s'', hs'', heq⟩ := except_bind_ok hok
      cases heq
      obtain ⟨-, hname, rfl⟩ := insertInstance_inv hs''
      refine ⟨hs.events, hs.members, hs.eventKeys, Table.keyed_append hs.names hname,
        fun i hi => ?_⟩
      rcases List.mem_append.1 hi with hi | hi
      · exact hs.placed i hi
      · rw [List.mem_singleton.1 hi]
        exact hrow
    · exact hs
  · unfold Prog.after
    split
    · next hok =>
      obtain ⟨s'', hs'', heq⟩ := except_bind_ok hok
      cases heq
      obtain ⟨-, -, rfl⟩ := insertInstance_inv hs''
      simp only [instanceQuota, Site.taken, List.countP_append, List.countP_singleton, hp, hrun]
      by_cases hk : p = k <;> simp [hk]
    · exact Nat.le_add_right _ _
  · unfold Prog.answer
    split <;> trivial

theorem obeys_persistInstance {row : InstanceRow} (hrow : Placed s₀ row)
    (hp : row.participant = p) (hrun : row.runtimeState = .running) :
    (persistInstance p row).Obeys (instanceQuota s₀) (fun _ _ => True) (some p) := by
  refine Prog.obeys_bind ((Prog.obeys_attempt (Q := fun _ _ => True)
    (obeys_insert hrow hp hrun) fun _ _ => trivial).imp fun r b _ => ?_)
  cases r with
  | ok a => trivial
  | error e =>
    refine Prog.obeys_of_none (Prog.obeys_seq (Prog.does_ite ?_ trivial) fun _ => trivial)
    exact Prog.does_bind (Prog.does_attempt (idle_stopAndRemove _ _)) fun _ => trivial

theorem obeys_launchContainer (p : Participant) (instanceId : Nat) (name : String)
    (spec : ChallengeRuntimeSpec) :
    (launchContainer p instanceId name spec).Obeys (instanceQuota s₀) (fun _ b => b = some p)
      (some p) := by
  refine Prog.obeys_seq (idle_of_reads (by rfl) (by rfl) (reads_query _ _ _)) fun _ => ?_
  refine Prog.obeys_seq (Prog.does_exec_after fun s => ?_) fun id => ?_
  · unfold Prog.after
    split
    · next hok =>
      obtain ⟨c, -, -, -, -, rfl⟩ := createContainer_inv hok
      exact idle_of_same rfl rfl rfl rfl rfl
    · exact idle_of_same rfl rfl rfl rfl rfl
  refine Prog.obeys_seq (idle_of_reads (by rfl) (by rfl) (reads_query _ _ _)) fun _ => ?_
  refine Prog.obeys_seq (idle_of_reads (by rfl) (by rfl)
    (Prog.does_attempt (reads_inspectPort p _ _))) fun r => ?_
  cases r with
  | ok port => rfl
  | error e =>
    refine Prog.obeys_bind (Prog.obeys_of_none (Q := fun _ => True) ?_)
    exact (Prog.obeys_of_idle (Prog.does_attempt (idle_stopAndRemove _ _))).imp fun _ _ _ => trivial

theorem obeys_launch {req : LaunchRequest} (h : Entered s₀ p event req.userId) :
    (launch p event req (identifierOf event p.subject req.challengeId)).Obeys (instanceQuota s₀)
      (fun _ _ => True) (some p) := by
  have hprepare : ∀ {α : Type} {q : SiteM P α}, q.Does (Reads (.prepare p)) →
      q.Does (Prog.Idle (instanceQuota s₀) (some p)) := fun hq => idle_of_reads (by rfl) (by rfl) hq
  refine Prog.obeys_seq (Prog.does_exec_after fun s =>
    idle_deleteCompleted (by rfl) (by rfl) s _) fun _ => ?_
  refine Prog.obeys_seq (hprepare (reads_query _ _ _)) fun _ => ?_
  refine Prog.obeys_seq (does_orFail _ _) fun challenge => ?_
  split
  · trivial
  refine Prog.obeys_seq (hprepare (reads_launchFlag p event req challenge)) fun flag => ?_
  refine Prog.obeys_seq (does_ofExcept _) fun spec => ?_
  refine Prog.obeys_seq (hprepare (reads_getSetting p _)) fun _ => ?_
  refine Prog.obeys_seq (hprepare (reads_getSetting p _)) fun _ => ?_
  refine Prog.obeys_seq (hprepare (reads_getSetting p _)) fun _ => ?_
  refine Prog.obeys_seq (does_ofExcept _) fun _ => ?_
  refine Prog.obeys_seq (hprepare (reads_query _ _ _)) fun _ => ?_
  split
  · trivial
  refine Prog.obeys_seq (hprepare (reads_look _ _)) fun _ => ?_
  cases spec with
  | none =>
    exact obeys_persistInstance (placed_newInstance h _ _ _ _ _ _)
      (participant_newInstance h _ _ _ _ _ _ _) rfl
  | some spec =>
    refine Prog.obeys_bind ((obeys_launchContainer p _ _ spec).imp fun r b hb => ?_)
    rw [hb]
    exact obeys_persistInstance (placed_newInstance h _ _ _ _ _ _)
      (participant_newInstance h _ _ _ _ _ _ _) rfl

theorem obeys_reuseOrLaunch {req : LaunchRequest} (h : Entered s₀ p event req.userId) :
    (reuseOrLaunch p event req).Obeys (instanceQuota s₀) (fun _ _ => True) (some p) := by
  refine Prog.obeys_seq (idle_of_reads (by rfl) (by rfl) (reads_query _ _ _)) fun found => ?_
  cases found with
  | some row => trivial
  | none => exact obeys_launch h

theorem Orderly.findEvent_of_mem {s : Site P} (h : Orderly s₀ s) (hmem : event ∈ s.events) :
    s₀.findEvent event.id = some event :=
  Table.find_of_mem h.eventKeys (h.events ▸ hmem)

theorem obeys_loadEvent (eventId : Option Nat) :
    (loadEvent eventId).Obeys (instanceQuota s₀)
      (fun event b => b = none ∧ s₀.findEvent event.id = some event) none := by
  have hcase : ∀ f : Site P → Option EventRow, (∀ s event, f s = some event → event ∈ s.events) →
      ∀ e, (Prog.query .gate dbError f >>= orFail e).Obeys (instanceQuota s₀)
        (fun event b => b = none ∧ s₀.findEvent event.id = some event) none := by
    intro f hf e
    refine Prog.obeys_bind (Prog.obeys_query rfl rfl fun s hs => ?_)
    cases hfs : f s with
    | none => trivial
    | some event => exact ⟨rfl, hs.findEvent_of_mem (hf s event hfs)⟩
  cases eventId with
  | some id => exact hcase _ (fun s event h => List.mem_of_find?_eq_some h) _
  | none => exact hcase _ (fun s event h => List.mem_of_find?_eq_some h) _

/-- The participant, and its quota. -/
theorem obeys_resolveParticipant (hevent : s₀.findEvent event.id = some event) (userId : Nat) :
    (resolveParticipant event userId).Obeys (instanceQuota s₀)
      (fun r b => b = none ∧ Entered s₀ ⟨event.id, r.subject⟩ event userId ∧
        maxConcurrentInstances event r.teamMemberCount = s₀.quotaOf ⟨event.id, r.subject⟩) none := by
  unfold resolveParticipant
  split
  · next hmode =>
    refine ⟨rfl, ⟨hevent, fun id h => (Subject.user.inj h).symm, iff_of_true hmode rfl⟩, ?_⟩
    simp only [Site.quotaOf, hevent, Subject.teamId, Option.map_none]
  · next hmode =>
    refine Prog.obeys_seq (idle_of_reads (by rfl) (by rfl) (reads_query _ _ _)) fun found => ?_
    refine Prog.obeys_seq (does_orFail _ _) fun membership => ?_
    refine Prog.obeys_bind (Prog.obeys_query rfl rfl fun s hs => ?_)
    refine ⟨rfl, ⟨hevent, nofun, iff_of_false (by rw [hmode]; decide) nofun⟩, ?_⟩
    simp only [Site.quotaOf, hevent, Subject.teamId, Option.map_some, Site.memberCount, hs.members]

theorem obeys_launchInstance (hevent : s₀.findEvent event.id = some event) (req : LaunchRequest) :
    (launchInstance event req).Obeys (instanceQuota s₀) (fun _ _ => True) none := by
  have hgate : ∀ {α : Type} {q : SiteM P α}, q.Does (Reads .gate) →
      q.Does (Prog.Idle (instanceQuota s₀) none) := fun hq => idle_of_reads (by rfl) (by rfl) hq
  refine Prog.obeys_seq (Prog.does_ite trivial trivial) fun _ => ?_
  refine Prog.obeys_seq (Prog.does_ite trivial trivial) fun _ => ?_
  refine Prog.obeys_seq (hgate (reads_requireAccess _ _)) fun _ => ?_
  refine Prog.obeys_bind ((obeys_resolveParticipant hevent req.userId).imp fun r b hr => ?_)
  obtain ⟨rfl, hentered, hmax⟩ := hr
  refine Prog.obeys_seq (hgate (reads_requireEventChallenge _ _)) fun _ => ?_
  refine Prog.obeys_test rfl rfl fun s _ => ?_
  by_cases hfull : s.runningCount ⟨event.id, r.subject⟩ ≥
      maxConcurrentInstances event r.teamMemberCount
  · refine ⟨none, nofun, ?_⟩
    rw [if_pos hfull]
    trivial
  · refine ⟨some ⟨event.id, r.subject⟩, fun k hk => ?_, ?_⟩
    · cases hk
      have hle := taken_le_runningCount s ⟨event.id, r.subject⟩
      change s.taken _ < s₀.quotaOf _
      omega
    · rw [if_neg hfull]
      exact obeys_reuseOrLaunch hentered

theorem obeys_answerLaunch (req : LaunchRequest) :
    (answerLaunch req).Obeys (instanceQuota s₀) (fun _ _ => True) none := by
  have hrequested : (launchRequested req).Obeys (instanceQuota s₀) (fun _ _ => True) none := by
    refine Prog.obeys_bind ((obeys_loadEvent req.eventId).imp fun event b hb => ?_)
    rw [hb.1]
    exact obeys_launchInstance hb.2 req
  refine Prog.obeys_bind ((Prog.obeys_attempt (Q := fun _ _ => True) hrequested
    fun _ _ => trivial).imp fun r b _ => ?_)
  refine Prog.obeys_of_none (Q := fun _ => True) ?_
  exact (Prog.obeys_of_idle (idle_of_reads (by rfl) (by rfl) (reads_look _ _))).imp
    fun _ _ _ => trivial

end Launch

theorem instanceQuota_obeyed (s₀ : Site P) : (instanceQuota s₀).Obeyed (sites (P := P)) where
  prog j := by
    by_cases hj : ∃ req, j = .launch req
    · obtain ⟨req, rfl⟩ := hj
      exact obeys_answerLaunch req
    · exact (Prog.obeys_of_idle (idle_job fun req h => hj ⟨req, h⟩)).imp fun _ _ _ => trivial
  env e s hs := by
    cases e with
    | passes seconds =>
      exact ⟨⟨hs.events, hs.members, hs.eventKeys, hs.names, hs.placed⟩, fun _ => Nat.le_refl _⟩
    | imported challenge =>
      exact ⟨⟨hs.events, hs.members, hs.eventKeys, hs.names, hs.placed⟩, fun _ => Nat.le_refl _⟩
    | exits id =>
      exact ⟨⟨hs.events, hs.members, hs.eventKeys, hs.names, hs.placed⟩, fun _ => Nat.le_refl _⟩
    | autoRemoves id =>
      obtain ⟨going, heq⟩ := act_autoRemoves id s
      rw [show (sites (P := P)).env (.autoRemoves id) s = _ from heq]
      exact ⟨⟨hs.events, hs.members, hs.eventKeys, hs.names, hs.placed⟩, fun _ => Nat.le_refl _⟩
    | gone id =>
      obtain ⟨containers, heq⟩ := act_gone id s
      rw [show (sites (P := P)).env (.gone id) s = _ from heq]
      exact ⟨⟨hs.events, hs.members, hs.eventKeys, hs.names, hs.placed⟩, fun _ => Nat.le_refl _⟩

/-! ## Reuse -/

/-- A launch whose challenge runs already finds that its quota is not exhausted. -/
def SpareCond (_ : SiteJob) (l : Stmt) (v : Site P × LifecycleReport) : Prop :=
  match l with
  | .countRunning p challengeId =>
    (v.1.findRunning p challengeId).isSome = true → v.1.runningCount p < v.1.quotaOf p
  | _ => True

/-- The event that a launch asks for. -/
def Site.requestedEvent (s : Site P) : Option Nat → Option EventRow
  | some id => s.findEvent id
  | none => s.practiceEvent

/-- The subject as which a user takes part in the event. -/
def Site.subjectOf (s : Site P) (event : EventRow) (userId : Nat) : Option Subject :=
  match event.participantMode with
  | .individual => some (.user userId)
  | .team => (s.findMembership event.id userId).map fun m => .team m.teamId

/-- Why a launch does not get to the quota. -/
def refusals (event : EventRow) : List String :=
  [dbError, "no event", "未找到练习用 Jeopardy 赛事", familyError, event.modeError,
    "你尚未加入本赛事", "赛事尚未开始", "赛事已结束，无法提交 flag", "you are not in any team",
    "challenge is not in this event", "该题目尚未发布，无法启动实例"]

/-- The launch answers with the instance, or is refused before it gets to the quota, and it starts
nothing. -/
def Reuses (event : EventRow) (instanceId : Nat) : Stmt → Prop
  | .reply _ (.ok id) => id = instanceId
  | .reply _ (.error e) => e ∈ refusals event
  | .create _ _ _ | .persist _ _ => False
  | _ => True

/-- The participant has a running instance of the challenge. -/
def Site.HasRunning (s : Site P) (p : Participant) (challengeId instanceId : Nat) : Prop :=
  ∃ i ∈ s.instances, i.id = instanceId ∧ p.runs i = true ∧ i.challengeId = challengeId

instance (s : Site P) (p : Participant) (c k : Nat) : Decidable (s.HasRunning p c k) :=
  inferInstanceAs (Decidable (∃ i ∈ s.instances, _))

section Reuse

variable {s₀ : Site P} {p : Participant} {event : EventRow} {k : Nat} {req : LaunchRequest}
  {α : Type}

/-- The states in which a launch finds the instance. -/
structure Finds (s₀ : Site P) (p : Participant) (challengeId k : Nat) (l : Stmt) (s : Site P) :
    Prop where
  orderly : Orderly s₀ s
  running : s.HasRunning p challengeId k
  spare : ∀ p' c, l = .countRunning p' c → (s.findRunning p' c).isSome = true →
    s.runningCount p' < s.quotaOf p'

/-- A launch ends with `Q`, or is refused for a reason that it found. -/
abbrev LaunchEnds (s₀ : Site P) (p : Participant) (event : EventRow) (challengeId k : Nat)
    (Q : α → Prop) (q : SiteM P α) : Prop :=
  q.Ends (Finds s₀ p challengeId k) (Reuses event k) Q (· ∈ refusals event)

theorem findRunning_eq (h : Entered s₀ p event req.userId) {s : Site P} (hs : Orderly s₀ s)
    (hrun : s.HasRunning p req.challengeId k) :
    ∃ row, s.findRunning p req.challengeId = some row ∧ row.id = k := by
  obtain ⟨i, hi, hid, hruns, hc⟩ := hrun
  cases hfind : s.findRunning p req.challengeId with
  | none =>
    refine absurd (List.find?_eq_none.1 hfind i hi) ?_
    simp [hruns, hc]
  | some row =>
    have hrow := List.find?_some hfind
    simp only [Bool.and_eq_true, decide_eq_true_eq] at hrow
    have hmem := List.mem_of_find?_eq_some hfind
    have heq : row = i := hs.unique hmem hi
      ((hs.participant_of_runs hmem h.found h.mode hrow.1).trans
        (hs.participant_of_runs hi h.found h.mode hruns).symm) (hrow.2.trans hc.symm)
    exact ⟨row, rfl, heq ▸ hid⟩

theorem Orderly.quotaOf_eq {s : Site P} (h : Orderly s₀ s) (p : Participant) :
    s.quotaOf p = s₀.quotaOf p := by
  have hcount : s.memberCount = s₀.memberCount := by
    funext id
    rw [Site.memberCount, Site.memberCount, h.members]
  rw [Site.quotaOf, Site.quotaOf, h.findEvent, hcount]

theorem ends_found {f : Site P → Option EventRow} {e : String} (hf : ∀ s, Orderly s₀ s → f s = some event)
    {c : Nat} (he : dbError ∈ refusals event) :
    LaunchEnds s₀ p event c k (· = event) (Prog.query .gate dbError f >>= orFail e) := by
  refine Prog.ends_bind (Prog.ends_query trivial (fun s hs => ?_) he)
  rw [hf s hs.orderly]
  rfl

theorem ends_loadEvent (hevent : s₀.requestedEvent req.eventId = some event) :
    LaunchEnds s₀ p event req.challengeId k (· = event) (loadEvent req.eventId) := by
  have he : dbError ∈ refusals event := List.mem_cons_self
  unfold loadEvent
  split
  · next id hid =>
    rw [hid] at hevent
    exact ends_found (fun s hs => (hs.findEvent id).trans hevent) he
  · next hid =>
    rw [hid] at hevent
    refine ends_found (fun s hs => Eq.trans ?_ hevent) he
    rw [Site.requestedEvent, Site.practiceEvent, Site.practiceEvent, hs.events]

theorem ends_requireJeopardyFamily {c : Nat} :
    LaunchEnds s₀ p event c k (fun _ => True) (requireJeopardyFamily event) := by
  unfold requireJeopardyFamily
  split
  · exact (by simp [refusals] : familyError ∈ refusals event)
  · trivial

theorem ends_policyFromEvent {c : Nat} :
    LaunchEnds s₀ p event c k (fun _ => True) (policyFromEvent event) := by
  unfold policyFromEvent
  split
  · trivial
  · exact (by simp [refusals] : event.modeError ∈ refusals event)

theorem shouldOngoing_refused {e : Event} {now : Int} {err : String}
    (h : shouldOngoing e now = .error err) : err = "赛事尚未开始" ∨ err = "赛事已结束，无法提交 flag" := by
  unfold shouldOngoing at h
  split at h <;> cases h <;> simp

theorem ends_requireAccess (userId : Nat) {c : Nat} :
    LaunchEnds s₀ p event c k (fun _ => True) (requireAccess event userId) := by
  unfold requireAccess
  split
  · refine Prog.ends_bind (Prog.ends_bind (Prog.ends_query trivial (fun s _ => ?_) ?_))
    · split
      · refine Prog.ends_bind (Prog.ends_look trivial fun s' => ?_)
        cases h : shouldOngoing event.toEvent s'.now with
        | ok a => trivial
        | error err =>
          change err ∈ refusals event
          rcases shouldOngoing_refused h with rfl | rfl <;> simp [refusals]
      · exact (by simp [refusals] : "你尚未加入本赛事" ∈ refusals event)
    · simp [refusals]
  · trivial

/-- The participant that the launch resolves is the one the user takes part as. -/
theorem ends_resolveParticipant (hevent : s₀.findEvent event.id = some event) {subject : Subject}
    {userId c : Nat} (hsubject : s₀.subjectOf event userId = some subject) :
    LaunchEnds s₀ p event c k
      (fun r => r.subject = subject ∧
        maxConcurrentInstances event r.teamMemberCount = s₀.quotaOf ⟨event.id, subject⟩)
      (resolveParticipant event userId) := by
  unfold resolveParticipant
  unfold Site.subjectOf at hsubject
  cases hmode : event.participantMode with
  | individual =>
    simp only [hmode, Option.some.injEq] at hsubject
    subst hsubject
    refine ⟨rfl, ?_⟩
    simp only [Site.quotaOf, hevent, Subject.teamId, Option.map_none]
  | team =>
    simp only [hmode, Option.map_eq_some_iff] at hsubject
    obtain ⟨membership, hfound, rfl⟩ := hsubject
    refine Prog.ends_bind (Prog.ends_query trivial (fun s hs => ?_) (by simp [refusals]))
    have hs' : s.findMembership event.id userId = some membership := by
      rw [Site.findMembership, hs.orderly.members]
      exact hfound
    rw [hs']
    refine Prog.ends_bind (Prog.ends_query trivial (fun s' hs' => ?_) (by simp [refusals]))
    refine ⟨rfl, ?_⟩
    simp only [Site.quotaOf, hevent, Subject.teamId, Option.map_some, Site.memberCount,
      hs'.orderly.members]

theorem ends_requireEventChallenge (challengeId : Nat) {c : Nat} :
    LaunchEnds s₀ p event c k (fun _ => True) (requireEventChallenge event challengeId) := by
  unfold requireEventChallenge
  split
  · refine Prog.ends_bind (Prog.ends_query trivial (fun s _ => ?_) (by simp [refusals]))
    cases s.eventChallenges.find? fun c => c.eventId = event.id ∧ c.challengeId = challengeId with
    | none => exact (by simp [refusals] : "challenge is not in this event" ∈ refusals event)
    | some eventChallenge =>
      change LaunchEnds s₀ p event c k (fun _ => True) (ite _ _ _)
      split
      · exact (by simp [refusals] : "该题目尚未发布，无法启动实例" ∈ refusals event)
      · trivial
  · trivial

/-- A launch of a challenge that runs. -/
theorem ends_launchInstance {subject : Subject}
    (hp : Entered s₀ ⟨event.id, subject⟩ event req.userId)
    (hsubject : s₀.subjectOf event req.userId = some subject) :
    LaunchEnds s₀ ⟨event.id, subject⟩ event req.challengeId k (·.id = k)
      (launchInstance event req) := by
  refine Prog.ends_bind (ends_requireJeopardyFamily.imp (fun _ _ => ?_) fun _ h => h)
  refine Prog.ends_bind (ends_policyFromEvent.imp (fun _ _ => ?_) fun _ h => h)
  refine Prog.ends_bind ((ends_requireAccess req.userId).imp (fun _ _ => ?_) fun _ h => h)
  refine Prog.ends_bind ((ends_resolveParticipant hp.found hsubject).imp (fun r hr => ?_)
    fun _ h => h)
  obtain ⟨rfl, hmax⟩ := hr
  refine Prog.ends_bind ((ends_requireEventChallenge req.challengeId).imp (fun _ _ => ?_)
    fun _ h => h)
  refine Prog.ends_bind (Prog.ends_query trivial (fun s hs => ?_) (by simp [refusals]))
  obtain ⟨row, hrow, -⟩ := findRunning_eq hp hs.orderly hs.running
  have hspare := hs.spare _ _ rfl (by rw [hrow]; rfl)
  rw [hs.orderly.quotaOf_eq, ← hmax] at hspare
  rw [if_neg (Nat.not_le.2 hspare)]
  refine Prog.ends_bind (Prog.ends_query trivial (fun s' hs' => ?_) (by simp [refusals]))
  obtain ⟨row', hrow', hid⟩ := findRunning_eq hp hs'.orderly hs'.running
  rw [hrow']
  exact hid

theorem ends_answerLaunch {subject : Subject}
    (hevent : s₀.requestedEvent req.eventId = some event)
    (hp : Entered s₀ ⟨event.id, subject⟩ event req.userId)
    (hsubject : s₀.subjectOf event req.userId = some subject) :
    LaunchEnds s₀ ⟨event.id, subject⟩ event req.challengeId k (fun _ => True)
      (answerLaunch req) := by
  have hreply : ∀ r : Except String InstanceRow, Reuses event k (.reply req.instanceId (r.map (·.id))) →
      LaunchEnds s₀ ⟨event.id, subject⟩ event req.challengeId k (fun _ => True)
        (.look (.reply req.instanceId (r.map (·.id))) fun _ => ()) :=
    fun r hr => Prog.ends_look hr fun _ => trivial
  refine Prog.ends_bind (Prog.ends_attempt (Prog.ends_bind ?_))
  refine (ends_loadEvent hevent).imp (fun e he => ?_) fun e he => hreply (.error e) he
  subst he
  exact (ends_launchInstance hp hsubject).imp (fun row hid => hreply (.ok row) hid)
    fun e he => hreply (.error e) he

end Reuse

/-! ## Runs -/

instance (j : SiteJob) (l : Stmt) (v : Site P × LifecycleReport) : Decidable (SpareCond j l v) :=
  match l with
  | .countRunning p challengeId => inferInstanceAs (Decidable
      ((v.1.findRunning p challengeId).isSome = true → v.1.runningCount p < v.1.quotaOf p))
  | .stop _ _ | .remove _ _ | .findChallenge _ | .listOld _ | .gate | .findRunning _ _ | .prepare _
  | .create _ _ _ | .start _ | .inspect _ | .persist _ _ | .findInstance | .transition _ _ _ _
  | .listCandidates | .containerExists _ | .reply _ _ => inferInstanceAs (Decidable True)

/-- A launch passes the quota only when nobody else of the participant is on its way to the insert,
or with room beside those, and it does not meet an exhausted quota when its challenge runs. -/
def QuotaCond (s₀ : Site P) (w : Pool Stmt (Site P) String LifecycleReport SiteJob)
    (a : Act SiteJob SiteEvent) : Prop :=
  Room (instanceQuota s₀) w a ∧ Meets SpareCond w a

instance (s₀ : Site P) (w : Pool Stmt (Site P) String LifecycleReport SiteJob)
    (a : Act SiteJob SiteEvent) : Decidable (QuotaCond s₀ w a) :=
  inferInstanceAs (Decidable (Room (instanceQuota s₀) w a ∧ Meets SpareCond w a))

/-- The instance of the challenge runs, and the process does too. -/
def StaysRunning (p : Participant) (challengeId instanceId : Nat)
    (w : Pool Stmt (Site P) String LifecycleReport SiteJob) (a : Act SiteJob SiteEvent) : Prop :=
  a ≠ .crash ∧ w.state.HasRunning p challengeId instanceId

instance (p : Participant) (c k : Nat) (w : Pool Stmt (Site P) String LifecycleReport SiteJob)
    (a : Act SiteJob SiteEvent) : Decidable (StaysRunning p c k w a) :=
  haveI : Decidable (a ≠ .crash) := match a with
    | .crash => .isFalse fun h => h rfl
    | .spawn _ | .step _ _ | .env _ => .isTrue nofun
  inferInstanceAs (Decidable (a ≠ .crash ∧ w.state.HasRunning p c k))

section Runs

variable {s₀ : Site P} {event : EventRow} {subject : Subject} {k n : Nat} {req : LaunchRequest}
  {w : Pool Stmt (Site P) String LifecycleReport SiteJob} {acts : List (Act SiteJob SiteEvent)}

theorem mem_events_of_requested (h : s₀.requestedEvent req.eventId = some event) :
    event ∈ s₀.events := by
  unfold Site.requestedEvent at h
  split at h <;> exact List.mem_of_find?_eq_some h

theorem entered_of_subjectOf (hs : Orderly s₀ s₀) (hmem : event ∈ s₀.events)
    (h : s₀.subjectOf event req.userId = some subject) :
    Entered s₀ ⟨event.id, subject⟩ event req.userId := by
  refine ⟨hs.findEvent_of_mem hmem, fun id hid => ?_, ?_⟩ <;> unfold Site.subjectOf at h <;>
    split at h
  · cases h
    exact (Subject.user.inj hid).symm
  · obtain ⟨m, -, rfl⟩ := Option.map_eq_some_iff.1 h
    cases hid
  · next hmode =>
    cases h
    exact iff_of_true hmode rfl
  · next hmode =>
    obtain ⟨m, -, rfl⟩ := Option.map_eq_some_iff.1 h
    exact iff_of_false (by rw [hmode]; decide) nofun

/-- While the instance runs, a launch finds it. -/
theorem finds_run {p : Participant} {c : Nat} (hw : InQuota (instanceQuota s₀) w)
    (ha : Along sites.step (fun w a => QuotaCond s₀ w a ∧ StaysRunning p c k w a) w acts) :
    Along sites.step (Meanwhile (Finds s₀ p c k) n) w acts := by
  refine (run_of_along (InQuota (instanceQuota s₀)) (fun w a hw hc => ?_) hw ha).2
  obtain ⟨⟨hroom, hspare⟩, hcrash, hrun⟩ := hc
  refine ⟨hw.step (instanceQuota_obeyed s₀) hroom, ?_⟩
  unfold Meanwhile
  split
  · next i =>
    rintro rfl ⟨j, l⟩ hx
    refine ⟨hw.ok, hrun, fun p' c' hl => ?_⟩
    subst hl
    exact hspare _ hx
  · exact hcrash rfl
  · trivial

/-- A launch that arrives answers with the instance that stays there, unless it is refused before it
gets to the quota. -/
theorem reuses_run (hs : Orderly s₀ s₀) (hw : InQuota (instanceQuota s₀) w)
    (hevent : s₀.requestedEvent req.eventId = some event)
    (hsubject : s₀.subjectOf event req.userId = some subject)
    (ha : Along sites.step (QuotaCond s₀) (sites.step w (.spawn (.launch req))) acts)
    (hrun : Along sites.step (StaysRunning ⟨event.id, subject⟩ req.challengeId k)
      (sites.step w (.spawn (.launch req))) acts) :
    Along sites.step (Says (Reuses event k) w.threads.length)
      (sites.step w (.spawn (.launch req))) acts := by
  have hentered := entered_of_subjectOf hs (mem_events_of_requested hevent) hsubject
  refine ends_run ⟨(.launch req, answerLaunch req), ?_,
    (ends_answerLaunch hevent hentered hsubject).imp (fun _ _ => trivial) fun _ _ => trivial⟩
    (finds_run (hw.step (instanceQuota_obeyed s₀) trivial) (ha.and hrun))
  exact List.getElem?_concat_length

/-- In every run that meets the conditions the running instances stay within the quota and are one
for each challenge, and a launch of a challenge that stays running is answered with its instance. -/
theorem quota_run (h : Orderly s₀ s₀) (hle : ∀ p, s₀.taken p ≤ s₀.quotaOf p)
    (ha : Along sites.step (QuotaCond s₀) (SitePool.initial s₀) acts) :
    let w := acts.foldl sites.step (SitePool.initial s₀)
    (∀ p, w.state.taken p ≤ w.state.quotaOf p) ∧
    (∀ i ∈ w.state.instances, ∀ i' ∈ w.state.instances, i.runtimeState = .running →
      i'.runtimeState = .running → i.participant = i'.participant →
      i.challengeId = i'.challengeId → i = i') ∧
    ∀ acts₁ acts₂ req event subject k, acts = acts₁ ++ .spawn (.launch req) :: acts₂ →
      s₀.requestedEvent req.eventId = some event →
      s₀.subjectOf event req.userId = some subject →
      let w₁ := acts₁.foldl sites.step (SitePool.initial s₀)
      let w₂ := sites.step w₁ (.spawn (.launch req))
      Along sites.step (StaysRunning ⟨event.id, subject⟩ req.challengeId k) w₂ acts₂ →
      Along sites.step (Says (Reuses event k) w₁.threads.length) w₂ acts₂ := by
  have hstart : InQuota (instanceQuota s₀) (SitePool.initial s₀) :=
    ⟨h, fun t ht => absurd ht List.not_mem_nil, hle⟩
  have hinv := inQuota_run (instanceQuota_obeyed s₀) hstart (ha.imp fun _ _ h => h.1)
  refine ⟨fun p => ?_, fun i hi i' hi' _ _ hp hc => hinv.ok.unique hi hi' hp hc, ?_⟩
  · rw [hinv.ok.quotaOf_eq]
    exact Nat.le_trans (Nat.le_add_right _ _) (hinv.within p)
  · rintro acts₁ acts₂ req event subject k rfl hevent hsubject w₁ w₂ hrun
    obtain ⟨h₁, -, h₂⟩ := along_append.1 ha
    have hw₁ := inQuota_run (instanceQuota_obeyed s₀) hstart (h₁.imp fun _ _ h => h.1)
    exact reuses_run h hw₁ hevent hsubject h₂ hrun

end Runs

/-- The event with two more challenges, whose keys begin differently. -/
def quotaSite : Site Nat :=
  let challenge := demoChallenge (some 80)
  { demoSite (some 80) with
    eventChallenges := [⟨0, 7, 100, false⟩, ⟨0, 2 ^ 96, 100, false⟩, ⟨0, 2 ^ 97, 100, false⟩]
    challenges := [challenge, { challenge with id := 2 ^ 96 }, { challenge with id := 2 ^ 97 }] }

theorem orderly_quotaSite : Orderly quotaSite quotaSite where
  events := rfl
  members := rfl
  eventKeys := by decide
  names := List.nodup_nil
  placed _ h := absurd h List.not_mem_nil

/-- The first player launches an instance of this challenge. -/
def quotaLaunch (challengeId instanceId : Nat) : SiteJob :=
  .launch ⟨some 0, challengeId, 1, instanceId, "uuid"⟩

/-- A launch, and another one of the same challenge. -/
theorem quota_again :
    let w := (runAlone 0 (quotaLaunch 7 1)).foldl sites.step (SitePool.initial quotaSite)
    Along sites.step (Says (Reuses demoEvent 1) 1) (sites.step w (.spawn (quotaLaunch 7 2)))
      (List.replicate 20 (.step 1 true)) :=
  (@quota_run ℕ quotaSite (runAlone 0 (quotaLaunch 7 1) ++ runAlone 1 (quotaLaunch 7 2))
    orderly_quotaSite (fun _ => Nat.zero_le _) (by decide +kernel)).2.2 _ _ _ demoEvent (.user 1) 1
    rfl (by decide) (by decide) (by decide +kernel)

/-- Three launches that count before any of them inserts. -/
def threeAtOnce : List (Act SiteJob SiteEvent) :=
  [.spawn (quotaLaunch 7 1), .spawn (quotaLaunch (2 ^ 96) 2), .spawn (quotaLaunch (2 ^ 97) 3)] ++
    (List.range 3).flatMap (fun i => List.replicate 6 (.step i true)) ++
    (List.range 3).flatMap (fun i => List.replicate 14 (.step i true))

/-- The launch of a challenge that runs, when the quota is exhausted. -/
def againWhenFull : List (Act SiteJob SiteEvent) :=
  runAlone 0 (quotaLaunch 7 1) ++ runAlone 1 (quotaLaunch (2 ^ 96) 2) ++
    .spawn (quotaLaunch 7 3) :: List.replicate 5 (.step 2 true)

theorem quota_broken :
    (let w := threeAtOnce.foldl sites.step (SitePool.initial quotaSite);
      w.state.quotaOf ⟨0, .user 1⟩ < w.state.taken ⟨0, .user 1⟩) ∧
    (let w := againWhenFull.foldl sites.step (SitePool.initial quotaSite);
      w.state.HasRunning ⟨0, .user 1⟩ 7 1 ∧
        (w.next 2).map (·.2) = some (.reply 3 (.error (quotaError demoEvent 2)))) := by
  decide +kernel

end FloatCtf.Jeopardy
