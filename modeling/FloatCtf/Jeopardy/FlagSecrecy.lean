import FloatCtf.Jeopardy.PlayerInterface

/-!
# The flags of instances are secret

Two sites that differ only in the flags of instances give the same replies to the same requests,
whatever the players ask in whatever order, as long as the listing of an event does not come upon one
of these instances: it shows the rows with their flags.
-/

namespace FloatCtf.Jeopardy

open Process

variable {P α β : Type} {keys : List Nat}

/-- The row without its flag, if it is one of the instances `keys`. -/
def InstanceRow.hide (keys : List Nat) (i : InstanceRow) : InstanceRow :=
  if i.id ∈ keys then { i with flag := "" } else i

/-- The sites differ at most in the flags of the instances `keys`. -/
def SameBut (keys : List Nat) (s s' : Site P) : Prop :=
  ∃ rows, s' = { s with instances := rows } ∧
    s.instances.map (·.hide keys) = rows.map (·.hide keys)

/-- The rows are the same but for their flags. -/
def SameRow (keys : List Nat) (i i' : InstanceRow) : Prop := i.hide keys = i'.hide keys

/-- What does not look at the flag is the same for both rows. -/
theorem SameRow.eq {i i' : InstanceRow} (h : SameRow keys i i') (g : InstanceRow → α)
    (hg : ∀ i : InstanceRow, g { i with flag := "" } = g i) : g i = g i' := by
  have hide_eq (i : InstanceRow) : g (i.hide keys) = g i := by
    unfold InstanceRow.hide
    split
    · exact hg i
    · rfl
  exact (hide_eq i).symm.trans ((congrArg g h).trans (hide_eq i'))

section Rows

variable {rows rows' : List InstanceRow} {p : InstanceRow → Bool}

theorem hide_eq_of_blind (g : InstanceRow → α) (hg : ∀ i : InstanceRow, g { i with flag := "" } = g i) :
    g ∘ (·.hide keys) = g := by
  funext i
  change g (i.hide keys) = g i
  unfold InstanceRow.hide
  split
  · exact hg i
  · rfl

theorem find?_hidden (h : rows.map (·.hide keys) = rows'.map (·.hide keys))
    (hp : ∀ i : InstanceRow, p { i with flag := "" } = p i) :
    (rows.find? p).map (·.hide keys) = (rows'.find? p).map (·.hide keys) := by
  have hfind := congrArg (List.find? p) h
  rwa [List.find?_map, List.find?_map, hide_eq_of_blind p hp] at hfind

theorem filter_hidden (h : rows.map (·.hide keys) = rows'.map (·.hide keys))
    (hp : ∀ i : InstanceRow, p { i with flag := "" } = p i) :
    (rows.filter p).map (·.hide keys) = (rows'.filter p).map (·.hide keys) := by
  have hfilter := congrArg (List.filter p) h
  rwa [List.filter_map, List.filter_map, hide_eq_of_blind p hp] at hfilter

theorem map_hidden {g : InstanceRow → α} (h : rows.map (·.hide keys) = rows'.map (·.hide keys))
    (hg : ∀ i : InstanceRow, g { i with flag := "" } = g i) : rows.map g = rows'.map g := by
  have hmap := congrArg (List.map g) h
  rwa [List.map_map, List.map_map, hide_eq_of_blind g hg] at hmap

theorem any_hidden (h : rows.map (·.hide keys) = rows'.map (·.hide keys))
    (hp : ∀ i : InstanceRow, p { i with flag := "" } = p i) : rows.any p = rows'.any p := by
  have hany := congrArg (List.any · p) h
  simp only [List.any_map] at hany
  rwa [hide_eq_of_blind p hp] at hany

theorem length_hidden (h : rows.map (·.hide keys) = rows'.map (·.hide keys)) :
    rows.length = rows'.length := by
  have hlen := congrArg List.length h
  rwa [List.length_map, List.length_map] at hlen

end Rows

/-! ## Programs of the site -/

section Programs

variable {C : Stmt → Site P → Prop}

/-- The program answers alike in two sites that differ only in the secrets of these instances. -/
abbrev Secret (keys : List Nat) (C : Stmt → Site P → Prop) (p : SiteM P α) : Prop :=
  p.Blind (SameBut keys) C

/-- A read of other tables. -/
theorem secret_query {l : Stmt} {e : String} {f : Site P → α}
    (h : ∀ s rows, f { s with instances := rows } = f s) : Secret keys C (.query l e f) :=
  Prog.alike_query fun s _ ⟨rows, hs, _⟩ _ => hs ▸ (h s rows).symm

theorem secret_look {l : Stmt} {f : Site P → α}
    (h : ∀ s rows, f { s with instances := rows } = f s) : Secret keys C (.look l f) :=
  Prog.alike_look fun s _ ⟨rows, hs, _⟩ => hs ▸ (h s rows).symm

theorem secret_orFail (e : String) (o : Option α) : Secret keys C (orFail e o) := by
  cases o <;> rfl

theorem secret_ofExcept (x : Except String α) : Secret keys C (ofExcept x) := by
  cases x <;> rfl

/-- A command to the daemon. -/
theorem secret_exec {l : Stmt} {e : String} {f : Site P → Except String (Site P × α)}
    (h : ∀ s rows, f { s with instances := rows } =
      (f s).map fun r => ({ r.1 with instances := rows }, r.2))
    (hrows : ∀ s s' a, f s = .ok (s', a) → s'.instances = s.instances) :
    Secret keys C (.exec l e f) := by
  refine Prog.alike_exec ?_
  rintro s _ ⟨rows, rfl, heq⟩
  rw [h s rows]
  cases hf : f s with
  | error err => rfl
  | ok r => exact ⟨⟨rows, rfl, hrows s r.1 r.2 hf ▸ heq⟩, rfl⟩

theorem secret_stopAndRemove (instanceId : Nat) (target : Target) :
    Secret keys C (stopAndRemove instanceId target) := by
  refine Prog.blind_bind (Prog.blind_attempt (secret_exec (fun s rows => ?_) fun s s' a h => ?_))
    fun _ => secret_exec (fun s rows => ?_) fun s s' a h => ?_
  · unfold Site.stopContainers
    change (if s.containers.any target.hits then _ else _) = _
    split <;> rfl
  · obtain ⟨ended, rfl⟩ := stopContainers_inv h
    rfl
  · unfold Site.removeOrWait
    change Except.ok (if s.isGoing target then _ else _, ()) = _
    split <;> rfl
  · cases h
    obtain ⟨-, heq⟩ | ⟨-, heq⟩ := removeOrWait_cases s target
    · rw [heq]
    · rw [heq]
      rfl

theorem secret_launchContainer (p : Participant) (instanceId : Nat) (name : String)
    (spec : ChallengeRuntimeSpec) :
    Secret keys C (launchContainer p instanceId name spec) := by
  refine Prog.blind_bind (secret_query fun _ _ => rfl) fun _ => ?_
  refine Prog.blind_bind (secret_exec (fun s rows => ?_) fun s s' a h => ?_) fun id => ?_
  · unfold Site.createContainer
    change (if s.containers.any (·.name = name) then _ else _) = _
    split <;> rfl
  · unfold Site.createContainer at h
    split at h <;> cases h
    rfl
  refine Prog.blind_bind (secret_query fun _ _ => rfl) fun _ => ?_
  refine Prog.blind_bind (Prog.blind_attempt (Prog.blind_bind (secret_query fun _ _ => rfl)
    fun _ => secret_ofExcept _)) fun r => ?_
  cases r with
  | ok port => rfl
  | error e => exact Prog.blind_bind (Prog.blind_attempt (secret_stopAndRemove _ _)) fun _ => rfl

/-- The insert looks at keys and names. -/
theorem secret_insert (l : Stmt) (row : InstanceRow) :
    Secret keys C (.exec l dbError fun s => do
      let s' ← s.insertInstance row
      .ok (s', ())) := by
  refine Prog.alike_exec ?_
  rintro s _ ⟨rows, rfl, heq⟩
  have hnames : s.instances.any (·.containerName = row.containerName) =
      rows.any (·.containerName = row.containerName) := any_hidden heq fun _ => rfl
  unfold Site.insertInstance
  by_cases hused : row.id ∈ s.usedIds
  · rw [if_pos hused, if_pos hused]
    rfl
  · rw [if_neg hused, if_neg hused, hnames]
    split
    · rfl
    · refine ⟨⟨rows ++ [row], rfl, ?_⟩, rfl⟩
      rw [List.map_append, List.map_append, heq]

theorem secret_persistInstance (p : Participant) (row : InstanceRow) :
    Secret keys C (persistInstance p row) := by
  refine Prog.blind_bind (Prog.blind_attempt (secret_insert _ row)) fun r => ?_
  cases r with
  | ok a => rfl
  | error e =>
    refine Prog.blind_bind (Prog.alike_ite ?_ rfl) fun _ => rfl
    exact Prog.blind_bind (Prog.blind_attempt (secret_stopAndRemove _ _)) fun _ => rfl

theorem secret_getSetting (p : Participant) (key : String) :
    Secret keys C (getSetting p key) :=
  Prog.blind_bind (secret_query fun _ _ => rfl) fun _ => secret_ofExcept _

theorem secret_launchFlag (p : Participant) (event : EventRow) (req : LaunchRequest)
    (challenge : ChallengeRow) : Secret keys C (launchFlag p event req challenge) := by
  unfold launchFlag
  split
  · refine Prog.blind_bind ?_ fun _ => rfl
    unfold flagPrefixOf
    split
    · rfl
    · refine Prog.blind_bind (Prog.blind_attempt (secret_getSetting p _)) fun r => ?_
      cases r <;> rfl
  · exact secret_orFail _ _
  · rfl

theorem secret_launch (p : Participant) (event : EventRow) (req : LaunchRequest)
    (identifier : String) : Secret keys C (launch p event req identifier) := by
  refine Prog.blind_bind (Prog.alike_exec ?_) fun _ => ?_
  · rintro s _ ⟨rows, rfl, heq⟩
    exact ⟨⟨_, rfl, filter_hidden heq fun _ => rfl⟩, rfl⟩
  refine Prog.blind_bind (secret_query fun _ _ => rfl) fun _ => ?_
  refine Prog.blind_bind (secret_orFail _ _) fun challenge => ?_
  split
  · rfl
  refine Prog.blind_bind (secret_launchFlag p event req challenge) fun flag => ?_
  refine Prog.blind_bind (secret_ofExcept _) fun spec => ?_
  refine Prog.blind_bind (secret_getSetting p _) fun _ => ?_
  refine Prog.blind_bind (secret_getSetting p _) fun _ => ?_
  refine Prog.blind_bind (secret_getSetting p _) fun _ => ?_
  refine Prog.blind_bind (secret_ofExcept _) fun _ => ?_
  refine Prog.blind_bind (secret_query fun _ _ => rfl) fun _ => ?_
  split
  · rfl
  refine Prog.blind_bind (secret_look fun _ _ => rfl) fun _ => ?_
  cases spec with
  | none => exact secret_persistInstance p _
  | some spec =>
    exact Prog.blind_bind (secret_launchContainer p _ _ spec) fun _ => secret_persistInstance p _

/-- A row that is found is the same but for its flag. -/
theorem sameRow_find {rows rows' : List InstanceRow} {p : InstanceRow → Bool}
    (h : rows.map (·.hide keys) = rows'.map (·.hide keys))
    (hp : ∀ i : InstanceRow, p { i with flag := "" } = p i) :
    Option.Rel (SameRow keys) (rows.find? p) (rows'.find? p) := by
  have hfind := find?_hidden h hp
  cases hrow : rows.find? p with
  | none =>
    rw [hrow] at hfind
    rw [Option.map_eq_none_iff.1 hfind.symm]
    exact .none
  | some i =>
    rw [hrow] at hfind
    obtain ⟨i', hi', hii'⟩ := Option.map_eq_some_iff.1 hfind.symm
    rw [hi']
    exact .some hii'.symm

theorem sameRow_findRunning {s s' : Site P} (h : SameBut keys s s') (p : Participant) (c : Nat) :
    Option.Rel (SameRow keys) (s.findRunning p c) (s'.findRunning p c) := by
  obtain ⟨rows, rfl, heq⟩ := h
  exact sameRow_find heq fun _ => rfl

theorem alike_reuseOrLaunch (p : Participant) (event : EventRow) (req : LaunchRequest) :
    (reuseOrLaunch p event req : SiteM P InstanceRow).Alike (SameBut keys) C (SameRow keys)
      (reuseOrLaunch p event req) := by
  refine Prog.alike_bind (Prog.alike_query fun s s' hs _ => sameRow_findRunning hs p _)
    fun found found' h => ?_
  cases h with
  | none => exact (secret_launch p event req _).imp fun i i' hii' => congrArg _ hii'
  | some h => exact h

theorem secret_requireAccess (event : EventRow) (userId : Nat) :
    Secret keys C (requireAccess event userId) := by
  refine Prog.alike_ite (Prog.blind_bind ?_ fun _ => ?_) rfl
  · exact Prog.blind_bind (secret_query fun _ _ => rfl) fun _ => Prog.alike_ite rfl rfl
  · exact Prog.blind_bind (secret_look fun _ _ => rfl) fun _ => secret_ofExcept _

theorem secret_resolveParticipant (event : EventRow) (userId : Nat) :
    Secret keys C (resolveParticipant event userId) := by
  unfold resolveParticipant
  split
  · rfl
  · refine Prog.blind_bind (secret_query fun _ _ => rfl) fun _ => ?_
    refine Prog.blind_bind (secret_orFail _ _) fun _ => ?_
    exact Prog.blind_bind (secret_query fun _ _ => rfl) fun _ => rfl

theorem secret_requireEventChallenge (event : EventRow) (challengeId : Nat) :
    Secret keys C (requireEventChallenge event challengeId) := by
  refine Prog.alike_ite (Prog.blind_bind (secret_query fun _ _ => rfl) fun _ => ?_) rfl
  exact Prog.blind_bind (secret_orFail _ _) fun _ => Prog.alike_ite rfl rfl

theorem secret_requireJeopardyFamily (event : EventRow) :
    Secret keys C (requireJeopardyFamily event) := Prog.alike_ite rfl rfl

theorem secret_policyFromEvent (event : EventRow) : Secret keys C (policyFromEvent event) :=
  Prog.alike_ite rfl rfl

theorem alike_launchInstance (event : EventRow) (req : LaunchRequest) :
    (launchInstance event req : SiteM P InstanceRow).Alike (SameBut keys) C (SameRow keys)
      (launchInstance event req) := by
  refine Prog.alike_bind (secret_requireJeopardyFamily event) fun _ _ _ => ?_
  refine Prog.alike_bind (secret_policyFromEvent event) fun _ _ _ => ?_
  refine Prog.alike_bind (secret_requireAccess event _) fun _ _ _ => ?_
  refine Prog.alike_bind (secret_resolveParticipant event _) fun r _ hr => ?_
  subst hr
  refine Prog.alike_bind (secret_requireEventChallenge event _) fun _ _ _ => ?_
  refine Prog.alike_bind (Q := Eq) (Prog.alike_query ?_) fun n _ hn => ?_
  · rintro s _ ⟨rows, rfl, heq⟩ -
    exact length_hidden (filter_hidden heq fun _ => rfl)
  subst hn
  exact Prog.alike_ite rfl (alike_reuseOrLaunch _ event req)

theorem secret_loadEvent (eventId : Option Nat) : Secret keys C (loadEvent eventId) := by
  unfold loadEvent
  split <;> exact Prog.blind_bind (secret_query fun _ _ => rfl) fun _ => secret_orFail _ _

theorem secret_answerLaunch (req : LaunchRequest) : Secret keys C (answerLaunch req) := by
  have hlaunch : (launchRequested req : SiteM P InstanceRow).Alike (SameBut keys) C (SameRow keys)
      (launchRequested req) :=
    Prog.alike_bind (secret_loadEvent _) fun event _ he => he ▸ alike_launchInstance event req
  refine Prog.alike_bind (Prog.alike_attempt hlaunch) fun r r' h => ?_
  have hreply : r.map (·.id) = r'.map (·.id) := by
    cases r <;> cases r'
    · exact congrArg Except.error h
    · exact absurd h id
    · exact absurd h id
    · exact congrArg Except.ok (h.eq (·.id) fun _ => rfl)
  rw [hreply]
  exact secret_look fun _ _ => rfl

/-! ## Destruction -/

/-- The new state of a row has nothing to do with its flag. -/
theorem map_update_hidden (rows : List InstanceRow) (id : Nat) (expected next : RuntimeState)
    (now : Int) :
    (rows.map fun i => if i.id = id ∧ i.runtimeState = expected then
        { i with runtimeState := next, updatedAt := now } else i).map (·.hide keys) =
      (rows.map (·.hide keys)).map fun i => if i.id = id ∧ i.runtimeState = expected then
        { i with runtimeState := next, updatedAt := now } else i := by
  rw [List.map_map, List.map_map]
  refine List.map_congr_left fun i _ => ?_
  simp only [Function.comp_apply, InstanceRow.hide]
  by_cases hi : i.id = id ∧ i.runtimeState = expected
  · obtain ⟨rfl, rfl⟩ := hi
    by_cases hkey : i.id ∈ keys <;> simp [hkey]
  · by_cases hkey : i.id ∈ keys <;> simp [hkey, hi]

theorem secret_transition (cause : Cause) (id : Nat) (expected next : RuntimeState) :
    Secret keys C (transitionRuntimeState cause id expected next) := by
  refine Prog.alike_exec ?_
  rintro s _ ⟨rows, rfl, heq⟩
  have hany : s.instances.any (fun i => i.id = id ∧ i.runtimeState = expected) =
      rows.any fun i => i.id = id ∧ i.runtimeState = expected := any_hidden heq fun _ => rfl
  unfold Site.transition
  rw [hany]
  split
  · refine ⟨⟨_, rfl, ?_⟩, rfl⟩
    rw [map_update_hidden, map_update_hidden, heq]
  · rfl

theorem secret_destroyModel (row : InstanceRow) : Secret keys C (destroyModel row) := by
  refine Prog.blind_bind (Prog.blind_attempt (Prog.blind_bind (secret_query fun _ _ => rfl)
    fun _ => Prog.blind_bind (secret_orFail _ _) fun _ =>
      Prog.alike_ite (secret_stopAndRemove _ _) rfl)) fun r => ?_
  cases r with
  | ok a => exact secret_transition _ _ _ _
  | error e =>
    refine Prog.blind_bind (Prog.alike_ite ?_ rfl) fun _ => rfl
    exact Prog.blind_bind (Prog.blind_attempt (secret_transition _ _ _ _)) fun _ => rfl

theorem secret_destroy {l : Stmt} {e : String} {f : Site P → Option InstanceRow}
    (h : ∀ s s', SameBut keys s s' → Option.Rel (SameRow keys) (f s) (f s')) :
    Secret keys C (.query l e f >>= destroyFound) := by
  refine Prog.alike_bind (Prog.alike_query fun s s' hs _ => h s s' hs) fun found found' hrel => ?_
  cases hrel with
  | none => rfl
  | some hrow =>
    rw [SameRow.eq hrow (fun i => destroyFound (some i)) fun _ => rfl]
    exact Prog.blind_bind (secret_destroyModel _) fun _ => rfl

theorem rel_filter {o o' : Option InstanceRow} {p : InstanceRow → Bool}
    (h : Option.Rel (SameRow keys) o o') (hp : ∀ i : InstanceRow, p { i with flag := "" } = p i) :
    Option.Rel (SameRow keys) (o.filter p) (o'.filter p) := by
  cases h with
  | none => exact .none
  | some hrow =>
    rw [Option.filter_some, Option.filter_some, hrow.eq p hp]
    split
    · exact .some hrow
    · exact .none

theorem secret_destroyOwned (id userId : Nat) : Secret keys C (destroyOwned id userId) := by
  refine secret_destroy ?_
  rintro s _ ⟨rows, rfl, heq⟩
  exact rel_filter (sameRow_find heq fun _ => rfl) fun _ => rfl

theorem secret_destroyTeamOwned (id eventId teamId : Nat) :
    Secret keys C (destroyTeamOwned id eventId teamId) := by
  refine secret_destroy ?_
  rintro s _ ⟨rows, rfl, heq⟩
  exact rel_filter (sameRow_find heq fun _ => rfl) fun _ => rfl

theorem each_hidden {f : InstanceRow → SiteM P Unit}
    (hf : ∀ i : InstanceRow, f { i with flag := "" } = f i) (rows : List InstanceRow) :
    Prog.each (rows.map (·.hide keys)) f = Prog.each rows f := by
  induction rows with
  | nil => rfl
  | cons i rows ih =>
    have hi : f (i.hide keys) = f i := congrFun (hide_eq_of_blind f hf) i
    simp only [List.map_cons, Prog.each, hi, ih]

/-- A program for each of the rows that were read. -/
theorem secret_eachRow {l : Stmt} {e : String} {g : Site P → List InstanceRow}
    {f : InstanceRow → SiteM P Unit}
    (hg : ∀ s s', SameBut keys s s' → (g s).map (·.hide keys) = (g s').map (·.hide keys))
    (hf : ∀ i, Secret keys C (f i)) (hblind : ∀ i : InstanceRow, f { i with flag := "" } = f i) :
    Secret keys C (.query l e g >>= fun rows => Prog.each rows f) := by
  refine Prog.alike_bind (Q := fun rows rows' => rows.map (·.hide keys) = rows'.map (·.hide keys))
    (Prog.alike_query fun s s' hs _ => hg s s' hs) fun rows rows' heq => ?_
  have hrows : Prog.each (rows.map (·.hide keys)) f = Prog.each rows f := each_hidden hblind rows
  rw [← hrows, heq, each_hidden hblind]
  exact Prog.blind_each hf

theorem secret_site (j : SiteJob) : Secret keys C (SiteJob.prog j) := by
  cases j with
  | launch req => exact secret_answerLaunch req
  | destroyOwned id userId =>
    exact Prog.blind_bind (secret_destroyOwned id userId) fun _ => rfl
  | destroyTeamOwned id eventId teamId =>
    exact Prog.blind_bind (secret_destroyTeamOwned id eventId teamId) fun _ => rfl
  | cleanupRunning =>
    refine secret_eachRow ?_ (fun i => ?_) fun _ => rfl
    · rintro s _ ⟨rows, rfl, heq⟩
      exact filter_hidden heq fun _ => rfl
    · exact Prog.blind_bind (Prog.blind_attempt (secret_destroyModel i)) fun _ => rfl
  | reconcile minAge =>
    refine secret_eachRow ?_ (fun i => ?_) fun _ => rfl
    · rintro s _ ⟨rows, rfl, heq⟩
      exact filter_hidden heq fun _ => rfl
    · refine Prog.blind_bind (Prog.blind_attempt (secret_query fun _ _ => rfl)) fun r => ?_
      match r with
      | .ok true => rfl
      | .ok false => exact secret_transition _ _ _ _
      | .error e => rfl

end Programs

/-! ## Requests -/

/-- The listing of an event does not come upon one of the instances. -/
def Unlisted (keys : List Nat) (l : PlayerStmt P) (s : Site P) : Prop :=
  match l with
  | .listRows p => ∀ i ∈ s.instances, p.runs i = true → i.id ∉ keys
  | _ => True

section Requests

variable {ε : Type}

/-- A program of the players that does not tell the flags of the instances. -/
abbrev Discreet (keys : List Nat) (p : Prog (PlayerStmt P) (Site P) ε α) : Prop :=
  p.Blind (SameBut keys) (Unlisted keys)

theorem discreet_app {p : SiteM P α} (h : Secret keys (fun l => Unlisted keys (.site l)) p) :
    Discreet keys p.app := Prog.alike_embed h

theorem discreet_mapErr {f : String → ApiError} {p : AppM P α} (h : Discreet keys p) :
    Discreet keys (p.mapErr f) := Prog.alike_embed h

theorem discreet_read {f : Site P → α} (h : ∀ s rows, f { s with instances := rows } = f s) :
    Discreet keys (read f) :=
  Prog.alike_query fun s _ ⟨rows, hs, _⟩ _ => hs ▸ (h s rows).symm

theorem discreet_readApp {f : Site P → α} (h : ∀ s rows, f { s with instances := rows } = f s) :
    Discreet keys (readApp f) :=
  Prog.alike_query fun s _ ⟨rows, hs, _⟩ _ => hs ▸ (h s rows).symm

theorem discreet_orElse (e : ApiError) (o : Option α) :
    Discreet keys (orElse e o : PlayerM P α) := by
  cases o <;> rfl

theorem discreet_now :
    Discreet keys (.look .read (·.now) : Prog (PlayerStmt P) (Site P) ε Int) :=
  Prog.alike_look fun _ _ ⟨_, hs, _⟩ => hs ▸ rfl

theorem discreet_requireStarted (event : EventRow) (userId : Nat) :
    Discreet keys (requireStarted event userId : AppM P Unit) := by
  refine Prog.alike_ite (Prog.blind_bind ?_ fun _ => ?_) rfl
  · refine discreet_app (Prog.blind_bind (secret_query fun _ _ => rfl) fun _ => ?_)
    exact Prog.alike_ite rfl rfl
  · exact Prog.blind_bind discreet_now fun _ => Prog.alike_ite rfl rfl

theorem discreet_enter (event : EventRow) (userId : Nat) :
    Discreet keys (enter event userId : AppM P Participant) := by
  refine Prog.blind_bind (discreet_app (secret_requireJeopardyFamily event)) fun _ => ?_
  refine Prog.blind_bind (discreet_app (secret_policyFromEvent event)) fun _ => ?_
  refine Prog.blind_bind (discreet_requireStarted event userId) fun _ => ?_
  exact Prog.blind_bind (discreet_app (secret_resolveParticipant event userId)) fun _ => rfl

theorem alike_findInstanceByChallengeId (event : EventRow) (userId challengeId : Nat) :
    (findInstanceByChallengeId event userId challengeId : AppM P _).Alike (SameBut keys)
      (Unlisted keys) (Option.Rel (SameRow keys))
      (findInstanceByChallengeId event userId challengeId) := by
  refine Prog.alike_bind (discreet_enter event userId) fun p _ hp => ?_
  subst hp
  exact Prog.alike_query fun s s' hs _ => sameRow_findRunning hs p challengeId

/-- What is shown of a row does not have its flag. -/
theorem shown_eq {o o' : Option InstanceRow} (h : Option.Rel (SameRow keys) o o') :
    o.map shown = o'.map shown := by
  cases h with
  | none => rfl
  | some hrow => exact congrArg some (hrow.eq shown fun _ => rfl)

/-- Rows whose flags are not hidden. -/
theorem eq_of_hidden {rows rows' : List InstanceRow}
    (h : rows.map (·.hide keys) = rows'.map (·.hide keys)) (hkeys : ∀ i ∈ rows, i.id ∉ keys) :
    rows = rows' := by
  have hids : rows.map (·.id) = rows'.map (·.id) := map_hidden h fun _ => rfl
  have hkeys' : ∀ i ∈ rows', i.id ∉ keys := by
    intro i' hi'
    obtain ⟨i, hi, hid⟩ := List.mem_map.1 (hids ▸ List.mem_map_of_mem hi')
    exact hid ▸ hkeys i hi
  have hsame : ∀ l : List InstanceRow, (∀ i ∈ l, i.id ∉ keys) → l.map (·.hide keys) = l := by
    intro l hl
    refine (List.map_congr_left fun i hi => ?_).trans (List.map_id l)
    exact if_neg (hl i hi)
  rwa [hsame rows hkeys, hsame rows' hkeys'] at h

/-- The rows that the listing comes upon are the same, flags and all, if it meets the condition. -/
theorem listed_eq {s s' : Site P} (hs : SameBut keys s s') {p : Participant}
    (hp : Unlisted keys (.listRows p) s) : s.modeInstances p = s'.modeInstances p := by
  obtain ⟨rows, rfl, heq⟩ := hs
  have hrows : s.instances.filter p.runs = rows.filter p.runs := by
    refine eq_of_hidden (filter_hidden heq fun _ => rfl) fun i hi => ?_
    obtain ⟨hmem, hruns⟩ := List.mem_filter.1 hi
    exact hp i hmem hruns
  exact congrArg (List.map _) hrows

theorem discreet_getInstances (event : EventRow) (userId : Nat) :
    Discreet keys (getInstances event userId : AppM P _) := by
  refine Prog.blind_bind (discreet_enter event userId) fun p => ?_
  refine Prog.blind_bind (Prog.alike_query fun s s' hs hp => listed_eq hs hp) fun data => ?_
  split
  · exact Prog.blind_bind (Prog.alike_ite rfl (discreet_readApp fun _ _ => rfl)) fun _ => rfl
  · rfl

theorem discreet_loadVisible (eventId : Nat) :
    Discreet keys (loadVisible eventId : PlayerM P EventRow) :=
  Prog.blind_bind (discreet_read fun _ _ => rfl) fun _ => discreet_orElse _ _

theorem discreet_listEventInstances (userId eventId : Nat) :
    Discreet keys (listEventInstances userId eventId : PlayerM P _) := by
  refine Prog.blind_bind (discreet_loadVisible eventId) fun event => ?_
  exact Prog.blind_bind (discreet_mapErr (discreet_getInstances event userId)) fun _ => rfl

theorem discreet_eventChallengeInstance (userId eventId challengeId : Nat) :
    Discreet keys (eventChallengeInstance userId eventId challengeId : PlayerM P _) := by
  refine Prog.blind_bind (discreet_loadVisible eventId) fun event => ?_
  refine Prog.alike_bind (Prog.alike_embed (alike_findInstanceByChallengeId event userId
    challengeId)) fun found found' h => ?_
  rw [shown_eq h]
  rfl

/-- The seeds of a request for one instance. -/
theorem alike_loadSeed (instanceId : Nat) :
    (loadSeed instanceId : PlayerM P _).Alike (SameBut keys) (Unlisted keys)
      (fun r r' => SameRow keys r.1 r'.1 ∧ r.2 = r'.2) (loadSeed instanceId) := by
  refine Prog.alike_bind (Q := Option.Rel (SameRow keys)) (Prog.alike_query ?_) fun o o' h => ?_
  · rintro s _ ⟨rows, rfl, heq⟩ -
    exact sameRow_find heq fun _ => rfl
  cases h with
  | none => rfl
  | @some seed seed' hseed =>
    have hevent : seed.eventId = seed'.eventId := hseed.eq (·.eventId) fun _ => rfl
    change Prog.Alike _ _ _ (read (·.findEvent seed.eventId) >>= _)
      (read (·.findEvent seed'.eventId) >>= _)
    rw [hevent]
    refine Prog.alike_bind (discreet_read fun _ _ => rfl) fun event _ he => ?_
    subst he
    refine Prog.alike_bind (discreet_orElse _ event) fun event _ he => ?_
    exact ⟨hseed, he⟩

theorem discreet_getInstance (userId instanceId : Nat) :
    Discreet keys (getInstance userId instanceId : PlayerM P _) := by
  refine Prog.alike_bind (alike_loadSeed instanceId) fun ⟨seed, event⟩ ⟨seed', event'⟩ h => ?_
  obtain ⟨hseed, rfl⟩ := h
  have hchallenge : seed.challengeId = seed'.challengeId := hseed.eq (·.challengeId) fun _ => rfl
  simp only [hchallenge]
  refine Prog.alike_bind (Prog.alike_embed (alike_findInstanceByChallengeId event userId
    seed'.challengeId)) fun found found' h => ?_
  have hfound := rel_filter h (p := fun i => i.id = instanceId) fun _ => rfl
  revert hfound
  generalize found.filter _ = o, found'.filter _ = o'
  intro hfound
  cases hfound with
  | none => rfl
  | some hrow => exact congrArg (fun dto => Response.instance (some dto)) (hrow.eq shown fun _ => rfl)

theorem discreet_practiceChallengeInstance (userId challengeId : Nat) :
    Discreet keys (practiceChallengeInstance userId challengeId : PlayerM P _) := by
  refine Prog.blind_bind (discreet_read fun _ _ => rfl) fun _ => ?_
  refine Prog.blind_bind (discreet_orElse _ _) fun practice => ?_
  refine Prog.alike_bind (Prog.alike_query fun s s' hs _ => sameRow_findRunning hs _ challengeId)
    fun found found' h => ?_
  rw [shown_eq h]
  rfl

theorem discreet_destroyRequested (userId instanceId : Nat) :
    Discreet keys (destroyRequested userId instanceId : PlayerM P _) := by
  refine Prog.alike_bind (alike_loadSeed instanceId) fun ⟨seed, event⟩ ⟨seed', event'⟩ h => ?_
  obtain ⟨-, rfl⟩ := h
  refine Prog.blind_bind (discreet_mapErr ?_) fun _ => rfl
  refine Prog.blind_bind (discreet_app (secret_requireJeopardyFamily event)) fun _ => ?_
  refine Prog.blind_bind (discreet_app (secret_policyFromEvent event)) fun _ => ?_
  refine Prog.blind_bind (discreet_app (secret_resolveParticipant event userId)) fun r => ?_
  refine Prog.blind_bind ?_ fun _ => Prog.alike_ite rfl rfl
  cases r.subject with
  | user id => exact discreet_app (secret_destroyOwned _ _)
  | team id => exact discreet_app (secret_destroyTeamOwned _ _ _)

theorem discreet_launchHandler (req : LaunchRequest) :
    Discreet keys (launchHandler req : PlayerM P _) := by
  refine Prog.blind_bind ?_ fun event => ?_
  · unfold launchEvent
    split <;> exact Prog.blind_bind (discreet_read fun _ _ => rfl) fun _ => discreet_orElse _ _
  refine Prog.alike_bind (Prog.alike_embed (Prog.alike_embed (alike_launchInstance event req)))
    fun i i' hrow => ?_
  have hid : i.id = i'.id := hrow.eq (·.id) fun _ => rfl
  simp only [hid]
  refine Prog.alike_bind (Q := Option.Rel (SameRow keys)) (Prog.alike_query ?_) fun o o' h => ?_
  · rintro s _ ⟨rows, rfl, heq⟩ -
    exact sameRow_find heq fun _ => rfl
  cases h with
  | none => rfl
  | @some current current' hcurrent =>
    have hruntime : current.runtime = current'.runtime := hcurrent.eq (·.runtime) fun _ => rfl
    have hshown := hrow.eq (InstancesDto.fromPair · current'.runtime) fun _ => rfl
    exact congrArg (fun dto => Response.instance (some dto)) (hruntime ▸ hshown)

theorem practiceDto_hidden {rows rows' : List InstanceRow}
    (h : rows.map (·.hide keys) = rows'.map (·.hide keys)) (awdp : List AwdpPractice)
    (challengeTitle eventTitle : Nat → Option String) (userName : Option String) (userId : Nat) :
    practiceDto rows awdp challengeTitle eventTitle userName userId =
      practiceDto rows' awdp challengeTitle eventTitle userName userId := by
  funext runtime
  have hfind := sameRow_find (p := fun i => i.id = runtime.id) h fun _ => rfl
  unfold practiceDto
  generalize rows.find? _ = o, rows'.find? _ = o' at hfind
  cases hfind with
  | none => rfl
  | some hrow =>
    have hdto := hrow.eq (fun i => some { InstancesDto.fromPair i runtime with
      challengeTitle := challengeTitle i.challengeId
      eventTitle := eventTitle runtime.eventId
      userName := userName }) fun _ => rfl
    exact hdto

theorem discreet_collectPracticeInstances (userId : Nat) :
    Discreet keys (collectPracticeInstances userId : PlayerM P _) := by
  refine Prog.blind_bind (Prog.alike_query ?_) fun rows => ?_
  · rintro s _ ⟨rows, rfl, heq⟩ -
    have hruntime : s.instances.map (·.runtime) = rows.map (·.runtime) :=
      map_hidden heq fun _ => rfl
    simp only [Site.ownedRuntimes, hruntime]
  refine Prog.alike_ite rfl ?_
  refine Prog.alike_bind (Q := fun rows rows' => rows.map (·.hide keys) = rows'.map (·.hide keys))
    (Prog.alike_query ?_) fun challengeRows challengeRows' heq => ?_
  · rintro s _ ⟨rows', rfl, heq⟩ -
    exact filter_hidden heq fun _ => rfl
  refine Prog.alike_bind (discreet_read fun _ _ => rfl) fun awdp _ h => ?_
  subst h
  refine Prog.alike_bind (discreet_read fun _ _ => rfl) fun challengeTitle _ h => ?_
  subst h
  refine Prog.alike_bind (discreet_read fun _ _ => rfl) fun eventTitle _ h => ?_
  subst h
  refine Prog.alike_bind (discreet_read fun _ _ => rfl) fun userName _ h => ?_
  subst h
  exact congrArg (List.filterMap · rows) (practiceDto_hidden heq _ _ _ _ _)

theorem discreet_listPracticeInstances (userId : Nat) (query : QueryParams) :
    Discreet keys (listPracticeInstances userId query : PlayerM P _) :=
  Prog.blind_bind (discreet_collectPracticeInstances userId) fun _ => rfl

theorem discreet_parsed (o : Outside P) (text : String) : Discreet keys (parsed o text) := by
  unfold parsed
  split <;> rfl

theorem discreet_readSetting (key : String) : Discreet keys (readSetting key : AppM P String) := by
  refine Prog.blind_bind (discreet_readApp fun _ _ => rfl) fun r => ?_
  cases r <;> rfl

theorem discreet_calculateNextDynamicScore (o : Outside P) (basePoints : P) (solves : Nat) :
    Discreet keys (calculateNextDynamicScore o basePoints solves) := by
  refine Prog.alike_ite rfl ?_
  refine Prog.blind_bind (discreet_readSetting _) fun _ => ?_
  refine Prog.blind_bind (discreet_parsed o _) fun _ => ?_
  refine Prog.blind_bind (discreet_readSetting _) fun _ => ?_
  exact Prog.blind_bind (discreet_parsed o _) fun _ => rfl

theorem discreet_solvedNo (eventId challengeId : Nat) (solve : Option (SolveRecord P)) :
    Discreet keys (solvedNo eventId challengeId solve) := by
  cases solve with
  | none => rfl
  | some v => exact Prog.blind_bind (discreet_readApp fun _ _ => rfl) fun _ => rfl

theorem discreet_challengeSolveStatus (event : EventRow) (challengeId userId : Nat) :
    Discreet keys (challengeSolveStatus event challengeId userId : AppM P _) := by
  unfold challengeSolveStatus
  split
  · exact Prog.blind_bind (discreet_readApp fun _ _ => rfl) fun _ => discreet_solvedNo _ _ _
  · refine Prog.blind_bind (discreet_readApp fun _ _ => rfl) fun found => ?_
    cases found with
    | none => rfl
    | some membership =>
      exact Prog.blind_bind (discreet_readApp fun _ _ => rfl) fun _ => discreet_solvedNo _ _ _

theorem discreet_eventChallengeResults (o : Outside P) (event : EventRow) (userId : Nat)
    (published : List (EventChallenge P × Option ChallengeRow)) :
    Discreet keys (eventChallengeResults o event userId published) := by
  induction published with
  | nil => rfl
  | cons c rest ih =>
    match c with
    | (_, none) => exact ih
    | (eventChallenge, some c) =>
      refine Prog.blind_bind ?_ fun _ => Prog.blind_bind ih fun _ => rfl
      refine Prog.blind_bind (discreet_read fun _ _ => rfl) fun _ => ?_
      refine Prog.blind_bind (discreet_mapErr (discreet_challengeSolveStatus _ _ _)) fun _ => ?_
      exact Prog.blind_bind (discreet_mapErr (discreet_calculateNextDynamicScore _ _ _))
        fun _ => rfl

theorem discreet_listEventChallenges (o : Outside P) (userId eventId : Nat) :
    Discreet keys (listEventChallenges o userId eventId) := by
  refine Prog.blind_bind (discreet_loadVisible eventId) fun event => ?_
  refine Prog.blind_bind (discreet_loadVisible eventId) fun again => ?_
  refine Prog.blind_bind discreet_now fun now => Prog.alike_ite rfl ?_
  refine Prog.blind_bind (discreet_read fun _ _ => rfl) fun joined => Prog.alike_ite rfl ?_
  refine Prog.blind_bind (discreet_read fun _ _ => rfl) fun published => ?_
  exact Prog.blind_bind (discreet_eventChallengeResults o event userId published) fun _ => rfl

theorem discreet_listChallenges (o : Outside P) (userId : Nat)
    (keep : ChallengesDto → Bool → Bool) (query : QueryParams) :
    Discreet keys (listChallenges o userId keep query) :=
  Prog.blind_bind (discreet_read fun _ _ => rfl) fun _ =>
    Prog.blind_bind (discreet_read fun _ _ => rfl) fun _ => rfl

theorem discreet_request (o : Outside P) (r : PlayerRequest P) : Discreet keys (r.prog o) := by
  cases r with
  | launch req => exact discreet_launchHandler req
  | getInstance userId instanceId => exact discreet_getInstance userId instanceId
  | listPracticeInstances userId query => exact discreet_listPracticeInstances userId query
  | listEventInstances userId eventId => exact discreet_listEventInstances userId eventId
  | eventChallengeInstance userId eventId challengeId =>
    exact discreet_eventChallengeInstance userId eventId challengeId
  | practiceChallengeInstance userId challengeId =>
    exact discreet_practiceChallengeInstance userId challengeId
  | listEventChallenges userId eventId => exact discreet_listEventChallenges o userId eventId
  | listChallenges userId keep query => exact discreet_listChallenges o userId keep query
  | destroyInstance userId instanceId => exact discreet_destroyRequested userId instanceId

end Requests

/-! ## Runs -/

theorem players_oblivious (o : Outside P) (keys : List Nat) :
    (players o).Oblivious (SameBut keys) (Unlisted keys) where
  prog j := by
    cases j with
    | request r =>
      refine Prog.blind_bind (Prog.blind_attempt (discreet_request o r)) fun _ => ?_
      exact Prog.alike_look fun _ _ _ => rfl
    | site j => exact discreet_mapErr (discreet_app (secret_site j))
  env e := by
    rintro s _ ⟨rows, rfl, heq⟩
    cases e with
    | passes seconds | imported challenge | exits id => exact ⟨rows, rfl, heq⟩
    | autoRemoves id =>
      by_cases hid : id ∈ s.ended
      · simp only [players, SiteEvent.act, hid, if_true]
        exact ⟨rows, rfl, heq⟩
      · simp only [players, SiteEvent.act, hid, if_false]
        exact ⟨rows, rfl, heq⟩
    | gone id =>
      by_cases hid : id ∈ s.going
      · simp only [players, SiteEvent.act, hid, if_true]
        exact ⟨rows, rfl, heq⟩
      · simp only [players, SiteEvent.act, hid, if_false]
        exact ⟨rows, rfl, heq⟩
  watch j l s s' seen := by cases l <;> rfl

/-- The databases differ only in the flags of instances. -/
def DifferInFlags (s s' : Site P) : Prop :=
  ∃ rows, s' = { s with instances := rows } ∧
    s.instances.map (fun i => { i with flag := "" }) = rows.map fun i => { i with flag := "" }

theorem DifferInFlags.sameBut {s s' : Site P} (h : DifferInFlags s s') :
    SameBut (s.instances.map (·.id)) s s' := by
  obtain ⟨rows, rfl, heq⟩ := h
  refine ⟨rows, rfl, ?_⟩
  have hids : s.instances.map (·.id) = rows.map (·.id) := by
    have hmap := congrArg (List.map (·.id)) heq
    rwa [List.map_map, List.map_map] at hmap
  have hall : ∀ l : List InstanceRow, l.map (·.id) = s.instances.map (·.id) →
      l.map (·.hide (s.instances.map (·.id))) = l.map fun i => { i with flag := "" } := by
    intro l hl
    refine List.map_congr_left fun i hi => if_pos ?_
    rw [← hl]
    exact List.mem_map_of_mem hi
  rw [hall _ rfl, hall rows hids.symm, heq]

/-- A site before any request. -/
def PlayerPool.initial (s : Site P) : Pool (PlayerStmt P) (Site P) ApiError
    (List (Nat × Except ApiError (Response P))) (PlayerJob P) :=
  ⟨s, [], []⟩

/-- In two databases that differ only in flags the players get the same replies, in every run in which
the listing of an event comes upon no running instance that was there at the start. -/
theorem flags_secret (o : Outside P) {s s' : Site P} (h : DifferInFlags s s')
    {acts : List (Act (PlayerJob P) SiteEvent)}
    (ha : Along (players o).step (Meets fun _ l v => Unlisted (s.instances.map (·.id)) l v.1)
      (PlayerPool.initial s) acts) :
    (acts.foldl (players o).step (PlayerPool.initial s)).ghost =
      (acts.foldl (players o).step (PlayerPool.initial s')).ghost := by
  have hstart : (PlayerPool.initial s).Alike (SameBut (s.instances.map (·.id)))
      (Unlisted (s.instances.map (·.id))) (PlayerPool.initial s') := ⟨h.sameBut, rfl, .nil⟩
  exact (alike_run (players_oblivious o _) hstart ha).ghost

instance (keys : List Nat) (l : PlayerStmt P) (s : Site P) : Decidable (Unlisted keys l s) :=
  match l with
  | .listRows p =>
    inferInstanceAs (Decidable (∀ i ∈ s.instances, p.runs i = true → i.id ∉ keys))
  | .site _ | .read | .reply _ _ => inferInstanceAs (Decidable True)

/-- A running instance of the first player with this flag. -/
def demoRow (flag : String) : InstanceRow where
  id := 1
  eventId := 0
  challengeId := 7
  userId := 1
  teamId := none
  flag := flag
  runtimeState := .running
  ownerUserId := some 1
  content := none
  imageRef := none
  containerName := "JS-00000000-00000000-00000000"
  createdAt := 50
  updatedAt := 50
  expiresAt := none
  container := none

/-- The player has a running instance with the flag. -/
def flagSite (flag : String) : Site Nat where
  now := 100
  settings := []
  events := [⟨⟨0, .jeopardy, .competition, .individual, none, 0, none⟩, "demo", false, none⟩]
  users := [⟨1, "player"⟩]
  eventUsers := [⟨0, 1, 0, false⟩]
  members := []
  eventChallenges := [⟨0, 7, 100, false⟩]
  challenges := [⟨7, "web", "web", false, some "ready", some "dynamic", none, none, none, none⟩]
  solves := []
  awdp := []
  instances := [demoRow flag]
  usedIds := [1]
  containers := []
  ended := []
  going := []
  created := []
  assignPort id := id

/-- What comes from outside: no number can be read and the filters match everything. -/
def demoOutside : Outside Nat := ⟨fun _ => .error "", fun base _ _ _ => base, fun _ _ => true⟩

/-- One request after the other. -/
def requested (rs : List (PlayerRequest Nat)) : List (Act (PlayerJob Nat) SiteEvent) :=
  rs.zipIdx.flatMap fun (r, n) => .spawn (.request r) :: List.replicate 12 (.step n true)

/-- The instance is launched again, looked at and destroyed. -/
def discreetDay : List (Act (PlayerJob Nat) SiteEvent) :=
  requested [.launch ⟨some 0, 7, 1, 2, ""⟩, .getInstance 1 1, .eventChallengeInstance 1 0 7,
    .destroyInstance 1 1]

theorem flags_secret_discreetDay :
    (discreetDay.foldl (players demoOutside).step (PlayerPool.initial (flagSite "a"))).ghost =
      (discreetDay.foldl (players demoOutside).step (PlayerPool.initial (flagSite "b"))).ghost :=
  flags_secret demoOutside ⟨[demoRow "b"], rfl, rfl⟩ (by decide +kernel)

/-- The listing of an event shows the player the flag of the instance. -/
theorem flags_not_secret :
    DifferInFlags (flagSite "a") (flagSite "b") ∧
      ((requested [.listEventInstances 1 0]).foldl (players demoOutside).step
          (PlayerPool.initial (flagSite "a"))).ghost ≠
        ((requested [.listEventInstances 1 0]).foldl (players demoOutside).step
          (PlayerPool.initial (flagSite "b"))).ghost :=
  ⟨⟨[demoRow "b"], rfl, rfl⟩, by decide +kernel⟩

end FloatCtf.Jeopardy
