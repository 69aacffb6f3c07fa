import FloatCtf.Jeopardy.Submission
import FloatCtf.Process.Pool
import Mathlib.Algebra.Group.Nat.Defs

/-!
# Instances of challenges

A player launches an instance of a challenge: a container, when the challenge has a port, and a row
in the database.  The container carries a name that is made of the event, its owner and the
challenge.  Instances are destroyed by their owners, by a timer, by a cleanup of what has expired,
and a reconciliation marks those whose containers are gone as failed.

All of these are programs over one state, the tables and the containers of the Docker
daemon. -/

namespace FloatCtf.Jeopardy

open Process

variable {P : Type}

/-! ## Rows -/

/-- An event with the columns that a launch reads. -/
structure EventRow extends Event where
  title : String
  hidden : Bool
  flagPrefix : Option String
  deriving DecidableEq

/-- A user with the name that is shown. -/
structure User where
  id : Nat
  nickname : String
  deriving DecidableEq

/-- A row of `challenges` with the columns of its current version. -/
structure ChallengeRow where
  id : Nat
  name : String
  category : String
  hidden : Bool
  buildStatus : Option String
  flagType : Option String
  staticFlagValue : Option String
  containerPort : Option Nat
  imageRepoDigest : Option String
  imageId : Option String
  deriving DecidableEq

/-- A row of `event_challenge_instance` with its row of `event_instances`, which have the same key.
`container` is the container it was started with, which the source does not store. -/
structure InstanceRow extends Instance where
  ownerUserId : Option Nat
  content : Option String
  imageRef : Option String
  containerName : String
  createdAt : Int
  updatedAt : Int
  expiresAt : Option Int
  container : Option Nat
  deriving DecidableEq

/-- A container, and the instance for which it was created. -/
structure Container where
  id : Nat
  name : String
  «instance» : Nat
  image : String
  flag : Option String
  deriving DecidableEq

/-- A solve with the time of its insert. -/
structure SolveRecord (P : Type) extends Solve P where
  createdAt : Int
  deriving DecidableEq

/-- A practice instance of the AWD-P platform with its run and the event instance it belongs to. -/
structure AwdpPractice where
  id : Nat
  eventId : Nat
  ownerUserId : Option Nat
  ownerTeamId : Option Nat
  runtimeState : RuntimeState
  containerName : String
  createdAt : Int
  updatedAt : Int
  expiresAt : Option Int
  runId : Nat
  gameboxId : Nat
  gameboxName : String
  deriving DecidableEq

/-- The tables and the Docker daemon: `containers` are there now, `ended` were stopped or ended by
themselves, `going` are those that the daemon has begun to remove by itself, `created` are all that it
ever created, and `usedIds` the keys of all instances that were ever inserted. -/
structure Site (P : Type) where
  now : Int
  settings : List (String × String)
  events : List EventRow
  users : List User
  eventUsers : List (EventUser P)
  members : List TeamMember
  eventChallenges : List (EventChallenge P)
  challenges : List ChallengeRow
  solves : List (SolveRecord P)
  awdp : List AwdpPractice
  instances : List InstanceRow
  usedIds : List Nat
  containers : List Container
  ended : List Nat
  going : List Nat
  created : List Container
  assignPort : Nat → Nat

/-! ## Statements -/

/-- Who takes part: a user or a team. -/
inductive Subject where
  | user (id : Nat)
  | team (id : Nat)
  deriving DecidableEq

/-- Who shares the quota of an event. -/
structure Participant where
  eventId : Nat
  subject : Subject
  deriving DecidableEq

/-- A container by its name or its identifier. -/
inductive Target where
  | name (name : String)
  | id (id : Nat)
  deriving DecidableEq

/-- The container that is meant by its name or by its id. -/
def Target.hits : Target → Container → Bool
  | name n, c => c.name = n
  | id n, c => c.id = n

/-- Why a row changes its state. -/
inductive Cause where
  | destroyed
  | cleanupFailed
  | missing
  deriving DecidableEq

/-- The statements of the programs; those of a launch between the quota and the insert carry the
participant, and those that touch an instance its key. -/
inductive Stmt where
  | gate
  | countRunning (p : Participant) (challengeId : Nat)
  | findRunning (p : Participant) (challengeId : Nat)
  | prepare (p : Participant)
  | create (p : Participant) (instanceId : Nat) (name : String)
  | start (p : Participant)
  | inspect (p : Participant)
  | persist (p : Participant) (instanceId : Nat)
  | stop (instanceId : Nat) (target : Target)
  | remove (instanceId : Nat) (target : Target)
  | findInstance
  | findChallenge (instanceId : Nat)
  | transition (cause : Cause) (instanceId : Nat) (expected next : RuntimeState)
  | listCandidates
  | listOld (minAge : Int)
  | containerExists (instanceId : Nat)
  | reply (instanceId : Nat) (result : Except String Nat)
  deriving DecidableEq

/-- A program on the site, statement by statement. -/
abbrev SiteM (P : Type) := Prog Stmt (Site P) String

/-- The error of a failed statement of the database. -/
def dbError : String := "database error"

/-- The error of a failed call of Docker. -/
def dockerError : String := "docker error"

/-- What is missing is an error with this message. -/
def orFail {α : Type} (e : String) : Option α → SiteM P α
  | some a => pure a
  | none => .fail e

/-- A check whose error ends the program. -/
def ofExcept {α : Type} : Except String α → SiteM P α
  | .ok a => pure a
  | .error e => .fail e

/-! ## Containers -/

/-- The containers without the one that is meant. -/
def Site.removeContainers (s : Site P) (target : Target) : Site P :=
  { s with containers := s.containers.filter fun c => !target.hits c }

/-- A container with `auto_remove` that is stopped is still there: the daemon removes it behind the
answer. -/
def Site.stopContainers (s : Site P) (target : Target) : Except String (Site P × Unit) :=
  if s.containers.any target.hits then
    .ok ({ s with ended := s.ended ++ (s.containers.filter target.hits).map (·.id) }, ())
  else .error "no such container"

/-- The daemon is removing the container already: the answer to a removal is a conflict. -/
def Site.isGoing (s : Site P) (target : Target) : Bool :=
  s.containers.any fun c => target.hits c && c.id ∈ s.going

/-- `remove_container`, where a container that is not there and a conflict are successes. -/
def Site.removeOrWait (s : Site P) (target : Target) : Site P :=
  if s.isGoing target then s else s.removeContainers target

/-- Stops a container. -/
def stopContainer (instanceId : Nat) (target : Target) : SiteM P Unit :=
  .exec (.stop instanceId target) dockerError (·.stopContainers target)

/-- Removes a container; one that is already on its way counts as removed. -/
def removeContainer (instanceId : Nat) (target : Target) : SiteM P Unit :=
  .exec (.remove instanceId target) dockerError fun s => .ok (s.removeOrWait target, ())

/-- Stops a container if that works, and removes it. -/
def stopAndRemove (instanceId : Nat) (target : Target) : SiteM P Unit := do
  let _ ← (stopContainer instanceId target).attempt
  removeContainer instanceId target

/-- What a container is made from. -/
structure ChallengeRuntimeSpec where
  imageRef : String
  containerPort : Nat
  flag : Option String

/-- Creates a container; a name that is in use is an error. -/
def Site.createContainer (s : Site P) (spec : ChallengeRuntimeSpec) (name : String)
    (instanceId : Nat) : Except String (Site P × Nat) :=
  if s.containers.any (·.name = name) then .error "Conflict. The container name is already in use"
  else
    let c : Container := ⟨s.created.length, name, instanceId, spec.imageRef, spec.flag⟩
    .ok ({ s with containers := s.containers ++ [c], created := s.created ++ [c] }, c.id)

/-- The host port of a container; one that has ended has none. -/
def Site.publishedPort (s : Site P) (id port : Nat) : Except String Nat :=
  match s.containers.find? (·.id = id) with
  | none => .error "no such container"
  | some c =>
    if c.id ∈ s.ended then
      .error ("未找到容器端口 " ++ toString port ++ "/tcp 对应的宿主端口")
    else .ok (s.assignPort c.id)

/-- The port under which the container is reached. -/
def inspectPort (p : Participant) (id port : Nat) : SiteM P Nat := do
  ofExcept (← Prog.query (.inspect p) dockerError (·.publishedPort id port))

/-- `InstanceRuntime::launch`: the container and its port. -/
def launchContainer (p : Participant) (instanceId : Nat) (name : String)
    (spec : ChallengeRuntimeSpec) : SiteM P (Nat × Nat) := do
  .query (.prepare p) ("ensure image " ++ spec.imageRef) fun _ => ()
  let id ← .exec (.create p instanceId name) dockerError fun s =>
    s.createContainer spec name instanceId
  .query (.start p) dockerError fun _ => ()
  match ← (inspectPort p id spec.containerPort).attempt with
  | .ok port => pure (id, port)
  | .error e =>
    let _ ← (stopAndRemove instanceId (.id id)).attempt
    .fail e

/-! ## Launch -/

/-- A player asks for an instance, in the practice event if no event is named.  The keys are drawn by
the request: that of the row, and the one that a dynamic flag is made of. -/
structure LaunchRequest where
  eventId : Option Nat
  challengeId : Nat
  userId : Nat
  instanceId : Nat
  flagUuid : String

/-- The participant of a request, with the size of the team. -/
structure ResolvedParticipant where
  subject : Subject
  teamMemberCount : Option Nat

/-- The event is a competition. -/
def EventRow.isCompetition (event : EventRow) : Bool := event.purpose = .competition

/-- The refusal of an event of another family. -/
def familyError : String :=
  "UnsupportedForFamily: AWD events do not support this via the Jeopardy API; " ++
    "use /api/events/\x7bid\x7d/awd"

/-- Only Jeopardy events have these instances. -/
def requireJeopardyFamily (event : EventRow) : SiteM P Unit :=
  if event.family ≠ .jeopardy then .fail familyError else pure ()

/-- `JeopardyPolicy::from_event`: the combination of purpose and participant mode exists. -/
def policyFromEvent (event : EventRow) : SiteM P Unit :=
  if event.modeValid then pure () else .fail event.modeError

/-- How many instances may run at the same time. -/
def maxConcurrentInstances (event : EventRow) (teamMemberCount : Option Nat) : Nat :=
  match event.purpose, event.participantMode with
  | .practice, _ => 1
  | .competition, .individual => 2
  | .competition, .team => max (teamMemberCount.getD 1 * 2) 2

/-- The user has joined the event. -/
def shouldUserJoined (event : EventRow) (userId : Nat) : SiteM P Unit := do
  let joined ← .query .gate dbError fun s =>
    s.eventUsers.any fun u => u.eventId = event.id ∧ u.userId = userId
  if joined then pure () else .fail "你尚未加入本赛事"

/-- The event is under way by the clock. -/
def shouldOngoingNow (event : EventRow) : SiteM P Unit := do
  let now ← .look .gate (·.now)
  ofExcept (shouldOngoing event.toEvent now)

/-- The membership of the user in the event. -/
def Site.findMembership (s : Site P) (eventId userId : Nat) : Option TeamMember :=
  s.members.find? fun m => m.eventId = eventId ∧ m.userId = userId

/-- The size of a team. -/
def Site.memberCount (s : Site P) (teamId : Nat) : Nat :=
  (s.members.filter (·.teamId = teamId)).length

/-- Who takes part for this user: the user, or the team of the event. -/
def resolveParticipant (event : EventRow) (userId : Nat) : SiteM P ResolvedParticipant :=
  match event.participantMode with
  | .individual => pure ⟨.user userId, none⟩
  | .team => do
    let membership ← .query .gate dbError (·.findMembership event.id userId)
    let membership ← orFail "you are not in any team" membership
    let count ← .query .gate dbError (·.memberCount membership.teamId)
    pure ⟨.team membership.teamId, some count⟩

/-- The team of a subject. -/
def Subject.teamId : Subject → Option Nat
  | user _ => none
  | team id => some id

/-- The instance belongs to the subject. -/
def Subject.owns (subject : Subject) (i : Instance) : Bool :=
  match subject with
  | user id => i.userId = id
  | team id => i.teamId = some id

/-- A running instance of the participant. -/
def Participant.runs (p : Participant) (i : InstanceRow) : Bool :=
  i.eventId = p.eventId && i.runtimeState = .running && p.subject.owns i.toInstance

/-- How many instances of the participant run. -/
def Site.runningCount (s : Site P) (p : Participant) : Nat := (s.instances.filter p.runs).length

/-- The running instance of the challenge. -/
def Site.findRunning (s : Site P) (p : Participant) (challengeId : Nat) : Option InstanceRow :=
  s.instances.find? fun i => p.runs i && i.challengeId = challengeId

/-- The name of the mode in a message. -/
def modeName (event : EventRow) : String :=
  match event.purpose, event.participantMode with
  | .practice, _ => "practice"
  | _, .individual => "individual"
  | _, .team => "team"

/-- A competition is for those who joined it, while it goes on; practice is open. -/
def requireAccess (event : EventRow) (userId : Nat) : SiteM P Unit :=
  if event.isCompetition then do
    shouldUserJoined event userId
    shouldOngoingNow event
  else pure ()

/-- The challenge is published in the event. -/
def requirePublished (event : EventRow) (challengeId : Nat) : SiteM P Unit := do
  let eventChallenge ← .query .gate dbError fun s =>
    s.eventChallenges.find? fun c => c.eventId = event.id ∧ c.challengeId = challengeId
  let eventChallenge ← orFail "challenge is not in this event" eventChallenge
  if eventChallenge.hidden then .fail "该题目尚未发布，无法启动实例" else pure ()

/-- In a competition the challenge has to be published. -/
def requireEventChallenge (event : EventRow) (challengeId : Nat) : SiteM P Unit :=
  if event.isCompetition then requirePublished event challengeId else pure ()

/-- The first group of a UUID. -/
def uuidPrefix (id : Nat) : String :=
  String.ofList ((List.range 8).map fun k => Nat.digitChar (id / 2 ^ 96 / 16 ^ (7 - k) % 16))

/-- The name of the container, and of the row. -/
def identifierOf (event : EventRow) (subject : Subject) (challengeId : Nat) : String :=
  match subject with
  | .user id =>
    if event.purpose = .practice then "JP-" ++ uuidPrefix id ++ "-" ++ uuidPrefix challengeId
    else "JS-" ++ uuidPrefix event.id ++ "-" ++ uuidPrefix id ++ "-" ++ uuidPrefix challengeId
  | .team id =>
    "JT-" ++ uuidPrefix event.id ++ "-" ++ uuidPrefix id ++ "-" ++ uuidPrefix challengeId

/-- The value of a setting. -/
def Site.setting (s : Site P) (key : String) : Except String String :=
  match s.settings.lookup key with
  | some value => .ok value
  | none => .error ("Setting 不存在:" ++ key)

/-- Reads a setting while an instance is prepared. -/
def getSetting (p : Participant) (key : String) : SiteM P String := do
  ofExcept (← .query (.prepare p) dbError (·.setting key))

/-- `str::parse::<i64>`. -/
def parseI64 (text : String) : Except String Int :=
  let value (digits : List Char) : Except String Nat :=
    if digits.isEmpty || !digits.all Char.isDigit then .error "invalid digit found in string"
    else .ok (digits.foldl (fun n c => 10 * n + (c.toNat - '0'.toNat)) 0)
  match text.toList with
  | [] => .error "cannot parse integer from empty string"
  | '-' :: digits => do
    let n ← value digits
    if n ≤ 2 ^ 63 then .ok (-n) else .error "number too small to fit in target type"
  | '+' :: digits => do
    let n ← value digits
    if n < 2 ^ 63 then .ok n else .error "number too large to fit in target type"
  | digits => do
    let n ← value digits
    if n < 2 ^ 63 then .ok n else .error "number too large to fit in target type"

/-- `effective_image_ref`. -/
def effectiveImageRef (repoDigest imageId : Option String) : Except String String :=
  match repoDigest.filter (· ≠ ""), imageId.filter (· ≠ "") with
  | some digest, _ => .ok digest
  | none, some id => .ok id
  | none, none => .error "no image pin (image_repo_digest/image_id)"

/-- The `Debug` text of an optional string. -/
def debugText : Option String → String
  | none => "None"
  | some text => "Some(\"" ++ text ++ "\")"

/-- The prefix of the flags: that of the event, of the setting, or the default. -/
def flagPrefixOf (p : Participant) (event : EventRow) : SiteM P String :=
  match event.flagPrefix with
  | some flagPrefix => pure flagPrefix
  | none => do
    match ← (getSetting p "FLAG_PREFIX").attempt with
    | .ok flagPrefix => pure flagPrefix
    | .error _ => pure "flag"

/-- The flag of a new instance. -/
def genFlag (p : Participant) (event : EventRow) (req : LaunchRequest) : SiteM P String := do
  let flagPrefix ← flagPrefixOf p event
  pure (flagPrefix ++ "\x7b" ++ req.flagUuid ++ "\x7d")

/-- The flag of a launch: drawn for a dynamic challenge, stored for a static one. -/
def launchFlag (p : Participant) (event : EventRow) (req : LaunchRequest)
    (challenge : ChallengeRow) : SiteM P String :=
  match challenge.flagType with
  | some "dynamic" => genFlag p event req
  | some "static" =>
    orFail ("static challenge " ++ toString challenge.id ++ " has no flag value")
      challenge.staticFlagValue
  | other =>
    .fail ("unknown flag_type '" ++ debugText other ++ "' on challenge " ++ toString challenge.id)

/-- A challenge without a port has no container. -/
def runtimeSpec (challenge : ChallengeRow) (flag : String) :
    Except String (Option ChallengeRuntimeSpec) :=
  match challenge.containerPort with
  | none => .ok none
  | some port => do
    let pin ← effectiveImageRef challenge.imageRepoDigest challenge.imageId
    .ok (some ⟨pin, port, if challenge.flagType = some "dynamic" then some flag else none⟩)

/-- The completed rows under the name make room for a new one. -/
def Site.deleteCompleted (s : Site P) (name : String) : Site P :=
  { s with instances := s.instances.filter fun i =>
      !(i.containerName = name && i.runtimeState = .completed) }

/-- The primary key and the unique container name; a key that was drawn is not drawn again. -/
def Site.insertInstance (s : Site P) (row : InstanceRow) : Except String (Site P) :=
  if row.id ∈ s.usedIds then .error "duplicate key value violates unique constraint"
  else if s.instances.any (·.containerName = row.containerName) then
    .error "duplicate key value violates unique constraint event_instances_container_name_uidx"
  else .ok { s with instances := s.instances ++ [row], usedIds := s.usedIds ++ [row.id] }

/-- The link that a player is shown. -/
def instanceContent (httpPrefix nodeIp : String) (port : Nat) : String :=
  let url := httpPrefix ++ nodeIp ++ ":" ++ toString port
  "<a href=\"" ++ url ++ "\" target=\"_blank\" rel=\"noopener noreferrer\" download >" ++ url ++
    "</a>"

/-- The row of a launch. -/
def newInstance (p : Participant) (req : LaunchRequest) (identifier flag : String)
    (content : String) (imageRef : Option String) (container : Option Nat) (now delay : Int) :
    InstanceRow where
  id := req.instanceId
  eventId := p.eventId
  challengeId := req.challengeId
  userId := req.userId
  teamId := p.subject.teamId
  flag := flag
  runtimeState := .running
  ownerUserId := some req.userId
  content := some content
  imageRef := imageRef
  containerName := identifier
  createdAt := now
  updatedAt := now
  expiresAt := some (now + delay * 60)
  container := container

/-- The container of a launch whose rows were not written goes. -/
def compensate (row : InstanceRow) : SiteM P Unit :=
  if row.container.isSome then do
    let _ ← (stopAndRemove row.id (.name row.containerName)).attempt
    pure ()
  else pure ()

/-- The insert of both rows in one transaction. -/
def persistInstance (p : Participant) (row : InstanceRow) : SiteM P InstanceRow := do
  let inserted ← (Prog.exec (.persist p row.id) dbError fun s => do
    let s' ← s.insertInstance row
    .ok (s', ())).attempt
  match inserted with
  | .ok () => pure { row with flag := "" }
  | .error e =>
    compensate row
    .fail e

/-- `InstanceService::launch`. -/
def launch (p : Participant) (event : EventRow) (req : LaunchRequest) (identifier : String) :
    SiteM P InstanceRow := do
  .exec (.prepare p) dbError fun s => .ok (s.deleteCompleted identifier, ())
  let challenge ← .query (.prepare p) dbError fun s => s.challenges.find? (·.id = req.challengeId)
  let challenge ← orFail ("no such challenge: " ++ toString req.challengeId) challenge
  if challenge.buildStatus ≠ some "ready" then
    .fail ("challenge " ++ toString req.challengeId ++ " is not ready (build_status=" ++
      debugText challenge.buildStatus ++ "); import a package first")
  else
    let flag ← launchFlag p event req challenge
    let spec ← ofExcept (runtimeSpec challenge flag)
    let nodeIp ← getSetting p "NODE_IP"
    let httpPrefix ← getSetting p "HTTP_PREFIX"
    let delay ← ofExcept (parseI64 (← getSetting p "INSTANCE_DESTROY_DELAY"))
    let known ← .query (.prepare p) dbError fun s => s.users.any (·.id = req.userId)
    if !known then .fail ("未找到用户：" ++ toString req.userId)
    else
      let now ← .look (.prepare p) (·.now)
      match spec with
      | some spec => do
        let (id, port) ← launchContainer p req.instanceId identifier spec
        persistInstance p (newInstance p req identifier flag
          (instanceContent httpPrefix nodeIp port) (some spec.imageRef) (some id) now delay)
      | none =>
        persistInstance p (newInstance p req identifier flag "" none none now delay)

/-- What comes after the quota: a running instance of the challenge is used again. -/
def reuseOrLaunch (p : Participant) (event : EventRow) (req : LaunchRequest) :
    SiteM P InstanceRow := do
  match ← Prog.query (.findRunning p req.challengeId) dbError (·.findRunning p req.challengeId) with
  | some row => pure row
  | none => launch p event req (identifierOf event p.subject req.challengeId)

/-- The refusal of one instance too many. -/
def quotaError (event : EventRow) (maxInstances : Nat) : String :=
  "you can only launch " ++ toString maxInstances ++ " instances at the same time in " ++
    modeName event ++ " mode"

/-- `launch_instance`. -/
def launchInstance (event : EventRow) (req : LaunchRequest) : SiteM P InstanceRow := do
  requireJeopardyFamily event
  policyFromEvent event
  requireAccess event req.userId
  let participant ← resolveParticipant event req.userId
  requireEventChallenge event req.challengeId
  let p : Participant := ⟨event.id, participant.subject⟩
  let maxInstances := maxConcurrentInstances event participant.teamMemberCount
  let runningCount ← .query (.countRunning p req.challengeId) dbError (·.runningCount p)
  if runningCount ≥ maxInstances then .fail (quotaError event maxInstances)
  else reuseOrLaunch p event req

/-- The event with this id. -/
def Site.findEvent (s : Site P) (id : Nat) : Option EventRow := s.events.find? (·.id = id)

/-- `require_practice_jeopardy_event`. -/
def Site.practiceEvent (s : Site P) : Option EventRow :=
  s.events.find? (·.systemKey = some "practice:jeopardy")

/-- The event of a launch, or the practice event. -/
def loadEvent (eventId : Option Nat) : SiteM P EventRow :=
  match eventId with
  | some id => do orFail "no event" (← .query .gate dbError (·.findEvent id))
  | none => do orFail "未找到练习用 Jeopardy 赛事" (← .query .gate dbError (·.practiceEvent))

/-- The request as it arrives. -/
def launchRequested (req : LaunchRequest) : SiteM P InstanceRow := do
  let event ← loadEvent req.eventId
  launchInstance event req

/-! ## Destruction -/

/-- `transition_runtime_state`. -/
def Site.transition (s : Site P) (id : Nat) (expected next : RuntimeState) :
    Except String (Site P) :=
  if s.instances.any fun i => i.id = id ∧ i.runtimeState = expected then
    .ok { s with instances := s.instances.map fun i =>
        if i.id = id ∧ i.runtimeState = expected then
          { i with runtimeState := next, updatedAt := s.now }
        else i }
  else .error ("instance " ++ toString id ++ " changed concurrently")

/-- A row goes from one state to another, if it is still in the first. -/
def transitionRuntimeState (cause : Cause) (id : Nat) (expected next : RuntimeState) :
    SiteM P Unit :=
  .exec (.transition cause id expected next) dbError fun s => do
    let s' ← s.transition id expected next
    .ok (s', ())

/-- Whether there is a container is read off the current version of the challenge. -/
def removeRuntimeIfNeeded (row : InstanceRow) : SiteM P Unit := do
  let challenge ← .query (.findChallenge row.id) dbError fun s =>
    s.challenges.find? (·.id = row.challengeId)
  let challenge ← orFail ("未找到实例 " ++ toString row.challengeId ++ " 对应的题目 " ++
    toString row.id) challenge
  if challenge.containerPort.isSome then stopAndRemove row.id (.name row.containerName)
  else pure ()

/-- A running row is failed after its cleanup went wrong. -/
def markCleanupFailed (row : InstanceRow) : SiteM P Unit :=
  if row.runtimeState = .running then do
    let _ ← (transitionRuntimeState .cleanupFailed row.id .running .failed).attempt
    pure ()
  else pure ()

/-- Removes the container of a row and completes the row. -/
def destroyModel (row : InstanceRow) : SiteM P Unit := do
  match ← (removeRuntimeIfNeeded row).attempt with
  | .ok () => transitionRuntimeState .destroyed row.id row.runtimeState .completed
  | .error e =>
    markCleanupFailed row
    .fail e

/-- `find_owned_running`. -/
def Site.findOwnedRunning (s : Site P) (id userId : Nat) : Option InstanceRow :=
  (s.instances.find? fun i => i.id = id ∧ i.userId = userId).filter (·.runtimeState = .running)

/-- `find_team_running`. -/
def Site.findTeamRunning (s : Site P) (id eventId teamId : Nat) : Option InstanceRow :=
  (s.instances.find? fun i => i.id = id ∧ i.eventId = eventId ∧ i.teamId = some teamId).filter
    (·.runtimeState = .running)

/-- Whether an instance was found; none is a success. -/
def destroyFound (found : Option InstanceRow) : SiteM P Bool :=
  match found with
  | none => pure false
  | some row => do
    destroyModel row
    pure true

/-- Destroys a running instance of the user. -/
def destroyOwned (id userId : Nat) : SiteM P Bool := do
  destroyFound (← .query .findInstance dbError (·.findOwnedRunning id userId))

/-- Destroys a running instance of the team. -/
def destroyTeamOwned (id eventId teamId : Nat) : SiteM P Bool := do
  destroyFound (← .query .findInstance dbError (·.findTeamRunning id eventId teamId))

/-! ## Cleanup and reconciliation -/

/-- `list_cleanup_candidates`. -/
def Site.cleanupCandidates (s : Site P) : List InstanceRow :=
  s.instances.filter fun i =>
    i.runtimeState = .failed || i.runtimeState = .running && i.expiresAt.any (· ≤ s.now)

/-- Destroys the failed instances and those past their end, one after the other. -/
def cleanupRunning : SiteM P Unit := do
  let candidates ← .query .listCandidates dbError (·.cleanupCandidates)
  Prog.each candidates fun row => do
    let _ ← (destroyModel row).attempt
    pure ()

/-- `list_running_older_than`. -/
def Site.runningOlderThan (s : Site P) (minAge : Int) : List InstanceRow :=
  s.instances.filter fun i => i.runtimeState = .running && i.updatedAt ≤ s.now - minAge

/-- A container of the row's name is there. -/
def containerExists (row : InstanceRow) : SiteM P Bool :=
  .query (.containerExists row.id) dockerError fun s =>
    s.containers.any (·.name = row.containerName)

/-- An instance of which the container is known to be gone. -/
def reconcileInstance (row : InstanceRow) : SiteM P Unit := do
  match ← (containerExists row).attempt with
  | .ok true => pure ()
  | .ok false => transitionRuntimeState .missing row.id .running .failed
  | .error _ => pure ()

/-- Fails the old running rows whose container is gone. -/
def reconcileMissingContainers (minAge : Int) : SiteM P Unit := do
  let candidates ← .query (.listOld minAge) dbError (·.runningOlderThan minAge)
  Prog.each candidates reconcileInstance

/-! ## The system -/

/-- The jobs on a site. -/
inductive SiteJob where
  | launch (req : LaunchRequest)
  | destroyOwned (id userId : Nat)
  | destroyTeamOwned (id eventId teamId : Nat)
  | cleanupRunning
  | reconcile (minAge : Int)

/-- What a launch answers: the instance, or why there is none. -/
def answerLaunch (req : LaunchRequest) : SiteM P Unit := do
  let result ← (launchRequested req).attempt
  .look (.reply req.instanceId (result.map (·.id))) fun _ => ()

/-- The program of a job. -/
def SiteJob.prog : SiteJob → SiteM P Unit
  | launch req => answerLaunch req
  | destroyOwned id userId => do
    let _ ← Jeopardy.destroyOwned id userId
    pure ()
  | destroyTeamOwned id eventId teamId => do
    let _ ← Jeopardy.destroyTeamOwned id eventId teamId
    pure ()
  | cleanupRunning => Jeopardy.cleanupRunning
  | reconcile minAge => reconcileMissingContainers minAge

/-- Time passes, the package of a challenge is imported again, a container ends by itself, and the
daemon begins and finishes to remove one that has ended. -/
inductive SiteEvent where
  | passes (seconds : Nat)
  | imported (challenge : ChallengeRow)
  | exits (id : Nat)
  | autoRemoves (id : Nat)
  | gone (id : Nat)

/-- What happens beside the jobs. -/
def SiteEvent.act : SiteEvent → Site P → Site P
  | passes seconds, s => { s with now := s.now + seconds }
  | imported challenge, s =>
    { s with challenges := s.challenges.map fun c => if c.id = challenge.id then challenge else c }
  | exits id, s => { s with ended := s.ended ++ [id] }
  | autoRemoves id, s => if id ∈ s.ended then { s with going := s.going ++ [id] } else s
  | gone id, s => if id ∈ s.going then s.removeContainers (.id id) else s

/-! ## Reads -/

/-- The daemon changes the containers and nothing of the database. -/
theorem act_autoRemoves (id : Nat) (s : Site P) :
    ∃ going, (SiteEvent.autoRemoves id).act s = { s with going := going } := by
  rw [SiteEvent.act]
  split
  · exact ⟨_, rfl⟩
  · exact ⟨s.going, rfl⟩

theorem act_gone (id : Nat) (s : Site P) :
    ∃ containers, (SiteEvent.gone id).act s = { s with containers := containers } := by
  rw [SiteEvent.act]
  split
  · exact ⟨_, rfl⟩
  · exact ⟨s.containers, rfl⟩

theorem stopContainers_inv {s s' : Site P} {target : Target} {u : Unit}
    (h : s.stopContainers target = .ok (s', u)) : ∃ ended, s' = { s with ended := ended } := by
  unfold Site.stopContainers at h
  split at h
  · cases h
    exact ⟨_, rfl⟩
  · cases h

theorem removeOrWait_cases (s : Site P) (target : Target) :
    s.isGoing target = true ∧ s.removeOrWait target = s ∨
      s.isGoing target = false ∧ s.removeOrWait target = s.removeContainers target := by
  unfold Site.removeOrWait
  cases s.isGoing target
  · exact .inr ⟨rfl, rfl⟩
  · exact .inl ⟨rfl, rfl⟩

/-- A statement with the label that leaves the state. -/
def Reads (l₀ l : Stmt) (s s' : Site P) : Prop := l = l₀ ∧ s' = s

section Reads

variable {α : Type}

theorem reads_query (l : Stmt) (e : String) (f : Site P → α) : (Prog.query l e f).Does (Reads l) :=
  Prog.does_query (fun _ => ⟨rfl, rfl⟩) e f

theorem reads_look (l : Stmt) (f : Site P → α) : (Prog.look l f : SiteM P α).Does (Reads l) :=
  Prog.does_look (fun _ => ⟨rfl, rfl⟩) f

theorem does_orFail {T : Stmt → Site P → Site P → Prop} (e : String) (o : Option α) :
    (orFail e o : SiteM P α).Does T := by
  cases o <;> trivial

theorem does_ofExcept {T : Stmt → Site P → Site P → Prop} (x : Except String α) :
    (ofExcept x : SiteM P α).Does T := by
  cases x <;> trivial

theorem reads_getSetting (p : Participant) (key : String) :
    (getSetting p key : SiteM P String).Does (Reads (.prepare p)) :=
  Prog.does_bind (reads_query _ _ _) fun _ => does_ofExcept _

theorem reads_flagPrefixOf (p : Participant) (event : EventRow) :
    (flagPrefixOf p event : SiteM P String).Does (Reads (.prepare p)) := by
  unfold flagPrefixOf
  split
  · trivial
  · refine Prog.does_bind (Prog.does_attempt (reads_getSetting p _)) fun r => ?_
    cases r <;> trivial

theorem reads_launchFlag (p : Participant) (event : EventRow) (req : LaunchRequest)
    (challenge : ChallengeRow) :
    (launchFlag p event req challenge : SiteM P String).Does (Reads (.prepare p)) := by
  unfold launchFlag
  split
  · exact Prog.does_bind (reads_flagPrefixOf p event) fun _ => trivial
  · exact does_orFail _ _
  · trivial

theorem reads_inspectPort (p : Participant) (id port : Nat) :
    (inspectPort p id port : SiteM P Nat).Does (Reads (.inspect p)) :=
  Prog.does_bind (reads_query _ _ _) fun _ => does_ofExcept _

theorem reads_requireAccess (event : EventRow) (userId : Nat) :
    (requireAccess event userId : SiteM P Unit).Does (Reads .gate) := by
  refine Prog.does_ite (Prog.does_bind ?_ fun _ => ?_) trivial
  · exact Prog.does_bind (reads_query _ _ _) fun _ => Prog.does_ite trivial trivial
  · exact Prog.does_bind (reads_look _ _) fun _ => does_ofExcept _

theorem reads_resolveParticipant (event : EventRow) (userId : Nat) :
    (resolveParticipant event userId : SiteM P ResolvedParticipant).Does (Reads .gate) := by
  unfold resolveParticipant
  split
  · trivial
  · refine Prog.does_bind (reads_query _ _ _) fun _ => Prog.does_bind (does_orFail _ _) fun _ => ?_
    exact Prog.does_bind (reads_query _ _ _) fun _ => trivial

theorem reads_requireEventChallenge (event : EventRow) (challengeId : Nat) :
    (requireEventChallenge event challengeId : SiteM P Unit).Does (Reads .gate) := by
  refine Prog.does_ite (Prog.does_bind (reads_query _ _ _) fun _ => ?_) trivial
  exact Prog.does_bind (does_orFail _ _) fun _ => Prog.does_ite trivial trivial

theorem reads_loadEvent (eventId : Option Nat) :
    (loadEvent eventId : SiteM P EventRow).Does (Reads .gate) := by
  unfold loadEvent
  split <;> exact Prog.does_bind (reads_query _ _ _) fun _ => does_orFail _ _

end Reads

end FloatCtf.Jeopardy
