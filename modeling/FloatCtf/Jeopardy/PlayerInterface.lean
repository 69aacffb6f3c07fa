import FloatCtf.Jeopardy.Instances
import FloatCtf.Process.Alike
import Mathlib.Data.List.Infix

/-!
# What players are shown

The requests of players other than the submission of flags: launching and destroying an instance,
looking at one's instances, in an event, in practice or one by one, and at the challenges.  Each is a
program over the site that ends with a response.

Instances are shown as an `InstancesDto`, which has a flag field that is left empty, except in the
listing of an event, which shows the rows themselves.
-/

namespace FloatCtf.Jeopardy

open Process

variable {P α β : Type}

/-! ## Responses -/

/-- The errors of the handlers. -/
inductive ApiError where
  | database
  | notFound (message : String)
  | badRequest (message : String)
  | internal (message : String)
  deriving DecidableEq

/-- A row of `event_instances`. -/
structure Runtime where
  id : Nat
  eventId : Nat
  ownerUserId : Option Nat
  runtimeState : RuntimeState
  containerName : String
  createdAt : Int
  updatedAt : Int
  expiresAt : Option Int
  deriving DecidableEq

/-- The runtime of an instance row. -/
def InstanceRow.runtime (i : InstanceRow) : Runtime where
  id := i.id
  eventId := i.eventId
  ownerUserId := i.ownerUserId
  runtimeState := i.runtimeState
  containerName := i.containerName
  createdAt := i.createdAt
  updatedAt := i.updatedAt
  expiresAt := i.expiresAt

/-- The runtime of an AWDP practice. -/
def AwdpPractice.runtime (a : AwdpPractice) : Runtime where
  id := a.id
  eventId := a.eventId
  ownerUserId := a.ownerUserId
  runtimeState := a.runtimeState
  containerName := a.containerName
  createdAt := a.createdAt
  updatedAt := a.updatedAt
  expiresAt := a.expiresAt

/-- What a player is shown of an instance. -/
structure InstancesDto where
  id : Nat
  status : RuntimeState
  flag : String
  content : Option String
  challengeId : Option Nat
  eventId : Nat
  teamId : Option Nat
  userId : Nat
  identifier : String
  createdAt : Int
  updatedAt : Int
  destroyAt : Option Int
  challengeTitle : Option String
  eventTitle : Option String
  userName : Option String
  runId : Option Nat
  gameboxId : Option Nat
  gameboxTitle : Option String
  deriving DecidableEq

/-- The flag is not carried over. -/
def InstancesDto.fromPair (i : InstanceRow) (runtime : Runtime) : InstancesDto where
  id := i.id
  status := runtime.runtimeState
  flag := ""
  content := i.content
  challengeId := some i.challengeId
  eventId := i.eventId
  teamId := i.teamId
  userId := i.userId
  identifier := runtime.containerName
  createdAt := runtime.createdAt
  updatedAt := runtime.updatedAt
  destroyAt := runtime.expiresAt
  challengeTitle := none
  eventTitle := none
  userName := none
  runId := none
  gameboxId := none
  gameboxTitle := none

/-- `event_challenge_instance::Model`, as it is serialised. -/
structure InstanceModel where
  id : Nat
  flag : String
  content : Option String
  challengeId : Nat
  userId : Nat
  createdAt : Int
  eventId : Nat
  teamId : Option Nat
  deriving DecidableEq

/-- The row as the listing of an event returns it. -/
def InstanceRow.model (i : InstanceRow) : InstanceModel where
  id := i.id
  flag := i.flag
  content := i.content
  challengeId := i.challengeId
  userId := i.userId
  createdAt := i.createdAt
  eventId := i.eventId
  teamId := i.teamId

/-- An instance of an event with the names that belong to it. -/
structure EventInstanceResult where
  «instance» : InstanceModel
  challengeName : String
  userNickname : String
  deriving DecidableEq

/-- The columns of a challenge that players see; the static flag is for administrators. -/
structure ChallengesDto where
  id : Nat
  name : String
  category : String
  hidden : Bool
  buildStatus : Option String
  containerPort : Option Nat
  solved : Bool
  staticFlagValue : Option String
  deriving DecidableEq

/-- What a player is shown of a challenge; the static flag is left out. -/
def ChallengesDto.ofRow (c : ChallengeRow) : ChallengesDto where
  id := c.id
  name := c.name
  category := c.category
  hidden := c.hidden
  buildStatus := c.buildStatus
  containerPort := c.containerPort
  solved := false
  staticFlagValue := none

/-- A challenge of an event with its points and its solves. -/
structure EventChallengeResult (P : Type) where
  challenge : ChallengesDto
  currentPoints : P
  solvedCount : Nat
  solved : Bool
  solvedNo : Nat
  deriving DecidableEq

/-- What a handler answers. -/
inductive Response (P : Type) where
  | done
  | «instance» (dto : Option InstancesDto)
  | instances (items : List InstancesDto) (total : Nat)
  | eventInstances (items : List EventInstanceResult)
  | eventChallenges (items : List (EventChallengeResult P))
  | challenges (items : List ChallengesDto) (total : Nat)
  deriving DecidableEq

/-! ## Programs -/

/-- The statements of the handlers, with the reply as the last one. -/
inductive PlayerStmt (P : Type) where
  | site (l : Stmt)
  | read
  | listRows (p : Participant)
  | reply (userId : Nat) (response : Except ApiError (Response P))
  deriving DecidableEq

/-- The programs of the application layer, whose errors are texts. -/
abbrev AppM (P : Type) := Prog (PlayerStmt P) (Site P) String

/-- The programs of the handlers. -/
abbrev PlayerM (P : Type) := Prog (PlayerStmt P) (Site P) ApiError

/-- The site's program as a handler runs it. -/
def SiteM.app (p : SiteM P α) : AppM P α := p.embed .site id

/-- Gives the errors the form of the handler. -/
def AppM.mapErr (f : String → ApiError) (p : AppM P α) : PlayerM P α := p.embed id f

/-- A read of the service. -/
def readApp (f : Site P → α) : AppM P α := .query .read dbError f

/-- A read of the handler. -/
def read (f : Site P → α) : PlayerM P α := .query .read .database f

/-- What is missing is this error. -/
def orElse (e : ApiError) : Option α → PlayerM P α
  | some a => pure a
  | none => .fail e

/-! ## Instances of an event -/

/-- An instance with the names that a mode shows. -/
structure ModeInstanceResult where
  «instance» : InstanceRow
  challengeName : String
  nickname : String

/-- The event has begun. -/
def shouldOngoingOrEnded (event : EventRow) : AppM P Unit := do
  let now ← .look .read (·.now)
  if eventTimeStatus event.toEvent now = .notStarted then .fail "赛事尚未开始" else pure ()

/-- A competition is seen by those who joined it, from its start on. -/
def requireStarted (event : EventRow) (userId : Nat) : AppM P Unit :=
  if event.isCompetition then do
    (shouldUserJoined event userId).app
    shouldOngoingOrEnded event
  else pure ()

/-- The checks that a participant passes before it sees instances. -/
def enter (event : EventRow) (userId : Nat) : AppM P Participant := do
  (requireJeopardyFamily event).app
  (policyFromEvent event).app
  requireStarted event userId
  let participant ← (resolveParticipant event userId).app
  pure ⟨event.id, participant.subject⟩

/-- The name of a challenge. -/
def Site.challengeName (s : Site P) (challengeId : Nat) : Option String :=
  (s.challenges.find? (·.id = challengeId)).map (·.name)

/-- The running instances of the participant with the names of their challenges. -/
def Site.modeInstances (s : Site P) (p : Participant) : List (InstanceRow × Option String) :=
  (s.instances.filter p.runs).map fun i => (i, s.challengeName i.challengeId)

/-- The names of these users. -/
def Site.nicknames (s : Site P) (ids : List Nat) : List (Nat × String) :=
  (s.users.filter fun u => u.id ∈ ids).map fun u => (u.id, u.nickname)

/-- The names of these users; nothing is asked for nobody. -/
def readNicknames (userIds : List Nat) : AppM P (List (Nat × String)) :=
  if userIds.isEmpty then pure [] else readApp (·.nicknames userIds)

/-- `get_instances`. -/
def getInstances (event : EventRow) (userId : Nat) : AppM P (List ModeInstanceResult) := do
  let p ← enter event userId
  let data ← .query (.listRows p) dbError (·.modeInstances p)
  match p.subject with
  | .user _ => do
    let nicknameById ← readNicknames (data.map (·.1.userId))
    pure (data.map fun (i, name) =>
      ⟨i, name.getD "", (nicknameById.lookup i.userId).getD ""⟩)
  | .team _ => pure (data.map fun (i, name) => ⟨i, name.getD "", "team_"⟩)

/-- `find_instance_by_challenge_id`. -/
def findInstanceByChallengeId (event : EventRow) (userId challengeId : Nat) :
    AppM P (Option InstanceRow) := do
  let p ← enter event userId
  readApp (·.findRunning p challengeId)

/-- The event, unless it is hidden. -/
def Site.findVisible (s : Site P) (eventId : Nat) : Option EventRow :=
  s.events.find? fun e => e.id = eventId ∧ e.hidden = false

/-- The event, unless it is hidden; else it is not found. -/
def loadVisible (eventId : Nat) : PlayerM P EventRow := do
  orElse (.notFound "未找到该赛事") (← read (·.findVisible eventId))

/-- `list_event_instances`: the rows of the instances. -/
def listEventInstances (userId eventId : Nat) : PlayerM P (Response P) := do
  let event ← loadVisible eventId
  let instances ← (getInstances event userId).mapErr fun e =>
    .badRequest ("get_instances error: " ++ e)
  pure (.eventInstances (instances.map fun i => ⟨i.instance.model, i.challengeName, i.nickname⟩))

/-- An instance as its player is shown it. -/
def shown (i : InstanceRow) : InstancesDto := .fromPair i i.runtime

/-- `get_challenge_instance` of an event. -/
def eventChallengeInstance (userId eventId challengeId : Nat) : PlayerM P (Response P) := do
  let event ← loadVisible eventId
  let found ← (findInstanceByChallengeId event userId challengeId).mapErr fun e =>
    .badRequest ("find_instance_by_challenge_id error: " ++ e)
  pure (.instance (found.map shown))

/-! ## Single instances -/

/-- The instance with this id. -/
def Site.findInstance (s : Site P) (id : Nat) : Option InstanceRow := s.instances.find? (·.id = id)

/-- The hexadecimal digits of a UUID from the digit `k` on. -/
def uuidDigits (id k n : Nat) : String :=
  String.ofList ((List.range n).map fun j => Nat.digitChar (id / 16 ^ (31 - k - j) % 16))

/-- An id as text in five groups. -/
def uuidText (id : Nat) : String :=
  uuidDigits id 0 8 ++ "-" ++ uuidDigits id 8 4 ++ "-" ++ uuidDigits id 12 4 ++ "-" ++
    uuidDigits id 16 4 ++ "-" ++ uuidDigits id 20 12

/-- The instance whose key the request names, and its event. -/
def loadSeed (instanceId : Nat) : PlayerM P (InstanceRow × EventRow) := do
  let seed ← orElse (.notFound ("未找到 " ++ uuidText instanceId))
    (← read (·.findInstance instanceId))
  let event ← orElse (.notFound "未找到该实例所属赛事") (← read (·.findEvent seed.eventId))
  pure (seed, event)

/-- `GET /api/instances/{instance_id}`. -/
def getInstance (userId instanceId : Nat) : PlayerM P (Response P) := do
  let (seed, event) ← loadSeed instanceId
  let found ← (findInstanceByChallengeId event userId seed.challengeId).mapErr fun e =>
    .badRequest ("get instance:" ++ e)
  let i ← orElse (.notFound ("未找到 " ++ uuidText instanceId))
    (found.filter (·.id = instanceId))
  pure (.instance (some (shown i)))

/-- `GET /api/challenges/{challenge_id}/instance`. -/
def practiceChallengeInstance (userId challengeId : Nat) : PlayerM P (Response P) := do
  let practice ← orElse (.internal "未找到练习用 Jeopardy 赛事") (← read (·.practiceEvent))
  let found ← read (·.findRunning ⟨practice.id, .user userId⟩ challengeId)
  pure (.instance (found.map shown))

/-- Destroys the instance of a user or of a team. -/
def destroyFor (event : EventRow) (instanceId : Nat) : Subject → AppM P Bool
  | .user id => (destroyOwned instanceId id).app
  | .team id => (destroyTeamOwned instanceId event.id id).app

/-- `destroy_instance`: within the event and for its participant. -/
def destroyInstance (event : EventRow) (userId instanceId : Nat) : AppM P Unit := do
  (requireJeopardyFamily event).app
  (policyFromEvent event).app
  let participant ← (resolveParticipant event userId).app
  let destroyed ← destroyFor event instanceId participant.subject
  if destroyed then pure ()
  else .fail "instance is not running or does not belong to this participant"

/-- `DELETE /api/instances/{instance_id}`. -/
def destroyRequested (userId instanceId : Nat) : PlayerM P (Response P) := do
  let (_, event) ← loadSeed instanceId
  (destroyInstance event userId instanceId).mapErr fun e => .badRequest ("destroy_instance:" ++ e)
  pure .done

/-- The event of a launch. -/
def launchEvent : Option Nat → PlayerM P EventRow
  | some id => do orElse (.notFound "no event") (← read (·.findEvent id))
  | none => do orElse (.internal "未找到练习用 Jeopardy 赛事") (← read (·.practiceEvent))

/-- `POST /api/instances/launch`: the state of the runtime is read once more for the response. -/
def launchHandler (req : LaunchRequest) : PlayerM P (Response P) := do
  let event ← launchEvent req.eventId
  let i ← (launchInstance event req).app.mapErr .badRequest
  let current ← orElse (.notFound "未找到该实例") (← read (·.findInstance i.id))
  pure (.instance (some (.fromPair i current.runtime)))

/-! ## Practice -/

/-- The parameters of a listing. -/
structure QueryParams where
  limit : Option Nat
  page : Option Nat
  filter : Option String

/-- The words of a text. -/
def splitWhitespace (text : String) : List String :=
  ((text.toList.splitOnP Text.isWhitespace).filter (· ≠ [])).map String.ofList

/-- A token in front of its first colon, and behind it. -/
def splitColon (token : String) : Option (String × String) :=
  match token.toList.span (· ≠ ':') with
  | (key, _ :: value) => some (String.ofList key, String.ofList value)
  | (_, []) => none

/-- The groups of conditions of a filter: `|` ends a group, and tokens without an operator in between
belong to the value. -/
def filterGroups : List String → List (String × String) → Option (String × String) →
    List (List (String × String))
  | [], group, open? =>
    let group := group ++ open?.toList
    if group.isEmpty then [] else [group]
  | token :: tokens, group, open? =>
    if token = "&" then filterGroups tokens (group ++ open?.toList) none
    else if token = "|" then
      let group := group ++ open?.toList
      if group.isEmpty then filterGroups tokens [] none
      else group :: filterGroups tokens [] none
    else match open?, splitColon token with
      | some (key, value), _ => filterGroups tokens group (some (key, value ++ " " ++ token))
      | none, some condition => filterGroups tokens group (some condition)
      | none, none => filterGroups tokens group none

/-- The name of a state. -/
def RuntimeState.text : RuntimeState → String
  | pending => "pending"
  | starting => "starting"
  | running => "running"
  | stopped => "stopped"
  | failed => "failed"
  | completed => "completed"

/-- An instance meets one condition of a filter. -/
def InstancesDto.meets (dto : InstancesDto) : String × String → Bool
  | ("id", value) => uuidText dto.id = value
  | ("status", value) => dto.status.text = value
  | ("identifier", value) => value.toList <:+: dto.identifier.toList
  | ("challenge_id", value) => dto.challengeId.any (uuidText · = value)
  | ("event_id", value) => uuidText dto.eventId = value
  | ("gamebox_id", value) => dto.gameboxId.any (uuidText · = value)
  | ("run_id", value) => dto.runId.any (uuidText · = value)
  | _ => true

/-- An instance meets every condition in one of the groups of a filter, if there are groups. -/
def matchInstancesFilter (dto : InstancesDto) (filter : String) : Bool :=
  let groups := filterGroups (splitWhitespace filter) [] none
  groups.isEmpty || groups.any (·.all dto.meets)

/-- The running instances that the user owns, the latest first. -/
def Site.ownedRuntimes (s : Site P) (userId : Nat) : List Runtime :=
  ((s.instances.map (·.runtime) ++ s.awdp.map (·.runtime)).filter fun r =>
    r.ownerUserId = some userId ∧ r.runtimeState = .running).mergeSort
      fun r r' => r'.updatedAt ≤ r.updatedAt

/-- The title of an event. -/
def Site.eventTitle (s : Site P) (eventId : Nat) : Option String :=
  (s.events.find? (·.id = eventId)).map (·.title)

/-- An AWDP practice as its player is shown it. -/
def awdpDto (a : AwdpPractice) (runtime : Runtime) (userId : Nat) (eventTitle : Option String)
    (userName : Option String) : InstancesDto where
  id := runtime.id
  status := runtime.runtimeState
  flag := ""
  content := none
  challengeId := none
  eventId := runtime.eventId
  teamId := a.ownerTeamId
  userId := userId
  identifier := runtime.containerName
  createdAt := runtime.createdAt
  updatedAt := runtime.updatedAt
  destroyAt := runtime.expiresAt
  challengeTitle := none
  eventTitle := eventTitle
  userName := userName
  runId := some a.runId
  gameboxId := some a.gameboxId
  gameboxTitle := some a.gameboxName

/-- What is shown of one of the rows, by the family that it belongs to. -/
def practiceDto (rows : List InstanceRow) (awdp : List AwdpPractice)
    (challengeTitle eventTitle : Nat → Option String) (userName : Option String) (userId : Nat)
    (runtime : Runtime) : Option InstancesDto :=
  match rows.find? (·.id = runtime.id), awdp.find? (·.id = runtime.id) with
  | some i, _ => some { InstancesDto.fromPair i runtime with
      challengeTitle := challengeTitle i.challengeId
      eventTitle := eventTitle runtime.eventId
      userName := userName }
  | none, some a => some (awdpDto a runtime userId (eventTitle runtime.eventId) userName)
  | none, none => none

/-- All practice instances of a user. -/
def collectPracticeInstances (userId : Nat) : PlayerM P (List InstancesDto) := do
  let rows ← read (·.ownedRuntimes userId)
  if rows.isEmpty then pure []
  else
    let ids := rows.map (·.id)
    let challengeRows ← read fun s => s.instances.filter (·.id ∈ ids)
    let awdp ← read fun s => s.awdp.filter (·.id ∈ ids)
    let challengeTitle ← read (·.challengeName)
    let eventTitle ← read (·.eventTitle)
    let userName ← read fun s => (s.users.find? (·.id = userId)).map (·.nickname)
    pure (rows.filterMap (practiceDto challengeRows awdp challengeTitle eventTitle userName userId))

/-- The page that is asked for; the product wraps around. -/
def pageOf (query : QueryParams) (items : List InstancesDto) : List InstancesDto :=
  match query.limit, query.page with
  | some limit, some page => (items.drop ((page - 1) * limit % 2 ^ 64)).take limit
  | _, _ => items

/-- `GET /api/instances`. -/
def listPracticeInstances (userId : Nat) (query : QueryParams) : PlayerM P (Response P) := do
  let items ← collectPracticeInstances userId
  let items := match query.filter with
    | some filter =>
      if Text.trim filter = "" then items else items.filter (matchInstancesFilter · filter)
    | none => items
  pure (.instances (pageOf query items) items.length)

/-! ## Challenges -/

/-- The arithmetic of the source in floating point, and the column by which challenges are ordered. -/
structure Outside (P : Type) where
  parse : String → Except String P
  dynamicScore : P → Nat → P → P → P
  newer : ChallengeRow → ChallengeRow → Bool

/-- Reads a setting. -/
def readSetting (key : String) : AppM P String := do
  match ← readApp (·.setting key) with
  | .ok value => pure value
  | .error e => .fail e

/-- Reads a number. -/
def parsed (o : Outside P) (text : String) : AppM P P :=
  match o.parse text with
  | .ok x => pure x
  | .error e => .fail e

/-- The points of the next solve, by the settings of the decay. -/
def calculateNextDynamicScore (o : Outside P) (basePoints : P) (solves : Nat) : AppM P P :=
  if solves = 0 then pure basePoints
  else do
    let decay ← parsed o (← readSetting "EVENT_SCORE_DECAY")
    let minPercent ← parsed o (← readSetting "EVENT_SCORE_MIN_PERCENT")
    pure (o.dynamicScore basePoints solves decay minPercent)

/-- The solves of a challenge in an event. -/
def Site.solvesOf (s : Site P) (eventId challengeId : Nat) : List (SolveRecord P) :=
  s.solves.filter fun v => v.eventId = eventId ∧ v.challengeId = challengeId

/-- Whether the challenge is solved, and as which one in the order of time. -/
def solvedNo (eventId challengeId : Nat) : Option (SolveRecord P) → AppM P (Bool × Nat)
  | none => pure (false, 0)
  | some v => do
    let before ← readApp fun s =>
      ((s.solvesOf eventId challengeId).filter (·.createdAt < v.createdAt)).length
    pure (true, before + 1)

/-- `challenge_solve_status`. -/
def challengeSolveStatus (event : EventRow) (challengeId userId : Nat) : AppM P (Bool × Nat) :=
  match event.participantMode with
  | .individual => do
    let solve ← readApp fun s => (s.solvesOf event.id challengeId).find? fun v =>
      v.userId = userId ∧ v.teamId = none
    solvedNo event.id challengeId solve
  | .team => do
    match ← readApp (·.findMembership event.id userId) with
    | none => .fail "you are not in any team"
    | some membership => do
      let solve ← readApp fun s => (s.solvesOf event.id challengeId).find? fun v =>
        v.teamId = some membership.teamId
      solvedNo event.id challengeId solve

/-- The published challenges of an event. -/
def Site.publishedChallenges (s : Site P) (eventId : Nat) :
    List (EventChallenge P × Option ChallengeRow) :=
  (s.eventChallenges.filter fun c => c.eventId = eventId ∧ c.hidden = false).map fun c =>
    (c, s.challenges.find? (·.id = c.challengeId))

/-- A challenge of an event as its player is shown it. -/
def eventChallengeResult (o : Outside P) (event : EventRow) (userId : Nat)
    (eventChallenge : EventChallenge P) (c : ChallengeRow) :
    PlayerM P (EventChallengeResult P) := do
  let solvedCount ← read fun s => (s.solvesOf event.id c.id).length
  let (solved, solvedNo) ← (challengeSolveStatus event c.id userId).mapErr .badRequest
  let currentPoints ← (calculateNextDynamicScore o eventChallenge.points solvedCount).mapErr
    fun e => .badRequest ("calculate_next_dynamic_score error: " ++ e)
  pure ⟨.ofRow c, currentPoints, solvedCount, solved, solvedNo⟩

/-- The challenges of an event one after the other; a missing one is passed over. -/
def eventChallengeResults (o : Outside P) (event : EventRow) (userId : Nat) :
    List (EventChallenge P × Option ChallengeRow) → PlayerM P (List (EventChallengeResult P))
  | [] => pure []
  | (_, none) :: rest => eventChallengeResults o event userId rest
  | (eventChallenge, some c) :: rest => do
    let result ← eventChallengeResult o event userId eventChallenge c
    let results ← eventChallengeResults o event userId rest
    pure (result :: results)

/-- `list_event_challenges`. -/
def listEventChallenges (o : Outside P) (userId eventId : Nat) : PlayerM P (Response P) := do
  let event ← loadVisible eventId
  let again ← loadVisible eventId
  let now ← .look .read (·.now)
  if eventTimeStatus again.toEvent now = .notStarted then .fail (.badRequest "赛事尚未开始")
  else
    let joined ← read fun s => s.eventUsers.any fun u => u.eventId = eventId ∧ u.userId = userId
    if !joined then .fail (.badRequest "你尚未加入本赛事")
    else
      let published ← read (·.publishedChallenges event.id)
      let results ← eventChallengeResults o event userId published
      pure (.eventChallenges (results.mergeSort fun a b =>
        b.challenge.category ≤ a.challenge.category))

/-- `solved_challenge_ids_for`. -/
def Site.solvedChallengeIds (s : Site P) (userId : Nat) : List Nat :=
  let teamIds := (s.members.filter (·.userId = userId)).map (·.teamId)
  (s.solves.filter fun v => v.userId = userId || v.teamId.any (· ∈ teamIds)).map (·.challengeId)

/-- `SOLVED_CHALLENGE_CONDITION_SQL`. -/
def Site.solvedCondition (s : Site P) (userId challengeId : Nat) : Bool :=
  s.solves.any fun v => v.challengeId = challengeId && (v.userId = userId ||
    s.members.any fun m => m.userId = userId && m.eventId = v.eventId && v.teamId = some m.teamId)

/-- The challenges of the catalogue that the filter keeps, the latest first. -/
def Site.catalogue (s : Site P) (o : Outside P) (userId : Nat)
    (keep : ChallengesDto → Bool → Bool) : List ChallengeRow :=
  (s.challenges.filter fun c =>
    !c.hidden && keep (.ofRow c) (s.solvedCondition userId c.id)).mergeSort o.newer

/-- `paginate_query`. -/
def paginate (limit page : Nat) (items : List ChallengeRow) : List ChallengeRow × Nat :=
  if limit = 0 then ([], 0)
  else
    let pages := (items.length + limit - 1) / limit
    let index := min (max page 1 - 1) (pages - 1)
    ((items.drop (index * limit)).take limit, items.length)

/-- `GET /api/challenges`; `keep` is the condition on the columns, and on whether the challenge is
solved, that the filter is translated to. -/
def listChallenges (o : Outside P) (userId : Nat) (keep : ChallengesDto → Bool → Bool)
    (query : QueryParams) : PlayerM P (Response P) := do
  let solved ← read (·.solvedChallengeIds userId)
  let all ← read (·.catalogue o userId keep)
  let (items, total) := match query.limit, query.page with
    | some limit, some page => paginate limit page all
    | _, _ => (all, all.length)
  pure (.challenges (items.map fun c => { ChallengesDto.ofRow c with solved := c.id ∈ solved }) total)

/-! ## The system -/

/-- The requests of players. -/
inductive PlayerRequest (P : Type) where
  | launch (req : LaunchRequest)
  | getInstance (userId instanceId : Nat)
  | listPracticeInstances (userId : Nat) (query : QueryParams)
  | listEventInstances (userId eventId : Nat)
  | eventChallengeInstance (userId eventId challengeId : Nat)
  | practiceChallengeInstance (userId challengeId : Nat)
  | listEventChallenges (userId eventId : Nat)
  | listChallenges (userId : Nat) (keep : ChallengesDto → Bool → Bool) (query : QueryParams)
  | destroyInstance (userId instanceId : Nat)

/-- Who makes the request. -/
def PlayerRequest.userId : PlayerRequest P → Nat
  | launch req => req.userId
  | getInstance userId _ | listPracticeInstances userId _ | listEventInstances userId _
  | eventChallengeInstance userId _ _ | practiceChallengeInstance userId _
  | listEventChallenges userId _ | listChallenges userId _ _ | destroyInstance userId _ => userId

/-- The handler of a request. -/
def PlayerRequest.prog (o : Outside P) : PlayerRequest P → PlayerM P (Response P)
  | launch req => launchHandler req
  | getInstance userId instanceId => Jeopardy.getInstance userId instanceId
  | listPracticeInstances userId query => Jeopardy.listPracticeInstances userId query
  | listEventInstances userId eventId => Jeopardy.listEventInstances userId eventId
  | eventChallengeInstance userId eventId challengeId =>
    Jeopardy.eventChallengeInstance userId eventId challengeId
  | practiceChallengeInstance userId challengeId =>
    Jeopardy.practiceChallengeInstance userId challengeId
  | listEventChallenges userId eventId => Jeopardy.listEventChallenges o userId eventId
  | listChallenges userId keep query => Jeopardy.listChallenges o userId keep query
  | destroyInstance userId instanceId => destroyRequested userId instanceId

/-- Requests of players, and the jobs of the site itself. -/
inductive PlayerJob (P : Type) where
  | request (r : PlayerRequest P)
  | site (j : SiteJob)

/-- A request with its reply, or a job of the site. -/
def PlayerJob.prog (o : Outside P) : PlayerJob P → PlayerM P Unit
  | request r => do
    let response ← (r.prog o).attempt
    .look (.reply r.userId response) fun _ => ()
  | site j => (SiteJob.prog j).app.mapErr .internal

/-- The players see the replies. -/
def players (o : Outside P) : System (PlayerStmt P) (Site P) ApiError
    (List (Nat × Except ApiError (Response P))) (PlayerJob P) SiteEvent where
  prog j := j.prog o
  env := SiteEvent.act
  watch _ l _ seen := match l with
    | .reply userId response => seen ++ [(userId, response)]
    | _ => seen

end FloatCtf.Jeopardy
