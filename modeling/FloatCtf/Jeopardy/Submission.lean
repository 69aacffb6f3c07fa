import FloatCtf.Net.Text

/-!
# Flags of Jeopardy events

A player presents the identifier of an instance and a flag.  The event is the one that the request
names, or the one of the instance, or the practice event of the platform; the subject that scores is
the player or, in a team event, the team of the player.  A competition awards points and records the
solve in one transaction, a practice event records a solve without points.

Points are any type with an addition; the dynamic score is a parameter, since the source computes it
in floating point.
-/

namespace FloatCtf.Jeopardy

/-! ## Rows -/

/-- The family of an event. -/
inductive EventFamily where
  | jeopardy
  | awd
  | awdp
  deriving DecidableEq

/-- What an event is held for. -/
inductive EventPurpose where
  | practice
  | competition
  deriving DecidableEq

/-- Whether players take part alone or in teams. -/
inductive ParticipantMode where
  | individual
  | team
  deriving DecidableEq

/-- The state of an instance. -/
inductive RuntimeState where
  | pending
  | starting
  | running
  | stopped
  | failed
  | completed
  deriving DecidableEq

/-- An event. -/
structure Event where
  id : Nat
  family : EventFamily
  purpose : EventPurpose
  participantMode : ParticipantMode
  systemKey : Option String
  startTime : Int
  endTime : Option Int
  deriving DecidableEq

/-- A row of `event_challenge_instance` with the state of its runtime row. -/
structure Instance where
  id : Nat
  eventId : Nat
  challengeId : Nat
  userId : Nat
  teamId : Option Nat
  flag : String
  runtimeState : RuntimeState
  deriving DecidableEq

/-- A challenge of an event with its points. -/
structure EventChallenge (P : Type) where
  eventId : Nat
  challengeId : Nat
  points : P
  hidden : Bool
  deriving DecidableEq

/-- A player of an event. -/
structure EventUser (P : Type) where
  eventId : Nat
  userId : Nat
  points : P
  banned : Bool
  deriving DecidableEq

/-- A team of an event. -/
structure EventTeam (P : Type) where
  id : Nat
  eventId : Nat
  points : P
  banned : Bool
  deriving DecidableEq

/-- A member of a team. -/
structure TeamMember where
  eventId : Nat
  teamId : Nat
  userId : Nat
  deriving DecidableEq

/-- A solve. -/
structure Solve (P : Type) where
  eventId : Nat
  challengeId : Nat
  userId : Nat
  teamId : Option Nat
  obtainedPoints : P
  deriving DecidableEq

/-- The clock and the tables that a submission reads and writes. -/
structure Db (P : Type) where
  now : Int
  events : List Event
  challenges : List Nat
  instances : List Instance
  eventChallenges : List (EventChallenge P)
  users : List (EventUser P)
  teams : List (EventTeam P)
  members : List TeamMember
  solves : List (Solve P)

variable {P : Type}

/-! ## Events -/

/-- Where the clock stands in an event. -/
inductive EventTimeStatus where
  | notStarted
  | ongoing
  | ended
  deriving DecidableEq

/-- Where the clock stands in an event; practice has no end outside AWDP. -/
def eventTimeStatus (event : Event) (now : Int) : EventTimeStatus :=
  if now < event.startTime then .notStarted
  else if event.purpose = .practice ∧ event.family ≠ .awdp then .ongoing
  else if event.endTime.any (· < now) then .ended
  else .ongoing

/-- The name of a family in a message. -/
def EventFamily.debug : EventFamily → String
  | jeopardy => "Jeopardy"
  | awd => "Awd"
  | awdp => "Awdp"

/-- The name of a purpose in a message. -/
def EventPurpose.debug : EventPurpose → String
  | practice => "Practice"
  | competition => "Competition"

/-- The name of a mode in a message. -/
def ParticipantMode.debug : ParticipantMode → String
  | individual => "Individual"
  | team => "Team"

/-- The combinations of family, purpose and mode that exist. -/
def Event.modeValid (event : Event) : Bool :=
  match event.family, event.purpose, event.participantMode with
  | .jeopardy, .practice, .individual => true
  | .jeopardy, .competition, _ => true
  | .awd, .competition, .team => true
  | .awdp, .practice, .individual => true
  | .awdp, .competition, _ => true
  | _, _, _ => false

/-- The refusal of a combination that has no rules. -/
def Event.modeError (event : Event) : String :=
  "invalid event mode combination: family=" ++ event.family.debug ++ " purpose=" ++
    event.purpose.debug ++ " participant_mode=" ++ event.participantMode.debug

/-- The event is under way. -/
def shouldOngoing (event : Event) (now : Int) : Except String Unit :=
  match eventTimeStatus event now with
  | .notStarted => .error "赛事尚未开始"
  | .ongoing => .ok ()
  | .ended => .error "赛事已结束，无法提交 flag"

/-! ## Repository -/

/-- What is missing is an error with this message. -/
def orError {α : Type} (e : String) : Option α → Except String α
  | some a => .ok a
  | none => .error e

/-- The event with this id. -/
def Db.findEvent (db : Db P) (id : Nat) : Option Event := db.events.find? (·.id = id)

/-- The practice event. -/
def Db.practiceEvent (db : Db P) : Option Event :=
  db.events.find? (·.systemKey = some "practice:jeopardy")

/-- The instance with this id. -/
def Db.findInstance (db : Db P) (id : Nat) : Option Instance := db.instances.find? (·.id = id)

/-- The instance with this id, if it runs. -/
def Db.runningInstance (db : Db P) (id : Nat) : Option Instance :=
  db.instances.find? fun i => i.id = id ∧ i.runtimeState = .running

/-- The challenge in the event. -/
def Db.findEventChallenge (db : Db P) (eventId challengeId : Nat) : Option (EventChallenge P) :=
  db.eventChallenges.find? fun c => c.eventId = eventId ∧ c.challengeId = challengeId

/-- The player of the event. -/
def Db.findEventUser (db : Db P) (eventId userId : Nat) : Option (EventUser P) :=
  db.users.find? fun u => u.eventId = eventId ∧ u.userId = userId

/-- The team of the user in the event. -/
def Db.findTeamIdForUser (db : Db P) (eventId userId : Nat) : Option Nat :=
  (db.members.find? fun m => m.eventId = eventId ∧ m.userId = userId).map (·.teamId)

/-- The solve is of this challenge in this event. -/
def Solve.isOf (s : Solve P) (eventId challengeId : Nat) : Bool :=
  s.eventId = eventId ∧ s.challengeId = challengeId

/-- `SolveSubject` with its team. -/
def Db.alreadySolved (db : Db P) (eventId challengeId userId : Nat) : Option Nat → Bool
  | none => db.solves.any fun s => s.isOf eventId challengeId && s.userId = userId
  | some teamId => db.solves.any fun s => s.isOf eventId challengeId && s.teamId = some teamId

/-- How often the challenge is solved in the event. -/
def Db.solvedCount (db : Db P) (eventId challengeId : Nat) : Nat :=
  (db.solves.filter (·.isOf eventId challengeId)).length

/-- The row takes points: it is the user's and not banned. -/
def EventUser.takes (u : EventUser P) (eventId userId : Nat) : Bool :=
  u.eventId = eventId && u.userId = userId && !u.banned

/-- The row takes points: it is the team's and not banned. -/
def EventTeam.takes (t : EventTeam P) (teamId : Nat) : Bool := t.id = teamId && !t.banned

/-- Gives the points to a user who has one row that takes them. -/
def Db.awardUserPoints [Add P] (db : Db P) (eventId userId : Nat) (points : P) :
    Except String (Db P) :=
  if (db.users.filter (·.takes eventId userId)).length = 1 then
    .ok { db with
      users := db.users.map fun u =>
        if u.takes eventId userId then { u with points := u.points + points } else u }
  else .error "no active event_user"

/-- Gives the points to a team that has one row that takes them. -/
def Db.awardTeamPoints [Add P] (db : Db P) (teamId : Nat) (points : P) : Except String (Db P) :=
  if (db.teams.filter (·.takes teamId)).length = 1 then
    .ok { db with
      teams := db.teams.map fun t =>
        if t.takes teamId then { t with points := t.points + points } else t }
  else .error "no active event_team"

/-- The partial unique indexes, on the user without a team and on the team. -/
def Solve.clashes (s : Solve P) (db : Db P) : Bool :=
  db.solves.any fun r => r.isOf s.eventId s.challengeId &&
    match s.teamId with
    | none => r.teamId = none && r.userId = s.userId
    | some t => r.teamId = some t

/-! ## Scoring -/

/-- A submission to a competition; in a team event `team` holds. -/
structure SubmitRequest where
  eventId : Nat
  userId : Nat
  instanceId : Nat
  flag : String
  team : Bool

/-- What the transaction of a submission ends with. -/
inductive ScoreOutcome (P : Type) where
  | alreadySolved
  | scored (solve : Solve P)

/-- The team that scores, in a team event. -/
def scoringTeam (db : Db P) (req : SubmitRequest) : Except String (Option Nat) :=
  if req.team then
    (orError "你不属于任何队伍" (db.findTeamIdForUser req.eventId req.userId)).map some
  else .ok none

/-- Gives the points to the user or the team. -/
def award [Add P] (db : Db P) (req : SubmitRequest) (teamId : Option Nat) (points : P) :
    Except String (Db P) :=
  match teamId with
  | none => db.awardUserPoints req.eventId req.userId points
  | some teamId => db.awardTeamPoints teamId points

/-- The end of the transaction: the points, and the solve unless a unique index refuses it. -/
def recordSolve [Add P] (db : Db P) (req : SubmitRequest) (teamId : Option Nat)
    (challengeId : Nat) (points : P) : Except String (Db P × ScoreOutcome P) := do
  let db' ← award db req teamId points
  let solve : Solve P := ⟨req.eventId, challengeId, req.userId, teamId, points⟩
  if solve.clashes db then return (db, .alreadySolved)
  else return ({ db' with solves := db'.solves ++ [solve] }, .scored solve)

/-- One transaction; what it refuses leaves nothing behind. -/
def scoreInTransaction [Add P] (dynamicScore : P → Nat → P) (db : Db P) (req : SubmitRequest) :
    Except String (Db P × ScoreOutcome P) := do
  let inst ← orError "实例不存在或已停止" (db.runningInstance req.instanceId)
  let eventChallenge ← orError "该题目不属于本赛事"
    (db.findEventChallenge req.eventId inst.challengeId)
  if eventChallenge.hidden then throw "该题目尚未发布，无法提交"
  else if inst.challengeId ∉ db.challenges then throw "题目不存在"
  else if req.flag ≠ inst.flag then throw "flag 错误"
  else
    let teamId ← scoringTeam db req
    if db.alreadySolved req.eventId inst.challengeId req.userId teamId then
      return (db, .alreadySolved)
    else
      let points := dynamicScore eventChallenge.points
        (db.solvedCount req.eventId inst.challengeId)
      recordSolve db req teamId inst.challengeId points

/-! ## Clean-up -/

/-- The runtime is removed, or the removal fails. -/
def Db.destroy (db : Db P) (instanceId : Nat) (removed : Bool) : Db P :=
  { db with
    instances := db.instances.map fun i =>
      if i.id = instanceId ∧ i.runtimeState = .running then
        { i with runtimeState := if removed then .completed else .failed }
      else i }

/-- Destroys a running instance of the user. -/
def Db.destroyOwned (db : Db P) (instanceId userId : Nat) (removed : Bool) : Db P :=
  if db.instances.any fun i => i.id = instanceId ∧ i.userId = userId ∧
      i.runtimeState = .running then
    db.destroy instanceId removed
  else db

/-- Destroys a running instance of the team. -/
def Db.destroyTeamOwned (db : Db P) (instanceId eventId teamId : Nat) (removed : Bool) : Db P :=
  if db.instances.any fun i => i.id = instanceId ∧ i.eventId = eventId ∧ i.teamId = some teamId ∧
      i.runtimeState = .running then
    db.destroy instanceId removed
  else db

/-- The solve is kept whatever becomes of the instance. -/
def submit [Add P] (dynamicScore : P → Nat → P) (db : Db P) (req : SubmitRequest)
    (removed : Bool) : Except String (Db P × Option (Solve P)) := do
  let (db, outcome) ← scoreInTransaction dynamicScore db req
  match outcome with
  | .alreadySolved => return (db, none)
  | .scored solve =>
    match solve.teamId with
    | some teamId => return (db.destroyTeamOwned req.instanceId req.eventId teamId removed, solve)
    | none => return (db.destroyOwned req.instanceId req.userId removed, solve)

/-! ## Practice -/

/-- A flag for a practice instance of the player. -/
def submitPractice [Zero P] (db : Db P) (userId instanceId : Nat) (flag : String)
    (removed : Bool) : Except String (Db P) := do
  let inst ← orError "实例不存在或已停止" (db.runningInstance instanceId)
  let solveEvent ← orError "未找到该赛事" (db.findEvent inst.eventId)
  if solveEvent.purpose ≠ .practice then throw "该实例属于竞赛赛事，提交时必须携带 event_id"
  else if inst.challengeId ∉ db.challenges then throw "题目不存在"
  else if flag ≠ inst.flag then throw "flag 错误"
  else
    let already := db.solves.any fun s =>
      s.isOf inst.eventId inst.challengeId && s.userId = userId && s.teamId = none
    let db := if already then db else
      { db with solves := db.solves ++ [⟨inst.eventId, inst.challengeId, userId, none, 0⟩] }
    return db.destroyOwned instanceId userId removed

/-! ## Requests -/

/-- The body of a submission. -/
structure FlagRequest where
  eventId : Option Nat
  instanceId : Option Nat
  flag : String
  deriving DecidableEq

/-- The event of the request: the one it names, else the one of the instance, else practice. -/
def Db.requestedEvent (db : Db P) (req : FlagRequest) : Except String Event :=
  match req.eventId.or ((req.instanceId.bind db.findInstance).map (·.eventId)) with
  | some id => orError "未找到该赛事" (db.findEvent id)
  | none => orError "RecordNotFound Error: 未找到练习用 Jeopardy 赛事" db.practiceEvent

/-- The competition path, after the event is known. -/
def submitCompetition [Add P] (dynamicScore : P → Nat → P) (db : Db P) (event : Event)
    (userId instanceId : Nat) (flag : String) (removed : Bool) :
    Except String (Db P × Option (Solve P)) := do
  let _ ← orError "你尚未加入本赛事" (db.findEventUser event.id userId)
  shouldOngoing event db.now
  let team := decide (event.participantMode = .team)
  if team ∧ db.findTeamIdForUser event.id userId = none then throw "you are not in any team"
  else submit dynamicScore db ⟨event.id, userId, instanceId, flag, team⟩ removed

/-- The only entry, with the solve that was scored. -/
def submitFlag [Add P] [Zero P] (dynamicScore : P → Nat → P) (db : Db P) (event : Event)
    (userId : Nat) (instanceId : Option Nat) (flag : String) (removed : Bool) :
    Except String (Db P × Option (Solve P)) :=
  if event.family ≠ .jeopardy then
    throw ("UnsupportedForFamily: AWD events do not support this via the Jeopardy API; " ++
      "use /api/events/\x7bid\x7d/awd")
  else if !event.modeValid then throw event.modeError
  else do
    let instanceId ← orError "缺少实例 ID" instanceId
    if event.purpose = .practice then
      let db ← submitPractice db userId instanceId flag removed
      return (db, none)
    else submitCompetition dynamicScore db event userId instanceId flag removed

/-- `submit_flag`: looks the event up and submits the flag in its mode. -/
def handleSubmitFlag [Add P] [Zero P] (dynamicScore : P → Nat → P) (db : Db P) (userId : Nat)
    (req : FlagRequest) (removed : Bool) : Except String (Db P × Option (Solve P)) := do
  let event ← db.requestedEvent req
  (submitFlag dynamicScore db event userId req.instanceId (Text.trim req.flag) removed).mapError
    ("提交失败：" ++ ·)

end FloatCtf.Jeopardy
