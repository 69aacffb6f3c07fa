import FloatCtf.Process.Versions

/-!
# Teams and their members

The teams of an event, the users that are enrolled in it and the members of the teams, with the
constraints of the migrations, and the eight operations on them: those of the players take the lock
of the event row, those of the administrators do not.

What is kept of an event is what the operations look at.
-/

namespace FloatCtf.Events

open Process

/-! ## Rows -/

/-- What an event is held for. -/
inductive EventPurpose where
  | practice
  | competition
  deriving DecidableEq

/-- Whether players take part alone or in teams. -/
inductive ParticipantMode where
  | solo
  | team
  deriving DecidableEq

/-- An event. -/
structure Event where
  id : Nat
  hidden : Bool
  startTime : Int
  allowJoin : Bool
  purpose : EventPurpose
  participantMode : ParticipantMode
  systemKey : Option String
  deriving DecidableEq

/-- A team of an event. -/
structure EventTeam where
  id : Nat
  eventId : Nat
  name : String
  description : Option String
  deriving DecidableEq

/-- A player who has joined an event. -/
structure EventUser where
  eventId : Nat
  userId : Nat
  deriving DecidableEq

/-- The role of a team member. -/
inductive EventTeamMemberRole where
  | captain
  | member
  deriving DecidableEq

/-- A member of a team. -/
structure EventTeamMember where
  eventId : Nat
  teamId : Nat
  userId : Nat
  role : EventTeamMemberRole
  deriving DecidableEq

/-- A row of one of the three tables. -/
inductive Row where
  | team (t : EventTeam)
  | user (u : EventUser)
  | member (m : EventTeamMember)
  deriving DecidableEq

/-- What is unique or referred to. -/
inductive Key where
  | event (eventId : Nat)
  | team (eventId id : Nat)
  | teamName (eventId : Nat) (name : String)
  | user (eventId userId : Nat)
  | member (eventId userId : Nat)
  | captain (eventId teamId : Nat)
  deriving DecidableEq

/-- The primary keys, the unique keys and the foreign keys of the tables.  `event_team_members` has
one row for a user of an event and one captain for a team; it refers to the team of the same event
and to the enrollment, and is deleted with either. -/
def rosterSchema : Schema Row Key where
  keys
    | .team t => [.team t.eventId t.id, .teamName t.eventId t.name]
    | .user u => [.user u.eventId u.userId]
    | .member m => .member m.eventId m.userId ::
        if m.role = .captain then [.captain m.eventId m.teamId] else []
  refs
    | .member m => [.team m.eventId m.teamId, .user m.eventId m.userId]
    | _ => []
  shares
    | .team t => [.event t.eventId]
    | .user u => [.event u.eventId]
    | .member m => [.event m.eventId]

namespace Row

/-- The team of a row. -/
def toTeam : Row → Option EventTeam
  | .team t => some t
  | _ => none

/-- The member of a row. -/
def toMember : Row → Option EventTeamMember
  | .member m => some m
  | _ => none

/-- The row of one of these players in the event. -/
def isUserOf (eventId : Nat) (userIds : List Nat) : Row → Bool
  | .user u => u.eventId = eventId ∧ u.userId ∈ userIds
  | _ => false

/-- The row of one of these teams of the event. -/
def isTeamOf (eventId : Nat) (ids : List Nat) : Row → Bool
  | .team t => t.eventId = eventId ∧ t.id ∈ ids
  | _ => false

/-- The row of this member. -/
def isMember (eventId teamId userId : Nat) : Row → Bool
  | .member m => m.eventId = eventId ∧ m.teamId = teamId ∧ m.userId = userId
  | _ => false

end Row

/-- What the operations read beside the three tables. -/
structure World where
  now : Int
  events : List Event
  users : List Nat

/-- The event with this id. -/
def World.event (w : World) (id : Nat) : Option Event := w.events.find? (·.id = id)

/-- The errors of the requests, with their messages. -/
inductive AppError where
  | notFound (message : String)
  | badRequest (message : String)
  | database
  deriving DecidableEq

/-- The deletions; the one of `remove_team` has the members that it has read. -/
inductive Deletion where
  | teams (eventId : Nat) (ids memberIds : List Nat)
  | rows
  deriving DecidableEq

/-- A request on a roster, statement by statement. -/
abbrev RosterM := Txn Deletion World Row Key AppError

/-! ## Statements -/

/-- Ends a request with an error. -/
def throw {α : Type} (e : AppError) : RosterM α := .fail e

/-- A check whose error ends the request. -/
def ofExcept {α : Type} : Except AppError α → RosterM α
  | .ok a => pure a
  | .error e => throw e

/-- A missing row is an error with this message. -/
def ofOption {α : Type} (message : String) : Option α → RosterM α
  | some a => pure a
  | none => throw (.notFound message)

/-- `find_by_id(event_id).lock(Update)`, with the filter on `hidden` or without it. -/
def lockEvent (eventId : Nat) (visible : Bool) : RosterM Event := do
  ofOption "未找到该赛事"
    (← Txn.lockRow (.event eventId) fun w => (w.event eventId).filter fun e => !(visible && e.hidden))

/-- The membership of a player in an event. -/
def memberOf (eventId userId : Nat) : RosterM (Option EventTeamMember) :=
  Txn.query fun rows =>
    (rows.filterMap Row.toMember).find? fun m => m.eventId = eventId ∧ m.userId = userId

/-- The membership of a player in a team. -/
def findMember (eventId teamId userId : Nat) : RosterM (Option EventTeamMember) :=
  Txn.query fun rows => (rows.filterMap Row.toMember).find? fun m =>
    m.eventId = eventId ∧ m.teamId = teamId ∧ m.userId = userId

/-- The team of an event. -/
def findTeam (eventId teamId : Nat) : RosterM (Option EventTeam) :=
  Txn.query fun rows =>
    (rows.filterMap Row.toTeam).find? fun t => t.id = teamId ∧ t.eventId = eventId

/-- The users of the members of some teams. -/
def memberIds (eventId : Nat) (teamIds : List Nat) : RosterM (List Nat) :=
  Txn.query fun rows => ((rows.filterMap Row.toMember).filter fun m =>
    m.eventId = eventId ∧ m.teamId ∈ teamIds).map (·.userId)

/-- Inserts a team; a name that is taken is an error. -/
def insertTeam (eventId : Nat) (name : String) (description : Option String) (taken : AppError) :
    RosterM EventTeam := do
  let id ← Txn.insertRow (fun id => .team ⟨id, eventId, name, description⟩) taken .database
  pure ⟨id, eventId, name, description⟩

/-- The enrollment of a user who has none. -/
def enroll (eventId userId : Nat) : RosterM Unit := do
  if !(← Txn.query (·.any (Row.isUserOf eventId [userId]))) then
    let _ ← Txn.insertRow (fun _ => .user ⟨eventId, userId⟩) .database .database

/-- Inserts a member. -/
def insertMember (m : EventTeamMember) : RosterM Unit := do
  let _ ← Txn.insertRow (fun _ => .member m) .database .database

/-- `event_users` of the event, for some users. -/
def deleteUsers (eventId : Nat) (userIds : List Nat) : RosterM Nat :=
  Txn.deleteRows .rows (Row.isUserOf eventId userIds)

/-- Deletes a member. -/
def deleteMember (m : EventTeamMember) : RosterM Unit := do
  let _ ← Txn.deleteRows .rows (Row.isMember m.eventId m.teamId m.userId)

/-- The identifier of a team is its primary key. -/
def deleteTeam (team : EventTeam) : RosterM Unit := do
  let _ ← Txn.deleteRows .rows (Row.isTeamOf team.eventId [team.id])

/-- Deletes teams, with the members that were read noted in the label. -/
def deleteTeams (eventId : Nat) (ids memberIds : List Nat) : RosterM Nat :=
  Txn.deleteRows (.teams eventId ids memberIds) (Row.isTeamOf eventId ids)

/-! ## The operations of the players -/

/-- Only competitions that the system does not manage have a roster. -/
def requireCompetition (event : Event) : Except AppError Unit :=
  if event.purpose ≠ .competition then
    .error (.badRequest "UnsupportedForPurpose: only competition events support join/team")
  else if event.systemKey.isSome then
    .error (.badRequest "system-managed events cannot be joined")
  else .ok ()

/-- Only events of teams have teams. -/
def requireTeamMode (event : Event) : Except AppError Unit := do
  requireCompetition event
  if event.participantMode ≠ .team then
    .error (.badRequest
      "UnsupportedForParticipantMode: team operations require team participant mode")

/-- An event that has not started yet (`event_time_status`: the end matters only afterwards). -/
def Event.notStarted (event : Event) (now : Int) : Bool := now < event.startTime

/-- The roster is open and the event has not begun. -/
def requireRosterMutable (event : Event) (now : Int) : Except AppError Unit :=
  if !event.allowJoin then .error (.badRequest "event roster is closed by the administrator")
  else if event.notStarted now then .ok ()
  else .error (.badRequest "event roster is locked after the event starts")

/-- The event is locked and its roster may change. -/
def openRoster (eventId : Nat) (visible : Bool) : RosterM Unit := do
  let event ← lockEvent eventId visible
  ofExcept (requireTeamMode event)
  let now ← Txn.ask (·.now)
  ofExcept (requireRosterMutable event now)

/-- `create_team`: a player without a team makes one and is its captain. -/
def createTeam (eventId userId : Nat) (name : String) : RosterM EventTeam := do
  openRoster eventId true
  if (← memberOf eventId userId).isSome then throw (.badRequest "你已加入队伍")
  let team ← insertTeam eventId name none (.badRequest "队伍名称已存在，请更换名称")
  enroll eventId userId
  insertMember ⟨eventId, team.id, userId, .captain⟩
  pure team

/-- `quit_team`: a captain takes the team apart, a member leaves it. -/
def quitTeam (eventId teamId userId : Nat) : RosterM Unit := do
  openRoster eventId false
  let teamMember ← ofOption "你不属于该队伍" (← findMember eventId teamId userId)
  let team ← ofOption "未找到该队伍" (← findTeam eventId teamId)
  if teamMember.role = .captain then
    let ids ← memberIds eventId [teamId]
    deleteTeam team
    if !ids.isEmpty then
      let _ ← deleteUsers eventId ids
  else
    deleteMember teamMember
    let _ ← deleteUsers eventId [userId]

/-- `join_team`: a player without a team becomes a member. -/
def joinTeam (eventId teamId userId : Nat) : RosterM EventTeam := do
  openRoster eventId true
  if (← memberOf eventId userId).isSome then throw (.badRequest "你已加入队伍")
  let eventTeam ← ofOption "未找到该队伍" (← findTeam eventId teamId)
  enroll eventId userId
  insertMember ⟨eventId, eventTeam.id, userId, .member⟩
  pure eventTeam

/-- `leave_team`: a member who is no captain leaves. -/
def leaveTeam (eventId teamId userId : Nat) : RosterM Unit := do
  openRoster eventId false
  let teamMember ← ofOption "你不属于该队伍" (← findMember eventId teamId userId)
  if teamMember.role = .captain then throw (.badRequest "队长不能退出队伍，请先解散队伍")
  if !(← findTeam eventId teamId).isSome then throw (.notFound "未找到该队伍")
  deleteMember teamMember
  let _ ← deleteUsers eventId [userId]

/-! ## The operations of the administrators -/

/-- The event of an operation that does not lock it. -/
def teamEvent (eventId : Nat) : RosterM Event := do
  let event ← ofOption s!"未找到 {eventId}" (← Txn.ask (·.event eventId))
  if event.participantMode ≠ .team then throw (.badRequest "teams require team participant mode")
  pure event

/-- The administrator adds a team. -/
def addTeam (eventId : Nat) (name : String) (description : Option String) : RosterM EventTeam := do
  let event ← teamEvent eventId
  insertTeam event.id name description .database

/-- The administrator removes teams with their members. -/
def removeTeam (eventId : Nat) (ids : List Nat) : RosterM Nat := do
  let users ← memberIds eventId ids
  let deletedCount ← deleteTeams eventId ids users
  if !users.isEmpty then
    let _ ← deleteUsers eventId users
  pure deletedCount

/-- The administrator puts a player into a team. -/
def addUserToTeam (eventId teamId userId : Nat) : RosterM EventTeamMember := do
  let _ ← teamEvent eventId
  let _ ← ofOption s!"未找到 {teamId}" (← findTeam eventId teamId)
  if !(← Txn.ask (·.users.contains userId)) then throw (.notFound s!"未找到 {userId}")
  if (← memberOf eventId userId).isSome then
    throw (.badRequest "user already belongs to a team in this event")
  enroll eventId userId
  insertMember ⟨eventId, teamId, userId, .member⟩
  pure ⟨eventId, teamId, userId, .member⟩

/-- The administrator takes players out of a team. -/
def removeUserFromTeam (eventId teamId : Nat) (ids : List Nat) : RosterM Nat := do
  let selected ← Txn.query fun rows => (rows.filterMap Row.toMember).filter fun m =>
    m.eventId = eventId ∧ m.teamId = teamId ∧ m.userId ∈ ids
  if selected.any (·.role = .captain) then
    throw (.badRequest "captain cannot be removed individually; remove the team instead")
  if selected.isEmpty then pure 0 else deleteUsers eventId (selected.map (·.userId))

/-! ## The system -/

/-- The requests of players and administrators. -/
inductive Operation where
  | createTeam (eventId userId : Nat) (name : String)
  | quitTeam (eventId teamId userId : Nat)
  | joinTeam (eventId teamId userId : Nat)
  | leaveTeam (eventId teamId userId : Nat)
  | addTeam (eventId : Nat) (name : String) (description : Option String)
  | removeTeam (eventId : Nat) (ids : List Nat)
  | addUserToTeam (eventId teamId userId : Nat)
  | removeUserFromTeam (eventId teamId : Nat) (ids : List Nat)

/-- The program of a request. -/
def Operation.prog : Operation → RosterM Unit
  | createTeam eventId userId name => do let _ ← Events.createTeam eventId userId name
  | quitTeam eventId teamId userId => Events.quitTeam eventId teamId userId
  | joinTeam eventId teamId userId => do let _ ← Events.joinTeam eventId teamId userId
  | leaveTeam eventId teamId userId => Events.leaveTeam eventId teamId userId
  | addTeam eventId name description => do let _ ← Events.addTeam eventId name description
  | removeTeam eventId ids => do let _ ← Events.removeTeam eventId ids
  | addUserToTeam eventId teamId userId => do let _ ← Events.addUserToTeam eventId teamId userId
  | removeUserFromTeam eventId teamId ids => do
    let _ ← Events.removeUserFromTeam eventId teamId ids

/-- The event of an operation of a player. -/
def Operation.playerEvent : Operation → Option Nat
  | createTeam eventId _ _ | quitTeam eventId _ _ | joinTeam eventId _ _ | leaveTeam eventId _ _ =>
    some eventId
  | _ => none

/-- What happens beside the operations: time passes, and an administrator edits an event. -/
inductive Change where
  | tick (now : Int)
  | edit (eventId : Nat) (hidden allowJoin : Bool) (startTime : Int)

/-- What happens beside the requests: time passes and the administrator edits an event. -/
def Change.act : Change → World → World
  | tick now, w => { w with now := max w.now now }
  | edit eventId hidden allowJoin startTime, w =>
    { w with events := w.events.map fun e =>
        if e.id = eventId then { e with hidden, allowJoin, startTime } else e }

/-- The row that a change writes. -/
def Change.writes : Change → Option Key
  | tick _ => none
  | edit eventId _ _ _ => some (.event eventId)

/-- The requests on rosters and the changes beside them. -/
def roster : TxnSystem Deletion World Row Key AppError Unit Operation Change where
  schema := rosterSchema
  prog := Operation.prog
  edit := Change.act
  writes := Change.writes

/-- The database of the rosters. -/
abbrev RosterDb := Rdb Deletion World Row Key AppError Unit Operation

end FloatCtf.Events
