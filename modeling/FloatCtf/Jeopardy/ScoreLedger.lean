import FloatCtf.Jeopardy.Submission
import FloatCtf.Process.Table
import FloatCtf.Process.WriteSets
import Mathlib.Algebra.BigOperators.Group.List.Basic
import Mathlib.Algebra.GroupWithZero.Nat

/-!
# The accounts of a Jeopardy event

The scoring transaction of many submissions at once, statement by statement: the checks, the
advisory lock of the challenge, the count of the solves, the points and the solve.

`ledgerAccounted_run` shows that in every interleaving the points of every subject are the sum over its
solves, that a subject solves a challenge once, and that the solves of a challenge have the dynamic
scores in the order of their commits.
-/

namespace FloatCtf.Jeopardy

open Process

variable {P : Type}

/-! ## Tables -/

/-- A row of `jeopardy_challenge_solves`. -/
structure ScoreRow (P : Type) extends Solve P where
  bonusPoints : P
  deriving DecidableEq

/-- The tables that a scoring transaction reads and writes. -/
structure Scores (P : Type) where
  challenges : List Nat
  instances : List Instance
  eventChallenges : List (EventChallenge P)
  users : List (EventUser P)
  teams : List (EventTeam P)
  members : List TeamMember
  solves : List (ScoreRow P)

/-- The scores as the tables that the transaction reads. -/
def Scores.toDb (s : Scores P) : Db P where
  now := 0
  events := []
  challenges := s.challenges
  instances := s.instances
  eventChallenges := s.eventChallenges
  users := s.users
  teams := s.teams
  members := s.members
  solves := s.solves.map (·.toSolve)

/-- The advisory lock of a challenge, the rows of the subjects, and the unique keys of a solve. -/
inductive ScoreKey where
  | score (eventId challengeId : Nat)
  | user (eventId userId : Nat)
  | team (teamId : Nat)
  | userSolve (eventId challengeId userId : Nat)
  | teamSolve (eventId challengeId teamId : Nat)
  deriving DecidableEq

/-- What a transaction on the scores writes. -/
inductive ScoreWrite (P : Type) where
  | awardUser (eventId userId : Nat) (points : P)
  | awardTeam (teamId : Nat) (points : P)
  | solve (row : ScoreRow P)

/-- The effect of a write on the scores. -/
def ScoreWrite.apply [Add P] : ScoreWrite P → Scores P → Scores P
  | awardUser eventId userId points, s =>
    { s with users := s.users.map fun u =>
        if u.eventId = eventId ∧ u.userId = userId then { u with points := u.points + points }
        else u }
  | awardTeam teamId points, s =>
    { s with teams := s.teams.map fun t =>
        if t.id = teamId then { t with points := t.points + points } else t }
  | solve row, s => { s with solves := s.solves ++ [row] }

/-! ## The transaction -/

/-- Why a transaction is rolled back: an error, or the unique index of a solve. -/
inductive Refusal where
  | error (message : String)
  | alreadySolved
  deriving DecidableEq

/-- A submission as a transaction. -/
abbrev ScoreM (P : Type) := Work (Scores P) (ScoreWrite P) ScoreKey Refusal

/-- Refuses the submission. -/
def refuse {α : Type} (message : String) : ScoreM P α := .fail (.error message)

/-- What is missing refuses the submission. -/
def orRefuse {α : Type} (message : String) : Option α → ScoreM P α
  | some a => pure a
  | none => refuse message

/-- Reads the tables. -/
def lookup {α : Type} (f : Db P → α) : ScoreM P α := Work.look fun s => f s.toDb

/-- The `UPDATE` of the points locks the row that it finds. -/
def awardUserPoints (eventId userId : Nat) (points : P) : ScoreM P Unit :=
  Work.write (fun s => if s.users.any (·.takes eventId userId) then [.user eventId userId] else [])
    fun s =>
      if (s.users.filter (·.takes eventId userId)).length = 1 then
        .ok (.awardUser eventId userId points)
      else .error (.error "no active event_user")

/-- Gives the points to a team that is not banned. -/
def awardTeamPoints (teamId : Nat) (points : P) : ScoreM P Unit :=
  Work.write (fun s => if s.teams.any (·.takes teamId) then [.team teamId] else []) fun s =>
    if (s.teams.filter (·.takes teamId)).length = 1 then .ok (.awardTeam teamId points)
    else .error (.error "no active event_team")

/-- The unique key of a solve. -/
def Solve.key (s : Solve P) : ScoreKey :=
  match s.teamId with
  | none => .userSolve s.eventId s.challengeId s.userId
  | some teamId => .teamSolve s.eventId s.challengeId teamId

/-- An insert waits for another one under the same unique key. -/
def insertSolve (row : ScoreRow P) : ScoreM P Unit :=
  Work.write (fun _ => [row.toSolve.key]) fun s =>
    if row.toSolve.clashes s.toDb then .error .alreadySolved else .ok (.solve row)

/-- Gives the points to the player or the team. -/
def awardPoints (req : SubmitRequest) (teamId : Option Nat) (points : P) : ScoreM P Unit :=
  match teamId with
  | none => awardUserPoints req.eventId req.userId points
  | some teamId => awardTeamPoints teamId points

/-- The team that is credited, in an event of teams. -/
def findScoringTeam (req : SubmitRequest) : ScoreM P (Option Nat) :=
  if req.team then do
    let teamId ← orRefuse "你不属于任何队伍" (← lookup (·.findTeamIdForUser req.eventId req.userId))
    pure (some teamId)
  else pure none

/-- What is scored under the lock of the challenge. -/
def scoreLocked [Zero P] (dynamicScore : P → Nat → P) (req : SubmitRequest) (challengeId : Nat)
    (teamId : Option Nat) : ScoreM P Unit := do
  Work.lock (.score req.eventId challengeId)
  if ← lookup (·.alreadySolved req.eventId challengeId req.userId teamId) then pure ()
  else
    let eventChallenge ← orRefuse "该题目未加入本赛事"
      (← lookup (·.findEventChallenge req.eventId challengeId))
    let solvedCount ← lookup (·.solvedCount req.eventId challengeId)
    let points := dynamicScore eventChallenge.points solvedCount
    awardPoints req teamId points
    insertSolve ⟨⟨req.eventId, challengeId, req.userId, teamId, points⟩, 0⟩
    pure ()

/-- `score_in_transaction`. -/
def scoreTransaction [Zero P] (dynamicScore : P → Nat → P) (req : SubmitRequest) :
    ScoreM P Unit := do
  let inst ← orRefuse "实例不存在或已停止" (← lookup (·.runningInstance req.instanceId))
  let eventChallenge ← orRefuse "该题目不属于本赛事"
    (← lookup (·.findEventChallenge req.eventId inst.challengeId))
  if eventChallenge.hidden then refuse "该题目尚未发布，无法提交"
  else if !(← lookup (·.challenges.contains inst.challengeId)) then refuse "题目不存在"
  else if req.flag ≠ inst.flag then refuse "flag 错误"
  else
    let teamId ← findScoringTeam req
    scoreLocked dynamicScore req inst.challengeId teamId

/-! ## The system -/

/-- What happens beside the submissions: bans, challenges that are published or hidden, instances
that are launched and destroyed, and members of teams that change. -/
inductive BoardEdit where
  | banUser (eventId userId : Nat) (banned : Bool)
  | banTeam (teamId : Nat) (banned : Bool)
  | setHidden (eventId challengeId : Nat) (hidden : Bool)
  | instances (is : List Instance)
  | members (ms : List TeamMember)

/-- What an administrator changes. -/
def BoardEdit.act : BoardEdit → Scores P → Scores P
  | banUser eventId userId banned, s =>
    { s with users := s.users.map fun u =>
        if u.eventId = eventId ∧ u.userId = userId then { u with banned } else u }
  | banTeam teamId banned, s =>
    { s with teams := s.teams.map fun t => if t.id = teamId then { t with banned } else t }
  | setHidden eventId challengeId hidden, s =>
    { s with eventChallenges := s.eventChallenges.map fun c =>
        if c.eventId = eventId ∧ c.challengeId = challengeId then { c with hidden } else c }
  | instances is, s => { s with instances := is }
  | members ms, s => { s with members := ms }

/-- The rows whose locks an edit needs. -/
def BoardEdit.needs : BoardEdit → List ScoreKey
  | banUser eventId userId _ => [.user eventId userId]
  | banTeam teamId _ => [.team teamId]
  | _ => []

/-- The submissions and the edits. -/
def scoring [Add P] [Zero P] (dynamicScore : P → Nat → P) :
    WorkSystem (Scores P) (ScoreWrite P) ScoreKey Refusal SubmitRequest BoardEdit where
  prog := scoreTransaction dynamicScore
  apply := ScoreWrite.apply
  edit := BoardEdit.act
  needs := BoardEdit.needs

/-! ## Accounts -/

/-- The solves of a user in an event, without a team. -/
def ScoreRow.ofUser (eventId userId : Nat) (r : ScoreRow P) : Bool :=
  r.eventId = eventId ∧ r.userId = userId ∧ r.teamId = none

/-- The solve is credited to the team. -/
def ScoreRow.ofTeam (teamId : Nat) (r : ScoreRow P) : Bool := r.teamId = some teamId

/-- What the solves that meet `p` are worth. -/
def Scores.worth [AddMonoid P] (s : Scores P) (p : ScoreRow P → Bool) : P :=
  ((s.solves.filter p).map fun r => r.obtainedPoints + r.bonusPoints).sum

/-- The solves of a challenge, in the order of their commits. -/
def Scores.solvesOf (s : Scores P) (eventId challengeId : Nat) : List (ScoreRow P) :=
  s.solves.filter (·.isOf eventId challengeId)

/-- The points of a challenge before any solve. -/
def Scores.basePoints (s : Scores P) (eventId challengeId : Nat) : Option P :=
  (s.toDb.findEventChallenge eventId challengeId).map (·.points)

/-- The books are right: `scored` are the events whose solves come from submissions that score. -/
structure Accounted [AddMonoid P] (dynamicScore : P → Nat → P) (scored : Nat → Prop)
    (s : Scores P) : Prop where
  userKeys : Table.Keyed (fun u : EventUser P => (u.eventId, u.userId)) s.users
  teamKeys : Table.Keyed EventTeam.id s.teams
  onceUser : ∀ e c u, ((s.solvesOf e c).filter (·.ofUser e u)).length ≤ 1
  onceTeam : ∀ e c t, ((s.solvesOf e c).filter (·.ofTeam t)).length ≤ 1
  dynamic : ∀ e, scored e → ∀ c k r, (s.solvesOf e c)[k]? = some r →
    ∃ base, s.basePoints e c = some base ∧ r.obtainedPoints = dynamicScore base k
  users : ∀ u ∈ s.users, u.points = s.worth (·.ofUser u.eventId u.userId)
  teams : ∀ t ∈ s.teams, t.points = s.worth (·.ofTeam t.id)

/-- The subject of a row, a user without a team or a team, has the row `r` too. -/
def ScoreRow.sameSubject (row r : ScoreRow P) : Bool :=
  match row.teamId with
  | none => r.teamId = none && r.userId = row.userId
  | some teamId => r.teamId = some teamId

/-- The points of a row, for its subject. -/
def ScoreRow.award (row : ScoreRow P) : ScoreWrite P :=
  match row.teamId with
  | none => .awardUser row.eventId row.userId row.obtainedPoints
  | some teamId => .awardTeam teamId row.obtainedPoints

section Lookups

variable {s : Scores P} {eventId challengeId : Nat}

theorem solvedCount_toDb :
    s.toDb.solvedCount eventId challengeId = (s.solvesOf eventId challengeId).length := by
  simp only [Db.solvedCount, Scores.toDb, Scores.solvesOf, List.filter_map, List.length_map]
  rfl

theorem clashes_toDb (row : ScoreRow P) :
    row.toSolve.clashes s.toDb =
      (s.solvesOf row.eventId row.challengeId).any row.sameSubject := by
  simp only [Solve.clashes, Scores.toDb, Scores.solvesOf, List.any_map, List.any_filter]
  rfl

end Lookups

/-- One more row of which `p` allows one. -/
theorem length_filter_append_le {l : List (ScoreRow P)} {row : ScoreRow P} {p : ScoreRow P → Bool}
    {b : Bool} (hle : (l.filter p).length ≤ 1)
    (hnone : b = true → p row = true → l.filter p = []) :
    ((l ++ if b then [row] else []).filter p).length ≤ 1 := by
  rw [List.filter_append]
  cases b with
  | false => simpa using hle
  | true =>
    cases hp : p row with
    | false => simpa [hp] using hle
    | true => simp [hp, hnone rfl hp]

/-! ## What a write does -/

section Writes

variable [AddMonoid P] {s : Scores P} {row : ScoreRow P}

@[simp]
theorem award_solves (row : ScoreRow P) (s : Scores P) :
    (row.award.apply s).solves = s.solves := by
  unfold ScoreRow.award
  split <;> rfl

@[simp]
theorem award_eventChallenges (row : ScoreRow P) (s : Scores P) :
    (row.award.apply s).eventChallenges = s.eventChallenges := by
  unfold ScoreRow.award
  split <;> rfl

theorem solve_apply (row : ScoreRow P) (s : Scores P) :
    (ScoreWrite.solve row).apply s = { s with solves := s.solves ++ [row] } := rfl

theorem solvesOf_record (row : ScoreRow P) (s : Scores P) (eventId challengeId : Nat) :
    ((ScoreWrite.solve row).apply (row.award.apply s)).solvesOf eventId challengeId =
      s.solvesOf eventId challengeId ++
        if row.isOf eventId challengeId then [row] else [] := by
  simp only [Scores.solvesOf, solve_apply, award_solves, List.filter_append]
  rw [List.filter_singleton, cond_eq_ite]

theorem basePoints_record (row : ScoreRow P) (s : Scores P) (eventId challengeId : Nat) :
    ((ScoreWrite.solve row).apply (row.award.apply s)).basePoints eventId challengeId =
      s.basePoints eventId challengeId := by
  simp only [Scores.basePoints, Db.findEventChallenge, Scores.toDb, solve_apply,
    award_eventChallenges]

theorem worth_record (row : ScoreRow P) (s : Scores P) (p : ScoreRow P → Bool) :
    ((ScoreWrite.solve row).apply (row.award.apply s)).worth p =
      s.worth p + if p row then row.obtainedPoints + row.bonusPoints else 0 := by
  simp only [Scores.worth, solve_apply, award_solves, List.filter_append, List.map_append,
    List.sum_append, List.filter_singleton, cond_eq_ite]
  split <;> simp

theorem mem_users_award {u : EventUser P} (h : u ∈ (row.award.apply s).users) :
    ∃ u' ∈ s.users, u.eventId = u'.eventId ∧ u.userId = u'.userId ∧
      u.points = u'.points + if row.ofUser u.eventId u.userId then row.obtainedPoints else 0 := by
  unfold ScoreRow.award at h
  split at h
  · next hteam =>
    obtain ⟨u', hu', rfl⟩ := List.mem_map.1 h
    refine ⟨u', hu', ?_⟩
    by_cases hk : u'.eventId = row.eventId ∧ u'.userId = row.userId
    · simp [ScoreRow.ofUser, hk, hteam]
    · have hno : ¬(row.eventId = u'.eventId ∧ row.userId = u'.userId) :=
        fun h => hk ⟨h.1.symm, h.2.symm⟩
      simp only [if_neg hk, ScoreRow.ofUser, hteam, and_true, decide_eq_true_eq, if_neg hno,
        add_zero, and_self]
  · next teamId hteam =>
    exact ⟨u, h, rfl, rfl, by simp [ScoreRow.ofUser, hteam]⟩

theorem mem_teams_award {t : EventTeam P} (h : t ∈ (row.award.apply s).teams) :
    ∃ t' ∈ s.teams, t.id = t'.id ∧
      t.points = t'.points + if row.ofTeam t.id then row.obtainedPoints else 0 := by
  unfold ScoreRow.award at h
  split at h
  · next hteam => exact ⟨t, h, rfl, by simp [ScoreRow.ofTeam, hteam]⟩
  · next teamId hteam =>
    obtain ⟨t', ht', rfl⟩ := List.mem_map.1 h
    refine ⟨t', ht', ?_⟩
    by_cases hk : t'.id = teamId
    · simp [ScoreRow.ofTeam, hk, hteam]
    · have hno : ¬ teamId = t'.id := fun h => hk h.symm
      simp [ScoreRow.ofTeam, hk, hno, hteam]

theorem userKeys_award (h : Table.Keyed (fun u : EventUser P => (u.eventId, u.userId)) s.users) :
    Table.Keyed (fun u : EventUser P => (u.eventId, u.userId)) (row.award.apply s).users := by
  unfold ScoreRow.award
  split
  · exact Table.keyed_map (fun u => by split <;> rfl) h
  · exact h

theorem teamKeys_award (h : Table.Keyed EventTeam.id s.teams) :
    Table.Keyed EventTeam.id (row.award.apply s).teams := by
  unfold ScoreRow.award
  split
  · exact h
  · exact Table.keyed_map (fun t => by split <;> rfl) h

end Writes

/-! ## The books stay right -/

section Accounts

variable [AddMonoid P] {dynamicScore : P → Nat → P} {scored : Nat → Prop} {s : Scores P}

/-- A solve may be recorded: its subject has none, and it is worth the next dynamic score. -/
structure Recordable (dynamicScore : P → Nat → P) (row : ScoreRow P) (s : Scores P) : Prop where
  first : (s.solvesOf row.eventId row.challengeId).any row.sameSubject = false
  worth : ∃ base, s.basePoints row.eventId row.challengeId = some base ∧
    row.obtainedPoints =
      dynamicScore base (s.solvesOf row.eventId row.challengeId).length
  noBonus : row.bonusPoints = 0

theorem Recordable.none_ofUser {row : ScoreRow P} (h : Recordable dynamicScore row s)
    {eventId userId : Nat} (hrow : row.ofUser eventId userId = true) :
    (s.solvesOf row.eventId row.challengeId).filter (·.ofUser eventId userId) = [] := by
  obtain ⟨rfl, rfl, hteam⟩ : row.eventId = eventId ∧ row.userId = userId ∧ row.teamId = none := by
    simpa [ScoreRow.ofUser] using hrow
  refine List.filter_eq_nil_iff.2 fun r hr hof => ?_
  have hno := List.any_eq_false.1 h.first r hr
  simp only [ScoreRow.ofUser, decide_eq_true_eq] at hof
  simp [ScoreRow.sameSubject, hteam, hof] at hno

theorem Recordable.none_ofTeam {row : ScoreRow P} (h : Recordable dynamicScore row s)
    {teamId : Nat} (hrow : row.ofTeam teamId = true) :
    (s.solvesOf row.eventId row.challengeId).filter (·.ofTeam teamId) = [] := by
  have hteam : row.teamId = some teamId := by simpa [ScoreRow.ofTeam] using hrow
  refine List.filter_eq_nil_iff.2 fun r hr hof => ?_
  have hno := List.any_eq_false.1 h.first r hr
  simp only [ScoreRow.ofTeam, decide_eq_true_eq] at hof
  simp [ScoreRow.sameSubject, hteam, hof] at hno

theorem Accounted.record {row : ScoreRow P} (h : Accounted dynamicScore scored s)
    (hrow : Recordable dynamicScore row s) :
    Accounted dynamicScore scored ((ScoreWrite.solve row).apply (row.award.apply s)) where
  userKeys := userKeys_award h.userKeys
  teamKeys := teamKeys_award h.teamKeys
  onceUser e c u := by
    rw [solvesOf_record]
    refine length_filter_append_le (h.onceUser e c u) fun hof hu => ?_
    obtain ⟨rfl, rfl⟩ : row.eventId = e ∧ row.challengeId = c := by simpa [Solve.isOf] using hof
    exact hrow.none_ofUser hu
  onceTeam e c t := by
    rw [solvesOf_record]
    refine length_filter_append_le (h.onceTeam e c t) fun hof ht => ?_
    obtain ⟨rfl, rfl⟩ : row.eventId = e ∧ row.challengeId = c := by simpa [Solve.isOf] using hof
    exact hrow.none_ofTeam ht
  dynamic e he c k r hk := by
    rw [solvesOf_record] at hk
    rw [basePoints_record]
    by_cases hlt : k < (s.solvesOf e c).length
    · rw [List.getElem?_append_left hlt] at hk
      exact h.dynamic e he c k r hk
    · rw [List.getElem?_append_right (by omega)] at hk
      split at hk
      · next hof =>
        obtain ⟨rfl, rfl⟩ : row.eventId = e ∧ row.challengeId = c := by simpa [Solve.isOf] using hof
        -- The row is the last one.
        have hlast : k - (s.solvesOf row.eventId row.challengeId).length = 0 := by
          have := (List.getElem?_eq_some_iff.1 hk).1
          simp only [List.length_singleton] at this
          omega
        rw [hlast] at hk
        obtain rfl : row = r := by simpa using hk
        obtain ⟨base, hbase, hworth⟩ := hrow.worth
        refine ⟨base, hbase, ?_⟩
        rw [hworth]
        congr 1
        omega
      · simp at hk
  users u hu := by
    obtain ⟨u', hu', he, huid, hpoints⟩ := mem_users_award hu
    rw [worth_record, hpoints, h.users u' hu', he, huid, hrow.noBonus, add_zero]
  teams t ht := by
    obtain ⟨t', ht', hid, hpoints⟩ := mem_teams_award ht
    rw [worth_record, hpoints, h.teams t' ht', hid, hrow.noBonus, add_zero]

theorem accounted_of_same {s' : Scores P} (h : Accounted dynamicScore scored s)
    (hsolves : s'.solves = s.solves)
    (hbase : ∀ e c, s'.basePoints e c = s.basePoints e c)
    (husers : s'.users.map (fun u => (u.eventId, u.userId, u.points)) =
      s.users.map fun u => (u.eventId, u.userId, u.points))
    (hteams : s'.teams.map (fun t => (t.id, t.points)) = s.teams.map fun t => (t.id, t.points)) :
    Accounted dynamicScore scored s' := by
  have hof : ∀ e c, s'.solvesOf e c = s.solvesOf e c := fun e c => by
    simp only [Scores.solvesOf, hsolves]
  have hworth : ∀ p, s'.worth p = s.worth p := fun p => by simp only [Scores.worth, hsolves]
  constructor
  · have := congrArg (List.map fun x : Nat × Nat × P => (x.1, x.2.1)) husers
    simp only [List.map_map, Function.comp_def] at this
    simpa only [Table.Keyed, this] using h.userKeys
  · have := congrArg (List.map fun x : Nat × P => x.1) hteams
    simp only [List.map_map, Function.comp_def] at this
    simpa only [Table.Keyed, this] using h.teamKeys
  · exact fun e c u => by simpa only [hof] using h.onceUser e c u
  · exact fun e c t => by simpa only [hof] using h.onceTeam e c t
  · exact fun e he c k r hk => by
      rw [hbase]
      exact h.dynamic e he c k r (hof e c ▸ hk)
  · intro u hu
    have hmem : (u.eventId, u.userId, u.points) ∈
        s.users.map fun u => (u.eventId, u.userId, u.points) :=
      husers ▸ List.mem_map_of_mem hu
    obtain ⟨u', hu', heq⟩ := List.mem_map.1 hmem
    obtain ⟨he, hid, hp⟩ : u'.eventId = u.eventId ∧ u'.userId = u.userId ∧
        u'.points = u.points := by simpa using heq
    rw [← hp, h.users u' hu', he, hid, hworth]
  · intro t ht
    have hmem : (t.id, t.points) ∈ s.teams.map fun t => (t.id, t.points) :=
      hteams ▸ List.mem_map_of_mem ht
    obtain ⟨t', ht', heq⟩ := List.mem_map.1 hmem
    obtain ⟨hid, hp⟩ : t'.id = t.id ∧ t'.points = t.points := by simpa using heq
    rw [← hp, h.teams t' ht', hid, hworth]

end Accounts

/-- A ban and the like leave the solves, the base points and the points as they are. -/
theorem BoardEdit.act_same (a : BoardEdit) (s : Scores P) :
    (a.act s).solves = s.solves ∧
    (∀ e c, (a.act s).basePoints e c = s.basePoints e c) ∧
    (a.act s).users.map (fun u => (u.eventId, u.userId, u.points)) =
      s.users.map (fun u => (u.eventId, u.userId, u.points)) ∧
    (a.act s).teams.map (fun t => (t.id, t.points)) = s.teams.map fun t => (t.id, t.points) := by
  cases a with
  | banUser eventId userId banned =>
    refine ⟨rfl, fun _ _ => rfl, ?_, rfl⟩
    simp only [BoardEdit.act, List.map_map]
    refine List.map_congr_left fun u _ => ?_
    simp only [Function.comp_apply]
    split <;> rfl
  | banTeam teamId banned =>
    refine ⟨rfl, fun _ _ => rfl, rfl, ?_⟩
    simp only [BoardEdit.act, List.map_map]
    refine List.map_congr_left fun t _ => ?_
    simp only [Function.comp_apply]
    split <;> rfl
  | setHidden eventId challengeId hidden =>
    refine ⟨rfl, fun e c => ?_, rfl, rfl⟩
    simp only [Scores.basePoints, Db.findEventChallenge, Scores.toDb, BoardEdit.act,
      List.find?_map, Option.map_map]
    have hkey : ((fun x : EventChallenge P => decide (x.eventId = e ∧ x.challengeId = c)) ∘
        fun x => if x.eventId = eventId ∧ x.challengeId = challengeId then { x with hidden }
          else x) = fun x => decide (x.eventId = e ∧ x.challengeId = c) := by
      funext x
      simp only [Function.comp_apply]
      split <;> rfl
    rw [hkey]
    refine Option.map_congr fun x _ => ?_
    simp only [Function.comp_apply]
    split <;> rfl
  | instances is => exact ⟨rfl, fun _ _ => rfl, rfl, rfl⟩
  | members ms => exact ⟨rfl, fun _ _ => rfl, rfl, rfl⟩

/-! ## Transactions -/

section Law

variable [AddMonoid P] {dynamicScore : P → Nat → P} {scored : Nat → Prop} {s s' : Scores P}
  {ks : List ScoreKey} {α β : Type}

/-- The advisory lock of a challenge protects its solves. -/
def scoreLaw (dynamicScore : P → Nat → P) (scored : Nat → Prop) :
    WorkLaw (Scores P) (ScoreWrite P) ScoreKey SubmitRequest (List (ScoreRow P) × Option P) where
  part
    | .score e c, s => (s.solvesOf e c, s.basePoints e c)
    | _, _ => ([], none)
  inv := Accounted dynamicScore scored
  ends req s ws := ws = [] ∨ ∃ row, ws = [row.award, .solve row] ∧
    Recordable dynamicScore row s ∧ row.eventId = req.eventId ∧ row.userId = req.userId

theorem commits_nil {req : SubmitRequest} (h : Accounted dynamicScore scored s) :
    (scoreLaw dynamicScore scored).Commits (scoring dynamicScore) req s [] ks :=
  ⟨.inl rfl, h, fun _ _ => rfl⟩

theorem commits_record {req : SubmitRequest} {row : ScoreRow P}
    (h : Accounted dynamicScore scored s) (hrow : Recordable dynamicScore row s)
    (he : row.eventId = req.eventId) (hu : row.userId = req.userId)
    (hlock : .score row.eventId row.challengeId ∈ ks) :
    (scoreLaw dynamicScore scored).Commits (scoring dynamicScore) req s
      [row.award, .solve row] ks where
  ends := .inr ⟨row, rfl, hrow, he, hu⟩
  inv := h.record hrow
  frame k hk := by
    cases k with
    | score e c =>
      have hof : row.isOf e c = false := by
        refine Bool.eq_false_iff.2 fun hof => ?_
        obtain ⟨rfl, rfl⟩ : row.eventId = e ∧ row.challengeId = c := by
          simpa [Solve.isOf] using hof
        exact hk hlock
      refine Prod.ext ?_ (basePoints_record row s e c)
      refine (solvesOf_record row s e c).trans ?_
      rw [hof]
      exact List.append_nil _
    | user _ _ => rfl
    | team _ => rfl
    | userSolve _ _ _ => rfl
    | teamSolve _ _ _ => rfl

theorem Recordable.beside {row : ScoreRow P} (h : Recordable dynamicScore row s)
    (hlock : .score row.eventId row.challengeId ∈ ks)
    (hb : (scoreLaw dynamicScore scored).Beside ks s s') : Recordable dynamicScore row s' := by
  have hpart := hb _ hlock
  have hsolves : s'.solvesOf row.eventId row.challengeId =
    s.solvesOf row.eventId row.challengeId := congrArg Prod.fst hpart
  have hbase : s'.basePoints row.eventId row.challengeId =
    s.basePoints row.eventId row.challengeId := congrArg Prod.snd hpart
  exact ⟨hsolves ▸ h.first, by rw [hsolves, hbase]; exact h.worth, h.noBonus⟩

variable {S : WorkSystem (Scores P) (ScoreWrite P) ScoreKey Refusal SubmitRequest BoardEdit}
  {M : WorkLaw (Scores P) (ScoreWrite P) ScoreKey SubmitRequest (List (ScoreRow P) × Option P)}
  {Q : β → Scores P → List (ScoreWrite P) → List ScoreKey → Prop}

omit [AddMonoid P] in
theorem safe_orRefuse {ws : List (ScoreWrite P)} {message : String} {o : Option α}
    {k : α → ScoreM P β} (h : ∀ a, o = some a → (k a).Safe S M Q s ws ks) :
    (orRefuse message o >>= k).Safe S M Q s ws ks := by
  cases o with
  | none => trivial
  | some a => exact h a rfl

omit [AddMonoid P] in
theorem safe_awardPoints {req : SubmitRequest} (row : ScoreRow P) {k : Unit → ScoreM P β}
    (he : row.eventId = req.eventId) (hu : row.userId = req.userId)
    (h : ∀ s' ks', M.Beside ks s s' → M.inv s' → ks ⊆ ks' →
      (k ()).Safe S M Q s' [row.award] ks') :
    (awardPoints req row.teamId row.obtainedPoints >>= k).Safe S M Q s [] ks := by
  unfold ScoreRow.award at h
  cases hteam : row.teamId with
  | none =>
    refine Work.safe_write fun s' w hb hi hw => ?_
    split at hw
    · cases hw
      simpa only [hteam, he, hu, List.nil_append] using h s' _ hb hi (List.subset_append_right _ _)
    · cases hw
  | some teamId =>
    refine Work.safe_write fun s' w hb hi hw => ?_
    split at hw
    · cases hw
      simpa only [hteam, List.nil_append] using h s' _ hb hi (List.subset_append_right _ _)
    · cases hw

theorem safe_scoreLocked (req : SubmitRequest) (challengeId : Nat) (teamId : Option Nat)
    (s : Scores P) (ks : List ScoreKey) :
    (scoreLocked dynamicScore req challengeId teamId).Safe (scoring dynamicScore)
      (scoreLaw dynamicScore scored)
      (fun _ => (scoreLaw dynamicScore scored).Commits (scoring dynamicScore) req) s [] ks := by
  refine Work.safe_lock fun s₁ _ _ => Work.safe_look fun s₂ _ _ => ?_
  split
  · exact Work.safe_pure fun s' _ hi => commits_nil hi
  refine Work.safe_look fun s₃ _ _ => safe_orRefuse fun ec hec => Work.safe_look fun s₄ hb₄ _ => ?_
  set row : ScoreRow P := ⟨⟨req.eventId, challengeId, req.userId, teamId,
    dynamicScore ec.points (s₄.toDb.solvedCount req.eventId challengeId)⟩, 0⟩ with hrowdef
  refine safe_awardPoints row rfl rfl fun s₅ ks' hb₅ _ hsub => ?_
  have hlock : .score req.eventId challengeId ∈ ks' := hsub List.mem_cons_self
  refine Work.safe_write fun s₆ w hb₆ hi₆ hw => ?_
  change (if row.toSolve.clashes ((ScoreWrite.apply row.award s₆).toDb) then _ else _) = _ at hw
  split at hw
  · cases hw
  · next hclash =>
    cases hw
    have hpart := (hb₆ _ hlock).trans (hb₅ _ List.mem_cons_self)
    have hsolves : s₆.solvesOf req.eventId challengeId = s₄.solvesOf req.eventId challengeId :=
      congrArg Prod.fst hpart
    have hbase : s₆.basePoints req.eventId challengeId = s₃.basePoints req.eventId challengeId :=
      congrArg Prod.snd (hpart.trans (hb₄ _ List.mem_cons_self))
    have hrow : Recordable dynamicScore row s₆ := by
      refine ⟨?_, ⟨ec.points, ?_, ?_⟩, rfl⟩
      · rw [Bool.not_eq_true, clashes_toDb] at hclash
        simpa only [Scores.solvesOf, award_solves] using hclash
      · exact hbase.trans (congrArg (Option.map EventChallenge.points) hec)
      · rw [hrowdef, hsolves, ← solvedCount_toDb]
    exact Work.safe_pure fun s' hb hi =>
      commits_record hi (hrow.beside (List.mem_append_right _ hlock) hb) rfl rfl
        (List.mem_append_right _ hlock)

omit [AddMonoid P] in
theorem safe_findScoringTeam {req : SubmitRequest} {k : Option Nat → ScoreM P β}
    (h : ∀ teamId s', M.inv s' → (k teamId).Safe S M Q s' [] ks) :
    (findScoringTeam req >>= k).Safe S M Q s [] ks := by
  refine Work.safe_bind ?_
  unfold findScoringTeam
  split
  · refine Work.safe_look fun s₁ _ _ => safe_orRefuse fun teamId _ => ?_
    exact Work.safe_pure fun s' _ hi => h (some teamId) s' hi
  · exact Work.safe_pure fun s' _ hi => h none s' hi

theorem safe_scoreTransaction (req : SubmitRequest) (s : Scores P) :
    (scoreTransaction dynamicScore req).Safe (scoring dynamicScore)
      (scoreLaw dynamicScore scored)
      (fun _ => (scoreLaw dynamicScore scored).Commits (scoring dynamicScore) req) s [] [] := by
  refine Work.safe_look fun s₁ _ _ => safe_orRefuse fun inst _ => ?_
  refine Work.safe_look fun s₂ _ _ => safe_orRefuse fun ec _ => ?_
  split
  · trivial
  refine Work.safe_look fun s₃ _ _ => ?_
  split
  · trivial
  split
  · trivial
  exact safe_findScoringTeam fun teamId s' _ =>
    safe_scoreLocked req inst.challengeId teamId s' []

theorem scoring_keeps :
    (scoreLaw dynamicScore scored).Keeps (scoring dynamicScore) where
  prog req s _ := safe_scoreTransaction req s
  edit a s h := by
    obtain ⟨hsolves, hbase, husers, hteams⟩ := a.act_same s
    refine ⟨accounted_of_same h hsolves hbase husers hteams, fun k _ => ?_⟩
    cases k with
    | score e c =>
      refine Prod.ext ?_ (hbase e c)
      exact congrArg (List.filter (·.isOf e c)) hsolves
    | user _ _ => rfl
    | team _ => rfl
    | userSolve _ _ _ => rfl
    | teamSolve _ _ _ => rfl

end Law

/-- In every interleaving of submissions, bans and edits, with transactions that are rolled back
anywhere, the books are right; and nothing but an edit and the commit of a transaction that has not
failed changes the points and the solves. -/
theorem ledgerAccounted_run [AddMonoid P] (dynamicScore : P → Nat → P) (scored : Nat → Prop)
    {s : Scores P} (h : Accounted dynamicScore scored s)
    (acts : List (WorkAct SubmitRequest BoardEdit)) :
    let S := scoring dynamicScore
    let w := acts.foldl S.step ⟨s, []⟩
    Accounted dynamicScore scored w.state ∧
    ∀ a : WorkAct SubmitRequest BoardEdit, (∀ e, a ≠ .edit e) →
      (∀ n t x, a = .commit n → w.sessions[n]? = some t → t.prog ≠ .ret x) →
      (S.step w a).state = w.state :=
  ⟨(WorkLaw.storeOk_run scoring_keeps h acts).1.inv,
    fun _ hedit hcommit => WorkLaw.state_step _ _ hedit hcommit⟩

/-- Two players before the same challenge. -/
def twoSolvers : Scores Nat where
  challenges := [7]
  instances := [⟨1, 0, 7, 1, none, "flag{a}", .running⟩, ⟨2, 0, 7, 2, none, "flag{b}", .running⟩]
  eventChallenges := [⟨0, 7, 100, false⟩]
  users := [⟨0, 1, 0, false⟩, ⟨0, 2, 0, false⟩]
  teams := []
  members := []
  solves := []

/-- The second submission waits for the first one at the lock of the challenge. -/
def twoSubmissions : List (WorkAct SubmitRequest BoardEdit) :=
  [.begin ⟨0, 1, 1, "flag{a}", false⟩, .begin ⟨0, 2, 2, "flag{b}", false⟩] ++
    List.replicate 5 (.step 0) ++ List.replicate 9 (.step 1) ++ List.replicate 4 (.step 0) ++
    [.edit (.banUser 0 1 true), .commit 0, .edit (.banUser 0 1 true)] ++
    List.replicate 9 (.step 0) ++ [.commit 0]

theorem accounted_twoSolvers :
    let S := scoring fun base solved => base - 10 * solved
    let w := twoSubmissions.foldl S.step ⟨twoSolvers, []⟩
    (w.state.users = [⟨0, 1, 100, true⟩, ⟨0, 2, 90, false⟩] ∧
      w.state.solves = [⟨⟨0, 7, 1, none, 100⟩, 0⟩, ⟨⟨0, 7, 2, none, 90⟩, 0⟩]) ∧
    Accounted (fun base solved => base - 10 * solved) (fun _ => True) w.state := by
  refine ⟨by decide +kernel, (ledgerAccounted_run _ _ ?_ twoSubmissions).1⟩
  refine ⟨by decide, by decide, fun _ _ _ => Nat.zero_le 1, fun _ _ _ => Nat.zero_le 1,
    (fun _ _ _ _ _ h => nomatch h), by decide, by decide⟩

end FloatCtf.Jeopardy
