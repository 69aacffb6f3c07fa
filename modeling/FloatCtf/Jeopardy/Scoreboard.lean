import FloatCtf.Jeopardy.ScoreLedger
import Mathlib.Data.Finset.Sort
import Mathlib.Logic.Function.Basic

/-!
# The official board and trend of a Jeopardy event

The board in both participant modes, the status of a challenge for a user, and the trend, from the
rows that the database answers.  Where a query names no order, or rows are equal in it, the database
answers in any order.  Points are doubles: of their addition nothing is assumed, so that a sum
depends on its order.
-/

namespace FloatCtf.Jeopardy.Scoreboard

variable {P : Type}

/-! ## Rows -/

/-- A row of `jeopardy_challenge_solves` with its time. -/
structure SolveRow (P : Type) extends ScoreRow P where
  createdAt : Int
  deriving DecidableEq

/-- A challenge with its name. -/
structure Challenge where
  id : Nat
  name : String

/-- A user as a board shows it. -/
structure User where
  id : Nat
  nickname : String
  avatar : Option String

/-- A row of `event_teams` with its name. -/
structure TeamRow (P : Type) extends EventTeam P where
  name : String

/-- The tables that the three read.  The solves stand in the order in which they were awarded. -/
structure Tables (P : Type) where
  challenges : List Challenge
  users : List User
  eventChallenges : List (EventChallenge P)
  eventUsers : List (EventUser P)
  teams : List (TeamRow P)
  members : List TeamMember
  solves : List (SolveRow P)

/-- What the database answers for an event.  `solves` is in the order of the board, by challenge and
time, `timeline` in the order of the trend, by time. -/
structure Answers [LE P] (db : Tables P) (eventId : Nat) where
  challengeRows : List (EventChallenge P)
  eventUsers : List (EventUser P)
  teams : List (TeamRow P)
  solves : List (SolveRow P)
  timeline : List (SolveRow P)
  hchallengeRows : challengeRows.Perm
    (db.eventChallenges.filter fun c => c.eventId = eventId ∧ c.hidden = false)
  heventUsers : eventUsers.Perm
    (db.eventUsers.filter fun u => u.eventId = eventId ∧ u.banned = false)
  heventUsers_sorted : eventUsers.Pairwise fun u v => v.points ≤ u.points
  hteams : teams.Perm (db.teams.filter fun t => t.eventId = eventId)
  hsolves : solves.Perm (db.solves.filter fun s => s.eventId = eventId)
  hsolves_sorted : solves.Pairwise fun s t =>
    s.challengeId < t.challengeId ∨ s.challengeId = t.challengeId ∧ s.createdAt ≤ t.createdAt
  htimeline : timeline.Perm (db.solves.filter fun s => s.eventId = eventId)
  htimeline_sorted : timeline.Pairwise fun s t => s.createdAt ≤ t.createdAt

/-! ## The order of the solves -/

/-- Who solved what, the position of each solve, and how many solves a challenge has. -/
structure SolveMaps where
  solved : Finset (Nat × Nat)
  solveOrder : Nat × Nat → Option Nat
  total : Nat → Nat

/-- Counts one more solve of the challenge. -/
def SolveMaps.push (m : SolveMaps) (owner challengeId : Nat) : SolveMaps :=
  let entry := m.total challengeId + 1
  { solved := insert (owner, challengeId) m.solved
    total := Function.update m.total challengeId entry
    solveOrder := match m.solveOrder (owner, challengeId) with
      | some _ => m.solveOrder
      | none => Function.update m.solveOrder (owner, challengeId) (some entry) }

/-- Takes a solve in, if somebody is credited. -/
def SolveMaps.step (ownerOf : SolveRow P → Option Nat) (m : SolveMaps) (s : SolveRow P) :
    SolveMaps :=
  match ownerOf s with
  | none => m
  | some owner => m.push owner s.challengeId

/-- Who has solved what and in which place, in the order of the solves. -/
def solveMapsByOwner (solves : List (SolveRow P)) (ownerOf : SolveRow P → Option Nat) :
    SolveMaps :=
  solves.foldl (SolveMaps.step ownerOf) ⟨∅, fun _ => none, fun _ => 0⟩

/-! ## The board -/

/-- A cell of the board: a challenge, whether it is solved and in which place. -/
structure ChallengeScoreboard where
  name : String
  solved : Bool
  solvedNo : Nat

/-- A row of the board. -/
structure ScoreboardItem (P : Type) where
  id : Nat
  no : Nat
  name : String
  avatar : Option String
  score : P
  solvedCount : Nat
  challenges : List ChallengeScoreboard

section Board

variable [LE P] {db : Tables P} {eventId : Nat}

/-- The cells of one row. -/
def challengeCells (db : Tables P) (maps : SolveMaps) (ownerId : Nat)
    (challengeRows : List (EventChallenge P)) : Except String (List ChallengeScoreboard) :=
  challengeRows.mapM fun ec => do
    let challenge ← orError "未找到该题目" (db.challenges.find? (·.id = ec.challengeId))
    return { name := challenge.name
             solved := decide ((ownerId, ec.challengeId) ∈ maps.solved)
             solvedNo := (maps.solveOrder (ownerId, ec.challengeId)).getD 0 }

/-- The solves of an owner, counted over the whole event. -/
def SolveMaps.count (maps : SolveMaps) (ownerId : Nat) : Nat :=
  (maps.solved.filter fun k => k.1 = ownerId).card

/-- Every solve is credited to its user. -/
def userOwner (s : SolveRow P) : Option Nat := some s.userId

/-- A solve is credited to its team, if it has one. -/
def teamOwner (s : SolveRow P) : Option Nat := s.teamId

/-- The board of single players. -/
def assembleIndividual (a : Answers db eventId) : Except String (List (ScoreboardItem P)) :=
  let maps := solveMapsByOwner a.solves userOwner
  a.eventUsers.zipIdx.mapM fun (eventUser, no) => do
    let user ← orError "未找到该用户" (db.users.find? (·.id = eventUser.userId))
    let challenges ← challengeCells db maps eventUser.userId a.challengeRows
    return { id := user.id
             no := no + 1
             name := user.nickname
             avatar := user.avatar
             score := eventUser.points
             solvedCount := maps.count eventUser.userId
             challenges }

/-- The board of teams. -/
def assembleTeam (a : Answers db eventId) : Except String (List (ScoreboardItem P)) :=
  let maps := solveMapsByOwner a.solves teamOwner
  a.teams.zipIdx.mapM fun (eventTeam, no) => do
    let challenges ← challengeCells db maps eventTeam.id a.challengeRows
    return { id := eventTeam.id
             no := no + 1
             name := eventTeam.name
             avatar := none
             score := eventTeam.points
             solvedCount := maps.count eventTeam.id
             challenges }

/-- The event must be a Jeopardy competition. -/
def requireOfficial (event : Event) (what : String) : Except String Unit :=
  if event.family ≠ .jeopardy then
    .error ("UnsupportedForFamily: AWD events do not support this via the Jeopardy API; " ++
      "use /api/events/\x7bid\x7d/awd")
  else if !event.modeValid then .error event.modeError
  else if event.purpose ≠ .competition then
    .error s!"UnsupportedForPurpose: practice has no official event {what}"
  else .ok ()

/-- `get_scoreboard`: the board in the mode of the event. -/
def getScoreboard (event : Event) (a : Answers db event.id) :
    Except String (List (ScoreboardItem P)) := do
  requireOfficial event "scoreboard"
  match event.participantMode with
  | .individual => assembleIndividual a
  | .team => assembleTeam a

end Board

/-! ## The status of a challenge -/

/-- The first row of a query, and how many solves of its challenge are strictly earlier. -/
def statusOf (db : Tables P) (eventId challengeId : Nat) (mine : SolveRow P → Bool) : Bool × Nat :=
  match db.solves.find? fun s => s.isOf eventId challengeId && mine s with
  | none => (false, 0)
  | some r =>
    (true, db.solves.countP (fun s => s.isOf eventId challengeId && s.createdAt < r.createdAt) + 1)

/-- The team of the user in the event. -/
def resolveTeamIdForUser (db : Tables P) (eventId userId : Nat) : Except String Nat :=
  orError "you are not in any team"
    ((db.members.find? fun m => m.eventId = eventId ∧ m.userId = userId).map (·.teamId))

/-- Whether the user or the team has solved the challenge, and how many have. -/
def challengeSolveStatus (db : Tables P) (eventId challengeId userId : Nat) :
    ParticipantMode → Except String (Bool × Nat)
  | .individual =>
    .ok (statusOf db eventId challengeId fun s => s.userId = userId && s.teamId = none)
  | .team => do
    let teamId ← resolveTeamIdForUser db eventId userId
    return statusOf db eventId challengeId fun s => s.teamId = some teamId

/-! ## The trend -/

/-- A point of a trend: the score after a solve. -/
structure TrendPoint (P : Type) where
  name : String
  score : P
  time : Int

/-- The trend of one player or team. -/
structure TrendItem (P : Type) where
  name : String
  points : List (TrendPoint P)

section Trend

variable [Zero P] [Add P]

/-- The rows of each owner, in the order of the query. -/
def groupByOwner (solves : List (SolveRow P)) (ownerOf : SolveRow P → Option Nat) :
    Nat → List (SolveRow P) :=
  solves.foldl (fun m s =>
    match ownerOf s with
    | none => m
    | some owner => Function.update m owner (m owner ++ [s])) fun _ => []

/-- What one time adds to the score and the points of an owner. -/
def tick (db : Tables P) (solves : List (SolveRow P)) (time : Int)
    (st : P × List (TrendPoint P)) : P × List (TrendPoint P) :=
  let score := (solves.filter (·.createdAt = time)).foldl
    (fun score s => score + (s.obtainedPoints + s.bonusPoints)) st.1
  let name := ((solves.find? (·.createdAt = time)).bind fun s =>
    db.challenges.find? (·.id = s.challengeId)).elim "" (·.name)
  (score, st.2 ++ [⟨name, score, time⟩])

/-- The times of all solves, in order. -/
def allTimes (owners : List Nat) (ownerSolves : Nat → List (SolveRow P)) : List Int :=
  ((owners.flatMap ownerSolves).map (·.createdAt)).toFinset.sort (· ≤ ·)

/-- The scores and points of the owners, which the map holds in some order. -/
def buildPoints (db : Tables P) (owners : List Nat) (ownerSolves : Nat → List (SolveRow P)) :
    Nat → P × List (TrendPoint P) :=
  (allTimes owners ownerSolves).foldl (fun st time =>
    owners.foldl (fun st owner =>
      Function.update st owner (tick db (ownerSolves owner) time (st owner))) st) fun _ => (0, [])

/-- The owners of a list of solves, in the order of a hash map. -/
structure Keys (solves : List (SolveRow P)) (ownerOf : SolveRow P → Option Nat) where
  owners : List Nat
  nodup : owners.Nodup
  mem_owners : ∀ o, o ∈ owners ↔ ∃ s ∈ solves, ownerOf s = some o

variable [LE P] {db : Tables P} {eventId : Nat}

/-- The trend with the owner of each item. -/
def individualTrend (a : Answers db eventId) (keys : Keys a.timeline userOwner) :
    List (Nat × TrendItem P) :=
  let points := buildPoints db keys.owners (groupByOwner a.timeline userOwner)
  keys.owners.map fun userId =>
    (userId, ⟨(db.users.find? (·.id = userId)).elim "" (·.nickname), (points userId).2⟩)

/-- The trends of the teams. -/
def teamTrend (a : Answers db eventId) (keys : Keys a.timeline teamOwner) :
    List (Nat × TrendItem P) :=
  let points := buildPoints db keys.owners (groupByOwner a.timeline teamOwner)
  keys.owners.map fun teamId =>
    (teamId, ⟨(db.teams.find? (·.id = teamId)).elim "" (·.name), (points teamId).2⟩)

/-- `get_trend`: the trends in the mode of the event. -/
def getTrend (event : Event) (a : Answers db event.id) (users : Keys a.timeline userOwner)
    (teams : Keys a.timeline teamOwner) : Except String (List (Nat × TrendItem P)) := do
  requireOfficial event "trend"
  match event.participantMode with
  | .individual => return individualTrend a users
  | .team => return teamTrend a teams

end Trend

/-! ## What the loops compute -/

section Loops

variable {ownerOf : SolveRow P → Option Nat} {solves : List (SolveRow P)}

/-- The row is a solve of the challenge that counts for somebody. -/
def Credited (ownerOf : SolveRow P → Option Nat) (c : Nat) (s : SolveRow P) : Bool :=
  s.challengeId = c && (ownerOf s).isSome

theorem solveMapsByOwner_append (s : SolveRow P) :
    solveMapsByOwner (solves ++ [s]) ownerOf =
      (solveMapsByOwner solves ownerOf).step ownerOf s := by
  simp [solveMapsByOwner]

theorem mem_solved {o c : Nat} : (o, c) ∈ (solveMapsByOwner solves ownerOf).solved ↔
    ∃ s ∈ solves, ownerOf s = some o ∧ s.challengeId = c := by
  induction solves using List.reverseRecOn with
  | nil => simp [solveMapsByOwner]
  | append_singleton solves s ih =>
    rw [solveMapsByOwner_append, SolveMaps.step]
    cases hs : ownerOf s with
    | none => simp [ih, hs]
    | some owner =>
      simp only [SolveMaps.push, Finset.mem_insert, Prod.mk.injEq, ih, List.mem_append,
        List.mem_singleton]
      constructor
      · rintro (⟨rfl, rfl⟩ | ⟨t, ht, hto, htc⟩)
        · exact ⟨s, .inr rfl, hs, rfl⟩
        · exact ⟨t, .inl ht, hto, htc⟩
      · rintro ⟨t, ht | rfl, hto, htc⟩
        · exact .inr ⟨t, ht, hto, htc⟩
        · exact .inl ⟨Option.some.inj (hto.symm.trans hs), htc.symm⟩

theorem filter_credited_append {s : SolveRow P} {c : Nat} :
    (solves ++ [s]).filter (Credited ownerOf c) =
      if Credited ownerOf c s then solves.filter (Credited ownerOf c) ++ [s]
      else solves.filter (Credited ownerOf c) := by
  rw [List.filter_append]
  by_cases h : Credited ownerOf c s = true <;> simp [h]

theorem total_eq (c : Nat) : (solveMapsByOwner solves ownerOf).total c =
    (solves.filter (Credited ownerOf c)).length := by
  induction solves using List.reverseRecOn with
  | nil => rfl
  | append_singleton solves s ih =>
    rw [solveMapsByOwner_append, filter_credited_append, SolveMaps.step]
    cases hs : ownerOf s with
    | none => simp [Credited, hs, ih]
    | some owner =>
      by_cases hc : s.challengeId = c
      · simp [Credited, hs, hc, SolveMaps.push, ih]
      · simp [Credited, hs, hc, SolveMaps.push, ih, Ne.symm hc]

/-- A solve is the first of its owner, or changes no position. -/
theorem solveOrder_push (m : SolveMaps) (owner c : Nat) (k : Nat × Nat) :
    (m.push owner c).solveOrder k =
      (m.solveOrder k).or (if k = (owner, c) then some (m.total c + 1) else none) := by
  unfold SolveMaps.push
  cases hm : m.solveOrder (owner, c) with
  | some n =>
    by_cases hk : k = (owner, c)
    · simp [hk, hm]
    · simp [hk]
  | none =>
    by_cases hk : k = (owner, c)
    · simp [hk, hm]
    · simp [hk]

/-- The position of an owner among those who solved a challenge. -/
theorem solveOrder_eq (o c : Nat) : (solveMapsByOwner solves ownerOf).solveOrder (o, c) =
    ((solves.filter (Credited ownerOf c)).findIdx? (ownerOf · = some o)).map (· + 1) := by
  induction solves using List.reverseRecOn with
  | nil => rfl
  | append_singleton solves s ih =>
    rw [solveMapsByOwner_append, filter_credited_append, SolveMaps.step]
    cases hs : ownerOf s with
    | none => simp [Credited, hs, ih]
    | some owner =>
      rw [solveOrder_push, ih]
      by_cases hc : s.challengeId = c
      · have hcred : Credited ownerOf c s = true := by simp [Credited, hc, hs]
        rw [if_pos hcred, List.findIdx?_append, hc, total_eq]
        by_cases ho : o = owner
        · simp [hs, ho]
        · simp [hs, ho, Ne.symm ho]
      · have hcred : Credited ownerOf c s = false := by simp [Credited, hc]
        simp [hcred, Ne.symm hc]

theorem groupByOwner_eq (o : Nat) :
    groupByOwner solves ownerOf o = solves.filter (ownerOf · = some o) := by
  induction solves using List.reverseRecOn with
  | nil => rfl
  | append_singleton solves s ih =>
    unfold groupByOwner at ih ⊢
    rw [List.foldl_append, List.filter_append, ← ih, List.foldl_cons, List.foldl_nil]
    cases hs : ownerOf s with
    | none => simp [hs]
    | some owner =>
      by_cases ho : o = owner
      · simp [hs, ho]
      · simp [hs, ho, Ne.symm ho]

end Loops

/-! ### The points of one owner -/

section Ticks

variable {α : Type}

/-- Each key is updated from its own value. -/
theorem foldl_update {keys : List Nat} (hkeys : keys.Nodup) (g : Nat → α → α) (st : Nat → α)
    (o : Nat) : (keys.foldl (fun st k => Function.update st k (g k (st k))) st) o =
      if o ∈ keys then g o (st o) else st o := by
  induction keys generalizing st with
  | nil => simp
  | cons k keys ih =>
    obtain ⟨hk, hkeys⟩ := List.nodup_cons.1 hkeys
    rw [List.foldl_cons, ih hkeys]
    by_cases ho : o = k
    · simp [ho, hk]
    · simp [ho]

theorem foldl_times {keys : List Nat} (hkeys : keys.Nodup) (g : Nat → Int → α → α)
    (times : List Int) (st : Nat → α) {o : Nat} (ho : o ∈ keys) :
    (times.foldl (fun st t =>
      keys.foldl (fun st k => Function.update st k (g k t (st k))) st) st) o =
      times.foldl (fun x t => g o t x) (st o) := by
  induction times generalizing st with
  | nil => rfl
  | cons t times ih =>
    rw [List.foldl_cons, ih, foldl_update hkeys (g · t), if_pos ho]
    rfl

/-- Rows in the order of a key are the rows of the first key, then the others. -/
theorem filter_key_append {rows : List α} {key : α → Int} {t : Int}
    (hrows : rows.Pairwise fun x y => key x ≤ key y) (ht : ∀ x ∈ rows, t ≤ key x) :
    rows.filter (key · = t) ++ rows.filter (key · ≠ t) = rows := by
  induction rows with
  | nil => rfl
  | cons x rows ih =>
    obtain ⟨hx, hrows⟩ := List.pairwise_cons.1 hrows
    by_cases hxt : key x = t
    · have hrest := ih hrows fun y hy => ht y (List.mem_cons_of_mem _ hy)
      simpa [hxt] using hrest
    · have hlt : t < key x := lt_of_le_of_ne (ht x List.mem_cons_self) (Ne.symm hxt)
      have hne : ∀ y ∈ rows, key y ≠ t := fun y hy => ((hlt.trans_le (hx y hy)).ne')
      have hnone : rows.filter (key · = t) = [] :=
        List.filter_eq_nil_iff.2 fun y hy => by simpa using hne y hy
      have hall : rows.filter (key · ≠ t) = rows :=
        List.filter_eq_self.2 fun y hy => by simpa using hne y hy
      rw [List.filter_cons_of_neg (by simpa using hxt), hnone, List.filter_cons_of_pos (by simpa),
        hall, List.nil_append]

/-- Rows in the order of a key are the rows of each key, key after key. -/
theorem flatMap_filter_key {times : List Int} (htimes : times.Pairwise (· < ·)) {rows : List α}
    {key : α → Int} (hrows : rows.Pairwise fun x y => key x ≤ key y)
    (hmem : ∀ x ∈ rows, key x ∈ times) :
    times.flatMap (fun t => rows.filter (key · = t)) = rows := by
  induction times generalizing rows with
  | nil => exact (List.eq_nil_iff_forall_not_mem.2 fun x hx => by simpa using hmem x hx).symm
  | cons t times ih =>
    obtain ⟨ht, htimes⟩ := List.pairwise_cons.1 htimes
    have hlater : ∀ x ∈ rows.filter (key · ≠ t), key x ∈ times := by
      intro x hx
      obtain ⟨hx, hne⟩ := List.mem_filter.1 hx
      exact (List.mem_cons.1 (hmem x hx)).resolve_left (by simpa using hne)
    have hrest := ih htimes (hrows.filter _) hlater
    have hsame : times.flatMap (fun u => (rows.filter (key · ≠ t)).filter (key · = u)) =
        times.flatMap fun u => rows.filter (key · = u) := by
      refine List.flatMap_congr fun u hu => ?_
      rw [List.filter_filter]
      refine List.filter_congr fun x _ => ?_
      have hne := (ht u hu).ne'
      by_cases hxu : key x = u <;> simp [hxu, hne]
    have hfirst : ∀ x ∈ rows, t ≤ key x := by
      intro x hx
      rcases List.mem_cons.1 (hmem x hx) with heq | hx
      · exact heq.ge
      · exact (ht _ hx).le
    rw [List.flatMap_cons, ← hsame, hrest, filter_key_append hrows hfirst]

variable [Add P] {db : Tables P} {rows : List (SolveRow P)}

/-- A score to which solves are added, one after the other. -/
def addPoints (score : P) (rows : List (SolveRow P)) : P :=
  rows.foldl (fun score s => score + (s.obtainedPoints + s.bonusPoints)) score

theorem ticks_score (times : List Int) (st : P × List (TrendPoint P)) :
    (times.foldl (fun st t => tick db rows t st) st).1 =
      addPoints st.1 (times.flatMap fun t => rows.filter (·.createdAt = t)) := by
  induction times generalizing st with
  | nil => rfl
  | cons t times ih =>
    rw [List.foldl_cons, ih, List.flatMap_cons, addPoints, addPoints, List.foldl_append]
    rfl

/-- The last point has the final score. -/
theorem ticks_getLast? {times : List Int} (hne : times ≠ []) (st : P × List (TrendPoint P)) :
    ((times.foldl (fun st t => tick db rows t st) st).2.getLast?).map (·.score) =
      some (times.foldl (fun st t => tick db rows t st) st).1 := by
  obtain ⟨times, t, rfl⟩ := (List.eq_nil_or_concat times).resolve_left hne
  simp [tick]

variable [Zero P]

/-- The points of solves that are added in the order of the list. -/
def worth (rows : List (SolveRow P)) : P := addPoints 0 rows

/-- The trend of an owner ends with its solves, added in the order of their times. -/
theorem buildPoints_getLast? {owners : List Nat} (howners : owners.Nodup)
    (ownerSolves : Nat → List (SolveRow P)) {o : Nat} (ho : o ∈ owners)
    (hne : ownerSolves o ≠ [])
    (hsorted : (ownerSolves o).Pairwise fun s t => s.createdAt ≤ t.createdAt) :
    ((buildPoints db owners ownerSolves o).2.getLast?).map (·.score) =
      some (worth (ownerSolves o)) := by
  have hmem : ∀ s ∈ ownerSolves o, s.createdAt ∈ allTimes owners ownerSolves := by
    intro s hs
    simp only [allTimes, Finset.mem_sort, List.mem_toFinset, List.mem_map, List.mem_flatMap]
    exact ⟨s, ⟨o, ho, hs⟩, rfl⟩
  have htimes : (allTimes owners ownerSolves).Pairwise (· < ·) := Finset.sortedLT_sort _ |>.pairwise
  obtain ⟨s, hs⟩ := List.exists_mem_of_ne_nil _ hne
  rw [buildPoints, foldl_times howners (fun k => tick db (ownerSolves k)) _ _ ho,
    ticks_getLast? (List.ne_nil_of_mem (hmem s hs)), ticks_score,
    flatMap_filter_key htimes hsorted hmem]
  rfl

end Ticks

end FloatCtf.Jeopardy.Scoreboard
