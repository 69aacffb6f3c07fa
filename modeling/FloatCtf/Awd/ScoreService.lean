import FloatCtf.Awd.Db
import FloatCtf.Order.Ranking

/-!
# The scoreboard

`get_scoreboard` of `service/score_service.rs` and the sums of `repo/score_repo.rs`.  The total of a
team is added up from four lists of event types; every type is in one of them, so the total is the
sum of the ledger.  Sums of `i64` wrap around.  Two of the four sums are columns of the
board. -/

namespace FloatCtf.Awd

/-! ## Arithmetic of `i64` -/

instance int64AddCommMonoid : AddCommMonoid Int64 where
  add_assoc := Int64.add_assoc
  zero_add := Int64.zero_add
  add_zero := Int64.add_zero
  add_comm := Int64.add_comm
  nsmul := nsmulRec

instance int64LinearOrder : LinearOrder Int64 where
  le_refl := Int64.le_refl
  le_trans _ _ _ := Int64.le_trans
  le_antisymm _ _ := Int64.le_antisymm
  le_total := Int64.le_total
  lt_iff_le_not_ge a b := by
    rw [Int64.not_le]
    exact ⟨fun h => ⟨Int64.le_of_lt h, h⟩, And.right⟩
  toDecidableLE := inferInstance
  toDecidableLT := inferInstance
  toDecidableEq := inferInstance

/-! ## Sums of the ledger -/

/-- The sum of a team in the ledger. -/
def teamTotalScore (ledger : List ScoreEvent) (eventId teamId : Nat) : Int64 :=
  ((ledger.filter fun s => s.eventId = eventId ∧ s.teamId = teamId).map (·.delta)).sum

/-- The sum of a team over some kinds of scores. -/
def teamScoreForTypes (ledger : List ScoreEvent) (eventId teamId : Nat)
    (types : List ScoreEventType) : Int64 :=
  if types = [] then 0
  else
    ((ledger.filter fun s => s.eventId = eventId ∧ s.teamId = teamId ∧ s.eventType ∈ types).map
      (·.delta)).sum

/-! ## The board -/

/-- A row of the scoreboard. -/
structure TeamScore where
  teamId : Nat
  teamName : String
  attackScore : Int64
  defenseScore : Int64
  totalScore : Int64
  rank : UInt32
  deriving DecidableEq

section Board

variable (ledger : List ScoreEvent) (eventId : Nat)

/-- The initial score of a team. -/
def initialSum (teamId : Nat) : Int64 := teamScoreForTypes ledger eventId teamId [.initialScore]

/-- What a team has captured. -/
def attackSum (teamId : Nat) : Int64 :=
  teamScoreForTypes ledger eventId teamId [.attack, .firstBonus]

/-- What a team has lost in its defence. -/
def defenseSum (teamId : Nat) : Int64 :=
  teamScoreForTypes ledger eventId teamId [.judgeDown, .victimLoss]

/-- What a team has been charged. -/
def penaltySum (teamId : Nat) : Int64 :=
  teamScoreForTypes ledger eventId teamId [.resetPenalty, .adjustment]

/-- The entry of a team, before the ranks are assigned. -/
def teamEntry (team : Nat × String) : TeamScore :=
  { teamId := team.1
    teamName := team.2
    attackScore := attackSum ledger eventId team.1
    defenseScore := defenseSum ledger eventId team.1
    totalScore := initialSum ledger eventId team.1 + attackSum ledger eventId team.1 +
      defenseSum ledger eventId team.1 + penaltySum ledger eventId team.1
    rank := 0 }

/-- The rank of the entry at position `i`; it changes where the total falls. -/
def nextRank (i : Nat) (rank : UInt32) (prevScore : Option Int64) (s : TeamScore) : UInt32 :=
  match prevScore with
  | none => rank
  | some prev => if s.totalScore < prev then UInt32.ofNat (i + 1) else rank

/-- The loop over the sorted entries. -/
def assignRanks (i : Nat) (rank : UInt32) (prevScore : Option Int64) :
    List TeamScore → List TeamScore
  | [] => []
  | s :: rest =>
    { s with rank := nextRank i rank prevScore s } ::
      assignRanks (i + 1) (nextRank i rank prevScore s) (some s.totalScore) rest

/-- `sort_by` with the greater total first. -/
def sortByTotal (scores : List TeamScore) : List TeamScore :=
  scores.mergeSort fun a b => decide (b.totalScore ≤ a.totalScore)

/-- `get_scoreboard`: the teams by their totals, with ranks. -/
def getScoreboard (teamNames : List (Nat × String)) : List TeamScore :=
  assignRanks 0 1 none (sortByTotal (teamNames.map (teamEntry ledger eventId)))

end Board

/-! ## Totals -/

variable {ledger ledger' : List ScoreEvent} {eventId teamId : Nat}

theorem teamTotalScore_perm (h : ledger.Perm ledger') :
    teamTotalScore ledger eventId teamId = teamTotalScore ledger' eventId teamId :=
  ((h.filter _).map _).sum_eq

theorem teamScoreForTypes_perm (h : ledger.Perm ledger') (types : List ScoreEventType) :
    teamScoreForTypes ledger eventId teamId types =
      teamScoreForTypes ledger' eventId teamId types := by
  unfold teamScoreForTypes
  split_ifs
  · rfl
  · exact ((h.filter _).map _).sum_eq

/-- What one event adds to the sum of a team. -/
def share (eventId teamId : Nat) (p : ScoreEventType → Prop) [DecidablePred p] (s : ScoreEvent) :
    Int64 :=
  if s.eventId = eventId ∧ s.teamId = teamId ∧ p s.eventType then s.delta else 0

theorem sum_filter_eq_sum_share (q : ScoreEvent → Prop) [DecidablePred q]
    (l : List ScoreEvent) :
    ((l.filter q).map (·.delta)).sum = (l.map fun s => if q s then s.delta else 0).sum := by
  induction l with
  | nil => rfl
  | cons s l ih =>
    by_cases h : q s
    · simp [h, ih]
    · simp [h, ih]

theorem teamScoreForTypes_eq (types : List ScoreEventType) :
    teamScoreForTypes ledger eventId teamId types =
      (ledger.map (share eventId teamId (· ∈ types))).sum := by
  unfold teamScoreForTypes
  split_ifs with h
  · refine (List.sum_eq_zero fun x hx => ?_).symm
    obtain ⟨s, -, rfl⟩ := List.mem_map.1 hx
    simp [share, h]
  · exact sum_filter_eq_sum_share _ ledger

/-- Every type of event is in exactly one of the four lists. -/
theorem total_eq : initialSum ledger eventId teamId + attackSum ledger eventId teamId +
    defenseSum ledger eventId teamId + penaltySum ledger eventId teamId =
      teamTotalScore ledger eventId teamId := by
  have htotal : teamTotalScore ledger eventId teamId =
      (ledger.map fun s => if s.eventId = eventId ∧ s.teamId = teamId then s.delta else 0).sum :=
    sum_filter_eq_sum_share _ ledger
  rw [htotal, initialSum, attackSum, defenseSum, penaltySum]
  simp only [teamScoreForTypes_eq]
  rw [← List.sum_map_add, ← List.sum_map_add, ← List.sum_map_add]
  congr 1
  refine List.map_congr_left fun s _ => ?_
  unfold share
  by_cases h : s.eventId = eventId ∧ s.teamId = teamId
  · cases ht : s.eventType <;> simp [h.1, h.2]
  · have hno : ∀ p : Prop, ¬ (s.eventId = eventId ∧ s.teamId = teamId ∧ p) :=
      fun _ hp => h ⟨hp.1, hp.2.1⟩
    simp [h, hno]

/-! ## Order and ranks -/

variable {l : List TeamScore} {teams teams' : List (Nat × String)}

/-- An entry without its rank. -/
def TeamScore.unranked (s : TeamScore) : TeamScore := { s with rank := 0 }

theorem map_unranked_assignRanks (i : Nat) (rank : UInt32) (prevScore : Option Int64)
    (l : List TeamScore) :
    (assignRanks i rank prevScore l).map (·.unranked) = l.map (·.unranked) := by
  induction l generalizing i rank prevScore with
  | nil => rfl
  | cons s l ih =>
    rw [assignRanks, List.map_cons, List.map_cons, ih]
    rfl

/-- The loop of the source is the one over the totals. -/
theorem map_rank_assignRanks (i rank : Nat) (prevScore : Option Int64) (l : List TeamScore) :
    (assignRanks i (UInt32.ofNat rank) prevScore l).map (·.rank) =
      (Ranking.ranks i rank prevScore (l.map (·.totalScore))).map UInt32.ofNat := by
  induction l generalizing i rank prevScore with
  | nil => cases prevScore <;> rfl
  | cons s l ih =>
    cases prevScore with
    | none =>
      have hnext : nextRank i (UInt32.ofNat rank) none s = UInt32.ofNat rank := rfl
      rw [assignRanks, List.map_cons, hnext, ih]
      rfl
    | some prev =>
      have hnext : nextRank i (UInt32.ofNat rank) (some prev) s =
          UInt32.ofNat (if s.totalScore < prev then i + 1 else rank) :=
        (apply_ite UInt32.ofNat _ _ _).symm
      rw [assignRanks, List.map_cons, hnext, ih]
      rfl

theorem sortByTotal_perm (l : List TeamScore) : (sortByTotal l).Perm l := List.mergeSort_perm l _

theorem sortByTotal_pairwise (l : List TeamScore) :
    (sortByTotal l).Pairwise fun a b => b.totalScore ≤ a.totalScore := by
  refine (List.pairwise_mergeSort ?_ ?_ l).imp of_decide_eq_true
  · intro a b c hab hbc
    exact decide_eq_true (le_trans (of_decide_eq_true hbc) (of_decide_eq_true hab))
  · intro a b
    rw [Bool.or_eq_true, decide_eq_true_eq, decide_eq_true_eq]
    exact le_total _ _

section Scoreboard

variable (ledger eventId teams)

theorem map_unranked_getScoreboard : ((getScoreboard ledger eventId teams).map (·.unranked)).Perm
    (teams.map (teamEntry ledger eventId)) := by
  rw [getScoreboard, map_unranked_assignRanks]
  refine ((sortByTotal_perm _).map _).trans (List.Perm.of_eq ?_)
  rw [List.map_map]
  rfl

/-- The totals of the board, in its order. -/
def boardTotals : List Int64 :=
  (sortByTotal (teams.map (teamEntry ledger eventId))).map (·.totalScore)

theorem map_totalScore_getScoreboard :
    (getScoreboard ledger eventId teams).map (·.totalScore) = boardTotals ledger eventId teams := by
  have h := map_unranked_assignRanks 0 1 none (sortByTotal (teams.map (teamEntry ledger eventId)))
  have hmap := congrArg (List.map (·.totalScore)) h
  rwa [List.map_map, List.map_map] at hmap

theorem boardTotals_pairwise : (boardTotals ledger eventId teams).Pairwise fun x y => y ≤ x :=
  List.pairwise_map.2 (sortByTotal_pairwise _)

theorem boardTotals_perm : (boardTotals ledger eventId teams).Perm
    (teams.map fun t => teamTotalScore ledger eventId t.1) := by
  refine ((sortByTotal_perm _).map _).trans (List.Perm.of_eq ?_)
  rw [List.map_map]
  exact List.map_congr_left fun t _ => total_eq

theorem map_rank_getScoreboard : (getScoreboard ledger eventId teams).map (·.rank) =
    (boardTotals ledger eventId teams).map fun k =>
      UInt32.ofNat (Ranking.rankIn (boardTotals ledger eventId teams) k) := by
  have h := map_rank_assignRanks 0 1 none (sortByTotal (teams.map (teamEntry ledger eventId)))
  refine h.trans ?_
  show (Ranking.ranks 0 1 none (boardTotals ledger eventId teams)).map UInt32.ofNat = _
  rw [Ranking.ranks_eq (boardTotals_pairwise ledger eventId teams), List.map_map]
  rfl

/-- One more than the number of teams above the total. -/
def rankAmong (total : Int64) : UInt32 :=
  UInt32.ofNat (1 + teams.countP fun t => total < teamTotalScore ledger eventId t.1)

variable {ledger eventId teams}

theorem rank_getScoreboard {s : TeamScore} (hs : s ∈ getScoreboard ledger eventId teams) :
    s.rank = rankAmong ledger eventId teams s.totalScore := by
  have hmap := map_rank_getScoreboard ledger eventId teams
  rw [← map_totalScore_getScoreboard, List.map_map] at hmap
  rw [List.map_inj_left.1 hmap s hs]
  show UInt32.ofNat (Ranking.rankIn _ s.totalScore) = _
  rw [map_totalScore_getScoreboard, Ranking.rankIn_perm (boardTotals_perm ledger eventId teams),
    Ranking.rankIn, List.countP_map]
  rfl

/-- Where an entry of the board comes from. -/
theorem unranked_of_mem {s : TeamScore} (hs : s ∈ getScoreboard ledger eventId teams) :
    s.unranked = teamEntry ledger eventId (s.teamId, s.teamName) := by
  have hmem := (map_unranked_getScoreboard ledger eventId teams).mem_iff.1
    (List.mem_map_of_mem (f := (·.unranked)) hs)
  obtain ⟨t, -, ht⟩ := List.mem_map.1 hmem
  have hid : t.1 = s.teamId := congrArg TeamScore.teamId ht
  have hname : t.2 = s.teamName := congrArg TeamScore.teamName ht
  rw [← ht, ← hid, ← hname]

/-- The board is its entries without ranks, ranked. -/
theorem getScoreboard_eq (ledger : List ScoreEvent) (teams : List (Nat × String)) :
    getScoreboard ledger eventId teams =
    ((getScoreboard ledger eventId teams).map (·.unranked)).map fun s =>
      { s with rank := rankAmong ledger eventId teams s.totalScore } := by
  rw [List.map_map]
  refine (List.map_id _).symm.trans (List.map_congr_left fun s hs => ?_)
  show s = { s with rank := rankAmong ledger eventId teams s.totalScore }
  rw [← rank_getScoreboard hs]

end Scoreboard

/-! ## The board as a function of the ledger -/

/-- What the board should be. -/
structure LedgerBoard (ledger : List ScoreEvent) (eventId : Nat) (teams : List (Nat × String))
    (board : List TeamScore) : Prop where
  once : (board.map fun s => (s.teamId, s.teamName)).Perm teams
  total : ∀ s ∈ board, s.totalScore = teamTotalScore ledger eventId s.teamId
  buckets : ∀ s ∈ board, s.attackScore = attackSum ledger eventId s.teamId ∧
    s.defenseScore = defenseSum ledger eventId s.teamId ∧
      s.totalScore = initialSum ledger eventId s.teamId + s.attackScore + s.defenseScore +
        penaltySum ledger eventId s.teamId
  sorted : board.Pairwise fun a b => b.totalScore ≤ a.totalScore
  rank : ∀ s ∈ board, s.rank = rankAmong ledger eventId teams s.totalScore

theorem ledgerBoard (ledger : List ScoreEvent) (eventId : Nat) (teams : List (Nat × String)) :
    LedgerBoard ledger eventId teams (getScoreboard ledger eventId teams) where
  once := by
    have h := (map_unranked_getScoreboard ledger eventId teams).map
      fun s => (s.teamId, s.teamName)
    rw [List.map_map, List.map_map] at h
    refine h.trans (List.Perm.of_eq (List.map_id _))
  total s hs := by
    refine (congrArg TeamScore.totalScore (unranked_of_mem hs)).trans ?_
    exact total_eq
  buckets s hs := by
    have h := unranked_of_mem hs
    have hattack : s.attackScore = (teamEntry ledger eventId (s.teamId, s.teamName)).attackScore :=
      (congrArg TeamScore.attackScore h :)
    have hdefense : s.defenseScore = (teamEntry ledger eventId (s.teamId, s.teamName)).defenseScore :=
      (congrArg TeamScore.defenseScore h :)
    have htotal : s.totalScore = (teamEntry ledger eventId (s.teamId, s.teamName)).totalScore :=
      (congrArg TeamScore.totalScore h :)
    refine ⟨hattack, hdefense, ?_⟩
    rw [htotal, hattack, hdefense]
    rfl
  sorted := by
    refine List.pairwise_map.1 (?_ : ((getScoreboard ledger eventId teams).map
      (·.totalScore)).Pairwise fun x y => y ≤ x)
    rw [map_totalScore_getScoreboard]
    exact boardTotals_pairwise ledger eventId teams
  rank _ hs := rank_getScoreboard hs

theorem teamEntry_perm (h : ledger.Perm ledger') (t : Nat × String) :
    teamEntry ledger eventId t = teamEntry ledger' eventId t := by
  simp only [teamEntry, initialSum, attackSum, defenseSum, penaltySum, teamScoreForTypes_perm h]

/-- The board is the one of the ledger, and the order in which teams and events are read changes
neither the entries nor the columns of totals and ranks. -/
theorem getScoreboard_spec (ledger : List ScoreEvent) (eventId : Nat)
    (teams : List (Nat × String)) :
    LedgerBoard ledger eventId teams (getScoreboard ledger eventId teams) ∧
      ∀ ledger' teams', ledger.Perm ledger' → teams.Perm teams' →
        (getScoreboard ledger eventId teams).Perm (getScoreboard ledger' eventId teams') ∧
        (getScoreboard ledger eventId teams).map (fun s => (s.totalScore, s.rank)) =
          (getScoreboard ledger' eventId teams').map fun s => (s.totalScore, s.rank) := by
  refine ⟨ledgerBoard ledger eventId teams, fun ledger' teams' hl ht => ?_⟩
  have hrank : ∀ k, rankAmong ledger eventId teams k = rankAmong ledger' eventId teams' k := by
    intro k
    simp only [rankAmong, teamTotalScore_perm hl, ht.countP_eq]
  constructor
  · rw [getScoreboard_eq, getScoreboard_eq ledger']
    simp only [hrank]
    refine List.Perm.map _ ?_
    refine (map_unranked_getScoreboard ledger eventId teams).trans ?_
    refine List.Perm.trans ?_ (map_unranked_getScoreboard ledger' eventId teams').symm
    refine (ht.map _).trans (List.Perm.of_eq (List.map_congr_left fun t _ => ?_))
    exact teamEntry_perm hl t
  · have htotals : boardTotals ledger eventId teams = boardTotals ledger' eventId teams' := by
      refine List.Perm.eq_of_pairwise (fun _ _ _ _ => ?_) (boardTotals_pairwise ..)
        (boardTotals_pairwise ..) ?_
      · exact fun h h' => le_antisymm h' h
      · refine (boardTotals_perm ..).trans (List.Perm.trans ?_ (boardTotals_perm ..).symm)
        refine (ht.map _).trans (List.Perm.of_eq (List.map_congr_left fun t _ => ?_))
        exact teamTotalScore_perm hl
    have hpair : ∀ ledger teams, (getScoreboard ledger eventId teams).map
        (fun s => (s.totalScore, s.rank)) =
          (boardTotals ledger eventId teams).map fun k => (k, rankAmong ledger eventId teams k) := by
      intro ledger teams
      rw [← map_totalScore_getScoreboard, List.map_map]
      exact List.map_congr_left fun s hs => Prod.ext rfl (rank_getScoreboard hs)
    rw [hpair, hpair, htotals]
    exact List.map_congr_left fun k _ => Prod.ext rfl (hrank k)

/-- A team with its initial score only: neither of the two columns holds it. -/
theorem displayed_fails :
    ∃ s, getScoreboard
        [{ id := 1, eventId := 1, roundId := none, teamId := 7, eventType := .initialScore,
           delta := 1000, idempotencyKey := .initialScore 1 7, relatedTeamId := none,
           gameboxInstanceId := none, eventGameboxId := none, reason := none }]
        1 [(7, "team")] = [s] ∧
      s.totalScore = 1000 ∧ s.attackScore + s.defenseScore = 0 := by
  refine ⟨⟨7, "team", 0, 0, 1000, 1⟩, ?_, rfl, rfl⟩
  rw [getScoreboard, sortByTotal, List.map_singleton, List.mergeSort_singleton]
  decide

end FloatCtf.Awd
