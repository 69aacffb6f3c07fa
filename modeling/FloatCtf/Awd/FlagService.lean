import FloatCtf.Awd.JudgeApi
import FloatCtf.Awd.SubmissionService

/-!
# Submitting a flag

The endpoint `submit_flag` with `flag_service::validate_submission`: the flag is looked up by its
hash among the flags of the active round, and the submission is then written for the round that is
active when it is looked up a second time.

`hash` is `hash_flag`.  The rate limit of the endpoint can only refuse a request, which a failing
statement does as well, and is left out with the messages that are published after the
commit. -/

namespace FloatCtf.Awd

open Process

/-! ## Validation -/

/-- `ban_repo::find_active_ban`. -/
def findActiveBan (db : Db) (teamId : Nat) : Option TeamBan :=
  db.bans.find? fun b => b.teamId = teamId ∧ b.status = .active

/-- `flag_repo::find_issue_by_hash`. -/
def findIssueByHash (db : Db) (roundId : Nat) (flagHash : String) : Option FlagIssue :=
  db.flagIssues.find? fun i => i.roundId = roundId ∧ i.flagHash = flagHash

/-- The instance with this id. -/
def findInstanceById (db : Db) (id : Nat) : Option GameboxInstance :=
  db.instances.find? (·.id = id)

/-- What the validation returns; the round is not a part of it in the source, and only names the
second look-up. -/
structure ValidatedFlag where
  flagIssueId : Nat
  victimTeamId : Nat
  gameboxInstanceId : Nat
  roundId : Nat

/-- `validate_submission`: the flag of another team in the open round. -/
def validateSubmission (hash : String → String) (submittedFlag : String) (attackerTeamId : Nat) :
    AwdM ValidatedFlag := do
  let awdEvent ← select (·.event)
  if !awdEvent.status.isActive then .fail (.forbidden "Event is not running")
  else if !awdEvent.phase.allowsFlagSubmission then
    .fail (.forbidden "Flag submission not allowed in current phase")
  else
    let active ← select fun db => findActiveRound db.rounds
    let round ← orNotFound "No active round" active
    let found ← select fun db => findIssueByHash db round.id (hash submittedFlag)
    let issue ← orNotFound "flag 无效或已过期" found
    let found ← select fun db => findInstanceById db issue.gameboxInstanceId
    let inst ← orNotFound "未找到该靶机实例" found
    if inst.teamId = attackerTeamId then .fail (.forbidden "不能提交本队自己的 flag")
    else
      let ban ← select fun db => findActiveBan db attackerTeamId
      if ban.isSome then .fail (.forbidden "Your team is banned")
      else
        let victimBan ← select fun db => findActiveBan db inst.teamId
        if victimBan.isSome then
          .fail (.forbidden "Target team is banned — cannot attack banned teams")
        else pure {
          flagIssueId := issue.id, victimTeamId := inst.teamId, gameboxInstanceId := inst.id
          roundId := round.id }

/-! ## The write -/

/-- The two tables of the submissions. -/
def Db.ledger (db : Db) : List LedgerRow :=
  db.submissions.map .submission ++ db.scores.map .score

/-- The transaction of `process_submission`, on the rows that are committed. -/
def submissionTx (r : SubmissionRequest) (db : Db) : Except AwdError (Db × SubmissionResult) :=
  match (processSubmission r).runAlone LedgerRow.key db.ledger [] db.nextId with
  | .error e => .error e
  | .ok (ws, nextId, result) => .ok
    ({ db with
        submissions := db.submissions ++ ws.filterMap (·.submission?)
        scores := db.scores ++ ws.filterMap (·.score?)
        nextId }, result)

/-- `submit_flag`: validates a flag and scores it. -/
def submitFlag (hash : String → String) (userId : Nat) (flag : String) : AwdM SubmissionResult := do
  let awdEvent ← select (·.event)
  if awdEvent.status.isTerminal then .fail (.forbidden "赛事已结束，无法提交 flag")
  else
    let found ← select fun db => db.members.find? (·.userId = userId)
    let membership ← orNotFound "你尚未加入本赛事的队伍" found
    let valid ← validateSubmission hash flag membership.teamId
    let active ← Prog.query (.submissionRound valid.roundId) dbError fun db =>
      findActiveRound db.rounds
    let round ← orNotFound "No active round" active
    let found ← select fun db => findInstanceById db valid.gameboxInstanceId
    match found with
    | none => .fail (.internal "called `Option::unwrap()` on a `None` value")
    | some inst =>
      let resolved ← select fun db => resolveEventGamebox db inst.eventGameboxId
      match resolved with
      | none => .fail (.internal "event gamebox spec not resolved")
      | some eventGamebox =>
        Prog.exec .processSubmission dbError (submissionTx
          { eventId := awdEvent.eventId, roundId := round.id, flagIssueId := valid.flagIssueId
            attackerTeamId := membership.teamId, victimTeamId := valid.victimTeamId
            gameboxInstanceId := valid.gameboxInstanceId, submittedByUserId := userId
            attackScore := eventGamebox.attackScore, firstBonus := eventGamebox.firstBonus
            eventGameboxId := eventGamebox.id })

/-! ## What the transaction writes -/

/-- The submission and its score events, in the two tables. -/
theorem submissionTx_ok {r : SubmissionRequest} {db db' : Db} {a : SubmissionResult}
    (h : submissionTx r db = .ok (db', a)) :
    ∃ n₁ n₂ n₃ n₄ nextId bonus, db.nextId ≤ nextId ∧
      (bonus = [r.firstBonusEvent n₄] ∨ bonus = []) ∧
      db' = { db with
        submissions := db.submissions ++ [r.submission n₁]
        scores := db.scores ++ ([r.attackEvent n₂, r.victimLossEvent n₃] ++ bonus)
        nextId } := by
  unfold submissionTx at h
  split at h
  · cases h
  · rename_i ws nextId result hrun
    cases h
    obtain ⟨hyields, hle⟩ := Tx.yields_of_runAlone hrun
    obtain ⟨n₁, n₂, n₃, bonus, rfl, hbonus⟩ := processSubmission_yields hyields
    rcases hbonus with ⟨-, n₄, rfl⟩ | ⟨-, rfl⟩
    · exact ⟨n₁, n₂, n₃, n₄, nextId, [r.firstBonusEvent n₄], hle, .inl rfl, rfl⟩
    · exact ⟨n₁, n₂, n₃, 0, nextId, [], hle, .inr rfl, rfl⟩

end FloatCtf.Awd
