import FloatCtf.Awdp.JudgeWorker

/-!
# The two ways to execute an official evaluation

The worker of the platform examines an evaluation and settles it in one go; a JudgeServer claims it,
examines it by itself and reports the verdict.  The rule from verdicts to scores is written on both
paths, and on the second one a verdict that a JudgeServer reports never costs a practice run the
penalty.  `pathsAgree_iff` says exactly when both paths leave the verdict and the ledger that the
rule asks for.
-/

namespace FloatCtf.Awdp

open Process

/-! ## The paths -/

/-- Every statement is answered. -/
def answered : Stmt → Bool := fun _ => true

/-- The worker of the platform settles a claimed evaluation. -/
def inProcessPath (c : Settings) (workerId : String) (job : ClaimedJob) (probe : Probe) :
    AwdpM Unit := processJob c workerId (fun _ => probe) job

/-- The result that a worker posts for its job. -/
def ClaimJobDto.result (dto : ClaimJobDto) (workerId : String) (status : EvaluationStatus)
    (outputs : Outputs) : ResultRequest where
  evaluationId := dto.evaluationId
  workerId := workerId
  leaseToken := dto.leaseToken
  attempt := dto.attempt
  runtimeGeneration := dto.runtimeGeneration
  status := status.wire
  outputs := outputs

/-- A JudgeServer settles a claimed evaluation: the turn of its claim, and then the verdict if the
job was handed out. -/
def judgeServerPath (c : Settings) (workerId : String) (job : ClaimedJob)
    (status : EvaluationStatus) (outputs : Outputs) (examined : List Applied) : AwdpM Unit := do
  match ← buildJob c workerId job with
  | none => pure ()
  | some dto => recordResult c (dto.result workerId status outputs) examined

/-- What the checks say of an evaluation. -/
def checkEvaluation (ev : Evaluation) (probe : Probe) : AwdpM CheckOutcome := do
  let ext ← findByInstanceId ev.instanceId
  let gamebox ← findGameboxIdentity ext.gameboxId
  match ev.fixRoundId with
  | none => .fail roundMissing
  | some roundId => do
    let round ← findRound roundId
    runChecks gamebox ev.instanceId round probe

/-! ## The rule -/

/-- What a verdict is worth. -/
def verdictDelta (run : Run) : EvaluationStatus → Option Int
  | .patched => some run.config.fixRoundScore
  | _ => if run.practice then some (-defaultFixRoundPenalty) else none

/-- The tables with the score, unless its key is taken. -/
def Db.ensureScore (db : Db) (s : NewScore) (eventId : Nat) : Db :=
  if db.scored s.idempotencyKey then db else db.insertScore s eventId

/-- The ledger with the score of a verdict. -/
def Db.addVerdictScore (db : Db) (run : Run) (roundId : Nat) (ext : Instance)
    (o : EvaluationStatus) : Db :=
  match verdictDelta run o with
  | none => db
  | some delta => db.ensureScore (fixScore run roundId ext delta) run.eventId

/-- The ledger that the verdict of the evaluation asks for. -/
def Db.verdictScores (db : Db) (ev : Evaluation) (o : EvaluationStatus) :
    Option (List ScoreEvent) := do
  let ext ← db.instanceById ev.instanceId
  let run ← db.runById ext.runId
  let roundId ← ev.fixRoundId
  some (db.addVerdictScore run roundId ext o).scores

/-- The evaluation has the verdict, and the ledger is the one it asks for. -/
structure Settled (db db' : Db) (ev : Evaluation) (o : EvaluationStatus) : Prop where
  status : (db'.evaluationById ev.id).map (·.status) = some o
  scores : db.verdictScores ev o = some db'.scores

/-- The run is a competition, or there was no patch, or it worked, or the ledger has a score for the
round and the instance already. -/
def PathsAgreeWhen (db : Db) (ev : Evaluation) (o : EvaluationStatus) : Prop :=
  (db.runById ev.runId).any (·.practice) = false ∨ o = .noPatch ∨ o = .patched ∨
    ev.fixRoundId.any (fun r => db.scored (.fix ev.runId r ev.instanceId)) = true

/-! ## Keys and references -/

/-- The rows that an official evaluation refers to. -/
structure Links (db : Db) (e : Evaluation) (ext : Instance) (run : Run) (gamebox : Gamebox)
    (round : FixRound) : Prop where
  instanceRow : db.instanceById e.instanceId = some ext
  runRow : db.runById ext.runId = some run
  gameboxRow : db.gameboxes.find? (·.id = ext.gameboxId) = some gamebox
  roundRow : ∃ r, e.fixRoundId = some r ∧ db.roundById r = some round
  run_eq : e.runId = ext.runId
  roundRun : (db.runById round.runId).isSome = true

/-- The primary key of the evaluations, and their foreign keys. -/
structure Linked (db : Db) : Prop where
  keyed : Table.Keyed Evaluation.id db.evaluations
  links : ∀ e ∈ db.evaluations, e.kind = .official →
    ∃ ext run gamebox round, Links db e ext run gamebox round

/-! ## Statements that are answered -/

section Reads

variable {db : Db}

theorem run_select {α : Type} (f : Db → α) : (select f).run answered db = (db, .ok (f db)) :=
  Prog.run_query answered rfl _ _ _

theorem run_requireRun {id : Nat} {r : Run} (h : db.runById id = some r) :
    (requireRun id).run answered db = (db, .ok r) := by
  simp only [requireRun, Prog.run_bind, run_select, h, ofOption, Prog.run_pure]

theorem run_findByInstanceId {id : Nat} {i : Instance} (h : db.instanceById id = some i) :
    (findByInstanceId id).run answered db = (db, .ok i) := by
  simp only [findByInstanceId, Prog.run_bind, run_select, h, ofOption, Prog.run_pure]

theorem run_findRound {id : Nat} {r : FixRound} (h : db.roundById id = some r) :
    (findRound id).run answered db = (db, .ok r) := by
  simp only [findRound, Prog.run_bind, run_select, h, ofOption, Prog.run_pure]

theorem run_findGameboxIdentity {id : Nat} {g : Gamebox}
    (h : db.gameboxes.find? (·.id = id) = some g) :
    (findGameboxIdentity id).run answered db = (db, .ok g) := by
  simp only [findGameboxIdentity, Prog.run_bind, run_select, h, ofOption, Prog.run_pure]

theorem run_findEvaluation {id : Nat} {e : Evaluation} (h : db.evaluationById id = some e) :
    (findEvaluation id).run answered db = (db, .ok e) := by
  simp only [findEvaluation, Prog.run_bind, run_select, h, Prog.run_pure]

/-- A patch of the round was applied by its cutoff. -/
def Db.appliedPatch (db : Db) (instanceId : Nat) (round : FixRound) : Bool :=
  db.patches.any fun p => p.instanceId = instanceId ∧ p.fixRoundId = some round.id ∧
    p.status = .applied ∧ p.appliedAt.any (· ≤ round.cutoffAt)

theorem run_hasAppliedPatch {instanceId id : Nat} {round : FixRound}
    (h : db.roundById id = some round) :
    (hasAppliedPatch instanceId id).run answered db = (db, .ok (db.appliedPatch instanceId round)) := by
  have hid : round.id = id := (Table.mem_of_find h).2
  simp only [hasAppliedPatch, Prog.run_bind, run_select, h, ofOption, Prog.run_pure,
    Db.appliedPatch, hid]

end Reads

section Writes

variable {c : Settings} {db : Db}

theorem run_createScoreEvent {s : NewScore} {r : Run} (h : db.runById s.runId = some r) :
    ∃ b, (createScoreEvent s).run answered db = (db.ensureScore s r.eventId, .ok b) := by
  simp only [createScoreEvent, Prog.run_bind, run_requireRun h, Prog.run_exec answered rfl,
    Db.ensureScore]
  split_ifs with hs <;> exact ⟨_, rfl⟩

theorem ensureScore_evaluationById (s : NewScore) (eventId id : Nat) :
    (db.ensureScore s eventId).evaluationById id = db.evaluationById id := by
  unfold Db.ensureScore
  split_ifs <;> rfl

theorem ensureScore_now (s : NewScore) (eventId : Nat) :
    (db.ensureScore s eventId).now = db.now := by
  unfold Db.ensureScore
  split_ifs <;> rfl

theorem run_finishWithLease {reporter : Reporter} {l : Lease} {row : Evaluation}
    {status : EvaluationStatus} {outputs : Outputs}
    (hrow : db.evaluationById l.evaluationId = some row) (hv : row.leaseValid c l db.now = true) :
    (finishWithLease c reporter l status outputs).run answered db =
      (db.editEvaluation l.evaluationId (·.finished status outputs), .ok .ok) := by
  simp only [finishWithLease, Prog.run_exec answered rfl, hrow, hv, ↓reduceIte]

theorem editEvaluation_evaluationById {f : Evaluation → Evaluation} (hf : ∀ e, (f e).id = e.id)
    {id : Nat} {row : Evaluation} (h : db.evaluationById id = some row) :
    (db.editEvaluation id f).evaluationById id = some (f row) := by
  have hid : row.id = id := (Table.mem_of_find h).2
  have hkey : ∀ e : Evaluation, (if e.id = id then f e else e).id = e.id := by
    intro e
    split_ifs
    · exact hf e
    · rfl
  unfold Db.evaluationById Db.editEvaluation at *
  rw [Table.find_map (fun e => hkey e), h]
  simp [hid]

/-- The program runs under a lock that is free. -/
theorem run_withLock {α : Type} {i : Nat} {p : AwdpM α} {db' : Db} {r : Except AwdpError α}
    (hfree : i ∉ db.locks)
    (hp : p.run answered { db with locks := i :: db.locks } = (db', r)) :
    (withLock i p).run answered db = ({ db' with locks := db'.locks.erase i }, r) := by
  have hrelease : (releaseLock i).run answered db' =
      ({ db' with locks := db'.locks.erase i }, .ok ()) := rfl
  simp only [withLock, Prog.run_bind, acquireLock, Prog.run_exec answered rfl, hfree, ↓reduceIte,
    Prog.run_attempt, hp, hrelease]
  cases r <;> rfl

theorem run_ofExcept {α : Type} (x : Except AwdpError α) :
    (ofExcept x).run answered db = (db, x) := by
  cases x <;> rfl

end Writes

/-! ## Checks -/

/-- The outcome of the checks in a state that nobody changes. -/
def Db.checks (db : Db) (gamebox : Gamebox) (ext : Instance) (round : FixRound) (probe : Probe) :
    Except AwdpError CheckOutcome :=
  if !db.appliedPatch ext.id round then
    .ok ⟨.noPatch, "no applied patch this round", "", "", none⟩
  else examine gamebox ext (some ext) probe

section Checks

variable {db : Db} {gamebox : Gamebox} {ext : Instance} {round : FixRound} {probe : Probe}

theorem run_runChecks (hi : db.instanceById ext.id = some ext)
    (hr : db.roundById round.id = some round) {run : Run} (hrun : db.runById round.runId = some run) :
    (runChecks gamebox ext.id round probe).run answered db =
      (db, db.checks gamebox ext round probe) := by
  simp only [runChecks, Prog.run_bind, run_hasAppliedPatch hr, Db.checks]
  cases db.appliedPatch ext.id round with
  | false => rfl
  | true =>
    simp only [Bool.not_true, Bool.false_eq_true, ↓reduceIte, Prog.run_bind, run_findByInstanceId hi,
      run_requireRun hrun, Prog.run_look, hi, run_ofExcept]

theorem examineExploit_status {ip : Option String} {seen : Option Instance} {health judge : String}
    {o : CheckOutcome} (h : examineExploit gamebox ip seen probe health judge = .ok o) :
    o.status = .vulnerable ∨ o.status = .patched := by
  obtain ⟨⟨exploitOk, exploit⟩, -, h⟩ := except_bind_ok h
  cases h
  cases exploitOk
  · exact .inr rfl
  · exact .inl rfl

theorem examineJudge_status {ip : Option String} {seen : Option Instance} {health : String}
    {o : CheckOutcome} (h : examineJudge gamebox ip seen probe health = .ok o) :
    o.status = .functionalBroken ∨ o.status = .vulnerable ∨ o.status = .patched := by
  obtain ⟨⟨judgeOk, judge⟩, -, h⟩ := except_bind_ok h
  cases judgeOk with
  | false =>
    cases h
    exact .inl rfl
  | true => exact .inr (examineExploit_status h)

/-- The statuses that the checks can give. -/
theorem examine_status {seen : Option Instance} {o : CheckOutcome}
    (h : examine gamebox ext seen probe = .ok o) :
    o.status = .serviceDown ∨ o.status = .functionalBroken ∨ o.status = .vulnerable ∨
      o.status = .patched := by
  obtain ⟨ip, -, h⟩ := except_bind_ok h
  obtain ⟨-, -, h⟩ := except_bind_ok h
  simp only at h
  split_ifs at h with hok
  · exact .inr (examineJudge_status h)
  · cases h
    exact .inl rfl

/-- A round without a patch is settled by that alone, and another one is examined. -/
theorem checks_cases {o : CheckOutcome} (h : db.checks gamebox ext round probe = .ok o) :
    (db.appliedPatch ext.id round = false ∧ o.status = .noPatch) ∨
      (db.appliedPatch ext.id round = true ∧ (o.status = .serviceDown ∨
        o.status = .functionalBroken ∨ o.status = .vulnerable ∨ o.status = .patched)) := by
  unfold Db.checks at h
  cases ha : db.appliedPatch ext.id round with
  | false =>
    rw [ha] at h
    cases h
    exact .inl ⟨rfl, rfl⟩
  | true =>
    rw [ha] at h
    exact .inr ⟨rfl, examine_status h⟩

end Checks

/-! ## The state of a claimed evaluation -/

/-- The worker holds the evaluation, and its rows are there. -/
structure Held (c : Settings) (db : Db) (workerId : String) (job : ClaimedJob) (row : Evaluation)
    (ext : Instance) (run : Run) (gamebox : Gamebox) (round : FixRound) : Prop where
  links : Links db job.evaluation ext run gamebox round
  official : job.evaluation.kind = .official
  rowById : db.evaluationById job.evaluation.id = some row
  row_eq : row.kind = job.evaluation.kind ∧ row.runId = job.evaluation.runId ∧
    row.instanceId = job.evaluation.instanceId ∧ row.fixRoundId = job.evaluation.fixRoundId
  valid : row.leaseValid c (job.lease workerId) db.now = true
  token : job.leaseToken ≠ ""

section Paths

variable {c : Settings} {db : Db} {workerId : String} {job : ClaimedJob} {row : Evaluation}
  {ext : Instance} {run : Run} {gamebox : Gamebox} {round : FixRound}

theorem Links.ext_id (h : Links db job.evaluation ext run gamebox round) :
    ext.id = job.evaluation.instanceId := (Table.mem_of_find h.instanceRow).2

theorem Links.run_id (h : Links db job.evaluation ext run gamebox round) : run.id = ext.runId :=
  (Table.mem_of_find h.runRow).2

theorem Links.round_id (h : Links db job.evaluation ext run gamebox round) :
    job.evaluation.fixRoundId = some round.id ∧ db.roundById round.id = some round := by
  obtain ⟨r, hr, hround⟩ := h.roundRow
  have hid : round.id = r := (Table.mem_of_find hround).2
  exact ⟨hid.symm ▸ hr, hid.symm ▸ hround⟩

/-- The lock of an instance is not what a claimed evaluation depends on. -/
theorem Held.locked (h : Held c db workerId job row ext run gamebox round) (locks : List Nat) :
    Held c { db with locks := locks } workerId job row ext run gamebox round :=
  ⟨⟨h.links.1, h.links.2, h.links.3, h.links.4, h.links.5, h.links.6⟩, h.official, h.rowById,
    h.row_eq, h.valid, h.token⟩

theorem addVerdictScore_evaluationById (o : EvaluationStatus) (roundId id : Nat) :
    (db.addVerdictScore run roundId ext o).evaluationById id = db.evaluationById id := by
  unfold Db.addVerdictScore
  split
  · rfl
  · exact ensureScore_evaluationById _ _ _

theorem addVerdictScore_now (o : EvaluationStatus) (roundId : Nat) :
    (db.addVerdictScore run roundId ext o).now = db.now := by
  unfold Db.addVerdictScore
  split
  · rfl
  · exact ensureScore_now _ _

/-- The evaluation is finished under the lease once the score is in. -/
theorem Held.run_finish (h : Held c db workerId job row ext run gamebox round) (roundId : Nat)
    (o : EvaluationStatus) (reporter : Reporter) (status : EvaluationStatus) (outputs : Outputs) :
    (finishWithLease c reporter (job.lease workerId) status outputs).run answered
        (db.addVerdictScore run roundId ext o) =
      ((db.addVerdictScore run roundId ext o).editEvaluation job.evaluation.id
        (·.finished status outputs), .ok .ok) := by
  refine run_finishWithLease ((addVerdictScore_evaluationById o roundId _).trans h.rowById) ?_
  rw [addVerdictScore_now]
  exact h.valid

theorem Held.run_penalty (h : Held c db workerId job row ext run gamebox round) (roundId : Nat)
    {o : EvaluationStatus} (ho : o ≠ .patched) :
    (penalizePractice run roundId ext).run answered db =
      (db.addVerdictScore run roundId ext o, .ok ()) := by
  have hrun : db.runById (fixScore run roundId ext (-defaultFixRoundPenalty)).runId = some run := by
    show db.runById run.id = some run
    rw [h.links.run_id]
    exact h.links.runRow
  have hdelta : verdictDelta run o =
      if run.practice then some (-defaultFixRoundPenalty) else none := by
    cases o <;> first | rfl | exact absurd rfl ho
  obtain ⟨b, hscore⟩ := run_createScoreEvent hrun
  simp only [penalizePractice, Prog.run_ite, scoreFixPenalty, Prog.run_bind, hscore, Prog.run_pure,
    Db.addVerdictScore, hdelta]
  cases run.practice <;> rfl

theorem Held.run_reward (h : Held c db workerId job row ext run gamebox round) (roundId : Nat) :
    ∃ b, (createScoreEvent (fixScore run roundId ext run.config.fixRoundScore)).run answered db =
      (db.addVerdictScore run roundId ext .patched, .ok b) := by
  refine run_createScoreEvent ?_
  show db.runById run.id = some run
  rw [h.links.run_id]
  exact h.links.runRow

theorem Held.run_finishEval (h : Held c db workerId job row ext run gamebox round) (roundId : Nat)
    (o : CheckOutcome) (outputs : Outputs) :
    (finishEval c (job.lease workerId) o outputs).run answered
        (db.addVerdictScore run roundId ext o.status) =
      ((db.addVerdictScore run roundId ext o.status).editEvaluation job.evaluation.id
        (·.finished o.status outputs), .ok ()) := by
  have htoken : (job.lease workerId).token ≠ "" := h.token
  simp only [finishEval, htoken, ↓reduceIte, Prog.run_bind, h.run_finish, Prog.run_pure]

/-- The pipeline settles an outcome: the score that it is worth, and then the verdict. -/
theorem Held.run_settleOutcome (h : Held c db workerId job row ext run gamebox round)
    {o : CheckOutcome} (ho : o.status = .noPatch ∨ o.status = .serviceDown ∨
      o.status = .functionalBroken ∨ o.status = .vulnerable ∨ o.status = .patched) :
    ∃ outputs, (settleOutcome c run round ext (job.lease workerId) o).run answered db =
      ((db.addVerdictScore run round.id ext o.status).editEvaluation job.evaluation.id
        (·.finished o.status outputs), .ok o.status) := by
  have hfailed (hne : o.status ≠ .patched) (outputs : Outputs) :
      (settleFailed c run round ext (job.lease workerId) o outputs).run answered db =
        ((db.addVerdictScore run round.id ext o.status).editEvaluation job.evaluation.id
          (·.finished o.status outputs), .ok o.status) := by
    simp only [settleFailed, Prog.run_bind, h.run_penalty round.id hne, h.run_finishEval,
      Prog.run_pure]
  unfold settleOutcome
  rcases ho with hs | hs | hs | hs | hs
  · simp only [hs]
    exact ⟨_, hs ▸ hfailed (by simp [hs]) _⟩
  · simp only [hs]
    exact ⟨_, hs ▸ hfailed (by simp [hs]) _⟩
  · simp only [hs]
    exact ⟨_, hs ▸ hfailed (by simp [hs]) _⟩
  · simp only [hs]
    exact ⟨_, hs ▸ hfailed (by simp [hs]) _⟩
  · obtain ⟨b, hreward⟩ := h.run_reward round.id
    have hfinish := h.run_finishEval round.id o
    rw [hs] at hfinish
    simp only [hs, Prog.run_bind, hreward, hfinish, Prog.run_pure]
    exact ⟨_, rfl⟩

/-- The verdicts that the checks can give. -/
theorem checked_status {probe : Probe} {o : CheckOutcome}
    (ho : db.checks gamebox ext round probe = .ok o) :
    o.status = .noPatch ∨ o.status = .serviceDown ∨ o.status = .functionalBroken ∨
      o.status = .vulnerable ∨ o.status = .patched := by
  rcases checks_cases ho with ⟨-, hs⟩ | ⟨-, hs⟩
  · exact .inl hs
  · exact .inr hs

theorem Held.run_checks (h : Held c db workerId job row ext run gamebox round) {probe : Probe}
    {o : CheckOutcome} (ho : db.checks gamebox ext round probe = .ok o) :
    (runChecks gamebox job.evaluation.instanceId round probe).run answered db = (db, .ok o) := by
  obtain ⟨run', hrun'⟩ := Option.isSome_iff_exists.1 h.links.roundRun
  have hext : db.instanceById ext.id = some ext := h.links.ext_id ▸ h.links.instanceRow
  rw [← h.links.ext_id, run_runChecks hext h.links.round_id.2 hrun', ho]

theorem Held.run_processOfficialLocked (h : Held c db workerId job row ext run gamebox round)
    {probe : Probe} {o : CheckOutcome} (ho : db.checks gamebox ext round probe = .ok o) :
    ∃ outputs, (processOfficialLocked c job.evaluation (job.lease workerId) probe).run answered db =
      ((db.addVerdictScore run round.id ext o.status).editEvaluation job.evaluation.id
        (·.finished o.status outputs), .ok ()) := by
  obtain ⟨outputs, hsettle⟩ := h.run_settleOutcome (checked_status ho)
  refine ⟨outputs, ?_⟩
  simp only [processOfficialLocked, Prog.run_bind, run_findByInstanceId h.links.instanceRow,
    run_requireRun h.links.runRow, run_findGameboxIdentity h.links.gameboxRow, h.links.round_id.1,
    run_findRound h.links.round_id.2, runOfficialPipeline, h.run_checks ho, hsettle, Prog.run_pure]

theorem addVerdictScore_locks (locks : List Nat) (roundId : Nat) (o : EvaluationStatus) :
    { db with locks := locks }.addVerdictScore run roundId ext o =
      { db.addVerdictScore run roundId ext o with locks := locks } := by
  unfold Db.addVerdictScore Db.ensureScore
  split
  · rfl
  · have hs : Db.scored { db with locks := locks } = db.scored := rfl
    rw [hs]
    split_ifs <;> rfl

/-- The verdict and the ledger once the evaluation was finished. -/
theorem Held.settled (h : Held c db workerId job row ext run gamebox round) {db' : Db}
    {o : EvaluationStatus} (outputs : Outputs)
    (heval : db'.evaluations =
      (db.editEvaluation job.evaluation.id (·.finished o outputs)).evaluations) :
    Settled db db' job.evaluation o ↔
      (db.addVerdictScore run round.id ext o).scores = db'.scores := by
  have hstatus : (db'.evaluationById job.evaluation.id).map (·.status) = some o := by
    have hrow : db'.evaluationById job.evaluation.id = some (row.finished o outputs) := by
      unfold Db.evaluationById
      rw [heval]
      exact editEvaluation_evaluationById (f := (·.finished o outputs)) (fun _ => rfl) h.rowById
    rw [hrow]
    rfl
  have hscores : db.verdictScores job.evaluation o =
      some (db.addVerdictScore run round.id ext o).scores := by
    simp [Db.verdictScores, h.links.instanceRow, h.links.runRow, h.links.round_id.1]
  constructor
  · intro hs
    have := hs.scores
    rw [hscores] at this
    exact Option.some.inj this
  · exact fun hs => ⟨hstatus, by rw [hscores, hs]⟩

theorem addVerdictScore_evaluations (o : EvaluationStatus) (roundId : Nat) :
    (db.addVerdictScore run roundId ext o).evaluations = db.evaluations := by
  unfold Db.addVerdictScore Db.ensureScore
  split
  · rfl
  · split_ifs <;> rfl

/-- The worker of the platform settles every outcome by the rule. -/
theorem Held.settled_inProcess (h : Held c db workerId job row ext run gamebox round)
    (hfree : job.evaluation.instanceId ∉ db.locks) {probe : Probe} {o : CheckOutcome}
    (ho : db.checks gamebox ext round probe = .ok o) :
    Settled db ((inProcessPath c workerId job probe).run answered db).1 job.evaluation o.status := by
  set locked : Db := { db with locks := job.evaluation.instanceId :: db.locks } with hlocked
  have hheld : Held c locked workerId job row ext run gamebox round := h.locked _
  obtain ⟨outputs, hprocess⟩ := hheld.run_processOfficialLocked ho
  have hbody : (do
      let seen ← Prog.look (.observe job.evaluation.instanceId)
        (·.instanceById job.evaluation.instanceId)
      let result ← (processOfficialLocked c job.evaluation (job.lease workerId) probe).attempt
      pure (seen, result) : AwdpM (Option Instance × Except AwdpError Unit)).run answered locked =
        ((locked.addVerdictScore run round.id ext o.status).editEvaluation job.evaluation.id
          (·.finished o.status outputs),
          .ok (locked.instanceById job.evaluation.instanceId, .ok ())) := by
    simp only [Prog.run_bind, Prog.run_look, Prog.run_attempt, hprocess, Prog.run_pure]
  have hpath := run_withLock hfree hbody
  simp only [inProcessPath, processJob, processOfficialLeased, Prog.run_bind, Prog.run_attempt,
    hpath, Prog.run_pure]
  refine (h.settled outputs ?_).2 ?_
  · simp only [Db.editEvaluation, addVerdictScore_evaluations, hlocked]
  · simp only [Db.editEvaluation, hlocked, addVerdictScore_locks]

/-! ## The path of a JudgeServer -/

theorem Held.run_hasAppliedPatch (h : Held c db workerId job row ext run gamebox round) :
    (hasAppliedPatch job.evaluation.instanceId round.id).run answered db =
      (db, .ok (db.appliedPatch ext.id round)) := by
  rw [h.links.ext_id]
  exact Awdp.run_hasAppliedPatch h.links.round_id.2

/-- A round without a patch is settled while it is claimed. -/
theorem Held.run_shortCircuit (h : Held c db workerId job row ext run gamebox round)
    (ha : db.appliedPatch ext.id round = false) (status : EvaluationStatus) (outputs : Outputs)
    (examined : List Applied) :
    (judgeServerPath c workerId job status outputs examined).run answered db =
      ((db.addVerdictScore run round.id ext .noPatch).editEvaluation job.evaluation.id
        (·.finished .noPatch ⟨some "no applied patch this round", none, none, none, none⟩),
        .ok ()) := by
  have hpatch := h.run_hasAppliedPatch
  rw [ha] at hpatch
  have hne : EvaluationStatus.noPatch ≠ .patched := by decide
  simp only [judgeServerPath, buildJob, Prog.run_bind, run_findByInstanceId h.links.instanceRow,
    run_requireRun h.links.runRow, run_findGameboxIdentity h.links.gameboxRow, h.official,
    h.links.round_id.1, hpatch, Bool.not_false, ↓reduceIte, shortCircuit, h.run_penalty round.id hne,
    h.run_finish, Prog.run_pure]

/-- A job that was handed out carries the lease and the generation of the instance. -/
theorem Held.run_buildJob (h : Held c db workerId job row ext run gamebox round)
    (ha : db.appliedPatch ext.id round = true) :
    (buildJob c workerId job).run answered db = (db, .ok (some (jobDto job run ext))) := by
  have hpatch := h.run_hasAppliedPatch
  rw [ha] at hpatch
  simp only [buildJob, Prog.run_bind, run_findByInstanceId h.links.instanceRow,
    run_requireRun h.links.runRow, run_findGameboxIdentity h.links.gameboxRow, h.official,
    h.links.round_id.1, hpatch, Bool.not_true, Bool.false_eq_true, ↓reduceIte, Prog.run_pure]

/-- The ledger after a verdict that a JudgeServer reports. -/
def Db.reportedScores (db : Db) (run : Run) (roundId : Nat) (ext : Instance)
    (o : EvaluationStatus) : List ScoreEvent :=
  if o = .patched then (db.addVerdictScore run roundId ext .patched).scores else db.scores

/-- A verdict that a JudgeServer reports is written, and only a patched instance scores. -/
theorem Held.run_recordResult (h : Held c db workerId job row ext run gamebox round)
    {o : EvaluationStatus} (hterm : o.terminal = true) (hne : o ≠ .platformError)
    (outputs : Outputs) (examined : List Applied) :
    ∃ db', (recordResult c ((jobDto job run ext).result workerId o outputs) examined).run answered
        db = (db', .ok ()) ∧
      db'.evaluations =
        (db.editEvaluation job.evaluation.id (·.finished o outputs)).evaluations ∧
      db'.scores = db.reportedScores run round.id ext o := by
  obtain ⟨hkind, hrun, hinst, hround⟩ := h.row_eq
  have hext : db.instanceById row.instanceId = some ext := by
    rw [hinst]
    exact h.links.instanceRow
  have hrow : db.runById row.runId = some run := by
    rw [hrun, h.links.run_eq]
    exact h.links.runRow
  have hfinish : (finishWithLease c (.judgeServer ext.runtimeGeneration examined)
      (job.lease workerId) o outputs).run answered db =
      (db.editEvaluation job.evaluation.id (·.finished o outputs), .ok .ok) :=
    run_finishWithLease h.rowById h.valid
  set done := db.editEvaluation job.evaluation.id (·.finished o outputs)
  have hreq : ((jobDto job run ext).result workerId o outputs).lease = job.lease workerId := rfl
  have hreads : (recordResult c ((jobDto job run ext).result workerId o outputs) examined).run
      answered db = (scoreVerdict row o).run answered done := by
    simp only [recordResult, Prog.run_bind, ClaimJobDto.result, jobDto,
      run_findEvaluation h.rowById, run_findByInstanceId hext, ne_eq, not_true_eq_false,
      ↓reduceIte, parseTerminalStatus_wire hterm, writeResult, hne]
    simp only [ResultRequest.lease]
    rw [show (⟨job.evaluation.id, workerId, job.leaseToken, job.attempt⟩ : Lease) =
      job.lease workerId from rfl, hfinish]
    rfl
  rw [hreads]
  by_cases hp : o = .patched
  · subst hp
    have hreward : ∃ b, (createScoreEvent
        (fixScore run round.id ext run.config.fixRoundScore)).run answered done =
        (done.addVerdictScore run round.id ext .patched, .ok b) := by
      refine run_createScoreEvent ?_
      show db.runById run.id = some run
      rw [h.links.run_id]
      exact h.links.runRow
    obtain ⟨b, hreward⟩ := hreward
    have hext' : done.instanceById row.instanceId = some ext := hext
    have hrow' : done.runById row.runId = some run := hrow
    refine ⟨done.addVerdictScore run round.id ext .patched, ?_, ?_, ?_⟩
    · simp only [scoreVerdict, hkind, h.official, and_self, ↓reduceIte, hround, h.links.round_id.1,
        Prog.run_bind, run_requireRun hrow', run_findByInstanceId hext', hreward, Prog.run_pure]
    · exact addVerdictScore_evaluations _ _
    · simp only [Db.reportedScores, ↓reduceIte, Db.addVerdictScore, verdictDelta, Db.ensureScore]
      have hs : done.scored = db.scored := rfl
      rw [hs]
      split_ifs <;> rfl
  · refine ⟨done, ?_, rfl, ?_⟩
    · simp only [scoreVerdict, hp, false_and, ↓reduceIte, Prog.run_pure]
    · simp only [Db.reportedScores, hp, ↓reduceIte]
      rfl

/-! ## When the paths agree -/

/-- The penalty that a reported verdict does not cost. -/
theorem reportedScores_eq_iff {o : EvaluationStatus} (hne : o ≠ .noPatch) (roundId : Nat) :
    (db.addVerdictScore run roundId ext o).scores = db.reportedScores run roundId ext o ↔
      run.practice = false ∨ o = .patched ∨ db.scored (.fix run.id roundId ext.id) = true := by
  by_cases hp : o = .patched
  · simp [hp, Db.reportedScores]
  have hdelta : verdictDelta run o =
      if run.practice then some (-defaultFixRoundPenalty) else none := by
    cases o <;> first | rfl | exact absurd rfl hp
  have hkey (d : Int) : (fixScore run roundId ext d).idempotencyKey = .fix run.id roundId ext.id :=
    rfl
  simp only [Db.reportedScores, hp, ↓reduceIte, Db.addVerdictScore, hdelta, false_or]
  cases run.practice with
  | false => simp
  | true =>
    simp only [↓reduceIte, Db.ensureScore, hkey]
    split_ifs with hs
    · simp [hs]
    · simp [hs, Db.insertScore]

/-- Where a JudgeServer settles the evaluation by the rule. -/
theorem Held.settled_judgeServer_iff (h : Held c db workerId job row ext run gamebox round)
    {probe : Probe} {o : CheckOutcome} (ho : db.checks gamebox ext round probe = .ok o)
    (outputs : Outputs) (examined : List Applied) :
    Settled db ((judgeServerPath c workerId job o.status outputs examined).run answered db).1
        job.evaluation o.status ↔
      run.practice = false ∨ o.status = .noPatch ∨ o.status = .patched ∨
        db.scored (.fix run.id round.id ext.id) = true := by
  rcases checks_cases ho with ⟨ha, hs⟩ | ⟨ha, hs⟩
  · rw [h.run_shortCircuit ha, hs]
    refine iff_of_true ((h.settled ⟨some "no applied patch this round", none, none, none, none⟩
      ?_).2 rfl) (.inr (.inl rfl))
    simp only [Db.editEvaluation, addVerdictScore_evaluations]
  · have hne : o.status ≠ .noPatch := by
      intro hno
      rw [hno] at hs
      simp at hs
    have hterm : o.status.terminal = true := by
      rcases hs with hs | hs | hs | hs <;> rw [hs] <;> rfl
    have hplatform : o.status ≠ .platformError := by
      intro hpe
      rw [hpe] at hs
      simp at hs
    obtain ⟨db', hrun, heval, hscores⟩ := h.run_recordResult hterm hplatform outputs examined
    have hpath : (judgeServerPath c workerId job o.status outputs examined).run answered db =
        (db', .ok ()) := by
      simp only [judgeServerPath, Prog.run_bind, h.run_buildJob ha, hrun]
    rw [hpath, h.settled outputs heval, hscores, reportedScores_eq_iff hne]
    simp [hne]

end Paths

/-! ## Claims -/

section Claims

variable {c : Settings} {db : Db} {q : ClaimQuery} {draw : Draw} {now : Int}

/-- The worker that has claimed an evaluation holds it. -/
theorem held_of_claim (hdb : Linked db) (hq : q.kinds = [.official]) {job : ClaimedJob}
    (hjob : job ∈ (db.claimJobs c q draw db.now).2) :
    ∃ row ext run gamebox round,
      Held c (db.claimJobs c q draw db.now).1 q.workerId job row ext run gamebox round := by
  obtain ⟨hmem, htoken, hattempt, hrow⟩ := claimed_row hdb.keyed hjob
  obtain ⟨he, hclaim⟩ := mem_claimable hmem
  obtain ⟨-, -, hkind, -⟩ := Evaluation.claimable_iff.1 hclaim
  have hofficial : job.evaluation.kind = .official := by simpa [hq] using hkind
  obtain ⟨e₀, he₀, -, hrun, hinst, hround, hk₀⟩ := mem_recoverStaleRunning he
  obtain ⟨ext, run, gamebox, round, hl⟩ := hdb.links e₀ he₀ (hk₀ ▸ hofficial)
  refine ⟨_, ext, run, gamebox, round, ⟨hinst ▸ hl.1, hl.2, hl.3, hround ▸ hl.4, hrun ▸ hl.5, hl.6⟩,
    hofficial, hrow, ⟨rfl, rfl, rfl, rfl⟩, ?_, ?_⟩
  · have hnow : (db.claimJobs c q draw db.now).1.now = db.now := rfl
    rw [hnow]
    simp only [Evaluation.leaseValid, Evaluation.heldBy, Evaluation.claimed, ClaimedJob.lease,
      hattempt, Option.any_some, and_self, decide_true, true_and, decide_eq_true_eq]
    omega
  · rw [htoken]
    exact draw.ne _

/-- The tables that a claim leaves alone. -/
theorem checkEvaluation_of_held {workerId : String} {job : ClaimedJob} {row : Evaluation}
    {ext : Instance} {run : Run} {gamebox : Gamebox} {round : FixRound}
    (h : Held c db workerId job row ext run gamebox round) (probe : Probe) :
    ((checkEvaluation job.evaluation probe).run answered db).2 =
      db.checks gamebox ext round probe := by
  obtain ⟨run', hrun'⟩ := Option.isSome_iff_exists.1 h.links.roundRun
  have hext : db.instanceById ext.id = some ext := h.links.ext_id ▸ h.links.instanceRow
  simp only [checkEvaluation, Prog.run_bind, run_findByInstanceId h.links.instanceRow,
    run_findGameboxIdentity h.links.gameboxRow, h.links.round_id.1,
    run_findRound h.links.round_id.2]
  rw [← h.links.ext_id, run_runChecks hext h.links.round_id.2 hrun']

end Claims

/-! ## The exact condition -/

/-- Both paths settle a claimed evaluation by the rule exactly where the condition holds. -/
theorem pathsAgree_iff (c : Settings) (db : Db) (hdb : Linked db) (q : ClaimQuery)
    (hq : q.kinds = [.official]) (draw : Draw) (job : ClaimedJob)
    (hjob : job ∈ (db.claimJobs c q draw db.now).2)
    (hfree : job.evaluation.instanceId ∉ db.locks) (probe : Probe) (o : CheckOutcome)
    (ho : ((checkEvaluation job.evaluation probe).run answered
      (db.claimJobs c q draw db.now).1).2 = .ok o) (outputs : Outputs) (examined : List Applied) :
    (Settled (db.claimJobs c q draw db.now).1
        ((inProcessPath c q.workerId job probe).run answered (db.claimJobs c q draw db.now).1).1
        job.evaluation o.status ∧
      Settled (db.claimJobs c q draw db.now).1
        ((judgeServerPath c q.workerId job o.status outputs examined).run answered
          (db.claimJobs c q draw db.now).1).1
        job.evaluation o.status) ↔ PathsAgreeWhen db job.evaluation o.status := by
  obtain ⟨row, ext, run, gamebox, round, h⟩ := held_of_claim hdb hq hjob
  rw [checkEvaluation_of_held h] at ho
  have hin := h.settled_inProcess hfree ho
  have hjudge := h.settled_judgeServer_iff ho outputs examined
  have hwhen : PathsAgreeWhen db job.evaluation o.status ↔ run.practice = false ∨
      o.status = .noPatch ∨ o.status = .patched ∨
        db.scored (.fix run.id round.id ext.id) = true := by
    have hrun : db.runById ext.runId = some run := h.links.runRow
    simp only [PathsAgreeWhen, hrun, Option.any_some, h.links.round_id.1, h.links.ext_id,
      h.links.run_id, h.links.run_eq]
  rw [hwhen]
  exact ⟨fun hboth => hjudge.1 hboth.2, fun hcond => ⟨hin, hjudge.2 hcond⟩⟩

/-! ## A practice run -/

/-- Leases of two minutes and three attempts. -/
def practiceSettings : Settings where
  hash := ("sha256:" ++ ·)
  leaseSecs := 120
  maxAttempts := 3

/-- A draw of one token. -/
def practiceDraw : Draw where
  token _ := "token"
  ne _ := by decide

/-- One hour for the break, one for the fix, rounds of ten minutes. -/
def practiceConfig : AwdpConfig := ⟨3600, 3600, 600, 540, 150⟩

/-- A training run in its fix. -/
def practiceRun : Run where
  id := 1
  eventId := 2
  gameboxId := some 3
  ownerUserId := some 4
  phase := .fix
  config := practiceConfig
  startedAt := some 0
  breakEndsAt := some 3600
  fixStartedAt := some 3600
  fixEndsAt := some 7200
  finishedAt := none
  currentRound := 0
  totalRounds := 6
  nextActionAt := some 4800

/-- The first round. -/
def practiceRound : FixRound := ⟨5, 1, 1, 3600, 4200, .evaluating, some 1⟩

/-- The instance of the run. -/
def practiceInstance : Instance := ⟨6, 1, 3, some 4, none, .running, 1, []⟩

/-- A gamebox with both scripts. -/
def practiceGamebox : Gamebox := ⟨3, some "check.py", some "exp.py", none⟩

/-- The official evaluation of the instance in the round. -/
def practiceEvaluation : Evaluation :=
  ⟨7, 1, 6, some 5, .official, .pending, .empty, 0, .empty, 4200⟩

/-- A practice run whose first round has a patch and waits for its evaluation. -/
def practiceDb : Db where
  now := 4210
  nextId := 20
  events := []
  runs := [practiceRun]
  rounds := [practiceRound]
  instances := [practiceInstance]
  gameboxes := [practiceGamebox]
  evaluations := [practiceEvaluation]
  patches := [⟨8, 1, 6, some 5, .applied, 4000, some 4010⟩]
  scores := []
  locks := []

theorem practiceDb_linked : Linked practiceDb := by
  refine ⟨by decide, fun e he _ => ?_⟩
  rw [List.mem_singleton.1 he]
  exact ⟨practiceInstance, practiceRun, practiceGamebox, practiceRound, rfl, rfl, rfl,
    ⟨5, rfl, rfl⟩, rfl, rfl⟩

/-- The worker asks for official evaluations. -/
def officialQuery : ClaimQuery := ⟨"worker", 4, [.official], none, []⟩

/-- The evaluation as it is claimed. -/
def practiceJob : ClaimedJob := ⟨practiceEvaluation, "token", 1⟩

/-- The container answers, and the scripts pass or not. -/
def probeOf (health : Bool) : Probe where
  inspect := .ok (some "10.0.0.2")
  healthchecks := .ok ()
  health := (health, ["http -> 200"])
  judge := .ok (.ok [⟨"10.0.0.2", true, none⟩])
  exploit := .ok (.ok [⟨"10.0.0.2", false, none⟩])

/-- What the checks find, where the target is healthy or not. -/
def outcomeOf (health : Bool) : CheckOutcome :=
  if health then
    ⟨.patched, "http -> 200", "judge: PASS", "exploit executed", some practiceInstance⟩
  else ⟨.serviceDown, "http -> 200", "", "", some practiceInstance⟩

/-- A service that is down costs the penalty on one path only. -/
theorem pathsAgree_not_serviceDown : Linked practiceDb ∧
    practiceJob ∈ (practiceDb.claimJobs practiceSettings officialQuery practiceDraw 4210).2 ∧
    ((checkEvaluation practiceEvaluation (probeOf false)).run answered
      (practiceDb.claimJobs practiceSettings officialQuery practiceDraw 4210).1).2 =
        .ok (outcomeOf false) ∧
    ((inProcessPath practiceSettings "worker" practiceJob (probeOf false)).run answered
      (practiceDb.claimJobs practiceSettings officialQuery practiceDraw 4210).1).1.scores.map
        (·.delta) = [-100] ∧
    ((judgeServerPath practiceSettings "worker" practiceJob .serviceDown .empty []).run answered
      (practiceDb.claimJobs practiceSettings officialQuery practiceDraw 4210).1).1.scores = [] ∧
    ¬ Settled (practiceDb.claimJobs practiceSettings officialQuery practiceDraw 4210).1
      ((judgeServerPath practiceSettings "worker" practiceJob .serviceDown .empty []).run answered
        (practiceDb.claimJobs practiceSettings officialQuery practiceDraw 4210).1).1
      practiceEvaluation .serviceDown :=
  ⟨practiceDb_linked, by decide +kernel, by decide +kernel, by decide +kernel, by decide +kernel,
    fun h => absurd h.scores (by decide +kernel)⟩

/-- A patch that works scores on both paths. -/
theorem pathsAgree_patched :
    (checkEvaluation practiceEvaluation (probeOf true)).run answered practiceDb =
      (practiceDb, .ok (outcomeOf true)) ∧
    Settled (practiceDb.claimJobs practiceSettings officialQuery practiceDraw 4210).1
        ((inProcessPath practiceSettings "worker" practiceJob (probeOf true)).run answered
          (practiceDb.claimJobs practiceSettings officialQuery practiceDraw 4210).1).1
        practiceEvaluation .patched ∧
      Settled (practiceDb.claimJobs practiceSettings officialQuery practiceDraw 4210).1
        ((judgeServerPath practiceSettings "worker" practiceJob .patched .empty []).run answered
          (practiceDb.claimJobs practiceSettings officialQuery practiceDraw 4210).1).1
        practiceEvaluation .patched :=
  ⟨by decide +kernel, (pathsAgree_iff practiceSettings practiceDb practiceDb_linked officialQuery
    rfl practiceDraw practiceJob (by decide +kernel) (by decide) (probeOf true) (outcomeOf true)
    (by decide +kernel) .empty []).2 (.inr (.inr (.inl rfl)))⟩

end FloatCtf.Awdp
