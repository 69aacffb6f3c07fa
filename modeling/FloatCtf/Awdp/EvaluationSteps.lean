import FloatCtf.Awdp.JudgeWorker

/-!
# What a statement can do to an evaluation

`EvalStep` says of every statement of the evaluation programs what it does to the evaluations, the
instances and the ledger, and with which arguments; the programs of the workers, of a JudgeServer and
of the check of all rounds are made of such steps.
-/

namespace FloatCtf.Awdp

open Process

/-! ## Resets -/

/-- The instance behind a reset: running, in a new generation, without files. -/
def Db.resetInstance (db : Db) (id : Nat) (generation : Int) : Db :=
  { db with instances := db.instances.map fun i =>
      if i.id = id then
        { i with runtimeState := .running, runtimeGeneration := generation, content := [] }
      else i }

/-- `reset_one_locked`: the container is created anew, as the next generation. -/
def resetInstance (instanceId : Nat) : AwdpM Unit :=
  withLock instanceId do
    let i ← findByInstanceId instanceId
    Prog.exec (.resetInstance instanceId) dbError fun db =>
      .ok (db.resetInstance instanceId (i.runtimeGeneration + 1), ())

/-! ## One statement -/

/-- The evaluations, their rows and the ledger are the same. -/
structure SameEvals (db db' : Db) : Prop where
  runs : db'.runs = db.runs
  rounds : db'.rounds = db.rounds
  evaluations : db'.evaluations = db.evaluations
  scores : db'.scores = db.scores
  instances : db'.instances = db.instances
  nextId : db'.nextId = db.nextId
  now : db'.now = db.now

theorem SameEvals.refl (db : Db) : SameEvals db db := ⟨rfl, rfl, rfl, rfl, rfl, rfl, rfl⟩

/-- The statement finds no row that it could write to. -/
def Stmt.idle (c : Settings) (l : Stmt) (db : Db) : Bool :=
  match l with
  | .finishWithLease _ lease _ =>
    (db.evaluationById lease.evaluationId).all (!·.leaseValid c lease db.now)
  | .releaseOrFail _ lease detail =>
    (db.evaluationById lease.evaluationId).all (!·.givesBack c lease detail)
  | .finish id _ => (db.evaluationById id).isNone
  | _ => true

/-- What a statement of the evaluation programs does. -/
def EvalStep (c : Settings) (l : Stmt) (db db' : Db) : Prop :=
  (l.idle c db = true ∧ SameEvals db db') ∨ match l with
  | .claimJobs q now => ∃ draw, db' = (db.claimJobs c q draw now).1
  | .heartbeat id workerId token => ∃ row, db.evaluationById id = some row ∧
      row.heartbeatValid c workerId token db.now = true ∧
      db' = db.editEvaluation id fun e => { e with
        lease := { e.lease with
          heartbeatAt := some db.now, expiresAt := some (db.now + c.leaseSecs) } }
  | .finishWithLease _ lease status => status.terminal = true ∧
      ∃ row outputs, db.evaluationById lease.evaluationId = some row ∧
        row.leaseValid c lease db.now = true ∧
        db' = db.editEvaluation lease.evaluationId (·.finished status outputs)
  | .releaseOrFail _ lease detail => ∃ row, db.evaluationById lease.evaluationId = some row ∧
      row.givesBack c lease detail = true ∧
      db' = db.editEvaluation lease.evaluationId (·.givenBack c lease.attempt detail)
  | .finish id status => status.terminal = true ∧
      ∃ row outputs, db.evaluationById id = some row ∧
        db' = db.editEvaluation id (·.finished status outputs)
  | .createOfficial runId instanceId fixRoundId => db.official fixRoundId instanceId = none ∧
      (db.roundById fixRoundId).isSome = true ∧
      ∃ now, db' = db.insertEvaluation runId instanceId (some fixRoundId) .official now
  | .createScore s => db.scored s.idempotencyKey = false ∧
      ∃ eventId, db' = db.insertScore s eventId
  | .resetInstance id => ∃ generation, db' = db.resetInstance id generation
  | .endPractice _ => ∃ runs, db' = { db with runs := runs }
  | _ => False

/-! ## Reads and locks -/

/-- Reads, and the statements of the locks. -/
def Stmt.quiet : Stmt → Bool
  | .clock | .select | .lock _ | .unlock _ | .observe _ => true
  | _ => false

/-- A step relation that allows reads, and locks to be taken and released. -/
class Reads (T : Stmt → Db → Db → Prop) : Prop where
  quiet : ∀ l db locks, l.quiet = true → T l db { db with locks := locks }

/-- Nothing but the locks. -/
def QuietStep (_ : Stmt) (db db' : Db) : Prop := ∃ locks, db' = { db with locks := locks }

instance : Reads QuietStep := ⟨fun _ _ locks _ => ⟨locks, rfl⟩⟩

section Reads

variable {T : Stmt → Db → Db → Prop} {α : Type}

theorem does_ofExcept (x : Except AwdpError α) : (ofExcept x).Does T := by
  cases x <;> trivial

theorem does_ofOption (m : String) (x : Option α) : (ofOption m x).Does T := by
  cases x <;> trivial

variable [Reads T]

theorem reads_refl {l : Stmt} (hl : l.quiet = true) (db : Db) : T l db db :=
  Reads.quiet l db db.locks hl

theorem does_select (f : Db → α) : (select f).Does T :=
  Prog.does_query (reads_refl rfl) _ f

theorem does_utcNow : utcNow.Does T := Prog.does_look (reads_refl rfl) _

/-- A read of a row that may be missing. -/
theorem does_require {m : String} {f : Db → Option α} :
    (do ofOption m (← select f) : AwdpM α).Does T :=
  Prog.does_bind (does_select _) fun _ => does_ofOption _ _

theorem does_requireRun (id : Nat) : (requireRun id).Does T := does_require

theorem does_findByInstanceId (id : Nat) : (findByInstanceId id).Does T := does_require

theorem does_findRound (id : Nat) : (findRound id).Does T := does_require

theorem does_findGameboxIdentity (id : Nat) : (findGameboxIdentity id).Does T := does_require

theorem does_findEvaluation (id : Nat) : (findEvaluation id).Does T := by
  refine Prog.does_bind (does_select _) fun e => ?_
  cases e <;> trivial

theorem does_hasAppliedPatch (instanceId fixRoundId : Nat) :
    (hasAppliedPatch instanceId fixRoundId).Does T :=
  Prog.does_bind (does_select _) fun _ =>
    Prog.does_bind (does_ofOption _ _) fun _ => does_select _

theorem does_runChecks (gamebox : Gamebox) (instanceId : Nat) (round : FixRound) (probe : Probe) :
    (runChecks gamebox instanceId round probe).Does T := by
  refine Prog.does_bind (does_hasAppliedPatch _ _) fun applied => ?_
  refine Prog.does_ite (Prog.does_pure _) ?_
  refine Prog.does_bind (does_findByInstanceId _) fun i => ?_
  refine Prog.does_bind (does_requireRun _) fun _ => ?_
  exact Prog.does_bind (Prog.does_look (reads_refl rfl) _) fun _ => does_ofExcept _

theorem does_acquireLock (instanceId : Nat) : (acquireLock instanceId).Does T := by
  refine Prog.does_exec (reads_refl rfl) fun db db' a hf => ?_
  split_ifs at hf
  cases hf
  exact Reads.quiet _ db _ rfl

theorem does_releaseLock (instanceId : Nat) : (releaseLock instanceId).Does T :=
  fun db => ⟨Reads.quiet _ db _ rfl, trivial, trivial⟩

/-- A program under the lock of an instance does what it does, and the lock. -/
theorem does_withLock {p : AwdpM α} (hp : p.Does T) (instanceId : Nat) :
    (withLock instanceId p).Does T := by
  refine Prog.does_bind (does_acquireLock _) fun _ => ?_
  refine Prog.does_bind (Prog.does_attempt hp) fun r => ?_
  exact Prog.does_bind (does_releaseLock _) fun _ => does_ofExcept r

end Reads

/-! ## The programs of the evaluations -/

section Does

variable {c : Settings} {α : Type}

theorem evalStep_refl {l : Stmt} {db : Db} (h : l.idle c db = true) : EvalStep c l db db :=
  .inl ⟨h, .refl db⟩

instance : Reads (EvalStep c) where
  quiet l db locks hl := by
    refine .inl ⟨?_, rfl, rfl, rfl, rfl, rfl, rfl, rfl⟩
    cases l <;> first | rfl | cases hl

theorem does_claimTx (q : ClaimQuery) (draw : Draw) (now : Int) :
    (Prog.exec (.claimJobs q now) dbError fun db => .ok (db.claimJobs c q draw now) :
      AwdpM (List ClaimedJob)).Does (EvalStep c) := by
  refine Prog.does_exec (fun _ => evalStep_refl rfl) fun db db' a hf => ?_
  cases hf
  exact .inr ⟨draw, rfl⟩

theorem does_claimJobs (q : ClaimQuery) (draw : Draw) : (claimJobs c q draw).Does (EvalStep c) :=
  Prog.does_bind does_utcNow fun _ => does_claimTx _ _ _

theorem does_heartbeat (id : Nat) (workerId token : String) :
    (heartbeat c id workerId token).Does (EvalStep c) := by
  refine Prog.does_exec (fun _ => evalStep_refl rfl) fun db db' a hf => ?_
  split at hf
  · cases hf
    exact evalStep_refl rfl
  · split_ifs at hf with hv
    · cases hf
      exact .inr ⟨_, ‹_›, hv, rfl⟩
    · cases hf
      exact evalStep_refl rfl

theorem does_finishWithLease (reporter : Reporter) (l : Lease) {status : EvaluationStatus}
    (hs : status.terminal = true) (outputs : Outputs) :
    (finishWithLease c reporter l status outputs).Does (EvalStep c) := by
  refine Prog.does_exec_cases (fun db db' a hf => ?_) fun db e hf => ?_
  · cases hrow : db.evaluationById l.evaluationId with
    | none => simp [hrow] at hf
    | some row =>
      simp only [hrow] at hf
      split_ifs at hf with hv
      · cases hf
        exact .inr ⟨hs, row, outputs, hrow, hv, rfl⟩
      · cases hf
        exact .inl ⟨by simp [Stmt.idle, hrow, hv], .refl _⟩
  · refine .inl ⟨?_, .refl _⟩
    cases hrow : db.evaluationById l.evaluationId with
    | none => simp [Stmt.idle, hrow]
    | some row =>
      simp only [hrow] at hf
      split_ifs at hf

theorem does_releaseOrFail (reporter : Reporter) (l : Lease) (detail : String) :
    (releaseOrFail c reporter l detail).Does (EvalStep c) := by
  refine Prog.does_exec_cases (fun db db' a hf => ?_) fun db e hf => ?_
  · cases hrow : db.evaluationById l.evaluationId with
    | none => simp [hrow] at hf
    | some row =>
      simp only [hrow] at hf
      split_ifs at hf with hv hheld
      · cases hf
        exact .inr ⟨row, hrow, hv, rfl⟩
      · cases hf
        exact .inl ⟨by simp [Stmt.idle, hrow, hv], .refl _⟩
  · refine .inl ⟨?_, .refl _⟩
    cases hrow : db.evaluationById l.evaluationId with
    | none => simp [Stmt.idle, hrow]
    | some row =>
      simp only [hrow] at hf
      split_ifs at hf with hv hheld
      simp [Stmt.idle, hrow, hv]

theorem does_finish (id : Nat) {status : EvaluationStatus} (hs : status.terminal = true)
    (outputs : Outputs) : (finish id status outputs).Does (EvalStep c) := by
  refine Prog.does_bind (does_findEvaluation id) fun _ => ?_
  refine Prog.does_exec_cases (fun db db' a hf => ?_) fun db e hf => ?_
  · cases hrow : db.evaluationById id with
    | none => simp [hrow] at hf
    | some row =>
      simp only [hrow] at hf
      cases hf
      exact .inr ⟨hs, row, outputs, hrow, rfl⟩
  · refine .inl ⟨?_, .refl _⟩
    cases hrow : db.evaluationById id with
    | none => simp [Stmt.idle, hrow]
    | some row => simp [hrow] at hf

theorem does_createOfficial (runId instanceId fixRoundId : Nat) :
    (createOfficial runId instanceId fixRoundId).Does (EvalStep c) := by
  refine Prog.does_bind does_utcNow fun now => ?_
  refine Prog.does_bind (Prog.does_exec (fun _ => evalStep_refl rfl) fun db db' a hf => ?_) fun created => ?_
  · split_ifs at hf with hround hofficial
    · cases hf
      exact evalStep_refl rfl
    · cases hf
      exact .inr ⟨by simpa using hofficial, by simpa [Option.isSome_iff_ne_none] using hround, now, rfl⟩
  · cases created with
    | some e => trivial
    | none =>
      refine Prog.does_bind (does_select _) fun found => ?_
      cases found <;> trivial

theorem does_writeScore (s : NewScore) (eventId : Nat) :
    (Prog.exec (.createScore s) dbError fun db =>
      if db.scored s.idempotencyKey then .ok (db, false)
      else .ok (db.insertScore s eventId, true) : AwdpM Bool).Does (EvalStep c) := by
  refine Prog.does_exec (fun _ => evalStep_refl rfl) fun db db' a hf => ?_
  split_ifs at hf with hs
  · cases hf
    exact evalStep_refl rfl
  · cases hf
    exact .inr ⟨by simpa using hs, eventId, rfl⟩

theorem does_createScoreEvent (s : NewScore) : (createScoreEvent s).Does (EvalStep c) :=
  Prog.does_bind (does_requireRun _) fun run => does_writeScore s run.eventId

theorem does_penalizePractice (run : Run) (roundId : Nat) (ext : Instance) :
    (penalizePractice run roundId ext).Does (EvalStep c) :=
  Prog.does_ite (Prog.does_bind (does_createScoreEvent _) fun _ => trivial) (Prog.does_pure _)

theorem does_finishEval (l : Lease) {o : CheckOutcome} (hs : o.status.terminal = true)
    (outputs : Outputs) : (finishEval c l o outputs).Does (EvalStep c) :=
  Prog.does_ite (does_finish _ hs _)
    (Prog.does_bind (does_finishWithLease _ _ hs _) fun _ => trivial)

theorem does_settleFailed (run : Run) (round : FixRound) (ext : Instance) (l : Lease)
    {o : CheckOutcome} (hs : o.status.terminal = true) (outputs : Outputs) :
    (settleFailed c run round ext l o outputs).Does (EvalStep c) :=
  Prog.does_bind (does_penalizePractice _ _ _) fun _ =>
    Prog.does_bind (does_finishEval _ hs _) fun _ => trivial

theorem does_settleOutcome (run : Run) (round : FixRound) (ext : Instance) (l : Lease)
    (o : CheckOutcome) : (settleOutcome c run round ext l o).Does (EvalStep c) := by
  unfold settleOutcome
  split
  case h_5 hs =>
    exact Prog.does_bind (does_createScoreEvent _) fun _ =>
      Prog.does_bind (does_finishEval _ (by rw [hs]; rfl) _) fun _ => trivial
  case h_6 => trivial
  all_goals
    rename_i hs
    exact does_settleFailed _ _ _ _ (by rw [hs]; rfl) _

theorem does_processOfficialLeased (ev : Evaluation) (l : Lease) (probe : Probe) :
    (processOfficialLeased c ev l probe).Does (EvalStep c) := by
  refine does_withLock (Prog.does_bind (Prog.does_look (reads_refl rfl) _) fun seen => ?_) _
  refine Prog.does_bind (Prog.does_attempt ?_) fun _ => trivial
  refine Prog.does_bind (does_findByInstanceId _) fun ext => ?_
  refine Prog.does_bind (does_requireRun _) fun run => ?_
  refine Prog.does_bind (does_findGameboxIdentity _) fun gamebox => ?_
  split
  · trivial
  · refine Prog.does_bind (does_findRound _) fun round => ?_
    refine Prog.does_bind (Prog.does_bind (does_findByInstanceId _) fun ext => ?_) fun _ => trivial
    exact Prog.does_bind (does_runChecks _ _ _ _) fun o => does_settleOutcome _ _ _ _ _

theorem does_giveBack (seen : Option Instance) (l : Lease) (e : AwdpError) :
    (giveBack c seen l e).Does (EvalStep c) :=
  Prog.does_bind (Prog.does_attempt (does_releaseOrFail _ _ _)) fun _ => trivial

theorem does_processJob (workerId : String) (probe : Nat → Probe) (job : ClaimedJob) :
    (processJob c workerId probe job).Does (EvalStep c) := by
  refine Prog.does_bind (Prog.does_attempt (does_processOfficialLeased _ _ _)) fun r => ?_
  split
  · trivial
  · exact does_giveBack _ _ _
  · exact does_giveBack _ _ _

theorem does_workerRound (workerId : String) (concurrency : Nat) (skipped : List Nat) (draw : Draw)
    (probe : Nat → Probe) :
    (workerRound c workerId concurrency skipped draw probe).Does (EvalStep c) :=
  Prog.does_bind (does_claimJobs _ _) fun _ => Prog.does_each fun _ _ => does_processJob _ _ _

theorem does_buildJob (workerId : String) (job : ClaimedJob) :
    (buildJob c workerId job).Does (EvalStep c) := by
  refine Prog.does_bind (does_findByInstanceId _) fun inst => ?_
  refine Prog.does_bind (does_requireRun _) fun run => ?_
  refine Prog.does_bind (does_findGameboxIdentity _) fun _ => ?_
  split
  · refine Prog.does_bind (does_hasAppliedPatch _ _) fun applied => ?_
    refine Prog.does_ite ?_ (Prog.does_pure _)
    refine Prog.does_bind (Prog.does_bind (does_penalizePractice _ _ _) fun _ => ?_) fun _ => trivial
    exact Prog.does_bind (does_finishWithLease _ _ rfl _) fun _ => trivial
  · trivial

theorem does_buildJobs (workerId : String) (jobs : List ClaimedJob) :
    (buildJobs c workerId jobs).Does (EvalStep c) := by
  induction jobs with
  | nil => trivial
  | cons job jobs ih =>
    exact Prog.does_bind (does_buildJob _ _) fun _ => Prog.does_bind ih fun _ => trivial

theorem does_judgeClaimJobs (workerId : String) (capacity : Nat) (eventId : Option Nat)
    (skipped : List Nat) (draw : Draw) :
    (judgeClaimJobs c workerId capacity eventId skipped draw).Does (EvalStep c) :=
  Prog.does_bind (does_claimJobs _ _) fun _ => does_buildJobs _ _

theorem does_acceptOutcome (o : FinishOutcome) : (acceptOutcome o).Does (EvalStep c) := by
  cases o <;> trivial

theorem does_scoreVerdict (ev : Evaluation) (status : EvaluationStatus) :
    (scoreVerdict ev status).Does (EvalStep c) := by
  refine Prog.does_ite ?_ (Prog.does_pure _)
  split
  · trivial
  · refine Prog.does_bind (does_requireRun _) fun run => ?_
    refine Prog.does_bind (does_findByInstanceId _) fun ext => ?_
    exact Prog.does_bind (does_createScoreEvent _) fun _ => trivial

theorem does_writeResult (r : ResultRequest) (examined : List Applied) (ev : Evaluation)
    {status : EvaluationStatus} (hs : status.terminal = true) :
    (writeResult c r examined ev status).Does (EvalStep c) := by
  refine Prog.does_ite ?_ ?_
  · exact Prog.does_bind (does_releaseOrFail _ _ _) fun _ => does_acceptOutcome _
  · refine Prog.does_bind (does_finishWithLease _ _ hs _) fun _ => ?_
    exact Prog.does_bind (does_acceptOutcome _) fun _ => does_scoreVerdict _ _

theorem does_recordResult (r : ResultRequest) (examined : List Applied) :
    (recordResult c r examined).Does (EvalStep c) := by
  refine Prog.does_bind (does_findEvaluation _) fun ev => ?_
  refine Prog.does_bind (does_findByInstanceId _) fun inst => ?_
  refine Prog.does_ite trivial ?_
  cases hp : parseTerminalStatus r.status with
  | error e => trivial
  | ok status => exact does_writeResult _ _ _ (terminal_of_parse hp)

theorem does_sweepRound (run : Run) (round : FixRound) (ext : Instance) (o : CheckOutcome)
    (sequence : Int) : (sweepRound run round ext o sequence).Does (EvalStep c) := by
  refine Prog.does_bind (does_select _) fun found => ?_
  cases found with
  | none => trivial
  | some r =>
    refine Prog.does_bind (does_createOfficial _ _ _) fun eval => ?_
    refine Prog.does_bind (does_finish _ rfl _) fun _ => ?_
    exact Prog.does_bind (does_createScoreEvent _) fun _ => trivial

theorem does_endPracticeSession (runId : Nat) : (endPracticeSession runId).Does (EvalStep c) := by
  refine Prog.does_exec (fun _ => evalStep_refl rfl) fun db db' a hf => ?_
  split at hf
  · cases hf
  · split_ifs at hf
    · cases hf
      exact evalStep_refl rfl
    · cases hf
      exact .inr ⟨_, rfl⟩

theorem does_allCheckLocked (run : Run) (instanceId : Nat) (probe : Probe) :
    (allCheckLocked run instanceId probe).Does (EvalStep c) := by
  refine Prog.does_bind (does_select _) fun due => ?_
  cases due with
  | none => trivial
  | some round =>
    refine Prog.does_bind (does_findByInstanceId _) fun inst => ?_
    refine Prog.does_bind (does_findGameboxIdentity _) fun gamebox => ?_
    refine Prog.does_bind (does_runChecks _ _ _ _) fun o => Prog.does_ite (Prog.does_pure _) ?_
    refine Prog.does_bind (does_findByInstanceId _) fun ext => ?_
    refine Prog.does_bind (Prog.does_each fun _ _ => does_sweepRound _ _ _ _ _) fun _ => ?_
    exact Prog.does_bind (does_endPracticeSession _) fun _ => trivial

theorem does_allCheck (runId instanceId : Nat) (subject : Subject) (probe : Probe) :
    (allCheck runId instanceId subject probe).Does (EvalStep c) := by
  refine Prog.does_bind (does_requireRun _) fun run => ?_
  refine Prog.does_ite trivial (Prog.does_ite trivial ?_)
  refine Prog.does_bind (does_findByInstanceId _) fun inst => Prog.does_ite trivial ?_
  exact does_withLock (does_allCheckLocked _ _ _) _

theorem does_resetInstance (instanceId : Nat) : (resetInstance instanceId).Does (EvalStep c) := by
  refine does_withLock (Prog.does_bind (does_findByInstanceId _) fun i => ?_) _
  refine Prog.does_exec (fun _ => evalStep_refl rfl) fun db db' a hf => ?_
  cases hf
  exact .inr ⟨_, rfl⟩

end Does

end FloatCtf.Awdp
