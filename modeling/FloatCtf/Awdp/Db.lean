import FloatCtf.Awdp.Domain
import FloatCtf.Process.Prog

/-!
# The tables of an AWDP run

The rows of the runs, fix rounds, instances, evaluations, patches and scores, with the advisory
locks that sessions hold and the contents of the containers, and the statements of which the
programs are made.  Identifiers are drawn from one counter.
-/

namespace FloatCtf.Awdp

open Process

/-! ## Rows -/

/-- An event with its configuration. -/
structure Event where
  id : Nat
  competition : Bool
  systemKey : Option String
  startTime : Int
  config : AwdpConfig
  deriving DecidableEq

/-- A run of an event. -/
structure Run where
  id : Nat
  eventId : Nat
  gameboxId : Option Nat
  ownerUserId : Option Nat
  phase : AwdpPhase
  config : AwdpConfig
  startedAt : Option Int
  breakEndsAt : Option Int
  fixStartedAt : Option Int
  fixEndsAt : Option Int
  finishedAt : Option Int
  currentRound : Int
  totalRounds : Int
  nextActionAt : Option Int
  deriving DecidableEq

/-- A practice run has a gamebox. -/
def Run.practice (r : Run) : Bool := r.gameboxId.isSome

/-- The status of a fix round. -/
inductive RoundStatus where
  | pending
  | evaluating
  | completed
  deriving DecidableEq

/-- A fix round. -/
structure FixRound where
  id : Nat
  runId : Nat
  sequence : Int
  startsAt : Int
  cutoffAt : Int
  status : RoundStatus
  expectedEvalCount : Option Nat
  deriving DecidableEq

/-- The state of an instance. -/
inductive RuntimeState where
  | pending
  | starting
  | running
  | stopped
  deriving DecidableEq

/-- A patch that was executed in a container, and when. -/
structure Applied where
  submissionId : Nat
  appliedAt : Int
  deriving DecidableEq

/-- A row of `event_instances` with its row of `awdp_instances`, and what was executed in its
container since it was created. -/
structure Instance where
  id : Nat
  runId : Nat
  gameboxId : Nat
  ownerUserId : Option Nat
  ownerTeamId : Option Nat
  runtimeState : RuntimeState
  runtimeGeneration : Int
  content : List Applied
  deriving DecidableEq

/-- A gamebox with its scripts and its health checks. -/
structure Gamebox where
  id : Nat
  judgeScript : Option String
  exploitScript : Option String
  healthchecks : Option String
  deriving DecidableEq

/-- The output columns of an evaluation; `none` leaves a column as it is. -/
structure Outputs where
  healthcheck : Option String
  judge : Option String
  exploit : Option String
  stdout : Option String
  stderr : Option String
  deriving DecidableEq

/-- No output. -/
def Outputs.empty : Outputs := ⟨none, none, none, none, none⟩

/-- New outputs over old ones. -/
def Outputs.merge (old new : Outputs) : Outputs where
  healthcheck := new.healthcheck <|> old.healthcheck
  judge := new.judge <|> old.judge
  exploit := new.exploit <|> old.exploit
  stdout := new.stdout <|> old.stdout
  stderr := new.stderr <|> old.stderr

/-- The lease columns of an evaluation. -/
structure LeaseRow where
  claimedBy : Option String
  claimedAt : Option Int
  heartbeatAt : Option Int
  expiresAt : Option Int
  tokenHash : Option String
  deriving DecidableEq

/-- A row without a lease. -/
def LeaseRow.empty : LeaseRow := ⟨none, none, none, none, none⟩

/-- An evaluation. -/
structure Evaluation where
  id : Nat
  runId : Nat
  instanceId : Nat
  fixRoundId : Option Nat
  kind : EvaluationKind
  status : EvaluationStatus
  outputs : Outputs
  attemptCount : Int
  lease : LeaseRow
  createdAt : Int
  deriving DecidableEq

/-- How far a patch has come. -/
inductive PatchStatus where
  | applying
  | applied
  | failed
  deriving DecidableEq

/-- A patch that was submitted. -/
structure PatchSubmission where
  id : Nat
  runId : Nat
  instanceId : Nat
  fixRoundId : Option Nat
  status : PatchStatus
  applyStartedAt : Int
  appliedAt : Option Int
  deriving DecidableEq

/-- A row of the score ledger. -/
structure ScoreEvent where
  id : Nat
  runId : Nat
  eventId : Nat
  userId : Option Nat
  teamId : Option Nat
  gameboxId : Nat
  scoreType : ScoreType
  fixRoundId : Option Nat
  delta : Int
  idempotencyKey : IdempotencyKey
  deriving DecidableEq

/-- The clock, the next id, the tables and the advisory locks. -/
structure Db where
  now : Int
  nextId : Nat
  events : List Event
  runs : List Run
  rounds : List FixRound
  instances : List Instance
  gameboxes : List Gamebox
  evaluations : List Evaluation
  patches : List PatchSubmission
  scores : List ScoreEvent
  locks : List Nat
  deriving DecidableEq

/-! ## Leases and statements -/

/-- The query of a claim: `skipped` are the rows that other transactions hold. -/
structure ClaimQuery where
  workerId : String
  capacity : Nat
  kinds : List EvaluationKind
  eventId : Option Nat
  skipped : List Nat
  deriving DecidableEq

/-- What a worker presents for an evaluation. -/
structure Lease where
  evaluationId : Nat
  workerId : String
  token : String
  attempt : Int
  deriving DecidableEq

/-- Who reports on an evaluation: the worker of the platform, with the instance as it was when it was
examined, or a JudgeServer, with the generation of its job and what the container held when it was
examined there. -/
inductive Reporter where
  | inProcess (examined : Option Instance)
  | judgeServer (generation : Int) (examined : List Applied)
  deriving DecidableEq

/-- A score that is to be recorded. -/
structure NewScore where
  runId : Nat
  userId : Option Nat
  teamId : Option Nat
  gameboxId : Nat
  scoreType : ScoreType
  fixRoundId : Option Nat
  delta : Int
  idempotencyKey : IdempotencyKey
  deriving DecidableEq

/-- The label of a statement: what it is, with its arguments. -/
inductive Stmt where
  | clock
  | select
  | lock (instanceId : Nat)
  | unlock (instanceId : Nat)
  | claimJobs (q : ClaimQuery) (now : Int)
  | heartbeat (evaluationId : Nat) (workerId token : String)
  | finishWithLease (reporter : Reporter) (lease : Lease) (status : EvaluationStatus)
  | releaseOrFail (reporter : Reporter) (lease : Lease) (detail : String)
  | finish (evaluationId : Nat) (status : EvaluationStatus)
  | createOfficial (runId instanceId fixRoundId : Nat)
  | createManual (runId instanceId : Nat)
  | createScore (score : NewScore)
  | observe (instanceId : Nat)
  | resetInstance (instanceId : Nat)
  | createPracticeEvent
  | createRun (eventId : Nat) (gameboxId ownerUserId : Option Nat) (seen : List Run)
  | transition (runId : Nat) (expected target : AwdpPhase)
  | rewind (runId : Nat)
  | endPractice (runId : Nat)
  | touchTick (runId : Nat)
  | insertRound (runId : Nat) (sequence : Int)
  | materializeRound (runId roundId : Nat)
  | completeRound (roundId : Nat)
  | recoverApplying (instanceId : Nat)
  | readOpenRound (runId instanceId : Nat) (now : Int)
  | readDueRound (runId instanceId : Nat) (roundId : Nat)
  | createSubmission (instanceId fixRoundId : Nat)
  | executePatch (instanceId submissionId fixRoundId : Nat)
  | finishApply (submissionId : Nat) (ok : Bool)
  deriving DecidableEq

/-- A job, statement by statement. -/
abbrev AwdpM := Prog Stmt Db AwdpError

/-- A read that can fail. -/
def select {α : Type} (f : Db → α) : AwdpM α := Prog.query .select dbError f

/-- Reads the clock. -/
def utcNow : AwdpM Int := Prog.look .clock (·.now)

/-- A check whose error ends the job. -/
def ofExcept {α : Type} : Except AwdpError α → AwdpM α
  | .ok a => pure a
  | .error e => .fail e

/-- A row, or `NotFound`. -/
def ofOption {α : Type} (message : String) : Option α → AwdpM α
  | some a => pure a
  | none => .fail (.notFound message)

/-! ## Rows by id -/

/-- The run with this id. -/
def Db.runById (db : Db) (id : Nat) : Option Run := db.runs.find? (·.id = id)

/-- The round with this id. -/
def Db.roundById (db : Db) (id : Nat) : Option FixRound := db.rounds.find? (·.id = id)

/-- The instance with this id. -/
def Db.instanceById (db : Db) (id : Nat) : Option Instance := db.instances.find? (·.id = id)

/-- The evaluation with this id. -/
def Db.evaluationById (db : Db) (id : Nat) : Option Evaluation := db.evaluations.find? (·.id = id)

/-- `run_repo::require_by_id`. -/
def requireRun (id : Nat) : AwdpM Run := do
  ofOption s!"未找到该 AWDP 运行（{id}）" (← select (·.runById id))

/-- `instance_repo::find_by_instance_id`. -/
def findByInstanceId (id : Nat) : AwdpM Instance := do
  ofOption "未找到该 AWDP 实例" (← select (·.instanceById id))

/-- `round_repo::find_by_id`. -/
def findRound (id : Nat) : AwdpM FixRound := do
  ofOption "未找到该 AWDP 修复回合" (← select (·.roundById id))

/-- `find_gamebox_identity`. -/
def findGameboxIdentity (id : Nat) : AwdpM Gamebox := do
  ofOption "未找到该靶机标识" (← select fun db => db.gameboxes.find? (·.id = id))

/-! ## Advisory locks -/

/-- `InstanceAdvisoryLock::acquire`, for as long as it waits. -/
def acquireLock (instanceId : Nat) : AwdpM Unit :=
  Prog.exec (.lock instanceId) dbError fun db =>
    if instanceId ∈ db.locks then
      .error (.conflict "该实例已有判定在进行（等待 90s 未获得锁），请稍后重试")
    else .ok ({ db with locks := instanceId :: db.locks }, ())

/-- `release`; a failing unlock closes the session, and with it the lock, in its own time. -/
def releaseLock (instanceId : Nat) : AwdpM Unit :=
  let unlock (db : Db) : Db := { db with locks := db.locks.erase instanceId }
  Prog.stmt (.unlock instanceId) unlock (fun _ => .ret ()) fun _ => .ret ()

/-- Run `p` under the lock of the instance. -/
def withLock {α : Type} (instanceId : Nat) (p : AwdpM α) : AwdpM α := do
  acquireLock instanceId
  let r ← p.attempt
  releaseLock instanceId
  ofExcept r

end FloatCtf.Awdp
