import FloatCtf.Awd.Domain
import FloatCtf.Process.Prog

/-!
# The database of one AWD event

`Db` is the part of the database that the AWD services read and write for one event: its
`awd_events` row, its rounds, its scheduler tasks, its judge batches and tasks, its teams, game
boxes, instances and bans, its flags, submissions and score ledger, together with the wall clock that
`Utc::now()` reads.  Every query of the services filters by the event, so the rows of the other
events are not here; judge tasks keep their `eventId`, because the lease and deadline sweeps and
the judge endpoints go through the tasks of all events.

Identifiers are natural numbers and `nextId` is the supply of fresh ones.  A service is a program
(`AwdM`) whose statements are the single database statements of the source, or the commit of one of
its transactions; `Stmt` names them.
-/

namespace FloatCtf.Awd

open Process

/-! ## Rows -/

/-- An AWD event with its configuration and its stage. -/
structure AwdEvent where
  eventId : Nat
  status : AwdEventStatus
  phase : AwdPhase
  roundDurationSecs : Int
  roundCount : Option Int
  initialScore : Int64
  judgeDefaultTimeoutSecs : Int
  judgeGracePeriodSecs : Int
  verifiedAt : Option Int
  verifiedRevision : Option String
  verifiedGeneration : Option Int
  configurationGeneration : Int
  pausedPhase : Option AwdPhase
  pauseRemainingSecs : Option Int
  hardeningEndsAt : Option Int
  startedAt : Option Int
  finishedAt : Option Int
  freeResetCount : Int := 3
  extraResetPenalty : Int64 := 100
  judgeMaxConcurrency : Int := 10
  judgeRetryIntervalSecs : Int := 5
  archiveRetentionHours : Int := 168
  deriving DecidableEq

/-- The columns of the generic `events` row that the AWD services read. -/
structure GenericEvent where
  startTime : Int
  endTime : Option Int
  deriving DecidableEq

/-- A round. -/
structure AwdRound where
  id : Nat
  roundNumber : Int
  status : RoundStatus
  phase : AwdPhase
  startedAt : Int
  scheduledEndAt : Int
  pausedAt : Option Int
  remainingSecs : Option Int
  completedAt : Option Int
  deriving DecidableEq

/-- A task of the scheduler. -/
structure ScheduledTask where
  id : Nat
  taskKey : TaskKey
  status : SchedStatus
  executeAt : Int
  roundId : Option Nat
  batchId : Option Nat
  attemptCount : Int
  maxAttempts : Int
  deriving DecidableEq

/-- The status of a batch. -/
inductive BatchStatus where
  | pending | completed
  deriving DecidableEq, Repr

/-- The judge tasks of a round as a batch. -/
structure JudgeBatch where
  id : Nat
  roundId : Nat
  totalTasks : Int
  completedTasks : Int
  failedTasks : Int
  status : BatchStatus
  deriving DecidableEq

/-- A judge task with its lease. -/
structure JudgeTask where
  id : Nat
  batchId : Nat
  eventId : Nat
  roundId : Nat
  gameboxInstanceId : Nat
  eventGameboxId : Option Nat
  teamId : Nat
  status : JudgeTaskStatus
  attemptCount : Int
  maxAttempts : Int
  deadlineAt : Int
  startedAt : Option Int
  finishedAt : Option Int
  exitCode : Option Int
  stdoutLimited : Option String
  stderrLimited : Option String
  durationMs : Option Int
  callbackIdempotencyKey : Option String
  workerId : Option String
  leaseTokenHash : Option String
  leaseExpiresAt : Option Int
  heartbeatAt : Option Int
  claimedAt : Option Int
  createdAt : Int
  deriving DecidableEq

/-- A team of the event. -/
structure EventTeam where
  id : Nat
  deriving DecidableEq

/-- An `awd_event_gameboxes` row; `specReady` says whether `resolve_event_gamebox_spec` accepts
the game box behind it. -/
structure EventGamebox where
  id : Nat
  attackScore : Int64
  judgeDownPenalty : Int64
  firstBonus : Int64
  specReady : Bool
  gameboxId : Nat := id
  hostOffset : Int := 2
  enabled : Bool := true
  hidden : Bool := false
  cpuMillis : Int := 0
  memoryBytes : Int := 0
  pidsLimit : Int := 100
  judgeTimeoutSecs : Option Int := none
  judgeRetryIntervalSecs : Option Int := none
  deriving DecidableEq

/-- A row of the game box library. -/
structure LibraryGamebox where
  id : Nat
  name : String
  buildStatus : Option String
  recommendedCpuMillis : Int
  recommendedMemoryBytes : Int
  recommendedPidsLimit : Int
  judgeTimeoutSecs : Option Int
  judgeRetryIntervalSecs : Option Int
  deriving DecidableEq

/-- An `event_gamebox_instances` row, with the owner that its `event_instances` row names. -/
structure GameboxInstance where
  id : Nat
  teamId : Nat
  eventGameboxId : Nat
  status : GameboxStatus
  ownerTeamId : Option Nat := some teamId
  deriving DecidableEq

/-- The ban of a team. -/
structure TeamBan where
  teamId : Nat
  status : BanStatus
  deriving DecidableEq

/-- The idempotency keys of the ledger, one constructor for each builder of the source. -/
inductive IdempotencyKey where
  | attack (eventId roundId attackerTeam instanceId : Nat)
  | victimLoss (eventId roundId attackerTeam instanceId : Nat)
  | firstBonus (eventId eventGameboxId : Nat)
  | judgeDown (taskId : Nat)
  | initialScore (eventId teamId : Nat)
  | reset (resetId : Nat)
  deriving DecidableEq

/-- A row of the score ledger. -/
structure ScoreEvent where
  id : Nat
  eventId : Nat
  roundId : Option Nat
  teamId : Nat
  eventType : ScoreEventType
  delta : Int64
  idempotencyKey : IdempotencyKey
  relatedTeamId : Option Nat
  gameboxInstanceId : Option Nat
  eventGameboxId : Option Nat
  reason : Option String
  deriving DecidableEq

/-- A flag that a team has captured. -/
structure FlagSubmission where
  id : Nat
  eventId : Nat
  roundId : Nat
  flagIssueId : Nat
  attackerTeamId : Nat
  victimTeamId : Nat
  gameboxInstanceId : Nat
  submittedByUserId : Nat
  deriving DecidableEq

/-- The team that a user plays for. -/
structure TeamMember where
  userId : Nat
  teamId : Nat
  deriving DecidableEq

/-- An `awd_flag_issues` row. -/
structure FlagIssue where
  id : Nat
  roundId : Nat
  gameboxInstanceId : Nat
  flagHash : String
  deriving DecidableEq

/-- How far a reset has come. -/
inductive ResetStatus where
  | pending | failed | completed
  deriving DecidableEq, Repr

/-- An `awd_reset_records` row. -/
structure ResetRecord where
  id : Nat
  teamId : Nat
  gameboxInstanceId : Nat
  requestedBy : Option Nat
  requestedByAdmin : Option Nat
  freeReset : Bool
  status : ResetStatus
  createdAt : Int
  completedAt : Option Int
  deriving DecidableEq

/-- The clock, the next id and the tables of one event. -/
structure Db where
  now : Int
  nextId : Nat
  event : AwdEvent
  generic : GenericEvent
  networkRow : Bool
  rounds : List AwdRound
  tasks : List ScheduledTask
  batches : List JudgeBatch
  judgeTasks : List JudgeTask
  teams : List EventTeam
  gameboxes : List EventGamebox
  instances : List GameboxInstance
  bans : List TeamBan
  submissions : List FlagSubmission
  scores : List ScoreEvent
  members : List TeamMember := []
  flagIssues : List FlagIssue := []
  library : List LibraryGamebox := []
  resetRecords : List ResetRecord := []

/-! ## Configuration -/

/-- The columns of the event and the game boxes that an administrator configures. -/
structure Configuration where
  roundCount : Option Int
  roundDurationSecs : Int
  initialScore : Int64
  freeResetCount : Int
  extraResetPenalty : Int64
  judgeMaxConcurrency : Int
  judgeDefaultTimeoutSecs : Int
  judgeRetryIntervalSecs : Int
  judgeGracePeriodSecs : Int
  archiveRetentionHours : Int
  gameboxes : List EventGamebox
  deriving DecidableEq

/-- The configuration of an event with its gameboxes. -/
def AwdEvent.configured (e : AwdEvent) (gameboxes : List EventGamebox) : Configuration :=
  { roundCount := e.roundCount, roundDurationSecs := e.roundDurationSecs
    initialScore := e.initialScore, freeResetCount := e.freeResetCount
    extraResetPenalty := e.extraResetPenalty, judgeMaxConcurrency := e.judgeMaxConcurrency
    judgeDefaultTimeoutSecs := e.judgeDefaultTimeoutSecs
    judgeRetryIntervalSecs := e.judgeRetryIntervalSecs
    judgeGracePeriodSecs := e.judgeGracePeriodSecs
    archiveRetentionHours := e.archiveRetentionHours, gameboxes }

/-- The configuration in force. -/
def Db.configuration (db : Db) : Configuration := db.event.configured db.gameboxes

/-- `AwdEventConfigPatch`; `none` leaves a column alone. -/
structure AwdEventConfigPatch where
  roundCount : Option Int := none
  roundDurationSecs : Option Int := none
  initialScore : Option Int64 := none
  freeResetCount : Option Int := none
  extraResetPenalty : Option Int64 := none
  judgeMaxConcurrency : Option Int := none
  judgeDefaultTimeoutSecs : Option Int := none
  judgeRetryIntervalSecs : Option Int := none
  judgeGracePeriodSecs : Option Int := none
  archiveRetentionHours : Option Int := none
  plannedStartAt : Option (Option Int) := none
  deriving DecidableEq

/-- `EventGameBoxPatch`, without the health checks, which the endpoint never changes. -/
structure EventGameboxPatch where
  enabled : Option Bool := none
  hidden : Option Bool := none
  cpuMillis : Option Int := none
  memoryBytes : Option Int := none
  pidsLimit : Option Int := none
  judgeTimeoutSecs : Option (Option Int) := none
  judgeRetryIntervalSecs : Option (Option Int) := none
  attackScore : Option Int64 := none
  judgeDownPenalty : Option Int64 := none
  firstBonus : Option Int64 := none
  deriving DecidableEq

/-- The three writes to `awd_event_gameboxes`; the row to add gets its id when it is inserted. -/
inductive GameboxEdit where
  | add (row : EventGamebox)
  | update (id : Nat) (patch : EventGameboxPatch)
  | delete (id : Nat)
  deriving DecidableEq

/-! ## Statements -/

/-- The calls that leave the database: one firewall reconcile for each place of the source, the
container listing and the WireGuard set-up of the recovery, and the reset of a container. -/
inductive Ext where
  | startEvent | startRound | endRound | pauseEvent | resumeEvent | finishEvent | hardeningEnd
  | recoverEvent | listContainers | ensureWireguard | resetGamebox
  deriving DecidableEq

/-- What a judge worker presents with a request: the task, its name, the attempt and the hash of the
lease token. -/
structure Lease where
  taskId : Nat
  workerId : String
  attempt : Int
  tokenHash : String
  deriving DecidableEq

/-- The result a worker reports for a task. -/
structure JudgeReport where
  resultId : String
  status : JudgeTaskStatus
  exitCode : Option Int
  stdout : Option String
  stderr : Option String
  durationMs : Option Int
  deriving DecidableEq

/-- The statements of the services.  Reads that nothing needs to tell apart share `select`; a write
to a judge task names the lease it is made for, if there is one, and the row as it was read, and the
second look-up of a submission the round of the first one.  A change of the configuration names what
it changes, a bump of its generation whether a game box was edited before it and the generation that
was read, and the verdict of a precheck what it has checked.  The record of a reset names the team,
whether the reset is charged to it and how many records were counted, and what follows the record and
whether it is free. -/
inductive Stmt where
  | clock
  | select
  | networkRevision
  | external (e : Ext)
  | transition (expected target : AwdEventStatus)
  | updatePhase
  | insertRound (n : Int)
  | completeRound (id : Nat)
  | pauseRound (id : Nat)
  | resumeRound (id : Nat)
  | scheduleTask
  | cancelTasks
  | fetchTask
  | markDone
  | resetTasks
  | seedScore
  | instanceStatus
  | batchSelect
  | insertBatch
  | insertJudgeTask
  | claimTasks (expired : List JudgeTask)
  | heartbeatTask (lease : Lease) (seen : JudgeTask)
  | readResult (lease : Lease) (report : JudgeReport)
  | submitResult (lease : Lease) (seen : JudgeTask) (report : JudgeReport)
  | releaseTask (lease : Lease) (seen : JudgeTask)
  | terminalizeTask (seen : JudgeTask)
  | completeBatch
  | scoreCheck (taskId : Nat)
  | banCheck (taskId teamId : Nat)
  | specCheck (taskId eventGameboxId : Nat)
  | scoreJudgeDown (taskId : Nat)
  | submissionRound (validated : Nat)
  | processSubmission
  | updateConfig (patch : AwdEventConfigPatch)
  | editGamebox (edit : GameboxEdit)
  | touchConfiguration (edited : Bool) (seen : Int)
  | precheckRun
  | recordVerified (seen : Configuration) (generation : Int)
  | insertReset (teamId : Nat) (charged : Bool) (used : Nat)
  | resetReady (resetId : Nat) (free : Bool)
  | runtimeRoot (resetId : Nat) (free : Bool)
  | resetPenalty (resetId : Nat)
  | resetFailed (resetId : Nat)
  | completeReset (resetId : Nat)
  deriving DecidableEq

/-- An operation, statement by statement. -/
abbrev AwdM := Prog Stmt Db AwdError

/-- What a service returns when the database answers a statement with an error. -/
def dbError : AwdError := .database "database error"

/-- A read that can fail. -/
def select {α : Type} (f : Db → α) : AwdM α := Prog.query .select dbError f

/-- `chrono::Utc::now()`. -/
def utcNow : AwdM Int := Prog.look .clock (·.now)

/-- A write that always applies. -/
def write (l : Stmt) (f : Db → Db) : AwdM Unit := Prog.exec l dbError fun db => .ok (f db, ())

/-- A row that must be there. -/
def orNotFound {α : Type} (msg : String) : Option α → AwdM α
  | none => .fail (.notFound msg)
  | some a => pure a

/-- A call that leaves the database; the environment decides whether it fails with `e`. -/
def call (x : Ext) (e : AwdError) : AwdM Unit :=
  Prog.exec (.external x) e fun db => .ok (db, ())

/-! ## Runs on a working database -/

/-- The database answers every statement and `up` says which external calls succeed. -/
def answers (up : Ext → Bool) : Stmt → Bool
  | .external x => up x
  | _ => true

variable (up : Ext → Bool)

@[simp] theorem run_select {α : Type} (f : Db → α) (db : Db) :
    (select f).run (answers up) db = (db, .ok (f db)) := Prog.run_query _ rfl _ _ _

@[simp] theorem run_utcNow (db : Db) : utcNow.run (answers up) db = (db, .ok db.now) :=
  Prog.run_look _ _ _ _

theorem run_write {l : Stmt} (h : answers up l = true) (f : Db → Db) (db : Db) :
    (write l f).run (answers up) db = (f db, .ok ()) := Prog.run_exec _ h _ _ _

@[simp] theorem run_call (x : Ext) (e : AwdError) (db : Db) :
    (call x e).run (answers up) db = (db, if up x then .ok () else .error e) := by
  by_cases h : up x = true <;> simp [call, Prog.exec, Prog.run, Prog.after, Prog.answer, answers, h]

end FloatCtf.Awd
