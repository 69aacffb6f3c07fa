import FloatCtf.Awdp.VerdictSoundness
import FloatCtf.Process.Trace

/-!
# The jobs of a JudgeServer

`pull_loop` asks the platform for jobs and spawns a task `execute_job` for each of them, on one
thread: the tasks run when the loop waits.  A task waits for a permit, counts itself as in flight,
runs its job and posts the result.
-/

namespace FloatCtf.Awdp.PullLoop

open JudgeServer Process

/-- `size` is the size of the semaphore. -/
structure AppState where
  workerId : String
  size : Nat
  claimBatch : Nat

/-- A job that was claimed. -/
structure ClaimedJob where
  evaluationId : Nat
  attempt : Int
  leaseToken : String
  runtimeGeneration : Int
  payload : Job

/-- The result of a job as it is posted. -/
structure ResultRequest where
  evaluationId : Nat
  workerId : String
  leaseToken : String
  attempt : Int
  runtimeGeneration : Int
  status : EvaluationStatus
  healthcheckResult : Option String
  judgeResult : Option String
  exploitResult : Option String
  stdoutLimited : Option String
  stderrLimited : Option String

/-- The answer to a result: an HTTP status, or no answer. -/
inductive Answer where
  | http (status : Nat)
  | network
  deriving DecidableEq

/-- Where a task stands: `queued` waits for a permit, `granted` has been handed one and has not run
since, `posting` waits for the answer to an attempt. -/
inductive Stage where
  | spawned
  | queued
  | granted
  | running
  | posting (request : ResultRequest) (attempt : Nat)
  | ended
  | panicked

/-- `answers` are the answers to its result requests. -/
structure Task where
  job : ClaimedJob
  stage : Stage
  answers : List Answer

/-- The loop sleeps, or waits for the answer to a claim. -/
inductive Loop where
  | sleeping
  | asking (capacity : Nat)

/-- `queue` are the tasks that wait for a permit, and `asked` has for each iteration of the loop the
unfinished jobs at its start and what it asks for. -/
structure State where
  tasks : List Task
  permits : Nat
  queue : List Nat
  inflight : Nat
  loop : Loop
  asked : List (Nat × Option Nat)

/-- The task has its permit and is not over. -/
def Task.isBegun (t : Task) : Bool :=
  match t.stage with
  | .running | .posting _ _ => true
  | _ => false

/-- The task is not over. -/
def Task.isUnfinished (t : Task) : Bool :=
  match t.stage with
  | .ended | .panicked => false
  | _ => true

/-- The number of jobs that have begun. -/
def State.begun (s : State) : Nat := s.tasks.countP Task.isBegun

/-- The number of jobs that are not over. -/
def State.unfinished (s : State) : Nat := s.tasks.countP Task.isUnfinished

/-! ## The loop -/

/-- One iteration of `pull_loop`, up to its claim. -/
def iterate (c : AppState) (s : State) : State :=
  let available := s.permits - s.inflight
  let capacity := if 0 < available then some (min available c.claimBatch) else none
  { s with
    asked := s.asked ++ [(s.unfinished, capacity)]
    loop := (capacity.map Loop.asking).getD .sleeping }

/-- A task that has just been spawned. -/
def Task.spawn (job : ClaimedJob) : Task := ⟨job, .spawned, []⟩

/-- The answer to a claim, with at most as many jobs as were asked for.  After an answer with jobs
the loop goes on at once, before the tasks it has spawned can run. -/
def claimed (c : AppState) (jobs : List ClaimedJob) (s : State) : State :=
  match s.loop with
  | .sleeping => s
  | .asking capacity =>
    if capacity < jobs.length then s
    else
      match jobs with
      | [] => { s with loop := .sleeping }
      | _ :: _ => iterate c { s with tasks := s.tasks ++ jobs.map Task.spawn }

/-! ## The tasks -/

/-- Moves a task on. -/
def State.setStage (s : State) (i : Nat) (t : Task) (stage : Stage) : State :=
  { s with tasks := s.tasks.set i { t with stage } }

/-- The permit of a task is dropped: it goes to the task that waits longest. -/
def release (s : State) : State :=
  match s.queue with
  | [] => { s with permits := s.permits + 1 }
  | i :: queue => { s with queue, tasks := s.tasks.modify i ({ · with stage := .granted }) }

/-- A task with a permit begins. -/
def beginJob (i : Nat) (t : Task) (s : State) : State :=
  { s.setStage i t .running with inflight := s.inflight + 1 }

/-- The start of `execute_job`, up to its job. -/
def poll (i : Nat) (s : State) : State :=
  match s.tasks[i]? with
  | none => s
  | some t =>
    match t.stage with
    | .spawned =>
      if 0 < s.permits then beginJob i t { s with permits := s.permits - 1 }
      else { s.setStage i t .queued with queue := s.queue ++ [i] }
    | .granted => beginJob i t s
    | _ => s

/-- The request for an outcome; a panic has none. -/
def resultRequest (c : AppState) (job : ClaimedJob) : JobOutcome → Option ResultRequest
  | .business status healthcheck judge exploit stdout stderr => some {
      evaluationId := job.evaluationId
      workerId := c.workerId
      leaseToken := job.leaseToken
      attempt := job.attempt
      runtimeGeneration := job.runtimeGeneration
      status
      healthcheckResult := healthcheck
      judgeResult := judge
      exploitResult := exploit
      stdoutLimited := stdout
      stderrLimited := stderr }
  | .infrastructure message => some {
      evaluationId := job.evaluationId
      workerId := c.workerId
      leaseToken := job.leaseToken
      attempt := job.attempt
      runtimeGeneration := job.runtimeGeneration
      status := .platformError
      healthcheckResult := none
      judgeResult := none
      exploitResult := none
      stdoutLimited := none
      stderrLimited := some message }
  | .panicked => none

/-- The end of `run_job`, and the first request of its result.  A panic drops the permit of the
task, and nothing else. -/
def ran (c : AppState) (fromStr : FromStr) (i : Nat) (o : Observation) (s : State) : State :=
  match s.tasks[i]? with
  | none => s
  | some t =>
    match t.stage with
    | .running =>
      match resultRequest c t.job (runJob fromStr t.job.payload o) with
      | none => release (s.setStage i t .panicked)
      | some request => s.setStage i t (.posting request 1)
    | _ => s

/-- A result is posted once and three times again. -/
def maxRequests : Nat := 4

/-- The end of `execute_job`. -/
def finish (i : Nat) (t : Task) (s : State) : State :=
  release { s.setStage i t .ended with inflight := s.inflight - 1 }

/-- The answer to a result request: every status ends the loop, only a missing answer is retried. -/
def answered (i : Nat) (answer : Answer) (s : State) : State :=
  match s.tasks[i]? with
  | none => s
  | some t =>
    match t.stage with
    | .posting request attempt =>
      let t := { t with answers := t.answers ++ [answer] }
      match answer with
      | .http _ => finish i t s
      | .network =>
        if attempt < maxRequests then s.setStage i t (.posting request (attempt + 1))
        else finish i t s
    | _ => s

/-! ## Runs -/

/-- What can happen next. -/
inductive Act where
  | wake
  | claimed (jobs : List ClaimedJob)
  | claimFailed
  | poll (i : Nat)
  | ran (i : Nat) (o : Observation)
  | answered (i : Nat) (answer : Answer)

/-- One step of the loop, of a task or of the platform. -/
def step (c : AppState) (fromStr : FromStr) (s : State) : Act → State
  | .wake =>
    match s.loop with
    | .sleeping => iterate c s
    | .asking _ => s
  | .claimed jobs => claimed c jobs s
  | .claimFailed => { s with loop := .sleeping }
  | .poll i => poll i s
  | .ran i o => ran c fromStr i o s
  | .answered i answer => answered i answer s

/-- The loop is about to make its first iteration. -/
def start (c : AppState) : State where
  tasks := []
  permits := c.size
  queue := []
  inflight := 0
  loop := .sleeping
  asked := []

/-- The state behind a list of acts. -/
def run (c : AppState) (fromStr : FromStr) (acts : List Act) : State :=
  acts.foldl (step c fromStr) (start c)

end FloatCtf.Awdp.PullLoop
