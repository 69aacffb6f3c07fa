import FloatCtf.Net.Text
import FloatCtf.Process.Trace
import Mathlib.Algebra.Group.Nat.Defs

/-!
# The worker of an AWD JudgeServer

One claimed task: `execute_single_task` with `deliver_result`, and the heartbeat loop that runs
beside it.  They share a flag, and the task aborts the loop when the script is over.  The scheduler
gives turns to the two sides in any order; a turn goes from one suspension to the next one, and what
the file system, the script and the platform answer is a parameter.
-/

namespace FloatCtf.Awd.JudgeWorker

open Process

/-! ## Outcomes and outputs -/

/-- The outcome for an exit code. -/
def exitCodeToOutcome (exitCode : Int) : String :=
  match exitCode with
  | 0 => "up"
  | 1 => "down"
  | _ => "worker_error"

/-- The longest output in bytes. -/
def outputMaxLen : Nat := 4096

/-- The note behind an output that was cut. -/
def truncationNote (bytes : Nat) : String := s!"... (truncated, {bytes} bytes total)"

/-- `truncate_str`; `none` is a panic. -/
def truncateStr (s : String) (maxLen : Nat) : Option String := Text.truncate truncationNote s maxLen

/-! ## The protocol -/

/-- A task as its worker has claimed it. -/
structure ClaimedTask where
  attempt : Int
  leaseToken : String

/-- The result of a task as it is posted. -/
structure JudgeResultRequest where
  workerId : String
  attempt : Int
  leaseToken : String
  resultId : String
  outcome : String
  exitCode : Option Int
  stdout : Option String
  stderr : Option String
  durationMs : Option Int
  deriving DecidableEq

/-- How a heartbeat is answered. -/
inductive HeartbeatStatus where
  | ok
  | stale
  | notFound
  | error
  deriving DecidableEq

/-- How a result is answered. -/
inductive SubmitStatus where
  | ok
  | idempotent
  | stale
  | notFound
  | error
  deriving DecidableEq

/-- The answers after which `deliver_result` returns; `Error` and a network failure are retried. -/
def Final : Except String SubmitStatus → Prop
  | .ok .error | .error _ => False
  | .ok _ => True

instance : DecidablePred Final
  | .ok .error | .error _ => .isFalse id
  | .ok .ok | .ok .idempotent | .ok .stale | .ok .notFound => .isTrue trivial

/-- A result is posted once and three times again. -/
def resultMaxAttempts : Nat := 4

/-- The waits between the attempts. -/
def resultRetryDelaysSecs : List Nat := [1, 2, 4]

/-! ## What happens around a task -/

/-- What becomes of a script that was started; there is no exit code after a signal. -/
inductive ScriptEnd where
  | exited (code : Option Int) (stdout stderr : List UInt8)
  | waitFailed (e : String)
  | timedOut

/-- What the task meets: whether its file can be written, whether it starts, how it ends and after
how long, and the answer to each of its result requests. -/
structure Behaviour where
  write : Except String Unit
  spawn : Except String Unit
  script : ScriptEnd
  elapsedMs : Nat
  answers : Nat → Except String SubmitStatus

/-- A turn of the task, or of the heartbeat loop, which has got an answer. -/
inductive Turn where
  | task
  | heartbeat (answer : Except String HeartbeatStatus)

/-- The turn is the task's. -/
def Turn.isTask : Turn → Bool
  | .task => true
  | .heartbeat _ => false

/-- What can be seen of a task; `scriptEnded` is also the end of a script that does not start. -/
inductive Event where
  | heartbeat (answer : Except String HeartbeatStatus)
  | scriptEnded
  | sent (request : JudgeResultRequest)
  | answered (answer : Except String SubmitStatus)

/-- Where the heartbeat loop stands: an aborted one ends at its next suspension. -/
inductive Loop where
  | idle
  | running
  | aborted
  | ended
  deriving DecidableEq

/-- Where `execute_single_task` stands: `delivering` is about to make a request, `waiting` for the
answer to it. -/
inductive Stage where
  | writing
  | spawning
  | running
  | checking (request : JudgeResultRequest)
  | delivering (request : JudgeResultRequest) (attempt : Nat)
  | waiting (request : JudgeResultRequest) (attempt : Nat)
  | returned
  | panicked

/-- The task, the heartbeats beside it, and what has been done. -/
structure State where
  stage : Stage
  loop : Loop
  ownershipStale : Bool
  permit : Bool
  log : List Event

/-- The permit was acquired before the task was spawned. -/
def start : State where
  stage := .writing
  loop := .idle
  ownershipStale := false
  permit := true
  log := []

/-! ## The heartbeat loop -/

/-- An answer of the platform.  A loop that was aborted while it was at work still handles it. -/
def heartbeatLoop (answer : Except String HeartbeatStatus) (s : State) : State :=
  let stale := s.ownershipStale || answer matches .ok .stale
  let log := s.log ++ [.heartbeat answer]
  match s.loop with
  | .running =>
    match answer with
    | .ok .stale | .ok .notFound => { s with loop := .ended, ownershipStale := stale, log }
    | _ => { s with log }
  | .aborted => { s with loop := .ended, ownershipStale := stale, log }
  | .idle | .ended => s

/-- `heartbeat_handle.abort()`. -/
def Loop.abort : Loop → Loop
  | .running => .aborted
  | l => l

/-! ## The task -/

/-- The request of `deliver_result`, the same one for every attempt. -/
def resultRequest (workerId : String) (task : ClaimedTask) (resultId outcome : String)
    (exitCode : Option Int) (stdout stderr : Option String) (durationMs : Option Int) :
    JudgeResultRequest where
  workerId := workerId
  attempt := task.attempt
  leaseToken := task.leaseToken
  resultId := resultId
  outcome := outcome
  exitCode := exitCode
  stdout := stdout
  stderr := stderr
  durationMs := durationMs

variable (workerId : String) (task : ClaimedTask) (resultId : String) (b : Behaviour)

/-- What is reported of a script that has ended; `none` is the panic of a cut inside a character. -/
def scriptReport : Option JudgeResultRequest :=
  let durationMs := some ((b.elapsedMs : Int).bmod (2 ^ 32))
  match b.script with
  | .exited code stdout stderr =>
    let ec := code.getD (-1)
    match truncateStr (Text.decodeLossy stdout) outputMaxLen,
      truncateStr (Text.decodeLossy stderr) outputMaxLen with
    | some out, some err =>
      some (resultRequest workerId task resultId (exitCodeToOutcome ec) (some ec) (some out)
        (some err) durationMs)
    | _, _ => none
  | .waitFailed e =>
    some (resultRequest workerId task resultId "worker_error" none none
      (some s!"Child wait error: {e}") durationMs)
  | .timedOut =>
    some (resultRequest workerId task resultId "target_timeout" none none
      (some "Execution timed out") durationMs)

/-- The end of the task: what it owns is dropped, and its permit with it. -/
def State.finish (s : State) : State := { s with stage := .returned, permit := false }

/-- A panic drops the handle of the heartbeat loop, which detaches the loop and does not end it. -/
def State.panic (s : State) : State := { s with stage := .panicked, permit := false }

/-- One pass of the loop of `deliver_result`, up to its request. -/
def deliver (request : JudgeResultRequest) (attempt : Nat) (s : State) : State :=
  if resultMaxAttempts < attempt then s.finish
  else if 1 < attempt ∧ resultRetryDelaysSecs[attempt - 2]? = none then s.panic
  else { s with stage := .waiting request attempt, log := s.log ++ [.sent request] }

/-- One turn of the task. -/
def executeSingleTask (s : State) : State :=
  match s.stage with
  | .writing =>
    match b.write with
    | .error e =>
      { s with
        stage := .delivering (resultRequest workerId task resultId "worker_error" none none
          (some s!"Script write error: {e}") none) 1 }
    | .ok _ => { s with stage := .spawning, loop := .running }
  | .spawning =>
    match b.spawn with
    | .error e =>
      { s with
        loop := s.loop.abort
        log := s.log ++ [.scriptEnded]
        stage := .delivering (resultRequest workerId task resultId "worker_error" none none
          (some s!"Execution error: {e}") none) 1 }
    | .ok _ => { s with stage := .running }
  | .running =>
    match scriptReport workerId task resultId b with
    | none => State.panic { s with log := s.log ++ [.scriptEnded] }
    | some request =>
      { s with loop := s.loop.abort, log := s.log ++ [.scriptEnded], stage := .checking request }
  | .checking request =>
    if s.ownershipStale then s.finish else { s with stage := .delivering request 1 }
  | .delivering request attempt => deliver request attempt s
  | .waiting request attempt =>
    let s := { s with log := s.log ++ [Event.answered (b.answers attempt)] }
    if Final (b.answers attempt) then s.finish
    else { s with stage := .delivering request (attempt + 1) }
  | .returned | .panicked => s

/-- One turn of the task or of the heartbeats. -/
def step (s : State) : Turn → State
  | .task => executeSingleTask workerId task resultId b s
  | .heartbeat answer => heartbeatLoop answer s

/-- The state behind a list of turns. -/
def run (turns : List Turn) : State := turns.foldl (step workerId task resultId b) start

end FloatCtf.Awd.JudgeWorker
