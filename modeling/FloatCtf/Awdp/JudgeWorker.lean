import FloatCtf.Awdp.Evaluation

/-!
# Official evaluations of a JudgeServer

A JudgeServer claims evaluations over the internal routes, extends its leases and reports verdicts.
An evaluation of a round without a patch is settled while it is claimed; a reported verdict is
written first, and the score of a patched instance after it.
-/

namespace FloatCtf.Awdp

open Process

/-- A job of the answer to a claim; the payload that the worker evaluates is left out. -/
structure ClaimJobDto where
  evaluationId : Nat
  attempt : Int
  leaseToken : String
  runId : Nat
  roundId : Option Nat
  instanceId : Nat
  runtimeGeneration : Int
  deriving DecidableEq

/-- The settlement of an evaluation without a patch, under the lease of the claim. -/
def shortCircuit (c : Settings) (workerId : String) (job : ClaimedJob) (run : Run) (roundId : Nat)
    (ext : Instance) : AwdpM Unit := do
  penalizePractice run roundId ext
  let _ ← finishWithLease c (.inProcess none) (job.lease workerId) .noPatch
    ⟨some "no applied patch this round", none, none, none, none⟩

/-- The job as it is sent to a worker. -/
def jobDto (job : ClaimedJob) (run : Run) (inst : Instance) : ClaimJobDto where
  evaluationId := job.evaluation.id
  attempt := job.attempt
  leaseToken := job.leaseToken
  runId := run.id
  roundId := job.evaluation.fixRoundId
  instanceId := job.evaluation.instanceId
  runtimeGeneration := inst.runtimeGeneration

/-- The turn of `claim_jobs` for one claimed evaluation; `none` when it was settled. -/
def buildJob (c : Settings) (workerId : String) (job : ClaimedJob) : AwdpM (Option ClaimJobDto) := do
  let ev := job.evaluation
  let inst ← findByInstanceId ev.instanceId
  let run ← requireRun inst.runId
  let _ ← findGameboxIdentity inst.gameboxId
  match ev.kind, ev.fixRoundId with
  | .official, some roundId => do
    if !(← hasAppliedPatch ev.instanceId roundId) then do
      shortCircuit c workerId job run roundId inst
      pure none
    else pure (some (jobDto job run inst))
  | _, _ => pure (some (jobDto job run inst))

/-- The turns of `claim_jobs`, one after the other. -/
def buildJobs (c : Settings) (workerId : String) : List ClaimedJob → AwdpM (List ClaimJobDto)
  | [] => pure []
  | job :: jobs => do
    let dto ← buildJob c workerId job
    let dtos ← buildJobs c workerId jobs
    pure (dto.toList ++ dtos)

/-- `judge_worker::claim_jobs`. -/
def judgeClaimJobs (c : Settings) (workerId : String) (capacity : Nat) (eventId : Option Nat)
    (skipped : List Nat) (draw : Draw) : AwdpM (List ClaimJobDto) := do
  let claimed ← claimJobs c ⟨workerId, capacity, [.official], eventId, skipped⟩ draw
  buildJobs c workerId claimed

/-- A result as a worker posts it. -/
structure ResultRequest where
  evaluationId : Nat
  workerId : String
  leaseToken : String
  attempt : Int
  runtimeGeneration : Int
  status : String
  outputs : Outputs
  deriving DecidableEq

/-- The lease that a result refers to. -/
def ResultRequest.lease (r : ResultRequest) : Lease where
  evaluationId := r.evaluationId
  workerId := r.workerId
  token := r.leaseToken
  attempt := r.attempt

/-- The answer to a result whose lease is over. -/
def staleResult : AwdpError :=
  .conflict "stale worker result rejected (lease/token/attempt mismatch)"

/-- The answer to a result of another container. -/
def staleGeneration (job current : Int) : AwdpError :=
  .conflict s!"stale runtime_generation: job={job} current={current}"

/-- What the outcome of a result is answered. -/
def acceptOutcome : FinishOutcome → AwdpM Unit
  | .ok => pure ()
  | .staleRejected => .fail staleResult

/-- The score of a verdict that was accepted. -/
def scoreVerdict (ev : Evaluation) (status : EvaluationStatus) : AwdpM Unit := do
  if status = .patched ∧ ev.kind = .official then
    match ev.fixRoundId with
    | none => .fail roundMissing
    | some roundId => do
      let run ← requireRun ev.runId
      let ext ← findByInstanceId ev.instanceId
      let _ ← createScoreEvent (fixScore run roundId ext run.config.fixRoundScore)
  else pure ()

/-- The write of a result: an infrastructure failure gives the evaluation back, a verdict is written
and then scored. -/
def writeResult (c : Settings) (r : ResultRequest) (examined : List Applied) (ev : Evaluation)
    (status : EvaluationStatus) : AwdpM Unit :=
  if status = .platformError then do
    acceptOutcome (← releaseOrFail c (.judgeServer r.runtimeGeneration examined) r.lease
      ((r.outputs.stderr <|> r.outputs.judge).getD "platform error"))
  else do
    acceptOutcome (← finishWithLease c (.judgeServer r.runtimeGeneration examined) r.lease status
      r.outputs)
    scoreVerdict ev status

/-- `record_result`; `examined` is what the container held when the JudgeServer examined it. -/
def recordResult (c : Settings) (r : ResultRequest) (examined : List Applied) : AwdpM Unit := do
  let ev ← findEvaluation r.evaluationId
  let inst ← findByInstanceId ev.instanceId
  if inst.runtimeGeneration ≠ r.runtimeGeneration then
    .fail (staleGeneration r.runtimeGeneration inst.runtimeGeneration)
  else
    match parseTerminalStatus r.status with
    | .error e => .fail e
    | .ok status => writeResult c r examined ev status

end FloatCtf.Awdp
