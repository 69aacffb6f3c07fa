import FloatCtf.Awdp.EvaluationRepo

/-!
# Official evaluations of the platform

The checks of an evaluation (`run_checks`), the pipeline of the worker of the platform, which writes
the score before the verdict, and the check of all rounds of a practice run.  What Docker and the
scripts answer is an argument, the `Probe`.
-/

namespace FloatCtf.Awdp

open Process

/-! ## Checks -/

/-- What a script says of one target. -/
structure BatchResult where
  ip : String
  success : Bool
  error : Option String
  deriving DecidableEq

/-- The answers of Docker and of the data plane: the address of the container, the parsed health
checks, their outcome and the output of the two scripts. -/
structure Probe where
  inspect : Except String (Option String)
  healthchecks : Except AwdpError Unit
  health : Bool × List String
  judge : Except String (Except String (List BatchResult))
  exploit : Except String (Except String (List BatchResult))

/-- `examined` is the instance as it was when it was examined. -/
structure CheckOutcome where
  status : EvaluationStatus
  healthcheckDetail : String
  judgeDetail : String
  exploitDetail : String
  examined : Option Instance
  deriving DecidableEq

/-- `has_applied_patch`: a patch of the round that was applied by its cutoff. -/
def hasAppliedPatch (instanceId fixRoundId : Nat) : AwdpM Bool := do
  let round ← ofOption "未找到该修复回合" (← select (·.roundById fixRoundId))
  select fun db => db.patches.any fun p => p.instanceId = instanceId ∧
    p.fixRoundId = some fixRoundId ∧ p.status = .applied ∧ p.appliedAt.any (· ≤ round.cutoffAt)

/-- The row of the target in the output of a script. -/
def targetRow (ip : String) (rows : List BatchResult) : Option BatchResult :=
  (rows.find? fun r => r.ip = ip ∨ r.ip = "") <|> rows.head?

/-- The outcome of a script: `name` is its name in the messages, `said` the text of a row that has
none. -/
def scriptOutcome (name : String) (said : Bool → String) (ip : String) :
    Except String (List BatchResult) → Bool × String
  | .error e => (false, s!"{name} 输出解析失败: {e}")
  | .ok rows =>
    match targetRow ip rows with
    | none => (false, s!"{name} 无该目标结果")
    | some r => (r.success, r.error.getD (said r.success))

/-- Run a script against the container. -/
def runScript (name : String) (said : Bool → String) (missing down : String)
    (script ip : Option String) (out : Except String (Except String (List BatchResult))) :
    Except AwdpError (Bool × String) :=
  match script, ip with
  | some _, some ip =>
    match out with
    | .error e => .error (.internal s!"{name} runner: {e}")
    | .ok out => .ok (scriptOutcome name said ip out)
  | none, _ => .ok (false, missing)
  | _, none => .ok (false, down)

/-- The judge of the worker of the platform. -/
def runJudge (gamebox : Gamebox) (ip : Option String) (probe : Probe) :
    Except AwdpError (Bool × String) :=
  runScript "judge" (fun ok => "judge: " ++ if ok then "PASS" else "FAIL")
    "GameBox 无 judge 脚本" "容器未运行，无法 judge" gamebox.judgeScript ip probe.judge

/-- The exploit of the worker of the platform. -/
def runExploit (gamebox : Gamebox) (ip : Option String) (probe : Probe) :
    Except AwdpError (Bool × String) :=
  runScript "exploit" (fun _ => "exploit executed") "GameBox 无 [awdp] exploit 脚本"
    "容器未运行，无法执行 exploit" gamebox.exploitScript ip probe.exploit

/-- The address of a container that is running. -/
def containerIp (i : Instance) (probe : Probe) : Except AwdpError (Option String) :=
  if i.runtimeState = .running then
    match probe.inspect with
    | .error e => .error (.docker s!"inspect for eval: {e}")
    | .ok ip => .ok ip
  else .ok none

/-- The health checks; without an address none can be made. -/
def probeHealth (ip : Option String) (probe : Probe) : Bool × List String :=
  if ip.isSome then probe.health else (false, ["容器未运行，无法 healthcheck"])

/-- The exploit of a container that is healthy and passes the judge. -/
def examineExploit (gamebox : Gamebox) (ip : Option String) (seen : Option Instance)
    (probe : Probe) (health judge : String) : Except AwdpError CheckOutcome := do
  let (exploitOk, exploit) ← runExploit gamebox ip probe
  .ok ⟨if exploitOk then .vulnerable else .patched, health, judge, exploit, seen⟩

/-- The judge and the exploit of a container that is healthy. -/
def examineJudge (gamebox : Gamebox) (ip : Option String) (seen : Option Instance)
    (probe : Probe) (health : String) : Except AwdpError CheckOutcome := do
  let (judgeOk, judge) ← runJudge gamebox ip probe
  if judgeOk then examineExploit gamebox ip seen probe health judge
  else .ok ⟨.functionalBroken, health, judge, "", seen⟩

/-- Health check, judge and exploit of a container, in this order. -/
def examine (gamebox : Gamebox) (i : Instance) (seen : Option Instance) (probe : Probe) :
    Except AwdpError CheckOutcome := do
  let ip ← containerIp i probe
  probe.healthchecks
  let (healthOk, health) := probeHealth ip probe
  if healthOk then examineJudge gamebox ip seen probe ("; ".intercalate health)
  else .ok ⟨.serviceDown, "; ".intercalate health, "", "", seen⟩

/-- `run_checks`. -/
def runChecks (gamebox : Gamebox) (instanceId : Nat) (round : FixRound) (probe : Probe) :
    AwdpM CheckOutcome := do
  if !(← hasAppliedPatch instanceId round.id) then
    pure ⟨.noPatch, "no applied patch this round", "", "", none⟩
  else do
    let i ← findByInstanceId instanceId
    let _ ← requireRun round.runId
    let seen ← Prog.look (.observe instanceId) (·.instanceById instanceId)
    ofExcept (examine gamebox i seen probe)

/-! ## The pipeline of the worker -/

/-- The score of a round for the owner of the instance. -/
def fixScore (run : Run) (roundId : Nat) (ext : Instance) (delta : Int) : NewScore where
  runId := run.id
  userId := ext.ownerUserId
  teamId := ext.ownerTeamId
  gameboxId := ext.gameboxId
  scoreType := .fix
  fixRoundId := some roundId
  delta := delta
  idempotencyKey := .fix run.id roundId ext.id

/-- `score_fix_penalty`. -/
def scoreFixPenalty (run : Run) (roundId : Nat) (ext : Instance) : AwdpM Unit := do
  let _ ← createScoreEvent (fixScore run roundId ext (-defaultFixRoundPenalty))

/-- A failed check costs a practice run the penalty. -/
def penalizePractice (run : Run) (roundId : Nat) (ext : Instance) : AwdpM Unit :=
  if run.practice then scoreFixPenalty run roundId ext else pure ()

/-- `finish_eval`: under the lease if there is one; a stale result is only logged. -/
def finishEval (c : Settings) (l : Lease) (o : CheckOutcome) (outputs : Outputs) : AwdpM Unit := do
  if l.token = "" then finish l.evaluationId o.status outputs
  else do let _ ← finishWithLease c (.inProcess o.examined) l o.status outputs

/-- A failed check: the penalty, and then the verdict. -/
def settleFailed (c : Settings) (run : Run) (round : FixRound) (ext : Instance) (l : Lease)
    (o : CheckOutcome) (outputs : Outputs) : AwdpM EvaluationStatus := do
  penalizePractice run round.id ext
  finishEval c l o outputs
  pure o.status

/-- Settles an official evaluation: its verdict with its score, or its failure. -/
def settleOutcome (c : Settings) (run : Run) (round : FixRound) (ext : Instance) (l : Lease)
    (o : CheckOutcome) : AwdpM EvaluationStatus :=
  match o.status with
  | .noPatch =>
    settleFailed c run round ext l o ⟨some o.healthcheckDetail, none, none, none, none⟩
  | .serviceDown =>
    settleFailed c run round ext l o ⟨some o.healthcheckDetail, none, none, none, none⟩
  | .functionalBroken =>
    settleFailed c run round ext l o
      ⟨some o.healthcheckDetail, some o.judgeDetail, none, none, none⟩
  | .vulnerable =>
    settleFailed c run round ext l o
      ⟨some o.healthcheckDetail, some o.judgeDetail, some o.exploitDetail, none, none⟩
  | .patched => do
    let _ ← createScoreEvent (fixScore run round.id ext run.config.fixRoundScore)
    finishEval c l o
      ⟨some o.healthcheckDetail, some o.judgeDetail, some o.exploitDetail, none, none⟩
    pure o.status
  | other => .fail (.internal s!"unexpected check outcome status {other.debug}")

/-- `run_official_pipeline`. -/
def runOfficialPipeline (c : Settings) (run : Run) (gamebox : Gamebox) (ev : Evaluation)
    (round : FixRound) (l : Lease) (probe : Probe) : AwdpM EvaluationStatus := do
  let ext ← findByInstanceId ev.instanceId
  let o ← runChecks gamebox ev.instanceId round probe
  settleOutcome c run round ext l o

/-- An official evaluation without a round. -/
def roundMissing : AwdpError := .internal "official evaluation missing fix_round_id"

/-- `process_official_locked`. -/
def processOfficialLocked (c : Settings) (ev : Evaluation) (l : Lease) (probe : Probe) :
    AwdpM Unit := do
  let ext ← findByInstanceId ev.instanceId
  let run ← requireRun ext.runId
  let gamebox ← findGameboxIdentity ext.gameboxId
  match ev.fixRoundId with
  | none => .fail roundMissing
  | some roundId => do
    let round ← findRound roundId
    let _ ← runOfficialPipeline c run gamebox ev round l probe

/-- `process_official_leased`, with the instance as it was when the lock was taken. -/
def processOfficialLeased (c : Settings) (ev : Evaluation) (l : Lease) (probe : Probe) :
    AwdpM (Option Instance × Except AwdpError Unit) :=
  withLock ev.instanceId do
    let seen ← Prog.look (.observe ev.instanceId) (·.instanceById ev.instanceId)
    let result ← (processOfficialLocked c ev l probe).attempt
    pure (seen, result)

/-- The lease that was claimed with the job. -/
def ClaimedJob.lease (job : ClaimedJob) (workerId : String) : Lease where
  evaluationId := job.evaluation.id
  workerId := workerId
  token := job.leaseToken
  attempt := job.attempt

/-- A failure gives the evaluation back; `seen` is the instance that it was about. -/
def giveBack (c : Settings) (seen : Option Instance) (l : Lease) (e : AwdpError) : AwdpM Unit := do
  let _ ← (releaseOrFail c (.inProcess seen) l e.display).attempt

/-- One claimed evaluation of a worker round. -/
def processJob (c : Settings) (workerId : String) (probe : Nat → Probe) (job : ClaimedJob) :
    AwdpM Unit := do
  let l := job.lease workerId
  match ← (processOfficialLeased c job.evaluation l (probe job.evaluation.id)).attempt with
  | .ok (_, .ok _) => pure ()
  | .ok (seen, .error e) => giveBack c seen l e
  | .error e => giveBack c none l e

/-- `worker_round`. -/
def workerRound (c : Settings) (workerId : String) (concurrency : Nat) (skipped : List Nat)
    (draw : Draw) (probe : Nat → Probe) : AwdpM Unit := do
  let claimed ← claimJobs c ⟨workerId, concurrency, [.official], none, skipped⟩ draw
  Prog.each claimed (processJob c workerId probe)

/-! ## The check of all rounds -/

/-- The round of a practice run whose turn it is: the lowest one that is not completed. -/
def nextDueRound (runId : Nat) : AwdpM (Option FixRound) :=
  select fun db => (((db.rounds.filter fun r => r.runId = runId ∧ r.status ≠ .completed)).insertionSort
    fun a b => a.sequence ≤ b.sequence).head?

/-- The round of a run with this number. -/
def findBySequence (runId : Nat) (sequence : Int) : AwdpM (Option FixRound) :=
  select fun db => db.rounds.find? fun r => r.runId = runId ∧ r.sequence = sequence

/-- `end_practice_session`. -/
def endPracticeSession (runId : Nat) : AwdpM Unit :=
  Prog.exec (.endPractice runId) dbError fun db =>
    match db.runById runId with
    | none => .error (.notFound "未找到该 AWDP 运行")
    | some run =>
      if !run.practice then .error (.invalidState "只有练习 run 支持 End")
      else if run.phase = .ended then .ok (db, ())
      else .ok ({ db with runs := db.runs.map fun r =>
          if r.id = runId then
            { r with phase := .ended, finishedAt := some db.now, nextActionAt := none }
          else r }, ())

/-- One round of the sweep: the row, its verdict, and its score. -/
def sweepRound (run : Run) (round : FixRound) (ext : Instance) (o : CheckOutcome)
    (sequence : Int) : AwdpM Unit := do
  match ← findBySequence run.id sequence with
  | none => pure ()
  | some r => do
    let eval ← createOfficial run.id ext.id r.id
    finish eval.id .patched
      (if sequence = round.sequence then
        ⟨some o.healthcheckDetail, some o.judgeDetail, some o.exploitDetail, none, none⟩
      else ⟨some "ALL check: 修复已确认，自动计分", none, none, none, none⟩)
    let _ ← createScoreEvent (fixScore run r.id ext run.config.fixRoundScore)

/-- The sequences from the current round to the last one. -/
def remainingRounds (round : FixRound) (totalRounds : Int) : List Int :=
  (List.range (totalRounds - round.sequence + 1).toNat).map fun n : Nat => round.sequence + n

/-- `all_check_locked`. -/
def allCheckLocked (run : Run) (instanceId : Nat) (probe : Probe) : AwdpM EvaluationStatus := do
  match ← nextDueRound run.id with
  | none => .fail (.invalidState "所有回合均已评估/结束")
  | some round => do
    let inst ← findByInstanceId instanceId
    let gamebox ← findGameboxIdentity inst.gameboxId
    let o ← runChecks gamebox instanceId round probe
    if o.status ≠ .patched then pure o.status
    else do
      let ext ← findByInstanceId instanceId
      Prog.each (remainingRounds round run.totalRounds) (sweepRound run round ext o)
      endPracticeSession run.id
      pure o.status

/-- A user or a team. -/
structure Subject where
  userId : Option Nat
  teamId : Option Nat
  deriving DecidableEq

/-- The instance belongs to the subject. -/
def Instance.ownedBy (i : Instance) : Subject → Bool
  | ⟨some u, none⟩ => i.ownerUserId = some u
  | ⟨none, some t⟩ => i.ownerTeamId = some t
  | _ => false

/-- `all_check`. -/
def allCheck (runId instanceId : Nat) (subject : Subject) (probe : Probe) :
    AwdpM EvaluationStatus := do
  let run ← requireRun runId
  if !run.practice then .fail (.invalidState "ALL Check 仅练习模式可用")
  else if run.phase ≠ .fix then .fail (.invalidState "ALL Check 仅在 Fix 阶段可用")
  else do
    let inst ← findByInstanceId instanceId
    if !inst.ownedBy subject then .fail (.forbidden "instance does not belong to you")
    else withLock instanceId (allCheckLocked run instanceId probe)

end FloatCtf.Awdp
