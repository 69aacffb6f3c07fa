import FloatCtf.Awdp.Evaluation
import FloatCtf.Net.Json
import FloatCtf.Net.Text
import Mathlib.Algebra.Group.Nat.Defs

/-!
# The JudgeServer

`runJob` is the evaluation of a job by a JudgeServer: health checks, judge, exploit.  It reads the
health checks as the platform has stored them and the output of the scripts with a parser of its
own, and it keeps apart what the script says of the player and what is a fault of the platform.

The worker of the platform reads the same things for `examine`: `parseHealthchecks` and
`parseBatchResults` are its parsers, and `Observation.probe` is what it makes of what both can
observe.  `fromStr` is the parser of JSON texts, which both share.
-/

namespace FloatCtf.Awdp

open Json (Value)

/-! ## What can be observed -/

/-- A health check. -/
inductive AppHealthcheck where
  | http (port : Nat) (path : String) (expectedStatus : Nat)
  | tcp (port : Nat)
  deriving DecidableEq

/-- What a script does: it cannot be written or started, it runs out of time with some output, or it
exits. -/
inductive Behaviour where
  | notWritten (error : String)
  | notStarted (error : String)
  | timedOut (stdout : List UInt8)
  | exited (code : Option Int) (stdout stderr : List UInt8)
  deriving DecidableEq

/-- `probe` is the outcome of a check with its retries. -/
structure Observation where
  inspect : Except String (Option String)
  probe : AppHealthcheck → Bool
  judge : Behaviour
  exploit : Behaviour

/-- The parser of JSON documents. -/
abbrev FromStr := String → Except String Value

/-! ## The parsers of the platform -/

/-- A number of 16 bits. -/
def u16 (v : Option Value) : Option Nat := (v.bind Value.asU64).filter (· < 2 ^ 16)

/-- A check written as an object. -/
def parseFields (v : Value) : Except String AppHealthcheck :=
  match (v.get "type").bind Value.asStr with
  | some "http" =>
    match u16 (v.get "port"), (v.get "path").bind Value.asStr, v.get "expected_status" with
    | some port, some path, none => .ok (.http port path 200)
    | some port, some path, some status =>
      match u16 (some status) with
      | some status => .ok (.http port path status)
      | none => .error "invalid expected_status"
    | _, _, _ => .error "missing field"
  | some "tcp" =>
    match u16 (v.get "port") with
    | some port => .ok (.tcp port)
    | none => .error "missing field `port`"
  | _ => .error "unknown variant"

/-- A check written as the list of its fields, which the deserializer also accepts. -/
def parseTuple : List Value → Except String AppHealthcheck
  | [.str "http", port, .str path] =>
    match u16 (some port) with
    | some port => .ok (.http port path 200)
    | none => .error "invalid port"
  | [.str "http", port, .str path, status] =>
    match u16 (some port), u16 (some status) with
    | some port, some status => .ok (.http port path status)
    | _, _ => .error "invalid value"
  | [.str "tcp", port] =>
    match u16 (some port) with
    | some port => .ok (.tcp port)
    | none => .error "invalid port"
  | _ => .error "invalid length"

/-- A check as a tuple or as an object. -/
def parseHealthcheck (v : Value) : Except String AppHealthcheck :=
  match v with
  | .arr items => parseTuple items
  | v => parseFields v

/-- `parse_healthchecks`: the stored list; nothing stored means no check. -/
def parseHealthchecks : Value → Except String (List AppHealthcheck)
  | .null => .ok []
  | .arr items => items.mapM parseHealthcheck
  | _ => .error "invalid type, expected a sequence"

/-- A row as the worker of the platform reads it. -/
def batchRow (v : Value) : BatchResult where
  ip := ((v.get "gamebox_ip").bind Value.asStr).getD ""
  success := ((v.get "success").bind Value.asBool).getD false
  error := (v.get "error").bind Value.asStr

/-- `script_runner::parse_batch_results`. -/
def parseBatchResults (fromStr : FromStr) (stdout : String) : Except String (List BatchResult) :=
  match fromStr stdout with
  | .error e => .error s!"script stdout not JSON: {e}"
  | .ok v =>
    match v.asArray with
    | none => .error "script stdout must be a JSON array"
    | some items => .ok (items.map batchRow)

/-- What the runner of the platform hands on: the first bytes, also of a script that ran out of
time. -/
def runnerOut (fromStr : FromStr) (limit : Nat) :
    Behaviour → Except String (Except String (List BatchResult))
  | .notWritten e | .notStarted e => .error e
  | .timedOut stdout | .exited _ stdout _ =>
    .ok (parseBatchResults fromStr (Text.decodeLossy (stdout.take limit)))

/-- Which scripts run in the container of the data plane: each one falls back to the process by
itself where the container cannot be used. -/
structure Planes where
  judge : Bool
  exploit : Bool

/-- The greatest outputs of a script, in the container of the data plane or in the process. -/
def stdoutLimit (inDataPlane : Bool) (inProcess : Nat) : Nat :=
  if inDataPlane then 64 * 1024 else inProcess

/-- What the worker of the platform makes of the observation. -/
def Observation.toProbe (o : Observation) (fromStr : FromStr) (dataPlane : Planes)
    (stored : Option Value) : Probe where
  inspect := o.inspect
  healthchecks :=
    match parseHealthchecks (stored.getD (.arr [])) with
    | .ok _ => .ok ()
    | .error e => .error (.validation s!"healthchecks_json invalid: {e}")
  health :=
    match parseHealthchecks (stored.getD (.arr [])) with
    | .ok checks => (checks.all o.probe, [])
    | .error _ => (false, [])
  judge := runnerOut fromStr (stdoutLimit dataPlane.judge (16 * 1024)) o.judge
  exploit := runnerOut fromStr (stdoutLimit dataPlane.exploit (32 * 1024)) o.exploit

/-! ## The JudgeServer -/

namespace JudgeServer

/-- The payload of a job, of the kind `manual` or `official`. -/
structure Job where
  kind : String
  targetIp : Option String
  healthchecks : List Value
  judgeScript : Option String
  exploitScript : Option String

/-- The payload of a claimed evaluation: an instance that cannot be inspected has no address. -/
def claimed (gamebox : Gamebox) (i : Instance) (stored : Option Value) (o : Observation) : Job where
  kind := "official"
  targetIp := if i.runtimeState = .running then o.inspect.toOption.join else none
  healthchecks := ((stored.getD (.arr [])).asArray).getD []
  judgeScript := gamebox.judgeScript
  exploitScript := gamebox.exploitScript

/-- `panicked` is a job that ends without a report. -/
inductive JobOutcome where
  | business (status : EvaluationStatus) (healthcheck judge exploit stdout stderr : Option String)
  | infrastructure (message : String)
  | panicked
  deriving DecidableEq

/-- `truncate_str`: the text up to the limit, with a note; a cut inside a character panics. -/
def truncateStr (s : String) (maxLen : Nat) : Option String :=
  Text.truncate (fun n => s!"... (truncated, {n} bytes total)") s maxLen

/-- An output in the result; the outer `none` is the panic of a cut inside a character. -/
def shown (s : String) : Option (Option String) :=
  if Text.trim s = "" then some none else (truncateStr s 4096).map some

/-- What has come out of a script. -/
structure ExecResult where
  stdout : String
  stderr : String
  exitCode : Option Int
  rows : Except String (List BatchResult)

/-- A row as the JudgeServer reads it. -/
def objectRow (fields : List (String × Value)) : BatchResult where
  ip := (((Json.lookup fields "gamebox_ip").or (Json.lookup fields "ip")).bind Value.asStr).getD ""
  success := ((Json.lookup fields "success").bind Value.asBool).getD false
  error := (Json.lookup fields "error").bind Value.asStr

/-- `parse_batch_results`: the rows of a list, or of one object. -/
def parseBatchResults (fromStr : FromStr) (stdout : String) : Except String (List BatchResult) :=
  if Text.trim stdout = "" then .error "empty output"
  else
    match fromStr (Text.trim stdout) with
    | .error e => .error s!"invalid JSON: {e}"
    | .ok v =>
      let items :=
        match v with
        | .arr items => some items
        | .obj _ => some [v]
        | _ => none
      match items with
      | none => .error "expected JSON array or object"
      | some items =>
        match (items.filterMap Value.asObject).map objectRow with
        | [] => .error "no result rows found"
        | rows => .ok rows

/-- `run_target_script`: what comes out of a script, or why nothing does. -/
def runTargetScript (fromStr : FromStr) : Behaviour → Except String ExecResult
  | .notWritten e => .error s!"script write error: {e}"
  | .notStarted e => .error s!"script process error: {e}"
  | .timedOut _ => .error "script timed out"
  | .exited code stdout stderr =>
    .ok ⟨Text.decodeLossy stdout, Text.decodeLossy stderr, code,
      parseBatchResults fromStr (Text.decodeLossy stdout)⟩

/-- One check of the stored list; what is no object or has no port is passed over. -/
def checkOne (probe : AppHealthcheck → Bool) (v : Value) : Bool :=
  match v.asObject, (v.get "port").bind Value.asU64 with
  | some _, some port =>
    let port := port % 2 ^ 16
    let path := ((v.get "path").bind Value.asStr).getD "/"
    let status := ((v.get "expected_status").bind Value.asU64).getD 200 % 2 ^ 16
    if (v.get "type").bind Value.asStr = some "tcp" then probe (.tcp port)
    else probe (.http port path status)
  | _, _ => true

/-- `healthcheck_all`: there are checks, and all of them pass. -/
def healthcheckAll (probe : AppHealthcheck → Bool) (healthchecks : List Value) : Bool :=
  !healthchecks.isEmpty && healthchecks.all (checkOne probe)

/-- What a script says of the target, with the outputs to show. -/
inductive Said where
  | infrastructure (message : String)
  | panicked
  | row (success : Bool) (detail : String) (stdout stderr : Option String)
  deriving DecidableEq

/-- An exit code as `{:?}` shows it. -/
def showExit : Option Int → String
  | some code => s!"Some({code})"
  | none => "None"

/-- A script of the job: `name` is its name in the messages, `said` the text of a row that has
none. -/
def hear (fromStr : FromStr) (name : String) (said : Bool → String) (ip : String) (b : Behaviour) :
    Said :=
  match runTargetScript fromStr b with
  | .error e => .infrastructure e
  | .ok r =>
    match shown r.stdout, shown r.stderr with
    | some out, some err =>
      match r.rows with
      | .error e => .infrastructure s!"{name} 输出解析失败: {e}; exit={showExit r.exitCode}"
      | .ok rows =>
        match targetRow ip rows with
        | some row => .row row.success (row.error.getD (said row.success)) out err
        | none => .row false s!"{name} 未返回该目标结果" out err
    | _, _ => .panicked

/-- The exploit of a job. -/
def runExploit (fromStr : FromStr) (job : Job) (ip judgeDetail : String) (o : Observation) :
    JobOutcome :=
  match job.exploitScript with
  | none => .infrastructure "official 评估缺少 exploit 脚本"
  | some _ =>
    match hear fromStr "exploit" (fun _ => "exploit executed") ip o.exploit with
    | .infrastructure e => .infrastructure e
    | .panicked => .panicked
    | .row true detail out err =>
      .business .vulnerable none (some judgeDetail) (some detail) out err
    | .row false detail out err => .business .patched none (some judgeDetail) (some detail) out err

/-- The judge of a job, and the exploit behind it. -/
def runJudge (fromStr : FromStr) (job : Job) (ip : String) (o : Observation) : JobOutcome :=
  match job.judgeScript with
  | none => .infrastructure "GameBox 未配置 judge 脚本"
  | some _ =>
    match hear fromStr "judge" (fun ok => "judge: " ++ if ok then "PASS" else "FAIL") ip o.judge with
    | .infrastructure e => .infrastructure e
    | .panicked => .panicked
    | .row false detail out err => .business .functionalBroken none (some detail) none out err
    | .row true detail out err =>
      if job.kind = "official" ∨ (job.kind = "manual" ∧ job.exploitScript.isSome) then
        runExploit fromStr job ip detail o
      else .business .patched none (some detail) none out err

/-- `run_job`: the health checks, the judge and the exploit in turn. -/
def runJob (fromStr : FromStr) (job : Job) (o : Observation) : JobOutcome :=
  match job.targetIp with
  | none => .business .serviceDown (some "instance not running") none none none none
  | some ip =>
    if healthcheckAll o.probe job.healthchecks then runJudge fromStr job ip o
    else .business .serviceDown (some "healthcheck failed") none none none none

end JudgeServer

end FloatCtf.Awdp
