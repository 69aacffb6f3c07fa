import FloatCtf.Awdp.ExecutionPaths
import FloatCtf.Awdp.JudgeServer

/-!
# The verdicts of the two judges

An official job is evaluated by the worker of the platform or by a JudgeServer.  The first section
reads what each of them hears from a script as `some` answer for the target or as no answer at all,
the next ones write both verdicts as functions of these readings, and the last one says exactly
when the two verdicts are the same.
-/

namespace FloatCtf.Awdp

open Json (Value)
open Process

/-! ## What a script says -/

/-- What the rows say of the target. -/
def targetSuccess (ip : String) (rows : List BatchResult) : Bool :=
  (targetRow ip rows).any (·.success)

/-- What the worker of the platform takes an output for. -/
def platformReads (fromStr : FromStr) (ip stdout : String) : Bool :=
  match parseBatchResults fromStr stdout with
  | .error _ => false
  | .ok rows => targetSuccess ip rows

/-- What the worker of the platform takes a script for, `none` is a fault of the platform. -/
def platformHears (fromStr : FromStr) (limit : Nat) (ip : String) : Behaviour → Option Bool
  | .notWritten _ | .notStarted _ => none
  | .timedOut stdout | .exited _ stdout _ =>
    some (platformReads fromStr ip (Text.decodeLossy (stdout.take limit)))

/-- What the JudgeServer takes a script for, `none` is a fault of the platform. -/
def serverHears (fromStr : FromStr) (ip : String) : Behaviour → Option Bool
  | .notWritten _ | .notStarted _ | .timedOut _ => none
  | .exited _ stdout stderr =>
    match JudgeServer.shown (Text.decodeLossy stdout), JudgeServer.shown (Text.decodeLossy stderr) with
    | some _, some _ =>
      (JudgeServer.parseBatchResults fromStr (Text.decodeLossy stdout)).toOption.map
        (targetSuccess ip)
    | _, _ => none

theorem scriptOutcome_fst (name : String) (said : Bool → String) (ip : String)
    (fromStr : FromStr) (stdout : String) :
    (scriptOutcome name said ip (parseBatchResults fromStr stdout)).1 =
      platformReads fromStr ip stdout := by
  unfold scriptOutcome platformReads targetSuccess
  cases parseBatchResults fromStr stdout with
  | error e => rfl
  | ok rows => cases h : targetRow ip rows <;> simp [h]

theorem runScript_reads (name : String) (said : Bool → String) (missing down script ip : String)
    (fromStr : FromStr) (limit : Nat) (b : Behaviour) :
    (runScript name said missing down (some script) (some ip)
      (runnerOut fromStr limit b)).toOption.map (·.1) = platformHears fromStr limit ip b := by
  cases b with
  | notWritten e | notStarted e => rfl
  | timedOut stdout =>
    exact congrArg some (scriptOutcome_fst name said ip fromStr _)
  | exited code stdout stderr =>
    exact congrArg some (scriptOutcome_fst name said ip fromStr _)

/-- The answer in what a script said. -/
def JudgeServer.Said.answer : JudgeServer.Said → Option Bool
  | .row success _ _ _ => some success
  | _ => none

theorem hear_answer (fromStr : FromStr) (name : String) (said : Bool → String) (ip : String)
    (b : Behaviour) :
    (JudgeServer.hear fromStr name said ip b).answer = serverHears fromStr ip b := by
  cases b with
  | notWritten e | notStarted e => rfl
  | timedOut stdout => rfl
  | exited code stdout stderr =>
    simp only [JudgeServer.hear, JudgeServer.runTargetScript, serverHears]
    cases JudgeServer.shown (Text.decodeLossy stdout) with
    | none => rfl
    | some out =>
      cases JudgeServer.shown (Text.decodeLossy stderr) with
      | none => rfl
      | some err =>
        cases JudgeServer.parseBatchResults fromStr (Text.decodeLossy stdout) with
        | error e => rfl
        | ok rows => cases h : targetRow ip rows <;>
            simp [h, JudgeServer.Said.answer, targetSuccess, Except.toOption]

/-! ## The health checks -/

/-- The stored list as the JudgeServer gets it. -/
def storedItems (stored : Option Value) : List Value := ((stored.getD (.arr [])).asArray).getD []

theorem u16_eq_some {v : Option Value} {n : Nat} (h : u16 v = some n) :
    v.bind Value.asU64 = some n ∧ n < 2 ^ 16 := by
  simpa [u16, Option.filter_eq_some_iff] using h

theorem parseFields_object {v : Value} {check : AppHealthcheck} (h : parseFields v = .ok check) :
    ∃ fields, v = .obj fields := by
  cases v with
  | obj fields => exact ⟨fields, rfl⟩
  | _ => simp [parseFields, Value.get, Value.asObject] at h

/-- A check that is written as an object is the same check for both. -/
theorem checkOne_fields (probe : AppHealthcheck → Bool) {v : Value} {check : AppHealthcheck}
    (h : parseFields v = .ok check) : JudgeServer.checkOne probe v = probe check := by
  obtain ⟨fields, rfl⟩ := parseFields_object h
  unfold parseFields at h
  split at h
  · next htype =>
    -- An HTTP check: the port and the path are there, the status may be left out.
    split at h
    · next port path hport hpath hstatus =>
      obtain ⟨hport, hlt⟩ := u16_eq_some hport
      have hmod : port % 65536 = port := Nat.mod_eq_of_lt hlt
      cases h
      simp [JudgeServer.checkOne, Value.asObject, htype, hport, hpath, hstatus, hmod]
    · next port path status hport hpath hstatus =>
      split at h
      · next n hn =>
        obtain ⟨hport, hlt⟩ := u16_eq_some hport
        obtain ⟨hn, hnlt⟩ := u16_eq_some hn
        cases h
        simp_all [JudgeServer.checkOne, Value.asObject, Nat.mod_eq_of_lt]
      · cases h
    · cases h
  · next htype =>
    split at h
    · next port hport =>
      obtain ⟨hport, hlt⟩ := u16_eq_some hport
      have hmod : port % 65536 = port := Nat.mod_eq_of_lt hlt
      cases h
      simp [JudgeServer.checkOne, Value.asObject, htype, hport, hmod]
    · cases h
  · cases h

/-- The JudgeServer passes over a check that is written as a list. -/
def passedOver : Value → Bool
  | .arr _ => true
  | _ => false

theorem checkOne_accepted (probe : AppHealthcheck → Bool) {v : Value} {check : AppHealthcheck}
    (h : parseHealthcheck v = .ok check) :
    JudgeServer.checkOne probe v = (passedOver v || probe check) := by
  cases v with
  | arr items => simp [JudgeServer.checkOne, Value.asObject, passedOver]
  | _ => exact checkOne_fields probe h

/-- Some check that is not passed over fails. -/
def FailsForBoth (probe : AppHealthcheck → Bool) (items : List Value) : Prop :=
  ∃ v ∈ items, passedOver v = false ∧ ∃ check, parseHealthcheck v = .ok check ∧ probe check = false

theorem all_checkOne_iff (probe : AppHealthcheck → Bool) {items : List Value}
    (h : ∀ v ∈ items, ∃ check, parseHealthcheck v = .ok check) :
    items.all (JudgeServer.checkOne probe) = true ↔ ¬ FailsForBoth probe items := by
  rw [List.all_eq_true]
  constructor
  · rintro hall ⟨v, hv, hover, check, hparse, hfails⟩
    have hone := hall v hv
    rw [checkOne_accepted probe hparse, hover, hfails] at hone
    cases hone
  · intro hnone v hv
    obtain ⟨check, hparse⟩ := h v hv
    rw [checkOne_accepted probe hparse]
    cases hover : passedOver v with
    | true => rfl
    | false =>
      cases hprobe : probe check with
      | true => rfl
      | false => exact absurd ⟨v, hv, hover, check, hparse, hprobe⟩ hnone

theorem mapM_ok {α β : Type} {f : α → Except String β} {as : List α} {bs : List β}
    (h : as.mapM f = .ok bs) :
    (∀ a ∈ as, ∃ b ∈ bs, f a = .ok b) ∧ as.length = bs.length := by
  induction as generalizing bs with
  | nil =>
    cases h
    simp
  | cons a as ih =>
    rw [List.mapM_cons] at h
    obtain ⟨b, hb, h⟩ := except_bind_ok h
    obtain ⟨rest, hrest, h⟩ := except_bind_ok h
    cases h
    obtain ⟨hmem, hlen⟩ := ih hrest
    constructor
    · intro x hx
      rcases List.mem_cons.1 hx with rfl | hx
      · exact ⟨b, List.mem_cons_self, hb⟩
      · obtain ⟨c, hc, hf⟩ := hmem x hx
        exact ⟨c, List.mem_cons_of_mem _ hc, hf⟩
    · simp [hlen]

/-- The items of a list that is accepted, and its checks. -/
theorem parseHealthchecks_ok {v : Value} {checks : List AppHealthcheck}
    (h : parseHealthchecks v = .ok checks) :
    (v.asArray.getD []).mapM parseHealthcheck = .ok checks := by
  cases v with
  | null =>
    cases h
    rfl
  | arr items => exact h
  | _ => cases h

/-- No check passes for the worker of the platform only, and the list is not empty. -/
def HealthAlike (probe : AppHealthcheck → Bool) (items : List Value)
    (checks : List AppHealthcheck) : Prop :=
  items ≠ [] ∧ (FailsForBoth probe items ∨ checks.all probe = true)

theorem health_eq_iff (probe : AppHealthcheck → Bool) {items : List Value}
    {checks : List AppHealthcheck} (h : items.mapM parseHealthcheck = .ok checks) :
    checks.all probe = JudgeServer.healthcheckAll probe items ↔ HealthAlike probe items checks := by
  obtain ⟨hmem, hlen⟩ := mapM_ok h
  have hserver := all_checkOne_iff probe fun v hv => (hmem v hv).imp fun _ hc => hc.2
  have hboth : FailsForBoth probe items → checks.all probe = false := by
    rintro ⟨v, hv, -, check, hparse, hfails⟩
    obtain ⟨c, hc, hcv⟩ := hmem v hv
    rw [hparse] at hcv
    cases hcv
    exact List.all_eq_false.2 ⟨check, hc, by simp [hfails]⟩
  unfold HealthAlike JudgeServer.healthcheckAll
  cases items with
  | nil =>
    have hnil : checks = [] := List.length_eq_zero_iff.1 hlen.symm
    simp [hnil]
  | cons v items =>
    by_cases hf : FailsForBoth probe (v :: items)
    · have hs : (v :: items).all (JudgeServer.checkOne probe) = false := by
        simpa [hf] using hserver
      rw [hs, hboth hf]
      simp [hf]
    · rw [hserver.2 hf]
      simp [hf]

/-! ## The two verdicts -/

/-- The verdict of the worker of the platform, `none` is an error. -/
def platformVerdict (r : Except AwdpError CheckOutcome) : Option EvaluationStatus :=
  r.toOption.map (·.status)

/-- The verdict of a JudgeServer, `none` is a fault of the platform. -/
def JudgeServer.JobOutcome.verdict : JudgeServer.JobOutcome → Option EvaluationStatus
  | .business status _ _ _ _ _ => some status
  | .infrastructure _ | .panicked => none

/-- The verdict on an exploit; `missing` is the one where there is no script. -/
def exploitVerdict (missing : Option EvaluationStatus) (script : Option String)
    (heard : Option Bool) : Option EvaluationStatus :=
  if script.isSome then heard.map (if · then .vulnerable else .patched) else missing

/-- The verdict on a judge, with the one on the exploit for a judge that passes. -/
def judgeVerdict (missing : Option EvaluationStatus) (script : Option String)
    (heard : Option Bool) (exploit : Option EvaluationStatus) : Option EvaluationStatus :=
  if script.isSome then heard.bind (if · then exploit else some .functionalBroken) else missing

section Verdicts

variable (fromStr : FromStr) (dataPlane : Planes) (gamebox : Gamebox) (o : Observation)

/-- What the worker of the platform hears of the judge. -/
def platformJudge (ip : String) : Option Bool :=
  platformHears fromStr (stdoutLimit dataPlane.judge (16 * 1024)) ip o.judge

/-- What the worker of the platform hears from the exploit. -/
def platformExploit (ip : String) : Option Bool :=
  platformHears fromStr (stdoutLimit dataPlane.exploit (32 * 1024)) ip o.exploit

/-- The verdict of the worker of the platform on a container that is healthy. -/
def platformScripts (ip : String) : Option EvaluationStatus :=
  judgeVerdict (some .functionalBroken) gamebox.judgeScript (platformJudge fromStr dataPlane o ip)
    (exploitVerdict (some .patched) gamebox.exploitScript (platformExploit fromStr dataPlane o ip))

/-- The verdict of the JudgeServer on a container that is healthy. -/
def serverScripts (ip : String) : Option EvaluationStatus :=
  judgeVerdict none gamebox.judgeScript (serverHears fromStr ip o.judge)
    (exploitVerdict none gamebox.exploitScript (serverHears fromStr ip o.exploit))

theorem examineExploit_verdict (stored : Option Value) (ip : String) (seen : Option Instance)
    (health judge : String) :
    platformVerdict (examineExploit gamebox (some ip) seen (o.toProbe fromStr dataPlane stored)
      health judge) =
    exploitVerdict (some .patched) gamebox.exploitScript
      (platformExploit fromStr dataPlane o ip) := by
  unfold examineExploit runExploit exploitVerdict
  cases hs : gamebox.exploitScript with
  | none => rfl
  | some script =>
    rw [platformExploit, ← runScript_reads "exploit" (fun _ => "exploit executed")
      "GameBox 无 [awdp] exploit 脚本" "容器未运行，无法执行 exploit" script ip fromStr]
    simp only [Observation.toProbe]
    cases runScript "exploit" _ _ _ (some script) (some ip) _ with
    | error e => rfl
    | ok r => rfl

theorem examineJudge_verdict (stored : Option Value) (ip : String) (seen : Option Instance)
    (health : String) :
    platformVerdict (examineJudge gamebox (some ip) seen (o.toProbe fromStr dataPlane stored)
      health) = platformScripts fromStr dataPlane gamebox o ip := by
  unfold examineJudge runJudge platformScripts judgeVerdict
  cases hs : gamebox.judgeScript with
  | none => rfl
  | some script =>
    rw [platformJudge, ← runScript_reads "judge"
      (fun ok => "judge: " ++ if ok then "PASS" else "FAIL") "GameBox 无 judge 脚本"
      "容器未运行，无法 judge" script ip fromStr]
    have hjudge : (o.toProbe fromStr dataPlane stored).judge =
      runnerOut fromStr (stdoutLimit dataPlane.judge (16 * 1024)) o.judge := rfl
    rw [hjudge]
    cases runScript "judge" _ _ _ (some script) (some ip) _ with
    | error e => rfl
    | ok r =>
      obtain ⟨ok, detail⟩ := r
      cases ok with
      | false => rfl
      | true => exact examineExploit_verdict fromStr dataPlane gamebox o stored ip seen health detail

theorem runExploit_verdict (job : JudgeServer.Job) (ip judgeDetail : String) :
    (JudgeServer.runExploit fromStr job ip judgeDetail o).verdict =
      exploitVerdict none job.exploitScript (serverHears fromStr ip o.exploit) := by
  unfold JudgeServer.runExploit exploitVerdict
  cases hs : job.exploitScript with
  | none => rfl
  | some script =>
    rw [← hear_answer fromStr "exploit" (fun _ => "exploit executed")]
    rcases JudgeServer.hear fromStr "exploit" _ ip o.exploit with e | _ | ⟨success, d, out, err⟩
    · rfl
    · rfl
    · cases success <;> rfl

theorem runJudge_verdict (i : Instance) (stored : Option Value) (ip : String) :
    (JudgeServer.runJudge fromStr (JudgeServer.claimed gamebox i stored o) ip o).verdict =
      serverScripts fromStr gamebox o ip := by
  unfold JudgeServer.runJudge serverScripts judgeVerdict
  have hscript : (JudgeServer.claimed gamebox i stored o).judgeScript = gamebox.judgeScript := rfl
  rw [hscript]
  cases hs : gamebox.judgeScript with
  | none => rfl
  | some script =>
    rw [← hear_answer fromStr "judge" (fun ok => "judge: " ++ if ok then "PASS" else "FAIL")]
    rcases JudgeServer.hear fromStr "judge" _ ip o.judge with e | _ | ⟨success, d, out, err⟩
    · rfl
    · rfl
    · cases success with
      | false => rfl
      | true => exact runExploit_verdict fromStr o _ ip d

/-! ## When they are the same -/

/-- A script is heard alike: it cannot be written or started, or it exits by itself, its outputs can
be shown, the JudgeServer finds rows in the output, and the row each of the two takes for the target
says the same. -/
def HeardAlike (limit : Nat) (ip : String) : Behaviour → Prop
  | .notWritten _ | .notStarted _ => True
  | .timedOut _ => False
  | .exited _ stdout stderr =>
    (JudgeServer.shown (Text.decodeLossy stdout)).isSome ∧
    (JudgeServer.shown (Text.decodeLossy stderr)).isSome ∧
    ∃ rows, JudgeServer.parseBatchResults fromStr (Text.decodeLossy stdout) = .ok rows ∧
      targetSuccess ip rows = platformReads fromStr ip (Text.decodeLossy (stdout.take limit))

theorem hears_eq_iff (limit : Nat) (ip : String) (b : Behaviour) :
    platformHears fromStr limit ip b = serverHears fromStr ip b ↔ HeardAlike fromStr limit ip b := by
  cases b with
  | notWritten e | notStarted e => simp [platformHears, serverHears, HeardAlike]
  | timedOut stdout => simp [platformHears, serverHears, HeardAlike]
  | exited code stdout stderr =>
    simp only [platformHears, serverHears, HeardAlike]
    cases JudgeServer.shown (Text.decodeLossy stdout) with
    | none => simp
    | some out =>
      cases JudgeServer.shown (Text.decodeLossy stderr) with
      | none => simp
      | some err =>
        cases JudgeServer.parseBatchResults fromStr (Text.decodeLossy stdout) with
        | error e => simp [Except.toOption]
        | ok rows => simp [Except.toOption, eq_comm]

theorem serverHears_none {limit : Nat} {ip : String} {b : Behaviour}
    (h : platformHears fromStr limit ip b = none) : serverHears fromStr ip b = none := by
  cases b with
  | notWritten e | notStarted e => rfl
  | timedOut stdout => rfl
  | exited code stdout stderr => cases h

/-- The scripts of a healthy container.  The last case is the one in which the two fail as platform
at different scripts. -/
def ScriptsAlike (ip : String) : Prop :=
  gamebox.judgeScript.isSome ∧
  ((HeardAlike fromStr (stdoutLimit dataPlane.judge (16 * 1024)) ip o.judge ∧
      (platformJudge fromStr dataPlane o ip = some true →
        gamebox.exploitScript.isSome ∧
          HeardAlike fromStr (stdoutLimit dataPlane.exploit (32 * 1024)) ip o.exploit)) ∨
    (serverHears fromStr ip o.judge = none ∧ platformJudge fromStr dataPlane o ip = some true ∧
      gamebox.exploitScript.isSome ∧ platformExploit fromStr dataPlane o ip = none))

theorem exploitVerdict_eq_iff (script : Option String) (p s : Option Bool) :
    exploitVerdict (some .patched) script p = exploitVerdict none script s ↔
      script.isSome ∧ p = s := by
  unfold exploitVerdict
  rcases script with _ | script <;> rcases p with _ | _ | _ <;> rcases s with _ | _ | _ <;> simp

theorem exploitVerdict_ne_broken (missing : Option EvaluationStatus) (script : Option String)
    (heard : Option Bool) (h : missing ≠ some .functionalBroken) :
    exploitVerdict missing script heard ≠ some .functionalBroken := by
  unfold exploitVerdict
  rcases script with _ | script
  · exact h
  · rcases heard with _ | _ | _ <;> simp

theorem exploitVerdict_eq_none (script : Option String) (p : Option Bool) :
    exploitVerdict (some .patched) script p = none ↔ script.isSome ∧ p = none := by
  unfold exploitVerdict
  rcases script with _ | script <;> rcases p with _ | _ | _ <;> simp

theorem scripts_eq_iff (ip : String) :
    platformScripts fromStr dataPlane gamebox o ip = serverScripts fromStr gamebox o ip ↔
      ScriptsAlike fromStr dataPlane gamebox o ip := by
  have hnone := @serverHears_none fromStr (stdoutLimit dataPlane.judge (16 * 1024)) ip o.judge
  unfold platformScripts serverScripts ScriptsAlike
  rw [← hears_eq_iff, ← hears_eq_iff]
  change _ ↔ _ ∧ ((platformJudge fromStr dataPlane o ip = _ ∧ (_ → _ ∧
    platformExploit fromStr dataPlane o ip = _)) ∨ _)
  change platformJudge fromStr dataPlane o ip = none → _ at hnone
  have heq := exploitVerdict_eq_iff gamebox.exploitScript (platformExploit fromStr dataPlane o ip)
    (serverHears fromStr ip o.exploit)
  have hpn := exploitVerdict_eq_none gamebox.exploitScript (platformExploit fromStr dataPlane o ip)
  have hpb := exploitVerdict_ne_broken (some .patched) gamebox.exploitScript
    (platformExploit fromStr dataPlane o ip) (by simp)
  have hsb := exploitVerdict_ne_broken none gamebox.exploitScript
    (serverHears fromStr ip o.exploit) (by simp)
  generalize platformJudge fromStr dataPlane o ip = p at hnone ⊢
  generalize serverHears fromStr ip o.judge = s at hnone ⊢
  unfold judgeVerdict
  rcases gamebox.judgeScript with _ | script
  · simp
  · rcases p with _ | _ | _
    · simp [hnone rfl]
    · rcases s with _ | _ | _ <;> simp [hsb.symm]
    · rcases s with _ | _ | _ <;> simp [heq, hpn, hpb]

/-- What both observe is judged alike: nothing is running, or the container can be inspected and it
has no address or its health checks are judged alike and, where they pass, its scripts. -/
def JudgedAlike (i : Instance) (stored : Option Value) (checks : List AppHealthcheck) : Prop :=
  i.runtimeState = .running → ∃ address, o.inspect = .ok address ∧ ∀ ip, address = some ip →
    HealthAlike o.probe (storedItems stored) checks ∧
      (checks.all o.probe = true → ScriptsAlike fromStr dataPlane gamebox o ip)

theorem judgeVerdict_ne_down {missing : Option EvaluationStatus} (script : Option String)
    (heard : Option Bool) {exploit : Option EvaluationStatus} (hm : missing ≠ some .serviceDown)
    (he : exploit ≠ some .serviceDown) :
    judgeVerdict missing script heard exploit ≠ some .serviceDown := by
  unfold judgeVerdict
  rcases script with _ | script
  · exact hm
  · rcases heard with _ | _ | _
    · simp
    · simp
    · exact he

theorem exploitVerdict_ne_down {missing : Option EvaluationStatus} (script : Option String)
    (heard : Option Bool) (hm : missing ≠ some .serviceDown) :
    exploitVerdict missing script heard ≠ some .serviceDown := by
  unfold exploitVerdict
  rcases script with _ | script
  · exact hm
  · rcases heard with _ | _ | _ <;> simp

/-- The verdict of the worker of the platform on a container with an address. -/
theorem examine_verdict {i : Instance} {stored : Option Value} {checks : List AppHealthcheck}
    {ip : String} (seen : Option Instance)
    (hchecks : parseHealthchecks (stored.getD (.arr [])) = .ok checks)
    (hrun : i.runtimeState = .running) (hip : o.inspect = .ok (some ip)) :
    platformVerdict (examine gamebox i seen (o.toProbe fromStr dataPlane stored)) =
      if checks.all o.probe then platformScripts fromStr dataPlane gamebox o ip
      else some .serviceDown := by
  have hinspect : (o.toProbe fromStr dataPlane stored).inspect = .ok (some ip) := hip
  have hlist : (o.toProbe fromStr dataPlane stored).healthchecks = .ok () := by
    simp [Observation.toProbe, hchecks]
  have hhealth : (o.toProbe fromStr dataPlane stored).health = (checks.all o.probe, []) := by
    simp [Observation.toProbe, hchecks]
  have hexamine : examine gamebox i seen (o.toProbe fromStr dataPlane stored) =
      if checks.all o.probe then
        examineJudge gamebox (some ip) seen (o.toProbe fromStr dataPlane stored)
          ("; ".intercalate [])
      else .ok ⟨.serviceDown, "; ".intercalate [], "", "", seen⟩ := by
    unfold examine containerIp probeHealth
    rw [if_pos hrun, hinspect, hlist, hhealth]
    rfl
  rw [hexamine]
  split
  · exact examineJudge_verdict fromStr dataPlane gamebox o stored ip seen _
  · rfl

theorem runJob_verdict {i : Instance} {stored : Option Value} {ip : String}
    (hrun : i.runtimeState = .running) (hip : o.inspect = .ok (some ip)) :
    (JudgeServer.runJob fromStr (JudgeServer.claimed gamebox i stored o) o).verdict =
      if JudgeServer.healthcheckAll o.probe (storedItems stored) then
        serverScripts fromStr gamebox o ip
      else some .serviceDown := by
  have htarget : (JudgeServer.claimed gamebox i stored o).targetIp = some ip := by
    simp [JudgeServer.claimed, hrun, hip, Except.toOption]
  have hlist : (JudgeServer.claimed gamebox i stored o).healthchecks = storedItems stored := rfl
  unfold JudgeServer.runJob
  rw [htarget, hlist]
  dsimp only
  split
  · exact runJudge_verdict fromStr gamebox o i stored ip
  · rfl

/-- A container without an address is down for both. -/
theorem verdict_no_address {i : Instance} {stored : Option Value} {checks : List AppHealthcheck}
    (seen : Option Instance) (hchecks : parseHealthchecks (stored.getD (.arr [])) = .ok checks)
    (h : i.runtimeState ≠ .running ∨ o.inspect = .ok none) :
    platformVerdict (examine gamebox i seen (o.toProbe fromStr dataPlane stored)) =
      (JudgeServer.runJob fromStr (JudgeServer.claimed gamebox i stored o) o).verdict := by
  have hlist : (o.toProbe fromStr dataPlane stored).healthchecks = .ok () := by
    simp [Observation.toProbe, hchecks]
  have hip : containerIp i (o.toProbe fromStr dataPlane stored) = .ok none := by
    have hinspect : (o.toProbe fromStr dataPlane stored).inspect = o.inspect := rfl
    unfold containerIp
    rw [hinspect]
    by_cases hrun : i.runtimeState = .running
    · simp [hrun, h.resolve_left (not_not_intro hrun)]
    · simp [hrun]
  have htarget : (JudgeServer.claimed gamebox i stored o).targetIp = none := by
    rcases h with h | h <;> simp [JudgeServer.claimed, h, Except.toOption]
  unfold examine JudgeServer.runJob
  rw [hip, hlist, htarget]
  rfl

/-- A container that cannot be inspected is down for the JudgeServer only. -/
theorem verdict_inspect_error {i : Instance} {stored : Option Value} {e : String}
    (seen : Option Instance) (hrun : i.runtimeState = .running) (he : o.inspect = .error e) :
    platformVerdict (examine gamebox i seen (o.toProbe fromStr dataPlane stored)) ≠
      (JudgeServer.runJob fromStr (JudgeServer.claimed gamebox i stored o) o).verdict := by
  have hip : containerIp i (o.toProbe fromStr dataPlane stored) =
      .error (.docker s!"inspect for eval: {e}") := by
    have hinspect : (o.toProbe fromStr dataPlane stored).inspect = o.inspect := rfl
    simp [containerIp, hrun, hinspect, he]
  have htarget : (JudgeServer.claimed gamebox i stored o).targetIp = none := by
    simp [JudgeServer.claimed, he, Except.toOption]
  unfold examine JudgeServer.runJob
  rw [hip, htarget]
  exact fun h => nomatch h

theorem examine_eq_runJob_iff {i : Instance} {stored : Option Value}
    {checks : List AppHealthcheck} (seen : Option Instance)
    (hchecks : parseHealthchecks (stored.getD (.arr [])) = .ok checks) :
    platformVerdict (examine gamebox i seen (o.toProbe fromStr dataPlane stored)) =
        (JudgeServer.runJob fromStr (JudgeServer.claimed gamebox i stored o) o).verdict ↔
      JudgedAlike fromStr dataPlane gamebox o i stored checks := by
  by_cases hrun : i.runtimeState = .running
  · cases hinspect : o.inspect with
    | error e =>
      have hne := @verdict_inspect_error fromStr dataPlane gamebox o i stored e seen hrun hinspect
      simp [hne, JudgedAlike, hrun, hinspect]
    | ok address =>
      cases address with
      | none =>
        have heq := verdict_no_address fromStr dataPlane gamebox o (i := i) seen hchecks
          (.inr hinspect)
        simp [heq, JudgedAlike, hinspect]
      | some ip =>
        have hhealth := health_eq_iff o.probe (parseHealthchecks_ok hchecks)
        have hp : platformScripts fromStr dataPlane gamebox o ip ≠ some .serviceDown :=
          judgeVerdict_ne_down _ _ (by simp) (exploitVerdict_ne_down _ _ (by simp))
        have hs : serverScripts fromStr gamebox o ip ≠ some .serviceDown :=
          judgeVerdict_ne_down _ _ (by simp) (exploitVerdict_ne_down _ _ (by simp))
        have halike : JudgedAlike fromStr dataPlane gamebox o i stored checks ↔
            HealthAlike o.probe (storedItems stored) checks ∧
              (checks.all o.probe = true → ScriptsAlike fromStr dataPlane gamebox o ip) := by
          simp [JudgedAlike, hrun, hinspect]
        rw [examine_verdict fromStr dataPlane gamebox o seen hchecks hrun hinspect,
          runJob_verdict fromStr gamebox o hrun hinspect, halike, storedItems, ← hhealth,
          ← scripts_eq_iff]
        -- Only a container that both or neither take for healthy can have one verdict.
        generalize checks.all o.probe = p
        generalize JudgeServer.healthcheckAll o.probe _ = s
        cases p <;> cases s <;> simp [hp, hs.symm]
  · have heq := verdict_no_address fromStr dataPlane gamebox o seen hchecks (.inl hrun)
    simp [heq, JudgedAlike, hrun]

end Verdicts

/-- The worker of the platform and the JudgeServer have the same verdict on an instance with an
applied patch exactly where what they observe is judged alike. -/
theorem runChecks_eq_runJob_iff (fromStr : FromStr) (dataPlane : Planes) (gamebox : Gamebox)
    (o : Observation) (stored : Option Value) {db : Db} {ext : Instance} {round : FixRound}
    {run : Run} {checks : List AppHealthcheck} (hi : db.instanceById ext.id = some ext)
    (hr : db.roundById round.id = some round) (hrun : db.runById round.runId = some run)
    (hpatch : db.appliedPatch ext.id round = true)
    (hchecks : parseHealthchecks (stored.getD (.arr [])) = .ok checks) :
    platformVerdict ((runChecks gamebox ext.id round
        (o.toProbe fromStr dataPlane stored)).run answered db).2 =
      (JudgeServer.runJob fromStr (JudgeServer.claimed gamebox ext stored o) o).verdict ↔
    JudgedAlike fromStr dataPlane gamebox o ext stored checks := by
  have hexamine : db.checks gamebox ext round (o.toProbe fromStr dataPlane stored) =
      examine gamebox ext (some ext) (o.toProbe fromStr dataPlane stored) := by
    simp [Db.checks, hpatch]
  rw [run_runChecks hi hr hrun, hexamine]
  exact examine_eq_runJob_iff fromStr dataPlane gamebox o (some ext) hchecks

/-! ## An exploit without a result -/

/-- The texts that the scripts below print, and no others. -/
def scriptJson : FromStr := fun s =>
  if s = "[\x7b\"success\":true\x7d]" then .ok (.arr [.obj [("success", .bool true)]])
  else if s = "[\x7b\"success\":false\x7d]" then .ok (.arr [.obj [("success", .bool false)]])
  else .error "expected value at line 1 column 1"

/-- A script that prints this text and exits. -/
def printed (text : String) : Behaviour := .exited (some 0) (Text.encode text) []

/-- A healthy container that passes the judge. -/
def observed (exploit : Behaviour) : Observation where
  inspect := .ok (some "10.0.0.2")
  probe := fun _ => true
  judge := printed "[\x7b\"success\":true\x7d]"
  exploit := exploit

/-- One check of a port. -/
def storedCheck : Option Value := some (.arr [.obj [("type", .str "tcp"), ("port", .int 80)]])

/-- An exploit that prints nothing is a patch that works for the worker of the platform, and a
fault of the platform for the JudgeServer. -/
theorem verdicts_differ_silent_exploit :
    practiceDb.appliedPatch practiceInstance.id practiceRound = true ∧
    (parseHealthchecks (storedCheck.getD (.arr []))).toOption = some [.tcp 80] ∧
    platformVerdict ((runChecks practiceGamebox practiceInstance.id practiceRound
        ((observed (printed "")).toProbe scriptJson ⟨false, false⟩ storedCheck)).run answered
          practiceDb).2 = some .patched ∧
    (JudgeServer.runJob scriptJson (JudgeServer.claimed practiceGamebox practiceInstance storedCheck
      (observed (printed ""))) (observed (printed ""))).verdict = none :=
  ⟨by decide +kernel, by decide +kernel, by decide +kernel, by decide +kernel⟩

/-- An exploit that says that it failed is a patch that works for both. -/
theorem verdicts_eq_failed_exploit :
    practiceDb.appliedPatch practiceInstance.id practiceRound = true ∧
    platformVerdict ((runChecks practiceGamebox practiceInstance.id practiceRound
        ((observed (printed "[\x7b\"success\":false\x7d]")).toProbe scriptJson ⟨false, false⟩
          storedCheck)).run answered practiceDb).2 =
      (JudgeServer.runJob scriptJson (JudgeServer.claimed practiceGamebox practiceInstance
        storedCheck (observed (printed "[\x7b\"success\":false\x7d]")))
        (observed (printed "[\x7b\"success\":false\x7d]"))).verdict := by
  have hpatch : practiceDb.appliedPatch practiceInstance.id practiceRound = true := by
    decide +kernel
  refine ⟨hpatch, (@runChecks_eq_runJob_iff scriptJson ⟨false, false⟩ practiceGamebox _ storedCheck
    practiceDb practiceInstance practiceRound practiceRun [.tcp 80] rfl rfl rfl hpatch rfl).2
    fun _ => ⟨_, rfl, fun ip hip => ?_⟩⟩
  obtain rfl : "10.0.0.2" = ip := Option.some.inj hip
  have hitems : storedItems storedCheck ≠ [] := by simp [storedItems, storedCheck, Value.asArray]
  refine ⟨⟨hitems, .inr rfl⟩, fun _ => ⟨rfl, .inl ⟨?_, fun _ => ⟨rfl, ?_⟩⟩⟩⟩
  · exact ⟨by decide +kernel, by decide +kernel, [⟨"", true, none⟩], by with_unfolding_all rfl,
      by decide +kernel⟩
  · exact ⟨by decide +kernel, by decide +kernel, [⟨"", false, none⟩], by with_unfolding_all rfl,
      by decide +kernel⟩

end FloatCtf.Awdp
