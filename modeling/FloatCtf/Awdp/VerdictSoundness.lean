import FloatCtf.Awdp.JudgeAgreement

/-!
# What a verdict of the JudgeServer rests on

`Sound` says of a job that a verdict on the player rests on a health check that was made and on rows
that the scripts have printed for the target, each with a boolean success; that a script without
such a row is a fault of the platform; and that a service none of whose checks can be made is down.

The defaults of `hit_row`, of a row without a success and of a check that is passed over can all
break it, and so can the panic of a cut inside a character; `sound_iff` says exactly for which
health checks and outputs they do.
-/

namespace FloatCtf.Awdp.JudgeServer

open Json (Value)

/-! ## What a script prints -/

/-- The fields of a row. -/
abbrev Fields := List (String × Value)

/-- The address in a row: the field `gamebox_ip`, or `ip` where there is no such field.  What is no
text is no address. -/
def address (row : Fields) : String :=
  (((Json.lookup row "gamebox_ip").or (Json.lookup row "ip")).bind Value.asStr).getD ""

/-- A row with the address of the target, or with none. -/
def ForTarget (ip : String) (row : Fields) : Prop := address row = ip ∨ address row = ""

instance (ip : String) : DecidablePred (ForTarget ip) :=
  fun _ => inferInstanceAs (Decidable (_ ∨ _))

/-- The success in a row, if it is a boolean. -/
def success (row : Fields) : Option Bool := (Json.lookup row "success").bind Value.asBool

/-- The rows of a document: the objects in a list, or an object that stands alone. -/
def rowsOf : Value → List Fields
  | .arr items => items.filterMap Value.asObject
  | .obj fields => [fields]
  | _ => []

/-- The rows in an output; a text that is no document has none. -/
def printedRows (fromStr : FromStr) (stdout : String) : List Fields :=
  match fromStr (Text.trim stdout) with
  | .error _ => []
  | .ok v => if Text.trim stdout = "" then [] else rowsOf v

/-- The rows that a script prints that runs to its end. -/
def scriptRows (fromStr : FromStr) : Behaviour → List Fields
  | .notWritten _ | .notStarted _ | .timedOut _ => []
  | .exited _ stdout _ => printedRows fromStr (Text.decodeLossy stdout)

/-! ## The property -/

/-- The exploit belongs to every official job, and to a manual one that brings it along. -/
def RunsExploit (job : Job) : Prop :=
  job.kind = "official" ∨ (job.kind = "manual" ∧ job.exploitScript.isSome)

instance : DecidablePred RunsExploit := fun _ => inferInstanceAs (Decidable (_ ∨ _))

/-- A verdict on the player; without an exploit, `patched` says only that nothing was found. -/
def OnPlayer (job : Job) (verdict : EvaluationStatus) : Prop :=
  verdict = .functionalBroken ∨ verdict = .vulnerable ∨ verdict = .patched ∧ RunsExploit job

/-- The script has printed a row for the target with this success. -/
def Says (fromStr : FromStr) (ip : String) (b : Behaviour) (v : Bool) : Prop :=
  ∃ row ∈ scriptRows fromStr b, ForTarget ip row ∧ success row = some v

/-- A stored check that is not passed over: an object with a port. -/
def Probed (v : Value) : Prop := (v.get "port").bind Value.asU64 ≠ none

/-- What a verdict on the player rests on: a check that was made, and a row of the judge; where the
judge lets the target pass, a row of the exploit. -/
structure RestsOn (fromStr : FromStr) (job : Job) (o : Observation) (ip : String)
    (verdict : EvaluationStatus) : Prop where
  probed : ∃ v ∈ job.healthchecks, Probed v
  judge : Says fromStr ip o.judge (verdict ≠ .functionalBroken)
  exploit : verdict ≠ .functionalBroken → Says fromStr ip o.exploit (verdict = .vulnerable)

/-- A script has printed a row for the target with a boolean success. -/
def Speaks (fromStr : FromStr) (ip : String) (b : Behaviour) : Prop := ∃ v, Says fromStr ip b v

/-- The outcome is a fault of the platform. -/
def JobOutcome.isPlatformError : JobOutcome → Bool
  | .infrastructure _ => true
  | .business .. | .panicked => false

/-- What is claimed of a job with an address. -/
structure Sound (fromStr : FromStr) (job : Job) (o : Observation) : Prop where
  /-- A verdict on the player rests on a check and on rows for the target. -/
  verdicts : ∀ verdict, (runJob fromStr job o).verdict = some verdict → OnPlayer job verdict →
    ∃ ip, job.targetIp = some ip ∧ RestsOn fromStr job o ip verdict
  /-- Where no check can be made, the service is down. -/
  unprobed : (∀ v ∈ job.healthchecks, ¬ Probed v) →
    (runJob fromStr job o).verdict = some .serviceDown
  /-- A judge of a healthy target without such a row is a fault of the platform. -/
  judge : ∀ ip, job.targetIp = some ip → healthcheckAll o.probe job.healthchecks = true →
    job.judgeScript.isSome → ¬ Speaks fromStr ip o.judge →
      (runJob fromStr job o).isPlatformError = true
  /-- So is an exploit, where the judge is heard to let the target pass. -/
  exploit : ∀ ip, job.targetIp = some ip → healthcheckAll o.probe job.healthchecks = true →
    job.judgeScript.isSome → serverHears fromStr ip o.judge = some true → RunsExploit job →
      job.exploitScript.isSome → ¬ Speaks fromStr ip o.exploit →
        (runJob fromStr job o).isPlatformError = true

/-! ## The condition -/

/-- The first row for the target has a boolean success; or it has none, which is taken for a
failure, and some other row for the target does say so. -/
def Answers (ip : String) (rows : List Fields) : Prop :=
  ∃ row, rows.find? (ForTarget ip) = some row ∧
    (success row ≠ none ∨ ∃ other ∈ rows, ForTarget ip other ∧ success other = some false)

/-- The row that is taken: the first one for the target, or just the first one. -/
def taken (ip : String) (rows : List Fields) : Option Fields :=
  (rows.find? (ForTarget ip)).or rows.head?

/-- What is read from the rows. -/
def reads (ip : String) (rows : List Fields) : Bool := ((taken ip rows).bind success).getD false

/-- No output of the script is cut inside a character. -/
def Shown (b : Behaviour) : Prop :=
  ∀ code stdout stderr, b = .exited code stdout stderr →
    shown (Text.decodeLossy stdout) ≠ none ∧ shown (Text.decodeLossy stderr) ≠ none

/-- A script whose outputs can be shown and that prints a row at all: only such a script is read. -/
def Readable (fromStr : FromStr) (b : Behaviour) : Prop := scriptRows fromStr b ≠ [] ∧ Shown b

/-- What a job has to bring along behind a judge that lets the target pass. -/
def FitsExploit (fromStr : FromStr) (job : Job) (o : Observation) (ip : String) : Prop :=
  (¬ RunsExploit job → Speaks fromStr ip o.judge) ∧
    (RunsExploit job → job.exploitScript.isSome →
      (Readable fromStr o.exploit →
        Answers ip (scriptRows fromStr o.judge) ∧ Answers ip (scriptRows fromStr o.exploit)) ∧
      (¬ Shown o.exploit → Speaks fromStr ip o.judge ∧ Speaks fromStr ip o.exploit))

/-- What a job has to bring along behind its health checks. -/
def FitsJudge (fromStr : FromStr) (job : Job) (o : Observation) (ip : String) : Prop :=
  (¬ Shown o.judge → Speaks fromStr ip o.judge) ∧
    (Readable fromStr o.judge → if reads ip (scriptRows fromStr o.judge)
      then FitsExploit fromStr job o ip else Answers ip (scriptRows fromStr o.judge))

/-- What a job has to bring along: there is no check or one that can be made, and wherever the
judge, or the judge and the exploit decide, they answer for the target. -/
def Fits (fromStr : FromStr) (job : Job) (o : Observation) : Prop :=
  ∀ ip, job.targetIp = some ip →
    (job.healthchecks = [] ∨ ∃ v ∈ job.healthchecks, Probed v) ∧
      (healthcheckAll o.probe job.healthchecks = true → job.judgeScript.isSome →
        FitsJudge fromStr job o ip)

/-! ## What is read from a script -/

theorem parseBatchResults_toOption (fromStr : FromStr) (stdout : String) :
    (parseBatchResults fromStr stdout).toOption =
      if printedRows fromStr stdout = [] then none
      else some ((printedRows fromStr stdout).map objectRow) := by
  unfold parseBatchResults printedRows
  by_cases hempty : Text.trim stdout = ""
  · rw [if_pos hempty]
    cases fromStr (Text.trim stdout) <;> simp [hempty, Except.toOption]
  · simp only [if_neg hempty]
    cases fromStr (Text.trim stdout) with
    | error e => rfl
    | ok v =>
      cases v with
      | arr items =>
        rcases h : items.filterMap Value.asObject with _ | ⟨row, rows⟩
        · simp [rowsOf, h, Except.toOption]
        · simp [rowsOf, h, Except.toOption]
      | obj fields => rfl
      | _ => rfl

theorem targetRow_map (ip : String) (rows : List Fields) :
    targetRow ip (rows.map objectRow) = (taken ip rows).map objectRow := by
  have hfind : (rows.map objectRow).find? (fun r => decide (r.ip = ip ∨ r.ip = "")) =
      (rows.find? (ForTarget ip)).map objectRow := by
    rw [List.find?_map]
    rfl
  rw [targetRow, hfind, taken, List.head?_map]
  cases rows.find? (ForTarget ip) <;> rfl

theorem targetSuccess_map (ip : String) (rows : List Fields) :
    targetSuccess ip (rows.map objectRow) = reads ip rows := by
  rw [targetSuccess, targetRow_map, reads]
  cases taken ip rows <;> rfl

theorem shown_exited_iff {code : Option Int} {stdout stderr : List UInt8} :
    Shown (.exited code stdout stderr) ↔
      shown (Text.decodeLossy stdout) ≠ none ∧ shown (Text.decodeLossy stderr) ≠ none := by
  refine ⟨fun h => h _ _ _ rfl, ?_⟩
  rintro h _ _ _ ⟨⟩
  exact h

/-- A script is heard when it is readable, and then for what is read from its rows. -/
theorem serverHears_eq_some_iff {fromStr : FromStr} {ip : String} {b : Behaviour} {v : Bool} :
    serverHears fromStr ip b = some v ↔
      Readable fromStr b ∧ v = reads ip (scriptRows fromStr b) := by
  cases b with
  | notWritten e | notStarted e => simp [serverHears, Readable, scriptRows]
  | timedOut stdout => simp [serverHears, Readable, scriptRows]
  | exited code stdout stderr =>
    rw [Readable, shown_exited_iff]
    simp only [serverHears, scriptRows]
    cases shown (Text.decodeLossy stdout) with
    | none => simp
    | some out =>
      cases shown (Text.decodeLossy stderr) with
      | none => simp
      | some err =>
        rw [parseBatchResults_toOption]
        by_cases hnil : printedRows fromStr (Text.decodeLossy stdout) = []
        · simp [hnil]
        · simp [hnil, targetSuccess_map, eq_comm]

theorem hear_eq_panicked_iff {fromStr : FromStr} {name : String} {said : Bool → String}
    {ip : String} {b : Behaviour} : hear fromStr name said ip b = .panicked ↔ ¬ Shown b := by
  cases b with
  | notWritten e | notStarted e => simp [hear, runTargetScript, Shown]
  | timedOut stdout => simp [hear, runTargetScript, Shown]
  | exited code stdout stderr =>
    rw [shown_exited_iff]
    simp only [hear, runTargetScript]
    cases shown (Text.decodeLossy stdout) with
    | none => simp
    | some out =>
      cases shown (Text.decodeLossy stderr) with
      | none => simp
      | some err =>
        simp only [ne_eq, reduceCtorEq, not_false_eq_true, and_self, not_true_eq_false, iff_false]
        cases parseBatchResults fromStr (Text.decodeLossy stdout) with
        | error e => simp
        | ok rows => cases h : targetRow ip rows <;> simp [h]

/-- A script makes the job panic, or it is a fault of the platform, or it is read. -/
theorem hear_cases (fromStr : FromStr) (name : String) (said : Bool → String) (ip : String)
    (b : Behaviour) :
    (¬ Shown b ∧ hear fromStr name said ip b = .panicked) ∨
      (Shown b ∧ ¬ Readable fromStr b ∧ ∃ e, hear fromStr name said ip b = .infrastructure e) ∨
      (Readable fromStr b ∧ ∃ detail out err,
        hear fromStr name said ip b = .row (reads ip (scriptRows fromStr b)) detail out err) := by
  have hpanicked := @hear_eq_panicked_iff fromStr name said ip b
  have hanswer := hear_answer fromStr name said ip b
  cases h : hear fromStr name said ip b with
  | panicked => exact .inl ⟨hpanicked.1 h, rfl⟩
  | infrastructure e =>
    rw [h] at hpanicked hanswer
    refine .inr (.inl ⟨not_not.1 (mt hpanicked.2 (by simp)), fun hr => ?_, e, rfl⟩)
    rw [serverHears_eq_some_iff.2 ⟨hr, rfl⟩] at hanswer
    cases hanswer
  | row success detail out err =>
    rw [h] at hanswer
    obtain ⟨hr, rfl⟩ := serverHears_eq_some_iff.1 hanswer.symm
    exact .inr (.inr ⟨hr, detail, out, err, rfl⟩)

/-- A script that is read says so itself exactly when it answers for the target. -/
theorem says_reads_iff (fromStr : FromStr) (ip : String) (b : Behaviour) :
    Says fromStr ip b (reads ip (scriptRows fromStr b)) ↔ Answers ip (scriptRows fromStr b) := by
  have htaken : ∀ {row}, (scriptRows fromStr b).find? (ForTarget ip) = some row →
      reads ip (scriptRows fromStr b) = (success row).getD false := by
    intro row h
    simp [reads, taken, h]
  constructor
  · rintro ⟨other, hmem, hfor, hsays⟩
    cases hfind : (scriptRows fromStr b).find? (ForTarget ip) with
    | none => exact absurd (decide_eq_true hfor) (List.find?_eq_none.1 hfind other hmem)
    | some row =>
      refine ⟨row, hfind, ?_⟩
      cases hrow : success row with
      | some v => exact .inl (by simp)
      | none =>
        rw [htaken hfind, hrow] at hsays
        exact .inr ⟨other, hmem, hfor, hsays⟩
  · rintro ⟨row, hfind, hrow⟩
    rw [htaken hfind]
    cases hv : success row with
    | some v =>
      exact ⟨row, List.mem_of_find?_eq_some hfind, by simpa using List.find?_some hfind, hv⟩
    | none => exact hrow.resolve_left (not_not.2 hv)

theorem Answers.speaks {fromStr : FromStr} {ip : String} {b : Behaviour}
    (h : Answers ip (scriptRows fromStr b)) : Speaks fromStr ip b :=
  ⟨_, (says_reads_iff fromStr ip b).2 h⟩

/-! ## The outcome of a job -/

section Job

variable {fromStr : FromStr} {job : Job} {o : Observation} {ip : String}

theorem healthcheckAll_of_unprobed (probe : AppHealthcheck → Bool) {items : List Value}
    (hne : items ≠ []) (h : ∀ v ∈ items, ¬ Probed v) : healthcheckAll probe items = true := by
  rw [healthcheckAll, Bool.and_eq_true, Bool.not_eq_true', List.isEmpty_eq_false_iff]
  refine ⟨hne, List.all_eq_true.2 fun v hv => ?_⟩
  have hport : (v.get "port").bind Value.asU64 = none := not_not.1 (h v hv)
  rw [checkOne, hport]
  cases v.asObject <;> rfl

/-- A job with a healthy target is never down. -/
theorem runJob_ne_down (hip : job.targetIp = some ip)
    (hhealth : healthcheckAll o.probe job.healthchecks = true) :
    (runJob fromStr job o).verdict ≠ some .serviceDown := by
  simp only [runJob, hip, hhealth, if_true]
  unfold runJudge
  cases job.judgeScript with
  | none => simp [JobOutcome.verdict]
  | some script =>
    rcases hear fromStr "judge" _ ip o.judge with e | _ | ⟨_ | _, detail, out, err⟩
    · simp [JobOutcome.verdict]
    · simp [JobOutcome.verdict]
    · simp [JobOutcome.verdict]
    · simp only
      split_ifs
      · rw [runExploit_verdict]
        exact exploitVerdict_ne_down _ _ (by simp)
      · simp [JobOutcome.verdict]

theorem runJob_of_judge (hip : job.targetIp = some ip)
    (hhealth : healthcheckAll o.probe job.healthchecks = true) :
    runJob fromStr job o = runJudge fromStr job ip o := by
  simp [runJob, hip, hhealth]

/-- The verdict of an exploit that is read. -/
def exploited (v : Bool) : EvaluationStatus := if v then .vulnerable else .patched

variable (hip : job.targetIp = some ip)
  (hhealth : healthcheckAll o.probe job.healthchecks = true)
  (hprobed : ∃ v ∈ job.healthchecks, Probed v)

include hip hhealth hprobed

/-- What is claimed of a healthy job, by its outcome. -/
theorem sound_iff_outcome (hscript : job.judgeScript.isSome = true) {out : JobOutcome}
    (hout : runJob fromStr job o = out) :
    Sound fromStr job o ↔
      (∀ verdict, out.verdict = some verdict → OnPlayer job verdict →
        RestsOn fromStr job o ip verdict) ∧
      (out.isPlatformError = false → Speaks fromStr ip o.judge ∧
        (serverHears fromStr ip o.judge = some true → RunsExploit job →
          job.exploitScript.isSome = true → Speaks fromStr ip o.exploit)) := by
  subst hout
  constructor
  · intro h
    refine ⟨fun verdict hv hp => ?_, fun herr => ⟨?_, fun hpass hrun hexploit => ?_⟩⟩
    · obtain ⟨ip', hip', hrests⟩ := h.verdicts verdict hv hp
      obtain rfl : ip = ip' := Option.some.inj (hip.symm.trans hip')
      exact hrests
    · by_contra hno
      exact Bool.false_ne_true (herr.symm.trans (h.judge ip hip hhealth hscript hno))
    · by_contra hno
      exact Bool.false_ne_true
        (herr.symm.trans (h.exploit ip hip hhealth hscript hpass hrun hexploit hno))
  · rintro ⟨hverdict, hspeaks⟩
    refine ⟨fun verdict hv hp => ⟨ip, hip, hverdict verdict hv hp⟩, fun hnone => ?_,
      fun ip' hip' _ _ hno => ?_, fun ip' hip' _ _ hpass hrun hexploit hno => ?_⟩
    · obtain ⟨v, hv, hp⟩ := hprobed
      exact absurd hp (hnone v hv)
    · obtain rfl : ip = ip' := Option.some.inj (hip.symm.trans hip')
      by_contra herr
      exact hno (hspeaks (Bool.not_eq_true _ ▸ herr)).1
    · obtain rfl : ip = ip' := Option.some.inj (hip.symm.trans hip')
      by_contra herr
      exact hno ((hspeaks (Bool.not_eq_true _ ▸ herr)).2 hpass hrun hexploit)

omit hip hhealth in
theorem restsOn_broken_iff (hreads : reads ip (scriptRows fromStr o.judge) = false) :
    RestsOn fromStr job o ip .functionalBroken ↔ Answers ip (scriptRows fromStr o.judge) := by
  rw [← says_reads_iff, hreads]
  exact ⟨fun h => h.judge, fun h => ⟨hprobed, h, fun hne => absurd rfl hne⟩⟩

omit hip hhealth in
theorem restsOn_exploited_iff (hreads : reads ip (scriptRows fromStr o.judge) = true) :
    RestsOn fromStr job o ip (exploited (reads ip (scriptRows fromStr o.exploit))) ↔
      Answers ip (scriptRows fromStr o.judge) ∧ Answers ip (scriptRows fromStr o.exploit) := by
  rw [← says_reads_iff, ← says_reads_iff, hreads]
  cases reads ip (scriptRows fromStr o.exploit) with
  | false =>
    exact ⟨fun h => ⟨h.judge, h.exploit (by decide)⟩, fun h => ⟨hprobed, h.1, fun _ => h.2⟩⟩
  | true =>
    exact ⟨fun h => ⟨h.judge, h.exploit (by decide)⟩, fun h => ⟨hprobed, h.1, fun _ => h.2⟩⟩

/-- The part of the theorem behind a judge that lets the target pass. -/
theorem sound_exploit_iff (hscript : job.judgeScript.isSome = true)
    (hread : Readable fromStr o.judge) (hreads : reads ip (scriptRows fromStr o.judge) = true)
    {detail : String} {out err : Option String}
    (hout : runJob fromStr job o = if RunsExploit job then runExploit fromStr job ip detail o
      else .business .patched none (some detail) none out err) :
    Sound fromStr job o ↔ FitsExploit fromStr job o ip := by
  have hpass : serverHears fromStr ip o.judge = some true :=
    serverHears_eq_some_iff.2 ⟨hread, hreads.symm⟩
  by_cases hrun : RunsExploit job
  · rw [if_pos hrun, runExploit] at hout
    cases hexploit : job.exploitScript with
    | none =>
      rw [hexploit] at hout
      rw [sound_iff_outcome hip hhealth hprobed hscript hout]
      simp [JobOutcome.verdict, JobOutcome.isPlatformError, FitsExploit, hrun, hexploit]
    | some script =>
      rw [hexploit] at hout
      simp only [FitsExploit, hrun, hexploit, not_true_eq_false, false_imp_iff, true_and,
        Option.isSome_some, true_imp_iff]
      obtain ⟨hno, hhear⟩ | ⟨hshown, hno, e, hhear⟩ | ⟨hreadable, d, out, err, hhear⟩ :=
        hear_cases fromStr "exploit" (fun _ => "exploit executed") ip o.exploit
      · rw [hhear] at hout
        rw [sound_iff_outcome hip hhealth hprobed hscript hout]
        simp [JobOutcome.verdict, JobOutcome.isPlatformError, hrun, hexploit, hpass, Readable, hno]
      · rw [hhear] at hout
        rw [sound_iff_outcome hip hhealth hprobed hscript hout]
        simp [JobOutcome.verdict, JobOutcome.isPlatformError, hshown, hno]
      · rw [hhear] at hout
        simp only [hreadable, hreadable.2, not_true_eq_false, false_imp_iff, true_imp_iff, and_true]
        have hverdict : runJob fromStr job o =
            .business (exploited (reads ip (scriptRows fromStr o.exploit))) none (some detail)
              (some d) out err := by
          rw [hout]
          cases reads ip (scriptRows fromStr o.exploit) <;> rfl
        have hplayer : OnPlayer job (exploited (reads ip (scriptRows fromStr o.exploit))) := by
          cases reads ip (scriptRows fromStr o.exploit) with
          | false => exact .inr (.inr ⟨rfl, hrun⟩)
          | true => exact .inr (.inl rfl)
        rw [sound_iff_outcome hip hhealth hprobed hscript hverdict]
        constructor
        · rintro ⟨hrests, -⟩
          exact (restsOn_exploited_iff hprobed hreads).1 (hrests _ rfl hplayer)
        · intro hboth
          refine ⟨?_, fun _ => ⟨hboth.1.speaks, fun _ _ _ => hboth.2.speaks⟩⟩
          rintro _ ⟨⟩ -
          exact (restsOn_exploited_iff hprobed hreads).2 hboth
  · rw [if_neg hrun] at hout
    rw [sound_iff_outcome hip hhealth hprobed hscript hout]
    simp [JobOutcome.verdict, JobOutcome.isPlatformError, FitsExploit, OnPlayer, hrun]

/-- The part of the theorem behind the health checks. -/
theorem sound_judge_iff (hscript : job.judgeScript.isSome = true) :
    Sound fromStr job o ↔ FitsJudge fromStr job o ip := by
  have hrun := @runJob_of_judge fromStr job o ip hip hhealth
  obtain ⟨script, hs⟩ := Option.isSome_iff_exists.1 hscript
  rw [runJudge, hs] at hrun
  obtain ⟨hno, hhear⟩ | ⟨hshown, hno, e, hhear⟩ | ⟨hread, detail, out, err, hhear⟩ :=
    hear_cases fromStr "judge" (fun ok => "judge: " ++ if ok then "PASS" else "FAIL") ip o.judge
  · rw [hhear] at hrun
    have hheard : serverHears fromStr ip o.judge ≠ some true :=
      fun h => hno (serverHears_eq_some_iff.1 h).1.2
    rw [sound_iff_outcome hip hhealth hprobed hscript hrun]
    simp [JobOutcome.verdict, JobOutcome.isPlatformError, FitsJudge, Readable, hno, hheard]
  · rw [hhear] at hrun
    rw [sound_iff_outcome hip hhealth hprobed hscript hrun]
    simp [JobOutcome.verdict, JobOutcome.isPlatformError, FitsJudge, hshown, hno]
  · rw [hhear] at hrun
    simp only [FitsJudge, hread, hread.2, not_true_eq_false, false_imp_iff, true_imp_iff, true_and]
    by_cases hreads : reads ip (scriptRows fromStr o.judge) = true
    · rw [if_pos hreads]
      rw [hreads] at hrun
      exact sound_exploit_iff hip hhealth hprobed hscript hread hreads hrun
    · rw [Bool.not_eq_true] at hreads
      have hheard : serverHears fromStr ip o.judge ≠ some true := by
        rw [serverHears_eq_some_iff.2 ⟨hread, rfl⟩, hreads]
        simp
      rw [hreads] at hrun
      rw [sound_iff_outcome hip hhealth hprobed hscript hrun, if_neg (by simp [hreads])]
      constructor
      · rintro ⟨hrests, -⟩
        exact (restsOn_broken_iff hprobed hreads).1 (hrests _ rfl (.inl rfl))
      · intro hanswers
        refine ⟨?_, fun _ => ⟨hanswers.speaks, fun h => absurd h hheard⟩⟩
        rintro _ ⟨⟩ -
        exact (restsOn_broken_iff hprobed hreads).2 hanswers

end Job

/-- What is claimed of a job whose target is down. -/
theorem sound_of_down {fromStr : FromStr} {job : Job} {o : Observation}
    (hdown : (runJob fromStr job o).verdict = some .serviceDown)
    (hhealth : ∀ ip, job.targetIp = some ip → healthcheckAll o.probe job.healthchecks ≠ true) :
    Sound fromStr job o where
  verdicts verdict hv hp := by
    cases hdown.symm.trans hv
    simp [OnPlayer] at hp
  unprobed _ := hdown
  judge ip hip h := absurd h (hhealth ip hip)
  exploit ip hip h := absurd h (hhealth ip hip)

/-- What is claimed of a healthy job without a judge. -/
theorem sound_of_no_judge {fromStr : FromStr} {job : Job} {o : Observation} {ip : String}
    (hip : job.targetIp = some ip) (hhealth : healthcheckAll o.probe job.healthchecks = true)
    (hprobed : ∃ v ∈ job.healthchecks, Probed v) (hscript : job.judgeScript = none) :
    Sound fromStr job o where
  verdicts verdict hv _ := by
    rw [runJob_of_judge hip hhealth, runJudge, hscript] at hv
    cases hv
  unprobed hnone := by
    obtain ⟨v, hv, hp⟩ := hprobed
    exact absurd hp (hnone v hv)
  judge _ _ _ h := by simp [hscript] at h
  exploit _ _ _ h := by simp [hscript] at h

/-- What a job reports is sound if and only if its list of checks is empty or has one that can be
made, and the scripts that decide, or whose outputs are cut, answer for the target. -/
theorem sound_iff (fromStr : FromStr) (job : Job) (o : Observation) :
    Sound fromStr job o ↔ Fits fromStr job o := by
  cases hip : job.targetIp with
  | none =>
    have hdown : (runJob fromStr job o).verdict = some .serviceDown := by
      simp [runJob, hip, JobOutcome.verdict]
    exact iff_of_true (sound_of_down hdown (by simp [hip])) (by simp [Fits, hip])
  | some ip =>
    have hfits : Fits fromStr job o ↔ (job.healthchecks = [] ∨ ∃ v ∈ job.healthchecks, Probed v) ∧
        (healthcheckAll o.probe job.healthchecks = true → job.judgeScript.isSome →
          FitsJudge fromStr job o ip) := by
      simp [Fits, hip]
    rw [hfits]
    by_cases hhealth : healthcheckAll o.probe job.healthchecks = true
    · have hne : job.healthchecks ≠ [] := by
        rintro h
        rw [h] at hhealth
        cases hhealth
      simp only [hhealth, hne, false_or, true_imp_iff]
      by_cases hprobed : ∃ v ∈ job.healthchecks, Probed v
      · simp only [hprobed, true_and]
        cases hscript : job.judgeScript with
        | none =>
          exact iff_of_true (sound_of_no_judge hip hhealth hprobed hscript) (by simp)
        | some script =>
          rw [sound_judge_iff hip hhealth hprobed (by simp [hscript])]
          simp
      · simp only [hprobed, false_and, iff_false]
        exact fun h => runJob_ne_down hip hhealth (h.unprobed (by simpa using hprobed))
    · have hdown : (runJob fromStr job o).verdict = some .serviceDown := by
        simp [runJob, hip, hhealth, JobOutcome.verdict]
      refine iff_of_true (sound_of_down hdown fun _ _ => hhealth) ⟨?_, fun h => absurd h hhealth⟩
      by_contra hno
      rw [not_or, not_exists] at hno
      exact hhealth (healthcheckAll_of_unprobed o.probe hno.1 fun v hv hp => hno.2 v ⟨hv, hp⟩)

/-! ## A row for another target -/

/-- A row for another target, as it is printed. -/
def strayText : String := "[\x7b\"gamebox_ip\":\"10.0.0.9\",\"success\":false\x7d]"

/-- A row for another target. -/
def strayRow : Fields := [("gamebox_ip", .str "10.0.0.9"), ("success", .bool false)]

/-- A parser that knows this document. -/
def parsesStray : FromStr := fun text =>
  if text = strayText then .ok (.arr [.obj strayRow]) else .error "expected value"

/-- An official job with one health check and both scripts. -/
def strayJob : Job where
  kind := "official"
  targetIp := some "10.0.0.5"
  healthchecks := [.obj [("type", .str "tcp"), ("port", .int 80)]]
  judgeScript := some "check.py"
  exploitScript := some "exploit.py"

/-- The judge of a healthy target prints a row for its neighbour. -/
def strayObservation : Observation where
  inspect := .ok (some "10.0.0.5")
  probe _ := true
  judge := .exited (some 0) (Text.encode strayText) []
  exploit := .exited (some 0) (Text.encode strayText) []

theorem scriptRows_stray : scriptRows parsesStray strayObservation.judge = [strayRow] := by
  have htrim : Text.trim strayText = strayText := by decide +kernel
  simp only [scriptRows, strayObservation, Text.decodeLossy_encode, printedRows, htrim]
  rfl

/-- The row of another target is taken for the verdict. -/
theorem not_sound : ¬ ∀ (fromStr : FromStr) (job : Job) (o : Observation),
    (∃ ip, job.targetIp = some ip) → Sound fromStr job o := by
  intro h
  have hbroken : (runJob parsesStray strayJob strayObservation).verdict =
      some .functionalBroken := by decide +kernel
  obtain ⟨ip, hip, hrests⟩ :=
    (h parsesStray strayJob strayObservation ⟨_, rfl⟩).verdicts _ hbroken (.inl rfl)
  cases hip
  obtain ⟨row, hrow, hfor, -⟩ := hrests.judge
  rw [scriptRows_stray, List.mem_singleton] at hrow
  subst hrow
  exact absurd hfor (by decide)

end FloatCtf.Awdp.JudgeServer
