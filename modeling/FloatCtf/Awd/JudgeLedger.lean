import FloatCtf.Awd.JudgeLease

/-!
# The JudgeDown rows of the ledger

A task should have at most one JudgeDown row, only when the outcome recorded for it is down, and
not when that outcome was accepted while the event was not running.

`judge_result` scores the outcome of the request it is handling, after `submit_result` has accepted
it or has found that its result id is recorded already: a repeated result id with another outcome is
scored although the task is `Up` (`replay_scores_up_task`).  Whether the event is running is asked
when the row is written, not when the result is accepted.  `judgeLedger_run` shows that the ledger is
sound in every run in which a repeated result reports what was recorded, a task recorded down is not
written again, and a late result meets an event that does not score.
-/

namespace FloatCtf.Awd

open Process

/-! ## The observer and the law -/

/-- The observer keeps the tasks of which the recorded result was accepted while the event was not
running. -/
def lateWatch (_ : JudgeJob) (l : Stmt) (db : Db) (late : List Nat) : List Nat :=
  match l with
  | .submitResult lease _ _ =>
    if (db.findTask lease.taskId).isNone then late
    else if db.event.status = .running then late.filter (· ≠ lease.taskId)
    else lease.taskId :: late
  | _ => late

/-- The jobs of the judge, with the late penalties as ghost state. -/
def ledgerSystem (hash : String → String) :
    System Stmt Db AwdError (List Nat) JudgeJob JudgeEnv := judgeSystem hash lateWatch

/-- The jobs under way. -/
abbrev LedgerPool := Pool Stmt Db AwdError (List Nat) JudgeJob

/-- Nothing has been claimed. -/
def LedgerPool.initial (db : Db) : LedgerPool := { state := db, ghost := [], threads := [] }

/-- The task is recorded down. -/
def RecordedDown (db : Db) (id : Nat) : Prop := ∃ t ∈ db.findTask id, t.status = .down

/-- The JudgeDown rows: one for a task, of a task that is recorded down, and none of a task whose
result came late. -/
structure JudgeLedger (v : Db × List Nat) : Prop where
  typed : ∀ s ∈ v.1.scores, s.eventType = .judgeDown → ∃ id, s.idempotencyKey = .judgeDown id
  once : ∀ id, v.1.scores.countP (·.idempotencyKey = .judgeDown id) ≤ 1
  recorded : ∀ s ∈ v.1.scores, ∀ id, s.idempotencyKey = .judgeDown id → RecordedDown v.1 id
  onTime : ∀ s ∈ v.1.scores, ∀ id, s.idempotencyKey = .judgeDown id → id ∉ v.2

/-- No write hits a task that is recorded down, a repeated result that reports down repeats what is
recorded, and the scoring of a late result finds the event frozen. -/
def Stmt.KeepsRecord (v : Db × List Nat) : Stmt → Prop
  | submitResult l _ _ | releaseTask l _ => ∀ t ∈ v.1.findTask l.taskId, t.status ≠ .down
  | terminalizeTask seen => ∀ t ∈ v.1.findTask seen.id, t.status ≠ .down
  | claimTasks expired => ∀ seen ∈ expired, ∀ t ∈ v.1.findTask seen.id, t.status ≠ .down
  | readResult l r => r.status = .down → ∀ t ∈ v.1.findTask l.taskId,
      t.callbackIdempotencyKey = some r.resultId → t.status.isTerminal = true → t.status = .down
  | scoreCheck id =>
      id ∈ v.2 → v.1.event.status ≠ .running ∨ v.1.event.phase.allowsJudge = false
  | _ => True

instance (v : Db × List Nat) (l : Stmt) : Decidable (l.KeepsRecord v) := by
  apply @Stmt.casesOn (fun l => Decidable (l.KeepsRecord v)) l <;> intros <;>
    dsimp only [Stmt.KeepsRecord] <;> infer_instance

/-- The next statement keeps the record. -/
def KeepsRecord (_ : JudgeJob) (l : Stmt) (v : Db × List Nat) : Prop := l.KeepsRecord v

instance (j : JudgeJob) (l : Stmt) (v : Db × List Nat) : Decidable (KeepsRecord j l v) :=
  inferInstanceAs (Decidable (l.KeepsRecord v))

/-! ## The replay with another outcome -/

/-- The result of `upRun` again, with the same result id, but down. -/
def replayRun : List (Act JudgeJob JudgeEnv) :=
  claimedRun ++ [.spawn (.result 11 (workerResult "up"))] ++ List.replicate 4 (.step 2 true) ++
  [.spawn (.result 11 (workerResult "down"))] ++ List.replicate 7 (.step 3 true)

/-- A database with an empty ledger, and keys that are keys. -/
structure EmptyLedger (db : Db) : Prop where
  keys : JudgeKeys db
  scores : db.scores = []

theorem replay_scores_up_task : EmptyLedger judgedDb ∧
    ¬ JudgeLedger (replayRun.foldl (ledgerSystem id).step (LedgerPool.initial judgedDb)).view := by
  refine ⟨⟨judgedDb_keys, rfl⟩, fun h => ?_⟩
  have hscored : (replayRun.foldl (ledgerSystem id).step (LedgerPool.initial judgedDb)).state.scores.map
      (·.idempotencyKey) = [.judgeDown 11] := by decide +kernel
  obtain ⟨s, hs, hkey⟩ := List.mem_map.1 (hscored ▸ List.mem_singleton_self _)
  obtain ⟨t, ht, hdown⟩ := h.recorded s hs 11 hkey
  have hup : ((replayRun.foldl (ledgerSystem id).step
      (LedgerPool.initial judgedDb)).view.1.findTask 11).map (·.status) = some .up := by
    decide +kernel
  rw [Option.mem_def.1 ht, Option.map_some, hdown] at hup
  cases hup

/-! ## The ledger law -/

/-- Tasks that are recorded down stay so, and nothing accepted late is recorded for them. -/
def RecordKept (v v' : Db × List Nat) : Prop :=
  KeepsTasks (fun t => t.status = .down) v.1 v'.1 ∧
    ∀ id, RecordedDown v.1 id → id ∈ v'.2 → id ∈ v.2

/-- A JudgeDown row may be written for the task: it is recorded down, and not too late. -/
def Scorable (v : Db × List Nat) (id : Nat) : Prop := RecordedDown v.1 id ∧ id ∉ v.2

/-- What holds between two statements. -/
structure LedgerInv (v : Db × List Nat) : Prop where
  keys : JudgeKeys v.1
  unique : (v.1.scores.map (·.idempotencyKey)).Nodup
  typed : ∀ s ∈ v.1.scores, s.eventType = .judgeDown → ∃ id, s.idempotencyKey = .judgeDown id
  scorable : ∀ s ∈ v.1.scores, ∀ id, s.idempotencyKey = .judgeDown id → Scorable v id

theorem RecordKept.refl (v : Db × List Nat) : RecordKept v v :=
  ⟨keepsTasks_of_eq rfl, fun _ _ h => h⟩

theorem RecordKept.recordedDown {v v' : Db × List Nat} (h : RecordKept v v') {id : Nat}
    (hd : RecordedDown v.1 id) : RecordedDown v'.1 id := by
  obtain ⟨t, ht, hs⟩ := hd
  exact h.1 id t ht hs

theorem RecordKept.trans {a b c : Db × List Nat} (h : RecordKept a b) (h' : RecordKept b c) :
    RecordKept a c :=
  ⟨h.1.trans h'.1, fun id hd hc => h.2 id hd (h'.2 id (h.recordedDown hd) hc)⟩

/-- The law of the ledger. -/
def ledgerLaw (hash : String → String) : Law (ledgerSystem hash) where
  rely := RecordKept
  guar _ := RecordKept
  inv := LedgerInv
  cond := KeepsRecord
  refl := RecordKept.refl
  trans := RecordKept.trans
  guar_refl _ := RecordKept.refl
  rely_of_guar h := h

theorem LedgerInv.judgeLedger {v : Db × List Nat} (h : LedgerInv v) : JudgeLedger v where
  typed := h.typed
  once id := by
    have hcount := List.nodup_iff_count_le_one.1 h.unique (.judgeDown id)
    rw [List.count, List.countP_map] at hcount
    refine le_trans (le_of_eq (List.countP_congr fun s _ => ?_)) hcount
    simp
  recorded s hs id hkey := (h.scorable s hs id hkey).1
  onTime s hs id hkey := (h.scorable s hs id hkey).2

theorem RecordKept.scorable {v v' : Db × List Nat} (h : RecordKept v v') {id : Nat}
    (hs : Scorable v id) : Scorable v' id :=
  ⟨h.recordedDown hs.1, fun hid => hs.2 (h.2 id hs.1 hid)⟩

/-! ## Steps -/

variable {db db' : Db} {late : List Nat} {o : Role} {l : Stmt} {j : JudgeJob}

/-- The record of late results does not change for a task that is recorded down. -/
theorem mem_lateWatch (j : JudgeJob) (hc : l.KeepsRecord (db, late)) {id : Nat} (hd : RecordedDown db id) :
    id ∈ lateWatch j l db late ↔ id ∈ late := by
  cases l with
  | submitResult lease seen r =>
    obtain ⟨t, ht, hs⟩ := hd
    have hne : id ≠ lease.taskId := by
      rintro rfl
      exact hc t ht hs
    simp only [lateWatch]
    split_ifs <;> simp [hne]
  | _ => exact Iff.rfl

theorem JudgeStep.keepsDown (h : JudgeStep o l db db') (hk : JudgeKeys db)
    (hc : l.KeepsRecord (db, late)) : KeepsTasks (fun t => t.status = .down) db db' := by
  refine h.keepsTasks hk (fun t ht => by rw [ht]; decide) ?_
  cases l with
  | heartbeatTask => exact fun t _ ht _ _ => ht
  | submitResult => exact fun t ht hs => absurd hs (hc t ht)
  | releaseTask => exact fun t ht hs => absurd hs (hc t ht)
  | terminalizeTask => exact fun t ht hs => absurd hs (hc t ht)
  | claimTasks => exact hc
  | _ => trivial

/-- What a statement adds to the ledger. -/
theorem JudgeStep.scores (h : JudgeStep o l db db') : db'.scores = db.scores ∨
    ∃ lease task gamebox, o = .result lease ∧ l = .scoreJudgeDown lease.taskId ∧
      (∀ s ∈ db.scores, s.idempotencyKey ≠ .judgeDown lease.taskId) ∧
      db'.scores = db.scores ++ [judgeDownEvent lease.taskId task gamebox db.nextId] := by
  cases h with
  | score lease task gamebox h =>
    obtain ⟨hnew, rfl⟩ := insertScoreRow_ok h
    exact .inr ⟨lease, task, gamebox, rfl, rfl, hnew, rfl⟩
  | transition h =>
    obtain ⟨rfl, -, -⟩ := transitionRow_ok h
    exact .inl rfl
  | _ => exact .inl rfl

/-- One statement under the condition; a JudgeDown row is written for a task that may have one. -/
theorem JudgeStep.ledger (j : JudgeJob) (h : JudgeStep o l db db') (hi : LedgerInv (db, late))
    (hc : l.KeepsRecord (db, late))
    (hs : ∀ lease, o = .result lease → l = .scoreJudgeDown lease.taskId →
      Scorable (db, late) lease.taskId) :
    RecordKept (db, late) (db', lateWatch j l db late) ∧
      LedgerInv (db', lateWatch j l db late) := by
  have hkept : RecordKept (db, late) (db', lateWatch j l db late) :=
    ⟨h.keepsDown hi.keys hc, fun id hd hid => (mem_lateWatch j hc hd).1 hid⟩
  refine ⟨hkept, ?_⟩
  rcases h.scores with he | ⟨lease, task, gamebox, ho, hl, hnew, he⟩
  · refine ⟨h.judgeKeys hi.keys, he ▸ hi.unique, he ▸ hi.typed, fun s hmem id hkey => ?_⟩
    exact hkept.scorable (hi.scorable s (he ▸ hmem) id hkey)
  · refine ⟨h.judgeKeys hi.keys, ?_, fun s hmem hty => ?_, fun s hmem id hkey => ?_⟩
    · dsimp only
      rw [he, List.map_append, List.nodup_append]
      refine ⟨hi.unique, by simp, fun a ha b hb => ?_⟩
      obtain ⟨s, hmem, rfl⟩ := List.mem_map.1 ha
      rw [List.map_singleton, List.mem_singleton] at hb
      rw [hb]
      exact hnew s hmem
    · rcases List.mem_append.1 (he ▸ hmem) with hmem | hmem
      · exact hi.typed s hmem hty
      · rw [List.mem_singleton.1 hmem]
        exact ⟨lease.taskId, rfl⟩
    · rcases List.mem_append.1 (he ▸ hmem) with hmem | hmem
      · exact hkept.scorable (hi.scorable s hmem id hkey)
      · rw [List.mem_singleton.1 hmem] at hkey
        cases hkey
        exact hkept.scorable (hs lease ho hl)

/-! ## The result request -/

section Safe

variable {hash : String → String} {v : Db × List Nat}

/-- A program that writes no JudgeDown row. -/
theorem ledger_safe {α : Type} {p : AwdM α} (hp : p.Does (JudgeStep o))
    (ho : ∀ lease, o ≠ .result lease) : (ledgerLaw hash).Safe j (fun _ _ => True) p v :=
  Law.safe_of_does hp fun _ _ _ _ hi hc h =>
    h.ledger j hi hc fun lease hr _ => absurd hr (ho lease)

/-- A read, at the label of which the observer does not look. -/
theorem ledger_query {α : Type} {Q : α → Db × List Nat → Prop} {l : Stmt} {e : AwdError}
    {f : Db → α} (hl : (ledgerSystem hash).Unseen j l)
    (h : ∀ v', RecordKept v v' → l.KeepsRecord v' → Q (f v'.1) v') :
    (ledgerLaw hash).Safe j Q (Prog.query l e f) v :=
  Law.safe_query hl fun v' hv _ hc => h v' hv hc

theorem safe_scoreDown (lease : Lease) (task : JudgeTask) (hd : RecordedDown v.1 lease.taskId) :
    (ledgerLaw hash).Safe j (fun _ _ => True) (scoreDown lease.taskId task) v := by
  refine Law.safe_bind (ledger_query (fun _ _ => rfl) fun v1 h1 hc =>
    Law.safe_ite (fun _ => trivial) fun hrun => ?_)
  have hs1 : Scorable v1 lease.taskId := by
    refine ⟨h1.recordedDown hd, fun hlate => hrun ?_⟩
    rcases hc hlate with hstatus | hphase
    · exact .inl hstatus
    · exact .inr (by simp [hphase])
  refine Law.safe_bind (ledger_query (fun _ _ => rfl) fun v2 h2 _ =>
    Law.safe_ite (fun _ => trivial) fun _ => ?_)
  have hs2 := h2.scorable hs1
  split
  · trivial
  refine Law.safe_bind (Law.safe_attempt (ledger_query (fun _ _ => rfl) fun v3 h3 _ => ?_)
    fun _ _ _ => trivial)
  have hs3 := h3.scorable hs2
  split
  · refine Law.safe_bind (Law.safe_attempt (Law.safe_exec (fun _ _ => rfl)
      fun v4 h4 hi hc db' a hw => ?_) fun _ _ _ => trivial)
    obtain ⟨hkept, hinv⟩ := (JudgeStep.score lease task _ hw).ledger j hi hc
      fun _ hr _ => Role.result.inj hr ▸ h4.scorable hs3
    exact ⟨hkept, hinv, trivial⟩
  · trivial

/-- A write to a task that is there. -/
theorem safe_writeTask {Q : Unit → Db × List Nat → Prop} {l : Stmt} {id : Nat}
    {f : JudgeTask → JudgeTask} (hstep : ∀ db, JudgeStep o l db (db.editTask id f))
    (hl : ∀ k, l ≠ .scoreJudgeDown k)
    (hQ : ∀ (v' : Db × List Nat) t, v'.1.findTask id = some t →
      Q () (v'.1.editTask id f, lateWatch j l v'.1 v'.2)) :
    (ledgerLaw hash).Safe j Q (writeTask l id f) v := by
  refine Law.safe_exec_seen fun v' hv hi hc => ?_
  have hledger {db' : Db} (h : JudgeStep o l v'.1 db') :=
    h.ledger j hi hc fun lease _ hlbl => absurd hlbl (hl _)
  simp only [System.after, Prog.after]
  cases ht : findTaskById v'.1.judgeTasks id with
  | none =>
    obtain ⟨hkept, hinv⟩ := hledger (.same o l v'.1)
    exact ⟨hkept, hinv, fun _ _ h => by simp at h⟩
  | some t =>
    obtain ⟨hkept, hinv⟩ := hledger (hstep v'.1)
    exact ⟨hkept, hinv, fun _ _ _ => hQ v' t ht⟩

/-- An accepted result is recorded, and a repeated one was. -/
theorem safe_submitResult (lease : Lease) (r : JudgeReport) (now : Int) :
    (ledgerLaw hash).Safe j (fun res v => res = .ok ∨ res = .idempotent → r.status = .down →
      RecordedDown v.1 lease.taskId) (submitResult lease r now) v := by
  refine Law.safe_bind (ledger_query (fun _ _ => rfl) fun v1 h1 hc => ?_)
  cases ht : findTaskById v1.1.judgeTasks lease.taskId with
  | none => exact fun h => by simp at h
  | some task =>
    refine Law.safe_ite (fun hrep _ hdown => ?_) fun _ => Law.safe_ite (fun _ h => by simp at h)
      fun hold => Law.safe_ite (fun _ h => by simp at h) fun _ => Law.safe_bind ?_
    · exact ⟨task, ht, hc hdown task ht hrep.1 hrep.2⟩
    · refine safe_writeTask (fun db => .submit now db (by simpa using hold)) (by simp)
        fun v2 t ht2 _ hdown => ⟨t.reported now r, ?_, hdown⟩
      exact findTask_editTask_self _ (fun _ => rfl) ht2

theorem safe_judgeResult (taskId : Nat) (req : JudgeResultRequest) :
    (ledgerLaw hash).Safe j (fun _ _ => True) (judgeResult hash taskId req) v := by
  have hfinish (v : Db × List Nat) :
      (ledgerLaw hash).Safe j (fun _ _ => True) (do let _ ← maybeFinishEvent.attempt : AwdM Unit) v :=
    ledger_safe (Prog.does_bind (Prog.does_attempt does_maybeFinishEvent) fun _ => trivial)
      (o := .server) nofun
  have hsubmit (task : JudgeTask) (status : JudgeTaskStatus) (v : Db × List Nat) :
      (ledgerLaw hash).Safe j (fun _ _ => True) (submitAndScore hash taskId task req status) v := by
    refine Law.safe_bind (Law.safe_look (fun _ _ => rfl) fun v1 _ _ => Law.safe_bind ?_)
    refine (safe_submitResult (req.lease hash taskId) _ _).imp fun res v2 hres => ?_
    have hscore (hok : res = .ok ∨ res = .idempotent) :
        (ledgerLaw hash).Safe j (fun _ _ => True) (scoreResult taskId task status) v2 := by
      refine Law.safe_seq ?_ fun _ v3 _ => hfinish v3
      exact Law.safe_ite (fun hd => safe_scoreDown (req.lease hash taskId) task (hres hok hd))
        fun _ => trivial
    cases res with
    | stale => trivial
    | notFound => trivial
    | ok => exact hscore (.inl rfl)
    | idempotent => exact hscore (.inr rfl)
  refine Law.safe_bind (ledger_query (fun _ _ => rfl) fun v1 _ _ => ?_)
  split
  · trivial
  refine Law.safe_ite (fun _ => trivial) fun _ => ?_
  split
  · exact hsubmit _ _ _
  · exact hsubmit _ _ _
  · exact hsubmit _ _ _
  · refine Law.safe_ite (fun _ => ?_) fun _ => hsubmit _ _ _
    refine Law.safe_bind (Law.safe_look (fun _ _ => rfl) fun v2 _ _ => ?_)
    refine Law.safe_ite (fun _ => ?_) fun _ => hsubmit _ _ _
    exact safe_writeTask (fun db => .release (req.lease hash taskId) _ db) (by simp)
      fun _ _ _ => trivial
  · trivial

end Safe

/-! ## Runs -/

theorem ledgerLaw_keeps (hash : String → String) : (ledgerLaw hash).Keeps where
  prog j v _ := by
    have hplain (j : JudgeJob) (hj : ∀ lease, j.role hash ≠ .result lease) :
        (ledgerLaw hash).Safe j (fun _ _ => True) (j.prog hash) v := ledger_safe (j.does hash) hj
    cases j with
    | result taskId req => exact safe_judgeResult taskId req
    | createBatch roundId => exact hplain _ nofun
    | claim token workerId limit => exact hplain _ nofun
    | heartbeat taskId workerId attempt leaseToken => exact hplain _ nofun
    | batchDeadline batchId => exact hplain _ nofun
  env e v hi := by
    have hsame : (e.apply v.1).judgeTasks = v.1.judgeTasks ∧
        (e.apply v.1).nextId = v.1.nextId ∧ (e.apply v.1).scores = v.1.scores := by
      cases e <;> exact ⟨rfl, rfl, rfl⟩
    have hkept : RecordKept v (e.apply v.1, v.2) := ⟨keepsTasks_of_eq hsame.1, fun _ _ h => h⟩
    refine ⟨hkept, JudgeKeys.of_ids hi.keys (congrArg _ hsame.1) hsame.2.1.ge, ?_, ?_, ?_⟩
    · exact (congrArg (List.map _) hsame.2.2).symm ▸ hi.unique
    · exact fun s hs => hi.typed s (hsame.2.2 ▸ hs)
    · exact fun s hs id hkey => hkept.scorable (hi.scorable s (hsame.2.2 ▸ hs) id hkey)

/-- In every run of the judge protocol whose statements meet `KeepsRecord`, the JudgeDown rows are
those of tasks recorded down, one for each, and none for a result that came late. -/
theorem judgeLedger_run (hash : String → String) {db : Db} (hdb : EmptyLedger db)
    {acts : List (Act JudgeJob JudgeEnv)}
    (hacts : Along (ledgerSystem hash).step (Meets KeepsRecord) (LedgerPool.initial db) acts) :
    JudgeLedger (acts.foldl (ledgerSystem hash).step (LedgerPool.initial db)).view := by
  have hnil : ∀ s, s ∉ db.scores := by
    rw [hdb.scores]
    exact fun _ => List.not_mem_nil
  have hinit : (ledgerLaw hash).PoolOk (LedgerPool.initial db) := by
    refine ⟨⟨hdb.keys, ?_, fun s hs => absurd hs (hnil s), fun s hs => absurd hs (hnil s)⟩,
      fun t ht => absurd ht List.not_mem_nil⟩
    rw [Pool.view, LedgerPool.initial, hdb.scores]
    exact List.nodup_nil
  exact (Law.poolOk_run (ledgerLaw_keeps hash) hinit hacts).1.inv.judgeLedger

/-- A result that is down, delivered twice side by side, and once more while the event is paused. -/
def repeatedDownRun : List (Act JudgeJob JudgeEnv) :=
  claimedRun ++ [.spawn (.result 11 (workerResult "down")), .spawn (.result 11 (workerResult "down"))] ++
  [.step 2 true, .step 2 true, .step 2 true, .step 2 true] ++ List.replicate 12 (.step 3 true) ++
  List.replicate 12 (.step 2 true) ++ [.env (.lifecycle .paused .pause)] ++
  [.spawn (.result 11 (workerResult "down"))] ++ List.replicate 12 (.step 4 true)

theorem judgeLedger_repeatedDownRun :
    ((repeatedDownRun.foldl (ledgerSystem id).step (LedgerPool.initial judgedDb)).state.scores.map
      (·.idempotencyKey)) = [.judgeDown 11] ∧
    JudgeLedger
      (repeatedDownRun.foldl (ledgerSystem id).step (LedgerPool.initial judgedDb)).view :=
  ⟨by decide +kernel, judgeLedger_run id ⟨judgedDb_keys, rfl⟩ (by decide +kernel)⟩

end FloatCtf.Awd
