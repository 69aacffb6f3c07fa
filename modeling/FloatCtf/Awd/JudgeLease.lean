import FloatCtf.Awd.JudgeSystem
import FloatCtf.Awd.RoundClock

/-!
# Terminal tasks and leases

A judge task that has a terminal status should stay as it is, and a heartbeat or a result should
change a task only under its current lease.

`submit_result` and `heartbeat_task` check the lease on a row that they read before they write, and
the sweeps read the tasks that they close; the writes themselves are by id.  The release after a
worker error does not look at the lease at all: it puts a task that is `Up` back to pending
(`workerError_reopens_task`).  `judgeLease_run` shows that tasks are absorbed and leases fence in
every run in which the writes find the lease as it was read, a sweep finds no task that has ended
since, and a worker error is reported under the lease of the task.
-/

namespace FloatCtf.Awd

open Process

/-! ## The law -/

/-- The attempt and the token are the current ones of the task. -/
def JudgeTask.Current (t : JudgeTask) (l : Lease) : Prop :=
  t.attemptCount = l.attempt ∧ t.leaseTokenHash = some l.tokenHash

instance (t : JudgeTask) (l : Lease) : Decidable (t.Current l) :=
  inferInstanceAs (Decidable (_ ∧ _))

/-- A task that is terminal stays as it is. -/
def Absorbs (db db' : Db) : Prop :=
  ∀ id t, db.findTask id = some t → t.status.isTerminal = true → db'.findTask id = some t

/-- A task of which the lease is not the current one stays as it is. -/
def Fences (l : Lease) (db db' : Db) : Prop :=
  ∀ id t, db.findTask id = some t → ¬ t.Current l → db'.findTask id = some t

/-- What one statement of a job may do: the tasks are absorbed, and the lease of a request fences. -/
def Lawful (hash : String → String) (j : JudgeJob) (v v' : Db × Unit) : Prop :=
  Absorbs v.1 v'.1 ∧ ∀ l ∈ (j.role hash).lease, Fences l v.1 v'.1

/-- The status and the lease are as they were read. -/
def JudgeTask.SameLease (t seen : JudgeTask) : Prop :=
  t.status = seen.status ∧ t.attemptCount = seen.attemptCount ∧
    t.leaseTokenHash = seen.leaseTokenHash

instance (t seen : JudgeTask) : Decidable (t.SameLease seen) :=
  inferInstanceAs (Decidable (_ ∧ _ ∧ _))

/-- A write under a lease finds the lease as it was read, a worker error was reported under the lease
that was read, and a sweep finds the tasks that it closes unfinished. -/
def Stmt.KeepsLease (db : Db) : Stmt → Prop
  | heartbeatTask l seen | submitResult l seen _ =>
    ∀ t ∈ db.findTask l.taskId, t.SameLease seen
  | releaseTask l seen =>
    (seen.status = .running ∧ seen.Current l) ∧ ∀ t ∈ db.findTask l.taskId, t.SameLease seen
  | terminalizeTask seen => ∀ t ∈ db.findTask seen.id, t.status.isTerminal = false
  | claimTasks expired =>
    ∀ seen ∈ expired, ∀ t ∈ db.findTask seen.id, t.status.isTerminal = false
  | _ => True

instance (db : Db) (l : Stmt) : Decidable (l.KeepsLease db) := by
  unfold Stmt.KeepsLease
  split <;> infer_instance

/-- The next statement keeps the leases. -/
def KeepsLease (_ : JudgeJob) (l : Stmt) (v : Db × Unit) : Prop := l.KeepsLease v.1

instance (j : JudgeJob) (l : Stmt) (v : Db × Unit) : Decidable (KeepsLease j l v) :=
  inferInstanceAs (Decidable (l.KeepsLease v.1))

/-- The judge without an observer. -/
def leaseSystem (hash : String → String) : System Stmt Db AwdError Unit JudgeJob JudgeEnv :=
  judgeSystem hash fun _ _ _ _ => ()

/-- The jobs under way. -/
abbrev JudgePool := Pool Stmt Db AwdError Unit JudgeJob

/-- Nothing has been claimed. -/
def JudgePool.initial (db : Db) : JudgePool := { state := db, ghost := (), threads := [] }

/-! ## The error that comes too late -/

/-- A running event whose only round is over. -/
def judgedDb : Db :=
  { oneRoundDb with
    event := { oneRoundDb.event with status := .running, phase := .attack }
    rounds := [{ createdRound 9 1 0 (100 * sec) with status := .completed }] }

theorem judgedDb_keys : JudgeKeys judgedDb := ⟨List.nodup_nil, List.forall_mem_nil _⟩

/-- The batch of the round is created and its task, number 11, is claimed by worker `w`. -/
def claimedRun : List (Act JudgeJob JudgeEnv) :=
  [.spawn (.createBatch 9)] ++ List.replicate 8 (.step 0 true) ++
  [.spawn (.claim (fun _ => "token") "w" none)] ++ List.replicate 6 (.step 1 true)

/-- The result of a worker with this outcome. -/
def workerResult (outcome : String) : JudgeResultRequest :=
  { workerId := "w", attempt := 1, leaseToken := "token", resultId := "result", outcome
    exitCode := none, stdout := none, stderr := none, durationMs := none }

/-- The worker reports that the service is up, and its request is accepted. -/
def upRun : List (Act JudgeJob JudgeEnv) :=
  claimedRun ++ [.spawn (.result 11 (workerResult "up"))] ++ List.replicate 4 (.step 2 true)

/-- An error report of the same worker arrives afterwards. -/
def lateErrorRun : List (Act JudgeJob JudgeEnv) :=
  [.spawn (.result 11 (workerResult "worker_error"))] ++ List.replicate 3 (.step 3 true)

theorem workerError_reopens_task : JudgeKeys judgedDb ∧
    ¬ Absorbs (upRun.foldl (leaseSystem id).step (JudgePool.initial judgedDb)).state
      ((upRun ++ lateErrorRun).foldl (leaseSystem id).step (JudgePool.initial judgedDb)).state := by
  refine ⟨judgedDb_keys, fun h => ?_⟩
  have hup : ((upRun.foldl (leaseSystem id).step (JudgePool.initial judgedDb)).state.findTask
      11).map (·.status) = some .up := by decide +kernel
  obtain ⟨t, ht, hs⟩ := Option.map_eq_some_iff.1 hup
  have hafter := congrArg (Option.map (·.status)) (h 11 t ht (by rw [hs]; rfl))
  rw [Option.map_some, hs] at hafter
  revert hafter
  decide +kernel

/-! ## Steps -/

variable {db db' : Db} {o : Role} {l : Stmt}

theorem absorbs_of_keeps
    (h : ∀ t₀, KeepsTasks (fun t => t = t₀ ∧ t.status.isTerminal = true) db db') :
    Absorbs db db' := by
  intro id t ht hterm
  obtain ⟨t', ht', rfl, -⟩ := h t id t ht ⟨rfl, hterm⟩
  exact ht'

theorem fences_of_keeps {lease : Lease}
    (h : ∀ t₀, KeepsTasks (fun t => t = t₀ ∧ ¬ t.Current lease) db db') : Fences lease db db' := by
  intro id t ht hcur
  obtain ⟨t', ht', rfl, -⟩ := h t id t ht ⟨rfl, hcur⟩
  exact ht'

theorem JudgeTask.holds_iff {t : JudgeTask} {lease : Lease} (h : t.holds lease = true) :
    t.status = .running ∧ t.Current lease := by
  have hall := of_decide_eq_true h
  exact ⟨hall.1, hall.2.2⟩

/-- The row that a write under a lease finds, when it is as it was read. -/
theorem JudgeTask.SameLease.current {t seen : JudgeTask} {lease : Lease} (h : t.SameLease seen)
    (hs : seen.status = .running ∧ seen.Current lease) :
    t.status = .running ∧ t.Current lease :=
  ⟨h.1.trans hs.1, h.2.1.trans hs.2.1, h.2.2.trans hs.2.2⟩

theorem not_isTerminal_of_running {t : JudgeTask} (h : t.status = .running) :
    ¬ t.status.isTerminal = true := by
  rw [h]
  decide

/-- A terminal task survives every statement under the condition. -/
theorem JudgeStep.absorbs (h : JudgeStep o l db db') (hk : JudgeKeys db) (hc : l.KeepsLease db) :
    Absorbs db db' := by
  refine absorbs_of_keeps fun t₀ => ?_
  cases h with
  | same => exact keepsTasks_of_eq rfl
  | @heartbeat lease seen now e _ hold =>
    refine keepsTasks_edit (fun _ => rfl) fun t ht hP => ?_
    have hrun := ((hc t ht).current (JudgeTask.holds_iff hold)).1
    exact absurd hP.2 (not_isTerminal_of_running hrun)
  | @submit lease seen r now _ hold =>
    refine keepsTasks_edit (fun _ => rfl) fun t ht hP => ?_
    have hrun := ((hc t ht).current (JudgeTask.holds_iff hold)).1
    exact absurd hP.2 (not_isTerminal_of_running hrun)
  | release lease seen =>
    refine keepsTasks_edit (fun _ => rfl) fun t ht hP => ?_
    have hrun := ((hc.2 t ht).current hc.1).1
    exact absurd hP.2 (not_isTerminal_of_running hrun)
  | terminalize seen now =>
    refine keepsTasks_edit (fun _ => rfl) fun t ht hP => ?_
    rw [hc t ht] at hP
    exact absurd hP.2 Bool.false_ne_true
  | claim hash token worker limit now expired =>
    refine keepsTasks_claim hk (fun t hP hs => ?_) _ _ _ _ _ fun seen hseen t ht hP => ?_
    · rw [hs] at hP
      exact Bool.false_ne_true hP.2
    · rw [hc seen hseen t ht] at hP
      exact Bool.false_ne_true hP.2
  | insert => exact keepsTasks_append _ rfl
  | score lease' task gamebox h =>
    obtain ⟨-, rfl⟩ := insertScoreRow_ok h
    exact keepsTasks_of_eq rfl
  | transition h =>
    obtain ⟨rfl, -, -⟩ := transitionRow_ok h
    exact keepsTasks_of_eq rfl
  | batch => exact keepsTasks_of_eq rfl

/-- A statement of a request changes no task but under its current lease. -/
theorem JudgeStep.fences (h : JudgeStep o l db db') (hc : l.KeepsLease db) {lease : Lease}
    (hl : o.lease = some lease) : Fences lease db db' := by
  refine fences_of_keeps fun t₀ => ?_
  cases h with
  | same => exact keepsTasks_of_eq rfl
  | heartbeat now e _ hold =>
    cases hl
    refine keepsTasks_edit (fun _ => rfl) fun t ht hP => ?_
    exact absurd ((hc t ht).current (JudgeTask.holds_iff hold)).2 hP.2
  | submit now _ hold =>
    cases hl
    refine keepsTasks_edit (fun _ => rfl) fun t ht hP => ?_
    exact absurd ((hc t ht).current (JudgeTask.holds_iff hold)).2 hP.2
  | release =>
    cases hl
    refine keepsTasks_edit (fun _ => rfl) fun t ht hP => ?_
    exact absurd ((hc.2 t ht).current hc.1).2 hP.2
  | terminalize => cases hl
  | claim => cases hl
  | insert => cases hl
  | score _ _ _ h =>
    obtain ⟨-, rfl⟩ := insertScoreRow_ok h
    exact keepsTasks_of_eq rfl
  | transition h =>
    obtain ⟨rfl, -, -⟩ := transitionRow_ok h
    exact keepsTasks_of_eq rfl
  | batch => exact keepsTasks_of_eq rfl

/-! ## Runs -/

/-- The law of the leases. -/
def leaseLaw (hash : String → String) : Law (leaseSystem hash) where
  rely v v' := Absorbs v.1 v'.1
  guar := Lawful hash
  inv v := JudgeKeys v.1
  cond := KeepsLease
  refl _ _ _ h _ := h
  trans h h' id t ht hterm := h' id t (h id t ht hterm) hterm
  guar_refl _ _ := ⟨fun _ _ h _ => h, fun _ _ _ _ h _ => h⟩
  rely_of_guar h := h.1

theorem leaseLaw_keeps (hash : String → String) : (leaseLaw hash).Keeps where
  prog j v _ := by
    refine Law.safe_of_does (j.does hash) fun l db db' _ hk hc h => ⟨⟨?_, ?_⟩, ?_⟩
    · exact h.absorbs hk hc
    · exact fun lease hl => h.fences hc (Option.mem_def.1 hl)
    · exact h.judgeKeys hk
  env e v hk := by
    have hsame : (e.apply v.1).judgeTasks = v.1.judgeTasks ∧
        (e.apply v.1).nextId = v.1.nextId := by
      cases e <;> exact ⟨rfl, rfl⟩
    refine ⟨fun id t ht _ => ?_, JudgeKeys.of_ids hk (by rw [← hsame.1]; rfl) hsame.2.ge⟩
    have : (e.apply v.1).findTask id = some t := by rw [Db.findTask, hsame.1]; exact ht
    exact this

/-- In every run of the judge protocol whose statements meet `KeepsLease`, a task that has reached a
terminal status stays as it is, and no statement of a heartbeat or of a result changes a task of
which its lease is not the current one. -/
theorem judgeLease_run (hash : String → String) {db : Db} (hdb : JudgeKeys db)
    {acts : List (Act JudgeJob JudgeEnv)}
    (hacts : Along (leaseSystem hash).step (Meets KeepsLease) (JudgePool.initial db) acts) :
    (∀ pre post, acts = pre ++ post →
      Absorbs (pre.foldl (leaseSystem hash).step (JudgePool.initial db)).state
        (acts.foldl (leaseSystem hash).step (JudgePool.initial db)).state) ∧
    Along (leaseSystem hash).step ((leaseSystem hash).Moves (Lawful hash))
      (JudgePool.initial db) acts := by
  have hinit : (leaseLaw hash).PoolOk (JudgePool.initial db) :=
    ⟨hdb, fun t ht => absurd ht List.not_mem_nil⟩
  refine ⟨?_, (Law.poolOk_run (leaseLaw_keeps hash) hinit hacts).2.2⟩
  rintro pre post rfl
  rw [along_append] at hacts
  obtain ⟨hpre, -, -⟩ := Law.poolOk_run (leaseLaw_keeps hash) hinit hacts.1
  obtain ⟨-, habs, -⟩ := Law.poolOk_run (leaseLaw_keeps hash) hpre hacts.2
  rw [List.foldl_append]
  exact habs

/-- A worker error while the lease is held, another claim, and a result under each lease. -/
def retriedRun : List (Act JudgeJob JudgeEnv) :=
  claimedRun ++ [.spawn (.result 11 (workerResult "worker_error"))] ++
  List.replicate 3 (.step 2 true) ++
  [.spawn (.claim (fun _ => "second") "w" none)] ++ List.replicate 6 (.step 3 true) ++
  [.spawn (.result 11 (workerResult "down"))] ++ List.replicate 10 (.step 4 true) ++
  [.spawn (.result 11 { workerResult "up" with leaseToken := "second", attempt := 2 })] ++
  List.replicate 10 (.step 5 true)

theorem judgeLease_retriedRun :
    ((retriedRun.foldl (leaseSystem id).step (JudgePool.initial judgedDb)).state.judgeTasks.map
      (·.status)) = [.up] ∧
    Along (leaseSystem id).step ((leaseSystem id).Moves (Lawful id)) (JudgePool.initial judgedDb)
      retriedRun :=
  ⟨by decide +kernel, (judgeLease_run id judgedDb_keys (by decide +kernel)).2⟩

end FloatCtf.Awd
