import FloatCtf.Awd.JudgeSystem
import FloatCtf.Awd.RoundClock
import FloatCtf.Process.Crash

/-!
# The columns of a judge task

A judge task should have a lease exactly while it is `Running`, use no more than its attempts, and
have a lease that ends by its deadline; the tasks of a completed batch should be over.

The operations of the judge come one after the other, in any order, and each may stop halfway or have
statements fail; requests that overlap are out of scope here.  `claim_tasks` gives every lease its
full length, whatever the deadline is (`claim_outlives_deadline`), and the release after a worker
error reopens tasks that are over; `judgeRecord_run` is the invariant in every run that does
neither. -/

namespace FloatCtf.Awd

open Process

/-! ## Operations -/

/-- Reopens or ends the tasks whose lease has expired. -/
def reclaimExpiredLeases (now : Int) : AwdM (List Nat) := do
  let expired ← select fun db => db.judgeTasks.filter (·.leaseExpired now)
  Prog.each expired fun seen => writeTask (.claimTasks [seen]) seen.id (reclaimUpdate now seen)
  pure ((expired.filter fun t => !t.canRetry now).map (·.eventId))

/-- An operation of the judge.  A result is `submit_result`, or `release_task_to_pending` when it is
a worker error. -/
inductive JudgeOp where
  | createBatch (roundId : Nat)
  | claimTasks (token : Nat → String) (worker : String) (limit : Nat)
  | heartbeatTask (l : Lease)
  | result (taskId : Nat) (req : JudgeResultRequest)
  | reclaimExpiredLeases
  | terminalizeBatchDeadline (batchId : Nat)
  | terminalizePastDeadline
  | maybeCompleteBatch (batchId : Nat)

/-- The program of an operation. -/
def JudgeOp.prog (hash : String → String) : JudgeOp → AwdM Unit
  | createBatch roundId => do let _ ← Awd.createBatch roundId
  | claimTasks token worker limit => do let _ ← Awd.claimTasks hash token worker limit
  | heartbeatTask l => judgeHeartbeat l
  | result taskId req => judgeResult hash taskId req
  | reclaimExpiredLeases => do
    let now ← utcNow
    let _ ← Awd.reclaimExpiredLeases now
  | terminalizeBatchDeadline batchId => do
    let now ← utcNow
    let _ ← Awd.terminalizeBatchDeadline batchId now
  | terminalizePastDeadline => do
    let now ← utcNow
    let _ ← Awd.terminalizePastDeadline now
  | maybeCompleteBatch batchId => do let _ ← Awd.maybeCompleteBatch batchId

/-- An operation with the answers to its statements, or something that happens around the judge. -/
inductive RecordAct where
  | run (op : JudgeOp) (answers : List Bool)
  | env (e : JudgeEnv)

/-- One operation that may stop anywhere, or a change beside it. -/
def recordStep (hash : String → String) (db : Db) : RecordAct → Db
  | .run op answers => ((op.prog hash).crashRun (fun _ _ g => g) answers (db, ())).1
  | .env e => e.apply db

/-! ## The record -/

/-- The columns of a task fit together. -/
structure JudgeTask.WellFormed (t : JudgeTask) : Prop where
  owner : t.workerId.isSome ↔ t.status = .running
  token : t.leaseTokenHash.isSome ↔ t.status = .running
  expiry : t.leaseExpiresAt.isSome ↔ t.status = .running
  attempts : t.attemptCount ≤ t.maxAttempts
  inTime : t.status = .running → ∀ e ∈ t.leaseExpiresAt, e ≤ t.deadlineAt

/-- The batch is marked completed. -/
def Db.closed (db : Db) (batchId : Nat) : Prop :=
  ∃ b ∈ db.batches, b.id = batchId ∧ b.status = .completed

/-- The tasks are well formed, and those of a completed batch are over. -/
structure RecordOk (db : Db) : Prop where
  tasks : ∀ t ∈ db.judgeTasks, t.WellFormed
  closed : ∀ t ∈ db.judgeTasks, db.closed t.batchId → t.status.isTerminal = true

/-- No task is lost, and none has fewer attempts than before. -/
def AttemptsGrow (db db' : Db) : Prop :=
  ∀ t ∈ db.judgeTasks, ∃ t' ∈ db'.judgeTasks, t'.id = t.id ∧ t.attemptCount ≤ t'.attemptCount

/-! ## The condition -/

/-- The tasks that a claim takes. -/
def Db.claimTargets (db : Db) (limit : Nat) : List JudgeTask :=
  claimable db.event.eventId limit
    (reclaimRows db.now (db.judgeTasks.filter (·.leaseExpired db.now)) db.judgeTasks)

instance (db : Db) (batchId : Nat) : Decidable (db.closed batchId) :=
  inferInstanceAs (Decidable (∃ b ∈ db.batches, _))

/-- The request is a worker error on which `judge_result` releases the task. -/
def Db.releases (db : Db) (t : JudgeTask) (req : JudgeResultRequest) : Prop :=
  t.eventId = db.event.eventId ∧ Outcome.ofString req.outcome = .workerError ∧
    t.attemptCount < t.maxAttempts ∧ db.now < t.deadlineAt

instance (db : Db) (t : JudgeTask) (req : JudgeResultRequest) : Decidable (db.releases t req) :=
  inferInstanceAs (Decidable (_ ∧ _))

/-- A claim takes no task whose deadline is nearer than the end of the lease, and a worker error
releases no task of a completed batch. -/
def JudgeOp.Proper (db : Db) : JudgeOp → Prop
  | claimTasks _ _ limit =>
    ∀ t ∈ db.claimTargets limit, db.now + leaseTtlSecs * sec ≤ t.deadlineAt
  | result taskId req =>
    ∀ t ∈ db.findTask taskId, db.releases t req → ¬ db.closed t.batchId
  | _ => True

/-- A step that keeps clear of the defects. -/
def ProperStep (db : Db) : RecordAct → Prop
  | .run op _ => op.Proper db
  | .env _ => True

instance (db : Db) (a : RecordAct) : Decidable (ProperStep db a) := by
  unfold ProperStep JudgeOp.Proper
  split
  · split <;> infer_instance
  · infer_instance

/-! ## The invariant -/

/-- A well formed task that has an attempt left while it waits. -/
structure JudgeTask.Sound (t : JudgeTask) : Prop extends t.WellFormed where
  left : t.status = .pending → t.attemptCount < t.maxAttempts

/-- The invariant of the columns: tasks are sound, and those of a completed batch are over. -/
structure RecordInv (start db : Db) : Prop where
  keys : JudgeKeys db
  tasks : ∀ t ∈ db.judgeTasks, t.Sound
  closed : ∀ t ∈ db.judgeTasks, db.closed t.batchId → t.status.isTerminal = true
  batchIds : ∀ b ∈ db.batches, b.id < db.nextId
  grow : AttemptsGrow start db

/-- What an update may make of a task. -/
structure JudgeTask.Step (db : Db) (t t' : JudgeTask) : Prop where
  id : t'.id = t.id
  batchId : t'.batchId = t.batchId
  sound : t'.Sound
  attempts : t.attemptCount ≤ t'.attemptCount
  closed : db.closed t.batchId → t'.status.isTerminal = true

variable {start db db' : Db} {t t' : JudgeTask} {id : Nat} {f : JudgeTask → JudgeTask}

theorem RecordInv.step_self (h : RecordInv start db) (ht : t ∈ db.judgeTasks) : t.Step db t :=
  ⟨rfl, rfl, h.tasks t ht, le_rfl, h.closed t ht⟩

theorem RecordInv.map (h : RecordInv start db) (hf : ∀ t ∈ db.judgeTasks, t.Step db (f t)) :
    RecordInv start { db with judgeTasks := db.judgeTasks.map f } where
  keys := by
    refine h.keys.of_ids ?_ le_rfl
    rw [List.map_map]
    exact List.map_congr_left fun t ht => (hf t ht).id
  tasks := by
    intro t' ht'
    obtain ⟨t, ht, rfl⟩ := List.mem_map.mp ht'
    exact (hf t ht).sound
  closed := by
    intro t' ht' hc
    obtain ⟨t, ht, rfl⟩ := List.mem_map.mp ht'
    exact (hf t ht).closed ((hf t ht).batchId ▸ hc)
  batchIds := h.batchIds
  grow := by
    intro t ht
    obtain ⟨u, hu, hid, hle⟩ := h.grow t ht
    exact ⟨f u, List.mem_map_of_mem hu, (hf u hu).id.trans hid, hle.trans (hf u hu).attempts⟩

theorem RecordInv.edit (h : RecordInv start db)
    (hf : ∀ t ∈ db.judgeTasks, t.id = id → t.Step db (f t)) : RecordInv start (db.editTask id f) := by
  refine h.map fun t ht => ?_
  split_ifs with he
  · exact hf t ht he
  · exact h.step_self ht

/-- The row that is found by its id is the only one with it. -/
theorem RecordInv.find (h : RecordInv start db) (hf : findTaskById db.judgeTasks id = some t)
    (ht' : t' ∈ db.judgeTasks) (hid : t'.id = id) : t' = t := by
  have := findTaskById_of_mem h.keys.nodup ht'
  rw [hid, hf] at this
  exact (Option.some.inj this).symm

/-! ## Updates of a task -/

theorem step_released (hleft : t.attemptCount < t.maxAttempts)
    (hc : ¬ db.closed t.batchId) : t.Step db t.released where
  id := rfl
  batchId := rfl
  attempts := le_rfl
  closed hc' := absurd hc' hc
  sound := by
    refine ⟨⟨?_, ?_, ?_, hleft.le, nofun⟩, fun _ => hleft⟩ <;>
      simp [JudgeTask.released, JudgeTask.clearLease]

theorem step_failed (h : t.Sound) (now : Int) : t.Step db (t.failed now) where
  id := rfl
  batchId := rfl
  attempts := le_rfl
  closed _ := rfl
  sound := by
    refine ⟨⟨?_, ?_, ?_, h.attempts, nofun⟩, nofun⟩ <;>
      simp [JudgeTask.failed, JudgeTask.clearLease]

theorem step_reported (h : t.Sound) (now : Int) {r : JudgeReport}
    (hr : r.status.isTerminal = true) : t.Step db (t.reported now r) where
  id := rfl
  batchId := rfl
  attempts := le_rfl
  closed _ := hr
  sound := by
    have hrun : r.status ≠ .running := by rintro h; rw [h] at hr; cases hr
    have hpend : r.status ≠ .pending := by rintro h; rw [h] at hr; cases hr
    refine ⟨⟨?_, ?_, ?_, h.attempts, fun h => absurd h hrun⟩, fun h => absurd h hpend⟩ <;>
      simp [JudgeTask.reported, JudgeTask.clearLease, hrun]

theorem step_renewed (h : t.Sound) (hs : t.status = .running) (now : Int) {e : Int}
    (he : e ≤ t.deadlineAt) (hc : ¬ db.closed t.batchId) : t.Step db (t.renewed now e) where
  id := rfl
  batchId := rfl
  attempts := le_rfl
  closed hc' := absurd hc' hc
  sound := by
    refine ⟨⟨h.owner, h.token, ?_, h.attempts, fun _ => ?_⟩, h.left⟩
    · simp [JudgeTask.renewed, hs]
    · simpa [JudgeTask.renewed] using he

theorem step_claimed (h : t.Sound) (hs : t.status = .pending) (worker tokenHash : String)
    (now : Int) {e : Int} (he : e ≤ t.deadlineAt) (hc : ¬ db.closed t.batchId) :
    t.Step db (t.claimed worker tokenHash now e) where
  id := rfl
  batchId := rfl
  attempts := by simp [JudgeTask.claimed]
  closed hc' := absurd hc' hc
  sound := by
    have := h.left hs
    refine ⟨⟨?_, ?_, ?_, ?_, fun _ => ?_⟩, nofun⟩
    · simp [JudgeTask.claimed]
    · simp [JudgeTask.claimed]
    · simp [JudgeTask.claimed]
    · simp only [JudgeTask.claimed]
      omega
    · simpa [JudgeTask.claimed] using he

section Updates

variable {ι : Type} {xs : List ι} {key : ι → Nat} {g : ι → JudgeTask → JudgeTask}
  {tasks : List JudgeTask}

/-- What a sequence of updates by id makes of one task. -/
def updated (xs : List ι) (key : ι → Nat) (g : ι → JudgeTask → JudgeTask) (t : JudgeTask) :
    JudgeTask := xs.foldl (fun t x => if t.id = key x then g x t else t) t

theorem updates_eq_map : xs.foldl (fun ts x => updateTaskRow (key x) (g x) ts) tasks =
    tasks.map (updated xs key g) := by
  induction xs generalizing tasks with
  | nil => exact (List.map_id tasks).symm
  | cons x xs ih =>
    rw [List.foldl_cons, ih, updateTaskRow, List.map_map]
    rfl

theorem updated_of_ne (h : ∀ x ∈ xs, key x ≠ t.id) : updated xs key g t = t := by
  induction xs with
  | nil => rfl
  | cons x xs ih =>
    rw [updated, List.foldl_cons, if_neg (h x List.mem_cons_self).symm]
    exact ih fun y hy => h y (List.mem_cons_of_mem x hy)

/-- With distinct keys a task is updated once, or not at all. -/
theorem updated_cases (hg : ∀ x t, (g x t).id = t.id) (hn : (xs.map key).Nodup) :
    updated xs key g t = t ∨ ∃ x ∈ xs, key x = t.id ∧ updated xs key g t = g x t := by
  induction xs with
  | nil => exact .inl rfl
  | cons x xs ih =>
    rw [List.map_cons, List.nodup_cons] at hn
    by_cases hx : t.id = key x
    · refine .inr ⟨x, List.mem_cons_self, hx.symm, ?_⟩
      rw [updated, List.foldl_cons, if_pos hx]
      refine updated_of_ne fun y hy he => hn.1 ?_
      rw [hg, hx] at he
      exact he ▸ List.mem_map_of_mem hy
    · rw [updated, List.foldl_cons, if_neg hx]
      refine (ih hn.2).imp_right fun ⟨y, hy, he⟩ => ⟨y, List.mem_cons_of_mem x hy, he⟩

/-- A sequence of updates by id, of different tasks. -/
theorem RecordInv.updates (h : RecordInv start db) (hg : ∀ x t, (g x t).id = t.id)
    (hn : (xs.map key).Nodup)
    (hf : ∀ x ∈ xs, ∀ t ∈ db.judgeTasks, t.id = key x → t.Step db (g x t)) :
    RecordInv start { db with
      judgeTasks := xs.foldl (fun ts x => updateTaskRow (key x) (g x) ts) db.judgeTasks } := by
  rw [updates_eq_map]
  refine h.map fun t ht => ?_
  obtain he | ⟨x, hx, hid, he⟩ := updated_cases hg hn (t := t)
  · rw [he]
    exact h.step_self ht
  · rw [he]
    exact hf x hx t ht hid.symm

end Updates

theorem leaseExpired_running {now : Int} (h : t.leaseExpired now = true) : t.status = .running :=
  (of_decide_eq_true h).1

/-- A task that is not over belongs to no completed batch. -/
theorem RecordInv.not_closed (h : RecordInv start db) (ht : t ∈ db.judgeTasks)
    (hs : t.status.isTerminal = false) : ¬ db.closed t.batchId := fun hc => by
  have := h.closed t ht hc
  rw [hs] at this
  cases this

theorem RecordInv.reclaimed (h : RecordInv start db) (ht : t ∈ db.judgeTasks) {now : Int}
    (he : t.leaseExpired now = true) : t.Step db (reclaimUpdate now t t) := by
  have hs := leaseExpired_running he
  rw [reclaimUpdate]
  split_ifs with hr
  · have hr := of_decide_eq_true hr
    exact step_released hr.1 (h.not_closed ht (by rw [hs]; rfl))
  · exact step_failed (h.tasks t ht) now

theorem RecordInv.nodup_filter (h : RecordInv start db) (p : JudgeTask → Bool) :
    ((db.judgeTasks.filter p).map (·.id)).Nodup :=
  h.keys.nodup.sublist ((List.filter_sublist).map _)

theorem RecordInv.eq_of_id (h : RecordInv start db) (ht : t ∈ db.judgeTasks)
    (ht' : t' ∈ db.judgeTasks) (hid : t.id = t'.id) : t = t' :=
  List.inj_on_of_nodup_map h.keys.nodup ht ht' hid

theorem RecordInv.reclaimRows (h : RecordInv start db) (now : Int) :
    RecordInv start { db with
      judgeTasks := Awd.reclaimRows now (db.judgeTasks.filter (·.leaseExpired now)) db.judgeTasks } := by
  refine h.updates (reclaimUpdate_id now) (h.nodup_filter _) fun x hx t ht hid => ?_
  obtain ⟨hmem, he⟩ := List.mem_filter.mp hx
  obtain rfl := h.eq_of_id ht hmem hid
  exact h.reclaimed ht he

theorem nodup_claimable {eventId limit : Nat} {tasks : List JudgeTask}
    (hn : (tasks.map (·.id)).Nodup) : ((claimable eventId limit tasks).map (·.id)).Nodup := by
  have hf : ((tasks.filter fun t => t.eventId = eventId ∧ t.status = .pending).map (·.id)).Nodup :=
    hn.sublist ((List.filter_sublist).map _)
  refine List.Nodup.sublist ((List.take_sublist _ _).map _) ?_
  exact ((List.mergeSort_perm _ _).map _).nodup_iff.mpr hf

theorem RecordInv.claimRows (h : RecordInv start db) {hash : String → String}
    {token : Nat → String} {worker : String} {limit : Nat}
    (hc : ∀ t ∈ db.claimTargets limit, db.now + leaseTtlSecs * sec ≤ t.deadlineAt) :
    RecordInv start (Awd.claimRows hash token worker limit db.now
      (db.judgeTasks.filter (·.leaseExpired db.now)) db).1 := by
  have hr := h.reclaimRows db.now
  refine hr.updates (fun _ _ => rfl) (nodup_claimable hr.keys.nodup) fun x hx t ht hid => ?_
  obtain ⟨hmem, hpend⟩ := mem_claimable hx
  obtain rfl := hr.eq_of_id ht hmem hid
  exact step_claimed (hr.tasks t ht) hpend _ _ _ (hc t hx)
    (hr.not_closed ht (by rw [hpend]; rfl))

/-! ## The operations keep it -/

/-- The law of the columns. -/
def recordLaw (start : Db) : CrashLaw Stmt Db Unit where
  watch _ _ g := g
  block _ := false
  inv v := RecordInv start v.1

variable {α β : Type} {v : Db × Unit}

theorem record_select {f : Db → α} {k : α → AwdM β} (hi : RecordInv start v.1)
    (hk : (recordLaw start).Kept (k (f v.1)) v) : (recordLaw start).Kept (select f >>= k) v :=
  CrashLaw.kept_query_bind (fun _ _ => rfl) hi hk

theorem record_query {l : Stmt} {e : AwdError} {f : Db → α} {k : α → AwdM β}
    (hi : RecordInv start v.1) (hk : (recordLaw start).Kept (k (f v.1)) v) :
    (recordLaw start).Kept (Prog.query l e f >>= k) v :=
  CrashLaw.kept_query_bind (fun _ _ => rfl) hi hk

theorem record_utcNow {k : Int → AwdM β} (hi : RecordInv start v.1)
    (hk : (recordLaw start).Kept (k v.1.now) v) : (recordLaw start).Kept (utcNow >>= k) v :=
  CrashLaw.kept_look_bind (fun _ _ => rfl) hi hk

/-- An update by id. -/
theorem record_writeTask {l : Stmt} (hi : RecordInv start v.1)
    (hf : ∀ t ∈ v.1.judgeTasks, t.id = id → t.Step v.1 (f t)) :
    (recordLaw start).Kept (writeTask l id f) v := by
  refine CrashLaw.kept_exec (fun _ _ => rfl) hi fun s a h => ?_
  split_ifs at h
  cases h
  exact hi.edit hf

/-- What does not touch tasks, batches and ids. -/
structure BesideJudge (db db' : Db) : Prop where
  tasks : db'.judgeTasks = db.judgeTasks
  batches : db'.batches = db.batches
  nextId : db.nextId ≤ db'.nextId

theorem BesideJudge.refl (db : Db) : BesideJudge db db := ⟨rfl, rfl, le_rfl⟩

theorem BesideJudge.inv (h : BesideJudge db db') (hi : RecordInv start db) : RecordInv start db' where
  keys := hi.keys.of_ids (by rw [h.tasks]) h.nextId
  tasks := h.tasks ▸ hi.tasks
  closed := by
    simp only [Db.closed, h.tasks, h.batches]
    exact hi.closed
  batchIds b hb := (hi.batchIds b (h.batches ▸ hb)).trans_le h.nextId
  grow := by
    rw [AttemptsGrow, h.tasks]
    exact hi.grow

theorem record_same {p : AwdM α} (hp : p.Within BesideJudge) (hi : RecordInv start v.1) :
    (recordLaw start).Kept p v :=
  CrashLaw.kept_of_within hp (fun _ _ _ _ hi h => h.inv hi) hi

theorem besideJudge_select (f : Db → α) : (select f).Within BesideJudge :=
  within_select BesideJudge.refl f

theorem besideJudge_query (l : Stmt) (e : AwdError) (f : Db → α) :
    (Prog.query l e f).Within BesideJudge := Prog.does_query BesideJudge.refl e f

theorem besideJudge_transitionEvent (s s' : AwdEventStatus) (p : TransitionPatch) :
    (transitionEvent s s' p).Within BesideJudge := by
  refine Prog.does_exec BesideJudge.refl fun db db' a h => ?_
  rw [(transitionRow_ok h).1]
  exact ⟨rfl, rfl, le_rfl⟩

theorem besideJudge_maybeFinishEvent : maybeFinishEvent.Within BesideJudge := by
  refine Prog.does_bind (besideJudge_select _) fun e => Prog.does_ite trivial
    (Prog.does_ite trivial ?_)
  refine Prog.does_bind (besideJudge_select _) fun r => Prog.does_ite trivial ?_
  refine Prog.does_bind (besideJudge_select _) fun t => Prog.does_ite trivial ?_
  refine Prog.does_bind (within_utcNow BesideJudge.refl) fun now =>
    Prog.does_bind (Prog.does_attempt (besideJudge_transitionEvent _ _ _)) fun moved => ?_
  split
  · trivial
  · trivial
  · trivial
  · exact Prog.does_bind (within_tryReconcile BesideJudge.refl _) fun _ =>
      Prog.does_bind (Prog.does_attempt (within_requireEventNetwork BesideJudge.refl)) fun _ =>
        trivial

theorem besideJudge_scoreDown (taskId : Nat) (task : JudgeTask) :
    (scoreDown taskId task).Within BesideJudge := by
  refine Prog.does_bind (besideJudge_query _ _ _) fun e => Prog.does_ite trivial ?_
  refine Prog.does_bind (besideJudge_query _ _ _) fun banned => Prog.does_ite trivial ?_
  split
  · trivial
  · refine Prog.does_bind (Prog.does_attempt (besideJudge_query _ _ _)) fun resolved => ?_
    split
    · refine Prog.does_bind (Prog.does_attempt ?_) fun _ => trivial
      refine Prog.does_exec BesideJudge.refl fun db db' a h => ?_
      rw [(insertScoreRow_ok h).2]
      exact ⟨rfl, rfl, Nat.le_succ _⟩
    · trivial

theorem besideJudge_scoreResult (taskId : Nat) (task : JudgeTask) (status : JudgeTaskStatus) :
    (scoreResult taskId task status).Within BesideJudge :=
  Prog.does_bind (Prog.does_ite (besideJudge_scoreDown taskId task) trivial) fun _ =>
    Prog.does_bind (Prog.does_attempt besideJudge_maybeFinishEvent) fun _ => trivial

theorem record_claimTasks (hi : RecordInv start v.1) {hash : String → String}
    {token : Nat → String} {worker : String} {limit : Nat}
    (hc : ∀ t ∈ v.1.claimTargets limit, v.1.now + leaseTtlSecs * sec ≤ t.deadlineAt) :
    (recordLaw start).Kept (claimTasks hash token worker limit) v := by
  refine record_utcNow hi (record_select hi (CrashLaw.kept_bind ?_ fun _ _ h => h))
  refine CrashLaw.kept_exec (fun _ _ => rfl) hi fun s a h => ?_
  obtain ⟨rfl, -⟩ := Prod.ext_iff.mp (Except.ok.inj h)
  exact hi.claimRows hc

theorem holds_running {l : Lease} (h : t.holds l = true) : t.status = .running :=
  (of_decide_eq_true h).1

theorem record_heartbeat (hi : RecordInv start v.1) (l : Lease) :
    (recordLaw start).Kept (judgeHeartbeat l) v := by
  refine record_utcNow hi (CrashLaw.kept_bind ?_ fun r v' hv => ?_)
  · refine record_select hi ?_
    cases hf : findTaskById v.1.judgeTasks l.taskId with
    | none => exact hi
    | some task =>
      refine CrashLaw.guards_ite (fun _ => hi) fun hold => CrashLaw.guards_ite (fun _ => hi) fun _ => ?_
      refine CrashLaw.kept_bind (record_writeTask hi fun t ht hid => ?_) fun _ _ h => h
      obtain rfl := hi.find hf ht hid
      have hs := holds_running (by simpa using hold)
      exact step_renewed (hi.tasks t ht) hs _ (min_le_right _ _)
        (hi.not_closed ht (by rw [hs]; rfl))
  · cases r <;> exact hv

theorem record_submitResult (hi : RecordInv start v.1) (l : Lease) {r : JudgeReport}
    (hr : r.status.isTerminal = true) (now : Int) :
    (recordLaw start).Kept (submitResult l r now) v := by
  refine record_query hi ?_
  cases hf : findTaskById v.1.judgeTasks l.taskId with
  | none => exact hi
  | some task =>
    refine CrashLaw.guards_ite (fun _ => hi) fun _ => CrashLaw.guards_ite (fun _ => hi) fun _ =>
      CrashLaw.guards_ite (fun _ => hi) fun _ => ?_
    refine CrashLaw.kept_bind (record_writeTask hi fun t ht _ => ?_) fun _ _ h => h
    exact step_reported (hi.tasks t ht) now hr

theorem record_submitAndScore (hi : RecordInv start v.1) (hash : String → String) (taskId : Nat)
    (task : JudgeTask) (req : JudgeResultRequest) {status : JudgeTaskStatus}
    (hs : status.isTerminal = true) :
    (recordLaw start).Kept (submitAndScore hash taskId task req status) v := by
  refine record_utcNow hi (CrashLaw.kept_bind (record_submitResult hi _ hs _) fun r v' hv => ?_)
  cases r with
  | stale => exact hv
  | notFound => exact hv
  | ok => exact record_same (besideJudge_scoreResult taskId task status) hv
  | idempotent => exact record_same (besideJudge_scoreResult taskId task status) hv

theorem record_judgeResult (hi : RecordInv start v.1) (hash : String → String) (taskId : Nat)
    (req : JudgeResultRequest)
    (hc : ∀ t ∈ v.1.findTask taskId, v.1.releases t req → ¬ v.1.closed t.batchId) :
    (recordLaw start).Kept (judgeResult hash taskId req) v := by
  refine record_select hi ?_
  have hsubmit (task : JudgeTask) {status : JudgeTaskStatus} (hs : status.isTerminal = true) :=
    record_submitAndScore hi hash taskId task req hs
  dsimp only
  cases hf : findTaskById v.1.judgeTasks taskId with
  | none => exact hi
  | some task =>
    refine CrashLaw.guards_ite (fun _ => hi) fun hev => ?_
    cases ho : Outcome.ofString req.outcome with
    | up => exact hsubmit _ rfl
    | down => exact hsubmit _ rfl
    | targetTimeout => exact hsubmit _ rfl
    | unknown text => exact hi
    | workerError =>
      refine CrashLaw.guards_ite (fun hleft => ?_) fun _ => hsubmit _ rfl
      refine record_utcNow hi (CrashLaw.guards_ite (fun hnow => ?_) fun _ => hsubmit _ rfl)
      refine record_writeTask hi fun t ht hid => ?_
      obtain rfl := hi.find hf ht hid
      exact step_released hleft (hc t hf ⟨not_not.mp hev, ho, hleft, hnow⟩)

theorem record_terminalizeTasks (hi : RecordInv start v.1) (tasks : List JudgeTask) (now : Int) :
    (recordLaw start).Kept (terminalizeTasks tasks now) v := by
  refine CrashLaw.guards_each_inv tasks (fun task _ v hv => ?_) v hi
  exact record_writeTask hv fun t ht _ => step_failed (RecordInv.tasks hv t ht) now

/-! ## Reclaiming one by one -/

theorem reclaimUpdate_idem (now : Int) (seen : JudgeTask) :
    reclaimUpdate now seen (reclaimUpdate now seen seen) = reclaimUpdate now seen seen := by
  unfold reclaimUpdate
  split_ifs <;> rfl

/-- The tasks that were read as expired are as they were read, or reclaimed. -/
def Reclaiming (now : Int) (expired : List JudgeTask) (db : Db) : Prop :=
  ∀ seen ∈ expired, ∀ t ∈ db.judgeTasks, t.id = seen.id →
    t = seen ∨ t = reclaimUpdate now seen seen

theorem Reclaiming.edit {now : Int} {expired : List JudgeTask} (h : Reclaiming now expired db)
    (hn : ∀ a ∈ expired, ∀ b ∈ expired, a.id = b.id → a = b) {seen : JudgeTask}
    (hs : seen ∈ expired) : Reclaiming now expired (db.editTask seen.id (reclaimUpdate now seen)) := by
  intro seen' hs' t' ht' hid
  obtain ⟨t, ht, rfl⟩ := List.mem_map.mp ht'
  split_ifs at hid ⊢ with he
  · rw [reclaimUpdate_id] at hid
    obtain rfl := hn seen' hs' seen hs (hid.symm.trans he)
    obtain rfl | rfl := h seen' hs' t ht he
    · exact .inr rfl
    · exact .inr (reclaimUpdate_idem now seen')
  · exact h seen' hs' t ht hid

theorem RecordInv.reclaim (h : RecordInv start db) {now : Int} {seen : JudgeTask}
    (he : seen.leaseExpired now = true) (ht : t ∈ db.judgeTasks)
    (hseen : t = seen ∨ t = reclaimUpdate now seen seen) :
    t.Step db (reclaimUpdate now seen t) := by
  obtain rfl | ht' := hseen
  · exact h.reclaimed ht he
  · rw [reclaimUpdate] at ht' ⊢
    split_ifs at ht' ⊢ with hr
    · have hs : t.status = .pending := by rw [ht']; rfl
      exact step_released ((h.tasks t ht).left hs) (h.not_closed ht (by rw [hs]; rfl))
    · exact step_failed (h.tasks t ht) now

theorem record_reclaimExpiredLeases (hi : RecordInv start v.1) (now : Int) :
    (recordLaw start).Kept (reclaimExpiredLeases now) v := by
  refine record_select hi (CrashLaw.kept_bind ?_ fun _ _ h => h)
  have hn : ∀ a ∈ v.1.judgeTasks.filter (·.leaseExpired now),
      ∀ b ∈ v.1.judgeTasks.filter (·.leaseExpired now), a.id = b.id → a = b :=
    fun a ha b hb => hi.eq_of_id (List.mem_of_mem_filter ha) (List.mem_of_mem_filter hb)
  refine (CrashLaw.guards_each_inv (I := fun v' => RecordInv start v'.1 ∧
    Reclaiming now (v.1.judgeTasks.filter (·.leaseExpired now)) v'.1) _ (fun seen hs v' hv => ?_) v
    ⟨hi, fun seen hs t ht hid => .inl (hi.eq_of_id ht (List.mem_of_mem_filter hs) hid)⟩).imp
      fun _ _ h => h.1
  refine CrashLaw.guards_exec (fun s a h => ?_) (fun _ _ => hv) fun _ => ⟨hv.1, hv⟩
  split_ifs at h
  cases h
  refine ⟨hv.1.edit fun t ht hid => ?_, hv.2.edit hn hs⟩
  exact hv.1.reclaim (List.mem_filter.mp hs).2 ht (hv.2 seen hs t ht hid)

/-! ## Batches -/

theorem record_maybeCompleteBatch (hi : RecordInv start v.1) (batchId : Nat) :
    (recordLaw start).Kept (maybeCompleteBatch batchId) v := by
  refine record_select hi (CrashLaw.guards_ite (fun hall => ?_) fun _ => hi)
  refine CrashLaw.kept_bind (CrashLaw.kept_exec (fun _ _ => rfl) hi fun s a h => ?_) fun _ _ h => h
  cases h
  refine ⟨hi.keys.of_ids rfl le_rfl, hi.tasks, fun t ht hc => ?_, fun b hb => ?_, hi.grow⟩
  · by_cases hb : t.batchId = batchId
    · exact List.all_eq_true.mp hall t (List.mem_filter.mpr ⟨ht, by simpa using hb⟩)
    · obtain ⟨b', hb', hid, hs⟩ := hc
      obtain ⟨b, hmem, rfl⟩ := List.mem_map.mp hb'
      split_ifs at hid hs with he
      · exact absurd (hid.symm.trans he) hb
      · exact hi.closed t ht ⟨b, hmem, hid, hs⟩
  · obtain ⟨b', hmem, rfl⟩ := List.mem_map.mp hb
    have := hi.batchIds b' hmem
    split_ifs <;> exact this

theorem sound_newJudgeTask (id batchId eventId roundId : Nat) (deadline now : Int)
    (slot : BatchSlot) : (newJudgeTask id batchId eventId roundId deadline now slot).Sound := by
  have hs : (newJudgeTask id batchId eventId roundId deadline now slot).status ≠ .running := by
    simp only [newJudgeTask, initialTaskStatus]
    split_ifs <;> decide
  refine ⟨⟨?_, ?_, ?_, ?_, fun h => absurd h hs⟩, fun _ => ?_⟩
  · exact iff_of_false nofun hs
  · exact iff_of_false nofun hs
  · exact iff_of_false nofun hs
  · exact (by decide : (0 : Int) ≤ 2)
  · exact (by decide : (0 : Int) < 2)

/-- A task is added to a batch that is not completed. -/
theorem RecordInv.insertTask (h : RecordInv start db) (roundId : Nat) (deadline : Int)
    (slot : BatchSlot) {batchId : Nat} (hb : ¬ db.closed batchId) :
    RecordInv start { db with
      judgeTasks := db.judgeTasks ++
        [newJudgeTask db.nextId batchId db.event.eventId roundId deadline db.now slot]
      nextId := db.nextId + 1 } where
  keys := h.keys.append rfl rfl rfl
  tasks t ht := by
    obtain ht | ht := List.mem_append.mp ht
    · exact h.tasks t ht
    · obtain rfl := List.mem_singleton.mp ht
      exact sound_newJudgeTask _ _ _ _ _ _ _
  closed t ht hc := by
    obtain ht | ht := List.mem_append.mp ht
    · exact h.closed t ht hc
    · obtain rfl := List.mem_singleton.mp ht
      exact absurd hc hb
  batchIds b hb := (h.batchIds b hb).trans (Nat.lt_succ_self _)
  grow t ht := by
    obtain ⟨t', ht', hid, hle⟩ := h.grow t ht
    exact ⟨t', List.mem_append_left _ ht', hid, hle⟩

theorem RecordInv.insertBatch (h : RecordInv start db) (roundId : Nat) (n : Int) :
    RecordInv start { db with
      batches := db.batches ++ [newBatch db.nextId roundId n], nextId := db.nextId + 1 } ∧
    ¬ Db.closed { db with
      batches := db.batches ++ [newBatch db.nextId roundId n], nextId := db.nextId + 1 } db.nextId := by
  have hclosed {b : Nat} (hc : Db.closed { db with
      batches := db.batches ++ [newBatch db.nextId roundId n], nextId := db.nextId + 1 } b) :
      db.closed b := by
    obtain ⟨x, hx, hid, hs⟩ := hc
    obtain hx | hx := List.mem_append.mp hx
    · exact ⟨x, hx, hid, hs⟩
    · obtain rfl := List.mem_singleton.mp hx
      cases hs
  refine ⟨⟨h.keys.of_ids rfl (Nat.le_succ _), h.tasks, fun t ht hc => h.closed t ht (hclosed hc),
    fun b hb => ?_, h.grow⟩, fun hc => ?_⟩
  · obtain hb | hb := List.mem_append.mp hb
    · exact (h.batchIds b hb).trans (Nat.lt_succ_self _)
    · obtain rfl := List.mem_singleton.mp hb
      exact Nat.lt_succ_self _
  · obtain ⟨b, hb, hid, -⟩ := hclosed hc
    have := h.batchIds b hb
    omega

theorem record_createBatch (hi : RecordInv start v.1) (roundId : Nat) :
    (recordLaw start).Kept (createBatch roundId) v := by
  refine record_query hi (record_query hi (CrashLaw.guards_ite (fun _ => hi) fun _ => ?_))
  refine record_query hi (record_query hi (record_query hi (CrashLaw.guards_bind ?_)))
  refine CrashLaw.guards_exec (fun s b hb => ?_) (fun _ _ => hi) fun _ => ⟨hi, hi⟩
  cases hb
  obtain ⟨hi', hopen⟩ := hi.insertBatch roundId (asI32 (v.1.gameboxes.length * v.1.teams.length))
  refine CrashLaw.kept_look_bind (fun _ _ => rfl) hi' (CrashLaw.guards_bind ?_)
  refine (CrashLaw.guards_each_inv (I := fun v' => RecordInv start v'.1 ∧ ¬ v'.1.closed v.1.nextId)
    _ (fun slot _ v' hv => ?_) _ ⟨hi', hopen⟩).imp fun r v' h => ?_
  · refine CrashLaw.guards_exec (fun s a h => ?_) (fun _ _ => hv) fun _ => ⟨hv.1, hv⟩
    cases h
    exact ⟨hv.1.insertTask roundId _ slot hv.2, hv.2⟩
  · cases r <;> exact h.1

/-! ## Runs -/

theorem record_prog (hash : String → String) (op : JudgeOp) (hi : RecordInv start v.1)
    (hc : op.Proper v.1) : (recordLaw start).Kept (op.prog hash) v := by
  cases op with
  | createBatch roundId =>
    exact CrashLaw.kept_bind (record_createBatch hi roundId) fun _ _ h => h
  | claimTasks token worker limit =>
    exact CrashLaw.kept_bind (record_claimTasks hi hc) fun _ _ h => h
  | heartbeatTask l => exact record_heartbeat hi l
  | result taskId req => exact record_judgeResult hi hash taskId req hc
  | reclaimExpiredLeases =>
    exact record_utcNow hi (CrashLaw.kept_bind (record_reclaimExpiredLeases hi _) fun _ _ h => h)
  | terminalizeBatchDeadline batchId =>
    refine record_utcNow hi (CrashLaw.kept_bind (record_select hi ?_) fun _ _ h => h)
    exact CrashLaw.kept_bind (record_terminalizeTasks hi _ _) fun _ _ h => h
  | terminalizePastDeadline =>
    refine record_utcNow hi (CrashLaw.kept_bind (record_select hi ?_) fun _ _ h => h)
    exact CrashLaw.kept_bind (record_terminalizeTasks hi _ _) fun _ _ h => h
  | maybeCompleteBatch batchId =>
    exact CrashLaw.kept_bind (record_maybeCompleteBatch hi batchId) fun _ _ h => h

theorem RecordInv.step (hash : String → String) (hi : RecordInv start db) {a : RecordAct}
    (hc : ProperStep db a) : RecordInv start (recordStep hash db a) := by
  cases a with
  | run op answers =>
    exact (record_prog (v := (db, ())) hash op hi hc).inv_crashRun (fun _ _ h => h)
      (Prog.unbroken_of_no_block _ _ _)
  | env e =>
    have hsame : BesideJudge db (e.apply db) := by cases e <;> exact ⟨rfl, rfl, le_rfl⟩
    exact hsame.inv hi

theorem attemptsGrow_refl (db : Db) : AttemptsGrow db db := fun t ht => ⟨t, ht, rfl, le_rfl⟩

theorem RecordInv.ok (h : RecordInv start db) : RecordOk db :=
  ⟨fun t ht => (h.tasks t ht).toWellFormed, h.closed⟩

theorem RecordInv.run (hash : String → String) (hi : RecordInv start db) {acts : List RecordAct}
    (hacts : Along (recordStep hash) ProperStep db acts) :
    RecordInv start (acts.foldl (recordStep hash) db) :=
  inv_of_along (RecordInv start) (fun _ _ hi hc => hi.step hash hc) hi hacts

/-- In every run that starts without judge tables, in which no claim takes a task whose deadline is
nearer than the end of the lease and no worker error releases a task of a completed batch, the record
is right in every state, and no task ever loses an attempt. -/
theorem judgeRecord_run (hash : String → String) {db : Db} (htasks : db.judgeTasks = [])
    (hbatches : db.batches = []) {acts : List RecordAct}
    (hacts : Along (recordStep hash) ProperStep db acts) {pre post : List RecordAct}
    (he : acts = pre ++ post) :
    RecordOk (pre.foldl (recordStep hash) db) ∧
      AttemptsGrow (pre.foldl (recordStep hash) db) (acts.foldl (recordStep hash) db) := by
  have hinit : RecordInv db db := by
    refine ⟨⟨?_, ?_⟩, ?_, ?_, ?_, attemptsGrow_refl db⟩
    · rw [htasks]
      exact List.nodup_nil
    · rw [htasks]
      exact List.forall_mem_nil _
    · rw [htasks]
      exact List.forall_mem_nil _
    · rw [htasks]
      exact List.forall_mem_nil _
    · rw [hbatches]
      exact List.forall_mem_nil _
  subst he
  rw [along_append] at hacts
  have hpre := hinit.run hash hacts.1
  refine ⟨hpre.ok, ?_⟩
  rw [List.foldl_append]
  exact (RecordInv.run hash { hpre with grow := attemptsGrow_refl _ } hacts.2).grow

/-! ## A lease that outlives the deadline -/

/-- Tokens are kept as they are. -/
def noHash (token : String) : String := token

/-- The tasks of a batch have their deadline `timeout` seconds from now. -/
def timeoutDb (timeout : Int) : Db :=
  { oneRoundDb with event := { oneRoundDb.event with judgeDefaultTimeoutSecs := timeout } }

/-- An operation whose statements are all answered. -/
def answered (op : JudgeOp) : RecordAct := .run op (List.replicate 12 true)

/-- The batch of round 9 is created, with its task 11, and a worker claims it. -/
def claimActs : List RecordAct :=
  [answered (.createBatch 9), answered (.claimTasks (fun _ => "token") "w" 5)]

/-- The deadline is 35 seconds away, and the lease 120 seconds long. -/
theorem claim_outlives_deadline :
    ¬ RecordOk (claimActs.foldl (recordStep noHash) (timeoutDb 30)) := by
  intro h
  have hrow : (claimActs.foldl (recordStep noHash) (timeoutDb 30)).judgeTasks.map
      (fun t => (t.status, t.leaseExpiresAt, t.deadlineAt)) =
        [(.running, some (120 * sec), 35 * sec)] := by decide +kernel
  obtain ⟨t, ht, hcols⟩ := List.mem_map.mp (hrow ▸ List.mem_singleton_self _)
  obtain ⟨hs, hcols⟩ := Prod.mk.inj hcols
  obtain ⟨he, hd⟩ := Prod.mk.inj hcols
  have hle := (h.tasks t ht).inTime hs _ he
  rw [hd] at hle
  exact absurd hle (by decide)

/-- A claim, an error of the worker, another claim, and a result. -/
def retriedActs : List RecordAct :=
  claimActs ++ [.env (.advance 5),
    answered (.result 11 { workerId := "w", attempt := 1, leaseToken := "token", resultId := "r"
                           outcome := "worker_error", exitCode := none, stdout := none
                           stderr := none, durationMs := none }),
    answered (.claimTasks (fun _ => "second") "w" 5), answered (.maybeCompleteBatch 10)]

theorem judgeRecord_retriedActs :
    (retriedActs.foldl (recordStep noHash) (timeoutDb 300)).judgeTasks.map
        (fun t => (t.status, t.attemptCount)) = [(.running, 2)] ∧
      RecordOk (retriedActs.foldl (recordStep noHash) (timeoutDb 300)) := by
  refine ⟨by decide +kernel, ?_⟩
  exact (judgeRecord_run noHash rfl rfl (by decide +kernel) (List.append_nil retriedActs).symm).1

end FloatCtf.Awd
