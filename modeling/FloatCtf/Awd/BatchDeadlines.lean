import FloatCtf.Awd.RoundClock

/-!
# The deadline tasks of the judge batches after a restart

`restore_batch_deadlines` goes through the batches that are not completed and schedules a deadline
for each of them, unless a deadline task is pending.  That question is put to the scheduler rows of
the whole event: the task of one batch, or the one that was just restored for the batch before,
answers it for all others (`second_batch_unrestored`).  `batchDeadlines_restored` says exactly when
every open batch ends up with a deadline of its own; a second restoration never changes
anything. -/

namespace FloatCtf.Awd

open Process

variable {db : Db} {b : JudgeBatch}

/-! ## The law -/

/-- The batch is not completed. -/
def JudgeBatch.isOpen (b : JudgeBatch) : Bool := b.status ≠ .completed

/-- The batches that `restore_batch_deadlines` loads. -/
def Db.openBatches (db : Db) : List JudgeBatch := db.batches.filter (·.isOpen)

/-- The latest deadline of the tasks of a batch. -/
def Db.latestDeadline (db : Db) (batchId : Nat) : Option Int :=
  (latestBy (·.deadlineAt) (db.judgeTasks.filter (·.batchId = batchId))).map (·.deadlineAt)

/-- A pending deadline task of this batch, due at the latest deadline of its tasks. -/
def Db.DeadlineTask (db : Db) (b : JudgeBatch) (t : ScheduledTask) : Prop :=
  t.isPending .awdJudgeBatchDeadline = true ∧ t.batchId = some b.id ∧
    ∀ d ∈ db.latestDeadline b.id, t.executeAt = d

/-- Every batch that is not completed has its own deadline task. -/
def DeadlinesKept (db : Db) : Prop := ∀ b ∈ db.openBatches, ∃ t ∈ db.tasks, db.DeadlineTask b t

/-- The database after `restore_batch_deadlines`. -/
def Db.restored (db : Db) : Db := (restoreBatchDeadlines.run (answers fun _ => true) db).1

/-- There is at most one batch to restore, or a pending task is there and no batch misses its own. -/
def OneToRestore (db : Db) : Prop :=
  if db.hasPending .awdJudgeBatchDeadline then DeadlinesKept db
  else ∀ b ∈ db.openBatches, ∀ b' ∈ db.openBatches, b.id = b'.id

/-! ## A batch that gets nothing -/

/-- Two batches are open, of a round each, and no deadline task is pending. -/
def twoBatchesDb : Db := { oneRoundDb with batches := [newBatch 21 5 1, newBatch 22 6 1] }

/-- Only the first of the two open batches gets a deadline task. -/
theorem second_batch_unrestored : ¬ DeadlinesKept twoBatchesDb.restored := by
  intro h
  obtain ⟨t, ht, -, hid, -⟩ := h (newBatch 22 6 1) (by decide)
  have hall : ∀ t ∈ twoBatchesDb.restored.tasks, t.batchId ≠ some 22 := by decide +kernel
  exact hall t ht hid

/-! ## The run -/

/-- The row that the restoration writes for a batch; without tasks it is due at once. -/
def Db.scheduleDeadline (db : Db) (b : JudgeBatch) : Db :=
  db.schedule .awdJudgeBatchDeadline ((db.latestDeadline b.id).getD db.now) none (some b.id)

theorem hasPending_scheduleDeadline (db : Db) (b : JudgeBatch) :
    (db.scheduleDeadline b).hasPending .awdJudgeBatchDeadline = true := by
  simp [Db.hasPending, Db.scheduleDeadline, Db.schedule, pendingTask, ScheduledTask.isPending]

theorem run_restoreBatchDeadline_of_pending (h : db.hasPending .awdJudgeBatchDeadline = true) :
    (restoreBatchDeadline b).run (answers fun _ => true) db = (db, .ok 0) := by
  simp [restoreBatchDeadline, h]

theorem run_restoreBatchDeadline_of_none (h : db.hasPending .awdJudgeBatchDeadline = false) :
    (restoreBatchDeadline b).run (answers fun _ => true) db = (db.scheduleDeadline b, .ok 1) := by
  simp only [restoreBatchDeadline, Prog.run_bind, run_select, run_utcNow, h, Bool.false_eq_true,
    ↓reduceIte, scheduleBatchDeadlineTask, run_write (fun _ => true) (l := .scheduleTask) rfl,
    Prog.run_pure]
  rfl

/-- Once a deadline task is pending, the rest of the batches is passed over. -/
theorem run_restoreBatches_of_pending (h : db.hasPending .awdJudgeBatchDeadline = true)
    (bs : List JudgeBatch) : (restoreBatches bs).run (answers fun _ => true) db = (db, .ok 0) := by
  induction bs with
  | nil => rfl
  | cons b bs ih =>
    simp [restoreBatches, run_restoreBatchDeadline_of_pending h, ih]

theorem run_restoreBatches_of_none (h : db.hasPending .awdJudgeBatchDeadline = false)
    (b : JudgeBatch) (bs : List JudgeBatch) :
    ((restoreBatches (b :: bs)).run (answers fun _ => true) db).1 = db.scheduleDeadline b := by
  simp [restoreBatches, run_restoreBatchDeadline_of_none h,
    run_restoreBatches_of_pending (hasPending_scheduleDeadline db b)]

theorem restored_eq (db : Db) :
    db.restored = ((restoreBatches db.openBatches).run (answers fun _ => true) db).1 := by
  have hfilter : (db.batches.filter fun b => b.status ≠ .completed) = db.openBatches := rfl
  simp only [Db.restored, restoreBatchDeadlines, Prog.run_bind, run_select, hfilter]

theorem restored_of_pending (h : db.hasPending .awdJudgeBatchDeadline = true) :
    db.restored = db := by
  rw [restored_eq, run_restoreBatches_of_pending h]

theorem restored_of_nil (h : db.openBatches = []) : db.restored = db := by
  rw [restored_eq, h]
  rfl

theorem restored_of_none (h : db.hasPending .awdJudgeBatchDeadline = false) {b : JudgeBatch}
    {bs : List JudgeBatch} (ho : db.openBatches = b :: bs) :
    db.restored = db.scheduleDeadline b := by
  rw [restored_eq, ho, run_restoreBatches_of_none h]

/-- A second restoration finds a pending task, or no open batch. -/
theorem restored_restored (db : Db) : db.restored.restored = db.restored := by
  cases h : db.hasPending .awdJudgeBatchDeadline with
  | true => rw [restored_of_pending h, restored_of_pending h]
  | false =>
    cases ho : db.openBatches with
    | nil => rw [restored_of_nil ho, restored_of_nil ho]
    | cons b bs =>
      rw [restored_of_none h ho, restored_of_pending (hasPending_scheduleDeadline db b)]

/-! ## When every batch is restored -/

theorem openBatches_scheduleDeadline (db : Db) (b : JudgeBatch) :
    (db.scheduleDeadline b).openBatches = db.openBatches := rfl

theorem latestDeadline_scheduleDeadline (db : Db) (b : JudgeBatch) (id : Nat) :
    (db.scheduleDeadline b).latestDeadline id = db.latestDeadline id := rfl

/-- With no task pending before, the one that was written is the only one there is. -/
theorem pending_scheduleDeadline (h : db.hasPending .awdJudgeBatchDeadline = false)
    {t : ScheduledTask} (ht : t ∈ (db.scheduleDeadline b).tasks)
    (hp : t.isPending .awdJudgeBatchDeadline = true) : t.batchId = some b.id := by
  rcases List.mem_append.1 ht with hold | hnew
  · have hnone := List.any_eq_false.1 h t hold
    exact absurd hp hnone
  · rw [List.mem_singleton.1 hnew]
    rfl

theorem deadlineTask_scheduleDeadline (db : Db) {b b' : JudgeBatch} (hid : b'.id = b.id) :
    ∃ t ∈ (db.scheduleDeadline b).tasks, (db.scheduleDeadline b).DeadlineTask b' t := by
  refine ⟨_, List.mem_append_right _ List.mem_cons_self, ?_, ?_, ?_⟩
  · simp [pendingTask, ScheduledTask.isPending]
  · rw [hid]
    rfl
  · intro d hd
    rw [latestDeadline_scheduleDeadline, hid] at hd
    simp only [pendingTask, Option.mem_def.1 hd, Option.getD_some]

theorem deadlinesKept_restored_of_none (h : db.hasPending .awdJudgeBatchDeadline = false) :
    DeadlinesKept db.restored ↔ ∀ b ∈ db.openBatches, ∀ b' ∈ db.openBatches, b.id = b'.id := by
  cases ho : db.openBatches with
  | nil =>
    rw [restored_of_nil ho, DeadlinesKept, ho]
    exact ⟨fun _ b hb => absurd hb List.not_mem_nil, fun _ b hb => absurd hb List.not_mem_nil⟩
  | cons c cs =>
    rw [restored_of_none h ho, DeadlinesKept, openBatches_scheduleDeadline, ho]
    constructor
    · intro hk b hb b' hb'
      have hfirst : ∀ b ∈ c :: cs, b.id = c.id := by
        intro b hb
        obtain ⟨t, ht, hp, hid, -⟩ := hk b hb
        have hc := pending_scheduleDeadline h ht hp
        exact Option.some.inj (hid.symm.trans hc)
      rw [hfirst b hb, hfirst b' hb']
    · intro hsame b hb
      exact deadlineTask_scheduleDeadline db (hsame b hb c List.mem_cons_self)

/-- The restoration gives every open batch its own deadline exactly when there was at most one to
restore, and running it again changes nothing. -/
theorem batchDeadlines_restored (db : Db) :
    (DeadlinesKept db.restored ∧ db.restored.restored = db.restored) ↔ OneToRestore db := by
  rw [and_iff_left (restored_restored db), OneToRestore]
  cases h : db.hasPending .awdJudgeBatchDeadline with
  | true => rw [restored_of_pending h, if_pos rfl]
  | false =>
    rw [if_neg (by decide)]
    exact deadlinesKept_restored_of_none h

end FloatCtf.Awd
