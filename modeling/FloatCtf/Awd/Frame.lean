import FloatCtf.Awd.RoundTable
import FloatCtf.Awd.Scheduler

/-!
# What the services leave alone

`Quiet` relates two databases that agree on the event, its rounds and the clock, and `Keeps` two
databases of which the second has the scheduler rows of the first.  Both are `Minor`: they let the
judge, score and instance tables change and scheduler rows be added, and so they hold along every
statement of the programs that do no more than that.
-/

namespace FloatCtf.Awd

open Process

/-! ## Moves -/

/-- The ids of the scheduler tasks are distinct and below the supply. -/
def TaskIds (db : Db) : Prop :=
  (db.tasks.map (·.id)).Nodup ∧ ∀ t ∈ db.tasks, t.id < db.nextId

theorem TaskIds.of_ids {db db' : Db} (h : TaskIds db)
    (ht : db'.tasks.map (·.id) = db.tasks.map (·.id)) (hn : db.nextId ≤ db'.nextId) :
    TaskIds db' := by
  refine ⟨ht ▸ h.1, fun t hmem => ?_⟩
  have : t.id ∈ db.tasks.map (·.id) := ht ▸ List.mem_map_of_mem hmem
  obtain ⟨u, hu, he⟩ := List.mem_map.1 this
  exact he ▸ (h.2 u hu).trans_le hn

theorem TaskIds.schedule {db : Db} (h : TaskIds db) (key : TaskKey) (t : Int)
    (roundId batchId : Option Nat) : TaskIds (db.schedule key t roundId batchId) := by
  constructor
  · rw [Db.schedule, List.map_append, List.map_singleton, List.nodup_append]
    refine ⟨h.1, by simp, fun a ha b hb => ?_⟩
    obtain ⟨u, hu, rfl⟩ := List.mem_map.1 ha
    rw [List.mem_singleton.1 hb]
    exact (h.2 u hu).ne
  · intro u hu
    rcases List.mem_append.1 hu with hu | hu
    · exact (h.2 u hu).trans (Nat.lt_succ_self _)
    · rw [List.mem_singleton.1 hu]
      exact Nat.lt_succ_self _

theorem TaskIds.filter {db : Db} (h : TaskIds db) (p : ScheduledTask → Bool) :
    TaskIds { db with tasks := db.tasks.filter p } :=
  ⟨h.1.sublist ((List.filter_sublist).map _), fun t ht => h.2 t (List.mem_of_mem_filter ht)⟩

/-- The event and the rounds become the given ones; the clock and the configuration stay, and ids
are only handed out. -/
structure Moves (db db' : Db) (event : AwdEvent) (rounds : List AwdRound) : Prop where
  now : db'.now = db.now
  generic : db'.generic = db.generic
  networkRow : db'.networkRow = db.networkRow
  event : db'.event = event
  rounds : db'.rounds = rounds
  nextId : db.nextId ≤ db'.nextId
  taskIds : TaskIds db → TaskIds db'

/-- The event and its rounds are the same. -/
abbrev Quiet (db db' : Db) : Prop := Moves db db' db.event db.rounds

theorem Quiet.refl (db : Db) : Quiet db db := ⟨rfl, rfl, rfl, rfl, rfl, le_rfl, id⟩

theorem Moves.trans {a b c : Db} {e e' : AwdEvent} {rs rs' : List AwdRound} (h : Moves a b e rs)
    (h' : Moves b c e' rs') : Moves a c e' rs' :=
  ⟨h'.now.trans h.now, h'.generic.trans h.generic, h'.networkRow.trans h.networkRow,
    h'.event, h'.rounds, h.nextId.trans h'.nextId, h'.taskIds ∘ h.taskIds⟩

theorem Moves.then_quiet {a b c : Db} {e : AwdEvent} {rs : List AwdRound} (h : Moves a b e rs)
    (h' : Quiet b c) : Moves a c e rs := by
  have := h.trans h'
  rwa [h.event, h.rounds] at this

/-- Scheduler rows are only added. -/
def Keeps (db db' : Db) : Prop := db.tasks ⊆ db'.tasks

theorem Keeps.refl (db : Db) : Keeps db db := List.Subset.refl _

theorem Keeps.trans {a b c : Db} (h : Keeps a b) (h' : Keeps b c) : Keeps a c :=
  List.Subset.trans h h'

theorem keeps_of_tasks {db db' : Db} (h : db'.tasks = db.tasks) : Keeps db db' := by
  rw [Keeps, h]
  exact List.Subset.refl _

/-! ## Minor statements -/

/-- The clock, the event, its rounds and its scheduler rows are the same. -/
structure SameCore (db db' : Db) : Prop where
  now : db'.now = db.now
  generic : db'.generic = db.generic
  networkRow : db'.networkRow = db.networkRow
  event : db'.event = db.event
  rounds : db'.rounds = db.rounds
  tasks : db'.tasks = db.tasks
  nextId : db.nextId ≤ db'.nextId

theorem SameCore.refl (db : Db) : SameCore db db := ⟨rfl, rfl, rfl, rfl, rfl, rfl, le_rfl⟩

/-- What identifies an instance: its id, its team and its game box. -/
def GameboxInstance.key (i : GameboxInstance) : Nat × Nat × Nat :=
  (i.id, i.teamId, i.eventGameboxId)

/-- The judge tables and the teams, game boxes, instances and bans are the same as well; an instance
may change its status. -/
structure SameTables (db db' : Db) : Prop extends SameCore db db' where
  batches : db'.batches = db.batches
  judgeTasks : db'.judgeTasks = db.judgeTasks
  teams : db'.teams = db.teams
  gameboxes : db'.gameboxes = db.gameboxes
  instances : db'.instances.map (·.key) = db.instances.map (·.key)
  bans : db'.bans = db.bans

theorem SameTables.refl (db : Db) : SameTables db db :=
  ⟨.refl db, rfl, rfl, rfl, rfl, rfl, rfl⟩

/-- The relation lets scores and instances change, and scheduler rows be added. -/
structure Slight (R : Db → Db → Prop) : Prop where
  tables : ∀ {db db' : Db}, SameTables db db' → R db db'
  schedule : ∀ (db : Db) (key : TaskKey) (executeAt : Int) (roundId batchId : Option Nat),
    R db (db.schedule key executeAt roundId batchId)

/-- The relation also lets the judge tables change. -/
structure Minor (R : Db → Db → Prop) : Prop extends Slight R where
  core : ∀ {db db' : Db}, SameCore db db' → R db db'
  tables h := core h.toSameCore

theorem minor_quiet : Minor Quiet where
  core h := ⟨h.now, h.generic, h.networkRow, h.event, h.rounds, h.nextId,
    fun hi => hi.of_ids (by rw [h.tasks]) h.nextId⟩
  schedule _ _ _ _ _ := ⟨rfl, rfl, rfl, rfl, rfl, Nat.le_succ _, fun h => h.schedule _ _ _ _⟩

theorem minor_keeps : Minor Keeps where
  core h := keeps_of_tasks h.tasks
  schedule _ _ _ _ _ := List.subset_append_left _ _

theorem within_write {R : Db → Db → Prop} (hr : ∀ db, R db db) {l : Stmt} {f : Db → Db}
    (hf : ∀ db, R db (f db)) : (write l f).Within R := by
  refine Prog.does_exec hr fun db db' a h => ?_
  cases h
  exact hf db

theorem within_select {α : Type} {R : Db → Db → Prop} (hr : ∀ db, R db db) (f : Db → α) :
    (select f).Within R := Prog.does_query hr _ _

theorem within_utcNow {R : Db → Db → Prop} (hr : ∀ db, R db db) : utcNow.Within R :=
  Prog.does_look hr _

theorem within_call {R : Db → Db → Prop} (hr : ∀ db, R db db) (x : Ext) (e : AwdError) :
    (call x e).Within R :=
  Prog.does_exec hr fun _ _ _ h => by
    cases h
    exact hr _

theorem within_reconcileGlobal {R : Db → Db → Prop} (hr : ∀ db, R db db) (x : Ext) :
    (reconcileGlobal x).Within R := within_call hr _ _

theorem within_nextNetworkRevision {R : Db → Db → Prop} (hr : ∀ db, R db db) :
    nextNetworkRevision.Within R := Prog.does_query hr _ _

theorem within_tryReconcile {R : Db → Db → Prop} (hr : ∀ db, R db db) (x : Ext) :
    (tryReconcile x).Within R :=
  Prog.does_bind (within_nextNetworkRevision hr) fun _ =>
    Prog.does_attempt (within_reconcileGlobal hr x)

theorem within_requireEventNetwork {R : Db → Db → Prop} (hr : ∀ db, R db db) :
    requireEventNetwork.Within R :=
  Prog.does_bind (within_select hr _) fun _ => Prog.does_ite (Prog.does_pure _) trivial

theorem recoverFinished_within {R : Db → Db → Prop} (hr : ∀ db, R db db) (event : AwdEvent) :
    (recoverFinished event).Within R :=
  Prog.does_ite (Prog.does_bind (within_tryReconcile hr _) fun _ =>
    Prog.does_bind (Prog.does_attempt (within_requireEventNetwork hr)) fun _ =>
      Prog.does_pure _) (Prog.does_pure _)

section Slight

variable {R : Db → Db → Prop} (hR : Slight R)

include hR

theorem Slight.refl (db : Db) : R db db := hR.tables (SameTables.refl db)

theorem Slight.within_schedule (l : Stmt) (key : TaskKey) (executeAt : Int)
    (roundId batchId : Option Nat) :
    (write l fun db => db.schedule key executeAt roundId batchId).Within R :=
  Awd.within_write hR.refl fun db => hR.schedule db _ _ _ _

theorem maxTaskDeadline_within (batchId : Nat) : (maxTaskDeadline batchId).Within R := by
  refine Prog.does_bind (within_select hR.refl _) fun task => ?_
  cases task <;> trivial

theorem scheduleBatchDeadline_within (judgeResult : Except AwdError Nat) :
    (scheduleBatchDeadline judgeResult).Within R := by
  rcases judgeResult with e | batchId
  · trivial
  · refine Prog.does_bind (Prog.does_attempt (maxTaskDeadline_within hR batchId)) fun d => ?_
    rcases d with e | d
    · trivial
    · exact Prog.does_bind (Prog.does_attempt (hR.within_schedule _ _ _ _ _)) fun _ => trivial

theorem seedInitialScores_within (s : Int64) : (seedInitialScores s).Within R := by
  refine Prog.does_bind (within_select hR.refl _) fun _ =>
    Prog.does_bind (within_select hR.refl _) fun _ => Prog.does_each fun team _ => ?_
  refine Prog.does_bind (Prog.does_exec hR.refl fun db db' a h => ?_) fun _ => trivial
  unfold scoreIfAbsentRow at h
  split_ifs at h <;> cases h
  · exact hR.refl _
  · exact hR.tables { SameTables.refl _ with nextId := Nat.le_succ _ }

theorem reconcileContainers_within (host : Host) : (reconcileContainers host).Within R := by
  refine Prog.does_bind (within_call hR.refl _ _) fun _ =>
    Prog.does_bind (within_select hR.refl _) fun _ =>
      Prog.does_bind (Prog.does_each fun i _ => ?_) fun _ => Prog.does_pure _
  cases host.repair i with
  | none => trivial
  | some status =>
    refine Awd.within_write hR.refl fun db => hR.tables { SameTables.refl db with instances := ?_ }
    rw [List.map_map]
    refine List.map_congr_left fun x _ => ?_
    dsimp only [Function.comp]
    split_ifs <;> rfl

theorem restoreWireguard_within (host : Host) : (restoreWireguard host).Within R := by
  unfold restoreWireguard
  split
  · trivial
  · trivial
  · exact Prog.does_bind (within_call hR.refl _ _) fun _ => Prog.does_pure _

theorem restoreHardeningEnd_within (event : AwdEvent) : (restoreHardeningEnd event).Within R := by
  refine Prog.does_ite ?_ (Prog.does_pure _)
  split
  · trivial
  · exact Prog.does_bind (within_select hR.refl _) fun _ => Prog.does_ite
      (Prog.does_pure _)
      (Prog.does_bind (hR.within_schedule _ _ _ _ _) fun _ => Prog.does_pure _)

theorem restoreBatches_within : ∀ batches : List JudgeBatch, (restoreBatches batches).Within R
  | [] => Prog.does_pure _
  | batch :: batches => by
    refine Prog.does_bind ?_ fun _ => Prog.does_bind (restoreBatches_within batches) fun _ =>
      Prog.does_pure _
    exact Prog.does_bind (within_select hR.refl _) fun _ => Prog.does_ite
      (Prog.does_pure _) (Prog.does_bind (within_select hR.refl _) fun _ =>
        Prog.does_bind (within_utcNow hR.refl) fun _ =>
          Prog.does_bind (hR.within_schedule _ _ _ _ _) fun _ => Prog.does_pure _)

theorem restoreBatchDeadlines_within : restoreBatchDeadlines.Within R :=
  Prog.does_bind (within_select hR.refl _) (restoreBatches_within hR)

end Slight

section Minor

variable {R : Db → Db → Prop} (hR : Minor R)

include hR

/-- A write to the judge, score or instance tables. -/
theorem Minor.within_write {l : Stmt} {f : Db → Db} (hf : ∀ db, SameCore db (f db)) :
    (write l f).Within R := Awd.within_write hR.refl fun db => hR.core (hf db)

theorem insertJudgeTask_within (batchId roundId : Nat) (deadline : Int) (slot : BatchSlot) :
    (insertJudgeTask batchId roundId deadline slot).Within R :=
  hR.within_write fun _ => ⟨rfl, rfl, rfl, rfl, rfl, rfl, Nat.le_succ _⟩

theorem insertBatch_within (roundId : Nat) (n : Int) : (insertBatch roundId n).Within R := by
  refine Prog.does_exec hR.refl fun db db' a h => ?_
  cases h
  exact hR.core ⟨rfl, rfl, rfl, rfl, rfl, rfl, Nat.le_succ _⟩

theorem createBatch_within (roundId : Nat) : (createBatch roundId).Within R := by
  have hread {α : Type} (f : Db → α) : (batchRead f).Within R :=
    Prog.does_query hR.refl _ _
  refine Prog.does_bind (hread _) fun _ => Prog.does_bind (hread _) fun _ =>
    Prog.does_ite trivial ?_
  exact Prog.does_bind (hread _) fun _ => Prog.does_bind (hread _) fun _ =>
    Prog.does_bind (hread _) fun _ => Prog.does_bind (insertBatch_within hR _ _) fun batch =>
    Prog.does_bind (Prog.does_look hR.refl _) fun _ => Prog.does_bind
      (Prog.does_each fun slot _ => insertJudgeTask_within hR _ _ _ slot) fun _ => Prog.does_pure _

theorem writeTask_within (l : Stmt) (id : Nat) (f : JudgeTask → JudgeTask) :
    (writeTask l id f).Within R := by
  refine Prog.does_exec hR.refl fun db db' a h => ?_
  split_ifs at h
  cases h
  exact hR.core ⟨rfl, rfl, rfl, rfl, rfl, rfl, le_rfl⟩

theorem terminalizeBatchDeadline_within (batchId : Nat) (now : Int) :
    (terminalizeBatchDeadline batchId now).Within R :=
  Prog.does_bind (within_select hR.refl _) fun _ =>
    Prog.does_bind (Prog.does_each fun _ _ => writeTask_within hR _ _ _) fun _ =>
      Prog.does_pure _

theorem maybeCompleteBatch_within (batchId : Nat) : (maybeCompleteBatch batchId).Within R :=
  Prog.does_bind (within_select hR.refl _) fun _ => Prog.does_ite
    (Prog.does_bind (hR.within_write fun _ => ⟨rfl, rfl, rfl, rfl, rfl, rfl, le_rfl⟩)
      fun _ => Prog.does_pure _)
    (Prog.does_pure _)

end Minor

/-- What a quiet program leaves behind. -/
theorem quiet_run {α : Type} {p : AwdM α} (hp : p.Within Quiet) (ans : Stmt → Bool) (db : Db) :
    Quiet db (p.run ans db).1 := Prog.run_within ans Quiet.refl Moves.then_quiet hp db

/-- A sequence that starts with a quiet program. -/
theorem quiet_bind {α β : Type} {p : AwdM α} (hp : p.Within Quiet) {f : α → AwdM β}
    {ans : Stmt → Bool} {db : Db} {T : Db → Prop} (hfail : ∀ db', Quiet db db' → T db')
    (hok : ∀ a db', Quiet db db' → T ((f a).run ans db').1) : T ((p >>= f).run ans db).1 :=
  Prog.run_bind_within ans Quiet.refl Moves.then_quiet hp hfail hok

end FloatCtf.Awd
