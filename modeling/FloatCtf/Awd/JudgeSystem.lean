import FloatCtf.Awd.Frame
import FloatCtf.Process.Pool

/-!
# The judge protocol

Any number of workers claim tasks, renew their leases and report results, while the server creates
batches and closes the tasks whose time is over.  A request is a job of the system: it is delivered
at any time and any number of times, and its statements interleave with those of the others.  The
environment moves the clock, the event and the tables that the judge only reads.

`JudgeStep` says once what each statement of these programs can do to the database.
-/

namespace FloatCtf.Awd

open Process

/-! ## The system -/

/-- The jobs of the judge. -/
inductive JudgeJob where
  | createBatch (roundId : Nat)
  | claim (token : Nat → String) (workerId : String) (limit : Option Nat)
  | heartbeat (taskId : Nat) (workerId : String) (attempt : Int) (leaseToken : String)
  | result (taskId : Nat) (req : JudgeResultRequest)
  | batchDeadline (batchId : Nat)

/-- For whom a job writes: the server, or a worker that presents a lease. -/
inductive Role where
  | server
  | heartbeat (l : Lease)
  | result (l : Lease)
  deriving DecidableEq

/-- The lease of a role. -/
def Role.lease : Role → Option Lease
  | server => none
  | heartbeat l | result l => some l

/-- The role that a job plays. -/
def JudgeJob.role (hash : String → String) : JudgeJob → Role
  | heartbeat taskId workerId attempt leaseToken =>
    .heartbeat { taskId, workerId, attempt, tokenHash := hash leaseToken }
  | result taskId req => .result (req.lease hash taskId)
  | createBatch _ | claim _ _ _ | batchDeadline _ => .server

/-- The program of a job. -/
def JudgeJob.prog (hash : String → String) : JudgeJob → AwdM Unit
  | createBatch roundId => do let _ ← Awd.createBatch roundId
  | claim token workerId limit => do let _ ← judgeClaim hash token workerId limit
  | heartbeat taskId workerId attempt leaseToken =>
    judgeHeartbeat { taskId, workerId, attempt, tokenHash := hash leaseToken }
  | result taskId req => judgeResult hash taskId req
  | batchDeadline batchId => handleJudgeBatchDeadline batchId

/-- What happens around the judge: time passes, the event is paused, resumed or finished, rounds
start and end, teams are banned, game boxes change. -/
inductive JudgeEnv where
  | advance (d : Nat)
  | lifecycle (status : AwdEventStatus) (phase : AwdPhase)
  | rounds (rs : List AwdRound)
  | bans (bs : List TeamBan)
  | gameboxes (gs : List EventGamebox)

/-- What happens beside the jobs. -/
def JudgeEnv.apply : JudgeEnv → Db → Db
  | advance d, db => { db with now := db.now + d }
  | lifecycle status phase, db => { db with event := { db.event with status, phase } }
  | rounds rs, db => { db with rounds := rs }
  | bans bs, db => { db with bans := bs }
  | gameboxes gs, db => { db with gameboxes := gs }

/-- The judge with an observer. -/
def judgeSystem {γ : Type} (hash : String → String) (watch : JudgeJob → Stmt → Db → γ → γ) :
    System Stmt Db AwdError γ JudgeJob JudgeEnv where
  prog := JudgeJob.prog hash
  env := JudgeEnv.apply
  watch

/-! ## The task table -/

/-- The ids of the judge tasks are distinct and below the supply. -/
structure JudgeKeys (db : Db) : Prop where
  nodup : (db.judgeTasks.map (·.id)).Nodup
  fresh : ∀ t ∈ db.judgeTasks, t.id < db.nextId

/-- The task with this id. -/
def Db.findTask (db : Db) (id : Nat) : Option JudgeTask := findTaskById db.judgeTasks id

/-- Changes one task. -/
def Db.editTask (db : Db) (id : Nat) (f : JudgeTask → JudgeTask) : Db :=
  { db with judgeTasks := updateTaskRow id f db.judgeTasks }

variable {o : Role} {tasks : List JudgeTask} {db db' : Db} {id k : Nat} {t : JudgeTask}

theorem findTaskById_some (h : findTaskById tasks id = some t) : t ∈ tasks ∧ t.id = id :=
  ⟨List.mem_of_find?_eq_some h, by simpa using List.find?_some h⟩

theorem findTaskById_of_mem (hn : (tasks.map (·.id)).Nodup) (ht : t ∈ tasks) :
    findTaskById tasks t.id = some t := by
  induction tasks with
  | nil => cases ht
  | cons u us ih =>
    rw [List.map_cons, List.nodup_cons] at hn
    rcases List.mem_cons.1 ht with rfl | ht
    · simp [findTaskById]
    · have hne : u.id ≠ t.id := fun he => hn.1 (he ▸ List.mem_map_of_mem ht)
      rw [findTaskById, List.find?_cons_of_neg (by simpa using hne)]
      exact ih hn.2 ht

theorem findTaskById_append_of_some (h : findTaskById tasks id = some t) (us : List JudgeTask) :
    findTaskById (tasks ++ us) id = some t := by
  rw [findTaskById, List.find?_append, ← findTaskById, h]
  rfl

/-- An update that keeps the ids is seen through the lookup. -/
theorem findTaskById_update (f : JudgeTask → JudgeTask) (hf : ∀ t, (f t).id = t.id) :
    findTaskById (updateTaskRow id f tasks) k =
      (findTaskById tasks k).map fun t => if t.id = id then f t else t := by
  have hids : ((fun t : JudgeTask => decide (t.id = k)) ∘
      fun t => if t.id = id then f t else t) = fun t => decide (t.id = k) := by
    funext t
    by_cases h : t.id = id <;> simp [h, hf]
  rw [findTaskById, updateTaskRow, List.find?_map, hids, findTaskById]

/-- The row that an update by id has written. -/
theorem findTask_editTask_self (f : JudgeTask → JudgeTask) (hf : ∀ t, (f t).id = t.id)
    (h : db.findTask id = some t) : (db.editTask id f).findTask id = some (f t) := by
  have hid := (findTaskById_some h).2
  rw [Db.findTask, Db.editTask, findTaskById_update f hf, ← Db.findTask, h, Option.map_some,
    if_pos hid]

theorem updateTaskRow_ids (f : JudgeTask → JudgeTask) (hf : ∀ t, (f t).id = t.id) :
    (updateTaskRow id f tasks).map (·.id) = tasks.map (·.id) := by
  rw [updateTaskRow, List.map_map]
  refine List.map_congr_left fun t _ => ?_
  by_cases h : t.id = id <;> simp [h, hf]

theorem JudgeKeys.of_ids (h : JudgeKeys db)
    (hids : db'.judgeTasks.map (·.id) = db.judgeTasks.map (·.id)) (hn : db.nextId ≤ db'.nextId) :
    JudgeKeys db' := by
  refine ⟨hids ▸ h.nodup, fun t ht => ?_⟩
  have hmem : t.id ∈ db.judgeTasks.map (·.id) := hids ▸ List.mem_map_of_mem ht
  obtain ⟨u, hu, he⟩ := List.mem_map.1 hmem
  exact he ▸ (h.fresh u hu).trans_le hn

theorem JudgeKeys.append (h : JudgeKeys db) (ht : t.id = db.nextId)
    (he : db'.judgeTasks = db.judgeTasks ++ [t]) (hn : db'.nextId = db.nextId + 1) :
    JudgeKeys db' := by
  refine ⟨?_, fun u hu => ?_⟩
  · rw [he, List.map_append, List.nodup_append]
    refine ⟨h.nodup, by simp, fun a ha b hb => ?_⟩
    obtain ⟨u, hu, rfl⟩ := List.mem_map.1 ha
    rw [List.map_singleton, List.mem_singleton] at hb
    have := h.fresh u hu
    omega
  · rw [he, List.mem_append, List.mem_singleton] at hu
    rcases hu with hu | rfl
    · have := h.fresh u hu
      omega
    · omega

/-! ## What a statement can do -/

/-- One statement of the judge programs. -/
inductive JudgeStep : Role → Stmt → Db → Db → Prop where
  | same (o : Role) (l : Stmt) (db : Db) : JudgeStep o l db db
  | heartbeat {l : Lease} {seen : JudgeTask} (now expires : Int) (db : Db)
      (hold : seen.holds l = true) :
      JudgeStep (.heartbeat l) (.heartbeatTask l seen) db
        (db.editTask l.taskId (JudgeTask.renewed now expires))
  | submit {l : Lease} {seen : JudgeTask} {r : JudgeReport} (now : Int) (db : Db)
      (hold : seen.holds l = true) :
      JudgeStep (.result l) (.submitResult l seen r) db
        (db.editTask l.taskId (JudgeTask.reported now r))
  | release (l : Lease) (seen : JudgeTask) (db : Db) :
      JudgeStep (.result l) (.releaseTask l seen) db (db.editTask l.taskId JudgeTask.released)
  | terminalize (seen : JudgeTask) (now : Int) (db : Db) :
      JudgeStep .server (.terminalizeTask seen) db (db.editTask seen.id (JudgeTask.failed now))
  | claim (hash : String → String) (token : Nat → String) (worker : String) (limit : Nat)
      (now : Int) (expired : List JudgeTask) (db : Db) :
      JudgeStep .server (.claimTasks expired) db (claimRows hash token worker limit now expired db).1
  | insert (batchId roundId : Nat) (deadline : Int) (slot : BatchSlot) (db : Db) :
      JudgeStep .server .insertJudgeTask db { db with
        judgeTasks := db.judgeTasks ++
          [newJudgeTask db.nextId batchId db.event.eventId roundId deadline db.now slot]
        nextId := db.nextId + 1 }
  | score (l : Lease) (task : JudgeTask) (gamebox : EventGamebox) {db db' : Db}
      (h : insertScoreRow (judgeDownEvent l.taskId task gamebox) db = .ok (db', ())) :
      JudgeStep (.result l) (.scoreJudgeDown l.taskId) db db'
  | transition {o : Role} {s s' : AwdEventStatus} {p : TransitionPatch} {db db' : Db}
      (h : transitionRow s s' p db = .ok (db', ())) : JudgeStep o (.transition s s') db db'
  | batch (o : Role) (l : Stmt) (batches : List JudgeBatch) {n : Nat} {db : Db} (hn : db.nextId ≤ n) :
      JudgeStep o l db { db with batches, nextId := n }

/-- A program that only reads. -/
theorem does_read {α : Type} {p : AwdM α} (hp : p.Within Eq) : p.Does (JudgeStep o) :=
  hp.mono fun l db _ h => h ▸ .same o l db

theorem does_select {α : Type} (f : Db → α) : (select f).Does (JudgeStep o) :=
  does_read (within_select Eq.refl f)

theorem does_query {α : Type} (l : Stmt) (e : AwdError) (f : Db → α) :
    (Prog.query l e f).Does (JudgeStep o) := Prog.does_query (.same _ l) e f

theorem does_utcNow : utcNow.Does (JudgeStep o) := does_read (within_utcNow Eq.refl)

theorem does_writeTask {l : Stmt} {f : JudgeTask → JudgeTask}
    (h : ∀ db, JudgeStep o l db (db.editTask id f)) : (writeTask l id f).Does (JudgeStep o) := by
  refine Prog.does_exec (.same _ l) fun db db' a hw => ?_
  split_ifs at hw
  cases hw
  exact h db

theorem does_maybeFinishEvent : maybeFinishEvent.Does (JudgeStep o) := by
  refine Prog.does_bind (does_select _) fun e => Prog.does_ite trivial (Prog.does_ite trivial ?_)
  refine Prog.does_bind (does_select _) fun r => Prog.does_ite trivial ?_
  refine Prog.does_bind (does_select _) fun t => Prog.does_ite trivial ?_
  refine Prog.does_bind does_utcNow fun now => Prog.does_bind (Prog.does_attempt ?_) fun moved => ?_
  · exact Prog.does_exec (.same _ _) fun db db' a h => .transition h
  · split
    · trivial
    · trivial
    · trivial
    · exact Prog.does_bind (does_read (within_tryReconcile Eq.refl _)) fun _ => Prog.does_bind
        (Prog.does_attempt (does_read (within_requireEventNetwork Eq.refl))) fun _ => trivial

theorem does_createBatch (roundId : Nat) : (createBatch roundId).Does (JudgeStep .server) := by
  refine Prog.does_bind (does_query _ _ _) fun e => Prog.does_bind (does_query _ _ _) fun gs =>
    Prog.does_ite trivial ?_
  refine Prog.does_bind (does_query _ _ _) fun teams => Prog.does_bind (does_query _ _ _) fun bans =>
    Prog.does_bind (does_query _ _ _) fun is => Prog.does_bind ?_ fun batch =>
      Prog.does_bind (Prog.does_look (.same _ _) _) fun now => Prog.does_bind ?_ fun _ => trivial
  · refine Prog.does_exec (.same _ _) fun db db' a h => ?_
    cases h
    exact .batch _ _ _ (Nat.le_succ _)
  · refine Prog.does_each fun slot _ => Prog.does_exec (.same _ _) fun db db' a h => ?_
    cases h
    exact .insert _ _ _ _ _

theorem does_terminalizeTasks (tasks : List JudgeTask) (now : Int) :
    (terminalizeTasks tasks now).Does (JudgeStep .server) :=
  Prog.does_each fun t _ => does_writeTask fun db => .terminalize t now db

theorem does_judgeClaim (hash : String → String) (token : Nat → String) (workerId : String)
    (limit : Option Nat) : (judgeClaim hash token workerId limit).Does (JudgeStep .server) := by
  refine Prog.does_ite trivial (Prog.does_bind does_utcNow fun now => ?_)
  refine Prog.does_bind (Prog.does_attempt (Prog.does_bind (does_select _) fun tasks =>
    Prog.does_bind (does_terminalizeTasks _ _) fun _ => trivial)) fun swept => ?_
  refine Prog.does_bind (Prog.does_bind does_utcNow fun now => Prog.does_bind (does_select _)
    fun expired => Prog.does_bind ?_ fun _ => trivial) fun claim => ?_
  · refine Prog.does_exec (.same _ _) fun db db' a h => ?_
    have hrow : db' = (claimRows hash token (Text.trim workerId) (max (min (limit.getD 5) 20) 1) now
        expired db).1 := by
      cases h
      rfl
    rw [hrow]
    exact .claim _ _ _ _ _ _ _
  · refine Prog.does_bind (Prog.does_look (.same _ _) _) fun eventId => Prog.does_ite ?_ trivial
    exact Prog.does_bind (Prog.does_attempt does_maybeFinishEvent) fun _ => trivial

theorem does_judgeHeartbeat (l : Lease) : (judgeHeartbeat l).Does (JudgeStep (.heartbeat l)) := by
  refine Prog.does_bind does_utcNow fun now => Prog.does_bind ?_ fun res => ?_
  · refine Prog.does_bind (does_select _) fun found => ?_
    cases found with
    | none => trivial
    | some task =>
      refine Prog.does_if (fun _ => trivial) fun hold => Prog.does_ite trivial ?_
      exact Prog.does_bind (does_writeTask fun db => .heartbeat _ _ db (by simpa using hold))
        fun _ => trivial
  · cases res <;> trivial

theorem does_submitResult (l : Lease) (r : JudgeReport) (now : Int) :
    (submitResult l r now).Does (JudgeStep (.result l)) := by
  refine Prog.does_bind (does_query _ _ _) fun found => ?_
  cases found with
  | none => trivial
  | some task =>
    refine Prog.does_ite trivial (Prog.does_if (fun _ => trivial) fun hold =>
      Prog.does_ite trivial ?_)
    exact Prog.does_bind (does_writeTask fun db => .submit _ db (by simpa using hold))
      fun _ => trivial

theorem does_scoreDown (l : Lease) (task : JudgeTask) :
    (scoreDown l.taskId task).Does (JudgeStep (.result l)) := by
  refine Prog.does_bind (does_query _ _ _) fun e => Prog.does_ite trivial ?_
  refine Prog.does_bind (does_query _ _ _) fun banned => Prog.does_ite trivial ?_
  split
  · trivial
  · refine Prog.does_bind (Prog.does_attempt (does_query _ _ _)) fun resolved => ?_
    split
    · refine Prog.does_bind (Prog.does_attempt ?_) fun _ => trivial
      exact Prog.does_exec (.same _ _) fun db db' a h => .score l task _ h
    · trivial

theorem does_submitAndScore (hash : String → String) (taskId : Nat) (task : JudgeTask)
    (req : JudgeResultRequest) (status : JudgeTaskStatus) :
    (submitAndScore hash taskId task req status).Does
      (JudgeStep (.result (req.lease hash taskId))) := by
  refine Prog.does_bind does_utcNow fun now => Prog.does_bind (does_submitResult _ _ _) fun res => ?_
  have hscore : (scoreResult taskId task status).Does (JudgeStep (.result (req.lease hash taskId))) :=
    Prog.does_bind (Prog.does_ite (does_scoreDown (req.lease hash taskId) task) trivial) fun _ =>
      Prog.does_bind (Prog.does_attempt does_maybeFinishEvent) fun _ => trivial
  cases res with
  | stale => trivial
  | notFound => trivial
  | ok => exact hscore
  | idempotent => exact hscore

theorem does_judgeResult (hash : String → String) (taskId : Nat) (req : JudgeResultRequest) :
    (judgeResult hash taskId req).Does (JudgeStep (.result (req.lease hash taskId))) := by
  refine Prog.does_bind (does_select _) fun found => ?_
  have hsubmit (task : JudgeTask) (status : JudgeTaskStatus) :=
    does_submitAndScore hash taskId task req status
  split
  · trivial
  · refine Prog.does_ite trivial ?_
    split
    · exact hsubmit _ _
    · exact hsubmit _ _
    · exact hsubmit _ _
    · refine Prog.does_ite (Prog.does_bind does_utcNow fun now => Prog.does_ite ?_ (hsubmit _ _))
        (hsubmit _ _)
      exact does_writeTask fun db => .release (req.lease hash taskId) _ db
    · trivial

theorem does_handleJudgeBatchDeadline (batchId : Nat) :
    (handleJudgeBatchDeadline batchId).Does (JudgeStep .server) := by
  refine Prog.does_bind does_utcNow fun now => Prog.does_bind ?_ fun _ =>
    Prog.does_bind (Prog.does_attempt ?_) fun _ =>
      Prog.does_bind (Prog.does_attempt does_maybeFinishEvent) fun _ => trivial
  · exact Prog.does_bind (does_select _) fun tasks =>
      Prog.does_bind (does_terminalizeTasks _ _) fun _ => trivial
  · refine Prog.does_bind (does_select _) fun tasks => Prog.does_ite ?_ trivial
    refine Prog.does_bind (Prog.does_exec (.same _ _) fun db db' a h => ?_) fun _ => trivial
    cases h
    exact .batch _ _ _ le_rfl

/-- Every statement of every job. -/
theorem JudgeJob.does (hash : String → String) (j : JudgeJob) : (j.prog hash).Does (JudgeStep (j.role hash)) := by
  cases j with
  | createBatch roundId => exact Prog.does_bind (does_createBatch roundId) fun _ => trivial
  | claim token workerId limit =>
    exact Prog.does_bind (does_judgeClaim hash token workerId limit) fun _ => trivial
  | heartbeat taskId workerId attempt leaseToken => exact does_judgeHeartbeat _
  | result taskId req => exact does_judgeResult hash taskId req
  | batchDeadline batchId => exact does_handleJudgeBatchDeadline batchId

/-! ## What the task rows keep -/

/-- A task that has the property has it afterwards. -/
def KeepsTasks (P : JudgeTask → Prop) (db db' : Db) : Prop :=
  ∀ id, ∀ t ∈ db.findTask id, P t → ∃ t' ∈ db'.findTask id, P t'

variable {P : JudgeTask → Prop}

theorem keepsTasks_of_eq (h : db'.judgeTasks = db.judgeTasks) : KeepsTasks P db db' :=
  fun id t ht hP => ⟨t, by rwa [Db.findTask, h], hP⟩

theorem KeepsTasks.trans {a b c : Db} (h : KeepsTasks P a b) (h' : KeepsTasks P b c) :
    KeepsTasks P a c := by
  intro id t ht hP
  obtain ⟨u, hu, hP'⟩ := h id t ht hP
  exact h' id u hu hP'

theorem keepsTasks_append (t : JudgeTask) (h : db'.judgeTasks = db.judgeTasks ++ [t]) :
    KeepsTasks P db db' := by
  refine fun id u hu hP => ⟨u, ?_, hP⟩
  rw [Db.findTask, h]
  exact findTaskById_append_of_some hu [t]

/-- An update by id keeps what it keeps of the row that it finds. -/
theorem keepsTasks_edit {f : JudgeTask → JudgeTask} (hf : ∀ t, (f t).id = t.id)
    (h : ∀ t ∈ db.findTask id, P t → P (f t)) : KeepsTasks P db (db.editTask id f) := by
  intro k t ht hP
  refine ⟨if t.id = id then f t else t, ?_, ?_⟩
  · rw [Db.findTask, Db.editTask, findTaskById_update f hf, ← Db.findTask, Option.mem_def.1 ht]
    rfl
  · obtain ⟨-, rfl⟩ := findTaskById_some ht
    split_ifs with he
    · exact h t (he ▸ ht) hP
    · exact hP

section Updates

variable {ι : Type} {xs : List ι} {key : ι → Nat} {f : ι → JudgeTask → JudgeTask}

/-- A sequence of updates by id leaves a task alone that none of them names. -/
theorem findTaskById_updates (hf : ∀ x t, (f x t).id = t.id) (hk : ∀ x ∈ xs, key x ≠ k) :
    findTaskById (xs.foldl (fun ts x => updateTaskRow (key x) (f x) ts) tasks) k =
      findTaskById tasks k := by
  induction xs generalizing tasks with
  | nil => rfl
  | cons x xs ih =>
    rw [List.foldl_cons, ih fun y hy => hk y (List.mem_cons_of_mem x hy),
      findTaskById_update _ (hf x)]
    cases ht : findTaskById tasks k with
    | none => rfl
    | some t =>
      have hne : t.id ≠ key x := (findTaskById_some ht).2 ▸ (hk x List.mem_cons_self).symm
      simp [hne]

theorem updates_ids (hf : ∀ x t, (f x t).id = t.id) :
    (xs.foldl (fun ts x => updateTaskRow (key x) (f x) ts) tasks).map (·.id) =
      tasks.map (·.id) := by
  induction xs generalizing tasks with
  | nil => rfl
  | cons x xs ih => rw [List.foldl_cons, ih, updateTaskRow_ids _ (hf x)]

end Updates

theorem reclaimUpdate_id (now : Int) (seen t : JudgeTask) :
    (reclaimUpdate now seen t).id = t.id := by
  unfold reclaimUpdate
  split_ifs <;> rfl

theorem mem_claimable {eventId limit : Nat} (h : t ∈ claimable eventId limit tasks) :
    t ∈ tasks ∧ t.status = .pending := by
  have hmem := List.mem_of_mem_take h
  rw [List.mem_mergeSort, List.mem_filter] at hmem
  exact ⟨hmem.1, by simpa using (of_decide_eq_true hmem.2).2⟩

theorem claimRows_ids (hash : String → String) (token : Nat → String) (worker : String)
    (limit : Nat) (now : Int) (expired : List JudgeTask) :
    (claimRows hash token worker limit now expired db).1.judgeTasks.map (·.id) =
      db.judgeTasks.map (·.id) := by
  refine (updates_ids fun _ _ => ?_).trans (updates_ids fun seen t => ?_)
  · rfl
  · exact reclaimUpdate_id now seen t

/-- A claim takes pending tasks, and reclaims the ones it read as expired. -/
theorem keepsTasks_claim (hk : JudgeKeys db) (hP : ∀ t, P t → t.status ≠ .pending)
    (hash : String → String) (token : Nat → String) (worker : String) (limit : Nat) (now : Int)
    {expired : List JudgeTask} (hexp : ∀ seen ∈ expired, ∀ t ∈ db.findTask seen.id, ¬ P t) :
    KeepsTasks P db (claimRows hash token worker limit now expired db).1 := by
  intro k t ht hPt
  refine ⟨t, ?_, hPt⟩
  have hreclaim : findTaskById (reclaimRows now expired db.judgeTasks) k = some t := by
    rw [reclaimRows, findTaskById_updates (reclaimUpdate_id now)]
    · exact ht
    · rintro seen hs rfl
      exact hexp seen hs t ht hPt
  refine Eq.trans ?_ hreclaim
  rw [Db.findTask, claimRows]
  refine findTaskById_updates (fun _ _ => ?_) fun row hrow => ?_
  · rfl
  rintro rfl
  obtain ⟨hmem, hpending⟩ := mem_claimable hrow
  have hids : ((reclaimRows now expired db.judgeTasks).map (·.id)).Nodup := by
    rw [reclaimRows, updates_ids (reclaimUpdate_id now)]
    exact hk.nodup
  rw [findTaskById_of_mem hids hmem] at hreclaim
  cases hreclaim
  exact hP _ hPt hpending

/-- The writes by id that the statement makes keep the property of the rows they hit. -/
def Stmt.Spares (P : JudgeTask → Prop) (db : Db) : Stmt → Prop
  | heartbeatTask l _ => ∀ t ∈ db.findTask l.taskId, P t → ∀ now e, P (t.renewed now e)
  | submitResult l _ r => ∀ t ∈ db.findTask l.taskId, P t → ∀ now, P (t.reported now r)
  | releaseTask l _ => ∀ t ∈ db.findTask l.taskId, P t → P t.released
  | terminalizeTask seen => ∀ t ∈ db.findTask seen.id, P t → ∀ now, P (t.failed now)
  | claimTasks expired => ∀ seen ∈ expired, ∀ t ∈ db.findTask seen.id, ¬ P t
  | _ => True

theorem insertScoreRow_ok {row : Nat → ScoreEvent} {a : Unit}
    (h : insertScoreRow row db = .ok (db', a)) :
    (∀ s ∈ db.scores, s.idempotencyKey ≠ (row db.nextId).idempotencyKey) ∧
      db' = { db with scores := db.scores ++ [row db.nextId], nextId := db.nextId + 1 } := by
  unfold insertScoreRow at h
  split_ifs at h with hany
  cases h
  exact ⟨by simpa using hany, rfl⟩

theorem JudgeStep.keepsTasks {l : Stmt} (h : JudgeStep o l db db') (hk : JudgeKeys db)
    (hP : ∀ t, P t → t.status ≠ .pending) (hs : l.Spares P db) : KeepsTasks P db db' := by
  cases h with
  | same => exact keepsTasks_of_eq rfl
  | heartbeat now expires => exact keepsTasks_edit (fun _ => rfl) fun t ht hPt => hs t ht hPt _ _
  | submit now => exact keepsTasks_edit (fun _ => rfl) fun t ht hPt => hs t ht hPt _
  | release => exact keepsTasks_edit (fun _ => rfl) hs
  | terminalize seen now => exact keepsTasks_edit (fun _ => rfl) fun t ht hPt => hs t ht hPt _
  | claim => exact keepsTasks_claim hk hP _ _ _ _ _ hs
  | insert => exact keepsTasks_append _ rfl
  | score lease task gamebox h =>
    obtain ⟨-, rfl⟩ := insertScoreRow_ok h
    exact keepsTasks_of_eq rfl
  | transition h =>
    obtain ⟨rfl, -, -⟩ := transitionRow_ok h
    exact keepsTasks_of_eq rfl
  | batch => exact keepsTasks_of_eq rfl

theorem JudgeStep.judgeKeys {l : Stmt} (h : JudgeStep o l db db') (hk : JudgeKeys db) :
    JudgeKeys db' := by
  cases h with
  | same => exact hk
  | heartbeat => exact hk.of_ids (updateTaskRow_ids _ fun _ => rfl) le_rfl
  | submit => exact hk.of_ids (updateTaskRow_ids _ fun _ => rfl) le_rfl
  | release => exact hk.of_ids (updateTaskRow_ids _ fun _ => rfl) le_rfl
  | terminalize => exact hk.of_ids (updateTaskRow_ids _ fun _ => rfl) le_rfl
  | claim => exact hk.of_ids (claimRows_ids _ _ _ _ _ _) le_rfl
  | insert => exact hk.append rfl rfl rfl
  | score lease task gamebox h =>
    obtain ⟨-, rfl⟩ := insertScoreRow_ok h
    exact hk.of_ids rfl (Nat.le_succ _)
  | transition h =>
    obtain ⟨rfl, -, -⟩ := transitionRow_ok h
    exact hk.of_ids rfl le_rfl
  | batch _ _ _ hn => exact hk.of_ids rfl hn

end FloatCtf.Awd
