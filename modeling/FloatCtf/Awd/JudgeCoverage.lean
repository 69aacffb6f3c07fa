import FloatCtf.Awd.BatchTable
import FloatCtf.Awd.RoundClock
import FloatCtf.Process.Crash

/-!
# Judge coverage across crashes

Once the event has moved past a round, the round should have its judge batch, with one task for every
instance of every team that was not banned when the batch was created, whatever statement failed and
wherever the process stopped.

`end_round` completes the round in one transaction and creates the batch afterwards, row by row; an
error there is only logged, and the recovery starts the next round without looking at the batch
(`crash_loses_batch`).  `judgeCoverage_run` shows that the rounds are covered in every run, with
errors and crashes anywhere else, in which nothing interrupts the creation of a batch.
-/

namespace FloatCtf.Awd

open Process

/-! ## Runs with crashes -/

/-- The operations of the process. -/
inductive CoverOp where
  | startEvent | pauseEvent | resumeEvent | networkError | finishEvent
  | endRound (id : Nat)
  | deliver (id : Nat)
  | restart (host : Host)

/-- The program of an operation. -/
def CoverOp.prog : CoverOp → AwdM Unit
  | startEvent => Awd.startEvent
  | pauseEvent => Awd.pauseEvent
  | resumeEvent => Awd.resumeEvent
  | networkError => handleNetworkError
  | finishEvent => maybeFinishEvent
  | endRound id => Awd.endRound id
  | deliver id => Awd.deliver id
  | restart host => Awd.restart host

/-- An operation with the answers to its statements, which may end before it does, or a change from
outside: time passes, bans change, the judge gives a task a status. -/
inductive CoverAct where
  | run (op : CoverOp) (answers : List Bool)
  | advance (d : Nat)
  | bans (bs : List TeamBan)
  | judged (taskId : Nat) (status : JudgeTaskStatus)

/-- The observer notes, for every batch row, the instances of the teams that are not banned. -/
def madeWatch (l : Stmt) (db : Db) (made : Made) : Made :=
  match l with
  | .insertBatch => made ++ [(db.nextId, db.unbannedInstances)]
  | _ => made

/-- One operation that may stop anywhere, or a change beside it. -/
def coverStep (v : Db × Made) : CoverAct → Db × Made
  | .run op answers => op.prog.crashRun madeWatch answers v
  | .advance d => ({ v.1 with now := v.1.now + d }, v.2)
  | .bans bs => ({ v.1 with bans := bs }, v.2)
  | .judged taskId status =>
    ({ v.1 with judgeTasks := updateTaskRow taskId (fun t => { t with status }) v.1.judgeTasks },
      v.2)

/-- The statements of `create_batch`. -/
def Stmt.ofBatch : Stmt → Bool
  | batchSelect | insertBatch | insertJudgeTask => true
  | _ => false

/-- No statement of `create_batch` fails, and the process does not stop in front of one. -/
def WholeBatches (v : Db × Made) : CoverAct → Prop
  | .run op answers => op.prog.unbroken Stmt.ofBatch answers v.1 = true
  | _ => True

instance (v : Db × Made) (a : CoverAct) : Decidable (WholeBatches v a) :=
  match a with
  | .run op answers => inferInstanceAs (Decidable (op.prog.unbroken _ answers v.1 = true))
  | .advance _ | .bans _ | .judged _ _ => inferInstanceAs (Decidable True)

/-- The event has moved past the round. -/
def Db.Passed (db : Db) (r : AwdRound) : Prop :=
  (∃ x ∈ db.rounds, r.roundNumber < x.roundNumber) ∨ db.event.status = .finished

/-- Every round that has passed is covered. -/
def JudgeCoverage (v : Db × Made) : Prop := ∀ r ∈ v.1.rounds, v.1.Passed r → Covered v r.id

/-- An event before its start, without batches. -/
structure Unjudged (db : Db) : Prop extends Fresh db where
  batches : db.batches = []
  judgeTasks : db.judgeTasks = []
  installed : Installed db

/-! ## The crash after the round -/

/-- The event of `oneRoundDb` with two rounds. -/
def coverDb : Db :=
  { oneRoundDb with
    event := { oneRoundDb.event with roundCount := some 2 }
    generic := { startTime := 0, endTime := some (200 * sec) } }

theorem coverDb_unjudged : Unjudged coverDb where
  toFresh := ⟨rfl, rfl, rfl, rfl, rfl⟩
  batches := rfl
  judgeTasks := rfl
  installed := by constructor <;> decide

/-- A host on which everything runs. -/
def quietHost : Host := { container := fun _ => .running true, wireguardKey := none }

/-- Every statement succeeds. -/
def steady : List Bool := List.replicate 60 true

/-- The process stops after the commit that completes round 1, and starts again. -/
def lostBatchRun : List CoverAct :=
  [.run .startEvent steady, .run (.endRound 11) [true, true], .run (.restart quietHost) steady]

theorem crash_loses_batch : Unjudged coverDb ∧ coverDb.gameboxes ≠ [] ∧
    ¬ JudgeCoverage (lostBatchRun.foldl coverStep (coverDb, [])) := by
  refine ⟨coverDb_unjudged, by decide, fun h => ?_⟩
  have hrounds : ((lostBatchRun.foldl coverStep (coverDb, [])).1.rounds.map
      fun r => (r.id, r.roundNumber)) = [(11, 1), (13, 2)] := by decide +kernel
  obtain ⟨r1, hr1, he1⟩ : ∃ r ∈ (lostBatchRun.foldl coverStep (coverDb, [])).1.rounds,
      (r.id, r.roundNumber) = (11, 1) := List.mem_map.1 (hrounds ▸ by simp)
  obtain ⟨r2, hr2, he2⟩ : ∃ r ∈ (lostBatchRun.foldl coverStep (coverDb, [])).1.rounds,
      (r.id, r.roundNumber) = (13, 2) := List.mem_map.1 (hrounds ▸ by simp)
  have hn1 : r1.roundNumber = 1 := congrArg Prod.snd he1
  have hn2 : r2.roundNumber = 2 := congrArg Prod.snd he2
  obtain ⟨b, hone, -⟩ := h r1 hr1 (.inl ⟨r2, hr2, by omega⟩)
  have hnone : (lostBatchRun.foldl coverStep (coverDb, [])).1.batchKeys = [] := by decide +kernel
  rw [hnone] at hone
  cases hone

/-! ## The law -/

/-- The law of the coverage. -/
def coverLaw : CrashLaw Stmt Db Made where
  watch := madeWatch
  block := Stmt.ofBatch
  inv := CoverBase none

variable {α : Type} {db : Db} {made : Made} {v : Db × Made}

theorem subset_madeWatch (l : Stmt) (db : Db) (made : Made) : made ⊆ madeWatch l db made := by
  unfold madeWatch
  split
  · exact List.subset_append_left _ _
  · exact List.Subset.refl _

theorem kept_idle {p : AwdM α} (hp : p.Within Idle) (hi : CoverBase none v) :
    coverLaw.Kept p v :=
  CrashLaw.kept_of_within hp (fun l db _ made h hidle => CoverBase.of_idle h hidle
    (subset_madeWatch l db made)) hi

theorem kept_select {β : Type} (hi : CoverBase none v) {f : Db → α} {k : α → AwdM β}
    (hk : coverLaw.Kept (k (f v.1)) v) : coverLaw.Kept (select f >>= k) v :=
  CrashLaw.kept_query_bind (fun _ _ => rfl) hi hk

theorem kept_utcNow {β : Type} (hi : CoverBase none v) {k : Int → AwdM β}
    (hk : coverLaw.Kept (k v.1.now) v) : coverLaw.Kept (utcNow >>= k) v :=
  CrashLaw.kept_look_bind (fun _ _ => rfl) hi hk

theorem slight_idle : Slight Idle where
  tables h := ⟨h.rounds, by rw [Db.batchKeys, h.batches]; rfl, by rw [Db.taskKeys, h.judgeTasks]; rfl,
    h.teams, h.gameboxes, h.instances, h.nextId, by rw [h.event]; exact id⟩
  schedule _ _ _ _ _ := ⟨rfl, rfl, rfl, rfl, rfl, rfl, Nat.le_succ _, id⟩

theorem idle_transition {s t : AwdEventStatus} (p : TransitionPatch) (ht : t.isTerminal = false) :
    (transitionEvent s t p).Within Idle := by
  refine Prog.does_exec Idle.refl fun db db' a h => ?_
  obtain ⟨rfl, -, -⟩ := transitionRow_ok h
  exact { Idle.refl db with status := fun hs => absurd hs (by simp [AwdEvent.patched, ht]) }

theorem idle_enterAttack : enterAttack.Within Idle := by
  refine Prog.does_exec Idle.refl fun db db' a h => ?_
  rw [enterAttackRow, AwdPhase.canTransitionTo_ok] at h
  cases h
  exact { Idle.refl db with status := id }

theorem idle_schedule (l : Stmt) (key : TaskKey) (executeAt : Int) (roundId batchId : Option Nat) :
    (write l fun db => db.schedule key executeAt roundId batchId).Within Idle :=
  slight_idle.within_schedule _ _ _ _ _

theorem idle_tasks (l : Stmt) (f : Db → List ScheduledTask) :
    (write l fun db => { db with tasks := f db }).Within Idle :=
  within_write Idle.refl fun db => { Idle.refl db with status := id }

theorem idle_tryReconcile (x : Ext) : (tryReconcile x).Within Idle :=
  within_tryReconcile Idle.refl x

theorem idle_requireEventNetwork : requireEventNetwork.Within Idle :=
  within_requireEventNetwork Idle.refl

/-! ## Rounds and the settlement -/

/-- The number of the round to start: one that exists, or the next one after rounds that are
over. -/
theorem kept_startRound (hi : CoverBase none v) {k : Int} (hk : 1 ≤ k)
    (h : k ≤ v.1.rounds.length ∨ AllDone v.1.rounds ∧ k = v.1.rounds.length + 1) :
    coverLaw.Kept (startRound (some k)) v := by
  refine kept_select hi (CrashLaw.guards_ite (fun _ => hi) fun hrun =>
    CrashLaw.guards_ite (fun _ => hi) fun _ => kept_select hi ?_)
  rw [nextRoundNumber, if_pos hk]
  refine kept_select hi ?_
  cases hf : findRoundByNumber v.1.rounds k with
  | some r => exact hi
  | none =>
    obtain ⟨hdone, rfl⟩ := h.resolve_left fun hle => by
      have := findRoundByNumber_isSome hi.table hk hle
      rw [hf] at this
      cases this
    refine kept_utcNow hi (CrashLaw.kept_bind ?_ fun r v' hv => ?_)
    · refine CrashLaw.kept_exec (fun _ _ => rfl) hi fun db' r hr => ?_
      exact CoverBase.insertRound hi hdone (by rw [not_not.1 hrun]; rfl) hr
    · refine kept_idle ?_ hv
      exact Prog.does_bind (within_nextNetworkRevision Idle.refl) fun _ =>
        Prog.does_bind (within_reconcileGlobal Idle.refl _) fun _ =>
          Prog.does_bind idle_requireEventNetwork fun _ => Prog.does_pure _

theorem kept_maybeFinishEvent (hi : CoverBase none v) : coverLaw.Kept maybeFinishEvent v := by
  refine kept_select hi (CrashLaw.guards_ite (fun _ => hi) fun _ =>
    CrashLaw.guards_ite (fun _ => hi) fun _ => ?_)
  refine kept_select hi (CrashLaw.guards_ite (fun _ => hi) fun hfinal => ?_)
  have hdone : AllDone v.1.rounds := allDone_of_isFinalSettlement hi.table (by simpa using hfinal)
  refine kept_select hi (CrashLaw.guards_ite (fun _ => hi) fun _ => kept_utcNow hi ?_)
  refine CrashLaw.kept_bind (CrashLaw.kept_attempt ?_) fun moved v' hv => ?_
  · refine CrashLaw.kept_exec (fun _ _ => rfl) hi fun db' a h => ?_
    obtain ⟨rfl, -, -⟩ := transitionRow_ok h
    exact CoverBase.withEvent hi _ fun _ => hdone
  · split
    · exact hv
    · exact hv
    · exact hv
    · exact kept_idle (Prog.does_bind (idle_tryReconcile _) fun _ =>
        Prog.does_bind (Prog.does_attempt idle_requireEventNetwork) fun _ => Prog.does_pure _) hv

/-! ## The end of a round -/

theorem guards_batchRead {β : Type} {Q : Except AwdError β → Db × Made → Prop} {f : Db → α}
    {k : α → AwdM β} (hk : coverLaw.Guards Q (k (f v.1)) v) :
    coverLaw.Guards Q (batchRead f >>= k) v :=
  CrashLaw.guards_bind (CrashLaw.guards_query (fun _ _ => rfl) hk fun hb => by cases hb)

/-- The batch of a round that has just been completed covers it. -/
theorem guards_createBatch {roundId : Nat} (h : CoverBase (some roundId) v)
    (hd : AllDone v.1.rounds) (hnew : ∀ b ∈ v.1.batchKeys, b.2 ≠ roundId)
    (hlt : roundId < v.1.nextId) :
    coverLaw.Guards (fun _ v' => CoverBase none v' ∧ v'.1.rounds = v.1.rounds)
      (createBatch roundId) v := by
  refine guards_batchRead (guards_batchRead (CrashLaw.guards_ite (fun he => ?_) fun _ => ?_))
  · exact absurd (List.isEmpty_iff.1 he) h.boxes
  refine guards_batchRead (guards_batchRead (guards_batchRead (CrashLaw.guards_bind ?_)))
  refine CrashLaw.guards_exec (fun db' b hb => ?_) (fun e he => by cases he) fun hb => by cases hb
  cases hb
  have hfill := CoverBase.insertBatch h hd hnew hlt
    (asI32 (v.1.gameboxes.length * v.1.teams.length)) v.1.unbannedInstances
  refine CrashLaw.guards_bind (CrashLaw.guards_look (fun _ _ => rfl) ?_ fun hb => by cases hb)
  refine CrashLaw.guards_bind ((CrashLaw.guards_each (P := fun filled v' =>
    Filling roundId v.1.nextId v.1.unbannedInstances filled v' ∧ v'.1.rounds = v.1.rounds)
    (fun filled slot v' hv => ?_) v.1.batchSlots [] _ ⟨hfill, rfl⟩).imp fun r v' hr => ?_)
  · refine CrashLaw.guards_exec (fun db' a ha => ?_) (fun e he => by cases he) fun hb => by cases hb
    cases ha
    exact ⟨rfl, hv.1.insertTask _ slot, hv.2⟩
  · obtain ⟨rfl, hfilled, hrounds⟩ := hr
    exact ⟨hfilled.covered h.installed.slots_perm, hrounds⟩

/-- The next round, or the settlement, after every round is over. -/
theorem kept_advanceAfter (hi : CoverBase none v) (hd : AllDone v.1.rounds) {n : Int}
    (hn : n = v.1.rounds.length) (isFinal : Bool) : coverLaw.Kept (advanceAfter n isFinal) v := by
  refine CrashLaw.guards_ite (fun _ => ?_) fun _ => ?_
  · refine CrashLaw.kept_bind (kept_idle (idle_tryReconcile _) hi) fun _ v1 h1 => ?_
    refine CrashLaw.kept_bind (kept_idle (Prog.does_attempt idle_requireEventNetwork) h1)
      fun _ v2 h2 => ?_
    exact CrashLaw.kept_bind (CrashLaw.kept_attempt (kept_maybeFinishEvent h2)) fun _ _ h3 => h3
  · refine CrashLaw.kept_bind (CrashLaw.kept_attempt (kept_startRound hi (by omega) (.inr ⟨hd, ?_⟩)))
      fun _ _ h1 => h1
    rw [hn]

theorem kept_endRound (id : Nat) (hi : CoverBase none v) : coverLaw.Kept (endRound id) v := by
  refine kept_select hi ?_
  cases hf : findRoundById v.1.rounds id with
  | none => exact hi
  | some r =>
    obtain ⟨hr, rfl⟩ := findRoundById_eq_some hf
    refine CrashLaw.guards_ite (fun _ => hi) fun hs => CrashLaw.guards_bind ?_
    obtain ⟨hbase, hdone, hnew⟩ := CoverBase.complete hi hr (not_not.1 hs)
    refine CrashLaw.guards_exec (fun db' e hw => ?_) (fun _ _ => hi) fun _ => ⟨hi, hi⟩
    cases hw' : writeRound r.id completedRound v.1 with
    | error err =>
      rw [hw'] at hw
      cases hw
    | ok res =>
      rw [hw'] at hw
      cases hw
      obtain ⟨hres, -, -⟩ := writeRound_ok hw'
      rw [hres]
      -- the open round was the last one
      have hnum : r.roundNumber =
          (updateRoundRow r.id (completedRound v.1.now) v.1.rounds).length := by
        obtain ⟨done, he, -⟩ :=
          hi.table.eq_of_open hr (r.isOpen_iff.2 (by rw [not_not.1 hs]; decide))
        have htable := hi.table
        rw [he] at htable
        rw [updateRoundRow, List.length_map, he, htable.number_last, List.length_append,
          List.length_singleton]
        rfl
      refine CrashLaw.guards_bind (CrashLaw.guards_attempt
        ((guards_createBatch hbase hdone hnew (hi.table.fresh r hr)).imp fun res v1 h1 => ?_))
      refine CrashLaw.kept_bind (kept_advanceAfter h1.1 ?_ ?_ _) fun _ v2 h2 =>
        kept_idle (scheduleBatchDeadline_within slight_idle _) h2
      · rw [h1.2]
        exact hdone
      · rw [h1.2]
        exact hnum

/-! ## Recovery and the lifecycle -/

theorem kept_recoverRoundGap (hi : CoverBase none v) (hd : AllDone v.1.rounds) :
    coverLaw.Kept recoverRoundGap v := by
  refine kept_select hi ?_
  cases v.1.event.roundCount with
  | none => exact hi
  | some rc =>
    refine CrashLaw.guards_ite (fun _ => hi) fun _ => kept_select hi ?_
    rcases List.eq_nil_or_concat' v.1.rounds with hnil | ⟨done, r, he⟩
    · rw [show findLatestRound v.1.rounds = none by rw [hnil]; rfl]
      refine CrashLaw.kept_bind (kept_startRound hi le_rfl (.inr ⟨hd, ?_⟩)) fun _ _ h => h
      rw [hnil]
      rfl
    · have htable := hi.table
      rw [he] at htable
      have hlen : r.roundNumber = v.1.rounds.length := by
        rw [he, htable.number_last, List.length_append, List.length_singleton]
        rfl
      rw [show findLatestRound v.1.rounds = some r by rw [he]; exact findLatestRound_last htable]
      refine CrashLaw.guards_ite (fun _ => hi) fun _ => CrashLaw.guards_ite (fun _ => hi) fun _ => ?_
      refine CrashLaw.kept_bind (kept_startRound hi (by omega) (.inr ⟨hd, ?_⟩)) fun _ _ h => h
      rw [hlen]

theorem kept_restoreRoundScheduling (hi : CoverBase none v) :
    coverLaw.Kept restoreRoundScheduling v := by
  refine kept_select hi ?_
  cases hf : findActiveRound v.1.rounds with
  | none =>
    exact kept_select hi (CrashLaw.guards_ite
      (fun _ => kept_recoverRoundGap hi (allDone_of_findActiveRound hf)) fun _ => hi)
  | some r =>
    refine CrashLaw.guards_ite (fun _ => kept_select hi ?_) fun _ => hi
    exact CrashLaw.guards_ite (fun _ => hi) fun _ =>
      CrashLaw.kept_bind (kept_idle (idle_schedule _ _ _ _ _) hi) fun _ _ h => h

/-- Round 1 is started, if it is not there. -/
theorem kept_startFirst (hi : CoverBase none v) : coverLaw.Kept (startRound (some 1)) v := by
  refine kept_startRound hi le_rfl ?_
  rcases hr : v.1.rounds with _ | ⟨r, rs⟩
  · exact .inr ⟨allDone_nil, rfl⟩
  · refine .inl ?_
    rw [List.length_cons]
    omega

theorem kept_handleHardeningEnd (hi : CoverBase none v) :
    coverLaw.Kept handleHardeningEnd v := by
  refine kept_select hi (CrashLaw.guards_ite (fun _ => hi) fun _ => kept_utcNow hi ?_)
  refine CrashLaw.guards_ite (fun _ => hi) fun _ => kept_select hi ?_
  refine CrashLaw.guards_ite (fun _ => hi) fun _ => ?_
  refine CrashLaw.kept_bind (kept_idle idle_enterAttack hi) fun _ v1 h1 => ?_
  refine CrashLaw.kept_bind (kept_idle (idle_tryReconcile _) h1) fun _ v2 h2 => ?_
  exact CrashLaw.kept_bind (kept_startFirst h2) fun _ _ h => h

theorem kept_handleRoundEnd (payload : Option Nat) (hi : CoverBase none v) :
    coverLaw.Kept (handleRoundEnd payload) v := by
  have hend (id : Nat) : coverLaw.Kept (do
      let event ← select (·.event)
      if event.status = .networkError then pure () else endRound id : AwdM Unit) v :=
    kept_select hi (CrashLaw.guards_ite (fun _ => hi) fun _ => kept_endRound id hi)
  cases payload with
  | some id => exact hend id
  | none =>
    refine kept_select hi ?_
    cases (findActiveRound v.1.rounds).map (·.id) with
    | none => exact hi
    | some id => exact hend id

/-- A judge task may change, as long as it stays in its batch. -/
theorem idle_updateTask (id : Nat) {f : JudgeTask → JudgeTask}
    (hf : ∀ t, (f t).batchId = t.batchId ∧ (f t).gameboxInstanceId = t.gameboxInstanceId) :
    Idle db { db with judgeTasks := updateTaskRow id f db.judgeTasks } := by
  refine { Idle.refl db with taskKeys := ?_, status := fun h => h }
  rw [Db.taskKeys, Db.taskKeys, updateTaskRow, List.map_map]
  refine List.map_congr_left fun t _ => ?_
  dsimp only [Function.comp]
  split_ifs
  · rw [(hf t).1, (hf t).2]
  · rfl

theorem idle_terminalizeBatchDeadline (batchId : Nat) (now : Int) :
    (terminalizeBatchDeadline batchId now).Within Idle := by
  refine Prog.does_bind (within_select Idle.refl _) fun tasks =>
    Prog.does_bind (Prog.does_each fun t _ => ?_) fun _ => Prog.does_pure _
  refine Prog.does_exec Idle.refl fun db db' a h => ?_
  split_ifs at h
  cases h
  exact idle_updateTask t.id fun _ => ⟨rfl, rfl⟩

theorem idle_maybeCompleteBatch (batchId : Nat) : (maybeCompleteBatch batchId).Within Idle := by
  refine Prog.does_bind (within_select Idle.refl _) fun tasks =>
    Prog.does_ite (Prog.does_bind (within_write Idle.refl fun db => ?_) fun _ => Prog.does_pure _)
      (Prog.does_pure _)
  refine { Idle.refl db with batchKeys := ?_, status := fun h => h }
  rw [Db.batchKeys, Db.batchKeys, List.map_map]
  refine List.map_congr_left fun b _ => ?_
  dsimp only [Function.comp]
  split_ifs <;> rfl

theorem kept_handleJudgeBatchDeadline (batchId : Nat) (hi : CoverBase none v) :
    coverLaw.Kept (handleJudgeBatchDeadline batchId) v := by
  refine kept_utcNow hi (CrashLaw.kept_bind
    (kept_idle (idle_terminalizeBatchDeadline batchId _) hi) fun _ v1 h1 => ?_)
  refine CrashLaw.kept_bind (kept_idle (Prog.does_attempt (idle_maybeCompleteBatch batchId)) h1)
    fun _ v2 h2 => ?_
  exact CrashLaw.kept_bind (CrashLaw.kept_attempt (kept_maybeFinishEvent h2)) fun _ _ h => h

theorem kept_deliver (id : Nat) (hi : CoverBase none v) : coverLaw.Kept (deliver id) v := by
  have hfetch : (fetchTask id).Within Idle := by
    refine Prog.does_exec Idle.refl fun db db' t h => ?_
    split at h
    · cases h
    · cases h
      exact { Idle.refl db with status := fun h => h }
  have hrun (t : ScheduledTask) (v : Db × Made) (hi : CoverBase none v) :
      coverLaw.Kept (runHandler t) v := by
    unfold runHandler
    split
    · exact kept_handleHardeningEnd hi
    · exact kept_handleRoundEnd _ hi
    · split
      · exact kept_handleJudgeBatchDeadline _ hi
      · exact hi
  refine CrashLaw.kept_bind (kept_idle hfetch hi) fun t v1 h1 => ?_
  refine CrashLaw.kept_bind (CrashLaw.kept_attempt (hrun t v1 h1)) fun res v2 h2 => ?_
  exact kept_idle (idle_tasks _ _) h2

theorem kept_recoverSchedules (e : AwdEvent) (hi : CoverBase none v) :
    coverLaw.Kept (recoverSchedules e) v := by
  refine CrashLaw.kept_bind (kept_restoreRoundScheduling hi) fun _ v1 h1 => ?_
  refine CrashLaw.kept_bind (kept_idle (restoreBatchDeadlines_within slight_idle) h1)
    fun _ v2 h2 => ?_
  refine CrashLaw.kept_bind ?_ fun _ v3 h3 =>
    CrashLaw.kept_bind (kept_idle (recoverFinished_within Idle.refl _) h3) fun _ _ h => h
  refine CrashLaw.guards_ite (fun _ => kept_select h2 ?_) fun _ => h2
  refine CrashLaw.guards_ite (fun _ => h2) fun _ => kept_select h2 ?_
  exact CrashLaw.guards_ite (fun _ => CrashLaw.kept_bind
    (CrashLaw.kept_attempt (kept_maybeFinishEvent h2)) fun _ _ h => h) fun _ => h2

theorem kept_restart (host : Host) (hi : CoverBase none v) : coverLaw.Kept (restart host) v := by
  refine CrashLaw.kept_bind (CrashLaw.kept_attempt (kept_select hi ?_)) fun _ v1 h1 =>
    kept_idle (idle_tasks _ _) h1
  refine CrashLaw.guards_ite (fun _ => ?_) fun _ => hi
  refine CrashLaw.kept_bind (kept_idle (Prog.does_attempt (within_select Idle.refl _)) hi)
    fun row v1 h1 => ?_
  split
  · refine CrashLaw.kept_bind (CrashLaw.kept_attempt ?_) fun _ _ h => h
    refine CrashLaw.kept_bind (kept_idle (reconcileContainers_within slight_idle host) h1)
      fun _ v2 h2 => ?_
    refine CrashLaw.kept_bind (kept_idle (restoreWireguard_within slight_idle host) h2)
      fun _ v3 h3 => ?_
    refine CrashLaw.kept_bind (kept_idle (within_nextNetworkRevision Idle.refl) h3)
      fun _ v4 h4 => ?_
    refine CrashLaw.kept_bind (kept_idle (within_reconcileGlobal Idle.refl _) h4) fun _ v5 h5 => ?_
    refine CrashLaw.kept_bind (kept_idle (restoreHardeningEnd_within slight_idle _) h5)
      fun _ v6 h6 => ?_
    exact CrashLaw.kept_bind (kept_recoverSchedules _ h6) fun _ _ h => h
  · exact h1

/-- The update of an open round by a pause or a resume. -/
theorem kept_writeOpen (hi : CoverBase none v) {l : Stmt} {r : AwdRound}
    {f : Int → AwdRound → AwdRound} (hl : coverLaw.Unseen l)
    (hr : findActiveRound v.1.rounds = some r) (hid : ∀ now r, (f now r).id = r.id)
    (hnum : ∀ now r, (f now r).roundNumber = r.roundNumber)
    (hopen : ∀ now r, (f now r).status ≠ .completed) :
    coverLaw.Kept (Prog.exec l dbError (writeRound r.id f)) v := by
  refine CrashLaw.kept_exec hl hi fun db' a h => ?_
  obtain ⟨rfl, -, -⟩ := writeRound_ok h
  refine CoverBase.writeOpen hi (hid _) (hnum _) (hopen _) fun x hx he => ?_
  have hmem : r ∈ v.1.rounds := List.mem_of_find?_eq_some hr
  rw [List.inj_on_of_nodup_map hi.table.ids hx hmem he]
  exact r.isOpen_iff.1 (by simpa using List.find?_some hr)

theorem kept_freezeStage (e : AwdEvent) (now : Int) (hi : CoverBase none v) :
    coverLaw.Kept (freezeStage e now) v := by
  unfold freezeStage
  cases e.phase with
  | hardening =>
    exact CrashLaw.kept_bind (kept_idle (Prog.does_attempt (idle_tasks _ _)) hi) fun _ _ h => h
  | attack =>
    refine kept_select hi ?_
    cases hf : findActiveRound v.1.rounds with
    | none => exact hi
    | some r =>
      refine CrashLaw.kept_bind (kept_writeOpen hi (fun _ _ => rfl) hf (fun _ _ => rfl)
        (fun _ _ => rfl) fun _ _ => ?_) fun _ _ h => h
      simp [pausedRound]
  | pause => exact hi

theorem kept_pauseEvent (hi : CoverBase none v) : coverLaw.Kept pauseEvent v := by
  refine kept_select hi (CrashLaw.guards_ite (fun _ => hi) fun _ => kept_utcNow hi ?_)
  refine CrashLaw.kept_bind (kept_freezeStage _ _ hi) fun _ v1 h1 => ?_
  refine CrashLaw.kept_bind (kept_idle (idle_transition _ rfl) h1) fun _ v2 h2 => ?_
  refine CrashLaw.kept_bind (kept_idle (idle_tryReconcile _) h2) fun res v3 h3 => ?_
  rcases res with e | ⟨⟩
  · exact CrashLaw.kept_bind (kept_idle (Prog.does_attempt (idle_transition _ rfl)) h3)
      fun _ _ h => h
  · exact kept_idle idle_requireEventNetwork h3

theorem kept_handleNetworkError (hi : CoverBase none v) :
    coverLaw.Kept handleNetworkError v := by
  refine kept_select hi (kept_utcNow hi (CrashLaw.kept_bind (kept_freezeStage _ _ hi)
    fun _ v1 h1 => ?_))
  refine CrashLaw.kept_bind (kept_idle (idle_transition _ rfl) h1) fun _ v2 h2 => ?_
  refine kept_select h2 ?_
  cases hf : findActiveRound v2.1.rounds with
  | none => exact h2
  | some r =>
    exact kept_writeOpen h2 (fun _ _ => rfl) hf (fun _ _ => rfl) (fun _ _ => rfl)
      fun _ _ => by simp

theorem kept_resumeEvent (hi : CoverBase none v) : coverLaw.Kept resumeEvent v := by
  refine kept_select hi (CrashLaw.guards_ite (fun _ => hi) fun _ => kept_utcNow hi ?_)
  have hrec (phase : AwdPhase) (v : Db × Made) (hi : CoverBase none v) :
      coverLaw.Kept (reconcileResumed phase) v := by
    refine CrashLaw.kept_bind (kept_idle (idle_tryReconcile _) hi) fun res v1 h1 => ?_
    rcases res with e | ⟨⟩
    · exact CrashLaw.kept_bind (kept_idle (Prog.does_attempt (idle_transition _ rfl)) h1)
        fun _ _ h => h
    · refine CrashLaw.kept_bind (kept_idle idle_requireEventNetwork h1) fun _ v2 h2 => ?_
      exact CrashLaw.guards_ite (fun _ => CrashLaw.kept_bind (kept_restoreRoundScheduling h2)
        fun _ _ h => h) fun _ => h2
  cases v.1.event.pausedPhase.getD .hardening with
  | hardening =>
    refine CrashLaw.kept_bind (CrashLaw.kept_bind (kept_idle (idle_transition _ rfl) hi)
      fun _ v1 h1 => ?_) fun _ v2 h2 => hrec _ v2 h2
    split
    · exact kept_idle (idle_schedule _ _ _ _ _) h1
    · exact kept_idle idle_enterAttack h1
  | attack =>
    refine CrashLaw.kept_bind (kept_select hi ?_) fun _ v2 h2 => hrec _ v2 h2
    cases hf : findActiveRound v.1.rounds with
    | none => exact kept_idle (idle_transition _ rfl) hi
    | some r =>
      refine CrashLaw.kept_bind (kept_writeOpen hi (fun _ _ => rfl) hf (fun _ _ => rfl)
        (fun _ _ => rfl) fun _ _ => ?_) fun _ v1 h1 => kept_idle (idle_transition _ rfl) h1
      simp [resumedRound]
  | pause => exact hi

theorem kept_startEvent (hi : CoverBase none v) : coverLaw.Kept startEvent v := by
  refine kept_select hi (CrashLaw.guards_ite (fun _ => hi) fun _ =>
    CrashLaw.guards_ite (fun _ => hi) fun _ => CrashLaw.guards_ite (fun _ => ?_) fun _ => ?_)
  · exact CrashLaw.kept_bind (kept_idle (Prog.does_attempt (idle_transition _ rfl)) hi)
      fun _ _ h => h
  refine kept_select hi ?_
  split
  · exact hi
  refine kept_utcNow hi (CrashLaw.kept_bind
    (kept_idle (seedInitialScores_within slight_idle _) hi) fun _ v1 h1 => ?_)
  refine CrashLaw.guards_ite (fun _ => ?_) fun _ => ?_
  · refine CrashLaw.kept_bind (kept_idle (idle_transition _ rfl) h1) fun _ v2 h2 => ?_
    refine CrashLaw.kept_bind (kept_idle (idle_schedule _ _ _ _ _) h2) fun _ v3 h3 => ?_
    exact CrashLaw.kept_bind (kept_idle (idle_tryReconcile _) h3) fun _ _ h => h
  · refine CrashLaw.kept_bind (kept_idle (idle_transition _ rfl) h1) fun _ v2 h2 => ?_
    refine CrashLaw.kept_bind (kept_idle (idle_tryReconcile _) h2) fun _ v3 h3 => ?_
    exact CrashLaw.kept_bind (kept_startFirst h3) fun _ _ h => h

theorem CoverOp.kept (op : CoverOp) (hi : CoverBase none v) : coverLaw.Kept op.prog v := by
  cases op with
  | startEvent => exact kept_startEvent hi
  | pauseEvent => exact kept_pauseEvent hi
  | resumeEvent => exact kept_resumeEvent hi
  | networkError => exact kept_handleNetworkError hi
  | finishEvent => exact kept_maybeFinishEvent hi
  | endRound id => exact kept_endRound id hi
  | deliver id => exact kept_deliver id hi
  | restart host => exact kept_restart host hi

/-! ## Runs -/

theorem coverStep_inv (v : Db × Made) (a : CoverAct) (hi : CoverBase none v)
    (ha : WholeBatches v a) : CoverBase none (coverStep v a) := by
  cases a with
  | run op answers => exact (op.kept hi).inv_crashRun (fun _ _ h => h) ha
  | advance d =>
    exact CoverBase.of_idle hi { Idle.refl v.1 with status := fun h => h } (List.Subset.refl _)
  | bans bs =>
    exact CoverBase.of_idle hi { Idle.refl v.1 with status := fun h => h } (List.Subset.refl _)
  | judged taskId status =>
    exact CoverBase.of_idle hi (idle_updateTask taskId fun _ => ⟨rfl, rfl⟩) (List.Subset.refl _)

/-- The rounds that the event has moved past are over. -/
theorem CoverBase.judgeCoverage (h : CoverBase none v) : JudgeCoverage v := by
  refine fun r hr hpast => h.covered r hr ?_ (by simp)
  by_contra hs
  rcases hpast with ⟨x, hx, hlt⟩ | hfin
  · obtain ⟨done, he, -⟩ := h.table.eq_of_open hr (r.isOpen_iff.2 hs)
    have hle := (h.table.number_mem hx).2
    have htable := h.table
    rw [he] at htable hle
    rw [htable.number_last] at hlt
    rw [List.length_append, List.length_singleton] at hle
    omega
  · exact hs (h.settled (by rw [hfin]; rfl) r hr)

theorem Unjudged.coverBase (h : Unjudged db) (hb : db.gameboxes ≠ []) :
    CoverBase none (db, []) where
  table := by
    dsimp only
    rw [h.rounds]
    exact roundTable_nil _
  installed := h.installed
  boxes := hb
  batchIds := by simp [Db.batchKeys, h.batches]
  batchFresh := by simp [Db.batchKeys, h.batches]
  taskFresh := by simp [Db.taskKeys, h.judgeTasks]
  covered := by simp [h.rounds]
  unjudged := by simp [h.rounds]
  settled hs := by simp [h.status, AwdEventStatus.isTerminal] at hs

/-- In every run, with failing statements and crashes anywhere but in the creation of a batch, of an
event that has a game box, every round that the event has moved past is covered. -/
theorem judgeCoverage_run {db : Db} (hdb : Unjudged db) (hboxes : db.gameboxes ≠ [])
    {acts : List CoverAct} (hacts : Along coverStep WholeBatches (db, []) acts) :
    JudgeCoverage (acts.foldl coverStep (db, [])) :=
  (inv_of_along (CoverBase none) coverStep_inv (hdb.coverBase hboxes) hacts).judgeCoverage

/-- The start of round 2 fails after the batch of round 1 was created, and the process starts
again. -/
def lateCrashRun : List CoverAct :=
  [.run .startEvent steady, .run (.endRound 11) (List.replicate 12 true),
    .bans [{ teamId := 2, status := .active }], .run (.restart quietHost) steady]

theorem judgeCoverage_lateCrashRun :
    ((lateCrashRun.foldl coverStep (coverDb, [])).1.rounds.map (·.roundNumber)) = [1, 2] ∧
    JudgeCoverage (lateCrashRun.foldl coverStep (coverDb, [])) :=
  ⟨by decide +kernel, judgeCoverage_run coverDb_unjudged (by decide) (by decide +kernel)⟩

end FloatCtf.Awd
