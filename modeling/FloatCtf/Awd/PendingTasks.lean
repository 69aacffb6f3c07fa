import FloatCtf.Awd.Orderly

/-!
# Which operations keep a pending task

The services add scheduler rows and never take one away, except that a pause and a network error
cancel the hardening task; the engine rewrites the row of the task that it delivers, and a restart
only rows that were running.  So a pending task outlives every operation that neither stops the
event nor delivers it (`Op.keeps_pending`).
-/

namespace FloatCtf.Awd

open Process

/-! ## The services add rows only -/

theorem transitionEvent_keeps (s t : AwdEventStatus) (p : TransitionPatch) :
    (transitionEvent s t p).Within Keeps :=
  Prog.does_exec Keeps.refl fun _ _ _ h => by
    rw [(transitionRow_ok h).1]
    exact keeps_of_tasks rfl

theorem writeRound_keeps (l : Stmt) (id : Nat) (f : Int → AwdRound → AwdRound) :
    (Prog.exec l dbError (writeRound id f)).Within Keeps :=
  Prog.does_exec Keeps.refl fun _ _ _ h => by
    rw [(writeRound_ok h).1]
    exact keeps_of_tasks rfl

theorem completeRound_keeps (id : Nat) : (completeRound id).Within Keeps := by
  refine Prog.does_exec Keeps.refl fun db db' a h => ?_
  cases hw : writeRound id completedRound db with
  | error e =>
    rw [hw] at h
    cases h
  | ok r =>
    rw [hw] at h
    cases h
    rw [(writeRound_ok hw).1]
    exact keeps_of_tasks rfl

theorem enterAttack_keeps : enterAttack.Within Keeps := by
  refine Prog.does_exec Keeps.refl fun db db' a h => ?_
  rw [enterAttackRow, AwdPhase.canTransitionTo_ok] at h
  cases h
  exact Keeps.refl db

theorem insertRound_keeps (l : Stmt) (n executeAt : Int) :
    (Prog.exec l dbError (insertRoundRow n executeAt)).Within Keeps :=
  Prog.does_exec Keeps.refl fun _ _ _ h => by
    rw [(insertRoundRow_ok h).2.2]
    exact List.subset_append_left _ _

theorem maybeFinishEvent_keeps : maybeFinishEvent.Within Keeps := by
  refine Prog.does_bind (within_select Keeps.refl _) fun e => Prog.does_ite trivial
    (Prog.does_ite trivial ?_)
  refine Prog.does_bind (within_select Keeps.refl _) fun r => Prog.does_ite trivial ?_
  refine Prog.does_bind (within_select Keeps.refl _) fun t => Prog.does_ite trivial ?_
  refine Prog.does_bind (within_utcNow Keeps.refl) fun now => ?_
  refine Prog.does_bind (Prog.does_attempt (transitionEvent_keeps _ _ _)) fun moved => ?_
  split
  · trivial
  · trivial
  · trivial
  · exact Prog.does_bind (within_tryReconcile Keeps.refl _) fun _ =>
      Prog.does_bind (Prog.does_attempt (within_requireEventNetwork Keeps.refl)) fun _ =>
        trivial

theorem startRound_keeps (expected : Option Int) : (startRound expected).Within Keeps := by
  refine Prog.does_bind (within_select Keeps.refl _) fun e => Prog.does_ite trivial
    (Prog.does_ite trivial ?_)
  refine Prog.does_bind (within_select Keeps.refl _) fun k =>
    Prog.does_bind (within_select Keeps.refl _) fun existing => ?_
  cases existing with
  | some r => trivial
  | none =>
    exact Prog.does_bind (within_utcNow Keeps.refl) fun _ =>
      Prog.does_bind (insertRound_keeps _ _ _) fun _ =>
        Prog.does_bind (within_nextNetworkRevision Keeps.refl) fun _ =>
          Prog.does_bind (within_reconcileGlobal Keeps.refl _) fun _ =>
            Prog.does_bind (within_requireEventNetwork Keeps.refl) fun _ => trivial

theorem endRound_keeps (id : Nat) : (endRound id).Within Keeps := by
  refine Prog.does_bind (within_select Keeps.refl _) fun found => ?_
  cases found with
  | none => trivial
  | some r =>
    refine Prog.does_ite trivial (Prog.does_bind (completeRound_keeps _) fun e => ?_)
    refine Prog.does_bind (Prog.does_attempt (createBatch_within minor_keeps _)) fun batch => ?_
    refine Prog.does_bind (Prog.does_ite ?_ ?_) fun _ =>
      scheduleBatchDeadline_within minor_keeps.toSlight _
    · exact Prog.does_bind (within_tryReconcile Keeps.refl _) fun _ =>
        Prog.does_bind (Prog.does_attempt (within_requireEventNetwork Keeps.refl)) fun _ =>
          Prog.does_bind (Prog.does_attempt maybeFinishEvent_keeps) fun _ => trivial
    · exact Prog.does_bind (Prog.does_attempt (startRound_keeps _)) fun _ => trivial

theorem recoverRoundGap_keeps : recoverRoundGap.Within Keeps := by
  refine Prog.does_bind (within_select Keeps.refl _) fun e => ?_
  split
  · trivial
  · refine Prog.does_ite trivial (Prog.does_bind (within_select Keeps.refl _) fun latest => ?_)
    cases latest with
    | none => exact Prog.does_bind (startRound_keeps _) fun _ => trivial
    | some r =>
      exact Prog.does_ite trivial (Prog.does_ite trivial
        (Prog.does_bind (startRound_keeps _) fun _ => trivial))

theorem restoreRoundScheduling_keeps : restoreRoundScheduling.Within Keeps := by
  refine Prog.does_bind (within_select Keeps.refl _) fun maybeRound => ?_
  cases maybeRound with
  | none =>
    exact Prog.does_bind (within_select Keeps.refl _) fun _ =>
      Prog.does_ite recoverRoundGap_keeps trivial
  | some r =>
    refine Prog.does_ite (Prog.does_bind (within_select Keeps.refl _) fun _ => ?_) trivial
    exact Prog.does_ite trivial
      (Prog.does_bind (minor_keeps.within_schedule _ _ _ _ _) fun _ => trivial)

theorem handleHardeningEnd_keeps : handleHardeningEnd.Within Keeps := by
  refine Prog.does_bind (within_select Keeps.refl _) fun _ => Prog.does_ite trivial
    (Prog.does_bind (within_utcNow Keeps.refl) fun _ => Prog.does_ite trivial ?_)
  exact Prog.does_bind (within_select Keeps.refl _) fun _ => Prog.does_ite trivial
    (Prog.does_bind enterAttack_keeps fun _ =>
      Prog.does_bind (within_tryReconcile Keeps.refl _) fun _ =>
        Prog.does_bind (startRound_keeps _) fun _ => trivial)

theorem startEvent_keeps : startEvent.Within Keeps := by
  refine Prog.does_bind (within_select Keeps.refl _) fun e => Prog.does_ite trivial
    (Prog.does_ite trivial (Prog.does_ite ?_ ?_))
  · exact Prog.does_bind (Prog.does_attempt (transitionEvent_keeps _ _ _)) fun _ => trivial
  refine Prog.does_bind (within_select Keeps.refl _) fun g => ?_
  split
  · trivial
  refine Prog.does_bind (within_utcNow Keeps.refl) fun _ =>
    Prog.does_bind (seedInitialScores_within minor_keeps.toSlight _) fun _ => Prog.does_ite ?_ ?_
  · exact Prog.does_bind (transitionEvent_keeps _ _ _) fun _ =>
      Prog.does_bind (minor_keeps.within_schedule _ _ _ _ _) fun _ =>
        Prog.does_bind (within_tryReconcile Keeps.refl _) fun _ =>
          trivial
  · exact Prog.does_bind (transitionEvent_keeps _ _ _) fun _ =>
      Prog.does_bind (within_tryReconcile Keeps.refl _) fun _ =>
        Prog.does_bind (startRound_keeps _) fun _ => trivial

theorem reconcileResumed_keeps (phase : AwdPhase) : (reconcileResumed phase).Within Keeps := by
  refine Prog.does_bind (within_tryReconcile Keeps.refl _) fun res => ?_
  rcases res with e | ⟨⟩
  · exact Prog.does_bind (Prog.does_attempt (transitionEvent_keeps _ _ _)) fun _ => trivial
  · exact Prog.does_bind (within_requireEventNetwork Keeps.refl) fun _ => Prog.does_ite
      (Prog.does_bind restoreRoundScheduling_keeps fun _ => trivial) trivial

theorem resumeHardening_keeps (e : AwdEvent) (s now : Int) :
    (resumeHardening e s now).Within Keeps := by
  refine Prog.does_bind (transitionEvent_keeps _ _ _) fun _ => ?_
  split
  · exact minor_keeps.within_schedule _ _ _ _ _
  · exact enterAttack_keeps

theorem resumeAttack_keeps (e : AwdEvent) (now : Int) : (resumeAttack e now).Within Keeps := by
  refine Prog.does_bind (within_select Keeps.refl _) fun open? => ?_
  cases open? with
  | none => exact transitionEvent_keeps _ _ _
  | some r =>
    exact Prog.does_bind (writeRound_keeps _ _ _) fun _ => transitionEvent_keeps _ _ _

theorem resumeEvent_keeps : resumeEvent.Within Keeps := by
  refine Prog.does_bind (within_select Keeps.refl _) fun e => Prog.does_ite trivial
    (Prog.does_bind (within_utcNow Keeps.refl) fun now => ?_)
  cases e.pausedPhase.getD .hardening with
  | hardening => exact Prog.does_bind (resumeHardening_keeps _ _ _) fun _ => reconcileResumed_keeps _
  | attack => exact Prog.does_bind (resumeAttack_keeps _ _) fun _ => reconcileResumed_keeps _
  | pause => trivial

theorem handleJudgeBatchDeadline_keeps (id : Nat) : (handleJudgeBatchDeadline id).Within Keeps :=
  Prog.does_bind (within_utcNow Keeps.refl) fun _ =>
    Prog.does_bind (terminalizeBatchDeadline_within minor_keeps _ _) fun _ =>
      Prog.does_bind (Prog.does_attempt (maybeCompleteBatch_within minor_keeps _)) fun _ =>
        Prog.does_bind (Prog.does_attempt maybeFinishEvent_keeps) fun _ => trivial

theorem runHandler_keeps (t : ScheduledTask) : (runHandler t).Within Keeps := by
  unfold runHandler
  split
  · exact handleHardeningEnd_keeps
  · have hend (id : Nat) : (do
        let event ← select (·.event)
        if event.status = .networkError then pure () else endRound id : AwdM Unit).Within Keeps :=
      Prog.does_bind (within_select Keeps.refl _) fun _ =>
        Prog.does_ite trivial (endRound_keeps id)
    cases t.roundId with
    | some id => exact hend id
    | none =>
      refine Prog.does_bind (within_select Keeps.refl _) fun roundId => ?_
      cases roundId with
      | none => trivial
      | some id => exact hend id
  · split
    · exact handleJudgeBatchDeadline_keeps _
    · trivial

theorem recoverEvent_keeps (host : Host) (e : AwdEvent) : (recoverEvent host e).Within Keeps := by
  refine Prog.does_bind (reconcileContainers_within minor_keeps.toSlight _) fun _ =>
    Prog.does_bind (restoreWireguard_within minor_keeps.toSlight _) fun _ =>
      Prog.does_bind (within_nextNetworkRevision Keeps.refl) fun _ =>
        Prog.does_bind (within_reconcileGlobal Keeps.refl _) fun _ =>
          Prog.does_bind (restoreHardeningEnd_within minor_keeps.toSlight _) fun _ =>
            Prog.does_bind ?_ fun _ => trivial
  refine Prog.does_bind restoreRoundScheduling_keeps fun _ =>
    Prog.does_bind (restoreBatchDeadlines_within minor_keeps.toSlight) fun _ =>
      Prog.does_bind (Prog.does_ite ?_ trivial) fun _ =>
        Prog.does_bind (recoverFinished_within Keeps.refl _) fun _ => trivial
  refine Prog.does_bind (within_select Keeps.refl _) fun _ => Prog.does_ite trivial
    (Prog.does_bind (within_select Keeps.refl _) fun _ => Prog.does_ite
      (Prog.does_bind (Prog.does_attempt maybeFinishEvent_keeps) fun _ => trivial) trivial)

theorem recoverAll_keeps (host : Host) : (recoverAll host).Within Keeps := by
  refine Prog.does_bind (within_select Keeps.refl _) fun e => Prog.does_ite ?_ trivial
  refine Prog.does_bind (Prog.does_attempt (within_select Keeps.refl _)) fun row => ?_
  split
  · exact Prog.does_bind (Prog.does_attempt (recoverEvent_keeps _ _)) fun _ => trivial
  · trivial

/-! ## A pending task and one operation -/

variable {db : Db} {up : Ext → Bool} {t : ScheduledTask}

theorem mem_fetched {id : Nat} (ht : t ∈ db.tasks) (hid : t.id ≠ id) : t ∈ (db.fetched id).tasks :=
  List.mem_map.2 ⟨t, ht, if_neg hid⟩

/-- The engine takes only due tasks. -/
theorem Db.dueTask_eq_none (hids : TaskIds db) (ht : t ∈ db.tasks) (hlate : db.now < t.executeAt) :
    db.dueTask t.id = none := by
  rw [Db.dueTask, List.find?_eq_none]
  intro u hu hdue
  simp only [decide_eq_true_eq] at hdue
  have : u = t := List.inj_on_of_nodup_map hids.1 hu ht hdue.1
  subst this
  omega

theorem keeps_run {α : Type} {p : AwdM α} (hp : p.Within Keeps) (ans : Stmt → Bool) (db : Db) :
    Keeps db (p.run ans db).1 := Prog.run_within ans Keeps.refl Keeps.trans hp db

theorem deliver_keeps_pending (ht : t ∈ db.tasks) {id : Nat} (hid : t.id ≠ id) :
    t ∈ ((Op.deliver id up).apply db).tasks := by
  cases hdue : db.dueTask id with
  | none =>
    have : (Op.deliver id up).apply db = db := deliver_none hdue
    rwa [this]
  | some u =>
    obtain ⟨-, hu, -⟩ := Db.dueTask_eq_some hdue
    obtain ⟨res, hres⟩ := deliver_some up hdue
    have : (Op.deliver id up).apply db = _ := hres
    rw [this]
    exact mem_marked (keeps_run (runHandler_keeps u) _ _ (mem_fetched ht hid)) (hu ▸ hid)

theorem restart_keeps_pending (host : Host) (ht : t ∈ db.tasks) (hp : t.status = .pending) :
    t ∈ ((Op.restart host up).apply db).tasks := by
  have hk := keeps_run (recoverAll_keeps host) (answers up) db ht
  have hw (db : Db) := run_write up (l := .resetTasks) rfl
    (fun db => { db with tasks := db.tasks.map fun t =>
      if t.status = .running then { t with status := .pending } else t }) db
  simp only [Op.apply, restart, Prog.run_bind, Prog.run_attempt, initAndRecover, hw]
  exact List.mem_map.2 ⟨t, hk, if_neg (by simp [hp])⟩

/-- A pending task is still there after every operation that does not stop the event, unless the
operation delivers it. -/
theorem Op.keeps_pending {op : Op} (ht : t ∈ db.tasks) (hp : t.status = .pending)
    (hstop : op.suspends = false) (hid : ∀ up, op ≠ .deliver t.id up) :
    t ∈ (op.apply db).tasks := by
  cases op with
  | tick d => exact ht
  | startEvent up => exact keeps_run startEvent_keeps _ _ ht
  | pauseEvent up => cases hstop
  | resumeEvent up => exact keeps_run resumeEvent_keeps _ _ ht
  | networkError => cases hstop
  | deliver id up => exact deliver_keeps_pending ht fun h => hid up (by rw [h])
  | endRound id up => exact keeps_run (endRound_keeps id) _ _ ht
  | hardeningEnd up => exact keeps_run handleHardeningEnd_keeps _ _ ht
  | restart host up => exact restart_keeps_pending host ht hp

end FloatCtf.Awd
