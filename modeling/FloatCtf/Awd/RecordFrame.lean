import FloatCtf.Awd.Frame

/-!
# What the lifecycle never writes

Pausing and resuming an event, and starting and ending its rounds, write the event, its rounds, its
scheduler rows and the judge tables.  The records of the players are left alone: teams and their
members, bans, game boxes, flags, submissions and scores.
-/

namespace FloatCtf.Awd

open Process

/-- The records of the players and the network row stay, and ids are only handed out. -/
structure SameRecords (db db' : Db) : Prop where
  networkRow : db'.networkRow = db.networkRow
  teams : db'.teams = db.teams
  members : db'.members = db.members
  gameboxes : db'.gameboxes = db.gameboxes
  instances : db'.instances = db.instances
  bans : db'.bans = db.bans
  flagIssues : db'.flagIssues = db.flagIssues
  submissions : db'.submissions = db.submissions
  scores : db'.scores = db.scores
  nextId : db.nextId ≤ db'.nextId

theorem SameRecords.refl (db : Db) : SameRecords db db :=
  ⟨rfl, rfl, rfl, rfl, rfl, rfl, rfl, rfl, rfl, le_rfl⟩

theorem SameRecords.trans {a b c : Db} (h : SameRecords a b) (h' : SameRecords b c) :
    SameRecords a c :=
  ⟨h'.networkRow.trans h.networkRow, h'.teams.trans h.teams, h'.members.trans h.members,
    h'.gameboxes.trans h.gameboxes, h'.instances.trans h.instances, h'.bans.trans h.bans,
    h'.flagIssues.trans h.flagIssues, h'.submissions.trans h.submissions,
    h'.scores.trans h.scores, h.nextId.trans h'.nextId⟩

theorem sameRecords_transitionEvent (s t : AwdEventStatus) (p : TransitionPatch) :
    (transitionEvent s t p).Within SameRecords := by
  refine Prog.does_exec SameRecords.refl fun db db' a h => ?_
  rw [(transitionRow_ok h).1]
  exact ⟨rfl, rfl, rfl, rfl, rfl, rfl, rfl, rfl, rfl, le_rfl⟩

theorem sameRecords_writeRound {l : Stmt} {id : Nat} {f : Int → AwdRound → AwdRound} :
    (Prog.exec l dbError (writeRound id f)).Within SameRecords := by
  refine Prog.does_exec SameRecords.refl fun db db' a h => ?_
  rw [(writeRound_ok h).1]
  exact ⟨rfl, rfl, rfl, rfl, rfl, rfl, rfl, rfl, rfl, le_rfl⟩

theorem sameRecords_select {α : Type} (f : Db → α) : (select f).Within SameRecords :=
  within_select SameRecords.refl f

theorem sameRecords_schedule {l : Stmt} (key : TaskKey) (executeAt : Int)
    (roundId batchId : Option Nat) :
    (write l fun db => db.schedule key executeAt roundId batchId).Within SameRecords :=
  within_write SameRecords.refl fun _ =>
    ⟨rfl, rfl, rfl, rfl, rfl, rfl, rfl, rfl, rfl, Nat.le_succ _⟩

/-! ## Pause -/

theorem sameRecords_freezeStage (e : AwdEvent) (now : Int) :
    (freezeStage e now).Within SameRecords := by
  unfold freezeStage
  split
  · have hcancel : cancelPendingHardeningEnd.Within SameRecords :=
      within_write SameRecords.refl fun _ => ⟨rfl, rfl, rfl, rfl, rfl, rfl, rfl, rfl, rfl, le_rfl⟩
    exact Prog.does_bind (Prog.does_attempt hcancel) fun _ => Prog.does_pure _
  · refine Prog.does_bind (sameRecords_select _) fun open? => ?_
    split
    · exact Prog.does_bind sameRecords_writeRound fun _ => Prog.does_pure _
    · exact Prog.does_pure _
  · exact Prog.does_pure _

theorem sameRecords_pauseEvent : pauseEvent.Within SameRecords := by
  refine Prog.does_bind (sameRecords_select _) fun e => Prog.does_ite trivial ?_
  refine Prog.does_bind (within_utcNow SameRecords.refl) fun now =>
    Prog.does_bind (sameRecords_freezeStage _ _) fun remaining =>
      Prog.does_bind (sameRecords_transitionEvent _ _ _) fun _ =>
        Prog.does_bind (within_tryReconcile SameRecords.refl _) fun reconciled => ?_
  split
  · exact within_requireEventNetwork SameRecords.refl
  · exact Prog.does_bind (Prog.does_attempt (sameRecords_transitionEvent _ _ _)) fun _ => trivial

/-! ## Rounds -/

theorem sameRecords_startRound (n : Option Int) : (startRound n).Within SameRecords := by
  refine Prog.does_bind (sameRecords_select _) fun e =>
    Prog.does_ite trivial (Prog.does_ite trivial ?_)
  refine Prog.does_bind (sameRecords_select _) fun n =>
    Prog.does_bind (sameRecords_select _) fun existing => ?_
  split
  · exact Prog.does_pure _
  · refine Prog.does_bind (within_utcNow SameRecords.refl) fun now => Prog.does_bind ?_ fun round =>
      Prog.does_bind (within_nextNetworkRevision SameRecords.refl) fun _ =>
        Prog.does_bind (within_reconcileGlobal SameRecords.refl _) fun _ =>
          Prog.does_bind (within_requireEventNetwork SameRecords.refl) fun _ => Prog.does_pure _
    refine Prog.does_exec SameRecords.refl fun db db' r h => ?_
    rw [(insertRoundRow_ok h).2.2]
    exact ⟨rfl, rfl, rfl, rfl, rfl, rfl, rfl, rfl, rfl, by simp only [Db.schedule]; omega⟩

theorem sameRecords_completeRound (id : Nat) : (completeRound id).Within SameRecords := by
  refine Prog.does_exec SameRecords.refl fun db db' a h => ?_
  cases hw : writeRound id completedRound db with
  | error e =>
    rw [hw] at h
    cases h
  | ok r =>
    rw [hw] at h
    cases h
    rw [(writeRound_ok hw).1]
    exact ⟨rfl, rfl, rfl, rfl, rfl, rfl, rfl, rfl, rfl, le_rfl⟩

theorem sameRecords_createBatch (roundId : Nat) : (createBatch roundId).Within SameRecords := by
  have hread {α : Type} (f : Db → α) : (batchRead f).Within SameRecords :=
    Prog.does_query SameRecords.refl _ _
  have hbatch (roundId : Nat) (n : Int) : (insertBatch roundId n).Within SameRecords := by
    refine Prog.does_exec SameRecords.refl fun db db' a h => ?_
    cases h
    exact ⟨rfl, rfl, rfl, rfl, rfl, rfl, rfl, rfl, rfl, Nat.le_succ _⟩
  have htask (batchId roundId : Nat) (deadline : Int) (slot : BatchSlot) :
      (insertJudgeTask batchId roundId deadline slot).Within SameRecords :=
    within_write SameRecords.refl fun _ =>
      ⟨rfl, rfl, rfl, rfl, rfl, rfl, rfl, rfl, rfl, Nat.le_succ _⟩
  refine Prog.does_bind (hread _) fun _ => Prog.does_bind (hread _) fun _ =>
    Prog.does_ite trivial ?_
  exact Prog.does_bind (hread _) fun _ => Prog.does_bind (hread _) fun _ =>
    Prog.does_bind (hread _) fun _ => Prog.does_bind (hbatch _ _) fun batch =>
    Prog.does_bind (Prog.does_look SameRecords.refl _) fun _ => Prog.does_bind
      (Prog.does_each fun slot _ => htask _ _ _ slot) fun _ => Prog.does_pure _

theorem sameRecords_scheduleBatchDeadline (judgeResult : Except AwdError Nat) :
    (scheduleBatchDeadline judgeResult).Within SameRecords := by
  unfold scheduleBatchDeadline
  split
  · exact Prog.does_pure _
  · have hmax (batchId : Nat) : (maxTaskDeadline batchId).Within SameRecords := by
      refine Prog.does_bind (sameRecords_select _) fun task => ?_
      split <;> trivial
    refine Prog.does_bind (Prog.does_attempt (hmax _)) fun deadline => ?_
    split
    · exact Prog.does_pure _
    · exact Prog.does_bind (Prog.does_attempt (sameRecords_schedule _ _ _ _)) fun _ =>
        Prog.does_pure _

theorem sameRecords_maybeFinishEvent : maybeFinishEvent.Within SameRecords := by
  refine Prog.does_bind (sameRecords_select _) fun e => Prog.does_ite trivial
    (Prog.does_ite trivial ?_)
  refine Prog.does_bind (sameRecords_select _) fun r => Prog.does_ite trivial ?_
  refine Prog.does_bind (sameRecords_select _) fun t => Prog.does_ite trivial ?_
  refine Prog.does_bind (within_utcNow SameRecords.refl) fun now => ?_
  refine Prog.does_bind (Prog.does_attempt (sameRecords_transitionEvent _ _ _)) fun moved => ?_
  split
  · trivial
  · trivial
  · trivial
  · exact Prog.does_bind (within_tryReconcile SameRecords.refl _) fun _ =>
      Prog.does_bind (Prog.does_attempt (within_requireEventNetwork SameRecords.refl)) fun _ =>
        trivial

theorem sameRecords_endRound (id : Nat) : (endRound id).Within SameRecords := by
  refine Prog.does_bind (sameRecords_select _) fun found => ?_
  cases found with
  | none => trivial
  | some r =>
    refine Prog.does_ite trivial (Prog.does_bind (sameRecords_completeRound _) fun e => ?_)
    refine Prog.does_bind (Prog.does_attempt (sameRecords_createBatch _)) fun batch => ?_
    refine Prog.does_bind (Prog.does_ite ?_ ?_) fun _ => sameRecords_scheduleBatchDeadline _
    · exact Prog.does_bind (within_tryReconcile SameRecords.refl _) fun _ =>
        Prog.does_bind (Prog.does_attempt (within_requireEventNetwork SameRecords.refl)) fun _ =>
          Prog.does_bind (Prog.does_attempt sameRecords_maybeFinishEvent) fun _ => trivial
    · exact Prog.does_bind (Prog.does_attempt (sameRecords_startRound _)) fun _ => trivial

/-! ## Resume -/

theorem sameRecords_restoreRoundScheduling : restoreRoundScheduling.Within SameRecords := by
  refine Prog.does_bind (sameRecords_select _) fun open? => ?_
  split
  · exact Prog.does_ite (Prog.does_bind (sameRecords_select _) fun found => Prog.does_ite
      (Prog.does_pure _) (Prog.does_bind (sameRecords_schedule _ _ _ _) fun _ => Prog.does_pure _))
      (Prog.does_pure _)
  · refine Prog.does_bind (sameRecords_select _) fun e => Prog.does_ite ?_ (Prog.does_pure _)
    refine Prog.does_bind (sameRecords_select _) fun e => ?_
    split
    · exact Prog.does_pure _
    · refine Prog.does_ite (Prog.does_pure _) (Prog.does_bind (sameRecords_select _)
        fun highest => ?_)
      split
      · exact Prog.does_bind (sameRecords_startRound _) fun _ => Prog.does_pure _
      · exact Prog.does_ite (Prog.does_pure _) (Prog.does_ite (Prog.does_pure _)
          (Prog.does_bind (sameRecords_startRound _) fun _ => Prog.does_pure _))

theorem sameRecords_enterAttack : enterAttack.Within SameRecords := by
  refine Prog.does_exec SameRecords.refl fun db db' a h => ?_
  unfold enterAttackRow at h
  split at h <;> cases h
  exact ⟨rfl, rfl, rfl, rfl, rfl, rfl, rfl, rfl, rfl, le_rfl⟩

theorem sameRecords_reconcileResumed (p : AwdPhase) : (reconcileResumed p).Within SameRecords := by
  refine Prog.does_bind (within_tryReconcile SameRecords.refl _) fun reconciled => ?_
  split
  · exact Prog.does_bind (within_requireEventNetwork SameRecords.refl) fun _ => Prog.does_ite
      (Prog.does_bind sameRecords_restoreRoundScheduling fun _ => Prog.does_pure _)
      (Prog.does_pure _)
  · exact Prog.does_bind (Prog.does_attempt (sameRecords_transitionEvent _ _ _)) fun _ => trivial

theorem sameRecords_resumeEvent : resumeEvent.Within SameRecords := by
  refine Prog.does_bind (sameRecords_select _) fun e => Prog.does_ite trivial ?_
  refine Prog.does_bind (within_utcNow SameRecords.refl) fun now => ?_
  split
  · refine Prog.does_bind (Prog.does_bind (sameRecords_transitionEvent _ _ _) fun _ => ?_)
      fun _ => sameRecords_reconcileResumed _
    split
    · exact sameRecords_schedule _ _ _ _
    · exact sameRecords_enterAttack
  · refine Prog.does_bind (Prog.does_bind (sameRecords_select _) fun open? => ?_)
      fun _ => sameRecords_reconcileResumed _
    cases open? with
    | some round =>
      exact Prog.does_bind sameRecords_writeRound fun _ => sameRecords_transitionEvent _ _ _
    | none => exact sameRecords_transitionEvent _ _ _
  · exact Prog.does_bind trivial fun _ => sameRecords_reconcileResumed _

end FloatCtf.Awd
