import FloatCtf.Awd.Frame

/-!
# Undisturbed runs of the services

What the programs of the lifecycle do to the database when they run alone, on a table of rounds
that has its shape and a database that answers every statement.  `up` says which of the calls that
leave the database succeed.
-/

namespace FloatCtf.Awd

open Process

variable (up : Ext → Bool) {db : Db}

@[simp] theorem run_reconcileGlobal (x : Ext) (db : Db) :
    (reconcileGlobal x).run (answers up) db =
      (db, if up x then .ok () else .error (.network "firewall reconcile failed")) := by
  simp [reconcileGlobal]

@[simp] theorem run_nextNetworkRevision (db : Db) :
    nextNetworkRevision.run (answers up) db = (db, .ok ()) := Prog.run_query _ rfl _ _ _

@[simp] theorem run_tryReconcile (x : Ext) (db : Db) :
    (tryReconcile x).run (answers up) db =
      (db, .ok (if up x then .ok () else .error (.network "firewall reconcile failed"))) := by
  simp [tryReconcile]

/-- The database with another event row. -/
def Db.setEvent (db : Db) (e : AwdEvent) : Db := { db with event := e }

@[simp] theorem Db.setEvent_event (db : Db) (e : AwdEvent) : (db.setEvent e).event = e := rfl

@[simp] theorem Db.setEvent_rounds (db : Db) (e : AwdEvent) :
    (db.setEvent e).rounds = db.rounds := rfl

@[simp] theorem Db.setEvent_networkRow (db : Db) (e : AwdEvent) :
    (db.setEvent e).networkRow = db.networkRow := rfl

@[simp] theorem Db.setEvent_setEvent (db : Db) (e e' : AwdEvent) :
    (db.setEvent e).setEvent e' = db.setEvent e' := rfl

theorem setEvent_moves (db : Db) (e : AwdEvent) : Moves db (db.setEvent e) e db.rounds :=
  ⟨rfl, rfl, rfl, rfl, rfl, le_rfl, id⟩

theorem run_transitionEvent {e t : AwdEventStatus} (p : TransitionPatch)
    (h : db.event.status = e) (ht : t ∈ e.validTransitions) :
    (transitionEvent e t p).run (answers up) db =
      (db.setEvent (db.event.patched t p), .ok ()) := by
  rw [transitionEvent, Prog.run_exec _ rfl]
  simp [transitionRow, AwdEventStatus.canTransitionTo, h, ht, Db.setEvent]

/-- A transition that the table of transitions does not have is refused. -/
theorem run_transitionEvent_invalid {e t : AwdEventStatus} (p : TransitionPatch)
    (ht : t ∉ db.event.status.validTransitions) :
    ∃ msg, (transitionEvent e t p).run (answers up) db = (db, .error (.invalidState msg)) := by
  rw [transitionEvent, Prog.run_exec _ rfl]
  simp [transitionRow, AwdEventStatus.canTransitionTo, ht]

/-- The round that `start_round` creates. -/
def Db.nextRound (db : Db) (k : Int) : AwdRound :=
  createdRound db.nextId k db.now (db.now + db.event.roundDurationSecs * sec)

/-- The database after `start_round` has inserted round `k`. -/
def Db.withRound (db : Db) (k : Int) : Db :=
  let db' : Db := { db with rounds := db.rounds ++ [db.nextRound k], nextId := db.nextId + 1 }
  db'.schedule .awdRoundEnd (db.nextRound k).scheduledEndAt (some (db.nextRound k).id) none

theorem run_startRound_refused (k : Option Int)
    (h : db.event.status ≠ .running ∨ db.event.phase ≠ .attack) :
    ((startRound k).run (answers up) db).1 = db := by
  rcases h with h | h
  · simp [startRound, h]
  · by_cases hs : db.event.status = .running <;> simp [startRound, h, hs]

theorem run_startRound_new (hs : db.event.status = .running) (hp : db.event.phase = .attack)
    (hr : RoundTable db.rounds db.nextId) (hd : AllDone db.rounds) :
    ((startRound (some (db.rounds.length + 1))).run (answers up) db).1 =
      db.withRound (db.rounds.length + 1) := by
  have hnone : findRoundByNumber db.rounds (db.rounds.length + 1) = none :=
    findRoundByNumber_eq_none hr (by omega)
  have h1 : (1 : Int) ≤ db.rounds.length + 1 := by omega
  have hix : RoundIndexes (db.withRound (db.rounds.length + 1)).rounds :=
    (hr.concat hd rfl le_rfl (Nat.lt_succ_self _)).indexes
  have hins : insertRoundRow (db.rounds.length + 1)
      (db.now + db.event.roundDurationSecs * sec) db =
      .ok (db.withRound (db.rounds.length + 1), _) := if_pos hix
  have hexec := Prog.run_exec (answers up) (l := .insertRound (db.rounds.length + 1)) rfl dbError
    (insertRoundRow (db.rounds.length + 1) (db.now + db.event.roundDurationSecs * sec)) db
  rw [hins] at hexec
  simp only [startRound, hs, hp, nextRoundNumber, h1, hnone, hexec, Prog.run_bind, run_select,
    run_utcNow, run_nextNetworkRevision, run_reconcileGlobal, ne_eq, not_true_eq_false, ↓reduceIte]
  by_cases he : up .startRound = true <;> by_cases hn : db.networkRow = true <;>
    simp [he, hn, requireEventNetwork, Db.withRound, Db.schedule]

/-- The first round. -/
theorem run_startRound_first (hs : db.event.status = .running) (hp : db.event.phase = .attack)
    (hr : db.rounds = []) : ((startRound (some 1)).run (answers up) db).1 = db.withRound 1 := by
  have h := run_startRound_new up hs hp (hr ▸ roundTable_nil _) (by simp [hr, AllDone])
  simpa [hr] using h

@[simp] theorem run_scheduleHardeningEnd (t : Int) (db : Db) :
    (scheduleHardeningEnd t).run (answers up) db =
      (db.schedule .awdHardeningEnd t none none, .ok ()) := run_write up rfl _ db

/-- The transaction that enters the attack phase. -/
@[simp] theorem run_enterAttack (db : Db) :
    enterAttack.run (answers up) db = (db.setEvent db.event.inAttack, .ok ()) := by
  rw [enterAttack, Prog.run_exec _ rfl]
  simp only [enterAttackRow, AwdPhase.canTransitionTo_ok]
  rfl

/-- The initial scores are written without touching the lifecycle. -/
theorem run_seedInitialScores (s : Int64) (db : Db) :
    ∃ db', (seedInitialScores s).run (answers up) db = (db', .ok ()) ∧ Quiet db db' := by
  refine ⟨_, Prod.ext rfl ?_, quiet_run (seedInitialScores_within minor_quiet.toSlight s) (answers up) db⟩
  simp only [seedInitialScores, Prog.run_bind, run_select]
  refine Prog.run_each_ok _ (fun team db => ?_) _ _
  rw [createScoreEventIfAbsent, Prog.run_bind, Prog.run_exec _ rfl]
  rfl

/-- The conditions under which `maybe_finish_event` finishes the event. -/
def Db.settles (db : Db) : Bool :=
  isFinalSettlement db.event (findLatestRound db.rounds) && db.allJudgeTasksTerminal

/-- The event as it ends. -/
def Db.finished (db : Db) : Db := db.setEvent (db.event.patched .finished (.finished db.now))

theorem isFinalSettlement_running {e : AwdEvent} {r : Option AwdRound}
    (h : isFinalSettlement e r = true) : e.status = .running := by
  by_contra hs
  simp [isFinalSettlement, hs] at h

theorem run_maybeFinishEvent (db : Db) :
    (maybeFinishEvent.run (answers up) db).1 = if db.settles then db.finished else db := by
  by_cases hs : db.event.status = .running
  swap
  · have hf : db.settles = false := by
      by_contra h
      rw [Bool.not_eq_false, Db.settles, Bool.and_eq_true] at h
      exact hs (isFinalSettlement_running h.1)
    by_cases hfin : db.event.status = .finished <;> simp [maybeFinishEvent, hf, hs, hfin]
  · have hnf : db.event.status ≠ .finished := by rw [hs]; decide
    by_cases hf : isFinalSettlement db.event (findLatestRound db.rounds) = true
    swap
    · simp [maybeFinishEvent, hs, hf, Db.settles]
    by_cases ht : db.allJudgeTasksTerminal = true
    swap
    · simp [maybeFinishEvent, hs, hf, ht, Db.settles]
    have htr := run_transitionEvent up (TransitionPatch.finished db.now) hs
      (t := .finished) (by decide)
    by_cases hn : db.networkRow = true <;>
      simp [maybeFinishEvent, hs, hf, ht, htr, Db.settles, Db.finished, requireEventNetwork, hn]

/-! ## Putting the rounds back on schedule -/

/-- `recover_round_gap` between two rounds: the next round, if there is one to come. -/
theorem run_recoverRoundGap (hs : db.event.status = .running) (hp : db.event.phase = .attack)
    (ht : RoundTable db.rounds db.nextId) (hd : AllDone db.rounds) {rc : Int}
    (hc : db.event.roundCount = some rc) :
    (recoverRoundGap.run (answers up) db).1 =
      if (db.rounds.length : Int) < rc then db.withRound (db.rounds.length + 1) else db := by
  have hnew := run_startRound_new up hs hp ht hd
  by_cases hrc : rc ≤ 0
  · rw [if_neg (by omega)]
    simp [recoverRoundGap, hc, hrc]
  rcases List.eq_nil_or_concat' db.rounds with hnil | ⟨done, r, he⟩
  · rw [if_pos (by rw [hnil, List.length_nil]; omega), ← hnew]
    rw [hnil, List.length_nil, Nat.cast_zero, zero_add]
    rcases hr : (startRound (some 1)).run (answers up) db with ⟨d, _ | _⟩ <;>
      simp [recoverRoundGap, hc, hrc, hnil, findLatestRound, hr]
  · have hnum : r.roundNumber = db.rounds.length := by
      have := ht
      rw [he] at this
      rw [this.number_last, he, List.length_append, List.length_singleton]
      rfl
    have hlatest : findLatestRound db.rounds = some r := by
      rw [he] at ht ⊢
      exact findLatestRound_last ht
    rcases lt_trichotomy rc (db.rounds.length : Int) with hlt | heq | hgt
    · rw [if_neg (by omega)]
      simp [recoverRoundGap, hc, hrc, hlatest, hnum, hlt]
    · rw [if_neg (by omega)]
      rw [← heq] at hnum
      simp [recoverRoundGap, hc, hrc, hlatest, hnum]
    · rw [if_pos hgt, ← hnew]
      rcases hr : (startRound (some (db.rounds.length + 1))).run (answers up) db
        with ⟨d, _ | _⟩ <;>
        simp [recoverRoundGap, hc, hrc, hlatest, hnum, hgt.not_gt, hgt.not_ge, hr]

/-- `restore_round_scheduling` gives an active round its task back, unless one is pending. -/
theorem run_restoreRoundScheduling_active {r : AwdRound}
    (hf : findActiveRound db.rounds = some r) (hr : r.status = .active) :
    (restoreRoundScheduling.run (answers up) db).1 =
      if db.hasPending .awdRoundEnd then db
      else db.schedule .awdRoundEnd r.scheduledEndAt (some r.id) none := by
  have hw := run_write up (l := .scheduleTask) rfl
    (fun db => db.schedule .awdRoundEnd r.scheduledEndAt (some r.id) none) db
  by_cases hp : db.hasPending .awdRoundEnd = true <;>
    simp [restoreRoundScheduling, restoreRoundEndTask, hf, hr, hp, hw]

theorem run_restoreRoundScheduling_paused {r : AwdRound}
    (hf : findActiveRound db.rounds = some r) (hr : r.status ≠ .active) :
    (restoreRoundScheduling.run (answers up) db).1 = db := by
  simp [restoreRoundScheduling, hf, hr]

theorem run_restoreRoundScheduling_gap (hs : db.event.status = .running)
    (hp : db.event.phase = .attack) (ht : RoundTable db.rounds db.nextId)
    (hd : AllDone db.rounds) {rc : Int} (hc : db.event.roundCount = some rc) :
    (restoreRoundScheduling.run (answers up) db).1 =
      if (db.rounds.length : Int) < rc then db.withRound (db.rounds.length + 1) else db := by
  rw [← run_recoverRoundGap up hs hp ht hd hc]
  simp [restoreRoundScheduling, findActiveRound_eq_none hd, hs, hp]

theorem run_restoreRoundScheduling_none (hf : findActiveRound db.rounds = none)
    (h : ¬ (db.event.status = .running ∧ db.event.phase = .attack)) :
    (restoreRoundScheduling.run (answers up) db).1 = db := by
  simp [restoreRoundScheduling, hf, h]

/-! ## Suspending a stage -/

/-- The seconds that the current stage has left, as a pause saves them. -/
def Db.stageRemaining (db : Db) : Int :=
  match db.event.phase with
  | .hardening => (db.event.hardeningEndsAt.map fun h => remainingSecs h db.now).getD 0
  | .attack =>
    ((findActiveRound db.rounds).map fun r => remainingSecs r.scheduledEndAt db.now).getD 0
  | .pause => 0

/-- The rounds after the open one, if the event is in its attack phase, was paused. -/
def Db.frozenRounds (db : Db) : List AwdRound :=
  match db.event.phase, findActiveRound db.rounds with
  | .attack, some r =>
    updateRoundRow r.id (pausedRound (remainingSecs r.scheduledEndAt db.now) db.now) db.rounds
  | _, _ => db.rounds

theorem writeRound_last {done : List AwdRound} {r : AwdRound} (h : db.rounds = done ++ [r])
    (ht : RoundTable db.rounds db.nextId) (f : Int → AwdRound → AwdRound)
    (hid : (f db.now r).id = r.id) (hnum : (f db.now r).roundNumber = r.roundNumber) :
    writeRound r.id f db = .ok ({ db with rounds := done ++ [f db.now r] }, ()) := by
  rw [h] at ht
  have hix : RoundIndexes (done ++ [f db.now r]) := (ht.rewrite_last hid hnum).indexes
  simp only [writeRound, h, findRoundById_last ht, Option.isNone_some, Bool.false_eq_true,
    ↓reduceIte, updateRoundRow_last ht, hix]

theorem run_writeRound_last {l : Stmt} (hl : answers up l = true) {done : List AwdRound}
    {r : AwdRound} (h : db.rounds = done ++ [r]) (ht : RoundTable db.rounds db.nextId)
    (f : Int → AwdRound → AwdRound) (hid : (f db.now r).id = r.id)
    (hnum : (f db.now r).roundNumber = r.roundNumber) :
    (Prog.exec l dbError (writeRound r.id f)).run (answers up) db =
      ({ db with rounds := done ++ [f db.now r] }, .ok ()) := by
  rw [Prog.run_exec _ hl, writeRound_last h ht f hid hnum]

/-- The rounds of a table keep their shape when the open one is paused. -/
theorem Db.frozenRounds_eq (ht : RoundTable db.rounds db.nextId) :
    (∃ done r, db.event.phase = .attack ∧ db.rounds = done ++ [r] ∧ r.isOpen = true ∧
      db.stageRemaining = remainingSecs r.scheduledEndAt db.now ∧
      db.frozenRounds = done ++ [pausedRound db.stageRemaining db.now r]) ∨
    ((db.event.phase = .attack → AllDone db.rounds ∧ db.stageRemaining = 0) ∧
      db.frozenRounds = db.rounds) := by
  cases hp : db.event.phase with
  | hardening => exact .inr ⟨by simp, by simp [Db.frozenRounds, hp]⟩
  | pause => exact .inr ⟨by simp, by simp [Db.frozenRounds, hp]⟩
  | attack =>
    cases hf : findActiveRound db.rounds with
    | none =>
      exact .inr ⟨fun _ => ⟨allDone_of_findActiveRound hf, by simp [Db.stageRemaining, hp, hf]⟩,
        by simp [Db.frozenRounds, hp, hf]⟩
    | some r =>
      obtain ⟨done, he, hd, hr⟩ := ht.eq_of_findActiveRound hf
      refine .inl ⟨done, r, rfl, he, hr, by simp [Db.stageRemaining, hp, hf], ?_⟩
      rw [he] at ht
      simp only [Db.frozenRounds, Db.stageRemaining, hp, hf, Option.map_some, Option.getD_some]
      rw [he, updateRoundRow_last ht]

theorem Db.frozenRounds_table (ht : RoundTable db.rounds db.nextId) :
    RoundTable db.frozenRounds db.nextId := by
  obtain ⟨done, r, -, he, -, -, hf⟩ | ⟨-, hf⟩ := Db.frozenRounds_eq ht
  · rw [he] at ht
    rw [hf]
    exact ht.rewrite_last rfl rfl
  · rwa [hf]

/-- `update_round_status` to `Paused` does nothing to an open round that is already paused. -/
theorem run_pauseRoundStatus {done : List AwdRound} {r : AwdRound} (h : db.rounds = done ++ [r])
    (ht : RoundTable db.rounds db.nextId) (hr : r.status = .paused) :
    (pauseRoundStatus r.id).run (answers up) db = (db, .ok ()) := by
  have hsame : { r with status := .paused } = r := by rw [← hr]
  rw [pauseRoundStatus, run_writeRound_last up rfl h ht _ rfl rfl, hsame, ← h]

/-- The shared part of `pause_event` and `handle_network_error` pauses the open round of the attack
phase, or cancels the hardening task. -/
theorem run_freezeStage (ht : RoundTable db.rounds db.nextId) :
    ∃ db', (freezeStage db.event db.now).run (answers up) db = (db', .ok db.stageRemaining) ∧
      Moves db db' db.event db.frozenRounds := by
  cases hp : db.event.phase with
  | hardening =>
    have hc := run_write up (l := .cancelTasks) rfl
      (fun db => { db with tasks := db.tasks.filter fun t => !t.isPending .awdHardeningEnd }) db
    refine ⟨{ db with tasks := db.tasks.filter fun t => !t.isPending .awdHardeningEnd }, ?_,
      rfl, rfl, rfl, rfl, by simp [Db.frozenRounds, hp], le_rfl, fun h => h.filter _⟩
    simp [freezeStage, hp, cancelPendingHardeningEnd, hc, Db.stageRemaining]
  | pause =>
    exact ⟨db, by simp [freezeStage, hp, Db.stageRemaining], rfl, rfl, rfl, rfl,
      by simp [Db.frozenRounds, hp], le_rfl, id⟩
  | attack =>
    cases hf : findActiveRound db.rounds with
    | none =>
      exact ⟨db, by simp [freezeStage, hp, hf, Db.stageRemaining], rfl, rfl, rfl, rfl,
        by simp [Db.frozenRounds, hp, hf], le_rfl, id⟩
    | some r =>
      obtain ⟨done, he, hd, hr⟩ := ht.eq_of_findActiveRound hf
      have hw := run_writeRound_last up (l := .pauseRound r.id) rfl he ht
        (pausedRound (remainingSecs r.scheduledEndAt db.now)) rfl rfl
      refine ⟨{ db with rounds := done ++
          [pausedRound (remainingSecs r.scheduledEndAt db.now) db.now r] },
        by simp [freezeStage, hp, hf, Db.stageRemaining, pauseRound, hw],
        rfl, rfl, rfl, rfl, ?_, le_rfl, id⟩
      rw [he] at ht
      simp only [Db.frozenRounds, hp, hf]
      rw [he, updateRoundRow_last ht]

end FloatCtf.Awd
