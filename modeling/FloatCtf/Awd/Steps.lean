import FloatCtf.Awd.Lifecycle

/-!
# The services make only lifecycle steps

`Orderly` is what holds of the event row and the table of rounds between two operations.  On an
orderly database every operation makes one of the moves of `Step`, and every move keeps the
database orderly.
-/

namespace FloatCtf.Awd

open Process

/-- How the event row and the rounds fit together between two operations. -/
structure OrderlyRow (e : AwdEvent) (rounds : List AwdRound) : Prop where
  status : e.status ∈
    [AwdEventStatus.verified, .startBlocked, .running, .paused, .networkError, .finished]
  unstarted : e.status = .verified ∨ e.status = .startBlocked → rounds = []
  hardening : e.phase = .hardening → rounds = []
  running : e.status = .running → e.phase ≠ .pause ∧ ∀ r ∈ rounds, r.status ≠ .paused
  paused : e.status = .paused → e.phase = .pause
  frozen : e.phase = .pause → ∀ r ∈ rounds, r.status ≠ .active
  saved : e.status = .paused ∨ e.status = .networkError →
    e.pausedPhase = some .hardening ∧ rounds = [] ∨ e.pausedPhase = some .attack ∨
      e.pausedPhase = some .pause
  count : e.status ≠ .verified → e.status ≠ .startBlocked →
    ∃ rc, e.roundCount = some rc ∧ 0 < rc ∧ (rounds.length : Int) ≤ rc
  finished : e.status = .finished → AllDone rounds

/-- What holds of the database between two operations. -/
structure Orderly (db : Db) : Prop extends OrderlyRow db.event db.rounds where
  table : RoundTable db.rounds db.nextId
  networkRow : db.networkRow = true
  taskIds : TaskIds db

variable {db db' : Db} {up : Ext → Bool}

/-! ## Building blocks -/

theorem scheduled_schedule (db : Db) (key : TaskKey) (t : Int) (r b : Option Nat) :
    (db.schedule key t r b).Scheduled db.nextId key t r :=
  ⟨pendingTask db.nextId key t r b, by simp [Db.schedule],
    by simp [ScheduledTask.isPending, pendingTask], rfl, rfl, le_rfl⟩

theorem Db.Scheduled.mono {n m : Nat} {key : TaskKey} {t : Int} {r : Option Nat}
    (h : db.Scheduled n key t r) (hle : m ≤ n) : db.Scheduled m key t r := by
  obtain ⟨u, hu, hp, he, hr, hn⟩ := h
  exact ⟨u, hu, hp, he, hr, hle.trans hn⟩

theorem Db.Scheduled.keeps {n : Nat} {key : TaskKey} {t : Int} {r : Option Nat}
    (h : db.Scheduled n key t r) (hk : Keeps db db') : db'.Scheduled n key t r := by
  obtain ⟨u, hu, hrest⟩ := h
  exact ⟨u, hk hu, hrest⟩

/-- The new round of `start_round`, after other moves of the same operation. -/
theorem Moves.then_withRound {e : AwdEvent} {rs : List AwdRound} (h : Moves db db' e rs)
    (hd : e.roundDurationSecs = db.event.roundDurationSecs) (k : Int) :
    ∃ r, Moves db (db'.withRound k) e (rs ++ [r]) ∧ NewRound db (db'.withRound k) k r := by
  have hid : (db'.withRound k).nextId = db'.nextId + 2 := rfl
  have hle := h.nextId
  have hids (ht : TaskIds db) : TaskIds (db'.withRound k) := by
    have : TaskIds { db' with rounds := db'.rounds ++ [db'.nextRound k]
                              nextId := db'.nextId + 1 } :=
      (h.taskIds ht).of_ids rfl (Nat.le_succ _)
    exact this.schedule _ _ _ _
  refine ⟨db'.nextRound k, ⟨h.now, h.generic, h.networkRow, h.event, ?_, by omega, hids⟩,
    { number := rfl, active := rfl, remaining := rfl, ends := ?_, fresh := ?_
      scheduled := (scheduled_schedule _ _ _ _ _).mono (hle.trans (Nat.le_succ _)) }⟩
  · rw [← h.rounds]
    rfl
  · rw [← hd, ← h.event, ← h.now]
    rfl
  · exact ⟨hle, by rw [hid]; exact Nat.lt_add_of_pos_right (by decide)⟩

/-! ## Suspending -/

theorem pauseEvent_step (h : Orderly db) :
    Step db ((Op.pauseEvent up).apply db) (.pauseEvent up) := by
  by_cases hs : db.event.status = .running
  swap
  · refine .idle hs ?_
    have : (Op.pauseEvent up).apply db = db := by simp [Op.apply, pauseEvent, hs]
    rw [this]
    exact Quiet.refl db
  obtain ⟨db1, hrun, hm⟩ := run_freezeStage up h.table
  have hs1 : db1.event.status = .running := by rw [hm.event, hs]
  have hn1 : db1.networkRow = true := hm.networkRow.trans h.networkRow
  have hsusp (target : AwdEventStatus) : Moves db
      (db1.setEvent (db.event.suspended target db.stageRemaining))
      (db.event.suspended target db.stageRemaining) db.frozenRounds :=
    hm.rounds ▸ hm.trans (setEvent_moves db1 _)
  have htr := run_transitionEvent up
    { TransitionPatch.paused db.event.phase db.stageRemaining with hardeningEndsAt := some none }
    hs1 (t := .paused) (by decide)
  rw [hm.event, show db.event.patched _ _ = db.event.suspended .paused db.stageRemaining from rfl]
    at htr
  by_cases he : up .pauseEvent = true
  · have : (Op.pauseEvent up).apply db =
        db1.setEvent (db.event.suspended .paused db.stageRemaining) := by
      simp [Op.apply, pauseEvent, hs, hrun, htr, he, requireEventNetwork, hn1]
    rw [this]
    exact .suspend rfl hs (.inl rfl) (hsusp _)
  · have htr' : (transitionEvent .paused .networkError {}).run (answers up)
        (db1.setEvent (db.event.suspended .paused db.stageRemaining)) =
        (db1.setEvent (db.event.suspended .networkError db.stageRemaining), .ok ()) :=
      run_transitionEvent up {} rfl (by decide)
    have : (Op.pauseEvent up).apply db =
        db1.setEvent (db.event.suspended .networkError db.stageRemaining) := by
      simp [Op.apply, pauseEvent, hs, hrun, htr, htr', he]
    rw [this]
    exact .suspend rfl hs (.inr rfl) (hsusp _)

/-- After a pause no round is active. -/
theorem Orderly.frozenRounds_not_active (h : Orderly db) {r : AwdRound}
    (hr : r ∈ db.frozenRounds) : r.status ≠ .active := by
  obtain ⟨done, x, -, he, -, -, hf⟩ | ⟨hd, hf⟩ := Db.frozenRounds_eq h.table
  · have ht := h.table
    rw [he] at ht
    rw [hf] at hr
    rcases List.mem_append.1 hr with hr | hr
    · rw [ht.allDone_init r hr]
      decide
    · rw [List.mem_singleton.1 hr]
      exact nofun
  · rw [hf] at hr
    cases hp : db.event.phase with
    | pause => exact h.frozen hp r hr
    | hardening =>
      rw [h.hardening hp] at hr
      cases hr
    | attack =>
      rw [(hd hp).1 r hr]
      decide

theorem networkError_step (h : Orderly db) :
    Step db (Op.networkError.apply db) .networkError := by
  obtain ⟨db1, hrun, hm⟩ := run_freezeStage (fun _ => true) h.table
  by_cases hs : db.event.status = .running ∨ db.event.status = .paused
  swap
  · have hv : AwdEventStatus.networkError ∉ db1.event.status.validTransitions := by
      rw [hm.event]
      have := h.status
      cases hst : db.event.status <;> rw [hst] at this hs <;> revert this hs <;> decide
    obtain ⟨msg, htr⟩ := run_transitionEvent_invalid (fun _ => true) (e := db.event.status)
      { phase := some .pause, pausedPhase := some db.event.phase
        pauseRemainingSecs := some db.stageRemaining, hardeningEndsAt := some none } hv
    have : Op.networkError.apply db = db1 := by
      simp [Op.apply, handleNetworkError, hrun, htr]
    rw [this]
    exact .errorRefused (not_or.1 hs) hm
  have htr : (transitionEvent db.event.status .networkError
      { phase := some .pause, pausedPhase := some db.event.phase
        pauseRemainingSecs := some db.stageRemaining, hardeningEndsAt := some none }).run
      (answers fun _ => true) db1 =
      (db1.setEvent (db.event.suspended .networkError db.stageRemaining), .ok ()) := by
    have hv : AwdEventStatus.networkError ∈ db.event.status.validTransitions := by
      rcases hs with hs | hs <;> rw [hs] <;> decide
    rw [run_transitionEvent _ _ (by rw [hm.event]) hv, hm.event]
    rfl
  have hlast : ∃ db2, Op.networkError.apply db = db2 ∧ Moves db db2
      (db.event.suspended .networkError db.stageRemaining) db.frozenRounds := by
    have hm2 : Moves db (db1.setEvent (db.event.suspended .networkError db.stageRemaining))
        (db.event.suspended .networkError db.stageRemaining) db.frozenRounds :=
      hm.rounds ▸ hm.trans (setEvent_moves db1 _)
    have ht2 := (Db.frozenRounds_table h.table).mono hm2.nextId
    rw [← hm2.rounds] at ht2
    refine ⟨_, ?_, hm2⟩
    cases hf : findActiveRound db1.rounds with
    | none => simp [Op.apply, handleNetworkError, hrun, htr, hf]
    | some r =>
      obtain ⟨done, he, -, hr⟩ := ht2.eq_of_findActiveRound hf
      have hmem : r ∈ db.frozenRounds := by
        rw [← hm2.rounds, he]
        simp
      have hr' : r.status = .paused := by
        have hna := h.frozenRounds_not_active hmem
        rw [AwdRound.isOpen_iff] at hr
        cases hst : r.status <;> simp_all
      simp [Op.apply, handleNetworkError, hrun, htr, hf, run_pauseRoundStatus _ he ht2 hr']
  obtain ⟨db2, he, hm2⟩ := hlast
  rw [he]
  rcases hs with hs | hs
  · exact .suspend rfl hs (.inr rfl) hm2
  · have hp := h.paused hs
    refine .errorOnPaused hs ?_
    simpa [Db.stageRemaining, Db.frozenRounds, hp] using hm2

/-! ## Starting -/

theorem startEvent_step (h : Orderly db) :
    Step db ((Op.startEvent up).apply db) (.startEvent up) := by
  have hidle (he : (Op.startEvent up).apply db = db) :
      Step db ((Op.startEvent up).apply db) (.startEvent up) := by
    rw [he]
    exact .idle ⟨rfl, rfl⟩ (Quiet.refl db)
  by_cases hs : db.event.status = .verified
  swap
  · exact hidle (by simp [Op.apply, startEvent, hs])
  by_cases hv : db.event.verifiedAt = none
  · exact hidle (by simp [Op.apply, startEvent, hs, hv])
  by_cases hg : db.event.verifiedGeneration = some db.event.configurationGeneration
  swap
  · have htr := run_transitionEvent up .configChanged hs (t := .startBlocked) (by decide)
    have : (Op.startEvent up).apply db =
        db.setEvent (db.event.patched .startBlocked .configChanged) := by
      simp [Op.apply, startEvent, hs, hv, hg, htr]
    rw [this]
    exact .block hs (setEvent_moves db _)
  cases ht : computeTiming db.generic.startTime db.generic.endTime db.event.roundCount
      db.event.roundDurationSecs with
  | error e => exact hidle (by simp [Op.apply, startEvent, hs, hv, hg, ht])
  | ok t =>
    obtain ⟨db1, hseed, hq⟩ := run_seedInitialScores up db.event.initialScore db
    have hs1 : db1.event.status = .verified := by rw [hq.event, hs]
    by_cases hlong : 0 < t.hardeningDurationSecs
    · let e := db.event.patched .running
        { phase := some .hardening, startedAt := some db.now
          hardeningEndsAt := some (some (db.now + t.hardeningDurationSecs * sec)) }
      have htr := run_transitionEvent up
        { phase := some .hardening, startedAt := some db.now
          hardeningEndsAt := some (some (db.now + t.hardeningDurationSecs * sec)) }
        hs1 (t := .running) (by decide)
      rw [hq.event] at htr
      have : (Op.startEvent up).apply db = (db1.setEvent e).schedule .awdHardeningEnd
          (db.now + t.hardeningDurationSecs * sec) none none := by
        simp [Op.apply, startEvent, hs, hv, hg, ht, hseed, hlong, htr, e]
      rw [this]
      exact .startHardening hs ht hlong (hq.rounds ▸
        (hq.trans (setEvent_moves db1 e)).then_quiet (minor_quiet.schedule _ _ _ _ _))
        ((scheduled_schedule _ _ _ _ _).mono hq.nextId)
    · let e := db.event.patched .running { phase := some .attack, startedAt := some db.now }
      have htr := run_transitionEvent up { phase := some .attack, startedAt := some db.now }
        hs1 (t := .running) (by decide)
      rw [hq.event] at htr
      have hr1 : db1.rounds = [] := by rw [hq.rounds, h.unstarted (.inl hs)]
      have hfirst := @run_startRound_first up (db1.setEvent e) rfl rfl hr1
      have : (Op.startEvent up).apply db = (db1.setEvent e).withRound 1 := by
        rcases hr : (startRound (some 1)).run (answers up) (db1.setEvent e) with ⟨d, _ | _⟩ <;>
          simp [Op.apply, startEvent, hs, hv, hg, ht, hseed, hlong, htr, hr, e, ← hfirst]
      obtain ⟨r, hm, hnew⟩ := (hq.trans (setEvent_moves db1 e)).then_withRound rfl 1
      rw [hr1, List.nil_append] at hm
      rw [this]
      exact .startAttack hs ht (not_lt.1 hlong) hm hnew

/-! ## Resuming -/

theorem Orderly.running_mem (h : db.resumable = true) :
    AwdEventStatus.running ∈ db.event.status.validTransitions := by
  simp only [Db.resumable, decide_eq_true_eq] at h
  rcases h with h | h <;> rw [h] <;> decide

/-- The event row after the transition of `resume_event`, before its network reconcile. -/
theorem run_resumeTransition (up : Ext → Bool) (db : Db) (h : db.resumable = true) (e : AwdEvent) (he : e = db.event)
    (phase : AwdPhase) (endsAt : Option (Option Int)) :
    (transitionEvent e.status .running
      { phase := some phase, pauseRemainingSecs := some 0, hardeningEndsAt := endsAt }).run
      (answers up) db =
      (db.setEvent (db.event.resumed true phase (endsAt.getD db.event.hardeningEndsAt)),
        .ok ()) := by
  subst he
  rw [run_transitionEvent up _ rfl (Orderly.running_mem h)]
  rfl

/-- When the reconcile of a resume fails, the event goes to its error state. -/
theorem run_resumeFailed (db : Db) (e : AwdEvent) (phase : AwdPhase) (endsAt : Option Int) :
    (transitionEvent .running .networkError {}).run (answers up)
      (db.setEvent (e.resumed true phase endsAt)) =
      (db.setEvent (e.resumed false phase endsAt), .ok ()) :=
  run_transitionEvent up {} rfl (by decide)

theorem run_reconcileResumed_hardening (up : Ext → Bool) (db : Db) (hn : db.networkRow = true) (e : AwdEvent)
    (phase : AwdPhase) (endsAt : Option Int) :
    ((reconcileResumed .hardening).run (answers up)
      (db.setEvent (e.resumed true phase endsAt))).1 =
      db.setEvent (e.resumed (up .resumeEvent) phase endsAt) := by
  by_cases he : up .resumeEvent = true <;>
    simp [reconcileResumed, he, requireEventNetwork, hn, run_resumeFailed]

theorem run_reconcileResumed_attack (up : Ext → Bool) (db : Db) (hn : db.networkRow = true) (e : AwdEvent)
    (endsAt : Option Int) :
    ((reconcileResumed .attack).run (answers up)
      (db.setEvent (e.resumed true .attack endsAt))).1 =
      if up .resumeEvent then
        (restoreRoundScheduling.run (answers up) (db.setEvent (e.resumed true .attack endsAt))).1
      else db.setEvent (e.resumed false .attack endsAt) := by
  by_cases he : up .resumeEvent = true
  · rcases hr : restoreRoundScheduling.run (answers up)
      (db.setEvent (e.resumed true .attack endsAt)) with ⟨d, _ | _⟩ <;>
      simp [reconcileResumed, he, requireEventNetwork, hn, hr]
  · simp [reconcileResumed, he, run_resumeFailed]

theorem not_guard_of_resumable (h : db.resumable = true) :
    ¬ (db.event.status ≠ .paused ∧ db.event.status ≠ .networkError) := by
  simp only [Db.resumable, decide_eq_true_eq] at h
  tauto

theorem resumeHardening_step (h : Orderly db) (hres : db.resumable = true)
    (hph : db.event.pausedPhase = some .hardening) :
    Step db ((Op.resumeEvent up).apply db) (.resumeEvent up) := by
  have hguard := not_guard_of_resumable hres
  by_cases hpos : 0 < db.event.pauseRemainingSecs.getD 0
  · let endsAt := db.now + db.event.pauseRemainingSecs.getD 0 * sec
    have htr := run_resumeTransition up db hres db.event rfl .hardening (some (some endsAt))
    have hend := run_reconcileResumed_hardening up (db.schedule .awdHardeningEnd endsAt none none) h.networkRow db.event .hardening
      (some endsAt)
    have : (Op.resumeEvent up).apply db = (db.schedule .awdHardeningEnd endsAt none none).setEvent
        (db.event.resumed (up .resumeEvent) .hardening (some endsAt)) := by
      rw [← hend]
      simp only [Op.apply, resumeEvent, Prog.run_bind, run_select, if_neg hguard, run_utcNow]
      simp only [hph, Option.getD_some, resumeHardening, if_pos hpos, Prog.run_bind, htr, endsAt]
      simp
      rfl
    rw [this]
    exact .resumeHardening hres hph rfl hpos
      ((minor_quiet.schedule db _ _ _ _).trans (setEvent_moves _ _)) (scheduled_schedule _ _ _ _ _)
  · have htr := run_resumeTransition up db hres db.event rfl .hardening (some none)
    have hend := run_reconcileResumed_hardening up db h.networkRow db.event .attack none
    have : (Op.resumeEvent up).apply db =
        db.setEvent (db.event.resumed (up .resumeEvent) .attack none) := by
      rw [← hend]
      simp only [Op.apply, resumeEvent, Prog.run_bind, run_select, if_neg hguard, run_utcNow]
      simp only [hph, Option.getD_some, resumeHardening, if_neg hpos, Prog.run_bind, htr,
        run_enterAttack]
      rfl
    rw [this]
    exact .resumeExhausted hres hph (not_lt.1 hpos) (setEvent_moves db _)

theorem resumeAttack_step (h : Orderly db) (hres : db.resumable = true)
    (hph : db.event.pausedPhase = some .attack) :
    Step db ((Op.resumeEvent up).apply db) (.resumeEvent up) := by
  have hguard := not_guard_of_resumable hres
  cases hf : findActiveRound db.rounds with
  | some r =>
    obtain ⟨done, he, hd, hr⟩ := h.table.eq_of_findActiveRound hf
    obtain ⟨newEnd, hne⟩ : ∃ t, t = db.now + r.remainingSecs.getD db.event.roundDurationSecs * sec :=
      ⟨_, rfl⟩
    let db1 : Db := { db with rounds := done ++ [resumedRound newEnd r] }
    let e := db.event.resumed true .attack db.event.hardeningEndsAt
    have hw : (resumeRound r.id newEnd).run (answers up) db = (db1, .ok ()) :=
      run_writeRound_last up rfl he h.table (fun _ => resumedRound newEnd) rfl rfl
    have htr := run_resumeTransition up db1 hres db.event rfl .attack none
    have hend := run_reconcileResumed_attack up db1 h.networkRow db.event
      db.event.hardeningEndsAt
    have happly : (Op.resumeEvent up).apply db =
        ((reconcileResumed .attack).run (answers up) (db1.setEvent e)).1 := by
      simp only [Op.apply, resumeEvent, Prog.run_bind, run_select, if_neg hguard, run_utcNow]
      simp only [hph, Option.getD_some, resumeAttack, Prog.run_bind, run_select, hf, ← hne, hw,
        htr]
      rfl
    have hfind : findActiveRound (db1.setEvent e).rounds = some (resumedRound newEnd r) :=
      findActiveRound_last hd rfl
    have hact := run_restoreRoundScheduling_active up hfind rfl
    have hm (ok : Bool) : Moves db (db1.setEvent (db.event.resumed ok .attack
        db.event.hardeningEndsAt)) (db.event.resumed ok .attack db.event.hardeningEndsAt)
        (done ++ [resumedRound newEnd r]) := ⟨rfl, rfl, rfl, rfl, rfl, le_rfl, id⟩
    have hpend : (db1.setEvent e).hasPending .awdRoundEnd = db.hasPending .awdRoundEnd := rfl
    rw [happly, hend]
    by_cases hx : up .resumeEvent = true
    · by_cases hp : db.hasPending .awdRoundEnd = true
      · rw [if_pos hx, hact, hpend, if_pos hp]
        refine .resumeRound hres hph he hr hne (hx ▸ hm true) fun _ hnp => ?_
        rw [hp] at hnp
        cases hnp
      · rw [if_pos hx, hact, hpend, if_neg hp]
        exact .resumeRound hres hph he hr hne
          (hx ▸ (hm true).then_quiet (minor_quiet.schedule _ _ _ _ _))
          fun _ _ => scheduled_schedule _ _ _ _ _
    · rw [if_neg hx]
      rw [Bool.not_eq_true] at hx
      refine .resumeRound hres hph he hr hne (hx ▸ hm false) fun hx' => ?_
      rw [hx] at hx'
      cases hx'
  | none =>
    have hd := allDone_of_findActiveRound hf
    let e := db.event.resumed true .attack db.event.hardeningEndsAt
    have htr := run_resumeTransition up db hres db.event rfl .attack none
    have hend := run_reconcileResumed_attack up db h.networkRow db.event
      db.event.hardeningEndsAt
    have happly : (Op.resumeEvent up).apply db =
        ((reconcileResumed .attack).run (answers up) (db.setEvent e)).1 := by
      simp only [Op.apply, resumeEvent, Prog.run_bind, run_select, if_neg hguard, run_utcNow]
      simp only [hph, Option.getD_some, resumeAttack, Prog.run_bind, run_select, hf, htr]
      rfl
    obtain ⟨rc, hc, -, hle⟩ := h.count (by rintro hv; simp [Db.resumable, hv] at hres)
      (by rintro hv; simp [Db.resumable, hv] at hres)
    have hgap := @run_restoreRoundScheduling_gap up (db.setEvent e) rfl rfl h.table hd rc hc
    rw [happly, hend]
    by_cases hx : up .resumeEvent = true
    · rw [if_pos hx, hgap]
      by_cases hlt : (db.rounds.length : Int) < rc
      · rw [Db.setEvent_rounds, if_pos hlt]
        obtain ⟨r, hm, hnew⟩ := (setEvent_moves db e).then_withRound rfl (db.rounds.length + 1)
        exact .resumeGap hres hph hd hc hlt hm hnew
      · rw [Db.setEvent_rounds, if_neg hlt]
        refine .resumeBetween hres hph hd (fun _ rc' hc' _ => ?_) (hx ▸ setEvent_moves db e)
        rw [hc] at hc'
        cases hc'
        exact not_lt.1 hlt
    · rw [if_neg hx]
      rw [Bool.not_eq_true] at hx
      refine .resumeBetween hres hph hd (fun hx' => ?_) (hx ▸ setEvent_moves db _)
      rw [hx] at hx'
      cases hx'

theorem resumeEvent_step (h : Orderly db) :
    Step db ((Op.resumeEvent up).apply db) (.resumeEvent up) := by
  by_cases hres : db.resumable = true
  swap
  · have : (Op.resumeEvent up).apply db = db := by
      simp only [Db.resumable, decide_eq_true_eq, not_or] at hres
      simp [Op.apply, resumeEvent, hres]
    rw [this]
    exact .idle (.inl (Bool.not_eq_true _ ▸ hres)) (Quiet.refl db)
  rcases h.saved (by simpa [Db.resumable] using hres) with ⟨hph, -⟩ | hph | hph
  · exact resumeHardening_step h hres hph
  · exact resumeAttack_step h hres hph
  · have : (Op.resumeEvent up).apply db = db := by
      simp only [Op.apply, resumeEvent, Prog.run_bind, run_select,
        if_neg (not_guard_of_resumable hres)]
      simp [hph]
    rw [this]
    exact .idle (.inr hph) (Quiet.refl db)

/-! ## The end of the hardening stage -/

theorem handleHardeningEnd_over (up : Ext → Bool) (db : Db) (ho : db.hardeningOver = true) (hr : db.rounds = []) :
    ∃ r, Moves db (handleHardeningEnd.run (answers up) db).1 db.event.inAttack [r] ∧
      NewRound db (handleHardeningEnd.run (answers up) db).1 1 r := by
  simp only [Db.hardeningOver, decide_eq_true_eq] at ho
  obtain ⟨hs, hp, hdl⟩ := ho
  have hearly : (db.event.hardeningEndsAt.map fun d => decide (db.now < d)).getD false = false := by
    cases hh : db.event.hardeningEndsAt with
    | none => rfl
    | some d => simpa [hh] using hdl
  have hfirst := @run_startRound_first up (db.setEvent db.event.inAttack) hs rfl hr
  have : (handleHardeningEnd.run (answers up) db).1 =
      (db.setEvent db.event.inAttack).withRound 1 := by
    rw [← hfirst]
    rcases hrun : (startRound (some 1)).run (answers up) (db.setEvent db.event.inAttack)
      with ⟨d, _ | _⟩ <;>
      simp [handleHardeningEnd, hs, hp, hearly, hrun]
  rw [this]
  obtain ⟨r, hm, hnew⟩ := (setEvent_moves db db.event.inAttack).then_withRound rfl 1
  rw [hr, List.nil_append] at hm
  exact ⟨r, hm, hnew⟩

theorem handleHardeningEnd_early (ho : db.hardeningOver = false) :
    (handleHardeningEnd.run (answers up) db).1 = db := by
  by_cases hs : db.event.status = .running
  swap
  · simp [handleHardeningEnd, hs]
  by_cases hp : db.event.phase = .hardening
  swap
  · simp [handleHardeningEnd, hp]
  have hearly : (db.event.hardeningEndsAt.map fun d => decide (db.now < d)).getD false = true := by
    cases hh : db.event.hardeningEndsAt with
    | none => simp [Db.hardeningOver, hs, hp, hh] at ho
    | some d => simpa [Db.hardeningOver, hs, hp, hh] using ho
  simp [handleHardeningEnd, hs, hp, hearly]

theorem hardeningEnd_step (h : Orderly db) :
    Step db ((Op.hardeningEnd up).apply db) (.hardeningEnd up) := by
  by_cases ho : db.hardeningOver = true
  · have hp : db.event.phase = .hardening := by
      simp only [Db.hardeningOver, decide_eq_true_eq] at ho
      exact ho.2.1
    obtain ⟨r, hm, hnew⟩ := handleHardeningEnd_over up db ho (h.hardening hp)
    exact .hardeningEnd ho hm hnew
  · rw [Bool.not_eq_true] at ho
    have : (Op.hardeningEnd up).apply db = db := handleHardeningEnd_early ho
    rw [this]
    exact .idle ⟨rfl, ho⟩ (Quiet.refl db)

/-! ## The end of a round -/

theorem Db.activeRound_eq_some {id : Nat} {r : AwdRound} (h : db.activeRound id = some r) :
    findRoundById db.rounds id = some r ∧ r ∈ db.rounds ∧ r.id = id ∧ r.status = .active := by
  rw [Db.activeRound, Option.filter_eq_some_iff] at h
  obtain ⟨hmem, hid⟩ := findRoundById_eq_some h.1
  exact ⟨h.1, hmem, hid, by simpa using h.2⟩

theorem endRound_idle {id : Nat} (h : db.activeRound id = none) :
    ((endRound id).run (answers up) db).1 = db := by
  cases hf : findRoundById db.rounds id with
  | none => simp [endRound, hf]
  | some r =>
    have hr : r.status ≠ .active := by
      intro hr
      simp [Db.activeRound, hf, hr] at h
    simp [endRound, hf, hr]

/-- `advance_after`: the settlement after the last round, or the next round. -/
theorem run_advanceAfter (up : Ext → Bool) (db : Db) (k : Int) (isFinal : Bool) :
    ((advanceAfter k isFinal).run (answers up) db) =
      (if isFinal then (if db.settles then db.finished else db)
       else ((startRound (some (k + 1))).run (answers up) db).1, .ok ()) := by
  cases isFinal with
  | true =>
    have hfin := run_maybeFinishEvent up db
    by_cases hn : db.networkRow = true <;>
      simp [advanceAfter, requireEventNetwork, hn, hfin]
  | false => simp [advanceAfter]

theorem endRound_ends (up : Ext → Bool) (h : Orderly db) {id : Nat} {r : AwdRound}
    (hr : db.activeRound id = some r) : RoundEnds db ((endRound id).run (answers up) db).1 r := by
  obtain ⟨hfind, hmem, rfl, hact⟩ := Db.activeRound_eq_some hr
  have hopen : r.isOpen = true := by simp [AwdRound.isOpen, RoundStatus.isOpen, hact]
  obtain ⟨done, he, hd⟩ := h.table.eq_of_open hmem hopen
  let db1 : Db := { db with rounds := done ++ [completedRound db.now r] }
  have hm1 : Moves db db1 db.event (done ++ [completedRound db.now r]) :=
    ⟨rfl, rfl, rfl, rfl, rfl, le_rfl, id⟩
  have ht := h.table
  rw [he] at ht
  have ht1 : RoundTable db1.rounds db1.nextId := ht.rewrite_last rfl rfl
  have hd1 : AllDone db1.rounds := by
    intro x hx
    rcases List.mem_append.1 hx with hx | hx
    · exact hd x hx
    · rw [List.mem_singleton.1 hx]
      rfl
  have hnum : r.roundNumber = db1.rounds.length := by
    rw [ht.number_last]
    simp [db1]
  have hcomp : (completeRound r.id).run (answers up) db = (db1, .ok db.event) := by
    rw [completeRound, Prog.run_exec _ rfl, writeRound_last he h.table completedRound rfl rfl]
    rfl
  rcases hbatch : (createBatch r.id).run (answers up) db1 with ⟨db2, res⟩
  have hq : Quiet db1 db2 := by
    have := quiet_run (createBatch_within minor_quiet r.id) (answers up) db1
    rwa [hbatch] at this
  have hm2 : Moves db db2 db.event (done ++ [completedRound db.now r]) := hm1.then_quiet hq
  obtain ⟨isFinal, hfin⟩ : ∃ b, b =
      (db.event.roundCount.map fun rc => decide (rc ≤ r.roundNumber)).getD false := ⟨_, rfl⟩
  have hadv := run_advanceAfter up db2 r.roundNumber isFinal
  obtain ⟨db3, hdb3⟩ : ∃ d, d = if isFinal then (if db2.settles then db2.finished else db2)
      else ((startRound (some (r.roundNumber + 1))).run (answers up) db2).1 := ⟨_, rfl⟩
  rw [← hdb3] at hadv
  have happly : ((endRound r.id).run (answers up) db).1 =
      ((scheduleBatchDeadline res).run (answers up) db3).1 := by
    simp only [endRound, Prog.run_bind, run_select, hfind, hact, ne_eq, not_true_eq_false,
      ↓reduceIte, hcomp, ← hfin, Prog.run_attempt, hbatch, hadv]
  have hq4 := quiet_run (scheduleBatchDeadline_within minor_quiet.toSlight res) (answers up) db3
  have hk4 := Prog.run_within (answers up) Keeps.refl Keeps.trans
    (scheduleBatchDeadline_within minor_keeps.toSlight res) db3
  rw [happly]
  cases isFinal with
  | true =>
    have hlast : ∃ rc, db.event.roundCount = some rc ∧ rc ≤ r.roundNumber := by
      cases hrc : db.event.roundCount with
      | none => simp [hrc] at hfin
      | some rc => exact ⟨rc, rfl, by simpa [hrc] using hfin.symm⟩
    by_cases hset : db2.settles = true
    · have hrun : db.event.status = .running := by
        rw [Db.settles, Bool.and_eq_true, hm2.event] at hset
        exact isFinalSettlement_running hset.1
      have hm3 : Moves db db3 (db.event.patched .finished (.finished db.now))
          (done ++ [completedRound db.now r]) := by
        have := hm2.trans (setEvent_moves db2 (db2.event.patched .finished (.finished db2.now)))
        rw [hm2.event, hm2.now, hm2.rounds] at this
        rw [hdb3, if_pos rfl, if_pos hset, Db.finished, hm2.event, hm2.now]
        exact this
      exact .last he (fun _ => hlast) (.inr ⟨hrun, rfl⟩) (hm3.then_quiet hq4)
    · rw [if_pos rfl, if_neg hset] at hdb3
      subst hdb3
      exact .last he (fun _ => hlast) (.inl rfl) (hm2.then_quiet hq4)
  | false =>
    rw [if_neg Bool.false_ne_true] at hdb3
    by_cases hrun : db.event.status = .running
    · have hmore (rc : Int) (hrc : db.event.roundCount = some rc) : r.roundNumber < rc := by
        simpa [hrc] using hfin
      have hp : db.event.phase = .attack := by
        have hnp := (h.running hrun).1
        have hnh : db.event.phase ≠ .hardening := by
          intro hh
          rw [h.hardening hh] at he
          simp at he
        cases hph : db.event.phase <;> simp_all
      have hnew := @run_startRound_new up db2 (by rw [hq.event, hrun]) (by rw [hq.event, hp])
        (hq.rounds ▸ ht1.mono hq.nextId) (hq.rounds ▸ hd1)
      rw [hq.rounds, ← hnum] at hnew
      rw [hnew] at hdb3
      obtain ⟨next, hm3, hn3⟩ := hm2.then_withRound rfl (r.roundNumber + 1)
      rw [← hdb3] at hm3 hn3
      exact .next he hrun hmore (hm3.then_quiet hq4)
        { hn3 with
          fresh := ⟨hn3.fresh.1, hn3.fresh.2.trans_le hq4.nextId⟩
          scheduled := hn3.scheduled.keeps hk4 }
    · have href := @run_startRound_refused up db2 (some (r.roundNumber + 1))
        (.inl (by rwa [hq.event]))
      rw [href] at hdb3
      subst hdb3
      exact .last he (fun hs => absurd hs hrun) (.inl rfl) (hm2.then_quiet hq4)

theorem endRound_step (h : Orderly db) (id : Nat) :
    Step db ((Op.endRound id up).apply db) (.endRound id up) := by
  cases hr : db.activeRound id with
  | none =>
    have : (Op.endRound id up).apply db = db := endRound_idle hr
    rw [this]
    exact .idle ⟨hr, rfl⟩ (Quiet.refl db)
  | some r => exact .endRound hr (endRound_ends up h hr)

/-! ## Task delivery -/

theorem Orderly.of_moves {e : AwdEvent} {rs : List AwdRound} (h : Orderly db)
    (hm : Moves db db' e rs) (ht : RoundTable rs db'.nextId) (hrow : OrderlyRow e rs) :
    Orderly db' where
  toOrderlyRow := hm.event ▸ hm.rounds ▸ hrow
  table := hm.rounds ▸ ht
  networkRow := hm.networkRow.trans h.networkRow
  taskIds := hm.taskIds h.taskIds

theorem Orderly.of_quiet (h : Orderly db) (hq : Quiet db db') : Orderly db' :=
  h.of_moves hq (h.table.mono hq.nextId) h.toOrderlyRow

/-- The database after the engine has taken the task. -/
def Db.fetched (db : Db) (id : Nat) : Db :=
  { db with tasks := db.tasks.map fun u => if u.id = id then { u with status := .running } else u }

/-- The database after the engine has recorded the outcome of the task. -/
def Db.marked (db : Db) (t : ScheduledTask) (res : Except AwdError Unit) : Db :=
  { db with tasks := db.tasks.map fun u => if u.id = t.id then t.settled db.now res u else u }

theorem ScheduledTask.settled_id (t : ScheduledTask) (now : Int) (res : Except AwdError Unit)
    (u : ScheduledTask) : (t.settled now res u).id = u.id := by
  unfold ScheduledTask.settled
  rcases res with e | ⟨⟩
  · dsimp only
    split_ifs <;> rfl
  · rfl

theorem fetched_quiet (db : Db) (id : Nat) : Quiet db (db.fetched id) := by
  refine ⟨rfl, rfl, rfl, rfl, rfl, le_rfl, fun h => h.of_ids ?_ le_rfl⟩
  rw [Db.fetched, List.map_map]
  exact List.map_congr_left fun u _ => by
    dsimp only [Function.comp_apply]
    split_ifs <;> rfl

theorem marked_quiet (db : Db) (t : ScheduledTask) (res : Except AwdError Unit) :
    Quiet db (db.marked t res) := by
  refine ⟨rfl, rfl, rfl, rfl, rfl, le_rfl, fun h => h.of_ids ?_ le_rfl⟩
  rw [Db.marked, List.map_map]
  exact List.map_congr_left fun u _ => by
    dsimp only [Function.comp_apply]
    split_ifs
    · exact t.settled_id db.now res u
    · rfl

theorem fetchTask_quiet (id : Nat) : (fetchTask id).Within Quiet := by
  refine Prog.does_exec Quiet.refl fun db db' t h => ?_
  split at h
  · cases h
  · cases h
    exact fetched_quiet db id

theorem markDone_quiet (t : ScheduledTask) (res : Except AwdError Unit) :
    (markDone t res).Within Quiet := within_write Quiet.refl fun db => marked_quiet db t res

theorem Db.dueTask_eq_some {id : Nat} {t : ScheduledTask} (h : db.dueTask id = some t) :
    t ∈ db.tasks ∧ t.id = id ∧ t.status = .pending ∧ t.executeAt ≤ db.now :=
  ⟨List.mem_of_find?_eq_some h, by simpa using List.find?_some h⟩

theorem deliver_none {id : Nat} (h : db.dueTask id = none) :
    ((deliver id).run (answers up) db).1 = db := by
  rw [Db.dueTask] at h
  have : (fetchTask id).run (answers up) db = (db, .error (.notFound "no due task")) := by
    rw [fetchTask, Prog.run_exec _ rfl, h]
  simp [deliver, this]

/-- A delivery is the run of the handler between the two writes of the engine. -/
theorem deliver_some (up : Ext → Bool) {id : Nat} {t : ScheduledTask} (h : db.dueTask id = some t) :
    ∃ res, ((deliver id).run (answers up) db).1 =
      ((runHandler t).run (answers up) (db.fetched id)).1.marked t res := by
  have hf : (fetchTask id).run (answers up) db = (db.fetched id, .ok t) := by
    rw [Db.dueTask] at h
    rw [fetchTask, Prog.run_exec _ rfl, h]
    rfl
  have hm (d : Db) (res : Except AwdError Unit) :
      (markDone t res).run (answers up) d = (d.marked t res, .ok ()) := run_write up rfl _ d
  exact ⟨((runHandler t).run (answers up) (db.fetched id)).2, by simp [deliver, hf, hm]⟩

/-- The engine's own writes leave the tasks alone that a handler has added. -/
theorem mem_marked {t u : ScheduledTask} {res : Except AwdError Unit} (hu : u ∈ db.tasks)
    (hne : u.id ≠ t.id) : u ∈ (db.marked t res).tasks :=
  List.mem_map.2 ⟨u, hu, if_neg hne⟩

theorem NewRound.transfer {db1 db2 db3 : Db} {k : Int} {r : AwdRound} (hq : Quiet db db1)
    (h : NewRound db1 db2 k r) (hn : db2.nextId ≤ db3.nextId)
    (hk : ∀ u ∈ db2.tasks, db.nextId ≤ u.id → u.status = .pending → u ∈ db3.tasks) : NewRound db db3 k r where
  number := h.number
  active := h.active
  remaining := h.remaining
  ends := by rw [h.ends, hq.now, hq.event]
  fresh := ⟨hq.nextId.trans h.fresh.1, h.fresh.2.trans_le hn⟩
  scheduled := by
    obtain ⟨u, hu, hp, he, hr, hid⟩ := h.scheduled
    have hid' := hq.nextId.trans hid
    have hpend : u.status = .pending := by
      simp only [ScheduledTask.isPending, decide_eq_true_eq] at hp
      exact hp.2
    exact ⟨u, hk u hu hid' hpend, hp, he, hr, hid'⟩

theorem RoundEnds.transfer {db1 db2 db3 : Db} {r : AwdRound} (hq : Quiet db db1)
    (h : RoundEnds db1 db2 r) (hq' : Quiet db2 db3)
    (hk : ∀ u ∈ db2.tasks, db.nextId ≤ u.id → u.status = .pending → u ∈ db3.tasks) : RoundEnds db db3 r := by
  cases h with
  | next hr hs hmore hm hnew =>
    rw [hq.event] at hs hmore
    rw [hq.now, hq.event] at hm
    exact .next (hq.rounds ▸ hr) hs hmore ((hq.trans hm).then_quiet hq')
      (hnew.transfer hq hq'.nextId hk)
  | last hr hl he hm =>
    rw [hq.event] at hl he
    rw [hq.now] at he hm
    exact .last (hq.rounds ▸ hr) hl he ((hq.trans hm).then_quiet hq')

/-- Trying to finish is quiet, or it finishes an event that is in its final settlement. -/
theorem maybeFinishEvent_moves (up : Ext → Bool) (db : Db) :
    Quiet db (maybeFinishEvent.run (answers up) db).1 ∨
    isFinalSettlement db.event (findLatestRound db.rounds) = true ∧
      Moves db (maybeFinishEvent.run (answers up) db).1
        (db.event.patched .finished (.finished db.now)) db.rounds := by
  rw [run_maybeFinishEvent]
  by_cases h : db.settles = true
  · rw [if_pos h]
    rw [Db.settles, Bool.and_eq_true] at h
    exact .inr ⟨h.1, setEvent_moves db _⟩
  · rw [if_neg h]
    exact .inl (Quiet.refl db)

/-- The batch deadline closes tasks and may finish the event. -/
theorem handleJudgeBatchDeadline_moves (up : Ext → Bool) (batchId : Nat) (db : Db) :
    Quiet db ((handleJudgeBatchDeadline batchId).run (answers up) db).1 ∨
    isFinalSettlement db.event (findLatestRound db.rounds) = true ∧
      Moves db ((handleJudgeBatchDeadline batchId).run (answers up) db).1
        (db.event.patched .finished (.finished db.now)) db.rounds := by
  have hq1 := quiet_run (terminalizeBatchDeadline_within minor_quiet batchId db.now) (answers up) db
  rcases h1 : (terminalizeBatchDeadline batchId db.now).run (answers up) db with ⟨db1, e | n⟩ <;>
    rw [h1] at hq1
  · left
    simpa [handleJudgeBatchDeadline, h1] using hq1
  · have hq2 := hq1.then_quiet (quiet_run (maybeCompleteBatch_within minor_quiet batchId) (answers up) db1)
    obtain ⟨db2, h2⟩ : ∃ d, d = ((maybeCompleteBatch batchId).run (answers up) db1).1 := ⟨_, rfl⟩
    rw [← h2] at hq2
    have hrun : ((handleJudgeBatchDeadline batchId).run (answers up) db).1 =
        (maybeFinishEvent.run (answers up) db2).1 := by
      simp [handleJudgeBatchDeadline, h1, h2]
    rw [hrun]
    rcases maybeFinishEvent_moves up db2 with hq | ⟨hf, hm⟩
    · exact .inl (hq2.then_quiet hq)
    · rw [hq2.event, hq2.rounds] at hf
      rw [hq2.event, hq2.now, hq2.rounds] at hm
      exact .inr ⟨hf, hq2.trans hm⟩

theorem handleRoundEnd_eq (payload : Option Nat) (db : Db) :
    ((handleRoundEnd payload).run (answers up) db).1 =
      if db.event.status = .networkError then db
      else match payload.or ((findActiveRound db.rounds).map (·.id)) with
        | none => db
        | some id => ((endRound id).run (answers up) db).1 := by
  cases payload with
  | some id => by_cases hs : db.event.status = .networkError <;> simp [handleRoundEnd, hs]
  | none =>
    cases hf : findActiveRound db.rounds with
    | none => by_cases hs : db.event.status = .networkError <;> simp [handleRoundEnd, hf, hs]
    | some r => by_cases hs : db.event.status = .networkError <;> simp [handleRoundEnd, hf, hs]

theorem deliver_step (h : Orderly db) (id : Nat) :
    Step db ((Op.deliver id up).apply db) (.deliver id up) := by
  cases hdue : db.dueTask id with
  | none =>
    have : (Op.deliver id up).apply db = db := deliver_none hdue
    rw [this]
    exact .idle ⟨by simp [Op.endedRound, hdue], by simp [Op.endsHardening, hdue]⟩ (Quiet.refl db)
  | some t =>
    obtain ⟨hmem, rfl, -, -⟩ := Db.dueTask_eq_some hdue
    obtain ⟨res, hres⟩ := deliver_some up hdue
    have hq := fetched_quiet db t.id
    have h1 := h.of_quiet hq
    have hlt := h.taskIds.2 t hmem
    obtain ⟨db2, hdb2⟩ : ∃ d, d = ((runHandler t).run (answers up) (db.fetched t.id)).1 :=
      ⟨_, rfl⟩
    have hq3 := marked_quiet db2 t res
    have hk : ∀ u ∈ db2.tasks, db.nextId ≤ u.id → u.status = .pending →
        u ∈ (db2.marked t res).tasks := fun u hu hle _ => mem_marked hu (hlt.trans_le hle).ne'
    have happly : (Op.deliver t.id up).apply db = db2.marked t res := by
      rw [hdb2]
      exact hres
    rw [happly]
    cases hkey : t.taskKey with
    | awdHardeningEnd =>
      have hrun : db2 = (handleHardeningEnd.run (answers up) (db.fetched t.id)).1 := by
        rw [hdb2, runHandler, hkey]
      by_cases ho : db.hardeningOver = true
      · have hp : db.event.phase = .hardening := by
          simp only [Db.hardeningOver, decide_eq_true_eq] at ho
          exact ho.2.1
        obtain ⟨r, hm, hnew⟩ := handleHardeningEnd_over up (db.fetched t.id) ho
          (h.hardening hp)
        rw [← hrun] at hm hnew
        exact .hardeningEnd (by simp [Op.endsHardening, hdue, hkey, ho])
          ((hq.trans hm).then_quiet hq3) (hnew.transfer hq hq3.nextId hk)
      · rw [Bool.not_eq_true] at ho
        have : db2 = db.fetched t.id := hrun.trans (handleHardeningEnd_early ho)
        subst this
        exact .idle ⟨by simp [Op.endedRound, hdue, hkey], by simp [Op.endsHardening, hdue, ho]⟩
          (hq.then_quiet hq3)
    | awdRoundEnd =>
      have hrun : db2 = ((handleRoundEnd t.roundId).run (answers up) (db.fetched t.id)).1 := by
        rw [hdb2, runHandler, hkey]
      rw [handleRoundEnd_eq, hq.event, hq.rounds] at hrun
      have hnh : (Op.deliver t.id up).endsHardening db = false := by
        simp [Op.endsHardening, hdue, hkey]
      by_cases hs : db.event.status = .networkError
      · rw [if_pos hs] at hrun
        subst hrun
        exact .idle ⟨by simp [Op.endedRound, hdue, hs], hnh⟩ (hq.then_quiet hq3)
      · rw [if_neg hs] at hrun
        have hend : (Op.deliver t.id up).endedRound db =
            (t.roundId.or ((findActiveRound db.rounds).map (·.id))).bind db.activeRound := by
          simp [Op.endedRound, hdue, hkey, hs]
        cases hid : t.roundId.or ((findActiveRound db.rounds).map (·.id)) with
        | none =>
          rw [hid] at hrun hend
          subst hrun
          exact .idle ⟨hend, hnh⟩ (hq.then_quiet hq3)
        | some rid =>
          rw [hid] at hrun hend
          cases hact : db.activeRound rid with
          | none =>
            have : db2 = db.fetched t.id := hrun.trans (endRound_idle hact)
            subst this
            exact .idle ⟨hend.trans hact, hnh⟩ (hq.then_quiet hq3)
          | some r =>
            have hends := endRound_ends up h1 (show (db.fetched t.id).activeRound rid = some r from hact)
            rw [← show db2 = ((endRound rid).run (answers up) (db.fetched t.id)).1 from hrun]
              at hends
            exact .endRound (hend.trans hact) (hends.transfer hq hq3 hk)
    | awdJudgeBatchDeadline =>
      have hidle : (Op.deliver t.id up).Inert db :=
        ⟨by simp [Op.endedRound, hdue, hkey], by simp [Op.endsHardening, hdue, hkey]⟩
      cases hb : t.batchId with
      | none =>
        have : db2 = db.fetched t.id := by
          rw [hdb2, runHandler, hkey, hb]
          rfl
        subst this
        exact .idle hidle (hq.then_quiet hq3)
      | some b =>
        have hrun : db2 = ((handleJudgeBatchDeadline b).run (answers up) (db.fetched t.id)).1 := by
          rw [hdb2, runHandler, hkey, hb]
        rcases handleJudgeBatchDeadline_moves up b (db.fetched t.id) with hm | ⟨hf, hm⟩ <;>
          rw [← hrun] at hm
        · exact .idle hidle ((hq.then_quiet hm).then_quiet hq3)
        · exact .finish hf ((hq.trans hm).then_quiet hq3)

/-! ## Restart recovery -/

theorem initAndRecover_quiet : initAndRecover.Within Quiet := by
  refine within_write Quiet.refl fun db => ⟨rfl, rfl, rfl, rfl, rfl, le_rfl, fun h => ?_⟩
  refine h.of_ids ?_ le_rfl
  rw [List.map_map]
  exact List.map_congr_left fun u _ => by
    dsimp only [Function.comp_apply]
    split_ifs <;> rfl

/-- What the recovery does to the lifecycle: nothing, the next round after a crash between two
rounds, or the settlement. -/
inductive Recovers (db db' : Db) : Prop
  | quiet (quiet : Quiet db db') : Recovers db db'
  | gap {rc : Int} {r : AwdRound} (status : db.event.status = .running)
      (phase : db.event.phase = .attack) (allDone : AllDone db.rounds)
      (count : db.event.roundCount = some rc) (more : db.rounds.length < rc)
      (moves : Moves db db' db.event (db.rounds ++ [r]))
      (new : NewRound db db' (db.rounds.length + 1) r) : Recovers db db'
  | finish (settled : isFinalSettlement db.event (findLatestRound db.rounds) = true)
      (moves : Moves db db' (db.event.patched .finished (.finished db.now)) db.rounds) :
      Recovers db db'

theorem Recovers.transfer {db1 db2 db3 : Db} (hq : Quiet db db1) (h : Recovers db1 db2)
    (hq' : Quiet db2 db3)
    (hk : ∀ u ∈ db2.tasks, db.nextId ≤ u.id → u.status = .pending → u ∈ db3.tasks) :
    Recovers db db3 := by
  cases h with
  | quiet h => exact .quiet ((hq.then_quiet h).then_quiet hq')
  | gap hs hp hd hc hm hmoves hnew =>
    rw [hq.event] at hs hp hc hmoves
    rw [hq.rounds] at hd hm hmoves hnew
    exact .gap hs hp hd hc hm ((hq.trans hmoves).then_quiet hq') (hnew.transfer hq hq'.nextId hk)
  | finish hf hm =>
    rw [hq.event, hq.rounds] at hf hm
    rw [hq.now] at hm
    exact .finish hf ((hq.trans hm).then_quiet hq')

theorem Recovers.then_quiet {db1 db2 : Db} (h : Recovers db db1) (hq : Quiet db1 db2)
    (hk : Keeps db1 db2) : Recovers db db2 :=
  h.transfer (Quiet.refl db) hq fun _ hu _ _ => hk hu

theorem recoverSettlement_open {r : AwdRound} (h : findActiveRound db.rounds = some r)
    (e : AwdEvent) : ((recoverSettlement e).run (answers up) db).1 = db := by
  by_cases hs : e.status = .running ∧ e.phase = .attack <;> simp [recoverSettlement, hs, h]

theorem recoverSettlement_recovers (up : Ext → Bool) (db : Db) :
    Recovers db ((recoverSettlement db.event).run (answers up) db).1 := by
  by_cases hs : db.event.status = .running ∧ db.event.phase = .attack
  swap
  · simp only [recoverSettlement, if_neg hs]
    exact .quiet (Quiet.refl db)
  cases hf : findActiveRound db.rounds with
  | some r =>
    rw [recoverSettlement_open hf]
    exact .quiet (Quiet.refl db)
  | none =>
    by_cases hfin : isFinalSettlement db.event (findLatestRound db.rounds) = true
    · have : ((recoverSettlement db.event).run (answers up) db).1 =
          (maybeFinishEvent.run (answers up) db).1 := by
        simp [recoverSettlement, hs, hf, hfin]
      rw [this]
      rcases maybeFinishEvent_moves up db with hq | ⟨hf, hm⟩
      · exact .quiet hq
      · exact .finish hf hm
    · have : ((recoverSettlement db.event).run (answers up) db).1 = db := by
        simp [recoverSettlement, hs, hf, hfin]
      rw [this]
      exact .quiet (Quiet.refl db)

theorem restoreRoundScheduling_recovers (up : Ext → Bool) (h : Orderly db) :
    Quiet db (restoreRoundScheduling.run (answers up) db).1 ∨
    ∃ rc r, db.event.status = .running ∧ db.event.phase = .attack ∧ AllDone db.rounds ∧
      db.event.roundCount = some rc ∧ db.rounds.length < rc ∧
      Moves db (restoreRoundScheduling.run (answers up) db).1 db.event (db.rounds ++ [r]) ∧
      NewRound db (restoreRoundScheduling.run (answers up) db).1 (db.rounds.length + 1) r := by
  cases hf : findActiveRound db.rounds with
  | some r =>
    left
    by_cases hr : r.status = .active
    · rw [run_restoreRoundScheduling_active up hf hr]
      split_ifs
      · exact Quiet.refl db
      · exact minor_quiet.schedule _ _ _ _ _
    · rw [run_restoreRoundScheduling_paused up hf hr]
      exact Quiet.refl db
  | none =>
    have hd := allDone_of_findActiveRound hf
    by_cases hs : db.event.status = .running ∧ db.event.phase = .attack
    · obtain ⟨rc, hc, -⟩ := h.count (by rw [hs.1]; decide) (by rw [hs.1]; decide)
      rw [run_restoreRoundScheduling_gap up hs.1 hs.2 h.table hd hc]
      by_cases hlt : (db.rounds.length : Int) < rc
      · rw [if_pos hlt]
        obtain ⟨r, hm, hnew⟩ := (Quiet.refl db).then_withRound rfl (db.rounds.length + 1)
        exact .inr ⟨rc, r, hs.1, hs.2, hd, hc, hlt, hm, hnew⟩
      · rw [if_neg hlt]
        exact .inl (Quiet.refl db)
    · rw [run_restoreRoundScheduling_none up hf hs]
      exact .inl (Quiet.refl db)

/-- A step of the recovery after which its quiet rest follows. -/
theorem recovers_bind {α β : Type} {p : AwdM α} {f : α → AwdM β}
    (hp : Recovers db (p.run (answers up) db').1)
    (hf : ∀ a, (f a).Within Quiet ∧ (f a).Within Keeps) :
    Recovers db ((p >>= f).run (answers up) db').1 := by
  rw [Prog.run_bind]
  rcases hr : p.run (answers up) db' with ⟨db1, e | a⟩ <;> rw [hr] at hp
  · exact hp
  · exact hp.then_quiet (quiet_run (hf a).1 _ db1)
      (Prog.run_within _ Keeps.refl Keeps.trans (hf a).2 db1)

theorem recoverSchedules_recovers (up : Ext → Bool) (h : Orderly db) :
    Recovers db ((recoverSchedules db.event).run (answers up) db).1 := by
  have hrest (n m : Nat) : ((do
      let lockdown ← recoverFinished db.event
      pure (n + m + lockdown)) : AwdM Nat).Within Quiet ∧ ((do
      let lockdown ← recoverFinished db.event
      pure (n + m + lockdown)) : AwdM Nat).Within Keeps :=
    ⟨Prog.does_bind (recoverFinished_within Quiet.refl _) fun _ => Prog.does_pure _,
      Prog.does_bind (recoverFinished_within Keeps.refl _) fun _ => Prog.does_pure _⟩
  rcases restoreRoundScheduling_recovers up h with hq | ⟨rc, r, hs, hp, hd, hc, hlt, hm, hn⟩
  · rw [recoverSchedules, Prog.run_bind]
    rcases hr : restoreRoundScheduling.run (answers up) db with ⟨db1, e | n⟩ <;> rw [hr] at hq
    · exact .quiet hq
    · refine quiet_bind (restoreBatchDeadlines_within minor_quiet.toSlight)
        (fun db2 h2 => .quiet (hq.then_quiet h2)) fun m db2 h2 => ?_
      have hq2 : Quiet db db2 := hq.then_quiet h2
      have hset : Recovers db2 ((recoverSettlement db.event).run (answers up) db2).1 := by
        have := recoverSettlement_recovers up db2
        rwa [hq2.event] at this
      exact (recovers_bind hset fun _ => hrest n m).transfer hq2 (Quiet.refl _)
        fun _ hu _ _ => hu
  · have hgap := Recovers.gap hs hp hd hc hlt hm hn
    rw [recoverSchedules, Prog.run_bind]
    rcases hr : restoreRoundScheduling.run (answers up) db with ⟨db1, e | n⟩ <;>
      rw [hr] at hm hgap
    · exact hgap
    · have hq2 := quiet_run (restoreBatchDeadlines_within minor_quiet.toSlight) (answers up) db1
      have hk2 := Prog.run_within (answers up) Keeps.refl Keeps.trans
        (restoreBatchDeadlines_within minor_keeps.toSlight) db1
      dsimp only
      rw [Prog.run_bind]
      rcases hb : restoreBatchDeadlines.run (answers up) db1 with ⟨db2, e | m⟩ <;>
        rw [hb] at hq2 hk2
      · exact hgap.then_quiet hq2 hk2
      · -- the new round is open, so there is nothing to settle
        have hopen : findActiveRound db2.rounds = some r := by
          rw [hq2.rounds, hm.rounds]
          exact findActiveRound_last hd (r.isOpen_iff.2 (by rw [hn.active]; decide))
        refine recovers_bind ?_ fun _ => hrest n m
        rw [recoverSettlement_open hopen]
        exact hgap.then_quiet hq2 hk2

theorem recoverEvent_recovers (h : Orderly db) (host : Host) :
    Recovers db ((recoverEvent host db.event).run (answers up) db).1 := by
  refine quiet_bind (reconcileContainers_within minor_quiet.toSlight host) (fun _ => .quiet) fun _ db1 h1 => ?_
  refine quiet_bind (restoreWireguard_within minor_quiet.toSlight host) (fun _ h2 => .quiet (h1.then_quiet h2))
    fun _ db2 h2 => ?_
  refine quiet_bind (within_nextNetworkRevision Quiet.refl)
    (fun _ hr => .quiet ((h1.then_quiet h2).then_quiet hr)) fun _ dbr hr => ?_
  replace h2 := h2.then_quiet hr
  refine quiet_bind (within_reconcileGlobal Quiet.refl _)
    (fun _ h3 => .quiet ((h1.then_quiet h2).then_quiet h3)) fun _ db3 h3 => ?_
  refine quiet_bind (restoreHardeningEnd_within minor_quiet.toSlight db.event)
    (fun _ h4 => .quiet (((h1.then_quiet h2).then_quiet h3).then_quiet h4)) fun _ db4 h4 => ?_
  have hq : Quiet db db4 := ((h1.then_quiet h2).then_quiet h3).then_quiet h4
  have hsched := recoverSchedules_recovers up (h.of_quiet hq)
  rw [hq.event] at hsched
  refine Recovers.transfer hq ?_ (Quiet.refl _) fun _ hu _ _ => hu
  exact recovers_bind hsched fun _ => ⟨Prog.does_pure _, Prog.does_pure _⟩

theorem recoverAll_recovers (up : Ext → Bool) (h : Orderly db) (host : Host) :
    Recovers db ((recoverAll host).run (answers up) db).1 := by
  by_cases hs : db.event.status.isRecovered = true
  · have : ((recoverAll host).run (answers up) db).1 =
        ((recoverEvent host db.event).run (answers up) db).1 := by
      simp [recoverAll, hs, h.networkRow]
    rw [this]
    exact recoverEvent_recovers h host
  · have : ((recoverAll host).run (answers up) db).1 = db := by simp [recoverAll, hs]
    rw [this]
    exact .quiet (Quiet.refl db)

theorem restart_step (h : Orderly db) (host : Host) :
    Step db ((Op.restart host up).apply db) (.restart host up) := by
  obtain ⟨db1, hdb1⟩ : ∃ d, d = ((recoverAll host).run (answers up) db).1 := ⟨_, rfl⟩
  have hrec := recoverAll_recovers up h host
  have hq := quiet_run initAndRecover_quiet (answers up) db1
  have hinit : (initAndRecover.run (answers up) db1).1 =
      { db1 with tasks := db1.tasks.map fun t =>
          if t.status = .running then { t with status := .pending } else t } := by
    rw [initAndRecover, run_write up rfl]
  have happly : (Op.restart host up).apply db = (initAndRecover.run (answers up) db1).1 := by
    simp [Op.apply, restart, hdb1]
  rw [← hdb1] at hrec
  rw [happly]
  have hk : ∀ u ∈ db1.tasks, db.nextId ≤ u.id → u.status = .pending →
      u ∈ (initAndRecover.run (answers up) db1).1.tasks := by
    intro u hu _ hp
    rw [hinit]
    exact List.mem_map.2 ⟨u, hu, if_neg (by rw [hp]; decide)⟩
  have hall := hrec.transfer (Quiet.refl db) hq hk
  cases hall with
  | quiet h => exact .idle ⟨rfl, rfl⟩ h
  | gap hs hp hd hc hm hmoves hnew => exact .gap hs hp hd hc hm hmoves hnew
  | finish hf hm => exact .finish hf hm

/-- Every operation other than the passing of time makes a lifecycle step. -/
theorem step_of_op (h : Orderly db) {op : Op} (hop : ∀ d, op ≠ .tick d) :
    Step db (op.apply db) op := by
  cases op with
  | tick d => exact absurd rfl (hop d)
  | startEvent up => exact startEvent_step h
  | pauseEvent up => exact pauseEvent_step h
  | resumeEvent up => exact resumeEvent_step h
  | networkError => exact networkError_step h
  | deliver id up => exact deliver_step h id
  | endRound id up => exact endRound_step h id
  | hardeningEnd up => exact hardeningEnd_step h
  | restart host up => exact restart_step h host

end FloatCtf.Awd
