import FloatCtf.Awd.HardeningClock
import FloatCtf.Awd.PendingTasks

/-!
# A running event has a task that moves it on

A running event waits for the scheduler: in its hardening stage for the task at `hardening_ends_at`,
in its attack phase for the task at the end of the active round.  A resume can leave it without one:
it keeps whatever round task is pending, also one of the old schedule (`resume_keeps_stale_task`),
and when no hardening time is left it enters the attack phase without a round.
`noStall_run` shows that nothing else does.
-/

namespace FloatCtf.Awd

open Process

/-- A running event has the task that will move it on, or waits for its settlement only. -/
structure NoStall (db : Db) : Prop where
  hardening : db.event.status = .running → db.event.phase = .hardening →
    ∃ deadline ∈ db.event.hardeningEndsAt, db.Scheduled 0 .awdHardeningEnd deadline none
  attack : db.event.status = .running → db.event.phase = .attack →
    (∃ r ∈ db.rounds, r.status = .active ∧
      db.Scheduled 0 .awdRoundEnd r.scheduledEndAt (some r.id)) ∨ db.FinalSettlement

/-! ## The stale task -/

/-- The round of 100 seconds starts at 0; the event is paused from second 10 to second 60. -/
def staleScheduleRun : List Op :=
  [.startEvent allUp, .tick 10000000, .pauseEvent allUp, .tick 50000000, .resumeEvent allUp]

theorem resume_keeps_stale_task : Fresh oneRoundDb ∧
    ¬ NoStall (staleScheduleRun.foldl World.step (World.initial oneRoundDb)).db := by
  refine ⟨⟨rfl, rfl, rfl, rfl, rfl⟩, fun h => ?_⟩
  have hround := h.attack (by decide +kernel) (by decide +kernel)
  revert hround
  unfold Db.FinalSettlement Db.Scheduled
  decide +kernel

/-! ## The steps that keep the event moving -/

/-- A resume finds hardening time, or in the attack phase either no pending round task or the one
that belongs to the new end of the open round. -/
def KeepsMoving (db : Db) : Op → Prop
  | .resumeEvent up => up .resumeEvent = true → db.resumable = true →
    (db.event.pausedPhase = some .hardening → 0 < db.event.pauseRemainingSecs.getD 0) ∧
    (db.event.pausedPhase = some .attack → ∀ r ∈ findActiveRound db.rounds,
      db.hasPending .awdRoundEnd = true → db.Scheduled 0 .awdRoundEnd
        (db.now + r.remainingSecs.getD db.event.roundDurationSecs * sec) (some r.id))
  | _ => True

instance (db : Db) (n : Nat) (key : TaskKey) (t : Int) (r : Option Nat) :
    Decidable (db.Scheduled n key t r) := inferInstanceAs (Decidable (∃ t ∈ db.tasks, _))

instance (db : Db) (op : Op) : Decidable (KeepsMoving db op) :=
  match op with
  | .resumeEvent _ =>
    inferInstanceAs (Decidable (_ → _ → (_ → _) ∧ (_ → ∀ r ∈ findActiveRound db.rounds, _ → _)))
  | .tick _ | .startEvent _ | .pauseEvent _ | .networkError | .deliver _ _ | .endRound _ _
  | .hardeningEnd _ | .restart _ _ => inferInstanceAs (Decidable True)

variable {db db' : Db} {op : Op}

/-! ## The waiting task outlives a step that does nothing -/

theorem Db.dueTask_self (hids : TaskIds db) {t : ScheduledTask} (ht : t ∈ db.tasks)
    (hp : t.status = .pending) (hdue : t.executeAt ≤ db.now) : db.dueTask t.id = some t := by
  cases hf : db.dueTask t.id with
  | none =>
    rw [Db.dueTask, List.find?_eq_none] at hf
    exact absurd (by simp [hp, hdue]) (hf t ht)
  | some u =>
    obtain ⟨hu, hid, -⟩ := Db.dueTask_eq_some hf
    rw [List.inj_on_of_nodup_map hids.1 hu ht hid]

/-- What a running event waits for does not get lost when an operation finds nothing to do: a
delivery of the task itself, once it is due, is not such an operation. -/
theorem Db.Scheduled.of_inert {key : TaskKey} {executeAt : Int} {roundId : Option Nat}
    (hsch : db.Scheduled 0 key executeAt roundId) (hids : TaskIds db)
    (hs : db.event.status = .running) (hinert : op.Inert db)
    (hacts : ∀ t up, db.dueTask t.id = some t → t.taskKey = key → t.executeAt = executeAt →
      t.roundId = roundId → ¬ (Op.deliver t.id up).Inert db) :
    (op.apply db).Scheduled 0 key executeAt roundId := by
  obtain ⟨t, ht, hpend, hat, hrid, -⟩ := hsch
  refine ⟨t, ?_, hpend, hat, hrid, Nat.zero_le _⟩
  simp only [ScheduledTask.isPending, decide_eq_true_eq] at hpend
  by_cases hself : ∃ up, op = .deliver t.id up
  · obtain ⟨up, rfl⟩ := hself
    rcases le_or_gt t.executeAt db.now with hdue | hlate
    · exact absurd hinert (hacts t up (Db.dueTask_self hids ht hpend.2 hdue) hpend.1 hat hrid)
    · have : (Op.deliver t.id up).apply db = db :=
        deliver_none (Db.dueTask_eq_none hids ht hlate)
      rwa [this]
  · refine Op.keeps_pending ht hpend.2 ?_ fun up h => hself ⟨up, h⟩
    cases op with
    | pauseEvent up => exact absurd hs hinert
    | networkError => exact hinert.elim
    | _ => rfl

theorem Db.activeRound_of_mem (ht : RoundTable db.rounds db.nextId) {r : AwdRound}
    (hr : r ∈ db.rounds) (hact : r.status = .active) : db.activeRound r.id = some r := by
  have hopen : r.isOpen = true := by simp [AwdRound.isOpen, RoundStatus.isOpen, hact]
  obtain ⟨done, he, -⟩ := ht.eq_of_open hr hopen
  rw [he] at ht
  rw [Db.activeRound, he, findRoundById_last ht]
  simp [hact]

theorem NoStall.of_inert (h : NoStall db) (ho : Orderly db) (hinert : op.Inert db)
    (hq : Quiet db (op.apply db)) : NoStall (op.apply db) where
  hardening hs hp := by
    rw [hq.event] at hs hp ⊢
    obtain ⟨deadline, he, hsch⟩ := h.hardening hs hp
    refine ⟨deadline, he, hsch.of_inert ho.taskIds hs hinert fun t up hdue hkey hat _ hidle => ?_⟩
    have hend := (Db.dueTask_eq_some hdue).2.2.2
    have hover : db.hardeningOver = true := by
      rw [Db.hardeningOver_iff, Option.mem_def.1 he]
      simpa [hs, hp, ← hat] using hend
    have := hidle.2
    simp [Op.endsHardening, hdue, hkey, hover] at this
  attack hs hp := by
    rw [hq.event] at hs hp
    refine (h.attack hs hp).imp ?_ fun hf => ?_
    · rintro ⟨r, hr, hact, hsch⟩
      rw [hq.rounds]
      refine ⟨r, hr, hact, hsch.of_inert ho.taskIds hs hinert fun t up hdue hkey _ hrid hidle => ?_⟩
      have := hidle.1
      simp [Op.endedRound, hdue, hkey, hs, hrid, Db.activeRound_of_mem ho.table hr hact] at this
    · unfold Db.FinalSettlement at hf ⊢
      rwa [hq.rounds, hq.event]

/-! ## One step -/

theorem noStall_of_status (hs : db.event.status ≠ .running) : NoStall db :=
  ⟨fun h => absurd h hs, fun h => absurd h hs⟩

theorem noStall_hardening {deadline : Int} (hp : db.event.phase = .hardening)
    (he : db.event.hardeningEndsAt = some deadline) {n : Nat}
    (hsch : db.Scheduled n .awdHardeningEnd deadline none) : NoStall db where
  hardening _ _ := ⟨deadline, he, hsch.mono (Nat.zero_le n)⟩
  attack _ h := by
    rw [hp] at h
    cases h

theorem noStall_attack (hp : db.event.phase = .attack)
    (h : (∃ r ∈ db.rounds, r.status = .active ∧
      db.Scheduled 0 .awdRoundEnd r.scheduledEndAt (some r.id)) ∨ db.FinalSettlement) :
    NoStall db where
  hardening _ h := by
    rw [hp] at h
    cases h
  attack _ _ := h

theorem NewRound.noStall {k : Int} {r : AwdRound} (h : NewRound db db' k r)
    (hp : db'.event.phase = .attack) (hr : r ∈ db'.rounds) : NoStall db' :=
  noStall_attack hp (.inl ⟨r, hr, h.active, h.scheduled.mono (Nat.zero_le _)⟩)

/-- Between two rounds, with as many rounds behind it as are configured. -/
theorem Orderly.finalSettlement (h : Orderly db) (hd : AllDone db.rounds) {rc : Int}
    (hc : db.event.roundCount = some rc) (hpos : 0 < rc) (hle : rc ≤ db.rounds.length)
    (hs : db.event.status = .running) : db.FinalSettlement := by
  obtain ⟨rc', hc', -, hle'⟩ := h.count (by simp [hs]) (by simp [hs])
  rw [hc] at hc'
  cases hc'
  refine ⟨fun r hr => ?_, rc, hc, ?_⟩
  · simp [AwdRound.isOpen, RoundStatus.isOpen, hd r hr]
  · rcases List.eq_nil_or_concat' db.rounds with hnil | ⟨done, r, he⟩
    · rw [hnil, List.length_nil] at hle
      omega
    · have ht := h.table
      rw [he] at ht hle hle'
      have hnum := ht.number_last
      rw [List.length_append, List.length_singleton] at hle hle'
      exact ⟨r, by simp [he], by omega, hd r (by simp [he])⟩

theorem noStall_of_roundEnds (ho : Orderly db) (ho' : Orderly db') {r : AwdRound}
    (hends : RoundEnds db db' r) : NoStall db' := by
  cases hends with
  | next he hs _ hm hnew =>
    exact hnew.noStall (hm.event ▸ ho.phase_attack hs (by simp [he])) (by simp [hm.rounds])
  | @last done e he hlast hev hm =>
    by_cases hs : db'.event.status = .running
    swap
    · exact noStall_of_status hs
    have hrow : db'.event = db.event := by
      rcases hev with rfl | ⟨-, rfl⟩
      · exact hm.event
      · rw [hm.event] at hs
        simp [AwdEvent.patched] at hs
    have ht := ho.table
    rw [he] at ht
    rw [hrow] at hs
    obtain ⟨rc, hc, hle⟩ := hlast hs
    obtain ⟨rc', hc', hpos, -⟩ := ho.count (by simp [hs]) (by simp [hs])
    rw [hc] at hc'
    cases hc'
    refine noStall_attack (hrow ▸ ho.phase_attack hs (by simp [he])) (.inr ?_)
    refine ho'.finalSettlement ?_ (by rw [hrow, hc]) hpos ?_ (hrow ▸ hs)
    · rw [hm.rounds]
      exact allDone_concat ht.allDone_init rfl
    · have hnum := ht.number_last
      rw [hm.rounds, List.length_append, List.length_singleton]
      push_cast
      omega

theorem noStall_step (ho : Orderly db) (h : NoStall db) (hc : KeepsMoving db op)
    (hstep : Step db (op.apply db) op) : NoStall (op.apply db) := by
  have ho' : Orderly (op.apply db) := orderly_of_step ho hstep
  cases hstep with
  | idle hinert hq => exact h.of_inert ho hinert hq
  | block _ hm => exact noStall_of_status (by simp [hm.event, AwdEvent.patched])
  | startHardening _ _ _ hm hsch =>
    exact noStall_hardening (by simp [hm.event, AwdEvent.patched])
      (by simp [hm.event, AwdEvent.patched]) hsch
  | startAttack _ _ _ hm hnew =>
    exact hnew.noStall (by simp [hm.event, AwdEvent.patched]) (by simp [hm.rounds])
  | suspend _ _ hstop hm =>
    refine noStall_of_status ?_
    rcases hstop with rfl | rfl <;> simp [hm.event, AwdEvent.suspended]
  | errorOnPaused _ hm => exact noStall_of_status (by simp [hm.event, AwdEvent.suspended])
  | errorRefused hs hm => exact noStall_of_status (by simpa [hm.event] using hs.1)
  | resumeHardening _ _ _ _ hm hsch =>
    exact noStall_hardening (by simp [hm.event, AwdEvent.resumed])
      (by simp [hm.event, AwdEvent.resumed]) hsch
  | @resumeExhausted up hres hq hrem hm =>
    by_cases hx : up .resumeEvent = true
    · exact absurd ((hc hx hres).1 hq) (by omega)
    · exact noStall_of_status (by simp [hm.event, AwdEvent.resumed, hx])
  | @resumeRound up done r newEnd hres hq he hopen hends hm hsch =>
    by_cases hx : up .resumeEvent = true
    swap
    · exact noStall_of_status (by simp [hm.event, AwdEvent.resumed, hx])
    refine noStall_attack (by simp [hm.event, AwdEvent.resumed]) (.inl ⟨resumedRound newEnd r,
      by simp [hm.rounds], rfl, ?_⟩)
    by_cases hpend : db.hasPending .awdRoundEnd = true
    · have ht := ho.table
      rw [he] at ht
      have hfind : findActiveRound db.rounds = some r := by
        rw [he]
        exact findActiveRound_last ht.allDone_init hopen
      obtain ⟨t, ht, hp, hat, hrid, h0⟩ := (hc hx hres).2 hq r hfind hpend
      have hst : t.status = .pending := by
        simp only [ScheduledTask.isPending, decide_eq_true_eq] at hp
        exact hp.2
      exact ⟨t, Op.keeps_pending ht hst rfl (fun _ hop => by cases hop), hp,
        hat.trans hends.symm, hrid, h0⟩
    · exact (hsch hx (by simpa using hpend)).mono (Nat.zero_le _)
  | @resumeBetween up hres _ hd hlast hm =>
    by_cases hx : up .resumeEvent = true
    swap
    · exact noStall_of_status (by simp [hm.event, AwdEvent.resumed, hx])
    obtain ⟨rc, hrc, hpos, -⟩ := ho.count
      (by rcases Db.resumable_iff.1 hres with hs | hs <;> simp [hs])
      (by rcases Db.resumable_iff.1 hres with hs | hs <;> simp [hs])
    refine noStall_attack (by simp [hm.event, AwdEvent.resumed]) (.inr ?_)
    refine ho'.finalSettlement (hm.rounds ▸ hd) (by rw [hm.event]; exact hrc) hpos ?_
      (by simp [hm.event, AwdEvent.resumed, hx])
    rw [hm.rounds]
    exact hlast hx rc hrc hpos
  | resumeGap _ _ _ _ _ hm hnew =>
    exact hnew.noStall (by simp [hm.event, AwdEvent.resumed]) (by simp [hm.rounds])
  | hardeningEnd _ hm hnew =>
    exact hnew.noStall (by simp [hm.event, AwdEvent.inAttack]) (by simp [hm.rounds])
  | endRound _ hends => exact noStall_of_roundEnds ho ho' hends
  | gap _ hp _ _ _ hm hnew => exact hnew.noStall (by rw [hm.event, hp]) (by simp [hm.rounds])
  | finish _ hm => exact noStall_of_status (by simp [hm.event, AwdEvent.patched])

/-! ## Runs -/

/-- In every run from a fresh event in which a resume finds no stale round task and some hardening
time left, a running event has the task that moves it on after every operation. -/
theorem noStall_run {db : Db} (hdb : Fresh db) {ops : List Op}
    (hops : Along World.step (fun w op => KeepsMoving w.db op) (World.initial db) ops) :
    NoStall (ops.foldl World.step (World.initial db)).db := by
  have hinit : Orderly (World.initial db).db ∧ NoStall (World.initial db).db :=
    ⟨hdb.orderly, noStall_of_status (by simp [World.initial, hdb.status])⟩
  refine (inv_of_along (fun w => Orderly w.db ∧ NoStall w.db) ?_ hinit hops).2
  rintro w op ⟨ho, h⟩ hc
  refine ⟨ho.apply op, ?_⟩
  rcases step_or_tick ho op with ⟨d, rfl⟩ | ⟨-, hstep⟩
  · exact ⟨h.hardening, h.attack⟩
  · exact noStall_step ho h hc hstep

/-- The task of the old schedule is dropped while the event is paused, so the resume makes a new
one. -/
def rescheduledRun : List Op :=
  [.startEvent allUp, .tick 10000000, .pauseEvent allUp, .tick 95000000, .deliver 12 allUp,
    .resumeEvent allUp]

theorem noStall_rescheduledRun :
    (rescheduledRun.foldl World.step (World.initial oneRoundDb)).db.event.status = .running ∧
    NoStall (rescheduledRun.foldl World.step (World.initial oneRoundDb)).db :=
  ⟨by decide +kernel, noStall_run ⟨rfl, rfl, rfl, rfl, rfl⟩ (by decide +kernel)⟩

end FloatCtf.Awd
