import FloatCtf.Awd.RoundClock

/-!
# The hardening clock

The attack phase should begin only after the event has run for the whole hardening duration.  The
time a pause saves is consumed by the transaction that sets the event running again, and the
network reconcile that follows may fail: the event is then in its error state with no time saved,
and the next resume goes straight to the attack phase (`failedResume_loses_hardening`).
`hardeningClock_run` gives the steps that have to be avoided.
-/

namespace FloatCtf.Awd

open Process

/-- The hardening duration of the event's configuration, zero if `start_event` refuses it. -/
def hardeningDuration (g : GenericEvent) (e : AwdEvent) : Int :=
  match computeTiming g.startTime g.endTime e.roundCount e.roundDurationSecs with
  | .ok t => t.hardeningDurationSecs
  | .error _ => 0

/-- The attack phase has come only after the whole hardening duration. -/
def HardeningClock (w : World) : Prop :=
  w.db.event.phase = .attack →
    hardeningDuration w.db.generic w.db.event * sec ≤ w.hardeningRun

instance (w : World) : Decidable (HardeningClock w) := inferInstanceAs (Decidable (_ → _))

/-! ## The failed resume -/

/-- The event of `oneRoundDb` with 100 seconds more, which are its hardening stage. -/
def hardeningDb : Db :=
  { oneRoundDb with generic := { startTime := 0, endTime := some (200 * sec) } }

/-- The network is down. -/
def allDown : Ext → Bool := fun _ => false

/-- The event is paused after 10 of its 100 hardening seconds, and the network is down when it is
resumed for the first time. -/
def failedResumeRun : List Op :=
  [.startEvent allUp, .tick 10000000, .pauseEvent allUp, .resumeEvent allDown, .resumeEvent allUp]

theorem failedResume_loses_hardening : Fresh hardeningDb ∧
    ¬ HardeningClock (failedResumeRun.foldl World.step (World.initial hardeningDb)) :=
  ⟨⟨rfl, rfl, rfl, rfl, rfl⟩, by decide +kernel⟩

/-! ## The steps that keep the clock right -/

/-- The hardening stage is stopped at a whole number of seconds before its end, and an event whose
last resume failed in the hardening stage is not resumed. -/
def KeepsHardeningClock (db : Db) (op : Op) : Prop :=
  db.event.phase = .hardening →
    (op.suspends = true → db.event.status = .running →
      ∀ deadline ∈ db.event.hardeningEndsAt, WholeSecs deadline db.now) ∧
    (op.resumes = true → db.event.status ≠ .networkError)

instance (db : Db) (op : Op) : Decidable (KeepsHardeningClock db op) :=
  inferInstanceAs (Decidable (_ → (_ → _ → ∀ deadline ∈ db.event.hardeningEndsAt, _) ∧ (_ → _)))

/-- How far the hardening stage is: the time it ran and the time it has left make up the duration
`h`. -/
structure HardeningOk (e : AwdEvent) (now run h : Int) : Prop where
  unstarted : e.status = .verified ∨ e.status = .startBlocked → e.phase = .hardening
  running : e.status = .running → e.phase = .hardening →
    ∃ deadline, e.hardeningEndsAt = some deadline ∧ h ≤ run + (deadline - now)
  attack : e.phase = .attack → h ≤ run
  savedHardening : e.status = .paused ∨ e.status = .networkError → e.phase = .pause →
    e.pausedPhase = some .hardening → h ≤ run + e.pauseRemainingSecs.getD 0 * sec
  savedAttack : e.status = .paused ∨ e.status = .networkError →
    e.pausedPhase = some .attack → h ≤ run

/-- The hardening stage of a database is where the clock says. -/
def Db.HardeningOk (db : Db) (run : Int) : Prop :=
  Awd.HardeningOk db.event db.now run (hardeningDuration db.generic db.event * sec)

/-- The invariant of the runs that meet `KeepsHardeningClock`. -/
structure HardeningClockInv (w : World) : Prop where
  orderly : Orderly w.db
  nonneg : 0 ≤ w.hardeningRun
  clock : w.db.HardeningOk w.hardeningRun

/-! ## One step -/

section Rows

variable {e : AwdEvent} {now run h : Int}

/-- An event in its attack phase, with the hardening duration behind it. -/
theorem hardeningOk_attack (hp : e.phase = .attack)
    (hs : e.status ≠ .verified ∧ e.status ≠ .startBlocked) (hle : h ≤ run) :
    HardeningOk e now run h where
  unstarted hu := absurd hu (not_or.2 hs)
  running _ hq := by
    rw [hp] at hq
    cases hq
  attack _ := hle
  savedHardening _ hq := by
    rw [hp] at hq
    cases hq
  savedAttack _ _ := hle

/-- The hardening stage of a running event. -/
theorem hardeningOk_hardening {deadline : Int} (hp : e.phase = .hardening)
    (hs : e.status = .running) (he : e.hardeningEndsAt = some deadline)
    (hle : h ≤ run + (deadline - now)) : HardeningOk e now run h where
  unstarted _ := hp
  running _ _ := ⟨deadline, he, hle⟩
  attack hq := by
    rw [hp] at hq
    cases hq
  savedHardening hq := by simp [hs] at hq
  savedAttack hq := by simp [hs] at hq

/-- A failed resume of the hardening stage leaves nothing to promise. -/
theorem hardeningOk_failed (hp : e.phase = .hardening) (hs : e.status = .networkError)
    (hq : e.pausedPhase = some .hardening) : HardeningOk e now run h where
  unstarted _ := hp
  running hr := by simp [hs] at hr
  attack hr := by simp [hp] at hr
  savedHardening _ hr := by simp [hp] at hr
  savedAttack _ hr := by simp [hq] at hr

/-- An event that is stopped in its hardening stage saves the time that is left of it. -/
theorem HardeningOk.suspended {stop : AwdEventStatus} {s : Int} (hok : HardeningOk e now run h)
    (hstop : stop = .paused ∨ stop = .networkError)
    (hs : e.phase = .hardening → h ≤ run + s * sec) :
    HardeningOk (e.suspended stop s) now run h where
  unstarted hu := by rcases hstop with rfl | rfl <;> simp [AwdEvent.suspended] at hu
  running hr := by rcases hstop with rfl | rfl <;> simp [AwdEvent.suspended] at hr
  attack hr := by simp [AwdEvent.suspended] at hr
  savedHardening _ _ hq := hs (Option.some.inj hq)
  savedAttack _ hq := hok.attack (Option.some.inj hq)

theorem HardeningOk.finished (hok : HardeningOk e now run h) :
    HardeningOk (e.patched .finished (.finished now)) now run h where
  unstarted hu := by simp [AwdEvent.patched] at hu
  running hr := by simp [AwdEvent.patched] at hr
  attack hr := hok.attack hr
  savedHardening hr := by simp [AwdEvent.patched] at hr
  savedAttack hr := by simp [AwdEvent.patched] at hr

end Rows

section Step

variable {db db' : Db} {op : Op} {run : Int}

theorem Moves.hardeningOk {e : AwdEvent} {rs : List AwdRound} (hm : Moves db db' e rs)
    (hd : hardeningDuration db.generic e = hardeningDuration db.generic db.event)
    (h : HardeningOk e db.now run (hardeningDuration db.generic db.event * sec)) :
    db'.HardeningOk run := by
  rw [Db.HardeningOk, hm.event, hm.now, hm.generic, hd]
  exact h

/-- What a resume finds: the saved time is what is missing, or the event is in its attack phase. -/
theorem saved_of_resumable (ho : Orderly db) (h : db.HardeningOk run)
    (hc : db.event.phase = .hardening → db.event.status ≠ .networkError)
    (hres : db.resumable = true) (hq : db.event.pausedPhase = some .hardening) :
    hardeningDuration db.generic db.event * sec ≤
      run + max (db.event.pauseRemainingSecs.getD 0) 0 * sec := by
  rw [Db.resumable_iff] at hres
  unfold sec at *
  cases hp : db.event.phase with
  | hardening =>
    rcases hres with hs | hs
    · rw [ho.paused hs] at hp
      cases hp
    · exact absurd hs (hc hp)
  | attack =>
    have := h.attack hp
    unfold sec at this
    omega
  | pause =>
    have := h.savedHardening hres hp hq
    unfold sec at this
    omega

theorem hardeningOk_step (ho : Orderly db) (hrun : 0 ≤ run) (h : db.HardeningOk run)
    (hc : KeepsHardeningClock db op) (hstep : Step db db' op) : db'.HardeningOk run := by
  cases hstep with
  | idle _ hq => exact hq.hardeningOk rfl h
  | block hs hm =>
    have hp := h.unstarted (.inl hs)
    refine hm.hardeningOk rfl ⟨fun _ => hp, ?_, ?_, ?_, ?_⟩ <;>
      simp [AwdEvent.patched, TransitionPatch.configChanged, hp]
  | startHardening _ ht hlong hm _ =>
    refine hm.hardeningOk rfl (hardeningOk_hardening rfl rfl rfl ?_)
    rw [hardeningDuration, ht]
    dsimp only
    omega
  | startAttack _ ht hshort hm _ =>
    refine hm.hardeningOk rfl (hardeningOk_attack rfl ⟨by simp [AwdEvent.patched],
      by simp [AwdEvent.patched]⟩ ?_)
    rw [hardeningDuration, ht]
    have : _ * sec ≤ 0 := mul_nonpos_of_nonpos_of_nonneg hshort (by decide)
    exact this.trans hrun
  | suspend hsusp hs hstop hm =>
    refine hm.hardeningOk rfl (HardeningOk.suspended h hstop fun hp => ?_)
    obtain ⟨deadline, he, hle⟩ := h.running hs hp
    have hw := (le_remainingSecs_mul ((hc hp).1 hsusp hs deadline he)).1
    simp only [Db.stageRemaining, hp, he, Option.map_some, Option.getD_some]
    omega
  | errorOnPaused hs hm =>
    refine hm.hardeningOk rfl (HardeningOk.suspended h (.inr rfl) fun hp => ?_)
    rw [ho.paused hs] at hp
    cases hp
  | errorRefused _ hm => exact hm.hardeningOk rfl h
  | @resumeHardening up s hres hq hrem hpos hm _ =>
    have hsaved := saved_of_resumable ho h (fun hp => (hc hp).2 rfl) hres hq
    rw [hrem, max_eq_left hpos.le] at hsaved
    by_cases hx : up .resumeEvent = true
    · refine hm.hardeningOk rfl (hardeningOk_hardening rfl (by simp [AwdEvent.resumed, hx]) rfl ?_)
      omega
    · exact hm.hardeningOk rfl
        (hardeningOk_failed rfl (by simp [AwdEvent.resumed, hx]) (by simp [AwdEvent.resumed, hq]))
  | @resumeExhausted up hres hq hrem hm =>
    have hsaved := saved_of_resumable ho h (fun hp => (hc hp).2 rfl) hres hq
    rw [max_eq_right hrem, zero_mul, add_zero] at hsaved
    exact hm.hardeningOk rfl (hardeningOk_attack rfl (resumed_started _ _ _ _) hsaved)
  | resumeRound hres hq _ _ _ hm _ =>
    exact hm.hardeningOk rfl (hardeningOk_attack rfl (resumed_started _ _ _ _)
      (h.savedAttack (Db.resumable_iff.1 hres) hq))
  | resumeBetween hres hq _ _ hm =>
    exact hm.hardeningOk rfl (hardeningOk_attack rfl (resumed_started _ _ _ _)
      (h.savedAttack (Db.resumable_iff.1 hres) hq))
  | resumeGap hres hq _ _ _ hm _ =>
    exact hm.hardeningOk rfl (hardeningOk_attack rfl (resumed_started _ _ _ _)
      (h.savedAttack (Db.resumable_iff.1 hres) hq))
  | hardeningEnd hover hm _ =>
    obtain ⟨hs, hp, hend⟩ := Db.hardeningOver_iff.1 (Op.hardeningOver_of_endsHardening hover)
    obtain ⟨deadline, he, hle⟩ := h.running hs hp
    simp only [he, Option.map_some, Option.getD_some, decide_eq_true_eq] at hend
    refine hm.hardeningOk rfl (hardeningOk_attack rfl ?_ (by omega))
    simp [AwdEvent.inAttack, hs]
  | endRound _ hends =>
    cases hends with
    | next _ _ _ hm _ => exact hm.hardeningOk rfl h
    | last _ _ hev hm =>
      rcases hev with rfl | ⟨-, rfl⟩
      · exact hm.hardeningOk rfl h
      · exact hm.hardeningOk rfl (HardeningOk.finished h)
  | gap _ _ _ _ _ hm _ => exact hm.hardeningOk rfl h
  | finish _ hm => exact hm.hardeningOk rfl (HardeningOk.finished h)

/-- Time that passes in the hardening stage is counted, and brings its end nearer. -/
theorem hardeningOk_tick (h : db.HardeningOk run) (d : Nat) :
    Db.HardeningOk { db with now := db.now + d }
      (run + if db.runsHardening then (d : Int) else 0) := by
  have hle : run ≤ run + if db.runsHardening then (d : Int) else 0 := by split_ifs <;> omega
  refine ⟨h.unstarted, fun hs hp => ?_, fun hp => (h.attack hp).trans hle,
    fun hs hp hq => ?_, fun hs hq => (h.savedAttack hs hq).trans hle⟩
  · obtain ⟨deadline, he, hb⟩ := h.running hs hp
    have hruns : db.runsHardening = true := by simpa [Db.runsHardening] using ⟨hs, hp⟩
    refine ⟨deadline, he, hb.trans ?_⟩
    rw [if_pos hruns]
    dsimp only
    omega
  · have := h.savedHardening hs hp hq
    refine this.trans ?_
    dsimp only
    omega

end Step

/-! ## Runs -/

theorem HardeningClockInv.step {w : World} {op : Op} (h : HardeningClockInv w)
    (hc : KeepsHardeningClock w.db op) : HardeningClockInv (w.step op) := by
  refine ⟨h.orderly.apply op, ?_, ?_⟩
  · have h0 := h.nonneg
    have h1 : 0 ≤ op.elapsed := by cases op <;> simp [Op.elapsed]
    simp only [World.step]
    split_ifs <;> omega
  · rcases step_or_tick h.orderly op with ⟨d, rfl⟩ | ⟨hop, hstep⟩
    · exact hardeningOk_tick h.clock d
    · rw [(World.step_of_not_tick hop).2]
      exact hardeningOk_step h.orderly h.nonneg h.clock hc hstep

/-- In every run from a fresh event whose steps keep the clock, the attack phase comes only after the
event has run for its hardening duration. -/
theorem hardeningClock_run {db : Db} (hdb : Fresh db) {ops : List Op}
    (hops : Along World.step (fun w op => KeepsHardeningClock w.db op) (World.initial db) ops) :
    HardeningClock (ops.foldl World.step (World.initial db)) := by
  have hclock : db.HardeningOk 0 :=
    ⟨fun _ => hdb.phase, by simp [hdb.status], by simp [hdb.phase], by simp [hdb.status],
      by simp [hdb.status]⟩
  have hinit : HardeningClockInv (World.initial db) := ⟨hdb.orderly, le_rfl, hclock⟩
  have hinv := inv_of_along HardeningClockInv (fun w op h hc => h.step hc) hinit hops
  exact hinv.clock.attack

/-- A pause in the hardening stage, a resume, and the end of the stage when its task is due. -/
def hardeningRun : List Op :=
  [.startEvent allUp, .tick 10000000, .pauseEvent allUp, .tick 50000000, .resumeEvent allUp,
    .tick 90000000, .deliver 12 allUp]

theorem hardeningClock_hardeningRun :
    (hardeningRun.foldl World.step (World.initial hardeningDb)).db.event.phase = .attack ∧
    HardeningClock (hardeningRun.foldl World.step (World.initial hardeningDb)) :=
  ⟨by decide +kernel, hardeningClock_run ⟨rfl, rfl, rfl, rfl, rfl⟩ (by decide +kernel)⟩

end FloatCtf.Awd
