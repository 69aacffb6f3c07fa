import FloatCtf.Awd.HardeningClock

/-!
# The phase a pause remembers

`paused_phase` should hold the phase that a resume goes back to.  A network error that is reported
for an event that is paused already saves the phase `Pause` itself, and no resume accepts the event
after that (`errorOnPause_forgets_phase`); `phaseMemory_run` shows that this is the only way to lose
the phase.
-/

namespace FloatCtf.Awd

open Process

/-- The phase a resume should lead to: the last one that was not a pause, or the attack phase when no
hardening time is left. -/
def World.resumePhase (w : World) : AwdPhase :=
  if w.lastPhase = .hardening ∧ w.db.event.pauseRemainingSecs.getD 0 ≤ 0 then .attack
  else w.lastPhase

/-- A paused event remembers its last phase, and a resume goes back to it. -/
structure PhaseMemory (w : World) : Prop where
  paused : w.db.event.phase = .pause →
    w.db.event.pausedPhase = some w.lastPhase ∧ w.lastPhase ≠ .pause
  resumed (up : Ext → Bool) : w.db.resumable = true →
    ((Op.resumeEvent up).apply w.db).event.phase = w.resumePhase ∧
      (up .resumeEvent = true → ((Op.resumeEvent up).apply w.db).event.status = .running)

/-! ## The error on a paused event -/

/-- An event is paused and then has an error of its network. -/
def errorOnPauseRun : List Op := [.startEvent allUp, .pauseEvent allUp, .networkError]

theorem errorOnPause_forgets_phase : Fresh hardeningDb ∧
    ¬ PhaseMemory (errorOnPauseRun.foldl World.step (World.initial hardeningDb)) := by
  refine ⟨⟨rfl, rfl, rfl, rfl, rfl⟩, fun h => ?_⟩
  have hsaved := (h.paused (by decide +kernel)).1
  revert hsaved
  decide +kernel

/-! ## The steps that keep the memory -/

/-- No network error is reported for a paused event. -/
def KeepsPhaseMemory (db : Db) (op : Op) : Prop :=
  op.isNetworkError = true → db.event.status ≠ .paused

instance (db : Db) (op : Op) : Decidable (KeepsPhaseMemory db op) :=
  inferInstanceAs (Decidable (_ → _))

/-- How the event row remembers the phase `last`: a paused event has saved it, and an event whose
resume failed is in it. -/
structure Remembers (e : AwdEvent) (last : AwdPhase) : Prop where
  paused : e.phase = .pause → e.pausedPhase = some last ∧ last ≠ .pause
  inPhase : e.phase ≠ .pause → last = e.phase
  failed : e.status = .networkError → e.phase ≠ .pause → e.pausedPhase = some e.phase ∨
    e.pausedPhase = some .hardening ∧ e.phase = .attack ∧ e.pauseRemainingSecs = some 0

/-- The phase that is remembered after a step to the event row `e`. -/
def phaseAfter (last : AwdPhase) (e : AwdEvent) : AwdPhase :=
  if e.phase = .pause then last else e.phase

variable {db db' : Db} {op : Op} {e : AwdEvent} {last : AwdPhase}

/-! ## One step -/

theorem remembers_of_ne_pause (hp : e.phase ≠ .pause) (hf : e.status = .networkError →
    e.pausedPhase = some e.phase ∨
      e.pausedPhase = some .hardening ∧ e.phase = .attack ∧ e.pauseRemainingSecs = some 0) :
    Remembers e (phaseAfter last e) where
  paused h := absurd h hp
  inPhase _ := if_neg hp
  failed hs _ := hf hs

theorem Remembers.same (h : Remembers e last) : phaseAfter last e = last := by
  unfold phaseAfter
  split_ifs with hp
  · rfl
  · exact (h.inPhase hp).symm

/-- Stopping a running event saves its phase. -/
theorem Remembers.suspended (h : Remembers e last) (hp : e.phase ≠ .pause)
    (stop : AwdEventStatus) (s : Int) :
    Remembers (e.suspended stop s) (phaseAfter last (e.suspended stop s)) where
  paused hpause := by
    rw [phaseAfter, if_pos hpause, h.inPhase hp]
    exact ⟨rfl, hp⟩
  inPhase hq := absurd rfl hq
  failed _ hq := absurd rfl hq

/-- A row that changes neither phase nor memory, and is not in the error state. -/
theorem Remembers.of_status {e' : AwdEvent} (h : Remembers e last) (hp : e'.phase = e.phase)
    (hq : e'.pausedPhase = e.pausedPhase) (hs : e'.status ≠ .networkError) :
    Remembers e' (phaseAfter last e') where
  paused hpause := by
    rw [phaseAfter, if_pos hpause, hq]
    exact h.paused (hp ▸ hpause)
  inPhase hpause := if_neg hpause
  failed hs' := absurd hs' hs

theorem remembers_resumed {ok : Bool} {phase : AwdPhase} {endsAt : Option Int}
    (hp : phase ≠ .pause) (hf : e.pausedPhase = some phase ∨
      e.pausedPhase = some .hardening ∧ phase = .attack) :
    Remembers (e.resumed ok phase endsAt) (phaseAfter last (e.resumed ok phase endsAt)) :=
  remembers_of_ne_pause hp fun _ => hf.imp_right fun ⟨h, h'⟩ => ⟨h, h', rfl⟩

theorem remembers_step (ho : Orderly db) (h : Remembers db.event last)
    (hc : KeepsPhaseMemory db op) (hstep : Step db db' op) :
    Remembers db'.event (phaseAfter last db'.event) := by
  have hsame : Remembers db.event (phaseAfter last db.event) := by rwa [h.same]
  have hfinish : Remembers (db.event.patched .finished (.finished db.now))
      (phaseAfter last (db.event.patched .finished (.finished db.now))) :=
    h.of_status rfl rfl (by simp [AwdEvent.patched])
  cases hstep with
  | idle _ hq => rwa [hq.event]
  | block _ hm =>
    rw [hm.event]
    exact h.of_status rfl rfl (by simp [AwdEvent.patched])
  | startHardening _ _ _ hm _ =>
    rw [hm.event]
    exact remembers_of_ne_pause (by simp [AwdEvent.patched]) (by simp [AwdEvent.patched])
  | startAttack _ _ _ hm _ =>
    rw [hm.event]
    exact remembers_of_ne_pause (by simp [AwdEvent.patched]) (by simp [AwdEvent.patched])
  | suspend _ hs _ hm =>
    rw [hm.event]
    exact h.suspended (ho.running hs).1 _ _
  | errorOnPaused hs _ => exact absurd hs (hc rfl)
  | errorRefused _ hm => rwa [hm.event]
  | resumeHardening _ hq _ _ hm _ =>
    rw [hm.event]
    exact remembers_resumed (by decide) (.inl hq)
  | resumeExhausted _ hq _ hm =>
    rw [hm.event]
    exact remembers_resumed (by decide) (.inr ⟨hq, rfl⟩)
  | resumeRound _ hq _ _ _ hm _ =>
    rw [hm.event]
    exact remembers_resumed (by decide) (.inl hq)
  | resumeBetween _ hq _ _ hm =>
    rw [hm.event]
    exact remembers_resumed (by decide) (.inl hq)
  | resumeGap _ hq _ _ _ hm _ =>
    rw [hm.event]
    exact remembers_resumed (by decide) (.inl hq)
  | hardeningEnd hover hm _ =>
    have hs := (Db.hardeningOver_iff.1 (Op.hardeningOver_of_endsHardening hover)).1
    rw [hm.event]
    exact remembers_of_ne_pause (by simp [AwdEvent.inAttack]) (by simp [AwdEvent.inAttack, hs])
  | endRound _ hends =>
    cases hends with
    | next _ _ _ hm _ => rwa [hm.event]
    | last _ _ hev hm =>
      rw [hm.event]
      rcases hev with rfl | ⟨-, rfl⟩
      · exact hsame
      · exact hfinish
  | gap _ _ _ _ _ hm _ => rwa [hm.event]
  | finish _ hm => rwa [hm.event]

/-! ## What a resume does -/

/-- The phase that `resume_event` reads is the one that is remembered. -/
theorem Remembers.saved (h : Remembers db.event last) (ho : Orderly db)
    (hres : db.resumable = true) {p : AwdPhase} (hq : db.event.pausedPhase = some p) :
    last = p ∨ p = .hardening ∧ last = .attack ∧ db.event.pauseRemainingSecs.getD 0 ≤ 0 := by
  by_cases hp : db.event.phase = .pause
  · have hl := (h.paused hp).1
    rw [hq] at hl
    exact .inl (Option.some.inj hl).symm
  · have hs : db.event.status = .networkError := by
      rcases Db.resumable_iff.1 hres with hs | hs
      · exact absurd (ho.paused hs) hp
      · exact hs
    rw [h.inPhase hp]
    rcases h.failed hs hp with hl | ⟨hl, ha, hr⟩
    · rw [hq] at hl
      exact .inl (Option.some.inj hl).symm
    · rw [hq] at hl
      exact .inr ⟨Option.some.inj hl, ha, by simp [hr]⟩

theorem Remembers.last_ne_pause (h : Remembers e last) : last ≠ .pause := by
  by_cases hp : e.phase = .pause
  · exact (h.paused hp).2
  · rwa [h.inPhase hp]

theorem resumed_status (e : AwdEvent) {ok : Bool} (phase : AwdPhase) (endsAt : Option Int)
    (h : ok = true) : (e.resumed ok phase endsAt).status = .running := by
  simp [AwdEvent.resumed, h]

theorem Remembers.resumed {w : World} (h : Remembers w.db.event w.lastPhase) (ho : Orderly w.db)
    (hres : w.db.resumable = true) {up : Ext → Bool} (hstep : Step w.db db' (.resumeEvent up)) :
    db'.event.phase = w.resumePhase ∧
      (up .resumeEvent = true → db'.event.status = .running) := by
  have hattack (hq : w.db.event.pausedPhase = some .attack) : w.resumePhase = .attack := by
    rcases h.saved ho hres hq with hl | ⟨hl, -⟩
    · simp [World.resumePhase, hl]
    · cases hl
  cases hstep with
  | idle hinert _ =>
    rcases hinert with hr | hq
    · rw [hres] at hr
      cases hr
    · rcases h.saved ho hres hq with hl | ⟨hl, -⟩
      · exact absurd hl h.last_ne_pause
      · cases hl
  | suspend hs => cases hs
  | resumeHardening _ hq hrem hpos hm _ =>
    rw [hm.event]
    refine ⟨?_, resumed_status _ _ _⟩
    rcases h.saved ho hres hq with hl | ⟨-, -, hl⟩
    · rw [World.resumePhase, hl, if_neg fun hr => absurd hr.2 (by omega)]
      rfl
    · omega
  | resumeExhausted _ hq hrem hm =>
    rw [hm.event]
    refine ⟨?_, resumed_status _ _ _⟩
    rcases h.saved ho hres hq with hl | ⟨-, hl, -⟩
    · rw [World.resumePhase, if_pos ⟨hl, hrem⟩]
      rfl
    · simp [World.resumePhase, hl, AwdEvent.resumed]
  | resumeRound _ hq _ _ _ hm _ =>
    rw [hm.event, hattack hq]
    exact ⟨rfl, resumed_status _ _ _⟩
  | resumeBetween _ hq _ _ hm =>
    rw [hm.event, hattack hq]
    exact ⟨rfl, resumed_status _ _ _⟩
  | resumeGap _ hq _ _ _ hm _ =>
    rw [hm.event, hattack hq]
    exact ⟨rfl, fun _ => rfl⟩
  | hardeningEnd hover => cases hover
  | endRound hended => cases hended
  | finish hf =>
    have hs : w.db.event.status ≠ .running := by
      rcases Db.resumable_iff.1 hres with hs | hs <;> simp [hs]
    simp [isFinalSettlement, hs] at hf

/-! ## Runs -/

/-- The invariant of the runs that meet `KeepsPhaseMemory`. -/
structure PhaseMemoryInv (w : World) : Prop where
  orderly : Orderly w.db
  remembers : Remembers w.db.event w.lastPhase

theorem PhaseMemoryInv.step {w : World} {op : Op} (h : PhaseMemoryInv w)
    (hc : KeepsPhaseMemory w.db op) : PhaseMemoryInv (w.step op) := by
  refine ⟨h.orderly.apply op, ?_⟩
  rcases step_or_tick h.orderly op with ⟨d, rfl⟩ | ⟨-, hstep⟩
  · have hsame : Remembers w.db.event (phaseAfter w.lastPhase w.db.event) := by
      rw [h.remembers.same]
      exact h.remembers
    exact hsame
  · exact remembers_step h.orderly h.remembers hc hstep

theorem PhaseMemoryInv.phaseMemory {w : World} (h : PhaseMemoryInv w) : PhaseMemory w where
  paused := h.remembers.paused
  resumed _ hres := h.remembers.resumed h.orderly hres (resumeEvent_step h.orderly)

/-- In every run from a fresh event in which no network error is reported while the event is paused,
a paused event remembers its last phase, and every resume that is allowed goes back to it. -/
theorem phaseMemory_run {db : Db} (hdb : Fresh db) {ops : List Op}
    (hops : Along World.step (fun w op => KeepsPhaseMemory w.db op) (World.initial db) ops) :
    PhaseMemory (ops.foldl World.step (World.initial db)) := by
  have hinit : PhaseMemoryInv (World.initial db) :=
    ⟨hdb.orderly, by simp [World.initial, hdb.phase], fun _ => rfl,
      by simp [World.initial, hdb.status]⟩
  exact (inv_of_along PhaseMemoryInv (fun w op h hc => h.step hc) hinit hops).phaseMemory

/-- A network error in the hardening stage, and a pause after the resume. -/
def errorThenPauseRun : List Op :=
  [.startEvent allUp, .tick 10000000, .networkError, .resumeEvent allDown, .resumeEvent allUp,
    .pauseEvent allUp]

theorem phaseMemory_errorThenPauseRun :
    (errorThenPauseRun.foldl World.step (World.initial hardeningDb)).db.event.phase = .pause ∧
    PhaseMemory (errorThenPauseRun.foldl World.step (World.initial hardeningDb)) :=
  ⟨by decide +kernel, phaseMemory_run ⟨rfl, rfl, rfl, rfl, rfl⟩ (by decide +kernel)⟩

end FloatCtf.Awd
