import FloatCtf.Awd.Orderly

/-!
# The round clock

A round should be completed only after the event has run for the round's whole duration with the
round active.  The remaining time goes through `remaining_secs`, `scheduled_end_at` and the pending
`awd.round.end` task, and the handler of that task does not look at the first two: after a pause and
a resume the task of the old schedule is still pending and ends the round early
(`staleTask_ends_early`).  `roundClock_run` gives the steps that have to be avoided for the clock to
be right.
-/

namespace FloatCtf.Awd

open Process

/-- Every completed round was active for its whole duration while the event was running. -/
def RoundClock (w : World) : Prop :=
  ∀ r ∈ w.db.rounds, r.status = .completed →
    w.db.event.roundDurationSecs * sec ≤ w.roundRun r.id

instance (w : World) : Decidable (RoundClock w) :=
  inferInstanceAs (Decidable (∀ r ∈ w.db.rounds, _ → _))

/-! ## The stale task -/

/-- A verified event of one round of 100 seconds that fills the event, so that it starts in its
attack phase. -/
def oneRoundDb : Db where
  now := 0
  nextId := 10
  event :=
    { eventId := 1, status := .verified, phase := .hardening, roundDurationSecs := 100
      roundCount := some 1, initialScore := 0, judgeDefaultTimeoutSecs := 30
      judgeGracePeriodSecs := 5, verifiedAt := some 0, verifiedRevision := none
      verifiedGeneration := some 0, configurationGeneration := 0, pausedPhase := none
      pauseRemainingSecs := none, hardeningEndsAt := none, startedAt := none, finishedAt := none }
  generic := { startTime := 0, endTime := some (100 * sec) }
  networkRow := true
  rounds := []
  tasks := []
  batches := []
  judgeTasks := []
  teams := [{ id := 2 }]
  gameboxes := [{ id := 3, attackScore := 10, judgeDownPenalty := 5, firstBonus := 1,
                  specReady := true }]
  instances := [{ id := 4, teamId := 2, eventGameboxId := 3, status := .ready }]
  bans := []
  submissions := []
  scores := []

/-- Every call outside the database succeeds. -/
def allUp : Ext → Bool := fun _ => true

/-- The round starts at 0; the event is paused from second 10 to second 60, and at second 100 the
engine delivers the task that was scheduled before the pause. -/
def staleTaskRun : List Op :=
  [.startEvent allUp, .tick 10000000, .pauseEvent allUp, .tick 50000000, .resumeEvent allUp,
    .tick 40000000, .deliver 12 allUp]

theorem staleTask_ends_early : Fresh oneRoundDb ∧
    ¬ RoundClock (staleTaskRun.foldl World.step (World.initial oneRoundDb)) :=
  ⟨⟨rfl, rfl, rfl, rfl, rfl⟩, by decide +kernel⟩

/-! ## The steps that keep the clock right -/

/-- A round is ended only when the event is running and the end that is written in its row has come;
a pause or a network error hits an active round at a whole number of seconds before that end, and no
network error is reported for an open round of an event that is in its error state already. -/
def KeepsRoundClock (db : Db) (op : Op) : Prop :=
  (∀ r ∈ op.endedRound db, db.event.status = .running ∧ r.scheduledEndAt ≤ db.now) ∧
  (db.event.phase = .attack → ∀ r ∈ findActiveRound db.rounds,
    (op.suspends = true → db.event.status = .running → WholeSecs r.scheduledEndAt db.now) ∧
    (op.isNetworkError = true → db.event.status ≠ .networkError))

instance (db : Db) (op : Op) : Decidable (KeepsRoundClock db op) :=
  inferInstanceAs (Decidable ((∀ r ∈ op.endedRound db, _) ∧ (_ → ∀ r ∈ findActiveRound _, _)))

/-- How far a round is: the time it was active and the time it has left make up its duration. -/
def RoundOk (e : AwdEvent) (now run : Int) (r : AwdRound) : Prop :=
  match r.status with
  | .completed => e.roundDurationSecs * sec ≤ run
  | .active => r.remainingSecs = none ∧
    (e.status = .running → e.roundDurationSecs * sec ≤ run + (r.scheduledEndAt - now))
  | .paused => ∃ s, r.remainingSecs = some s ∧ e.roundDurationSecs * sec ≤ run + s * sec

/-- Every round of the list is where the clock says. -/
def RoundsOk (e : AwdEvent) (now : Int) (run : Nat → Int) (rs : List AwdRound) : Prop :=
  ∀ r ∈ rs, RoundOk e now (run r.id) r

/-- The rounds of a database are where the clock says. -/
def Db.RoundsOk (db : Db) (run : Nat → Int) : Prop :=
  Awd.RoundsOk db.event db.now run db.rounds

/-- The invariant of the runs that meet `KeepsRoundClock`. -/
structure RoundClockInv (w : World) : Prop where
  orderly : Orderly w.db
  nonneg : ∀ id, 0 ≤ w.roundRun id
  rounds : w.db.RoundsOk w.roundRun

section Rounds

variable {e e' : AwdEvent} {now run : Int} {r : AwdRound}

theorem roundOk_completed (hr : r.status = .completed) :
    RoundOk e now run r ↔ e.roundDurationSecs * sec ≤ run := by
  simp [RoundOk, hr]

theorem roundOk_active (hr : r.status = .active) : RoundOk e now run r ↔ r.remainingSecs = none ∧
    (e.status = .running → e.roundDurationSecs * sec ≤ run + (r.scheduledEndAt - now)) := by
  simp [RoundOk, hr]

theorem roundOk_paused (hr : r.status = .paused) : RoundOk e now run r ↔
    ∃ s, r.remainingSecs = some s ∧ e.roundDurationSecs * sec ≤ run + s * sec := by
  simp [RoundOk, hr]

/-- A change of the event row that does not set it running is nothing to a round. -/
theorem RoundOk.of_event (h : RoundOk e now run r)
    (hd : e'.roundDurationSecs = e.roundDurationSecs)
    (hs : e'.status = .running → e.status = .running ∨ r.status = .completed) :
    RoundOk e' now run r := by
  cases hr : r.status with
  | completed => rwa [roundOk_completed hr, hd, ← roundOk_completed hr]
  | paused => rwa [roundOk_paused hr, hd, ← roundOk_paused hr]
  | active =>
    rw [roundOk_active hr] at h ⊢
    refine ⟨h.1, fun hrun => ?_⟩
    rw [hd]
    rcases hs hrun with hs | hs
    · exact h.2 hs
    · rw [hr] at hs
      cases hs

/-- The time a pause saves, if it is a whole number of seconds, is the time that was left. -/
theorem RoundOk.pausedRound (h : RoundOk e now run r) (hr : r.status = .active)
    (hs : e.status = .running) (hw : WholeSecs r.scheduledEndAt now)
    (hd : e'.roundDurationSecs = e.roundDurationSecs) :
    RoundOk e' now run (pausedRound (remainingSecs r.scheduledEndAt now) now r) := by
  rw [roundOk_active hr] at h
  rw [roundOk_paused rfl]
  refine ⟨_, rfl, ?_⟩
  have h1 := h.2 hs
  have h2 := (le_remainingSecs_mul hw).1
  rw [hd]
  omega

/-- A resumed round gets the saved time back, or its whole duration. -/
theorem RoundOk.resumedRound {newEnd : Int} (h : RoundOk e now run r) (hr : r.isOpen = true)
    (hrun : 0 ≤ run) (he : newEnd = now + r.remainingSecs.getD e.roundDurationSecs * sec)
    (hd : e'.roundDurationSecs = e.roundDurationSecs) :
    RoundOk e' now run (resumedRound newEnd r) := by
  rw [roundOk_active rfl]
  refine ⟨rfl, fun _ => ?_⟩
  rw [hd, show (Awd.resumedRound newEnd r).scheduledEndAt = newEnd from rfl, he]
  rw [AwdRound.isOpen_iff] at hr
  cases hst : r.status with
  | completed => exact absurd hst hr
  | active =>
    rw [((roundOk_active hst).1 h).1, Option.getD_none]
    omega
  | paused =>
    obtain ⟨s, hs, hle⟩ := (roundOk_paused hst).1 h
    rw [hs, Option.getD_some]
    omega

theorem RoundOk.completedRound (h : RoundOk e now run r) (hr : r.status = .active)
    (hs : e.status = .running) (hend : r.scheduledEndAt ≤ now)
    (hd : e'.roundDurationSecs = e.roundDurationSecs) :
    RoundOk e' now run (completedRound now r) := by
  rw [roundOk_active hr] at h
  rw [roundOk_completed rfl, hd]
  have := h.2 hs
  omega

end Rounds

/-! ## One step -/

section Step

variable {db db' : Db} {op : Op} {run : Nat → Int}

theorem Moves.roundsOk {e : AwdEvent} {rs : List AwdRound} (hm : Moves db db' e rs)
    (h : RoundsOk e db.now run rs) : db'.RoundsOk run := by
  rw [Db.RoundsOk, hm.event, hm.now, hm.rounds]
  exact h

theorem roundsOk_nil {e : AwdEvent} {now : Int} : RoundsOk e now run [] :=
  List.forall_mem_nil _

theorem roundsOk_singleton {e : AwdEvent} {now : Int} {r : AwdRound} :
    RoundsOk e now run [r] ↔ RoundOk e now (run r.id) r := List.forall_mem_singleton

theorem RoundsOk.concat {e : AwdEvent} {now : Int} {rs : List AwdRound} {r : AwdRound}
    (h : RoundsOk e now run rs) (hr : RoundOk e now (run r.id) r) :
    RoundsOk e now run (rs ++ [r]) := by
  intro x hx
  rcases List.mem_append.1 hx with hx | hx
  · exact h x hx
  · rw [List.mem_singleton.1 hx]
    exact hr

theorem RoundsOk.init {e : AwdEvent} {now : Int} {rs : List AwdRound} {r : AwdRound}
    (h : RoundsOk e now run (rs ++ [r])) : RoundsOk e now run rs :=
  fun x hx => h x (List.mem_append_left _ hx)

/-- A new round has its whole duration before it. -/
theorem NewRound.roundOk {e : AwdEvent} {k : Int} {r : AwdRound} (h : NewRound db db' k r)
    (hrun : ∀ id, 0 ≤ run id) (hd : e.roundDurationSecs = db.event.roundDurationSecs) :
    RoundOk e db.now (run r.id) r := by
  rw [roundOk_active h.active]
  refine ⟨h.remaining, fun _ => ?_⟩
  have := hrun r.id
  rw [h.ends, hd]
  omega

/-- A step that leaves the rounds alone, and sets the event running only between two rounds. -/
theorem Db.RoundsOk.same_rounds {e : AwdEvent} (h : db.RoundsOk run)
    (hd : e.roundDurationSecs = db.event.roundDurationSecs)
    (hs : e.status = .running → db.event.status = .running ∨ AllDone db.rounds) :
    Awd.RoundsOk e db.now run db.rounds :=
  fun r hr => (h r hr).of_event hd fun he => (hs he).imp_right fun hd => hd r hr

theorem roundsOk_frozen (ho : Orderly db) (h : db.RoundsOk run) {e : AwdEvent}
    (hd : e.roundDurationSecs = db.event.roundDurationSecs) (hs : db.event.status = .running)
    (hc : db.event.phase = .attack → ∀ r ∈ findActiveRound db.rounds,
      WholeSecs r.scheduledEndAt db.now) :
    RoundsOk e db.now run db.frozenRounds := by
  have hsame := h.same_rounds hd fun _ => .inl hs
  obtain ⟨done, r, hp, he, hopen, hrem, hf⟩ | ⟨-, hf⟩ := Db.frozenRounds_eq ho.table
  · have ht := ho.table
    rw [he] at ht hsame
    have hact : r.status = .active := by
      have hnp := (ho.running hs).2 r (by simp [he])
      rw [AwdRound.isOpen_iff] at hopen
      cases hst : r.status <;> simp_all
    have hw := hc hp r (by rw [he]; exact findActiveRound_last ht.allDone_init hopen)
    rw [hf, hrem]
    exact hsame.init.concat ((h r (by simp [he])).pausedRound hact hs hw hd)
  · rw [hf]
    exact hsame

theorem roundsOk_ended (h : db.RoundsOk run) (hrun : ∀ id, 0 ≤ run id)
    {r : AwdRound} (hends : RoundEnds db db' r) (hact : r.status = .active)
    (hs : db.event.status = .running) (hend : r.scheduledEndAt ≤ db.now) : db'.RoundsOk run := by
  have hdone {done : List AwdRound} (he : db.rounds = done ++ [r]) (e : AwdEvent)
      (hd : e.roundDurationSecs = db.event.roundDurationSecs) :
      RoundsOk e db.now run (done ++ [completedRound db.now r]) := by
    have hsame := h.same_rounds hd fun _ => .inl hs
    rw [he] at hsame
    exact hsame.init.concat ((h r (by simp [he])).completedRound hact hs hend hd)
  cases hends with
  | next he _ _ hm hnew =>
    exact hm.roundsOk ((hdone he _ rfl).concat (hnew.roundOk hrun rfl))
  | last he _ hev hm =>
    rcases hev with rfl | ⟨-, rfl⟩
    · exact hm.roundsOk (hdone he _ rfl)
    · exact hm.roundsOk (hdone he _ rfl)

/-- An error that is reported while the event is neither running nor paused changes no round,
unless the event is in its error state already. -/
theorem frozenRounds_refused (ho : Orderly db)
    (hs : db.event.status ≠ .running ∧ db.event.status ≠ .paused)
    (hne : db.event.phase = .attack → ∀ r ∈ findActiveRound db.rounds,
      db.event.status ≠ .networkError) : db.frozenRounds = db.rounds := by
  obtain ⟨done, r, hp, he, hopen, -⟩ | ⟨-, hf⟩ := Db.frozenRounds_eq ho.table
  · have ht := ho.table
    rw [he] at ht
    have hn := hne hp r (by rw [he]; exact findActiveRound_last ht.allDone_init hopen)
    have hmem : r ∈ db.rounds := by simp [he]
    exfalso
    have hst := ho.status
    simp only [List.mem_cons, List.not_mem_nil, or_false] at hst
    rcases hst with h | h | h | h | h | h
    · rw [ho.unstarted (.inl h)] at hmem
      cases hmem
    · rw [ho.unstarted (.inr h)] at hmem
      cases hmem
    · exact hs.1 h
    · exact hs.2 h
    · exact hn h
    · exact (ho.finished h).not_isOpen hmem hopen
  · exact hf

theorem Op.endedRound_active {r : AwdRound} (h : op.endedRound db = some r) :
    r.status = .active := by
  cases op with
  | endRound id up => exact (Db.activeRound_eq_some h).2.2.2
  | deliver id up =>
    simp only [Op.endedRound] at h
    split at h
    · cases h
    · split_ifs at h
      obtain ⟨rid, -, hr⟩ := Option.bind_eq_some_iff.1 h
      exact (Db.activeRound_eq_some hr).2.2.2
  | _ => cases h

theorem roundsOk_step (ho : Orderly db) (h : db.RoundsOk run) (hrun : ∀ id, 0 ≤ run id)
    (hc : KeepsRoundClock db op) (hstep : Step db db' op) : db'.RoundsOk run := by
  cases hstep with
  | idle _ hq => exact hq.roundsOk (h.same_rounds rfl .inl)
  | block hs hm => exact hm.roundsOk (h.same_rounds rfl nofun)
  | startHardening hs _ _ hm _ =>
    refine hm.roundsOk (h.same_rounds rfl fun _ => .inr ?_)
    rw [ho.unstarted (.inl hs)]
    exact allDone_nil
  | startAttack _ _ _ hm hnew =>
    exact hm.roundsOk (roundsOk_singleton.2 (hnew.roundOk hrun rfl))
  | suspend hsusp hs _ hm =>
    exact hm.roundsOk (roundsOk_frozen ho h rfl hs fun hp r hr => (hc.2 hp r hr).1 hsusp hs)
  | errorOnPaused _ hm => exact hm.roundsOk (h.same_rounds rfl nofun)
  | errorRefused hs hm =>
    rw [frozenRounds_refused ho hs fun hp r hr => (hc.2 hp r hr).2 rfl] at hm
    exact Moves.roundsOk hm (h.same_rounds rfl .inl)
  | resumeHardening hres hp _ _ hm _ =>
    refine hm.roundsOk (h.same_rounds rfl fun _ => .inr ?_)
    rw [ho.rounds_nil_of_saved hres hp]
    exact allDone_nil
  | resumeExhausted hres hp _ hm =>
    refine hm.roundsOk (h.same_rounds rfl fun _ => .inr ?_)
    rw [ho.rounds_nil_of_saved hres hp]
    exact allDone_nil
  | resumeRound _ _ he hopen hends hm _ =>
    have ht := ho.table
    rw [he] at ht
    refine hm.roundsOk (RoundsOk.concat (fun x hx => ?_) ?_)
    · exact (h x (by simp [he, hx])).of_event rfl fun _ => .inr (ht.allDone_init x hx)
    · exact RoundOk.resumedRound (h _ (by simp [he])) hopen (hrun _) hends rfl
  | resumeBetween _ _ hd _ hm => exact hm.roundsOk (h.same_rounds rfl fun _ => .inr hd)
  | resumeGap _ _ hd _ _ hm hnew =>
    refine hm.roundsOk (RoundsOk.concat ?_ (hnew.roundOk hrun rfl))
    exact h.same_rounds rfl fun _ => .inr hd
  | hardeningEnd _ hm hnew =>
    exact hm.roundsOk (roundsOk_singleton.2 (hnew.roundOk hrun rfl))
  | endRound hended hends =>
    obtain ⟨hs, hend⟩ := hc.1 _ hended
    exact roundsOk_ended h hrun hends (Op.endedRound_active hended) hs hend
  | gap _ _ _ _ _ hm hnew =>
    exact hm.roundsOk (RoundsOk.concat h (hnew.roundOk hrun rfl))
  | finish _ hm => exact hm.roundsOk (h.same_rounds rfl nofun)

/-- Time that passes is counted for the active round of a running event, and for no other. -/
theorem roundOk_tick (h : db.RoundsOk run) (d : Nat) :
    Db.RoundsOk { db with now := db.now + d }
      fun id => run id + if db.runsRound id then (d : Int) else 0 := by
  intro r hr
  have hr' := h r hr
  have hle : run r.id ≤ run r.id + if db.runsRound r.id then (d : Int) else 0 := by
    split_ifs <;> omega
  cases hst : r.status with
  | completed =>
    rw [roundOk_completed hst] at hr' ⊢
    exact hr'.trans hle
  | paused =>
    rw [roundOk_paused hst] at hr' ⊢
    obtain ⟨s, hs, hd⟩ := hr'
    refine ⟨s, hs, hd.trans ?_⟩
    dsimp only
    omega
  | active =>
    rw [roundOk_active hst] at hr' ⊢
    refine ⟨hr'.1, fun hs => ?_⟩
    have hruns : db.runsRound r.id = true := by
      simp only [Db.runsRound, decide_eq_true_eq, List.any_eq_true]
      exact ⟨hs, r, hr, rfl, hst⟩
    have := hr'.2 hs
    simp only [hruns, ↓reduceIte]
    omega

end Step

/-! ## Runs -/

theorem World.step_of_not_tick {w : World} {op : Op} (hop : op.elapsed = 0) :
    (w.step op).roundRun = w.roundRun ∧ (w.step op).hardeningRun = w.hardeningRun := by
  simp [World.step, hop]

theorem RoundClockInv.step {w : World} {op : Op} (h : RoundClockInv w)
    (hc : KeepsRoundClock w.db op) : RoundClockInv (w.step op) := by
  refine ⟨h.orderly.apply op, fun id => ?_, ?_⟩
  · have h0 := h.nonneg id
    have h1 : 0 ≤ op.elapsed := by cases op <;> simp [Op.elapsed]
    simp only [World.step]
    split_ifs <;> omega
  · rcases step_or_tick h.orderly op with ⟨d, rfl⟩ | ⟨hop, hstep⟩
    · exact roundOk_tick h.rounds d
    · rw [(World.step_of_not_tick hop).1]
      exact roundsOk_step h.orderly h.rounds h.nonneg hc hstep

/-- In every run from a fresh event whose steps keep the clock, every completed round was active for
its whole duration. -/
theorem roundClock_run {db : Db} (hdb : Fresh db) {ops : List Op}
    (hops : Along World.step (fun w op => KeepsRoundClock w.db op) (World.initial db) ops) :
    RoundClock (ops.foldl World.step (World.initial db)) := by
  have hinit : RoundClockInv (World.initial db) :=
    ⟨hdb.orderly, fun _ => le_rfl, by rw [Db.RoundsOk, World.initial, hdb.rounds]; exact roundsOk_nil⟩
  have hinv := inv_of_along RoundClockInv (fun w op h hc => h.step hc) hinit hops
  exact fun r hr hst => (roundOk_completed hst).1 (hinv.rounds r hr)

/-- A run with a pause in which the task of the old schedule is delivered, and dropped, before the
event is resumed. -/
def pausedRun : List Op :=
  [.startEvent allUp, .tick 10000000, .pauseEvent allUp, .tick 95000000, .deliver 12 allUp,
    .resumeEvent allUp, .tick 90000000, .deliver 13 allUp]

theorem roundClock_pausedRun :
    ((pausedRun.foldl World.step (World.initial oneRoundDb)).db.rounds.map (·.status)) =
      [.completed] ∧
    RoundClock (pausedRun.foldl World.step (World.initial oneRoundDb)) :=
  ⟨by decide +kernel, roundClock_run ⟨rfl, rfl, rfl, rfl, rfl⟩ (by decide +kernel)⟩

end FloatCtf.Awd
