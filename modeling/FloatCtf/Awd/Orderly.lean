import FloatCtf.Awd.Steps

/-!
# Every run of the lifecycle is orderly

Each lifecycle step keeps the database orderly, so every run from a fresh event does, and every
operation of such a run is one of the lifecycle steps.
-/

namespace FloatCtf.Awd

open Process

variable {db db' : Db} {op : Op}

theorem Db.resumable_iff : db.resumable = true ↔
    db.event.status = .paused ∨ db.event.status = .networkError := by
  simp [Db.resumable]

theorem Db.hardeningOver_iff : db.hardeningOver = true ↔ db.event.status = .running ∧
    db.event.phase = .hardening ∧
    (db.event.hardeningEndsAt.map fun deadline => decide (deadline ≤ db.now)).getD true = true := by
  simp [Db.hardeningOver]

theorem Op.hardeningOver_of_endsHardening (h : op.endsHardening db = true) :
    db.hardeningOver = true := by
  cases op <;> simp only [Op.endsHardening, Bool.false_eq_true] at h
  · split at h
    · cases h
    · simp only [decide_eq_true_eq] at h
      exact h.2
  · exact h

theorem Orderly.rounds_nil_of_saved (h : Orderly db) (hres : db.resumable = true)
    (hp : db.event.pausedPhase = some .hardening) : db.rounds = [] := by
  rcases h.saved (Db.resumable_iff.1 hres) with ⟨-, hr⟩ | hr | hr
  · exact hr
  · simp [hp] at hr
  · simp [hp] at hr

theorem resumed_started (e : AwdEvent) (ok : Bool) (phase : AwdPhase) (endsAt : Option Int) :
    (e.resumed ok phase endsAt).status ≠ .verified ∧
      (e.resumed ok phase endsAt).status ≠ .startBlocked := by
  cases ok <;> simp [AwdEvent.resumed]

theorem Db.frozenRounds_nil (h : db.rounds = []) : db.frozenRounds = [] := by
  unfold Db.frozenRounds
  rw [h]
  split <;> rfl

theorem Db.frozenRounds_length (ht : RoundTable db.rounds db.nextId) :
    db.frozenRounds.length = db.rounds.length := by
  obtain ⟨done, r, -, he, -, -, hf⟩ | ⟨-, hf⟩ := Db.frozenRounds_eq ht
  · rw [hf, he, List.length_append, List.length_append, List.length_singleton,
      List.length_singleton]
  · rw [hf]

theorem allDone_concat {done : List AwdRound} {r : AwdRound} (hd : AllDone done)
    (hr : r.status = .completed) : AllDone (done ++ [r]) := by
  intro x hx
  rcases List.mem_append.1 hx with hx | hx
  · exact hd x hx
  · rw [List.mem_singleton.1 hx, hr]

theorem not_paused_of_allDone {rounds : List AwdRound} (hd : AllDone rounds) :
    ∀ r ∈ rounds, r.status ≠ .paused := fun r hr => by
  rw [hd r hr]
  decide

theorem not_paused_concat {done : List AwdRound} {r : AwdRound} (hd : AllDone done)
    (hr : r.status = .active) : ∀ x ∈ done ++ [r], x.status ≠ .paused := by
  intro x hx
  rcases List.mem_append.1 hx with hx | hx
  · exact not_paused_of_allDone hd x hx
  · rw [List.mem_singleton.1 hx, hr]
    decide

theorem NewRound.table {k : Int} {r : AwdRound} {rs : List AwdRound} (h : NewRound db db' k r)
    (ht : RoundTable rs db.nextId) (hd : AllDone rs) (hk : k = rs.length + 1) :
    RoundTable (rs ++ [r]) db'.nextId :=
  ht.concat hd (h.number.trans hk) h.fresh.1 h.fresh.2

/-- An event in its final settlement has no open round. -/
theorem allDone_of_isFinalSettlement {e : AwdEvent} (ht : RoundTable db.rounds db.nextId)
    (h : isFinalSettlement e (findLatestRound db.rounds) = true) : AllDone db.rounds := by
  rcases List.eq_nil_or_concat' db.rounds with hnil | ⟨done, r, he⟩
  · rw [hnil]
    simp [AllDone]
  · rw [he] at ht h ⊢
    rw [findLatestRound_last ht] at h
    refine allDone_concat ht.allDone_init ?_
    by_contra hr
    cases hc : e.roundCount <;> simp [isFinalSettlement, hc, hr] at h

/-! ## The rows after each kind of step -/

/-- A running event in its attack phase. -/
theorem orderlyRow_attack {e : AwdEvent} {rs : List AwdRound} {rc : Int}
    (hs : e.status = .running) (hp : e.phase = .attack) (hr : ∀ r ∈ rs, r.status ≠ .paused)
    (hc : e.roundCount = some rc) (hpos : 0 < rc) (hle : (rs.length : Int) ≤ rc) :
    OrderlyRow e rs where
  status := by simp [hs]
  unstarted := by simp [hs]
  hardening := by simp [hp]
  running _ := ⟨by simp [hp], hr⟩
  paused := by simp [hs]
  frozen := by simp [hp]
  saved := by simp [hs]
  count _ _ := ⟨rc, hc, hpos, hle⟩
  finished := by simp [hs]

/-- A suspended event. -/
theorem orderlyRow_suspended {e : AwdEvent} {rs : List AwdRound} {target : AwdEventStatus} {s : Int}
    (ht : target = .paused ∨ target = .networkError) (hr : ∀ r ∈ rs, r.status ≠ .active)
    (hh : e.phase = .hardening → rs = [])
    (hc : ∃ rc, e.roundCount = some rc ∧ 0 < rc ∧ (rs.length : Int) ≤ rc) :
    OrderlyRow (e.suspended target s) rs where
  status := by rcases ht with rfl | rfl <;> simp [AwdEvent.suspended]
  unstarted := by rcases ht with rfl | rfl <;> simp [AwdEvent.suspended]
  hardening := by simp [AwdEvent.suspended]
  running := by rcases ht with rfl | rfl <;> simp [AwdEvent.suspended]
  paused _ := rfl
  frozen _ := hr
  saved _ := by
    cases hp : e.phase with
    | hardening => exact .inl ⟨by simp [AwdEvent.suspended, hp], hh hp⟩
    | attack => exact .inr (.inl (by simp [AwdEvent.suspended, hp]))
    | pause => exact .inr (.inr (by simp [AwdEvent.suspended, hp]))
  count _ _ := hc
  finished := by rcases ht with rfl | rfl <;> simp [AwdEvent.suspended]

/-- An event after a resume, whether its reconcile succeeded or not. -/
theorem orderlyRow_resumed {e : AwdEvent} {rs : List AwdRound} {ok : Bool} {phase : AwdPhase}
    {endsAt : Option Int} (hp : phase ≠ .pause) (hh : phase = .hardening → rs = [])
    (hr : ∀ r ∈ rs, r.status ≠ .paused)
    (hs : e.pausedPhase = some .hardening ∧ rs = [] ∨ e.pausedPhase = some .attack)
    (hc : ∃ rc, e.roundCount = some rc ∧ 0 < rc ∧ (rs.length : Int) ≤ rc) :
    OrderlyRow (e.resumed ok phase endsAt) rs where
  status := by cases ok <;> simp [AwdEvent.resumed]
  unstarted := by cases ok <;> simp [AwdEvent.resumed]
  hardening := hh
  running _ := ⟨hp, hr⟩
  paused := by cases ok <;> simp [AwdEvent.resumed]
  frozen h := absurd h hp
  saved _ := by
    rcases hs with hs | hs
    · exact .inl hs
    · exact .inr (.inl hs)
  count _ _ := hc
  finished := by cases ok <;> simp [AwdEvent.resumed]

theorem orderlyRow_finished {e : AwdEvent} {rs : List AwdRound} {now : Int} (h : OrderlyRow e rs)
    (hs : e.status = .running) (hd : AllDone rs) : OrderlyRow (e.patched .finished (.finished now)) rs where
  status := by simp [AwdEvent.patched]
  unstarted := by simp [AwdEvent.patched]
  hardening := h.hardening
  running := by simp [AwdEvent.patched]
  paused := by simp [AwdEvent.patched]
  frozen := h.frozen
  saved := by simp [AwdEvent.patched]
  count _ _ := h.count (by simp [hs]) (by simp [hs])
  finished _ := hd

/-- The row of an event whose status is not one of a stage, with the same or other rounds. -/
theorem OrderlyRow.change_rounds {e : AwdEvent} {rs rs' : List AwdRound} (h : OrderlyRow e rs)
    (hnil : rs = [] → rs' = []) (hlen : rs'.length = rs.length)
    (hp : e.status = .running → ∀ r ∈ rs', r.status ≠ .paused)
    (ha : e.phase = .pause → ∀ r ∈ rs', r.status ≠ .active)
    (hf : e.status = .finished → AllDone rs') : OrderlyRow e rs' where
  status := h.status
  unstarted hs := hnil (h.unstarted hs)
  hardening hh := hnil (h.hardening hh)
  running hs := ⟨(h.running hs).1, hp hs⟩
  paused := h.paused
  frozen := ha
  saved hs := by
    rcases h.saved hs with ⟨hp, hr⟩ | hp
    · exact .inl ⟨hp, hnil hr⟩
    · exact .inr hp
  count h1 h2 := by
    obtain ⟨rc, hc, hpos, hle⟩ := h.count h1 h2
    exact ⟨rc, hc, hpos, by omega⟩
  finished := hf

/-! ## Every step keeps the database orderly -/

theorem Orderly.phase_attack (h : Orderly db) (hs : db.event.status = .running)
    (hr : db.rounds ≠ []) : db.event.phase = .attack := by
  have hp := (h.running hs).1
  cases hph : db.event.phase with
  | hardening => exact absurd (h.hardening hph) hr
  | attack => rfl
  | pause => exact absurd hph hp

theorem orderly_of_roundEnds (h : Orderly db) {r : AwdRound} (hr : RoundEnds db db' r) :
    Orderly db' := by
  cases hr with
  | @next done nxt he hs hmore hm hnew =>
    have ht := h.table
    rw [he] at ht
    have hnum := ht.number_last
    have hd := allDone_concat ht.allDone_init (r := completedRound db.now r) rfl
    have ht' : RoundTable (done ++ [completedRound db.now r]) db.nextId := ht.rewrite_last rfl rfl
    obtain ⟨rc, hc, hpos, -⟩ := h.count (by simp [hs]) (by simp [hs])
    have hlt := hmore rc hc
    refine h.of_moves hm (hnew.table ht' hd ?_) (orderlyRow_attack hs
      (h.phase_attack hs (by rw [he]; simp)) (not_paused_concat hd hnew.active) hc hpos ?_)
    · rw [hnum, List.length_append, List.length_singleton]
      rfl
    · rw [List.length_append, List.length_append, List.length_singleton, List.length_singleton]
      push_cast
      omega
  | @last done e he hlast hev hm =>
    have ht := h.table
    rw [he] at ht
    have hd := allDone_concat ht.allDone_init (r := completedRound db.now r) rfl
    have ht' : RoundTable (done ++ [completedRound db.now r]) db'.nextId :=
      RoundTable.mono (ht.rewrite_last rfl rfl) hm.nextId
    have hrow : OrderlyRow db.event (done ++ [completedRound db.now r]) := by
      refine h.toOrderlyRow.change_rounds ?_ ?_ (fun _ => not_paused_of_allDone hd)
        (fun _ x hx => ?_) fun _ => hd
      · rw [he]
        simp
      · rw [he, List.length_append, List.length_append, List.length_singleton,
          List.length_singleton]
      · rw [hd x hx]
        decide
    rcases hev with rfl | ⟨hs, rfl⟩
    · exact h.of_moves hm ht' hrow
    · exact h.of_moves hm ht' (orderlyRow_finished hrow hs hd)

theorem orderly_of_step (h : Orderly db) (hstep : Step db db' op) : Orderly db' := by
  cases hstep with
  | idle _ hq => exact h.of_quiet hq
  | block hs hm =>
    have hnil := h.unstarted (.inl hs)
    refine h.of_moves hm (h.table.mono hm.nextId) ?_
    exact { status := by simp [AwdEvent.patched], unstarted := fun _ => hnil
            hardening := h.hardening, running := by simp [AwdEvent.patched]
            paused := by simp [AwdEvent.patched], frozen := h.frozen
            saved := by simp [AwdEvent.patched], count := by simp [AwdEvent.patched]
            finished := by simp [AwdEvent.patched] }
  | startHardening hs ht _ hm _ =>
    have hnil := h.unstarted (.inl hs)
    obtain ⟨hc, hpos, -⟩ := computeTiming_ok ht
    refine h.of_moves hm (h.table.mono hm.nextId) ?_
    exact { status := by simp [AwdEvent.patched], unstarted := fun _ => hnil
            hardening := fun _ => hnil
            running := by simp [AwdEvent.patched, hnil]
            paused := by simp [AwdEvent.patched], frozen := by simp [AwdEvent.patched]
            saved := by simp [AwdEvent.patched]
            count := fun _ _ => ⟨_, hc, hpos, by rw [hnil, List.length_nil]; omega⟩
            finished := by simp [AwdEvent.patched] }
  | startAttack hs ht _ hm hnew =>
    have hnil := h.unstarted (.inl hs)
    obtain ⟨hc, hpos, -⟩ := computeTiming_ok ht
    refine h.of_moves hm (hnew.table (roundTable_nil _) (by simp [AllDone]) (by simp)) ?_
    refine orderlyRow_attack rfl rfl (not_paused_concat allDone_nil
      hnew.active) hc hpos ?_
    simp only [List.length_singleton]
    omega
  | suspend _ hs htarget hm =>
    obtain ⟨rc, hc, hpos, hle⟩ := h.count (by simp [hs]) (by simp [hs])
    refine h.of_moves hm ((Db.frozenRounds_table h.table).mono hm.nextId)
      (orderlyRow_suspended htarget (fun r hr => h.frozenRounds_not_active hr)
        (fun hp => Db.frozenRounds_nil (h.hardening hp)) ⟨rc, hc, hpos, ?_⟩)
    rwa [Db.frozenRounds_length h.table]
  | errorOnPaused hs hm =>
    exact h.of_moves hm (h.table.mono hm.nextId) (orderlyRow_suspended (.inr rfl)
      (h.frozen (h.paused hs)) h.hardening (h.count (by simp [hs]) (by simp [hs])))
  | errorRefused hs hm =>
    refine h.of_moves hm ((Db.frozenRounds_table h.table).mono hm.nextId)
      (h.toOrderlyRow.change_rounds Db.frozenRounds_nil (Db.frozenRounds_length h.table)
        (fun hr => absurd hr hs.1) (fun _ r hr => h.frozenRounds_not_active hr) fun hf => ?_)
    obtain ⟨done, r, -, he, hr, -⟩ | ⟨-, hfr⟩ := Db.frozenRounds_eq h.table
    · exact absurd hr ((h.finished hf).not_isOpen (by simp [he]))
    · rw [hfr]
      exact h.finished hf
  | resumeHardening hres hp _ _ hm _ =>
    have hnil := h.rounds_nil_of_saved hres hp
    have hc := h.count (by rintro hv; simp [Db.resumable, hv] at hres)
      (by rintro hv; simp [Db.resumable, hv] at hres)
    exact h.of_moves hm (h.table.mono hm.nextId) (orderlyRow_resumed (by decide) (fun _ => hnil)
      (by simp [hnil]) (.inl ⟨hp, hnil⟩) hc)
  | resumeExhausted hres hp _ hm =>
    have hnil := h.rounds_nil_of_saved hres hp
    have hc := h.count (by rintro hv; simp [Db.resumable, hv] at hres)
      (by rintro hv; simp [Db.resumable, hv] at hres)
    exact h.of_moves hm (h.table.mono hm.nextId) (orderlyRow_resumed (by decide) (fun _ => hnil)
      (by simp [hnil]) (.inl ⟨hp, hnil⟩) hc)
  | @resumeRound _ done r _ hres hp he _ _ hm _ =>
    have ht := h.table
    obtain ⟨rc, hc, hpos, hle⟩ := h.count (by rintro hv; simp [Db.resumable, hv] at hres)
      (by rintro hv; simp [Db.resumable, hv] at hres)
    rw [he] at ht hle
    refine h.of_moves hm (RoundTable.mono (ht.rewrite_last rfl rfl) hm.nextId)
      (orderlyRow_resumed (by decide) (fun hh => by cases hh)
        (not_paused_concat ht.allDone_init rfl) (.inr hp) ⟨rc, hc, hpos, ?_⟩)
    simpa using hle
  | resumeBetween hres hp hd _ hm =>
    have hc := h.count (by rintro hv; simp [Db.resumable, hv] at hres)
      (by rintro hv; simp [Db.resumable, hv] at hres)
    exact h.of_moves hm (h.table.mono hm.nextId) (orderlyRow_resumed (by decide)
      (fun hh => by cases hh) (not_paused_of_allDone hd) (.inr hp) hc)
  | resumeGap hres hp hd hc hlt hm hnew =>
    refine h.of_moves hm (hnew.table h.table hd rfl) (orderlyRow_resumed (by decide)
      (fun hh => by cases hh) (not_paused_concat hd hnew.active) (.inr hp) ⟨_, hc, by omega, ?_⟩)
    simp only [List.length_append, List.length_singleton]
    push_cast
    omega
  | hardeningEnd ho hm hnew =>
    obtain ⟨hs, hp, -⟩ := Db.hardeningOver_iff.1 (Op.hardeningOver_of_endsHardening ho)
    obtain ⟨rc, hc, hpos, -⟩ := h.count (by simp [hs]) (by simp [hs])
    refine h.of_moves hm (hnew.table (roundTable_nil _) (by simp [AllDone]) (by simp)) ?_
    refine orderlyRow_attack hs rfl (not_paused_concat allDone_nil
      hnew.active) hc hpos ?_
    simp only [List.length_singleton]
    omega
  | endRound _ hr => exact orderly_of_roundEnds h hr
  | gap hs hp hd hc hlt hm hnew =>
    refine h.of_moves hm (hnew.table h.table hd rfl) (orderlyRow_attack hs hp
      (not_paused_concat hd hnew.active) hc (by omega) ?_)
    simp only [List.length_append, List.length_singleton]
    push_cast
    omega
  | finish hf hm =>
    exact h.of_moves hm (h.table.mono hm.nextId)
      (orderlyRow_finished h.toOrderlyRow (isFinalSettlement_running hf)
        (allDone_of_isFinalSettlement h.table hf))

/-! ## Runs -/

theorem Fresh.orderly (h : Fresh db) : Orderly db where
  table := h.rounds ▸ roundTable_nil _
  networkRow := h.networkRow
  status := by simp [h.status]
  unstarted _ := h.rounds
  hardening _ := h.rounds
  running := by simp [h.status]
  paused := by simp [h.status]
  frozen := by simp [h.phase]
  saved := by simp [h.status]
  taskIds := by simp [TaskIds, h.tasks]
  count := by simp [h.status]
  finished := by simp [h.status]

theorem Orderly.tick (h : Orderly db) (d : Nat) : Orderly { db with now := db.now + d } :=
  { h with taskIds := h.taskIds }

theorem Orderly.apply (h : Orderly db) (op : Op) : Orderly (op.apply db) := by
  cases op with
  | tick d => exact h.tick d
  | _ => exact orderly_of_step h (step_of_op h nofun)

/-- An operation lets time pass or makes a lifecycle step. -/
theorem step_or_tick {db : Db} (h : Orderly db) (op : Op) :
    (∃ d, op = .tick d) ∨ op.elapsed = 0 ∧ Step db (op.apply db) op := by
  by_cases hop : ∃ d, op = .tick d
  · exact .inl hop
  · rw [not_exists] at hop
    refine .inr ⟨?_, step_of_op h hop⟩
    cases op with
    | tick d => exact absurd rfl (hop d)
    | _ => rfl

end FloatCtf.Awd
