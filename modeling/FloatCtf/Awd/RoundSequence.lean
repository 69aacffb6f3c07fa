import FloatCtf.Awd.RoundClock
import FloatCtf.Process.Pool

/-!
# The round sequence under concurrency

The services that write rounds, running side by side statement by statement: handlers that are
delivered twice, a restart in the middle, an administrator who pauses while a round ends.  The rounds
of an event should be numbered from 1 without gaps, at most one of them open, and that one the last.

The unique indexes of `awd_rounds` allow one active and one paused round at the same time, and the
updates of a pause and of a resume are made by id, whatever has become of the row: a pause that read
an active round writes it after the next one has started (`pause_reopens_round`).  `roundSequence_run`
shows that the sequence is kept by every interleaving in which these updates hit the latest round and
no round starts next to a paused one.
-/

namespace FloatCtf.Awd

open Process

/-! ## The system -/

/-- The operations that read and write the rounds of an event. -/
inductive RoundJob where
  | startEvent | pauseEvent | resumeEvent | networkError | recoverRoundGap
  | restoreRoundScheduling
  | hardeningEnd
  | roundStart (roundNumber : Option Int)
  | roundEnd (payloadRoundId : Option Nat)
  | endRound (id : Nat)
  | deliver (id : Nat)
  | restart (host : Host)

/-- The program of a job. -/
def RoundJob.prog : RoundJob → AwdM Unit
  | startEvent => Awd.startEvent
  | pauseEvent => Awd.pauseEvent
  | resumeEvent => Awd.resumeEvent
  | networkError => handleNetworkError
  | recoverRoundGap => do let _ ← Awd.recoverRoundGap
  | restoreRoundScheduling => do let _ ← Awd.restoreRoundScheduling
  | hardeningEnd => handleHardeningEnd
  | roundStart n => handleRoundStart n
  | roundEnd payload => handleRoundEnd payload
  | endRound id => Awd.endRound id
  | deliver id => Awd.deliver id
  | restart host => Awd.restart host

/-- The environment lets time pass. -/
def roundSystem : System Stmt Db AwdError Unit RoundJob Nat where
  prog := RoundJob.prog
  env d db := { db with now := db.now + d }
  watch _ _ _ _ := ()

/-- The jobs under way. -/
abbrev RoundPool := Pool Stmt Db AwdError Unit RoundJob

/-- Nothing has been started. -/
def RoundPool.initial (db : Db) : RoundPool := { state := db, ghost := (), threads := [] }

/-- The numbers are `1, …, k` with `k` at most the configured count, at most one round is open, that
one is number `k`, and the others are completed. -/
structure RoundSequence (db : Db) : Prop where
  numbers : db.rounds.map (·.roundNumber) =
    (List.range db.rounds.length).map fun i : Nat => (i : Int) + 1
  count : db.rounds ≠ [] → ∃ rc ∈ db.event.roundCount, (db.rounds.length : Int) ≤ rc
  oneOpen : db.rounds.countP (·.isOpen) ≤ 1
  openLast : ∀ r ∈ db.rounds, r.isOpen = true → r.roundNumber = db.rounds.length
  others : ∀ r ∈ db.rounds, r.roundNumber ≠ db.rounds.length → r.status = .completed

/-! ## The pause that comes too late -/

/-- The event of `oneRoundDb` with two rounds. -/
def twoRoundDb : Db :=
  { oneRoundDb with
    event := { oneRoundDb.event with roundCount := some 2 }
    generic := { startTime := 0, endTime := some (200 * sec) } }

/-- The pause reads the open round and its time, the round ends and the next one starts, and then
the pause writes the round that it read. -/
def latePauseRun : List (Act RoundJob Nat) :=
  [.spawn .startEvent] ++ List.replicate 20 (.step 0 true) ++
  [.spawn .pauseEvent] ++ List.replicate 3 (.step 1 true) ++
  [.spawn (.endRound 11)] ++ List.replicate 20 (.step 2 true) ++
  [.step 1 true]

theorem pause_reopens_round : Fresh twoRoundDb ∧
    ¬ RoundSequence (latePauseRun.foldl roundSystem.step (RoundPool.initial twoRoundDb)).state := by
  refine ⟨⟨rfl, rfl, rfl, rfl, rfl⟩, fun h => ?_⟩
  have hone := h.oneOpen
  revert hone
  decide +kernel

/-! ## The law -/

/-- The event has been started. -/
def AwdEventStatus.Started (s : AwdEventStatus) : Prop := s ≠ .verified ∧ s ≠ .startBlocked

instance (s : AwdEventStatus) : Decidable s.Started := inferInstanceAs (Decidable (_ ∧ _))

/-- The ids and numbers of the rounds. -/
def Db.roundKeys (db : Db) : List (Nat × Int) := db.rounds.map fun r => (r.id, r.roundNumber)

/-- Rounds are only added, the configured count stays, and a started event stays started. -/
structure RoundsGrow (db db' : Db) : Prop where
  keys : db.roundKeys <+: db'.roundKeys
  count : db'.event.roundCount = db.event.roundCount
  started : db.event.status.Started → db'.event.status.Started

/-- What holds of the rounds between two statements. -/
structure RoundsOrdered (db : Db) : Prop where
  table : RoundTable db.rounds db.nextId
  unstarted : ¬ db.event.status.Started → db.rounds = []
  count : db.event.status.Started →
    ∃ rc, db.event.roundCount = some rc ∧ 0 < rc ∧ (db.rounds.length : Int) ≤ rc

/-- Round `n` is the first one or follows one that exists, and it is configured. -/
def Db.Startable (db : Db) (n : Int) : Prop :=
  (n = 1 ∨ ∃ r ∈ db.rounds, r.roundNumber = n - 1) ∧ ∃ rc ∈ db.event.roundCount, n ≤ rc

instance (db : Db) (n : Int) : Decidable (db.Startable n) :=
  inferInstanceAs (Decidable ((_ ∨ ∃ r ∈ db.rounds, _) ∧ ∃ rc ∈ db.event.roundCount, _))

/-- The round that a pause or a resume writes. -/
def Stmt.reopens : Stmt → Option Nat
  | pauseRound id | resumeRound id => some id
  | _ => none

/-- The number of the round that the statement creates. -/
def Stmt.starts : Stmt → Option Int
  | insertRound n => some n
  | _ => none

/-- The job starts a round. -/
def RoundJob.isRoundStart : RoundJob → Bool
  | roundStart _ => true
  | _ => false

/-- The update of a pause or of a resume hits the latest round, a round does not start while another
one is paused, and a round that a scheduler task asks for is one that can follow. -/
def KeepsSequence (j : RoundJob) (l : Stmt) (v : Db × Unit) : Prop :=
  (∀ id ∈ l.reopens, ∀ r ∈ v.1.rounds, r.id = id →
    ∀ x ∈ v.1.rounds, x.roundNumber ≤ r.roundNumber) ∧
  ∀ n ∈ l.starts, (∀ r ∈ v.1.rounds, r.status ≠ .paused) ∧
    (j.isRoundStart = true → v.1.Startable n)

instance (j : RoundJob) (l : Stmt) (v : Db × Unit) : Decidable (KeepsSequence j l v) :=
  inferInstanceAs (Decidable ((∀ id ∈ l.reopens, _) ∧ ∀ n ∈ l.starts, _))

theorem RoundsGrow.refl (db : Db) : RoundsGrow db db := ⟨List.prefix_refl _, rfl, id⟩

theorem RoundsGrow.trans {a b c : Db} (h : RoundsGrow a b) (h' : RoundsGrow b c) :
    RoundsGrow a c :=
  ⟨h.keys.trans h'.keys, h'.count.trans h.count, fun hs => h'.started (h.started hs)⟩

/-- The law of the rounds. -/
def roundLaw : Law roundSystem where
  rely v v' := RoundsGrow v.1 v'.1
  guar _ v v' := RoundsGrow v.1 v'.1
  inv v := RoundsOrdered v.1
  cond := KeepsSequence
  refl v := RoundsGrow.refl v.1
  trans := RoundsGrow.trans
  guar_refl _ v := RoundsGrow.refl v.1
  rely_of_guar h := h

theorem roundSystem_unseen (j : RoundJob) (l : Stmt) : roundSystem.Unseen j l := fun _ _ => rfl

/-! ## What the rounds remember -/

variable {db db' : Db} {j : RoundJob} {v : Db × Unit}

theorem RoundsGrow.exists_number (h : RoundsGrow db db') {k : Int}
    (hr : ∃ r ∈ db.rounds, r.roundNumber = k) : ∃ r ∈ db'.rounds, r.roundNumber = k := by
  obtain ⟨r, hr, rfl⟩ := hr
  have hmem : (r.id, r.roundNumber) ∈ db'.roundKeys :=
    h.keys.subset (List.mem_map.2 ⟨r, hr, rfl⟩)
  obtain ⟨r', hr', he⟩ := List.mem_map.1 hmem
  exact ⟨r', hr', congrArg Prod.snd he⟩

theorem RoundsGrow.startable (h : RoundsGrow db db') {k : Int} (hs : db.Startable k) :
    db'.Startable k := by
  refine ⟨hs.1.imp_right h.exists_number, ?_⟩
  rw [h.count]
  exact hs.2

theorem roundsGrow_of_eq (hr : db'.rounds = db.rounds)
    (hc : db'.event.roundCount = db.event.roundCount)
    (hs : db.event.status.Started → db'.event.status.Started) : RoundsGrow db db' := by
  refine ⟨⟨[], ?_⟩, hc, hs⟩
  rw [List.append_nil, Db.roundKeys, Db.roundKeys, hr]

/-- The rounds of a started event, whatever else changes. -/
theorem RoundsOrdered.of_eq (h : RoundsOrdered db) (hr : db'.rounds = db.rounds)
    (hn : db.nextId ≤ db'.nextId) (hc : db'.event.roundCount = db.event.roundCount)
    (hs : db'.event.status.Started ↔ db.event.status.Started) : RoundsOrdered db' where
  table := hr ▸ h.table.mono hn
  unstarted hu := hr ▸ h.unstarted fun hst => hu (hs.2 hst)
  count hst := by
    rw [hc, hr]
    exact h.count (hs.1 hst)

theorem RoundsOrdered.sequence (h : RoundsOrdered db) : RoundSequence db where
  numbers := by
    refine List.ext_getElem (by simp) fun i hi hi' => ?_
    rw [List.length_map] at hi
    simp only [List.getElem_map, List.getElem_range]
    exact h.table.numbers i hi
  count hne := by
    by_cases hs : db.event.status.Started
    · obtain ⟨rc, hc, -, hle⟩ := h.count hs
      exact ⟨rc, hc, hle⟩
    · exact absurd (h.unstarted hs) hne
  oneOpen := by
    rcases h.table.allDone_or_open with hd | ⟨done, r, he, hopen⟩
    · rw [List.countP_eq_zero.2 fun x hx => hd.not_isOpen hx]
      exact Nat.zero_le 1
    · have ht := h.table
      rw [he] at ht ⊢
      rw [List.countP_append, List.countP_eq_zero.2 fun x hx => ht.allDone_init.not_isOpen hx]
      simp [hopen]
  openLast r hr hopen := by
    obtain ⟨done, he, -⟩ := h.table.eq_of_open hr hopen
    have ht := h.table
    rw [he] at ht ⊢
    rw [ht.number_last, List.length_append, List.length_singleton]
    rfl
  others r hr hne := by
    by_contra hs
    obtain ⟨done, he, -⟩ := h.table.eq_of_open hr (r.isOpen_iff.2 hs)
    have ht := h.table
    rw [he] at ht hne
    rw [ht.number_last, List.length_append, List.length_singleton] at hne
    exact hne rfl

/-! ## The writes -/

/-- An update of a round row, in place. -/
theorem RoundsOrdered.writeRound (h : RoundsOrdered db) {id : Nat} {f : Int → AwdRound → AwdRound}
    {a : Unit} (hw : writeRound id f db = .ok (db', a)) (hid : ∀ r, (f db.now r).id = r.id)
    (hnum : ∀ r, (f db.now r).roundNumber = r.roundNumber)
    (hc : ∀ r ∈ db.rounds.dropLast, r.id = id → (f db.now r).status = .completed) :
    RoundsGrow db db' ∧ RoundsOrdered db' := by
  obtain ⟨rfl, -, -⟩ := writeRound_ok hw
  have hlen : (updateRoundRow id (f db.now) db.rounds).length = db.rounds.length := by
    rw [updateRoundRow, List.length_map]
  refine ⟨⟨⟨[], ?_⟩, rfl, fun hs => hs⟩,
    ⟨h.table.update hid hnum hc, fun hs => ?_, fun hs => ?_⟩⟩
  · rw [List.append_nil, Db.roundKeys, Db.roundKeys,
      updateRoundRow_map id _ _ fun r => by rw [hid, hnum]]
  · dsimp only
    rw [h.unstarted hs]
    rfl
  · dsimp only
    rw [hlen]
    exact h.count hs

/-- A row that is the latest is not before the last one. -/
theorem RoundsOrdered.not_mem_dropLast (h : RoundsOrdered db) {id : Nat}
    (hc : ∀ r ∈ db.rounds, r.id = id → ∀ x ∈ db.rounds, x.roundNumber ≤ r.roundNumber)
    {r : AwdRound} (hr : r ∈ db.rounds.dropLast) : r.id ≠ id := by
  intro hid
  have hlt := h.table.number_lt_of_mem_dropLast hr
  rcases List.eq_nil_or_concat' db.rounds with hnil | ⟨done, last, he⟩
  · rw [hnil] at hr
    cases hr
  · have hle := hc r (List.dropLast_subset _ hr) hid last (by simp [he])
    have ht := h.table
    rw [he] at ht hlt
    rw [ht.number_last] at hle
    rw [List.length_append, List.length_singleton] at hlt
    omega

theorem RoundsOrdered.insertRound (h : RoundsOrdered db) {n executeAt : Int} {r : AwdRound}
    (hi : insertRoundRow n executeAt db = .ok (db', r)) (hp : ∀ r ∈ db.rounds, r.status ≠ .paused)
    (hn : db.Startable n) (hs : db.event.status.Started) :
    RoundsGrow db db' ∧ RoundsOrdered db' := by
  obtain ⟨rfl, hix, rfl⟩ := insertRoundRow_ok hi
  have hdone := allDone_of_indexes hix rfl hp
  have hnew : ∀ x ∈ db.rounds, x.roundNumber ≠ n := by
    have hnd := hix.1
    rw [List.map_append, List.nodup_append] at hnd
    exact fun x hx => hnd.2.2 _ (List.mem_map_of_mem hx) _ (by simp [createdRound])
  have hlast : n = db.rounds.length + 1 := h.table.eq_next hnew hn.1
  refine ⟨⟨?_, rfl, fun hs => hs⟩, ⟨?_, fun hu => absurd hs hu, fun _ => ?_⟩⟩
  · exact (List.prefix_append _ _).map _
  · exact h.table.concat hdone hlast le_rfl
      (by simp only [Db.schedule, createdRound]; omega)
  · obtain ⟨rc, hc, hle⟩ := hn.2
    obtain ⟨rc', hc', hpos, -⟩ := h.count hs
    rw [Option.mem_def.1 hc] at hc'
    cases hc'
    refine ⟨rc, hc, hpos, ?_⟩
    simp only [Db.schedule, List.length_append, List.length_singleton]
    push_cast
    omega

/-! ## The programs -/

section Safe

variable {α : Type} {Q : α → Db × Unit → Prop}

theorem safe_select {f : Db → α}
    (h : ∀ v', RoundsGrow v.1 v'.1 → RoundsOrdered v'.1 → Q (f v'.1) v') :
    roundLaw.Safe j Q (select f) v :=
  Law.safe_query (roundSystem_unseen j _) fun v' hv hi _ => h v' hv hi

theorem safe_utcNow {Q : Int → Db × Unit → Prop} (h : ∀ t v', RoundsGrow v.1 v'.1 → Q t v') :
    roundLaw.Safe j Q utcNow v :=
  Law.safe_look (roundSystem_unseen j _) fun v' hv _ => h _ v' hv

theorem safe_quiet {p : AwdM α} (hp : p.Within Quiet) :
    roundLaw.Safe j (fun _ _ => True) p v := by
  refine Law.safe_of_does hp fun _ s s' _ hi _ hq => ?_
  have he : s'.event = s.event := hq.event
  exact ⟨roundsGrow_of_eq hq.rounds (by rw [he]) (by rw [he]; exact id),
    hi.of_eq hq.rounds hq.nextId (by rw [he]) (by rw [he])⟩

/-- A program that is safe anywhere, and then another one. -/
theorem safe_then {β : Type} {p : AwdM α} {f : α → AwdM β}
    (hp : roundLaw.Safe j (fun _ _ => True) p v)
    (hf : ∀ a v', RoundsGrow v.1 v'.1 → roundLaw.Safe j (fun _ _ => True) (f a) v') :
    roundLaw.Safe j (fun _ _ => True) (p >>= f) v := Law.safe_seq hp hf

/-- A change of status within the life of a started event. -/
theorem safe_transition {s t : AwdEventStatus} (p : TransitionPatch) (ht : t.Started)
    (hs : s.Started ∨ t ∉ s.validTransitions) :
    roundLaw.Safe j (fun _ _ => True) (transitionEvent s t p) v := by
  refine Law.safe_exec (roundSystem_unseen j _) fun v' _ hi _ db' a h => ?_
  obtain ⟨rfl, hst, hok⟩ := transitionRow_ok h
  have hs' : v'.1.event.status.Started := by
    rw [hst] at hok ⊢
    refine hs.resolve_right fun hn => ?_
    simp [AwdEventStatus.canTransitionTo, hn] at hok
  exact ⟨roundsGrow_of_eq rfl rfl fun _ => ht,
    hi.of_eq rfl le_rfl rfl ⟨fun _ => hs', fun _ => ht⟩, trivial⟩

theorem safe_enterAttack : roundLaw.Safe j (fun _ _ => True) enterAttack v := by
  refine Law.safe_exec (roundSystem_unseen j _) fun v' _ hi _ db' a h => ?_
  rw [enterAttackRow, AwdPhase.canTransitionTo_ok] at h
  cases h
  exact ⟨roundsGrow_of_eq rfl rfl id, hi.of_eq rfl le_rfl rfl Iff.rfl, trivial⟩

theorem safe_tryReconcile (x : Ext) : roundLaw.Safe j (fun _ _ => True) (tryReconcile x) v :=
  safe_quiet (within_tryReconcile Quiet.refl x)

theorem safe_requireEventNetwork : roundLaw.Safe j (fun _ _ => True) requireEventNetwork v :=
  safe_quiet (within_requireEventNetwork Quiet.refl)

/-- An update by id that is made on the latest round. -/
theorem safe_writeLatest {l : Stmt} {id : Nat} {f : Int → AwdRound → AwdRound}
    (hl : ∀ v, KeepsSequence j l v → ∀ r ∈ v.1.rounds, r.id = id →
      ∀ x ∈ v.1.rounds, x.roundNumber ≤ r.roundNumber)
    (hid : ∀ now r, (f now r).id = r.id)
    (hnum : ∀ now r, (f now r).roundNumber = r.roundNumber) :
    roundLaw.Safe j (fun _ _ => True) (Prog.exec l dbError (writeRound id f)) v := by
  refine Law.safe_exec (roundSystem_unseen j _) fun v' _ hi hc db' a h => ?_
  obtain ⟨hg, ho⟩ := RoundsOrdered.writeRound hi h (hid _) (hnum _)
    fun r hr hr' => absurd hr' (RoundsOrdered.not_mem_dropLast hi (hl v' hc) hr)
  exact ⟨hg, ho, trivial⟩

theorem safe_pauseRound (id : Nat) (s : Int) :
    roundLaw.Safe j (fun _ _ => True) (pauseRound id s) v :=
  safe_writeLatest (fun _ h => h.1 id rfl) (fun _ _ => rfl) fun _ _ => rfl

theorem safe_pauseRoundStatus (id : Nat) :
    roundLaw.Safe j (fun _ _ => True) (pauseRoundStatus id) v :=
  safe_writeLatest (fun _ h => h.1 id rfl) (fun _ _ => rfl) fun _ _ => rfl

theorem safe_resumeRound (id : Nat) (newEnd : Int) :
    roundLaw.Safe j (fun _ _ => True) (resumeRound id newEnd) v :=
  safe_writeLatest (fun _ h => h.1 id rfl) (fun _ _ => rfl) fun _ _ => rfl

/-- A round starts where it can follow; the number is the caller's, if it gives one. -/
theorem safe_startRound (expected : Option Int)
    (h : ∀ n v', RoundsGrow v.1 v'.1 → KeepsSequence j (.insertRound n) v' →
      (∀ k, expected = some k → 1 ≤ k → n = k) → v'.1.Startable n) :
    roundLaw.Safe j (fun _ _ => True) (startRound expected) v := by
  refine Law.safe_bind (safe_select fun v1 h1 _ => Law.safe_ite (fun _ => trivial) fun hrun =>
    Law.safe_ite (fun _ => trivial) fun _ => ?_)
  have hstarted : v1.1.event.status.Started := by
    rw [not_not.1 hrun]
    decide
  refine Law.safe_bind (safe_select fun v2 h2 _ => ?_)
  obtain ⟨n, hn⟩ : ∃ n, n = nextRoundNumber expected v2.1.rounds := ⟨_, rfl⟩
  have hcaller : ∀ k, expected = some k → 1 ≤ k → n = k := by
    rintro k rfl hk
    rw [hn, nextRoundNumber, if_pos hk]
  rw [← hn]
  refine Law.safe_bind (safe_select fun v3 h3 _ => ?_)
  cases findRoundByNumber v3.1.rounds n with
  | some r => trivial
  | none =>
    refine Law.safe_bind (safe_utcNow fun t v4 h4 => Law.safe_bind ?_)
    refine Law.safe_exec (roundSystem_unseen j _) fun v5 h5 hi hc db' r hr => ?_
    have hgrow : RoundsGrow v1.1 v5.1 := (h2.trans h3).trans (h4.trans h5)
    obtain ⟨hg, ho⟩ := RoundsOrdered.insertRound hi hr (hc.2 n rfl).1 (h n v5 (h1.trans hgrow) hc hcaller)
      (hgrow.started hstarted)
    refine ⟨hg, ho, safe_then (safe_quiet (within_nextNetworkRevision Quiet.refl)) fun _ _ _ => ?_⟩
    exact safe_then (safe_quiet (within_reconcileGlobal Quiet.refl _)) fun _ _ _ =>
      safe_then safe_requireEventNetwork fun _ _ _ => trivial

theorem safe_startRound_some {k : Int} (hk : 1 ≤ k) (h : v.1.Startable k) :
    roundLaw.Safe j (fun _ _ => True) (startRound (some k)) v := by
  refine safe_startRound _ fun n v' hv _ hn => ?_
  rw [hn k rfl hk]
  exact hv.startable h

theorem startable_one {rc : Int} (hc : db.event.roundCount = some rc) (hpos : 0 < rc) :
    db.Startable 1 := ⟨.inl rfl, rc, hc, hpos⟩

theorem safe_maybeFinishEvent : roundLaw.Safe j (fun _ _ => True) maybeFinishEvent v := by
  refine Law.safe_bind (safe_select fun _ _ _ => Law.safe_ite (fun _ => trivial) fun _ =>
    Law.safe_ite (fun _ => trivial) fun _ => ?_)
  refine Law.safe_bind (safe_select fun _ _ _ => Law.safe_ite (fun _ => trivial) fun _ => ?_)
  refine Law.safe_bind (safe_select fun _ _ _ => Law.safe_ite (fun _ => trivial) fun _ => ?_)
  refine Law.safe_bind (safe_utcNow fun _ _ _ => ?_)
  refine safe_then (Law.safe_tried (safe_transition _ (by decide) (.inl (by decide))))
    fun moved _ _ => ?_
  split
  · trivial
  · trivial
  · trivial
  · exact safe_then (safe_tryReconcile _) fun _ _ _ =>
      safe_then (Law.safe_tried safe_requireEventNetwork) fun _ _ _ => trivial

/-- The round that is completed stays in the table, and the next one can follow it. -/
theorem safe_endRound (id : Nat) : roundLaw.Safe j (fun _ _ => True) (endRound id) v := by
  refine Law.safe_bind (safe_select fun v1 h1 _ => ?_)
  cases hf : findRoundById v1.1.rounds id with
  | none => trivial
  | some r =>
    have hr : ∃ x ∈ v1.1.rounds, x.roundNumber = r.roundNumber :=
      ⟨r, (findRoundById_eq_some hf).1, rfl⟩
    refine Law.safe_ite (fun _ => trivial) fun _ => Law.safe_bind ?_
    refine Law.safe_exec (roundSystem_unseen j _) fun v2 h2 hi _ db' e hw => ?_
    cases hw' : writeRound id completedRound v2.1 with
    | error err =>
      rw [hw'] at hw
      cases hw
    | ok res =>
      rw [hw'] at hw
      cases hw
      obtain ⟨hg, ho⟩ := RoundsOrdered.writeRound hi hw' (fun _ => rfl) (fun _ => rfl)
        fun _ _ _ => rfl
      refine ⟨hg, ho, ?_⟩
      refine safe_then (Law.safe_tried (safe_quiet (createBatch_within minor_quiet id)))
        fun batch v3 h3 => ?_
      have hgrow : RoundsGrow v1.1 v3.1 := (RoundsGrow.trans h2 hg).trans h3
      refine safe_then (Law.safe_ite (fun _ => ?_) fun hfin => ?_) fun _ _ _ =>
        safe_quiet (scheduleBatchDeadline_within minor_quiet.toSlight batch)
      · exact safe_then (safe_tryReconcile _) fun _ _ _ =>
          safe_then (Law.safe_tried safe_requireEventNetwork) fun _ _ _ =>
            safe_then (Law.safe_tried safe_maybeFinishEvent) fun _ _ _ => trivial
      · refine safe_then (Law.safe_tried (safe_startRound_some ?_ ?_)) fun _ _ _ => trivial
        · have := (hi.table.number_mem (h2.exists_number hr).choose_spec.1).1
          rw [(h2.exists_number hr).choose_spec.2] at this
          omega
        · refine ⟨.inr ?_, ?_⟩
          · rw [add_sub_cancel_right]
            exact hgrow.exists_number hr
          · rw [h3.count]
            obtain ⟨x, hx, -⟩ := (h2.trans hg).exists_number hr
            obtain ⟨rc, hc, -, -⟩ := ho.count (by
              by_contra hu
              rw [ho.unstarted hu] at hx
              cases hx)
            refine ⟨rc, hc, ?_⟩
            rw [hc] at hfin
            have hlt : r.roundNumber < rc := by simpa using hfin
            omega

theorem safe_recoverRoundGap : roundLaw.Safe j (fun _ _ => True) recoverRoundGap v := by
  refine Law.safe_bind (safe_select fun v1 h1 _ => ?_)
  cases hc : v1.1.event.roundCount with
  | none => trivial
  | some rc =>
    refine Law.safe_ite (fun _ => trivial) fun hpos => Law.safe_bind (safe_select fun v2 h2 h2i => ?_)
    have hc2 : v2.1.event.roundCount = some rc := h2.count.trans hc
    cases hl : findLatestRound v2.1.rounds with
    | none =>
      exact safe_then (safe_startRound_some le_rfl (startable_one hc2 (by omega)))
        fun _ _ _ => trivial
    | some r =>
      have hr : r ∈ v2.1.rounds := List.argmax_mem hl
      have hnum := (h2i.table.number_mem hr).1
      refine Law.safe_ite (fun _ => trivial) fun _ => Law.safe_ite (fun _ => trivial) fun hlt => ?_
      refine safe_then (safe_startRound_some (by omega) ⟨.inr ⟨r, hr, by omega⟩, rc, hc2, by omega⟩)
        fun _ _ _ => trivial

theorem safe_restoreRoundScheduling :
    roundLaw.Safe j (fun _ _ => True) restoreRoundScheduling v := by
  refine Law.safe_bind (safe_select fun v1 _ _ => ?_)
  cases findActiveRound v1.1.rounds with
  | none =>
    exact Law.safe_bind (safe_select fun _ _ _ =>
      Law.safe_ite (fun _ => safe_recoverRoundGap) fun _ => trivial)
  | some r =>
    refine Law.safe_ite (fun _ => Law.safe_bind (safe_select fun _ _ _ => ?_)) fun _ => trivial
    exact Law.safe_ite (fun _ => trivial) fun _ =>
      safe_then (safe_quiet (minor_quiet.within_schedule _ _ _ _ _)) fun _ _ _ => trivial

theorem safe_handleHardeningEnd : roundLaw.Safe j (fun _ _ => True) handleHardeningEnd v := by
  refine Law.safe_bind (safe_select fun v1 h1 hi => Law.safe_ite (fun _ => trivial) fun hrun => ?_)
  have hs : v1.1.event.status = .running := not_not.1 (not_or.1 hrun).1
  obtain ⟨rc, hc, hpos, -⟩ := hi.count (by rw [hs]; decide)
  have hone := startable_one hc hpos
  refine Law.safe_bind (safe_utcNow fun _ v2 h2 => Law.safe_ite (fun _ => trivial) fun _ => ?_)
  refine Law.safe_bind (safe_select fun v3 h3 _ => Law.safe_ite (fun _ => trivial) fun _ => ?_)
  refine safe_then safe_enterAttack fun _ v4 h4 => safe_then (safe_tryReconcile _) fun _ v5 h5 => ?_
  have hgrow : RoundsGrow v1.1 v5.1 := ((h2.trans h3).trans h4).trans h5
  exact safe_then (safe_startRound_some le_rfl (hgrow.startable hone)) fun _ _ _ => trivial

theorem safe_handleRoundEnd (payload : Option Nat) :
    roundLaw.Safe j (fun _ _ => True) (handleRoundEnd payload) v := by
  have hend (id : Nat) (v : Db × Unit) : roundLaw.Safe j (fun _ _ => True) (do
      let event ← select (·.event)
      if event.status = .networkError then pure () else endRound id : AwdM Unit) v :=
    Law.safe_bind (safe_select fun _ _ _ =>
      Law.safe_ite (fun _ => trivial) fun _ => safe_endRound id)
  cases payload with
  | some id => exact hend id v
  | none =>
    refine Law.safe_bind (safe_select fun v1 _ _ => ?_)
    cases (findActiveRound v1.1.rounds).map (·.id) with
    | none => trivial
    | some id => exact hend id v1

theorem safe_handleRoundStart (n : Option Int) :
    roundLaw.Safe (.roundStart n) (fun _ _ => True) (handleRoundStart n) v := by
  refine Law.safe_bind (safe_select fun v1 _ _ => Law.safe_ite (fun _ => trivial) fun _ => ?_)
  exact safe_then (safe_startRound n fun k _ _ hc _ => (hc.2 k rfl).2 rfl) fun _ _ _ => trivial

theorem safe_freezeStage (e : AwdEvent) (now : Int) :
    roundLaw.Safe j (fun _ _ => True) (freezeStage e now) v := by
  unfold freezeStage
  cases e.phase with
  | hardening =>
    refine safe_then (Law.safe_tried (safe_quiet ?_)) fun _ _ _ => trivial
    exact within_write Quiet.refl fun _ =>
      ⟨rfl, rfl, rfl, rfl, rfl, le_rfl, fun h => h.filter _⟩
  | attack =>
    refine Law.safe_bind (safe_select fun v1 _ _ => ?_)
    cases findActiveRound v1.1.rounds with
    | none => trivial
    | some r => exact safe_then (safe_pauseRound _ _) fun _ _ _ => trivial
  | pause => trivial

theorem safe_pauseEvent : roundLaw.Safe j (fun _ _ => True) pauseEvent v := by
  refine Law.safe_bind (safe_select fun v1 _ _ => Law.safe_ite (fun _ => trivial) fun _ => ?_)
  refine Law.safe_bind (safe_utcNow fun _ _ _ => safe_then (safe_freezeStage _ _) fun _ _ _ => ?_)
  refine safe_then (safe_transition _ (by decide) (.inl (by decide))) fun _ _ _ =>
    safe_then (safe_tryReconcile _) fun res _ _ => ?_
  rcases res with e | ⟨⟩
  · exact safe_then (Law.safe_tried (safe_transition _ (by decide) (.inl (by decide))))
      fun _ _ _ => trivial
  · exact safe_requireEventNetwork

theorem safe_handleNetworkError : roundLaw.Safe j (fun _ _ => True) handleNetworkError v := by
  refine Law.safe_bind (safe_select fun v1 _ _ => Law.safe_bind (safe_utcNow fun _ _ _ => ?_))
  refine safe_then (safe_freezeStage _ _) fun _ _ _ => ?_
  have hs : v1.1.event.status.Started ∨
      AwdEventStatus.networkError ∉ v1.1.event.status.validTransitions := by
    cases v1.1.event.status <;> decide
  refine safe_then (safe_transition _ (by decide) hs) fun _ _ _ => ?_
  refine Law.safe_bind (safe_select fun v2 _ _ => ?_)
  cases findActiveRound v2.1.rounds with
  | none => trivial
  | some r => exact safe_pauseRoundStatus _

theorem safe_resumeEvent : roundLaw.Safe j (fun _ _ => True) resumeEvent v := by
  refine Law.safe_bind (safe_select fun v1 _ _ => Law.safe_ite (fun _ => trivial) fun hs => ?_)
  have hstarted : v1.1.event.status.Started := by
    refine ⟨fun h => hs ?_, fun h => hs ?_⟩ <;> simp [h]
  refine Law.safe_bind (safe_utcNow fun now _ _ => ?_)
  have hrec (phase : AwdPhase) (v : Db × Unit) :
      roundLaw.Safe j (fun _ _ => True) (reconcileResumed phase) v := by
    refine safe_then (safe_tryReconcile _) fun res _ _ => ?_
    rcases res with e | ⟨⟩
    · exact safe_then (Law.safe_tried (safe_transition _ (by decide) (.inl (by decide))))
        fun _ _ _ => trivial
    · exact safe_then safe_requireEventNetwork fun _ _ _ => Law.safe_ite
        (fun _ => safe_then safe_restoreRoundScheduling fun _ _ _ => trivial) fun _ => trivial
  cases v1.1.event.pausedPhase.getD .hardening with
  | hardening =>
    refine safe_then (safe_then (safe_transition _ (by decide) (.inl hstarted)) fun _ _ _ => ?_)
      fun _ _ _ => hrec _ _
    split
    · exact safe_quiet (minor_quiet.within_schedule _ _ _ _ _)
    · exact safe_enterAttack
  | attack =>
    refine safe_then (Law.safe_bind (safe_select fun v2 _ _ => ?_)) fun _ _ _ => hrec _ _
    cases findActiveRound v2.1.rounds with
    | none => exact safe_transition _ (by decide) (.inl hstarted)
    | some r =>
      exact safe_then (safe_resumeRound _ _) fun _ _ _ =>
        safe_transition _ (by decide) (.inl hstarted)
  | pause => trivial

/-- The transition that starts the event, once its timing was accepted. -/
theorem safe_startTransition (p : TransitionPatch) {rc : Int}
    (hc : v.1.event.roundCount = some rc) (hpos : 0 < rc) :
    roundLaw.Safe j (fun _ _ => True) (transitionEvent .verified .running p) v := by
  refine Law.safe_exec (roundSystem_unseen j _) fun v' hv hi _ db' a h => ?_
  obtain ⟨rfl, hst, -⟩ := transitionRow_ok h
  have hnil : v'.1.rounds = [] := hi.unstarted (by rw [hst]; decide)
  have hrun : (v'.1.event.patched .running p).status.Started := by
    simp [AwdEvent.patched, AwdEventStatus.Started]
  refine ⟨roundsGrow_of_eq rfl rfl fun _ => hrun, ⟨hi.table, fun hu => absurd hrun hu, fun _ => ?_⟩,
    trivial⟩
  refine ⟨rc, hv.count.trans hc, hpos, ?_⟩
  dsimp only
  rw [hnil, List.length_nil]
  exact hpos.le

theorem safe_startEvent : roundLaw.Safe j (fun _ _ => True) startEvent v := by
  refine Law.safe_bind (safe_select fun v1 h1 _ => Law.safe_ite (fun _ => trivial) fun _ =>
    Law.safe_ite (fun _ => trivial) fun _ => Law.safe_ite (fun _ => ?_) fun _ => ?_)
  · refine safe_then (Law.safe_tried ?_) fun _ _ _ => trivial
    refine Law.safe_exec (roundSystem_unseen j _) fun v' _ hi _ db' a h => ?_
    obtain ⟨rfl, hst, -⟩ := transitionRow_ok h
    have hu : ¬ v'.1.event.status.Started := by
      rw [hst]
      decide
    exact ⟨roundsGrow_of_eq rfl rfl fun hs => absurd hs hu, hi.of_eq rfl le_rfl rfl
      ⟨fun hs => absurd rfl hs.2, fun hs => absurd hs hu⟩, trivial⟩
  refine Law.safe_bind (safe_select fun v2 h2 _ => ?_)
  cases ht : computeTiming v2.1.generic.startTime v2.1.generic.endTime v1.1.event.roundCount
      v1.1.event.roundDurationSecs with
  | error e => trivial
  | ok t =>
    obtain ⟨hc, hpos, -⟩ := computeTiming_ok ht
    refine Law.safe_bind (safe_utcNow fun _ v3 h3 => ?_)
    refine safe_then (safe_quiet (seedInitialScores_within minor_quiet.toSlight _)) fun _ v4 h4 => ?_
    have hc4 : v4.1.event.roundCount = some t.roundCount :=
      ((h2.trans h3).trans h4).count.trans hc
    refine Law.safe_ite (fun _ => ?_) fun _ => ?_
    · exact safe_then (safe_startTransition _ hc4 hpos) fun _ _ _ =>
        safe_then (safe_quiet (minor_quiet.within_schedule _ _ _ _ _)) fun _ _ _ =>
          safe_then (safe_tryReconcile _) fun _ _ _ => trivial
    · refine safe_then (safe_startTransition _ hc4 hpos) fun _ v5 h5 =>
        safe_then (safe_tryReconcile _) fun _ v6 h6 => ?_
      exact safe_then (safe_startRound_some le_rfl
        ((h5.trans h6).startable (startable_one hc4 hpos))) fun _ _ _ => trivial

theorem safe_handleJudgeBatchDeadline (id : Nat) :
    roundLaw.Safe j (fun _ _ => True) (handleJudgeBatchDeadline id) v :=
  Law.safe_bind (safe_utcNow fun _ _ _ =>
    safe_then (safe_quiet (terminalizeBatchDeadline_within minor_quiet _ _)) fun _ _ _ =>
      safe_then (Law.safe_tried (safe_quiet (maybeCompleteBatch_within minor_quiet _))) fun _ _ _ =>
        safe_then (Law.safe_tried safe_maybeFinishEvent) fun _ _ _ => trivial)

theorem safe_runHandler (t : ScheduledTask) :
    roundLaw.Safe j (fun _ _ => True) (runHandler t) v := by
  unfold runHandler
  split
  · exact safe_handleHardeningEnd
  · exact safe_handleRoundEnd _
  · split
    · exact safe_handleJudgeBatchDeadline _
    · trivial

theorem safe_deliver (id : Nat) : roundLaw.Safe j (fun _ _ => True) (deliver id) v :=
  safe_then (safe_quiet (fetchTask_quiet id)) fun t _ _ =>
    safe_then (Law.safe_tried (safe_runHandler t)) fun res _ _ => safe_quiet (markDone_quiet t res)

theorem safe_recoverSchedules (e : AwdEvent) :
    roundLaw.Safe j (fun _ _ => True) (recoverSchedules e) v := by
  refine safe_then safe_restoreRoundScheduling fun _ _ _ =>
    safe_then (safe_quiet (restoreBatchDeadlines_within minor_quiet.toSlight)) fun _ _ _ =>
      safe_then (Law.safe_ite (fun _ => ?_) fun _ => trivial) fun _ _ _ =>
        safe_then (safe_quiet (recoverFinished_within Quiet.refl _)) fun _ _ _ => trivial
  refine Law.safe_bind (safe_select fun _ _ _ => Law.safe_ite (fun _ => trivial) fun _ => ?_)
  exact Law.safe_bind (safe_select fun _ _ _ => Law.safe_ite
    (fun _ => safe_then (Law.safe_tried safe_maybeFinishEvent) fun _ _ _ => trivial) fun _ => trivial)

theorem safe_restart (host : Host) : roundLaw.Safe j (fun _ _ => True) (restart host) v := by
  refine safe_then (Law.safe_tried ?_) fun _ _ _ => safe_quiet initAndRecover_quiet
  refine Law.safe_bind (safe_select fun _ _ _ => Law.safe_ite (fun _ => ?_) fun _ => trivial)
  refine safe_then (Law.safe_tried (safe_quiet (within_select Quiet.refl _))) fun row _ _ => ?_
  split
  · refine safe_then (Law.safe_tried ?_) fun _ _ _ => trivial
    exact safe_then (safe_quiet (reconcileContainers_within minor_quiet.toSlight _)) fun _ _ _ =>
      safe_then (safe_quiet (restoreWireguard_within minor_quiet.toSlight _)) fun _ _ _ =>
        safe_then (safe_quiet (within_nextNetworkRevision Quiet.refl)) fun _ _ _ =>
          safe_then (safe_quiet (within_reconcileGlobal Quiet.refl _)) fun _ _ _ =>
            safe_then (safe_quiet (restoreHardeningEnd_within minor_quiet.toSlight _)) fun _ _ _ =>
              safe_then (safe_recoverSchedules _) fun _ _ _ => trivial
  · trivial

end Safe

/-! ## Runs -/

theorem roundLaw_keeps : roundLaw.Keeps where
  prog j v _ := by
    cases j with
    | startEvent => exact safe_startEvent
    | pauseEvent => exact safe_pauseEvent
    | resumeEvent => exact safe_resumeEvent
    | networkError => exact safe_handleNetworkError
    | recoverRoundGap => exact safe_then safe_recoverRoundGap fun _ _ _ => trivial
    | restoreRoundScheduling => exact safe_then safe_restoreRoundScheduling fun _ _ _ => trivial
    | hardeningEnd => exact safe_handleHardeningEnd
    | roundStart n => exact safe_handleRoundStart n
    | roundEnd payload => exact safe_handleRoundEnd payload
    | endRound id => exact safe_endRound id
    | deliver id => exact safe_deliver id
    | restart host => exact safe_restart host
  env d v hi := ⟨roundsGrow_of_eq rfl rfl id, RoundsOrdered.of_eq hi rfl le_rfl rfl Iff.rfl⟩

/-- Between the settlement of the event and any later state no round is created. -/
theorem RoundsGrow.of_settled (h : RoundsGrow db db') (ho : RoundsOrdered db)
    (ho' : RoundsOrdered db') (hf : db.FinalSettlement) : db'.roundKeys = db.roundKeys := by
  obtain ⟨-, rc, hc, r, hr, hnum, -⟩ := hf
  have hle : rc ≤ db.rounds.length := hnum ▸ (ho.table.number_mem hr).2
  have hstarted : db'.event.status.Started := h.started (by
    by_contra hu
    rw [ho.unstarted hu] at hr
    cases hr)
  obtain ⟨rc', hc', -, hle'⟩ := ho'.count hstarted
  rw [h.count, Option.mem_def.1 hc] at hc'
  cases hc'
  refine (h.keys.eq_of_length_le ?_).symm
  rw [Db.roundKeys, Db.roundKeys, List.length_map, List.length_map]
  omega

theorem Fresh.roundsOrdered (h : Fresh db) : RoundsOrdered db where
  table := h.orderly.table
  unstarted _ := h.rounds
  count hs := absurd h.status hs.1

/-- In every interleaving whose statements meet `KeepsSequence`, the rounds of the event are a
sequence, and none is created after the final settlement. -/
theorem roundSequence_run {db : Db} (hdb : Fresh db) {acts : List (Act RoundJob Nat)}
    (hacts : Along roundSystem.step (Meets KeepsSequence) (RoundPool.initial db) acts) :
    RoundSequence (acts.foldl roundSystem.step (RoundPool.initial db)).state ∧
    ∀ pre post, acts = pre ++ post →
      (pre.foldl roundSystem.step (RoundPool.initial db)).state.FinalSettlement →
      (acts.foldl roundSystem.step (RoundPool.initial db)).state.roundKeys =
        (pre.foldl roundSystem.step (RoundPool.initial db)).state.roundKeys := by
  have hinit : roundLaw.PoolOk (RoundPool.initial db) :=
    ⟨hdb.roundsOrdered, fun t ht => absurd ht List.not_mem_nil⟩
  refine ⟨(Law.poolOk_run roundLaw_keeps hinit hacts).1.inv.sequence, ?_⟩
  rintro pre post rfl hf
  rw [along_append] at hacts
  obtain ⟨hpre, -, -⟩ := Law.poolOk_run roundLaw_keeps hinit hacts.1
  obtain ⟨hpost, hgrow, -⟩ := Law.poolOk_run roundLaw_keeps hpre hacts.2
  rw [List.foldl_append]
  exact RoundsGrow.of_settled hgrow hpre.inv hpost.inv hf

/-- Two deliveries of the end of round 1 that run side by side, and a pause after them. -/
def twoEndsRun : List (Act RoundJob Nat) :=
  [.spawn .startEvent] ++ List.replicate 20 (.step 0 true) ++
  [.spawn (.endRound 11), .spawn (.endRound 11), .step 1 true, .step 2 true] ++
  List.replicate 20 (.step 1 true) ++ List.replicate 20 (.step 2 true) ++
  [.spawn .pauseEvent] ++ List.replicate 10 (.step 3 true)

theorem roundSequence_twoEndsRun :
    ((twoEndsRun.foldl roundSystem.step (RoundPool.initial twoRoundDb)).state.rounds.map
      (·.status)) = [.completed, .paused] ∧
    RoundSequence (twoEndsRun.foldl roundSystem.step (RoundPool.initial twoRoundDb)).state :=
  ⟨by decide +kernel, (roundSequence_run ⟨rfl, rfl, rfl, rfl, rfl⟩ (by decide +kernel)).1⟩

end FloatCtf.Awd
