import FloatCtf.Awdp.RunSteps
import FloatCtf.Process.Pool

/-!
# One live run

A competition event has one run, and a user has one live practice run of a gamebox.  The two queries
and the unique index that see to it do not look at PreparingFix, and the index never refuses a
competition run, whose gamebox and owner are NULL.  `singleLive_run` shows the property for every
interleaving in which a run is created only for an event, or a user and a gamebox, that the checks
have seen as it is, and `singleLive_not_preparing` that an event in PreparingFix gets a second
run. -/

namespace FloatCtf.Awdp

open Process

/-! ## The system -/

/-- The jobs on runs. -/
inductive RunJob where
  | tick (skipped : List Nat)
  | adminStart (eventId : Nat)
  | adminBreakToFix (eventId : Nat)
  | adminFinish (eventId : Nat)
  | startTraining (userId gameboxId : Nat)
  | trainAgain (userId oldRunId : Nat)
  | launch (runId : Nat)
  | practiceFix (runId : Nat)
  | practiceBreak (runId : Nat)
  | practiceEnd (runId : Nat)

/-- The program of a job. -/
def RunJob.prog : RunJob → AwdpM Unit
  | tick skipped => do let _ ← tickOnce skipped
  | adminStart eventId => startAwdpEvent eventId
  | adminBreakToFix eventId => breakToFix eventId
  | adminFinish eventId => finishAwdpEvent eventId
  | startTraining userId gameboxId => do let _ ← Awdp.startTraining userId gameboxId
  | trainAgain userId oldRunId => do let _ ← Awdp.trainAgain userId oldRunId
  | launch runId => launchPracticeRun runId
  | practiceFix runId => transitionBreakToFix runId
  | practiceBreak runId => transitionFixToBreak runId
  | practiceEnd runId => endPracticeSession runId

/-- Time passes, or the session of a lock ends. -/
inductive RunEnv where
  | advance (secs : Nat)
  | dropLock (instanceId : Nat)

/-- What happens beside the jobs. -/
def RunEnv.act : RunEnv → Db → Db
  | advance secs, db => { db with now := db.now + secs }
  | dropLock instanceId, db => { db with locks := db.locks.erase instanceId }

/-- The jobs on runs, without ghost state. -/
def runSystem : System Stmt Db AwdpError Unit RunJob RunEnv where
  prog := RunJob.prog
  env := RunEnv.act
  watch _ _ _ g := g

/-- The jobs under way. -/
abbrev RunPool := Pool Stmt Db AwdpError Unit RunJob

/-- Nothing has been started. -/
def RunPool.initial (db : Db) : RunPool := ⟨db, (), []⟩

/-! ## The property -/

/-- The run has not ended. -/
def Run.live (r : Run) : Bool := r.phase ≠ .ended

/-- The live runs of an event, and of a gamebox and a user. -/
def Db.liveOf (db : Db) (eventId : Nat) : List Run :=
  db.runs.filter fun r => r.eventId = eventId ∧ r.live

/-- The live training runs of a user on a gamebox. -/
def Db.trainingOf (db : Db) (gameboxId userId : Nat) : List Run :=
  db.runs.filter fun r => r.gameboxId = some gameboxId ∧ r.ownerUserId = some userId ∧ r.live

/-- No competition and no trainee has two live runs, and a competition that has ended is not run
again. -/
structure SingleLive (db : Db) : Prop where
  event : ∀ e ∈ db.events, e.competition = true → (db.liveOf e.id).length ≤ 1
  once : ∀ e ∈ db.events, e.competition = true → (∃ r ∈ db.runs, r.eventId = e.id ∧ !r.live) →
    (db.runs.filter (·.eventId = e.id)).length ≤ 1
  training : ∀ gameboxId userId, (db.trainingOf gameboxId userId).length ≤ 1
  slot : ∀ r ∈ db.runs, r.phase = .preparingFix → db.slotTaken { r with phase := .fix } = false

/-- A competition run is created when every run of the event was listed, as ended; a practice run
when the user has no run of the gamebox in PreparingFix. -/
def runOk (l : Stmt) (db : Db) : Bool :=
  match l with
  | .createRun eventId none _ seen => db.runs.all fun r =>
      r.eventId ≠ eventId || seen.any fun s => s.id = r.id ∧ s.phase = .ended
  | .createRun _ (some gameboxId) ownerUserId _ => db.runs.all fun r =>
      r.gameboxId ≠ some gameboxId || r.ownerUserId ≠ ownerUserId || r.phase ≠ .preparingFix
  | _ => true

/-- The next statement keeps clear of the defects. -/
def RunOk (_ : RunJob) (l : Stmt) (v : Db × Unit) : Prop := runOk l v.1 = true

instance (j : RunJob) (l : Stmt) (v : Db × Unit) : Decidable (RunOk j l v) :=
  inferInstanceAs (Decidable (_ = true))

/-! ## The invariant -/

/-- What holds of the events and the runs. -/
structure RunInv (db : Db) : Prop where
  keyed : Table.Keyed Run.id db.runs
  ids : ∀ r ∈ db.runs, r.id < db.nextId
  events : Table.Keyed Event.id db.events
  virtual : ∀ e ∈ db.events, ∀ e' ∈ db.events, e.systemKey = some practiceSystemKey →
    e'.systemKey = some practiceSystemKey → e = e'
  hidden : ∀ e ∈ db.events, e.systemKey = some practiceSystemKey → e.competition = false
  mounted : ∀ r ∈ db.runs, r.practice = true →
    ∃ e ∈ db.events, e.id = r.eventId ∧ e.systemKey = some practiceSystemKey
  one : ∀ e ∈ db.events, e.competition = true → ∀ r ∈ db.runs, ∀ r' ∈ db.runs,
    r.eventId = e.id → r'.eventId = e.id → r = r'
  alone : ∀ r ∈ db.runs, ∀ r' ∈ db.runs, r.practice = true → r.gameboxId = r'.gameboxId →
    r.ownerUserId = r'.ownerUserId → r.live = true → r'.live = true → r = r'

theorem indexKey_some {r : Run} {k : Nat × Nat × Nat} (h : r.indexKey = some k) :
    r.gameboxId = some k.2.1 ∧ r.ownerUserId = some k.2.2 ∧ r.eventId = k.1 ∧
      r.phase.indexed = true := by
  unfold Run.indexKey at h
  split at h
  · split_ifs at h with hp
    cases h
    exact ⟨‹_›, ‹_›, rfl, hp⟩
  · cases h

theorem live_of_indexed {r : Run} (h : r.phase.indexed = true) : r.live = true := by
  unfold Run.live
  cases hp : r.phase <;> simp_all [AwdpPhase.indexed]

theorem indexed_of_live {r : Run} (hl : r.live = true) (hp : r.phase ≠ .preparingFix) :
    r.phase.indexed = true := by
  simp only [Run.live, decide_eq_true_eq] at hl
  revert hl hp
  cases r.phase <;> decide

theorem RunInv.slot {db : Db} (h : RunInv db) {r : Run} (hr : r ∈ db.runs)
    (hp : r.phase = .preparingFix) : db.slotTaken { r with phase := .fix } = false := by
  rw [← Bool.not_eq_true]
  intro htaken
  simp only [Db.slotTaken, decide_eq_true_eq, List.any_eq_true] at htaken
  obtain ⟨hsome, r', hr', hne, hkey⟩ := htaken
  obtain ⟨k, hk⟩ := Option.isSome_iff_exists.1 hsome
  obtain ⟨hg, hu, -, -⟩ := indexKey_some hk
  obtain ⟨hg', hu', -, hi'⟩ := indexKey_some (hkey.trans hk)
  have hlive : r.live = true := by simp [Run.live, hp]
  have hprac : r.practice = true := by
    have : r.gameboxId = some k.2.1 := hg
    simp [Run.practice, this]
  refine hne ?_
  rw [h.alone r hr r' hr' hprac (Eq.trans hg hg'.symm) (Eq.trans hu hu'.symm) hlive
    (live_of_indexed hi')]

theorem RunInv.singleLive {db : Db} (h : RunInv db) : SingleLive db := by
  refine ⟨fun e he hc => ?_, fun e he hc _ => ?_, fun g u => ?_, fun r hr hp => h.slot hr hp⟩
  · refine Table.length_filter_le_one h.keyed fun r hr r' hr' hp hp' => ?_
    simp only [decide_eq_true_eq] at hp hp'
    exact h.one e he hc r hr r' hr' hp.1 hp'.1
  · refine Table.length_filter_le_one h.keyed fun r hr r' hr' hp hp' => ?_
    simp only [decide_eq_true_eq] at hp hp'
    exact h.one e he hc r hr r' hr' hp hp'
  · refine Table.length_filter_le_one h.keyed fun r hr r' hr' hp hp' => ?_
    simp only [decide_eq_true_eq] at hp hp'
    have hprac : r.practice = true := by simp [Run.practice, hp.1]
    exact h.alone r hr r' hr' hprac (hp.1.trans hp'.1.symm) (hp.2.1.trans hp'.2.1.symm) hp.2.2
      hp'.2.2

/-! ## One statement -/

/-- A run is edited in place, and an ended one stays ended. -/
structure RunEdit (r r' : Run) : Prop where
  id : r'.id = r.id
  eventId : r'.eventId = r.eventId
  gameboxId : r'.gameboxId = r.gameboxId
  ownerUserId : r'.ownerUserId = r.ownerUserId
  ended : r.phase = .ended → r'.phase = .ended

theorem RunEdit.practice {r r' : Run} (h : RunEdit r r') : r'.practice = r.practice := by
  rw [Run.practice, h.gameboxId]
  rfl

theorem RunEdit.live {r r' : Run} (h : RunEdit r r') (hl : r'.live = true) : r.live = true := by
  simp only [Run.live, decide_eq_true_eq] at hl ⊢
  exact fun he => hl (h.ended he)

theorem RunEdit.refl (r : Run) : RunEdit r r := ⟨rfl, rfl, rfl, rfl, fun h => h⟩

/-- What a program relies on: an event stays. -/
def RunRely (db db' : Db) : Prop := ∀ e ∈ db.events, e ∈ db'.events

section Steps

variable {db db' : Db}

/-- The runs are edited in place. -/
theorem RunInv.map (h : RunInv db) {f : Run → Run} (hevents : db'.events = db.events)
    (hnext : db.nextId ≤ db'.nextId) (hruns : db'.runs = db.runs.map f)
    (hid : ∀ r, (f r).id = r.id) (hf : ∀ r ∈ db.runs, RunEdit r (f r)) :
    RunRely db db' ∧ RunInv db' := by
  have hmem {r : Run} (hr : r ∈ db'.runs) : ∃ r₀ ∈ db.runs, f r₀ = r := by
    rw [hruns] at hr
    exact List.mem_map.1 hr
  refine ⟨fun e he => hevents ▸ he, ?_, fun r hr => ?_, hevents ▸ h.events, hevents ▸ h.virtual,
    hevents ▸ h.hidden, fun r hr hp => ?_, fun e he hc r hr r' hr' hid₁ hid₂ => ?_,
    fun r hr r' hr' hp hg hu hl hl' => ?_⟩
  · rw [hruns]
    exact Table.keyed_map hid h.keyed
  · obtain ⟨r₀, hr₀, rfl⟩ := hmem hr
    rw [hid]
    exact Nat.lt_of_lt_of_le (h.ids r₀ hr₀) hnext
  · obtain ⟨r₀, hr₀, rfl⟩ := hmem hr
    rw [(hf r₀ hr₀).practice] at hp
    rw [hevents, (hf r₀ hr₀).eventId]
    exact h.mounted r₀ hr₀ hp
  · obtain ⟨a, ha, rfl⟩ := hmem hr
    obtain ⟨b, hb, rfl⟩ := hmem hr'
    rw [(hf a ha).eventId] at hid₁
    rw [(hf b hb).eventId] at hid₂
    rw [h.one e (hevents ▸ he) hc a ha b hb hid₁ hid₂]
  · obtain ⟨a, ha, rfl⟩ := hmem hr
    obtain ⟨b, hb, rfl⟩ := hmem hr'
    rw [(hf a ha).practice] at hp
    rw [(hf a ha).gameboxId, (hf b hb).gameboxId] at hg
    rw [(hf a ha).ownerUserId, (hf b hb).ownerUserId] at hu
    rw [h.alone a ha b hb hp hg hu ((hf a ha).live hl) ((hf b hb).live hl')]

theorem RunInv.same (h : RunInv db) (hevents : db'.events = db.events)
    (hnext : db.nextId ≤ db'.nextId) (hruns : db'.runs = db.runs) :
    RunRely db db' ∧ RunInv db' :=
  h.map (f := id) hevents hnext (by simpa using hruns) (fun _ => rfl) fun r _ => .refl r

/-- One run is edited. -/
theorem RunInv.edit (h : RunInv db) {id : Nat} {run : Run} {f : Run → Run}
    (hrow : db.runById id = some run) (hruns : db'.runs = (db.editRun id f).runs)
    (hevents : db'.events = db.events) (hnext : db.nextId ≤ db'.nextId)
    (hid : ∀ r, (f r).id = r.id) (hf : RunEdit run (f run)) : RunRely db db' ∧ RunInv db' := by
  obtain ⟨hmem, hrowId⟩ := Table.mem_of_find hrow
  refine h.map hevents hnext hruns (fun r => ?_) fun r hr => ?_
  · split_ifs
    · exact hid r
    · rfl
  · split_ifs with heq
    · rw [Table.eq_of_key h.keyed hr hmem (heq.trans hrowId.symm)]
      exact hf
    · exact .refl r

/-- The virtual event of the practice runs. -/
theorem RunInv.createEvent (h : RunInv db) (now : Int)
    (hnew : ∀ e ∈ db.events, e.id ≠ eventPracticeAwdp ∧ e.systemKey ≠ some practiceSystemKey) :
    RunRely db { db with events := db.events ++ [practiceEvent now] } ∧
      RunInv { db with events := db.events ++ [practiceEvent now] } := by
  have hold {e : Event} (he : e ∈ db.events ++ [practiceEvent now])
      (hk : e.systemKey = some practiceSystemKey) : e = practiceEvent now := by
    rcases List.mem_append.1 he with he | he
    · exact absurd hk (hnew e he).2
    · exact List.mem_singleton.1 he
  refine ⟨fun e he => List.mem_append_left _ he, h.keyed, h.ids,
    Table.keyed_append h.events fun e he => (hnew e he).1, fun e he e' he' hk hk' => ?_,
    fun e he hk => ?_, fun r hr hp => ?_, fun e he hc => ?_, h.alone⟩
  · rw [hold he hk, hold he' hk']
  · rw [hold he hk]
    rfl
  · obtain ⟨e, he, hid⟩ := h.mounted r hr hp
    exact ⟨e, List.mem_append_left _ he, hid⟩
  · rcases List.mem_append.1 he with he | he
    · exact h.one e he hc
    · rw [List.mem_singleton.1 he] at hc
      cases hc

/-- A new run, of which the event and the owner have no other one. -/
theorem RunInv.insert (h : RunInv db) {r : Run} (hid : r.id = db.nextId)
    (hmount : r.practice = true →
      ∃ e ∈ db.events, e.id = r.eventId ∧ e.systemKey = some practiceSystemKey)
    (hone : ∀ e ∈ db.events, e.competition = true → r.eventId = e.id →
      ∀ r' ∈ db.runs, r'.eventId ≠ e.id)
    (halone : ∀ r' ∈ db.runs, r.practice = true → r'.gameboxId = r.gameboxId →
      r'.ownerUserId = r.ownerUserId → r'.live = false) :
    RunRely db (db.insertRun r) ∧ RunInv (db.insertRun r) := by
  refine ⟨fun e he => he, Table.keyed_append h.keyed fun r' hr' heq => ?_, fun r' hr' => ?_,
    h.events, h.virtual, h.hidden, fun r' hr' hp => ?_, fun e he hc r₁ h₁ r₂ h₂ he₁ he₂ => ?_,
    fun r₁ h₁ r₂ h₂ hp hg hu hl₁ hl₂ => ?_⟩
  · have := h.ids r' hr'
    rw [heq, hid] at this
    exact Nat.lt_irrefl _ this
  · show r'.id < db.nextId + 1
    rcases List.mem_append.1 hr' with hr' | hr'
    · exact Nat.lt_succ_of_lt (h.ids r' hr')
    · rw [List.mem_singleton.1 hr', hid]
      exact Nat.lt_succ_self _
  · rcases List.mem_append.1 hr' with hr' | hr'
    · exact h.mounted r' hr' hp
    · rw [List.mem_singleton.1 hr'] at hp ⊢
      exact hmount hp
  · rcases List.mem_append.1 h₁ with h₁ | h₁ <;> rcases List.mem_append.1 h₂ with h₂ | h₂
    · exact h.one e he hc r₁ h₁ r₂ h₂ he₁ he₂
    · exact absurd he₁ (hone e he hc (List.mem_singleton.1 h₂ ▸ he₂) r₁ h₁)
    · exact absurd he₂ (hone e he hc (List.mem_singleton.1 h₁ ▸ he₁) r₂ h₂)
    · rw [List.mem_singleton.1 h₁, List.mem_singleton.1 h₂]
  · rcases List.mem_append.1 h₁ with h₁ | h₁ <;> rcases List.mem_append.1 h₂ with h₂ | h₂
    · exact h.alone r₁ h₁ r₂ h₂ hp hg hu hl₁ hl₂
    · rw [List.mem_singleton.1 h₂] at hg hu
      have hprac : r.practice = true := by rwa [Run.practice, ← hg]
      rw [halone r₁ h₁ hprac hg hu] at hl₁
      cases hl₁
    · rw [List.mem_singleton.1 h₁] at hg hu hp
      rw [halone r₂ h₂ hp hg.symm hu.symm] at hl₂
      cases hl₂
    · rw [List.mem_singleton.1 h₁, List.mem_singleton.1 h₂]

/-- What the programs see to before a run is created: no run that was listed is ended, and practice
runs belong to the virtual event. -/
def Stmt.runReady (l : Stmt) (db : Db) : Prop :=
  match l with
  | .createRun _ none _ seen => seen.any (·.phase = .ended) = false
  | .createRun eventId (some _) ownerUserId _ => ownerUserId.isSome = true ∧
      ∃ e ∈ db.events, e.id = eventId ∧ e.systemKey = some practiceSystemKey
  | _ => True

theorem RunInv.createCompetition (h : RunInv db) {eventId : Nat} {owner : Option Nat}
    {seen : List Run} (hok : runOk (.createRun eventId none owner seen) db = true)
    (hready : (Stmt.createRun eventId none owner seen).runReady db) (config : AwdpConfig)
    (next : Option Int) :
    RunRely db (db.insertRun (.created db.nextId eventId none owner config next)) ∧
      RunInv (db.insertRun (.created db.nextId eventId none owner config next)) := by
  refine h.insert rfl (fun hp => nomatch hp) (fun e he hc hid r hr hre => ?_) fun _ _ hp => nomatch hp
  -- a run of the event would have been listed as ended, and the list has no such run
  have hrow := List.all_eq_true.1 hok r hr
  have heq : r.eventId = eventId := hre.trans hid.symm
  simp only [heq, ne_eq, not_true_eq_false, decide_false, Bool.false_or, List.any_eq_true,
    decide_eq_true_eq] at hrow
  obtain ⟨s, hs, -, hended⟩ := hrow
  have := List.any_eq_false.1 hready s hs
  simp [hended] at this

/-- A live run of the gamebox and the user is in the index, but for PreparingFix. -/
theorem RunInv.createPractice (h : RunInv db) {eventId gameboxId : Nat} {owner : Option Nat}
    {seen : List Run} (hok : runOk (.createRun eventId (some gameboxId) owner seen) db = true)
    (hready : (Stmt.createRun eventId (some gameboxId) owner seen).runReady db)
    {config : AwdpConfig} {next : Option Int}
    (hslot : db.slotTaken (.created db.nextId eventId (some gameboxId) owner config next) = false) :
    RunRely db (db.insertRun (.created db.nextId eventId (some gameboxId) owner config next)) ∧
      RunInv (db.insertRun (.created db.nextId eventId (some gameboxId) owner config next)) := by
  obtain ⟨howner, e, he, hid, hkey⟩ := hready
  obtain ⟨u, rfl⟩ := Option.isSome_iff_exists.1 howner
  refine h.insert rfl (fun _ => ⟨e, he, hid, hkey⟩) (fun e' he' hc hid' => ?_)
    fun r hr _ hg hu => ?_
  · have heq : e = e' := Table.eq_of_key h.events he he' (hid.trans hid')
    rw [← heq, h.hidden e he hkey] at hc
    cases hc
  · rw [← Bool.not_eq_true]
    intro hlive
    have hrow := List.all_eq_true.1 hok r hr
    have hg' : r.gameboxId = some gameboxId := hg
    have hu' : r.ownerUserId = some u := hu
    obtain ⟨e', he', hid', hkey'⟩ := h.mounted r hr (by simp [Run.practice, hg'])
    have hevent : r.eventId = eventId := by
      rw [← hid', h.virtual e' he' e he hkey' hkey, hid]
    have hpreparing : r.phase ≠ .preparingFix := by simpa [hg', hu'] using hrow
    have hindexed := indexed_of_live hlive hpreparing
    have hne : r.id ≠ db.nextId := Nat.ne_of_lt (h.ids r hr)
    have : db.slotTaken (.created db.nextId eventId (some gameboxId) (some u) config next)
        = true := by
      have hrkey : r.indexKey = some (eventId, gameboxId, u) := by
        simp [Run.indexKey, hg', hu', hindexed, hevent]
      simp only [Db.slotTaken, decide_eq_true_eq, List.any_eq_true]
      exact ⟨rfl, r, hr, hne, hrkey⟩
    rw [hslot] at this
    cases this

theorem insertEvaluations_runs (is : List Instance) (runId : Nat) (roundId : Option Nat)
    (kind : EvaluationKind) (now : Int) (db : Db) :
    let db' := is.foldl (fun db i => db.insertEvaluation runId i.id roundId kind now) db
    db'.events = db.events ∧ db.nextId ≤ db'.nextId ∧ db'.runs = db.runs := by
  induction is generalizing db with
  | nil => exact ⟨rfl, Nat.le_refl _, rfl⟩
  | cons i is ih =>
    obtain ⟨he, hn, hr⟩ := ih (db.insertEvaluation runId i.id roundId kind now)
    exact ⟨he, Nat.le_trans (Nat.le_succ _) hn, hr⟩

/-- A phase that has a next one is not the last. -/
theorem not_ended_of_canTransitionTo {p q : AwdpPhase} (h : p.canTransitionTo q = true) :
    p ≠ .ended := by
  rintro rfl
  cases q <;> cases h

/-- One statement under the condition. -/
theorem RunInv.step (h : RunInv db) {l : Stmt} (hok : runOk l db = true) (hready : l.runReady db)
    (hs : RunStep l db db') : RunRely db db' ∧ RunInv db' := by
  rcases hs with ⟨locks, rfl⟩ | hs
  · exact h.same rfl (Nat.le_refl _) rfl
  · cases l
    case resetInstance id =>
      obtain ⟨generation, rfl⟩ := hs
      exact h.same rfl (Nat.le_refl _) rfl
    case createPracticeEvent =>
      obtain ⟨hnew, now, rfl⟩ := hs
      exact h.createEvent now hnew
    case createRun eventId gameboxId ownerUserId seen =>
      obtain ⟨config, next, hslot, rfl⟩ := hs
      cases gameboxId with
      | none => exact h.createCompetition hok hready config next
      | some gameboxId => exact h.createPractice hok hready hslot
    case transition id expected target =>
      obtain ⟨run, p, hrow, hphase, hcan, -, rfl⟩ := hs
      refine h.edit hrow rfl rfl (Nat.le_refl _) (fun _ => rfl) ⟨rfl, rfl, rfl, rfl, fun he => ?_⟩
      exact absurd (hphase.symm.trans he) (not_ended_of_canTransitionTo hcan)
    case rewind id =>
      obtain ⟨run, hrow, -, hphase, rfl⟩ := hs
      refine h.edit (f := (·.rewound db.now)) hrow rfl rfl (Nat.le_refl _) (fun _ => rfl)
        ⟨rfl, rfl, rfl, rfl, fun he => ?_⟩
      rw [hphase] at he
      cases he
    case endPractice id =>
      obtain ⟨run, hrow, -, rfl⟩ := hs
      exact h.edit hrow rfl rfl (Nat.le_refl _) (fun _ => rfl) ⟨rfl, rfl, rfl, rfl, fun _ => rfl⟩
    case touchTick id =>
      obtain ⟨run, currentRound, next, hrow, rfl⟩ := hs
      exact h.edit hrow rfl rfl (Nat.le_refl _) (fun _ => rfl) ⟨rfl, rfl, rfl, rfl, fun he => he⟩
    case insertRound runId sequence =>
      obtain ⟨w, -, -, rfl⟩ := hs
      exact h.same rfl (Nat.le_succ _) rfl
    case materializeRound runId roundId =>
      obtain ⟨round, now, -, -, rfl⟩ := hs
      obtain ⟨he, hn, hr⟩ := insertEvaluations_runs (db.unevaluated runId roundId) runId
        (some roundId) .official now db
      exact h.same he hn hr
    case completeRound id =>
      obtain ⟨round, -, rfl⟩ := hs
      exact h.same rfl (Nat.le_refl _) rfl
    all_goals cases hs

end Steps

/-! ## Programs -/

/-- What every interleaving keeps under the condition. -/
def runLaw : Law runSystem where
  rely v v' := RunRely v.1 v'.1
  guar _ v v' := RunRely v.1 v'.1
  inv v := RunInv v.1
  cond := RunOk
  refl _ _ he := he
  trans h h' e he := h' e (h e he)
  guar_refl _ _ _ he := he
  rely_of_guar h := h

section Safe

variable {j : RunJob} {v : Db × Unit} {α : Type} {Q : α → Db × Unit → Prop}

theorem runReady_of_not_creates {l : Stmt} (h : l.creates = false) (db : Db) : l.runReady db := by
  cases l
  case createRun => cases h
  all_goals trivial

/-- A statement that creates no run. -/
def MoveStep (l : Stmt) (db db' : Db) : Prop := RunStep l db db' ∧ l.creates = false

instance : MovesRuns MoveStep := ⟨fun hl hs => ⟨hs, hl⟩⟩

theorem safe_select {f : Db → α} (h : ∀ v' : Db × Unit, RunRely v.1 v'.1 → RunInv v'.1 →
    Q (f v'.1) v') : runLaw.Safe j Q (select f) v :=
  Process.Law.safe_query (fun _ _ => rfl) fun v' hv hi _ => h v' hv hi

/-- A program of the runs that creates none. -/
theorem run_does {p : AwdpM α} (hp : p.Does MoveStep) :
    runLaw.Safe j (fun _ _ => True) p v :=
  Process.Law.safe_of_does hp fun _ db _ _ hi hc hs =>
    RunInv.step hi hc (runReady_of_not_creates hs.2 db) hs.1

/-- A statement of the run programs. -/
theorem run_exec {l : Stmt} {e : AwdpError} {f : Db → Except AwdpError (Db × α)}
    (hdoes : (Prog.exec l e f : AwdpM α).Does RunStep)
    (hready : ∀ db, RunRely v.1 db → RunInv db → l.runReady db)
    (hQ : ∀ db db' a, f db = .ok (db', a) → Q a (db', ())) :
    runLaw.Safe j Q (Prog.exec l e f) v := by
  refine Process.Law.safe_exec (fun _ _ => rfl) fun v' hv hi hc s a hf => ?_
  have hstep := (hdoes v'.1).1
  rw [Prog.after_of_ok hf] at hstep
  obtain ⟨hr, hinv⟩ := RunInv.step hi hc (hready v'.1 hv hi) hstep
  exact ⟨hr, hinv, hQ _ _ _ hf⟩

/-- The event is the virtual event. -/
def Db.isVirtual (db : Db) (eventId : Nat) : Prop :=
  ∃ e ∈ db.events, e.id = eventId ∧ e.systemKey = some practiceSystemKey

theorem run_findPracticeEvent : runLaw.Safe j
    (fun found v' => ∀ e ∈ found, v'.1.isVirtual e.id) findPracticeEvent v := by
  refine safe_select fun v' _ _ e he => ?_
  exact ⟨e, List.mem_of_find?_eq_some he, rfl, by simpa using List.find?_some he⟩

/-- The insert of the virtual event. -/
theorem run_createEvent (now : Int) : runLaw.Safe j
    (fun created v' => created = true → v'.1.isVirtual eventPracticeAwdp)
    (Prog.exec .createPracticeEvent dbError fun db =>
      if db.events.any fun e => e.id = eventPracticeAwdp ∨ e.systemKey = some practiceSystemKey then
        .ok (db, false)
      else .ok ({ db with events := db.events ++ [practiceEvent now] }, true)) v := by
  refine run_exec (runs_createEvent now) (fun _ _ _ => trivial) fun db db' created hf hc => ?_
  split_ifs at hf
  · cases hf
    cases hc
  · cases hf
    exact ⟨practiceEvent now, List.mem_append_right _ List.mem_cons_self, rfl, rfl⟩

theorem run_ensurePracticeEvent : runLaw.Safe j (fun id v' => v'.1.isVirtual id)
    ensurePracticeEvent v := by
  refine Process.Law.safe_bind (run_findPracticeEvent.imp fun found v₁ h₁ => ?_)
  cases found with
  | some e => exact h₁ e rfl
  | none =>
    refine Process.Law.safe_seq (run_does does_utcNow) fun now v₂ _ => ?_
    refine Process.Law.safe_bind ((run_createEvent now).imp fun created v₃ h₃ => ?_)
    refine Process.Law.safe_ite (fun hc => h₃ hc) fun _ => ?_
    refine Process.Law.safe_bind (run_findPracticeEvent.imp fun found v₄ h₄ => ?_)
    cases found with
    | some e => exact h₄ e rfl
    | none => trivial

theorem run_createPracticeRun (gameboxId ownerUserId : Nat) (config : AwdpConfig) :
    runLaw.Safe j (fun _ _ => True) (createPracticeRun gameboxId ownerUserId config) v := by
  refine Process.Law.safe_seq (run_does (does_ofExcept _)) fun _ v₁ _ => ?_
  refine Process.Law.safe_bind (run_ensurePracticeEvent.imp fun eventId v₂ h₂ => ?_)
  refine Process.Law.safe_seq (run_exec (does_insertRun _ _ _ _ _ _) (fun db hr _ => ?_)
    fun _ _ _ _ => trivial) fun r _ _ => ?_
  · obtain ⟨e, he, hid⟩ := h₂
    exact ⟨rfl, e, hr e he, hid⟩
  · cases r <;> trivial

theorem run_startTraining (userId gameboxId : Nat) :
    runLaw.Safe j (fun _ _ => True) (startTraining userId gameboxId) v := by
  refine Process.Law.safe_seq (run_does (does_findGameboxIdentity _)) fun _ v₁ _ => ?_
  refine Process.Law.safe_seq (run_does (does_select _)) fun found v₂ _ => ?_
  cases found with
  | some run => trivial
  | none =>
    refine Process.Law.safe_bind (run_ensurePracticeEvent.imp fun eventId v₃ _ => ?_)
    refine Process.Law.safe_seq (run_does (does_select _)) fun _ v₄ _ => ?_
    refine Process.Law.safe_seq (run_does (does_ofOption _ _)) fun event v₅ _ => ?_
    exact run_createPracticeRun _ _ _

theorem run_trainAgain (userId oldRunId : Nat) :
    runLaw.Safe j (fun _ _ => True) (trainAgain userId oldRunId) v := by
  refine Process.Law.safe_seq (run_does (does_requireRun _)) fun old v₁ _ => ?_
  refine Process.Law.safe_ite (fun _ => trivial) fun _ => ?_
  refine Process.Law.safe_ite (fun _ => trivial) fun _ => ?_
  split
  · trivial
  · exact run_startTraining _ _

/-- The list that was read before the insert has no run that is ended. -/
theorem run_insertCompetitionRun (eventId : Nat) (config : AwdpConfig) {seen : List Run}
    (hseen : seen.any (·.phase = .ended) = false) :
    runLaw.Safe j (fun _ _ => True) (insertCompetitionRun eventId config seen) v := by
  refine Process.Law.safe_seq (run_does (does_select _)) fun _ v₁ _ => ?_
  refine Process.Law.safe_seq (run_does (does_ofOption _ _)) fun event v₂ _ => ?_
  refine Process.Law.safe_seq (run_exec (does_insertRun _ _ _ _ _ _) (fun _ _ _ => hseen)
    fun _ _ _ _ => trivial) fun r v₃ _ => ?_
  cases r with
  | some r => trivial
  | none =>
    refine Process.Law.safe_seq (run_does (does_select _)) fun found _ _ => ?_
    cases found <;> trivial

theorem run_createCompetitionRun (eventId : Nat) (config : AwdpConfig) :
    runLaw.Safe j (fun _ _ => True) (createCompetitionRun eventId config) v := by
  refine Process.Law.safe_seq (run_does (does_ofExcept _)) fun _ v₁ _ => ?_
  refine Process.Law.safe_seq (run_does (does_select _)) fun found v₂ _ => ?_
  cases found with
  | some r => trivial
  | none =>
    refine Process.Law.safe_seq (run_does (does_select _)) fun seen v₃ _ => ?_
    refine Process.Law.safe_ite (fun _ => trivial) fun hseen => ?_
    exact run_insertCompetitionRun _ _ (by simpa using hseen)

theorem run_startEvent (e : Event) : runLaw.Safe j (fun _ _ => True) (startEvent e) v := by
  refine Process.Law.safe_seq (run_does (does_select _)) fun _ v₁ _ => ?_
  refine Process.Law.safe_seq (run_does (does_ofOption _ _)) fun event v₂ _ => ?_
  exact Process.Law.safe_seq (Process.Law.safe_tried (run_createCompetitionRun _ _))
    fun _ _ _ => trivial

theorem run_tickOnce (skipped : List Nat) :
    runLaw.Safe j (fun _ _ => True) (tickOnce skipped) v := by
  refine Process.Law.safe_seq (run_does does_utcNow) fun now v₁ _ => ?_
  refine Process.Law.safe_seq (run_does (runs_findUnstartedAwdpEvents _ _)) fun events v₂ _ => ?_
  refine Process.Law.safe_seq (Process.Law.safe_each (fun e _ v _ => run_startEvent e) trivial)
    fun _ v₃ _ => ?_
  refine Process.Law.safe_seq (run_does (does_select _)) fun due v₄ _ => ?_
  refine Process.Law.safe_seq (run_does (does_tally (runs_tickRun now) due)) fun _ v₅ _ => ?_
  exact Process.Law.safe_seq (run_does runs_completeFinishedRounds) fun _ _ _ => trivial

theorem run_startAwdpEvent (eventId : Nat) :
    runLaw.Safe j (fun _ _ => True) (startAwdpEvent eventId) v := by
  refine Process.Law.safe_seq (run_does (does_select _)) fun _ v₁ _ => ?_
  refine Process.Law.safe_seq (run_does (does_ofOption _ _)) fun event v₂ _ => ?_
  refine Process.Law.safe_seq (run_createCompetitionRun _ _) fun run v₃ _ => ?_
  refine Process.Law.safe_ite (fun _ => ?_) fun _ => Process.Law.safe_pure trivial
  exact run_does (Prog.does_bind does_utcNow fun _ => runs_transitionPhase _ _ _ _)

end Safe

/-! ## Runs -/

theorem does_requireActiveRun {T : Stmt → Db → Db → Prop} [Reads T] (eventId : Nat) :
    (requireActiveRun eventId).Does T := by
  refine Prog.does_bind (does_select _) fun found => ?_
  cases found <;> trivial

theorem runLaw_keeps : runLaw.Keeps := by
  refine ⟨fun j v _ => ?_, fun e v h => ?_⟩
  · cases j with
    | tick skipped => exact Process.Law.safe_seq (run_tickOnce _) fun _ _ _ => trivial
    | adminStart eventId => exact run_startAwdpEvent _
    | adminBreakToFix eventId =>
      exact run_does (Prog.does_bind (does_requireActiveRun _) fun _ => runs_transitionBreakToFix _)
    | adminFinish eventId =>
      exact run_does (Prog.does_bind (does_requireActiveRun _) fun _ =>
        Prog.does_bind does_utcNow fun _ => runs_transitionPhase _ _ _ _)
    | startTraining userId gameboxId =>
      exact Process.Law.safe_seq (run_startTraining _ _) fun _ _ _ => trivial
    | trainAgain userId oldRunId =>
      exact Process.Law.safe_seq (run_trainAgain _ _) fun _ _ _ => trivial
    | launch runId => exact run_does (runs_launchPracticeRun _)
    | practiceFix runId => exact run_does (runs_transitionBreakToFix _)
    | practiceBreak runId => exact run_does (runs_transitionFixToBreak _)
    | practiceEnd runId => exact run_does (runs_endPracticeSession _)
  · cases e with
    | advance secs => exact RunInv.same h rfl (Nat.le_refl _) rfl
    | dropLock instanceId => exact RunInv.same h rfl (Nat.le_refl _) rfl

/-- A competition event without a run. -/
def eventDb : Db where
  now := 100
  nextId := 20
  events := [⟨10, true, none, 0, .default⟩]
  runs := []
  rounds := []
  instances := []
  gameboxes := []
  evaluations := []
  patches := []
  scores := []
  locks := []

theorem eventDb_runInv : RunInv eventDb := by
  exact ⟨by decide, (fun r hr => nomatch hr), by decide, by decide, by decide,
    (fun r hr => nomatch hr), (fun e he hc r hr => nomatch hr), fun r hr => nomatch hr⟩

/-- The event is started by hand, and a tick ends its Break. -/
def preparingActs : List (Act RunJob RunEnv) :=
  .spawn (.adminStart 10) :: List.replicate 10 (.step 0 true) ++
    [.env (.advance 3600), .spawn (.tick [])] ++ List.replicate 10 (.step 1 true)

/-- The event is started by hand again. -/
def startAgainActs : List (Act RunJob RunEnv) :=
  .spawn (.adminStart 10) :: List.replicate 10 (.step 2 true)

end FloatCtf.Awdp
