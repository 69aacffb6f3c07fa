import FloatCtf.Awd.ConfigService
import FloatCtf.Awd.EventService
import FloatCtf.Awd.Frame
import FloatCtf.Awd.PrecheckService
import FloatCtf.Process.Pact

/-!
# The start gate

An event should enter `Running` only with a configuration for which a precheck has passed: the
generation that the precheck recorded is the one in force, and every edit of the configuration comes
with an increase of the generation.

The edit of a game box is committed before the generation is read and written again, a precheck reads
the generation after it has made its checks, and `start_event` compares the generations before its
compare-and-set (`started_unverified`).  `startGate_run` shows that the gate holds in every
interleaving in which these three are kept apart.
-/

namespace FloatCtf.Awd

open Process

/-! ## The system -/

/-- The jobs before and at the start of an event. -/
inductive GateJob where
  | updateConfig (patch : AwdEventConfigPatch)
  | addGamebox (req : AddEventGameboxRequest)
  | updateGamebox (ownPath : Bool) (id : Nat) (patch : EventGameboxPatch)
  | deleteGamebox (id : Nat)
  | precheck (found : Findings)
  | start
  deriving DecidableEq

/-- The program of a job. -/
def GateJob.prog : GateJob → AwdM Unit
  | updateConfig patch => do let _ ← updateEventConfig patch
  | addGamebox req => addEventGamebox req
  | updateGamebox ownPath id patch => updateEventGamebox ownPath id patch
  | deleteGamebox id => deleteEventGamebox id
  | precheck found => runPrecheck found
  | start => startEvent

/-- What happens around the gate: time passes, the event is deployed, teams join and instances come
and go, and the library and the network change. -/
inductive GateEnv where
  | tick (d : Nat)
  | deploy (target : AwdEventStatus)
  | teams (ts : List EventTeam)
  | instances (is : List GameboxInstance)
  | library (ls : List LibraryGamebox)
  | network (row : Bool)

/-- The statuses of a deployment. -/
def AwdEventStatus.isDeployment (s : AwdEventStatus) : Bool := s ∈ [deploying, deployed, deployFailed]

/-- What happens beside the jobs. -/
def GateEnv.apply : GateEnv → Db → Db
  | tick d, db => { db with now := db.now + d }
  | deploy target, db =>
    if target.isDeployment then Prog.after (transitionRow db.event.status target {}) db else db
  | teams ts, db => { db with teams := ts }
  | instances is, db => { db with instances := is }
  | library ls, db => { db with library := ls }
  | network row, db => { db with networkRow := row }

/-- A change of the configuration: the generation in force when it was committed, and what was
committed. -/
structure CommittedEdit where
  generation : Int
  configuration : Configuration
  deriving DecidableEq

/-- The event as it entered `Running`. -/
structure Entry where
  verifiedGeneration : Option Int
  configurationGeneration : Int
  configuration : Configuration
  deriving DecidableEq

/-- What is noted of a run: the configurations that prechecks have verified, how many edits of a game
box wait for their increase of the generation, the changes of the configuration, and the entries into
`Running`. -/
structure GateNotes where
  passed : List Configuration := []
  halfDone : Nat := 0
  edits : List CommittedEdit := []
  entered : List Entry := []

/-- The committed change, if it is one. -/
def GateNotes.commit (g : GateNotes) (db : Db) (tx : Except AwdError (Db × Unit)) : GateNotes :=
  match tx with
  | .ok (db', _) =>
    if db'.configuration = db.configuration then g
    else { g with
      edits := g.edits ++ [⟨db.event.configurationGeneration, db'.configuration⟩] }
  | .error _ => g

/-- What the notes learn of a statement: the edits, the prechecks and the starts. -/
def GateNotes.watch (_ : GateJob) (l : Stmt) (db : Db) (g : GateNotes) : GateNotes :=
  match l with
  | .updateConfig patch => g.commit db (updateConfigTx patch db)
  | .editGamebox edit =>
    { g.commit db (edit.write db) with
      halfDone := if (edit.write db).isOk then g.halfDone + 1 else g.halfDone }
  | .touchConfiguration edited _ => if edited then { g with halfDone := g.halfDone - 1 } else g
  | .recordVerified seen _ =>
    if db.event.status = .prechecking then { g with passed := g.passed ++ [seen] } else g
  | .transition .verified .running =>
    if db.event.status = .verified then
      { g with entered := g.entered ++ [⟨db.event.verifiedGeneration,
          db.event.configurationGeneration, db.configuration⟩] }
    else g
  | _ => g

/-- The jobs, with the notes as ghost state. -/
def gateSystem : System Stmt Db AwdError GateNotes GateJob GateEnv where
  prog := GateJob.prog
  env := GateEnv.apply
  watch := GateNotes.watch

/-- The jobs under way. -/
abbrev GatePool := Pool Stmt Db AwdError GateNotes GateJob

/-- Nothing has been configured. -/
def GatePool.initial (db : Db) : GatePool := { state := db, ghost := {}, threads := [] }

/-- The event entered `Running` only under the generation that was verified and with a configuration
for which a precheck had passed, and two changes of the configuration are separated by an increase of
the generation. -/
structure GateNotes.Sound (g : GateNotes) : Prop where
  entered : ∀ e ∈ g.entered,
    e.verifiedGeneration = some e.configurationGeneration ∧ e.configuration ∈ g.passed
  separated : g.edits.Pairwise fun a b =>
    a.configuration ≠ b.configuration → a.generation < b.generation

/-! ## The condition -/

/-- The statement keeps its distance: a start does not read in the middle of an edit, edits do not
overlap, a generation is not written over, and the verdict of a precheck is about the configuration
in force, unless the generation it records is out of date or an edit is to raise it. -/
def Apart (j : GateJob) (l : Stmt) (v : Db × GateNotes) : Prop :=
  match l with
  | .select => j = .start → v.1.event.status = .verified → v.2.halfDone = 0
  | .updateConfig patch => patch.runtimeChanged v.1.event = true → v.2.halfDone = 0
  | .editGamebox _ => v.2.halfDone = 0
  | .touchConfiguration _ seen => seen = v.1.event.configurationGeneration
  | .recordVerified seen generation =>
    seen = v.1.configuration ∨ generation ≠ v.1.event.configurationGeneration ∨ 0 < v.2.halfDone
  | _ => True

/-- No start is under way that has still to enter `Running`. -/
def GatePool.NoStart (w : GatePool) : Prop :=
  w.state.event.status = .running ∨ ∀ t ∈ w.threads, t.1 = .start → t.2.live = false

/-- The statement does not move what a start has compared. -/
def GatePool.SparesStart (w : GatePool) (l : Stmt) : Prop :=
  match l with
  | .editGamebox _ | .touchConfiguration _ _ => w.NoStart
  | .recordVerified seen generation =>
    (seen = w.state.configuration ∧ generation = w.state.event.configurationGeneration) ∨ w.NoStart
  | _ => True

/-- Edits, prechecks and starts are kept apart. -/
def GatePool.KeptApart (w : GatePool) (a : Act GateJob GateEnv) : Prop :=
  Meets Apart w a ∧
    match a with
    | .step i true => ∀ s ∈ w.next i, w.SparesStart s.2
    | _ => True

instance (j : GateJob) (l : Stmt) (v : Db × GateNotes) : Decidable (Apart j l v) := by
  unfold Apart
  split <;> infer_instance

instance (w : GatePool) : Decidable w.NoStart :=
  inferInstanceAs (Decidable (_ ∨ ∀ t ∈ w.threads, _))

instance (w : GatePool) (l : Stmt) : Decidable (w.SparesStart l) := by
  unfold GatePool.SparesStart
  split <;> infer_instance

instance (w : GatePool) (a : Act GateJob GateEnv) : Decidable (w.KeptApart a) := by
  unfold GatePool.KeptApart
  cases a with
  | step i answered => cases answered <;> infer_instance
  | _ => infer_instance

/-! ## What the statements do -/

/-- The statements that have nothing to do with the gate. -/
def Stmt.plain : Stmt → Bool
  | .transition _ _ | .updateConfig _ | .editGamebox _ | .touchConfiguration _ _
  | .recordVerified _ _ => false
  | _ => true

/-- The statements that no start notices: the configuration stays, and the event does not become
verified; `R` says whether it may become running. -/
inductive CalmStep (R : Prop) : Stmt → Db → Db → Prop
  | plain {l : Stmt} {db db' : Db} (hl : l.plain = true) (he : db'.event = db.event)
      (hg : db'.gameboxes = db.gameboxes) : CalmStep R l db db'
  | transition {s t : AwdEventStatus} {p : TransitionPatch} {db : Db} (ht : t ≠ .verified)
      (hr : t = .running → R) (hp : p.verifiedGeneration = none) :
      CalmStep R (.transition s t) db (Prog.after (transitionRow s t p) db)

/-- What the statements of the jobs do; `V` says whether there are verdicts among them. -/
inductive GateStep (R V : Prop) : Stmt → Db → Db → Prop
  | calm {l : Stmt} {db db' : Db} (h : CalmStep R l db db') : GateStep R V l db db'
  | updateConfig {p : AwdEventConfigPatch} {db : Db} :
      GateStep R V (.updateConfig p) db (Prog.after (updateConfigTx p) db)
  | editGamebox {edit : GameboxEdit} {db : Db} :
      GateStep R V (.editGamebox edit) db (Prog.after edit.write db)
  | touch {edited : Bool} {seen : Int} {db : Db} :
      GateStep R V (.touchConfiguration edited seen) db
        { db with event := db.event.touched seen }
  | verdict {seen : Configuration} {generation : Int} {p : TransitionPatch} {db : Db} (hv : V)
      (hp : p.verifiedGeneration = some generation) :
      GateStep R V (.recordVerified seen generation) db
        (Prog.after (transitionRow .prechecking .verified p) db)

section Does

variable {R V : Prop} {α : Type}

theorem CalmStep.mono {R' : Prop} (h : R → R') {l : Stmt} {db db' : Db} (hs : CalmStep R l db db') :
    CalmStep R' l db db' := by
  cases hs with
  | plain hl he hg => exact .plain hl he hg
  | transition ht hr hp => exact .transition ht (fun he => h (hr he)) hp

theorem calm_select (f : Db → α) : (select f).Does (CalmStep R) :=
  Prog.does_query (fun _ => .plain rfl rfl rfl) _ _

theorem calm_utcNow : utcNow.Does (CalmStep R) := Prog.does_look (fun _ => .plain rfl rfl rfl) _

theorem calm_orNotFound (msg : String) (o : Option α) : (orNotFound msg o).Does (CalmStep R) := by
  cases o <;> trivial

theorem calm_transitionEvent {s t : AwdEventStatus} {p : TransitionPatch} (ht : t ≠ .verified)
    (hr : t = .running → R) (hp : p.verifiedGeneration = none) :
    (transitionEvent s t p).Does (CalmStep R) :=
  Prog.does_exec_after fun _ => .transition ht hr hp

theorem calm_tryReconcile (site : Ext) : (tryReconcile site).Does (CalmStep R) := by
  refine Prog.does_bind (Prog.does_query (fun _ => .plain rfl rfl rfl) _ _) fun _ =>
    Prog.does_attempt (Prog.does_exec (fun _ => .plain rfl rfl rfl) fun db db' a h => ?_)
  cases h
  exact .plain rfl rfl rfl

theorem calm_requireEventNetwork : requireEventNetwork.Does (CalmStep R) :=
  Prog.does_bind (calm_select _) fun _ => Prog.does_ite trivial trivial

theorem calm_seedInitialScores (initialScore : Int64) :
    (seedInitialScores initialScore).Does (CalmStep R) := by
  refine Prog.does_bind (calm_select _) fun eventId => Prog.does_bind (calm_select _) fun teams =>
    Prog.does_each fun team _ => Prog.does_bind ?_ fun _ => trivial
  refine Prog.does_exec (fun _ => .plain rfl rfl rfl) fun db db' a h => ?_
  unfold scoreIfAbsentRow at h
  split_ifs at h <;> cases h <;> exact .plain rfl rfl rfl

theorem calm_startRound (n : Option Int) : (startRound n).Does (CalmStep R) := by
  refine Prog.does_bind (calm_select _) fun e => Prog.does_ite trivial (Prog.does_ite trivial ?_)
  refine Prog.does_bind (calm_select _) fun n => Prog.does_bind (calm_select _) fun existing => ?_
  split
  · exact Prog.does_pure _
  · refine Prog.does_bind calm_utcNow fun now => Prog.does_bind ?_ fun round =>
      Prog.does_bind (Prog.does_query (fun _ => .plain rfl rfl rfl) _ _) fun _ =>
        Prog.does_bind ?_ fun _ => Prog.does_bind calm_requireEventNetwork fun _ => trivial
    · refine Prog.does_exec (fun _ => .plain rfl rfl rfl) fun db db' r h => ?_
      rw [(insertRoundRow_ok h).2.2]
      exact .plain rfl rfl rfl
    · refine Prog.does_exec (fun _ => .plain rfl rfl rfl) fun db db' a h => ?_
      cases h
      exact .plain rfl rfl rfl

theorem calm_scheduleHardeningEnd (t : Int) : (scheduleHardeningEnd t).Does (CalmStep R) := by
  refine Prog.does_exec (fun _ => .plain rfl rfl rfl) fun db db' a h => ?_
  cases h
  exact .plain rfl rfl rfl

theorem gate_calm {p : AwdM α} (hp : p.Does (CalmStep R)) : p.Does (GateStep R V) :=
  hp.mono fun _ _ _ h => .calm h

theorem gate_touchConfiguration (edited : Bool) :
    (touchConfiguration edited).Does (GateStep R V) :=
  Prog.does_bind (gate_calm (calm_select _)) fun _ => Prog.does_exec_after fun _ => .touch

theorem gate_editGamebox (edit : GameboxEdit) : (editGamebox edit).Does (GateStep R V) :=
  Prog.does_exec_after fun _ => .editGamebox

theorem gate_updateEventConfig (p : AwdEventConfigPatch) :
    (updateEventConfig p).Does (GateStep R V) := by
  refine Prog.does_bind (gate_calm calm_utcNow) fun now => ?_
  split
  · trivial
  · exact Prog.does_bind (Prog.does_exec_after fun _ => .updateConfig) fun _ =>
      gate_calm (calm_select _)

theorem gate_addEventGamebox (req : AddEventGameboxRequest) :
    (addEventGamebox req).Does (GateStep R V) := by
  refine Prog.does_bind (gate_calm (calm_select _)) fun found =>
    Prog.does_bind (gate_calm (calm_orNotFound _ _)) fun gb => Prog.does_ite trivial ?_
  refine Prog.does_bind (gate_calm (calm_select _)) fun selected => Prog.does_ite trivial ?_
  refine Prog.does_bind ?_ fun hostOffset => Prog.does_bind (gate_editGamebox _) fun _ =>
    gate_touchConfiguration true
  unfold chooseOffset
  split
  · exact Prog.does_ite trivial trivial
  · refine Prog.does_bind (gate_calm (calm_select _)) fun used => ?_
    split <;> trivial

theorem gate_updateEventGamebox (ownPath : Bool) (id : Nat) (patch : EventGameboxPatch) :
    (updateEventGamebox ownPath id patch).Does (GateStep R V) := by
  refine Prog.does_bind (Prog.does_bind (gate_calm (calm_select _)) fun current => ?_) fun edited =>
    Prog.does_bind (Prog.does_ite (gate_touchConfiguration _) trivial) fun _ =>
      Prog.does_bind (gate_calm (calm_select _)) fun row =>
        Prog.does_bind (gate_calm (calm_orNotFound _ _)) fun _ => trivial
  split
  · exact Prog.does_bind (gate_editGamebox _) fun _ => trivial
  · trivial

theorem gate_deleteEventGamebox (id : Nat) : (deleteEventGamebox id).Does (GateStep R V) := by
  refine Prog.does_bind (gate_calm (calm_select _)) fun found => ?_
  split
  · trivial
  · refine Prog.does_bind (gate_calm (calm_select _)) fun instances => Prog.does_ite trivial ?_
    exact Prog.does_bind (gate_editGamebox _) fun _ => gate_touchConfiguration true

theorem calm_enterPrechecking (s : AwdEventStatus) : (enterPrechecking s).Does (CalmStep R) := by
  have hcheck (s : AwdEventStatus) : (transitionEvent s .prechecking {}).Does (CalmStep R) :=
    calm_transitionEvent (by decide) (fun h => by cases h) rfl
  unfold enterPrechecking
  split
  · trivial
  · exact Prog.does_bind (calm_transitionEvent (by decide) (fun h => by cases h) rfl) fun _ =>
      hcheck _
  · exact hcheck _

theorem calm_unresolvedSpecs (gs : List EventGamebox) : (unresolvedSpecs gs).Does (CalmStep R) := by
  induction gs with
  | nil => trivial
  | cons g gs ih =>
    exact Prog.does_bind (calm_select _) fun _ => Prog.does_bind ih fun _ => trivial

theorem calm_precheckRun : (write .precheckRun id).Does (CalmStep R) := by
  refine Prog.does_exec (fun _ => .plain rfl rfl rfl) fun db db' a h => ?_
  cases h
  exact .plain rfl rfl rfl

theorem gate_runPrecheck (found : Findings) : (runPrecheck found).Does (GateStep R True) := by
  refine Prog.does_bind (gate_calm (calm_select _)) fun awdEvent =>
    Prog.does_bind (gate_calm (calm_select _)) fun row => Prog.does_ite trivial
      (Prog.does_ite trivial ?_)
  refine Prog.does_bind (gate_calm (calm_enterPrechecking _)) fun _ =>
    Prog.does_bind (gate_calm calm_precheckRun) fun _ =>
      Prog.does_bind (gate_calm (calm_select _)) fun teams =>
        Prog.does_bind (gate_calm (calm_select _)) fun gameboxes =>
          Prog.does_bind (gate_calm (calm_unresolvedSpecs _)) fun unresolved =>
            Prog.does_bind (gate_calm calm_precheckRun) fun _ => Prog.does_ite ?_ ?_
  · exact Prog.does_bind (gate_calm (calm_select _)) fun generation =>
      Prog.does_bind (gate_calm calm_utcNow) fun now =>
        Prog.does_exec_after fun _ => .verdict trivial rfl
  · exact Prog.does_bind (Prog.does_attempt (gate_calm
      (calm_transitionEvent (by decide) (fun h => by cases h) rfl))) fun _ => trivial

theorem calm_startEvent : startEvent.Does (CalmStep True) := by
  refine Prog.does_bind (calm_select _) fun awdEvent => Prog.does_ite trivial
    (Prog.does_ite trivial (Prog.does_ite ?_ ?_))
  · exact Prog.does_bind (Prog.does_attempt
      (calm_transitionEvent (by decide) (fun _ => trivial) rfl)) fun _ => trivial
  · refine Prog.does_bind (calm_select _) fun generic => ?_
    split
    · trivial
    · refine Prog.does_bind calm_utcNow fun now =>
        Prog.does_bind (calm_seedInitialScores _) fun _ => Prog.does_ite ?_ ?_
      · exact Prog.does_bind (calm_transitionEvent (by decide) (fun _ => trivial) rfl) fun _ =>
          Prog.does_bind (calm_scheduleHardeningEnd _) fun _ =>
            Prog.does_bind (calm_tryReconcile _) fun _ => trivial
      · exact Prog.does_bind (calm_transitionEvent (by decide) (fun _ => trivial) rfl) fun _ =>
          Prog.does_bind (calm_tryReconcile _) fun _ =>
            Prog.does_bind (calm_startRound _) fun _ => trivial

theorem gate_prog (j : GateJob) : j.prog.Does (GateStep (j = .start) True) := by
  cases j with
  | updateConfig patch => exact Prog.does_bind (gate_updateEventConfig patch) fun _ => trivial
  | addGamebox req => exact gate_addEventGamebox req
  | updateGamebox ownPath id patch => exact gate_updateEventGamebox ownPath id patch
  | deleteGamebox id => exact gate_deleteEventGamebox id
  | precheck found => exact gate_runPrecheck found
  | start => exact calm_startEvent.mono fun _ _ _ h => .calm (h.mono fun _ => rfl)

end Does

/-! ## The law -/

/-- A verified event is verified under the generation in force and with its configuration. -/
def Ready (v : Db × GateNotes) : Prop :=
  v.1.event.status = .verified →
    v.1.event.verifiedGeneration = some v.1.event.configurationGeneration ∧
      v.1.configuration ∈ v.2.passed

/-- The invariant of the gate: a verified generation is one that was checked. -/
structure GateInv (v : Db × GateNotes) : Prop where
  sound : v.2.Sound
  verified_le : ∀ n ∈ v.1.event.verifiedGeneration, n ≤ v.1.event.configurationGeneration
  checked : v.2.halfDone = 0 →
    v.1.event.verifiedGeneration = some v.1.event.configurationGeneration → Ready v
  edits_le : ∀ e ∈ v.2.edits, e.generation ≤ v.1.event.configurationGeneration
  edits_lt : v.2.halfDone = 0 → ∀ e ∈ v.2.edits, e.generation < v.1.event.configurationGeneration

section Law

variable {j : GateJob} {l : Stmt} {db db' : Db} {g : GateNotes} {α : Type}

theorem watch_plain (hl : l.plain = true) : GateNotes.watch j l db g = g := by
  cases l <;> first | rfl | cases hl

theorem watch_transition {s t : AwdEventStatus} (ht : t ≠ .running) :
    GateNotes.watch j (.transition s t) db g = g := by
  cases t <;> first | rfl | exact absurd rfl ht | (cases s <;> rfl)

theorem after_transitionRow (s t : AwdEventStatus) (p : TransitionPatch) (db : Db) :
    Prog.after (transitionRow s t p) db = db ∨
      db.event.status = s ∧
        Prog.after (transitionRow s t p) db = { db with event := db.event.patched t p } := by
  unfold Prog.after
  split
  · obtain ⟨rfl, hs, -⟩ := transitionRow_ok ‹_›
    exact .inr ⟨hs, rfl⟩
  · exact .inl rfl

/-- A change of status that records no generation keeps the recorded one or clears it. -/
theorem verifiedGeneration_patched {e : AwdEvent} {t : AwdEventStatus} {p : TransitionPatch}
    (hp : p.verifiedGeneration = none) :
    (e.patched t p).verifiedGeneration = e.verifiedGeneration ∨
      (e.patched t p).verifiedGeneration = none := by
  simp only [AwdEvent.patched, hp, Option.none_or]
  split_ifs
  · exact .inr rfl
  · exact .inl rfl

/-- Nothing changes but the status, away from `Verified`, and perhaps the verification, which is
cleared. -/
theorem GateInv.of_same (h : GateInv (db, g)) (hc : db'.configuration = db.configuration)
    (hg : db'.event.configurationGeneration = db.event.configurationGeneration)
    (hv : db'.event.verifiedGeneration = db.event.verifiedGeneration ∨
      db'.event.verifiedGeneration = none)
    (hs : db'.event.status = .verified → db.event.status = .verified) : GateInv (db', g) := by
  refine ⟨h.sound, fun n hn => ?_, fun hhalf hgen hstatus => ?_, ?_, ?_⟩
  · rcases hv with hv | hv <;> rw [hv] at hn
    · exact hg ▸ h.verified_le n hn
    · cases hn
  · rcases hv with hv | hv <;> rw [hv] at hgen
    · have hready := h.checked hhalf (hg ▸ hgen) (hs hstatus)
      exact ⟨hv.trans hgen, hc ▸ hready.2⟩
    · cases hgen
  · exact fun e he => hg ▸ h.edits_le e he
  · exact fun hhalf e he => hg ▸ h.edits_lt hhalf e he

theorem GateInv.calm (h : GateInv (db, g)) (hs : CalmStep False l db db') :
    GateInv (db', GateNotes.watch j l db g) ∧
      db'.event.configurationGeneration = db.event.configurationGeneration := by
  cases hs with
  | plain hl he hg =>
    rw [watch_plain hl]
    refine ⟨h.of_same ?_ (by rw [he]) (.inl (by rw [he])) (by rw [he]; exact id), by rw [he]⟩
    rw [Db.configuration, Db.configuration, he, hg]
  | @transition s t p _ ht hr hp =>
    rw [watch_transition hr]
    rcases after_transitionRow s t p db with hsame | ⟨-, hmoved⟩
    · rw [hsame]
      exact ⟨h, rfl⟩
    · rw [hmoved]
      exact ⟨h.of_same rfl rfl (verifiedGeneration_patched hp) fun hv => absurd hv ht, rfl⟩

/-- A change that waits for its increase of the generation, or comes with one. -/
theorem GateInv.commit (h : GateInv (db, g)) (hhalf : g.halfDone = 0)
    (tx : Except AwdError (Db × Unit)) :
    (g.commit db tx).Sound ∧ ∀ e ∈ (g.commit db tx).edits,
      e.generation ≤ db.event.configurationGeneration := by
  unfold GateNotes.commit
  split
  · split_ifs with hc
    · exact ⟨h.sound, h.edits_le⟩
    · refine ⟨⟨h.sound.entered, ?_⟩, fun e he => ?_⟩
      · refine List.pairwise_append.2 ⟨h.sound.separated, List.pairwise_singleton _ _, ?_⟩
        intro a ha b hb _
        rw [List.mem_singleton.1 hb]
        exact h.edits_lt hhalf a ha
      · rcases List.mem_append.1 he with he | he
        · exact h.edits_le e he
        · rw [List.mem_singleton.1 he]
  · exact ⟨h.sound, h.edits_le⟩

theorem GateInv.updateConfig {p : AwdEventConfigPatch} (h : GateInv (db, g))
    (hc : Apart j (.updateConfig p) (db, g)) :
    GateInv (Prog.after (updateConfigTx p) db, GateNotes.watch j (.updateConfig p) db g) ∧
      db.event.configurationGeneration ≤
        (Prog.after (updateConfigTx p) db).event.configurationGeneration := by
  have hwatch : GateNotes.watch j (.updateConfig p) db g = g.commit db (updateConfigTx p db) := rfl
  rw [hwatch]
  cases htx : updateConfigTx p db with
  | error e =>
    rw [Prog.after_of_error htx]
    exact ⟨h, le_rfl⟩
  | ok r =>
    obtain ⟨db', _⟩ := r
    rw [Prog.after_of_ok htx]
    obtain ⟨-, hmoved | ⟨-, hsame, hgen, hrest⟩⟩ := updateConfigTx_ok htx
    · obtain ⟨hruntime, hstatus, hcleared, hgen⟩ := hmoved
      have hhalf : g.halfDone = 0 := hc hruntime
      obtain ⟨hsound, hle⟩ := h.commit hhalf (.ok (db', ()))
      have hlt : ∀ e ∈ (g.commit db (.ok (db', ()))).edits,
          e.generation < db'.event.configurationGeneration := by
        intro e he
        have hle' := hle e he
        rw [hgen]
        omega
      refine ⟨⟨hsound, fun n hn => ?_, fun _ hn => ?_, fun e he => (hlt e he).le, fun _ => hlt⟩, ?_⟩
      · exact absurd (hcleared ▸ hn) (by simp)
      · exact absurd (hcleared ▸ hn) (by simp)
      · show _ ≤ db'.event.configurationGeneration
        rw [hgen]
        omega
    · have hnotes : g.commit db (.ok (db', ())) = g := if_pos hsame
      rw [hnotes]
      refine ⟨h.of_same hsame hgen ?_ ?_, hgen.ge⟩
      · exact hrest.elim (fun hr => .inr hr.2) fun hr => .inl hr.2
      · intro hv
        rcases hrest with ⟨hconf, -⟩ | ⟨hstay, -⟩
        · rw [hconf] at hv
          cases hv
        · rwa [hstay] at hv

theorem write_event {edit : GameboxEdit} {a : Unit} (h : edit.write db = .ok (db', a)) :
    db'.event = db.event := by
  unfold GameboxEdit.write at h
  split at h <;> split_ifs at h <;> cases h <;> rfl

theorem GateInv.editGamebox {edit : GameboxEdit} (h : GateInv (db, g)) (hhalf : g.halfDone = 0) :
    GateInv (Prog.after edit.write db, GateNotes.watch j (.editGamebox edit) db g) ∧
      (Prog.after edit.write db).event = db.event := by
  have hwatch : GateNotes.watch j (.editGamebox edit) db g =
      { g.commit db (edit.write db) with
        halfDone := if (edit.write db).isOk then g.halfDone + 1 else g.halfDone } := rfl
  rw [hwatch]
  cases htx : edit.write db with
  | error e =>
    rw [Prog.after_of_error htx]
    exact ⟨h, rfl⟩
  | ok r =>
    obtain ⟨db', _⟩ := r
    rw [Prog.after_of_ok htx]
    have hevent := write_event htx
    obtain ⟨hsound, hle⟩ := h.commit hhalf (.ok (db', ()))
    refine ⟨⟨⟨hsound.entered, hsound.separated⟩, ?_, fun hz => ?_, ?_, fun hz => ?_⟩, hevent⟩
    · show ∀ n ∈ db'.event.verifiedGeneration, n ≤ db'.event.configurationGeneration
      rw [hevent]
      exact h.verified_le
    · cases hz
    · show ∀ e ∈ (g.commit db (.ok (db', ()))).edits,
        e.generation ≤ db'.event.configurationGeneration
      rw [hevent]
      exact hle
    · cases hz

theorem GateInv.touch {edited : Bool} {seen : Int} (h : GateInv (db, g))
    (hseen : seen = db.event.configurationGeneration) :
    GateInv ({ db with event := db.event.touched seen },
      GateNotes.watch j (.touchConfiguration edited seen) db g) := by
  subst hseen
  have hlt : ∀ e ∈ g.edits, e.generation < db.event.configurationGeneration + 1 := fun e he => by
    have hle := h.edits_le e he
    dsimp only at hle
    omega
  have hnew : ∀ n ∈ db.event.verifiedGeneration, n < db.event.configurationGeneration + 1 :=
    fun n hn => by
      have hle := h.verified_le n hn
      dsimp only at hle
      omega
  have hnotes : ∀ g' : GateNotes, g'.Sound → g'.edits = g.edits →
      GateInv ({ db with event := db.event.touched db.event.configurationGeneration }, g') := by
    intro g' hsound hedits
    refine ⟨hsound, fun n hn => (hnew n hn).le, fun _ hgen => ?_, ?_, fun _ => ?_⟩
    · exact absurd (hnew _ hgen) (lt_irrefl _)
    · rw [hedits]
      exact fun e he => (hlt e he).le
    · rw [hedits]
      exact hlt
  unfold GateNotes.watch
  dsimp only
  split_ifs
  · exact hnotes _ ⟨h.sound.entered, h.sound.separated⟩ rfl
  · exact hnotes _ h.sound rfl

/-- Every statement but a verdict and the entry into `Running`. -/
theorem GateInv.step (h : GateInv (db, g)) (hs : GateStep False False l db db')
    (hc : Apart j l (db, g)) :
    GateInv (db', GateNotes.watch j l db g) ∧
      db.event.configurationGeneration ≤ db'.event.configurationGeneration := by
  cases hs with
  | calm hs =>
    obtain ⟨hi, hg⟩ := h.calm hs
    exact ⟨hi, hg.ge⟩
  | updateConfig => exact h.updateConfig hc
  | editGamebox =>
    obtain ⟨hi, he⟩ := h.editGamebox hc
    exact ⟨hi, by rw [he]⟩
  | touch =>
    refine ⟨h.touch hc, ?_⟩
    show db.event.configurationGeneration ≤ _ + 1
    rw [show _ = db.event.configurationGeneration from hc]
    omega
  | verdict hv _ => exact hv.elim

/-- A verdict under a generation that was read before. -/
theorem GateInv.verdict {seen : Configuration} {generation : Int} {p : TransitionPatch}
    (h : GateInv (db, g)) (hp : p.verifiedGeneration = some generation)
    (hle : generation ≤ db.event.configurationGeneration)
    (hc : Apart j (.recordVerified seen generation) (db, g)) :
    GateInv (Prog.after (transitionRow .prechecking .verified p) db,
        GateNotes.watch j (.recordVerified seen generation) db g) ∧
      (Prog.after (transitionRow .prechecking .verified p) db).event.configurationGeneration =
        db.event.configurationGeneration := by
  have hwatch : GateNotes.watch j (.recordVerified seen generation) db g =
      if db.event.status = .prechecking then { g with passed := g.passed ++ [seen] } else g := rfl
  have hsound : GateNotes.Sound { g with passed := g.passed ++ [seen] } :=
    ⟨fun e he => (h.sound.entered e he).imp_right (List.mem_append_left _), h.sound.separated⟩
  rw [hwatch]
  rcases after_transitionRow .prechecking .verified p db with hsame | ⟨hs, hmoved⟩
  · rw [hsame]
    refine ⟨?_, rfl⟩
    split_ifs with hs
    · exact ⟨hsound, h.verified_le, fun _ _ hv => absurd (hs.symm.trans hv) (by decide), h.edits_le,
        h.edits_lt⟩
    · exact h
  · have hgen : (db.event.patched .verified p).verifiedGeneration = some generation := by
      rw [AwdEvent.patched, hp]
      rfl
    rw [hmoved, if_pos hs]
    refine ⟨⟨hsound, fun n hn => ?_, fun hhalf hg _ => ⟨hg, ?_⟩, h.edits_le, h.edits_lt⟩, rfl⟩
    · rw [hgen] at hn
      cases hn
      exact hle
    · -- the generation is in force and no edit waits, so the verdict is about this configuration
      rw [hgen] at hg
      have hseen : seen = db.configuration := by
        rcases hc with hc | hc | hc
        · exact hc
        · exact absurd (Option.some.inj hg) hc
        · exact absurd hhalf (Nat.pos_iff_ne_zero.1 hc)
      exact List.mem_append_right _ (List.mem_singleton.2 hseen.symm)

/-- The entry of a start that has found the event ready. -/
theorem GateInv.enter {p : TransitionPatch} (h : GateInv (db, g)) (hready : Ready (db, g))
    (hp : p.verifiedGeneration = none) :
    GateInv (Prog.after (transitionRow .verified .running p) db,
        GateNotes.watch j (.transition .verified .running) db g) ∧
      (Prog.after (transitionRow .verified .running p) db).event.configurationGeneration =
        db.event.configurationGeneration := by
  have hwatch : GateNotes.watch j (.transition .verified .running) db g =
      if db.event.status = .verified then
        { g with entered := g.entered ++ [⟨db.event.verifiedGeneration,
            db.event.configurationGeneration, db.configuration⟩] }
      else g := rfl
  have hentered (hs : db.event.status = .verified) :
      GateInv (db, { g with entered := g.entered ++ [⟨db.event.verifiedGeneration,
        db.event.configurationGeneration, db.configuration⟩] }) := by
    refine ⟨⟨fun e he => ?_, h.sound.separated⟩, h.verified_le, h.checked, h.edits_le, h.edits_lt⟩
    rcases List.mem_append.1 he with he | he
    · exact h.sound.entered e he
    · rw [List.mem_singleton.1 he]
      exact hready hs
  rw [hwatch]
  rcases after_transitionRow .verified .running p db with hsame | ⟨hs, hmoved⟩
  · rw [hsame]
    refine ⟨?_, rfl⟩
    split_ifs with hs
    · exact hentered hs
    · exact h
  · rw [hmoved, if_pos hs]
    exact ⟨(hentered hs).of_same rfl rfl (verifiedGeneration_patched hp) (fun hv => nomatch hv), rfl⟩

theorem passed_watch (j : GateJob) (l : Stmt) (db : Db) (g : GateNotes) :
    g.passed ⊆ (GateNotes.watch j l db g).passed := by
  have hcommit (tx : Except AwdError (Db × Unit)) : (g.commit db tx).passed = g.passed := by
    unfold GateNotes.commit
    split
    · split_ifs <;> rfl
    · rfl
  unfold GateNotes.watch
  split
  · rw [hcommit]
    exact List.Subset.refl _
  · show g.passed ⊆ (g.commit db _).passed
    rw [hcommit]
    exact List.Subset.refl _
  · split_ifs <;> exact List.Subset.refl _
  · split_ifs
    · exact List.subset_append_left _ _
    · exact List.Subset.refl _
  · split_ifs <;> exact List.Subset.refl _
  · exact List.Subset.refl _

/-- No start notices a statement that leaves what it has compared, or takes the event out of
`Verified`. -/
theorem Ready.of_same (h : Ready (db, g))
    (hs : db'.event.status = .verified → db.event.status = .verified ∧
      db'.event.verifiedGeneration = db.event.verifiedGeneration ∧
      db'.event.configurationGeneration = db.event.configurationGeneration ∧
      db'.configuration = db.configuration) : Ready (db', GateNotes.watch j l db g) := by
  intro hv
  obtain ⟨hstatus, hver, hgen, hconf⟩ := hs hv
  obtain ⟨heq, hmem⟩ := h hstatus
  refine ⟨hver.trans (heq.trans (congrArg some hgen.symm)), passed_watch j l db g ?_⟩
  exact hconf ▸ hmem

theorem ready_calm {R : Prop} (hs : CalmStep R l db db') (h : Ready (db, g)) :
    Ready (db', GateNotes.watch j l db g) := by
  refine h.of_same fun hv => ?_
  cases hs with
  | plain hl he hg =>
    rw [he] at hv ⊢
    refine ⟨hv, rfl, rfl, ?_⟩
    rw [Db.configuration, he, hg]
    rfl
  | @transition s t p _ ht _ _ =>
    rcases after_transitionRow s t p db with hsame | ⟨-, hmoved⟩
    · rw [hsame] at hv ⊢
      exact ⟨hv, rfl, rfl, rfl⟩
    · rw [hmoved] at hv
      exact absurd hv ht

/-- What the jobs rely on. -/
def gatePact : Pact gateSystem where
  rely j v v' := v.1.event.configurationGeneration ≤ v'.1.event.configurationGeneration ∧
    (j = .start → Ready v → Ready v')
  inv := GateInv
  cond := Apart
  does j := GateStep (j = .start) True
  refl _ _ := ⟨le_rfl, fun _ => id⟩
  trans h h' := ⟨h.1.trans h'.1, fun hj hr => h'.2 hj (h.2 hj hr)⟩

section Safe

variable {v : Db × GateNotes}

theorem gateSafe_of_does {p : AwdM α} (hj : j ≠ .start) (hp : p.Does (GateStep False False)) :
    (gatePact.law j).Safe j (fun _ _ => True) p v := by
  refine Process.Law.safe_of_does hp fun l db db' g hi hc hs => ?_
  obtain ⟨hinv, hle⟩ := GateInv.step hi hs hc
  exact ⟨⟨hle, fun h => absurd h hj⟩, hinv⟩

theorem gateSafe_calm {p : AwdM α} (hp : p.Does (CalmStep False)) :
    (gatePact.law j).Safe j (fun _ _ => True) p v := by
  refine Process.Law.safe_of_does hp fun l db db' g hi _ hs => ?_
  obtain ⟨hinv, hg⟩ := GateInv.calm (j := j) hi hs
  exact ⟨⟨hg.ge, fun _ => ready_calm (j := j) hs⟩, hinv⟩

theorem gateSafe_runPrecheck (found : Findings) :
    (gatePact.law (.precheck found)).Safe (.precheck found) (fun _ _ => True)
      (runPrecheck found) v := by
  refine Process.Law.safe_seq (gateSafe_calm (calm_select _)) fun awdEvent v₁ _ =>
    Process.Law.safe_seq (gateSafe_calm (calm_select _)) fun row v₂ _ =>
      Process.Law.safe_ite (fun _ => trivial) fun _ =>
        Process.Law.safe_ite (fun _ => trivial) fun _ => ?_
  refine Process.Law.safe_seq (gateSafe_calm (calm_enterPrechecking _)) fun _ v₃ _ =>
    Process.Law.safe_seq (gateSafe_calm calm_precheckRun) fun _ v₄ _ =>
      Process.Law.safe_seq (gateSafe_calm (calm_select _)) fun teams v₅ _ =>
        Process.Law.safe_seq (gateSafe_calm (calm_select _)) fun gameboxes v₆ _ =>
          Process.Law.safe_seq (gateSafe_calm (calm_unresolvedSpecs _)) fun unresolved v₇ _ =>
            Process.Law.safe_seq (gateSafe_calm calm_precheckRun) fun _ v₈ _ =>
              Process.Law.safe_ite (fun _ => ?_) fun _ => ?_
  · refine Process.Law.safe_bind (Process.Law.safe_query (fun _ _ => rfl) fun v₉ _ _ _ => ?_)
    refine Process.Law.safe_seq (gateSafe_calm calm_utcNow) fun now v₁₀ h₁₀ => ?_
    refine Process.Law.safe_exec_seen fun v' hv hi hc => ?_
    obtain ⟨hinv, hg⟩ := GateInv.verdict (j := .precheck found)
      (p := .verifiedWithGeneration found.revision _ now) hi rfl (h₁₀.1.trans hv.1) hc
    exact ⟨⟨hg.ge, fun h => nomatch h⟩, hinv, fun _ _ _ => trivial⟩
  · exact Process.Law.safe_seq (Process.Law.safe_tried (gateSafe_calm
      (calm_transitionEvent (by decide) (fun h => nomatch h) rfl))) fun _ _ _ => trivial

/-- The entry of a start that has found the event ready. -/
theorem gateSafe_enter {p : TransitionPatch} (hready : Ready v) (hp : p.verifiedGeneration = none) :
    (gatePact.law .start).Safe .start (fun _ _ => True) (transitionEvent .verified .running p) v := by
  refine Process.Law.safe_exec_seen fun v' hv hi _ => ?_
  obtain ⟨hinv, hg⟩ := GateInv.enter (j := .start) hi (hv.2 rfl hready) hp
  refine ⟨⟨hg.ge, fun _ h => ?_⟩, hinv, fun _ _ _ => trivial⟩
  exact ready_calm (R := True) (j := .start) (.transition (by decide) (fun _ => trivial) hp) h

theorem gateSafe_startEvent : (gatePact.law .start).Safe .start (fun _ _ => True) startEvent v := by
  refine Process.Law.safe_bind (Process.Law.safe_query (fun _ _ => rfl) fun v₁ _ hi hc => ?_)
  refine Process.Law.safe_ite (fun _ => trivial) fun hstatus =>
    Process.Law.safe_ite (fun _ => trivial) fun _ =>
      Process.Law.safe_ite (fun _ => ?_) fun hgen => ?_
  · exact Process.Law.safe_seq (Process.Law.safe_tried (gateSafe_calm
      (calm_transitionEvent (by decide) (fun h => nomatch h) rfl))) fun _ _ _ => trivial
  -- no edit waits for its increase of the generation, so the event is ready
  have hready : Ready v₁ := hi.checked (hc rfl (not_not.1 hstatus)) (not_not.1 hgen)
  refine Process.Law.safe_seq (gateSafe_calm (calm_select _)) fun generic v₂ h₂ => ?_
  split
  · trivial
  · refine Process.Law.safe_seq (gateSafe_calm calm_utcNow) fun now v₃ h₃ =>
      Process.Law.safe_seq (gateSafe_calm (calm_seedInitialScores _)) fun _ v₄ h₄ => ?_
    have hready₄ : Ready v₄ := h₄.2 rfl (h₃.2 rfl (h₂.2 rfl hready))
    refine Process.Law.safe_ite (fun _ => ?_) fun _ => ?_
    · exact Process.Law.safe_seq (gateSafe_enter hready₄ rfl) fun _ v₅ _ =>
        Process.Law.safe_seq (gateSafe_calm (calm_scheduleHardeningEnd _)) fun _ v₆ _ =>
          Process.Law.safe_seq (gateSafe_calm (calm_tryReconcile _)) fun _ _ _ => trivial
    · exact Process.Law.safe_seq (gateSafe_enter hready₄ rfl) fun _ v₅ _ =>
        Process.Law.safe_seq (gateSafe_calm (calm_tryReconcile _)) fun _ v₆ _ =>
          Process.Law.safe_seq (gateSafe_calm (calm_startRound _)) fun _ _ _ => trivial

end Safe

theorem gatePact_keeps : gatePact.Keeps := by
  refine ⟨gate_prog, fun j v _ => ?_, fun e v hi => ?_⟩
  · cases j with
    | updateConfig patch =>
      exact gateSafe_of_does nofun
        (Prog.does_bind (gate_updateEventConfig patch) fun _ => trivial)
    | addGamebox req => exact gateSafe_of_does nofun (gate_addEventGamebox req)
    | updateGamebox ownPath id patch =>
      exact gateSafe_of_does nofun (gate_updateEventGamebox ownPath id patch)
    | deleteGamebox id => exact gateSafe_of_does nofun (gate_deleteEventGamebox id)
    | precheck found => exact gateSafe_runPrecheck found
    | start => exact gateSafe_startEvent
  · have hsame (db' : Db) (he : db'.event = v.1.event) (hg : db'.gameboxes = v.1.gameboxes) :
        (∀ j, gatePact.rely j v (db', v.2)) ∧ gatePact.inv (db', v.2) := by
      have hs : CalmStep False .select v.1 db' := .plain rfl he hg
      obtain ⟨hinv, hgen⟩ := GateInv.calm (j := .start) hi hs
      exact ⟨fun j => ⟨hgen.ge, fun _ => ready_calm (j := .start) hs⟩, hinv⟩
    cases e with
    | deploy target =>
      show (∀ j, gatePact.rely j v (GateEnv.apply (.deploy target) v.1, v.2)) ∧
        GateInv (GateEnv.apply (.deploy target) v.1, v.2)
      unfold GateEnv.apply
      dsimp only
      split_ifs with ht
      · have hne : target ≠ .verified ∧ target ≠ .running := by
          constructor <;> rintro rfl <;> cases ht
        have hs : CalmStep False (.transition v.1.event.status target) v.1
            (Prog.after (transitionRow v.1.event.status target {}) v.1) :=
          .transition hne.1 (fun h => hne.2 h) rfl
        obtain ⟨hinv, hgen⟩ := GateInv.calm (j := .start) hi hs
        have hready := ready_calm (j := .start) (g := v.2) hs
        rw [watch_transition hne.2] at hinv hready
        exact ⟨fun j => ⟨hgen.ge, fun _ => hready⟩, hinv⟩
      · exact hsame v.1 rfl rfl
    | _ => exact hsame _ rfl rfl

end Law

/-! ## Runs -/

section Runs

variable {w : GatePool}

/-- A start that is under way does not notice a statement under the condition. -/
theorem ready_stmt {j : GateJob} {l : Stmt} {db' : Db} {R V : Prop}
    (hs : GateStep R V l w.state db') (hspares : w.SparesStart l)
    (hlive : ∃ t ∈ w.threads, t.1 = .start ∧ t.2.live = true) (hready : Ready w.view) :
    Ready (db', GateNotes.watch j l w.state w.ghost) := by
  have hrunning (h : w.NoStart) : w.state.event.status = .running := by
    rcases h with h | h
    · exact h
    · obtain ⟨t, ht, hj, hlive⟩ := hlive
      rw [h t ht hj] at hlive
      cases hlive
  cases hs with
  | calm hs => exact ready_calm hs hready
  | @updateConfig p =>
    refine Ready.of_same hready fun hv => ?_
    cases htx : updateConfigTx p w.state with
    | error e =>
      rw [Prog.after_of_error htx] at hv ⊢
      exact ⟨hv, rfl, rfl, rfl⟩
    | ok r =>
      obtain ⟨db', _⟩ := r
      rw [Prog.after_of_ok htx] at hv ⊢
      obtain ⟨-, hmoved | ⟨-, hsame, hgen, hconf | hstay⟩⟩ := updateConfigTx_ok htx
      · exact absurd (hmoved.2.1.symm.trans hv) (by decide)
      · exact absurd (hconf.1.symm.trans hv) (by decide)
      · exact ⟨hstay.1 ▸ hv, hstay.2, hgen, hsame⟩
  | @editGamebox edit =>
    intro hv
    have hevent : (Prog.after edit.write w.state).event = w.state.event := by
      unfold Prog.after
      split
      · exact write_event ‹_›
      · rfl
    rw [show _ = w.state.event from hevent] at hv
    exact absurd ((hrunning hspares).symm.trans hv) (by decide)
  | touch => exact fun hv => absurd ((hrunning hspares).symm.trans hv) (by decide)
  | @verdict seen generation p _ _ hp =>
    rcases after_transitionRow .prechecking .verified p w.state with hsame | ⟨hs, hmoved⟩
    · refine Ready.of_same hready fun hv => ?_
      rw [hsame] at hv ⊢
      exact ⟨hv, rfl, rfl, rfl⟩
    · rcases hspares with ⟨hseen, hgen⟩ | hno
      · rw [hmoved]
        have hver : (w.state.event.patched .verified p).verifiedGeneration = some generation := by
          rw [AwdEvent.patched, hp]
          rfl
        refine fun _ => ⟨hgen ▸ hver, ?_⟩
        show w.state.configuration ∈
          (if w.state.event.status = .prechecking then
            { w.ghost with passed := w.ghost.passed ++ [seen] } else w.ghost).passed
        rw [if_pos hs, hseen]
        exact List.mem_append_right _ (List.mem_singleton_self _)
      · exact absurd (hs.symm.trans (hrunning hno)) (by decide)

theorem gatePact_mild {a : Act GateJob GateEnv} (h : gatePact.Ok w) (hk : w.KeptApart a) :
    gatePact.Mild w a := by
  unfold Pact.Mild
  split
  · intro j l u ok err hi t ht hlive
    have hs := h.stmt hi
    refine ⟨?_, fun hj hready => ?_⟩
    · have hsafe := h.safe _ (List.mem_of_getElem? hi) w.view (gatePact.refl _ _) h.inv
      exact (hsafe.1 (hk.1 (j, l) (Pool.mem_next hi))).1.1
    · exact ready_stmt (j := j) hs (hk.2 (j, l) (Pool.mem_next hi)) ⟨t, ht, hj, hlive⟩ hready
  · trivial

end Runs

/-- From an event without a verification, with nothing under way. -/
theorem startGate_run {db : Db} (h0 : db.event.verifiedGeneration = none)
    {acts : List (Act GateJob GateEnv)}
    (h : Along gateSystem.step GatePool.KeptApart (GatePool.initial db) acts) :
    (acts.foldl gateSystem.step (GatePool.initial db)).ghost.Sound := by
  have hinv : GateInv (GatePool.initial db).view := by
    refine ⟨⟨?_, List.Pairwise.nil⟩, ?_, ?_, ?_, ?_⟩
    · exact fun e he => absurd he List.not_mem_nil
    · exact fun n hn => absurd (h0 ▸ hn) (by simp)
    · exact fun _ hn => absurd (h0 ▸ hn) (by simp)
    · exact fun e he => absurd he List.not_mem_nil
    · exact fun _ e he => absurd he List.not_mem_nil
  have hok : gatePact.Ok (GatePool.initial db) :=
    Pact.Ok.initial (v := (GatePool.initial db).view) hinv
  exact (hok.run gatePact_keeps (fun w a hw hk => ⟨hk.1, gatePact_mild hw hk⟩) h).inv.sound

/-! ## The unguarded edit -/

/-- A configured event with a team and a game box. -/
def Db.configuredEvent : Db :=
  { now := 0, nextId := 10
    event :=
      { eventId := 1, status := .configuring, phase := .hardening, roundDurationSecs := 300
        roundCount := some 2, initialScore := 1000, judgeDefaultTimeoutSecs := 30
        judgeGracePeriodSecs := 30, verifiedAt := none, verifiedRevision := none
        verifiedGeneration := none, configurationGeneration := 0, pausedPhase := none
        pauseRemainingSecs := none, hardeningEndsAt := none, startedAt := none, finishedAt := none }
    generic := { startTime := 0, endTime := some (1000 * sec) }
    networkRow := true, rounds := [], tasks := [], batches := [], judgeTasks := [], teams := [⟨2⟩]
    gameboxes :=
      [{ id := 3, attackScore := 100, judgeDownPenalty := 200, firstBonus := 20, specReady := true }]
    instances := [], bans := [], submissions := [], scores := [] }

/-- The job at index `i` makes `n` statements. -/
def gateSteps (i n : Nat) : List (Act GateJob GateEnv) := List.replicate n (.step i true)

/-- A precheck passes, and a game box is edited between the check and the entry of a start. -/
def lateEdit : List (Act GateJob GateEnv) :=
  .spawn (.precheck {}) :: gateSteps 0 11 ++ .spawn .start :: gateSteps 1 1 ++
    .spawn (.updateGamebox true 3 { attackScore := some 500 }) :: gateSteps 2 4 ++ gateSteps 1 6

/-- The event is running under generation 1, which is not the verified one, with a configuration that
no precheck has seen. -/
theorem started_unverified :
    (lateEdit.foldl gateSystem.step (GatePool.initial .configuredEvent)).ghost.entered.map
        (fun e => (e.verifiedGeneration, e.configurationGeneration)) = [(some 0, 1)] ∧
      ¬ (lateEdit.foldl gateSystem.step (GatePool.initial .configuredEvent)).ghost.Sound := by
  refine ⟨by decide +kernel, fun h => ?_⟩
  have hentered := h.entered
  revert hentered
  decide +kernel

/-- The edit comes first, a start is blocked, and the next one follows a second precheck. -/
def timelyEdit : List (Act GateJob GateEnv) :=
  .spawn (.precheck {}) :: gateSteps 0 11 ++
    .spawn (.updateGamebox true 3 { attackScore := some 500 }) :: gateSteps 1 5 ++
    .spawn .start :: gateSteps 2 2 ++ .spawn (.precheck {}) :: gateSteps 3 11 ++
    .spawn .start :: gateSteps 4 9

theorem startGate_run_timely :
    (timelyEdit.foldl gateSystem.step (GatePool.initial .configuredEvent)).state.event.status =
        .running ∧
      (timelyEdit.foldl gateSystem.step (GatePool.initial .configuredEvent)).ghost.Sound := by
  have hapart : Along gateSystem.step GatePool.KeptApart (GatePool.initial .configuredEvent)
      timelyEdit := by decide +kernel
  exact ⟨by decide +kernel, startGate_run rfl hapart⟩

end FloatCtf.Awd
