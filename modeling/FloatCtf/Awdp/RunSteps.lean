import FloatCtf.Awdp.TickService

/-!
# What a statement can do to a run

`RunStep` says of every statement of the tick, of the admin routes and of the training routes what it
does, and under which check; the programs are made of such steps.
-/

namespace FloatCtf.Awdp

open Process

/-- What a statement of the run programs does. -/
def RunStep (l : Stmt) (db db' : Db) : Prop :=
  (∃ locks, db' = { db with locks := locks }) ∨ match l with
  | .resetInstance id => ∃ generation, db' = db.resetInstance id generation
  | .createPracticeEvent =>
    (∀ e ∈ db.events, e.id ≠ eventPracticeAwdp ∧ e.systemKey ≠ some practiceSystemKey) ∧
      ∃ now, db' = { db with events := db.events ++ [practiceEvent now] }
  | .createRun eventId gameboxId ownerUserId _ => ∃ config next,
      db.slotTaken (.created db.nextId eventId gameboxId ownerUserId config next) = false ∧
        db' = db.insertRun (.created db.nextId eventId gameboxId ownerUserId config next)
  | .transition id expected target => ∃ run p, db.runById id = some run ∧ run.phase = expected ∧
      expected.canTransitionTo target = true ∧ db.slotTaken (run.moved target p) = false ∧
        db' = db.editRun id (·.moved target p)
  | .rewind id => ∃ run, db.runById id = some run ∧ run.practice = true ∧ run.phase = .fix ∧
      db' = (db.editRun id (·.rewound db.now)).clearFixSession id
  | .endPractice id => ∃ run, db.runById id = some run ∧ run.practice = true ∧
      db' = db.editRun id fun r =>
        { r with phase := .ended, finishedAt := some db.now, nextActionAt := none }
  | .touchTick id => ∃ run currentRound next, db.runById id = some run ∧
      db' = db.editRun id fun r => { r with
        currentRound := currentRound
        nextActionAt := some next }
  | .insertRound runId sequence => ∃ w : RoundWindow, w.sequence = sequence ∧
      (∀ r ∈ db.rounds, r.runId = runId → r.sequence ≠ sequence) ∧ db' = db.insertRound runId w
  | .materializeRound runId roundId => ∃ round now, db.roundById roundId = some round ∧
      round.status = .pending ∧ db' = db.materializeRound runId roundId now
  | .completeRound id => ∃ round, db.roundById id = some round ∧
      db' = db.editRound id fun r => { r with status := .completed }
  | _ => False

/-- Statements that create a run. -/
def Stmt.creates : Stmt → Bool
  | .createRun _ _ _ _ => true
  | _ => false

/-- A step relation that allows what the run programs do, but for the creation of runs. -/
class MovesRuns (T : Stmt → Db → Db → Prop) : Prop where
  step : ∀ {l db db'}, l.creates = false → RunStep l db db' → T l db db'

instance : MovesRuns RunStep := ⟨fun _ h => h⟩

section Does

variable {T : Stmt → Db → Db → Prop} {α : Type}

theorem does_logged {p : AwdpM α} (hp : p.Does T) (done : α → TickSummary) :
    (logged p done).Does T := by
  refine Prog.does_bind (Prog.does_attempt hp) fun r => ?_
  cases r <;> trivial

theorem does_tally {ι : Type} {f : ι → AwdpM TickSummary}
    (hf : ∀ i, (f i).Does T) (is : List ι) : (tally f is).Does T := by
  induction is with
  | nil => trivial
  | cons i is ih => exact Prog.does_bind (hf i) fun _ => Prog.does_bind ih fun _ => trivial

variable [MovesRuns T]

theorem moves_refl {l : Stmt} (hl : l.creates = false) (db : Db) : T l db db :=
  MovesRuns.step hl (.inl ⟨db.locks, rfl⟩)

instance : Reads T where
  quiet l db locks hl := by
    refine MovesRuns.step ?_ (.inl ⟨locks, rfl⟩)
    cases l <;> first | rfl | cases hl

theorem runs_resetInstance (instanceId : Nat) : (resetInstance instanceId).Does T := by
  refine does_withLock (Prog.does_bind (does_findByInstanceId _) fun i => ?_) _
  refine Prog.does_exec (moves_refl rfl) fun db db' a hf => ?_
  cases hf
  exact MovesRuns.step rfl (.inr ⟨_, rfl⟩)

theorem runs_transitionPhase (runId : Nat) (expected target : AwdpPhase)
    (p : PhaseTransitionPatch) : (transitionPhase runId expected target p).Does T := by
  refine Prog.does_if (fun _ => trivial) fun hcan => ?_
  refine Prog.does_exec (moves_refl rfl) fun db db' a hf => ?_
  split at hf
  · cases hf
  · split_ifs at hf with hphase hslot
    cases hf
    exact MovesRuns.step rfl (.inr ⟨_, p, ‹_›, by simpa using hphase, by simpa using hcan, by simpa using hslot, rfl⟩)

theorem runs_launchPracticeRun (runId : Nat) : (launchPracticeRun runId).Does T := by
  refine Prog.does_exec (moves_refl rfl) fun db db' a hf => ?_
  split at hf
  · cases hf
  · dsimp only at hf
    split_ifs at hf with hprac hphase hslot
    · cases hf
      exact moves_refl rfl _
    · cases hf
      exact MovesRuns.step rfl (.inr ⟨_, _, ‹_›, by simpa using hphase, rfl, by simpa using hslot, rfl⟩)

theorem runs_transitionFixToBreak (runId : Nat) : (transitionFixToBreak runId).Does T := by
  refine Prog.does_exec (moves_refl rfl) fun db db' a hf => ?_
  split at hf
  · cases hf
  · split_ifs at hf with hprac hphase hslot
    cases hf
    exact MovesRuns.step rfl (.inr ⟨_, ‹_›, by simpa using hprac, by simpa using hphase, rfl⟩)

theorem runs_endPracticeSession (runId : Nat) : (endPracticeSession runId).Does T := by
  refine Prog.does_exec (moves_refl rfl) fun db db' a hf => ?_
  split at hf
  · cases hf
  · split_ifs at hf with hprac hended
    · cases hf
      exact moves_refl rfl _
    · cases hf
      exact MovesRuns.step rfl (.inr ⟨_, ‹_›, by simpa using hprac, rfl⟩)

theorem runs_touchTickState (runId : Nat) (currentRound next : Int) :
    (touchTickState runId currentRound next).Does T := by
  refine Prog.does_bind (does_select _) fun _ => Prog.does_bind (does_ofOption _ _) fun _ => ?_
  refine Prog.does_exec (moves_refl rfl) fun db db' a hf => ?_
  split at hf
  · cases hf
  · cases hf
    exact MovesRuns.step rfl (.inr ⟨_, _, _, ‹_›, rfl⟩)

theorem runs_materializeWindow (runId : Nat) (w : RoundWindow) :
    (materializeWindow runId w).Does T := by
  refine Prog.does_bind (does_select _) fun found => Prog.does_ite (Prog.does_pure _) ?_
  refine Prog.does_exec (moves_refl rfl) fun db db' a hf => ?_
  split_ifs at hf with htaken
  cases hf
  refine MovesRuns.step rfl (.inr ⟨w, rfl, fun r hr hid hseq => htaken ?_, rfl⟩)
  exact List.any_eq_true.2 ⟨r, hr, by simp [hid, hseq]⟩

theorem runs_materializeRounds (runId : Nat) : (materializeRounds runId).Does T := by
  refine Prog.does_bind (does_requireRun _) fun run => ?_
  split
  · trivial
  · exact Prog.does_each fun w _ => runs_materializeWindow _ w

theorem runs_materializeRoundAtomic (runId roundId : Nat) (now : Int) :
    (materializeRoundAtomic runId roundId now).Does T := by
  refine Prog.does_exec (moves_refl rfl) fun db db' a hf => ?_
  split at hf
  · cases hf
  · split_ifs at hf with hstatus
    · cases hf
      exact moves_refl rfl _
    · cases hf
      exact MovesRuns.step rfl (.inr ⟨_, now, ‹_›, by simpa using hstatus, rfl⟩)

theorem runs_completeFinishedRounds : completeFinishedRounds.Does T := by
  refine Prog.does_bind (does_select _) fun rounds => Prog.does_each fun round _ => ?_
  refine Prog.does_bind (does_select _) fun all => Prog.does_ite ?_ (Prog.does_pure _)
  refine Prog.does_bind (does_findRound _) fun _ => ?_
  refine Prog.does_exec (moves_refl rfl) fun db db' a hf => ?_
  split at hf
  · cases hf
  · cases hf
    exact MovesRuns.step rfl (.inr ⟨_, ‹_›, rfl⟩)

theorem runs_resetInstances (is : List Instance) : (resetInstances is).Does T := by
  induction is with
  | nil => trivial
  | cons i is ih =>
    refine Prog.does_bind (Prog.does_attempt (runs_resetInstance _)) fun r => ?_
    cases r with
    | ok _ => exact ih
    | error _ => trivial

theorem runs_transitionBreakToPreparingFix (runId : Nat) :
    (transitionBreakToPreparingFix runId).Does T :=
  Prog.does_bind does_utcNow fun _ => runs_transitionPhase _ _ _ _

theorem runs_enterFix (runId : Nat) (config : AwdpConfig) : (enterFix runId config).Does T :=
  Prog.does_bind does_utcNow fun _ =>
    Prog.does_bind (runs_transitionPhase _ _ _ _) fun _ => runs_materializeRounds _

theorem runs_reconcilePreparingFix (runId : Nat) :
    (reconcilePreparingFix runId).Does T := by
  refine Prog.does_bind (does_requireRun _) fun run => Prog.does_ite (Prog.does_pure _) ?_
  refine Prog.does_bind (does_ofExcept _) fun _ => Prog.does_bind (does_select _) fun rows => ?_
  refine Prog.does_bind (runs_resetInstances _) fun done => Prog.does_ite ?_ ?_
  · exact Prog.does_bind (runs_enterFix _ _) fun _ => trivial
  · refine Prog.does_bind does_utcNow fun now => ?_
    exact Prog.does_bind (Prog.does_attempt (runs_touchTickState _ _ _)) fun _ => trivial

theorem runs_transitionBreakToFix (runId : Nat) : (transitionBreakToFix runId).Does T := by
  refine Prog.does_bind (does_requireRun _) fun run => ?_
  refine Prog.does_bind (Prog.does_ite (runs_transitionBreakToPreparingFix _) (Prog.does_pure _))
    fun _ => ?_
  exact Prog.does_bind (runs_reconcilePreparingFix _) fun done => Prog.does_ite trivial trivial

theorem runs_finishFix (run : Run) (now : Int) : (finishFix run now).Does T := by
  refine Prog.does_bind (Prog.does_attempt (runs_transitionPhase _ _ _ _)) fun r => ?_
  cases r <;> trivial

theorem runs_processFixRoundCutoffs (runId : Nat) (now : Int) :
    (processFixRoundCutoffs runId now).Does T := by
  refine Prog.does_bind (does_select _) fun round => ?_
  cases round with
  | none => trivial
  | some round =>
    refine Prog.does_bind (runs_materializeRoundAtomic _ _ _) fun _ => ?_
    refine Prog.does_bind (does_requireRun _) fun run => Prog.does_bind (does_select _) fun next => ?_
    cases next with
    | none => exact Prog.does_bind (runs_finishFix _ _) fun _ => trivial
    | some next => exact Prog.does_bind (runs_touchTickState _ _ _) fun _ => trivial

theorem runs_tickPending (run : Run) (now : Int) : (tickPending run now).Does T := by
  refine Prog.does_bind (does_select _) fun event => ?_
  cases event with
  | none => trivial
  | some event =>
    exact Prog.does_ite (does_logged (runs_transitionPhase _ _ _ _) _) (Prog.does_pure _)

theorem runs_tickFix (run : Run) (now : Int) : (tickFix run now).Does T := by
  have hensure : (ensureRounds run.id).Does T :=
    Prog.does_bind (does_select _) fun _ =>
      Prog.does_ite (runs_materializeRounds _) (Prog.does_pure _)
  exact Prog.does_bind hensure fun _ =>
    Prog.does_bind (runs_processFixRoundCutoffs _ _) fun _ => trivial

theorem runs_tickRun (now : Int) (run : Run) : (tickRun now run).Does T := by
  unfold tickRun
  split
  · exact runs_tickPending _ _
  · exact does_logged (runs_transitionBreakToPreparingFix _) _
  · exact does_logged (runs_reconcilePreparingFix _) _
  · exact runs_tickFix _ _
  · trivial

theorem runs_findUnstartedAwdpEvents (now : Int) (limit : Nat) :
    (findUnstartedAwdpEvents now limit).Does T := by
  refine Prog.does_bind (does_select _) fun rows => Prog.does_ite (Prog.does_pure _) ?_
  exact Prog.does_bind (does_select _) fun _ => trivial

theorem does_insertRun (eventId : Nat) (gameboxId ownerUserId : Option Nat) (config : AwdpConfig)
    (next : Option Int) (seen : List Run) :
    (insertRun eventId gameboxId ownerUserId config next seen).Does RunStep := by
  refine Prog.does_exec (fun db => .inl ⟨db.locks, rfl⟩) fun db db' a hf => ?_
  dsimp only at hf
  split_ifs at hf with hslot
  · cases hf
    exact .inl ⟨db.locks, rfl⟩
  · cases hf
    exact .inr ⟨config, next, by simpa using hslot, rfl⟩

theorem runs_createEvent (now : Int) : (Prog.exec .createPracticeEvent dbError fun db =>
      if db.events.any fun e => e.id = eventPracticeAwdp ∨ e.systemKey = some practiceSystemKey then
        .ok (db, false)
      else .ok ({ db with events := db.events ++ [practiceEvent now] }, true) :
    AwdpM Bool).Does T := by
  refine Prog.does_exec (moves_refl rfl) fun db db' a hf => ?_
  split_ifs at hf with htaken
  · cases hf
    exact moves_refl rfl _
  · cases hf
    refine MovesRuns.step rfl (.inr ⟨fun e he => ?_, now, rfl⟩)
    have := fun h => htaken (List.any_eq_true.2 ⟨e, he, h⟩)
    simpa using this

end Does

end FloatCtf.Awdp
