import FloatCtf.Awd.Runs
import FloatCtf.Process.Trace

/-!
# The lifecycle of an event as a state machine

The operations of an event's life, each run to its end at one instant of the clock, and the worlds
they act on: the database together with the time that has been spent in each round and in the
hardening stage.  `Step` lists what one operation can do to the event and its rounds, and
`step_of_op` shows that the runs of the services do nothing else.
-/

namespace FloatCtf.Awd

open Process

/-! ## Operations and worlds -/

/-- The operations of an event's life.  `deliver` hands a due scheduler task to its handler;
`endRound` and `hardeningEnd` call the two handlers' services directly. -/
inductive Op where
  | tick (d : Nat)
  | startEvent (up : Ext → Bool)
  | pauseEvent (up : Ext → Bool)
  | resumeEvent (up : Ext → Bool)
  | networkError
  | deliver (id : Nat) (up : Ext → Bool)
  | endRound (id : Nat) (up : Ext → Bool)
  | hardeningEnd (up : Ext → Bool)
  | restart (host : Host) (up : Ext → Bool)

/-- The database an operation leaves behind. -/
def Op.apply (db : Db) : Op → Db
  | tick d => { db with now := db.now + d }
  | startEvent up => (Awd.startEvent.run (answers up) db).1
  | pauseEvent up => (Awd.pauseEvent.run (answers up) db).1
  | resumeEvent up => (Awd.resumeEvent.run (answers up) db).1
  | networkError => (handleNetworkError.run (answers fun _ => true) db).1
  | deliver id up => ((Awd.deliver id).run (answers up) db).1
  | endRound id up => ((Awd.endRound id).run (answers up) db).1
  | hardeningEnd up => (handleHardeningEnd.run (answers up) db).1
  | restart host up => ((Awd.restart host).run (answers up) db).1

/-- The database with the clocks of the specification: for each round the time the event has been
running with the round active, the time it has been running in its hardening stage, and the last
phase that was not a pause. -/
structure World where
  db : Db
  roundRun : Nat → Int
  hardeningRun : Int
  lastPhase : AwdPhase

/-- The round is active in a running event. -/
def Db.runsRound (db : Db) (id : Nat) : Bool :=
  db.event.status = .running ∧ db.rounds.any fun r => r.id = id ∧ r.status = .active

/-- The event runs in its hardening. -/
def Db.runsHardening (db : Db) : Bool :=
  db.event.status = .running ∧ db.event.phase = .hardening

/-- The time that passes in an operation. -/
def Op.elapsed : Op → Int
  | tick d => d
  | _ => 0

/-- One operation, with the time that rounds and hardening have run. -/
def World.step (w : World) (op : Op) : World where
  db := op.apply w.db
  roundRun id := w.roundRun id + if w.db.runsRound id then op.elapsed else 0
  hardeningRun := w.hardeningRun + if w.db.runsHardening then op.elapsed else 0
  lastPhase :=
    if (op.apply w.db).event.phase = .pause then w.lastPhase else (op.apply w.db).event.phase

/-- A verified event before its start: no rounds, no tasks, and the network that the precheck
demanded. -/
structure Fresh (db : Db) : Prop where
  status : db.event.status = .verified
  phase : db.event.phase = .hardening
  rounds : db.rounds = []
  tasks : db.tasks = []
  networkRow : db.networkRow = true

/-- Nothing has run yet. -/
def World.initial (db : Db) : World :=
  { db, roundRun := fun _ => 0, hardeningRun := 0, lastPhase := db.event.phase }

/-! ## What an operation ends -/

/-- The task, if it is pending and due. -/
def Db.dueTask (db : Db) (id : Nat) : Option ScheduledTask :=
  db.tasks.find? fun t => t.id = id ∧ t.status = .pending ∧ t.executeAt ≤ db.now

/-- The round with this id, if it is active. -/
def Db.activeRound (db : Db) (id : Nat) : Option AwdRound :=
  (findRoundById db.rounds id).filter (·.status = .active)

/-- The active round that the operation is about to end. -/
def Op.endedRound (db : Db) : Op → Option AwdRound
  | endRound id _ => db.activeRound id
  | deliver id _ =>
    match db.dueTask id with
    | none => none
    | some t =>
      if t.taskKey = .awdRoundEnd ∧ db.event.status ≠ .networkError then
        (t.roundId.or ((findActiveRound db.rounds).map (·.id))).bind db.activeRound
      else none
  | _ => none

/-- The hardening stage is running and its deadline is over. -/
def Db.hardeningOver (db : Db) : Bool :=
  db.event.status = .running ∧ db.event.phase = .hardening ∧
    (db.event.hardeningEndsAt.map fun deadline => decide (deadline ≤ db.now)).getD true

/-- The operation is about to end the hardening stage. -/
def Op.endsHardening (db : Db) : Op → Bool
  | hardeningEnd _ => db.hardeningOver
  | deliver id _ =>
    match db.dueTask id with
    | none => false
    | some t => t.taskKey = .awdHardeningEnd ∧ db.hardeningOver
  | _ => false

/-- The event is one that `resume_event` accepts by its status. -/
def Db.resumable (db : Db) : Bool :=
  db.event.status = .paused ∨ db.event.status = .networkError

/-! ## Steps -/

/-- A pending task of this key, time and round is in the table, with an id from `n` on. -/
def Db.Scheduled (db : Db) (n : Nat) (key : TaskKey) (executeAt : Int) (roundId : Option Nat) :
    Prop :=
  ∃ t ∈ db.tasks, t.isPending key = true ∧ t.executeAt = executeAt ∧ t.roundId = roundId ∧ n ≤ t.id

/-- `r` is a new active round with number `k` and its end is on the schedule. -/
structure NewRound (db db' : Db) (k : Int) (r : AwdRound) : Prop where
  number : r.roundNumber = k
  active : r.status = .active
  remaining : r.remainingSecs = none
  ends : r.scheduledEndAt = db.now + db.event.roundDurationSecs * sec
  fresh : db.nextId ≤ r.id ∧ r.id < db'.nextId
  scheduled : db'.Scheduled db.nextId .awdRoundEnd r.scheduledEndAt (some r.id)

/-- The event row that a pause or a network error writes. -/
def AwdEvent.suspended (e : AwdEvent) (target : AwdEventStatus) (remaining : Int) : AwdEvent :=
  { e with status := target, phase := .pause, pausedPhase := some e.phase
           pauseRemainingSecs := some remaining, hardeningEndsAt := none }

/-- The event row after a resume whose network reconcile succeeded or failed. -/
def AwdEvent.resumed (e : AwdEvent) (ok : Bool) (phase : AwdPhase) (endsAt : Option Int) :
    AwdEvent :=
  { e with status := if ok then .running else .networkError, phase
           pauseRemainingSecs := some 0, hardeningEndsAt := endsAt }

/-- Nothing that the operation could stop, end or resume is there. -/
def Op.Inert (db : Db) : Op → Prop
  | tick _ | networkError => False
  | pauseEvent _ => db.event.status ≠ .running
  | resumeEvent _ => db.resumable = false ∨ db.event.pausedPhase = some .pause
  | op => op.endedRound db = none ∧ op.endsHardening db = false

/-- The operation takes a running event out of its stage. -/
def Op.suspends : Op → Bool
  | pauseEvent _ | networkError => true
  | _ => false

/-- The operation resumes the event. -/
def Op.resumes : Op → Bool
  | resumeEvent _ => true
  | _ => false

/-- The operation is an error of the network. -/
def Op.isNetworkError : Op → Bool
  | networkError => true
  | _ => false

/-- What the end of the active round `r` does: the next round starts, or, after the last round and
while the event is stopped, no round does. -/
inductive RoundEnds (db db' : Db) (r : AwdRound) : Prop
  | next {done : List AwdRound} {next : AwdRound} (rounds : db.rounds = done ++ [r])
      (status : db.event.status = .running)
      (more : ∀ rc, db.event.roundCount = some rc → r.roundNumber < rc)
      (moves : Moves db db' db.event (done ++ [completedRound db.now r] ++ [next]))
      (new : NewRound db db' (r.roundNumber + 1) next) : RoundEnds db db' r
  | last {done : List AwdRound} {e : AwdEvent} (rounds : db.rounds = done ++ [r])
      (last : db.event.status = .running → ∃ rc, db.event.roundCount = some rc ∧
        rc ≤ r.roundNumber)
      (event : e = db.event ∨ db.event.status = .running ∧
        e = db.event.patched .finished (.finished db.now))
      (moves : Moves db db' e (done ++ [completedRound db.now r])) : RoundEnds db db' r

/-- What an operation can do to the event and its rounds. -/
inductive Step (db db' : Db) : Op → Prop
  | idle {op : Op} (inert : op.Inert db) (quiet : Quiet db db') : Step db db' op
  | block {up : Ext → Bool} (status : db.event.status = .verified)
      (moves : Moves db db' (db.event.patched .startBlocked .configChanged) db.rounds) :
      Step db db' (.startEvent up)
  | startHardening {up : Ext → Bool} {t : AwdTiming} (status : db.event.status = .verified)
      (timing : computeTiming db.generic.startTime db.generic.endTime db.event.roundCount
        db.event.roundDurationSecs = .ok t) (long : 0 < t.hardeningDurationSecs)
      (moves : Moves db db' (db.event.patched .running
        { phase := some .hardening, startedAt := some db.now
          hardeningEndsAt := some (some (db.now + t.hardeningDurationSecs * sec)) }) db.rounds)
      (scheduled : db'.Scheduled db.nextId .awdHardeningEnd (db.now + t.hardeningDurationSecs * sec) none) :
      Step db db' (.startEvent up)
  | startAttack {up : Ext → Bool} {t : AwdTiming} {r : AwdRound}
      (status : db.event.status = .verified)
      (timing : computeTiming db.generic.startTime db.generic.endTime db.event.roundCount
        db.event.roundDurationSecs = .ok t) (short : t.hardeningDurationSecs ≤ 0)
      (moves : Moves db db' (db.event.patched .running
        { phase := some .attack, startedAt := some db.now }) [r])
      (new : NewRound db db' 1 r) : Step db db' (.startEvent up)
  | suspend {op : Op} {stop : AwdEventStatus} (suspends : op.suspends = true)
      (status : db.event.status = .running) (target : stop = .paused ∨ stop = .networkError)
      (moves : Moves db db' (db.event.suspended stop db.stageRemaining) db.frozenRounds) :
      Step db db' op
  | errorOnPaused (status : db.event.status = .paused)
      (moves : Moves db db' (db.event.suspended .networkError 0) db.rounds) :
      Step db db' .networkError
  | errorRefused (status : db.event.status ≠ .running ∧ db.event.status ≠ .paused)
      (moves : Moves db db' db.event db.frozenRounds) : Step db db' .networkError
  | resumeHardening {up : Ext → Bool} {s : Int} (status : db.resumable = true)
      (phase : db.event.pausedPhase = some .hardening)
      (remaining : db.event.pauseRemainingSecs.getD 0 = s) (pos : 0 < s)
      (moves : Moves db db' (db.event.resumed (up .resumeEvent) .hardening
        (some (db.now + s * sec))) db.rounds)
      (scheduled : db'.Scheduled db.nextId .awdHardeningEnd (db.now + s * sec) none) :
      Step db db' (.resumeEvent up)
  | resumeExhausted {up : Ext → Bool} (status : db.resumable = true)
      (phase : db.event.pausedPhase = some .hardening)
      (remaining : db.event.pauseRemainingSecs.getD 0 ≤ 0)
      (moves : Moves db db' (db.event.resumed (up .resumeEvent) .attack none) db.rounds) :
      Step db db' (.resumeEvent up)
  | resumeRound {up : Ext → Bool} {done : List AwdRound} {r : AwdRound} {newEnd : Int}
      (status : db.resumable = true) (phase : db.event.pausedPhase = some .attack)
      (rounds : db.rounds = done ++ [r]) (isOpen : r.isOpen = true)
      (ends : newEnd = db.now + r.remainingSecs.getD db.event.roundDurationSecs * sec)
      (moves : Moves db db' (db.event.resumed (up .resumeEvent) .attack
        db.event.hardeningEndsAt) (done ++ [resumedRound newEnd r]))
      (scheduled : up .resumeEvent = true → db.hasPending .awdRoundEnd = false →
        db'.Scheduled db.nextId .awdRoundEnd newEnd (some r.id)) :
      Step db db' (.resumeEvent up)
  | resumeBetween {up : Ext → Bool} (status : db.resumable = true)
      (phase : db.event.pausedPhase = some .attack) (allDone : AllDone db.rounds)
      (last : up .resumeEvent = true → ∀ rc, db.event.roundCount = some rc → 0 < rc →
        rc ≤ db.rounds.length)
      (moves : Moves db db' (db.event.resumed (up .resumeEvent) .attack
        db.event.hardeningEndsAt) db.rounds) :
      Step db db' (.resumeEvent up)
  | resumeGap {up : Ext → Bool} {rc : Int} {r : AwdRound} (status : db.resumable = true)
      (phase : db.event.pausedPhase = some .attack) (allDone : AllDone db.rounds)
      (count : db.event.roundCount = some rc) (more : db.rounds.length < rc)
      (moves : Moves db db' (db.event.resumed true .attack db.event.hardeningEndsAt)
        (db.rounds ++ [r]))
      (new : NewRound db db' (db.rounds.length + 1) r) : Step db db' (.resumeEvent up)
  | hardeningEnd {op : Op} {r : AwdRound} (ends : op.endsHardening db = true)
      (moves : Moves db db' db.event.inAttack [r]) (new : NewRound db db' 1 r) : Step db db' op
  | endRound {op : Op} {r : AwdRound} (ended : op.endedRound db = some r)
      (ends : RoundEnds db db' r) : Step db db' op
  | gap {host : Host} {up : Ext → Bool} {rc : Int} {r : AwdRound}
      (status : db.event.status = .running) (phase : db.event.phase = .attack)
      (allDone : AllDone db.rounds) (count : db.event.roundCount = some rc)
      (more : db.rounds.length < rc) (moves : Moves db db' db.event (db.rounds ++ [r]))
      (new : NewRound db db' (db.rounds.length + 1) r) : Step db db' (.restart host up)
  | finish {op : Op} (settled : isFinalSettlement db.event (findLatestRound db.rounds) = true)
      (moves : Moves db db' (db.event.patched .finished (.finished db.now)) db.rounds) :
      Step db db' op

end FloatCtf.Awd
