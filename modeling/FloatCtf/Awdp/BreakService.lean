import FloatCtf.Awdp.EvaluationRepo
import FloatCtf.Net.Text

/-!
# Flags of the break phase

`break_service::submit_flag`: a subject that submits the flag of a gamebox during the break phase of
a run gets a row of `awdp_breaks`, and with it a row of the ledger.  A second submission finds the
first row and is accepted without a score.

The flag is derived from the run, the gamebox and the subject under a secret, and is stored as a
hash; `awdpFlag` and `hashFlag` stand for both.
-/

namespace FloatCtf.Awdp

open Process

/-! ## Rows -/

/-- Who submits a flag: `Subject::user` or `Subject::team`. -/
inductive BreakSubject where
  | user (id : Nat)
  | team (id : Nat)
  deriving DecidableEq

/-- The user of a subject. -/
def BreakSubject.userId : BreakSubject → Option Nat
  | user id => some id
  | team _ => none

/-- The team of a subject. -/
def BreakSubject.teamId : BreakSubject → Option Nat
  | user _ => none
  | team id => some id

/-- What the unique indexes of `awdp_breaks` are about. -/
structure BreakKey where
  runId : Nat
  gameboxId : Nat
  subject : BreakSubject
  deriving DecidableEq

/-- `break_idempotency_key`. -/
def breakIdempotencyKey (k : BreakKey) : IdempotencyKey :=
  .break k.runId k.gameboxId k.subject.userId k.subject.teamId

/-- A break that was recorded. -/
structure Break where
  id : Nat
  key : BreakKey
  eventId : Nat
  flagSha256 : String
  brokenAt : Int
  deriving DecidableEq

/-- The tables of the runs with the break rows and the setting `FLAG_PREFIX`. -/
structure BreakDb where
  core : Db
  breaks : List Break
  flagPrefix : Option String

/-- What a submission is answered. -/
structure BreakSubmissionResult where
  accepted : Bool
  scored : Bool
  alreadyBroken : Bool
  deriving DecidableEq

/-! ## Statements -/

/-- The label of a statement; those of the score of a break row are marked with its key. -/
inductive BreakStmt where
  | core (l : Stmt)
  | setting
  | recordBreak (k : BreakKey)
  | scoring (k : BreakKey) (l : Stmt)
  | answered (k : BreakKey) (r : Except AwdpError BreakSubmissionResult)

/-- A submission, statement by statement. -/
abbrev BreakM := Prog BreakStmt BreakDb AwdpError

/-- A program of the core as part of a submission. -/
def onCore {α : Type} (label : Stmt → BreakStmt) (p : AwdpM α) : BreakM α :=
  p.zoom label BreakDb.core fun core db => { db with core }

/-- `get_setting(db, "FLAG_PREFIX")`, or the default. -/
def getFlagPrefix : BreakM String :=
  .stmt .setting id (fun db => .ret (db.flagPrefix.getD "flag")) fun _ => .ret "flag"

/-- The break is recorded. -/
def BreakDb.broken (db : BreakDb) (k : BreakKey) : Bool := db.breaks.any (·.key = k)

/-- Records the break. -/
def BreakDb.insertBreak (db : BreakDb) (k : BreakKey) (eventId : Nat) (sha : String) : BreakDb :=
  { db with
    breaks := db.breaks ++ [{ id := db.core.nextId, key := k, eventId, flagSha256 := sha
                              brokenAt := db.core.now }]
    core := { db.core with nextId := db.core.nextId + 1 } }

/-- The insert of `record_break`: a row needs its run, and a key that is taken is not an error. -/
def BreakDb.record (db : BreakDb) (k : BreakKey) (eventId : Nat) (sha : String) :
    Except AwdpError (BreakDb × Bool) :=
  if (db.core.runById k.runId).isNone then
    .error (.database s!"assert_awdp_run: run {k.runId} not found")
  else if db.broken k then .ok (db, false)
  else .ok (db.insertBreak k eventId sha, true)

/-- Records the break, unless it is there. -/
def recordBreak (k : BreakKey) (sha : String) : BreakM Bool := do
  let run ← onCore .core (requireRun k.runId)
  Prog.exec (.recordBreak k) dbError (·.record k run.eventId sha)

/-- The score of a break. -/
def breakScore (k : BreakKey) (run : Run) : NewScore where
  runId := k.runId
  userId := k.subject.userId
  teamId := k.subject.teamId
  gameboxId := k.gameboxId
  scoreType := .break
  fixRoundId := none
  delta := run.config.breakScore
  idempotencyKey := breakIdempotencyKey k

/-! ## Submission -/

section Submission

variable (awdpFlag : BreakKey → String → String) (hashFlag : String → String)

/-- `submit_flag` behind the check of the flag. -/
def acceptFlag (k : BreakKey) (run : Run) (expected : String) : BreakM BreakSubmissionResult := do
  let firstTime ← recordBreak k (hashFlag expected)
  if firstTime then
    let _ ← onCore (.scoring k) (createScoreEvent (breakScore k run))
    return { accepted := true, scored := true, alreadyBroken := false }
  else return { accepted := true, scored := false, alreadyBroken := true }

/-- `submit_flag`: a correct flag during the break is recorded and scored. -/
def submitFlag (k : BreakKey) (flag : String) : BreakM BreakSubmissionResult := do
  let run ← onCore .core (requireRun k.runId)
  if run.phase ≠ .break then
    .fail (.invalidState s!"flag submission only allowed during Break (phase={run.phase.debug})")
  else if run.gameboxId.isSome ∧ run.gameboxId ≠ some k.gameboxId then
    .fail (.validation "gamebox 不属于该训练 run")
  else
    let flagPrefix ← getFlagPrefix
    let expected := awdpFlag k flagPrefix
    if Text.trim flag ≠ expected then
      return { accepted := false, scored := false, alreadyBroken := false }
    else acceptFlag hashFlag k run expected

/-- A request: the submission, and the answer that the player gets. -/
def submitRequest (k : BreakKey) (flag : String) : BreakM Unit := do
  let r ← (submitFlag awdpFlag hashFlag k flag).attempt
  Prog.look (.answered k r) fun _ => ()

end Submission

end FloatCtf.Awdp
