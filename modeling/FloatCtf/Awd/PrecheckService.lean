import FloatCtf.Awd.JudgeApi

/-!
# The precheck

`precheck_service::run_precheck`: the event goes to `Prechecking`, the checks are made one after the
other, and a precheck without errors takes the event to `Verified` under the generation of the
configuration that is read at the end.

The checks that look outside the database, at the containers, WireGuard, the firewall and the columns
of the network, come with the call as `Findings`; the record of the run is read by nothing here and
keeps only its two statements.
-/

namespace FloatCtf.Awd

open Process

/-- What a precheck that finds nothing writes. -/
def TransitionPatch.verifiedWithGeneration (revision : String) (generation now : Int) :
    TransitionPatch :=
  { verifiedRevision := some revision, verifiedAt := some now
    verifiedGeneration := some generation }

/-- What a precheck finds outside the database: the components with an error, and the hash of the
addresses of the event. -/
structure Findings where
  errors : List String := []
  revision : String := ""
  deriving DecidableEq

/-- The change of status at the start, from the status that was read. -/
def enterPrechecking : AwdEventStatus → AwdM Unit
  | .prechecking => pure ()
  | .verified => do
    transitionEvent .verified .configuring .configChanged
    transitionEvent .configuring .prechecking {}
  | other => transitionEvent other .prechecking {}

/-- The game boxes whose specification does not resolve, one look-up for each. -/
def unresolvedSpecs : List EventGamebox → AwdM (List String)
  | [] => pure []
  | g :: gs => do
    let resolved ← select fun db => resolveEventGamebox db g.id
    let errors ← unresolvedSpecs gs
    pure (if resolved.isSome then errors else "gamebox_revision" :: errors)

/-- The end of a precheck that found no error. -/
def recordVerified (checked : Configuration) (revision : String) : AwdM Unit := do
  let generation ← select (·.event.configurationGeneration)
  let now ← utcNow
  Prog.exec (.recordVerified checked generation) dbError
    (transitionRow .prechecking .verified (.verifiedWithGeneration revision generation now))

/-- `run_precheck`: verifies the event, or says what is missing. -/
def runPrecheck (found : Findings) : AwdM Unit := do
  let awdEvent ← select (·.event)
  let row ← select (·.networkRow)
  if !row then .fail (.notFound "event network not allocated；请先在赛事网络页分配")
  else if !awdEvent.status.isConfigurable ∧ awdEvent.status ≠ .prechecking then
    .fail (.invalidState s!"Cannot precheck in {awdEvent.status.debug} status")
  else
    enterPrechecking awdEvent.status
    write .precheckRun id
    let teams ← select (·.teams)
    let gameboxes ← select (·.gameboxes)
    let unresolved ← unresolvedSpecs gameboxes
    let errors := (if teams.isEmpty then ["teams"] else []) ++
      (if gameboxes.isEmpty then ["gameboxes"] else unresolved) ++ found.errors
    write .precheckRun id
    if errors.isEmpty then recordVerified (awdEvent.configured gameboxes) found.revision
    else
      let _ ← (transitionEvent .prechecking .verificationFailed {}).attempt

end FloatCtf.Awd
