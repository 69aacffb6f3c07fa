import FloatCtf.Awd.ResetAccounting
import FloatCtf.Process.Visits

/-!
# Whether a reset comes to an end

`execute_reset` calls `recover_in_flight_reset` when it finds the instance `Resetting`, and that
function calls `execute_reset` when it finds no pending record.  Neither changes a row before its
call, so the second turn finds what the first one found: `reset_terminates_iff` has the states in
which the calls go on for ever.
-/

namespace FloatCtf.Awd

open Process

/-! ## Calls -/

/-- A call of `execute_reset` or of `recover_in_flight_reset`. -/
inductive ResetCall where
  | execute (instanceId : Nat) (actor : ResetActor)
  | recover (awdEvent : AwdEvent) (inst : GameboxInstance) (teamId : Nat)

/-- `execute_reset` up to its end, or to its call. -/
def executeCall (instanceId : Nat) (actor : ResetActor) : AwdM (Option ResetCall) := do
  let awdEvent ← select (·.event)
  let found ← select fun db => findInstanceById db instanceId
  let inst ← orNotFound "未找到该靶机实例" found
  let teamId ← resetTeam actor inst
  let ban ← select fun db => findActiveBan db teamId
  if ban.isSome then .fail (.forbidden "Team is banned")
  else
    let active ← select fun db => findActiveRound db.rounds
    match checkResetEligibility awdEvent active.isSome with
    | .error e => .fail e
    | .ok () =>
      if inst.status = .resetting then return some (.recover awdEvent inst teamId)
      else
        freshReset awdEvent inst teamId actor
        return none

/-- `recover_in_flight_reset` up to its end, or to its call. -/
def recoverCall (awdEvent : AwdEvent) (inst : GameboxInstance) (teamId : Nat) :
    AwdM (Option ResetCall) := do
  let pending ← select fun db => pendingReset db inst.id
  match pending with
  | some record =>
    doDockerReset awdEvent inst record.id teamId record.freeReset
    return none
  | none => return some (.execute inst.id .system)

/-- What a call does: its own work, or a call of the other function. -/
def ResetCall.body : ResetCall → AwdM (Option ResetCall)
  | execute instanceId actor => executeCall instanceId actor
  | recover awdEvent inst teamId => recoverCall awdEvent inst teamId

/-- A run of the first call, for some answers to its statements, makes the second one. -/
def NextCall (next call : ResetCall × Db) : Prop :=
  call.1.body.EndsIn call.2 next.2 (.ok (some next.1))

/-- No chain of calls from this one goes on for ever. -/
def Terminates (call : ResetCall) (db : Db) : Prop := Acc NextCall (call, db)

/-- What follows a call: nothing, or the program that it calls. -/
def follow (again : ResetCall → AwdM Unit) : Option ResetCall → AwdM Unit
  | none => pure ()
  | some call => again call

/-- The two calls make up one turn. -/
theorem resetTurn_eq (instanceId : Nat) (actor : ResetActor) (again : AwdM Unit) :
    resetTurn instanceId actor again = (executeCall instanceId actor >>=
      follow fun call => call.body >>= follow fun _ => again) := by
  have hr (awdEvent : AwdEvent) (inst : GameboxInstance) (teamId : Nat) :
      recoverInFlightReset awdEvent inst teamId again =
        (recoverCall awdEvent inst teamId >>= follow fun _ => again) := by
    simp only [recoverInFlightReset, recoverCall, Prog.bind_assoc]
    congr 1
    funext pending
    cases pending with
    | none => rfl
    | some record =>
      simp only [Prog.bind_assoc]
      exact (Prog.bind_pure _).symm
  simp only [resetTurn, executeCall, Prog.bind_assoc]
  congr 1; funext awdEvent
  congr 1; funext found
  congr 1; funext inst
  congr 1; funext teamId
  congr 1; funext ban
  by_cases hb : ban.isSome
  · rw [if_pos hb, if_pos hb]
    rfl
  rw [if_neg hb, if_neg hb, Prog.bind_assoc]
  congr 1; funext active
  cases checkResetEligibility awdEvent active.isSome with
  | error e => rfl
  | ok u =>
    by_cases hs : inst.status = .resetting
    · simp only [hs, ↓reduceIte]
      exact hr awdEvent inst teamId
    · simp only [hs, ↓reduceIte, Prog.bind_assoc]
      exact (Prog.bind_pure _).symm

/-! ## When a call follows -/

variable {db db' : Db} {instanceId : Nat} {actor : ResetActor} {c : ResetCall}

/-- The actor may reset the instances of the team. -/
def ResetActor.owns : ResetActor → Nat → Prop
  | player _ teamId, owner => teamId = owner
  | admin _ _, _ => True
  | system, _ => True

/-- The request passes every check and finds its instance `Resetting`. -/
structure FindsResetting (db : Db) (instanceId : Nat) (actor : ResetActor) (inst : GameboxInstance)
    (owner : Nat) : Prop where
  found : findInstanceById db instanceId = some inst
  team : inst.ownerTeamId = some owner
  owns : actor.owns owner
  notBanned : findActiveBan db owner = none
  eligible : checkResetEligibility db.event (findActiveRound db.rounds).isSome = .ok ()
  resetting : inst.status = .resetting

theorem ends_resetTeam {inst : GameboxInstance} {team : Nat} :
    (resetTeam actor inst).EndsIn db db' (.ok team) ↔
      db' = db ∧ inst.ownerTeamId = some team ∧ actor.owns team := by
  cases ht : inst.ownerTeamId with
  | none => simp [resetTeam, requireOwnerTeam, ht, Prog.endsIn_bind, Prog.endsIn_fail]
  | some owner =>
    have ho : (some owner = some team) ↔ team = owner := by rw [Option.some.injEq, eq_comm]
    simp only [resetTeam, requireOwnerTeam, ht, Prog.endsIn_bind, Prog.endsIn_pure, Except.ok.injEq, ho]
    cases actor with
    | player userId teamId =>
      by_cases h : teamId = owner
      · simp [h, Prog.endsIn_pure, ResetActor.owns, eq_comm]
      · simp [h, Prog.endsIn_fail, ResetActor.owns]
        rintro - rfl
        exact h
    | admin adminId chargeTeam => simp [Prog.endsIn_pure, ResetActor.owns]
    | system => simp [Prog.endsIn_pure, ResetActor.owns]

theorem ends_orNotFound {α : Type} {msg : String} {o : Option α} {a : α} :
    (orNotFound msg o).EndsIn db db' (.ok a) ↔ db' = db ∧ o = some a := by
  cases o <;> simp [orNotFound, Prog.endsIn_fail, Prog.endsIn_pure, eq_comm]

/-- `execute_reset` behind the check of the ban. -/
theorem ends_eligible {inst : GameboxInstance} {owner : Nat} {awdEvent : AwdEvent}
    {active : Option AwdRound} :
    Prog.EndsIn (match checkResetEligibility awdEvent active.isSome with
      | .error e => .fail e
      | .ok () =>
        if inst.status = .resetting then return some (.recover awdEvent inst owner)
        else do
          freshReset awdEvent inst owner actor
          return none) db db' (.ok (some c)) ↔
    db' = db ∧ checkResetEligibility awdEvent active.isSome = .ok () ∧ inst.status = .resetting ∧
      c = .recover awdEvent inst owner := by
  cases checkResetEligibility awdEvent active.isSome with
  | error e => simp [Prog.endsIn_fail]
  | ok u =>
    by_cases hs : inst.status = .resetting
    · simp [hs, Prog.endsIn_pure]
    · simp [hs, Prog.endsIn_bind, Prog.endsIn_pure]

theorem ends_executeCall : (executeCall instanceId actor).EndsIn db db' (.ok (some c)) ↔ db' = db ∧
    ∃ inst owner, FindsResetting db instanceId actor inst owner ∧
      c = .recover db.event inst owner := by
  simp only [executeCall, Prog.endsIn_bind, select, Prog.endsIn_query, ends_orNotFound, ends_resetTeam]
  constructor
  · rintro ⟨_, t, ⟨rfl, rfl⟩, _, _, ⟨rfl, rfl⟩, inst, _, ⟨rfl, hfound⟩, owner, _,
      ⟨rfl, hteam, howns⟩, _, _, ⟨rfl, rfl⟩, h⟩
    rename_i s
    by_cases hb : (findActiveBan s owner).isSome
    · rw [if_pos hb] at h
      cases h.2
    · rw [if_neg hb] at h
      obtain ⟨active, t', hq, h⟩ := Prog.endsIn_bind.mp h
      obtain ⟨rfl, rfl⟩ := Prog.endsIn_query.mp hq
      obtain ⟨rfl, he, hs, hc⟩ := ends_eligible.mp h
      exact ⟨rfl, inst, owner, ⟨hfound, hteam, howns, Option.not_isSome_iff_eq_none.mp hb, he, hs⟩, hc⟩
  · rintro ⟨rfl, inst, owner, h, hc⟩
    refine ⟨_, _, ⟨rfl, rfl⟩, _, _, ⟨rfl, rfl⟩, inst, _, ⟨rfl, h.found⟩, owner, _,
      ⟨rfl, h.team, h.owns⟩, _, _, ⟨rfl, rfl⟩, ?_⟩
    rw [h.notBanned]
    exact Prog.endsIn_bind.mpr ⟨_, _, Prog.endsIn_query.mpr ⟨rfl, rfl⟩,
      ends_eligible.mpr ⟨rfl, h.eligible, h.resetting, hc⟩⟩

theorem ends_recoverCall {awdEvent : AwdEvent} {inst : GameboxInstance} {teamId : Nat} :
    (recoverCall awdEvent inst teamId).EndsIn db db' (.ok (some c)) ↔
      db' = db ∧ pendingReset db inst.id = none ∧ c = .execute inst.id .system := by
  simp only [recoverCall, Prog.endsIn_bind, select, Prog.endsIn_query]
  cases hp : pendingReset db inst.id with
  | none => simp [Prog.endsIn_pure]
  | some record => simp [Prog.endsIn_bind, Prog.endsIn_pure]

/-! ## Whether the calls end -/

/-- The calls of the request find an instance that is `Resetting` without a pending record. -/
def Stuck (db : Db) (instanceId : Nat) (actor : ResetActor) : Prop :=
  ∃ inst owner, FindsResetting db instanceId actor inst owner ∧ pendingReset db inst.id = none

theorem nextCall_execute : NextCall (c, db') (.execute instanceId actor, db) ↔ db' = db ∧
    ∃ inst owner, FindsResetting db instanceId actor inst owner ∧
      c = .recover db.event inst owner := ends_executeCall

theorem nextCall_recover {awdEvent : AwdEvent} {inst : GameboxInstance} {teamId : Nat} :
    NextCall (c, db') (.recover awdEvent inst teamId, db) ↔
      db' = db ∧ pendingReset db inst.id = none ∧ c = .execute inst.id .system :=
  ends_recoverCall

theorem findInstanceById_id {inst : GameboxInstance} (h : findInstanceById db instanceId = some inst) :
    inst.id = instanceId := by
  simpa using List.find?_some h

theorem not_acc_of_cycle {α : Type} {r : α → α → Prop} {x y : α} (h : r y x) (h' : r x y) :
    ¬ Acc r x := by
  intro hx
  induction hx generalizing y with
  | intro x _ ih => exact ih y h h' h

theorem not_terminates_of_stuck (h : Stuck db instanceId actor) :
    ¬ Terminates (.execute instanceId actor) db := by
  intro hacc
  obtain ⟨inst, owner, h, hp⟩ := h
  have hid := findInstanceById_id h.found
  have hdown : NextCall (.recover db.event inst owner, db) (.execute instanceId actor, db) :=
    nextCall_execute.mpr ⟨rfl, inst, owner, h, rfl⟩
  have hup : NextCall (.execute instanceId .system, db) (.recover db.event inst owner, db) :=
    nextCall_recover.mpr ⟨rfl, hp, by rw [hid]⟩
  have hagain : NextCall (.recover db.event inst owner, db) (.execute instanceId .system, db) :=
    nextCall_execute.mpr ⟨rfl, inst, owner, { h with owns := trivial }, rfl⟩
  exact not_acc_of_cycle hup hagain (hacc.inv hdown)

/-- The calls of a request come to an end exactly when it does not find its instance `Resetting`
without a pending record, with the checks in front of the recovery passed. -/
theorem reset_terminates_iff (db : Db) (instanceId : Nat) (actor : ResetActor) :
    Terminates (.execute instanceId actor) db ↔ ¬ Stuck db instanceId actor := by
  constructor
  · exact fun h hs => not_terminates_of_stuck hs h
  · intro hs
    refine Acc.intro _ fun ⟨c, db'⟩ hn => ?_
    obtain ⟨rfl, inst, owner, h, rfl⟩ := nextCall_execute.mp hn
    refine Acc.intro _ fun ⟨c, db'⟩ hn => ?_
    obtain ⟨-, hp, -⟩ := nextCall_recover.mp hn
    exact absurd ⟨inst, owner, h, hp⟩ hs

/-- The instance is `Resetting`, and its one reset is recorded as completed. -/
def leftResetting : Db :=
  { setInstanceStatus 4 .resetting .oneInstance with
    resetRecords :=
      [{ id := 8, teamId := 6, gameboxInstanceId := 4, requestedBy := some 7
         requestedByAdmin := none, freeReset := true, status := .completed, createdAt := 0
         completedAt := some 0 }] }

/-- A player of its team asks for a reset. -/
theorem reset_never_ends : ¬ Terminates (.execute 4 (.player 7 6)) leftResetting :=
  not_terminates_of_stuck
    ⟨{ id := 4, teamId := 6, eventGameboxId := 3, status := .resetting }, 6,
      ⟨by decide, rfl, rfl, by decide, by decide, rfl⟩, by decide⟩

end FloatCtf.Awd
