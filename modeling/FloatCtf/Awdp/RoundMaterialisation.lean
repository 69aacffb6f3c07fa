import FloatCtf.Awdp.EvaluationLease
import FloatCtf.Awdp.RunSteps
import FloatCtf.Process.Visits

/-!
# The transaction that opens the evaluation of a round

`Db.materializeRound` is the transaction of `materialize_round_atomic` in one step.  Here it is made
of its statements, so that other requests come in between: the row of an instance can be there when
the transaction inserts it, and then it starts again from the beginning.

The rows of the transaction are seen by nobody else before it commits, so the program keeps them.
The lock on the round and the index on round and instance are checked again by the commit: where the
database lets a request wait for the transaction, the request comes after it.

`run_materializeRoundTxn` shows that nothing but the one step is left where nobody
interferes. -/

namespace FloatCtf.Awdp

open Process

/-- A statement of the transaction, or one of the other programs. -/
inductive RoundStmt where
  | core (l : Stmt)
  | lockRound (roundId : Nat)
  | read
  | insert (roundId instanceId : Nat)
  | commit (runId roundId : Nat) (rows : List Nat)
  deriving DecidableEq

/-- The materialisation of a round, statement by statement. -/
abbrev RoundM := Prog RoundStmt Db AwdpError

/-- A program on the tables, beside the transactions. -/
def beside {α : Type} (p : AwdpM α) : RoundM α := p.zoom .core (fun db => db) fun db _ => db

/-! ## The instances of the run -/

/-- What becomes of an instance; `taken` is the conflict on `awdp_evaluations_official_uidx`. -/
inductive Visit where
  | skipped
  | inserted
  | taken
  deriving DecidableEq

/-- Inserts the official evaluation of an instance, unless it is there. -/
def insertOfficial (roundId instanceId : Nat) : RoundM Visit :=
  Prog.query (.insert roundId instanceId) dbError fun db =>
    if (db.official roundId instanceId).isSome then .taken else .inserted

/-- The query before the insert; `rows` are the instances for which the transaction has a row. -/
def officialExists (roundId : Nat) (rows : List Nat) (instanceId : Nat) : RoundM Bool :=
  Prog.query .read dbError fun db =>
    (db.official roundId instanceId).isSome || rows.contains instanceId

/-- An instance of the run that was read, and has been started. -/
def visitStarted (roundId : Nat) (rows : List Nat) (i : Instance) : RoundM Visit := do
  if i.runtimeState = .pending then pure .skipped
  else if ← officialExists roundId rows i.id then pure .skipped
  else insertOfficial roundId i.id

/-- One instance of the run. -/
def visitInstance (roundId : Nat) (rows : List Nat) (ext : Instance) : RoundM Visit := do
  match ← Prog.query .read dbError (·.instanceById ext.id) with
  | none => pure .skipped
  | some i => visitStarted roundId rows i

/-- The loop over the instances; `none` is a conflict. -/
def visitInstances (roundId : Nat) : List Instance → List Nat → RoundM (Option (List Nat))
  | [], rows => pure (some rows)
  | ext :: exts, rows => do
    match ← visitInstance roundId rows ext with
    | .skipped => visitInstances roundId exts rows
    | .inserted => visitInstances roundId exts (rows ++ [ext.id])
    | .taken => pure none

/-! ## The commit -/

/-- The official evaluations that the transaction has inserted. -/
def Db.insertOfficials (db : Db) (runId roundId : Nat) (now : Int) (rows : List Nat) : Db :=
  rows.foldl (fun db i => db.insertEvaluation runId i (some roundId) .official now) db

/-- The round as it is opened. -/
def FixRound.opened (expected : Nat) (r : FixRound) : FixRound :=
  { r with
    status := .evaluating
    expectedEvalCount := some expected }

/-- The rows of the transaction, and their number as the snapshot of the round. -/
def Db.commitRound (db : Db) (runId roundId : Nat) (rows : List Nat) (now : Int) : Db :=
  (db.insertOfficials runId roundId now rows).editRound roundId (·.opened rows.length)

/-- The transaction is alone with its round and its rows. -/
def Db.undisturbed (db : Db) (roundId : Nat) (rows : List Nat) : Bool :=
  (db.roundById roundId).any (·.status = .pending) &&
    rows.all fun i => (db.official roundId i).isNone

/-- Commits what the transaction has inserted, unless somebody else has done so. -/
def commitRound (runId roundId : Nat) (rows : List Nat) (now : Int) : RoundM Nat :=
  Prog.exec (.commit runId roundId rows) dbError fun db =>
    if db.undisturbed roundId rows then .ok (db.commitRound runId roundId rows now, rows.length)
    else .error dbError

/-! ## The attempts -/

/-- `materialize_round_atomic_inner` for a round that is pending; `none` asks for another attempt. -/
def materializePending (runId roundId : Nat) (now : Int) (retried : Bool) :
    RoundM (Option Nat) := do
  let exts ← Prog.query .read dbError fun db => db.instances.filter (·.runId = runId)
  match ← visitInstances roundId exts [] with
  | some rows => do
    let expected ← commitRound runId roundId rows now
    pure (some expected)
  | none => if retried then .fail dbError else pure none

/-- `materialize_round_atomic_inner`. -/
def materializeRoundInner (runId roundId : Nat) (now : Int) (retried : Bool) :
    RoundM (Option Nat) := do
  match ← Prog.query (.lockRound roundId) dbError (·.roundById roundId) with
  | none => .fail (.notFound "未找到该 AWDP 修复回合")
  | some current =>
    if current.status ≠ .pending then pure (some 0)
    else materializePending runId roundId now retried

/-- `materialize_round_atomic`: a conflict is retried once. -/
def materializeRoundTxn (runId roundId : Nat) (now : Int) : RoundM Nat := do
  match ← materializeRoundInner runId roundId now false with
  | some expected => pure expected
  | none =>
    match ← materializeRoundInner runId roundId now true with
    | some expected => pure expected
    | none => .fail (.internal "round materialization retry exhausted")

/-! ## The transaction alone -/

/-- The instance was started, and has no evaluation of the round. -/
def Db.unjudged (db : Db) (roundId : Nat) (i : Instance) : Bool :=
  i.runtimeState ≠ .pending ∧ (db.official roundId i.id).isNone

section Alone

variable {db : Db} {roundId : Nat} {rows : List Nat}

theorem run_answered {α : Type} (l : RoundStmt) (e : AwdpError) (f : Db → α) :
    (Prog.query l e f).run (fun _ => true) db = (db, .ok (f db)) := rfl

theorem run_visitInstance (hk : Table.Keyed Instance.id db.instances) {i : Instance}
    (hi : i ∈ db.instances) (hrows : i.id ∉ rows) :
    (visitInstance roundId rows i).run (fun _ => true) db =
      (db, .ok (if db.unjudged roundId i then .inserted else .skipped)) := by
  have hfind : db.instanceById i.id = some i := Table.find_of_mem hk hi
  simp only [visitInstance, Prog.run_bind, run_answered, hfind, visitStarted]
  by_cases hs : i.runtimeState = .pending
  · simp [hs, Db.unjudged]
  · cases ho : db.official roundId i.id <;>
      simp [hs, ho, Db.unjudged, officialExists, insertOfficial, run_answered, hrows]

/-- Nobody comes in between: each instance without a row gets one. -/
theorem run_visitInstances (hk : Table.Keyed Instance.id db.instances) (exts : List Instance)
    (hexts : ∀ i ∈ exts, i ∈ db.instances) (hids : (exts.map (·.id)).Nodup)
    (hrows : ∀ i ∈ exts, i.id ∉ rows) :
    (visitInstances roundId exts rows).run (fun _ => true) db =
      (db, .ok (some (rows ++ (exts.filter (db.unjudged roundId)).map (·.id)))) := by
  induction exts generalizing rows with
  | nil => simp [visitInstances]
  | cons i exts ih =>
    obtain ⟨hnew, hids⟩ := List.nodup_cons.1 hids
    have hin := hexts i List.mem_cons_self
    have hrest (j : Instance) (hj : j ∈ exts) : j ∈ db.instances :=
      hexts j (List.mem_cons_of_mem i hj)
    have hold (j : Instance) (hj : j ∈ exts) : j.id ∉ rows := hrows j (List.mem_cons_of_mem i hj)
    rw [visitInstances, Prog.run_bind, run_visitInstance hk hin (hrows i List.mem_cons_self)]
    by_cases hu : db.unjudged roundId i = true
    · have hnext (j : Instance) (hj : j ∈ exts) : j.id ∉ rows ++ [i.id] := by
        rw [List.mem_append, List.mem_singleton]
        rintro (h | h)
        · exact hold j hj h
        · exact hnew (List.mem_map.2 ⟨j, hj, h⟩)
      simp only [hu, ↓reduceIte, ih hrest hids hnext, List.filter_cons_of_pos, List.map_cons,
        List.append_assoc, List.singleton_append]
    · rw [Bool.not_eq_true] at hu
      simp only [hu, Bool.false_eq_true, ↓reduceIte, ih hrest hids hold, not_false_eq_true,
        List.filter_cons_of_neg]

theorem commitRound_eq (db : Db) (runId roundId : Nat) (now : Int) :
    db.commitRound runId roundId ((db.unevaluated runId roundId).map (·.id)) now =
      db.materializeRound runId roundId now := by
  simp only [Db.commitRound, Db.insertOfficials, Db.materializeRound, List.foldl_map,
    List.length_map]
  rfl

/-- Where nobody interferes, the transaction is the one step. -/
theorem run_materializeRoundTxn (hk : Table.Keyed Instance.id db.instances) (runId roundId : Nat)
    (now : Int) : (materializeRoundTxn runId roundId now).run (fun _ => true) db =
      (materializeRoundAtomic runId roundId now).run (fun _ => true) db := by
  have hexts : (db.instances.filter (·.runId = runId)).filter (db.unjudged roundId) =
      db.unevaluated runId roundId := by
    rw [List.filter_filter, Db.unevaluated]
    refine List.filter_congr fun i _ => ?_
    simp only [Db.unjudged, Bool.decide_and, Bool.and_comm]
  have hvisit := @run_visitInstances _ roundId [] hk
    (db.instances.filter (·.runId = runId)) (fun i hi => (List.mem_filter.1 hi).1)
    (List.Nodup.sublist (List.filter_sublist.map _) hk) (fun _ _ => List.not_mem_nil)
  rw [hexts, List.nil_append] at hvisit
  cases hround : db.roundById roundId with
  | none =>
    simp [materializeRoundTxn, materializeRoundInner, run_answered, materializeRoundAtomic,
      Prog.run_exec, hround]
  | some round =>
    by_cases hs : round.status = .pending
    · have hfree : db.undisturbed roundId ((db.unevaluated runId roundId).map (·.id)) = true := by
        simp only [Db.undisturbed, hround, Option.any_some, hs, decide_true, Bool.true_and,
          List.all_map, List.all_eq_true]
        intro i hi
        exact (of_decide_eq_true (List.mem_filter.1 hi).2).2.2
      simp [materializeRoundTxn, materializeRoundInner, materializePending, commitRound,
        run_answered, materializeRoundAtomic, Prog.run_exec, hround, hs, hvisit, hfree,
        commitRound_eq]
    · simp [materializeRoundTxn, materializeRoundInner, run_answered, materializeRoundAtomic,
        Prog.run_exec, hround, hs]

end Alone

end FloatCtf.Awdp
