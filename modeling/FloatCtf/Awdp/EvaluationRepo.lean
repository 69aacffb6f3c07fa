import FloatCtf.Awdp.Db
import FloatCtf.Net.Text
import FloatCtf.Process.Table
import Mathlib.Data.List.Sort

/-!
# Evaluations and their leases

The repositories of evaluations and scores.  A claim first takes back the leases that have run out,
then hands out pending evaluations, each with a new token of which the row keeps the hash; the
worker extends its lease, writes a verdict under it or gives the evaluation back.  `finish` writes a
verdict without a lease.
-/

namespace FloatCtf.Awdp

open Process

/-- The digest of a token, and the settings of the leases. -/
structure Settings where
  hash : String → String
  leaseSecs : Nat
  maxAttempts : Int

/-- The random tokens of a claim, one for each evaluation. -/
structure Draw where
  token : Nat → String
  ne : ∀ id, token id ≠ ""

/-- An evaluation with the lease it was claimed under. -/
structure ClaimedJob where
  evaluation : Evaluation
  leaseToken : String
  attempt : Int
  deriving DecidableEq

/-- How a heartbeat is answered. -/
inductive HeartbeatOutcome where
  | ok
  | noLease
  deriving DecidableEq

/-- How a result is answered. -/
inductive FinishOutcome where
  | ok
  | staleRejected
  deriving DecidableEq

/-! ## Claims -/

/-- The row without its lease. -/
def Evaluation.released (e : Evaluation) (status : EvaluationStatus) : Evaluation :=
  { e with status := status, lease := .empty }

/-- Running, with a lease that ran out or that is not there. -/
def Evaluation.stale (e : Evaluation) (now : Int) : Bool :=
  e.status = .running ∧ e.lease.expiresAt.all (· < now)

/-- A lease that is taken back: the evaluation is tried again as often as it may be. -/
def Evaluation.recovered (c : Settings) (e : Evaluation) : Evaluation :=
  e.released (if c.maxAttempts ≤ e.attemptCount then .platformError else .pending)

/-- `recover_stale_running`. -/
def Db.recoverStaleRunning (c : Settings) (db : Db) (now : Int) : Db :=
  { db with evaluations := db.evaluations.map fun e =>
      if e.stale now then e.recovered c else e }

/-- The evaluation is pending and within what the query asks for. -/
def Evaluation.claimable (e : Evaluation) (db : Db) (q : ClaimQuery) : Bool :=
  e.status = .pending ∧ e.id ∉ q.skipped ∧ (q.kinds = [] ∨ e.kind ∈ q.kinds) ∧
    q.eventId.all fun event => db.runs.any fun r => r.id = e.runId ∧ r.eventId = event

/-- The oldest evaluations that may be claimed. -/
def Db.claimable (db : Db) (q : ClaimQuery) : List Evaluation :=
  ((db.evaluations.filter (·.claimable db q)).insertionSort fun a b =>
    a.createdAt ≤ b.createdAt).take q.capacity

/-- The evaluation as it is claimed. -/
def Evaluation.claimed (c : Settings) (e : Evaluation) (workerId token : String) (now : Int) :
    Evaluation :=
  { e with
    status := .running
    attemptCount := e.attemptCount + 1
    lease := ⟨some workerId, some now, some now, some (now + c.leaseSecs), some (c.hash token)⟩ }

/-- The transaction of `claim_jobs`: the rows as they were when they were read, and their tokens. -/
def Db.claimJobs (c : Settings) (db : Db) (q : ClaimQuery) (draw : Draw) (now : Int) :
    Db × List ClaimedJob :=
  let db := db.recoverStaleRunning c now
  let rows := db.claimable q
  ({ db with evaluations := db.evaluations.map fun e =>
      if e.id ∈ rows.map (·.id) then e.claimed c q.workerId (draw.token e.id) now else e },
    rows.map fun e => ⟨e, draw.token e.id, e.attemptCount + 1⟩)

/-- `evaluation_repo::claim_jobs`. -/
def claimJobs (c : Settings) (q : ClaimQuery) (draw : Draw) : AwdpM (List ClaimedJob) := do
  let now ← utcNow
  Prog.exec (.claimJobs q now) dbError fun db => .ok (db.claimJobs c q draw now)

section Claims

variable {c : Settings} {db : Db} {q : ClaimQuery} {draw : Draw} {now : Int}

/-- A row that was taken back is the row it was, but for its status and its lease. -/
theorem mem_recoverStaleRunning {e : Evaluation}
    (he : e ∈ (db.recoverStaleRunning c now).evaluations) :
    ∃ e₀ ∈ db.evaluations, e.id = e₀.id ∧ e.runId = e₀.runId ∧ e.instanceId = e₀.instanceId ∧
      e.fixRoundId = e₀.fixRoundId ∧ e.kind = e₀.kind := by
  obtain ⟨e₀, he₀, rfl⟩ := List.mem_map.1 he
  refine ⟨e₀, he₀, ?_⟩
  split_ifs <;> exact ⟨rfl, rfl, rfl, rfl, rfl⟩

theorem keyed_recoverStaleRunning (h : Table.Keyed Evaluation.id db.evaluations) :
    Table.Keyed Evaluation.id (db.recoverStaleRunning c now).evaluations := by
  refine Table.keyed_map (fun e => ?_) h
  split_ifs <;> rfl

theorem mem_claimable {e : Evaluation} (he : e ∈ db.claimable q) :
    e ∈ db.evaluations ∧ e.claimable db q = true := by
  have := List.mem_of_mem_take he
  rw [List.mem_insertionSort] at this
  exact List.mem_filter.1 this

theorem Evaluation.claimable_iff {e : Evaluation} :
    e.claimable db q = true ↔ e.status = .pending ∧ e.id ∉ q.skipped ∧
      (q.kinds = [] ∨ e.kind ∈ q.kinds) ∧
      q.eventId.all (fun event => db.runs.any fun r => r.id = e.runId ∧ r.eventId = event) = true := by
  simp [Evaluation.claimable]

/-- The row of a claimed evaluation. -/
theorem claimed_row (hk : Table.Keyed Evaluation.id db.evaluations) {job : ClaimedJob}
    (hjob : job ∈ (db.claimJobs c q draw now).2) :
    job.evaluation ∈ (db.recoverStaleRunning c now).claimable q ∧
      job.leaseToken = draw.token job.evaluation.id ∧
      job.attempt = job.evaluation.attemptCount + 1 ∧
      (db.claimJobs c q draw now).1.evaluationById job.evaluation.id =
        some (job.evaluation.claimed c q.workerId job.leaseToken now) := by
  obtain ⟨e, he, rfl⟩ := List.mem_map.1 hjob
  refine ⟨he, rfl, rfl, ?_⟩
  have hfind := Table.find_of_mem (keyed_recoverStaleRunning (c := c) hk) (mem_claimable he).1
  have hid : ∀ x : Evaluation, (if x.id ∈ ((db.recoverStaleRunning c now).claimable q).map (·.id)
      then x.claimed c q.workerId (draw.token x.id) now else x).id = x.id := by
    intro x
    split_ifs <;> rfl
  simp only [Db.claimJobs, Db.evaluationById]
  rw [Table.find_map hid, hfind, Option.map_some, if_pos (List.mem_map_of_mem he)]

/-- A row after the leases that ran out were taken back. -/
def Evaluation.refreshed (c : Settings) (now : Int) (e : Evaluation) : Evaluation :=
  if e.stale now then e.recovered c else e

/-- What a claim makes of a row. -/
def Db.claimRow (c : Settings) (db : Db) (q : ClaimQuery) (draw : Draw) (now : Int)
    (e : Evaluation) : Evaluation :=
  if (e.refreshed c now).id ∈ ((db.recoverStaleRunning c now).claimable q).map (·.id) then
    (e.refreshed c now).claimed c q.workerId (draw.token (e.refreshed c now).id) now
  else e.refreshed c now

theorem claimJobs_evaluations : (db.claimJobs c q draw now).1.evaluations =
    db.evaluations.map (db.claimRow c q draw now) := by
  simp only [Db.claimJobs, Db.recoverStaleRunning, List.map_map]
  rfl

/-- A row is taken back when its lease ran out, and then handed out only when it is pending. -/
theorem claimRow_cases (hk : Table.Keyed Evaluation.id db.evaluations) {e : Evaluation}
    (he : e ∈ db.evaluations) :
    db.claimRow c q draw now e = e.refreshed c now ∨ ((e.refreshed c now).status = .pending ∧
      db.claimRow c q draw now e =
        (e.refreshed c now).claimed c q.workerId (draw.token (e.refreshed c now).id) now) := by
  unfold Db.claimRow
  split_ifs with hin
  · refine .inr ⟨?_, rfl⟩
    obtain ⟨e', he', hid⟩ := List.mem_map.1 hin
    obtain ⟨hmem, hclaim⟩ := mem_claimable he'
    have hmem' : e.refreshed c now ∈ (db.recoverStaleRunning c now).evaluations :=
      List.mem_map_of_mem he
    rw [← Table.eq_of_key (keyed_recoverStaleRunning hk) hmem hmem' hid]
    exact (Evaluation.claimable_iff.1 hclaim).1
  · exact .inl rfl

end Claims

/-! ## Writes under a lease -/

/-- Changes one evaluation. -/
def Db.editEvaluation (db : Db) (id : Nat) (f : Evaluation → Evaluation) : Db :=
  { db with evaluations := db.evaluations.map fun e => if e.id = id then f e else e }

/-- The row is running under the lease, whether or not it has run out. -/
def Evaluation.heldBy (c : Settings) (e : Evaluation) (l : Lease) : Bool :=
  e.status = .running ∧ e.lease.claimedBy = some l.workerId ∧
    e.lease.tokenHash = some (c.hash l.token) ∧ e.attemptCount = l.attempt

/-- The lease is live, and the worker's. -/
def Evaluation.heartbeatValid (c : Settings) (e : Evaluation) (workerId token : String)
    (now : Int) : Bool :=
  e.status = .running ∧ e.lease.claimedBy = some workerId ∧
    e.lease.tokenHash = some (c.hash token) ∧ e.lease.expiresAt.any (now < ·)

/-- `heartbeat`. -/
def heartbeat (c : Settings) (id : Nat) (workerId token : String) : AwdpM HeartbeatOutcome :=
  Prog.exec (.heartbeat id workerId token) dbError fun db =>
    match db.evaluationById id with
    | none => .ok (db, .noLease)
    | some row =>
      if row.heartbeatValid c workerId token db.now then
        .ok (db.editEvaluation id fun e => { e with
          lease := { e.lease with
            heartbeatAt := some db.now, expiresAt := some (db.now + c.leaseSecs) } }, .ok)
      else .ok (db, .noLease)

/-- The check of `finish_with_lease`: the row is running under the lease, and it has not run out. -/
def Evaluation.leaseValid (c : Settings) (e : Evaluation) (l : Lease) (now : Int) : Bool :=
  e.heldBy c l ∧ e.lease.expiresAt.any (now ≤ ·)

/-- The evaluation as it is settled. -/
def Evaluation.finished (e : Evaluation) (status : EvaluationStatus) (outputs : Outputs) :
    Evaluation :=
  { e with status := status, outputs := e.outputs.merge outputs, lease := .empty }

/-- The evaluation is not there. -/
def evaluationMissing : AwdpError := .notFound "未找到该评测"

/-- `finish_with_lease`. -/
def finishWithLease (c : Settings) (reporter : Reporter) (l : Lease) (status : EvaluationStatus)
    (outputs : Outputs) : AwdpM FinishOutcome :=
  Prog.exec (.finishWithLease reporter l status) dbError fun db =>
    match db.evaluationById l.evaluationId with
    | none => .error evaluationMissing
    | some row =>
      if row.leaseValid c l db.now then
        .ok (db.editEvaluation l.evaluationId (·.finished status outputs), .ok)
      else .ok (db, .staleRejected)

/-- `truncate_str`; `none` is the panic of a cut inside a character. -/
def truncateStr (s : String) (max : Nat) : Option String :=
  Text.truncate (fun n => s!"…({n} bytes)") s max

/-- The panic of a cut inside a character; the transaction is rolled back. -/
def cutPanic : AwdpError := .internal "byte index is not a char boundary"

/-- An evaluation that its worker gives back: it is tried again as often as it may be. -/
def Evaluation.givenBack (c : Settings) (e : Evaluation) (attempt : Int) (detail : String) :
    Evaluation :=
  if c.maxAttempts ≤ attempt then e.released .platformError
  else
    { e.released .pending with
      outputs := { e.outputs with stdout := truncateStr detail (64 * 1024) } }

/-- The worker holds the evaluation, and the detail, if it is kept, is not cut inside a character. -/
def Evaluation.givesBack (c : Settings) (e : Evaluation) (l : Lease) (detail : String) : Bool :=
  e.heldBy c l && (c.maxAttempts ≤ l.attempt || (truncateStr detail (64 * 1024)).isSome)

/-- `release_or_fail`; nothing compares the generation that the reporter is about. -/
def releaseOrFail (c : Settings) (reporter : Reporter) (l : Lease) (detail : String) :
    AwdpM FinishOutcome :=
  Prog.exec (.releaseOrFail reporter l detail) dbError fun db =>
    match db.evaluationById l.evaluationId with
    | none => .error evaluationMissing
    | some row =>
      if row.givesBack c l detail then
        .ok (db.editEvaluation l.evaluationId (·.givenBack c l.attempt detail), .ok)
      else if row.heldBy c l then .error cutPanic
      else .ok (db, .staleRejected)

/-! ## Writes without a lease -/

/-- `find_by_id`. -/
def findEvaluation (id : Nat) : AwdpM Evaluation := do
  match ← select (·.evaluationById id) with
  | none => .fail evaluationMissing
  | some e => pure e

/-- `finish`: the row is read, and then written whatever it has become. -/
def finish (id : Nat) (status : EvaluationStatus) (outputs : Outputs) : AwdpM Unit := do
  let _ ← findEvaluation id
  Prog.exec (.finish id status) dbError fun db =>
    match db.evaluationById id with
    | none => .error dbError
    | some _ => .ok (db.editEvaluation id (·.finished status outputs), ())

/-- The official evaluation of an instance in a round. -/
def Db.official (db : Db) (fixRoundId instanceId : Nat) : Option Evaluation :=
  db.evaluations.find? fun e => e.fixRoundId = some fixRoundId ∧ e.instanceId = instanceId

/-- A new evaluation. -/
def Evaluation.fresh (db : Db) (runId instanceId : Nat) (fixRoundId : Option Nat)
    (kind : EvaluationKind) (now : Int) : Evaluation where
  id := db.nextId
  runId := runId
  instanceId := instanceId
  fixRoundId := fixRoundId
  kind := kind
  status := .pending
  outputs := .empty
  attemptCount := 0
  lease := .empty
  createdAt := now

/-- Inserts an evaluation. -/
def Db.insertEvaluation (db : Db) (runId instanceId : Nat) (fixRoundId : Option Nat)
    (kind : EvaluationKind) (now : Int) : Db :=
  { db with
    evaluations := db.evaluations ++ [.fresh db runId instanceId fixRoundId kind now]
    nextId := db.nextId + 1 }

/-- `create_official`: the row of the round and the instance, which may be there already. -/
def createOfficial (runId instanceId fixRoundId : Nat) : AwdpM Evaluation := do
  let now ← utcNow
  let created ← Prog.exec (.createOfficial runId instanceId fixRoundId) dbError fun db =>
    if (db.roundById fixRoundId).isNone then .error dbError
    else if (db.official fixRoundId instanceId).isSome then .ok (db, none)
    else .ok (db.insertEvaluation runId instanceId (some fixRoundId) .official now,
      some (.fresh db runId instanceId (some fixRoundId) .official now))
  match created with
  | some e => pure e
  | none =>
    match ← select (·.official fixRoundId instanceId) with
    | some e => pure e
    | none => .fail (.internal "official evaluation missing after conflict")

/-! ## Scores -/

/-- The row of a new score. -/
def NewScore.row (s : NewScore) (id eventId : Nat) : ScoreEvent where
  id := id
  runId := s.runId
  eventId := eventId
  userId := s.userId
  teamId := s.teamId
  gameboxId := s.gameboxId
  scoreType := s.scoreType
  fixRoundId := s.fixRoundId
  delta := s.delta
  idempotencyKey := s.idempotencyKey

/-- Inserts a score. -/
def Db.insertScore (db : Db) (s : NewScore) (eventId : Nat) : Db :=
  { db with
    scores := db.scores ++ [s.row db.nextId eventId]
    nextId := db.nextId + 1 }

/-- The ledger has a row under the key. -/
def Db.scored (db : Db) (key : IdempotencyKey) : Bool :=
  db.scores.any (·.idempotencyKey = key)

/-- `create_score_event`: a key that is taken counts as written. -/
def createScoreEvent (s : NewScore) : AwdpM Bool := do
  let run ← requireRun s.runId
  Prog.exec (.createScore s) dbError fun db =>
    if db.scored s.idempotencyKey then .ok (db, false)
    else .ok (db.insertScore s run.eventId, true)

end FloatCtf.Awdp
