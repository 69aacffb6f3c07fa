import FloatCtf.Awd.ResetService
import FloatCtf.Process.Debt

/-!
# The accounting of resets

A team has a number of free resets; every further reset that succeeds and is charged to the team
costs one penalty, and resets that fail or are not charged neither cost anything nor use up the
quota.

`team_reset_count` counts every record of the team, those of failed and uncharged resets included
(`quota_spent_by_admin`), two requests can count before either has written its record, and the penalty
is written after the instance is `Ready`, when a restart no longer finds the reset.
`accounted_run` shows that the account is right in every run in which the count comes out as it
should, the requests that work on one reset end it alike, and no request is lost or fails between
the two writes.
-/

namespace FloatCtf.Awd

open Process

/-! ## The system -/

/-- A reset of an instance, with the turns it waits for the lock. -/
structure ResetJob where
  instanceId : Nat
  turns : Nat
  actor : ResetActor
  deriving DecidableEq

/-- What happens around the resets: time passes, the event goes on, and bans, instances and game
boxes change. -/
inductive ResetEnv where
  | tick (d : Nat)
  | lifecycle (status : AwdEventStatus) (phase : AwdPhase)
  | rounds (rs : List AwdRound)
  | bans (bs : List TeamBan)
  | instanceStatus (id : Nat) (status : GameboxStatus)
  | gameboxes (gs : List EventGamebox)
  | network (row : Bool)

/-- What happens beside the resets. -/
def ResetEnv.apply : ResetEnv → Db → Db
  | tick d, db => { db with now := db.now + d }
  | lifecycle status phase, db => { db with event := { db.event with status, phase } }
  | rounds rs, db => { db with rounds := rs }
  | bans bs, db => { db with bans := bs }
  | instanceStatus id status, db => setInstanceStatus id status db
  | gameboxes gs, db => { db with gameboxes := gs }
  | network row, db => { db with networkRow := row }

/-- A reset that is charged to a team, and whether it was found to be free. -/
structure Charge where
  id : Nat
  teamId : Nat
  free : Bool
  deriving DecidableEq

/-- What is noted of a run: the charged resets, the resets that have succeeded and failed, and those
that still owe their penalty. -/
structure ResetNotes where
  charges : List Charge := []
  ready : List Nat := []
  failed : List Nat := []
  owed : List Nat := []

/-- What the notes learn of a statement: the resets that are charged, and the penalties. -/
def ResetNotes.watch (_ : ResetJob) (l : Stmt) (db : Db) (g : ResetNotes) : ResetNotes :=
  match l with
  | .insertReset teamId true used =>
    { g with charges := g.charges ++ [⟨db.nextId, teamId, used < db.event.freeResetCount⟩] }
  | .resetReady id free =>
    { g with ready := id :: g.ready, owed := if free then g.owed else id :: g.owed }
  | .resetPenalty id => { g with owed := g.owed.filter (· ≠ id) }
  | .resetFailed id => { g with failed := id :: g.failed }
  | _ => g

/-- The resets, with the notes as ghost state. -/
def resetSystem : System Stmt Db AwdError ResetNotes ResetJob ResetEnv where
  prog j := executeReset j.instanceId j.turns j.actor
  env := ResetEnv.apply
  watch := ResetNotes.watch

/-- The resets under way. -/
abbrev ResetPool := Pool Stmt Db AwdError ResetNotes ResetJob

/-- Nothing has been reset. -/
def ResetPool.initial (db : Db) : ResetPool := { state := db, ghost := {}, threads := [] }

/-! ## The account -/

/-- The penalty of the reset is in the ledger of its team. -/
def Charge.Penalised (c : Charge) (db : Db) : Prop :=
  ∃ s ∈ db.scores, s.idempotencyKey = .reset c.id ∧ s.teamId = c.teamId

instance (c : Charge) (db : Db) : Decidable (c.Penalised db) :=
  inferInstanceAs (Decidable (∃ s ∈ db.scores, _))

/-- The number of free resets of a team. -/
def Db.freeResets (db : Db) : Nat := db.event.freeResetCount.toNat

/-- The successful charged resets that cost the team nothing; those whose request is still about to
write the penalty are set aside. -/
def unpenalised (v : Db × ResetNotes) (team : Nat) : Nat :=
  v.2.charges.countP fun c =>
    c.teamId = team ∧ c.id ∈ v.2.ready ∧ c.id ∉ v.2.owed ∧ ¬ c.Penalised v.1

/-- At most the free resets of a team cost nothing, all of them are used before a reset costs
something, a reset has at most one penalty, and only a charged reset that has succeeded has one. -/
structure Accounted (v : Db × ResetNotes) : Prop where
  free : ∀ team, unpenalised v team ≤ v.1.freeResets
  quota : ∀ c ∈ v.2.charges, c.Penalised v.1 → v.1.freeResets ≤ unpenalised v c.teamId
  once : ∀ id, v.1.scores.countP (·.idempotencyKey = .reset id) ≤ 1
  charged : ∀ s ∈ v.1.scores, ∀ id, s.idempotencyKey = .reset id →
    id ∈ v.2.ready ∧ id ∉ v.2.failed ∧ ∃ c ∈ v.2.charges, c.id = id ∧ c.teamId = s.teamId

/-! ## The condition -/

/-- The successful charged resets of a team. -/
def ResetNotes.successes (g : ResetNotes) (team : Nat) : Nat :=
  g.charges.countP fun c => c.teamId = team ∧ c.id ∈ g.ready

/-- When a charged reset is recorded, the records it has counted are below the quota just when the
successful charged resets of the team are, and then no charged reset of the team is under way; and a
reset does not both succeed and fail. -/
def Fair (_ : ResetJob) (l : Stmt) (v : Db × ResetNotes) : Prop :=
  match l with
  | .insertReset team true used =>
    ((used : Int) < v.1.event.freeResetCount ↔
        (v.2.successes team : Int) < v.1.event.freeResetCount) ∧
      ((used : Int) < v.1.event.freeResetCount →
        ∀ c ∈ v.2.charges, c.teamId = team → c.id ∈ v.2.ready ∨ c.id ∈ v.2.failed)
  | .resetReady id _ => id ∉ v.2.failed
  | .resetFailed id => id ∉ v.2.ready
  | _ => True

instance (j : ResetJob) (l : Stmt) (v : Db × ResetNotes) : Decidable (Fair j l v) := by
  unfold Fair
  split <;> infer_instance

/-- A successful reset that is not free owes its penalty, up to the statement that writes it. -/
def penaltyDebts : Debts Stmt Nat where
  opens
    | .resetReady id false => some id
    | _ => none
  pays
    | .resetPenalty id => some id
    | _ => none
  window
    | .runtimeRoot id false => some id
    | .resetPenalty id => some id
    | _ => none

/-- The condition on a run. -/
def ResetPool.Careful (w : ResetPool) (a : Act ResetJob ResetEnv) : Prop :=
  Meets Fair w a ∧ Solvent penaltyDebts ResetNotes.owed w a

instance (w : ResetPool) (a : Act ResetJob ResetEnv) : Decidable (w.Careful a) :=
  inferInstanceAs (Decidable (_ ∧ _))

/-! ## The invariant -/

/-- The columns of a reset record that stay. -/
def Db.HasReset (db : Db) (id team inst : Nat) (free : Bool) : Prop :=
  ∃ r ∈ db.resetRecords, r.id = id ∧ r.teamId = team ∧ r.gameboxInstanceId = inst ∧
    r.freeReset = free

/-- The team that owns an instance. -/
def Db.ownerOf (db : Db) (inst : Nat) : Option Nat :=
  (findInstanceById db inst).bind (·.ownerTeamId)

/-- The charged resets of a team that were found free and have not failed. -/
def ResetNotes.grants (g : ResetNotes) (team : Nat) : Nat :=
  g.charges.countP fun c => c.teamId = team ∧ c.free ∧ c.id ∉ g.failed

/-- Those of them that have succeeded. -/
def ResetNotes.used (g : ResetNotes) (team : Nat) : Nat :=
  g.charges.countP fun c => c.teamId = team ∧ c.free ∧ c.id ∈ g.ready

/-- The invariant of the resets: records are distinct, and each charge goes back to one. -/
structure ResetInv (v : Db × ResetNotes) : Prop where
  unique : ∀ {id t i f t' i' f'}, v.1.HasReset id t i f → v.1.HasReset id t' i' f' →
    t = t' ∧ f = f'
  below : ∀ {id t i f}, v.1.HasReset id t i f → id < v.1.nextId
  owner : ∀ {id t i f}, v.1.HasReset id t i f → v.1.ownerOf i = some t
  charged : ∀ {id t i}, v.1.HasReset id t i false → ⟨id, t, false⟩ ∈ v.2.charges
  recorded : ∀ c ∈ v.2.charges, ∃ i, v.1.HasReset c.id c.teamId i c.free
  penalties : ∀ s ∈ v.1.scores, ∀ id, s.idempotencyKey = .reset id →
    id ∈ v.2.ready ∧ ⟨id, s.teamId, false⟩ ∈ v.2.charges
  once : ∀ id, v.1.scores.countP (·.idempotencyKey = .reset id) ≤ 1
  settled : ∀ c ∈ v.2.charges, c.free = false → c.id ∈ v.2.ready →
    c.id ∈ v.2.owed ∨ c.Penalised v.1
  owes : ∀ id ∈ v.2.owed, id ∈ v.2.ready ∧ ∀ c ∈ v.2.charges, c.id = id → c.free = false
  readyBelow : ∀ id ∈ v.2.ready, id < v.1.nextId
  ended : ∀ id ∈ v.2.failed, id ∉ v.2.ready
  grants : ∀ team, v.2.grants team ≤ v.1.freeResets
  quota : ∀ c ∈ v.2.charges, c.free = false → v.1.freeResets ≤ v.2.used c.teamId

section Inv

variable {db db' : Db} {g : ResetNotes}

/-- A charged reset is known by its id. -/
theorem ResetInv.charge_eq (h : ResetInv (db, g)) {c c' : Charge} (hc : c ∈ g.charges)
    (hc' : c' ∈ g.charges) (hid : c.id = c'.id) : c = c' := by
  obtain ⟨i, hr⟩ := h.recorded c hc
  obtain ⟨i', hr'⟩ := h.recorded c' hc'
  rw [hid] at hr
  obtain ⟨ht, hf⟩ := h.unique hr hr'
  cases c
  cases c'
  simp_all

/-- A successful reset that costs nothing is one that was found free. -/
theorem ResetInv.free_iff (h : ResetInv (db, g)) {c : Charge} (hc : c ∈ g.charges)
    (hready : c.id ∈ g.ready) : (c.id ∉ g.owed ∧ ¬ c.Penalised db) ↔ c.free = true := by
  constructor
  · rintro ⟨howed, hno⟩
    by_contra hfree
    rcases h.settled c hc (by simpa using hfree) hready with ho | hp
    · exact howed ho
    · exact hno hp
  · refine fun hfree => ⟨fun ho => ?_, ?_⟩
    · rw [(h.owes c.id ho).2 c hc rfl] at hfree
      cases hfree
    · rintro ⟨s, hs, hkey, hteam⟩
      obtain ⟨-, hmem⟩ := h.penalties s hs c.id hkey
      rw [h.charge_eq hc hmem rfl] at hfree
      cases hfree

theorem ResetInv.accounted (h : ResetInv (db, g)) : Accounted (db, g) := by
  have hcount (team : Nat) : unpenalised (db, g) team = g.used team := by
    refine List.countP_congr fun c hc => ?_
    simp only [decide_eq_true_eq]
    constructor
    · rintro ⟨ht, hr, hno⟩
      exact ⟨ht, (h.free_iff hc hr).1 hno, hr⟩
    · rintro ⟨ht, hf, hr⟩
      exact ⟨ht, hr, (h.free_iff hc hr).2 hf⟩
  refine ⟨fun team => ?_, ?_, h.once, ?_⟩
  · rw [hcount]
    refine le_trans (List.countP_mono_left fun c _ hc => ?_) (h.grants team)
    simp only [decide_eq_true_eq] at hc ⊢
    exact ⟨hc.1, hc.2.1, fun hfailed => h.ended c.id hfailed hc.2.2⟩
  · rintro c hc ⟨s, hs, hkey, hteam⟩
    obtain ⟨-, hmem⟩ := h.penalties s hs c.id hkey
    rw [hcount]
    exact h.quota c hc (by rw [h.charge_eq hc hmem rfl])
  · intro s hs id hkey
    obtain ⟨hready, hmem⟩ := h.penalties s hs id hkey
    exact ⟨hready, fun hfailed => h.ended id hfailed hready, _, hmem, rfl, rfl⟩

/-- The resets and the ledger are the same. -/
structure SameResets (db db' : Db) : Prop where
  records : ∀ id t i f, db'.HasReset id t i f ↔ db.HasReset id t i f
  owners : ∀ i, db'.ownerOf i = db.ownerOf i
  scores : db'.scores = db.scores
  nextId : db'.nextId = db.nextId
  free : db'.event.freeResetCount = db.event.freeResetCount

theorem SameResets.refl (db : Db) : SameResets db db :=
  ⟨fun _ _ _ _ => Iff.rfl, fun _ => rfl, rfl, rfl, rfl⟩

theorem ResetInv.of_same (h : ResetInv (db, g)) (hs : SameResets db db') : ResetInv (db', g) := by
  have hfree : db'.freeResets = db.freeResets := congrArg Int.toNat hs.free
  refine ⟨fun hr hr' => ?_, fun hr => ?_, fun hr => ?_, fun hr => ?_, fun c hc => ?_, ?_, ?_, ?_,
    h.owes, fun id hr => hs.nextId ▸ h.readyBelow id hr, h.ended, ?_, ?_⟩
  · exact h.unique ((hs.records _ _ _ _).1 hr) ((hs.records _ _ _ _).1 hr')
  · exact hs.nextId ▸ h.below ((hs.records _ _ _ _).1 hr)
  · exact (hs.owners _).trans (h.owner ((hs.records _ _ _ _).1 hr))
  · exact h.charged ((hs.records _ _ _ _).1 hr)
  · obtain ⟨i, hr⟩ := h.recorded c hc
    exact ⟨i, (hs.records _ _ _ _).2 hr⟩
  · exact hs.scores ▸ h.penalties
  · exact hs.scores ▸ h.once
  · unfold Charge.Penalised
    exact hs.scores ▸ h.settled
  · exact fun team => hfree ▸ h.grants team
  · exact fun c hc hf => hfree ▸ h.quota c hc hf

theorem sameResets_setInstanceStatus (id : Nat) (status : GameboxStatus) (db : Db) :
    SameResets db (setInstanceStatus id status db) := by
  refine ⟨fun _ _ _ _ => Iff.rfl, fun i => ?_, rfl, rfl, rfl⟩
  unfold Db.ownerOf findInstanceById setInstanceStatus
  dsimp only
  rw [List.find?_map]
  have hcomp : (fun k : GameboxInstance => decide (k.id = i)) ∘
      (fun k => if k.id = id then { k with status } else k) = fun k => decide (k.id = i) := by
    funext k
    simp only [Function.comp]
    split_ifs <;> rfl
  rw [hcomp]
  cases db.instances.find? fun k => decide (k.id = i) with
  | none => rfl
  | some k =>
    simp only [Option.map_some, Option.bind_some]
    split_ifs <;> rfl

theorem sameResets_updateResetRecord (id : Nat) {f : ResetRecord → ResetRecord}
    (hf : ∀ r, (f r).id = r.id ∧ (f r).teamId = r.teamId ∧
      (f r).gameboxInstanceId = r.gameboxInstanceId ∧ (f r).freeReset = r.freeReset) (db : Db) :
    SameResets db (updateResetRecord id f db) := by
  have hcol (r : ResetRecord) : (if r.id = id then f r else r).id = r.id ∧
      (if r.id = id then f r else r).teamId = r.teamId ∧
      (if r.id = id then f r else r).gameboxInstanceId = r.gameboxInstanceId ∧
      (if r.id = id then f r else r).freeReset = r.freeReset := by
    split_ifs
    · exact hf r
    · exact ⟨rfl, rfl, rfl, rfl⟩
  refine ⟨fun id' t i free => ?_, fun _ => rfl, rfl, rfl, rfl⟩
  unfold Db.HasReset updateResetRecord
  simp only [List.mem_map, exists_exists_and_eq_and]
  refine exists_congr fun r => and_congr_right fun _ => ?_
  obtain ⟨h1, h2, h3, h4⟩ := hcol r
  rw [h1, h2, h3, h4]

/-! ## The writes of a reset -/

theorem hasReset_insert {r : ResetRecord} {id t i : Nat} {f : Bool}
    (hrec : db'.resetRecords = db.resetRecords ++ [r]) :
    db'.HasReset id t i f ↔ db.HasReset id t i f ∨
      (r.id = id ∧ r.teamId = t ∧ r.gameboxInstanceId = i ∧ r.freeReset = f) := by
  unfold Db.HasReset
  rw [hrec]
  simp [or_and_right, exists_or]

/-- A new record, with the charges that go with it. -/
theorem ResetInv.insert (h : ResetInv (db, g)) {r : ResetRecord} (hid : r.id = db.nextId)
    (hown : db.ownerOf r.gameboxInstanceId = some r.teamId) {cs : List Charge}
    (hcs : ∀ c ∈ cs, c = ⟨r.id, r.teamId, r.freeReset⟩)
    (hnew : r.freeReset = false → ⟨r.id, r.teamId, false⟩ ∈ cs)
    (hgrants : ∀ team, ResetNotes.grants { g with charges := g.charges ++ cs } team ≤ db.freeResets)
    (hquota : ∀ c ∈ cs, c.free = false →
      db.freeResets ≤ ResetNotes.used { g with charges := g.charges ++ cs } c.teamId) :
    ResetInv ({ db with resetRecords := db.resetRecords ++ [r], nextId := db.nextId + 1 },
      { g with charges := g.charges ++ cs }) := by
  have hmem {id t i : Nat} {f : Bool} : Db.HasReset { db with
      resetRecords := db.resetRecords ++ [r], nextId := db.nextId + 1 } id t i f ↔
      db.HasReset id t i f ∨
        (r.id = id ∧ r.teamId = t ∧ r.gameboxInstanceId = i ∧ r.freeReset = f) :=
    hasReset_insert rfl
  refine ⟨fun hr hr' => ?_, fun hr => ?_, fun hr => ?_, fun hr => ?_, fun c hc => ?_, ?_,
    h.once, fun c hc hf hready => ?_, fun id ho => ⟨(h.owes id ho).1, fun c hc he => ?_⟩, ?_, h.ended,
    hgrants, fun c hc hf => ?_⟩
  · rcases hmem.1 hr with hr | ⟨rfl, rfl, -, rfl⟩ <;> rcases hmem.1 hr' with hr' | ⟨he, rfl, -, rfl⟩
    · exact h.unique hr hr'
    · exact absurd (h.below hr) (by rw [← he, hid]; exact lt_irrefl _)
    · exact absurd (h.below hr') (by rw [hid]; exact lt_irrefl _)
    · exact ⟨rfl, rfl⟩
  · rcases hmem.1 hr with hr | ⟨rfl, -⟩
    · exact Nat.lt_succ_of_lt (h.below hr)
    · rw [hid]
      exact Nat.lt_succ_self _
  · rcases hmem.1 hr with hr | ⟨-, rfl, rfl, -⟩
    · exact h.owner hr
    · exact hown
  · rcases hmem.1 hr with hr | ⟨rfl, rfl, -, hf⟩
    · exact List.mem_append_left _ (h.charged hr)
    · exact List.mem_append_right _ (hnew hf)
  · rcases List.mem_append.1 hc with hc | hc
    · obtain ⟨i, hr⟩ := h.recorded c hc
      exact ⟨i, hmem.2 (.inl hr)⟩
    · rw [hcs c hc]
      exact ⟨_, hmem.2 (.inr ⟨rfl, rfl, rfl, rfl⟩)⟩
  · intro s hs id hkey
    obtain ⟨hready, hc⟩ := h.penalties s hs id hkey
    exact ⟨hready, List.mem_append_left _ hc⟩
  · rcases List.mem_append.1 hc with hc | hc
    · exact h.settled c hc hf hready
    · -- the new record has not succeeded yet
      rw [hcs c hc] at hready
      exact absurd (h.readyBelow _ hready) (by rw [hid]; exact lt_irrefl _)
  · rcases List.mem_append.1 hc with hc | hc
    · exact (h.owes id ho).2 c hc he
    · rw [hcs c hc] at he
      exact absurd (h.readyBelow id (h.owes id ho).1) (by rw [← he, hid]; exact lt_irrefl _)
  · exact fun id hr => Nat.lt_succ_of_lt (h.readyBelow id hr)
  · rcases List.mem_append.1 hc with hc | hc
    · refine le_trans (h.quota c hc hf) ?_
      unfold ResetNotes.used
      rw [List.countP_append]
      exact Nat.le_add_right _ _
    · exact hquota c hc hf

/-- A record that is charged to nobody. -/
theorem ResetInv.insertUncharged (h : ResetInv (db, g)) {r : ResetRecord} (hid : r.id = db.nextId)
    (hfree : r.freeReset = true) (hown : db.ownerOf r.gameboxInstanceId = some r.teamId) :
    ResetInv ({ db with resetRecords := db.resetRecords ++ [r], nextId := db.nextId + 1 }, g) := by
  have hnone : { g with charges := g.charges ++ [] } = g := by rw [List.append_nil]
  have hnew (hf : r.freeReset = false) : (⟨r.id, r.teamId, false⟩ : Charge) ∈ ([] : List Charge) := by
    rw [hfree] at hf
    cases hf
  have hins := h.insert hid hown (fun c hc => absurd hc List.not_mem_nil) hnew
    (fun team => by rw [hnone]; exact h.grants team) fun c hc => absurd hc List.not_mem_nil
  rwa [hnone] at hins

/-- A record that is charged to the team, under the condition on its count. -/
theorem ResetInv.insertCharged (h : ResetInv (db, g)) {r : ResetRecord} {used : Nat}
    (hid : r.id = db.nextId) (hown : db.ownerOf r.gameboxInstanceId = some r.teamId)
    (hfree : r.freeReset = decide ((used : Int) < db.event.freeResetCount)) {j : ResetJob}
    (hfair : Fair j (.insertReset r.teamId true used) (db, g)) :
    ResetInv ({ db with resetRecords := db.resetRecords ++ [r], nextId := db.nextId + 1 },
      { g with charges := g.charges ++ [⟨r.id, r.teamId, r.freeReset⟩] }) := by
  obtain ⟨hcount, hended⟩ := hfair
  have hquota {n : Nat} : ((n : Int) < db.event.freeResetCount) ↔ n < db.freeResets := by
    unfold Db.freeResets
    omega
  rw [hquota, hquota] at hcount
  rw [hquota] at hended
  refine h.insert hid hown (fun c hc => List.mem_singleton.1 hc) (fun hf => ?_) (fun team => ?_)
    fun c hc hf => ?_
  · rw [hf]
    exact List.mem_singleton_self _
  · unfold ResetNotes.grants
    rw [List.countP_append]
    by_cases hnew : r.teamId = team ∧ r.freeReset = true
    · -- no charged reset of the team is under way, so what was granted has succeeded
      obtain ⟨rfl, hf⟩ := hnew
      have hlt : used < db.freeResets := hquota.1 (of_decide_eq_true (hfree ▸ hf))
      have hle : g.grants r.teamId ≤ g.successes r.teamId := by
        refine List.countP_mono_left fun c hc hg => ?_
        simp only [decide_eq_true_eq] at hg ⊢
        exact ⟨hg.1, (hended hlt c hc hg.1).resolve_right hg.2.2⟩
      have hone := List.countP_le_length (l := [(⟨r.id, r.teamId, r.freeReset⟩ : Charge)])
        (p := fun c => decide (c.teamId = r.teamId ∧ c.free = true ∧ c.id ∉ g.failed))
      exact (Nat.add_le_add hle hone).trans (Nat.succ_le_of_lt (hcount.1 hlt))
    · have hzero : List.countP (fun c => decide (c.teamId = team ∧ c.free = true ∧ c.id ∉ g.failed))
          [(⟨r.id, r.teamId, r.freeReset⟩ : Charge)] = 0 := by
        rw [List.countP_eq_zero]
        intro c hc
        rw [List.mem_singleton.1 hc]
        simp only [decide_eq_true_eq]
        exact fun h => hnew ⟨h.1, h.2.1⟩
      rw [hzero, Nat.add_zero]
      exact h.grants team
  · have heq := List.mem_singleton.1 hc
    rw [heq] at hf ⊢
    have hge : db.freeResets ≤ g.successes r.teamId := by
      refine Nat.le_of_not_lt fun hlt => ?_
      rw [show r.freeReset = false from hf] at hfree
      exact absurd (hquota.2 (hcount.2 hlt)) (of_decide_eq_false hfree.symm)
    unfold ResetNotes.used
    rw [List.countP_append]
    refine le_trans ?_ (Nat.le_add_right _ _)
    by_cases hall : ∀ c ∈ g.charges, c.teamId = r.teamId → c.free = true
    · refine hge.trans (List.countP_mono_left fun c hc hs => ?_)
      simp only [decide_eq_true_eq] at hs ⊢
      exact ⟨hs.1, hall c hc hs.1, hs.2⟩
    · push Not at hall
      obtain ⟨c₀, hc₀, ht, hf₀⟩ := hall
      have hq := h.quota c₀ hc₀ (by simpa using hf₀)
      rw [ht] at hq
      exact hq

theorem ResetInv.ready (h : ResetInv (db, g)) {id team inst : Nat} {free : Bool}
    (hr : db.HasReset id team inst free) (hfair : id ∉ g.failed) :
    ResetInv (db, { g with ready := id :: g.ready, owed := if free then g.owed else id :: g.owed }) := by
  have howed : g.owed ⊆ if free then g.owed else id :: g.owed := by
    split_ifs
    · exact List.Subset.refl _
    · exact List.subset_cons_self _ _
  refine ⟨h.unique, h.below, h.owner, h.charged, h.recorded, fun s hs k hk => ?_, h.once,
    fun c hc hf hready => ?_, fun k ho => ?_, ?_, ?_, h.grants, fun c hc hf => ?_⟩
  · exact (h.penalties s hs k hk).imp_left (List.mem_cons_of_mem _)
  · rcases List.mem_cons.1 hready with heq | hready
    · obtain ⟨i, hrec⟩ := h.recorded c hc
      rw [heq, hf] at hrec
      obtain ⟨-, rfl⟩ := h.unique hr hrec
      exact .inl (heq ▸ List.mem_cons_self)
    · exact (h.settled c hc hf hready).imp_left fun ho => howed ho
  · have hold (ho : k ∈ g.owed) := (h.owes k ho).imp_left (List.mem_cons_of_mem id)
    cases free with
    | true => exact hold ho
    | false =>
      rcases List.mem_cons.1 ho with rfl | ho
      · refine ⟨List.mem_cons_self, fun c hc he => ?_⟩
        obtain ⟨i, hrec⟩ := h.recorded c hc
        rw [he] at hrec
        exact (h.unique hr hrec).2.symm
      · exact hold ho
  · exact List.forall_mem_cons.2 ⟨h.below hr, h.readyBelow⟩
  · intro k hk hready
    rcases List.mem_cons.1 hready with rfl | hready
    · exact hfair hk
    · exact h.ended k hk hready
  · refine le_trans (h.quota c hc hf) (List.countP_mono_left fun c _ hu => ?_)
    simp only [decide_eq_true_eq] at hu ⊢
    exact ⟨hu.1, hu.2.1, List.mem_cons_of_mem _ hu.2.2⟩

theorem ResetInv.fails (h : ResetInv (db, g)) {id : Nat} (hfair : id ∉ g.ready) :
    ResetInv (db, { g with failed := id :: g.failed }) := by
  refine ⟨h.unique, h.below, h.owner, h.charged, h.recorded, h.penalties, h.once, h.settled,
    h.owes, h.readyBelow, List.forall_mem_cons.2 ⟨hfair, h.ended⟩, fun team => ?_, h.quota⟩
  refine le_trans (List.countP_mono_left fun c _ hg => ?_) (h.grants team)
  simp only [decide_eq_true_eq] at hg ⊢
  exact ⟨hg.1, hg.2.1, fun hf => hg.2.2 (List.mem_cons_of_mem _ hf)⟩

/-- The penalty of a reset that has succeeded, or the one that is there already. -/
theorem ResetInv.penalty (h : ResetInv (db, g)) {awdEvent : AwdEvent} {id team inst : Nat}
    (hr : db.HasReset id team inst false) (hready : id ∈ g.ready) :
    ResetInv (Prog.after (insertPenalty awdEvent team id) db,
      { g with owed := g.owed.filter (· ≠ id) }) := by
  have hc : (⟨id, team, false⟩ : Charge) ∈ g.charges := h.charged hr
  -- with the penalty in the ledger, nothing is owed for this reset
  have hpaid {scores : List ScoreEvent} (hsub : db.scores ⊆ scores)
      (hp : ∃ s ∈ scores, s.idempotencyKey = .reset id ∧ s.teamId = team) :
      ∀ c ∈ g.charges, c.free = false → c.id ∈ g.ready → c.id ∈ g.owed.filter (· ≠ id) ∨
        ∃ s ∈ scores, s.idempotencyKey = .reset c.id ∧ s.teamId = c.teamId := by
    intro c hmem hf hrdy
    by_cases heq : c.id = id
    · rw [h.charge_eq hmem hc heq]
      exact .inr hp
    · rcases h.settled c hmem hf hrdy with ho | ⟨s, hs, hkey⟩
      · exact .inl (List.mem_filter.2 ⟨ho, by simpa using heq⟩)
      · exact .inr ⟨s, hsub hs, hkey⟩
  have howes (k : Nat) (hk : k ∈ g.owed.filter (· ≠ id)) := h.owes k (List.mem_filter.1 hk).1
  unfold Prog.after insertPenalty
  by_cases hdup : db.scores.any (·.idempotencyKey = .reset id) = true
  · rw [if_pos hdup]
    obtain ⟨s, hs, hkey⟩ := List.any_eq_true.1 hdup
    have hkey : s.idempotencyKey = .reset id := of_decide_eq_true hkey
    obtain ⟨-, hmem⟩ := h.penalties s hs id hkey
    have hteam : s.teamId = team := congrArg Charge.teamId (h.charge_eq hmem hc rfl)
    exact ⟨h.unique, h.below, h.owner, h.charged, h.recorded, h.penalties, h.once,
      hpaid (List.Subset.refl _) ⟨s, hs, hkey, hteam⟩, howes, h.readyBelow, h.ended, h.grants, h.quota⟩
  · rw [if_neg hdup]
    refine ⟨h.unique, fun hr => Nat.lt_succ_of_lt (h.below hr), h.owner, h.charged, h.recorded,
      fun s hs k hk => ?_, fun k => ?_, hpaid (List.subset_append_left _ _) ?_, howes,
      fun k hk => Nat.lt_succ_of_lt (h.readyBelow k hk), h.ended, h.grants, h.quota⟩
    · rcases List.mem_append.1 hs with hs | hs
      · exact h.penalties s hs k hk
      · rw [List.mem_singleton.1 hs] at hk ⊢
        cases hk
        exact ⟨hready, hc⟩
    · show List.countP _ (db.scores ++ _) ≤ 1
      rw [List.countP_append]
      rcases eq_or_ne k id with rfl | hne
      · have hzero : db.scores.countP (·.idempotencyKey = .reset k) = 0 := by
          rw [List.countP_eq_zero]
          exact fun s hs hkey => hdup (List.any_eq_true.2 ⟨s, hs, hkey⟩)
        rw [hzero, Nat.zero_add]
        exact List.countP_le_length
      · have hzero : [resetPenaltyEvent awdEvent.eventId team awdEvent.extraResetPenalty id
            db.nextId].countP (·.idempotencyKey = .reset k) = 0 := by
          rw [List.countP_eq_zero]
          intro s hs
          rw [List.mem_singleton.1 hs]
          simp only [decide_eq_true_eq]
          exact fun hkey => hne (IdempotencyKey.reset.inj hkey).symm
        rw [hzero]
        exact h.once k
    · exact ⟨_, List.mem_append_right _ (List.mem_singleton_self _), rfl, rfl⟩

end Inv

/-! ## The law -/

/-- Records and successes stay, with the owners of the instances and the quota. -/
structure ResetRely (v v' : Db × ResetNotes) : Prop where
  records : ∀ {id t i f}, v.1.HasReset id t i f → v'.1.HasReset id t i f
  ready : v.2.ready ⊆ v'.2.ready
  owners : ∀ i, v'.1.ownerOf i = v.1.ownerOf i
  free : v'.1.event.freeResetCount = v.1.event.freeResetCount

/-- The law of the resets. -/
def resetLaw : Process.Law resetSystem where
  rely := ResetRely
  guar _ := ResetRely
  inv := ResetInv
  cond := Fair
  refl _ := ⟨id, List.Subset.refl _, fun _ => rfl, rfl⟩
  trans h h' := ⟨fun hr => h'.records (h.records hr), List.Subset.trans h.ready h'.ready,
    fun i => (h'.owners i).trans (h.owners i), h'.free.trans h.free⟩
  guar_refl _ _ := ⟨id, List.Subset.refl _, fun _ => rfl, rfl⟩
  rely_of_guar := id

section Law

variable {j : ResetJob} {v : Db × ResetNotes} {α : Type}

theorem SameResets.rely {db db' : Db} (hs : SameResets db db') {g g' : ResetNotes}
    (hg : g.ready ⊆ g'.ready) : ResetRely (db, g) (db', g') :=
  ⟨fun hr => (hs.records _ _ _ _).2 hr, hg, hs.owners, hs.free⟩

/-- A statement that the observer does not look at and that leaves the resets alone. -/
theorem resetSafe_write {l : Stmt} {f : Db → Db} (hl : resetSystem.Unseen j l)
    (hf : ∀ db, SameResets db (f db)) : resetLaw.Safe j (fun _ _ => True) (write l f) v := by
  refine Process.Law.safe_exec hl fun v' _ hi _ db a h => ?_
  cases h
  exact ⟨(hf v'.1).rely (List.Subset.refl _), hi.of_same (hf v'.1), trivial⟩

theorem resetSafe_select {Q : α → Db × ResetNotes → Prop} {f : Db → α}
    (h : ∀ v', resetLaw.rely v v' → resetLaw.inv v' → Q (f v'.1) v') :
    resetLaw.Safe j Q (select f) v :=
  Process.Law.safe_query (fun _ _ => rfl) fun v' hv hi _ => h v' hv hi

theorem resetSafe_orNotFound {Q : α → Db × ResetNotes → Prop} {msg : String} {o : Option α}
    (h : ∀ a, o = some a → Q a v) : resetLaw.Safe j Q (orNotFound msg o) v := by
  cases o with
  | none => trivial
  | some a => exact h a rfl

theorem resetSafe_requireEventNetwork :
    resetLaw.Safe j (fun _ _ => True) requireEventNetwork v :=
  Process.Law.safe_bind (resetSafe_select fun _ _ _ =>
    Process.Law.safe_ite (fun _ => trivial) fun _ => trivial)

/-- The instance is ready, and the reset has succeeded. -/
theorem resetSafe_ready {inst id team : Nat} {free : Bool} (hr : v.1.HasReset id team inst free) :
    resetLaw.Safe j (fun _ v' => id ∈ v'.2.ready)
      (write (.resetReady id free) (setInstanceStatus inst .ready)) v := by
  refine Process.Law.safe_exec_seen fun v' hv hi hc => ?_
  have hsame := sameResets_setInstanceStatus inst .ready v'.1
  exact ⟨hsame.rely (List.subset_cons_self _ _),
    (ResetInv.ready hi (hv.records hr) hc).of_same hsame, fun _ _ _ => List.mem_cons_self⟩

theorem resetSafe_chargePenalty {awdEvent : AwdEvent} {inst id team : Nat} {free : Bool}
    (hr : v.1.HasReset id team inst free) (hready : id ∈ v.2.ready) :
    resetLaw.Safe j (fun _ _ => True) (chargePenalty awdEvent id team free) v := by
  refine Process.Law.safe_ite (fun _ => trivial) fun hfree => ?_
  rw [Bool.not_eq_true] at hfree
  subst hfree
  refine Process.Law.safe_exec_seen fun v' hv hi _ =>
    ⟨?_, ResetInv.penalty hi (hv.records hr) (hv.ready hready), fun _ _ _ => trivial⟩
  show ResetRely v' (Prog.after (insertPenalty awdEvent team id) v'.1, _)
  unfold Prog.after insertPenalty
  split_ifs <;> exact ⟨fun hr => hr, List.Subset.refl _, fun _ => rfl, rfl⟩

theorem resetSafe_finishReset {awdEvent : AwdEvent} {inst id team : Nat} {free : Bool}
    (hr : v.1.HasReset id team inst free) :
    resetLaw.Safe j (fun _ _ => True) (finishReset awdEvent inst id team free) v := by
  refine Process.Law.safe_bind ((resetSafe_ready hr).and_rely.imp fun _ v₁ h₁ => ?_)
  refine Process.Law.safe_seq (resetSafe_write (fun _ _ => rfl) fun db => .refl db) fun _ v₂ h₂ => ?_
  have hr₂ : v₂.1.HasReset id team inst free := h₂.records (h₁.2.records hr)
  refine Process.Law.safe_seq (resetSafe_chargePenalty hr₂ (h₂.ready h₁.1)) fun _ v₃ _ => ?_
  exact resetSafe_write (fun _ _ => rfl) fun db => sameResets_updateResetRecord id
    (f := fun r => { r with status := .completed, completedAt := some db.now })
    (fun _ => ⟨rfl, rfl, rfl, rfl⟩) db

theorem resetSafe_failReset {inst id : Nat} {e : AwdError} :
    resetLaw.Safe j (fun _ _ => True) (failReset inst id e) v := by
  refine Process.Law.safe_seq (resetSafe_write (fun _ _ => rfl) fun db =>
    sameResets_setInstanceStatus inst .resetFailed db) fun _ v₁ _ => Process.Law.safe_seq ?_
      fun _ _ _ => trivial
  refine Process.Law.safe_exec_seen fun v' _ hi hc => ?_
  have hsame := sameResets_updateResetRecord id (f := fun r => { r with status := .failed })
    (fun _ => ⟨rfl, rfl, rfl, rfl⟩) v'.1
  exact ⟨hsame.rely (List.Subset.refl _), (ResetInv.fails hi hc).of_same hsame,
    fun _ _ _ => trivial⟩

theorem resetSafe_doDockerReset {awdEvent : AwdEvent} {inst : GameboxInstance} {id team : Nat}
    {free : Bool} (hr : v.1.HasReset id team inst.id free) :
    resetLaw.Safe j (fun _ _ => True) (doDockerReset awdEvent inst id team free) v := by
  refine Process.Law.safe_bind (resetSafe_select fun v₁ h₁ _ => Process.Law.safe_bind
    (resetSafe_orNotFound fun _ _ => ?_))
  refine Process.Law.safe_seq resetSafe_requireEventNetwork fun _ v₂ h₂ => Process.Law.safe_bind
    (Process.Law.safe_query (fun _ _ => rfl) fun v₃ h₃ _ _ => ?_)
  have hr₃ : v₃.1.HasReset id team inst.id free := h₃.records (h₂.records (h₁.records hr))
  have hcall : resetLaw.Safe j (fun _ _ => True)
      (call .resetGamebox (.docker "GameBox docker reset failed")) v₃ := by
    refine Process.Law.safe_exec (fun _ _ => rfl) fun v' _ hi _ db a h => ?_
    cases h
    exact ⟨⟨fun hr => hr, List.Subset.refl _, fun _ => rfl, rfl⟩, hi, trivial⟩
  refine Process.Law.safe_seq (Process.Law.safe_tried hcall) fun rebuilt v₄ h₄ => ?_
  split
  · exact resetSafe_finishReset (h₄.records hr₃)
  · exact resetSafe_failReset

theorem isFree_of_charges {actor : ResetActor} (h : actor.charges = true) (used : Nat) (n : Int) :
    actor.isFree used n = decide ((used : Int) < n) := by
  cases actor with
  | player userId teamId => rfl
  | admin adminId chargeTeam =>
    have hc : chargeTeam = true := h
    simp [ResetActor.isFree, hc]
  | system => cases h

theorem isFree_of_not_charges {actor : ResetActor} (h : actor.charges = false) (used : Nat)
    (n : Int) : actor.isFree used n = true := by
  cases actor with
  | player userId teamId => cases h
  | admin adminId chargeTeam =>
    have hc : chargeTeam = false := h
    simp [ResetActor.isFree, hc]
  | system => rfl

/-- The record of a reset, with the charge that the observer notes. -/
theorem resetSafe_insertReset {inst team used : Nat} {actor : ResetActor} {n : Int}
    (hown : v.1.ownerOf inst = some team) (hn : n = v.1.event.freeResetCount) :
    resetLaw.Safe j (fun id v' => v'.1.HasReset id team inst (actor.isFree used n))
      (insertReset team inst actor used (actor.isFree used n)) v := by
  refine Process.Law.safe_exec_seen fun v' hv hi hc => ?_
  have hrely (g : ResetNotes) (hg : v'.2.ready ⊆ g.ready) : ResetRely v' ({ v'.1 with
      resetRecords := v'.1.resetRecords ++ [resetRecord team inst actor (actor.isFree used n) v'.1]
      nextId := v'.1.nextId + 1 }, g) :=
    ⟨fun hr => (hasReset_insert rfl).2 (.inl hr), hg, fun _ => rfl, rfl⟩
  have hown' : v'.1.ownerOf inst = some team := (hv.owners inst).trans hown
  have hquota : n = v'.1.event.freeResetCount := hn.trans hv.free.symm
  refine ⟨?_, ?_, ?_⟩
  · cases hch : actor.charges with
    | true => exact hrely _ (List.Subset.refl _)
    | false => exact hrely _ (List.Subset.refl _)
  · cases hch : actor.charges with
    | true =>
      rw [hch] at hc
      have hfree := isFree_of_charges hch used n
      have hins := ResetInv.insertCharged hi (r := resetRecord team inst actor
        (actor.isFree used n) v'.1) (j := j) rfl hown' (hquota ▸ hfree) hc
      rw [show (resetRecord team inst actor (actor.isFree used n) v'.1).freeReset =
        decide ((used : Int) < v'.1.event.freeResetCount) from hquota ▸ hfree] at hins
      exact hins
    | false =>
      exact ResetInv.insertUncharged hi rfl (isFree_of_not_charges hch used n) hown'
  · rintro s a h
    cases h
    exact (hasReset_insert rfl).2 (.inr ⟨rfl, rfl, rfl, rfl⟩)

theorem resetSafe_freshReset {awdEvent : AwdEvent} {inst : GameboxInstance} {team : Nat}
    {actor : ResetActor} (hown : v.1.ownerOf inst.id = some team)
    (hn : awdEvent.freeResetCount = v.1.event.freeResetCount) :
    resetLaw.Safe j (fun _ _ => True) (freshReset awdEvent inst team actor) v := by
  refine Process.Law.safe_bind (resetSafe_select fun v₁ h₁ _ => ?_)
  refine Process.Law.safe_bind ((resetSafe_insertReset ((h₁.owners _).trans hown)
    (hn.trans h₁.free.symm)).imp fun id v₂ hr => ?_)
  refine Process.Law.safe_seq (resetSafe_write (fun _ _ => rfl) fun db =>
    sameResets_setInstanceStatus inst.id .resetting db) fun _ v₃ h₃ => ?_
  exact resetSafe_doDockerReset (h₃.records hr)

theorem pendingReset_mem {db : Db} {instanceId : Nat} {r : ResetRecord}
    (h : pendingReset db instanceId = some r) :
    r ∈ db.resetRecords ∧ r.gameboxInstanceId = instanceId := by
  have hmem := List.mem_filter.1 (List.argmax_mem (Option.mem_def.2 h))
  exact ⟨hmem.1, (of_decide_eq_true hmem.2).1⟩

theorem resetSafe_recoverInFlightReset {awdEvent : AwdEvent} {inst : GameboxInstance} {team : Nat}
    {again : AwdM Unit} (hown : v.1.ownerOf inst.id = some team)
    (hagain : ∀ v', resetLaw.Safe j (fun _ _ => True) again v') :
    resetLaw.Safe j (fun _ _ => True) (recoverInFlightReset awdEvent inst team again) v := by
  refine Process.Law.safe_bind (resetSafe_select fun v₁ h₁ hi => ?_)
  cases hp : pendingReset v₁.1 inst.id with
  | none => exact hagain v₁
  | some r =>
    obtain ⟨hmem, hinst⟩ := pendingReset_mem hp
    have hr : v₁.1.HasReset r.id r.teamId inst.id r.freeReset := ⟨r, hmem, rfl, rfl, hinst, rfl⟩
    have hteam : r.teamId = team :=
      Option.some.inj ((hi.owner hr).symm.trans ((h₁.owners _).trans hown))
    exact resetSafe_doDockerReset (hteam ▸ hr)

/-- The team that a reset is for owns the instance. -/
theorem resetSafe_resetTeam {inst : GameboxInstance} {actor : ResetActor} :
    resetLaw.Safe j (fun team _ => inst.ownerTeamId = some team) (resetTeam actor inst) v := by
  have howner : resetLaw.Safe j (fun team _ => inst.ownerTeamId = some team)
      (requireOwnerTeam inst) v := by
    unfold requireOwnerTeam
    split
    · trivial
    · assumption
  refine Process.Law.safe_bind (howner.imp fun team v' hteam => ?_)
  cases actor with
  | player userId teamId => exact Process.Law.safe_ite (fun _ => trivial) fun _ => hteam
  | admin adminId chargeTeam => exact hteam
  | system => exact hteam

theorem resetSafe_resetTurn {instanceId : Nat} {actor : ResetActor} {again : AwdM Unit}
    (hagain : ∀ v', resetLaw.Safe j (fun _ _ => True) again v') :
    resetLaw.Safe j (fun _ _ => True) (resetTurn instanceId actor again) v := by
  refine Process.Law.safe_bind (resetSafe_select fun v₁ _ _ => ?_)
  refine Process.Law.safe_bind (resetSafe_select fun v₂ h₂ _ => Process.Law.safe_bind
    (resetSafe_orNotFound fun inst hinst => ?_))
  refine Process.Law.safe_bind (resetSafe_resetTeam.and_rely.imp fun team v₃ h₃ => ?_)
  refine Process.Law.safe_bind (resetSafe_select fun v₄ h₄ _ => Process.Law.safe_ite
    (fun _ => trivial) fun _ => Process.Law.safe_bind (resetSafe_select fun v₅ h₅ _ => ?_))
  have hid : inst.id = instanceId := by
    have hfound := List.find?_some hinst
    exact of_decide_eq_true hfound
  have hown : v₅.1.ownerOf inst.id = some team := by
    have hstart : v₂.1.ownerOf inst.id = some team := by
      rw [Db.ownerOf, hid, hinst]
      exact h₃.1
    rw [h₅.owners, h₄.owners, h₃.2.owners, hstart]
  have hn : v₁.1.event.freeResetCount = v₅.1.event.freeResetCount := by
    rw [h₅.free, h₄.free, h₃.2.free, h₂.free]
  split
  · trivial
  · exact Process.Law.safe_ite (fun _ => resetSafe_recoverInFlightReset hown hagain)
      fun _ => resetSafe_freshReset hown hn

theorem resetSafe_executeReset {instanceId turns : Nat} {actor : ResetActor} :
    resetLaw.Safe j (fun _ _ => True) (executeReset instanceId turns actor) v := by
  induction turns generalizing actor v with
  | zero => exact resetSafe_resetTurn fun _ => trivial
  | succ turns ih => exact resetSafe_resetTurn fun _ => ih

theorem sameResets_env (e : ResetEnv) (db : Db) : SameResets db (e.apply db) := by
  cases e with
  | instanceStatus id status => exact sameResets_setInstanceStatus id status db
  | _ => exact ⟨fun _ _ _ _ => Iff.rfl, fun _ => rfl, rfl, rfl, rfl⟩

theorem resetLaw_keeps : resetLaw.Keeps where
  prog _ _ _ := resetSafe_executeReset
  env e v hi := ⟨(sameResets_env e v.1).rely (List.Subset.refl _), hi.of_same (sameResets_env e v.1)⟩

end Law

/-! ## The penalty that is owed -/

section Settles

variable {α : Type}

/-- The statement leaves no debt. -/
def Debtless (l : Stmt) (_ _ : Db) : Prop := penaltyDebts.opens l = none

theorem settles_of_debtless {p : AwdM α} (hp : p.Does Debtless) : p.Settles penaltyDebts :=
  Prog.settles_of_does hp fun _ _ _ h => h

theorem debtless_write {l : Stmt} (hl : penaltyDebts.opens l = none) {f : Db → Db} :
    (write l f).Does Debtless := Prog.does_exec_after fun _ => hl

theorem debtless_select {f : Db → α} : (select f).Does Debtless := Prog.does_query (fun _ => rfl) _ f

theorem debtless_orNotFound {msg : String} {o : Option α} : (orNotFound msg o).Does Debtless := by
  cases o <;> trivial

theorem debtless_failReset {inst id : Nat} {e : AwdError} : (failReset inst id e).Does Debtless :=
  Prog.does_bind (debtless_write rfl) fun _ => Prog.does_bind (debtless_write rfl) fun _ => trivial

/-- Once the instance is ready, the reset goes on to its penalty. -/
theorem settles_finishReset {awdEvent : AwdEvent} {inst id team : Nat} {free : Bool} :
    (finishReset awdEvent inst id team free).Settles penaltyDebts := by
  refine Prog.settles_exec_bind (fun s => ⟨_, _, rfl⟩) (fun _ k hk => ?_) fun _ => ?_
  · cases free with
    | true => cases hk
    | false =>
      cases hk
      exact Prog.pays_exec_bind rfl fun s => ⟨_, _, rfl, (Prog.pays_exec rfl rfl).bind _⟩
  · refine settles_of_debtless (Prog.does_bind (debtless_write rfl) fun _ => Prog.does_bind ?_
      fun _ => debtless_write rfl)
    exact Prog.does_ite trivial (Prog.does_exec_after fun _ => rfl)

theorem settles_doDockerReset {awdEvent : AwdEvent} {inst : GameboxInstance} {id team : Nat}
    {free : Bool} : (doDockerReset awdEvent inst id team free).Settles penaltyDebts := by
  refine Prog.settles_bind (settles_of_debtless debtless_select) fun _ => Prog.settles_bind
    (settles_of_debtless debtless_orNotFound) fun _ => ?_
  have hnetwork : requireEventNetwork.Does Debtless := Prog.does_bind debtless_select fun _ =>
    Prog.does_ite trivial trivial
  refine Prog.settles_bind (settles_of_debtless hnetwork) fun _ => Prog.settles_bind
    (settles_of_debtless (Prog.does_query (fun _ => rfl) _ _)) fun _ => ?_
  refine Prog.settles_bind (settles_of_debtless
    (Prog.does_attempt (Prog.does_exec_after fun _ => rfl))) fun rebuilt => ?_
  cases rebuilt with
  | ok _ => exact settles_finishReset
  | error e => exact settles_of_debtless debtless_failReset

theorem settles_resetTurn {instanceId : Nat} {actor : ResetActor} {again : AwdM Unit}
    (hagain : again.Settles penaltyDebts) :
    (resetTurn instanceId actor again).Settles penaltyDebts := by
  have hselect {β : Type} {f : Db → β} : (select f).Settles penaltyDebts :=
    settles_of_debtless debtless_select
  refine Prog.settles_bind hselect fun awdEvent => Prog.settles_bind hselect fun _ =>
    Prog.settles_bind (settles_of_debtless debtless_orNotFound) fun inst => ?_
  have hteam : (resetTeam actor inst).Does Debtless := by
    refine Prog.does_bind ?_ fun _ => ?_
    · unfold requireOwnerTeam
      split <;> trivial
    · split
      · exact Prog.does_ite trivial trivial
      · trivial
      · trivial
  refine Prog.settles_bind (settles_of_debtless hteam) fun team => Prog.settles_bind hselect
    fun _ => Prog.settles_if (fun _ => trivial) fun _ => Prog.settles_bind hselect fun _ => ?_
  split
  · trivial
  · refine Prog.settles_if (fun _ => ?_) fun _ => ?_
    · refine Prog.settles_bind hselect fun pending => ?_
      cases pending with
      | none => exact hagain
      | some r => exact settles_doDockerReset
    · refine Prog.settles_bind hselect fun _ => Prog.settles_bind ?_ fun _ => Prog.settles_bind
        (settles_of_debtless (debtless_write rfl)) fun _ => settles_doDockerReset
      exact settles_of_debtless (Prog.does_exec_after fun _ => rfl)

theorem settles_executeReset {instanceId turns : Nat} {actor : ResetActor} :
    (executeReset instanceId turns actor).Settles penaltyDebts := by
  induction turns generalizing actor with
  | zero => exact settles_resetTurn trivial
  | succ turns ih => exact settles_resetTurn ih

/-- The observer notes the debts. -/
theorem owed_watch (j : ResetJob) (l : Stmt) (db : Db) (g : ResetNotes) (k : Nat)
    (hk : k ∈ (ResetNotes.watch j l db g).owed) :
    penaltyDebts.opens l = some k ∨ k ∈ g.owed ∧ penaltyDebts.pays l ≠ some k := by
  unfold ResetNotes.watch at hk
  split at hk
  · exact .inr ⟨hk, nofun⟩
  · rename_i id free
    cases free with
    | true => exact .inr ⟨hk, nofun⟩
    | false =>
      rcases List.mem_cons.1 hk with rfl | hk
      · exact .inl rfl
      · exact .inr ⟨hk, nofun⟩
  · obtain ⟨hmem, hne⟩ := List.mem_filter.1 hk
    exact .inr ⟨hmem, fun h => of_decide_eq_true hne (Option.some.inj h).symm⟩
  · exact .inr ⟨hk, nofun⟩
  · rename_i hpen _
    refine .inr ⟨hk, fun h => ?_⟩
    cases l with
    | resetPenalty id => exact hpen id rfl
    | _ => cases h

end Settles

/-! ## Runs -/

/-- A running event with one free reset and one instance, of team 6. -/
def Db.oneInstance : Db :=
  { now := 0, nextId := 10
    event :=
      { eventId := 1, status := .running, phase := .hardening, roundDurationSecs := 300
        roundCount := some 2, initialScore := 1000, judgeDefaultTimeoutSecs := 30
        judgeGracePeriodSecs := 30, verifiedAt := none, verifiedRevision := none
        verifiedGeneration := none, configurationGeneration := 0, pausedPhase := none
        pauseRemainingSecs := none, hardeningEndsAt := none, startedAt := none, finishedAt := none
        freeResetCount := 1 }
    generic := { startTime := 0, endTime := some (1000 * sec) }
    networkRow := true, rounds := [], tasks := [], batches := [], judgeTasks := [], teams := [⟨6⟩]
    gameboxes :=
      [{ id := 3, attackScore := 100, judgeDownPenalty := 200, firstBonus := 20, specReady := true }]
    instances := [{ id := 4, teamId := 6, eventGameboxId := 3, status := .ready }]
    bans := [], submissions := [], scores := [] }

/-- A reset takes these steps. -/
def resetSteps (i n : Nat) : List (Act ResetJob ResetEnv) := List.replicate n (.step i true)

/-- A free reset of the team; one that is recorded and lost in a crash before Docker is done; and
the one that takes it over. -/
def recovered : List (Act ResetJob ResetEnv) :=
  .spawn ⟨4, 0, .player 7 6⟩ :: resetSteps 0 14 ++
    .spawn ⟨4, 0, .player 7 6⟩ :: resetSteps 1 11 ++
    .crash :: .spawn ⟨4, 0, .player 7 6⟩ :: resetSteps 0 13

/-- An administrator resets without charging the team, and then the team resets for the first
time. -/
def adminFirst : List (Act ResetJob ResetEnv) :=
  .spawn ⟨4, 0, .admin 1 false⟩ :: resetSteps 0 14 ++ .spawn ⟨4, 0, .player 7 6⟩ :: resetSteps 1 15

end FloatCtf.Awd
