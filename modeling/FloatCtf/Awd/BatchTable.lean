import FloatCtf.Awd.Frame

/-!
# The table of judge batches

Every round that is over should have one judge batch, and the batch one task for every instance of
every team that was not banned when the batch was created.  `CoverBase` is the shape that the rounds,
batches and tasks keep between two operations, with an exception for the round whose batch is being
created; the lemmas say which writes keep it.
-/

namespace FloatCtf.Awd

open Process

/-! ## The slots of a batch -/

/-- The unique and foreign keys of the teams, game boxes and instances of the event. -/
structure Installed (db : Db) : Prop where
  teamIds : (db.teams.map (·.id)).Nodup
  gameboxIds : (db.gameboxes.map (·.id)).Nodup
  instanceIds : (db.instances.map (·.id)).Nodup
  oneEach : (db.instances.map fun i => (i.teamId, i.eventGameboxId)).Nodup
  team : ∀ i ∈ db.instances, i.teamId ∈ db.teams.map (·.id)
  gamebox : ∀ i ∈ db.instances, i.eventGameboxId ∈ db.gameboxes.map (·.id)

/-- The instances of the teams that are not banned. -/
def Db.unbannedInstances (db : Db) : List Nat :=
  (db.instances.filter fun i => !db.teamBanned i.teamId).map (·.id)

/-- The slots that `create_batch` fills. -/
def Db.batchSlots (db : Db) : List BatchSlot :=
  Awd.batchSlots db.teams ((db.bans.filter (·.status = .active)).map (·.teamId)) db.gameboxes
    db.instances

variable {db db' : Db}

theorem findInstance_some {is : List GameboxInstance} {team : EventTeam} {g : EventGamebox}
    {i : GameboxInstance} (h : findInstance is team g = some i) :
    i ∈ is ∧ i.teamId = team.id ∧ i.eventGameboxId = g.id :=
  ⟨List.mem_of_find?_eq_some h, by simpa using List.find?_some h⟩

theorem mem_batchSlots {s : BatchSlot} : s ∈ db.batchSlots ↔ s.team ∈ db.teams ∧
    db.teamBanned s.team.id = false ∧ s.gamebox ∈ db.gameboxes ∧
    findInstance db.instances s.team s.gamebox = some s.inst := by
  have hban (id : Nat) : id ∉ (db.bans.filter (·.status = .active)).map (·.teamId) ↔
      db.teamBanned id = false := by
    simp only [Db.teamBanned, List.mem_map, List.mem_filter, List.any_eq_false, decide_eq_true_eq]
    constructor
    · rintro h b hb ⟨he, hs⟩
      exact h ⟨b, ⟨hb, hs⟩, he⟩
    · rintro h ⟨b, ⟨hb, hs⟩, he⟩
      exact h b hb ⟨he, hs⟩
  simp only [Db.batchSlots, Awd.batchSlots, List.mem_flatMap, List.mem_filter, decide_eq_true_eq,
    hban, List.mem_filterMap, Option.map_eq_some_iff]
  constructor
  · rintro ⟨team, ⟨ht, hb⟩, g, hg, i, hi, rfl⟩
    exact ⟨ht, hb, hg, hi⟩
  · rintro ⟨ht, hb, hg, hi⟩
    exact ⟨s.team, ⟨ht, hb⟩, s.gamebox, hg, s.inst, hi, rfl⟩

/-- The instance of a team and a game box is found by them. -/
theorem Installed.findInstance (h : Installed db) {i : GameboxInstance} (hi : i ∈ db.instances)
    {team : EventTeam} {g : EventGamebox} (ht : team.id = i.teamId)
    (hg : g.id = i.eventGameboxId) : findInstance db.instances team g = some i := by
  cases hf : Awd.findInstance db.instances team g with
  | none =>
    have := List.find?_eq_none.1 hf i hi
    simp [ht, hg] at this
  | some x =>
    obtain ⟨hx, hxt, hxg⟩ := findInstance_some hf
    rw [List.inj_on_of_nodup_map h.oneEach hx hi (by rw [hxt, hxg, ht, hg])]

theorem Installed.nodup_slots (h : Installed db) : (db.batchSlots.map (·.inst.id)).Nodup := by
  have hdistinct : db.batchSlots.Pairwise fun s s' => s.inst ≠ s'.inst := by
    rw [Db.batchSlots, Awd.batchSlots, List.pairwise_flatMap]
    constructor
    · intro team _
      rw [List.pairwise_filterMap]
      refine (List.pairwise_map.1 h.gameboxIds).imp fun hne s hs s' hs' he => hne ?_
      obtain ⟨i, hi, rfl⟩ := Option.map_eq_some_iff.1 hs
      obtain ⟨i', hi', rfl⟩ := Option.map_eq_some_iff.1 hs'
      cases he
      exact (findInstance_some hi).2.2.symm.trans (findInstance_some hi').2.2
    · refine ((List.pairwise_map.1 h.teamIds).filter _).imp fun hne s hs s' hs' he => hne ?_
      obtain ⟨g, -, hg⟩ := List.mem_filterMap.1 hs
      obtain ⟨g', -, hg'⟩ := List.mem_filterMap.1 hs'
      obtain ⟨i, hi, rfl⟩ := Option.map_eq_some_iff.1 hg
      obtain ⟨i', hi', rfl⟩ := Option.map_eq_some_iff.1 hg'
      cases he
      exact (findInstance_some hi).2.1.symm.trans (findInstance_some hi').2.1
  rw [List.Nodup, List.pairwise_map]
  refine hdistinct.imp_of_mem fun hs hs' hne he => hne ?_
  exact List.inj_on_of_nodup_map h.instanceIds (findInstance_some (mem_batchSlots.1 hs).2.2.2).1
    (findInstance_some (mem_batchSlots.1 hs').2.2.2).1 he

/-- The slots of a batch are the instances of the teams that are not banned, each once. -/
theorem Installed.slots_perm (h : Installed db) :
    (db.batchSlots.map (·.inst.id)).Perm db.unbannedInstances := by
  have hnodup : db.unbannedInstances.Nodup :=
    h.instanceIds.sublist ((List.filter_sublist).map _)
  refine (List.perm_ext_iff_of_nodup h.nodup_slots hnodup).2 fun a => ?_
  simp only [Db.unbannedInstances, List.mem_map, List.mem_filter]
  constructor
  · rintro ⟨s, hs, rfl⟩
    obtain ⟨-, hb, -, hi⟩ := mem_batchSlots.1 hs
    obtain ⟨hmem, hteam, -⟩ := findInstance_some hi
    exact ⟨s.inst, ⟨hmem, by rw [hteam, hb]; rfl⟩, rfl⟩
  · rintro ⟨i, ⟨hi, hb⟩, rfl⟩
    obtain ⟨team, ht, hteam⟩ := List.mem_map.1 (h.team i hi)
    obtain ⟨g, hg, hbox⟩ := List.mem_map.1 (h.gamebox i hi)
    refine ⟨⟨team, g, i⟩, mem_batchSlots.2 ⟨ht, ?_, hg, h.findInstance hi hteam hbox⟩, rfl⟩
    rw [hteam]
    simpa using hb

/-! ## Covered rounds -/

/-- The batches that were created, each with the instances of the teams that were not banned then. -/
abbrev Made := List (Nat × List Nat)

/-- The ids of the batches with those of their rounds. -/
def Db.batchKeys (db : Db) : List (Nat × Nat) := db.batches.map fun b => (b.id, b.roundId)

/-- The batches of the tasks with the instances they probe. -/
def Db.taskKeys (db : Db) : List (Nat × Nat) :=
  db.judgeTasks.map fun t => (t.batchId, t.gameboxInstanceId)

/-- The instances that the tasks of the batch probe. -/
def Db.probed (db : Db) (batchId : Nat) : List Nat :=
  (db.taskKeys.filter (·.1 = batchId)).map (·.2)

/-- The round has exactly one batch, and the batch exactly one task for every instance of every team
that was not banned when it was created. -/
def Covered (v : Db × Made) (roundId : Nat) : Prop :=
  ∃ b, v.1.batchKeys.filter (·.2 = roundId) = [(b, roundId)] ∧
    ∃ is, (b, is) ∈ v.2 ∧ (v.1.probed b).Perm is

/-- The shape of rounds, batches and tasks: a completed round is covered, except for the one that is
skipped, and a round that is not over has no batch. -/
structure CoverBase (skip : Option Nat) (v : Db × Made) : Prop where
  table : RoundTable v.1.rounds v.1.nextId
  installed : Installed v.1
  boxes : v.1.gameboxes ≠ []
  batchIds : (v.1.batchKeys.map (·.1)).Nodup
  batchFresh : ∀ b ∈ v.1.batchKeys, b.1 < v.1.nextId ∧ b.2 < v.1.nextId
  taskFresh : ∀ t ∈ v.1.taskKeys, t.1 < v.1.nextId
  covered : ∀ r ∈ v.1.rounds, r.status = .completed → skip ≠ some r.id → Covered v r.id
  unjudged : ∀ r ∈ v.1.rounds, r.status ≠ .completed → ∀ b ∈ v.1.batchKeys, b.2 ≠ r.id
  settled : v.1.event.status.isTerminal = true → AllDone v.1.rounds

/-- Nothing changes that the coverage depends on. -/
structure Idle (db db' : Db) : Prop where
  rounds : db'.rounds = db.rounds
  batchKeys : db'.batchKeys = db.batchKeys
  taskKeys : db'.taskKeys = db.taskKeys
  teams : db'.teams = db.teams
  gameboxes : db'.gameboxes = db.gameboxes
  instances : db'.instances.map (·.key) = db.instances.map (·.key)
  nextId : db.nextId ≤ db'.nextId
  status : db'.event.status.isTerminal = true → db.event.status.isTerminal = true

theorem Idle.refl (db : Db) : Idle db db := ⟨rfl, rfl, rfl, rfl, rfl, rfl, le_rfl, id⟩

theorem Installed.of_keys (h : Installed db) (ht : db'.teams = db.teams)
    (hg : db'.gameboxes = db.gameboxes)
    (hi : db'.instances.map (·.key) = db.instances.map (·.key)) : Installed db' := by
  have hmap {α : Type} (f : Nat × Nat × Nat → α) :
      db'.instances.map (fun i => f i.key) = db.instances.map fun i => f i.key := by
    have := congrArg (List.map f) hi
    rwa [List.map_map, List.map_map] at this
  have hmem (i : GameboxInstance) (h' : i ∈ db'.instances) :
      ∃ x ∈ db.instances, x.key = i.key := List.mem_map.1 (hi ▸ List.mem_map_of_mem h')
  refine ⟨ht ▸ h.teamIds, hg ▸ h.gameboxIds, ?_, ?_, fun i h' => ?_, fun i h' => ?_⟩
  · exact (hmap (·.1)) ▸ h.instanceIds
  · exact (hmap (·.2)) ▸ h.oneEach
  · obtain ⟨x, hx, he⟩ := hmem i h'
    have : x.teamId = i.teamId := congrArg (·.2.1) he
    exact ht ▸ this ▸ h.team x hx
  · obtain ⟨x, hx, he⟩ := hmem i h'
    have : x.eventGameboxId = i.eventGameboxId := congrArg (·.2.2) he
    exact hg ▸ this ▸ h.gamebox x hx

variable {made made' : Made} {skip : Option Nat}

theorem Covered.of_keys {roundId : Nat} (h : Covered (db, made) roundId)
    (hb : db'.batchKeys = db.batchKeys) (ht : db'.taskKeys = db.taskKeys) (hm : made ⊆ made') :
    Covered (db', made') roundId := by
  obtain ⟨b, hone, is, hmade, hperm⟩ := h
  refine ⟨b, hb.symm ▸ hone, is, hm hmade, ?_⟩
  rwa [Db.probed, ht]

theorem CoverBase.of_idle (h : CoverBase skip (db, made)) (hi : Idle db db') (hm : made ⊆ made') :
    CoverBase skip (db', made') where
  table := by
    have := h.table.mono hi.nextId
    rwa [← hi.rounds] at this
  installed := h.installed.of_keys hi.teams hi.gameboxes hi.instances
  boxes := hi.gameboxes.symm ▸ h.boxes
  batchIds := hi.batchKeys.symm ▸ h.batchIds
  batchFresh b hb := by
    have := h.batchFresh b (hi.batchKeys ▸ hb)
    exact ⟨this.1.trans_le hi.nextId, this.2.trans_le hi.nextId⟩
  taskFresh t ht := (h.taskFresh t (hi.taskKeys ▸ ht)).trans_le hi.nextId
  covered r hr hc hs := (h.covered r (hi.rounds ▸ hr) hc hs).of_keys hi.batchKeys hi.taskKeys hm
  unjudged r hr hc b hb := h.unjudged r (hi.rounds ▸ hr) hc b (hi.batchKeys ▸ hb)
  settled hs := hi.rounds.symm ▸ h.settled (hi.status hs)

/-- The event row may change, if it ends only when the rounds are over. -/
theorem CoverBase.withEvent (h : CoverBase skip (db, made)) (e : AwdEvent)
    (he : e.status.isTerminal = true → AllDone db.rounds) :
    CoverBase skip ({ db with event := e }, made) :=
  { h with
    installed := h.installed.of_keys rfl rfl rfl
    covered := fun r hr hc hs => (h.covered r hr hc hs).of_keys rfl rfl (List.Subset.refl _)
    settled := he }

/-! ## Rounds -/

/-- A round that is not over is written and stays so. -/
theorem CoverBase.writeOpen (h : CoverBase none (db, made)) {id : Nat}
    {f : AwdRound → AwdRound} (hid : ∀ r, (f r).id = r.id)
    (hnum : ∀ r, (f r).roundNumber = r.roundNumber) (hopen : ∀ r, (f r).status ≠ .completed)
    (hr : ∀ r ∈ db.rounds, r.id = id → r.status ≠ .completed) :
    CoverBase none ({ db with rounds := updateRoundRow id f db.rounds }, made) where
  table := h.table.update hid hnum fun r hmem he =>
    absurd (h.table.closed r hmem) (hr r (List.dropLast_subset _ hmem) he)
  installed := h.installed.of_keys rfl rfl rfl
  boxes := h.boxes
  batchIds := h.batchIds
  batchFresh := h.batchFresh
  taskFresh := h.taskFresh
  covered r hmem hc hs := by
    obtain ⟨x, hx, rfl⟩ := List.mem_map.1 hmem
    split_ifs at hc ⊢ with he
    · exact absurd hc (hopen x)
    · exact (h.covered x hx hc (by simp)).of_keys rfl rfl (List.Subset.refl _)
  unjudged r hmem hc b hb := by
    obtain ⟨x, hx, rfl⟩ := List.mem_map.1 hmem
    split_ifs at hc ⊢ with he
    · rw [hid]
      exact h.unjudged x hx (hr x hx he) b hb
    · exact h.unjudged x hx hc b hb
  settled hs r hmem := by
    obtain ⟨x, hx, rfl⟩ := List.mem_map.1 hmem
    have hdone := h.settled hs x hx
    rw [if_neg fun he => hr x hx he hdone]
    exact hdone

/-- The open round is completed: it waits for its batch. -/
theorem CoverBase.complete (h : CoverBase none (db, made)) {r : AwdRound} (hr : r ∈ db.rounds)
    (hs : r.status = .active) :
    CoverBase (some r.id)
      ({ db with rounds := updateRoundRow r.id (completedRound db.now) db.rounds }, made) ∧
    AllDone (updateRoundRow r.id (completedRound db.now) db.rounds) ∧
    ∀ b ∈ db.batchKeys, b.2 ≠ r.id := by
  have hopen : r.isOpen = true := r.isOpen_iff.2 (by rw [hs]; decide)
  obtain ⟨done, he, hdone⟩ := h.table.eq_of_open hr hopen
  have htable := h.table
  rw [he] at htable
  have hrow : updateRoundRow r.id (completedRound db.now) db.rounds =
      done ++ [completedRound db.now r] := by
    rw [he]
    exact updateRoundRow_last htable _
  have hall : AllDone (updateRoundRow r.id (completedRound db.now) db.rounds) := by
    rw [hrow]
    rintro x hx
    rcases List.mem_append.1 hx with hx | hx
    · exact hdone x hx
    · rw [List.mem_singleton.1 hx]
      rfl
  refine ⟨⟨?_, h.installed.of_keys rfl rfl rfl, h.boxes, h.batchIds, h.batchFresh, h.taskFresh,
    fun x hx _ hskip => ?_, fun x hx hc => absurd (hall x hx) hc, fun _ => hall⟩, hall,
    h.unjudged r hr (by rw [hs]; decide)⟩
  · dsimp only
    rw [hrow]
    exact htable.rewrite_last rfl rfl
  · dsimp only at hx
    rw [hrow] at hx
    rcases List.mem_append.1 hx with hx | hx
    · refine (h.covered x ?_ (hdone x hx) (by simp)).of_keys rfl rfl (List.Subset.refl _)
      rw [he]
      exact List.mem_append_left _ hx
    · rw [List.mem_singleton.1 hx] at hskip
      exact absurd rfl hskip

/-- The next round goes on top of rounds that are over. -/
theorem CoverBase.insertRound (h : CoverBase none (db, made)) (hd : AllDone db.rounds)
    (hs : db.event.status.isTerminal = false) {executeAt : Int} {r : AwdRound}
    (hi : insertRoundRow (db.rounds.length + 1) executeAt db = .ok (db', r)) :
    CoverBase none (db', made) := by
  obtain ⟨rfl, -, rfl⟩ := insertRoundRow_ok hi
  have hold {n : Nat} (hn : n < db.nextId) : n < db.nextId + 1 + 1 := by omega
  refine ⟨?_, h.installed.of_keys rfl rfl rfl, h.boxes, h.batchIds, fun b hb => ?_, fun t ht => ?_,
    fun x hx hc hskip => ?_, fun x hx hc b hb => ?_, fun hterm => ?_⟩
  · exact h.table.concat hd rfl le_rfl (by simp only [Db.schedule, createdRound]; omega)
  · exact ⟨hold (h.batchFresh b hb).1, hold (h.batchFresh b hb).2⟩
  · exact hold (h.taskFresh t ht)
  · rcases List.mem_append.1 hx with hx | hx
    · exact (h.covered x hx hc hskip).of_keys rfl rfl (List.Subset.refl _)
    · rw [List.mem_singleton.1 hx] at hc
      cases hc
  · rcases List.mem_append.1 hx with hx | hx
    · exact absurd (hd x hx) hc
    · rw [List.mem_singleton.1 hx]
      exact ((h.batchFresh b hb).2).ne
  · exact absurd hterm (by simp [Db.schedule, hs])

/-! ## Filling a batch -/

/-- The batch of the round has been created and holds tasks for the first slots. -/
structure Filling (roundId batchId : Nat) (is : List Nat) (filled : List BatchSlot)
    (v : Db × Made) : Prop where
  base : CoverBase (some roundId) v
  done : AllDone v.1.rounds
  one : v.1.batchKeys.filter (·.2 = roundId) = [(batchId, roundId)]
  made : (batchId, is) ∈ v.2
  probed : v.1.probed batchId = filled.map (·.inst.id)

theorem probed_eq_nil {batchId : Nat} (h : ∀ t ∈ db.taskKeys, t.1 ≠ batchId) :
    db.probed batchId = [] := by
  rw [Db.probed, List.filter_eq_nil_iff.2 fun t ht => by simpa using h t ht, List.map_nil]

/-- The batch row. -/
theorem CoverBase.insertBatch {roundId : Nat} (h : CoverBase (some roundId) (db, made))
    (hd : AllDone db.rounds) (hnew : ∀ b ∈ db.batchKeys, b.2 ≠ roundId)
    (hlt : roundId < db.nextId) (n : Int) (is : List Nat) :
    Filling roundId db.nextId is []
      ({ db with batches := db.batches ++ [newBatch db.nextId roundId n]
                 nextId := db.nextId + 1 }, made ++ [(db.nextId, is)]) := by
  have hkeys : Db.batchKeys { db with batches := db.batches ++ [newBatch db.nextId roundId n]
                                      nextId := db.nextId + 1 } =
      db.batchKeys ++ [(db.nextId, roundId)] := by
    simp only [Db.batchKeys, List.map_append, List.map_singleton, newBatch]
  have hsub : made ⊆ made ++ [(db.nextId, is)] := List.subset_append_left _ _
  refine ⟨⟨h.table.mono (Nat.le_succ _), h.installed.of_keys rfl rfl rfl, h.boxes, ?_,
    fun b hb => ?_, fun t ht => (h.taskFresh t ht).trans (Nat.lt_succ_self _),
    fun r hr hc hskip => ?_, fun r hr hc => absurd (hd r hr) hc, h.settled⟩, hd, ?_, by simp, ?_⟩
  · dsimp only
    rw [hkeys, List.map_append, List.nodup_append]
    refine ⟨h.batchIds, by simp, fun a ha b hb => ?_⟩
    obtain ⟨x, hx, rfl⟩ := List.mem_map.1 ha
    rw [List.map_singleton, List.mem_singleton] at hb
    exact hb ▸ ((h.batchFresh x hx).1).ne
  · dsimp only at hb
    rw [hkeys, List.mem_append, List.mem_singleton] at hb
    rcases hb with hb | rfl
    · have := h.batchFresh b hb
      exact ⟨this.1.trans (Nat.lt_succ_self _), this.2.trans (Nat.lt_succ_self _)⟩
    · exact ⟨Nat.lt_succ_self _, hlt.trans (Nat.lt_succ_self _)⟩
  · obtain ⟨b, hone, is', hmade, hperm⟩ := h.covered r hr hc hskip
    refine ⟨b, ?_, is', hsub hmade, hperm⟩
    have hne : roundId ≠ r.id := fun he => hskip (congrArg some he)
    rw [hkeys, List.filter_append, hone]
    simp [hne]
  · rw [hkeys, List.filter_append, List.filter_eq_nil_iff.2 fun b hb => by simpa using hnew b hb]
    simp
  · rw [List.map_nil]
    exact probed_eq_nil fun t ht => (h.taskFresh t ht).ne

/-- A task row. -/
theorem Filling.insertTask {roundId batchId : Nat} {is : List Nat} {filled : List BatchSlot}
    (h : Filling roundId batchId is filled (db, made)) (deadline : Int) (slot : BatchSlot) :
    Filling roundId batchId is (filled ++ [slot])
      ({ db with
          judgeTasks := db.judgeTasks ++
            [newJudgeTask db.nextId batchId db.event.eventId roundId deadline db.now slot]
          nextId := db.nextId + 1 }, made) := by
  have hkeys : Db.taskKeys { db with
      judgeTasks := db.judgeTasks ++
        [newJudgeTask db.nextId batchId db.event.eventId roundId deadline db.now slot]
      nextId := db.nextId + 1 } = db.taskKeys ++ [(batchId, slot.inst.id)] := by
    simp only [Db.taskKeys, List.map_append, List.map_singleton, newJudgeTask]
  have hbatch : (batchId, roundId) ∈ db.batchKeys :=
    List.mem_of_mem_filter (h.one ▸ List.mem_singleton_self _)
  have hb := h.base
  refine ⟨⟨hb.table.mono (Nat.le_succ _), hb.installed.of_keys rfl rfl rfl, hb.boxes, hb.batchIds,
    fun b hmem => ?_, fun t ht => ?_, fun r hr hc hskip => ?_, hb.unjudged, hb.settled⟩, h.done,
    h.one, h.made, ?_⟩
  · have := hb.batchFresh b hmem
    exact ⟨this.1.trans (Nat.lt_succ_self _), this.2.trans (Nat.lt_succ_self _)⟩
  · dsimp only at ht
    rw [hkeys, List.mem_append, List.mem_singleton] at ht
    rcases ht with ht | rfl
    · exact (hb.taskFresh t ht).trans (Nat.lt_succ_self _)
    · exact ((hb.batchFresh _ hbatch).1).trans (Nat.lt_succ_self _)
  · obtain ⟨b, hone, is', hmade, hperm⟩ := hb.covered r hr hc hskip
    have hmem : (b, r.id) ∈ db.batchKeys :=
      List.mem_of_mem_filter (hone ▸ List.mem_singleton_self _)
    -- the batch of another round is another batch
    have hne : batchId ≠ b := by
      rintro rfl
      have := List.inj_on_of_nodup_map hb.batchIds hmem hbatch rfl
      exact hskip (congrArg some (congrArg Prod.snd this).symm)
    refine ⟨b, hone, is', hmade, ?_⟩
    rw [Db.probed, hkeys, List.filter_append]
    simpa [hne, Db.probed] using hperm
  · rw [Db.probed, hkeys, List.filter_append, List.map_append, ← Db.probed, h.probed]
    simp

/-- The last task row covers the round. -/
theorem Filling.covered {roundId batchId : Nat} {is : List Nat} {filled : List BatchSlot}
    {v : Db × Made} (h : Filling roundId batchId is filled v)
    (hp : (filled.map (·.inst.id)).Perm is) : CoverBase none v := by
  refine { h.base with covered := fun r hr hc _ => ?_ }
  by_cases he : some roundId = some r.id
  · cases he
    exact ⟨batchId, h.one, is, h.made, h.probed ▸ hp⟩
  · exact h.base.covered r hr hc he

end FloatCtf.Awd
