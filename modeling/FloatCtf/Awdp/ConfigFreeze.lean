import FloatCtf.Awdp.EventRepo
import FloatCtf.Awdp.SingleRun
import FloatCtf.Process.Visits

/-!
# The configuration of an event that has started

A stored configuration has whole rounds, and the rounds of the Fix follow each other until its end.
An update gives the event the length of its Break and its Fix, and is refused as soon as the event
has started: but the check looks for an active run, which a run in PreparingFix or Ended is not
(`configsKept_not_preparing`).

`configsKept_run` shows that configurations are right and frozen, in every run in which they are
updated only where each run that was started is seen by the check.
-/

namespace FloatCtf.Awdp

open Process

/-! ## What is right -/

/-- What `validate` checks. -/
structure AwdpConfig.Valid (c : AwdpConfig) : Prop where
  breakPos : 0 < c.breakDurationSecs
  fixPos : 0 < c.fixDurationSecs
  intervalPos : 0 < c.fixRoundIntervalSecs
  breakScore : 0 ≤ c.breakScore
  fixRoundScore : 0 ≤ c.fixRoundScore
  whole : c.fixDurationSecs % c.fixRoundIntervalSecs = 0

/-- The windows follow each other from `start` to `stop`. -/
structure Tiles (start stop : Int) (ws : List RoundWindow) : Prop where
  first : ws.head?.map (·.startsAt) = some start
  chain : ws.IsChain fun w w' => w.cutoffAt = w'.startsAt
  last : ws.getLast?.map (·.cutoffAt) = some stop

/-- No run of the event was started. -/
def ConfigDb.unstarted (db : ConfigDb) (eventId : Nat) : Bool :=
  db.core.runs.all fun r => r.eventId ≠ eventId ∨ r.phase = .pending

/-- The event has the length of its Break and its Fix, and the Break is long enough. -/
def ConfigDb.timed (db : ConfigDb) (eventId : Nat) : Bool :=
  (db.eventById eventId).any fun event => (db.configById eventId).any fun row =>
    event.endTime.any fun endTime =>
      row.config.breakDurationSecs + row.config.fixDurationSecs =
          wholeSecs event.startTime endTime ∧
        breakMinSecs ≤ row.config.breakDurationSecs

/-- The length of an event with an end, in whole seconds. -/
def EventRow.secs (e : EventRow) : Option Int := e.endTime.map (wholeSecs e.startTime)

/-- A length that an `i32` can hold. -/
def fits32 (secs : Int) : Bool := 0 ≤ secs ∧ secs < 2 ^ 31

/-- The event keeps its length in seconds, where an `i32` can hold it. -/
def ConfigDb.keepsLength (db db' : ConfigDb) (eventId : Nat) : Bool :=
  ((db.eventById eventId).bind (·.secs)).all fun secs =>
    !fits32 secs || (db'.eventById eventId).bind (·.secs) = some secs

/-- An update from `db` to `db'` is as it should be. -/
def rightUpdate (db db' : ConfigDb) (eventId : Nat) : Bool :=
  db.unstarted eventId && db'.timed eventId && db.keepsLength db' eventId

/-! ## The system -/

/-- The requests on configurations, and the jobs of the runs. -/
inductive ConfigJob where
  | ensure (eventId : Nat) (config : AwdpConfig)
  | update (eventId : Nat) (patch : AwdpConfigPatch)
  | lifecycle (j : RunJob)

/-- The program of a job. -/
def ConfigJob.prog : ConfigJob → ConfigM Unit
  | ensure eventId config => do let _ ← ensureByEventId eventId config
  | update eventId patch => do let _ ← updateConfig eventId patch
  | lifecycle j => onRuns j.prog

/-- Something happens to the runs, or an event gets other times. -/
inductive ConfigEnv where
  | runs (e : RunEnv)
  | times (eventId : Nat) (startTime : Int) (endTime : Option Int)

/-- What happens beside the jobs. -/
def ConfigEnv.act : ConfigEnv → ConfigDb → ConfigDb
  | runs e, db => { db with core := e.act db.core }
  | times eventId startTime endTime, db =>
    { db with
      events := db.events.map fun e => if e.id = eventId then { e with startTime, endTime } else e
      core := { db.core with events := db.core.events.map fun e =>
        if e.id = eventId then { e with startTime := startTime / 1000000 } else e } }

/-- The observer keeps the events of which an update was not as it should be. -/
def noteWrong (_ : ConfigJob) (l : ConfigStmt) (db : ConfigDb) (wrong : List Nat) : List Nat :=
  match l with
  | .updateConfig eventId patch expected =>
    match db.updateConfig eventId patch expected with
    | .ok (db', _) => if rightUpdate db db' eventId then wrong else eventId :: wrong
    | .error _ => wrong
  | _ => wrong

/-- The jobs, with the updates that should not have been as ghost state. -/
def configSystem : System ConfigStmt ConfigDb AwdpError (List Nat) ConfigJob ConfigEnv where
  prog := ConfigJob.prog
  env := ConfigEnv.act
  watch := noteWrong

/-- The jobs under way. -/
abbrev ConfigPool := Pool ConfigStmt ConfigDb AwdpError (List Nat) ConfigJob

/-- Nothing has been asked yet. -/
def ConfigPool.initial (db : ConfigDb) : ConfigPool := ⟨db, [], []⟩

/-! ## The condition -/

/-- Where a run of the event was started, there is one that is pending, in Break or in Fix. -/
def ConfigDb.visible (db : ConfigDb) (eventId : Nat) : Bool :=
  db.unstarted eventId || db.active eventId

/-- An update is written only where the look at the event's runs is right. -/
def Visible (_ : ConfigJob) (l : ConfigStmt) (v : ConfigDb × List Nat) : Prop :=
  match l with
  | .updateConfig eventId _ _ => v.1.visible eventId = true
  | _ => True

instance (j : ConfigJob) (l : ConfigStmt) (v : ConfigDb × List Nat) :
    Decidable (Visible j l v) := by
  unfold Visible
  split <;> infer_instance

/-! ## Configurations -/

theorem AwdpConfig.validate_ok {c : AwdpConfig} : c.validate = .ok () ↔ c.Valid := by
  have hmod : c.fixDurationSecs.tmod c.fixRoundIntervalSecs = 0 ↔
      c.fixDurationSecs % c.fixRoundIntervalSecs = 0 := by
    rw [← Int.dvd_iff_tmod_eq_zero, ← Int.dvd_iff_emod_eq_zero]
  unfold AwdpConfig.validate
  constructor
  · intro h
    split_ifs at h with hb hf hi hs hm
    simp only [not_or, not_lt, not_le, not_not] at hb hf hi hs hm
    exact ⟨hb, hf, hi, hs.1, hs.2, hmod.1 hm⟩
  · rintro ⟨hb, hf, hi, hs, hs', hm⟩
    rw [if_neg hb.not_ge, if_neg hf.not_ge, if_neg hi.not_ge, if_neg (by omega),
      if_neg (not_not.2 (hmod.2 hm))]

/-- The rounds of a valid configuration are those of its Fix. -/
theorem AwdpConfig.Valid.totalRounds {c : AwdpConfig} (h : c.Valid) :
    0 < c.totalRounds ∧ c.fixRoundIntervalSecs * c.totalRounds = c.fixDurationSecs := by
  have hmul : c.fixRoundIntervalSecs * c.totalRounds = c.fixDurationSecs :=
    Int.mul_tdiv_cancel' (Int.dvd_of_emod_eq_zero h.whole)
  refine ⟨?_, hmul⟩
  by_contra hle
  have hneg : c.fixRoundIntervalSecs * c.totalRounds ≤ 0 :=
    Int.mul_nonpos_of_nonneg_of_nonpos h.intervalPos.le (not_lt.1 hle)
  rw [hmul] at hneg
  exact hneg.not_gt h.fixPos

/-- A round ends where the next one starts. -/
theorem tiles_roundWindows (fixStart interval : Int) {count : Int} (h : 0 < count) :
    Tiles fixStart (fixStart + interval * count) (roundWindows fixStart interval count) := by
  obtain ⟨n, hn⟩ : ∃ n : Nat, count.toNat = n + 1 := ⟨count.toNat - 1, by omega⟩
  have hcount : count = n + 1 := by omega
  rw [roundWindows, hn]
  refine ⟨?_, ?_, ?_⟩
  · simp [List.range_succ_eq_map, roundWindow]
  · refine List.isChain_iff_getElem.2 fun i hi => ?_
    simp only [List.getElem_map, List.getElem_range, roundWindow]
    push_cast
    rw [Int.add_sub_cancel]
  · rw [List.range_succ, List.map_append, List.getLast?_append, hcount]
    rfl

theorem AwdpConfig.Valid.tiles {c : AwdpConfig} (h : c.Valid) (fixStart : Int) :
    Tiles fixStart (fixStart + c.fixDurationSecs)
      (roundWindows fixStart c.fixRoundIntervalSecs c.totalRounds) := by
  obtain ⟨hpos, hmul⟩ := h.totalRounds
  have htiles := tiles_roundWindows fixStart c.fixRoundIntervalSecs hpos
  rwa [hmul] at htiles

/-- What an update stores is valid, and its Break is what the Fix leaves. -/
theorem AwdpConfigPatch.settle_ok {p : AwdpConfigPatch} {base next : AwdpConfig} {total : Int}
    (h : p.settle base total = .ok next) : next.Valid ∧ breakMinSecs ≤ next.breakDurationSecs ∧
      next.breakDurationSecs = wrap32 (total - next.fixDurationSecs) ∧
      next.fixDurationSecs < 2 ^ 31 := by
  unfold AwdpConfigPatch.settle at h
  dsimp only at h
  split_ifs at h with hbreak hfix hmin
  obtain ⟨⟨⟩, hvalid, hnext⟩ := except_bind_ok h
  cases hnext
  exact ⟨AwdpConfig.validate_ok.1 hvalid, not_lt.1 hmin, rfl, (wrap32_bounds _).2⟩

/-! ## An update -/

variable {db db' : ConfigDb} {eventId : Nat} {row : ConfigRow}

theorem updateConfig_ok {patch : AwdpConfigPatch} {expected : Int}
    (h : db.updateConfig eventId patch expected = .ok (db', row)) :
    ∃ event current endTime next, db.eventById eventId = some event ∧
      db.configById eventId = some current ∧ event.endTime = some endTime ∧
      db.active eventId = false ∧
      patch.settle current.config (wrap32 (wholeSecs event.startTime endTime)) = .ok next ∧
      db' = db.storeConfig eventId next := by
  unfold ConfigDb.updateConfig at h
  split at h
  · cases h
  · rename_i event hevent
    split_ifs at h
    split at h
    · cases h
    · cases h
    · rename_i current endTime hcurrent hend
      unfold ConfigDb.changeConfig at h
      split_ifs at h with hactive hexpected
      split at h
      · cases h
      · rename_i next hnext
        cases h
        exact ⟨event, current, endTime, next, hevent, hcurrent, hend,
          Bool.eq_false_iff.2 hactive, hnext, rfl⟩

theorem eventById_storeConfig (c : AwdpConfig) : (db.storeConfig eventId c).eventById eventId =
    (db.eventById eventId).map (·.ending c) := by
  have hid (e : EventRow) : (if e.id = eventId then e.ending c else e).id = e.id := by
    split_ifs <;> rfl
  refine (Table.find_map hid db.events eventId).trans ?_
  cases hevent : db.events.find? (·.id = eventId) with
  | none => rw [ConfigDb.eventById, hevent]; rfl
  | some e =>
    rw [ConfigDb.eventById, hevent, Option.map_some, Option.map_some,
      if_pos (Table.mem_of_find hevent).2]

theorem configById_storeConfig (c : AwdpConfig) : (db.storeConfig eventId c).configById eventId =
    (db.configById eventId).map (·.changed c db.core.now) := by
  have hid (r : ConfigRow) :
      (if r.eventId = eventId then r.changed c db.core.now else r).eventId = r.eventId := by
    split_ifs <;> rfl
  refine (Table.find_map hid db.configs eventId).trans ?_
  cases hrow : db.configs.find? (·.eventId = eventId) with
  | none => rw [ConfigDb.configById, hrow]; rfl
  | some r =>
    rw [ConfigDb.configById, hrow, Option.map_some, Option.map_some,
      if_pos (Table.mem_of_find hrow).2]

/-- The event ends when its Fix does. -/
theorem secs_ending (e : EventRow) (c : AwdpConfig) :
    (e.ending c).secs = some (c.breakDurationSecs + c.fixDurationSecs) := by
  have hlength : e.startTime + c.breakDurationSecs * 1000000 + c.fixDurationSecs * 1000000 -
      e.startTime = (c.breakDurationSecs + c.fixDurationSecs) * 1000000 := by
    omega
  rw [EventRow.secs, EventRow.ending, Option.map_some, wholeSecs, hlength,
    Int.mul_tdiv_cancel _ (by decide)]

/-- An update gives the event its length. -/
theorem timed_updateConfig {patch : AwdpConfigPatch} {expected : Int}
    (h : db.updateConfig eventId patch expected = .ok (db', row)) :
    db'.timed eventId = true ∧ db.keepsLength db' eventId = true := by
  obtain ⟨event, current, endTime, next, hevent, hcurrent, hend, -, hnext, rfl⟩ :=
    updateConfig_ok h
  obtain ⟨hvalid, hmin, hbreak, hfix⟩ := AwdpConfigPatch.settle_ok hnext
  have hnew : (db.storeConfig eventId next).eventById eventId = some (event.ending next) := by
    rw [eventById_storeConfig, hevent, Option.map_some]
  have hrow : (db.storeConfig eventId next).configById eventId =
      some (current.changed next db.core.now) := by
    rw [configById_storeConfig, hcurrent, Option.map_some]
  have hsecs := secs_ending event next
  constructor
  · have hwhole : wholeSecs event.startTime (event.startTime + next.breakDurationSecs * 1000000 +
        next.fixDurationSecs * 1000000) = next.breakDurationSecs + next.fixDurationSecs :=
      Option.some.inj hsecs
    simp only [ConfigDb.timed, hnew, hrow, Option.any_some, EventRow.ending, ConfigRow.changed,
      hwhole, hmin, and_self, decide_true]
  · have hold : event.secs = some (wholeSecs event.startTime endTime) := by
      rw [EventRow.secs, hend, Option.map_some]
    simp only [ConfigDb.keepsLength, hevent, hnew, Option.bind_some, hold, hsecs, Option.all_some]
    generalize wholeSecs event.startTime endTime = secs at hbreak
    by_cases hfits : fits32 secs = true
    · obtain ⟨hnonneg, hlt⟩ := of_decide_eq_true hfits
      have hpos := hvalid.fixPos
      rw [wrap32_of_fits (x := secs) (by omega) hlt, wrap32_of_fits (by omega) (by omega)] at hbreak
      have hsum : next.breakDurationSecs + next.fixDurationSecs = secs := by omega
      simp [hsum]
    · simp [hfits]

theorem mem_configs_storeConfig {c : AwdpConfig} {r : ConfigRow}
    (h : r ∈ (db.storeConfig eventId c).configs) : r ∈ db.configs ∨ r.config = c := by
  obtain ⟨r₀, hr₀, rfl⟩ := List.mem_map.1 h
  split_ifs
  · exact .inr rfl
  · exact .inl hr₀

/-- Where a run is seen, an update finds no run that was started. -/
theorem right_updateConfig {patch : AwdpConfigPatch} {expected : Int}
    (hv : db.visible eventId = true)
    (h : db.updateConfig eventId patch expected = .ok (db', row)) :
    rightUpdate db db' eventId = true := by
  obtain ⟨htimed, hkeeps⟩ := timed_updateConfig h
  obtain ⟨-, -, -, -, -, -, -, hactive, -, -⟩ := updateConfig_ok h
  rw [ConfigDb.visible, hactive, Bool.or_false] at hv
  rw [rightUpdate, hv, htimed, hkeeps]
  rfl

/-! ## The law -/

/-- Every configuration is valid, and no update was wrong. -/
structure ConfigInv (v : ConfigDb × List Nat) : Prop where
  valid : ∀ r ∈ v.1.configs, r.config.Valid
  right : v.2 = []

section Law

/-- The law of the configurations. -/
def configLaw : Law configSystem where
  rely _ _ := True
  guar _ _ _ := True
  inv := ConfigInv
  cond := Visible
  refl _ := trivial
  trans _ _ := trivial
  guar_refl _ _ := trivial
  rely_of_guar _ := trivial

variable {j : ConfigJob} {v : ConfigDb × List Nat}

/-- A statement on the runs. -/
def RunsOnly (l : ConfigStmt) (db db' : ConfigDb) : Prop :=
  (∃ l', l = .core l') ∧ db'.configs = db.configs

theorem safe_onRuns (p : AwdpM Unit) : configLaw.Safe j (fun _ _ => True) (onRuns p) v := by
  have hdoes : (onRuns p).Does RunsOnly := (Prog.does_any p).zoom fun l _ _ _ => ⟨⟨l, rfl⟩, rfl⟩
  refine Law.safe_of_does hdoes fun l db db' g hi _ hl => ?_
  obtain ⟨⟨l', rfl⟩, hconfigs⟩ := hl
  exact ⟨trivial, hconfigs ▸ hi.valid, hi.right⟩

theorem safe_initialConfig (eventId : Nat) (config : AwdpConfig) :
    configLaw.Safe j (fun _ _ => True) (initialConfig eventId config) v :=
  Law.safe_read (fun _ _ => rfl) (fun _ _ _ _ => trivial) fun _ _ _ => trivial

theorem safe_insertInitial (eventId : Nat) (initial : AwdpConfig) :
    configLaw.Safe j (fun _ _ => True) (insertInitial eventId initial) v := by
  unfold insertInitial
  split
  · trivial
  · rename_i hvalid
    refine Law.safe_exec (fun _ _ => rfl) fun v' _ hi _ db' row h => ⟨trivial, ?_, trivial⟩
    unfold ConfigDb.insertConfig at h
    dsimp only at h
    split_ifs at h
    cases h
    refine ⟨fun r hr => ?_, hi.right⟩
    rcases List.mem_append.1 hr with hr | hr
    · exact hi.valid r hr
    · rw [List.mem_singleton.1 hr]
      exact AwdpConfig.validate_ok.1 hvalid

theorem safe_ensureByEventId (eventId : Nat) (config : AwdpConfig) :
    configLaw.Safe j (fun _ _ => True) (ensureByEventId eventId config) v := by
  refine Law.safe_bind (Law.safe_query (fun _ _ => rfl) fun v1 _ _ _ => ?_)
  cases v1.1.configById eventId with
  | some existing => trivial
  | none =>
    exact Law.safe_seq (safe_initialConfig eventId config) fun initial _ _ =>
      safe_insertInitial eventId initial

theorem safe_updateConfig (eventId : Nat) (patch : AwdpConfigPatch) :
    configLaw.Safe j (fun _ _ => True) (updateConfig eventId patch) v := by
  unfold updateConfig
  split
  · trivial
  · trivial
  · rename_i expected _ _
    refine Law.safe_exec_noted (fun v' e herr => ?_) fun v' _ hi hc db' row h => ?_
    · simp only [configSystem, noteWrong, herr]
    · have hright := right_updateConfig hc h
      have hnote :
          configSystem.watch j (.updateConfig eventId patch expected) v'.1 v'.2 = v'.2 := by
        simp only [configSystem, noteWrong, h, hright, ↓reduceIte]
      rw [hnote]
      refine ⟨trivial, ⟨fun r hr => ?_, hi.right⟩, trivial⟩
      obtain ⟨event, current, endTime, next, -, -, -, -, hnext, rfl⟩ := updateConfig_ok h
      rcases mem_configs_storeConfig hr with hold | hnew
      · exact hi.valid r hold
      · rw [hnew]
        exact (AwdpConfigPatch.settle_ok hnext).1

theorem configLaw_keeps : configLaw.Keeps where
  prog j v _ := by
    cases j with
    | ensure eventId config =>
      exact Law.safe_seq (safe_ensureByEventId eventId config) fun _ _ _ => trivial
    | update eventId patch =>
      exact Law.safe_seq (safe_updateConfig eventId patch) fun _ _ _ => trivial
    | lifecycle j => exact safe_onRuns j.prog
  env e v h := by
    cases e with
    | runs e => exact ⟨trivial, h.valid, h.right⟩
    | times eventId startTime endTime => exact ⟨trivial, h.valid, h.right⟩

end Law

/-! ## Runs -/

/-- What is claimed of a reachable state. -/
structure ConfigsKept (db : ConfigDb) (wrong : List Nat) : Prop where
  valid : ∀ r ∈ db.configs, r.config.Valid
  /-- The rounds of a configuration follow each other from the start of the Fix to its end. -/
  tiles : ∀ r ∈ db.configs, ∀ fixStart, Tiles fixStart (fixStart + r.config.fixDurationSecs)
    (roundWindows fixStart r.config.fixRoundIntervalSecs r.config.totalRounds)
  /-- No run had been started when an event was updated, and the event got the length of its Break
  and its Fix. -/
  right : wrong = []
  /-- With a run that was started, and one that is seen, an update changes nothing. -/
  frozen : ∀ eventId patch, db.unstarted eventId = false → db.visible eventId = true →
    ∃ e, (updateConfig eventId patch).run (fun _ => true) db = (db, .error e)

theorem ConfigInv.kept {wrong : List Nat} (h : ConfigInv (db, wrong)) : ConfigsKept db wrong where
  valid := h.valid
  tiles r hr fixStart := (h.valid r hr).tiles fixStart
  right := h.right
  frozen eventId patch hstarted hv := by
    unfold updateConfig
    split
    · exact ⟨_, rfl⟩
    · exact ⟨_, rfl⟩
    · rename_i expected _ _
      rw [Prog.run_exec _ rfl]
      cases hupdate : db.updateConfig eventId patch expected with
      | error e => exact ⟨e, rfl⟩
      | ok r =>
        have hright := right_updateConfig hv hupdate
        rw [rightUpdate, hstarted] at hright
        cases hright

/-- Every run of updates and lifecycles in which the runs of an event that is updated are seen. -/
theorem configsKept_run (db : ConfigDb) (hdb : ∀ r ∈ db.configs, r.config.Valid)
    (acts : List (Act ConfigJob ConfigEnv))
    (hacts : Along configSystem.step (Meets Visible) (ConfigPool.initial db) acts) :
    let w := acts.foldl configSystem.step (ConfigPool.initial db)
    ConfigsKept w.state w.ghost := by
  have hstart : configLaw.PoolOk (ConfigPool.initial db) := ⟨⟨hdb, rfl⟩, List.forall_mem_nil _⟩
  exact ConfigInv.kept (Law.poolOk_run configLaw_keeps hstart hacts).1.inv

/-! ## An event in PreparingFix -/

/-- A competition event of two hours without a configuration. -/
def twoHoursDb : ConfigDb where
  core := eventDb
  events := [⟨10, .awdp, 0, some 7200000000⟩]
  configs := []

/-- A patch of the break and the fix. -/
def fixPatch (fixDurationSecs : Int) : AwdpConfigPatch :=
  ⟨some 100, none, some fixDurationSecs, none, none, none⟩

/-- The configuration is created and updated once. -/
def configureActs : List (Act ConfigJob ConfigEnv) :=
  [.spawn (.ensure 10 .default), .step 0 true, .step 0 true, .step 0 true,
    .spawn (.update 10 (fixPatch 1900)), .step 1 true]

/-- The event is started by hand, a tick ends its Break, and the configuration is updated. -/
def preparingUpdateActs : List (Act ConfigJob ConfigEnv) :=
  configureActs ++ .spawn (.lifecycle (.adminStart 10)) :: List.replicate 10 (.step 2 true) ++
    [.env (.runs (.advance 7200)), .spawn (.lifecycle (.tick []))] ++
    List.replicate 10 (.step 3 true) ++ [.spawn (.update 10 (fixPatch 3600)), .step 4 true]

/-- An event in PreparingFix gets another configuration. -/
theorem configsKept_not_preparing :
    let w := preparingUpdateActs.foldl configSystem.step (ConfigPool.initial twoHoursDb)
    w.state.core.runs.map (·.phase) = [.preparingFix] ∧
      w.state.core.runs.map (·.config.fixDurationSecs) = [1800] ∧
      w.state.configs.map (·.config.fixDurationSecs) = [3600] ∧
      ¬ ConfigsKept w.state w.ghost :=
  ⟨by decide +kernel, by decide +kernel, by decide +kernel,
    fun h => absurd h.right (by decide +kernel)⟩

/-- The two configurations before the start, and an update that is refused in the Break. -/
theorem configsKept_configured :
    let acts := configureActs ++ .spawn (.lifecycle (.adminStart 10)) ::
      List.replicate 10 (.step 2 true) ++ [.spawn (.update 10 (fixPatch 3600)), .step 3 true]
    let w := acts.foldl configSystem.step (ConfigPool.initial twoHoursDb)
    w.state.core.runs.map (·.phase) = [.break] ∧
      w.state.configs.map (fun r => (r.config.breakDurationSecs, r.config.fixDurationSecs)) =
        [(5400, 1800)] ∧
      ConfigsKept w.state w.ghost :=
  ⟨by decide +kernel, by decide +kernel,
    configsKept_run twoHoursDb (List.forall_mem_nil _) _ (by decide +kernel)⟩

end FloatCtf.Awdp
