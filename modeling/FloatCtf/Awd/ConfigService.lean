import FloatCtf.Awd.JudgeApi

/-!
# The configuration of an event

`config_service::update_event_config`, the endpoints that add, change and remove the game boxes of an
event, and `event_repo::touch_configuration`, which counts the changes of the configuration in
`configuration_generation`.

`update_event_config` is one transaction on the locked event row.  An edit of a game box is a
statement of its own, and the generation is read and written by two more.

The version that a client has read (`expected_updated_at`) can only refuse an update, which a failing
statement does as well, and is left out with the scheduler rows of the planned start.
-/

namespace FloatCtf.Awd

open Process

/-! ## `update_event_config` -/

/-- The name of a field in a message. -/
def fieldLabel : String → String
  | "round_count" => "回合数"
  | "round_duration_secs" => "单回合时长（秒）"
  | "initial_score" => "初始分数"
  | "free_reset_count" => "免费重置次数"
  | "extra_reset_penalty" => "额外重置罚分"
  | "judge_max_concurrency" => "评测最大并发"
  | "judge_default_timeout_secs" => "评测默认超时（秒）"
  | "judge_retry_interval_secs" => "评测重试间隔（秒）"
  | "judge_grace_period_secs" => "评测宽限期（秒）"
  | "archive_retention_hours" => "归档保留时长（小时）"
  | other => other

/-- A value within its bounds, if it is given. -/
def validateRange (name : String) (value : Option Int) (min max : Int) : Except AwdError Unit :=
  if value.all fun v => min ≤ v ∧ v ≤ max then .ok ()
  else .error (.validation s!"{fieldLabel name}必须在 {min} 到 {max} 之间")

/-- The range of the two scores. -/
def validateScore (msg : String) (value : Option Int64) : Except AwdError Unit :=
  if value.all fun v => 0 ≤ v ∧ v ≤ 1000000000 then .ok () else .error (.validation msg)

/-- The checks of a patch on its own. -/
def AwdEventConfigPatch.validate (p : AwdEventConfigPatch) (now : Int) : Except AwdError Unit := do
  validateRange "round_count" p.roundCount 1 10000
  validateRange "round_duration_secs" p.roundDurationSecs 30 86400
  validateScore "初始分数必须在 0 到 1000000000 之间" p.initialScore
  validateRange "free_reset_count" p.freeResetCount 0 100
  validateScore "额外重置罚分必须在 0 到 1000000000 之间" p.extraResetPenalty
  validateRange "judge_max_concurrency" p.judgeMaxConcurrency 1 1000
  validateRange "judge_default_timeout_secs" p.judgeDefaultTimeoutSecs 1 3600
  validateRange "judge_retry_interval_secs" p.judgeRetryIntervalSecs 1 3600
  validateRange "judge_grace_period_secs" p.judgeGracePeriodSecs 0 3600
  validateRange "archive_retention_hours" p.archiveRetentionHours 1 87600
  if (p.plannedStartAt.getD none).any fun startAt => startAt ≤ now then
    .error (.validation "planned_start_at must be in the future")
  else .ok ()

/-- The patch gives the column another value. -/
def changes {α : Type} [DecidableEq α] (new : Option α) (current : α) : Bool :=
  new.any fun v => v ≠ current

/-- The patch changes what a running event depends on. -/
def AwdEventConfigPatch.runtimeChanged (p : AwdEventConfigPatch) (e : AwdEvent) : Bool :=
  changes (p.roundCount.map some) e.roundCount || changes p.roundDurationSecs e.roundDurationSecs ||
    changes p.initialScore e.initialScore || changes p.freeResetCount e.freeResetCount ||
    changes p.extraResetPenalty e.extraResetPenalty ||
    changes p.judgeMaxConcurrency e.judgeMaxConcurrency ||
    changes p.judgeDefaultTimeoutSecs e.judgeDefaultTimeoutSecs ||
    changes p.judgeRetryIntervalSecs e.judgeRetryIntervalSecs ||
    changes p.judgeGracePeriodSecs e.judgeGracePeriodSecs ||
    changes p.archiveRetentionHours e.archiveRetentionHours

/-- The states in which an event may be configured. -/
def assertConfigEditable : AwdEventStatus → Except AwdError Unit
  | .draft | .configuring | .deployed | .verified | .startBlocked | .deployFailed
  | .verificationFailed => .ok ()
  | other => .error (.invalidState s!"AWD configuration is locked in status {other.debug}")

/-- The update of the event row, with the generation and the verification if the runtime columns
change. -/
def AwdEventConfigPatch.apply (p : AwdEventConfigPatch) (runtimeChanged : Bool) (e : AwdEvent) :
    AwdEvent :=
  { e with
    configurationGeneration :=
      if runtimeChanged then e.configurationGeneration + 1 else e.configurationGeneration
    verifiedAt := if runtimeChanged then none else e.verifiedAt
    verifiedRevision := if runtimeChanged then none else e.verifiedRevision
    verifiedGeneration := if runtimeChanged then none else e.verifiedGeneration
    roundCount := (p.roundCount.map some).getD e.roundCount
    roundDurationSecs := p.roundDurationSecs.getD e.roundDurationSecs
    initialScore := p.initialScore.getD e.initialScore
    freeResetCount := p.freeResetCount.getD e.freeResetCount
    extraResetPenalty := p.extraResetPenalty.getD e.extraResetPenalty
    judgeMaxConcurrency := p.judgeMaxConcurrency.getD e.judgeMaxConcurrency
    judgeDefaultTimeoutSecs := p.judgeDefaultTimeoutSecs.getD e.judgeDefaultTimeoutSecs
    judgeRetryIntervalSecs := p.judgeRetryIntervalSecs.getD e.judgeRetryIntervalSecs
    judgeGracePeriodSecs := p.judgeGracePeriodSecs.getD e.judgeGracePeriodSecs
    archiveRetentionHours := p.archiveRetentionHours.getD e.archiveRetentionHours }

/-- The transaction of `update_event_config`. -/
def updateConfigTx (p : AwdEventConfigPatch) (db : Db) : Except AwdError (Db × Unit) := do
  assertConfigEditable db.event.status
  if (p.plannedStartAt.getD none).any fun startAt => db.generic.endTime.any (· ≤ startAt) then
    .error (.validation "planned_start_at must be before the event end_time")
  else
    let runtimeChanged := p.runtimeChanged db.event
    let enterConfiguring := db.event.status = .draft ∨ runtimeChanged
    let (db, _) ← if enterConfiguring ∧ db.event.status ≠ .configuring then
        transitionRow db.event.status .configuring .configChanged db
      else .ok (db, ())
    if runtimeChanged ∨ p.plannedStartAt.isSome then
      .ok ({ db with event := p.apply runtimeChanged db.event }, ())
    else .ok (db, ())

/-- `update_event_config`: checks the patch, writes it and reads the event back. -/
def updateEventConfig (p : AwdEventConfigPatch) : AwdM AwdEvent := do
  let now ← utcNow
  match p.validate now with
  | .error e => .fail e
  | .ok () =>
    Prog.exec (.updateConfig p) dbError (updateConfigTx p)
    select (·.event)

theorem getD_of_not_changes {α : Type} [DecidableEq α] {new : Option α} {current : α}
    (h : changes new current = false) : new.getD current = current := by
  cases new with
  | none => rfl
  | some v => simpa [changes] using h

/-- A patch that changes no runtime column leaves them all. -/
theorem configured_apply {p : AwdEventConfigPatch} {e : AwdEvent} (h : p.runtimeChanged e = false)
    (c : Bool) (gs : List EventGamebox) : (p.apply c e).configured gs = e.configured gs := by
  simp only [AwdEventConfigPatch.runtimeChanged, Bool.or_eq_false_iff] at h
  simp only [AwdEvent.configured, AwdEventConfigPatch.apply, Configuration.mk.injEq, and_true]
  refine ⟨?_, ?_, ?_, ?_, ?_, ?_, ?_, ?_, ?_, ?_⟩ <;> apply getD_of_not_changes <;> simp_all

/-- A change of the runtime columns takes the event back to `Configuring`, without a verification and
under the next generation; any other update leaves them all, and the verification unless it leaves
the draft. -/
theorem updateConfigTx_ok {p : AwdEventConfigPatch} {db db' : Db} {a : Unit}
    (h : updateConfigTx p db = .ok (db', a)) :
    db'.gameboxes = db.gameboxes ∧
      ((p.runtimeChanged db.event = true ∧ db'.event.status = .configuring ∧
          db'.event.verifiedGeneration = none ∧
          db'.event.configurationGeneration = db.event.configurationGeneration + 1) ∨
        (p.runtimeChanged db.event = false ∧ db'.configuration = db.configuration ∧
          db'.event.configurationGeneration = db.event.configurationGeneration ∧
          (db'.event.status = .configuring ∧ db'.event.verifiedGeneration = none ∨
            db'.event.status = db.event.status ∧
              db'.event.verifiedGeneration = db.event.verifiedGeneration))) := by
  obtain ⟨-, -, h⟩ := except_bind_ok h
  dsimp only at h
  split_ifs at h with hplanned henter hwrite hwrite
  -- the event leaves its status for `Configuring`
  · obtain ⟨⟨db₁, _⟩, ht, h⟩ := except_bind_ok h
    obtain ⟨rfl, -, -⟩ := transitionRow_ok ht
    cases h
    refine ⟨rfl, ?_⟩
    cases hc : p.runtimeChanged db.event with
    | true => exact .inl ⟨rfl, rfl, rfl, rfl⟩
    | false => exact .inr ⟨rfl, configured_apply (e := db.event) hc false _, rfl, .inl ⟨rfl, rfl⟩⟩
  · obtain ⟨⟨db₁, _⟩, ht, h⟩ := except_bind_ok h
    obtain ⟨rfl, -, -⟩ := transitionRow_ok ht
    cases h
    rw [not_or] at hwrite
    exact ⟨rfl, .inr ⟨by simpa using hwrite.1, rfl, rfl, .inl ⟨rfl, rfl⟩⟩⟩
  · cases h
    refine ⟨rfl, ?_⟩
    cases hc : p.runtimeChanged db.event with
    | true =>
      have hs : db.event.status = .configuring := by
        by_contra hne
        exact henter ⟨.inr hc, hne⟩
      exact .inl ⟨rfl, hs, rfl, rfl⟩
    | false => exact .inr ⟨rfl, configured_apply hc false _, rfl, .inr ⟨rfl, rfl⟩⟩
  · cases h
    rw [not_or] at hwrite
    exact ⟨rfl, .inr ⟨by simpa using hwrite.1, rfl, rfl, .inr ⟨rfl, rfl⟩⟩⟩

/-! ## `touch_configuration` -/

/-- The event with the next generation of its configuration. -/
def AwdEvent.touched (seen : Int) (e : AwdEvent) : AwdEvent :=
  { e with configurationGeneration := seen + 1 }

/-- `edited` says whether the caller has edited a game box; the source does not tell the two
apart. -/
def touchConfiguration (edited : Bool) : AwdM Unit := do
  let event ← select (·.event)
  write (.touchConfiguration edited event.configurationGeneration) fun db =>
    { db with event := db.event.touched event.configurationGeneration }

/-! ## Game boxes of the event -/

/-- The gamebox behind a patch. -/
def EventGameboxPatch.apply (p : EventGameboxPatch) (g : EventGamebox) : EventGamebox :=
  { g with
    enabled := p.enabled.getD g.enabled
    hidden := p.hidden.getD g.hidden
    cpuMillis := p.cpuMillis.getD g.cpuMillis
    memoryBytes := p.memoryBytes.getD g.memoryBytes
    pidsLimit := p.pidsLimit.getD g.pidsLimit
    judgeTimeoutSecs := p.judgeTimeoutSecs.getD g.judgeTimeoutSecs
    judgeRetryIntervalSecs := p.judgeRetryIntervalSecs.getD g.judgeRetryIntervalSecs
    attackScore := p.attackScore.getD g.attackScore
    judgeDownPenalty := p.judgeDownPenalty.getD g.judgeDownPenalty
    firstBonus := p.firstBonus.getD g.firstBonus }

/-- The write of an edit.  An insert answers for the unique keys `(event_id, gamebox_id)` and
`(event_id, host_offset)`, and a delete for the instances that refer to the row. -/
def GameboxEdit.write (edit : GameboxEdit) (db : Db) : Except AwdError (Db × Unit) :=
  match edit with
  | add row =>
    if db.gameboxes.any fun g => g.gameboxId = row.gameboxId ∨ g.hostOffset = row.hostOffset then
      .error (.database "duplicate key value violates unique constraint")
    else .ok ({ db with
      gameboxes := db.gameboxes ++ [{ row with id := db.nextId }], nextId := db.nextId + 1 }, ())
  | update id patch =>
    if db.gameboxes.any (·.id = id) then
      .ok ({ db with
        gameboxes := db.gameboxes.map fun g => if g.id = id then patch.apply g else g }, ())
    else .error (.database "None of the records are updated")
  | delete id =>
    if db.instances.any (·.eventGameboxId = id) then
      .error (.database "update or delete on table violates foreign key constraint")
    else .ok ({ db with gameboxes := db.gameboxes.filter (·.id ≠ id) }, ())

/-- One edit of the gameboxes. -/
def editGamebox (edit : GameboxEdit) : AwdM Unit :=
  Prog.exec (.editGamebox edit) dbError edit.write

/-- The body of a request that adds a gamebox. -/
structure AddEventGameboxRequest where
  gameboxId : Nat
  hostOffset : Option Int := none
  hidden : Bool := false
  attackScore : Int64 := 100
  judgeDownPenalty : Int64 := 200
  firstBonus : Int64 := 20
  deriving DecidableEq

/-- The row that is inserted, with the recommendations of the library for its resources. -/
def AddEventGameboxRequest.row (req : AddEventGameboxRequest) (gb : LibraryGamebox)
    (hostOffset : Int) : EventGamebox :=
  { id := 0, attackScore := req.attackScore, judgeDownPenalty := req.judgeDownPenalty
    firstBonus := req.firstBonus, specReady := true, gameboxId := gb.id, hostOffset
    enabled := true, hidden := req.hidden, cpuMillis := gb.recommendedCpuMillis
    memoryBytes := gb.recommendedMemoryBytes, pidsLimit := gb.recommendedPidsLimit
    judgeTimeoutSecs := gb.judgeTimeoutSecs
    judgeRetryIntervalSecs := gb.judgeRetryIntervalSecs }

/-- The `Debug` format of an optional text. -/
def debugText : Option String → String
  | none => "None"
  | some s => "Some(\"" ++ s ++ "\")"

/-- The first free one of the offsets `2..=254`. -/
def freeOffset (used : List Int) : Option Int :=
  ((List.range 253).map fun n => (n : Int) + 2).find? fun o => o ∉ used

/-- The host offset of a new game box: the one asked for, or the first free one. -/
def chooseOffset : Option Int → AwdM Int
  | some o =>
    if 2 ≤ o ∧ o ≤ 254 then pure o else .fail (.validation "host_offset 必须在 2..254")
  | none => do
    let used ← select fun db => db.gameboxes.map (·.hostOffset)
    match freeOffset used with
    | some o => pure o
    | none => .fail (.conflict "该赛事已无可用主机编号（2..254 已用尽）")

/-- `add_event_gamebox`: a gamebox whose image is ready. -/
def addEventGamebox (req : AddEventGameboxRequest) : AwdM Unit := do
  let found ← select fun db => db.library.find? (·.id = req.gameboxId)
  let gb ← orNotFound "未找到该靶机" found
  if gb.buildStatus ≠ some "ready" then
    .fail (.validation (s!"GameBox '{gb.name}' has no ready package; " ++
      s!"import a package first (status={debugText gb.buildStatus})"))
  else
    let selected ← select fun db => db.gameboxes.any (·.gameboxId = gb.id)
    if selected then .fail (.conflict s!"GameBox already selected for this event: {gb.name}")
    else
      let hostOffset ← chooseOffset req.hostOffset
      editGamebox (.add (req.row gb hostOffset))
      touchConfiguration true

/-- `event_gamebox_repo::update_event_gamebox`, which says whether there was a row to edit. -/
def patchGamebox (id : Nat) (patch : EventGameboxPatch) : AwdM Bool := do
  let current ← select fun db => db.gameboxes.find? (·.id = id)
  match current with
  | some _ =>
    editGamebox (.update id patch)
    pure true
  | none => pure false

/-- The bump that follows; under the path of another event it goes to that event. -/
def touchPath (ownPath edited : Bool) : AwdM Unit :=
  if ownPath then touchConfiguration edited else pure ()

/-- The endpoint does not compare the event of its path with the event of the row: under the path of
another event it edits the row and touches the configuration of the other event. -/
def updateEventGamebox (ownPath : Bool) (id : Nat) (patch : EventGameboxPatch) : AwdM Unit := do
  let edited ← patchGamebox id patch
  touchPath ownPath edited
  let row ← select fun db => db.gameboxes.find? fun g => ownPath ∧ g.id = id
  let _ ← orNotFound "未找到该赛事靶机" row

/-- `delete_event_gamebox`: a gamebox without instances. -/
def deleteEventGamebox (id : Nat) : AwdM Unit := do
  let found ← select fun db => db.gameboxes.find? (·.id = id)
  match found with
  | none => pure ()
  | some eg =>
    let instances ← select fun db => db.instances.countP (·.eventGameboxId = eg.id)
    if instances > 0 then
      .fail (.conflict "EventGameBox 已有实例，禁止移除（先处理实例或视为 destructive 重配置）")
    else
      editGamebox (.delete id)
      touchConfiguration true

end FloatCtf.Awd
