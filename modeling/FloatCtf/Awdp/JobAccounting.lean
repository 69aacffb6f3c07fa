import FloatCtf.Awdp.PullLoop

/-!
# What a JudgeServer owes for its jobs

`Accounted` says of a state that no more jobs are claimed than the semaphore has permits, that the
jobs in flight are counted, that the loop has asked for what was free, and that results were resent
as often as they had to be.

The free capacity counts a running job twice and a job that has not begun not at all, an output
that is cut inside a character ends a job without counting it off, and an answer of 500 and more is
not retried.  `accounted_iff` says exactly which steps go wrong because of it.
-/

namespace FloatCtf.Awdp.PullLoop

open JudgeServer Process

/-! ## The property -/

/-- After these answers a result is not sent again. -/
def Settled : Answer → Prop
  | .http status => 200 ≤ status ∧ status < 300 ∨ 400 ≤ status ∧ status < 500
  | .network => False

/-- After these answers it is. -/
def Retry : Answer → Prop
  | .http status => 500 ≤ status ∧ status < 600
  | .network => True

/-- The requests that a task has made for its result. -/
def Task.requests (t : Task) : Nat :=
  match t.stage with
  | .posting _ _ => t.answers.length + 1
  | _ => t.answers.length

/-- The answers that were followed by another request. -/
def Task.retried (t : Task) : List Answer :=
  match t.stage with
  | .posting _ _ => t.answers
  | _ => t.answers.dropLast

/-- A task posts no more often than it should, and a result that is settled is not posted again. -/
structure Delivers (t : Task) : Prop where
  few : t.requests ≤ maxRequests
  settled : ∀ a ∈ t.retried, ¬ Settled a
  retry : t.stage = .ended → ∀ a ∈ t.answers.getLast?, Retry a → t.requests = maxRequests

/-- What is claimed of the loop: its counts are right, no task has died, and each result is
delivered. -/
structure Accounted (c : AppState) (s : State) : Prop where
  room : s.unfinished ≤ c.size
  inflight : s.inflight = s.begun
  alive : ∀ t ∈ s.tasks, t.stage ≠ .panicked
  asks : ∀ n ask, (n, ask) ∈ s.asked → 0 < min c.claimBatch (c.size - n) →
    ask = some (min c.claimBatch (c.size - n))
  delivers : ∀ t ∈ s.tasks, Delivers t

/-! ## The condition -/

/-- An output that is not shown, or can be cut at the limit. -/
def Showable (s : String) : Prop := Text.trim s = "" ∨ Text.Cuts 4096 s

/-- The outputs of a script that has exited can be shown. -/
def Shows (b : Behaviour) : Prop :=
  ∀ code stdout stderr, b = .exited code stdout stderr →
    Showable (Text.decodeLossy stdout) ∧ Showable (Text.decodeLossy stderr)

/-- The outputs of the scripts that a job runs can be shown. -/
def ShowsAll (fromStr : FromStr) (job : Job) (o : Observation) : Prop :=
  ∀ ip, job.targetIp = some ip → healthcheckAll o.probe job.healthchecks = true →
    job.judgeScript.isSome → Shows o.judge ∧
      (JudgeServer.Readable fromStr o.judge → reads ip (scriptRows fromStr o.judge) = true →
        RunsExploit job → job.exploitScript.isSome → Shows o.exploit)

/-- The loop asks for what is free although it counts the jobs that have begun twice and the others
not at all. -/
def AsksRight (c : AppState) (begun unfinished : Nat) : Prop :=
  0 < min c.claimBatch (c.size - unfinished) →
    min c.claimBatch (c.size - 2 * begun) = min c.claimBatch (c.size - unfinished)

/-- A step that keeps clear of the defects. -/
def Fits (c : AppState) (fromStr : FromStr) (s : State) : Act → Prop
  | .wake => s.loop = .sleeping → AsksRight c s.begun s.unfinished
  | .claimed jobs => ∀ n, s.loop = .asking n → 0 < jobs.length → jobs.length ≤ n →
      s.unfinished + jobs.length ≤ c.size ∧ AsksRight c s.begun (s.unfinished + jobs.length)
  | .claimFailed | .poll _ => True
  | .ran i o => ∀ t, s.tasks[i]? = some t → t.stage = .running →
      ShowsAll fromStr t.job.payload o
  | .answered i answer => ∀ t request attempt, s.tasks[i]? = some t →
      t.stage = .posting request attempt → (∃ status, answer = .http status ∧ Retry answer) →
        attempt = maxRequests

/-! ## When a job panics -/

theorem shown_ne_none_iff {s : String} : shown s ≠ none ↔ Showable s := by
  unfold shown Showable
  split
  · rename_i h
    simp [h]
  · rename_i h
    rw [or_iff_right h, ← @Text.truncate_ne_none_iff fun n => s!"... (truncated, {n} bytes total)"]
    exact not_congr Option.map_eq_none_iff

/-- The outputs of a script can be cut exactly when each is short or can be cut at the limit. -/
theorem shown_iff_shows {b : Behaviour} : JudgeServer.Shown b ↔ Shows b := by
  unfold JudgeServer.Shown Shows
  simp only [shown_ne_none_iff]

theorem runExploit_eq_panicked_iff {fromStr : FromStr} {job : Job} {ip detail : String}
    {o : Observation} : JudgeServer.runExploit fromStr job ip detail o = .panicked ↔
      job.exploitScript.isSome ∧ ¬ Shows o.exploit := by
  unfold JudgeServer.runExploit
  cases job.exploitScript with
  | none => simp
  | some script =>
    simp only [Option.isSome_some, true_and]
    rw [← shown_iff_shows,
      ← @JudgeServer.hear_eq_panicked_iff fromStr "exploit" (fun _ => "exploit executed") ip]
    rcases hear fromStr "exploit" _ ip o.exploit with e | _ | ⟨_ | _, d, out, err⟩ <;> simp

/-- A judge that lets the target pass is one whose rows are read so. -/
theorem hear_answer_true_iff {fromStr : FromStr} {name : String} {said : Bool → String}
    {ip : String} {b : Behaviour} : (hear fromStr name said ip b).answer = some true ↔
      JudgeServer.Readable fromStr b ∧ reads ip (scriptRows fromStr b) = true := by
  rw [hear_answer, serverHears_eq_some_iff, eq_comm (a := true)]

theorem runJob_eq_panicked_iff {fromStr : FromStr} {job : Job} {o : Observation} :
    runJob fromStr job o = .panicked ↔ ¬ ShowsAll fromStr job o := by
  unfold runJob ShowsAll
  cases job.targetIp with
  | none => simp
  | some ip =>
    simp only [Option.some.injEq, forall_eq']
    cases healthcheckAll o.probe job.healthchecks with
    | false => simp
    | true =>
      simp only [if_true, true_imp_iff]
      unfold JudgeServer.runJudge
      cases job.judgeScript with
      | none => simp
      | some script =>
        simp only [Option.isSome_some, true_imp_iff]
        have hpanic := @JudgeServer.hear_eq_panicked_iff fromStr "judge"
          (fun ok => "judge: " ++ if ok then "PASS" else "FAIL") ip o.judge
        have htrue := @hear_answer_true_iff fromStr "judge"
          (fun ok => "judge: " ++ if ok then "PASS" else "FAIL") ip o.judge
        rw [shown_iff_shows] at hpanic
        rw [← and_imp, ← htrue]
        revert hpanic
        rcases hear fromStr "judge" _ ip o.judge with e | _ | ⟨_ | _, d, out, err⟩
        · intro hpanic
          have hs : Shows o.judge := by simpa using hpanic
          simp [hs, Said.answer]
        · intro hpanic
          have hs : ¬ Shows o.judge := by simpa using hpanic
          simp [hs]
        · intro hpanic
          have hs : Shows o.judge := by simpa using hpanic
          simp [hs, Said.answer]
        · intro hpanic
          have hs : Shows o.judge := by simpa using hpanic
          simp only [hs, Said.answer, true_and, true_imp_iff]
          by_cases hrun : RunsExploit job
          · rw [if_pos (show _ ∨ _ from hrun), runExploit_eq_panicked_iff]
            simp [hrun]
          · rw [if_neg (show ¬ (_ ∨ _) from hrun)]
            simp [hrun]

/-! ## The invariant -/

/-- A task of a run without a defect. -/
def Task.Calm (t : Task) : Prop :=
  match t.stage with
  | .spawned | .running => t.answers = []
  | .posting _ attempt =>
    t.answers.length + 1 = attempt ∧ attempt ≤ maxRequests ∧ ∀ a ∈ t.answers, a = .network
  | .ended => True
  | .queued | .granted | .panicked => False

/-- Every claimed job finds a permit, so nothing waits for one. -/
structure Inv (c : AppState) (s : State) : Prop where
  accounted : Accounted c s
  queue : s.queue = []
  permits : s.permits + s.begun = c.size
  calm : ∀ t ∈ s.tasks, t.Calm

theorem countP_set_add {p : Task → Bool} {l : List Task} {i : Nat} {t t' : Task}
    (h : l[i]? = some t) : (l.set i t').countP p + (if p t then 1 else 0) =
      l.countP p + if p t' then 1 else 0 := by
  obtain ⟨hi, rfl⟩ := List.getElem?_eq_some_iff.1 h
  have hpos : p l[i] = true → 0 < l.countP p := fun hp =>
    List.countP_pos_iff.2 ⟨l[i], List.getElem_mem hi, hp⟩
  rw [List.countP_set hi]
  split_ifs with h₁ h₂ <;> simp_all

/-- The counts after the stage of a task has changed. -/
theorem begun_setStage {s : State} {i : Nat} {t t' : Task} {stage : Stage}
    (h : s.tasks[i]? = some t) : (s.setStage i t' stage).begun + (if t.isBegun then 1 else 0) =
      s.begun + if ({ t' with stage } : Task).isBegun then 1 else 0 :=
  countP_set_add h

theorem unfinished_setStage {s : State} {i : Nat} {t t' : Task} {stage : Stage}
    (h : s.tasks[i]? = some t) :
    (s.setStage i t' stage).unfinished + (if t.isUnfinished then 1 else 0) =
      s.unfinished + if ({ t' with stage } : Task).isUnfinished then 1 else 0 :=
  countP_set_add h

theorem mem_setStage {s : State} {i : Nat} {t t' : Task} {stage : Stage}
    (h : t' ∈ (s.setStage i t stage).tasks) : t' ∈ s.tasks ∨ t' = { t with stage } :=
  List.mem_or_eq_of_mem_set h

theorem begun_le_unfinished (l : List Task) :
    l.countP Task.isBegun ≤ l.countP Task.isUnfinished :=
  List.countP_mono_left fun t _ hbegun => by
    unfold Task.isBegun at hbegun
    unfold Task.isUnfinished
    split at hbegun <;> simp_all

/-- A task that has not begun is unfinished beside those that have. -/
theorem begun_lt_unfinished {s : State} {i : Nat} {t : Task} (h : s.tasks[i]? = some t)
    (hstage : t.stage = .spawned) : s.begun < s.unfinished := by
  have hle := begun_le_unfinished (s.setStage i t .ended).tasks
  have hb := @begun_setStage _ _ _ t .ended h
  have hu := @unfinished_setStage _ _ _ t .ended h
  simp only [Task.isBegun, Task.isUnfinished, hstage, State.begun, State.unfinished] at hb hu
  simp only [Bool.false_eq_true, if_false, if_true] at hb hu
  simp only [State.begun, State.unfinished]
  omega

theorem inv_start (c : AppState) : Inv c (start c) where
  accounted := ⟨Nat.zero_le _, rfl, by simp [start], by simp [start], by simp [start]⟩
  queue := rfl
  permits := rfl
  calm := by simp [start]

/-! ## The loop -/

theorem begun_append (l : List Task) (jobs : List ClaimedJob) :
    (l ++ jobs.map Task.spawn).countP Task.isBegun = l.countP Task.isBegun := by
  have hnone : ∀ t ∈ jobs.map Task.spawn, ¬ t.isBegun = true := by
    simp [Task.spawn, Task.isBegun]
  rw [List.countP_append, List.countP_eq_zero.2 hnone, Nat.add_zero]

theorem unfinished_append (l : List Task) (jobs : List ClaimedJob) :
    (l ++ jobs.map Task.spawn).countP Task.isUnfinished =
      l.countP Task.isUnfinished + jobs.length := by
  have hall : ∀ t ∈ jobs.map Task.spawn, t.isUnfinished = true := by
    simp [Task.spawn, Task.isUnfinished]
  rw [List.countP_append, List.countP_eq_length.2 hall, List.length_map]

theorem delivers_spawn (job : ClaimedJob) : Delivers (Task.spawn job) where
  few := Nat.zero_le _
  settled := by simp [Task.spawn, Task.retried]
  retry := by simp [Task.spawn]

/-- What an iteration asks for is right exactly when the two ways to count come to the same. -/
theorem asks_iff {c : AppState} {begun unfinished : Nat} :
    (0 < min c.claimBatch (c.size - unfinished) →
      (if 0 < c.size - begun - begun then some (min (c.size - begun - begun) c.claimBatch)
        else none) = some (min c.claimBatch (c.size - unfinished))) ↔
      AsksRight c begun unfinished := by
  unfold AsksRight
  refine imp_congr_right fun hpos => ?_
  rw [show c.size - 2 * begun = c.size - begun - begun by omega, Nat.min_comm _ c.claimBatch]
  split_ifs with h
  · rw [Option.some_inj]
  · refine ⟨fun h' => by simp at h', fun h' => ?_⟩
    omega

/-- An iteration after an answer with these jobs, or with none at a new start of the loop. -/
theorem accounted_iterate_iff {c : AppState} {s : State} (h : Inv c s) (jobs : List ClaimedJob) :
    Accounted c (iterate c { s with tasks := s.tasks ++ jobs.map Task.spawn }) ↔
      s.unfinished + jobs.length ≤ c.size ∧
        AsksRight c s.begun (s.unfinished + jobs.length) := by
  have hu : State.unfinished { s with tasks := s.tasks ++ jobs.map Task.spawn } =
      s.unfinished + jobs.length := unfinished_append s.tasks jobs
  have hfree : s.permits - s.inflight = c.size - s.begun - s.begun := by
    rw [h.accounted.inflight, ← h.permits, Nat.add_sub_cancel]
  rw [← asks_iff, ← hfree]
  constructor
  · intro hacc
    refine ⟨hu ▸ hacc.room, hacc.asks _ _ ?_⟩
    simp [iterate, hu]
  · rintro ⟨hroom, hasks⟩
    refine ⟨hu.trans_le hroom, ?_, ?_, ?_, ?_⟩
    · exact h.accounted.inflight.trans (begun_append s.tasks jobs).symm
    · intro t ht
      obtain ht | ht := List.mem_append.1 ht
      · exact h.accounted.alive t ht
      · obtain ⟨job, -, rfl⟩ := List.mem_map.1 ht
        simp [Task.spawn]
    · intro n ask hmem
      simp only [iterate, hu] at hmem
      obtain hmem | hmem := List.mem_append.1 hmem
      · exact h.accounted.asks n ask hmem
      · rw [List.mem_singleton, Prod.mk.injEq] at hmem
        obtain ⟨rfl, rfl⟩ := hmem
        exact hasks
    · intro t ht
      obtain ht | ht := List.mem_append.1 ht
      · exact h.accounted.delivers t ht
      · obtain ⟨job, -, rfl⟩ := List.mem_map.1 ht
        exact delivers_spawn job

theorem inv_iterate {c : AppState} {s : State} (h : Inv c s) {jobs : List ClaimedJob}
    (hacc : Accounted c (iterate c { s with tasks := s.tasks ++ jobs.map Task.spawn })) :
    Inv c (iterate c { s with tasks := s.tasks ++ jobs.map Task.spawn }) where
  accounted := hacc
  queue := h.queue
  permits := by
    rw [← h.permits]
    exact congrArg (s.permits + ·) (begun_append s.tasks jobs)
  calm := by
    intro t ht
    obtain ht | ht := List.mem_append.1 ht
    · exact h.calm t ht
    · obtain ⟨job, -, rfl⟩ := List.mem_map.1 ht
      rfl

/-! ## The tasks -/

theorem Delivers.of_calm {t : Task} (h : t.Calm) (hstage : t.stage ≠ .ended) : Delivers t := by
  have hretry : t.stage = .ended → ∀ a ∈ t.answers.getLast?, Retry a → t.requests = maxRequests :=
    fun he => absurd he hstage
  unfold Task.Calm at h
  cases hs : t.stage with
  | spawned | running =>
    simp only [hs] at h
    exact ⟨by simp [Task.requests, hs, h], by simp [Task.retried, hs, h], hretry⟩
  | posting request attempt =>
    simp only [hs] at h
    obtain ⟨hlen, hle, hnet⟩ := h
    refine ⟨by simp only [Task.requests, hs]; omega, fun a ha => ?_, hretry⟩
    simp only [Task.retried, hs] at ha
    rw [hnet a ha]
    exact id
  | ended => exact absurd hs hstage
  | queued | granted | panicked => simp [hs] at h

theorem Task.Calm.alive {t : Task} (h : t.Calm) : t.stage ≠ .panicked := by
  intro hs
  simp [Task.Calm, hs] at h

/-- A task that goes on: the counters move with it. -/
theorem inv_setStage {c : AppState} {s : State} (h : Inv c s) {i : Nat} {t t' : Task}
    {stage : Stage} (hi : s.tasks[i]? = some t) {permits inflight : Nat}
    (hpermits : permits + (if ({ t' with stage } : Task).isBegun then 1 else 0) =
      s.permits + if t.isBegun then 1 else 0)
    (hinflight : inflight + (if t.isBegun then 1 else 0) =
      s.inflight + if ({ t' with stage } : Task).isBegun then 1 else 0)
    (hunfinished : ({ t' with stage } : Task).isUnfinished = true → t.isUnfinished = true)
    (hcalm : ({ t' with stage } : Task).Calm) (hdelivers : Delivers { t' with stage }) :
    Inv c { s.setStage i t' stage with permits, inflight } := by
  have hb := @begun_setStage _ _ _ t' stage hi
  have hu := @unfinished_setStage _ _ _ t' stage hi
  have hacc := h.accounted
  refine ⟨⟨?_, ?_, ?_, hacc.asks, ?_⟩, h.queue, ?_, ?_⟩
  · have hroom := hacc.room
    have hle : (if ({ t' with stage } : Task).isUnfinished then 1 else 0) ≤
        if t.isUnfinished then 1 else 0 := by
      split_ifs with h₁ h₂
      · exact le_rfl
      · exact absurd (hunfinished h₁) h₂
      all_goals exact Nat.zero_le _
    exact show (s.setStage i t' stage).unfinished ≤ c.size by omega
  · have := hacc.inflight
    exact show inflight = (s.setStage i t' stage).begun by omega
  · intro x hx
    obtain hx | rfl := mem_setStage hx
    · exact hacc.alive x hx
    · exact hcalm.alive
  · intro x hx
    obtain hx | rfl := mem_setStage hx
    · exact hacc.delivers x hx
    · exact hdelivers
  · have := h.permits
    exact show permits + (s.setStage i t' stage).begun = c.size by omega
  · intro x hx
    obtain hx | rfl := mem_setStage hx
    · exact h.calm x hx
    · exact hcalm

/-- There is a permit for every task that is spawned. -/
theorem inv_poll {c : AppState} {s : State} (h : Inv c s) (i : Nat) : Inv c (poll i s) := by
  unfold poll
  cases hi : s.tasks[i]? with
  | none => exact h
  | some t =>
    have hcalm := h.calm t (List.mem_of_getElem? hi)
    dsimp only
    cases hs : t.stage with
    | spawned =>
      have hlt := begun_lt_unfinished hi hs
      have hroom := h.accounted.room
      have hpermits := h.permits
      have hpos : 0 < s.permits := by omega
      have hrunning : ({ t with stage := .running } : Task).Calm := by
        simpa [Task.Calm, hs] using hcalm
      simp only [hpos, if_true]
      refine inv_setStage h hi ?_ ?_ (fun _ => ?_) hrunning (.of_calm hrunning (by simp))
      · simp only [Task.isBegun, hs, if_true, Bool.false_eq_true, if_false]
        exact Nat.sub_add_cancel hpos
      · simp [Task.isBegun, hs]
      · simp [Task.isUnfinished, hs]
    | granted => simp [Task.Calm, hs] at hcalm
    | _ => exact h

theorem release_setStage {s : State} (h : s.queue = []) (i : Nat) (t : Task) (stage : Stage) :
    release (s.setStage i t stage) =
      { s.setStage i t stage with permits := s.permits + 1 } := by
  simp [release, State.setStage, h]

theorem finish_eq {s : State} (h : s.queue = []) (i : Nat) (t : Task) :
    finish i t s = { s.setStage i t .ended with
      permits := s.permits + 1, inflight := s.inflight - 1 } := by
  simp [finish, release, State.setStage, h]

theorem fits_ran_iff {c : AppState} {fromStr : FromStr} {s : State} {i : Nat} {t : Task}
    (hi : s.tasks[i]? = some t) (o : Observation) : Fits c fromStr s (.ran i o) ↔
      (t.stage = .running → ShowsAll fromStr t.job.payload o) := by
  simp [Fits, hi]

/-- A job ends well exactly when its outputs can be shown. -/
theorem accounted_ran {c : AppState} {fromStr : FromStr} {s : State} (h : Inv c s) (i : Nat)
    (o : Observation) :
    (Accounted c (ran c fromStr i o s) ↔ Fits c fromStr s (.ran i o)) ∧
      (Fits c fromStr s (.ran i o) → Inv c (ran c fromStr i o s)) := by
  unfold ran
  cases hi : s.tasks[i]? with
  | none => exact ⟨iff_of_true h.accounted (by simp [Fits, hi]), fun _ => h⟩
  | some t =>
    dsimp only
    rw [fits_ran_iff hi]
    have hcalm := h.calm t (List.mem_of_getElem? hi)
    cases hs : t.stage with
    | running =>
      simp only [true_imp_iff]
      cases hr : resultRequest c t.job (runJob fromStr t.job.payload o) with
      | none =>
        have hpanic : runJob fromStr t.job.payload o = .panicked := by
          cases hrun : runJob fromStr t.job.payload o with
          | panicked => rfl
          | _ => simp [resultRequest, hrun] at hr
        have hbad := runJob_eq_panicked_iff.1 hpanic
        refine ⟨iff_of_false (fun hacc => ?_) hbad, fun hgood => absurd hgood hbad⟩
        have hmem : ({ t with stage := .panicked } : Task) ∈
            (release (s.setStage i t .panicked)).tasks := by
          obtain ⟨hlt, -⟩ := List.getElem?_eq_some_iff.1 hi
          rw [release_setStage h.queue]
          exact List.mem_set hlt _
        exact hacc.alive _ hmem rfl
      | some request =>
        have hgood : ShowsAll fromStr t.job.payload o := by
          by_contra hbad
          rw [runJob_eq_panicked_iff.2 hbad] at hr
          simp [resultRequest] at hr
        have hposting : ({ t with stage := .posting request 1 } : Task).Calm := by
          simp only [Task.Calm, hs] at hcalm
          simp [Task.Calm, hcalm, maxRequests]
        have hinv : Inv c (s.setStage i t (.posting request 1)) :=
          inv_setStage h hi (by simp [Task.isBegun, hs]) (by simp [Task.isBegun, hs])
            (fun _ => by simp [Task.isUnfinished, hs]) hposting (.of_calm hposting (by simp))
        exact ⟨iff_of_true hinv.accounted hgood, fun _ => hinv⟩
    | _ => exact ⟨iff_of_true h.accounted (by simp), fun _ => h⟩

theorem fits_answered_iff {c : AppState} {fromStr : FromStr} {s : State} {i : Nat} {t : Task}
    (hi : s.tasks[i]? = some t) {request : ResultRequest} {attempt : Nat}
    (hs : t.stage = .posting request attempt) (answer : Answer) :
    Fits c fromStr s (.answered i answer) ↔
      ((∃ status, answer = .http status ∧ Retry answer) → attempt = maxRequests) := by
  constructor
  · exact fun h => h t request attempt hi hs
  · intro h t' request' attempt' hi' hs'
    obtain rfl : t = t' := Option.some.inj (hi.symm.trans hi')
    cases hs.symm.trans hs'
    exact h

/-- A task that ends with this answer has delivered its result unless it should be sent again. -/
theorem delivers_ended_iff {t : Task} {request : ResultRequest} {attempt : Nat} (h : t.Calm)
    (hs : t.stage = .posting request attempt) (answer : Answer) :
    Delivers { t with answers := t.answers ++ [answer], stage := .ended } ↔
      (Retry answer → attempt = maxRequests) := by
  simp only [Task.Calm, hs] at h
  obtain ⟨hlen, hle, hnet⟩ := h
  have hrequests : ({ t with answers := t.answers ++ [answer], stage := .ended } : Task).requests =
      attempt := by
    simp [Task.requests, ← hlen]
  constructor
  · intro hd hr
    rw [← hrequests]
    exact hd.retry rfl answer (by simp) hr
  · intro hr
    refine ⟨hrequests.trans_le hle, fun a ha => ?_, fun _ a ha hretry => ?_⟩
    · rw [hnet a (by simpa [Task.retried] using ha)]
      exact id
    · obtain rfl : answer = a := by simpa using ha
      exact hrequests.trans (hr hretry)

/-- The end of a task that has counted itself gives everything back. -/
theorem inv_finish {c : AppState} {s : State} (h : Inv c s) {i : Nat} {t t' : Task}
    (hi : s.tasks[i]? = some t) (hb : t.isBegun = true)
    (hd : Delivers { t' with stage := .ended }) : Inv c (finish i t' s) := by
  have hpos : 0 < s.begun := List.countP_pos_iff.2 ⟨t, List.mem_of_getElem? hi, hb⟩
  have hin := h.accounted.inflight
  rw [finish_eq h.queue]
  have hnot : ({ t' with stage := .ended } : Task).isBegun = false := rfl
  refine inv_setStage h hi ?_ ?_ ?_ ?_ hd
  · simp [hnot, hb]
  · simp only [hnot, hb, if_true, Bool.false_eq_true, if_false]
    omega
  · simp [Task.isUnfinished]
  · trivial

theorem delivers_of_finish {c : AppState} {s : State} (hq : s.queue = []) {i : Nat} {t t' : Task}
    (hi : s.tasks[i]? = some t) (h : Accounted c (finish i t' s)) :
    Delivers { t' with stage := .ended } := by
  refine h.delivers _ ?_
  rw [finish_eq hq]
  exact List.mem_set (List.getElem?_eq_some_iff.1 hi).1 _

/-- An answer to a result is dealt with rightly unless it is a 5xx status that is not the last. -/
theorem accounted_answered {c : AppState} {fromStr : FromStr} {s : State} (h : Inv c s) (i : Nat)
    (answer : Answer) :
    (Accounted c (answered i answer s) ↔ Fits c fromStr s (.answered i answer)) ∧
      (Fits c fromStr s (.answered i answer) → Inv c (answered i answer s)) := by
  unfold answered
  cases hi : s.tasks[i]? with
  | none => exact ⟨iff_of_true h.accounted (by simp [Fits, hi]), fun _ => h⟩
  | some t =>
    dsimp only
    have hcalm := h.calm t (List.mem_of_getElem? hi)
    cases hs : t.stage with
    | posting request attempt =>
      rw [fits_answered_iff hi hs]
      have hb : t.isBegun = true := by simp [Task.isBegun, hs]
      have hended := delivers_ended_iff hcalm hs answer
      dsimp only
      cases answer with
      | http status =>
        have hcond : ((∃ n, Answer.http status = .http n ∧ Retry (.http status)) →
            attempt = maxRequests) ↔ (Retry (.http status) → attempt = maxRequests) := by simp
        rw [hcond, ← hended]
        have hinv := @inv_finish _ _ h _ _ { t with answers := t.answers ++ [.http status] } hi hb
        exact ⟨⟨delivers_of_finish h.queue hi, fun hd => (hinv hd).accounted⟩, hinv⟩
      | network =>
        have hcond : (∃ n, Answer.network = .http n ∧ Retry .network) → attempt = maxRequests := by
          simp
        have hinv : Inv c (if attempt < maxRequests then
            s.setStage i { t with answers := t.answers ++ [.network] }
              (.posting request (attempt + 1))
            else finish i { t with answers := t.answers ++ [.network] } s) := by
          simp only [Task.Calm, hs] at hcalm
          obtain ⟨hlen, hle, hnet⟩ := hcalm
          split_ifs with hlt
          · have hnext : ({ t with
                answers := t.answers ++ [.network]
                stage := .posting request (attempt + 1) } : Task).Calm := by
              refine ⟨by simp [hlen], hlt, ?_⟩
              rintro a ha
              obtain ha | ha := List.mem_append.1 ha
              · exact hnet a ha
              · exact List.mem_singleton.1 ha
            exact inv_setStage h hi (by simp [Task.isBegun, hs]) (by simp [Task.isBegun, hs])
              (fun _ => by simp [Task.isUnfinished, hs]) hnext (.of_calm hnext (by simp))
          · exact inv_finish h hi hb (hended.2 fun _ => by omega)
        exact ⟨iff_of_true hinv.accounted hcond, fun _ => hinv⟩
    | _ =>
      refine ⟨iff_of_true h.accounted fun t' request attempt hi' hs' => ?_, fun _ => h⟩
      obtain rfl : t = t' := Option.some.inj (hi.symm.trans hi')
      cases hs.symm.trans hs'

theorem inv_sleeping {c : AppState} {s : State} (h : Inv c s) :
    Inv c { s with loop := .sleeping } := by
  obtain ⟨⟨hroom, hin, halive, hasks, hdelivers⟩, hqueue, hpermits, hcalm⟩ := h
  exact ⟨⟨hroom, hin, halive, hasks, hdelivers⟩, hqueue, hpermits, hcalm⟩

/-! ## The theorem -/

theorem accounted_step {c : AppState} {fromStr : FromStr} {s : State} (h : Inv c s) (a : Act) :
    (Accounted c (step c fromStr s a) ↔ Fits c fromStr s a) ∧
      (Fits c fromStr s a → Inv c (step c fromStr s a)) := by
  cases a with
  | wake =>
    have hiter := accounted_iterate_iff h []
    have hinv := @inv_iterate c s h []
    simp only [List.map_nil, List.append_nil, List.length_nil, Nat.add_zero] at hiter hinv
    simp only [h.accounted.room, true_and] at hiter
    unfold step Fits
    cases hl : s.loop with
    | sleeping =>
      simp only [true_imp_iff]
      exact ⟨hiter, fun hasks => hinv (hiter.2 hasks)⟩
    | asking n => exact ⟨iff_of_true h.accounted (by simp), fun _ => h⟩
  | claimed jobs =>
    unfold step Fits claimed
    cases hl : s.loop with
    | sleeping => exact ⟨iff_of_true h.accounted (by simp), fun _ => h⟩
    | asking n =>
      dsimp only
      by_cases hmany : n < jobs.length
      · rw [if_pos hmany]
        exact ⟨iff_of_true h.accounted (by rintro _ ⟨⟩ _ hle; omega), fun _ => h⟩
      · rw [if_neg hmany]
        cases jobs with
        | nil =>
          have hinv := inv_sleeping h
          exact ⟨iff_of_true hinv.accounted (by simp), fun _ => hinv⟩
        | cons job jobs =>
          have hiter := accounted_iterate_iff h (job :: jobs)
          have hfits : (∀ n', Loop.asking n = .asking n' → 0 < (job :: jobs).length →
              (job :: jobs).length ≤ n' → s.unfinished + (job :: jobs).length ≤ c.size ∧
                AsksRight c s.begun (s.unfinished + (job :: jobs).length)) ↔
              s.unfinished + (job :: jobs).length ≤ c.size ∧
                AsksRight c s.begun (s.unfinished + (job :: jobs).length) := by
            refine ⟨fun hall => hall n rfl (by simp) (Nat.le_of_not_lt hmany), ?_⟩
            exact fun hall _ _ _ _ => hall
          rw [hfits, ← hiter]
          exact ⟨Iff.rfl, inv_iterate h⟩
  | claimFailed =>
    have hinv := inv_sleeping h
    exact ⟨iff_of_true hinv.accounted trivial, fun _ => hinv⟩
  | poll i => exact ⟨iff_of_true (inv_poll h i).accounted trivial, fun _ => inv_poll h i⟩
  | ran i o => exact accounted_ran h i o
  | answered i answer => exact accounted_answered h i answer

/-- The jobs are accounted for in every state of a run if and only if every step of it keeps clear
of the defects. -/
theorem accounted_iff (c : AppState) (fromStr : FromStr) (acts : List Act) :
    (∀ pre, pre <+: acts → Accounted c (run c fromStr pre)) ↔
      Along (step c fromStr) (Fits c fromStr) (start c) acts :=
  forall_prefix_iff_along (Inv c) (Accounted c) (fun _ h => h.accounted)
    (fun _ a h => (accounted_step h a).1) (fun _ a h => (accounted_step h a).2) (inv_start c)

/-! ## Claims that outrun the jobs -/

/-- A job whose target has no address. -/
def idleJob (evaluationId : Nat) : ClaimedJob where
  evaluationId := evaluationId
  attempt := 1
  leaseToken := "lease"
  runtimeGeneration := 0
  payload := ⟨"official", none, [], none, none⟩

/-- The two permits are offered a second time before the two jobs have begun. -/
def hastyRun : List Act :=
  [.wake, .claimed [idleJob 0, idleJob 1], .claimed [idleJob 2]]

/-- Three jobs are claimed for two permits. -/
theorem not_accounted : ¬ ∀ (c : AppState) (fromStr : FromStr) (acts : List Act),
    ∀ pre, pre <+: acts → Accounted c (run c fromStr pre) := by
  intro h
  have hroom := (h ⟨"worker", 2, 2⟩ (fun _ => .error "") hastyRun _ List.prefix_rfl).room
  exact absurd hroom (by decide)

end FloatCtf.Awdp.PullLoop
