import FloatCtf.Awd.JudgeWorker

/-!
# What a claimed judge task leaves behind

`Completes` says of a run of one task that it never panics, that its result requests are those that
the platform may get, and that at the end the heartbeat loop is stopped and the permit released.

Two steps break it: a script output is cut inside a character, and a script that does not start is
reported although a heartbeat was answered stale.  `completes_iff` says that nothing else
does. -/

namespace FloatCtf.Awd.JudgeWorker

open Process

open scoped List

/-! ## Pairs in a growing list -/

section Pairs

variable {α : Type}

theorem pair_sublist_concat {a b c : α} {l : List α} :
    [a, b] <+ l ++ [c] ↔ [a, b] <+ l ∨ a ∈ l ∧ b = c := by
  rw [← List.reverse_sublist, List.reverse_append, List.reverse_singleton, List.singleton_append,
    List.sublist_cons_iff, ← List.reverse_sublist, List.reverse_reverse, List.reverse_reverse]
  refine or_congr_right ⟨?_, ?_⟩
  · rintro ⟨r, hr, hsub⟩
    obtain ⟨rfl, rfl⟩ : b = c ∧ [a] = r := by simpa using hr
    exact ⟨List.mem_reverse.1 (List.singleton_sublist.1 hsub), rfl⟩
  · rintro ⟨ha, rfl⟩
    exact ⟨[a], rfl, List.singleton_sublist.2 (List.mem_reverse.2 ha)⟩

theorem mem_of_pair_sublist {a b : α} {l : List α} (h : [a, b] <+ l) : a ∈ l ∧ b ∈ l :=
  ⟨h.subset (by simp), h.subset (by simp)⟩

end Pairs

/-! ## The property -/

/-- The result that an event sends. -/
def Event.request? : Event → Option JudgeResultRequest
  | .sent request => some request
  | _ => none

/-- The results that were sent. -/
def sent (log : List Event) : List JudgeResultRequest := log.filterMap Event.request?

/-- A stale answer to a heartbeat before the end of the script. -/
def Lost (log : List Event) : Prop := [.heartbeat (.ok .stale), .scriptEnded] <+ log

/-- A prefix of at most the limit of an output, with the note when it is not the whole output. -/
def Shows (output shown : String) : Prop :=
  ∃ cut rest, output = cut ++ rest ∧ cut.utf8ByteSize ≤ outputMaxLen ∧
    (rest = "" ∧ shown = cut ∨ shown = cut ++ truncationNote output.utf8ByteSize)

/-- The outputs of a script that has exited, and none when the script has not got that far. -/
def Outputs (b : Behaviour) (request : JudgeResultRequest) : Prop :=
  match b.write, b.spawn, b.script with
  | .ok _, .ok _, .exited _ stdout stderr =>
    (∃ out, request.stdout = some out ∧ Shows (Text.decodeLossy stdout) out) ∧
      ∃ err, request.stderr = some err ∧ Shows (Text.decodeLossy stderr) err
  | _, _, _ => request.stdout = none

/-- A result says what the task and the script have done. -/
structure Carries (task : ClaimedTask) (resultId : String) (b : Behaviour)
    (request : JudgeResultRequest) : Prop where
  resultId : request.resultId = resultId
  attempt : request.attempt = task.attempt
  leaseToken : request.leaseToken = task.leaseToken
  outputs : Outputs b request

/-- What holds throughout: nothing has died, and what was sent is right. -/
structure Safe (task : ClaimedTask) (resultId : String) (b : Behaviour) (s : State) : Prop where
  alive : s.stage ≠ .panicked
  carries : ∀ request ∈ sent s.log, Carries task resultId b request
  few : (sent s.log).length ≤ resultMaxAttempts
  last : ∀ answer request, Final answer → ¬ [.answered answer, .sent request] <+ s.log
  lost : Lost s.log → sent s.log = []

/-- The task is over: its heartbeats have ended and its permit is free. -/
structure Done (s : State) : Prop where
  stage : s.stage = .returned
  loop : s.loop ≠ .running
  permit : s.permit = false

/-- Every state of the run is safe, and its last one is done. -/
def Completes (workerId : String) (task : ClaimedTask) (resultId : String) (b : Behaviour)
    (turns : List Turn) : Prop :=
  (∀ pre, pre <+: turns → Safe task resultId b (run workerId task resultId b pre)) ∧
    Done (run workerId task resultId b turns)

/-- A turn of the task that keeps clear of both defects: a script that does not start is reported
only while the task is owned, and the outputs of a script that has exited can be cut. -/
def Sound (b : Behaviour) (s : State) : Turn → Prop
  | .heartbeat _ => True
  | .task =>
    (s.stage = .spawning → ∀ e, b.spawn = .error e → s.ownershipStale = false) ∧
      (s.stage = .running → ∀ code stdout stderr, b.script = .exited code stdout stderr →
        Text.Cuts outputMaxLen (Text.decodeLossy stdout) ∧
          Text.Cuts outputMaxLen (Text.decodeLossy stderr))

/-- The turns of the task in a run. -/
def taskTurns (turns : List Turn) : Nat := turns.countP Turn.isTask

/-- As many turns as the longest task takes: to write and start the script, to wait for it and to
check the flag, a request and its answer for every attempt, and to give up. -/
def maxTaskTurns : Nat := 13

/-! ## How the log grows -/

theorem sent_concat (log : List Event) (e : Event) :
    sent (log ++ [e]) = sent log ++ e.request?.toList := by
  cases h : e.request? <;> simp [sent, h]

theorem mem_sent {log : List Event} {request : JudgeResultRequest} :
    request ∈ sent log ↔ .sent request ∈ log := by
  simp only [sent, List.mem_filterMap]
  constructor
  · rintro ⟨e, he, hr⟩
    cases e with
    | sent r => cases hr; exact he
    | _ => cases hr
  · exact fun h => ⟨_, h, rfl⟩

theorem lost_concat {log : List Event} {e : Event} :
    Lost (log ++ [e]) ↔ Lost log ∨ .heartbeat (.ok .stale) ∈ log ∧ e = .scriptEnded := by
  rw [Lost, pair_sublist_concat, eq_comm (a := e)]
  rfl

section Task

variable {workerId : String} {task : ClaimedTask} {resultId : String} {b : Behaviour}

/-- A log without requests is safe. -/
theorem Safe.of_sent_eq_nil {s : State} (hs : s.stage ≠ .panicked) (h : sent s.log = []) :
    Safe task resultId b s where
  alive := hs
  carries request hr := by simp [h] at hr
  few := by simp [h]
  last answer request _ hsub := by
    have := mem_sent.2 (mem_of_pair_sublist hsub).2
    simp [h] at this
  lost _ := h

/-- What is not a request and not the end of the script keeps a log safe. -/
theorem Safe.concat {s s' : State} (h : Safe task resultId b s) (hs : s'.stage ≠ .panicked)
    {e : Event} (he : e.request? = none) (hend : e ≠ .scriptEnded)
    (hlog : s'.log = s.log ++ [e]) : Safe task resultId b s' := by
  have hsent : sent s'.log = sent s.log := by simp [hlog, sent_concat, he]
  refine ⟨hs, by rw [hsent]; exact h.carries, by rw [hsent]; exact h.few, ?_, ?_⟩
  · intro answer request hfin hsub
    rw [hlog] at hsub
    obtain hsub | ⟨-, rfl⟩ := pair_sublist_concat.1 hsub
    · exact h.last answer request hfin hsub
    · cases he
  · intro hl
    rw [hlog] at hl
    rw [hsent]
    exact h.lost ((lost_concat.1 hl).resolve_right fun h' => hend h'.2)

/-! ## The heartbeat loop -/

theorem heartbeatLoop_eq (answer : Except String HeartbeatStatus) (s : State) :
    heartbeatLoop answer s = s ∨ s.loop ≠ .idle ∧ ∃ loop stale,
      heartbeatLoop answer s =
          { s with loop, ownershipStale := stale, log := s.log ++ [.heartbeat answer] } ∧
        (s.loop ≠ .running → loop ≠ .running) ∧
        (stale = true ↔ s.ownershipStale = true ∨ answer = .ok .stale) := by
  unfold heartbeatLoop
  cases hl : s.loop with
  | idle => exact .inl rfl
  | ended => exact .inl rfl
  | aborted =>
    refine .inr ⟨by simp, _, _, rfl, by simp, ?_⟩
    cases answer with
    | error e => simp
    | ok r => cases r <;> simp
  | running =>
    refine .inr ⟨by simp, ?_⟩
    cases answer with
    | error e => exact ⟨.running, s.ownershipStale, by simp, by simp, by simp⟩
    | ok r =>
      cases r with
      | stale => exact ⟨.ended, true, by simp, by simp, by simp⟩
      | notFound => exact ⟨.ended, s.ownershipStale, by simp, by simp, by simp⟩
      | ok => exact ⟨.running, s.ownershipStale, by simp, by simp, by simp⟩
      | error => exact ⟨.running, s.ownershipStale, by simp, by simp, by simp⟩

@[simp] theorem heartbeatLoop_stage (answer : Except String HeartbeatStatus) (s : State) :
    (heartbeatLoop answer s).stage = s.stage := by
  obtain h | ⟨-, _, _, h, -⟩ := heartbeatLoop_eq answer s <;> rw [h]

/-! ## Every task ends -/

/-- The turns that the task still takes at most. -/
def remaining : Stage → Nat
  | .writing => 13
  | .spawning => 12
  | .running => 11
  | .checking _ => 10
  | .delivering _ attempt => 2 * (resultMaxAttempts + 1 - attempt) + 1
  | .waiting _ attempt => 2 * (resultMaxAttempts - attempt) + 2
  | .returned | .panicked => 0

theorem remaining_executeSingleTask (s : State) :
    remaining (executeSingleTask workerId task resultId b s).stage ≤ remaining s.stage - 1 := by
  unfold executeSingleTask
  cases hs : s.stage with
  | writing => cases b.write <;> simp [remaining, resultMaxAttempts]
  | spawning => cases b.spawn <;> simp [remaining, resultMaxAttempts]
  | running =>
    cases scriptReport workerId task resultId b <;> simp [remaining, State.panic]
  | checking request =>
    cases hst : s.ownershipStale <;> simp [remaining, State.finish, resultMaxAttempts, hst]
  | delivering request attempt =>
    simp only [deliver]
    split_ifs <;> simp only [remaining, State.finish, State.panic] <;> omega
  | waiting request attempt =>
    dsimp only
    split_ifs <;> simp only [remaining, State.finish] <;> omega
  | returned => simp [remaining, hs]
  | panicked => simp [remaining, hs]

theorem remaining_foldl (s : State) (turns : List Turn) :
    remaining (turns.foldl (step workerId task resultId b) s).stage ≤
      remaining s.stage - taskTurns turns := by
  induction turns generalizing s with
  | nil => exact le_rfl
  | cons t turns ih =>
    refine (ih _).trans ?_
    cases t with
    | task =>
      have := @remaining_executeSingleTask workerId task resultId b s
      simp only [step, taskTurns, List.countP_cons, Turn.isTask] at this ⊢
      simp only [if_true]
      omega
    | heartbeat answer => simp [step, taskTurns, Turn.isTask]

theorem remaining_eq_zero {st : Stage} (h : remaining st = 0) :
    st = .returned ∨ st = .panicked := by
  cases st with
  | returned => exact .inl rfl
  | panicked => exact .inr rfl
  | _ => simp [remaining] at h

/-! ## The invariant -/

/-- No request has had an answer after which there is no other. -/
def Open (log : List Event) : Prop := ∀ answer, Final answer → .answered answer ∉ log

theorem Open.concat {log : List Event} {e : Event} (h : Open log)
    (he : ∀ answer, Final answer → .answered answer ≠ e) : Open (log ++ [e]) := by
  intro answer hfin hmem
  obtain hmem | hmem := List.mem_append.1 hmem
  · exact h answer hfin hmem
  · exact he answer hfin (List.mem_singleton.1 hmem)

/-- While the requests of a task are made: those before the attempt that comes next. -/
structure Delivers (request : JudgeResultRequest) (made : Nat) (loop : Loop) (log : List Event) :
    Prop where
  loop : loop ≠ .running
  open' : Open log
  owned : ¬ Lost log
  sent : sent log = List.replicate made request

variable (task : ClaimedTask) (resultId : String) (b : Behaviour)

/-- What holds where the task stands. -/
def At (s : State) : Prop :=
  match s.stage with
  | .writing => s.log = [] ∧ s.loop = .idle
  | .spawning => (∃ u, b.write = .ok u) ∧ sent s.log = [] ∧ Open s.log ∧ .scriptEnded ∉ s.log
  | .running =>
    ((∃ u, b.write = .ok u) ∧ ∃ u, b.spawn = .ok u) ∧ sent s.log = [] ∧ Open s.log ∧
      .scriptEnded ∉ s.log
  | .checking request =>
    Carries task resultId b request ∧ s.loop ≠ .running ∧ sent s.log = [] ∧ Open s.log
  | .delivering request attempt =>
    Carries task resultId b request ∧ 1 ≤ attempt ∧ attempt ≤ resultMaxAttempts + 1 ∧
      Delivers request (attempt - 1) s.loop s.log
  | .waiting request attempt =>
    Carries task resultId b request ∧ attempt ≤ resultMaxAttempts ∧
      Delivers request attempt s.loop s.log
  | .returned => s.loop ≠ .running ∧ s.permit = false
  | .panicked => False

/-- The invariant of a task. -/
structure Inv (s : State) : Prop where
  flag : s.ownershipStale = true ↔ .heartbeat (.ok .stale) ∈ s.log
  safe : Safe task resultId b s
  at' : At task resultId b s

variable {task resultId b} {workerId : String}

theorem inv_start : Inv task resultId b start where
  flag := by simp [start]
  safe := Safe.of_sent_eq_nil (by simp [start]) rfl
  at' := ⟨rfl, rfl⟩

theorem Delivers.heartbeat {request : JudgeResultRequest} {made : Nat} {loop loop' : Loop}
    {log : List Event} (h : Delivers request made loop log) (hloop : loop' ≠ .running)
    (answer : Except String HeartbeatStatus) :
    Delivers request made loop' (log ++ [.heartbeat answer]) where
  loop := hloop
  open' := h.open'.concat (by simp)
  owned := fun hl => h.owned ((lost_concat.1 hl).resolve_right (by simp))
  sent := by simp [sent_concat, Event.request?, h.sent]

/-- An answer of the platform to a heartbeat keeps the invariant, wherever the task stands. -/
theorem inv_heartbeatLoop {s : State} (h : Inv task resultId b s)
    (answer : Except String HeartbeatStatus) : Inv task resultId b (heartbeatLoop answer s) := by
  obtain heq | ⟨hidle, loop, stale, heq, hloop, hstale⟩ := heartbeatLoop_eq answer s
  · rwa [heq]
  rw [heq]
  have hsent : sent (s.log ++ [.heartbeat answer]) = sent s.log := by
    simp [sent_concat, Event.request?]
  refine ⟨?_, h.safe.concat h.safe.alive (e := .heartbeat answer) rfl (by simp) rfl, ?_⟩
  · simp [hstale, h.flag, eq_comm]
  · have hat := h.at'
    unfold At at hat ⊢
    cases hst : s.stage with
    | writing =>
      simp only [hst] at hat
      exact absurd hat.2 hidle
    | spawning =>
      simp only [hst] at hat ⊢
      exact ⟨hat.1, hsent.trans hat.2.1, hat.2.2.1.concat (by simp), by simp [hat.2.2.2]⟩
    | running =>
      simp only [hst] at hat ⊢
      exact ⟨hat.1, hsent.trans hat.2.1, hat.2.2.1.concat (by simp), by simp [hat.2.2.2]⟩
    | checking request =>
      simp only [hst] at hat ⊢
      exact ⟨hat.1, hloop hat.2.1, hsent.trans hat.2.2.1, hat.2.2.2.concat (by simp)⟩
    | delivering request attempt =>
      simp only [hst] at hat ⊢
      obtain ⟨hc, hlo, hhi, hd⟩ := hat
      exact ⟨hc, hlo, hhi, hd.heartbeat (hloop hd.loop) answer⟩
    | waiting request attempt =>
      simp only [hst] at hat ⊢
      obtain ⟨hc, hhi, hd⟩ := hat
      exact ⟨hc, hhi, hd.heartbeat (hloop hd.loop) answer⟩
    | returned =>
      simp only [hst] at hat ⊢
      exact ⟨hloop hat.1, hat.2⟩
    | panicked => exact absurd hst h.safe.alive

/-! ## The turns of the task -/

theorem shows_of_truncateStr {s t : String} (h : truncateStr s outputMaxLen = some t) :
    Shows s t := by
  obtain ⟨hlen, rfl⟩ | ⟨-, p, rest, rfl, hsize, rfl⟩ := Text.truncate_eq_some_iff.1 h
  · exact ⟨t, "", by simp, hlen, .inl ⟨rfl, rfl⟩⟩
  · exact ⟨p, rest, rfl, hsize.le, .inr rfl⟩

/-- What the two failures report carries no output. -/
theorem carries_workerError {message : String} (h : ∀ u v, b.write = .ok u → b.spawn ≠ .ok v) :
    Carries task resultId b
      (resultRequest workerId task resultId "worker_error" none none (some message) none) where
  resultId := rfl
  attempt := rfl
  leaseToken := rfl
  outputs := by
    unfold Outputs
    split
    · exact absurd ‹_› (h _ _ ‹_›)
    · rfl

theorem carries_scriptReport (hw : ∃ u, b.write = .ok u) (hs : ∃ u, b.spawn = .ok u)
    {request : JudgeResultRequest} (h : scriptReport workerId task resultId b = some request) :
    Carries task resultId b request := by
  obtain ⟨u, hw⟩ := hw
  obtain ⟨v, hs⟩ := hs
  unfold scriptReport at h
  cases hscript : b.script with
  | exited code stdout stderr =>
    simp only [hscript] at h
    split at h
    · rename_i out err hout herr
      cases h
      refine ⟨rfl, rfl, rfl, ?_⟩
      simp only [Outputs, hw, hs, hscript]
      exact ⟨⟨out, rfl, shows_of_truncateStr hout⟩, err, rfl, shows_of_truncateStr herr⟩
    · cases h
  | waitFailed e =>
    simp only [hscript] at h
    cases h
    exact ⟨rfl, rfl, rfl, by simp [Outputs, hscript, resultRequest]⟩
  | timedOut =>
    simp only [hscript] at h
    cases h
    exact ⟨rfl, rfl, rfl, by simp [Outputs, hscript, resultRequest]⟩

theorem scriptReport_ne_none_iff : scriptReport workerId task resultId b ≠ none ↔
    ∀ code stdout stderr, b.script = .exited code stdout stderr →
      Text.Cuts outputMaxLen (Text.decodeLossy stdout) ∧
        Text.Cuts outputMaxLen (Text.decodeLossy stderr) := by
  unfold scriptReport
  cases b.script with
  | exited code stdout stderr =>
    have key : ∀ s, truncateStr s outputMaxLen ≠ none ↔ Text.Cuts outputMaxLen s :=
      fun s => Text.truncate_ne_none_iff
    constructor
    · rintro h _ _ _ ⟨⟩
      refine ⟨(key _).1 fun hout => h ?_, (key _).1 fun herr => h ?_⟩
      · simp [hout]
      · cases hout : truncateStr (Text.decodeLossy stdout) outputMaxLen <;> simp [hout, herr]
    · intro h
      obtain ⟨hout, herr⟩ := h _ _ _ rfl
      obtain ⟨out, hout⟩ := Option.ne_none_iff_exists'.1 ((key _).2 hout)
      obtain ⟨err, herr⟩ := Option.ne_none_iff_exists'.1 ((key _).2 herr)
      simp [hout, herr]
  | waitFailed e => simp
  | timedOut => simp

/-- The delays are enough for all attempts. -/
theorem deliver_eq (request : JudgeResultRequest) {attempt : Nat}
    (hhi : attempt ≤ resultMaxAttempts) (s : State) :
    deliver request attempt s =
      { s with stage := .waiting request attempt, log := s.log ++ [.sent request] } := by
  have hdelay : ¬ (1 < attempt ∧ resultRetryDelaysSecs[attempt - 2]? = none) := by
    have : ∀ n < 5, ¬ (1 < n ∧ resultRetryDelaysSecs[n - 2]? = none) := by decide
    exact this attempt (Nat.lt_succ_of_le hhi)
  rw [deliver, if_neg (Nat.not_lt.2 hhi), if_neg hdelay]

theorem loop_abort_ne (l : Loop) : l.abort ≠ .running := by
  cases l <;> simp [Loop.abort]

/-- The log of a task that goes on without a request. -/
theorem delivers_zero {loop : Loop} {log : List Event} (hloop : loop ≠ .running) (hopen : Open log)
    (howned : ¬ Lost log) (hsent : sent log = []) (request : JudgeResultRequest) :
    Delivers request 0 loop log :=
  ⟨hloop, hopen, howned, hsent⟩

/-- A request that is made while no answer has settled the delivery. -/
theorem Delivers.send {request : JudgeResultRequest} {made : Nat} {loop : Loop} {log : List Event}
    (h : Delivers request made loop log) :
    Delivers request (made + 1) loop (log ++ [.sent request]) where
  loop := h.loop
  open' := h.open'.concat (by simp)
  owned := fun hl => h.owned ((lost_concat.1 hl).resolve_right (by simp))
  sent := by rw [sent_concat, h.sent, List.replicate_succ']; rfl

theorem Delivers.answer {request : JudgeResultRequest} {made : Nat} {loop : Loop}
    {log : List Event} (h : Delivers request made loop log) {answer : Except String SubmitStatus}
    (ha : ¬ Final answer) : Delivers request made loop (log ++ [.answered answer]) where
  loop := h.loop
  open' := h.open'.concat (by rintro r hr heq; cases heq; exact ha hr)
  owned := fun hl => h.owned ((lost_concat.1 hl).resolve_right (by simp))
  sent := by simp [sent_concat, Event.request?, h.sent]

theorem Delivers.safe {request : JudgeResultRequest} {made : Nat} {loop : Loop} {log : List Event}
    (h : Delivers request made loop log) (hmade : made ≤ resultMaxAttempts)
    (hc : Carries task resultId b request) {s : State} (hlog : s.log = log)
    (hs : s.stage ≠ .panicked) : Safe task resultId b s where
  alive := hs
  carries r hr := by
    rw [hlog, h.sent] at hr
    rwa [List.eq_of_mem_replicate hr]
  few := by rwa [hlog, h.sent, List.length_replicate]
  last answer r hfin hsub := by
    rw [hlog] at hsub
    exact h.open' answer hfin (mem_of_pair_sublist hsub).1
  lost hl := by
    rw [hlog] at hl
    exact absurd hl h.owned

/-- A turn of the task that keeps clear of both defects keeps the invariant. -/
theorem inv_executeSingleTask {s : State} (h : Inv task resultId b s) (hsound : Sound b s .task) :
    Inv task resultId b (executeSingleTask workerId task resultId b s) := by
  have hat := h.at'
  unfold At at hat
  unfold executeSingleTask
  cases hst : s.stage with
  | writing =>
    simp only [hst] at hat
    obtain ⟨hlog, hloop⟩ := hat
    have hflag := h.flag
    rw [hlog] at hflag
    cases hw : b.write with
    | error e =>
      have hd : ∀ request, Delivers request 0 s.loop s.log := fun request =>
        delivers_zero (by simp [hloop]) (by simp [hlog, Open]) (by simp [hlog, Lost])
          (by simp [hlog, sent]) request
      have hc := @carries_workerError task resultId b workerId s!"Script write error: {e}"
        (by simp [hw])
      exact ⟨h.flag, (hd _).safe (by simp) hc rfl (by simp), hc, le_rfl, by decide, hd _⟩
    | ok u =>
      exact ⟨h.flag, .of_sent_eq_nil (by simp) (by simp [hlog, sent]), ⟨u, hw⟩,
        by simp [hlog, sent], by simp [hlog, Open], by simp [hlog]⟩
  | spawning =>
    simp only [hst] at hat
    obtain ⟨hw, hsent, hopen, hend⟩ := hat
    cases hs : b.spawn with
    | error e =>
      have hnot : Event.heartbeat (.ok .stale) ∉ s.log := by
        simp [← h.flag, hsound.1 hst e hs]
      have hd : ∀ request, Delivers request 0 s.loop.abort (s.log ++ [.scriptEnded]) := fun r =>
        delivers_zero (loop_abort_ne _) (hopen.concat (by simp))
          (fun hl => (lost_concat.1 hl).elim (fun hl => hend (mem_of_pair_sublist hl).2)
            fun hl => hnot hl.1)
          (by simp [sent_concat, Event.request?, hsent]) r
      have hc := @carries_workerError task resultId b workerId s!"Execution error: {e}"
        (by simp [hs])
      exact ⟨by simp [h.flag], (hd _).safe (by simp) hc rfl (by simp), hc, le_rfl, by decide, hd _⟩
    | ok u =>
      exact ⟨h.flag, .of_sent_eq_nil (by simp) hsent, ⟨hw, u, hs⟩, hsent, hopen, hend⟩
  | running =>
    simp only [hst] at hat
    obtain ⟨⟨hw, hs⟩, hsent, hopen, hend⟩ := hat
    obtain ⟨request, hr⟩ := Option.ne_none_iff_exists'.1
      ((@scriptReport_ne_none_iff task resultId _ workerId).2 (hsound.2 hst))
    have hsent' : sent (s.log ++ [.scriptEnded]) = [] := by
      simp [sent_concat, Event.request?, hsent]
    rw [hr]
    exact ⟨by simp [h.flag], .of_sent_eq_nil (by simp) hsent', carries_scriptReport hw hs hr,
      loop_abort_ne _, hsent', hopen.concat (by simp)⟩
  | checking request =>
    simp only [hst] at hat
    obtain ⟨hc, hloop, hsent, hopen⟩ := hat
    dsimp only
    by_cases hflag : s.ownershipStale = true
    · rw [if_pos hflag]
      exact ⟨h.flag, .of_sent_eq_nil (by simp [State.finish]) hsent, hloop, rfl⟩
    · rw [if_neg hflag]
      have hd := delivers_zero hloop hopen
        (fun hl => hflag (h.flag.2 (mem_of_pair_sublist hl).1)) hsent request
      exact ⟨h.flag, .of_sent_eq_nil (by simp) hsent, hc, le_rfl, by decide, hd⟩
  | delivering request attempt =>
    simp only [hst] at hat
    obtain ⟨hc, hlo, hhi, hd⟩ := hat
    by_cases hmore : attempt ≤ resultMaxAttempts
    · simp only [deliver_eq request hmore]
      have hd' := hd.send
      rw [Nat.sub_add_cancel hlo] at hd'
      exact ⟨by simp [h.flag], hd'.safe hmore hc rfl (by simp), hc, hmore, hd'⟩
    · simp only [deliver, if_pos (Nat.lt_of_not_le hmore)]
      exact ⟨h.flag, hd.safe (by omega) hc rfl (by simp [State.finish]), hd.loop, rfl⟩
  | waiting request attempt =>
    simp only [hst] at hat
    obtain ⟨hc, hhi, hd⟩ := hat
    have hflag : s.ownershipStale = true ↔
        .heartbeat (.ok .stale) ∈ s.log ++ [Event.answered (b.answers attempt)] := by
      simp [h.flag]
    have hsafe : ∀ stage permit, stage ≠ .panicked → Safe task resultId b
        { s with stage, permit, log := s.log ++ [.answered (b.answers attempt)] } :=
      fun stage permit hp => h.safe.concat hp (e := .answered (b.answers attempt)) rfl (by simp) rfl
    by_cases hfin : Final (b.answers attempt)
    · simp only [hfin, if_true]
      exact ⟨hflag, hsafe _ _ (by simp), hd.loop, rfl⟩
    · simp only [hfin, if_false]
      exact ⟨hflag, hsafe _ _ (by simp), hc, by omega, by omega, hd.answer hfin⟩
  | returned =>
    exact h
  | panicked => exact absurd hst h.safe.alive

theorem inv_step {s : State} (h : Inv task resultId b s) (t : Turn) (hsound : Sound b s t) :
    Inv task resultId b (step workerId task resultId b s t) := by
  cases t with
  | task => exact inv_executeSingleTask h hsound
  | heartbeat answer => exact inv_heartbeatLoop h answer

theorem Inv.done {s : State} (h : Inv task resultId b s) (hend : remaining s.stage = 0) :
    Done s := by
  have hst := (remaining_eq_zero hend).resolve_right h.safe.alive
  have hat := h.at'
  simp only [At, hst] at hat
  exact ⟨hst, hat.1, hat.2⟩

/-! ## The two defects -/

/-- A run that is not safe at its end, whatever turns follow: the task has panicked, or it makes
requests although it had lost the task. -/
def Doomed (s : State) : Prop :=
  s.stage = .panicked ∨
    Lost s.log ∧ (sent s.log ≠ [] ∨ ∃ request, s.stage = .delivering request 1)

theorem lost_append {log more : List Event} (h : Lost log) : Lost (log ++ more) :=
  h.trans (List.sublist_append_left _ _)

theorem sent_ne_nil_append {log more : List Event} (h : sent log ≠ []) :
    sent (log ++ more) ≠ [] := by
  simp only [sent, List.filterMap_append, ne_eq, List.append_eq_nil_iff, not_and]
  exact fun h' => absurd h' h

/-- Nothing is taken from the log. -/
theorem log_step (s : State) (t : Turn) :
    ∃ more, (step workerId task resultId b s t).log = s.log ++ more := by
  cases t with
  | heartbeat answer =>
    obtain h | ⟨-, _, _, h, -⟩ := heartbeatLoop_eq answer s
    · exact ⟨[], by simp [step, h]⟩
    · exact ⟨[.heartbeat answer], by simp [step, h]⟩
  | task =>
    simp only [step, executeSingleTask, deliver]
    split
    · split <;> exact ⟨[], by simp⟩
    · split
      · exact ⟨[.scriptEnded], rfl⟩
      · exact ⟨[], by simp⟩
    · split <;> exact ⟨[.scriptEnded], rfl⟩
    · split_ifs <;> exact ⟨[], by simp [State.finish]⟩
    · split_ifs
      · exact ⟨[], by simp [State.finish]⟩
      · exact ⟨[], by simp [State.panic]⟩
      · exact ⟨[.sent _], rfl⟩
    · split_ifs <;> exact ⟨[.answered _], rfl⟩
    · exact ⟨[], by simp⟩
    · exact ⟨[], by simp⟩

theorem Doomed.step {s : State} (h : Doomed s) (t : Turn) :
    Doomed (step workerId task resultId b s t) := by
  obtain ⟨more, hlog⟩ := @log_step task resultId b workerId s t
  obtain hp | ⟨hl, hs | ⟨request, hs⟩⟩ := h
  · refine .inl ?_
    cases t with
    | task => simp [JudgeWorker.step, executeSingleTask, hp]
    | heartbeat answer => simp [JudgeWorker.step, hp]
  · exact .inr ⟨hlog ▸ lost_append hl, .inl (hlog ▸ sent_ne_nil_append hs)⟩
  · refine .inr ⟨hlog ▸ lost_append hl, ?_⟩
    cases t with
    | task =>
      simp only [JudgeWorker.step, executeSingleTask, hs, deliver_eq request (by decide : 1 ≤ 4)]
      exact .inl (by simp [sent_concat, Event.request?])
    | heartbeat answer => exact .inr ⟨request, by simp [JudgeWorker.step, hs]⟩

theorem Doomed.not_safe {s : State} (h : Doomed s) (hend : remaining s.stage = 0) :
    ¬ Safe task resultId b s := by
  intro hsafe
  obtain hp | ⟨hl, hs | ⟨request, hs⟩⟩ := h
  · exact hsafe.alive hp
  · exact hs (hsafe.lost hl)
  · simp [hs, remaining] at hend

/-- A turn that is not sound is a defect. -/
theorem Inv.doomed {s : State} (h : Inv task resultId b s) {t : Turn} (hsound : ¬ Sound b s t) :
    Doomed (JudgeWorker.step workerId task resultId b s t) := by
  cases t with
  | heartbeat answer => exact absurd trivial hsound
  | task =>
    obtain hbad | hbad := not_and_or.1 hsound
    · push Not at hbad
      obtain ⟨hst, e, hs, hstale⟩ := hbad
      simp only [JudgeWorker.step, executeSingleTask, hst, hs]
      exact .inr ⟨lost_concat.2 (.inr ⟨h.flag.1 (by simpa using hstale), rfl⟩), .inr ⟨_, rfl⟩⟩
    · obtain ⟨hst, hbad⟩ := Classical.not_imp.1 hbad
      have hnone : scriptReport workerId task resultId b = none := by
        by_contra hne
        exact hbad (scriptReport_ne_none_iff.1 hne)
      simp only [JudgeWorker.step, executeSingleTask, hst, hnone]
      exact .inl rfl

/-! ## The theorem -/

theorem sound_of_safe {turns : List Turn} {s : State} (h : Inv task resultId b s)
    (hlong : remaining s.stage ≤ taskTurns turns)
    (hsafe : Safe task resultId b (turns.foldl (step workerId task resultId b) s)) :
    Along (step workerId task resultId b) (Sound b) s turns := by
  have hend := @remaining_foldl workerId task resultId b s turns
  rw [Nat.sub_eq_zero_of_le hlong, Nat.le_zero] at hend
  clear hlong
  induction turns generalizing s with
  | nil => trivial
  | cons t turns ih =>
    by_cases hsound : Sound b s t
    · exact ⟨hsound, ih (inv_step h t hsound) hsafe hend⟩
    · have hdoomed : Doomed ((t :: turns).foldl (step workerId task resultId b) s) :=
        List.foldlRecOn turns _ (h.doomed hsound) fun _ hd t _ => hd.step t
      exact absurd hsafe (hdoomed.not_safe hend)

variable (workerId task resultId b)

/-- A run that goes on until the task has to be over completes it if and only if every turn of the
task keeps clear of both defects. -/
theorem completes_iff (turns : List Turn) (hlong : maxTaskTurns ≤ taskTurns turns) :
    Completes workerId task resultId b turns ↔
      Along (step workerId task resultId b) (Sound b) start turns := by
  constructor
  · rintro ⟨hsafe, -⟩
    exact sound_of_safe inv_start hlong (hsafe turns List.prefix_rfl)
  · intro hsound
    have hinv : ∀ pre, pre <+: turns → Inv task resultId b (run workerId task resultId b pre) := by
      rintro pre ⟨post, rfl⟩
      exact inv_of_along (fun s => Inv task resultId b s) (fun s t h => inv_step h t) inv_start
        (along_append.1 hsound).1
    refine ⟨fun pre hpre => (hinv pre hpre).safe, (hinv turns List.prefix_rfl).done ?_⟩
    have hend := @remaining_foldl workerId task resultId b start turns
    rwa [show remaining start.stage - taskTurns turns = 0 from Nat.sub_eq_zero_of_le hlong,
      Nat.le_zero] at hend

end Task

/-! ## Two tasks -/

/-- A task whose script starts, ends with `stdout` and gets its result through. -/
def writes (stdout : String) : Behaviour where
  write := .ok ()
  spawn := .ok ()
  script := .exited (some 0) (Text.encode stdout) []
  elapsedMs := 20
  answers _ := .ok .ok

/-- A task with a lease. -/
def someTask : ClaimedTask where
  attempt := 1
  leaseToken := "lease"

/-- The turns of a task whose second heartbeat is answered stale after the script has ended. -/
def someTurns : List Turn :=
  [.task, .task, .heartbeat (.ok .ok), .task, .heartbeat (.ok .stale)] ++ List.replicate 10 .task

/-- A short output is reported. -/
theorem completes_short : Completes "worker" someTask "result" (writes "up") someTurns :=
  (completes_iff someTask "result" (writes "up") "worker" someTurns (by decide)).2
    (along_of_forall (fun s t => by
      cases t with
      | heartbeat answer => trivial
      | task =>
        have hshort : ∀ bs, Text.decodeLossy bs = "up" ∨ Text.decodeLossy bs = "" →
            Text.Cuts outputMaxLen (Text.decodeLossy bs) := by
          rintro bs (h | h) <;> rw [h] <;> exact .inl (by decide)
        refine ⟨fun _ e he => (by cases he), fun _ code stdout stderr h => ?_⟩
        cases h
        exact ⟨hshort _ (.inl (Text.decodeLossy_encode _)), hshort _ (.inr rfl)⟩) _ _)

/-- 4095 letters, and a character of three bytes across the limit. -/
def longOutput : String := .ofList (List.replicate 4095 'a' ++ ['你'])

theorem not_cuts_longOutput : ¬ Text.Cuts outputMaxLen longOutput := by
  refine Text.not_cuts_concat ?_ ?_ <;> rw [Text.utf8ByteSize_ofList_replicate] <;> decide

/-- Such an output ends the task in a panic. -/
theorem not_completes : ¬ ∀ (workerId : String) (task : ClaimedTask) (resultId : String)
    (b : Behaviour) (turns : List Turn), maxTaskTurns ≤ taskTurns turns →
      Completes workerId task resultId b turns := by
  intro h
  have hlong : maxTaskTurns ≤ taskTurns (List.replicate 13 Turn.task) := by decide
  have hsafe := (h "worker" someTask "result" (writes longOutput) _ hlong).1 _ List.prefix_rfl
  have hsound := sound_of_safe inv_start hlong hsafe
  have hcut := (hsound.2.2.1.2 rfl _ _ _ rfl).1
  rw [Text.decodeLossy_encode] at hcut
  exact not_cuts_longOutput hcut

end FloatCtf.Awd.JudgeWorker
