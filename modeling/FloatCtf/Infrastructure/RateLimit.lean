import FloatCtf.Awd.Domain
import FloatCtf.Net.Record
import FloatCtf.Process.SlidingWindow
import FloatCtf.Process.SortedSets

/-!
# Rate limits

`hit_window` keeps a sliding window in a sorted set that is pruned at every hit and expires behind
the last hit that was admitted.  The entries have the times that the callers read before they
connected, and the expiry counts from the time at which the server ran the script.

`hit_window_refines` says that pruning and expiry cannot be seen while no key expires with an entry
that still counts: the answers are those of the limiter that keeps the whole history.
-/

namespace FloatCtf.Infrastructure

open Awd (AwdError)
open SortedSets (Server Expired zremrangebyscore zcard zadd pexpire members stored)
open SlidingWindow (Hit)

/-! ## `hit_window` -/

/-- The sorted sets of the server: the members are UUIDs, the scores times in milliseconds. -/
abbrev RateDb := Server String String

/-- A call, with the time that it reads, the UUID that it draws and the time of the server when its
script runs.  The numbers are ones that a Lua number is exact for. -/
structure HitCall where
  bucket : String
  key : String
  limit : ℕ
  windowSecs : ℕ
  now : ℤ
  serverNow : ℤ
  member : String
  now_le : |now| ≤ 2 ^ 52
  window_le : windowSecs * 1000 ≤ 2 ^ 52

/-- Saturation of an `i64`. -/
def saturate (x : ℤ) : ℤ := max (-2 ^ 63) (min x (2 ^ 63 - 1))

/-- The key of a bucket in Redis. -/
def redisKey (bucket key : String) : String := "floatctf:ratelimit:" ++ bucket ++ ":" ++ key

/-- The key that a call counts under. -/
def HitCall.redisKey (c : HitCall) : String := Infrastructure.redisKey c.bucket c.key

/-- The window in milliseconds. -/
def HitCall.windowMs (c : HitCall) : ℤ := saturate (c.windowSecs * 1000)

/-- The time before which nothing counts. -/
def HitCall.cutoffMs (c : HitCall) : ℤ := saturate (c.now - c.windowMs)

/-- The script, at a time of the server. -/
def script (serverNow : ℤ) (key : String) (now cutoff : ℤ) (limit : ℕ) (member : String)
    (ttl : ℤ) (db : RateDb) : ℕ × RateDb :=
  let db := zremrangebyscore db serverNow key cutoff
  let count := zcard db serverNow key
  if limit ≤ count then (0, db)
  else
    let db := zadd db serverNow key now member
    (1, pexpire db serverNow key ttl)

/-- A call whose script runs. -/
def hitWindow (c : HitCall) (db : RateDb) : Bool × RateDb :=
  let r := script c.serverNow c.redisKey c.now c.cutoffMs c.limit c.member c.windowMs db
  (r.1 = 1, r.2)

/-- The answers of calls one after the other. -/
def answers : RateDb → List HitCall → List Bool
  | _, [] => []
  | db, c :: calls => (hitWindow c db).1 :: answers (hitWindow c db).2 calls

/-! ## `check` -/

/-- What is limited. -/
inductive RateScope where
  | submit | reset | internal
  deriving DecidableEq

/-- The name of a scope in the messages. -/
def RateScope.debug : RateScope → String
  | .submit => "Submit"
  | .reset => "Reset"
  | .internal => "Internal"

/-- The setting, the default of the limit, and the window. -/
def RateScope.settingsKey : RateScope → String × ℕ × ℕ
  | .submit => ("AWD_RATE_SUBMIT_PER_MIN", 30, 60)
  | .reset => ("AWD_RATE_RESET_PER_HOUR", 5, 3600)
  | .internal => ("AWD_RATE_INTERNAL_PER_MIN", 120, 60)

/-- `str::parse::<u32>`. -/
def parseU32 (s : String) : Option ℕ :=
  let digits := match s.toList with
    | '+' :: cs => cs
    | cs => cs
  if digits = [] ∨ ¬ digits.all Char.isDigit then none
  else
    let n := digits.foldl (fun n c => 10 * n + (c.toNat - '0'.toNat)) 0
    if n < 2 ^ 32 then some n else none

/-- The limit of a scope: the setting if it is a number, else the default. -/
def limitOf (scope : RateScope) (setting : Option String) : ℕ :=
  (setting.bind parseU32).getD scope.settingsKey.2.1

theorem window_le (scope : RateScope) : scope.settingsKey.2.2 * 1000 ≤ 2 ^ 52 := by
  cases scope <;> decide

/-- The call that a check makes. -/
def checkCall (scope : RateScope) (key : String) (setting : Option String) (now serverNow : ℤ)
    (hnow : |now| ≤ 2 ^ 52) (member : String) : HitCall where
  bucket := scope.debug
  key := key
  limit := limitOf scope setting
  windowSecs := scope.settingsKey.2.2
  now := now
  serverNow := serverNow
  member := member
  now_le := hnow
  window_le := window_le scope

/-- `check`: refuses a call above the limit of its scope. -/
def check (scope : RateScope) (key : String) (setting : Option String) (now serverNow : ℤ)
    (hnow : |now| ≤ 2 ^ 52) (member : String) (db : RateDb) : Except AwdError Unit × RateDb :=
  let r := hitWindow (checkCall scope key setting now serverNow hnow member) db
  if r.1 then (.ok (), r.2)
  else
    (.error (.forbidden (s!"rate limit exceeded for {scope.debug} " ++
      s!"({limitOf scope setting} per {scope.settingsKey.2.2}s)")), r.2)

/-! ## Runs -/

/-- Calls in the order in which their scripts run, all with one clock: the times that they read do
not go back, a script runs when its call has read the clock, the UUIDs are different, and a key is
always called with its own window. -/
structure OneClock (window : String → ℕ) (calls : List HitCall) : Prop where
  sorted : calls.Pairwise fun a b => a.now ≤ b.now
  serverSorted : calls.Pairwise fun a b => a.serverNow ≤ b.serverNow
  now_le_serverNow : ∀ c ∈ calls, c.now ≤ c.serverNow
  members_nodup : (calls.map HitCall.member).Nodup
  windowSecs_eq : ∀ c ∈ calls, c.windowSecs = window c.redisKey

/-- The key of the call has not expired, or has no entry left in the window. -/
def InTime (db : RateDb) (c : HitCall) : Prop :=
  Expired db c.serverNow c.redisKey → ∀ x ∈ stored db c.redisKey, x.2 ≤ c.cutoffMs

instance (db : RateDb) (c : HitCall) : Decidable (InTime db c) :=
  inferInstanceAs (Decidable (_ → ∀ x ∈ _, _))

/-- No call of a run comes to a key that has expired with an entry in the window. -/
def AllInTime : RateDb → List HitCall → Prop
  | _, [] => True
  | db, c :: calls => InTime db c ∧ AllInTime (hitWindow c db).2 calls

instance instDecidableAllInTime : (db : RateDb) → (calls : List HitCall) →
    Decidable (AllInTime db calls)
  | _, [] => inferInstanceAs (Decidable True)
  | db, c :: calls =>
    have := instDecidableAllInTime (hitWindow c db).2 calls
    inferInstanceAs (Decidable (InTime db c ∧ AllInTime _ calls))

/-- The window of a key in milliseconds. -/
def windowMsOf (window : String → ℕ) (key : String) : ℤ := window key * 1000

/-- What a call is for the window: its key, its time and its limit. -/
def HitCall.hit (c : HitCall) : Hit String := ⟨c.redisKey, c.now, c.limit⟩

theorem windowMs_eq (c : HitCall) : c.windowMs = c.windowSecs * 1000 := by
  have h := c.window_le
  rw [HitCall.windowMs, saturate]
  omega

theorem cutoffMs_eq (c : HitCall) : c.cutoffMs = c.now - c.windowMs := by
  have h := c.window_le
  have hnow := abs_le.1 c.now_le
  rw [HitCall.cutoffMs, windowMs_eq, saturate]
  omega

/-! ### One call -/

/-- The members of the calls that were admitted on a key. -/
def entries (admitted : List HitCall) (key : String) : List (String × ℤ) :=
  (admitted.filter (·.redisKey = key)).map fun c => (c.member, c.now)

/-- The part of a history that a window which ends at a time or later can see is stored. -/
def Agrees (window : String → ℤ) (db : RateDb) (admitted : List HitCall) (time : ℤ) : Prop :=
  ∀ key, ∀ now ≥ time, (stored db key).filter (now - window key < ·.2) =
    (entries admitted key).filter (now - window key < ·.2)

section Call

variable {window : String → ℤ} {db : RateDb} {admitted : List HitCall} {time : ℤ} {c : HitCall}

/-- The history as the full limiter has it. -/
def history (admitted : List HitCall) : List (String × ℤ) :=
  admitted.map fun c => (c.redisKey, c.now)

theorem entries_concat (key : String) : entries (admitted ++ [c]) key =
    entries admitted key ++ if c.redisKey = key then [(c.member, c.now)] else [] := by
  unfold entries
  split <;> rename_i h <;> simp [h]

/-- Narrower windows see nothing else. -/
theorem filter_filter_window {l : List (String × ℤ)} {w now later : ℤ} (hle : now ≤ later) :
    (l.filter (now - w < ·.2)).filter (later - w < ·.2) = l.filter (later - w < ·.2) := by
  rw [List.filter_filter]
  refine List.filter_congr fun x _ => ?_
  simp only [Bool.and_eq_left_iff_imp, decide_eq_true_eq]
  omega

/-- What a call in time can see is all that is stored in its window. -/
theorem members_filter (hin : InTime db c) :
    (members db c.serverNow c.redisKey).filter (c.cutoffMs < ·.2) =
      (stored db c.redisKey).filter (c.cutoffMs < ·.2) := by
  by_cases hexp : Expired db c.serverNow c.redisKey
  · rw [SortedSets.members_of_expired hexp, List.filter_nil, eq_comm, List.filter_eq_nil_iff]
    intro x hx
    simpa using hin hexp x hx
  · rw [SortedSets.members_of_not_expired hexp]

/-- The set behind the pruning has the members of the history that are in the window. -/
theorem members_prune (h : Agrees window db admitted time) (htime : time ≤ c.now)
    (hin : InTime db c) (hwindow : c.windowMs = window c.redisKey) :
    members (zremrangebyscore db c.serverNow c.redisKey c.cutoffMs) c.serverNow c.redisKey =
      (entries admitted c.redisKey).filter (c.now - window c.redisKey < ·.2) := by
  rw [SortedSets.members_zremrangebyscore, members_filter hin, cutoffMs_eq, hwindow]
  exact h _ _ htime

/-- The count of the script is that of the history. -/
theorem zcard_eq (h : Agrees window db admitted time) (htime : time ≤ c.now) (hin : InTime db c)
    (hpast : ∀ d ∈ admitted, d.now ≤ c.now) (hwindow : c.windowMs = window c.redisKey) :
    zcard (zremrangebyscore db c.serverNow c.redisKey c.cutoffMs) c.serverNow c.redisKey =
      SlidingWindow.recent window (history admitted) c.redisKey c.now := by
  rw [zcard, members_prune h htime hin hwindow, SlidingWindow.recent, history, entries,
    List.countP_map, List.filter_map, List.length_map, List.filter_filter,
    ← List.countP_eq_length_filter]
  refine List.countP_congr fun d hd => ?_
  have := hpast d hd
  simp [and_comm, this]

theorem agrees_prune (h : Agrees window db admitted time) (htime : time ≤ c.now)
    (hin : InTime db c) (hwindow : c.windowMs = window c.redisKey) :
    Agrees window (zremrangebyscore db c.serverNow c.redisKey c.cutoffMs) admitted c.now := by
  intro key later hlater
  rw [SortedSets.stored_zremrangebyscore]
  split
  · rename_i hkey
    rw [members_filter hin, cutoffMs_eq, hwindow, hkey, filter_filter_window hlater]
    exact h _ _ (htime.trans hlater)
  · exact h _ _ (htime.trans hlater)

theorem agrees_add (h : Agrees window db admitted time) (htime : time ≤ c.now) (hin : InTime db c)
    (hpast : ∀ d ∈ admitted, d.now ≤ c.now) (hwindow : c.windowMs = window c.redisKey)
    (hfresh : c.member ∉ admitted.map HitCall.member) :
    Agrees window
      (pexpire (zadd (zremrangebyscore db c.serverNow c.redisKey c.cutoffMs) c.serverNow c.redisKey
        c.now c.member) c.serverNow c.redisKey c.windowMs) (admitted ++ [c]) c.now := by
  have hnew : ((entries admitted c.redisKey).filter (c.now - window c.redisKey < ·.2)).filter
      (·.1 ≠ c.member) =
      (entries admitted c.redisKey).filter (c.now - window c.redisKey < ·.2) := by
    refine List.filter_eq_self.2 fun x hx => decide_eq_true ?_
    obtain ⟨d, hd, rfl⟩ := List.mem_map.1 (List.mem_of_mem_filter hx)
    exact fun heq => hfresh (List.mem_map.2 ⟨d, List.mem_of_mem_filter hd, heq⟩)
  intro key later hlater
  rw [SortedSets.stored_pexpire_zadd, entries_concat, List.filter_append]
  split
  · rename_i hkey
    subst hkey
    rw [if_pos rfl]
    split
    · rw [members_prune h htime hin hwindow, hnew, List.filter_append,
        filter_filter_window hlater]
    · -- without a window the key is deleted, and nothing in the history counts
      rename_i hempty
      rw [hwindow] at hempty
      symm
      rw [List.filter_nil, List.append_eq_nil_iff, List.filter_eq_nil_iff, List.filter_eq_nil_iff]
      constructor
      · intro x hx
        obtain ⟨d, hd, rfl⟩ := List.mem_map.1 hx
        have hd' := hpast d (List.mem_of_mem_filter hd)
        simp only [decide_eq_true_eq]
        omega
      · simp only [List.mem_singleton, forall_eq, decide_eq_true_eq]
        omega
  · rename_i hkey
    rw [if_neg (Ne.symm hkey), List.filter_nil, List.append_nil]
    exact agrees_prune h htime hin hwindow key later hlater

theorem agrees_hitWindow (h : Agrees window db admitted time) (htime : time ≤ c.now)
    (hin : InTime db c) (hpast : ∀ d ∈ admitted, d.now ≤ c.now)
    (hwindow : c.windowMs = window c.redisKey)
    (hfresh : c.member ∉ admitted.map HitCall.member) :
    (hitWindow c db).1 = SlidingWindow.admits window (history admitted) c.hit ∧
      Agrees window (hitWindow c db).2
        (admitted ++ if (hitWindow c db).1 then [c] else []) c.now := by
  have hcount := zcard_eq h htime hin hpast hwindow
  unfold hitWindow script
  simp only [hcount]
  by_cases hfull : c.limit ≤ SlidingWindow.recent window (history admitted) c.redisKey c.now
  · rw [if_pos hfull]
    refine ⟨(decide_eq_false (Nat.not_lt.2 hfull)).symm, ?_⟩
    simpa using agrees_prune h htime hin hwindow
  · rw [if_neg hfull]
    refine ⟨(decide_eq_true (Nat.lt_of_not_le hfull)).symm, ?_⟩
    simpa using agrees_add h htime hin hpast hwindow hfresh

end Call

/-! ### Every call -/

/-- What is true between two calls. -/
structure Ready (window : String → ℤ) (db : RateDb) (admitted : List HitCall) (time : ℤ)
    (calls : List HitCall) : Prop where
  agrees : Agrees window db admitted time
  inTime : AllInTime db calls
  sorted : calls.Pairwise fun a b => a.now ≤ b.now
  ahead : ∀ c ∈ calls, time ≤ c.now
  past : ∀ d ∈ admitted, d.now ≤ time
  nodup : ((admitted ++ calls).map HitCall.member).Nodup
  windowMs_eq : ∀ c ∈ calls, c.windowMs = window c.redisKey

/-- The calls that are admitted. -/
def admittedCalls : RateDb → List HitCall → List HitCall
  | _, [] => []
  | db, c :: calls =>
    (if (hitWindow c db).1 then [c] else []) ++ admittedCalls (hitWindow c db).2 calls

/-- The sets behind calls one after the other. -/
def dbAfter : RateDb → List HitCall → RateDb
  | db, [] => db
  | db, c :: calls => dbAfter (hitWindow c db).2 calls

section Run

variable {window : String → ℤ} {db : RateDb} {admitted : List HitCall} {time : ℤ} {c : HitCall}
  {calls : List HitCall}

theorem Ready.step (h : Ready window db admitted time (c :: calls)) :
    (hitWindow c db).1 = SlidingWindow.admits window (history admitted) c.hit ∧
      Ready window (hitWindow c db).2 (admitted ++ if (hitWindow c db).1 then [c] else [])
        c.now calls := by
  have hpast : ∀ d ∈ admitted, d.now ≤ c.now := fun d hd =>
    (h.past d hd).trans (h.ahead c List.mem_cons_self)
  have hfresh : c.member ∉ admitted.map HitCall.member := by
    have hnodup := h.nodup
    rw [List.map_append, List.nodup_append] at hnodup
    exact fun hmem => hnodup.2.2 _ hmem _ (by simp) rfl
  obtain ⟨hanswer, hagrees⟩ := agrees_hitWindow h.agrees (h.ahead c List.mem_cons_self)
    h.inTime.1 hpast (h.windowMs_eq c List.mem_cons_self) hfresh
  refine ⟨hanswer, hagrees, h.inTime.2, (List.pairwise_cons.1 h.sorted).2,
    (List.pairwise_cons.1 h.sorted).1,
    ?_, ?_, fun d hd => h.windowMs_eq d (List.mem_cons_of_mem _ hd)⟩
  · intro d hd
    rcases List.mem_append.1 hd with hd | hd
    · exact hpast d hd
    · split at hd
      · rw [List.mem_singleton.1 hd]
      · cases hd
  · refine h.nodup.sublist (List.Sublist.map _ ?_)
    cases (hitWindow c db).1 <;> simp

theorem Ready.answers_eq (h : Ready window db admitted time calls) :
    answers db calls =
      SlidingWindow.verdicts window (history admitted) (calls.map HitCall.hit) := by
  induction calls generalizing db admitted time with
  | nil => rfl
  | cons c calls ih =>
    obtain ⟨hanswer, hready⟩ := h.step
    rw [answers, ih hready, List.map_cons, SlidingWindow.verdicts, ← hanswer]
    cases (hitWindow c db).1 <;> simp [history, HitCall.hit]

theorem Ready.history_admittedCalls (h : Ready window db admitted time calls) :
    history (admittedCalls db calls) =
      SlidingWindow.admitted window (history admitted) (calls.map HitCall.hit) := by
  induction calls generalizing db admitted time with
  | nil => rfl
  | cons c calls ih =>
    obtain ⟨hanswer, hready⟩ := h.step
    have ih := ih hready
    rw [admittedCalls, List.map_cons, SlidingWindow.admitted, ← hanswer]
    cases hok : (hitWindow c db).1 <;> rw [hok] at ih <;>
      simpa [history, HitCall.hit] using ih

theorem Ready.after {before : List HitCall} (h : Ready window db admitted time (before ++ calls)) :
    ∃ time', Ready window (dbAfter db before) (admitted ++ admittedCalls db before) time' calls := by
  induction before generalizing db admitted time with
  | nil => exact ⟨time, by simpa [dbAfter, admittedCalls] using h⟩
  | cons c before ih =>
    obtain ⟨-, hready⟩ := h.step
    obtain ⟨time', hafter⟩ := ih hready
    exact ⟨time', by rwa [List.append_assoc] at hafter⟩

theorem AllInTime.left {rest : List HitCall} (h : AllInTime db (calls ++ rest)) :
    AllInTime db calls := by
  induction calls generalizing db with
  | nil => exact trivial
  | cons c calls ih => exact ⟨h.1, ih h.2⟩

theorem Ready.left {rest : List HitCall} (h : Ready window db admitted time (calls ++ rest)) :
    Ready window db admitted time calls where
  agrees := h.agrees
  inTime := h.inTime.left
  sorted := (List.pairwise_append.1 h.sorted).1
  ahead := fun c hc => h.ahead c (List.mem_append_left _ hc)
  past := h.past
  nodup := h.nodup.sublist (by simp)
  windowMs_eq := fun c hc => h.windowMs_eq c (List.mem_append_left _ hc)

end Run

theorem OneClock.ready {window : String → ℕ} {calls : List HitCall} (h : OneClock window calls)
    (hin : AllInTime (fun _ => none) calls) :
    ∃ time, Ready (windowMsOf window) (fun _ => none) [] time calls := by
  have hwindow : ∀ c ∈ calls, c.windowMs = windowMsOf window c.redisKey := by
    intro c hc
    rw [windowMs_eq, windowMsOf, h.windowSecs_eq c hc]
  obtain ⟨time, htime⟩ : ∃ time, ∀ c ∈ calls, time ≤ c.now := by
    have hsorted := h.sorted
    cases calls with
    | nil => exact ⟨0, by simp⟩
    | cons c calls =>
      rw [List.pairwise_cons] at hsorted
      exact ⟨c.now, List.forall_mem_cons.2 ⟨le_rfl, hsorted.1⟩⟩
  exact ⟨time, fun _ _ _ => rfl, hin, h.sorted, htime, by simp, by simpa using h.members_nodup,
    hwindow⟩

/-- While no key expires with an entry that still counts, every call is answered as by the limiter
that keeps the whole history; and while the limit of a key is the same, no interval as long as its
window has more admitted calls than the limit. -/
theorem hit_window_refines {window : String → ℕ} {calls : List HitCall}
    (h : OneClock window calls) (hin : AllInTime (fun _ => none) calls) :
    answers (fun _ => none) calls =
        SlidingWindow.verdicts (windowMsOf window) [] (calls.map HitCall.hit) ∧
      ∀ before during after, calls = before ++ during ++ after → ∀ key limit,
        (∀ c ∈ during, c.redisKey = key → c.limit = limit) → ∀ start,
          ((admittedCalls (dbAfter (fun _ => none) before) during).countP fun c =>
            c.redisKey = key ∧ start < c.now ∧ c.now ≤ start + windowMsOf window key) ≤ limit := by
  obtain ⟨time, hready⟩ := h.ready hin
  refine ⟨hready.answers_eq, fun before during after hcalls key limit hlimit start => ?_⟩
  rw [hcalls, List.append_assoc] at hready
  obtain ⟨time', hafter⟩ := hready.after
  have hduring := hafter.left
  have hsorted : (during.map HitCall.hit).Pairwise fun a b => a.time ≤ b.time :=
    List.pairwise_map.2 hduring.sorted
  have hbound := @SlidingWindow.countP_admitted_le _ _ (windowMsOf window)
    (history ([] ++ admittedCalls (fun _ => none) before)) _ key limit hsorted
    (by simpa [HitCall.hit] using hlimit) start
  rw [← hduring.history_admittedCalls, history, List.countP_map] at hbound
  exact hbound

/-- A submission of a user, with a limit of one in a minute. -/
def submission (now serverNow : ℤ) (member : String) (h : |now| ≤ 2 ^ 52) : HitCall :=
  ⟨"Submit", "u", 1, 60, now, serverNow, member, h, by decide⟩

/-- The second call is too early, the third is not. -/
def threeCalls : List HitCall :=
  [submission 0 2 "a" (by decide), submission 59998 60001 "b" (by decide),
    submission 60000 60003 "c" (by decide)]

theorem hit_window_refines_three :
    answers (fun _ => none) threeCalls = [true, false, true] ∧
      answers (fun _ => none) threeCalls =
        SlidingWindow.verdicts (windowMsOf fun _ => 60) [] (threeCalls.map HitCall.hit) := by
  refine ⟨by decide +kernel, (hit_window_refines ⟨?_, ?_, ?_, ?_, ?_⟩ (by decide +kernel)).1⟩ <;>
    decide

/-- The script of the second call runs a minute after that of the first one, though its call has
read the clock before a minute was over. -/
def lateCalls : List HitCall :=
  [submission 0 2 "a" (by decide), submission 59999 60003 "b" (by decide)]

theorem hit_window_forgets : OneClock (fun _ => 60) lateCalls ∧
    answers (fun _ => none) lateCalls = [true, true] ∧
      SlidingWindow.verdicts (windowMsOf fun _ => 60) [] (lateCalls.map HitCall.hit) =
        [true, false] ∧
        (admittedCalls (fun _ => none) lateCalls).countP (fun c =>
          c.redisKey = redisKey "Submit" "u" ∧ -1 < c.now ∧ c.now ≤ -1 + 60000) = 2 := by
  refine ⟨⟨?_, ?_, ?_, ?_, ?_⟩, ?_, ?_, ?_⟩
  · decide
  · decide
  · decide
  · decide
  · decide
  · decide +kernel
  · decide +kernel
  · decide +kernel

end FloatCtf.Infrastructure
