import FloatCtf.Net.Text
import FloatCtf.Process.Pipes

/-!
# The script runner

`run_script` starts a script, reads its standard output to the end and then its standard error to
the end, and waits for it.  Every read has the whole time limit for itself.

`runner_meets_iff` says for which scripts this is a time limit and a capture of the output: for the ones
that end in time and write no more to the standard error than its pipe holds.
-/

namespace FloatCtf.Awdp.ScriptRunner

open Pipes

/-- The two pipes of a script. -/
inductive Fd where
  | stdout
  | stderr
  deriving DecidableEq

/-- The exit code of a script, which has none when a signal ends it. -/
abbrev Code := Option Int

/-- A script as a child process. -/
abbrev Script := Child Fd UInt8 Code

/-- A script with its pipes and the clock. -/
abbrev Host := World Fd UInt8 Code

/-- What has come out of a run. -/
structure ScriptOutcome where
  exitCode : Code
  stdout : String
  stderr : String
  durationMs : ℕ
  timedOut : Bool

/-- The limits of a call, in milliseconds and bytes, and the capacity of a pipe. -/
structure Limits where
  timeout : ℕ
  stdoutLimit : ℕ
  stderrLimit : ℕ
  capacity : ℕ
  capacity_pos : 0 < capacity

/-- The length of `buf`. -/
def bufSize : ℕ := 4096

/-- What is kept of the output after another piece of it. -/
def capture (limit : ℕ) (kept items : List UInt8) : List UInt8 :=
  if kept.length < limit then kept ++ items.take (min items.length (limit - kept.length)) else kept

variable (l : Limits) (script : Script)

/-- The loop over one stream; with the bytes that were kept it says whether a read timed out. -/
def readLoop (fd : Fd) (limit : ℕ) : ℕ → Host → List UInt8 → Option (Host × List UInt8 × Bool)
  | 0, _, _ => none
  | fuel + 1, w, kept =>
    match w.readWithin script l.capacity bufSize fd l.timeout with
    | (some [], w) => some (w, kept, false)
    | (some items, w) => readLoop fd limit fuel w (capture limit kept items)
    | (none, w) => some (w, kept, true)

/-- The exit code, whether the time was over, and the host after that. -/
def finish (timedOut : Bool) (w : Host) : Code × Bool × Host :=
  if timedOut then
    let w := w.kill none
    (w.status.join, true, w)
  else
    match w.waitWithin script l.capacity l.timeout with
    | (some code, w) => (code, false, w)
    | (none, w) =>
      let w := w.kill none
      (w.status.join, true, w)

/-- `run_script` from the start of the process on; `fuel` bounds the reads of a stream. -/
def runScript (fuel : ℕ) : Option (ScriptOutcome × Host) :=
  match readLoop l script .stdout l.stdoutLimit fuel (.start .stdout) [] with
  | none => none
  | some (w, stdout, stdoutTimedOut) =>
    match readLoop l script .stderr l.stderrLimit fuel
        (w.closeRead script l.capacity .stdout) [] with
    | none => none
    | some (w, stderr, stderrTimedOut) =>
      let (exitCode, timedOut, w) := finish l script (stdoutTimedOut || stderrTimedOut)
        (w.closeRead script l.capacity .stderr)
      some ({
        exitCode
        stdout := Text.decodeLossy stdout
        stderr := Text.decodeLossy stderr
        durationMs := w.clock
        timedOut }, w)

/-! ## What the runner promises -/

/-- The script, with its output consumed at once, exits within the time limit. -/
def ExitsInTime (k : ℕ) (code : Code) : Prop := script.ExitsAt k code ∧ k + 1 ≤ l.timeout

/-- The runner ends, with the exit code and the output of a script that exits in time, and after
killing one that still runs at the time limit. -/
def Meets : Prop :=
  ∃ fuel out w, runScript l script fuel = some (out, w) ∧
    (∀ k code, ExitsInTime l script k code →
      out.timedOut = false ∧ out.exitCode = code ∧
        out.stdout = Text.decodeLossy ((script.emitted .stdout k).take l.stdoutLimit) ∧
        out.stderr = Text.decodeLossy ((script.emitted .stderr k).take l.stderrLimit)) ∧
    ((¬ ∃ k code, ExitsInTime l script k code) →
      out.timedOut = true ∧ w.killedAt = some l.timeout)

/-! ## One stream -/

section

variable {l : Limits} {script : Script} {fd : Fd} {limit fuel k : ℕ} {code : Code} {w w' : Host}
  {kept kept' : List UInt8} {timedOut : Bool} {read : Fd → List UInt8}

theorem bufSize_pos : 0 < bufSize := by decide

/-- The pieces of the output are kept up to the limit. -/
theorem capture_take (limit : ℕ) (items more : List UInt8) :
    capture limit (items.take limit) more = (items ++ more).take limit := by
  unfold capture
  obtain hlt | hle := Nat.lt_or_ge items.length limit
  · rw [List.take_of_length_le hlt.le, if_pos hlt, List.take_append, List.take_of_length_le hlt.le,
      List.append_cancel_left_eq, List.take_eq_take_iff]
    omega
  · rw [if_neg (by simp [List.length_take]; omega), List.take_append_of_le_length hle]

theorem readLoop_mono {fuel' : ℕ} {r : Host × List UInt8 × Bool}
    (h : readLoop l script fd limit fuel w kept = some r) (hle : fuel ≤ fuel') :
    readLoop l script fd limit fuel' w kept = some r := by
  induction fuel generalizing fuel' w kept with
  | zero => simp [readLoop] at h
  | succ fuel ih =>
    obtain ⟨fuel', rfl⟩ := Nat.exists_eq_succ_of_ne_zero (show fuel' ≠ 0 by omega)
    rw [readLoop] at h ⊢
    split at h
    · exact h
    · exact ih h (by omega)
    · exact h

/-- A loop over a stream keeps what it reads, and ends at the end of the stream or after a read that
took the whole time. -/
theorem tracks_readLoop (h : w.Tracks script l.capacity read)
    (hkept : kept = (read fd).take limit)
    (hloop : readLoop l script fd limit fuel w kept = some (w', kept', timedOut)) :
    ∃ read', w'.Tracks script l.capacity read' ∧ (∀ fd', fd' ≠ fd → read' fd' = read fd') ∧
      kept' = (read' fd).take limit ∧
      (timedOut = false → w'.pipe fd = [] ∧ w'.status.isSome) := by
  subst hkept
  induction fuel generalizing w read with
  | zero => simp [readLoop] at hloop
  | succ fuel ih =>
    rw [readLoop] at hloop
    split at hloop
    next w₁ hread =>
      cases hloop
      refine ⟨_, h.readWithin hread, fun fd' hne => Function.update_of_ne hne _ _, ?_,
        fun _ => World.readWithin_nil bufSize_pos hread⟩
      rw [Function.update_self, List.append_nil]
    next items w₁ _ hread =>
      rw [capture_take] at hloop
      obtain ⟨read', htracks, hothers, hkept, hend⟩ :=
        @ih w₁ (Function.update read fd (read fd ++ items)) (h.readWithin hread)
          (by rwa [Function.update_self])
      refine ⟨read', htracks, fun fd' hne => ?_, hkept, hend⟩
      rw [hothers fd' hne, Function.update_of_ne hne]
    next w₁ hread =>
      cases hloop
      exact ⟨read, h.readWithin_none hread, fun _ _ => rfl, rfl, fun hin => by cases hin⟩

/-- A stream ends when the reads of it do not time out. -/
theorem exists_readLoop (P : Host → Prop) (hexit : script.ExitsAt k code)
    (hstep : ∀ w read, w.Tracks script l.capacity read → P w → ∃ items w',
      w.readWithin script l.capacity bufSize fd l.timeout = (some items, w') ∧ P w')
    (h : w.Tracks script l.capacity read) (hw : P w) (kept : List UInt8) :
    ∃ fuel w' kept', readLoop l script fd limit fuel w kept = some (w', kept', false) ∧ P w' := by
  induction hm : (script.emitted fd k).length - (read fd).length using Nat.strong_induction_on
    generalizing w read kept with
  | _ m ih =>
    subst hm
    obtain ⟨items, w₁, hread, hw₁⟩ := hstep w read h hw
    cases items with
    | nil => exact ⟨1, w₁, kept, by rw [readLoop, hread], hw₁⟩
    | cons a as =>
      have htracks := h.readWithin hread
      have hle := (htracks.read_prefix hexit fd).length_le
      rw [Function.update_self, List.length_append, List.length_cons] at hle
      obtain ⟨fuel, w', kept', hloop, hw'⟩ := ih _ (by
        rw [Function.update_self, List.length_append, List.length_cons]
        omega) htracks hw₁ (capture limit kept (a :: as)) rfl
      exact ⟨fuel + 1, w', kept', by rw [readLoop, hread]; exact hloop, hw'⟩

theorem clock_readLoop
    (hloop : readLoop l script fd limit fuel w kept = some (w', kept', timedOut)) :
    w.clock ≤ w'.clock ∧ w'.killedAt = w.killedAt ∧
      (timedOut = true → w.clock + l.timeout ≤ w'.clock) ∧
      (timedOut = false → w'.status.isSome) := by
  induction fuel generalizing w kept with
  | zero => simp [readLoop] at hloop
  | succ fuel ih =>
    rw [readLoop] at hloop
    split at hloop
    next w₁ hread =>
      cases hloop
      exact ⟨World.clock_le_readWithin hread, World.killedAt_readWithin hread, nofun,
        fun _ => (World.readWithin_nil bufSize_pos hread).2⟩
    next items w₁ _ hread =>
      obtain ⟨hclock, hkilled, htime, hend⟩ := ih hloop
      have hle := World.clock_le_readWithin hread
      exact ⟨by omega, hkilled.trans (World.killedAt_readWithin hread),
        fun ht => by have := htime ht; omega, hend⟩
    next w₁ hread =>
      cases hloop
      have hclock := World.clock_readWithin_none hread
      exact ⟨by omega, World.killedAt_readWithin hread, fun _ => hclock.ge, nofun⟩

/-- No read times out after the exit. -/
theorem readLoop_of_status (hs : w.status.isSome)
    (hloop : readLoop l script fd limit fuel w kept = some (w', kept', timedOut)) :
    timedOut = false := by
  induction fuel generalizing w kept with
  | zero => simp [readLoop] at hloop
  | succ fuel ih =>
    obtain ⟨items, w₁, hread, hs₁⟩ : ∃ items w₁,
        w.readWithin script l.capacity bufSize fd l.timeout = (some items, w₁) ∧
          w₁.status = w.status :=
      World.readWithin_of_status hs
    rw [readLoop, hread] at hloop
    cases items with
    | nil =>
      cases hloop
      rfl
    | cons a as => exact ih (hs₁ ▸ hs) hloop

theorem finish_of_status (hs : w.status = some code) :
    finish l script false w = (code, false, w) := by
  have hwait : w.waitWithin script l.capacity l.timeout = (some code, w) := by
    cases l.timeout <;> simp [World.waitWithin, hs]
  simp [finish, hwait]

theorem runScript_of_loops {w₁ w₂ w₃ : Host} {stdout stderr : List UInt8} {t₁ t₂ : Bool}
    (hout : readLoop l script .stdout l.stdoutLimit fuel (.start .stdout) [] =
      some (w₁, stdout, t₁))
    (herr : readLoop l script .stderr l.stderrLimit fuel
      (w₁.closeRead script l.capacity .stdout) [] = some (w₂, stderr, t₂))
    (hfinish : finish l script (t₁ || t₂) (w₂.closeRead script l.capacity .stderr) =
      (code, timedOut, w₃)) :
    runScript l script fuel = some (⟨code, Text.decodeLossy stdout, Text.decodeLossy stderr,
      w₃.clock, timedOut⟩, w₃) := by
  simp only [runScript, hout, herr, hfinish]

/-- The loops and the end of a call. -/
theorem runScript_eq_some {out : ScriptOutcome}
    (h : runScript l script fuel = some (out, w)) :
    ∃ w₁ w₂ stdout stderr t₁ t₂,
      readLoop l script .stdout l.stdoutLimit fuel (.start .stdout) [] = some (w₁, stdout, t₁) ∧
      readLoop l script .stderr l.stderrLimit fuel (w₁.closeRead script l.capacity .stdout) [] =
        some (w₂, stderr, t₂) ∧
      finish l script (t₁ || t₂) (w₂.closeRead script l.capacity .stderr) =
        (out.exitCode, out.timedOut, w) := by
  unfold runScript at h
  split at h
  · cases h
  next w₁ stdout t₁ hout =>
    split at h
    · cases h
    next w₂ stderr t₂ herr =>
      cases h
      exact ⟨w₁, w₂, stdout, stderr, t₁, t₂, hout, herr, rfl⟩

end

/-! ## The time limit and the capture -/

section

variable {l : Limits} {script : Script} {fuel k : ℕ} {code : Code} {w : Host} {out : ScriptOutcome}

/-- A script that writes more to the standard error than its pipe holds is stopped by the time
limit. -/
theorem timedOut_of_capacity_lt (hexit : script.ExitsAt k code)
    (hlt : l.capacity < (script.emitted .stderr k).length)
    (h : runScript l script fuel = some (out, w)) : out.timedOut = true := by
  obtain ⟨w₁, w₂, stdout, stderr, t₁, t₂, hout, -, hfinish⟩ := runScript_eq_some h
  obtain ⟨read, htracks, hothers, -, hend⟩ :=
    tracks_readLoop (World.tracks_start .stdout) List.take_nil.symm hout
  cases t₁ with
  | true => simpa [finish] using (congrArg (·.2.1) hfinish).symm
  | false =>
    have hstream := (htracks.stream_of_status hexit (hend rfl).2).2 .stderr
    rw [hothers .stderr (by decide), List.nil_append] at hstream
    have hroom := htracks.room .stderr
    rw [hstream] at hroom
    omega

/-- A script is killed after twice the time limit at the earliest. -/
theorem killedAt_ne (htime : 0 < l.timeout) (h : runScript l script fuel = some (out, w)) :
    w.killedAt ≠ some l.timeout := by
  obtain ⟨w₁, w₂, stdout, stderr, t₁, t₂, hout, herr, hfinish⟩ := runScript_eq_some h
  obtain ⟨hclock₁, hkilled₁, htime₁, hend₁⟩ := clock_readLoop hout
  obtain ⟨hclock₂, hkilled₂, htime₂, hend₂⟩ := clock_readLoop herr
  rw [World.clock_closeRead] at hclock₂ htime₂
  rw [World.killedAt_closeRead, hkilled₁] at hkilled₂
  have hkept : (w₂.closeRead script l.capacity .stderr).killedAt = none := by
    rw [World.killedAt_closeRead, hkilled₂]
    rfl
  cases t₁ with
  | false =>
    -- the script has exited before the second loop
    have hs₁ : (w₁.closeRead script l.capacity .stdout).status.isSome := by
      rw [World.closeRead_of_status (hend₁ rfl)]
      exact hend₁ rfl
    obtain rfl := readLoop_of_status hs₁ herr
    obtain ⟨code, hcode⟩ := Option.isSome_iff_exists.1 (hend₂ rfl)
    have hs₂ : (w₂.closeRead script l.capacity .stderr).status = some code := by
      rw [World.closeRead_of_status (hend₂ rfl)]
      exact hcode
    rw [Bool.or_false, finish_of_status hs₂] at hfinish
    have hw : w₂.closeRead script l.capacity .stderr = w := congrArg (·.2.2) hfinish
    rw [← hw, hkept]
    nofun
  | true =>
    have hw : (w₂.closeRead script l.capacity .stderr).kill none = w := congrArg (·.2.2) hfinish
    rw [← hw, World.kill]
    split
    next =>
      rw [hkept]
      nofun
    next hrun =>
      have ht₂ : t₂ = true := by
        by_contra hne
        have hs₂ := hend₂ (by simpa using hne)
        exact hrun (by rw [World.closeRead_of_status hs₂]; exact hs₂)
      have h₁ := htime₁ rfl
      have h₂ := htime₂ ht₂
      simp only [World.clock_closeRead, ne_eq, Option.some.injEq]
      omega

/-- A script in time that leaves room in the pipe of the standard error. -/
theorem meets_of_fits (hexit : ExitsInTime l script k code)
    (hfits : (script.emitted .stderr k).length ≤ l.capacity) : Meets l script := by
  obtain ⟨hexit, htime⟩ := hexit
  -- the standard output, to its end
  have hothers : ∀ fd', fd' ≠ Fd.stdout → (script.emitted fd' k).length ≤ l.capacity := by
    rintro (_ | _) hne
    · exact absurd rfl hne
    · exact hfits
  obtain ⟨f₁, w₁, stdout, hout, -⟩ : ∃ fuel w₁ stdout,
      readLoop l script .stdout l.stdoutLimit fuel (.start .stdout) [] =
        some (w₁, stdout, false) ∧ True := by
    refine exists_readLoop (fun _ => True) hexit (fun w read h _ => ?_)
      (World.tracks_start .stdout) trivial []
    obtain ⟨items, w', hread⟩ :=
      h.exists_read (n := l.timeout) l.capacity_pos hexit hothers (by omega)
    exact ⟨items, w', hread, trivial⟩
  obtain ⟨read₁, htracks₁, hothers₁, hkept₁, hend₁⟩ :=
    tracks_readLoop (World.tracks_start .stdout) List.take_nil.symm hout
  obtain ⟨hpipe₁, hs₁⟩ := hend₁ rfl
  -- the standard error, after the exit
  have hclosed : (w₁.closeRead script l.capacity .stdout).Tracks script l.capacity read₁ :=
    htracks₁.closeRead hs₁
  have hs₁' : (w₁.closeRead script l.capacity .stdout).status.isSome := by
    rwa [World.closeRead_of_status hs₁]
  obtain ⟨f₂, w₂, stderr, herr, hs₂⟩ : ∃ fuel w₂ stderr,
      readLoop l script .stderr l.stderrLimit fuel (w₁.closeRead script l.capacity .stdout) [] =
        some (w₂, stderr, false) ∧ w₂.status.isSome := by
    refine exists_readLoop (fun w => w.status.isSome) hexit (fun w read _ hs => ?_) hclosed hs₁' []
    obtain ⟨items, w', hread, hs'⟩ : ∃ items w',
        w.readWithin script l.capacity bufSize .stderr l.timeout = (some items, w') ∧
          w'.status = w.status :=
      World.readWithin_of_status hs
    exact ⟨items, w', hread, hs' ▸ hs⟩
  have hnone : read₁ .stderr = [] := hothers₁ .stderr (by decide)
  obtain ⟨read₂, htracks₂, hothers₂, hkept₂, hend₂⟩ :=
    tracks_readLoop hclosed (by rw [hnone, List.take_nil]) herr
  obtain ⟨hpipe₂, -⟩ := hend₂ rfl
  -- the exit
  obtain ⟨-, hstream₁⟩ := htracks₁.stream_of_status hexit hs₁
  obtain ⟨hcode, hstream₂⟩ := htracks₂.stream_of_status hexit hs₂
  have hfinish : finish l script false (w₂.closeRead script l.capacity .stderr) =
      (code, false, w₂.closeRead script l.capacity .stderr) := by
    refine finish_of_status ?_
    rw [World.closeRead_of_status hs₂]
    exact hcode
  refine ⟨max f₁ f₂, _, _, runScript_of_loops (readLoop_mono hout (le_max_left f₁ f₂))
    (readLoop_mono herr (le_max_right f₁ f₂)) hfinish, fun k' code' hexit' => ?_, fun hnot => ?_⟩
  · obtain ⟨rfl, rfl⟩ := hexit.unique hexit'.1
    have hout₁ := hstream₁ .stdout
    have herr₂ := hstream₂ .stderr
    rw [hpipe₁, List.append_nil] at hout₁
    rw [hpipe₂, List.append_nil] at herr₂
    exact ⟨rfl, rfl, by rw [hkept₁, hout₁], by rw [hkept₂, herr₂]⟩
  · exact absurd ⟨k, code, hexit, htime⟩ hnot

/-- Without any time the script is killed at once. -/
theorem meets_of_timeout_eq_zero (htime : l.timeout = 0) : Meets l script := by
  have hread (fd : Fd) (closed : Fd → Bool) (limit : ℕ) :
      readLoop l script fd limit 1 { (World.start .stdout : Host) with closed } [] =
        some ({ (World.start .stdout : Host) with closed }, [], true) := by
    simp [readLoop, htime, World.readWithin, World.poll, World.start]
  have hclose (fd : Fd) (closed : Fd → Bool) :
      World.closeRead script l.capacity fd { (World.start .stdout : Host) with closed } =
        { (World.start .stdout : Host) with closed := Function.update closed fd true } := by
    simp [World.closeRead, World.settle, World.start]
  have hout := hread .stdout (fun _ => false) l.stdoutLimit
  have herr := hread .stderr (Function.update (fun _ => false) .stdout true) l.stderrLimit
  rw [← hclose] at herr
  refine ⟨1, _, _, runScript_of_loops hout herr rfl, fun k code hexit => ?_, fun _ => ?_⟩
  · have := hexit.2
    omega
  · rw [htime]
    exact ⟨rfl, rfl⟩

/-- The runner does what it promises exactly when it has no time at all or the script exits in time
and leaves room in the pipe of the standard error. -/
theorem runner_meets_iff (l : Limits) (script : Script) :
    Meets l script ↔ l.timeout = 0 ∨ ∃ k code, ExitsInTime l script k code ∧
      (script.emitted .stderr k).length ≤ l.capacity := by
  constructor
  · rintro ⟨fuel, out, w, hrun, hin, hlate⟩
    refine or_iff_not_imp_left.2 fun htime => ?_
    by_cases hexit : ∃ k code, ExitsInTime l script k code
    · obtain ⟨k, code, hexit⟩ := hexit
      refine ⟨k, code, hexit, not_lt.1 fun hlt => ?_⟩
      have hout := timedOut_of_capacity_lt hexit.1 hlt hrun
      rw [(hin k code hexit).1] at hout
      exact absurd hout nofun
    · exact absurd (hlate hexit).2 (killedAt_ne (Nat.pos_of_ne_zero htime) hrun)
  · rintro (htime | ⟨k, code, hexit, hfits⟩)
    · exact meets_of_timeout_eq_zero htime
    · exact meets_of_fits hexit hfits

/-- A script that writes a traceback of 65537 bytes and exits. -/
def traceback : Script where
  act
    | 0 => .write .stderr (List.replicate 65537 46)
    | 1 => .exit (some 0)
    | _ => .idle
  sigpipe := none

/-- A minute, a mebibyte for either stream and the usual pipes. -/
def minute : Limits where
  timeout := 60000
  stdoutLimit := 1048576
  stderrLimit := 1048576
  capacity := 65536
  capacity_pos := by decide

theorem not_runner_meets : ¬ Meets minute traceback := by
  rintro ⟨fuel, out, w, hrun, hin, -⟩
  have hexit : ExitsInTime minute traceback 1 (some 0) := by
    refine ⟨⟨rfl, fun i hi s => ?_⟩, by decide⟩
    obtain rfl : i = 0 := by omega
    intro hact
    cases hact
  have hlt : minute.capacity < (traceback.emitted .stderr 1).length := by
    simp only [Child.emitted, traceback, Act.itemsTo, if_true, List.nil_append,
      List.length_replicate]
    decide
  have hout := timedOut_of_capacity_lt hexit.1 hlt hrun
  rw [(hin 1 (some 0) hexit).1] at hout
  cases hout

end

end FloatCtf.Awdp.ScriptRunner
