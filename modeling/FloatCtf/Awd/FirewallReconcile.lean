import FloatCtf.Awd.Firewall
import FloatCtf.Net.Text
import FloatCtf.Process.Visits
import Mathlib.Data.List.Infix

/-!
# Installing the firewall table

`NftablesFirewallRuntime`: `reconcile` replaces the installed table `floatctf_awd` by the one that
`render_table` writes.  A command either takes effect as a whole or not at all, and the environment
says which.

`nft` is a parameter: what loading a file makes of the installed table, and how it lists a table.
Loading goes on top of an installed table, so `reconcile` deletes that one first, with a command of
its own.
-/

namespace FloatCtf.Awd

open Process

/-! ## What is observed -/

/-- The characters behind the first occurrence of a pattern. -/
def afterFirst (pat : List Char) : List Char → Option (List Char)
  | [] => if pat = [] then some [] else none
  | c :: cs => if pat <+: c :: cs then some ((c :: cs).drop pat.length) else afterFirst pat cs

/-- The value of a string of decimal digits, if it fits into 64 bits. -/
def parseU64 (digits : List Char) : Option Nat :=
  let n := digits.foldl (fun n c => 10 * n + (c.toNat - '0'.toNat)) 0
  if digits ≠ [] ∧ n < 2 ^ 64 then some n else none

/-- What is read of the installed table. -/
structure ObservedFirewallState where
  tableExists : Bool
  observedRevision : Option Nat
  eventChains : List (List Char)
  deriving DecidableEq

/-- The revision that a line of the listing carries. -/
def lineRevision (line : List Char) : Option Nat :=
  (afterFirst "managed-by=floatctf revision=".toList line).bind fun rest =>
    parseU64 (rest.takeWhile Char.isDigit)

/-- The chain of an event that a line of the listing opens. -/
def lineChain (line : List Char) : Option (List Char) :=
  if "chain event_".toList <+: line then
    let name := (line.drop "chain event_".length).takeWhile fun c => c.isAlphanum || c == '_'
    if name = [] then none else some ("event_".toList ++ name)
  else none

/-- A line without whitespace at both ends. -/
def trimLine (line : List Char) : List Char :=
  ((line.dropWhile Text.isWhitespace).reverse.dropWhile Text.isWhitespace).reverse

/-- The header of the table. -/
def tableHeader : List Char := "table inet floatctf_awd".toList

/-- `parse_observed_table`: what the listing of the table shows. -/
def parseObservedTable (output : List Char) : ObservedFirewallState where
  tableExists := tableHeader <:+: output
  observedRevision := ((output.splitOn '\n').filterMap fun line => lineRevision (trimLine line)).getLast?
  eventChains := (output.splitOn '\n').filterMap fun line => lineChain (trimLine line)

/-! ## The commands -/

/-- The file that `render_table` writes: the revision in its comment, and the table. -/
structure RulesetFile where
  revision : Nat
  table : FwTable

/-- Packet filter tables as `nft` keeps them: what it makes of a file, and how it lists a table. -/
structure Nft (T : Type) where
  load : RulesetFile → Option T → T
  print : T → List Char
  header_print : ∀ t, tableHeader <:+: print t

/-- The two listings of a run. -/
inductive Listing where
  | inspect | verify
  deriving DecidableEq

/-- What can fail: a file, a check, a listing that does not start or does not exit with zero, the
deletion, and the loading of the table. -/
inductive FirewallStep where
  | rulesetFile | check | deleteFile
  | list (which : Listing) | exit (which : Listing)
  | delete | apply
  deriving DecidableEq

variable {T : Type} (nft : Nft T) (eventKey : Nat → String) (report : FirewallStep → String)

/-- A run of the reconciler, command by command. -/
abbrev FirewallProg (T : Type) := Prog FirewallStep (Option T) AwdError

/-- The file for a desired state. -/
def renderFile (desired : DesiredFirewallState) : RulesetFile :=
  ⟨desired.revision, renderTable eventKey desired⟩

/-- The table that the file makes where none is installed. -/
def rendered (desired : DesiredFirewallState) : T := nft.load (renderFile eventKey desired) none

/-- The output of the listing; without a table the command exits with an error. -/
def listTable (which : Listing) : FirewallProg T (List Char) := do
  Prog.query (.list which) (.network (report (.list which))) fun _ => ()
  .stmt (.exit which) id (fun s => .ret ((s.map nft.print).getD [])) fun _ => .ret []

/-- Lists the installed table. -/
def inspect : FirewallProg T ObservedFirewallState := do
  return parseObservedTable (← listTable nft report .inspect)

/-- A step that changes no table. -/
def prepare (step : FirewallStep) : FirewallProg T Unit :=
  Prog.query step (.network (report step)) fun _ => ()

/-- Deletes the installed table. -/
def deleteTable : FirewallProg T Unit :=
  Prog.exec .delete (.network (report .delete)) fun _ => .ok (none, ())

/-- Loads a file. -/
def applyFile (file : RulesetFile) : FirewallProg T Unit :=
  Prog.exec .apply (.network (report .apply)) fun s => .ok (some (nft.load file s), ())

/-- The chain of an event. -/
def eventChain (e : DesiredEventPolicy) : List Char := "event_".toList ++ (eventKey e.eventId).toList

/-- The `Debug` format of an optional number. -/
def debugRevision : Option Nat → String
  | none => "None"
  | some n => "Some(" ++ toString n ++ ")"

/-- What `verify` finds wrong with an observed table. -/
def verifyNotes (desired : DesiredFirewallState) (observed : ObservedFirewallState) : List String :=
  (if observed.tableExists then [] else ["table inet floatctf_awd missing"]) ++
    (if observed.observedRevision = some desired.revision then [] else
      ["revision mismatch: desired=" ++ toString desired.revision ++
        " observed=" ++ debugRevision observed.observedRevision]) ++
    (desired.events.filter fun e => !observed.eventChains.contains (eventChain eventKey e)).map
      fun e => "missing chain event_" ++ eventKey e.eventId

/-- Lists the table again and notes what differs. -/
def verify (desired : DesiredFirewallState) : FirewallProg T (List String) := do
  return verifyNotes eventKey desired (parseObservedTable (← listTable nft report .verify))

/-- Deletes the table if there is one. -/
def deleteIf (tableExists : Bool) : FirewallProg T Unit :=
  if tableExists then deleteTable report else pure ()

/-- Nothing is desired: an observed table goes. -/
def clear : FirewallProg T Unit := do
  let observed ← inspect nft report
  if observed.tableExists then do
    prepare report .deleteFile
    deleteTable report
  else pure ()

/-- The rendered table is loaded, and verified. -/
def loadRendered (desired : DesiredFirewallState) : FirewallProg T Unit := do
  applyFile nft report (renderFile eventKey desired)
  let notes ← verify nft eventKey report desired
  if notes = [] then pure ()
  else .fail (.network ("nft reconcile verify failed: " ++ "; ".intercalate notes))

/-- The installed table is deleted, then the rendered one takes its place. -/
def replace (desired : DesiredFirewallState) : FirewallProg T Unit := do
  prepare report .rulesetFile
  prepare report .check
  prepare report .deleteFile
  let observed ← inspect nft report
  deleteIf report observed.tableExists
  loadRendered nft eventKey report desired

/-- `reconcile` up to its answer. -/
def carryOut (desired : DesiredFirewallState) : FirewallProg T Unit :=
  if desired.events.isEmpty then clear nft report else replace nft eventKey report desired

/-- `reconcile`; on success it answers with the revision. -/
def reconcile (desired : DesiredFirewallState) : FirewallProg T Nat := do
  carryOut nft eventKey report desired
  return desired.revision

/-! ## One run -/

variable {nft eventKey report} {ans : FirewallStep → Bool} {d : DesiredFirewallState} {s u : Option T}
  {t : T} {w : Listing} {step : FirewallStep}

/-- What the listing of a run answers. -/
def listed (nft : Nft T) (ans : FirewallStep → Bool) (w : Listing) (s : Option T) : List Char :=
  if ans (.exit w) then (s.map nft.print).getD [] else []

theorem run_listTable : (listTable nft report w).run ans s =
    (s, if ans (.list w) then .ok (listed nft ans w s) else .error (.network (report (.list w)))) := by
  simp only [listTable, listed, Prog.run_bind, Prog.query, Prog.run, id]
  split_ifs <;> rfl

theorem visits_listTable : (listTable nft report w).Visits ans s u ↔ u = s := by
  simp only [listTable, Prog.visits_bind, Prog.query, Prog.Visits, Prog.run, id]
  split_ifs <;> simp

theorem parse_nil : (parseObservedTable []).tableExists = false := by decide

theorem parse_print : (parseObservedTable (nft.print t)).tableExists = true :=
  decide_eq_true (nft.header_print t)

theorem run_inspect : (inspect nft report).run ans s =
    (s, if ans (.list .inspect) then .ok (parseObservedTable (listed nft ans .inspect s))
      else .error (.network (report (.list .inspect)))) := by
  simp only [inspect, Prog.run_bind, run_listTable]
  split_ifs <;> rfl

theorem visits_inspect : (inspect nft report).Visits ans s u ↔ u = s := by
  simp only [inspect, Prog.visits_bind, visits_listTable, run_listTable, or_iff_left_iff_imp]
  rintro ⟨a, -, h⟩
  exact h

theorem run_verify : (verify nft eventKey report d).run ans s =
    (s, if ans (.list .verify) then
        .ok (verifyNotes eventKey d (parseObservedTable (listed nft ans .verify s)))
      else .error (.network (report (.list .verify)))) := by
  simp only [verify, Prog.run_bind, run_listTable]
  split_ifs <;> rfl

theorem visits_verify : (verify nft eventKey report d).Visits ans s u ↔ u = s := by
  simp only [verify, Prog.visits_bind, visits_listTable, run_listTable, or_iff_left_iff_imp]
  rintro ⟨a, -, h⟩
  exact h

theorem run_prepare : (prepare report step : FirewallProg T Unit).run ans s =
    (s, if ans step then .ok () else .error (.network (report step))) := by
  simp only [prepare, Prog.query, Prog.run, id]
  split_ifs <;> rfl

theorem visits_prepare : (prepare report step : FirewallProg T Unit).Visits ans s u ↔ u = s :=
  Prog.visits_query

theorem run_deleteTable : (deleteTable report : FirewallProg T Unit).run ans s =
    if ans .delete then (none, .ok ()) else (s, .error (.network (report .delete))) := rfl

theorem visits_deleteTable : (deleteTable report : FirewallProg T Unit).Visits ans s u ↔
    u = s ∨ ans .delete = true ∧ u = none := Prog.visits_exec

theorem run_applyFile {file : RulesetFile} : (applyFile nft report file).run ans s =
    if ans .apply then (some (nft.load file s), .ok ())
    else (s, .error (.network (report .apply))) := rfl

theorem visits_applyFile {file : RulesetFile} : (applyFile nft report file).Visits ans s u ↔
    u = s ∨ ans .apply = true ∧ u = some (nft.load file s) := Prog.visits_exec

/-! ## Atomicity -/

variable (nft eventKey report)

/-- A failed run leaves the old table or the rendered one, and no run goes through a state without
a table when one was installed. -/
structure Atomic (desired : DesiredFirewallState) (ans : FirewallStep → Bool) (before : Option T) :
    Prop where
  failed : ∀ e, ((reconcile nft eventKey report desired).run ans before).2 = .error e →
    ((reconcile nft eventKey report desired).run ans before).1 = before ∨
      ((reconcile nft eventKey report desired).run ans before).1 = some (rendered nft eventKey desired)
  installed : before ≠ none →
    ¬ (reconcile nft eventKey report desired).Visits ans before none

/-- The steps in front of the deletion succeed, the listing included, and so does the deletion. -/
def Deletes (desired : DesiredFirewallState) (ans : FirewallStep → Bool) : Prop :=
  (desired.events ≠ [] → ans .rulesetFile ∧ ans .check) ∧ ans .deleteFile ∧
    ans (.list .inspect) ∧ ans (.exit .inspect) ∧ ans .delete

/-- The listing exits with an error, and the file is loaded all the same. -/
def LoadsUnseen (desired : DesiredFirewallState) (ans : FirewallStep → Bool) : Prop :=
  desired.events ≠ [] ∧ ans .rulesetFile ∧ ans .check ∧ ans .deleteFile ∧
    ans (.list .inspect) ∧ ¬ ans (.exit .inspect) ∧ ans .apply

/-- The table passes the verification. -/
def Verified (desired : DesiredFirewallState) (ans : FirewallStep → Bool) (t : T) : Prop :=
  ans (.list .verify) ∧ ans (.exit .verify) ∧
    verifyNotes eventKey desired (parseObservedTable (nft.print t)) = []

variable {nft eventKey report}

theorem visits_pure {α : Type} (a : α) :
    (pure a : FirewallProg T α).Visits ans s u ↔ u = s := Iff.rfl

theorem visits_clear (h : d.events = []) :
    (clear nft report).Visits ans (some t) none ↔ Deletes d ans := by
  by_cases h1 : ans (.list .inspect) <;> by_cases h2 : ans (.exit .inspect) <;>
    by_cases h3 : ans .deleteFile <;>
    simp [clear, Deletes, Prog.visits_bind, run_inspect, visits_inspect, listed, h1, h2, h3, h,
      parse_print, parse_nil, run_prepare, visits_prepare, visits_deleteTable, visits_pure]

theorem visits_loadRendered :
    (loadRendered nft eventKey report d).Visits ans s u ↔
      u = s ∨ ans .apply = true ∧ u = some (nft.load (renderFile eventKey d) s) := by
  by_cases h1 : ans .apply <;> by_cases h2 : ans (.list .verify) <;>
    simp [loadRendered, Prog.visits_bind, run_applyFile, visits_applyFile, visits_verify,
      run_verify, h1, h2]
  split_ifs
  · simp only [visits_pure, or_self]
    exact .inr
  · simp only [Prog.Visits, or_self]
    exact .inr

theorem visits_replace (h : d.events ≠ []) :
    (replace nft eventKey report d).Visits ans (some t) none ↔ Deletes d ans := by
  by_cases h1 : ans .rulesetFile <;> by_cases h2 : ans .check <;> by_cases h3 : ans .deleteFile <;>
    by_cases h4 : ans (.list .inspect) <;> by_cases h5 : ans (.exit .inspect) <;>
    by_cases h6 : ans .delete <;>
    simp [replace, Deletes, Prog.visits_bind, run_inspect, visits_inspect, listed, h1, h2, h3, h4,
      h5, h6, h, parse_print, parse_nil, run_prepare, visits_prepare, visits_deleteTable,
      visits_pure, deleteIf, run_deleteTable, visits_loadRendered]

theorem visits_carryOut :
    (carryOut nft eventKey report d).Visits ans (some t) none ↔ Deletes d ans := by
  rw [carryOut]
  split_ifs with h
  · exact visits_clear (List.isEmpty_iff.mp h)
  · exact visits_replace fun h' => h (List.isEmpty_iff.mpr h')

theorem visits_reconcile : (reconcile nft eventKey report d).Visits ans s u ↔
    (carryOut nft eventKey report d).Visits ans s u := by
  simp only [reconcile, Prog.visits_bind, visits_pure, or_iff_left_iff_imp]
  rintro ⟨a, -, rfl⟩
  exact Prog.visits_end _ _

variable (nft eventKey report)

theorem run_reconcile (s : Option T) : ((reconcile nft eventKey report d).run ans s).1 =
      ((carryOut nft eventKey report d).run ans s).1 ∧
    ∀ e, ((reconcile nft eventKey report d).run ans s).2 = .error e ↔
      ((carryOut nft eventKey report d).run ans s).2 = .error e := by
  rw [reconcile, Prog.run_bind]
  rcases (carryOut nft eventKey report d).run ans s with ⟨s', e | a⟩ <;> simp

theorem verifyNotes_nil_ne : verifyNotes eventKey d (parseObservedTable []) ≠ [] := by
  simp [verifyNotes, parse_nil]

/-- Loading succeeds exactly when the loaded table passes the verification. -/
theorem run_loadRendered (s : Option T) (h : ans .apply = true) :
    ((loadRendered nft eventKey report d).run ans s).1 =
        some (nft.load (renderFile eventKey d) s) ∧
      ((∃ e, ((loadRendered nft eventKey report d).run ans s).2 = .error e) ↔
        ¬ Verified nft eventKey d ans (nft.load (renderFile eventKey d) s)) := by
  by_cases h2 : ans (.list .verify)
  · by_cases h3 : ans (.exit .verify)
    · simp [loadRendered, run_applyFile, run_verify, h, h2, h3, listed, Verified]
      split_ifs with h4 <;> simp [h4]
    · simp [loadRendered, run_applyFile, run_verify, h, h2, h3, listed, Verified, verifyNotes_nil_ne]
  · simp [loadRendered, run_applyFile, run_verify, h, h2, Verified]

theorem run_loadRendered_refused (h : ¬ ans .apply = true) :
    (loadRendered nft eventKey report d).run ans s = (s, .error (.network (report .apply))) := by
  simp [loadRendered, run_applyFile, h]

/-- Without the deletion, `clear` ends where it started. -/
theorem run_clear (h : d.events = []) (hD : ¬ Deletes d ans) :
    ((clear nft report).run ans (some t)).1 = some t := by
  revert hD
  by_cases h1 : ans (.list .inspect) <;> by_cases h2 : ans (.exit .inspect) <;>
    by_cases h3 : ans .deleteFile <;> by_cases h4 : ans .delete <;>
    simp [clear, Deletes, run_inspect, listed, h1, h2, h3, h4, h, parse_print, parse_nil, run_prepare,
      run_deleteTable]

/-- Without the deletion, `replace` ends where it started, with an error, or loads the table where
it saw none. -/
theorem run_replace (t : T) (h : d.events ≠ []) (hD : ¬ Deletes d ans) :
    (¬ LoadsUnseen d ans ∧ ((replace nft eventKey report d).run ans (some t)).1 = some t) ∨
      LoadsUnseen d ans ∧ (replace nft eventKey report d).run ans (some t) =
        (loadRendered nft eventKey report d).run ans (some t) := by
  revert hD
  by_cases h1 : ans .rulesetFile <;> by_cases h2 : ans .check <;> by_cases h3 : ans .deleteFile <;>
    by_cases h4 : ans (.list .inspect) <;> by_cases h5 : ans (.exit .inspect) <;>
    by_cases h6 : ans .delete <;> by_cases h7 : ans .apply <;>
    simp [replace, Deletes, LoadsUnseen, run_inspect, listed, h1, h2, h3, h4, h5, h6, h7, h,
      parse_print, parse_nil, run_prepare, deleteIf, run_deleteTable, run_loadRendered_refused]

/-- From no table, a failed run ends without one or with the rendered one. -/
theorem run_carryOut_none : ((carryOut nft eventKey report d).run ans none).1 = none ∨
    ((carryOut nft eventKey report d).run ans none).1 = some (rendered nft eventKey d) := by
  have hl : ((loadRendered nft eventKey report d).run ans none).1 = none ∨
      ((loadRendered nft eventKey report d).run ans none).1 = some (rendered nft eventKey d) :=
    (visits_loadRendered.mp (Prog.visits_end _ _)).imp id And.right
  rw [carryOut]
  split_ifs with h
  · refine .inl ?_
    by_cases h1 : ans (.list .inspect) <;>
      simp [clear, run_inspect, listed, h1, parse_nil]
  · by_cases h1 : ans .rulesetFile <;> by_cases h2 : ans .check <;> by_cases h3 : ans .deleteFile <;>
      by_cases h4 : ans (.list .inspect) <;>
      simp [replace, run_inspect, listed, h1, h2, h3, h4, parse_nil, run_prepare, deleteIf]
    exact hl

/-- What an undeleted table allows: the run fails with the old table or the rendered one. -/
theorem failed_iff (t : T) (hD : ¬ Deletes d ans) :
    (∀ e, ((carryOut nft eventKey report d).run ans (some t)).2 = .error e →
        ((carryOut nft eventKey report d).run ans (some t)).1 = some t ∨
          ((carryOut nft eventKey report d).run ans (some t)).1 = some (rendered nft eventKey d)) ↔
      (LoadsUnseen d ans → Verified nft eventKey d ans (nft.load (renderFile eventKey d) (some t)) ∨
        nft.load (renderFile eventKey d) (some t) = t ∨
        nft.load (renderFile eventKey d) (some t) = rendered nft eventKey d) := by
  rw [carryOut]
  split_ifs with h
  · have h := List.isEmpty_iff.mp h
    exact iff_of_true (fun _ _ => .inl (run_clear nft report h hD)) fun hL => absurd h hL.1
  · obtain ⟨hL, hr⟩ | ⟨hL, hr⟩ := run_replace nft eventKey report t (mt List.isEmpty_iff.mpr h) hD
    · exact iff_of_true (fun _ _ => .inl hr) fun h => absurd h hL
    · obtain ⟨hend, herr⟩ := run_loadRendered nft eventKey report (some t) hL.2.2.2.2.2.2
      rw [hr, hend, imp_iff_right hL]
      simp only [Option.some.injEq]
      rw [← exists_imp, herr, ← or_iff_not_imp_left]

/-- `reconcile` is atomic exactly when no table was installed before, or the installed one is not
deleted and, where it goes unseen and the rendered one is loaded on top, the result passes the
verification or is one of the two tables. -/
theorem reconcile_atomic_iff (nft : Nft T) (eventKey : Nat → String) (report : FirewallStep → String)
    (desired : DesiredFirewallState) (ans : FirewallStep → Bool) (before : Option T) :
    Atomic nft eventKey report desired ans before ↔ ∀ t, before = some t →
      ¬ Deletes desired ans ∧ (LoadsUnseen desired ans →
        Verified nft eventKey desired ans (nft.load (renderFile eventKey desired) (some t)) ∨
          nft.load (renderFile eventKey desired) (some t) = t ∨
          nft.load (renderFile eventKey desired) (some t) = rendered nft eventKey desired) := by
  obtain ⟨hend, herr⟩ := run_reconcile nft eventKey report before
  cases before with
  | none =>
    refine iff_of_true ⟨fun e _ => ?_, fun h => absurd rfl h⟩ fun t h => nomatch h
    rw [hend]
    exact run_carryOut_none nft eventKey report
  | some t =>
    have hvis : (reconcile nft eventKey report desired).Visits ans (some t) none ↔
        Deletes desired ans := visits_reconcile.trans visits_carryOut
    constructor
    · intro h t' ht'
      cases ht'
      have hD : ¬ Deletes desired ans := fun hD => h.installed nofun (hvis.mpr hD)
      refine ⟨hD, (failed_iff nft eventKey report t hD).mp fun e he => ?_⟩
      rw [← hend]
      exact h.failed e ((herr e).mpr he)
    · intro h
      obtain ⟨hD, hL⟩ := h t rfl
      refine ⟨fun e he => ?_, fun _ hv => hD (hvis.mp hv)⟩
      rw [hend]
      exact (failed_iff nft eventKey report t hD).mpr hL e ((herr e).mp he)

/-! ## A deletion without a table after it -/

/-- A packet filter that keeps the last file, and lists its header, its revision and its chains. -/
def lastFile : Nft RulesetFile where
  load file _ := file
  print file :=
    tableHeader ++ ("\ncomment managed-by=floatctf revision=".toList ++
      ((toString file.revision).toList ++ file.table.chains.flatMap fun c =>
        "\nchain event_".toList ++ c.1.toList))
  header_print _ := List.infix_append' [] _ _

/-- One banned team, in the hardening phase. -/
def bannedState (revision : Nat) : DesiredFirewallState where
  revision := revision
  events := [{
    eventId := 1, phase := .hardening, gameboxNetwork := ⟨0x0A2A0000, 16⟩
    infrastructureNetwork := ⟨0x0A2A0000, 24⟩, flagserverIp := 0x0A2A0002
    judgeserverIp := 0x0A2A0003, bannedTeams := [7], isFinalSettlement := false
    isFinished := false
    teams := [⟨7, ⟨0x0A010700, 24⟩, ⟨0x0A2A0700, 24⟩⟩] }]

example : verifyNotes (fun _ => "ev_1") (bannedState 2)
    (parseObservedTable (lastFile.print (renderFile (fun _ => "ev_1") (bannedState 2)))) = [] := by
  decide +kernel

/-- Revision 1 is installed, and loading revision 2 fails: no table is left. -/
theorem reconcile_apply_fails :
    ¬ Atomic lastFile (fun _ => "ev_1") (fun _ => "nft -f failed") (bannedState 2)
      (fun step => step ≠ .apply) (some (renderFile (fun _ => "ev_1") (bannedState 1))) := by
  intro h
  have hD : Deletes (bannedState 2) fun step => step ≠ .apply := by simp [Deletes, bannedState]
  exact h.installed nofun (visits_reconcile.mpr (visits_carryOut.mpr hD))

end FloatCtf.Awd
