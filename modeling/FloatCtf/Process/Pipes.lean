import Mathlib.Data.List.Basic
import Mathlib.Data.Nat.Init
import Mathlib.Logic.Function.Basic
import Mathlib.Logic.Function.Iterate

/-!
# A child and its pipes

A child performs one action at every tick of a clock: it writes to a pipe, idles or exits.  A pipe
holds `capacity` items, and a write that finds it full blocks the child until there is room.  The
other side polls a pipe, and waits for it for a number of ticks.

`Tracks` compares a run with the actions of the child: on every pipe, what was read, what is in the
pipe and what is still to be written are what the actions so far have written.
-/

namespace Pipes

variable {ι β κ : Type} [DecidableEq ι]

/-- What the child does at a tick. -/
inductive Act (ι β κ : Type) where
  | idle
  | write (fd : ι) (items : List β)
  | exit (status : κ)

/-- The actions of a child, and its status when it dies of a write to a pipe that nobody reads. -/
structure Child (ι β κ : Type) where
  act : ℕ → Act ι β κ
  sigpipe : Option κ

/-- A child that writes into pipes of bounded capacity, with the readers' end and the clock. -/
structure World (ι β κ : Type) where
  clock : ℕ
  pc : ℕ
  fd : ι
  blocked : List β
  pipe : ι → List β
  closed : ι → Bool
  status : Option κ
  killedAt : Option ℕ

/-- The child at its start. -/
def World.start (fd : ι) : World ι β κ where
  clock := 0
  pc := 0
  fd
  blocked := []
  pipe _ := []
  closed _ := false
  status := none
  killedAt := none

/-! ## What the child does on its own -/

/-- What an act puts into one of the pipes. -/
def Act.itemsTo (fd : ι) : Act ι β κ → List β
  | .write fd' items => if fd' = fd then items else []
  | _ => []

/-- What the first `n` actions write to a pipe. -/
def Child.emitted (child : Child ι β κ) (fd : ι) : ℕ → List β
  | 0 => []
  | n + 1 => child.emitted fd n ++ (child.act n).itemsTo fd

/-- Action `k` is the exit.  Where nothing blocks the child, this is at the tick `k + 1`. -/
def Child.ExitsAt (child : Child ι β κ) (k : ℕ) (status : κ) : Prop :=
  child.act k = .exit status ∧ ∀ i < k, ∀ s, child.act i ≠ .exit s

theorem Child.emitted_prefix (child : Child ι β κ) (fd : ι) {m n : ℕ} (h : m ≤ n) :
    child.emitted fd m <+: child.emitted fd n := by
  induction n, h using Nat.le_induction with
  | base => exact List.prefix_refl _
  | succ n _ ih => exact ih.trans (List.prefix_append _ _)

omit [DecidableEq ι] in
theorem Child.ExitsAt.unique {child : Child ι β κ} {k k' : ℕ} {s s' : κ} (h : child.ExitsAt k s)
    (h' : child.ExitsAt k' s') : k = k' ∧ s = s' := by
  obtain hlt | rfl | hlt := Nat.lt_trichotomy k k'
  · exact absurd h.1 (h'.2 k hlt s)
  · exact ⟨rfl, by simpa [h.1] using h'.1⟩
  · exact absurd h'.1 (h.2 k' hlt s')

/-- The exit writes nothing. -/
theorem Child.ExitsAt.emitted_succ {child : Child ι β κ} {k : ℕ} {s : κ} (h : child.ExitsAt k s)
    (fd : ι) : child.emitted fd (k + 1) = child.emitted fd k := by
  simp [Child.emitted, h.1, Act.itemsTo]

/-! ## The run -/

section

variable (child : Child ι β κ) (capacity : ℕ)

/-- The write that is under way goes on as far as there is room. -/
def World.settle (w : World ι β κ) : World ι β κ :=
  if w.status.isSome ∨ w.blocked = [] then w
  else if w.closed w.fd then { w with blocked := [], status := child.sigpipe }
  else
    { w with
      pipe := Function.update w.pipe w.fd
        (w.pipe w.fd ++ w.blocked.take (capacity - (w.pipe w.fd).length))
      blocked := w.blocked.drop (capacity - (w.pipe w.fd).length) }

/-- The act of one tick; a write blocks until the pipes have taken all of it. -/
def World.perform (w : World ι β κ) : Act ι β κ → World ι β κ
  | .idle => w
  | .write fd items => World.settle child capacity { w with fd, blocked := items }
  | .exit status => { w with status := some status }

/-- One tick: a child that runs and is not blocked performs its next action. -/
def World.tick (w : World ι β κ) : World ι β κ :=
  if w.status.isSome ∨ w.blocked ≠ [] then { w with clock := w.clock + 1 }
  else
    World.perform child capacity { w with clock := w.clock + 1, pc := w.pc + 1 } (child.act w.pc)

/-- A read of at most `size` items that does not wait; nothing is read at the end of the pipe, where
it is empty and the child has exited. -/
def World.poll (size : ℕ) (fd : ι) (w : World ι β κ) : Option (List β × World ι β κ) :=
  match w.pipe fd with
  | [] => if w.status.isSome then some ([], w) else none
  | items =>
    some (items.take size,
      World.settle child capacity { w with pipe := Function.update w.pipe fd (items.drop size) })

/-- A read that waits for at most `n` ticks. -/
def World.readWithin (size : ℕ) (fd : ι) : ℕ → World ι β κ → Option (List β) × World ι β κ
  | 0, w =>
    match w.poll child capacity size fd with
    | some (items, w) => (some items, w)
    | none => (none, w)
  | n + 1, w =>
    match w.poll child capacity size fd with
    | some (items, w) => (some items, w)
    | none => World.readWithin size fd n (w.tick child capacity)

/-- The exit status, within at most `n` ticks. -/
def World.waitWithin : ℕ → World ι β κ → Option κ × World ι β κ
  | 0, w => (w.status, w)
  | n + 1, w =>
    if w.status.isSome then (w.status, w) else World.waitWithin n (w.tick child capacity)

/-- The reading end of a pipe is dropped. -/
def World.closeRead (fd : ι) (w : World ι β κ) : World ι β κ :=
  World.settle child capacity { w with closed := Function.update w.closed fd true }

/-- A child that still runs is killed. -/
def World.kill (status : κ) (w : World ι β κ) : World ι β κ :=
  if w.status.isSome then w else { w with status := some status, killedAt := some w.clock }

end

/-! ## A run against the actions of the child -/

/-- What is still to be written to a pipe. -/
def World.blockedOn (w : World ι β κ) (fd : ι) : List β := if w.fd = fd then w.blocked else []

/-- `read` is what was read of every pipe. -/
structure World.Follows (child : Child ι β κ) (capacity : ℕ) (w : World ι β κ) (read : ι → List β) :
    Prop where
  stream : ∀ fd, read fd ++ w.pipe fd ++ w.blockedOn fd = child.emitted fd w.pc
  room : ∀ fd, (w.pipe fd).length ≤ capacity
  opened : w.status = none → ∀ fd, w.closed fd = false
  running : w.status = none → ∀ i < w.pc, ∀ s, child.act i ≠ .exit s
  exited : ∀ s, w.status = some s → w.blocked = [] ∧ ∃ k, w.pc = k + 1 ∧ child.ExitsAt k s
  alive : w.killedAt = none

/-- The child is blocked on a full pipe only. -/
structure World.Tracks (child : Child ι β κ) (capacity : ℕ) (w : World ι β κ) (read : ι → List β) :
    Prop extends World.Follows child capacity w read where
  full : w.blocked ≠ [] → (w.pipe w.fd).length = capacity

section

variable {child : Child ι β κ} {capacity size n : ℕ} {w w' : World ι β κ} {read : ι → List β}
  {fd : ι} {items : List β}

theorem World.tracks_start (fd : ι) :
    (World.start fd : World ι β κ).Tracks child capacity fun _ => [] := by
  refine ⟨⟨fun fd' => ?_, ?_, ?_, ?_, ?_, rfl⟩, fun h => absurd rfl h⟩
  · show (if fd = fd' then [] else []) = []
    split <;> rfl
  all_goals simp [World.start]

theorem World.Follows.status_of_blocked (h : w.Follows child capacity read) (hne : w.blocked ≠ []) :
    w.status = none := by
  cases hs : w.status with
  | none => rfl
  | some s => exact absurd (h.exited s hs).1 hne

/-- Items that go from the writer to the pipe stay in their order. -/
theorem World.Follows.settle (h : w.Follows child capacity read) :
    (w.settle child capacity).Tracks child capacity read := by
  unfold World.settle
  split
  next hidle =>
    refine ⟨h, fun hne => absurd hidle ?_⟩
    simp [h.status_of_blocked hne, hne]
  next hbusy =>
    have hstatus : w.status = none := by
      cases hs : w.status <;> simp_all
    rw [if_neg (by simp [h.opened hstatus])]
    refine ⟨⟨fun fd => ?_, fun fd => ?_, h.opened, h.running, by simp [hstatus], h.alive⟩,
      fun hrest => ?_⟩
    · have hfd := h.stream fd
      by_cases heq : w.fd = fd
      · subst heq
        simp only [World.blockedOn, if_true, Function.update_self] at hfd ⊢
        simpa [List.append_assoc] using hfd
      · simpa [World.blockedOn, heq, Function.update_of_ne (Ne.symm heq)] using hfd
    · have hfd := h.room fd
      by_cases heq : w.fd = fd
      · subst heq
        simp only [Function.update_self, List.length_append, List.length_take]
        omega
      · simpa [Function.update_of_ne (Ne.symm heq)] using hfd
    · have hlt : capacity - (w.pipe w.fd).length < w.blocked.length := by
        simpa [List.drop_eq_nil_iff] using hrest
      have := h.room w.fd
      simp only [Function.update_self, List.length_append, List.length_take]
      omega

theorem World.closeRead_of_status (h : w.status.isSome) :
    w.closeRead child capacity fd = { w with closed := Function.update w.closed fd true } :=
  if_pos (.inl h)

@[simp] theorem World.clock_settle : (w.settle child capacity).clock = w.clock := by
  unfold World.settle
  split
  · rfl
  · split <;> rfl

@[simp] theorem World.pc_settle : (w.settle child capacity).pc = w.pc := by
  unfold World.settle
  split
  · rfl
  · split <;> rfl

@[simp] theorem World.killedAt_settle : (w.settle child capacity).killedAt = w.killedAt := by
  unfold World.settle
  split
  · rfl
  · split <;> rfl

@[simp] theorem World.clock_closeRead : (w.closeRead child capacity fd).clock = w.clock :=
  World.clock_settle

@[simp] theorem World.killedAt_closeRead :
    (w.closeRead child capacity fd).killedAt = w.killedAt :=
  World.killedAt_settle

/-- After the exit nobody minds a pipe that is not read. -/
theorem World.Tracks.closeRead (h : w.Tracks child capacity read) (hs : w.status.isSome) :
    (w.closeRead child capacity fd).Tracks child capacity read := by
  rw [World.closeRead_of_status hs]
  exact ⟨⟨h.stream, h.room, fun hnone => by simp_all, h.running, h.exited, h.alive⟩, h.full⟩

/-- A tick that performs an action or finds the child blocked. -/
theorem World.Tracks.tick (h : w.Tracks child capacity read) :
    (w.tick child capacity).Tracks child capacity read := by
  unfold World.tick
  split
  next => exact ⟨⟨h.stream, h.room, h.opened, h.running, h.exited, h.alive⟩, h.full⟩
  next hrun =>
    obtain ⟨hstatus, hblocked⟩ : w.status = none ∧ w.blocked = [] := by
      simpa only [not_or, not_not, Option.not_isSome_iff_eq_none] using hrun
    have hstream : ∀ fd, read fd ++ w.pipe fd = child.emitted fd w.pc := by
      intro fd
      simpa [World.blockedOn, hblocked] using h.stream fd
    have hearlier (hact : ∀ s, child.act w.pc ≠ .exit s) :
        ∀ i < w.pc + 1, ∀ s, child.act i ≠ .exit s := by
      intro i hi
      obtain hlt | rfl := Nat.lt_succ_iff_lt_or_eq.1 hi
      · exact h.running hstatus i hlt
      · exact hact
    cases hact : child.act w.pc with
    | idle =>
      refine ⟨⟨fun fd => ?_, h.room, h.opened, fun _ => hearlier (by simp [hact]), ?_, h.alive⟩,
        h.full⟩
      · simpa [World.perform, Child.emitted, hact, Act.itemsTo, World.blockedOn, hblocked] using
          hstream fd
      · simp [World.perform, hstatus]
    | write fd' items =>
      refine World.Follows.settle ⟨fun fd => ?_, h.room, h.opened,
        fun _ => hearlier (by simp [hact]), by simp [hstatus], h.alive⟩
      simp [Child.emitted, hact, Act.itemsTo, World.blockedOn, ← hstream fd]
    | exit s =>
      refine ⟨⟨fun fd => ?_, h.room, by simp [World.perform], by simp [World.perform],
        fun s' hs => ?_, h.alive⟩, h.full⟩
      · simpa [World.perform, Child.emitted, hact, Act.itemsTo, World.blockedOn, hblocked] using
          hstream fd
      · obtain rfl : s = s' := by simpa [World.perform] using hs
        exact ⟨hblocked, w.pc, rfl, hact, h.running hstatus⟩

theorem World.Tracks.tick_iterate (h : w.Tracks child capacity read) (m : ℕ) :
    ((World.tick child capacity)^[m] w).Tracks child capacity read := by
  induction m generalizing w with
  | zero => exact h
  | succ m ih => exact ih h.tick

/-! ## Reads -/

theorem World.poll_eq_none (h : w.poll child capacity size fd = none) :
    w.pipe fd = [] ∧ w.status = none := by
  unfold World.poll at h
  cases hp : w.pipe fd with
  | nil => simpa [hp] using h
  | cons a as => simp [hp] at h

theorem World.poll_of_status (h : w.status.isSome) :
    ∃ items w', w.poll child capacity size fd = some (items, w') := by
  unfold World.poll
  cases hp : w.pipe fd with
  | nil => exact ⟨[], w, if_pos h⟩
  | cons a as => exact ⟨_, _, rfl⟩

theorem World.poll_nil (hsize : 0 < size) (h : w.poll child capacity size fd = some ([], w')) :
    w' = w ∧ w.pipe fd = [] ∧ w.status.isSome := by
  unfold World.poll at h
  cases hp : w.pipe fd with
  | nil =>
    cases hs : w.status <;> simp_all
  | cons a as =>
    obtain ⟨size, rfl⟩ := Nat.exists_eq_succ_of_ne_zero (Nat.ne_of_gt hsize)
    simp [hp] at h

theorem World.Tracks.poll (h : w.Tracks child capacity read)
    (hpoll : w.poll child capacity size fd = some (items, w')) :
    w'.Tracks child capacity (Function.update read fd (read fd ++ items)) := by
  unfold World.poll at hpoll
  cases hp : w.pipe fd with
  | nil =>
    cases hs : w.status with
    | none => simp [hp, hs] at hpoll
    | some s =>
      obtain ⟨rfl, rfl⟩ : [] = items ∧ w = w' := by simpa [hp, hs] using hpoll
      simpa using h
  | cons a as =>
    simp only [hp, Option.some.injEq, Prod.mk.injEq] at hpoll
    obtain ⟨rfl, rfl⟩ := hpoll
    rw [← hp]
    refine World.Follows.settle ⟨fun fd' => ?_, fun fd' => ?_, h.opened, h.running, h.exited,
      h.alive⟩
    · have hfd := h.stream fd'
      by_cases heq : fd' = fd
      · subst heq
        simp only [Function.update_self]
        rw [List.append_assoc (read fd'), List.take_append_drop]
        exact hfd
      · simpa [World.blockedOn, Function.update_of_ne heq] using hfd
    · have hfd := h.room fd'
      by_cases heq : fd' = fd
      · subst heq
        simp only [Function.update_self, List.length_drop]
        omega
      · simpa [Function.update_of_ne heq] using hfd

/-- A read polls after some ticks, or the time is over. -/
theorem World.readWithin_cases {out : Option (List β)}
    (h : w.readWithin child capacity size fd n = (out, w')) :
    (∃ items m, out = some items ∧
        ((World.tick child capacity)^[m] w).poll child capacity size fd = some (items, w')) ∨
      out = none ∧ w' = (World.tick child capacity)^[n] w := by
  induction n generalizing w with
  | zero =>
    rw [World.readWithin] at h
    cases hpoll : w.poll child capacity size fd with
    | none => exact .inr (by simp_all)
    | some r =>
      rw [hpoll] at h
      cases h
      exact .inl ⟨r.1, 0, rfl, hpoll⟩
  | succ n ih =>
    rw [World.readWithin] at h
    cases hpoll : w.poll child capacity size fd with
    | none =>
      rw [hpoll] at h
      obtain ⟨items, m, hout, hm⟩ | hend := ih h
      · exact .inl ⟨items, m + 1, hout, hm⟩
      · exact .inr hend
    | some r =>
      rw [hpoll] at h
      cases h
      exact .inl ⟨r.1, 0, rfl, hpoll⟩

theorem World.Tracks.readWithin (h : w.Tracks child capacity read)
    (hread : w.readWithin child capacity size fd n = (some items, w')) :
    w'.Tracks child capacity (Function.update read fd (read fd ++ items)) := by
  obtain ⟨_, m, hout, hpoll⟩ | ⟨hout, -⟩ := World.readWithin_cases hread
  · cases hout
    exact (h.tick_iterate m).poll hpoll
  · cases hout

/-- Nothing is read only at the end of the pipe. -/
theorem World.readWithin_nil (hsize : 0 < size)
    (h : w.readWithin child capacity size fd n = (some [], w')) :
    w'.pipe fd = [] ∧ w'.status.isSome := by
  obtain ⟨_, m, hout, hpoll⟩ | ⟨hout, -⟩ := World.readWithin_cases h
  · cases hout
    obtain ⟨rfl, hend⟩ := World.poll_nil hsize hpoll
    exact hend
  · cases hout

theorem World.Tracks.readWithin_none (h : w.Tracks child capacity read)
    (hread : w.readWithin child capacity size fd n = (none, w')) :
    w'.Tracks child capacity read := by
  obtain ⟨_, m, hout, -⟩ | ⟨-, rfl⟩ := World.readWithin_cases hread
  · cases hout
  · exact h.tick_iterate n

/-! ## Up to the exit -/

variable {k : ℕ} {s : κ}

theorem World.Tracks.pc_le (h : w.Tracks child capacity read) (hexit : child.ExitsAt k s) :
    w.pc ≤ k + 1 ∧ (w.status = none → w.pc ≤ k) := by
  have hrun (hs : w.status = none) : w.pc ≤ k := by
    by_contra hlt
    exact h.running hs k (by omega) s hexit.1
  cases hs : w.status with
  | none =>
    have hle := hrun hs
    exact ⟨by omega, fun _ => hle⟩
  | some s' =>
    obtain ⟨-, k', hpc, hexit'⟩ := h.exited s' hs
    obtain ⟨rfl, -⟩ := hexit.unique hexit'
    exact ⟨by omega, nofun⟩

/-- No more is read than the child writes. -/
theorem World.Tracks.read_prefix (h : w.Tracks child capacity read) (hexit : child.ExitsAt k s)
    (fd : ι) : read fd <+: child.emitted fd k := by
  have hpc : child.emitted fd w.pc <+: child.emitted fd k := by
    rw [← hexit.emitted_succ]
    exact child.emitted_prefix fd (h.pc_le hexit).1
  refine List.IsPrefix.trans ?_ hpc
  rw [← h.stream fd, List.append_assoc]
  exact List.prefix_append _ _

/-- At the exit everything is written. -/
theorem World.Tracks.stream_of_status (h : w.Tracks child capacity read)
    (hexit : child.ExitsAt k s) (hs : w.status.isSome) :
    w.status = some s ∧ ∀ fd, read fd ++ w.pipe fd = child.emitted fd k := by
  obtain ⟨s', hs'⟩ := Option.isSome_iff_exists.1 hs
  obtain ⟨hblocked, k', hpc, hexit'⟩ := h.exited s' hs'
  obtain ⟨rfl, rfl⟩ := hexit.unique hexit'
  refine ⟨hs', fun fd => ?_⟩
  have hfd := h.stream fd
  rw [hpc, hexit.emitted_succ] at hfd
  simpa [World.blockedOn, hblocked] using hfd

/-- A child is not blocked while the one pipe is read and the others have room for all that it
writes. -/
theorem World.Tracks.blocked_eq_nil (h : w.Tracks child capacity read) (hcap : 0 < capacity)
    (hexit : child.ExitsAt k s)
    (hfits : ∀ fd', fd' ≠ fd → (child.emitted fd' k).length ≤ capacity) (hfd : w.pipe fd = []) :
    w.blocked = [] := by
  by_contra hne
  have hfull := h.full hne
  by_cases heq : w.fd = fd
  · rw [heq, hfd, List.length_nil] at hfull
    omega
  · have hlen := congrArg List.length (h.stream w.fd)
    have hle := (child.emitted_prefix w.fd
      ((h.pc_le hexit).2 (h.status_of_blocked hne))).length_le
    have hpos := List.length_pos_iff.2 hne
    have := hfits w.fd heq
    simp only [World.blockedOn, if_true, List.length_append] at hlen
    omega

/-- Such a child writes or exits in the time that it needs on its own. -/
theorem World.Tracks.exists_read (h : w.Tracks child capacity read) (hcap : 0 < capacity)
    (hexit : child.ExitsAt k s)
    (hfits : ∀ fd', fd' ≠ fd → (child.emitted fd' k).length ≤ capacity) (hn : k + 1 ≤ w.pc + n) :
    ∃ items w', w.readWithin child capacity size fd n = (some items, w') := by
  induction n generalizing w with
  | zero =>
    rw [World.readWithin]
    cases hpoll : w.poll child capacity size fd with
    | none =>
      have := (h.pc_le hexit).2 (World.poll_eq_none hpoll).2
      omega
    | some r => exact ⟨r.1, r.2, rfl⟩
  | succ n ih =>
    rw [World.readWithin]
    cases hpoll : w.poll child capacity size fd with
    | none =>
      obtain ⟨hfd, hs⟩ := World.poll_eq_none hpoll
      have hblocked := h.blocked_eq_nil hcap hexit hfits hfd
      have hpc : (w.tick child capacity).pc = w.pc + 1 := by
        rw [World.tick, if_neg (by simp [hs, hblocked])]
        cases child.act w.pc <;> simp [World.perform]
      exact ih h.tick (by omega)
    | some r => exact ⟨r.1, r.2, rfl⟩

/-- After the exit a read does not wait. -/
theorem World.readWithin_of_status (hs : w.status.isSome) :
    ∃ items w', w.readWithin child capacity size fd n = (some items, w') ∧
      w'.status = w.status := by
  obtain ⟨items, w', hpoll⟩ : ∃ items w', w.poll child capacity size fd = some (items, w') :=
    World.poll_of_status hs
  have hstatus : w'.status = w.status := by
    unfold World.poll at hpoll
    cases hp : w.pipe fd with
    | nil =>
      obtain ⟨-, rfl⟩ : [] = items ∧ w = w' := by simpa [hp, hs] using hpoll
      rfl
    | cons a as =>
      simp only [hp, Option.some.injEq, Prod.mk.injEq] at hpoll
      rw [← hpoll.2, World.settle, if_pos (.inl hs)]
  refine ⟨items, w', ?_, hstatus⟩
  cases n <;> rw [World.readWithin, hpoll]

/-! ## The clock -/

@[simp] theorem World.clock_tick : (w.tick child capacity).clock = w.clock + 1 := by
  unfold World.tick
  split
  · rfl
  · cases child.act w.pc <;> simp [World.perform]

theorem World.clock_tick_iterate (m : ℕ) :
    ((World.tick child capacity)^[m] w).clock = w.clock + m := by
  induction m generalizing w with
  | zero => rfl
  | succ m ih => rw [Function.iterate_succ_apply, ih, World.clock_tick]; omega

@[simp] theorem World.killedAt_tick : (w.tick child capacity).killedAt = w.killedAt := by
  unfold World.tick
  split
  · rfl
  · cases child.act w.pc <;> simp [World.perform]

theorem World.killedAt_tick_iterate (m : ℕ) :
    ((World.tick child capacity)^[m] w).killedAt = w.killedAt := by
  induction m generalizing w with
  | zero => rfl
  | succ m ih => rw [Function.iterate_succ_apply, ih, World.killedAt_tick]

theorem World.clock_poll (h : w.poll child capacity size fd = some (items, w')) :
    w'.clock = w.clock := by
  unfold World.poll at h
  cases hp : w.pipe fd <;> cases hs : w.status <;> simp_all <;> simp [← h.2]

theorem World.killedAt_poll (h : w.poll child capacity size fd = some (items, w')) :
    w'.killedAt = w.killedAt := by
  unfold World.poll at h
  cases hp : w.pipe fd <;> cases hs : w.status <;> simp_all <;> simp [← h.2]

theorem World.killedAt_readWithin {out : Option (List β)}
    (h : w.readWithin child capacity size fd n = (out, w')) : w'.killedAt = w.killedAt := by
  obtain ⟨_, m, -, hpoll⟩ | ⟨-, rfl⟩ := World.readWithin_cases h
  · rw [World.killedAt_poll hpoll, World.killedAt_tick_iterate]
  · rw [World.killedAt_tick_iterate]

theorem World.clock_le_readWithin {out : Option (List β)}
    (h : w.readWithin child capacity size fd n = (out, w')) : w.clock ≤ w'.clock := by
  obtain ⟨_, m, -, hpoll⟩ | ⟨-, rfl⟩ := World.readWithin_cases h
  · rw [World.clock_poll hpoll, World.clock_tick_iterate]
    omega
  · rw [World.clock_tick_iterate]
    omega

theorem World.clock_readWithin_none
    (h : w.readWithin child capacity size fd n = (none, w')) : w'.clock = w.clock + n := by
  obtain ⟨_, m, hout, -⟩ | ⟨-, rfl⟩ := World.readWithin_cases h
  · cases hout
  · exact World.clock_tick_iterate n

end

end Pipes
