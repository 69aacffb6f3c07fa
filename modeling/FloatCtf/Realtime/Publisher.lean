import Mathlib.Data.List.Basic
import Mathlib.Logic.Function.Basic

/-!
# The realtime bus

A publish call gives its event a number, sends it to the hub of its own node and publishes it on
Redis for the others.  The number is the next one of a Redis counter, which `SET NX` starts at the
time of the clock, or, where Redis does not answer, the next one of the process.

`World` has every process that was ever started, with its counter, what its hub has received and
what its subscription still has to deliver; a restarted node is a new process.  An event is known by
the index of its call.  A command of Redis may be answered, refused, or carried out and the answer
lost.
-/

namespace FloatCtf.Realtime

/-! ## Events and calls -/

/-- A number with where it comes from. -/
inductive Number where
  | redis (n : Nat)
  | own (n : Nat)
  deriving DecidableEq

/-- The number itself, wherever it was drawn. -/
def Number.value : Number → Nat
  | redis n | own n => n

/-- `RedisBusMessage`. -/
structure Message where
  origin : Nat
  event : Nat
  sequence : Nat
  deriving DecidableEq

/-- Where a publish call stands: before the connection, with the time it has read, after `SET NX`,
before a number of the process, with a number, after the hub of the node, and over.  `bus` says
whether there is a connection. -/
inductive Stage where
  | connecting
  | connected (floor : Nat)
  | seeded
  | fallback (bus : Bool)
  | numbered (n : Number) (bus : Bool)
  | sent (n : Number)
  | done (n : Number)
  deriving DecidableEq

/-- A call of `publish` on a node, and how far it has come. -/
structure Call where
  node : Nat
  stage : Stage
  deriving DecidableEq

/-- A process: the next number of its own, the events that its hub has received, and the messages
of its subscription, where it has one. -/
structure Node where
  seq : Nat := 1
  hub : List (Nat × Nat) := []
  bus : Option (List Message) := none
  deriving DecidableEq

/-- The clock, the counter of Redis, the nodes and the calls. -/
structure World where
  clock : Nat
  redis : Option Nat
  nodes : Nat → Node
  calls : List Call

/-- Nothing is published and the counter is not there. -/
def World.initial (clock : Nat) : World where
  clock := clock
  redis := none
  nodes _ := {}
  calls := []

/-! ## Steps -/

/-- How a command to Redis ends: answered, done with its answer lost, or not done. -/
inductive Reply where
  | answered
  | lost
  | refused
  deriving DecidableEq

/-- What can happen next. -/
inductive Act where
  | publish (node : Nat)
  | command (call : Nat) (reply : Reply)
  | subscribe (node : Nat)
  | unsubscribe (node : Nat)
  | deliver (node : Nat)
  | lose
  | tick (d : Nat)
  deriving DecidableEq

/-- Changes one node. -/
def World.edit (w : World) (n : Nat) (f : Node → Node) : World :=
  { w with nodes := Function.update w.nodes n (f (w.nodes n)) }

/-- Moves a call on. -/
def World.setStage (w : World) (i : Nat) (c : Call) (stage : Stage) : World :=
  { w with calls := w.calls.set i { c with stage } }

/-- `PUBLISH`: every subscription gets the message. -/
def World.broadcast (w : World) (m : Message) : World :=
  { w with nodes := fun n => { w.nodes n with bus := (w.nodes n).bus.map (· ++ [m]) } }

/-- The next command of `publish`. -/
def World.command (w : World) (i : Nat) (c : Call) (reply : Reply) : World :=
  match c.stage with
  | .connecting =>
    w.setStage i c (if reply = .answered then .connected w.clock else .fallback false)
  | .connected floor =>
    -- the answer of `SET NX` is not looked at
    if reply = .refused then w.setStage i c .seeded
    else { w with redis := some (w.redis.getD floor) }.setStage i c .seeded
  | .seeded =>
    let n := w.redis.getD 0 + 1
    match reply with
    | .answered => { w with redis := some n }.setStage i c (.numbered (.redis n) true)
    | .lost => { w with redis := some n }.setStage i c (.fallback true)
    | .refused => w.setStage i c (.fallback true)
  | .fallback bus =>
    let n := (w.nodes c.node).seq
    (w.edit c.node fun node => { node with seq := n + 1 }).setStage i c (.numbered (.own n) bus)
  | .numbered n bus =>
    (w.edit c.node fun node => { node with hub := node.hub ++ [(i, n.value)] }).setStage i c
      (if bus then .sent n else .done n)
  | .sent n =>
    if reply = .refused then w.setStage i c (.done n)
    else (w.broadcast ⟨c.node, i, n.value⟩).setStage i c (.done n)
  | .done _ => w

/-- The subscriber of a node: what the node has published itself is passed over. -/
def Node.receive (n : Nat) (m : Message) (rest : List Message) (node : Node) : Node :=
  { node with
    bus := some rest
    hub := if m.origin = n then node.hub else node.hub ++ [(m.event, m.sequence)] }

/-- One step of the nodes, of Redis or of the clock. -/
def World.step (w : World) : Act → World
  | .publish n => { w with calls := w.calls ++ [⟨n, .connecting⟩] }
  | .command i reply =>
    match w.calls[i]? with
    | some c => w.command i c reply
    | none => w
  | .subscribe n => w.edit n fun node => { node with bus := some [] }
  | .unsubscribe n => w.edit n fun node => { node with bus := none }
  | .deliver n =>
    match (w.nodes n).bus with
    | some (m :: rest) => w.edit n (Node.receive n m rest)
    | _ => w
  | .lose => { w with redis := none }
  | .tick d => { w with clock := w.clock + d }

/-! ## What a world has -/

/-- The number that a call has drawn. -/
def Stage.number : Stage → Option Number
  | numbered n _ | sent n | done n => some n
  | _ => none

/-- How far a call has come. -/
def Stage.rank : Stage → Nat
  | connecting => 0
  | connected _ => 1
  | seeded => 2
  | fallback _ => 3
  | numbered _ _ => 4
  | sent _ => 5
  | done _ => 6

/-- The messages that a node has not received yet. -/
def Node.pending (node : Node) : List Message := node.bus.getD []

/-- A call of the node has the number and has come to the rank. -/
def World.Has (w : World) (e n : Nat) (num : Number) (k : Nat) : Prop :=
  ∃ c, w.calls[e]? = some c ∧ c.node = n ∧ c.stage.number = some num ∧ k ≤ c.stage.rank

theorem World.Has.le {w : World} {e n : Nat} {num : Number} {k k' : Nat} (h : w.Has e n num k)
    (hk : k' ≤ k) : w.Has e n num k' := by
  obtain ⟨c, hc, hn, hnum, hrank⟩ := h
  exact ⟨c, hc, hn, hnum, Nat.le_trans hk hrank⟩

/-- The calls go on and keep their numbers. -/
def World.Grows (w w' : World) : Prop :=
  ∀ e n num k, w.Has e n num k → w'.Has e n num k

theorem World.grows_of_calls {w w' : World} (h : w'.calls = w.calls) : w.Grows w' := by
  rintro e n num k ⟨c, hc, hrest⟩
  exact ⟨c, h ▸ hc, hrest⟩

theorem World.grows_publish (w : World) (n : Nat) : w.Grows (w.step (.publish n)) := by
  rintro e n num k ⟨c, hc, hrest⟩
  refine ⟨c, ?_, hrest⟩
  exact List.getElem?_append_left (List.getElem?_eq_some_iff.1 hc).1 ▸ hc

/-- One call goes on to a later stage and keeps its number. -/
theorem World.grows_setStage {w : World} {i : Nat} {c : Call} (hi : w.calls[i]? = some c)
    {s : Stage} (hrank : c.stage.rank ≤ s.rank)
    (hnum : ∀ num, c.stage.number = some num → s.number = some num) :
    w.Grows (w.setStage i c s) := by
  rintro e n num k ⟨c', hc', hn, hnum', hk⟩
  by_cases he : e = i
  · subst he
    rw [hi] at hc'
    cases hc'
    refine ⟨{ c with stage := s }, ?_, hn, hnum num hnum', Nat.le_trans hk hrank⟩
    exact List.getElem?_set_self (List.getElem?_eq_some_iff.1 hi).1
  · refine ⟨c', ?_, hn, hnum', hk⟩
    exact (List.getElem?_set_ne (Ne.symm he)).trans hc'

/-- Afterwards the call is at the stage. -/
theorem World.has_setStage {w : World} {i : Nat} {c : Call} (hi : w.calls[i]? = some c)
    {stage : Stage} {num : Number} (hnum : stage.number = some num) :
    (w.setStage i c stage).Has i c.node num stage.rank :=
  ⟨{ c with stage }, List.getElem?_set_self (List.getElem?_eq_some_iff.1 hi).1, rfl, hnum, Nat.le_refl _⟩

/-- What has a number afterwards had it before, or is the call that has made the step. -/
theorem World.has_of_setStage {w : World} {i : Nat} {c : Call} {stage : Stage} {e n : Nat}
    {num : Number} {k : Nat} (h : (w.setStage i c stage).Has e n num k) :
    w.Has e n num k ∨ e = i ∧ n = c.node ∧ stage.number = some num ∧ k ≤ stage.rank := by
  obtain ⟨c', hc', hn, hnum, hk⟩ := h
  by_cases he : e = i
  · subst he
    have hc' : (w.calls.set e { c with stage })[e]? = some c' := hc'
    rw [List.getElem?_set_self'] at hc'
    obtain ⟨_, _, rfl⟩ := Option.map_eq_some_iff.1 hc'
    exact .inr ⟨rfl, hn.symm, hnum, hk⟩
  · refine .inl ⟨c', ?_, hn, hnum, hk⟩
    exact (List.getElem?_set_ne (Ne.symm he)).symm.trans hc'

@[simp] theorem World.setStage_nodes (w : World) (i : Nat) (c : Call) (stage : Stage) :
    (w.setStage i c stage).nodes = w.nodes := rfl

@[simp] theorem World.edit_self (w : World) (n : Nat) (f : Node → Node) :
    (w.edit n f).nodes n = f (w.nodes n) := by simp [World.edit]

theorem World.edit_of_ne (w : World) {n m : Nat} (f : Node → Node) (h : m ≠ n) :
    (w.edit n f).nodes m = w.nodes m := by simp [World.edit, h]

/-- What the change of one node leaves as it is, on every node. -/
theorem World.edit_same {β : Type} (g : Node → β) {w : World} {n : Nat} {f : Node → Node}
    (h : g (f (w.nodes n)) = g (w.nodes n)) (m : Nat) : g ((w.edit n f).nodes m) = g (w.nodes m) := by
  by_cases hm : m = n
  · rw [hm, World.edit_self, h]
  · rw [World.edit_of_ne w f hm]

end FloatCtf.Realtime
