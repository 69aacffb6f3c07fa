import FloatCtf.Process.Trace
import FloatCtf.Realtime.Publisher
import Mathlib.Data.List.Nodup

/-!
# The numbers of realtime events

A hub receives an event at most once, and the hub of the node that has published it exactly once:
`Once` says so of every world, whatever Redis does.

No hub receives two events of one number where the counter of Redis only goes up and the numbers of
a process stay with it: `Careful` is the condition and `Numbers` the invariant.  The numbers of a
process do leave it when `INCR` fails and `PUBLISH` does not, and every process counts from
one. -/

namespace FloatCtf.Realtime

open Process

/-! ## Each event once -/

/-- What keeps an event from being heard twice: who has heard it and who waits for it have it from a
call that has come so far. -/
structure Once (w : World) : Prop where
  hub : ∀ n, ((w.nodes n).hub.map (·.1)).Nodup
  heard : ∀ n, ∀ x ∈ (w.nodes n).hub, ∃ m num, w.Has x.1 m num 5 ∧ num.value = x.2 ∧
    (m = n ∨ w.Has x.1 m num 6)
  pending : ∀ n, ∀ x ∈ (w.nodes n).pending, ∃ num, w.Has x.event x.origin num 6 ∧
    num.value = x.sequence
  distinct : ∀ n, ((w.nodes n).pending.map (·.event)).Nodup
  unheard : ∀ n, ∀ x ∈ (w.nodes n).pending, x.origin ≠ n → x.event ∉ (w.nodes n).hub.map (·.1)
  sent : ∀ e n num, w.Has e n num 5 → (e, num.value) ∈ (w.nodes n).hub

theorem once_initial (t₀ : Nat) : Once (World.initial t₀) where
  hub _ := List.nodup_nil
  heard _ _ h := absurd h List.not_mem_nil
  pending _ _ h := absurd h List.not_mem_nil
  distinct _ := List.nodup_nil
  unheard _ _ h := absurd h List.not_mem_nil
  sent _ _ _ h := by
    obtain ⟨c, hc, -⟩ := h
    cases hc

section Steps

variable {w w' : World} {i : Nat} {c : Call}

/-- A step after which the hubs have what they had, and no further event was sent. -/
theorem Once.of_quiet (h : Once w) (hgrows : w.Grows w')
    (hhub : ∀ n, (w'.nodes n).hub = (w.nodes n).hub)
    (hbus : ∀ n, (w'.nodes n).pending = (w.nodes n).pending ∨ (w'.nodes n).pending = [])
    (hsent : ∀ e n num, w'.Has e n num 5 → w.Has e n num 5) : Once w' where
  hub n := hhub n ▸ h.hub n
  heard n x hx := by
    obtain ⟨m, num, hhas, hvalue, hown⟩ := h.heard n x (hhub n ▸ hx)
    exact ⟨m, num, hgrows _ _ _ _ hhas, hvalue, hown.imp_right (hgrows _ _ _ _)⟩
  pending n x hx := by
    rcases hbus n with heq | heq
    · obtain ⟨num, hhas, hvalue⟩ := h.pending n x (heq ▸ hx)
      exact ⟨num, hgrows _ _ _ _ hhas, hvalue⟩
    · rw [heq] at hx
      exact absurd hx List.not_mem_nil
  distinct n := by
    rcases hbus n with heq | heq
    · exact heq ▸ h.distinct n
    · rw [heq]
      exact List.nodup_nil
  unheard n x hx := by
    rcases hbus n with heq | heq
    · rw [hhub n]
      exact h.unheard n x (heq ▸ hx)
    · rw [heq] at hx
      exact absurd hx List.not_mem_nil
  sent e n num hhas := hhub n ▸ h.sent e n num (hsent e n num hhas)

/-- The call goes on to a stage before its event is sent. -/
theorem Once.setStage (h : Once w) (hi : w.calls[i]? = some c) {stage : Stage}
    (hrank : c.stage.rank ≤ stage.rank)
    (hnum : ∀ num, c.stage.number = some num → stage.number = some num) (hlow : stage.rank < 5) :
    Once (w.setStage i c stage) := by
  refine h.of_quiet (World.grows_setStage hi hrank hnum) (fun _ => rfl) (fun _ => .inl rfl)
    fun e n num hhas => ?_
  rcases World.has_of_setStage hhas with hold | ⟨-, -, -, hk⟩
  · exact hold
  · omega

/-- The call has not come as far as the rank. -/
theorem not_has_of_rank (hi : w.calls[i]? = some c) {n : Nat} {num : Number} {k : Nat}
    (hk : c.stage.rank < k) : ¬ w.Has i n num k := by
  rintro ⟨c', hc', -, -, hrank⟩
  rw [hi] at hc'
  cases hc'
  omega

/-- An event that was not sent is in no hub. -/
theorem Once.not_mem_hub (h : Once w) (hi : w.calls[i]? = some c) (hk : c.stage.rank < 5)
    (n : Nat) : i ∉ (w.nodes n).hub.map (·.1) := by
  intro hmem
  obtain ⟨x, hx, rfl⟩ := List.mem_map.1 hmem
  obtain ⟨m, num, hhas, -, -⟩ := h.heard n x hx
  exact not_has_of_rank hi hk hhas

/-- An event whose call is not over is pending nowhere. -/
theorem Once.not_mem_pending (h : Once w) (hi : w.calls[i]? = some c) (hk : c.stage.rank < 6)
    (n : Nat) : i ∉ (w.nodes n).pending.map (·.event) := by
  intro hmem
  obtain ⟨x, hx, rfl⟩ := List.mem_map.1 hmem
  obtain ⟨num, hhas, -⟩ := h.pending n x hx
  exact not_has_of_rank hi hk hhas

/-- The hub of a node receives an event: one that it does not have, and that is not on its way to
it from another node. -/
theorem Once.hear (h : Once w) (hgrows : w.Grows w') {n₀ e : Nat} {num : Number}
    (hnew : e ∉ (w.nodes n₀).hub.map (·.1))
    (hself : (w'.nodes n₀).hub = (w.nodes n₀).hub ++ [(e, num.value)])
    (hother : ∀ n, n ≠ n₀ → (w'.nodes n).hub = (w.nodes n).hub)
    (hheard : ∃ m, w'.Has e m num 5 ∧ (m = n₀ ∨ w'.Has e m num 6))
    (hsub : ∀ n, (w'.nodes n).pending.Sublist (w.nodes n).pending)
    (hgone : ∀ x ∈ (w'.nodes n₀).pending, x.event ≠ e)
    (hsent : ∀ e' n num', w'.Has e' n num' 5 → w.Has e' n num' 5 ∨
      e' = e ∧ n = n₀ ∧ num' = num) : Once w' := by
  have hmem {n : Nat} {x : Nat × Nat} (hx : x ∈ (w'.nodes n).hub) :
      x ∈ (w.nodes n).hub ∨ n = n₀ ∧ x = (e, num.value) := by
    by_cases hn : n = n₀
    · subst hn
      rw [hself] at hx
      rcases List.mem_append.1 hx with hx | hx
      · exact .inl hx
      · exact .inr ⟨rfl, List.mem_singleton.1 hx⟩
    · exact .inl (hother n hn ▸ hx)
  have hkept {n : Nat} {x : Nat × Nat} (hx : x ∈ (w.nodes n).hub) : x ∈ (w'.nodes n).hub := by
    by_cases hn : n = n₀
    · subst hn
      rw [hself]
      exact List.mem_append_left _ hx
    · exact (hother n hn).symm ▸ hx
  refine ⟨fun n => ?_, fun n x hx => ?_, fun n x hx => ?_, fun n => ?_, fun n x hx hne hin => ?_,
    fun e' n num' h' => ?_⟩
  · by_cases hn : n = n₀
    · rw [hn, hself, List.map_append]
      exact List.Nodup.append (h.hub n₀) (List.nodup_singleton e) (List.disjoint_singleton.2 hnew)
    · exact (hother n hn).symm ▸ h.hub n
  · rcases hmem hx with hold | ⟨rfl, rfl⟩
    · obtain ⟨m, num', hhas', hvalue, hown⟩ := h.heard n x hold
      exact ⟨m, num', hgrows _ _ _ _ hhas', hvalue, hown.imp_right (hgrows _ _ _ _)⟩
    · obtain ⟨m, hhas, hown⟩ := hheard
      exact ⟨m, num, hhas, rfl, hown⟩
  · obtain ⟨num', hhas', hvalue⟩ := h.pending n x ((hsub n).subset hx)
    exact ⟨num', hgrows _ _ _ _ hhas', hvalue⟩
  · exact ((hsub n).map _).nodup (h.distinct n)
  · obtain ⟨y, hy, hyx⟩ := List.mem_map.1 hin
    rcases hmem hy with hold | ⟨rfl, rfl⟩
    · exact h.unheard n x ((hsub n).subset hx) hne (List.mem_map.2 ⟨y, hold, hyx⟩)
    · exact hgone x hx hyx.symm
  · rcases hsent e' n num' h' with hold | ⟨rfl, rfl, rfl⟩
    · exact hkept (h.sent e' n num' hold)
    · rw [hself]
      exact List.mem_append_right _ List.mem_cons_self

/-- The hub of the node receives the event that was published on it. -/
theorem Once.send (h : Once w) (hi : w.calls[i]? = some c) {num : Number} {bus : Bool}
    (hstage : c.stage = .numbered num bus) {stage : Stage} (hnum : stage.number = some num)
    (hrank : 5 ≤ stage.rank) :
    Once ((w.edit c.node fun node => { node with hub := node.hub ++ [(i, num.value)] }).setStage i c
      stage) := by
  have hlow : c.stage.rank = 4 := by rw [hstage]; rfl
  have hi' : (w.edit c.node fun node =>
      { node with hub := node.hub ++ [(i, num.value)] }).calls[i]? = some c := hi
  have hpending (n : Nat) : ((w.edit c.node fun node =>
      { node with hub := node.hub ++ [(i, num.value)] }).nodes n).pending =
      (w.nodes n).pending := World.edit_same Node.pending rfl n
  refine h.hear (World.grows_setStage hi' (by omega) fun num' h' => ?_)
    (h.not_mem_hub hi (by omega) c.node) (by rw [World.setStage_nodes, World.edit_self])
    (fun n hn => by rw [World.setStage_nodes, World.edit_of_ne _ _ hn])
    ⟨c.node, (World.has_setStage hi' hnum).le hrank, .inl rfl⟩
    (fun n => (hpending n) ▸ List.Sublist.refl _) (fun x hx heq => ?_) fun e n num' hhas => ?_
  · rw [hstage] at h'
    cases h'
    exact hnum
  · have hx : x ∈ (w.nodes c.node).pending := hpending c.node ▸ hx
    exact h.not_mem_pending hi (by omega) c.node (List.mem_map.2 ⟨x, hx, heq⟩)
  · rcases World.has_of_setStage hhas with hold | ⟨he, hn, hnum', -⟩
    · exact .inl hold
    · rw [hnum] at hnum'
      cases hnum'
      exact .inr ⟨he, hn, rfl⟩

/-- Every subscription gets the message of the event. -/
theorem Once.publish (h : Once w) (hi : w.calls[i]? = some c) {num : Number}
    (hstage : c.stage = .sent num) :
    Once ((w.broadcast ⟨c.node, i, num.value⟩).setStage i c (.done num)) := by
  have hlow : c.stage.rank = 5 := by rw [hstage]; rfl
  have hi' : (w.broadcast ⟨c.node, i, num.value⟩).calls[i]? = some c := hi
  have hgrows := World.grows_setStage (s := .done num) hi' (hlow ▸ Nat.le_succ 5)
    fun num' h' => by rw [hstage] at h'; exact h'
  have hhas : ((w.broadcast ⟨c.node, i, num.value⟩).setStage i c (.done num)).Has i c.node num 6 :=
    World.has_setStage hi' rfl
  have hpending (n : Nat) : ((w.broadcast ⟨c.node, i, num.value⟩).nodes n).pending =
      (w.nodes n).pending ∨ ((w.broadcast ⟨c.node, i, num.value⟩).nodes n).pending =
      (w.nodes n).pending ++ [⟨c.node, i, num.value⟩] := by
    cases hbus : (w.nodes n).bus with
    | none => exact .inl (by simp [World.broadcast, Node.pending, hbus])
    | some messages => exact .inr (by simp [World.broadcast, Node.pending, hbus])
  have hmem {n : Nat} {x : Message}
      (hx : x ∈ ((w.broadcast ⟨c.node, i, num.value⟩).nodes n).pending) :
      x ∈ (w.nodes n).pending ∨ x = ⟨c.node, i, num.value⟩ := by
    rcases hpending n with heq | heq
    · exact .inl (heq ▸ hx)
    · rw [heq] at hx
      exact (List.mem_append.1 hx).imp_right List.mem_singleton.1
  refine ⟨h.hub, fun n x hx => ?_, fun n x hx => ?_, fun n => ?_, fun n x hx hne hin => ?_,
    fun e n num' h' => ?_⟩
  · obtain ⟨m, num', hhas', hvalue, hown⟩ := h.heard n x hx
    exact ⟨m, num', hgrows _ _ _ _ hhas', hvalue, hown.imp_right (hgrows _ _ _ _)⟩
  · rcases hmem hx with hold | rfl
    · obtain ⟨num', hhas', hvalue⟩ := h.pending n x hold
      exact ⟨num', hgrows _ _ _ _ hhas', hvalue⟩
    · exact ⟨num, hhas, rfl⟩
  · show (((w.broadcast _).nodes n).pending.map (·.event)).Nodup
    rcases hpending n with heq | heq
    · exact heq.symm ▸ h.distinct n
    · rw [heq, List.map_append]
      exact List.Nodup.append (h.distinct n) (List.nodup_singleton i)
        (List.disjoint_singleton.2 (h.not_mem_pending hi (by omega) n))
  · rcases hmem hx with hold | rfl
    · exact h.unheard n x hold hne hin
    · obtain ⟨y, hy, hyx⟩ := List.mem_map.1 hin
      obtain ⟨m, num', hhas', -, hown⟩ := h.heard n y hy
      rw [hyx] at hhas' hown
      rcases hown with rfl | hover
      · obtain ⟨c', hc', hn, -⟩ := hhas'
        rw [hi] at hc'
        cases hc'
        exact hne hn
      · exact not_has_of_rank hi (by omega) hover
  · refine h.sent e n num' ?_
    rcases World.has_of_setStage h' with hold | ⟨rfl, rfl, hnum', -⟩
    · exact hold
    · cases hnum'
      exact ⟨c, hi, rfl, by rw [hstage]; rfl, by omega⟩

/-- The subscriber of the node takes the next message. -/
theorem Once.deliver (h : Once w) {n : Nat} {m : Message} {rest : List Message}
    (hbus : (w.nodes n).bus = some (m :: rest)) : Once (w.edit n (Node.receive n m rest)) := by
  have hpending : (w.nodes n).pending = m :: rest := by
    unfold Node.pending
    rw [hbus]
    rfl
  have hm : m ∈ (w.nodes n).pending := hpending ▸ List.mem_cons_self
  have hsub (n' : Nat) : ((w.edit n (Node.receive n m rest)).nodes n').pending.Sublist
      (w.nodes n').pending := by
    by_cases hn : n' = n
    · rw [hn, World.edit_self, hpending]
      exact List.sublist_cons_self m rest
    · rw [World.edit_of_ne _ _ hn]
  obtain ⟨num, hhas, hvalue⟩ := h.pending n m hm
  by_cases horigin : m.origin = n
  · have hhub (n' : Nat) : ((w.edit n (Node.receive n m rest)).nodes n').hub = (w.nodes n').hub :=
      World.edit_same Node.hub (if_pos horigin) n'
    refine ⟨fun n' => hhub n' ▸ h.hub n', fun n' x hx => h.heard n' x (hhub n' ▸ hx),
      fun n' x hx => h.pending n' x ((hsub n').subset hx),
      fun n' => ((hsub n').map _).nodup (h.distinct n'), fun n' x hx hne => ?_,
      fun e n' num' h' => (hhub n').symm ▸ h.sent e n' num' h'⟩
    rw [hhub n']
    exact h.unheard n' x ((hsub n').subset hx) hne
  · refine h.hear (World.grows_of_calls rfl) (h.unheard n m hm horigin) ?_
      (fun n' hn => congrArg Node.hub (World.edit_of_ne _ _ hn))
      ⟨m.origin, hhas.le (by decide), .inr hhas⟩ hsub (fun x hx heq => ?_)
      fun e n' num' h' => .inl h'
    · rw [World.edit_self, hvalue]
      exact if_neg horigin
    · rw [World.edit_self] at hx
      have hx : x ∈ rest := hx
      have hnodup := h.distinct n
      rw [hpending, List.map_cons, List.nodup_cons] at hnodup
      exact hnodup.1 (List.mem_map.2 ⟨x, hx, heq⟩)

/-- The next command of a call. -/
theorem Once.command (h : Once w) (hi : w.calls[i]? = some c) (reply : Reply) :
    Once (w.command i c reply) := by
  have hredis (r : Option Nat) : Once { w with redis := r } :=
    ⟨h.hub, h.heard, h.pending, h.distinct, h.unheard, h.sent⟩
  have hearly {stage : Stage} (hc : c.stage.number = none) (hrank : c.stage.rank ≤ stage.rank)
      (hlow : stage.rank < 5) {w₁ : World} (h₁ : Once w₁) (hi₁ : w₁.calls[i]? = some c) :
      Once (w₁.setStage i c stage) :=
    h₁.setStage hi₁ hrank (fun num hnum => by rw [hc] at hnum; cases hnum) hlow
  unfold World.command
  split
  · rename_i hstage
    split_ifs
    · exact hearly (by rw [hstage]; rfl) (by simp [hstage, Stage.rank]) (by simp [Stage.rank]) h hi
    · exact hearly (by rw [hstage]; rfl) (by simp [hstage, Stage.rank]) (by simp [Stage.rank]) h hi
  · rename_i hstage
    split_ifs
    · exact hearly (by rw [hstage]; rfl) (by simp [hstage, Stage.rank]) (by simp [Stage.rank]) h hi
    · exact hearly (by rw [hstage]; rfl) (by simp [hstage, Stage.rank]) (by simp [Stage.rank])
        (hredis _) hi
  · rename_i hstage
    dsimp only
    split
    · exact hearly (by rw [hstage]; rfl) (by simp [hstage, Stage.rank]) (by simp [Stage.rank])
        (hredis _) hi
    · exact hearly (by rw [hstage]; rfl) (by simp [hstage, Stage.rank]) (by simp [Stage.rank])
        (hredis _) hi
    · exact hearly (by rw [hstage]; rfl) (by simp [hstage, Stage.rank]) (by simp [Stage.rank]) h hi
  · rename_i bus hstage
    have hedit : Once (w.edit c.node fun node =>
        { node with seq := (w.nodes c.node).seq + 1 }) := by
      exact h.of_quiet (World.grows_of_calls rfl) (World.edit_same Node.hub rfl)
        (fun n => .inl (World.edit_same Node.pending rfl n)) fun _ _ _ h' => h'
    exact hearly (by rw [hstage]; rfl) (by simp [hstage, Stage.rank]) (by simp [Stage.rank]) hedit hi
  · rename_i num bus hstage
    split_ifs
    · exact h.send hi hstage rfl (by simp [Stage.rank])
    · exact h.send hi hstage rfl (by simp [Stage.rank])
  · rename_i num hstage
    split_ifs
    · have hover : ∀ num', c.stage.number = some num' → (Stage.done num).number = some num' :=
        fun num' h' => by rw [hstage] at h'; exact h'
      refine h.of_quiet (World.grows_setStage hi (by simp [hstage, Stage.rank]) hover)
        (fun _ => rfl) (fun _ => .inl rfl) fun e n num' hhas => ?_
      rcases World.has_of_setStage hhas with hold | ⟨rfl, rfl, hnum, -⟩
      · exact hold
      · exact ⟨c, hi, rfl, by rw [hstage]; exact hnum, by simp [hstage, Stage.rank]⟩
    · exact h.publish hi hstage
  · exact h

/-- Only a call that is over or sent is heard: a new call is not. -/
theorem has_of_publish {n e m : Nat} {num : Number} {k : Nat}
    (h : (w.step (.publish n)).Has e m num k) : w.Has e m num k := by
  obtain ⟨c, hc, hm, hnum, hk⟩ := h
  have hc : (w.calls ++ [⟨n, .connecting⟩])[e]? = some c := hc
  rcases List.mem_append.1 (List.mem_of_getElem? hc) with - | hnew
  · refine ⟨c, ?_, hm, hnum, hk⟩
    by_cases he : e < w.calls.length
    · rwa [List.getElem?_append_left he] at hc
    · rw [List.getElem?_append_right (Nat.not_lt.1 he)] at hc
      rw [List.mem_singleton.1 (List.mem_of_getElem? hc)] at hnum
      cases hnum
  · rw [List.mem_singleton.1 hnew] at hnum
    cases hnum

theorem Once.step (h : Once w) (a : Act) : Once (w.step a) := by
  have hedit (n : Nat) (bus : Option (List Message)) (hbus : bus.getD [] = []) :
      Once (w.edit n fun node => { node with bus := bus }) := by
    refine h.of_quiet (World.grows_of_calls rfl) (World.edit_same Node.hub rfl) (fun n' => ?_)
      fun _ _ _ h' => h'
    · by_cases hn : n' = n
      · rw [hn, World.edit_self]
        exact .inr hbus
      · rw [World.edit_of_ne _ _ hn]
        exact .inl rfl
  cases a with
  | publish n =>
    exact h.of_quiet (World.grows_publish w n) (fun _ => rfl) (fun _ => .inl rfl)
      fun _ _ _ => has_of_publish
  | command i reply =>
    simp only [World.step]
    split
    · exact h.command ‹_› reply
    · exact h
  | subscribe n => exact hedit n (some []) rfl
  | unsubscribe n => exact hedit n none rfl
  | deliver n =>
    simp only [World.step]
    split
    · exact h.deliver ‹_›
    · exact h
  | lose => exact ⟨h.hub, h.heard, h.pending, h.distinct, h.unheard, h.sent⟩
  | tick d => exact ⟨h.hub, h.heard, h.pending, h.distinct, h.unheard, h.sent⟩

end Steps

/-! ## The condition -/

/-- The number that Redis has given to the call. -/
def Call.fromRedis (c : Call) : Option Nat :=
  match c.stage.number with
  | some (.redis k) => some k
  | _ => none

/-- The counter of Redis is started no lower than what it has given, it is there when it is
incremented, the numbers of a process are below the time at which the platform was started, and an
event with such a number is not published to the other nodes. -/
def Careful (t₀ : Nat) (w : World) : Act → Prop
  | .command i reply =>
    match w.calls[i]? with
    | some c =>
      match c.stage with
      | .connected floor => reply = .refused ∨ w.redis.isSome = true ∨
          ∀ c' ∈ w.calls, ∀ k ∈ c'.fromRedis, k ≤ floor
      | .seeded => reply = .refused ∨ w.redis.isSome = true
      | .fallback _ => (w.nodes c.node).seq ≤ t₀
      | .sent (.own _) => reply = .refused
      | _ => True
    | none => True
  | _ => True

instance (t₀ : Nat) (w : World) (a : Act) : Decidable (Careful t₀ w a) := by
  unfold Careful
  repeat' split
  all_goals infer_instance

/-! ## The numbers -/

/-- What keeps the numbers apart: those of Redis lie between the clock at the start and the counter,
those drawn without it are counted by their node. -/
structure Numbers (t₀ : Nat) (w : World) : Prop where
  clock : t₀ ≤ w.clock
  floor : ∀ c ∈ w.calls, ∀ f, c.stage = .connected f → t₀ ≤ f
  counter : ∀ r ∈ w.redis, t₀ ≤ r ∧ ∀ e n k, w.Has e n (.redis k) 4 → k ≤ r
  redis : ∀ e n k, w.Has e n (.redis k) 4 → t₀ < k
  own : ∀ e n k, w.Has e n (.own k) 4 → k ≤ t₀ ∧ k < (w.nodes n).seq
  redisOnce : ∀ e n e' n' k, w.Has e n (.redis k) 4 → w.Has e' n' (.redis k) 4 → e = e'
  ownOnce : ∀ e e' n k, w.Has e n (.own k) 4 → w.Has e' n (.own k) 4 → e = e'
  remote : ∀ n, ∀ x ∈ (w.nodes n).hub, ∀ m num, w.Has x.1 m num 4 → m ≠ n → ∃ k, num = .redis k
  bus : ∀ n, ∀ x ∈ (w.nodes n).pending, ∀ m num, w.Has x.event m num 4 → ∃ k, num = .redis k

theorem numbers_initial (t₀ : Nat) : Numbers t₀ (World.initial t₀) := by
  have hno (e n : Nat) (num : Number) (k : Nat) : ¬ (World.initial t₀).Has e n num k := by
    rintro ⟨c, hc, -⟩
    cases hc
  exact
    { clock := Nat.le_refl t₀
      floor := fun c hc => absurd hc List.not_mem_nil
      counter := fun r hr => nomatch hr
      redis := fun e n k h => (hno _ _ _ _ h).elim
      own := fun e n k h => (hno _ _ _ _ h).elim
      redisOnce := fun e n e' n' k h => (hno _ _ _ _ h).elim
      ownOnce := fun e e' n k h => (hno _ _ _ _ h).elim
      remote := fun n x hx => absurd hx List.not_mem_nil
      bus := fun n x hx => absurd hx List.not_mem_nil }

section Numbers

variable {t₀ : Nat} {w w' : World} {i : Nat} {c : Call}

/-- No number is given; what a hub or a subscription gets from elsewhere is a number of Redis. -/
theorem Numbers.of_quiet (h : Numbers t₀ w) (hclock : w.clock ≤ w'.clock)
    (hfloor : ∀ c ∈ w'.calls, ∀ f, c.stage = .connected f → t₀ ≤ f)
    (hback : ∀ e n num, w'.Has e n num 4 → w.Has e n num 4)
    (hcounter : ∀ r ∈ w'.redis, t₀ ≤ r ∧ ∀ e n k, w.Has e n (.redis k) 4 → k ≤ r)
    (hseq : ∀ n, (w.nodes n).seq ≤ (w'.nodes n).seq)
    (hhub : ∀ n, ∀ x ∈ (w'.nodes n).hub, x ∈ (w.nodes n).hub ∨
      ∀ m num, w.Has x.1 m num 4 → m ≠ n → ∃ k, num = .redis k)
    (hbus : ∀ n, ∀ x ∈ (w'.nodes n).pending, x ∈ (w.nodes n).pending ∨
      ∀ m num, w.Has x.event m num 4 → ∃ k, num = .redis k) : Numbers t₀ w' where
  clock := Nat.le_trans h.clock hclock
  floor := hfloor
  counter r hr := ⟨(hcounter r hr).1, fun e n k hhas => (hcounter r hr).2 e n k (hback _ _ _ hhas)⟩
  redis e n k hhas := h.redis e n k (hback _ _ _ hhas)
  own e n k hhas :=
    ⟨(h.own e n k (hback _ _ _ hhas)).1,
      Nat.lt_of_lt_of_le (h.own e n k (hback _ _ _ hhas)).2 (hseq n)⟩
  redisOnce e n e' n' k hhas hhas' := h.redisOnce e n e' n' k (hback _ _ _ hhas) (hback _ _ _ hhas')
  ownOnce e e' n k hhas hhas' := h.ownOnce e e' n k (hback _ _ _ hhas) (hback _ _ _ hhas')
  remote n x hx m num hhas := by
    rcases hhub n x hx with hold | hnew
    · exact h.remote n x hold m num (hback _ _ _ hhas)
    · exact hnew m num (hback _ _ _ hhas)
  bus n x hx m num hhas := by
    rcases hbus n x hx with hold | hnew
    · exact h.bus n x hold m num (hback _ _ _ hhas)
    · exact hnew m num (hback _ _ _ hhas)

/-- The next number of Redis, above all that it has given. -/
theorem Numbers.incr (h : Numbers t₀ w) {r : Nat} (hr : w.redis = some r) :
    Numbers t₀ ({ w with redis := some (r + 1) }.setStage i c
      (.numbered (.redis (r + 1)) true)) := by
  have hcases {e n : Nat} {num : Number} (hhas : ({ w with redis := some (r + 1) }.setStage i c
      (.numbered (.redis (r + 1)) true)).Has e n num 4) :
      w.Has e n num 4 ∨ e = i ∧ num = .redis (r + 1) := by
    rcases World.has_of_setStage hhas with hold | ⟨he, -, hnum, -⟩
    · exact .inl hold
    · cases hnum
      exact .inr ⟨he, rfl⟩
  obtain ⟨hbase, htop⟩ := h.counter r hr
  refine ⟨h.clock, fun c' hc' f hf => ?_, fun r' hr' => ?_, fun e n k hhas => ?_,
    fun e n k hhas => ?_, fun e n e' n' k hhas hhas' => ?_, fun e e' n k hhas hhas' => ?_,
    fun n x hx m num hhas hne => ?_, fun n x hx m num hhas => ?_⟩
  · rcases List.mem_or_eq_of_mem_set hc' with hold | rfl
    · exact h.floor c' hold f hf
    · cases hf
  · cases hr'
    refine ⟨by omega, fun e n k hhas => ?_⟩
    rcases hcases hhas with hold | ⟨-, heq⟩
    · exact Nat.le_succ_of_le (htop e n k hold)
    · cases heq
      exact Nat.le_refl _
  · rcases hcases hhas with hold | ⟨-, heq⟩
    · exact h.redis e n k hold
    · cases heq
      omega
  · rcases hcases hhas with hold | ⟨-, heq⟩
    · exact h.own e n k hold
    · cases heq
  · rcases hcases hhas with hold | ⟨he, heq⟩ <;> rcases hcases hhas' with hold' | ⟨he', heq'⟩
    · exact h.redisOnce e n e' n' k hold hold'
    · cases heq'
      have := htop e n _ hold
      omega
    · cases heq
      have := htop e' n' _ hold'
      omega
    · rw [he, he']
  · rcases hcases hhas with hold | ⟨-, heq⟩
    · rcases hcases hhas' with hold' | ⟨-, heq'⟩
      · exact h.ownOnce e e' n k hold hold'
      · cases heq'
    · cases heq
  · rcases hcases hhas with hold | ⟨-, rfl⟩
    · exact h.remote n x hx m num hold hne
    · exact ⟨_, rfl⟩
  · rcases hcases hhas with hold | ⟨-, rfl⟩
    · exact h.bus n x hx m num hold
    · exact ⟨_, rfl⟩

/-- The next number of the process. -/
theorem Numbers.fallback (h : Numbers t₀ w) (honce : Once w) (hi : w.calls[i]? = some c)
    (hlow : c.stage.rank < 4) (hbound : (w.nodes c.node).seq ≤ t₀) (bus : Bool) :
    Numbers t₀ ((w.edit c.node fun node => { node with seq := (w.nodes c.node).seq + 1 }).setStage
      i c (.numbered (.own (w.nodes c.node).seq) bus)) := by
  have hcases {e n : Nat} {num : Number}
      (hhas : ((w.edit c.node fun node => { node with seq := (w.nodes c.node).seq + 1 }).setStage
        i c (.numbered (.own (w.nodes c.node).seq) bus)).Has e n num 4) :
      w.Has e n num 4 ∨ e = i ∧ n = c.node ∧ num = .own (w.nodes c.node).seq := by
    rcases World.has_of_setStage hhas with hold | ⟨he, hn, hnum, -⟩
    · exact .inl hold
    · cases hnum
      exact .inr ⟨he, hn, rfl⟩
  have hnode (n : Nat) : (w.nodes n).seq ≤ ((w.edit c.node fun node =>
      { node with seq := (w.nodes c.node).seq + 1 }).nodes n).seq ∧
      ((w.edit c.node fun node => { node with seq := (w.nodes c.node).seq + 1 }).nodes n).hub =
        (w.nodes n).hub ∧
      ((w.edit c.node fun node => { node with seq := (w.nodes c.node).seq + 1 }).nodes n).pending =
        (w.nodes n).pending := by
    by_cases hn : n = c.node
    · rw [hn, World.edit_self]
      exact ⟨Nat.le_succ _, rfl, rfl⟩
    · rw [World.edit_of_ne _ _ hn]
      exact ⟨Nat.le_refl _, rfl, rfl⟩
  refine ⟨h.clock, fun c' hc' f hf => ?_, fun r hr => ?_, fun e n k hhas => ?_,
    fun e n k hhas => ?_, fun e n e' n' k hhas hhas' => ?_, fun e e' n k hhas hhas' => ?_,
    fun n x hx m num hhas hne => ?_, fun n x hx m num hhas => ?_⟩
  · rcases List.mem_or_eq_of_mem_set hc' with hold | rfl
    · exact h.floor c' hold f hf
    · cases hf
  · refine ⟨(h.counter r hr).1, fun e n k hhas => ?_⟩
    rcases hcases hhas with hold | ⟨-, -, heq⟩
    · exact (h.counter r hr).2 e n k hold
    · cases heq
  · rcases hcases hhas with hold | ⟨-, -, heq⟩
    · exact h.redis e n k hold
    · cases heq
  · rcases hcases hhas with hold | ⟨-, rfl, heq⟩
    · exact ⟨(h.own e n k hold).1, Nat.lt_of_lt_of_le (h.own e n k hold).2 (hnode n).1⟩
    · cases heq
      refine ⟨hbound, ?_⟩
      rw [World.setStage_nodes, World.edit_self]
      exact Nat.lt_succ_self _
  · rcases hcases hhas with hold | ⟨-, -, heq⟩
    · rcases hcases hhas' with hold' | ⟨-, -, heq'⟩
      · exact h.redisOnce e n e' n' k hold hold'
      · cases heq'
    · cases heq
  · rcases hcases hhas with hold | ⟨he, hn, heq⟩ <;>
      rcases hcases hhas' with hold' | ⟨he', hn', heq'⟩
    · exact h.ownOnce e e' n k hold hold'
    · cases heq'
      have := (h.own e n _ hold).2
      rw [hn'] at this
      omega
    · cases heq
      have := (h.own e' n _ hold').2
      rw [hn] at this
      omega
    · rw [he, he']
  · have hx : x ∈ (w.nodes n).hub := (hnode n).2.1 ▸ hx
    rcases hcases hhas with hold | ⟨he, -, -⟩
    · exact h.remote n x hx m num hold hne
    · exact (honce.not_mem_hub hi (by omega) n (List.mem_map.2 ⟨x, hx, he⟩)).elim
  · have hx : x ∈ (w.nodes n).pending := (hnode n).2.2 ▸ hx
    rcases hcases hhas with hold | ⟨he, -, -⟩
    · exact h.bus n x hx m num hold
    · exact (honce.not_mem_pending hi (by omega) n (List.mem_map.2 ⟨x, hx, he⟩)).elim

/-- A call goes on and no number is given. -/
theorem Numbers.setStage (h : Numbers t₀ w) (hi : w.calls[i]? = some c) {stage : Stage}
    (hfloor : ∀ f, stage = .connected f → t₀ ≤ f)
    (hnum : ∀ num, stage.number = some num → c.stage.number = some num ∧ 4 ≤ c.stage.rank) :
    Numbers t₀ (w.setStage i c stage) := by
  refine h.of_quiet (Nat.le_refl _) (fun c' hc' f hf => ?_) (fun e n num hhas => ?_) h.counter
    (fun _ => Nat.le_refl _) (fun _ _ hx => .inl hx) fun _ _ hx => .inl hx
  · rcases List.mem_or_eq_of_mem_set hc' with hold | rfl
    · exact h.floor c' hold f hf
    · exact hfloor f hf
  · rcases World.has_of_setStage hhas with hold | ⟨rfl, rfl, hstage, -⟩
    · exact hold
    · exact ⟨c, hi, rfl, (hnum num hstage).1, (hnum num hstage).2⟩

/-- The counter is what it was, or above all that Redis has given. -/
theorem Numbers.setRedis (h : Numbers t₀ w) {r : Nat} (hbase : t₀ ≤ r)
    (htop : ∀ e n k, w.Has e n (.redis k) 4 → k ≤ r) : Numbers t₀ { w with redis := some r } := by
  refine h.of_quiet (Nat.le_refl _) h.floor (fun _ _ _ hhas => hhas) (fun r' hr' => ?_)
    (fun _ => Nat.le_refl _) (fun _ _ hx => .inl hx) fun _ _ hx => .inl hx
  cases hr'
  exact ⟨hbase, htop⟩

/-- What Redis has given to the calls. -/
theorem fromRedis_of_has {e n k : Nat} (h : w.Has e n (.redis k) 4) :
    ∃ c ∈ w.calls, k ∈ c.fromRedis := by
  obtain ⟨c, hc, -, hnum, -⟩ := h
  exact ⟨c, List.mem_of_getElem? hc, by simp [Call.fromRedis, hnum]⟩

/-- `SET NX` under the condition. -/
theorem Numbers.seed (h : Numbers t₀ w) {floor : Nat} (hfloor : t₀ ≤ floor)
    (hc : w.redis.isSome = true ∨ ∀ c' ∈ w.calls, ∀ k ∈ c'.fromRedis, k ≤ floor) :
    Numbers t₀ { w with redis := some (w.redis.getD floor) } := by
  cases hr : w.redis with
  | some r =>
    obtain ⟨hbase, htop⟩ := h.counter r hr
    exact h.setRedis hbase htop
  | none =>
    rw [hr] at hc
    refine h.setRedis hfloor fun e n k hhas => ?_
    obtain ⟨c', hc', hk⟩ := fromRedis_of_has hhas
    rcases hc with hsome | htop
    · cases hsome
    · exact htop c' hc' k hk

/-- The hub of the node receives the event. -/
theorem Numbers.send (h : Numbers t₀ w) (hi : w.calls[i]? = some c) (v : Nat) :
    Numbers t₀ (w.edit c.node fun node => { node with hub := node.hub ++ [(i, v)] }) := by
  refine h.of_quiet (Nat.le_refl _) h.floor (fun _ _ _ hhas => hhas) h.counter
    (fun n => Nat.le_of_eq (World.edit_same Node.seq rfl n).symm) (fun n x hx => ?_)
    fun n x hx => .inl (World.edit_same Node.pending
      (f := fun node => { node with hub := node.hub ++ [(i, v)] }) rfl n ▸ hx)
  · by_cases hn : n = c.node
    · rw [hn, World.edit_self] at hx
      rcases List.mem_append.1 hx with hx | hx
      · exact .inl (hn ▸ hx)
      · refine .inr fun m num hhas hne => ?_
        rw [List.mem_singleton.1 hx] at hhas
        obtain ⟨c', hc', hm, -⟩ := hhas
        rw [hi] at hc'
        cases hc'
        exact absurd (hm.symm.trans hn.symm) hne
    · rw [World.edit_of_ne _ _ hn] at hx
      exact .inl hx

/-- A number of Redis is published. -/
theorem Numbers.publish (h : Numbers t₀ w) (hi : w.calls[i]? = some c) {k : Nat}
    (hstage : c.stage = .sent (.redis k)) (m : Message) (hm : m.event = i) :
    Numbers t₀ (w.broadcast m) := by
  refine h.of_quiet (Nat.le_refl _) h.floor (fun _ _ _ hhas => hhas) h.counter
    (fun _ => Nat.le_refl _) (fun _ _ hx => .inl hx) fun n x hx => ?_
  have hx : x ∈ (w.nodes n).pending ∨ x = m := by
    cases hbus : (w.nodes n).bus with
    | none => simp [World.broadcast, Node.pending, hbus] at hx
    | some messages => simpa [World.broadcast, Node.pending, hbus] using hx
  refine hx.imp_right fun hxm o num hhas => ?_
  obtain ⟨c', hc', -, hnum, -⟩ := hhas
  rw [hxm, hm, hi] at hc'
  cases hc'
  rw [hstage] at hnum
  cases hnum
  exact ⟨k, rfl⟩

theorem Numbers.command (h : Numbers t₀ w) (honce : Once w) (hi : w.calls[i]? = some c)
    {reply : Reply} (hc : Careful t₀ w (.command i reply)) : Numbers t₀ (w.command i c reply) := by
  have hmem : c ∈ w.calls := List.mem_of_getElem? hi
  simp only [Careful, hi] at hc
  unfold World.command
  split
  · refine h.setStage hi (fun f hf => ?_) fun num hnum => ?_
    · split_ifs at hf
      cases hf
      exact h.clock
    · split_ifs at hnum <;> cases hnum
  · rename_i floor hstage
    rw [hstage] at hc
    split_ifs with hrefused
    · exact h.setStage hi (fun f hf => nomatch hf) fun num hnum => nomatch hnum
    · have hseed := h.seed (h.floor c hmem floor hstage) (hc.resolve_left hrefused)
      exact hseed.setStage hi (fun f hf => nomatch hf) fun num hnum => nomatch hnum
  · rename_i hstage
    rw [hstage] at hc
    dsimp only
    split
    · obtain ⟨r, hr⟩ := Option.isSome_iff_exists.1 (hc.resolve_left (by decide))
      rw [hr]
      exact h.incr hr
    · obtain ⟨r, hr⟩ := Option.isSome_iff_exists.1 (hc.resolve_left (by decide))
      obtain ⟨hbase, htop⟩ := h.counter r hr
      rw [hr]
      have hnext := h.setRedis (Nat.le_succ_of_le hbase) fun e n k hhas =>
        Nat.le_succ_of_le (htop e n k hhas)
      exact hnext.setStage hi (fun f hf => nomatch hf) fun num hnum => nomatch hnum
    · exact h.setStage hi (fun f hf => nomatch hf) fun num hnum => nomatch hnum
  · rename_i bus hstage
    rw [hstage] at hc
    exact h.fallback honce hi (by simp [hstage, Stage.rank]) hc bus
  · rename_i num bus hstage
    refine (h.send hi num.value).setStage hi (fun f hf => ?_) fun num' hnum => ?_
    · split_ifs at hf
    · rw [hstage]
      refine ⟨?_, Nat.le_refl 4⟩
      split_ifs at hnum <;> exact hnum
  · rename_i num hstage
    have hnum (num' : Number) (h' : (Stage.done num).number = some num') :
        c.stage.number = some num' ∧ 4 ≤ c.stage.rank := by
      rw [hstage]
      exact ⟨h', Nat.le_succ 4⟩
    rw [hstage] at hc
    split_ifs with hrefused
    · exact h.setStage hi (fun f hf => nomatch hf) hnum
    · cases num with
      | redis k =>
        exact (h.publish hi hstage _ rfl).setStage hi (fun f hf => nomatch hf) hnum
      | own k => exact absurd hc hrefused
  · exact h

theorem Numbers.step (h : Numbers t₀ w) (honce : Once w) {a : Act} (ha : Careful t₀ w a) :
    Numbers t₀ (w.step a) := by
  have hedit (n : Nat) (bus : Option (List Message)) (hbus : bus.getD [] = []) :
      Numbers t₀ (w.edit n fun node => { node with bus := bus }) := by
    refine h.of_quiet (Nat.le_refl _) h.floor (fun _ _ _ hhas => hhas) h.counter
      (fun n' => Nat.le_of_eq (World.edit_same Node.seq rfl n').symm)
      (fun n' x hx => .inl (World.edit_same Node.hub
        (f := fun node => { node with bus := bus }) rfl n' ▸ hx)) fun n' x hx => .inl ?_
    · by_cases hn : n' = n
      · rw [hn, World.edit_self] at hx
        have hx : x ∈ bus.getD [] := hx
        rw [hbus] at hx
        exact absurd hx List.not_mem_nil
      · rwa [World.edit_of_ne _ _ hn] at hx
  cases a with
  | publish n =>
    refine h.of_quiet (Nat.le_refl _) (fun c hc f hf => ?_) (fun _ _ _ => has_of_publish) h.counter
      (fun _ => Nat.le_refl _) (fun _ _ hx => .inl hx) fun _ _ hx => .inl hx
    rcases List.mem_append.1 hc with hold | hnew
    · exact h.floor c hold f hf
    · rw [List.mem_singleton.1 hnew] at hf
      cases hf
  | command i reply =>
    simp only [World.step]
    split
    · exact h.command honce ‹_› ha
    · exact h
  | subscribe n => exact hedit n (some []) rfl
  | unsubscribe n => exact hedit n none rfl
  | deliver n =>
    simp only [World.step]
    split
    · rename_i m rest hbus
      have hm : m ∈ (w.nodes n).pending := by simp [Node.pending, hbus]
      refine h.of_quiet (Nat.le_refl _) h.floor (fun _ _ _ hhas => hhas) h.counter
        (fun n' => Nat.le_of_eq (World.edit_same Node.seq rfl n').symm) (fun n' x hx => ?_)
        fun n' x hx => .inl ?_
      · by_cases hn : n' = n
        · rw [hn, World.edit_self] at hx
          have hx : x ∈ (if m.origin = n then (w.nodes n).hub
            else (w.nodes n).hub ++ [(m.event, m.sequence)]) := hx
          split_ifs at hx
          · exact .inl (hn ▸ hx)
          · rcases List.mem_append.1 hx with hx | hx
            · exact .inl (hn ▸ hx)
            · rw [List.mem_singleton.1 hx]
              exact .inr fun o num hhas _ => h.bus n m hm o num hhas
        · rw [World.edit_of_ne _ _ hn] at hx
          exact .inl hx
      · by_cases hn : n' = n
        · rw [hn, World.edit_self] at hx
          have hx : x ∈ rest := hx
          rw [hn]
          simp [Node.pending, hbus, hx]
        · rwa [World.edit_of_ne _ _ hn] at hx
    · exact h
  | lose =>
    exact h.of_quiet (Nat.le_refl _) h.floor (fun _ _ _ hhas => hhas) (fun _ hr => by cases hr)
      (fun _ => Nat.le_refl _) (fun _ _ hx => .inl hx) fun _ _ hx => .inl hx
  | tick d =>
    exact h.of_quiet (Nat.le_add_right _ _) h.floor (fun _ _ _ hhas => hhas) h.counter
      (fun _ => Nat.le_refl _) (fun _ _ hx => .inl hx) fun _ _ hx => .inl hx

end Numbers

/-! ## Runs -/

/-- The events that the hub of a process has received have different numbers. -/
theorem Numbers.hub_nodup {t₀ : Nat} {w : World} (h : Numbers t₀ w) (honce : Once w) (n : Nat) :
    ((w.nodes n).hub.map (·.2)).Nodup := by
  have hpair : (w.nodes n).hub.Pairwise fun x y => x.1 ≠ y.1 := List.pairwise_map.1 (honce.hub n)
  refine List.pairwise_map.2 (hpair.imp_of_mem fun {x y} hx hy hne heq => hne ?_)
  obtain ⟨m, num, hhas, hvalue, -⟩ := honce.heard n x hx
  obtain ⟨m', num', hhas', hvalue', -⟩ := honce.heard n y hy
  have hhas := hhas.le (Nat.le_succ 4)
  have hhas' := hhas'.le (Nat.le_succ 4)
  have heq : num.value = num'.value := hvalue.trans (heq.trans hvalue'.symm)
  cases num with
  | redis k =>
    cases num' with
    | redis k' =>
      have heq : k = k' := heq
      subst heq
      exact h.redisOnce _ _ _ _ _ hhas hhas'
    | own k' =>
      have heq : k = k' := heq
      have := h.redis _ _ _ hhas
      have := (h.own _ _ _ hhas').1
      omega
  | own k =>
    cases num' with
    | redis k' =>
      have heq : k = k' := heq
      have := h.redis _ _ _ hhas'
      have := (h.own _ _ _ hhas).1
      omega
    | own k' =>
      have heq : k = k' := heq
      subst heq
      -- a number of a process is in no other hub
      have hm : m = n := by
        by_contra hm
        obtain ⟨_, h'⟩ := h.remote n x hx m _ hhas hm
        cases h'
      have hm' : m' = n := by
        by_contra hm'
        obtain ⟨_, h'⟩ := h.remote n y hy m' _ hhas' hm'
        cases h'
      subst hm hm'
      exact h.ownOnce _ _ _ _ hhas hhas'

/-- The only entry of its event. -/
theorem filter_fst_eq : ∀ {l : List (Nat × Nat)} {x : Nat × Nat}, (l.map (·.1)).Nodup → x ∈ l →
    l.filter (·.1 = x.1) = [x]
  | y :: l, x, hnodup, hx => by
    rw [List.map_cons, List.nodup_cons] at hnodup
    rcases List.mem_cons.1 hx with rfl | hx
    · have hrest : l.filter (·.1 = x.1) = [] := by
        refine List.filter_eq_nil_iff.2 fun z hz heq => hnodup.1 ?_
        exact List.mem_map.2 ⟨z, hz, of_decide_eq_true heq⟩
      rw [List.filter_cons_of_pos (by simp), hrest]
    · have hne : ¬ y.1 = x.1 := fun heq => hnodup.1 (List.mem_map.2 ⟨x, hx, heq.symm⟩)
      rw [List.filter_cons_of_neg (by simpa using hne)]
      exact filter_fst_eq hnodup.2 hx

/-- Each event once in a hub, and once in that of its own node when its call is over; and under the
condition no number twice. -/
theorem sequences_run (t₀ : Nat) (acts : List Act) :
    let w := acts.foldl World.step (World.initial t₀)
    (∀ n, ((w.nodes n).hub.map (·.1)).Nodup) ∧
    (∀ e c num, w.calls[e]? = some c → c.stage = .done num →
      (w.nodes c.node).hub.filter (·.1 = e) = [(e, num.value)]) ∧
    (Along World.step (Careful t₀) (World.initial t₀) acts →
      ∀ n, ((w.nodes n).hub.map (·.2)).Nodup) := by
  have honce : Once (acts.foldl World.step (World.initial t₀)) :=
    inv_of_along Once (fun w a h _ => h.step a) (once_initial t₀)
      (along_of_forall (fun _ _ => trivial) _ acts)
  refine ⟨honce.hub, fun e c num hc hstage => ?_, fun ha => ?_⟩
  · have hmem := honce.sent e c.node num ⟨c, hc, rfl, by rw [hstage]; rfl,
      by rw [hstage]; exact Nat.le_succ 5⟩
    exact filter_fst_eq (honce.hub c.node) hmem
  · have hboth := inv_of_along (fun w => Once w ∧ Numbers t₀ w)
      (fun w a h hc => ⟨h.1.step a, h.2.step h.1 hc⟩) ⟨once_initial t₀, numbers_initial t₀⟩ ha
    exact hboth.2.hub_nodup hboth.1

/-! ## Two nodes that count for themselves -/

/-- Both nodes are subscribed.  On each `INCR` fails, and on the first one `PUBLISH` does not. -/
def twinActs : List Act :=
  [.subscribe 0, .subscribe 1, .publish 0, .command 0 .answered, .command 0 .answered,
    .command 0 .refused, .command 0 .answered, .command 0 .answered, .command 0 .answered,
    .deliver 1, .publish 1, .command 1 .answered, .command 1 .answered, .command 1 .refused,
    .command 1 .answered, .command 1 .answered]

/-- The hub of the second node has two events of number one. -/
theorem number_twice :
    let w := twinActs.foldl World.step (World.initial 1700000000000)
    (w.nodes 1).hub = [(0, 1), (1, 1)] ∧ ¬ ∀ n, ((w.nodes n).hub.map (·.2)).Nodup := by
  refine ⟨by decide +kernel, fun h => ?_⟩
  have hone := h 1
  revert hone
  decide +kernel

/-- The data of Redis are lost between two events, and a third one finds no connection. -/
def lossActs : List Act :=
  [.subscribe 0, .subscribe 1, .publish 0] ++ List.replicate 5 (.command 0 .answered) ++
    [.deliver 1, .lose, .tick 5, .publish 1] ++ List.replicate 5 (.command 1 .answered) ++
    [.deliver 0, .deliver 0, .publish 0, .command 2 .refused, .command 2 .answered,
      .command 2 .answered]

theorem sequences_run_loss :
    let w := lossActs.foldl World.step (World.initial 1700000000000)
    (w.nodes 0).hub = [(0, 1700000000001), (1, 1700000000006), (2, 1)] ∧
      (w.nodes 1).hub = [(0, 1700000000001), (1, 1700000000006)] ∧
      ∀ n, ((w.nodes n).hub.map (·.2)).Nodup :=
  ⟨by decide +kernel, by decide +kernel,
    (sequences_run 1700000000000 lossActs).2.2 (by decide +kernel)⟩

end FloatCtf.Realtime
