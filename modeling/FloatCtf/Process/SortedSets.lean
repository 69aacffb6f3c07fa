import Mathlib.Data.Int.Notation
import Mathlib.Logic.Function.Basic
import Mathlib.Order.Lattice

/-!
# Sorted sets that expire

A server of sorted sets, by key: members with scores, and for every key the time at which it goes.
The commands have the time of the server as an argument; a key whose time is reached is not there
any more for any of them, and a set without members is no key.

The lemmas say what every command leaves in the sets.  What is stored under a key can be seen until
the key expires.
-/

namespace SortedSets

variable {K M : Type}

/-- A sorted set: members with their scores, and the time at which the key expires. -/
structure SortedSet (M : Type) where
  members : List (M × ℤ)
  expireAt : Option ℤ

/-- The keys of the server that are there. -/
abbrev Server (K M : Type) := K → Option (SortedSet M)

/-- The key at a time. -/
def live (s : Server K M) (now : ℤ) (key : K) : Option (SortedSet M) :=
  (s key).filter fun set => set.expireAt.all (now < ·)

/-- The members of a key; a key that has expired has none. -/
def members (s : Server K M) (now : ℤ) (key : K) : List (M × ℤ) :=
  (live s now key).elim [] SortedSet.members

/-- `ZCARD`: the number of members. -/
def zcard (s : Server K M) (now : ℤ) (key : K) : ℕ := (members s now key).length

theorem live_eq_some_iff {s : Server K M} {now : ℤ} {key : K} {set : SortedSet M} :
    live s now key = some set ↔ s key = some set ∧ ∀ x ∈ set.expireAt, now < x := by
  simp [live, Option.filter_eq_some_iff, Option.all_eq_true]

/-- The members of a key, expired or not. -/
def stored (s : Server K M) (key : K) : List (M × ℤ) := (s key).elim [] SortedSet.members

/-- The key has a time, and it is reached. -/
def Expired (s : Server K M) (now : ℤ) (key : K) : Prop :=
  ∃ set ∈ s key, ∃ x ∈ set.expireAt, x ≤ now

instance (s : Server K M) (now : ℤ) (key : K) : Decidable (Expired s now key) :=
  inferInstanceAs (Decidable (∃ set ∈ s key, ∃ x ∈ set.expireAt, x ≤ now))

theorem live_eq_none_of_expired {s : Server K M} {now : ℤ} {key : K} (h : Expired s now key) :
    live s now key = none := by
  obtain ⟨set, hset, x, hx, hle⟩ := h
  rw [Option.eq_none_iff_forall_ne_some]
  intro set' hlive
  obtain ⟨hs, hall⟩ := live_eq_some_iff.1 hlive
  obtain rfl := Option.some_inj.1 (hset.symm.trans hs)
  exact absurd hle (Int.not_le.2 (hall x hx))

theorem live_of_not_expired {s : Server K M} {now : ℤ} {key : K} (h : ¬ Expired s now key) :
    live s now key = s key := by
  refine Option.ext fun set => live_eq_some_iff.trans (and_iff_left_of_imp fun hs x hx => ?_)
  exact Int.not_le.1 fun hle => h ⟨set, hs, x, hx, hle⟩

theorem members_of_expired {s : Server K M} {now : ℤ} {key : K} (h : Expired s now key) :
    members s now key = [] := by
  rw [members, live_eq_none_of_expired h]
  rfl

theorem members_of_not_expired {s : Server K M} {now : ℤ} {key : K} (h : ¬ Expired s now key) :
    members s now key = stored s key := by
  rw [members, live_of_not_expired h, stored]

variable [DecidableEq K]

/-- Stores a set under its key; an empty one is removed. -/
def put (s : Server K M) (key : K) (set : SortedSet M) : Server K M :=
  Function.update s key (if set.members = [] then none else some set)

/-- `ZREMRANGEBYSCORE key -inf cutoff`. -/
def zremrangebyscore (s : Server K M) (now : ℤ) (key : K) (cutoff : ℤ) : Server K M :=
  match live s now key with
  | none => Function.update s key none
  | some set => put s key { set with members := set.members.filter (cutoff < ·.2) }

/-- `ZADD`: a member that is there has its score replaced, and the key keeps its time. -/
def zadd [DecidableEq M] (s : Server K M) (now : ℤ) (key : K) (score : ℤ) (member : M) :
    Server K M :=
  put s key {
    members := (members s now key).filter (·.1 ≠ member) ++ [(member, score)]
    expireAt := (live s now key).bind SortedSet.expireAt }

/-- `PEXPIRE`: a time that is over deletes the key. -/
def pexpire (s : Server K M) (now : ℤ) (key : K) (ttl : ℤ) : Server K M :=
  match live s now key with
  | none => s
  | some set =>
    if ttl ≤ 0 then Function.update s key none
    else Function.update s key (some { set with expireAt := some (now + ttl) })

/-! ## What the commands leave -/

section Commands

variable {s : Server K M} {now : ℤ} {key key' : K}

theorem stored_update (o : Option (SortedSet M)) :
    stored (Function.update s key o) key' =
      if key' = key then o.elim [] SortedSet.members else stored s key' := by
  unfold stored
  split
  · rename_i h
    rw [h, Function.update_self]
  · rename_i h
    rw [Function.update_of_ne h]

theorem stored_put (set : SortedSet M) :
    stored (put s key set) key' = if key' = key then set.members else stored s key' := by
  rw [put, stored_update]
  split
  · split
    · rename_i h
      rw [h]
      rfl
    · rfl
  · rfl

theorem stored_zremrangebyscore (cutoff : ℤ) :
    stored (zremrangebyscore s now key cutoff) key' =
      if key' = key then (members s now key).filter (cutoff < ·.2) else stored s key' := by
  unfold zremrangebyscore members
  split <;> rename_i h <;> rw [h]
  · rw [stored_update]
    rfl
  · rw [stored_put]
    rfl

/-- What is left after pruning has not expired. -/
theorem members_zremrangebyscore (cutoff : ℤ) :
    members (zremrangebyscore s now key cutoff) now key =
      (members s now key).filter (cutoff < ·.2) := by
  have hstored := @stored_zremrangebyscore K M _ s now key key cutoff
  rw [if_pos rfl] at hstored
  rw [members_of_not_expired, hstored]
  rintro ⟨set, hset, x, hx, hle⟩
  cases hlive : live s now key with
  | none =>
    have hnone : zremrangebyscore s now key cutoff key = none := by
      simp only [zremrangebyscore, hlive, Function.update_self]
    cases hnone.symm.trans hset
  | some set' =>
    have hsome : zremrangebyscore s now key cutoff key =
        if set'.members.filter (cutoff < ·.2) = [] then none
        else some { set' with members := set'.members.filter (cutoff < ·.2) } := by
      simp only [zremrangebyscore, hlive, put, Function.update_self]
    rw [hsome] at hset
    split at hset
    · cases hset
    · cases hset
      exact absurd hle (Int.not_le.2 ((live_eq_some_iff.1 hlive).2 x hx))

/-- A member that is added, with the time of the key set anew. -/
theorem stored_pexpire_zadd [DecidableEq M] (score : ℤ) (member : M) {ttl : ℤ} :
    stored (pexpire (zadd s now key score member) now key ttl) key' =
      if key' = key then
        if 0 < ttl then (members s now key).filter (·.1 ≠ member) ++ [(member, score)] else []
      else stored s key' := by
  have hset : zadd s now key score member key =
      some {
        members := (members s now key).filter (·.1 ≠ member) ++ [(member, score)]
        expireAt := (live s now key).bind SortedSet.expireAt } := by
    rw [zadd, put, Function.update_self, if_neg (by simp)]
  have hlive : live (zadd s now key score member) now key = zadd s now key score member key := by
    refine live_of_not_expired ?_
    rintro ⟨set, hmem, x, hx, hle⟩
    obtain rfl := Option.some_inj.1 (hset.symm.trans hmem)
    obtain ⟨set, hlive, hx⟩ := Option.bind_eq_some_iff.1 hx
    exact absurd hle (Int.not_le.2 ((live_eq_some_iff.1 hlive).2 x hx))
  have hother : key' ≠ key → stored (zadd s now key score member) key' = stored s key' := by
    intro hne
    rw [zadd, stored_put, if_neg hne]
  unfold pexpire
  rw [hlive, hset]
  simp only
  split <;> rename_i httl <;> rw [stored_update]
  · rw [if_neg (Int.not_lt.2 httl)]
    split
    · rfl
    · exact hother ‹_›
  · rw [if_pos (Int.not_le.1 httl)]
    split
    · rfl
    · exact hother ‹_›

end Commands

end SortedSets
