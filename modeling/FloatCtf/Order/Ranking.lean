import Mathlib.Data.List.Basic
import Mathlib.Order.Basic
import Mathlib.Tactic

/-!
# Competition ranking

A loop over keys in non-increasing order gives each one its rank: the position of the first key that
equals it.  The rank of a key is then one more than the number of keys above it.
-/

namespace Ranking

variable {β : Type} [LinearOrder β] {k p : β} {pre ks : List β}

/-- The loop: the position of the next key, the rank so far and the key before. -/
def ranks (i rank : ℕ) : Option β → List β → List ℕ
  | _, [] => []
  | none, k :: ks => rank :: ranks (i + 1) rank (some k) ks
  | some p, k :: ks =>
    let rank := if k < p then i + 1 else rank
    rank :: ranks (i + 1) rank (some k) ks

/-- One more than the number of keys above `k`. -/
def rankIn (l : List β) (k : β) : ℕ := 1 + l.countP fun x => k < x

theorem rankIn_perm {l l' : List β} (h : l.Perm l') (k : β) : rankIn l k = rankIn l' k :=
  congrArg (1 + ·) (h.countP_eq _)

theorem countP_eq_zero_of_le (h : ∀ x ∈ ks, x ≤ k) : ks.countP (fun x => k < x) = 0 := by
  rw [List.countP_eq_zero]
  exact fun x hx => by simpa using h x hx

theorem countP_eq_length_of_lt (h : ∀ x ∈ ks, k < x) :
    ks.countP (fun x => k < x) = ks.length := by
  rw [List.countP_eq_length]
  exact fun x hx => by simpa using h x hx

/-- The loop behind the keys `pre`, the last of which is `p`. -/
theorem ranks_append (hsorted : (pre ++ p :: ks).Pairwise fun x y => y ≤ x) :
    ranks (pre.length + 1) (rankIn (pre ++ p :: ks) p) (some p) ks =
      ks.map (rankIn (pre ++ p :: ks)) := by
  induction ks generalizing pre p with
  | nil => rfl
  | cons k ks ih =>
    have hsplit : pre ++ p :: k :: ks = (pre ++ [p]) ++ k :: ks := by
      rw [List.append_assoc]
      rfl
    have hrank : (if k < p then pre.length + 1 + 1 else rankIn (pre ++ p :: k :: ks) p) =
        rankIn (pre ++ p :: k :: ks) k := by
      rw [List.pairwise_append, List.pairwise_cons] at hsorted
      obtain ⟨-, ⟨hp, hks⟩, hpre⟩ := hsorted
      split_ifs with hlt
      · have habove : ∀ x ∈ pre ++ [p], k < x := by
          intro x hx
          rcases List.mem_append.1 hx with hx | hx
          · exact hlt.trans_le (hpre x hx p List.mem_cons_self)
          · rwa [List.mem_singleton.1 hx]
        have hbelow : ∀ x ∈ k :: ks, x ≤ k := List.forall_mem_cons.2
          ⟨le_rfl, (List.pairwise_cons.1 hks).1⟩
        rw [hsplit, rankIn, List.countP_append, countP_eq_length_of_lt habove,
          countP_eq_zero_of_le hbelow, List.length_append, List.length_singleton]
        omega
      · rw [le_antisymm (not_lt.1 hlt) (hp k List.mem_cons_self)]
    show (if k < p then pre.length + 1 + 1 else _) :: ranks (pre.length + 1 + 1) _ (some k) ks = _
    rw [hrank, List.map_cons]
    rw [hsplit] at hsorted ⊢
    have htail := ih hsorted
    rw [List.length_append, List.length_singleton] at htail
    rw [htail]

/-- The ranks of keys in non-increasing order. -/
theorem ranks_eq {l : List β} (hsorted : l.Pairwise fun x y => y ≤ x) :
    ranks 0 1 none l = l.map (rankIn l) := by
  cases l with
  | nil => rfl
  | cons k ks =>
    have hfirst : rankIn (k :: ks) k = 1 := by
      rw [rankIn, countP_eq_zero_of_le (List.forall_mem_cons.2
        ⟨le_rfl, (List.pairwise_cons.1 hsorted).1⟩)]
    have htail := @ranks_append β _ k [] ks hsorted
    rw [List.nil_append, hfirst] at htail
    rw [List.map_cons, hfirst]
    exact congrArg (1 :: ·) htail

end Ranking
