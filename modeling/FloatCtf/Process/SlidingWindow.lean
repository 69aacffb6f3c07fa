import Mathlib.Data.Int.Notation
import Mathlib.Data.List.Induction
import Mathlib.Order.Lattice

/-!
# A limit on a sliding window

The limiter that forgets nothing: it keeps the history of what it admitted, and admits a hit when
the window that ends at the hit has room under the limit of the hit.

`countP_admitted_le` bounds what it admits: while the limit stays the same, no interval as long as
the window has more admitted hits than the limit, wherever the interval begins.
-/

namespace SlidingWindow

/-- A request of a key at a time, under a limit. -/
structure Hit (K : Type) where
  key : K
  time : ℤ
  limit : ℕ

variable {K : Type} [DecidableEq K]

/-- The admitted hits on the key in the window that ends at a time. -/
def recent (window : K → ℤ) (history : List (K × ℤ)) (key : K) (now : ℤ) : ℕ :=
  history.countP fun x => x.1 = key ∧ now - window key < x.2 ∧ x.2 ≤ now

/-- A request is admitted while fewer than `limit` admitted ones lie in its window. -/
def admits (window : K → ℤ) (history : List (K × ℤ)) (h : Hit K) : Bool :=
  recent window history h.key h.time < h.limit

/-- What the hits add to the history. -/
def admitted (window : K → ℤ) : List (K × ℤ) → List (Hit K) → List (K × ℤ)
  | _, [] => []
  | history, h :: hits =>
    if admits window history h then
      (h.key, h.time) :: admitted window (history ++ [(h.key, h.time)]) hits
    else admitted window history hits

/-- The answers to the requests, each counted once it is admitted. -/
def verdicts (window : K → ℤ) : List (K × ℤ) → List (Hit K) → List Bool
  | _, [] => []
  | history, h :: hits =>
    admits window history h ::
      verdicts window
        (history ++ if admits window history h then [(h.key, h.time)] else []) hits

variable {window : K → ℤ} {history : List (K × ℤ)} {hits : List (Hit K)}

theorem admitted_append (hits hits' : List (Hit K)) :
    admitted window history (hits ++ hits') = admitted window history hits ++
      admitted window (history ++ admitted window history hits) hits' := by
  induction hits generalizing history with
  | nil => simp [admitted]
  | cons h hits ih =>
    rw [List.cons_append, admitted, admitted]
    split
    · rw [ih]
      simp
    · exact ih

theorem admitted_singleton (h : Hit K) :
    admitted window history [h] = if admits window history h then [(h.key, h.time)] else [] := by
  rw [admitted]
  rfl

/-- What is admitted is one of the hits. -/
theorem exists_hit_of_mem {x : K × ℤ} (hx : x ∈ admitted window history hits) :
    ∃ h ∈ hits, x = (h.key, h.time) := by
  induction hits generalizing history with
  | nil => simp [admitted] at hx
  | cons h hits ih =>
    rw [admitted] at hx
    split at hx
    · rcases List.mem_cons.1 hx with rfl | hx
      · exact ⟨h, List.mem_cons_self, rfl⟩
      · obtain ⟨h', hh', rfl⟩ := ih hx
        exact ⟨h', List.mem_cons_of_mem _ hh', rfl⟩
    · obtain ⟨h', hh', rfl⟩ := ih hx
      exact ⟨h', List.mem_cons_of_mem _ hh', rfl⟩

/-- While the limit of a key is the same, an interval as long as its window has no more admitted
hits than that. -/
theorem countP_admitted_le {key : K} {limit : ℕ} (hsorted : hits.Pairwise fun a b => a.time ≤ b.time)
    (hlimit : ∀ h ∈ hits, h.key = key → h.limit = limit) (start : ℤ) :
    (admitted window history hits).countP
      (fun x => x.1 = key ∧ start < x.2 ∧ x.2 ≤ start + window key) ≤ limit := by
  induction hits using List.reverseRecOn with
  | nil => simp [admitted]
  | append_singleton hits h ih =>
    rw [List.pairwise_append] at hsorted
    have hprefix := ih hsorted.1 fun h' hh' => hlimit h' (List.mem_append_left _ hh')
    rw [admitted_append, admitted_singleton, List.countP_append]
    split
    · rename_i hadmits
      by_cases hin : h.key = key ∧ start < h.time ∧ h.time ≤ start + window key
      · obtain ⟨rfl, hlo, hhi⟩ := hin
        have hroom : recent window (history ++ admitted window history hits) h.key h.time <
            limit := by
          rw [← hlimit h (by simp) rfl]
          simpa [admits] using hadmits
        -- what is in the interval so far is in the window of the last hit
        have hle : (admitted window history hits).countP
            (fun x => x.1 = h.key ∧ start < x.2 ∧ x.2 ≤ start + window h.key) ≤
            recent window (history ++ admitted window history hits) h.key h.time := by
          rw [recent, List.countP_append]
          refine (List.countP_mono_left fun x hx hxin => ?_).trans (Nat.le_add_left _ _)
          obtain ⟨h', hh', rfl⟩ := exists_hit_of_mem hx
          have hbefore := hsorted.2.2 h' hh' h (by simp)
          simp only [decide_eq_true_eq] at hxin ⊢
          exact ⟨hxin.1, by omega, hbefore⟩
        rw [List.countP_singleton, if_pos (by simp [hlo, hhi])]
        omega
      · rw [List.countP_singleton, if_neg (by simpa using hin)]
        exact hprefix
    · simpa using hprefix

end SlidingWindow
