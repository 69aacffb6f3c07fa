import Mathlib.Tactic

/-!
# Checked arithmetic of machine words

The operations of a word of `w` bits as a build with overflow checks runs them: the result, or
`none` where the check stops the program.  A result is always the exact one, except for the bits
that a shift drops.
-/

namespace Word

variable {w x y z s : ℕ}

/-- `checked_add` on words of `w` bits. -/
def add (w x y : ℕ) : Option ℕ := if x + y < 2 ^ w then some (x + y) else none

/-- `checked_sub`. -/
def sub (x y : ℕ) : Option ℕ := if y ≤ x then some (x - y) else none

/-- `checked_mul` on words of `w` bits. -/
def mul (w x y : ℕ) : Option ℕ := if x * y < 2 ^ w then some (x * y) else none

/-- A shift to the left by less than the width; the upper bits are dropped. -/
def shl (w x s : ℕ) : Option ℕ := if s < w then some (x <<< s % 2 ^ w) else none

theorem add_of_lt (h : x + y < 2 ^ w) : add w x y = some (x + y) := if_pos h

theorem sub_of_le (h : y ≤ x) : sub x y = some (x - y) := if_pos h

theorem mul_of_lt (h : x * y < 2 ^ w) : mul w x y = some (x * y) := if_pos h

theorem shl_of_lt (h : s < w) : shl w x s = some (x <<< s % 2 ^ w) := if_pos h

/-- A one that is shifted by less than the width keeps its bit. -/
theorem shl_one (h : s < w) : shl w 1 s = some (2 ^ s) := by
  rw [shl_of_lt h, Nat.one_shiftLeft, Nat.mod_eq_of_lt (Nat.pow_lt_pow_right (by decide) h)]

theorem shl_eq_none_iff : shl w x s = none ↔ w ≤ s := by
  simp [shl]

end Word
