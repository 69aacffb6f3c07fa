import Mathlib.Data.Nat.Bitwise
import Mathlib.Tactic

/-!
# Address blocks

An address is a number below `2 ^ w`, and a block of `2 ^ s` addresses is the set of the addresses
that agree above their last `s` bits.  Two blocks are nested or disjoint, a mask selects the upper
bits, and a block is cut into smaller ones by the next bits.
-/

namespace Block

variable {s t w a b x : ℕ}

/-- The addresses `a` and `x` are in one block of `2 ^ s`. -/
def Same (s a x : ℕ) : Prop := x / 2 ^ s = a / 2 ^ s

instance : Decidable (Same s a x) := inferInstanceAs (Decidable (_ = _))

theorem Same.symm (h : Same s a x) : Same s x a := Eq.symm h

theorem Same.trans (h : Same s a b) (h' : Same s b x) : Same s a x := Eq.trans h' h

/-- Addresses of one block are in one larger block. -/
theorem Same.mono (hst : s ≤ t) (h : Same s a x) : Same t a x := by
  unfold Same at h ⊢
  rw [← Nat.add_sub_cancel' hst, pow_add, ← Nat.div_div_eq_div_mul, ← Nat.div_div_eq_div_mul, h]

/-- A block meets a larger one only if it lies in it. -/
theorem Same.of_meet (hst : s ≤ t) (hx : Same t a x) (hy : Same s b x) : Same t a b :=
  hx.trans (hy.mono hst).symm

theorem same_iff_of_dvd (h : 2 ^ s ∣ a) : Same s a x ↔ a ≤ x ∧ x < a + 2 ^ s := by
  obtain ⟨k, rfl⟩ := h
  have hpos : 0 < 2 ^ s := by positivity
  rw [Same, Nat.mul_div_cancel_left k hpos, Nat.div_eq_iff hpos, mul_comm k]
  omega

/-- The mask of the upper bits clears the lower ones. -/
theorem land_mask (hsw : s ≤ w) (hx : x < 2 ^ w) :
    x &&& (2 ^ w - 2 ^ s) = x / 2 ^ s * 2 ^ s := by
  have hmask : 2 ^ w - 2 ^ s = (2 ^ (w - s) - 1) <<< s := by
    rw [Nat.shiftLeft_eq, Nat.sub_mul, ← pow_add, Nat.sub_add_cancel hsw, one_mul]
  rw [hmask, ← Nat.shiftRight_eq_div_pow, ← Nat.shiftLeft_eq]
  refine Nat.eq_of_testBit_eq fun i => ?_
  simp only [Nat.testBit_and, Nat.testBit_shiftLeft, Nat.testBit_two_pow_sub_one,
    Nat.testBit_shiftRight]
  by_cases hs : s ≤ i
  · by_cases hi : i < w
    · simp [hs, show i - s < w - s by omega, show s + (i - s) = i by omega]
    · have hhigh : x.testBit i = false :=
        Nat.testBit_lt_two_pow (hx.trans_le (Nat.pow_le_pow_right (by decide) (by omega)))
      simp [hs, show s + (i - s) = i by omega, hhigh]
  · simp [hs]

/-- Two addresses have the same masked bits when they are in one block. -/
theorem land_mask_eq_iff (hsw : s ≤ w) (ha : a < 2 ^ w) (hx : x < 2 ^ w) :
    x &&& (2 ^ w - 2 ^ s) = a &&& (2 ^ w - 2 ^ s) ↔ Same s a x := by
  rw [land_mask hsw hx, land_mask hsw ha]
  exact ⟨fun h => Nat.eq_of_mul_eq_mul_right (by positivity) h, fun h => by rw [h]⟩

end Block
