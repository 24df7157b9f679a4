import Mathlib.Algebra.Order.Floor.Ring
import Mathlib.Algebra.Order.Round
import Mathlib.Tactic.Linarith
import Mathlib.Tactic.NormNum

/-!
# Rounding half away from zero

`round` of the C library takes the nearest integer, and from the middle between two of them the one
that is further from zero.  It is odd, so a bound below follows from one above.
-/

namespace Rounding

variable {K : Type*} [Field K] [LinearOrder K] [IsStrictOrderedRing K] [FloorRing K]

/-- The nearest integer, and in the middle the one further from zero. -/
def halfAway (x : K) : ℤ := if 0 ≤ x then ⌊x + 1 / 2⌋ else ⌈x - 1 / 2⌉

@[simp]
theorem halfAway_zero : halfAway (0 : K) = 0 := by
  norm_num [halfAway]

@[simp]
theorem halfAway_neg (x : K) : halfAway (-x) = -halfAway x := by
  rcases lt_trichotomy x 0 with hneg | rfl | hpos
  · rw [halfAway, halfAway, if_pos (neg_nonneg.mpr hneg.le), if_neg hneg.not_ge,
      ← Int.floor_neg, neg_sub, sub_eq_add_neg, add_comm]
  · rw [neg_zero, halfAway_zero, neg_zero]
  · rw [halfAway, halfAway, if_neg (neg_neg_iff_pos.mpr hpos).not_ge, if_pos hpos.le,
      ← Int.ceil_neg, neg_add, sub_eq_add_neg]

/-- A result of at most `bound` is one less than half above it. -/
theorem halfAway_le_iff {bound : ℤ} (hbound : 0 ≤ bound) (x : K) :
    halfAway x ≤ bound ↔ x < bound + 1 / 2 := by
  have hcast : (0 : K) ≤ bound := by exact_mod_cast hbound
  unfold halfAway
  split_ifs with hsign
  · rw [← Int.lt_add_one_iff, Int.floor_lt, Int.cast_add, Int.cast_one]
    constructor <;> intro hx <;> linarith
  · rw [Int.ceil_le]
    constructor <;> intro _ <;> linarith

theorem le_halfAway_iff {bound : ℤ} (hbound : 0 ≤ bound) (x : K) :
    -bound ≤ halfAway x ↔ -(bound + 1 / 2 : K) < x := by
  rw [neg_le, ← halfAway_neg, halfAway_le_iff hbound, neg_lt]

theorem abs_sub_halfAway_le (x : K) : |x - halfAway x| ≤ 1 / 2 := by
  rw [abs_le]
  unfold halfAway
  split_ifs
  · have hlow := Int.floor_le (x + 1 / 2)
    have hhigh := Int.lt_floor_add_one (x + 1 / 2)
    constructor <;> linarith
  · have hlow := Int.ceil_lt_add_one (x - 1 / 2)
    have hhigh := Int.le_ceil (x - 1 / 2)
    constructor <;> linarith

@[simp]
theorem halfAway_intCast (k : ℤ) : halfAway (k : K) = k := by
  have hclose := abs_le.mp (abs_sub_halfAway_le (k : K))
  have hlow : ((halfAway (k : K) : ℤ) : K) < (k + 1 : ℤ) := by
    push_cast
    linarith
  have hhigh : ((k - 1 : ℤ) : K) < halfAway (k : K) := by
    push_cast
    linarith
  have hbelow : halfAway (k : K) < k + 1 := by exact_mod_cast hlow
  have habove : k - 1 < halfAway (k : K) := by exact_mod_cast hhigh
  omega

end Rounding
