import Mathlib.Data.Int.Log
import Mathlib.Data.Rat.Floor
import Mathlib.Tactic.Linarith

/-!
# Rounding to a number of binary digits

A binary floating-point format has a fixed number of significant digits.  The multiples of `quantum`
are the numbers of the format around a given one, and `nearest` takes the closest of them, from the
middle between two the even one.  The range of the exponent is not bounded.
-/

namespace BinaryFloat

/-- The nearest integer, and in the middle the even one. -/
def nearestEven (x : ℚ) : ℤ :=
  if x - ⌊x⌋ < 1 / 2 then ⌊x⌋
  else if 1 / 2 < x - ⌊x⌋ then ⌊x⌋ + 1
  else ⌊x⌋ + ⌊x⌋ % 2

theorem abs_nearestEven_sub_le (x : ℚ) : |nearestEven x - x| ≤ 1 / 2 := by
  have hlow := Int.floor_le x
  have hhigh := Int.lt_floor_add_one x
  unfold nearestEven
  split_ifs with hbelow habove
  · rw [abs_le]
    constructor <;> linarith
  · push_cast
    rw [abs_le]
    constructor <;> linarith
  · have hmiddle : x - ⌊x⌋ = 1 / 2 := le_antisymm (not_lt.mp habove) (not_lt.mp hbelow)
    rcases Int.emod_two_eq_zero_or_one ⌊x⌋ with heven | hodd
    · rw [heven, abs_le]
      push_cast
      constructor <;> linarith
    · rw [hodd, abs_le]
      push_cast
      constructor <;> linarith

/-- The distance of neighbouring numbers with so many digits, where the leading one is that of
`x`. -/
def quantum (digits : ℕ) (x : ℚ) : ℚ := 2 ^ (Int.log 2 |x| + 1 - digits)

def nearest (digits : ℕ) (x : ℚ) : ℚ := nearestEven (x / quantum digits x) * quantum digits x

theorem quantum_pos (digits : ℕ) (x : ℚ) : 0 < quantum digits x := zpow_pos two_pos _

/-- The rounded number is at most half a quantum away. -/
theorem abs_nearest_sub_le (digits : ℕ) (x : ℚ) :
    |nearest digits x - x| ≤ quantum digits x / 2 := by
  have hpos := quantum_pos digits x
  have hscaled : nearest digits x - x =
      (nearestEven (x / quantum digits x) - x / quantum digits x) * quantum digits x := by
    rw [nearest, sub_mul, div_mul_cancel₀ _ hpos.ne']
  rw [hscaled, abs_mul, abs_of_pos hpos]
  calc
    |nearestEven (x / quantum digits x) - x / quantum digits x| * quantum digits x ≤
        1 / 2 * quantum digits x := by
      gcongr
      exact abs_nearestEven_sub_le _
    _ = quantum digits x / 2 := one_div_mul_eq_div 2 _

/-- Below a power of two there are so many digits behind the point at least. -/
theorem quantum_le {x : ℚ} (hx : 0 < x) {exponent : ℤ} (hbelow : x < 2 ^ exponent) (digits : ℕ) :
    quantum digits x ≤ 2 ^ (exponent - digits) := by
  have hlog : Int.log 2 |x| < exponent := by
    rw [abs_of_pos hx]
    exact (Int.lt_zpow_iff_log_lt Nat.one_lt_two hx).mp (by exact_mod_cast hbelow)
  exact zpow_le_zpow_right₀ one_le_two (by omega)

/-- The error below a power of two. -/
theorem abs_nearest_sub_le_of_lt {x : ℚ} (hx : 0 < x) (exponent : ℤ) (hbelow : x < 2 ^ exponent)
    (digits : ℕ) : |nearest digits x - x| ≤ 2 ^ (exponent - digits) / 2 :=
  (abs_nearest_sub_le digits x).trans (by linarith [quantum_le hx hbelow digits])

end BinaryFloat
