import Mathlib.Algebra.Order.Ring.Int
import Mathlib.Algebra.Order.Ring.Nat
import Mathlib.Data.Rat.Floor

/-!
# The C types the program is written in

`int`, `unsigned` and `long` are 32 bits wide on the ARM targets and are modelled by
`BitVec 32`, read as signed by `toInt` and as unsigned by `toNat`.  A C string is the sequence of
its characters before the terminating NUL, so it contains no NUL itself.  A `float` is the exact
number it stands for.
-/

namespace PiFunk

/-- The C `int`; `long` and `unsigned` have the same width. -/
abbrev CInt := BitVec 32

/-- The C `unsigned char`, and the `char` of a string. -/
abbrev Byte := BitVec 8

/-- A NUL-terminated string: the characters before the terminator. -/
structure CString where
  chars : List Byte
  no_nul : (0 : Byte) ∉ chars
deriving DecidableEq

namespace CString

def strlen (string : CString) : ℕ := string.chars.length

/-- `string [index]`; the position behind the last character holds the terminator. -/
def get (string : CString) (index : ℕ) : Byte := string.chars.getD index 0

end CString

/-- The conversion of a `float` or `double` to an `int` cuts the fraction off. -/
def truncate (x : ℚ) : ℤ := if 0 ≤ x then ⌊x⌋ else ⌈x⌉

/-- A positive bound is reached by the truncated value exactly where it is reached before. -/
theorem le_truncate_iff {bound : ℤ} (hbound : 0 < bound) (x : ℚ) :
    bound ≤ truncate x ↔ (bound : ℚ) ≤ x := by
  unfold truncate
  split_ifs with hx
  · exact Int.le_floor
  · have hceil : ⌈x⌉ ≤ 0 := Int.ceil_le.mpr (by exact_mod_cast (not_le.mp hx).le)
    have hpos : (0 : ℚ) < bound := by exact_mod_cast hbound
    constructor
    · intro hle
      exact absurd (hle.trans hceil) (not_le.mpr hbound)
    · intro hle
      exact absurd (hpos.le.trans hle) hx

theorem truncate_lt_iff {bound : ℤ} (hbound : 0 < bound) (x : ℚ) :
    truncate x < bound ↔ x < bound := by
  rw [← not_le, ← not_le, le_truncate_iff hbound]

theorem truncate_of_nonneg {x : ℚ} (hx : 0 ≤ x) : truncate x = ⌊x⌋ := if_pos hx

/-- The value of an `int` that is assigned the unsigned count `count`. -/
def toInt (count : ℕ) : ℤ := (BitVec.ofNat 32 count).toInt

theorem toInt_of_small {count : ℕ} (hsmall : count < 2 ^ 31) : toInt count = count := by
  have hvalue : (BitVec.ofNat 32 count).toNat = count := by
    rw [BitVec.toNat_ofNat]
    omega
  rw [toInt, BitVec.toInt_eq_toNat_of_lt (by omega), hvalue]

end PiFunk
