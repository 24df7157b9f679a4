import Mathlib.Algebra.Order.Ring.Int
import Mathlib.Tactic.Ring

/-!
# Counts split at a base

A count is kept as a high part and a low part below a base, as seconds and microseconds are.  Split
counts are added field by field with one carry, and compared by the high part first.  As long as the
low parts are below the base, the sum has the sum of the totals, and the comparison is that of the
totals.
-/

namespace SplitCount

/-- A count in two parts. -/
structure Parts where
  high : ℤ
  low : ℤ
deriving DecidableEq, Repr

variable {base : ℤ}

/-- The count the parts stand for. -/
def Parts.total (base : ℤ) (parts : Parts) : ℤ := parts.high * base + parts.low

/-- The low part is a remainder of the base. -/
structure Parts.Normalised (base : ℤ) (parts : Parts) : Prop where
  nonneg : 0 ≤ parts.low
  lt_base : parts.low < base

/-- The sum, with one carry when the low parts reach the base. -/
def add (base : ℤ) (first second : Parts) : Parts :=
  if first.low + second.low ≥ base then
    ⟨first.high + second.high + 1, first.low + second.low - base⟩
  else ⟨first.high + second.high, first.low + second.low⟩

/-- The comparison of the high parts, or of the low ones where the high parts agree. -/
def compare (relation : ℤ → ℤ → Bool) (first second : Parts) : Bool :=
  if first.high = second.high then relation first.low second.low
  else relation first.high second.high

def split (base count : ℤ) : Parts := ⟨count / base, count % base⟩

theorem split_total (base count : ℤ) : (split base count).total base = count :=
  Int.ediv_mul_add_emod count base

theorem split_normalised (hbase : 0 < base) (count : ℤ) : (split base count).Normalised base :=
  ⟨Int.emod_nonneg count hbase.ne', Int.emod_lt_of_pos count hbase⟩

theorem add_total (base : ℤ) (first second : Parts) :
    (add base first second).total base = first.total base + second.total base := by
  unfold add
  split_ifs
  · simp only [Parts.total]
    ring
  · simp only [Parts.total]
    ring

/-- One carry is enough. -/
theorem add_normalised {first second : Parts} (hfirst : first.Normalised base)
    (hsecond : second.Normalised base) : (add base first second).Normalised base := by
  have hlow := hfirst.nonneg
  have hlow' := hsecond.nonneg
  have hbound := hfirst.lt_base
  have hbound' := hsecond.lt_base
  unfold add
  split_ifs with hcarry
  · exact ⟨by dsimp only; omega, by dsimp only; omega⟩
  · exact ⟨by dsimp only; omega, by dsimp only; omega⟩

/-- A larger high part outweighs every low part. -/
theorem total_lt_of_high_lt {first second : Parts} (hfirst : first.Normalised base)
    (hsecond : second.Normalised base) (hhigh : first.high < second.high) :
    first.total base < second.total base := by
  have hbase : 0 < base := hfirst.nonneg.trans_lt hfirst.lt_base
  calc
    first.total base < first.high * base + base := by
      simp only [Parts.total]
      exact Int.add_lt_add_left hfirst.lt_base _
    _ = (first.high + 1) * base := by ring
    _ ≤ second.high * base := Int.mul_le_mul_of_nonneg_right hhigh hbase.le
    _ ≤ second.total base := by
      simp only [Parts.total]
      exact le_add_of_nonneg_right hsecond.nonneg

/-- On normalised parts the comparison with `<` is the comparison of the totals. -/
theorem compare_lt_iff {first second : Parts} (hfirst : first.Normalised base)
    (hsecond : second.Normalised base) :
    compare (fun left right ↦ left < right) first second = true ↔
      first.total base < second.total base := by
  unfold compare
  by_cases hhigh : first.high = second.high
  · rw [if_pos hhigh, decide_eq_true_iff, Parts.total, Parts.total, hhigh]
    exact (add_lt_add_iff_left _).symm
  · rw [if_neg hhigh, decide_eq_true_iff]
    constructor
    · exact total_lt_of_high_lt hfirst hsecond
    · intro htotal
      by_contra hlt
      have hgt : second.high < first.high := lt_of_le_of_ne (not_lt.mp hlt) (Ne.symm hhigh)
      exact absurd htotal (total_lt_of_high_lt hsecond hfirst hgt).le.not_gt

end SplitCount
