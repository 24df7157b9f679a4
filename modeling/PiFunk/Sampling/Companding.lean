import Mathlib.Analysis.SpecialFunctions.Log.Basic
import PiFunk.Library.Rounding

/-!
# The companding step of `sampleselect`

A sample is brought to the unit interval, compressed along a curve of two pieces that meet at `1/A`,
and scaled back to an `int`.  The quotient `x/excursion2` divides two variables of type `int`, so
it is zero for every sample but the two end points; and the curve only sees the absolute value, so
the sign is lost there too.

The float operations are exact, and the digits of `EULER` stand for e.
-/

namespace PiFunk.Sampling

noncomputable section

/-! ## The curve -/

def EULER : ℝ := Real.exp 1

/-- The macro `ln(x)`. -/
def ln (x : ℝ) : ℝ := Real.log x / Real.log EULER

/-- The compression parameter. -/
def A : ℝ := 87.6

def excursion2 : ℤ := 32767

/-- `ampf = (x/excursion2)`, the quotient of two `int`. -/
def ampf (x : ℤ) : ℝ := (Int.tdiv x excursion2 : ℤ)

def ampf2 (ampf : ℝ) : ℝ :=
  if |ampf| < 1 / A then A * |ampf| / (1 + ln A) else (1 + ln (A * |ampf|)) / (1 + ln A)

/-- `(int) (round (ampf2*excursion2))`. -/
def ex (x : ℤ) : ℤ := Rounding.halfAway (ampf2 (ampf x) * excursion2)

/-- Two samples of the 16-bit range in order. -/
structure SamplePair where
  x : ℤ
  y : ℤ
  low : -excursion2 ≤ x
  ordered : x ≤ y
  high : y ≤ excursion2

/-- The step keeps the order of the samples, and the value of the first one is as it should be. -/
structure Companded (pair : SamplePair) : Prop where
  monotone : ex pair.x ≤ ex pair.y
  odd : ex (-pair.x) = -ex pair.x
  bounded : |ex pair.x| ≤ excursion2
  positive : 1 ≤ pair.x → 0 < ex pair.x

theorem ln_eq_log (x : ℝ) : ln x = Real.log x := by
  rw [ln, EULER, Real.log_exp, div_one]

/-- The curve is symmetric. -/
theorem ampf2_neg (quotient : ℝ) : ampf2 (-quotient) = ampf2 quotient := by
  rw [ampf2, ampf2, abs_neg]

theorem ampf2_zero : ampf2 0 = 0 := by
  have hpositive : (0 : ℝ) < 1 / A := by norm_num [A]
  rw [ampf2, abs_zero, if_pos hpositive, mul_zero, zero_div]

theorem ampf2_one : ampf2 1 = 1 := by
  have hlarge : ¬ (1 : ℝ) < 1 / A := by norm_num [A]
  have hlog : 0 ≤ Real.log A := Real.log_nonneg (by norm_num [A])
  rw [ampf2, abs_one, if_neg hlarge, mul_one, div_self]
  rw [ln_eq_log]
  linarith

/-! ## The samples -/

/-- Opposite samples have the same value. -/
theorem ex_neg (x : ℤ) : ex (-x) = ex x := by
  have hquotient : ampf (-x) = -ampf x := by
    rw [ampf, ampf, Int.neg_tdiv, Int.cast_neg]
  rw [ex, ex, hquotient, ampf2_neg]

theorem ex_of_abs_lt {x : ℤ} (hx : |x| < excursion2) : ex x = 0 := by
  have hnatAbs : (Int.tdiv x excursion2).natAbs = 0 := by
    rw [Int.natAbs_tdiv]
    exact Nat.div_eq_of_lt (Int.ofNat_lt.mp (by rwa [Int.natCast_natAbs]))
  have hquotient : ampf x = 0 := by
    rw [ampf, Int.natAbs_eq_zero.mp hnatAbs, Int.cast_zero]
  rw [ex, hquotient, ampf2_zero, zero_mul, Rounding.halfAway_zero]

theorem ex_excursion2 : ex excursion2 = excursion2 := by
  have hquotient : ampf excursion2 = 1 := by
    rw [ampf, Int.tdiv_self (by decide), Int.cast_one]
  rw [ex, hquotient, ampf2_one, one_mul, Rounding.halfAway_intCast]

theorem ex_of_abs_eq {x : ℤ} (hx : |x| = excursion2) : ex x = excursion2 := by
  rcases (abs_eq (by decide)).mp hx with rfl | rfl
  · exact ex_excursion2
  · rw [ex_neg, ex_excursion2]

theorem ex_nonneg {x : ℤ} (hx : |x| ≤ excursion2) : 0 ≤ ex x := by
  rcases hx.lt_or_eq with hinner | hend
  · rw [ex_of_abs_lt hinner]
  · rw [ex_of_abs_eq hend]
    decide

/-- A value is odd exactly where it is lost. -/
theorem ex_odd_iff {x : ℤ} (hx : |x| ≤ excursion2) : ex (-x) = -ex x ↔ |x| < excursion2 := by
  rw [ex_neg, self_eq_neg]
  rcases hx.lt_or_eq with hinner | hend
  · exact iff_of_true (ex_of_abs_lt hinner) hinner
  · rw [ex_of_abs_eq hend]
    exact iff_of_false (by decide) hend.not_lt

/-- The step is as it should be exactly at the samples that are not positive, without the lowest
one. -/
theorem companded_iff (pair : SamplePair) :
    Companded pair ↔ -excursion2 < pair.x ∧ pair.x ≤ 0 := by
  have hx : |pair.x| ≤ excursion2 := abs_le.mpr ⟨pair.low, pair.ordered.trans pair.high⟩
  have hy : |pair.y| ≤ excursion2 := abs_le.mpr ⟨pair.low.trans pair.ordered, pair.high⟩
  constructor
  · intro hcompanded
    have hinner := (ex_odd_iff hx).mp hcompanded.odd
    refine ⟨(abs_lt.mp hinner).1, ?_⟩
    by_contra hpositive
    have hvalue := hcompanded.positive (by omega)
    rw [ex_of_abs_lt hinner] at hvalue
    exact lt_irrefl 0 hvalue
  · intro hrange
    have hinner : |pair.x| < excursion2 := abs_lt.mpr ⟨hrange.1, hrange.2.trans_lt (by decide)⟩
    have hvalue : ex pair.x = 0 := ex_of_abs_lt hinner
    refine ⟨?_, (ex_odd_iff hx).mpr hinner, ?_, fun hone ↦ ?_⟩
    · rw [hvalue]
      exact ex_nonneg hy
    · rw [hvalue]
      decide
    · exact absurd (hone.trans hrange.2) (by decide)

/-- The sample 1 has the value 0. -/
theorem companded_fails_at_one :
    ¬ Companded ⟨1, 1, by decide, by decide, by decide⟩ := by
  intro hcompanded
  have hvalue : 0 < ex 1 := hcompanded.positive le_rfl
  rw [ex_of_abs_lt (by decide)] at hvalue
  exact lt_irrefl 0 hvalue

end

end PiFunk.Sampling
