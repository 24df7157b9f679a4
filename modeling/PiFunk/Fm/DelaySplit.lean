import Mathlib.Tactic.GCongr
import PiFunk.Fm.Sample

/-!
# The two delays of one sample

`play_fm` divides the clocks of a sample between the low and the high time by the fraction that the
rounding to `intval` leaves.  That fraction lies between a quarter and three quarters, so neither
time is negative, and from four clocks on both are positive.
-/

namespace PiFunk.Fm

/-- `TXFR_LEN` of the delay behind the low time: `clocksPerSample-fracval`. -/
def lowLength (clocksPerSample : ℤ) (dval : ℚ) : ℤ := clocksPerSample - fracval clocksPerSample dval

/-- `TXFR_LEN` of the delay behind the high time: `fracval`. -/
def highLength (clocksPerSample : ℤ) (dval : ℚ) : ℤ := fracval clocksPerSample dval

/-- The two delays share the clocks of the sample, and a larger fraction has a larger share. -/
structure SplitsDelay (clocksPerSample : ℤ) (dval : ℚ) : Prop where
  fracval_nonneg : 0 ≤ fracval clocksPerSample dval
  fracval_le : fracval clocksPerSample dval ≤ clocksPerSample
  low_nonneg : 0 ≤ lowLength clocksPerSample dval
  high_nonneg : 0 ≤ highLength clocksPerSample dval
  sum : highLength clocksPerSample dval + lowLength clocksPerSample dval = clocksPerSample
  positive : 4 ≤ clocksPerSample →
    0 < highLength clocksPerSample dval ∧ 0 < lowLength clocksPerSample dval
  monotone : ∀ other, dval - intval dval ≤ other - intval other →
    fracval clocksPerSample dval ≤ fracval clocksPerSample other

/-! ## The fraction -/

theorem quarter_le_frac (dval : ℚ) : 1 / 4 ≤ frac dval := by
  have hround := (abs_le.mp (Rounding.abs_sub_halfAway_le dval)).1
  rw [frac, intval, roundHalfAway_eq]
  linarith

theorem frac_le_three_quarters (dval : ℚ) : frac dval ≤ 3 / 4 := by
  have hround := (abs_le.mp (Rounding.abs_sub_halfAway_le dval)).2
  rw [frac, intval, roundHalfAway_eq]
  linarith

theorem frac_le_frac_iff (dval other : ℚ) :
    frac dval ≤ frac other ↔ dval - intval dval ≤ other - intval other := by
  unfold frac
  constructor <;> intro hle <;> linarith

section Share

variable {clocksPerSample : ℤ} (hclocks : 0 ≤ clocksPerSample) (dval : ℚ)

include hclocks

/-- No count is negative, so the conversion rounds down. -/
theorem fracval_eq_floor : fracval clocksPerSample dval = ⌊frac dval * clocksPerSample⌋ := by
  have hfrac : 0 ≤ frac dval := le_trans (by norm_num) (quarter_le_frac dval)
  exact truncate_of_nonneg (mul_nonneg hfrac (by exact_mod_cast hclocks))

theorem div_four_le_fracval : clocksPerSample / 4 ≤ fracval clocksPerSample dval := by
  have hcast : (0 : ℚ) ≤ clocksPerSample := by exact_mod_cast hclocks
  have hdiv : ((clocksPerSample / 4 : ℤ) : ℚ) ≤ clocksPerSample / 4 := by
    rw [le_div_iff₀ (by norm_num)]
    exact_mod_cast Int.ediv_mul_le clocksPerSample (by decide)
  rw [fracval_eq_floor hclocks, Int.le_floor]
  calc
    ((clocksPerSample / 4 : ℤ) : ℚ) ≤ 1 / 4 * clocksPerSample := by linarith
    _ ≤ frac dval * clocksPerSample :=
      mul_le_mul_of_nonneg_right (quarter_le_frac dval) hcast

theorem fracval_le_three_quarters :
    4 * fracval clocksPerSample dval ≤ 3 * clocksPerSample := by
  have hcast : (0 : ℚ) ≤ clocksPerSample := by exact_mod_cast hclocks
  have hfloor := Int.floor_le (frac dval * clocksPerSample)
  have hshare : frac dval * clocksPerSample ≤ 3 / 4 * clocksPerSample :=
    mul_le_mul_of_nonneg_right (frac_le_three_quarters dval) hcast
  rw [fracval_eq_floor hclocks]
  have hcount : (4 * ⌊frac dval * clocksPerSample⌋ : ℚ) ≤ 3 * clocksPerSample := by linarith
  exact_mod_cast hcount

theorem fracval_le_fracval {other : ℚ} (hle : frac dval ≤ frac other) :
    fracval clocksPerSample dval ≤ fracval clocksPerSample other := by
  rw [fracval_eq_floor hclocks, fracval_eq_floor hclocks]
  gcongr

/-- Every count of clocks is split without loss. -/
theorem splitsDelay : SplitsDelay clocksPerSample dval := by
  have hquarter := div_four_le_fracval hclocks dval
  have hthree := fracval_le_three_quarters hclocks dval
  refine ⟨?_, ?_, ?_, ?_, ?_, ?_, ?_⟩
  · omega
  · omega
  · unfold lowLength
    omega
  · unfold highLength
    omega
  · exact add_sub_cancel _ _
  · intro hfour
    unfold highLength lowLength
    omega
  · intro other hle
    exact fracval_le_fracval hclocks dval ((frac_le_frac_iff dval other).mpr hle)

end Share

/-- A half is rounded away from zero, so of the 1400 clocks at 22050 Hz the high time has 350 and
the low time 1050. -/
theorem splitsDelay_half :
    SplitsDelay 1400 (1 / 2) ∧ highLength 1400 (1 / 2) = 350 ∧ lowLength 1400 (1 / 2) = 1050 := by
  refine ⟨splitsDelay (by decide) (1 / 2), ?_⟩
  decide +kernel

end PiFunk.Fm
