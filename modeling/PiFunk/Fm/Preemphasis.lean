import Mathlib.Data.Sign.Basic
import Mathlib.Tactic.FieldSimp
import Mathlib.Tactic.Linarith
import PiFunk.Fm.Sample

/-!
# The pre-emphasis filter

`play_fm` filters each sample against the one before, "fir of 1 + s tau", and divides the change
by `1-fmconstant`.  The divisor is `(20000-samplerate)/20000`: it is zero at 20000 Hz, and only
above that rate is it negative, so that the change is emphasised.
-/

namespace PiFunk.Fm

theorem one_sub_fmconstant (samplerate : ℤ) :
    1 - fmconstant samplerate = (20000 - samplerate) / 20000 := by
  unfold fmconstant timeconst
  ring

theorem one_sub_fmconstant_eq_zero_iff (samplerate : ℤ) :
    1 - fmconstant samplerate = 0 ↔ samplerate = 20000 := by
  rw [one_sub_fmconstant, div_eq_zero_iff, or_iff_left (by norm_num), sub_eq_zero]
  constructor
  · intro hrate
    exact_mod_cast hrate.symm
  · intro hrate
    exact_mod_cast hrate.symm

theorem divisor_ne_zero {samplerate : ℤ} (hrate : samplerate ≠ 20000) :
    (20000 - samplerate : ℚ) ≠ 0 :=
  sub_ne_zero.mpr (by exact_mod_cast hrate.symm)

/-- What the change is multiplied by. -/
def gain (samplerate : ℤ) : ℚ := 20000 / (20000 - samplerate)

theorem preemphasis_eq {samplerate : ℤ} (hrate : samplerate ≠ 20000) (dataold datanew : ℚ) :
    preemphasis samplerate dataold datanew =
      some (datanew + (dataold - datanew) * gain samplerate) := by
  rw [preemphasis, if_neg (mt (one_sub_fmconstant_eq_zero_iff samplerate).mp hrate),
    one_sub_fmconstant, gain, div_div_eq_mul_div, mul_div_assoc]

theorem preemphasis_undefined (dataold datanew : ℚ) :
    preemphasis 20000 dataold datanew = none :=
  if_pos ((one_sub_fmconstant_eq_zero_iff 20000).mpr rfl)

theorem gain_neg_iff (samplerate : ℤ) : gain samplerate < 0 ↔ 20000 < samplerate := by
  rw [gain, div_neg_iff]
  constructor
  · intro hgain
    have hdivisor : (20000 - samplerate : ℚ) < 0 := by
      rcases hgain with hpos | hneg
      · exact hpos.2
      · norm_num at hneg
    exact_mod_cast sub_neg.mp hdivisor
  · intro hrate
    exact .inl ⟨by norm_num, sub_neg.mpr (by exact_mod_cast hrate)⟩

/-! ## The direction of the filter -/

/-- The filter is defined, and what it adds to the sample has the sign of the change. -/
def Emphasises (samplerate : ℤ) (dataold datanew : ℚ) : Prop :=
  ∃ sample, preemphasis samplerate dataold datanew = some sample ∧
    SignType.sign (sample - datanew) = SignType.sign (datanew - dataold) ∧
    (sample - datanew = 0 ↔ dataold = datanew)

/-- A negative factor turns a sign round, and a positive one does so for zero only. -/
theorem sign_mul_eq_sign_neg_iff {factor : ℚ} (hfactor : factor ≠ 0) (change : ℚ) :
    SignType.sign (change * factor) = SignType.sign (-change) ↔ factor < 0 ∨ change = 0 := by
  rw [sign_mul, Left.sign_neg]
  rcases lt_or_gt_of_ne hfactor with hneg | hpos
  · simp [sign_neg hneg, hneg]
  · rw [sign_pos hpos, mul_one]
    constructor
    · intro hsign
      right
      rw [← sign_eq_zero_iff]
      revert hsign
      cases SignType.sign change <;> decide
    · intro hcases
      rw [hcases.resolve_left hpos.le.not_gt, sign_zero]
      rfl

/-- The change is emphasised exactly above 20000 Hz, and where there is no change and the filter is
defined. -/
theorem emphasises_iff (samplerate : ℤ) (dataold datanew : ℚ) :
    Emphasises samplerate dataold datanew ↔
      20000 < samplerate ∨ samplerate ≠ 20000 ∧ dataold = datanew := by
  by_cases hrate : samplerate = 20000
  · subst hrate
    simp [Emphasises, preemphasis_undefined]
  · have hgain : gain samplerate ≠ 0 := div_ne_zero (by norm_num) (divisor_ne_zero hrate)
    have hsign := sign_mul_eq_sign_neg_iff hgain (dataold - datanew)
    rw [neg_sub, gain_neg_iff, sub_eq_zero] at hsign
    have hzero : (dataold - datanew) * gain samplerate = 0 ↔ dataold = datanew := by
      rw [mul_eq_zero, or_iff_left hgain, sub_eq_zero]
    simp only [Emphasises, preemphasis_eq hrate, Option.some.injEq, exists_eq_left',
      add_sub_cancel_left, hsign, hzero, and_true, ne_eq, hrate, not_false_iff, true_and]

/-- At 11025 Hz a rising sample is lowered. -/
theorem emphasises_fails_at_11025 : ¬ Emphasises 11025 0 1 := by
  rintro ⟨sample, hsample, hsign, -⟩
  rw [preemphasis_eq (by norm_num), Option.some.injEq] at hsample
  have hlowered : sample - 1 < 0 := by
    rw [← hsample, gain]
    norm_num
  rw [sign_neg hlowered, sign_pos (by norm_num)] at hsign
  exact absurd hsign (by decide)

/-! ## The filter the comment names -/

/-- `1 + s tau`, the derivative taken as the change from the sample before. -/
def fir (samplerate : ℤ) (dataold datanew : ℚ) : ℚ :=
  datanew + (datanew - dataold) * fmconstant samplerate

/-- It emphasises at every rate. -/
theorem sign_fir_sub {samplerate : ℤ} (hrate : 0 < samplerate) (dataold datanew : ℚ) :
    SignType.sign (fir samplerate dataold datanew - datanew) =
      SignType.sign (datanew - dataold) := by
  have hconstant : 0 < fmconstant samplerate := by
    unfold fmconstant timeconst
    positivity
  rw [fir, add_sub_cancel_left, sign_mul, sign_pos hconstant, mul_one]

end PiFunk.Fm
