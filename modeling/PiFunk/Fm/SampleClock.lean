import Mathlib.Tactic.FieldSimp
import Mathlib.Tactic.Linarith
import PiFunk.Fm.Sample

/-!
# The clocks of one sample

`play_fm` waits `22050/samplerate*1400` clocks for each sample.  The division comes first and
truncates, so its remainder is lost 1400 times over: the count is the rounded one only where the
remainder is small, and it is zero above 22050 Hz.
-/

namespace PiFunk.Fm

def offeredRates : List ℤ := [48000, 44100, 22050, 14500, 11025]

/-- What the truncated division loses. -/
theorem clocksPerSample_remainder (samplerate : ℤ) :
    22050 * 1400 - clocksPerSample samplerate * samplerate =
      Int.tmod 22050 samplerate * 1400 := by
  rw [clocksPerSample, Int.tmod_def]
  ring

/-- The count is the number of clocks of one sample rounded down; playing any number of samples
takes it up to one clock a sample, and an offered rate takes any time at all. -/
structure CountsClocks (samplerate : ℤ) : Prop where
  nonneg : 0 ≤ 22050 * 1400 - clocksPerSample samplerate * samplerate
  lt_samplerate : 22050 * 1400 - clocksPerSample samplerate * samplerate < samplerate
  playing : ∀ count : ℕ, |(count * clocksPerSample samplerate : ℚ) -
    count * (22050 * 1400) / samplerate| ≤ count
  offered : samplerate ∈ offeredRates → 0 < clocksPerSample samplerate

theorem playing_of_rounded {clocks samplerate total : ℤ}
    (hnonneg : 0 ≤ total - clocks * samplerate)
    (hless : total - clocks * samplerate < samplerate) (count : ℕ) :
    |(count * clocks : ℚ) - count * total / samplerate| ≤ count := by
  have hrate : (0 : ℚ) < samplerate := by exact_mod_cast hnonneg.trans_lt hless
  have hlost : (0 : ℚ) ≤ (total - clocks * samplerate) / samplerate :=
    div_nonneg (by exact_mod_cast hnonneg) hrate.le
  have hone : ((total - clocks * samplerate) / samplerate : ℚ) ≤ 1 :=
    (div_le_one hrate).mpr (by exact_mod_cast hless.le)
  calc
    |(count * clocks : ℚ) - count * total / samplerate| =
        |(-(count * ((total - clocks * samplerate) / samplerate)) : ℚ)| := by
      congr 1
      field_simp
      ring
    _ = count * ((total - clocks * samplerate) / samplerate) := by
      rw [abs_neg, abs_of_nonneg (mul_nonneg (Nat.cast_nonneg count) hlost)]
    _ ≤ count := mul_le_of_le_one_right (Nat.cast_nonneg count) hone

/-- The count is right exactly for the rates that leave a small remainder. -/
theorem countsClocks_iff (samplerate : ℤ) :
    CountsClocks samplerate ↔ Int.tmod 22050 samplerate * 1400 < samplerate := by
  have hremainder := clocksPerSample_remainder samplerate
  constructor
  · intro hcounts
    rw [← hremainder]
    exact hcounts.lt_samplerate
  · intro hsmall
    have hnonneg : 0 ≤ 22050 * 1400 - clocksPerSample samplerate * samplerate := by
      rw [hremainder]
      exact Int.mul_nonneg (Int.tmod_nonneg samplerate (by decide)) (by decide)
    have hless : 22050 * 1400 - clocksPerSample samplerate * samplerate < samplerate := by
      rwa [hremainder]
    refine ⟨hnonneg, hless, fun count ↦ ?_, fun hoffered ↦ ?_⟩
    · exact_mod_cast playing_of_rounded hnonneg hless count
    · simp only [offeredRates, List.mem_cons, List.not_mem_nil, or_false] at hoffered
      rcases hoffered with rfl | rfl | rfl | rfl | rfl
      · exact absurd hsmall (by decide)
      · exact absurd hsmall (by decide)
      · decide
      · decide
      · decide

/-- At 44100 Hz a sample takes no time. -/
theorem countsClocks_fails_at_44100 : ¬ CountsClocks 44100 := by
  intro hcounts
  exact absurd (hcounts.offered (by decide)) (by decide)

end PiFunk.Fm
