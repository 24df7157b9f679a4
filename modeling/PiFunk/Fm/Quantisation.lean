import Mathlib.Algebra.Order.Round
import Mathlib.Tactic.FieldSimp
import Mathlib.Tactic.Linarith
import Mathlib.Tactic.Positivity
import PiFunk.Fm.DividerTable

/-!
# The carriers a divider can reach

The 500 MHz clock is divided by `centerFreqDivider` in 12 fractional bits, so a frequency is sent on
the carrier of the nearest divider.  All frequencies between two limits share one carrier, and the
higher they are the wider apart the carriers are.
-/

namespace PiFunk.Fm

/-- The 500 MHz over a divider with 12 fractional bits. -/
def carrier (divider : ℤ) : ℚ := 2048000 / divider

/-- Up to here the divider is too large for an `int`: half a step above the largest one. -/
def lowest : ℚ := 4096000 / (2 ^ 32 - 1)

/-- The divider is an `int` and the nearest one, and the carrier is off by at most half a step. -/
structure Carried (freq : ℚ) : Prop where
  positive : 0 < centerFreqDivider freq
  fits : centerFreqDivider freq < 2 ^ 31
  nearest : ∀ divider : ℤ,
    |2048000 / freq - centerFreqDivider freq| ≤ |2048000 / freq - divider|
  error : |carrier (centerFreqDivider freq) - freq| ≤ freq ^ 2 / (4096000 - freq)
  shared : ∀ other, lowest < other →
    (centerFreqDivider other = centerFreqDivider freq ↔
      4096000 / (2 * centerFreqDivider freq + 1) < other ∧
        other ≤ 4096000 / (2 * centerFreqDivider freq - 1))

theorem centerFreqDivider_eq_round {freq : ℚ} (hfreq : 0 < freq) :
    centerFreqDivider freq = round (2048000 / freq) := by
  have hnonneg : 0 ≤ 2048000 / freq + 1 / 2 := by positivity
  rw [centerFreqDivider_eq, truncate_of_nonneg hnonneg, round_eq]

/-- A divider belongs to the frequencies between two limits. -/
theorem centerFreqDivider_eq_iff {freq : ℚ} (hfreq : 0 < freq) {divider : ℤ}
    (hdivider : 0 < divider) :
    centerFreqDivider freq = divider ↔
      4096000 / (2 * divider + 1) < freq ∧ freq ≤ 4096000 / (2 * divider - 1) := by
  have hone : (1 : ℚ) ≤ divider := by exact_mod_cast hdivider
  have hupper : (0 : ℚ) < 2 * divider + 1 := by linarith
  have hlower : (0 : ℚ) < 2 * divider - 1 := by linarith
  rw [centerFreqDivider_eq_round hfreq, round_eq_iff, Set.mem_Ico, le_div_iff₀ hfreq,
    div_lt_iff₀ hfreq, div_lt_iff₀ hupper, le_div_iff₀ hlower]
  constructor
  · intro hbounds
    constructor
    · linarith [hbounds.2]
    · linarith [hbounds.1]
  · intro hbounds
    constructor
    · linarith [hbounds.2]
    · linarith [hbounds.1]

theorem centerFreqDivider_pos {freq : ℚ} (hfreq : 0 < freq) (hbelow : freq < 4096000) :
    0 < centerFreqDivider freq := by
  have hhalf : 1 / 2 < 2048000 / freq := by
    rw [lt_div_iff₀ hfreq]
    linarith
  rw [centerFreqDivider_eq, ← Int.add_one_le_iff, zero_add, le_truncate_iff (by decide)]
  push_cast
  linarith

/-- The error of the period is half a step, and that of the frequency follows from it. -/
theorem abs_carrier_sub_le {freq : ℚ} (hfreq : 0 < freq) (hbelow : freq < 4096000) :
    |carrier (centerFreqDivider freq) - freq| ≤ freq ^ 2 / (4096000 - freq) := by
  have hpos : (0 : ℚ) < centerFreqDivider freq := by
    exact_mod_cast centerFreqDivider_pos hfreq hbelow
  have hround := abs_sub_round (2048000 / freq)
  rw [← centerFreqDivider_eq_round hfreq] at hround
  have hdivisor : 0 < 4096000 - freq := by linarith
  have hlarge : (4096000 - freq) / (2 * freq) ≤ centerFreqDivider freq := by
    have hquotient : (4096000 - freq) / (2 * freq) = 2048000 / freq - 1 / 2 := by
      field_simp
      ring
    rw [hquotient]
    linarith [(abs_le.mp hround).2]
  have hdifference : carrier (centerFreqDivider freq) - freq =
      freq * (2048000 / freq - centerFreqDivider freq) / centerFreqDivider freq := by
    unfold carrier
    field_simp
  calc
    |carrier (centerFreqDivider freq) - freq| =
        freq * |2048000 / freq - centerFreqDivider freq| / centerFreqDivider freq := by
      rw [hdifference, abs_div, abs_mul, abs_of_pos hfreq, abs_of_pos hpos]
    _ ≤ freq * (1 / 2) / centerFreqDivider freq := by gcongr
    _ ≤ freq * (1 / 2) / ((4096000 - freq) / (2 * freq)) := by gcongr
    _ = freq ^ 2 / (4096000 - freq) := by
      field_simp

theorem lowest_pos : 0 < lowest := by
  norm_num [lowest]

theorem centerFreqDivider_lt {freq : ℚ} (hfreq : lowest < freq) :
    centerFreqDivider freq < 2 ^ 31 := by
  have hpos : 0 < freq := lowest_pos.trans hfreq
  have hbound : 2048000 / freq + 1 / 2 < 2 ^ 31 := by
    rw [lowest, div_lt_iff₀ (by norm_num)] at hfreq
    rw [← lt_sub_iff_add_lt, div_lt_iff₀ hpos]
    linarith
  rw [centerFreqDivider_eq, truncate_lt_iff (by decide)]
  exact_mod_cast hbound

/-- Every frequency that has a divider is sent on the nearest carrier. -/
theorem carried {freq : ℚ} (hfreq : lowest < freq) (hbelow : freq < 4096000) : Carried freq where
  positive := centerFreqDivider_pos (lowest_pos.trans hfreq) hbelow
  fits := centerFreqDivider_lt hfreq
  nearest divider := by
    rw [centerFreqDivider_eq_round (lowest_pos.trans hfreq)]
    exact round_le _ divider
  error := abs_carrier_sub_le (lowest_pos.trans hfreq) hbelow
  shared _ hother := centerFreqDivider_eq_iff (lowest_pos.trans hother)
    (centerFreqDivider_pos (lowest_pos.trans hfreq) hbelow)

/-- The standard PMR channel. -/
theorem carried_pmr : Carried 446.00625 := carried (by norm_num [lowest]) (by norm_num)

theorem centerFreqDivider_le {low high : ℚ} (hlow : 0 < low) (hle : low ≤ high) :
    centerFreqDivider high ≤ centerFreqDivider low := by
  have hhigh : 0 < high := hlow.trans_le hle
  rw [centerFreqDivider_eq_round hlow, centerFreqDivider_eq_round hhigh, round_eq, round_eq]
  gcongr

/-- Frequencies that are a step apart have different carriers. -/
theorem centerFreqDivider_ne {first second : ℚ} (hfirst : 0 < first) (hsecond : 0 < second)
    (hstep : first * second ≤ 2048000 * |first - second|) :
    centerFreqDivider first ≠ centerFreqDivider second := by
  intro hsame
  have hclose : |2048000 / first - 2048000 / second| < 1 := by
    rw [centerFreqDivider_eq_round hfirst, centerFreqDivider_eq_round hsecond] at hsame
    obtain ⟨hlow, hhigh⟩ := Set.mem_Ico.mp (round_eq_iff.mp hsame)
    obtain ⟨hlow', hhigh'⟩ := Set.mem_Ico.mp (round_eq_iff.mp (rfl : round (2048000 / second) = _))
    rw [abs_lt]
    constructor
    · linarith
    · linarith
  have hquotient : |2048000 / first - 2048000 / second| =
      2048000 * |first - second| / (first * second) := by
    have hproduct : 0 < first * second := mul_pos hfirst hsecond
    rw [div_sub_div _ _ hfirst.ne' hsecond.ne', abs_div, abs_of_pos hproduct, mul_comm first,
      ← mul_sub, abs_mul, abs_sub_comm, abs_of_pos (by norm_num : (0 : ℚ) < 2048000)]
  rw [hquotient, div_lt_one (mul_pos hfirst hsecond)] at hclose
  exact absurd hstep (not_le.mpr hclose)

end PiFunk.Fm
