import PiFunk.Fm.Quantisation
import PiFunk.Menu.ChannelSelection

/-!
# The carriers of the channels

The divider for the clock knows only three carriers in the PMR band, so that its channels share
them, while the channels of the CB band are further apart than the carriers there.
-/

namespace PiFunk.Menu

open Fm

theorem Band.Contains.divider {band : Band} {freq : ℚ} (hfreq : band.Contains freq) :
    centerFreqDivider band.high ≤ centerFreqDivider freq ∧
      centerFreqDivider freq ≤ centerFreqDivider band.low := by
  have hlow : 0 < band.low := by
    cases band <;> norm_num [Band.low]
  exact ⟨centerFreqDivider_le (hlow.trans_le hfreq.1) hfreq.2, centerFreqDivider_le hlow hfreq.1⟩

/-- Below 28 MHz channels have different carriers if they are not closer than 1 kHz. -/
theorem centerFreqDivider_ne_of_spacing {first second : ℚ} (hfirst : 0 < first)
    (hfirst_le : first ≤ 28) (hsecond : 0 < second) (hsecond_le : second ≤ 28)
    (hspacing : 1 / 1000 ≤ |first - second|) :
    centerFreqDivider first ≠ centerFreqDivider second := by
  refine centerFreqDivider_ne hfirst hsecond ?_
  calc
    first * second ≤ 28 * 28 := mul_le_mul hfirst_le hsecond_le hsecond.le (by norm_num)
    _ ≤ 2048000 * |first - second| := by linarith

/-- The CB channels are multiples of 10 kHz above the lowest one. -/
theorem cb_raster : ∀ freq ∈ cb.channels.map Prod.snd, ((freq - Band.cb.low) * 100).den = 1 := by
  decide +kernel

theorem cb_range : ∀ freq ∈ cb.channels.map Prod.snd, 1 ≤ freq ∧ freq ≤ 27.755 := by
  decide +kernel

theorem cb_spacing {first second : ℚ} (hfirst : first ∈ cb.channels.map Prod.snd)
    (hsecond : second ∈ cb.channels.map Prod.snd) (hdiffers : first ≠ second) :
    1 / 100 ≤ |first - second| := by
  have hstep : ∀ freq ∈ cb.channels.map Prod.snd,
      ∃ step : ℤ, (freq - Band.cb.low) * 100 = step := by
    intro freq hfreq
    exact ⟨_, (Rat.den_eq_one_iff _).mp (cb_raster freq hfreq) |>.symm⟩
  obtain ⟨i, hi⟩ := hstep first hfirst
  obtain ⟨j, hj⟩ := hstep second hsecond
  have hsteps : i ≠ j := by
    rintro rfl
    exact hdiffers (by linarith)
  have hone : (1 : ℚ) ≤ |((i - j : ℤ) : ℚ)| := by
    exact_mod_cast Int.one_le_abs (sub_ne_zero.mpr hsteps)
  have hdifference : ((i - j : ℤ) : ℚ) = (first - second) * 100 := by
    push_cast
    linarith
  rw [hdifference, abs_mul, abs_of_pos (by norm_num : (0 : ℚ) < 100)] at hone
  linarith

/-- Storing a channel below 28 MHz moves it by less than 2 Hz. -/
theorem abs_toFloat_sub_le {constant : ℚ} (hlow : 1 ≤ constant) (hhigh : constant ≤ 27.755) :
    |toFloat constant - constant| ≤ 1 / 2 ^ 19 := by
  have hdouble : |BinaryFloat.nearest 53 constant - constant| ≤ 2 ^ (-48 : ℤ) / 2 :=
    BinaryFloat.abs_nearest_sub_le_of_lt (by linarith) 5 (by linarith) 53
  have hsmall : (2 : ℚ) ^ (-48 : ℤ) / 2 ≤ 1 / 2 ^ 20 := by norm_num
  obtain ⟨hbelow, habove⟩ := abs_le.mp (hdouble.trans hsmall)
  have hsingle : |toFloat constant - BinaryFloat.nearest 53 constant| ≤ 2 ^ (-19 : ℤ) / 2 :=
    BinaryFloat.abs_nearest_sub_le_of_lt (by linarith) 5 (by linarith) 24
  have htwice : (2 : ℚ) ^ (-19 : ℤ) / 2 = 1 / 2 ^ 20 := by norm_num
  rw [htwice] at hsingle
  calc
    |toFloat constant - constant| ≤
        |toFloat constant - BinaryFloat.nearest 53 constant| +
          |BinaryFloat.nearest 53 constant - constant| := abs_sub_le _ _ _
    _ ≤ 1 / 2 ^ 20 + 1 / 2 ^ 20 := add_le_add hsingle (hdouble.trans hsmall)
    _ = 1 / 2 ^ 19 := by norm_num

/-- A constant that a CB number selects is one of the channels. -/
theorem mem_cb_of_lists {number : CInt} {constant : ℚ} (hlists : cb.Lists number constant) :
    constant ∈ cb.channels.map Prod.snd := by
  cases hlists with
  | inl hlisted => exact List.mem_map_of_mem hlisted
  | inr hdefault =>
    rw [hdefault.2]
    decide +kernel

/-- Where a selection tunes to a table, the frequency is a channel of that table. -/
theorem selects_of_leftFreq? {dialog : Dialog} {table : ChannelTable} {freq : ℚ}
    (htable : dialog.table? = some table) (hfreq : leftFreq? (channelselect dialog) = some freq) :
    table.Selects dialog.channelNumber freq := by
  rw [leftFreq?_channelselect, htable] at hfreq
  exact ChannelTable.selects_of_freq? hfreq

theorem eq_cb_of_band {dialog : Dialog} {table : ChannelTable} (hband : dialog.band = .cb)
    (htable : dialog.table? = some table) : table = cb := by
  rw [Dialog.table?, hband] at htable
  exact (Option.some.inj htable).symm

/-- Between 446.0 and 446.2 MHz there are three dividers. -/
theorem pmr_divider {freq : ℚ} (hfreq : Band.pmr.Contains freq) :
    4590 ≤ centerFreqDivider freq ∧ centerFreqDivider freq ≤ 4592 := by
  have hlow : centerFreqDivider Band.pmr.low = 4592 :=
    (centerFreqDivider_eq_iff (by norm_num [Band.low]) (by decide)).mpr (by norm_num [Band.low])
  have hhigh : centerFreqDivider Band.pmr.high = 4590 :=
    (centerFreqDivider_eq_iff (by norm_num [Band.high]) (by decide)).mpr (by norm_num [Band.high])
  rw [← hlow, ← hhigh]
  exact hfreq.divider

/-- Two channels of the CB table are sent on one carrier only if they are the same. -/
theorem cb_divider_eq_iff {number other : CInt} {first second : ℚ}
    (hfirst : cb.Selects number first) (hsecond : cb.Selects other second) :
    centerFreqDivider first = centerFreqDivider second ↔ first = second := by
  obtain ⟨constant, hlists, rfl⟩ := hfirst
  obtain ⟨against, hagainst, rfl⟩ := hsecond
  have hconstant := mem_cb_of_lists hlists
  have hother := mem_cb_of_lists hagainst
  obtain ⟨hlow, hhigh⟩ := cb_range _ hconstant
  obtain ⟨hlow', hhigh'⟩ := cb_range _ hother
  have hclose := abs_le.mp (abs_toFloat_sub_le hlow hhigh)
  have hclose' := abs_le.mp (abs_toFloat_sub_le hlow' hhigh')
  refine ⟨fun hsame ↦ ?_, congrArg centerFreqDivider⟩
  by_contra hdiffers
  have hspacing : 1 / 100 ≤ |constant - against| :=
    cb_spacing hconstant hother fun heq ↦ hdiffers (congrArg toFloat heq)
  -- rounding takes next to nothing from the 10 kHz
  have hstored : 1 / 1000 ≤ |toFloat constant - toFloat against| := by
    have hsplit : |constant - against| ≤ |constant - toFloat constant| +
        |toFloat constant - toFloat against| + |toFloat against - against| :=
      (abs_sub_le _ (toFloat against) _).trans (by gcongr; exact abs_sub_le _ _ _)
    rw [abs_sub_comm constant (toFloat constant)] at hsplit
    have herror := abs_toFloat_sub_le hlow hhigh
    have herror' := abs_toFloat_sub_le hlow' hhigh'
    linarith
  exact centerFreqDivider_ne_of_spacing (by linarith) (by linarith) (by linarith) (by linarith)
    hstored hsame

/-- Whatever channels two dialogs select in one band, in PMR they are sent on one of three carriers,
analog or digital, and in CB on carriers of their own. -/
theorem channelselect_carriers {first second : Dialog} {f g : ℚ} (hband : first.band = second.band)
    (hfirst : first.table? ≠ none) (hsecond : second.table? ≠ none)
    (hf : leftFreq? (channelselect first) = some f)
    (hg : leftFreq? (channelselect second) = some g) :
    (first.band = .pmr → 4590 ≤ centerFreqDivider f ∧ centerFreqDivider f ≤ 4592) ∧
      (first.band = .cb → (centerFreqDivider f = centerFreqDivider g ↔ f = g)) := by
  obtain ⟨table, htable⟩ := Option.ne_none_iff_exists'.mp hfirst
  obtain ⟨other, hother⟩ := Option.ne_none_iff_exists'.mp hsecond
  have hselects := selects_of_leftFreq? htable hf
  constructor
  · intro hpmr
    have hcontains := (Dialog.table_within htable).contains_iff hselects
    rw [hpmr] at hcontains
    exact pmr_divider (hcontains.mpr List.not_mem_nil)
  · intro hcb
    have hcb' : second.band = .cb := hband ▸ hcb
    obtain rfl : table = cb := eq_cb_of_band hcb htable
    obtain rfl : other = cb := eq_cb_of_band hcb' hother
    exact cb_divider_eq_iff hselects (selects_of_leftFreq? hother hg)

/-- A dialog at the start of the program whose answers are numbers. -/
def answering (numbers : List CInt) : Dialog where
  globals := .initial
  answers := numbers.map fun number ↦ ⟨some number, some (number.toInt : ℚ), none⟩
  trace := []

/-- The CB channels 41 and 42. -/
theorem channelselect_carriers_cb :
    centerFreqDivider (toFloat 27.565) = centerFreqDivider (toFloat 27.575) ↔
      toFloat 27.565 = toFloat 27.575 := by
  have htable : ∀ number, (answering [2, number]).table? = some cb := fun _ ↦ rfl
  have hfreq : ∀ number freq, cb.freq? number = some freq →
      leftFreq? (channelselect (answering [2, number])) = some freq := by
    intro number freq hnumber
    rw [leftFreq?_channelselect, htable]
    exact hnumber
  exact (@channelselect_carriers (answering [2, 41]) (answering [2, 42]) _ _ rfl
    (htable 41 ▸ Option.some_ne_none cb) (htable 42 ▸ Option.some_ne_none cb)
    (hfreq 41 _ (by decide +kernel)) (hfreq 42 _ (by decide +kernel))).2 rfl

end PiFunk.Menu
