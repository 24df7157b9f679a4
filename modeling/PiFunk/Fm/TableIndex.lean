import Mathlib.Data.List.Chain
import PiFunk.Fm.Modulator
import PiFunk.Fm.Preemphasis

/-!
# The words of the divider table a sample selects

`setupDMA` lays 1024 divider words around the carrier, the carrier itself at word 512, and
`play_fm` addresses the words beside `512 + intval`.  How far `intval` gets from the carrier
depends on two consecutive samples and on the gain of the pre-emphasis filter.
-/

namespace PiFunk.Fm

variable {δ : Type*}

/-! ## The words and their addresses -/

def tableWords : ℤ := 1024

/-- `constPage.p + 2048 + intval*4 - 4`: the word for the low time. -/
def lowSource (constPage intval : ℤ) : ℤ := constPage + 2048 + intval * 4 - 4

/-- `constPage.p + 2048 + intval*4+4`: the word for the high time. -/
def highSource (constPage intval : ℤ) : ℤ := constPage + 2048 + intval * 4 + 4

/-- A whole word of the table lies at the address. -/
def InPage (constPage address : ℤ) : Prop :=
  constPage ≤ address ∧ address + 4 ≤ constPage + tableWords * 4

/-- Both words beside `512 + intval` are words of the table. -/
def InTable (intval : ℤ) : Prop :=
  0 ≤ 512 + intval - 1 ∧ 512 + intval + 1 ≤ tableWords - 1

theorem inTable_iff_inPage (constPage intval : ℤ) :
    InTable intval ↔
      InPage constPage (lowSource constPage intval) ∧
        InPage constPage (highSource constPage intval) := by
  unfold InTable InPage lowSource highSource tableWords
  constructor <;> intro htable <;> omega

/-- What the filter makes of a sample has a timing, and that is inside the table. -/
def Processed.InTable (processed : Processed) : Prop :=
  ∃ timing, processed.timing = some timing ∧ Fm.InTable timing.1

/-! ## One sample -/

/-- The filtered sample, over the divisor `20000-samplerate` and the factor 480. -/
def reach (samplerate : ℤ) (previous sample : BitVec 16) : ℤ :=
  20000 * previous.toInt - samplerate * sample.toInt

/-- The step from one sample to the next stays inside the table. -/
def Fits (samplerate : ℤ) (previous sample : BitVec 16) : Prop :=
  -(245520 * (20000 - samplerate) ^ 2) < (20000 - samplerate) * reach samplerate previous sample ∧
    (20000 - samplerate) * reach samplerate previous sample < 245040 * (20000 - samplerate) ^ 2

theorem dval_preemphasis {samplerate : ℤ} (hrate : samplerate ≠ 20000)
    (previous sample : BitVec 16) :
    dval (scaled sample + (scaled previous - scaled sample) * gain samplerate) =
      reach samplerate previous sample / (480 * (20000 - samplerate)) := by
  have hdivisor := divisor_ne_zero hrate
  unfold dval scaled gain excursion reach
  push_cast
  field_simp
  ring

/-- The divisor may have either sign, so both sides are multiplied by its square. -/
theorem quotient_eq {divisor : ℚ} (hdivisor : divisor ≠ 0) (numerator : ℚ) :
    numerator / (480 * divisor) = divisor * numerator / (480 * divisor ^ 2) := by
  field_simp

theorem inTable_intval_iff {samplerate : ℤ} (hrate : samplerate ≠ 20000)
    (previous sample : BitVec 16) :
    InTable (intval (dval (scaled sample + (scaled previous - scaled sample) * gain samplerate))) ↔
      Fits samplerate previous sample := by
  have hdivisor := divisor_ne_zero hrate
  have hsquare : (0 : ℚ) < 480 * (20000 - samplerate) ^ 2 := by positivity
  have hbounds (index : ℤ) : InTable index ↔ -511 ≤ index ∧ index ≤ 510 := by
    unfold InTable tableWords
    omega
  rw [hbounds, intval, dval_preemphasis hrate, quotient_eq hdivisor, roundHalfAway_eq,
    Rounding.le_halfAway_iff (by norm_num), Rounding.halfAway_le_iff (by norm_num),
    lt_div_iff₀ hsquare, div_lt_iff₀ hsquare, Fits, ← Int.cast_lt (R := ℚ),
    ← Int.cast_lt (R := ℚ)]
  push_cast
  constructor <;> rintro ⟨hlow, hhigh⟩ <;> constructor <;> linarith

/-- The filter has no value at 20000 Hz, and no step fits there. -/
theorem not_fits_undefined (previous sample : BitVec 16) : ¬ Fits 20000 previous sample := by
  simp [Fits]

/-! ## A sequence of samples -/

namespace Modulator

/-- The buffer holds the sample, its lower byte first. -/
def load (modulator : Modulator δ) (sample : BitVec 16) : Modulator δ :=
  { modulator with
    data := fun position ↦
      if position = 0 then sample.extractLsb' 0 8 else sample.extractLsb' 8 8 }

@[simp]
theorem sample_load (modulator : Modulator δ) (sample : BitVec 16) :
    (modulator.load sample).sample = sample := by
  ext index hindex
  simp only [Modulator.sample, load]
  grind

end Modulator

/-- The body of the read loop of `play_fm`, for one sample after the other. -/
def playSamples (samples : List (BitVec 16)) (modulator : Modulator δ) : Modulator δ :=
  samples.foldl (fun m sample ↦ process (m.load sample)) modulator

/-- The modulator before the first sample: the rate is set and `dataold` holds a sample. -/
def Modulator.playing (modulator : Modulator δ) (samplerate : ℤ) (previous : BitVec 16) :
    Modulator δ :=
  { modulator with samplerate, dataold := scaled previous, processed := [] }

/-- Every sample of the sequence has a timing inside the table. -/
def StaysInTable (modulator : Modulator δ) (samplerate : ℤ) (previous : BitVec 16)
    (samples : List (BitVec 16)) : Prop :=
  ∀ processed ∈ (playSamples samples (modulator.playing samplerate previous)).processed,
    processed.InTable

/-- One sample adds its timing to the list, and is the previous one of the next. -/
theorem forall_process_inTable_iff {modulator : Modulator δ} {previous : BitVec 16}
    (hprevious : modulator.dataold = scaled previous) (sample : BitVec 16) :
    (∀ processed ∈ (process (modulator.load sample)).processed, processed.InTable) ↔
      (∀ processed ∈ modulator.processed, processed.InTable) ∧
        Fits modulator.samplerate previous sample := by
  have hload : (modulator.load sample).processed = modulator.processed := rfl
  have hold : (modulator.load sample).dataold = scaled previous := hprevious
  have hsamplerate : (modulator.load sample).samplerate = modulator.samplerate := rfl
  simp only [process, Modulator.sample_load, List.forall_mem_append, List.forall_mem_singleton,
    hload, hold, hsamplerate, Processed.InTable]
  refine and_congr_right fun _ ↦ ?_
  by_cases hrate : modulator.samplerate = 20000
  · rw [hrate, preemphasis_undefined]
    simp [not_fits_undefined]
  · rw [← inTable_intval_iff hrate, preemphasis_eq hrate]
    simp

/-- The induction is on the sequence, for any sample before it. -/
theorem forall_playSamples_inTable_iff (samples : List (BitVec 16)) {modulator : Modulator δ}
    {previous : BitVec 16} (hprevious : modulator.dataold = scaled previous) :
    (∀ processed ∈ (playSamples samples modulator).processed, processed.InTable) ↔
      (∀ processed ∈ modulator.processed, processed.InTable) ∧
        (previous :: samples).IsChain (Fits modulator.samplerate) := by
  induction samples generalizing modulator previous with
  | nil => simp [playSamples]
  | cons sample samples ih =>
    have hnext : (process (modulator.load sample)).dataold = scaled sample := by
      simp [process]
    have hsamplerate :
        (process (modulator.load sample)).samplerate = modulator.samplerate := rfl
    have hrun := ih hnext
    rw [forall_process_inTable_iff hprevious, hsamplerate, and_assoc] at hrun
    rw [List.isChain_cons_cons]
    exact hrun

/-! ## All pairs of samples -/

theorem abs_toInt_le (sample : BitVec 16) : |sample.toInt| ≤ 32768 := by
  rw [abs_le]
  have hlow := sample.le_toInt
  have hhigh := sample.toInt_lt
  omega

theorem abs_reach_le (samplerate : ℤ) (previous sample : BitVec 16) :
    |reach samplerate previous sample| ≤ 32768 * (20000 + |samplerate|) := by
  calc
    _ ≤ |20000 * previous.toInt| + |samplerate * sample.toInt| := abs_sub _ _
    _ = 20000 * |previous.toInt| + |samplerate| * |sample.toInt| := by
      rw [abs_mul, abs_mul]
      rfl
    _ ≤ 20000 * 32768 + |samplerate| * 32768 :=
      add_le_add (mul_le_mul_of_nonneg_left (abs_toInt_le previous) (by norm_num))
        (mul_le_mul_of_nonneg_left (abs_toInt_le sample) (abs_nonneg samplerate))
    _ = _ := by ring

/-- A step fits where the reach stays below the smaller side of the table. -/
theorem fits_of_abs_reach_lt {samplerate : ℤ} {previous sample : BitVec 16}
    (hreach : |reach samplerate previous sample| < 245040 * |20000 - samplerate|) :
    Fits samplerate previous sample := by
  have hdivisor : 0 < |20000 - samplerate| := by
    have hnonneg := abs_nonneg (reach samplerate previous sample)
    omega
  have hproduct : |(20000 - samplerate) * reach samplerate previous sample| <
      245040 * (20000 - samplerate) ^ 2 := by
    calc
      _ = |20000 - samplerate| * |reach samplerate previous sample| := abs_mul _ _
      _ < |20000 - samplerate| * (245040 * |20000 - samplerate|) :=
        mul_lt_mul_of_pos_left hreach hdivisor
      _ = 245040 * |20000 - samplerate| ^ 2 := by ring
      _ = _ := by rw [sq_abs]
  have hsquare : 0 ≤ (20000 - samplerate) ^ 2 := sq_nonneg _
  rw [abs_lt] at hproduct
  constructor
  · linarith
  · exact hproduct.2

/-- Between 15282 and 26174 Hz the change from one end of the range to the other leaves the table;
outside no change does. -/
theorem forall_fits_iff (samplerate : ℤ) :
    (∀ previous sample, Fits samplerate previous sample) ↔
      samplerate ≤ 15281 ∨ 26175 ≤ samplerate := by
  constructor
  · intro hfits
    by_contra hrate
    have hextremes : (32767 : BitVec 16).toInt = 32767 ∧ (-32768 : BitVec 16).toInt = -32768 := by
      decide
    have hfall := (hfits 32767 (-32768)).2
    have hrise := (hfits (-32768) 32767).2
    simp only [reach, hextremes.1, hextremes.2] at hfall hrise
    rcases le_total samplerate 20000 with hbelow | habove
    · have hexcess := mul_nonneg (show 0 ≤ 20000 - samplerate by omega)
        (show 0 ≤ 20000 * 32767 + samplerate * 32768 - 245040 * (20000 - samplerate) by omega)
      linarith
    · have hexcess := mul_nonneg (show 0 ≤ samplerate - 20000 by omega)
        (show 0 ≤ 20000 * 32768 + samplerate * 32767 - 245040 * (samplerate - 20000) by omega)
      linarith
  · intro hrate previous sample
    have hreach := abs_reach_le samplerate previous sample
    refine fits_of_abs_reach_lt (hreach.trans_lt ?_)
    have hcases := abs_cases samplerate
    have hdivisor := abs_cases (20000 - samplerate)
    omega

/-- Whatever the first sample follows, a sequence can contain any pair. -/
theorem forall_isChain_cons_iff {α : Type*} {relation : α → α → Prop} (previous : α) :
    (∀ samples, (previous :: samples).IsChain relation) ↔ ∀ a b, relation a b := by
  constructor
  · intro hchain a b
    have hpair := hchain [a, b]
    rw [List.isChain_cons_cons, List.isChain_cons_cons] at hpair
    exact hpair.2.1
  · intro hrelation samples
    have hpairwise : (previous :: samples).Pairwise relation :=
      List.pairwise_of_forall hrelation
    exact hpairwise.isChain

/-- A sequence stays in the table exactly where each of its steps fits, and every sequence does
exactly at the rates outside 15282 to 26174 Hz. -/
theorem staysInTable_iff (modulator : Modulator δ) (samplerate : ℤ) (previous : BitVec 16) :
    (∀ samples, StaysInTable modulator samplerate previous samples ↔
      (previous :: samples).IsChain (Fits samplerate)) ∧
    ((∀ samples, StaysInTable modulator samplerate previous samples) ↔
      samplerate ≤ 15281 ∨ 26175 ≤ samplerate) := by
  have hsteps (samples : List (BitVec 16)) :
      StaysInTable modulator samplerate previous samples ↔
        (previous :: samples).IsChain (Fits samplerate) := by
    have hold : (modulator.playing samplerate previous).dataold = scaled previous := rfl
    have hrun := forall_playSamples_inTable_iff samples hold
    simpa [StaysInTable, Modulator.playing] using hrun
  refine ⟨hsteps, ?_⟩
  rw [← forall_fits_iff, ← forall_isChain_cons_iff previous]
  exact forall_congr' hsteps

/-- A modulator before its first sample. -/
def idle : Modulator Unit := { Modulator.initial () with freq := 100, instrCnt := 1024 }

/-- At 22050 Hz a first sample of full height is already outside. -/
theorem staysInTable_fails_at_22050 : ¬ StaysInTable idle 22050 0 [32767] := by
  intro hstays
  have hold : (idle.playing 22050 0).dataold = scaled 0 := rfl
  have hchain := ((forall_playSamples_inTable_iff [32767] hold).mp hstays).2
  rw [List.isChain_cons_cons] at hchain
  have hhigh : Fits 22050 0 32767 := hchain.1
  exact absurd hhigh.2 (by decide)

/-! ## The filter the comment names -/

/-- With the change added at its rate, all samples stay inside up to 48000 Hz. -/
theorem fir_inTable {samplerate : ℤ} (hpositive : 0 < samplerate) (hrate : samplerate ≤ 48000)
    (previous sample : BitVec 16) :
    InTable (intval (dval (fir samplerate (scaled previous) (scaled sample)))) := by
  have hconstant : 0 ≤ fmconstant samplerate ∧ fmconstant samplerate ≤ 12 / 5 := by
    have hlow : (0 : ℚ) ≤ samplerate := by exact_mod_cast hpositive.le
    have hhigh : (samplerate : ℚ) ≤ 48000 := by exact_mod_cast hrate
    unfold fmconstant timeconst
    constructor <;> linarith
  have hscaled (value : BitVec 16) : |scaled value| ≤ 512 / 93 := by
    have habs : |(value.toInt : ℚ)| ≤ 32768 := by exact_mod_cast abs_toInt_le value
    rw [scaled, excursion, abs_div, abs_of_pos (by norm_num : (0 : ℚ) < 6000)]
    linarith
  have hfir : |fir samplerate (scaled previous) (scaled sample)| ≤ 32 := by
    calc
      _ ≤ |scaled sample| + |(scaled sample - scaled previous) * fmconstant samplerate| :=
        abs_add_le _ _
      _ = |scaled sample| + |scaled sample - scaled previous| * fmconstant samplerate := by
        rw [abs_mul, abs_of_nonneg hconstant.1]
      _ ≤ 512 / 93 + (512 / 93 + 512 / 93) * (12 / 5) :=
        add_le_add (hscaled sample)
          (mul_le_mul ((abs_sub _ _).trans (add_le_add (hscaled sample) (hscaled previous)))
            hconstant.2 hconstant.1 (by norm_num))
      _ ≤ 32 := by norm_num
  rw [abs_le] at hfir
  have hlow : -510 ≤ intval (dval (fir samplerate (scaled previous) (scaled sample))) := by
    refine (Rounding.le_halfAway_iff (by norm_num) _).mpr ?_
    unfold dval
    push_cast
    linarith
  have hhigh : intval (dval (fir samplerate (scaled previous) (scaled sample))) ≤ 510 := by
    refine (Rounding.halfAway_le_iff (by norm_num) _).mpr ?_
    unfold dval
    push_cast
    linarith
  unfold InTable tableWords
  omega

end PiFunk.Fm
