import PiFunk.CTypes
import PiFunk.Library.Rounding

/-!
# The numbers `play_fm` computes from one sample

The float expressions are read as exact rational ones.  A conversion to `int` truncates, `round`
rounds half away from zero, and the integer division of `clocksPerSample` truncates before the
product is taken.  The pre-emphasis filter has no value at the rate where its denominator is zero.
-/

namespace PiFunk.Fm

def excursion : ℚ := 6000

/-- `50.0E-6`. -/
def timeconst : ℚ := 1 / 20000

/-- `round` of the C library. -/
def roundHalfAway (x : ℚ) : ℤ := if 0 ≤ x then ⌊x + 1 / 2⌋ else ⌈x - 1 / 2⌉

theorem roundHalfAway_eq (x : ℚ) : roundHalfAway x = Rounding.halfAway x := rfl

/-- `22050/samplerate*1400`. -/
def clocksPerSample (samplerate : ℤ) : ℤ := Int.tdiv 22050 samplerate * 1400

/-- `(float) (*data)/excursion`. -/
def scaled (data : BitVec 16) : ℚ := data.toInt / excursion

def fmconstant (samplerate : ℤ) : ℚ := samplerate * timeconst

/-- `datanew + (dataold-datanew)/(1-fmconstant)`. -/
def preemphasis (samplerate : ℤ) (dataold datanew : ℚ) : Option ℚ :=
  if 1 - fmconstant samplerate = 0 then none
  else some (datanew + (dataold - datanew) / (1 - fmconstant samplerate))

/-- `sample*12.50`. -/
def dval (sample : ℚ) : ℚ := sample * (25 / 2)

def intval (dval : ℚ) : ℤ := roundHalfAway dval

/-- `(dval-intval)/2+0.5`. -/
def frac (dval : ℚ) : ℚ := (dval - intval dval) / 2 + 1 / 2

def fracval (clocksPerSample : ℤ) (dval : ℚ) : ℤ := truncate (frac dval * clocksPerSample)

/-- `(int) ((500.000/freq) * (float) (1<<12) + 0.5)`, where an `int` holds the value. -/
def centerFreqDivider (freq : ℚ) : ℤ := truncate (500 / freq * (1 <<< 12 : ℕ) + 1 / 2)

end PiFunk.Fm
