import PiFunk.CTypes
import PiFunk.Library.SplitCount

/-!
# The two microsecond delays

`usleep2` hands its count to `nanosleep` in the single field `tv_nsec` of a `timespec`, and
`delayMicrosecondsHard` splits its count into the seconds and microseconds of a `timeval` that it
adds to the current time.  A delay that the system accepts lasts for the duration it requests.

The two requests agree below one second.  From there on the single field either is out of range or
has wrapped around.
-/

namespace PiFunk.Delay

/-- `struct timespec`; `time_t` and `long` have 32 bits. -/
structure Timespec where
  tv_sec : CInt
  tv_nsec : CInt
deriving DecidableEq, Repr

structure Timeval where
  tv_sec : ℤ
  tv_usec : ℤ
deriving DecidableEq, Repr

/-- A time or duration in microseconds. -/
def Timeval.micros (time : Timeval) : ℤ := time.tv_sec * 1000000 + time.tv_usec

/-- `nanosleep` fails with `EINVAL` unless the nanoseconds are below one second. -/
def Timespec.Normalised (time : Timespec) : Prop :=
  0 ≤ time.tv_sec.toInt ∧ 0 ≤ time.tv_nsec.toInt ∧ time.tv_nsec.toInt < 1000000000

instance (time : Timespec) : Decidable time.Normalised :=
  inferInstanceAs (Decidable (_ ∧ _))

/-- The nanoseconds `nanosleep` waits: none when it rejects its argument. -/
def nanosleep (time : Timespec) : ℕ :=
  if time.Normalised then time.tv_sec.toNat * 1000000000 + time.tv_nsec.toNat else 0

/-- The `timespec` that `usleep2 (us)` passes to `nanosleep`; the product is a 32-bit `long`. -/
def usleep2 (us : CInt) : Timespec := ⟨0, us * 1000⟩

/-- The `tLong` that `delayMicrosecondsHard (howLong)` adds to the current time. -/
def tLong (howLong : CInt) : Timeval := ⟨howLong.toNat / 1000000, howLong.toNat % 1000000⟩

theorem tLong_micros (howLong : CInt) : (tLong howLong).micros = howLong.toNat :=
  SplitCount.split_total 1000000 howLong.toNat

/-- Below one second the product does not wrap. -/
theorem usleep2_tv_nsec {us : CInt} (hsmall : us.toNat < 1000000) :
    (usleep2 us).tv_nsec.toNat = us.toNat * 1000 := by
  have hproduct : (us * 1000 : CInt).toNat = us.toNat * 1000 % 2 ^ 32 := BitVec.toNat_mul us 1000
  rw [usleep2, hproduct]
  omega

theorem usleep2_tv_nsec_toInt {us : CInt} (hsmall : us.toNat < 1000000) :
    (usleep2 us).tv_nsec.toInt = us.toNat * 1000 := by
  have hnsec := usleep2_tv_nsec hsmall
  rw [BitVec.toInt_eq_toNat_of_lt (by omega), hnsec]
  rfl

/-- Below one second the `timespec` is normalised. -/
theorem usleep2_normalised {us : CInt} (hsmall : us.toNat < 1000000) :
    (usleep2 us).Normalised := by
  have hnsec := usleep2_tv_nsec_toInt hsmall
  unfold Timespec.Normalised
  rw [hnsec]
  refine ⟨le_refl (0 : ℤ), ?_, ?_⟩
  · omega
  · omega

theorem nanosleep_usleep2 {us : CInt} (hpos : 0 ≤ us.toInt) (hbound : us.toInt < 1000000) :
    nanosleep (usleep2 us) = us.toNat * 1000 := by
  have hsmall : us.toNat < 1000000 := by
    have hvalue := BitVec.toInt_eq_toNat_cond us
    split at hvalue
    · omega
    · omega
  have hsec : (usleep2 us).tv_sec.toNat = 0 := rfl
  rw [nanosleep, if_pos (usleep2_normalised hsmall), usleep2_tv_nsec hsmall, hsec, Nat.zero_mul,
    Nat.zero_add]

/-! ## The agreement of the two delays -/

/-- The nanoseconds a `timespec` denotes. -/
def Timespec.nanos (time : Timespec) : ℤ :=
  time.tv_sec.toInt * 1000000000 + time.tv_nsec.toInt

@[simp]
theorem usleep2_nanos (us : CInt) : (usleep2 us).nanos = (usleep2 us).tv_nsec.toInt := by
  simp [Timespec.nanos, usleep2]

/-- The `timespec` of `usleep2` is normalised and denotes the duration of the `timeval` of
`delayMicrosecondsHard` exactly for counts below one second. -/
theorem usleep2_agrees_iff (us : CInt) :
    ((usleep2 us).Normalised ∧ (usleep2 us).nanos = (tLong us).micros * 1000) ↔
      us.toNat < 1000000 := by
  rw [tLong_micros, usleep2_nanos]
  constructor
  · intro hagrees
    -- a normalised field holds less than one second
    have hless := hagrees.1.2.2
    rw [hagrees.2] at hless
    omega
  · intro hsmall
    exact ⟨usleep2_normalised hsmall, usleep2_tv_nsec_toInt hsmall⟩

/-- One second is rejected by `nanosleep`. -/
theorem usleep2_rejected_second :
    ¬ ((usleep2 1000000).Normalised ∧
      (usleep2 1000000).nanos = (tLong 1000000).micros * 1000) := by
  decide

end PiFunk.Delay
