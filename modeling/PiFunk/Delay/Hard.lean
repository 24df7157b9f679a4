import Mathlib.Order.Bounds.Basic
import PiFunk.Delay
import PiFunk.Library.Loop

/-!
# The busy wait

`delayMicrosecondsHard` reads the clock, adds its count to the reading with the `timeradd` of the C
library, and goes on reading until `timercmp` no longer finds the reading before the end.

The sum of the two times is the sum of their totals, and the comparison of normalised times is that
of their totals, so the wait ends with the first reading that is late enough.
-/

namespace PiFunk.Delay

open FuelLoop SplitCount

/-- `timeradd` of the C library. -/
def timeradd (first second : Timeval) : Timeval :=
  let result : Timeval :=
    ⟨first.tv_sec + second.tv_sec, first.tv_usec + second.tv_usec⟩
  if result.tv_usec ≥ 1000000 then ⟨result.tv_sec + 1, result.tv_usec - 1000000⟩ else result

/-- The macro `timercmp (a, b, CMP)`. -/
def timercmp (first second : Timeval) (CMP : ℤ → ℤ → Bool) : Bool :=
  if first.tv_sec = second.tv_sec then CMP first.tv_usec second.tv_usec
  else CMP first.tv_sec second.tv_sec

/-- The microseconds are below one second. -/
def Timeval.Normalised (time : Timeval) : Prop := 0 ≤ time.tv_usec ∧ time.tv_usec < 1000000

/-- What `gettimeofday` returns at its successive calls; the clock may even go back. -/
structure Readings where
  reading : ℕ → Timeval
  normalised : ∀ index, (reading index).Normalised

/-- The variable `tNow`, and how often the clock has been read. -/
structure Wait where
  tNow : Timeval
  taken : ℕ
deriving DecidableEq, Repr

/-- `gettimeofday (&tNow, 0)`. -/
def gettimeofday (readings : Readings) (wait : Wait) : Wait :=
  ⟨readings.reading wait.taken, wait.taken + 1⟩

def delayMicrosecondsHard (readings : Readings) (howLong : CInt) : Program Empty Wait :=
  fun fuel wait ↦
    let start := gettimeofday readings wait
    let tEnd := timeradd start.tNow (tLong howLong)
    whileLoop (fun w ↦ timercmp w.tNow tEnd fun left right ↦ left < right)
      (fun w ↦ .done (gettimeofday readings w)) fuel start

/-! ## Times as split counts -/

/-- The seconds and the microseconds. -/
def Timeval.parts (time : Timeval) : Parts := ⟨time.tv_sec, time.tv_usec⟩

theorem Timeval.Normalised.parts {time : Timeval} (hnormalised : time.Normalised) :
    time.parts.Normalised 1000000 :=
  ⟨hnormalised.1, hnormalised.2⟩

theorem tLong_normalised (howLong : CInt) : (tLong howLong).Normalised := by
  have hsplit : ((tLong howLong).parts).Normalised 1000000 :=
    split_normalised (by decide) howLong.toNat
  exact ⟨hsplit.nonneg, hsplit.lt_base⟩

theorem timeradd_parts (first second : Timeval) :
    (timeradd first second).parts = add 1000000 first.parts second.parts := by
  unfold timeradd add Timeval.parts
  dsimp only
  split_ifs <;> rfl

/-- The sum is the sum of the totals, and one carry normalises it. -/
theorem timeradd_micros (first second : Timeval) :
    (timeradd first second).micros = first.micros + second.micros := by
  calc
    (timeradd first second).micros = (add 1000000 first.parts second.parts).total 1000000 := by
      rw [← timeradd_parts]
      rfl
    _ = first.micros + second.micros := add_total 1000000 first.parts second.parts

theorem timeradd_normalised {first second : Timeval} (hfirst : first.Normalised)
    (hsecond : second.Normalised) : (timeradd first second).Normalised := by
  have hadd := add_normalised hfirst.parts hsecond.parts
  rw [← timeradd_parts] at hadd
  exact ⟨hadd.nonneg, hadd.lt_base⟩

theorem timercmp_lt_iff {first second : Timeval} (hfirst : first.Normalised)
    (hsecond : second.Normalised) :
    timercmp first second (fun left right ↦ left < right) = true ↔
      first.micros < second.micros :=
  compare_lt_iff hfirst.parts hsecond.parts

/-! ## The wait -/

section Wait

variable (readings : Readings) (howLong : CInt)

theorem gettimeofday_iterate (wait : Wait) (count : ℕ) :
    (gettimeofday readings)^[count] (gettimeofday readings wait) =
      ⟨readings.reading (wait.taken + count), wait.taken + count + 1⟩ := by
  induction count with
  | zero => rfl
  | succ count ih =>
    rw [Function.iterate_succ_apply', ih]
    rfl

/-- The readings of a call that are late enough: the first reading of the call is the start. -/
def lateReadings (wait : Wait) : Set ℕ :=
  {index | wait.taken ≤ index ∧
    (readings.reading wait.taken).micros + howLong.toNat ≤ (readings.reading index).micros}

/-- The loop goes on as long as the readings are too early. -/
theorem guard_iff (wait : Wait) (count : ℕ) :
    timercmp ((gettimeofday readings)^[count] (gettimeofday readings wait)).tNow
        (timeradd (gettimeofday readings wait).tNow (tLong howLong))
        (fun left right ↦ left < right) = true ↔
      wait.taken + count ∉ lateReadings readings howLong wait := by
  have hend := timeradd_normalised (readings.normalised wait.taken) (tLong_normalised howLong)
  have hcompare := timercmp_lt_iff (readings.normalised (wait.taken + count)) hend
  rw [timeradd_micros, tLong_micros] at hcompare
  rw [gettimeofday_iterate]
  simpa [lateReadings, gettimeofday] using hcompare

theorem isLeast_lateReadings_iff (wait : Wait) (count : ℕ) :
    IsLeast (lateReadings readings howLong wait) (wait.taken + count) ↔
      (∀ k < count, wait.taken + k ∉ lateReadings readings howLong wait) ∧
        wait.taken + count ∈ lateReadings readings howLong wait := by
  constructor
  · intro hleast
    refine ⟨fun k hk hlate ↦ ?_, hleast.1⟩
    have hle := hleast.2 hlate
    omega
  · intro hfirst
    refine ⟨hfirst.2, fun index hlate ↦ ?_⟩
    have hstart : wait.taken ≤ index := hlate.1
    by_contra hearlier
    refine hfirst.1 (index - wait.taken) (by omega) ?_
    rwa [Nat.add_sub_cancel' hstart]

/-- `delayMicrosecondsHard` returns exactly with the first reading that is late enough, and when
there is none it waits for ever. -/
theorem delayMicrosecondsHard_first_late_reading (wait final : Wait) :
    (Returns (delayMicrosecondsHard readings howLong) wait final ↔
      ∃ index, IsLeast (lateReadings readings howLong wait) index ∧
        final = ⟨readings.reading index, index + 1⟩) ∧
    (lateReadings readings howLong wait = ∅ →
      Diverges (delayMicrosecondsHard readings howLong) wait) := by
  constructor
  · refine (returns_whileLoop_step_iff _ final).trans ?_
    simp only [← Bool.not_eq_true, guard_iff, not_not]
    simp only [gettimeofday_iterate]
    constructor
    · intro hcount
      obtain ⟨count, hrounds, hleave, hfinal⟩ := hcount
      exact ⟨wait.taken + count,
        (isLeast_lateReadings_iff readings howLong wait count).mpr ⟨hrounds, hleave⟩, hfinal⟩
    · intro hindex
      obtain ⟨index, hleast, hfinal⟩ := hindex
      obtain ⟨count, rfl⟩ := Nat.exists_eq_add_of_le hleast.1.1
      obtain ⟨hrounds, hleave⟩ := (isLeast_lateReadings_iff readings howLong wait count).mp hleast
      exact ⟨count, hrounds, hleave, hfinal⟩
  · intro hnone
    apply whileLoop_step_diverges
    intro count
    rw [guard_iff, hnone]
    exact Set.notMem_empty _

end Wait

/-- A clock that goes on by ten microseconds from one reading to the next. -/
def ticking : Readings where
  reading index := ⟨index / 100000, index % 100000 * 10⟩
  normalised index := by
    unfold Timeval.Normalised
    dsimp only
    omega

/-- On it, 25 microseconds are over with the fourth reading. -/
theorem delayMicrosecondsHard_ticking :
    Returns (delayMicrosecondsHard ticking 25) ⟨⟨0, 0⟩, 0⟩ ⟨⟨0, 30⟩, 4⟩ := by
  have hlate : 3 ∈ lateReadings ticking 25 ⟨⟨0, 0⟩, 0⟩ := by
    unfold lateReadings
    decide
  refine (delayMicrosecondsHard_first_late_reading ticking 25 _ _).1.mpr ⟨3, ⟨hlate, ?_⟩, rfl⟩
  rintro index ⟨-, hbehind⟩
  have htime : (25 : ℤ) ≤ index / 100000 * 1000000 + index % 100000 * 10 := hbehind
  omega

end PiFunk.Delay
