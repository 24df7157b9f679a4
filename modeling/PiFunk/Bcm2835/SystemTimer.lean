import PiFunk.Bcm2835.Peripheral
import PiFunk.Library.SplitCounter

/-!
# The system timer

`bcm2835_st_read` reads the 64-bit microsecond counter over two registers of 32 bits: the high half,
the low half and the high half again, and the low half once more if the high half has changed.
`bcm2835_delayMicroseconds` sleeps through the most part of a long delay and waits at the counter
for the rest of it.

However fast the counter goes between the accesses, a reading lies between the values at the first
and at the last of them, so readings never go backwards, and a delay is never too short.
-/

namespace PiFunk.Bcm2835

open FuelLoop SplitCounter

variable {δ : Type*}

inductive TimerRegister where
  | CLO
  | CHI
deriving DecidableEq, Repr

section Driver

variable (peripheral : Peripheral TimerRegister δ) (mapped : Bool)

/-- `bcm2835_st_read`; `mapped` says that `bcm2835_st` is not `MAP_FAILED`. -/
def st_read (device : δ) : BitVec 64 × δ :=
  if mapped then
    let (hi, device) := peripheral.read .CHI device
    let (lo, device) := peripheral.read .CLO device
    let (high, device) := peripheral.read .CHI device
    let st : BitVec 64 := high.setWidth 64
    if st = hi.setWidth 64 then
      ((st <<< 32) + lo.setWidth 64, device)
    else
      let (low, device) := peripheral.read .CLO device
      ((st <<< 32) + low.setWidth 64, device)
  else (0, device)

def st_delay (offset_micros micros : BitVec 64) : Program Empty δ :=
  let compare := offset_micros + micros
  loop fun device ↦
    let (st, device) := st_read peripheral mapped device
    if st < compare then .again device else .exit device

/-- `bcm2835_delayMicroseconds`, with the call of `nanosleep` for a number of nanoseconds. -/
def delayMicroseconds (nanosleep : CInt → δ → δ) (micros : BitVec 64) : Program Empty δ :=
  fun fuel device ↦
    let (start, device) := st_read peripheral mapped device
    if start = 0 then .done (nanosleep (1000 * micros.setWidth 32) device)
    else
      let device :=
        if micros > 450 then nanosleep (1000 * (micros - 200).setWidth 32) device else device
      st_delay peripheral mapped start micros fuel device

end Driver

/-! ## The counter -/

/-- What the counter shows at each instant.  A register access takes one of them, and whatever
happens between two accesses is in the values. -/
structure Counter where
  value : ℕ → ℕ
  monotone : Monotone value
  lt_width : ∀ instant, value instant < 2 ^ 64

/-- The counter as a peripheral whose state is the instant. -/
def Counter.peripheral (counter : Counter) : Peripheral TimerRegister ℕ where
  read
    | .CHI, instant => (BitVec.ofNat 32 (counter.value instant / 2 ^ 32), instant + 1)
    | .CLO, instant => (BitVec.ofNat 32 (counter.value instant), instant + 1)
  write _ _ instant := instant + 1

namespace Counter

variable (counter : Counter)

theorem high_toNat (instant : ℕ) :
    (BitVec.ofNat 32 (counter.value instant / 2 ^ 32)).toNat = counter.value instant / 2 ^ 32 := by
  have hwidth := counter.lt_width instant
  rw [BitVec.toNat_ofNat]
  omega

/-- The driver puts the halves together. -/
theorem toNat_halves (high low : ℕ) :
    (((BitVec.ofNat 32 (counter.value high / 2 ^ 32)).setWidth 64 <<< 32) +
        (BitVec.ofNat 32 (counter.value low)).setWidth 64 : BitVec 64).toNat =
      combine (2 ^ 32) (counter.value high) (counter.value low) := by
  have hwidth := counter.lt_width high
  have hhigh := counter.high_toNat high
  unfold combine
  rw [BitVec.toNat_add, BitVec.toNat_shiftLeft, BitVec.toNat_setWidth, BitVec.toNat_setWidth, hhigh,
    BitVec.toNat_ofNat, Nat.shiftLeft_eq]
  omega

theorem st_read_cases (instant : ℕ) :
    (counter.value instant / 2 ^ 32 = counter.value (instant + 2) / 2 ^ 32 ∧
        (st_read counter.peripheral true instant).1.toNat =
          combine (2 ^ 32) (counter.value (instant + 2)) (counter.value (instant + 1)) ∧
        (st_read counter.peripheral true instant).2 = instant + 3) ∨
      (counter.value instant / 2 ^ 32 ≠ counter.value (instant + 2) / 2 ^ 32 ∧
        (st_read counter.peripheral true instant).1.toNat =
          combine (2 ^ 32) (counter.value (instant + 2)) (counter.value (instant + 3)) ∧
        (st_read counter.peripheral true instant).2 = instant + 4) := by
  have hsame : (BitVec.ofNat 32 (counter.value (instant + 2) / 2 ^ 32)).setWidth 64 =
      (BitVec.ofNat 32 (counter.value instant / 2 ^ 32)).setWidth 64 ↔
        counter.value instant / 2 ^ 32 = counter.value (instant + 2) / 2 ^ 32 := by
    have hfirst := counter.high_toNat instant
    have hsecond := counter.high_toNat (instant + 2)
    rw [BitVec.toNat_eq, BitVec.toNat_setWidth, BitVec.toNat_setWidth, hfirst, hsecond]
    have hwidth := counter.lt_width instant
    have hwidth' := counter.lt_width (instant + 2)
    omega
  by_cases hchanged : counter.value instant / 2 ^ 32 = counter.value (instant + 2) / 2 ^ 32
  · have hread : st_read counter.peripheral true instant =
        (((BitVec.ofNat 32 (counter.value (instant + 2) / 2 ^ 32)).setWidth 64 <<< 32) +
          (BitVec.ofNat 32 (counter.value (instant + 1))).setWidth 64, instant + 3) :=
      if_pos (hsame.mpr hchanged)
    rw [hread]
    exact .inl ⟨hchanged, counter.toNat_halves _ _, rfl⟩
  · have hread : st_read counter.peripheral true instant =
        (((BitVec.ofNat 32 (counter.value (instant + 2) / 2 ^ 32)).setWidth 64 <<< 32) +
          (BitVec.ofNat 32 (counter.value (instant + 3))).setWidth 64, instant + 4) :=
      if_neg (mt hsame.mp hchanged)
    rw [hread]
    exact .inr ⟨hchanged, counter.toNat_halves _ _, rfl⟩

/-- A reading is a value between the first access and the last. -/
theorem st_read_spec (instant : ℕ) :
    counter.value instant ≤ (st_read counter.peripheral true instant).1.toNat ∧
      (st_read counter.peripheral true instant).1.toNat ≤
        counter.value ((st_read counter.peripheral true instant).2 - 1) ∧
      instant < (st_read counter.peripheral true instant).2 ∧
      (st_read counter.peripheral true instant).2 ≤ instant + 4 := by
  have hle {early late : ℕ} (h : early ≤ late) : counter.value early ≤ counter.value late :=
    counter.monotone h
  rcases counter.st_read_cases instant with ⟨hsame, hvalue, hend⟩ | ⟨hchanged, hvalue, hend⟩
  · have hexact := combine_of_between (hle (Nat.le_succ instant))
      (hle (Nat.le_succ (instant + 1))) hsame
    rw [hvalue, hend, hexact]
    exact ⟨hle (by omega), hle (by omega), by omega, by omega⟩
  · rw [hvalue, hend]
    refine ⟨(lt_combine (by decide) (hle (by omega)) hchanged _).le, ?_, by omega, by omega⟩
    exact combine_le (hle (by omega))

end Counter

/-- A reading lies between the values of the counter at its first access and at its last one, also
when a carry into the high half happens meanwhile, and no reading that starts behind another one is
below it. -/
theorem st_read_linearizable (counter : Counter) (instant : ℕ) :
    (counter.value instant ≤ (st_read counter.peripheral true instant).1.toNat ∧
        (st_read counter.peripheral true instant).1.toNat ≤
          counter.value ((st_read counter.peripheral true instant).2 - 1)) ∧
      ∀ later ≥ (st_read counter.peripheral true instant).2,
        (st_read counter.peripheral true instant).1 ≤
          (st_read counter.peripheral true later).1 := by
  obtain ⟨hfrom, hto, _, _⟩ := counter.st_read_spec instant
  refine ⟨⟨hfrom, hto⟩, fun later hlater ↦ ?_⟩
  have hlast : (st_read counter.peripheral true instant).2 - 1 ≤ later := by omega
  exact hto.trans ((counter.monotone hlast).trans (counter.st_read_spec later).1)

/-! ## Delays -/

/-- The counter, and what `nanosleep` does: it may oversleep, be woken by a signal, or refuse a
number of nanoseconds that is no fraction of a second, but it does not go back in time. -/
structure Scheduler extends Counter where
  nanosleep : CInt → ℕ → ℕ
  le_nanosleep : ∀ nanoseconds instant, instant ≤ nanosleep nanoseconds instant

/-- The instant at which the busy wait of a delay begins. -/
def Scheduler.waitsFrom (scheduler : Scheduler) (micros : BitVec 64) (instant : ℕ) : ℕ :=
  let read := (st_read scheduler.peripheral true instant).2
  if micros > 450 then scheduler.nanosleep (1000 * (micros - 200).setWidth 32) read else read

section Delay

variable (scheduler : Scheduler)

/-- One round of the busy wait. -/
theorem st_delay_step {compare : BitVec 64} {instant reached : ℕ}
    (hreached : compare.toNat ≤ scheduler.value reached)
    (hagain : (st_read scheduler.peripheral true instant).1 < compare) :
    instant < reached ∧ (st_read scheduler.peripheral true instant).2 ≤ reached + 3 := by
  obtain ⟨hfrom, -, -, hend⟩ := scheduler.st_read_spec instant
  have hless : scheduler.value instant < scheduler.value reached :=
    (hfrom.trans_lt hagain).trans_le hreached
  have hbefore : instant < reached := scheduler.monotone.reflect_lt hless
  exact ⟨hbefore, by omega⟩

theorem delayMicroseconds_eq (micros : BitVec 64) {instant : ℕ}
    (hstart : (st_read scheduler.peripheral true instant).1 ≠ 0) (fuel : ℕ) :
    delayMicroseconds scheduler.peripheral true scheduler.nanosleep micros fuel instant =
      st_delay scheduler.peripheral true (st_read scheduler.peripheral true instant).1 micros fuel
        (scheduler.waitsFrom micros instant) :=
  if_neg hstart

/-- The busy wait ends if the counter gets as far as it waits for. -/
theorem st_delay_returns {offset_micros micros : BitVec 64} {reached : ℕ}
    (hreached : (offset_micros + micros).toNat ≤ scheduler.value reached) (first : ℕ) :
    ∃ final, Returns (st_delay scheduler.peripheral true offset_micros micros) first final := by
  have hends : ∃ final, LoopSettles (fun _ instant ↦
      if (st_read scheduler.peripheral true instant).1 < offset_micros + micros then
        (.again (st_read scheduler.peripheral true instant).2 : Iteration Empty ℕ)
      else .exit (st_read scheduler.peripheral true instant).2) first final ∧ True := by
    refine exists_loopSettles (fun _ ↦ True) _ (Nat.lt_wfRel.wf) (fun instant ↦ reached - instant)
      (fun instant _ ↦ ?_) trivial
    by_cases hagain : (st_read scheduler.peripheral true instant).1 < offset_micros + micros
    · have hbefore := (st_delay_step scheduler hreached hagain).1
      have hafter := (scheduler.st_read_spec instant).2.2.1
      exact .inr ⟨_, .of_eq fun _ ↦ if_pos hagain, trivial, Nat.sub_lt_sub_left hbefore hafter⟩
    · exact .inl ⟨_, .of_eq fun _ ↦ if_neg hagain, trivial⟩
  obtain ⟨final, hsettles, -⟩ := hends
  obtain ⟨fuel, hdone⟩ := hsettles.settles
  exact ⟨final, fuel, hdone fuel le_rfl⟩

/-- It ends nowhere else, and with a reading that is late enough. -/
theorem le_of_st_delay_returns {offset_micros micros : BitVec 64} {first final : ℕ}
    (hreturns : Returns (st_delay scheduler.peripheral true offset_micros micros) first final) :
    (offset_micros + micros).toNat ≤ scheduler.value final := by
  obtain ⟨fuel, hdone⟩ := hreturns
  refine loop_done_of_invariant (fun _ ↦ True)
    (fun final ↦ (offset_micros + micros).toNat ≤ scheduler.value final) (fun _ _ _ _ ↦ trivial)
    (fun instant next _ hexit ↦ ?_) trivial hdone
  dsimp only at hexit
  split_ifs at hexit with hagain
  cases hexit
  obtain ⟨-, hto, -, -⟩ := scheduler.st_read_spec instant
  exact (BitVec.not_lt.mp hagain).trans (hto.trans (scheduler.monotone (Nat.sub_le _ 1)))

/-- Once the counter is there, two readings are enough. -/
theorem st_delay_final_le {offset_micros micros : BitVec 64} {first final reached : ℕ}
    (hreached : (offset_micros + micros).toNat ≤ scheduler.value reached)
    (hreturns : Returns (st_delay scheduler.peripheral true offset_micros micros) first final) :
    final ≤ max first (reached + 3) + 4 := by
  obtain ⟨fuel, hdone⟩ := hreturns
  refine loop_done_of_invariant (fun instant ↦ instant ≤ max first (reached + 3))
    (fun final ↦ final ≤ max first (reached + 3) + 4) (fun instant next hinstant hagain ↦ ?_)
    (fun instant next hinstant hexit ↦ ?_) (le_max_left _ _) hdone
  · dsimp only at hagain
    split_ifs at hagain with hless
    cases hagain
    exact (st_delay_step scheduler hreached hless).2.trans (le_max_right _ _)
  · dsimp only at hexit
    split_ifs at hexit
    cases hexit
    exact (scheduler.st_read_spec instant).2.2.2.trans (Nat.add_le_add_right hinstant 4)

/-- A delay whose first reading is not zero: it returns when the counter gets as far as the reading
plus the microseconds, and never otherwise; it does not return before the counter has gone on by as
many microseconds since the call, whatever `nanosleep` did; and once the counter is there, it takes
two readings at most. -/
theorem delayMicroseconds_spec (micros : BitVec 64) (instant : ℕ)
    (hstart : (st_read scheduler.peripheral true instant).1 ≠ 0)
    (hfits : (st_read scheduler.peripheral true instant).1.toNat + micros.toNat < 2 ^ 64) :
    ((∃ final, Returns (delayMicroseconds scheduler.peripheral true scheduler.nanosleep micros)
        instant final) ↔
      ∃ reached, (st_read scheduler.peripheral true instant).1.toNat + micros.toNat ≤
        scheduler.value reached) ∧
    ∀ final, Returns (delayMicroseconds scheduler.peripheral true scheduler.nanosleep micros)
        instant final →
      scheduler.value instant + micros.toNat ≤ scheduler.value final ∧
      ∀ reached, (st_read scheduler.peripheral true instant).1.toNat + micros.toNat ≤
          scheduler.value reached →
        final ≤ max (scheduler.waitsFrom micros instant) (reached + 3) + 4 := by
  have hcompare : ((st_read scheduler.peripheral true instant).1 + micros).toNat =
      (st_read scheduler.peripheral true instant).1.toNat + micros.toNat := by
    rw [BitVec.toNat_add, Nat.mod_eq_of_lt hfits]
  have hdelay (final : ℕ) :
      Returns (delayMicroseconds scheduler.peripheral true scheduler.nanosleep micros) instant
          final ↔
        Returns (st_delay scheduler.peripheral true (st_read scheduler.peripheral true instant).1
          micros) (scheduler.waitsFrom micros instant) final :=
    exists_congr fun fuel ↦ by rw [delayMicroseconds_eq scheduler micros hstart]
  simp only [hdelay, ← hcompare]
  refine ⟨⟨?_, ?_⟩, fun final hreturns ↦ ⟨?_, fun reached hreached ↦ ?_⟩⟩
  · rintro ⟨final, hreturns⟩
    exact ⟨final, le_of_st_delay_returns scheduler hreturns⟩
  · rintro ⟨reached, hreached⟩
    exact st_delay_returns scheduler hreached _
  · have hfrom := (scheduler.st_read_spec instant).1
    have hlate := le_of_st_delay_returns scheduler hreturns
    omega
  · exact st_delay_final_le scheduler hreached hreturns

/-- A counter that goes on by one at every instant, and sleeps that are broken off at once. -/
def restless : Scheduler where
  value instant := min (instant + 1000) (2 ^ 63)
  monotone := fun _ _ hle ↦ min_le_min_right _ (Nat.add_le_add_right hle 1000)
  lt_width _ := (min_le_right _ _).trans_lt (by decide)
  nanosleep _ instant := instant
  le_nanosleep _ instant := le_rfl

/-- A delay of half a millisecond that hardly slept. -/
theorem delayMicroseconds_spec_restless :
    (∃ final, Returns (delayMicroseconds restless.peripheral true restless.nanosleep 500) 0 final) ∧
      ∀ final, Returns (delayMicroseconds restless.peripheral true restless.nanosleep 500) 0 final →
        1500 ≤ restless.value final := by
  obtain ⟨hreturns, hfinal⟩ :=
    delayMicroseconds_spec restless 500 0 (by decide) (by decide)
  exact ⟨hreturns.mpr ⟨501, by decide⟩, fun final hdone ↦ (hfinal final hdone).1⟩

end Delay

end PiFunk.Bcm2835
