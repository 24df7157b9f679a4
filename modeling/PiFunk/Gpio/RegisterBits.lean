import PiFunk.Transmit.Operations

/-!
# The bit macros

`SETBIT` and `CLRBIT` are named after `|=` and `&=` by the comments behind them, but expand to
expressions with `||` and `==`.  Such an expression has a value, which the statement drops, and
stores nothing.  So `setup_fm`, which is to select the clock function of GPIO 4, leaves the
function select register as it was.
-/

namespace PiFunk.Gpio

open FuelLoop

/-- `ACCESS(PERIPH_VIRT_BASE) || 1<<bit`: the value of the expression, and the register after it. -/
def SETBIT (bit : ℕ) (register : CInt) : Bool × CInt :=
  (register != 0 || 1#32 <<< bit != 0, register)

/-- `ACCESS(PERIPH_VIRT_BASE) == ~(1<<bit)`: the value of the expression, and the register after
it. -/
def CLRBIT (bit : ℕ) (register : CInt) : Bool × CInt :=
  (register == ~~~(1#32 <<< bit), register)

/-- The three statements of `setup_fm` that are to select the function. -/
def selectFunction (register : CInt) : CInt :=
  let (_value, register) := SETBIT 14 register
  let (_value, register) := CLRBIT 13 register
  let (_value, register) := CLRBIT 12 register
  register

/-- What `setup_fm` does to `GPFSEL0`, where `mmap` returns `mapped`. -/
def setup_fm (mapped register : CInt) : Outcome Transmit.Ended CInt :=
  if mapped.toInt = -1 then .halted .exit register else .done (selectFunction register)

/-- It is what the steps of the operation do to the register. -/
theorem setup_fm_eq {δ : Type*} (mapped : CInt) (fuel : ℕ) (process : Transmit.Process δ)
    (peripherals : Clock.Peripherals) :
    setup_fm mapped (process.steps.foldl Transmit.Step.apply peripherals).GPFSEL0 =
      (Transmit.setup_fm mapped fuel process).map id
        fun p ↦ (p.steps.foldl Transmit.Step.apply peripherals).GPFSEL0 := by
  by_cases hmapped : mapped.toInt = -1
  · simp [setup_fm, Transmit.setup_fm, Transmit.Process.perform, hmapped, Outcome.map,
      Transmit.Step.apply]
  · simp [setup_fm, Transmit.setup_fm, Transmit.Process.perform, hmapped, Outcome.map,
      Transmit.Step.apply, selectFunction, SETBIT, CLRBIT]

/-! ## What the macros are for -/

/-- The bit is set, and all others are as before. -/
def Sets (bit : ℕ) (before after : CInt) : Prop :=
  after.getLsbD bit = true ∧ ∀ other ≠ bit, after.getLsbD other = before.getLsbD other

/-- The bit is clear, and all others are as before. -/
def Clears (bit : ℕ) (before after : CInt) : Prop :=
  after.getLsbD bit = false ∧ ∀ other ≠ bit, after.getLsbD other = before.getLsbD other

/-- Bits 14:12 hold the code of `GPCLK0`, and all others are as before. -/
def SelectsClock (before after : CInt) : Prop :=
  after.extractLsb' 12 3 = 0b100#3 ∧
    ∀ other, other < 12 ∨ 14 < other → after.getLsbD other = before.getLsbD other

/-- The operators that the comments name do what the macros are for. -/
theorem sets_or {bit : ℕ} (hbit : bit < 32) (register : CInt) :
    Sets bit register (register ||| 1#32 <<< bit) := by
  constructor
  · simp [hbit]
  · intro other hother
    simp
    omega

theorem clears_and {bit : ℕ} (hbit : bit < 32) (register : CInt) :
    Clears bit register (register &&& ~~~(1#32 <<< bit)) := by
  constructor
  · simp [hbit]
  · intro other hother
    by_cases hwidth : other < 32
    · simp [hwidth]
      omega
    · simp [BitVec.getLsbD_of_ge register other (Nat.not_lt.mp hwidth)]

theorem selectsClock_of_steps {register set cleared after : CInt} (hset : Sets 14 register set)
    (hcleared : Clears 13 set cleared) (hafter : Clears 12 cleared after) :
    SelectsClock register after := by
  constructor
  · apply BitVec.eq_of_getLsbD_eq
    intro bit hbit
    rw [BitVec.getLsbD_extractLsb', decide_eq_true hbit, Bool.true_and]
    obtain rfl | rfl | rfl : bit = 0 ∨ bit = 1 ∨ bit = 2 := by omega
    · exact hafter.1
    · exact (hafter.2 13 (by decide)).trans hcleared.1
    · exact ((hafter.2 14 (by decide)).trans (hcleared.2 14 (by decide))).trans hset.1
  · intro other hother
    calc
      after.getLsbD other = cleared.getLsbD other := hafter.2 other (by omega)
      _ = set.getLsbD other := hcleared.2 other (by omega)
      _ = register.getLsbD other := hset.2 other (by omega)

/-- With these operators the three statements would select the function. -/
theorem selectsClock_of_assignments (register : CInt) :
    SelectsClock register
      ((register ||| 1#32 <<< 14) &&& ~~~(1#32 <<< 13) &&& ~~~(1#32 <<< 12)) :=
  selectsClock_of_steps (sets_or (by decide) _) (clears_and (by decide) _)
    (clears_and (by decide) _)

/-! ## What they do -/

/-- Nothing is stored. -/
theorem selectFunction_eq (register : CInt) : selectFunction register = register := rfl

theorem sets_self_iff (bit : ℕ) (register : CInt) :
    Sets bit register register ↔ register.getLsbD bit = true :=
  and_iff_left fun _ _ ↦ rfl

theorem clears_self_iff (bit : ℕ) (register : CInt) :
    Clears bit register register ↔ register.getLsbD bit = false :=
  and_iff_left fun _ _ ↦ rfl

theorem selectsClock_self_iff (register : CInt) :
    SelectsClock register register ↔ register.extractLsb' 12 3 = 0b100#3 :=
  and_iff_left fun _ _ ↦ rfl

/-- `setup_fm` leaves the function of GPIO 4 selected, if it returns. -/
def LeavesClockSelected (mapped register : CInt) : Prop :=
  ∀ after, setup_fm mapped register = .done after → SelectsClock register after

/-- The function is selected after `setup_fm` exactly where it was before, unless `mmap` has failed
and the process has ended; a macro sets or clears exactly a bit that is set or clear already. -/
theorem setup_fm_selects_iff (mapped register : CInt) (bit : ℕ) :
    (LeavesClockSelected mapped register ↔
      mapped.toInt = -1 ∨ register.extractLsb' 12 3 = 0b100#3) ∧
    (Sets bit register (SETBIT bit register).2 ↔ register.getLsbD bit = true) ∧
    (Clears bit register (CLRBIT bit register).2 ↔ register.getLsbD bit = false) := by
  refine ⟨?_, sets_self_iff bit register, clears_self_iff bit register⟩
  rw [← selectsClock_self_iff]
  by_cases hmapped : mapped.toInt = -1
  · simp [LeavesClockSelected, setup_fm, hmapped]
  · simp [LeavesClockSelected, setup_fm, hmapped, selectFunction_eq]

/-- A register of zeros keeps GPIO 4 an input. -/
theorem setup_fm_selects_nothing : ¬ LeavesClockSelected 0x20000000 0 := by
  intro hleaves
  have hselects := hleaves 0 (by decide)
  exact absurd hselects.1 (by decide)

end PiFunk.Gpio
