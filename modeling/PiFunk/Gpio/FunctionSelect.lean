import PiFunk.Clock.Control
import PiFunk.Library.BitField

/-!
# The function select registers

Each function select register holds ten fields of three bits, one for each of ten pins, and two
spare bits above them.  A pin is configured in two steps: `INP_GPIO` clears its field, and
`OUT_GPIO` or `SET_GPIO_ALT` sets the bits of a code in it.  `terminate` makes GPIO 4 an output
with constants of its own.
-/

namespace PiFunk.Gpio

open BitField LastWrite

/-- The registers behind the pointer `gpio`, by their index. -/
abbrev Registers := ℕ → CInt

/-- `*(gpio+((g)/10)) &= ~(7<<(((g)%10)*3))`. -/
def INP_GPIO (g : ℕ) (gpio : Registers) : Registers :=
  Function.update gpio (g / 10) (gpio (g / 10) &&& ~~~(7#32 <<< (g % 10 * 3)))

/-- `*(gpio+((g)/10)) |= (1<<(((g)%10)*3))`. -/
def OUT_GPIO (g : ℕ) (gpio : Registers) : Registers :=
  Function.update gpio (g / 10) (gpio (g / 10) ||| (1#32 <<< (g % 10 * 3)))

/-- `(a)<=3?(a)+4:(a)==4?3:2`. -/
def altCode (a : ℕ) : ℕ := if a ≤ 3 then a + 4 else if a = 4 then 3 else 2

/-- `*(gpio+(((g)/10))) |= (((a)<=3?(a)+4:(a)==4?3:2)<<(((g)%10)*3))`. -/
def SET_GPIO_ALT (g a : ℕ) (gpio : Registers) : Registers :=
  Function.update gpio (g / 10)
    (gpio (g / 10) ||| (BitVec.ofNat 32 (altCode a) <<< (g % 10 * 3)))

def GPFSEL0 : ℕ := 0x00 / 4

/-! ## Configurations -/

/-- What a pin is configured for. -/
inductive PinFunction where
  /-- `OUT_GPIO`. -/
  | output
  /-- `SET_GPIO_ALT`, for one of the six alternate functions. -/
  | alt (a : Fin 6)
deriving DecidableEq, Repr

structure Configuration where
  pin : ℕ
  function : PinFunction
deriving DecidableEq, Repr

/-- The setup macros as they are to be used: `INP_GPIO` before one of the other two. -/
def Configuration.apply (gpio : Registers) (configuration : Configuration) : Registers :=
  match configuration.function with
  | .output => OUT_GPIO configuration.pin <| INP_GPIO configuration.pin gpio
  | .alt a => SET_GPIO_ALT configuration.pin a <| INP_GPIO configuration.pin gpio

def configure (configurations : List Configuration) (gpio : Registers) : Registers :=
  configurations.foldl Configuration.apply gpio

/-- The codes of the functions: 1 for an output, and 4, 5, 6, 7, 3, 2 for the alternate ones. -/
def PinFunction.code : PinFunction → BitVec 3
  | .output => 1
  | .alt a => [4, 5, 6, 7, 3, 2].get a

def pinField (gpio : Registers) (pin : ℕ) : BitVec 3 := field 3 (pin % 10) (gpio (pin / 10))

/-- The two bits of a register that belong to no pin. -/
def spare (gpio : Registers) (register : ℕ) : BitVec 2 := (gpio register).extractLsb' 30 2

/-! ## One configuration -/

theorem mask_eq (slot : ℕ) : mask 32 3 slot = 7#32 <<< (slot * 3) := rfl

theorem altCode_eq (a : Fin 6) :
    BitVec.ofNat 32 (altCode a) = (PinFunction.alt a).code.setWidth 32 := by
  revert a
  decide

/-- A configuration writes one field of one register. -/
theorem Configuration.apply_eq (gpio : Registers) (configuration : Configuration) :
    configuration.apply gpio = Function.update gpio (configuration.pin / 10)
      (put (configuration.pin % 10) configuration.function.code
        (clear 3 (configuration.pin % 10) (gpio (configuration.pin / 10)))) := by
  obtain ⟨pin, function⟩ := configuration
  cases function with
  | output =>
    simp only [apply, OUT_GPIO, INP_GPIO, Function.update_self, Function.update_idem, put,
      clear, mask_eq]
    rfl
  | alt a =>
    simp only [apply, SET_GPIO_ALT, INP_GPIO, Function.update_self, Function.update_idem, put,
      clear, mask_eq, altCode_eq]

theorem slot_fits (pin : ℕ) : pin % 10 * 3 + 3 ≤ 30 := by
  omega

/-- What a configuration writes to the field of a pin. -/
def Configuration.written (pin : ℕ) (configuration : Configuration) : Option (BitVec 3) :=
  if configuration.pin = pin then some configuration.function.code else none

/-- The step lemma: the field of the configured pin gets the code, and any other one is kept. -/
theorem pinField_apply (pin : ℕ) (gpio : Registers) (configuration : Configuration) :
    pinField (configuration.apply gpio) pin =
      (configuration.written pin).getD (pinField gpio pin) := by
  have hfits := slot_fits pin
  rw [pinField, Configuration.apply_eq, Configuration.written]
  by_cases hpin : configuration.pin = pin
  · rw [if_pos hpin, hpin, Function.update_self, field_put_clear_self (by omega)]
    rfl
  · rw [if_neg hpin, Option.getD_none, pinField]
    by_cases hregister : pin / 10 = configuration.pin / 10
    · have hslot : pin % 10 ≠ configuration.pin % 10 := by omega
      rw [hregister, Function.update_self, field_put_clear_of_ne hslot (by omega)]
    · rw [Function.update_of_ne hregister]

theorem spare_apply (register : ℕ) (gpio : Registers) (configuration : Configuration) :
    spare (configuration.apply gpio) register = spare gpio register := by
  rw [spare, Configuration.apply_eq, spare]
  by_cases hregister : register = configuration.pin / 10
  · rw [hregister, Function.update_self,
      extractLsb'_put_clear (slot_fits configuration.pin) (by decide)]
  · rw [Function.update_of_ne hregister]

/-- Configurations of two pins commute, in one register or in two. -/
theorem apply_comm (gpio : Registers) {first second : Configuration}
    (hpins : first.pin ≠ second.pin) :
    second.apply (first.apply gpio) = first.apply (second.apply gpio) := by
  simp only [Configuration.apply_eq]
  by_cases hregister : first.pin / 10 = second.pin / 10
  · have hslot : second.pin % 10 ≠ first.pin % 10 := by omega
    rw [hregister, Function.update_self, Function.update_self, Function.update_idem,
      Function.update_idem, put_clear_comm hslot]
  · rw [Function.update_of_ne (Ne.symm hregister), Function.update_of_ne hregister,
      Function.update_comm (Ne.symm hregister)]

/-! ## A sequence of configurations -/

/-- Every field holds the code of the last configuration of its pin, or what it held before. -/
theorem pinField_configure (configurations : List Configuration) (gpio : Registers) (pin : ℕ) :
    pinField (configure configurations gpio) pin =
      (lastSome (Configuration.written pin) configurations).getD (pinField gpio pin) :=
  foldl_read Configuration.apply (pinField · pin) (Configuration.written pin)
    (pinField_apply pin) configurations gpio

theorem spare_configure (configurations : List Configuration) (gpio : Registers) (register : ℕ) :
    spare (configure configurations gpio) register = spare gpio register := by
  induction configurations generalizing gpio with
  | nil => rfl
  | cons configuration rest ih => exact (ih _).trans (spare_apply register gpio configuration)

/-- The registers after `terminate` has made GPIO 4 an output. -/
def terminated (peripherals : Clock.Peripherals) (num : CInt) (gpio : Registers) : Registers :=
  Function.update gpio GPFSEL0 (Clock.terminate num 0
    { peripherals with GPFSEL0 := gpio GPFSEL0, clk_reg := true, gpio_reg := true, vAddr := true
      }).state.GPFSEL0

/-- Its constants are those of the macros for pin 4. -/
theorem terminated_eq (peripherals : Clock.Peripherals) (num : CInt) (gpio : Registers) :
    terminated peripherals num gpio = (gpio |> INP_GPIO 4 |> OUT_GPIO 4) := by
  have hcell : terminated peripherals num gpio =
      Function.update gpio 0 ((gpio 0 &&& ~~~(7#32 <<< 12)) ||| (1#32 <<< 12)) := by
    cases hdma : peripherals.dma_reg with
    | false => simp [terminated, Clock.terminate, hdma, FuelLoop.Outcome.state, GPFSEL0]
    | true => simp [terminated, Clock.terminate, hdma, FuelLoop.Outcome.state, GPFSEL0]
  rw [hcell]
  unfold OUT_GPIO INP_GPIO
  simp

/-- What a sequence of configurations is to do to the fields and to the spare bits. -/
structure SetsFunctions (configurations : List Configuration) (before after : Registers) :
    Prop where
  configured : ∀ earlier configuration later,
    configurations = earlier ++ configuration :: later →
    (∀ other ∈ later, other.pin ≠ configuration.pin) →
    pinField after configuration.pin = configuration.function.code
  unconfigured : ∀ pin, (∀ configuration ∈ configurations, configuration.pin ≠ pin) →
    pinField after pin = pinField before pin
  spare : ∀ register, spare after register = spare before register

theorem configure_setsFunctions (configurations : List Configuration) (gpio : Registers) :
    SetsFunctions configurations gpio (configure configurations gpio) := by
  refine ⟨?_, ?_, spare_configure configurations gpio⟩
  · intro earlier configuration later hsplit hlater
    have hlast : lastSome (Configuration.written configuration.pin) configurations =
        some configuration.function.code := by
      rw [lastSome_eq_some_iff]
      exact ⟨earlier, configuration, later, hsplit, if_pos rfl,
        fun other hother ↦ if_neg (hlater other hother)⟩
    rw [pinField_configure, hlast]
    rfl
  · intro pin hpin
    have hnone : lastSome (Configuration.written pin) configurations = none := by
      rw [lastSome_eq_none_iff]
      exact fun configuration hmem ↦ if_neg (hpin configuration hmem)
    rw [pinField_configure, hnone]
    rfl

/-- Every sequence sets the fields of its pins and nothing else, the order matters only for
configurations of one pin, and `terminate` performs one of them. -/
theorem configure_spec :
    (∀ configurations gpio, SetsFunctions configurations gpio (configure configurations gpio)) ∧
    (∀ gpio first second, Configuration.pin first ≠ Configuration.pin second →
      second.apply (first.apply gpio) = first.apply (second.apply gpio)) ∧
    ∀ peripherals num gpio,
      terminated peripherals num gpio = (gpio |> INP_GPIO 4 |> OUT_GPIO 4) :=
  ⟨configure_setsFunctions, fun gpio _ _ hpins ↦ apply_comm gpio hpins, terminated_eq⟩

end PiFunk.Gpio
