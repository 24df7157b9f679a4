import PiFunk.RpiGpio.PyGpio

/-!
# What a program does to the pins

Every pin that the module has set up has the function it was set up with and a pull; one that was
set up and has been cleaned up is an input without a pull, and every other one is as the program
found it.  The
program cannot tell from the pins or from the exceptions which chip it runs on.  Both follow from
what the few changes that the calls are made of do.
-/

namespace PiFunk.RpiGpio

/-- Two results with the same exception, and modules in the relation. -/
def Both (Q : Module → Module → Prop) (first second : Result) : Prop :=
  first.1 = second.1 ∧ Q first.2 second.2

/-- A relation of two modules that the changes of `setup` keep, made to both. -/
structure Configures (Q : Module → Module → Prop) : Prop where
  settings : ∀ {m n}, Q m n → m.toSettings = n.toSettings
  mapped : ∀ {m n}, Q m n → Q { m with module_setup := true } { n with module_setup := true }
  setup : ∀ {m n gpio direction pud} initial, gpio < 54 →
    direction = INPUT ∨ direction = OUTPUT ∧ pud = PUD_OFF → m.module_setup = true → Q m n →
    Q (m.setup_one direction pud initial gpio).2 (n.setup_one direction pud initial gpio).2

/-- One that those of `output` keep. -/
structure Drives (Q : Module → Module → Prop) : Prop where
  settings : ∀ {m n}, Q m n → m.toSettings = n.toSettings
  output : ∀ {m n gpio} value, gpio < 54 → m.gpio_direction gpio = OUTPUT → Q m n →
    Q { m with block := output_gpio gpio value m.block }
      { n with block := output_gpio gpio value n.block }

/-- One that those of `setmode` and `cleanup` keep. -/
structure Releases (Q : Module → Module → Prop) : Prop where
  settings : ∀ {m n}, Q m n → m.toSettings = n.toSettings
  mode : ∀ {m n} new_mode, Q m n →
    Q { m with gpio_mode := new_mode } { n with gpio_mode := new_mode }
  release : ∀ {m n gpio}, gpio < 54 → Q m n → Q (m.cleanup_one gpio) (n.cleanup_one gpio)

/-- One that every change keeps. -/
structure Preserved (Q : Module → Module → Prop) : Prop extends Configures Q, Drives Q, Releases Q

/-! ## Channels -/

theorem pin_to_gpio_lt (p1_revision index : ℕ) :
    ((pin_to_gpio p1_revision).getD index (-1)).toNat < 54 := by
  have hsmall : ∀ gpio ∈ pin_to_gpio p1_revision, gpio < 54 := by
    unfold pin_to_gpio
    split
    · decide
    · split
      · decide
      · decide
  rw [List.getD_eq_getElem?_getD]
  cases hget : (pin_to_gpio p1_revision)[index]? with
  | none => decide
  | some gpio =>
    have hlt := hsmall gpio (List.mem_of_getElem? hget)
    rw [Option.getD_some]
    omega

/-- A channel is one of the 54 pins. -/
theorem lt_of_get_gpio_number {settings : Settings} {channel : CInt} {gpio : ℕ}
    (hgpio : settings.get_gpio_number channel = .ok gpio) : gpio < 54 := by
  unfold Settings.get_gpio_number at hgpio
  split at hgpio
  · cases hgpio
  · rename_i hmode
    split at hgpio
    · cases hgpio
    · rename_i hrange
      split at hgpio
      · dsimp only at hgpio
        split at hgpio
        · cases hgpio
        · cases hgpio
          exact pin_to_gpio_lt settings.p1_revision channel.toNat
      · rename_i hboard
        cases hgpio
        have hbcm : settings.gpio_mode = BCM := by
          by_contra hbcm
          exact hmode ⟨hboard, hbcm⟩
        have hvalue := BitVec.toInt_eq_toNat_cond channel
        simp only [hbcm, true_and, not_or, not_lt] at hrange
        obtain ⟨⟨hzero, hlast⟩, -⟩ := hrange
        split at hvalue
        · omega
        · omega

variable {Q : Module → Module → Prop} {m n : Module}

theorem both_each {α : Type*} {body : α → Module → Result}
    (hbody : ∀ first {m n}, Q m n → Both Q (body first m) (body first n)) (list : List α)
    (hQ : Q m n) : Both Q (each body list m) (each body list n) := by
  induction list generalizing m n with
  | nil => exact ⟨rfl, hQ⟩
  | cons first rest ih =>
    obtain ⟨hexception, hnext⟩ := hbody first hQ
    rw [each, each]
    cases hm : body first m with
    | mk exception m' =>
      cases hn : body first n with
      | mk exception' n' =>
        rw [hm, hn] at hexception hnext
        obtain rfl : exception = exception' := hexception
        cases exception with
        | error error => exact ⟨rfl, hnext⟩
        | ok value => exact ih hnext

theorem both_onChannel (hsettings : ∀ {m n}, Q m n → m.toSettings = n.toSettings)
    {body : ℕ → Module → Result}
    (hbody : ∀ gpio < 54, ∀ {m n}, Q m n → Both Q (body gpio m) (body gpio n)) (text : String)
    (object : PyObject) (hQ : Q m n) :
    Both Q (onChannel text body object m) (onChannel text body object n) := by
  unfold onChannel
  rw [← hsettings hQ]
  cases hnumber : object.number text >>= m.get_gpio_number with
  | error error => exact ⟨rfl, hQ⟩
  | ok gpio =>
    have hlt : gpio < 54 := by
      cases hobject : object.number text with
      | error error =>
        rw [hobject] at hnumber
        cases hnumber
      | ok channel =>
        rw [hobject] at hnumber
        exact lt_of_get_gpio_number hnumber
    exact hbody gpio hlt hQ

theorem both_onChannels (hsettings : ∀ {m n}, Q m n → m.toSettings = n.toSettings)
    {body : ℕ → Module → Result}
    (hbody : ∀ gpio < 54, ∀ {m n}, Q m n → Both Q (body gpio m) (body gpio n))
    (channels : PyArgument) (hQ : Q m n) :
    Both Q (onChannels body channels m) (onChannels body channels n) := by
  cases channels with
  | one object => exact both_onChannel hsettings hbody _ object hQ
  | list objects =>
    exact both_each (fun object {_ _} ↦ both_onChannel hsettings hbody _ object) objects hQ

/-! ## Calls -/

theorem Releases.setmode (hkeep : Releases Q) (new_mode : CInt) (hQ : Q m n) :
    Both Q (m.setmode new_mode) (n.setmode new_mode) := by
  have hmode := hkeep.mode new_mode hQ
  rw [← hkeep.settings hQ] at hmode
  unfold Module.setmode
  rw [← hkeep.settings hQ]
  split
  · exact ⟨rfl, hQ⟩
  · split
    · exact ⟨rfl, hQ⟩
    · split
      · exact ⟨rfl, hQ⟩
      · exact ⟨rfl, hmode⟩

/-- The memory is mapped, or there is an exception. -/
theorem Configures.mmap_gpio_mem (hkeep : Configures Q) (result : SetupResult) (hQ : Q m n) :
    Both Q (m.mmap_gpio_mem result) (n.mmap_gpio_mem result) ∧
      ((m.mmap_gpio_mem result).1 = .ok () → (m.mmap_gpio_mem result).2.module_setup = true) := by
  have hmapped := hkeep.mapped hQ
  rw [← hkeep.settings hQ] at hmapped
  unfold Module.mmap_gpio_mem
  rw [← hkeep.settings hQ]
  split
  · rename_i hsetup
    exact ⟨⟨rfl, hQ⟩, fun _ ↦ hsetup⟩
  · cases result with
    | SETUP_OK => exact ⟨⟨rfl, hmapped⟩, fun _ ↦ rfl⟩
    | SETUP_DEVMEM_FAIL => exact ⟨⟨rfl, hQ⟩, fun hok ↦ by cases hok⟩
    | SETUP_MALLOC_FAIL => exact ⟨⟨rfl, hQ⟩, fun hok ↦ by cases hok⟩
    | SETUP_MMAP_FAIL => exact ⟨⟨rfl, hQ⟩, fun hok ↦ by cases hok⟩
    | SETUP_CPUINFO_FAIL => exact ⟨⟨rfl, hQ⟩, fun hok ↦ by cases hok⟩
    | SETUP_NOT_RPI_FAIL => exact ⟨⟨rfl, hQ⟩, fun hok ↦ by cases hok⟩

theorem Configures.setup_ones (hkeep : Configures Q) {direction pud : CInt} (initial : CInt)
    (hdirection : direction = INPUT ∨ direction = OUTPUT ∧ pud = PUD_OFF)
    (channels : PyArgument) (hQ : Q m n) (hsetup : m.module_setup = true) :
    Both Q (onChannels (Module.setup_one direction pud initial) channels m)
      (onChannels (Module.setup_one direction pud initial) channels n) := by
  have hboth : Both (fun m n ↦ Q m n ∧ m.module_setup = true)
      (onChannels (Module.setup_one direction pud initial) channels m)
      (onChannels (Module.setup_one direction pud initial) channels n) := by
    refine both_onChannels (fun hQ ↦ hkeep.settings hQ.1) ?_ channels ⟨hQ, hsetup⟩
    intro gpio hgpio m n hQ
    exact ⟨rfl, hkeep.setup initial hgpio hdirection hQ.2 hQ.1, hQ.2⟩
  exact ⟨hboth.1, hboth.2.1⟩

theorem Configures.setup_channel (hkeep : Configures Q) (result : SetupResult)
    (channels : PyArgument) (direction pud initial : CInt) (hQ : Q m n) :
    Both Q (m.setup_channel result channels direction pud initial)
      (n.setup_channel result channels direction pud initial) := by
  obtain ⟨⟨hexception, hnext⟩, hmapped⟩ := hkeep.mmap_gpio_mem result hQ
  unfold Module.setup_channel
  split
  · exact ⟨rfl, hQ⟩
  · cases hm : m.mmap_gpio_mem result with
    | mk exception m' =>
      cases hn : n.mmap_gpio_mem result with
      | mk exception' n' =>
        rw [hm, hn] at hexception hnext
        rw [hm] at hmapped
        obtain rfl : exception = exception' := hexception
        cases exception with
        | error error => exact ⟨rfl, hnext⟩
        | ok value =>
          dsimp only
          split
          · exact ⟨rfl, hnext⟩
          · rename_i hdirection
            split
            · exact ⟨rfl, hnext⟩
            · split
              · exact ⟨rfl, hnext⟩
              · have hchecked : direction = INPUT ∨ direction = OUTPUT ∧
                    (if direction = OUTPUT then PUD_OFF + PY_PUD_CONST_OFFSET else pud) -
                      PY_PUD_CONST_OFFSET = PUD_OFF := by
                  by_cases hinput : direction = INPUT
                  · exact .inl hinput
                  · have houtput : direction = OUTPUT := by
                      by_contra houtput
                      exact hdirection ⟨hinput, houtput⟩
                    rw [if_pos houtput]
                    exact .inr ⟨houtput, rfl⟩
                generalize (if direction = OUTPUT then PUD_OFF + PY_PUD_CONST_OFFSET else pud) -
                  PY_PUD_CONST_OFFSET = converted at hchecked ⊢
                split
                · exact ⟨rfl, hnext⟩
                · exact hkeep.setup_ones initial hchecked channels hnext (hmapped rfl)

theorem Drives.output_one (hkeep : Drives Q) (value : CInt) (gpio : ℕ) (hgpio : gpio < 54)
    {m n : Module} (hQ : Q m n) :
    Both Q (Module.output_one value gpio m) (Module.output_one value gpio n) := by
  unfold Module.output_one
  by_cases hdirection : m.gpio_direction gpio = OUTPUT
  · have houtput := hkeep.output value hgpio hdirection hQ
    rw [← hkeep.settings hQ] at houtput ⊢
    rw [if_neg (not_not.mpr hdirection), if_neg (not_not.mpr hdirection)]
    split
    · exact ⟨rfl, hQ⟩
    · exact ⟨rfl, houtput⟩
  · rw [← hkeep.settings hQ, if_pos hdirection, if_pos hdirection]
    exact ⟨rfl, hQ⟩

theorem Drives.output_pair (hkeep : Drives Q) (pair : PyObject × PyObject) {m n : Module}
    (hQ : Q m n) : Both Q (Module.output_pair pair m) (Module.output_pair pair n) := by
  unfold Module.output_pair
  split
  · exact ⟨rfl, hQ⟩
  · split
    · exact ⟨rfl, hQ⟩
    · rename_i value hvalue
      exact both_onChannel hkeep.settings (hkeep.output_one value) _ _ hQ

theorem Drives.output_call (hkeep : Drives Q) (channels values : PyArgument) (hQ : Q m n) :
    Both Q (m.output channels values) (n.output channels values) := by
  unfold Module.output
  split
  · exact ⟨rfl, hQ⟩
  · cases values with
    | one object =>
      dsimp only
      split
      · exact ⟨rfl, hQ⟩
      · rename_i value hvalue
        exact both_onChannels hkeep.settings (hkeep.output_one value) channels hQ
    | list values =>
      cases channels with
      | one object => exact ⟨rfl, hQ⟩
      | list channels =>
        dsimp only
        split
        · exact ⟨rfl, hQ⟩
        · exact both_each hkeep.output_pair _ hQ

theorem Releases.releases (hkeep : Releases Q) (pins : List ℕ) (hpins : ∀ gpio ∈ pins, gpio < 54)
    (hQ : Q m n) :
    Q (pins.foldl (fun board gpio ↦ board.cleanup_one gpio) m)
      (pins.foldl (fun board gpio ↦ board.cleanup_one gpio) n) := by
  induction pins generalizing m n with
  | nil => exact hQ
  | cons gpio rest ih =>
    exact ih (fun other hmem ↦ hpins other (List.mem_cons_of_mem gpio hmem))
      (hkeep.release (hpins gpio List.mem_cons_self) hQ)

theorem Releases.cleanup_all (hkeep : Releases Q) (hQ : Q m n) :
    Q m.cleanup_all n.cleanup_all :=
  hkeep.mode MODE_UNKNOWN (hkeep.releases (List.range 54) (fun _ ↦ List.mem_range.mp) hQ)

theorem Releases.cleanup (hkeep : Releases Q) (channels : PyArgument) (hQ : Q m n) :
    Both Q (m.cleanup channels) (n.cleanup channels) := by
  have hones : Both Q (onChannels (fun gpio board ↦ (.ok (), board.cleanup_one gpio)) channels m)
      (onChannels (fun gpio board ↦ (.ok (), board.cleanup_one gpio)) channels n) :=
    both_onChannels hkeep.settings
      (fun gpio hgpio {_ _} hQ ↦ ⟨rfl, hkeep.release hgpio hQ⟩) channels hQ
  unfold Module.cleanup
  rw [← hkeep.settings hQ]
  split
  · exact ⟨rfl, hQ⟩
  · split
    · split
      · split
        · exact ⟨rfl, hkeep.cleanup_all hQ⟩
        · exact hones
      · exact hones
    · exact ⟨rfl, hQ⟩

/-! ## Runs -/

theorem Preserved.step (hkeep : Preserved Q) (call : PinCall) (hQ : Q m n) :
    Both Q (m.step call) (n.step call) := by
  cases call with
  | setmode new_mode => exact hkeep.toReleases.setmode new_mode hQ
  | setup result channels direction pud initial =>
    exact hkeep.toConfigures.setup_channel result channels direction pud initial hQ
  | output channels values => exact hkeep.toDrives.output_call channels values hQ
  | cleanup channels => exact hkeep.toReleases.cleanup channels hQ

theorem Preserved.run (hkeep : Preserved Q) (calls : List PinCall) (hQ : Q m n) :
    (m.run calls).1 = (n.run calls).1 ∧ Q (m.run calls).2 (n.run calls).2 := by
  induction calls generalizing m n with
  | nil => exact ⟨rfl, hQ⟩
  | cons call rest ih =>
    obtain ⟨hexception, hnext⟩ := hkeep.step call hQ
    obtain ⟨hexceptions, hlast⟩ := ih hnext
    refine ⟨?_, hlast⟩
    dsimp only [Module.run]
    rw [hexception, hexceptions]

/-! ## What the changes do to the pins -/

/-- The pin after `setup_one`. -/
def Pin.setup (pin : Pin) (direction pud initial : CInt) : Pin where
  function := functionOf direction
  pull := some (Pull.of pud)
  level := if direction = OUTPUT ∧ (initial = LOW ∨ initial = HIGH) then decide (initial ≠ LOW)
    else pin.level

theorem pin_setup_one (hchip : m.block.Chip) {gpio : ℕ} (hgpio : gpio < 54)
    (direction pud initial : CInt) :
    (m.setup_one direction pud initial gpio).2.block.Chip ∧
    ∀ other < 54, (m.setup_one direction pud initial gpio).2.block.pin other =
      if other = gpio then (m.block.pin gpio).setup direction pud initial
      else m.block.pin other := by
  unfold Module.setup_one Pin.setup
  by_cases hdrive : direction = OUTPUT ∧ (initial = LOW ∨ initial = HIGH)
  · obtain ⟨houtput, hlevel⟩ := pin_output_gpio hchip hgpio initial
    obtain ⟨hsetup, hpin⟩ := pin_setup_gpio houtput hgpio direction pud
    simp only [if_pos hdrive]
    refine ⟨hsetup, fun other hother ↦ ?_⟩
    rw [hpin other hother, hlevel other hother, hlevel gpio hgpio, if_pos rfl]
    split
    · rfl
    · rfl
  · obtain ⟨hsetup, hpin⟩ := pin_setup_gpio hchip hgpio direction pud
    simp only [if_neg hdrive]
    exact ⟨hsetup, hpin⟩

theorem pin_cleanup_one (hchip : m.block.Chip) {gpio : ℕ} (hgpio : gpio < 54) :
    (m.cleanup_one gpio).block.Chip ∧
    ∀ other < 54, (m.cleanup_one gpio).block.pin other =
      if other = gpio ∧ m.gpio_direction gpio ≠ -1 then
        { m.block.pin gpio with function := functionOf INPUT, pull := some (Pull.of PUD_OFF) }
      else m.block.pin other := by
  unfold Module.cleanup_one
  split
  · rename_i hdirection
    obtain ⟨hsetup, hpin⟩ := pin_setup_gpio hchip hgpio INPUT PUD_OFF
    refine ⟨hsetup, fun other hother ↦ ?_⟩
    rw [hpin other hother]
    simp only [hdirection, and_true, ne_eq, not_false_eq_true]
  · rename_i hdirection
    refine ⟨hchip, fun other _ ↦ ?_⟩
    rw [if_neg fun hpin ↦ hdirection hpin.2]

theorem direction_cleanup_one (board : Module) (gpio : ℕ) :
    (board.cleanup_one gpio).gpio_direction = Function.update board.gpio_direction gpio (-1) := by
  unfold Module.cleanup_one
  split
  · rfl
  · rename_i hdirection
    rw [Function.update_eq_self_iff.mpr (not_not.mp hdirection).symm]

/-! ## The chip -/

/-- The same module on two chips, whose pins are alike. -/
structure Same (m n : Module) : Prop where
  settings : m.toSettings = n.toSettings
  left : m.block.Chip
  right : n.block.Chip
  pins : ∀ gpio < 54, m.block.pin gpio = n.block.pin gpio

theorem preserved_same : Preserved Same where
  settings := Same.settings
  mapped := fun hsame ↦ { hsame with
    settings := by rw [hsame.settings] }
  mode := fun new_mode hsame ↦ { hsame with
    settings := by rw [hsame.settings] }
  setup := by
    intro m n gpio direction pud initial hgpio _ _ hsame
    obtain ⟨hleft, hm⟩ := pin_setup_one hsame.left hgpio direction pud initial
    obtain ⟨hright, hn⟩ := pin_setup_one hsame.right hgpio direction pud initial
    refine ⟨?_, hleft, hright, fun other hother ↦ ?_⟩
    · dsimp only [Module.setup_one]
      rw [hsame.settings]
    · rw [hm other hother, hn other hother, hsame.pins gpio hgpio, hsame.pins other hother]
  output := by
    intro m n gpio value hgpio _ hsame
    obtain ⟨hleft, hm⟩ := pin_output_gpio hsame.left hgpio value
    obtain ⟨hright, hn⟩ := pin_output_gpio hsame.right hgpio value
    refine ⟨hsame.settings, hleft, hright, fun other hother ↦ ?_⟩
    dsimp only
    rw [hm other hother, hn other hother, hsame.pins gpio hgpio, hsame.pins other hother]
  release := by
    intro m n gpio hgpio hsame
    obtain ⟨hleft, hm⟩ := pin_cleanup_one hsame.left hgpio
    obtain ⟨hright, hn⟩ := pin_cleanup_one hsame.right hgpio
    refine ⟨?_, hleft, hright, fun other hother ↦ ?_⟩
    · unfold Module.cleanup_one
      rw [hsame.settings]
      split
      · rfl
      · exact hsame.settings
    · rw [hm other hother, hn other hother, hsame.pins gpio hgpio, hsame.pins other hother,
        hsame.settings]

/-- On two chips whose pins are alike every program gets the same exceptions, and leaves the pins
alike. -/
theorem chips_alike {first second : Block} (hfirst : first.Chip) (hsecond : second.Chip)
    (hpins : ∀ gpio < 54, first.pin gpio = second.pin gpio) (p1_revision : ℕ)
    (calls : List PinCall) :
    ((Module.imported p1_revision first).run calls).1 =
        ((Module.imported p1_revision second).run calls).1 ∧
      ∀ gpio < 54, ((Module.imported p1_revision first).run calls).2.block.pin gpio =
        ((Module.imported p1_revision second).run calls).2.block.pin gpio := by
  have hsame : Same (Module.imported p1_revision first) (Module.imported p1_revision second) :=
    ⟨rfl, hfirst, hsecond, hpins⟩
  obtain ⟨hexceptions, hlast⟩ := preserved_same.run calls hsame
  exact ⟨hexceptions, hlast.pins⟩

/-- An older chip, and a BCM2711, after a reset. -/
def bcm2835 : Block :=
  ⟨fun offset ↦ if offset = PULLUPDN_OFFSET_2711_3 then 0x6770696f else 0, fun _ ↦ false, fun _ ↦ 0⟩

def bcm2711 : Block := ⟨fun _ ↦ 0, fun _ ↦ false, fun _ ↦ 0⟩

/-- A button between pin 11 and ground, and a light on pin 12. -/
def button_and_light : List PinCall :=
  [.setmode BOARD, .setup .SETUP_OK (.one (.int 11)) INPUT (PUD_UP + PY_PUD_CONST_OFFSET) (-1),
    .setup .SETUP_OK (.list [.int 12]) OUTPUT (PUD_OFF + PY_PUD_CONST_OFFSET) HIGH]

theorem chip_bcm2835 : bcm2835.Chip := .inl (by decide)

theorem chip_bcm2711 : bcm2711.Chip := .inr (by decide)

theorem chips_alike_button :
    ((Module.imported 3 bcm2835).run button_and_light).1 =
        ((Module.imported 3 bcm2711).run button_and_light).1 ∧
      ∀ gpio < 54, ((Module.imported 3 bcm2835).run button_and_light).2.block.pin gpio =
        ((Module.imported 3 bcm2711).run button_and_light).2.block.pin gpio :=
  chips_alike chip_bcm2835 chip_bcm2711 (by decide) 3 button_and_light

/-! ## The pins that were set up -/

/-- A pin that is set up is as the module remembers it. -/
def Remembered (pin : Pin) (direction : CInt) : Prop :=
  direction = OUTPUT ∧ pin.function = 1 ∧ pin.pull = some .off ∨
    direction = INPUT ∧ pin.function = 0 ∧ pin.pull.isSome

/-- The pins that are set up are as the module remembers them. -/
structure Held (board : Module) : Prop where
  chip : board.block.Chip
  pins : ∀ gpio < 54, board.gpio_direction gpio ≠ -1 →
    Remembered (board.block.pin gpio) (board.gpio_direction gpio)
  mapped : ∀ gpio, board.gpio_direction gpio ≠ -1 → board.module_setup = true

variable {board : Module} {gpio : ℕ}

theorem Held.setup_one (hheld : Held board) {direction pud : CInt} (initial : CInt)
    (hgpio : gpio < 54) (hchecked : direction = INPUT ∨ direction = OUTPUT ∧ pud = PUD_OFF)
    (hsetup : board.module_setup = true) :
    Held (board.setup_one direction pud initial gpio).2 := by
  obtain ⟨hchip, hpin⟩ := pin_setup_one hheld.chip hgpio direction pud initial
  refine ⟨hchip, fun other hother hset ↦ ?_, fun _ _ ↦ hsetup⟩
  rw [hpin other hother]
  dsimp only [Module.setup_one] at hset ⊢
  by_cases heq : other = gpio
  · rw [if_pos heq, heq, Function.update_self]
    rcases hchecked with rfl | ⟨rfl, rfl⟩
    · exact .inr ⟨rfl, rfl, rfl⟩
    · exact .inl ⟨rfl, rfl, rfl⟩
  · rw [Function.update_of_ne heq] at hset ⊢
    rw [if_neg heq]
    exact hheld.pins other hother hset

theorem Held.output (hheld : Held board) (value : CInt) (hgpio : gpio < 54)
    (hdirection : board.gpio_direction gpio = OUTPUT) :
    Held { board with block := output_gpio gpio value board.block } := by
  obtain ⟨hchip, hpin⟩ := pin_output_gpio hheld.chip hgpio value
  refine ⟨hchip, fun other hother hset ↦ ?_, hheld.mapped⟩
  dsimp only at hset ⊢
  have hbefore := hheld.pins other hother hset
  rw [hpin other hother]
  by_cases heq : other = gpio
  · rw [heq, hdirection] at hbefore
    rw [if_pos heq, heq, hdirection]
    rcases hbefore with ⟨-, hfunction, hpull⟩ | ⟨hinput, -⟩
    · exact .inl ⟨rfl, hfunction, hpull⟩
    · exact absurd hinput (by decide)
  · rw [if_neg heq]
    exact hbefore

theorem Held.cleanup_one (hheld : Held board) (hgpio : gpio < 54) :
    Held (board.cleanup_one gpio) := by
  obtain ⟨hchip, hpin⟩ := pin_cleanup_one hheld.chip hgpio
  have hsame : (board.cleanup_one gpio).module_setup = board.module_setup := by
    unfold Module.cleanup_one
    split
    · rfl
    · rfl
  have hleft : ∀ other, (board.cleanup_one gpio).gpio_direction other ≠ -1 →
      other ≠ gpio ∧ (board.cleanup_one gpio).gpio_direction other =
        board.gpio_direction other := by
    intro other hset
    rw [direction_cleanup_one] at hset ⊢
    have hother : other ≠ gpio := by
      rintro rfl
      rw [Function.update_self] at hset
      exact hset rfl
    exact ⟨hother, Function.update_of_ne hother _ _⟩
  refine ⟨hchip, fun other hother hset ↦ ?_, fun other hset ↦ ?_⟩
  · obtain ⟨hne, hdirection⟩ := hleft other hset
    rw [hdirection] at hset ⊢
    rw [hpin other hother, if_neg fun hpin ↦ hne hpin.1]
    exact hheld.pins other hother hset
  · obtain ⟨-, hdirection⟩ := hleft other hset
    rw [hdirection] at hset
    exact hsame.trans (hheld.mapped other hset)

theorem preserved_held : Preserved fun m n ↦ m = n ∧ Held m where
  settings := by
    rintro m n ⟨rfl, -⟩
    rfl
  mapped := by
    rintro m n ⟨rfl, hheld⟩
    exact ⟨rfl, hheld.chip, hheld.pins, fun _ _ ↦ rfl⟩
  mode := by
    rintro m n new_mode ⟨rfl, hheld⟩
    exact ⟨rfl, hheld.chip, hheld.pins, hheld.mapped⟩
  setup := by
    rintro m n gpio direction pud initial hgpio hchecked hsetup ⟨rfl, hheld⟩
    exact ⟨rfl, hheld.setup_one initial hgpio hchecked hsetup⟩
  output := by
    rintro m n gpio value hgpio hdirection ⟨rfl, hheld⟩
    exact ⟨rfl, hheld.output value hgpio hdirection⟩
  release := by
    rintro m n gpio hgpio ⟨rfl, hheld⟩
    exact ⟨rfl, hheld.cleanup_one hgpio⟩

/-- After the loop of `cleanup` its pins are not set up, and the others are as before. -/
theorem direction_releases (pins : List ℕ) (board : Module) (other : ℕ) :
    (pins.foldl (fun board gpio ↦ board.cleanup_one gpio) board).gpio_direction other =
      if other ∈ pins then -1 else board.gpio_direction other := by
  induction pins generalizing board with
  | nil => rw [if_neg List.not_mem_nil, List.foldl_nil]
  | cons gpio rest ih =>
    rw [List.foldl_cons, ih, direction_cleanup_one]
    by_cases heq : other = gpio
    · rw [heq, Function.update_self, ite_self, if_pos List.mem_cons_self]
    · rw [Function.update_of_ne heq]
      simp only [List.mem_cons, heq, false_or]

theorem direction_cleanup_all (board : Module) (hgpio : gpio < 54) :
    board.cleanup_all.gpio_direction gpio = -1 := by
  have hmem : gpio ∈ List.range 54 := List.mem_range.mpr hgpio
  unfold Module.cleanup_all
  generalize List.range 54 = pins at hmem ⊢
  exact (direction_releases pins board gpio).trans (if_pos hmem)

/-- `cleanup` without a channel leaves no pin set up. -/
theorem Held.cleanup (hheld : Held board) :
    ∃ cleaned : Module, board.cleanup (.one (.int (-666))) = (.ok (), cleaned) ∧
      ∀ gpio < 54, cleaned.gpio_direction gpio = -1 := by
  by_cases hsetup : board.module_setup = true
  · have hall : board.cleanup (.one (.int (-666))) = (.ok (), board.cleanup_all) := by
      rw [Module.cleanup]
      dsimp only [PyArgument.check, PyObject.number, Except.map]
      rw [if_pos hsetup, if_pos rfl]
    exact ⟨board.cleanup_all, hall, fun gpio hgpio ↦ direction_cleanup_all board hgpio⟩
  · have hnone : board.cleanup (.one (.int (-666))) = (.ok (), board) := by
      rw [Module.cleanup]
      dsimp only [PyArgument.check, PyObject.number, Except.map]
      rw [if_neg hsetup]
    refine ⟨board, hnone, fun gpio _ ↦ ?_⟩
    exact not_not.mp fun hset ↦ hsetup (hheld.mapped gpio hset)

/-! ## Pins that are left alone -/

/-- The pin is like this unless it is set up. -/
structure Spared (gpio : ℕ) (pin : Pin) (board : Module) : Prop where
  chip : board.block.Chip
  spared : board.gpio_direction gpio = -1 → board.block.pin gpio = pin

/-- The pin is like this, and not set up. -/
structure Unset (gpio : ℕ) (pin : Pin) (board : Module) : Prop extends Spared gpio pin board where
  unset : board.gpio_direction gpio = -1

variable {pin : Pin}

theorem configures_spared (hgpio : gpio < 54) (pin : Pin) :
    Configures fun m n ↦ m = n ∧ Spared gpio pin m where
  settings := by
    rintro m n ⟨rfl, -⟩
    rfl
  mapped := by
    rintro m n ⟨rfl, hspared⟩
    exact ⟨rfl, hspared.chip, hspared.spared⟩
  setup := by
    rintro m n other direction pud initial hother hchecked - ⟨rfl, hspared⟩
    obtain ⟨hchip, hpin⟩ := pin_setup_one hspared.chip hother direction pud initial
    refine ⟨rfl, hchip, fun hunset ↦ ?_⟩
    dsimp only [Module.setup_one] at hunset
    by_cases heq : gpio = other
    · rw [heq, Function.update_self] at hunset
      rcases hchecked with rfl | ⟨rfl, -⟩
      · exact absurd hunset (by decide)
      · exact absurd hunset (by decide)
    · rw [Function.update_of_ne heq] at hunset
      rw [hpin gpio hgpio, if_neg heq]
      exact hspared.spared hunset

theorem drives_spared (hgpio : gpio < 54) (pin : Pin) :
    Drives fun m n ↦ m = n ∧ Spared gpio pin m where
  settings := by
    rintro m n ⟨rfl, -⟩
    rfl
  output := by
    rintro m n other value hother hdirection ⟨rfl, hspared⟩
    obtain ⟨hchip, hpin⟩ := pin_output_gpio hspared.chip hother value
    refine ⟨rfl, hchip, fun hunset ↦ ?_⟩
    have hne : gpio ≠ other := by
      rintro rfl
      exact absurd (hdirection.symm.trans hunset) (by decide)
    rw [hpin gpio hgpio, if_neg hne]
    exact hspared.spared hunset

theorem releases_unset (hgpio : gpio < 54) (pin : Pin) :
    Releases fun m n ↦ m = n ∧ Unset gpio pin m where
  settings := by
    rintro m n ⟨rfl, -⟩
    rfl
  mode := by
    rintro m n new_mode ⟨rfl, hunset⟩
    exact ⟨rfl, ⟨hunset.chip, hunset.spared⟩, hunset.unset⟩
  release := by
    rintro m n other hother ⟨rfl, hunset⟩
    obtain ⟨hchip, hpin⟩ := pin_cleanup_one hunset.chip hother
    have hdirection : (m.cleanup_one other).gpio_direction gpio = -1 := by
      rw [direction_cleanup_one, Function.update_apply, hunset.unset, ite_self]
    refine ⟨rfl, ⟨hchip, fun _ ↦ ?_⟩, hdirection⟩
    have hkept : ¬(gpio = other ∧ m.gpio_direction other ≠ -1) := by
      rintro ⟨rfl, hset⟩
      exact hset hunset.unset
    rw [hpin gpio hgpio, if_neg hkept]
    exact hunset.spared hunset.unset

/-- A call changes a pin that is not set up only to set it up. -/
theorem Unset.step (hunset : Unset gpio pin board) (hgpio : gpio < 54) (call : PinCall) :
    Spared gpio pin (board.step call).2 := by
  cases call with
  | setmode new_mode =>
    exact ((releases_unset hgpio pin).setmode new_mode ⟨rfl, hunset⟩).2.2.toSpared
  | setup result channels direction pud initial =>
    exact ((configures_spared hgpio pin).setup_channel result channels direction pud initial
      ⟨rfl, hunset.toSpared⟩).2.2
  | output channels values =>
    exact ((drives_spared hgpio pin).output_call channels values ⟨rfl, hunset.toSpared⟩).2.2
  | cleanup channels =>
    exact ((releases_unset hgpio pin).cleanup channels ⟨rfl, hunset⟩).2.2.toSpared

/-- A pin that is set up after none of the calls is as before. -/
theorem Unset.run (hunset : Unset gpio pin board) (hgpio : gpio < 54) (calls : List PinCall)
    (hnever : ∀ earlier later, calls = earlier ++ later →
      (board.run earlier).2.gpio_direction gpio = -1) :
    (board.run calls).2.block.pin gpio = pin := by
  induction calls generalizing board with
  | nil => exact hunset.spared hunset.unset
  | cons call rest ih =>
    have hstep : Unset gpio pin (board.step call).2 :=
      ⟨hunset.step hgpio call, hnever [call] rest rfl⟩
    refine ih hstep fun earlier later hsplit ↦ ?_
    exact hnever (call :: earlier) later (by rw [hsplit, List.cons_append])

/-! ## Pins that were cleaned up -/

/-- An input without a pull. -/
def Pin.Idle (pin : Pin) : Prop := pin.function = 0 ∧ pin.pull = some .off

/-- The pin is idle unless it is set up. -/
structure Tidy (gpio : ℕ) (board : Module) : Prop where
  chip : board.block.Chip
  idle : board.gpio_direction gpio = -1 → (board.block.pin gpio).Idle

theorem preserved_tidy (hgpio : gpio < 54) : Preserved fun m n ↦ m = n ∧ Tidy gpio m where
  settings := by
    rintro m n ⟨rfl, -⟩
    rfl
  mapped := by
    rintro m n ⟨rfl, htidy⟩
    exact ⟨rfl, htidy.chip, htidy.idle⟩
  mode := by
    rintro m n new_mode ⟨rfl, htidy⟩
    exact ⟨rfl, htidy.chip, htidy.idle⟩
  setup := by
    rintro m n other direction pud initial hother hchecked - ⟨rfl, htidy⟩
    obtain ⟨hchip, hpin⟩ := pin_setup_one htidy.chip hother direction pud initial
    refine ⟨rfl, hchip, fun hunset ↦ ?_⟩
    dsimp only [Module.setup_one] at hunset
    have hne : gpio ≠ other := by
      rintro rfl
      rw [Function.update_self] at hunset
      rcases hchecked with rfl | ⟨rfl, -⟩
      · exact absurd hunset (by decide)
      · exact absurd hunset (by decide)
    rw [Function.update_of_ne hne] at hunset
    rw [hpin gpio hgpio, if_neg hne]
    exact htidy.idle hunset
  output := by
    rintro m n other value hother hdirection ⟨rfl, htidy⟩
    obtain ⟨hchip, hpin⟩ := pin_output_gpio htidy.chip hother value
    refine ⟨rfl, hchip, fun hunset ↦ ?_⟩
    have hne : gpio ≠ other := by
      rintro rfl
      exact absurd (hdirection.symm.trans hunset) (by decide)
    rw [hpin gpio hgpio, if_neg hne]
    exact htidy.idle hunset
  release := by
    rintro m n other hother ⟨rfl, htidy⟩
    obtain ⟨hchip, hpin⟩ := pin_cleanup_one htidy.chip hother
    refine ⟨rfl, hchip, fun hunset ↦ ?_⟩
    rw [hpin gpio hgpio]
    split
    · exact ⟨rfl, rfl⟩
    · rename_i hkept
      refine htidy.idle ?_
      by_cases heq : gpio = other
      · rw [heq]
        exact not_not.mp fun hset ↦ hkept ⟨heq, hset⟩
      · rwa [direction_cleanup_one, Function.update_of_ne heq] at hunset

/-! ## The whole run -/

theorem held_imported {block : Block} (hchip : block.Chip) (p1_revision : ℕ) :
    Held (Module.imported p1_revision block) :=
  ⟨hchip, fun _ _ hset ↦ absurd rfl hset, fun _ hset ↦ absurd rfl hset⟩

theorem run_append (board : Module) (earlier later : List PinCall) :
    (board.run (earlier ++ later)).2 = ((board.run earlier).2.run later).2 := by
  induction earlier generalizing board with
  | nil => rfl
  | cons call rest ih => exact ih _

/-- The pin is set up after some of the calls. -/
def WasSetUp (board : Module) (calls : List PinCall) (gpio : ℕ) : Prop :=
  ∃ earlier later, calls = earlier ++ later ∧ (board.run earlier).2.gpio_direction gpio ≠ -1

theorem not_wasSetUp {calls : List PinCall} (hnever : ¬ WasSetUp board calls gpio)
    (earlier later : List PinCall) (hsplit : calls = earlier ++ later) :
    (board.run earlier).2.gpio_direction gpio = -1 :=
  not_not.mp fun hset ↦ hnever ⟨earlier, later, hsplit, hset⟩

/-- A pin that was set up by one of the calls is idle when it is not set up any more. -/
theorem Held.run_tidy {calls : List PinCall} (hheld : Held board) (hgpio : gpio < 54)
    (hwas : WasSetUp board calls gpio) : Tidy gpio (board.run calls).2 := by
  obtain ⟨earlier, later, rfl, hset⟩ := hwas
  obtain ⟨-, -, hthen⟩ := preserved_held.run earlier ⟨rfl, hheld⟩
  have htidy : Tidy gpio (board.run earlier).2 :=
    ⟨hthen.chip, fun hunset ↦ absurd hunset hset⟩
  rw [run_append]
  exact ((preserved_tidy hgpio).run later ⟨rfl, htidy⟩).2.2

/-- Each pin after calls by a program that was just imported: as the module remembers it, as at
the start, or idle, by whether it is or was set up. -/
structure Accounted (block : Block) (p1_revision : ℕ) (calls : List PinCall) (board : Module) :
    Prop where
  remembered : ∀ gpio < 54, board.gpio_direction gpio ≠ -1 →
    Remembered (board.block.pin gpio) (board.gpio_direction gpio)
  spared : ∀ gpio < 54, ¬ WasSetUp (Module.imported p1_revision block) calls gpio →
    board.gpio_direction gpio = -1 ∧ board.block.pin gpio = block.pin gpio
  idle : ∀ gpio < 54, WasSetUp (Module.imported p1_revision block) calls gpio →
    board.gpio_direction gpio = -1 → (board.block.pin gpio).Idle

theorem run_accounted {block : Block} (hchip : block.Chip) (p1_revision : ℕ)
    (calls : List PinCall) :
    Accounted block p1_revision calls ((Module.imported p1_revision block).run calls).2 := by
  have hfresh := held_imported hchip p1_revision
  obtain ⟨-, -, hheld⟩ := preserved_held.run calls ⟨rfl, hfresh⟩
  refine ⟨hheld.pins, fun gpio hgpio hnever ↦ ?_, fun gpio hgpio hwas ↦ ?_⟩
  · have hunset : Unset gpio (block.pin gpio) (Module.imported p1_revision block) :=
      ⟨⟨hchip, fun _ ↦ rfl⟩, rfl⟩
    exact ⟨not_wasSetUp hnever calls [] (List.append_nil calls).symm,
      hunset.run hgpio calls (not_wasSetUp hnever)⟩
  · exact (hfresh.run_tidy hgpio hwas).idle

/-- A last clean-up of all pins sets up no pin, so a pin was set up by the calls before. -/
theorem wasSetUp_cleanup_iff {calls : List PinCall} (hheld : Held board) (hgpio : gpio < 54) :
    WasSetUp board (calls ++ [.cleanup (.one (.int (-666)))]) gpio ↔
      WasSetUp board calls gpio := by
  constructor
  · rintro ⟨earlier, later, hsplit, hset⟩
    rcases List.append_eq_append_iff.mp hsplit with ⟨rest, rfl, hrest⟩ | ⟨rest, rfl, -⟩
    · cases rest with
      | nil => exact ⟨calls, [], (List.append_nil calls).symm, List.append_nil calls ▸ hset⟩
      | cons call others =>
        obtain ⟨rfl, hothers⟩ := List.cons.inj hrest
        obtain ⟨rfl, -⟩ := List.nil_eq_append_iff.mp hothers
        obtain ⟨-, -, hthen⟩ := preserved_held.run calls ⟨rfl, hheld⟩
        obtain ⟨cleaned, hcleanup, hnone⟩ := hthen.cleanup
        have hlast : (board.run (calls ++ [.cleanup (.one (.int (-666)))])).2 = cleaned := by
          rw [run_append]
          exact congrArg Prod.snd hcleanup
        rw [hlast] at hset
        exact absurd (hnone gpio hgpio) hset
    · exact ⟨earlier, rest, rfl, hset⟩
  · rintro ⟨earlier, later, rfl, hset⟩
    exact ⟨earlier, later ++ [.cleanup (.one (.int (-666)))], List.append_assoc _ _ _, hset⟩

/-- Whatever calls a program makes, and whether they succeed or not, the pins that are set up are
as the module remembers them, those that were set up and are no longer are inputs without a pull,
and those that never were are as at the start; a last `cleanup` leaves no pin set up. -/
theorem run_remembers {block : Block} (hchip : block.Chip) (p1_revision : ℕ)
    (calls : List PinCall) :
    ∃ board : Module, ((Module.imported p1_revision block).run calls).2 = board ∧
      Accounted block p1_revision calls board ∧
      ∃ cleaned : Module, board.cleanup (.one (.int (-666))) = (.ok (), cleaned) ∧
        Accounted block p1_revision calls cleaned ∧
        ∀ gpio < 54, cleaned.gpio_direction gpio = -1 := by
  have hfresh := held_imported hchip p1_revision
  obtain ⟨-, -, hheld⟩ := preserved_held.run calls ⟨rfl, hfresh⟩
  obtain ⟨cleaned, hcleanup, hnone⟩ := hheld.cleanup
  have hlast : ((Module.imported p1_revision block).run
      (calls ++ [.cleanup (.one (.int (-666)))])).2 = cleaned := by
    rw [run_append]
    exact congrArg Prod.snd hcleanup
  have hafter := run_accounted hchip p1_revision (calls ++ [.cleanup (.one (.int (-666)))])
  rw [hlast] at hafter
  refine ⟨_, rfl, run_accounted hchip p1_revision calls, cleaned, hcleanup, ?_, hnone⟩
  refine ⟨hafter.remembered, fun gpio hgpio hnever ↦ ?_, fun gpio hgpio hwas ↦ ?_⟩
  · exact hafter.spared gpio hgpio ((wasSetUp_cleanup_iff hfresh hgpio).not.mpr hnever)
  · exact hafter.idle gpio hgpio ((wasSetUp_cleanup_iff hfresh hgpio).mpr hwas)

theorem run_remembers_button :
    ∃ board : Module, ((Module.imported 3 bcm2835).run button_and_light).2 = board ∧
      Accounted bcm2835 3 button_and_light board ∧
      ∃ cleaned : Module, board.cleanup (.one (.int (-666))) = (.ok (), cleaned) ∧
        Accounted bcm2835 3 button_and_light cleaned ∧
        ∀ gpio < 54, cleaned.gpio_direction gpio = -1 :=
  run_remembers chip_bcm2835 3 button_and_light

/-- The button is on GPIO 17 and the light on GPIO 18. -/
example : (((Module.imported 3 bcm2835).run button_and_light).2.block.pin 17,
      ((Module.imported 3 bcm2835).run button_and_light).2.block.pin 18) =
    (⟨0, some .up, false⟩, ⟨1, some .off, true⟩) := by
  decide

end PiFunk.RpiGpio
