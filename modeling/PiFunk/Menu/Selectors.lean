import Mathlib.Data.List.Perm.Basic
import Mathlib.Tactic.NormNum
import PiFunk.Menu.State

/-!
# The selectors of the station's configuration

Five selectors set the output pin, the DMA channel, the channel spacing, the drive power and the
GPS status.  Each is documented by its prompt and its messages: an answer from the list of the
prompt is kept, and any other one is replaced by a default.

`dmaselect` and `bandwidthselect` do so for every input that converts.  `gpioselect` tests
`gpiopin == 20 || 29 || …`, which is always true, so it accepts every pin; `powerselect` only takes
the absolute value; and `gpsselect` compares where it should assign, and for `"on"` prints a
position that there is not.  Input that does not convert leaves the previous value to be tested in
place of an answer.
-/

namespace PiFunk.Menu

open FuelLoop

def gpioselect (answer : Option CInt) (globals : Globals) : Globals :=
  let gpiopin := scanf answer globals.gpiopin
  { globals with
    gpiopin :=
      if gpiopin == 4 then gpiopin
      else if gpiopin == 21 then gpiopin
      else if gpiopin == 20 || truth 29 || truth 32 || truth 34 || truth 38 then gpiopin
      else 4 }

def dmaselect (answer : Option CInt) (globals : Globals) : Globals :=
  let dmachannel := scanf answer globals.dmachannel
  { globals with
    dmachannel :=
      if dmachannel == 255 then 255
      else if dmachannel == 7 then 7
      else if dmachannel == 14 then 14
      else 14 }

def DEVIATION : ℚ := 12.50

def bandwidthselect (answer : Option ℚ) (globals : Globals) : Globals :=
  let bandwidth := scanf answer globals.bandwidth
  { globals with
    bandwidth :=
      if bandwidth == 6.25 then bandwidth
      else if bandwidth == 10.00 then bandwidth
      else if bandwidth == 12.50 then bandwidth
      else if bandwidth == 20.00 then bandwidth
      else if bandwidth == 25.00 then bandwidth
      else DEVIATION }

/-- `abs` of the C library; the least `int` has no positive counterpart. -/
def abs (value : CInt) : CInt := if value.msb then -value else value

def powerselect (answer : Option CInt) (globals : Globals) : Globals :=
  let powerlevel := scanf answer globals.powerlevel
  { globals with powerlevel, power := abs powerlevel }

/-- `literalOn` and `literalOff` are the constants the pointer is compared with. -/
def gpsselect (literalOn literalOff : Literal) (globals : Globals) : Outcome Stop Globals :=
  -- `*position` is printed, and nothing assigns the pointer
  if globals.gps.same literalOn.pointer then .halted .fault globals
  else if globals.gps.same literalOff.pointer then .done globals
  else
    -- the value of this expression is dropped
    let _equal := globals.gps.same literalOn.pointer
    .done globals

/-! ## The selectors together -/

/-- The five selectors. -/
inductive Selector where
  | gpioselect
  | dmaselect
  | bandwidthselect
  | powerselect
  | gpsselect
deriving DecidableEq, Repr

/-- What the user answers to each of them, and where the program has its string constants. -/
structure Answers where
  gpiopin : Option CInt
  dmachannel : Option CInt
  bandwidth : Option ℚ
  powerlevel : Option CInt
  literalOn : Literal
  literalOff : Literal

def Selector.run (answers : Answers) (selector : Selector) (globals : Globals) :
    Outcome Stop Globals :=
  match selector with
  | .gpioselect => .done (Menu.gpioselect answers.gpiopin globals)
  | .dmaselect => .done (Menu.dmaselect answers.dmachannel globals)
  | .bandwidthselect => .done (Menu.bandwidthselect answers.bandwidth globals)
  | .powerselect => .done (Menu.powerselect answers.powerlevel globals)
  | .gpsselect => Menu.gpsselect answers.literalOn answers.literalOff globals

def selectors : List Selector :=
  [.gpioselect, .dmaselect, .bandwidthselect, .powerselect, .gpsselect]

/-- Selectors one after another. -/
def configure (answers : Answers) : List Selector → Globals → Outcome Stop Globals
  | [], globals => .done globals
  | selector :: rest, globals => (selector.run answers globals).andThen (configure answers rest)

/-! ## Configurations that return -/

/-- What a selector assigns when it returns. -/
def Selector.assigns (answers : Answers) (globals : Globals) : Selector → Globals
  | .gpioselect => Menu.gpioselect answers.gpiopin globals
  | .dmaselect => Menu.dmaselect answers.dmachannel globals
  | .bandwidthselect => Menu.bandwidthselect answers.bandwidth globals
  | .powerselect => Menu.powerselect answers.powerlevel globals
  | .gpsselect => globals

/-- No selector touches what another one asks for. -/
instance assigns_rightCommutative (answers : Answers) :
    RightCommutative (Selector.assigns answers) where
  right_comm globals first second := by
    cases first <;> cases second <;> rfl

/-- `gpsselect` leaves the globals as they were, unless it prints the position. -/
theorem gpsselect_eq (literalOn literalOff : Literal) (globals : Globals) :
    gpsselect literalOn literalOff globals =
      if globals.gps.same literalOn.pointer then .halted .fault globals else .done globals := by
  unfold gpsselect
  rw [ite_self]

theorem assigns_gps (answers : Answers) (globals : Globals) (selector : Selector) :
    (selector.assigns answers globals).gps = globals.gps := by
  cases selector <;> rfl

theorem run_eq_done_iff (answers : Answers) (selector : Selector) (before after : Globals) :
    selector.run answers before = .done after ↔
      (selector = .gpsselect → before.gps.same answers.literalOn.pointer = false) ∧
        selector.assigns answers before = after := by
  cases selector with
  | gpsselect =>
    simp only [Selector.run, gpsselect_eq, Selector.assigns, true_imp_iff]
    cases before.gps.same answers.literalOn.pointer <;> simp
  | _ => simp [Selector.run, Selector.assigns]

/-- Selectors return unless `gpsselect` is among them and prints the position. -/
theorem configure_eq_done_iff (answers : Answers) (order : List Selector)
    (before after : Globals) :
    configure answers order before = .done after ↔
      (.gpsselect ∈ order → before.gps.same answers.literalOn.pointer = false) ∧
        order.foldl (Selector.assigns answers) before = after := by
  induction order generalizing before with
  | nil => simp [configure]
  | cons selector rest ih =>
    simp only [configure, Outcome.andThen_eq_done_iff, run_eq_done_iff, ih, List.foldl_cons,
      List.mem_cons]
    constructor
    · rintro ⟨middle, ⟨hhere, rfl⟩, hrest, hafter⟩
      rw [assigns_gps] at hrest
      exact ⟨fun hmem ↦ hmem.elim (fun heq ↦ hhere heq.symm) hrest, hafter⟩
    · rintro ⟨hreturns, hafter⟩
      refine ⟨_, ⟨fun heq ↦ hreturns (.inl heq.symm), rfl⟩, fun hmem ↦ ?_, hafter⟩
      rw [assigns_gps]
      exact hreturns (.inr hmem)

/-! ## The documented configuration -/

section Documented

variable {α : Type*} [DecidableEq α]

/-- What a selector is documented to do: keep an answer from the list, and replace any other one,
also one that does not convert, by the default. -/
def documented (valid : List α) (default : α) : Option α → α
  | some answer => if answer ∈ valid then answer else default
  | none => default

/-- The documented value is a valid one. -/
theorem documented_mem {valid : List α} {default : α} (hdefault : default ∈ valid)
    (answer : Option α) : documented valid default answer ∈ valid := by
  unfold documented
  split
  · split_ifs with hanswer
    · exact hanswer
    · exact hdefault
  · exact hdefault

/-- An answer is treated as the default exactly when it is the only valid one it can be. -/
theorem documented_eq_default_iff (valid : List α) (default answer : α) :
    documented valid default (some answer) = default ↔ (answer ∈ valid → answer = default) := by
  rw [documented, ite_eq_right_iff]

end Documented

def gpioPins : List CInt := [4, 21, 20, 29, 32, 34, 38]

def dmaChannels : List CInt := [7, 14, 255]

def bandwidths : List ℚ := [6.25, 10, 12.5, 20, 25]

/-- The drive levels of the prompt. -/
def powers : List CInt := [0, 1, 2, 3, 4, 5, 6, 7]

def gpsStates : List CString := [on, off]

/-- Every variable is one of the documented values. -/
structure Valid (globals : Globals) : Prop where
  gpiopin : globals.gpiopin ∈ gpioPins
  dmachannel : globals.dmachannel ∈ dmaChannels
  bandwidth : globals.bandwidth ∈ bandwidths
  power : globals.power ∈ powers
  gps : ∃ string ∈ gpsStates, globals.gps.string? = some string

/-- Every answer is kept or replaced by the default; the answer to `gpsselect` is the string that
`gps` refers to.  The default power is the one of the default settings in `infos`. -/
structure AsDocumented (answers : Answers) (before after : Globals) : Prop where
  gpiopin : after.gpiopin = documented gpioPins 4 answers.gpiopin
  dmachannel : after.dmachannel = documented dmaChannels 14 answers.dmachannel
  bandwidth : after.bandwidth = documented bandwidths 12.5 answers.bandwidth
  power : after.power = documented powers 7 answers.powerlevel
  gps : after.gps.string? = some (documented gpsStates on before.gps.string?)

theorem AsDocumented.valid {answers : Answers} {before after : Globals}
    (hdocumented : AsDocumented answers before after) : Valid after where
  gpiopin := hdocumented.gpiopin ▸ documented_mem (by decide) _
  dmachannel := hdocumented.dmachannel ▸ documented_mem (by decide) _
  bandwidth := hdocumented.bandwidth ▸ documented_mem (by simp [bandwidths]) _
  power := hdocumented.power ▸ documented_mem (by decide) _
  gps := ⟨_, documented_mem (by decide) _, hdocumented.gps⟩

/-- The answers, and the values before where an answer does not convert, that the selectors treat
as documented. -/
structure Unproblematic (answers : Answers) (before : Globals) : Prop where
  gpiopin : (∃ pin ∈ gpioPins, answers.gpiopin = some pin) ∨
    answers.gpiopin = none ∧ before.gpiopin = 4
  dmachannel : answers.dmachannel = none → before.dmachannel ≠ 7 ∧ before.dmachannel ≠ 255
  bandwidth : answers.bandwidth = none →
    before.bandwidth ∉ [6.25, 10, 20, 25]
  power : (∃ level, (level ∈ powers ∨ level = -7) ∧ answers.powerlevel = some level) ∨
    answers.powerlevel = none ∧ (before.powerlevel = 7 ∨ before.powerlevel = -7)
  gps : before.gps.string? = some on ∨ before.gps.string? = some off
  /-- `gps` does not point to the constant `"on"` itself, for which the position is printed. -/
  position : before.gps.same answers.literalOn.pointer = false

/-! ## Each selector -/

section Each

variable (globals : Globals)

/-- `gpioselect` accepts whatever its variable holds. -/
theorem gpioselect_gpiopin (answer : Option CInt) :
    (gpioselect answer globals).gpiopin = answer.getD globals.gpiopin := by
  simp [gpioselect, scanf, truth]

theorem gpioselect_documented_iff (answer : Option CInt) :
    (gpioselect answer globals).gpiopin = documented gpioPins 4 answer ↔
      (∃ pin ∈ gpioPins, answer = some pin) ∨ answer = none ∧ globals.gpiopin = 4 := by
  rw [gpioselect_gpiopin]
  cases answer with
  | none => simp [documented]
  | some pin =>
    by_cases hpin : pin ∈ gpioPins
    · simp [documented, hpin]
    · have hfour : ¬ pin = 4 := fun heq ↦ hpin (heq ▸ by decide)
      simpa [documented, hpin] using hfour

/-- The tests of `dmaselect` are the documented ones. -/
theorem dmaselect_tests (channel : CInt) :
    (if channel == 255 then 255 else if channel == 7 then 7 else if channel == 14 then 14 else 14) =
      documented dmaChannels 14 (some channel) := by
  by_cases hvalid : channel ∈ dmaChannels
  · simp only [documented, if_pos hvalid]
    simp only [dmaChannels, List.mem_cons, List.not_mem_nil, or_false] at hvalid
    rcases hvalid with rfl | rfl | rfl <;> rfl
  · simp only [documented, if_neg hvalid]
    simp [dmaChannels] at hvalid
    simp [hvalid]

theorem dmaselect_dmachannel (answer : Option CInt) :
    (dmaselect answer globals).dmachannel =
      documented dmaChannels 14 (some (answer.getD globals.dmachannel)) :=
  dmaselect_tests (answer.getD globals.dmachannel)

theorem dmaselect_documented_iff (answer : Option CInt) :
    (dmaselect answer globals).dmachannel = documented dmaChannels 14 answer ↔
      (answer = none → globals.dmachannel ≠ 7 ∧ globals.dmachannel ≠ 255) := by
  rw [dmaselect_dmachannel]
  cases answer with
  | some channel => simp
  | none =>
    have hdefault : documented dmaChannels 14 none = 14 := rfl
    rw [hdefault, Option.getD_none, documented_eq_default_iff]
    simp only [dmaChannels, List.mem_cons, List.not_mem_nil, or_false, true_imp_iff]
    constructor
    · intro honly
      constructor
      · intro hseven
        exact absurd (hseven.symm.trans (honly (.inl hseven))) (by decide)
      · intro hlast
        exact absurd (hlast.symm.trans (honly (.inr (.inr hlast)))) (by decide)
    · tauto

theorem bandwidthselect_tests (spacing : ℚ) :
    (if spacing == 6.25 then spacing else if spacing == 10.00 then spacing
      else if spacing == 12.50 then spacing else if spacing == 20.00 then spacing
      else if spacing == 25.00 then spacing else DEVIATION) =
      documented bandwidths 12.5 (some spacing) := by
  by_cases hvalid : spacing ∈ bandwidths
  · simp only [documented, if_pos hvalid]
    simp only [bandwidths, List.mem_cons, List.not_mem_nil, or_false] at hvalid
    rcases hvalid with rfl | rfl | rfl | rfl | rfl <;> norm_num
  · simp only [documented, if_neg hvalid]
    simp only [bandwidths, List.mem_cons, List.not_mem_nil, or_false, not_or] at hvalid
    norm_num [DEVIATION] at hvalid ⊢
    simp [hvalid]

theorem bandwidthselect_bandwidth (answer : Option ℚ) :
    (bandwidthselect answer globals).bandwidth =
      documented bandwidths 12.5 (some (answer.getD globals.bandwidth)) :=
  bandwidthselect_tests (answer.getD globals.bandwidth)

theorem bandwidthselect_documented_iff (answer : Option ℚ) :
    (bandwidthselect answer globals).bandwidth = documented bandwidths 12.5 answer ↔
      (answer = none → globals.bandwidth ∉ [6.25, 10, 20, 25]) := by
  rw [bandwidthselect_bandwidth]
  cases answer with
  | some spacing => simp
  | none =>
    have hdefault : documented bandwidths 12.5 none = 12.5 := rfl
    rw [hdefault, Option.getD_none, documented_eq_default_iff]
    simp only [bandwidths, List.mem_cons, List.not_mem_nil, or_false, true_imp_iff]
    constructor
    · intro honly hother
      have hvalue : globals.bandwidth = 12.5 := honly (by tauto)
      rw [hvalue] at hother
      norm_num at hother
    · tauto

theorem abs_eq_seven_iff (value : CInt) : abs value = 7 ↔ value = 7 ∨ value = -7 := by
  unfold abs
  split_ifs with hnegative
  · constructor
    · intro hneg
      exact .inr (by rw [← BitVec.neg_neg (x := value), hneg])
    · rintro (rfl | rfl)
      · exact absurd hnegative (by decide)
      · rfl
  · constructor
    · exact .inl
    · rintro (rfl | rfl)
      · rfl
      · exact absurd (by decide) hnegative

/-- The absolute value keeps the drive levels. -/
theorem abs_of_mem_powers {level : CInt} (hlevel : level ∈ powers) : abs level = level := by
  simp only [powers, List.mem_cons, List.not_mem_nil, or_false] at hlevel
  rcases hlevel with rfl | rfl | rfl | rfl | rfl | rfl | rfl | rfl <;> rfl

theorem powerselect_documented_iff (answer : Option CInt) :
    (powerselect answer globals).power = documented powers 7 answer ↔
      (∃ level, (level ∈ powers ∨ level = -7) ∧ answer = some level) ∨
        answer = none ∧ (globals.powerlevel = 7 ∨ globals.powerlevel = -7) := by
  cases answer with
  | none =>
    have hnone := abs_eq_seven_iff globals.powerlevel
    simp only [powerselect, scanf, documented, Option.getD_none, hnone]
    simp
  | some level =>
    have hsome : (powerselect (some level) globals).power = abs level := rfl
    rw [hsome]
    by_cases hlevel : level ∈ powers
    · simp only [documented, if_pos hlevel, abs_of_mem_powers hlevel, true_iff]
      exact .inl ⟨level, .inl hlevel, rfl⟩
    · simp only [documented, if_neg hlevel]
      rw [abs_eq_seven_iff]
      constructor
      · rintro (rfl | hneg)
        · exact absurd (by decide) hlevel
        · exact .inl ⟨level, .inr hneg, rfl⟩
      · rintro (⟨other, hother, hequal⟩ | ⟨hnone, _⟩)
        · obtain rfl := Option.some.inj hequal
          exact .inr (hother.resolve_left hlevel)
        · cases hnone

/-- The string of `gps` is not changed, so it must be valid before. -/
theorem gps_documented_iff (gps : CharPtr) :
    gps.string? = some (documented gpsStates on gps.string?) ↔
      gps.string? = some on ∨ gps.string? = some off := by
  cases hstring : gps.string? with
  | none => simp
  | some string =>
    simp only [documented, gpsStates, List.mem_cons, List.not_mem_nil, or_false]
    split_ifs with hvalid
    · simpa using hvalid
    · simp only [not_or] at hvalid
      simp [hvalid]

end Each

/-! ## The configuration -/

/-- The order of the selectors does not matter. -/
theorem foldl_assigns_perm (answers : Answers) {order : List Selector}
    (horder : order.Perm selectors) (before : Globals) :
    order.foldl (Selector.assigns answers) before =
      selectors.foldl (Selector.assigns answers) before :=
  horder.foldl_eq before

/-- Every variable is the one its own selector leaves. -/
theorem foldl_assigns_selectors (answers : Answers) (before : Globals) :
    selectors.foldl (Selector.assigns answers) before =
      { before with
        gpiopin := (gpioselect answers.gpiopin before).gpiopin
        dmachannel := (dmaselect answers.dmachannel before).dmachannel
        bandwidth := (bandwidthselect answers.bandwidth before).bandwidth
        powerlevel := (powerselect answers.powerlevel before).powerlevel
        power := (powerselect answers.powerlevel before).power } := rfl

theorem foldl_assigns_asDocumented_iff (answers : Answers) (before : Globals) :
    AsDocumented answers before (selectors.foldl (Selector.assigns answers) before) ↔
      (gpioselect answers.gpiopin before).gpiopin = documented gpioPins 4 answers.gpiopin ∧
      (dmaselect answers.dmachannel before).dmachannel =
        documented dmaChannels 14 answers.dmachannel ∧
      (bandwidthselect answers.bandwidth before).bandwidth =
        documented bandwidths 12.5 answers.bandwidth ∧
      (powerselect answers.powerlevel before).power = documented powers 7 answers.powerlevel ∧
      before.gps.string? = some (documented gpsStates on before.gps.string?) := by
  rw [foldl_assigns_selectors]
  constructor
  · intro hdocumented
    exact ⟨hdocumented.gpiopin, hdocumented.dmachannel, hdocumented.bandwidth, hdocumented.power,
      hdocumented.gps⟩
  · intro heach
    exact ⟨heach.1, heach.2.1, heach.2.2.1, heach.2.2.2.1, heach.2.2.2.2⟩

/-- The five selectors return in any order, the configuration is valid then and every answer is
treated as documented, exactly when the answers are among those the selectors handle. -/
theorem selectors_documented_iff (answers : Answers) (before : Globals) {order : List Selector}
    (horder : order.Perm selectors) :
    (∃ after, configure answers order before = .done after ∧ Valid after ∧
      AsDocumented answers before after) ↔ Unproblematic answers before := by
  have hgps : Selector.gpsselect ∈ order := horder.mem_iff.mpr (by decide)
  simp only [configure_eq_done_iff, hgps, true_imp_iff, foldl_assigns_perm answers horder,
    and_iff_right_of_imp AsDocumented.valid, and_assoc, exists_and_left, exists_eq_left']
  rw [foldl_assigns_asDocumented_iff, gpioselect_documented_iff, dmaselect_documented_iff,
    bandwidthselect_documented_iff, powerselect_documented_iff, gps_documented_iff]
  constructor
  · intro heach
    exact ⟨heach.2.1, heach.2.2.1, heach.2.2.2.1, heach.2.2.2.2.1, heach.2.2.2.2.2, heach.1⟩
  · intro hunproblematic
    exact ⟨hunproblematic.position, hunproblematic.gpiopin, hunproblematic.dmachannel,
      hunproblematic.bandwidth, hunproblematic.power, hunproblematic.gps⟩

/-- GPIO 4, DMA channel 14, 12.5 kHz, full power and GPS off, in the order of the assistant. -/
theorem selectors_documented_defaults :
    let answers : Answers := ⟨some 4, some 14, some 12.5, some 7, ⟨0x1000, on⟩, ⟨0x1004, off⟩⟩
    let before := { Globals.initial with gps := answers.literalOff.pointer }
    let order : List Selector :=
      [.powerselect, .gpioselect, .dmaselect, .bandwidthselect, .gpsselect]
    ∃ after, configure answers order before = .done after ∧ Valid after ∧
      AsDocumented answers before after := by
  intro answers before order
  refine (selectors_documented_iff answers before (by decide)).mpr ?_
  exact ⟨.inl ⟨4, by decide, rfl⟩, nofun, nofun, .inl ⟨7, .inl (by decide), rfl⟩, .inr rfl, rfl⟩

/-- Pin 5 is accepted. -/
theorem gpioselect_accepts_five :
    let answers : Answers := ⟨some 5, some 14, some 12.5, some 7, ⟨0x1000, on⟩, ⟨0x1004, off⟩⟩
    let before := { Globals.initial with gps := answers.literalOff.pointer }
    ¬ ∃ after, configure answers selectors before = .done after ∧ Valid after ∧
      AsDocumented answers before after := by
  rintro answers before ⟨after, hafter, hvalid, _⟩
  rw [configure_eq_done_iff] at hafter
  have hpin := hvalid.gpiopin
  rw [← hafter.2] at hpin
  exact absurd hpin (by decide)

end PiFunk.Menu
