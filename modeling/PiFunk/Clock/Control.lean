import PiFunk.CTypes
import PiFunk.Library.LastWrite
import PiFunk.Library.Loop

/-!
# The clock generator behind the carrier

`carrierhigh`, `carrierlow` and `terminate` store to the control register of the general purpose
clock 0, the first two through a bit-field struct and the last one through `clk_reg` with a bare
constant.  The clock manager takes a store only with the password `0x5A` in bits 31:24, and its
`BUSY` bit follows `ENAB`.  `modulate` compares the divider register with a word and stores
nothing.

So the generator obeys the carrier switches, but the `0x5A` of `terminate` lies in bits 7:0 and is
refused, and the divider keeps what it held.
-/

namespace PiFunk.Clock

open FuelLoop LastWrite

/-- `struct GPCTL`: its named members, the lowest bits first. -/
structure GPCTL where
  SRC : BitVec 4
  ENAB : BitVec 1
  KILL : BitVec 1
  BUSY : BitVec 1
  FLIP : BitVec 1
  MASH : BitVec 2
  PASSWD : BitVec 8
deriving DecidableEq, Repr

/-- The struct read as an `int`; the unnamed members are bit 6 and bits 23:11. -/
def GPCTL.word (setupword : GPCTL) : CInt :=
  setupword.PASSWD ++ (0#13 ++ (setupword.MASH ++ (setupword.FLIP ++ (setupword.BUSY ++
    (0#1 ++ (setupword.KILL ++ (setupword.ENAB ++ setupword.SRC)))))))

/-- The `setupword` of `carrierhigh`. -/
def setupwordHigh : GPCTL := ⟨6, 1, 0, 0, 0, 1, 0x5A⟩

/-- The `setupword` of `carrierlow`. -/
def setupwordLow : GPCTL := ⟨6, 0, 0, 0, 0, 1, 0x5A⟩

def CARRIER : CInt := 0x5A

def MODULATE : CInt := 0x4D72

def BCM2708_DMA_RESET : CInt := 1 <<< 31

/-- The register cells the operations access, and whether each pointer to a register block, and
`vAddr`, is non-null. -/
structure Peripherals where
  CM_GP0CTL : CInt
  CM_GP0DIV : CInt
  GPFSEL0 : CInt
  DMA_CS : CInt
  clk_reg : Bool
  gpio_reg : Bool
  dma_reg : Bool
  vAddr : Bool
deriving DecidableEq, Repr

/-- The `ENAB` bit of a control word. -/
def enab (word : CInt) : Bool := word.getLsbD 4

/-- The generator is enabled. -/
def Peripherals.enabled (peripherals : Peripherals) : Bool := enab peripherals.CM_GP0CTL

/-- Bits 31:24, "must be 0x5A when writing". -/
def passwordGiven (value : CInt) : Bool := value.extractLsb' 24 8 == 0x5A#8

/-- The `BUSY` bit of a stored control word follows its `ENAB` bit. -/
def followEnab (word : CInt) : CInt := if enab word then word ||| 0x80 else word &&& ~~~0x80

/-- The control cell after a store. -/
def storeControl (cell value : CInt) : CInt :=
  if passwordGiven value then followEnab value else cell

abbrev Program := FuelLoop.Program Empty Peripherals

/-! ## The operations -/

/-- Enable the generator and wait for `BUSY` to turn on. -/
def carrierhigh : Program := fun fuel peripherals ↦
  whileLoop (fun p ↦ p.CM_GP0CTL &&& 0x80 == 0) (fun p ↦ .done p) fuel
    { peripherals with CM_GP0CTL := storeControl peripherals.CM_GP0CTL setupwordHigh.word }

/-- Disable the generator and wait for `BUSY` to turn off. -/
def carrierlow : Program := fun fuel peripherals ↦
  whileLoop (fun p ↦ p.CM_GP0CTL &&& 0x80 != 0) (fun p ↦ .done p) fuel
    { peripherals with CM_GP0CTL := storeControl peripherals.CM_GP0CTL setupwordLow.word }

/-- The word `modulate (l)` computes. -/
def dividerWord (l : CInt) : CInt := (CARRIER <<< 24) + (MODULATE + l)

/-- The statement is a comparison `==`; its value is dropped. -/
def modulate (l : CInt) : Program := fun _ peripherals ↦
  let _equal := peripherals.CM_GP0DIV == dividerWord l
  .done peripherals

/-- GPIO 4 becomes an output, then the control register is stored to through `clk_reg`, then the
DMA channel is reset.  The number is not used, and unmapping `vAddr` touches no register. -/
def terminate (_num : CInt) : Program := fun _ peripherals ↦
  let stopped :=
    if peripherals.clk_reg && peripherals.gpio_reg && peripherals.vAddr then
      { peripherals with
        GPFSEL0 := (peripherals.GPFSEL0 &&& ~~~(7#32 <<< 12)) ||| (1#32 <<< 12)
        CM_GP0CTL := storeControl peripherals.CM_GP0CTL 0x5A }
    else peripherals
  .done (if stopped.dma_reg && stopped.vAddr then { stopped with DMA_CS := BCM2708_DMA_RESET }
    else stopped)

inductive Call where
  | carrierhigh
  | carrierlow
  | modulate (l : CInt)
  | terminate (num : CInt)
deriving DecidableEq, Repr

def Call.run : Call → Program
  | .carrierhigh => Clock.carrierhigh
  | .carrierlow => Clock.carrierlow
  | .modulate l => Clock.modulate l
  | .terminate num => Clock.terminate num

def runCalls (calls : List Call) : Program := fun fuel peripherals ↦
  match calls with
  | [] => .done peripherals
  | call :: rest => (call.run fuel peripherals).andThen (runCalls rest fuel)

/-! ## What one call does -/

/-- The effect of a call: only the carrier switches reach the control register. -/
def Call.apply (peripherals : Peripherals) : Call → Peripherals
  | .carrierhigh => { peripherals with CM_GP0CTL := followEnab setupwordHigh.word }
  | .carrierlow => { peripherals with CM_GP0CTL := followEnab setupwordLow.word }
  | .modulate _ => peripherals
  | .terminate _ =>
    { peripherals with
      GPFSEL0 := if peripherals.clk_reg && peripherals.gpio_reg && peripherals.vAddr then
        (peripherals.GPFSEL0 &&& ~~~(7#32 <<< 12)) ||| (1#32 <<< 12) else peripherals.GPFSEL0
      DMA_CS := if peripherals.dma_reg && peripherals.vAddr then BCM2708_DMA_RESET
        else peripherals.DMA_CS }

/-- Both setup words carry the password. -/
theorem storeControl_setupwordHigh (cell : CInt) :
    storeControl cell setupwordHigh.word = followEnab setupwordHigh.word := rfl

theorem storeControl_setupwordLow (cell : CInt) :
    storeControl cell setupwordLow.word = followEnab setupwordLow.word := rfl

theorem followEnab_setupwordHigh : followEnab setupwordHigh.word = 0x5A000296#32 := by decide

theorem followEnab_setupwordLow : followEnab setupwordLow.word = 0x5A000206#32 := by decide

/-- The constant of `terminate` does not: it would have to be shifted by 24. -/
theorem storeControl_bare (cell : CInt) : storeControl cell 0x5A = cell := rfl

/-- Every call returns as soon as it may test its busy flag once, with the effect `Call.apply`. -/
theorem run_eq (call : Call) (peripherals : Peripherals) {fuel : ℕ} (hfuel : 0 < fuel) :
    call.run fuel peripherals = .done (call.apply peripherals) := by
  obtain ⟨rest, rfl⟩ : ∃ rest, fuel = rest + 1 := ⟨fuel - 1, by omega⟩
  cases call with
  | carrierhigh =>
    simp only [Call.run, carrierhigh, storeControl_setupwordHigh, Call.apply]
    refine loop_succ_exit (whileIteration_of_false ?_) rest
    simp only [followEnab_setupwordHigh]
    rfl
  | carrierlow =>
    simp only [Call.run, carrierlow, storeControl_setupwordLow, Call.apply]
    refine loop_succ_exit (whileIteration_of_false ?_) rest
    simp only [followEnab_setupwordLow]
    rfl
  | modulate l => rfl
  | terminate num =>
    simp only [Call.run, terminate, storeControl_bare, Call.apply]
    rcases peripherals with ⟨control, divider, select, status, clk, gpio, dma, address⟩
    cases clk <;> cases gpio <;> cases dma <;> cases address <;> rfl

theorem runCalls_eq (calls : List Call) (peripherals : Peripherals) {fuel : ℕ}
    (hfuel : 0 < fuel) :
    runCalls calls fuel peripherals = .done (calls.foldl Call.apply peripherals) := by
  induction calls generalizing peripherals with
  | nil => rfl
  | cons call rest ih =>
    calc
      runCalls (call :: rest) fuel peripherals =
          (call.run fuel peripherals).andThen (runCalls rest fuel) := rfl
      _ = runCalls rest fuel (call.apply peripherals) := by
        rw [run_eq call peripherals hfuel, Outcome.done_andThen]
      _ = .done ((call :: rest).foldl Call.apply peripherals) := ih _

/-! ## Runs -/

/-- The calls meant to control the generator. -/
inductive Control where
  | carrierhigh
  | carrierlow
  | terminate
deriving DecidableEq, Repr

def Call.control? : Call → Option Control
  | .carrierhigh => some .carrierhigh
  | .carrierlow => some .carrierlow
  | .modulate _ => none
  | .terminate _ => some .terminate

/-- What a carrier switch sets `ENAB` to. -/
def Call.switch? : Call → Option Bool
  | .carrierhigh => some true
  | .carrierlow => some false
  | .modulate _ => none
  | .terminate _ => none

def Call.modulation? : Call → Option CInt
  | .carrierhigh => none
  | .carrierlow => none
  | .modulate l => some l
  | .terminate _ => none

/-- One step: the generator follows the carrier switches alone. -/
theorem apply_enabled (peripherals : Peripherals) (call : Call) :
    (call.apply peripherals).enabled = call.switch?.getD peripherals.enabled := by
  cases call with
  | carrierhigh =>
    simp only [Peripherals.enabled, Call.apply, followEnab_setupwordHigh]
    rfl
  | carrierlow =>
    simp only [Peripherals.enabled, Call.apply, followEnab_setupwordLow]
    rfl
  | modulate l => rfl
  | terminate num => rfl

/-- One step: the divider register keeps its contents. -/
theorem apply_divider (peripherals : Peripherals) (call : Call) :
    (call.apply peripherals).CM_GP0DIV = peripherals.CM_GP0DIV := by
  cases call <;> rfl

/-- Every run: the generator is in the state of the last carrier switch. -/
theorem foldl_apply_enabled (calls : List Call) (start : Peripherals) :
    (calls.foldl Call.apply start).enabled =
      (lastSome Call.switch? calls).getD start.enabled :=
  foldl_read Call.apply Peripherals.enabled Call.switch? apply_enabled calls start

/-- Every run: the divider register has its initial contents. -/
theorem foldl_apply_divider (calls : List Call) (start : Peripherals) :
    (calls.foldl Call.apply start).CM_GP0DIV = start.CM_GP0DIV := by
  induction calls generalizing start with
  | nil => rfl
  | cons call rest ih =>
    calc
      ((call :: rest).foldl Call.apply start).CM_GP0DIV = (call.apply start).CM_GP0DIV := ih _
      _ = start.CM_GP0DIV := apply_divider start call

/-- A call that does not control the generator does not switch it. -/
theorem switch?_of_control?_none (call : Call) (hnone : call.control? = none) :
    call.switch? = none := by
  cases call <;> first | rfl | cases hnone

theorem lastSwitch_of_carrierhigh {calls : List Call}
    (hlast : lastSome Call.control? calls = some .carrierhigh) :
    lastSome Call.switch? calls = some true := by
  refine lastSome_of_refines switch?_of_control?_none (fun call hcall ↦ ?_) hlast
  cases call <;> first | rfl | cases hcall

theorem lastSwitch_of_carrierlow {calls : List Call}
    (hlast : lastSome Call.control? calls = some .carrierlow) :
    lastSome Call.switch? calls = some false := by
  refine lastSome_of_refines switch?_of_control?_none (fun call hcall ↦ ?_) hlast
  cases call <;> first | rfl | cases hcall

/-- After the calls the generator is enabled if and only if the last controlling call was
`carrierhigh`, and the divider register holds the word of the last `modulate`. -/
structure FollowsLastCalls (calls : List Call) (final : Peripherals) : Prop where
  generator : final.enabled = true ↔ lastSome Call.control? calls = some .carrierhigh
  divider : ∀ l, lastSome Call.modulation? calls = some l → final.CM_GP0DIV = dividerWord l

/-- When no carrier switch is the last controlling call, because `terminate` comes last or nothing
controls the generator, the generator is off already: the last carrier switch was `carrierlow`, or
there was none and the generator was off at the start. -/
def OffUnlessSwitched (calls : List Call) (start : Peripherals) : Prop :=
  lastSome Call.control? calls = some .terminate ∨ lastSome Call.control? calls = none →
    lastSome Call.switch? calls = some false ∨
      lastSome Call.switch? calls = none ∧ start.enabled = false

/-- The divider register holds the word of the last `modulate` from the start. -/
def DividerAlreadySet (calls : List Call) (start : Peripherals) : Prop :=
  ∀ l, lastSome Call.modulation? calls = some l → start.CM_GP0DIV = dividerWord l

theorem generator_iff (calls : List Call) (start : Peripherals) :
    ((calls.foldl Call.apply start).enabled = true ↔
        lastSome Call.control? calls = some .carrierhigh) ↔ OffUnlessSwitched calls start := by
  rw [foldl_apply_enabled]
  rcases hlast : lastSome Call.control? calls with _ | control
  · cases hswitch : lastSome Call.switch? calls <;> simp [OffUnlessSwitched, hlast, hswitch]
  · cases control with
    | carrierhigh => simp [OffUnlessSwitched, hlast, lastSwitch_of_carrierhigh hlast]
    | carrierlow => simp [OffUnlessSwitched, hlast, lastSwitch_of_carrierlow hlast]
    | terminate =>
      cases hswitch : lastSome Call.switch? calls <;> simp [OffUnlessSwitched, hlast, hswitch]

/-- Every sequence of calls returns, from any register contents, and the registers follow the last
calls exactly when the generator was off wherever `terminate` should have stopped it and the
divider register needed no store. -/
theorem runCalls_follows_last_calls_iff (calls : List Call) (start : Peripherals) :
    ∃ final, (∀ fuel, 0 < fuel → runCalls calls fuel start = .done final) ∧
      (FollowsLastCalls calls final ↔
        OffUnlessSwitched calls start ∧ DividerAlreadySet calls start) := by
  refine ⟨calls.foldl Call.apply start, fun fuel hfuel ↦ runCalls_eq calls start hfuel, ?_⟩
  have hgenerator := generator_iff calls start
  have hdivider := foldl_apply_divider calls start
  constructor
  · rintro ⟨hgen, hdiv⟩
    exact ⟨hgenerator.mp hgen, fun l hl ↦ hdivider.symm.trans (hdiv l hl)⟩
  · rintro ⟨hoff, hset⟩
    exact ⟨hgenerator.mpr hoff, fun l hl ↦ hdivider.trans (hset l hl)⟩

/-- `carrierhigh (); terminate (0)` with all pointers set leaves the generator enabled. -/
theorem terminate_leaves_generator_enabled :
    ¬ ∃ final, Returns (runCalls [.carrierhigh, .terminate 0])
        ⟨0, 0, 0, 0, true, true, true, true⟩ final ∧
      FollowsLastCalls [.carrierhigh, .terminate 0] final := by
  rintro ⟨final, ⟨fuel, hdone⟩, hfollows⟩
  cases fuel with
  | zero => cases hdone
  | succ fuel =>
    rw [runCalls_eq _ _ (Nat.succ_pos fuel)] at hdone
    cases hdone
    exact absurd (hfollows.generator.mp (by decide)) (by decide)

end PiFunk.Clock
