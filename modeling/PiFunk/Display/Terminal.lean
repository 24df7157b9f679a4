import Mathlib.Data.List.GetD
import PiFunk.Display.Render
import PiFunk.Library.CyclicPointer

/-!
# The display as a terminal

The display is told commands and data one byte a time.  Its controller keeps one byte for each
column of eight pixels in a memory of 1024, and a pointer to the byte that the next data go to.
`init` sets it up, `clear` and `clear2` fill it, `reset_pos` takes the pointer back, and `render`
writes eight bytes.

The controller is not part of the program: it is a parameter, of which the writes that the program
makes are known as far as its documentation goes.  The commands that `reset_pos` consists of are
documented for the page mode, and `init` selects the horizontal one; whether they move the pointer
there is left open, and what follows holds in both cases.

For the program it is a terminal: 128 places for a picture of eight by eight pixels in reading
order, and a cursor.  Every sequence of operations leaves in the memory what it leaves on the
terminal.
-/

namespace PiFunk.Display

open BitMatrix CyclicPointer

/-! ## The controller -/

structure Registers where
  /-- The pixels, a byte for eight of them in a column; page after page of 128 columns. -/
  ram : ℕ → Byte
  pointer : ℕ
  /-- The last argument of each command that has one. -/
  settings : Byte → Byte
  /-- The command whose argument comes next. -/
  awaiting : Option Byte
  displayOn : Bool
  inverted : Bool
  resumed : Bool

/-- The commands of the program that take an argument: clockdiv, multiplex, offset, charge pump,
memory mode, com pins, contrast, precharge and vcom detect. -/
def takesArgument : List Byte := [0xd5, 0xa8, 0xd3, 0x8d, 0x20, 0xda, 0x81, 0xd9, 0xdb]

/-- The commands of the program that neither the memory nor the pointer depends on: the start line
and the directions of the scan. -/
def scanCommands : List Byte := [0x40, 0xa1, 0xc8]

/-- The pointer behind a command of the page addressing: the page, the lower or the upper half of
the column. -/
def addressed (byte : Byte) (pointer : ℕ) : Option ℕ :=
  if byte.toNat < 0x10 then some (pointer / 16 * 16 + byte.toNat)
  else if byte.toNat < 0x18 then
    some (pointer / 128 * 128 + (byte.toNat - 0x10) * 16 + pointer % 16)
  else if 0xb0 ≤ byte.toNat ∧ byte.toNat < 0xb8 then
    some ((byte.toNat - 0xb0) * 128 + pointer % 128)
  else none

namespace Registers

variable (moves : Bool) (registers : Registers)

def mode : Byte := registers.settings 0x20

/-- A byte of data in the horizontal mode.  The program needs no other one. -/
def data (byte : Byte) : Option Registers :=
  if registers.mode = 0x00 then
    some { registers with
      ram := Function.update registers.ram registers.pointer byte
      pointer := (registers.pointer + 1) % 1024 }
  else none

/-- A byte of a command, as far as the program uses them. -/
def command (byte : Byte) : Option Registers :=
  match registers.awaiting with
  | some waiting =>
    if waiting ∈ takesArgument then
      some { registers with
        settings := Function.update registers.settings waiting byte
        awaiting := none }
    else none
  | none =>
    if byte ∈ takesArgument then some { registers with awaiting := some byte }
    else if byte ∈ scanCommands then some registers
    else if byte = 0xae then some { registers with displayOn := false }
    else if byte = 0xaf then some { registers with displayOn := true }
    else if byte = 0xa4 then some { registers with resumed := true }
    else if byte = 0xa6 then some { registers with inverted := false }
    else (addressed byte registers.pointer).map fun pointer ↦
      if moves = true ∨ registers.mode = 0x02 then { registers with pointer } else registers

/-- One write: the register is the control byte in front of a command or of data. -/
def receive (write : RegisterWrite) : Option Registers :=
  if write.register = 0x40 then registers.data (toChar write.value)
  else if write.register = 0x00 then registers.command moves (toChar write.value)
  else none

def run (writes : List RegisterWrite) : Option Registers := writes.foldlM (receive moves) registers

end Registers

structure Controller where
  State : Type
  /-- The state behind a write. -/
  receive : State → RegisterWrite → State
  registers : State → Registers
  /-- The window of the addresses is the whole memory, and nothing is scrolled. -/
  Whole : State → Prop
  /-- Whether the commands of the page addressing move the pointer in every mode. -/
  moves : Bool

namespace Controller

variable (controller : Controller)

/-- What the program relies on. -/
structure Documented : Prop where
  receives : ∀ {state write after}, controller.Whole state →
    (controller.registers state).receive controller.moves write = some after →
      controller.registers (controller.receive state write) = after
  whole : ∀ {state write after}, controller.Whole state →
    (controller.registers state).receive controller.moves write = some after →
      controller.Whole (controller.receive state write)

def run (state : controller.State) (writes : List RegisterWrite) : controller.State :=
  writes.foldl controller.receive state

end Controller

/-! ## The program -/

/-- `wiringPiI2CWriteReg8 (display, 0x00, value)` for each of the values. -/
def commands (values : List CInt) : List RegisterWrite := values.map (⟨0x00, ·⟩)

def init : List RegisterWrite :=
  commands [0xae, 0xd5, 0x80, 0xa8, 0x3f, 0xd3, 0x00, 0x40, 0x8d, 0x14, 0x20, 0x00, 0x01, 0xa1,
    0xc8, 0xda, 0x12, 0x81, 0xcf, 0xd9, 0xf1, 0xdb, 0x40, 0xa4, 0xa6, 0xaf]

def reset_pos : List RegisterWrite := commands [0xb0, 0x00, 0x10]

/-- The loops of `clear` and `clear2` over `x` and `y`. -/
def fill (value : CInt) : List RegisterWrite :=
  reset_pos ++ (List.range 128).flatMap fun _ ↦ (List.range 8).map fun _ ↦ ⟨0x40, value⟩

def clear : List RegisterWrite := fill 0x00

def clear2 : List RegisterWrite := fill 0xff

/-! ## The terminal -/

/-- A picture at each place, by its rows and columns, and the place of the next one. -/
structure Screen where
  picture : ℕ → Fin 8 → Fin 8 → Bool
  cursor : ℕ

/-- What the program does with the display. -/
inductive Operation where
  | clear
  | clear2
  | reset_pos
  | render (bitmap : Bitmap)

def Operation.writes (signedness : Signedness) : Operation → List RegisterWrite
  | .clear => Display.clear
  | .clear2 => Display.clear2
  | .reset_pos => Display.reset_pos
  | .render bitmap => Display.render signedness bitmap

/-- Where the cursor is behind `reset_pos`. -/
def home (moves : Bool) (place : ℕ) : ℕ := if moves then 0 else place

/-- What it does to the terminal: the row `y` of the picture is the byte `y` of the bitmap, its
lowest bit on the left. -/
def Operation.onScreen (moves : Bool) (screen : Screen) : Operation → Screen
  | .clear => ⟨fun _ _ _ ↦ false, home moves screen.cursor⟩
  | .clear2 => ⟨fun _ _ _ ↦ true, home moves screen.cursor⟩
  | .reset_pos => { screen with cursor := home moves screen.cursor }
  | .render bitmap =>
    { picture := Function.update screen.picture screen.cursor fun row column ↦
        (bitmap row).getLsbD column
      cursor := advance 1 128 screen.cursor }

structure Registers.Normal (registers : Registers) : Prop where
  mode : registers.mode = 0x00
  ready : registers.awaiting = none
  visible : registers.displayOn = true ∧ registers.inverted = false ∧ registers.resumed = true

/-- The display is in its normal state, and its memory holds the pictures of the screen. -/
structure Shows (registers : Registers) (screen : Screen) : Prop extends registers.Normal where
  pixel : ∀ place < 128, ∀ row column : Fin 8,
    (registers.ram (8 * place + column)).getLsbD row = screen.picture place row column
  pointer : registers.pointer = 8 * screen.cursor
  cursor_lt : screen.cursor < 128

/-! ## Runs of writes -/

theorem run_append {moves : Bool} {registers between : Registers} {first : List RegisterWrite}
    (hfirst : registers.run moves first = some between) (second : List RegisterWrite) :
    registers.run moves (first ++ second) = between.run moves second := by
  rw [Registers.run] at hfirst
  rw [Registers.run, List.foldlM_append, hfirst]
  rfl

/-- What the registers do the controller does. -/
theorem Controller.Documented.run {controller : Controller} (hdocumented : controller.Documented)
    {state : controller.State} (hwhole : controller.Whole state) {writes : List RegisterWrite}
    {after : Registers}
    (hrun : (controller.registers state).run controller.moves writes = some after) :
    controller.registers (controller.run state writes) = after := by
  induction writes generalizing state with
  | nil => exact Option.some.inj hrun
  | cons write rest ih =>
    rw [Registers.run, List.foldlM_cons] at hrun
    obtain ⟨between, hwrite, hrest⟩ := Option.bind_eq_some_iff.mp hrun
    have hbetween := hdocumented.receives hwhole hwrite
    refine ih (hdocumented.whole hwhole hwrite) ?_
    rw [hbetween]
    exact hrest

section Runs

variable {moves : Bool} {registers : Registers}

/-- The memory behind data that do not wrap around. -/
def Registers.stored (registers : Registers) (values : List CInt) (address : ℕ) : Byte :=
  if registers.pointer ≤ address ∧ address < registers.pointer + values.length then
    toChar (values.getD (address - registers.pointer) 0)
  else registers.ram address

theorem stored_cons (value : CInt) (rest : List CInt) (hpointer : registers.pointer < 1024)
    (hfits : registers.pointer + (rest.length + 1) ≤ 1024) :
    ({ registers with
      ram := Function.update registers.ram registers.pointer (toChar value)
      pointer := (registers.pointer + 1) % 1024 } : Registers).stored rest =
        registers.stored (value :: rest) := by
  funext address
  unfold Registers.stored
  dsimp only
  rw [List.length_cons]
  by_cases hself : address = registers.pointer
  · rw [if_neg (by omega), if_pos (by omega), hself, Function.update_self, Nat.sub_self]
    rfl
  · by_cases hbetween :
        registers.pointer ≤ address ∧ address < registers.pointer + (rest.length + 1)
    · obtain ⟨place, hplace⟩ : ∃ place, address = registers.pointer + 1 + place :=
        ⟨address - registers.pointer - 1, by omega⟩
      have hleft : address - (registers.pointer + 1) % 1024 = place := by omega
      have hright : address - registers.pointer = place + 1 := by omega
      rw [if_pos (by omega), if_pos hbetween, hleft, hright, List.getD_cons_succ]
    · rw [if_neg (by omega), if_neg hbetween, Function.update_of_ne hself]

theorem run_data (values : List CInt) (hmode : registers.mode = 0x00)
    (hpointer : registers.pointer < 1024)
    (hfits : registers.pointer + values.length ≤ 1024) :
    registers.run moves (values.map (⟨0x40, ·⟩)) =
      some { registers with
        ram := registers.stored values
        pointer := (registers.pointer + values.length) % 1024 } := by
  induction values generalizing registers with
  | nil =>
    have hram : registers.stored [] = registers.ram := by
      funext address
      exact if_neg fun hbetween ↦ absurd hbetween.2 (not_lt.mpr hbetween.1)
    rw [hram, List.length_nil, Nat.add_zero, Nat.mod_eq_of_lt hpointer]
    rfl
  | cons value rest ih =>
    have hfirst : registers.receive moves ⟨0x40, value⟩ =
        some { registers with
          ram := Function.update registers.ram registers.pointer (toChar value)
          pointer := (registers.pointer + 1) % 1024 } := by
      rw [Registers.receive, if_pos rfl, Registers.data, if_pos hmode]
    rw [List.length_cons] at hfits
    have hrest := @ih
      { registers with
        ram := Function.update registers.ram registers.pointer (toChar value)
        pointer := (registers.pointer + 1) % 1024 }
      hmode (Nat.mod_lt _ (Nat.succ_pos 1023)) (by dsimp only; omega)
    rw [List.map_cons, Registers.run, List.foldlM_cons, hfirst]
    refine hrest.trans ?_
    rw [stored_cons value rest hpointer hfits]
    simp only [List.length_cons, Nat.mod_add_mod, Nat.add_assoc, Nat.add_comm rest.length]

/-- The pointer at the start, where the commands move it. -/
theorem run_reset_pos (hnormal : registers.Normal) :
    registers.run moves reset_pos =
      some { registers with pointer := home moves registers.pointer } := by
  cases moves with
  | false =>
    have hpage : ¬ registers.mode = 2#8 := by
      rw [hnormal.mode]
      decide
    have hkept : ∀ byte ∈ [0xb0#8, 0x00#8, 0x10#8],
        registers.command false byte = some registers := by
      simp [Registers.command, takesArgument, scanCommands, addressed, hnormal.ready, hpage]
    simp only [List.forall_mem_cons] at hkept
    simp [Registers.run, reset_pos, commands, Registers.receive, toChar, home, hkept]
  | true =>
    simp [Registers.run, reset_pos, commands, Registers.receive, Registers.command, takesArgument,
      scanCommands, addressed, toChar, home, hnormal.ready]
    omega

/-- Whatever the settings of the display are, `init` brings it into its normal state. -/
theorem run_init (hready : registers.awaiting = none) :
    ∃ after, registers.run moves init = some after ∧ after.Normal ∧
      (moves = false → after.pointer = registers.pointer) := by
  obtain ⟨ram, pointer, settings, awaiting, displayOn, inverted, resumed⟩ := registers
  cases hready
  cases moves with
  | false => exact ⟨_, rfl, ⟨rfl, rfl, rfl, rfl, rfl⟩, fun _ ↦ rfl⟩
  | true => exact ⟨_, rfl, ⟨rfl, rfl, rfl, rfl, rfl⟩, fun hmoves ↦ absurd hmoves (by decide)⟩

end Runs

/-! ## The operations -/

section Operations

variable {moves : Bool} {registers : Registers} {screen : Screen}

theorem fill_eq (value : CInt) :
    fill value = reset_pos ++ (List.replicate 1024 value).map (⟨0x40, ·⟩) := by
  have hloops : ((List.range 128).flatMap fun _ ↦
      (List.range 8).map fun _ ↦ (⟨0x40, value⟩ : RegisterWrite)) =
      List.replicate 1024 ⟨0x40, value⟩ := by
    simp [List.flatMap, List.map_const']
  rw [fill, hloops, List.map_replicate]

/-- The same byte a number of times, up to the end of the memory at most. -/
theorem run_replicate (value : CInt) (count : ℕ) (hmode : registers.mode = 0x00)
    (hpointer : registers.pointer < 1024) (hfits : registers.pointer + count ≤ 1024) :
    registers.run moves ((List.replicate count value).map (⟨0x40, ·⟩)) =
      some { registers with
        ram := fun address ↦
          if registers.pointer ≤ address ∧ address < registers.pointer + count then toChar value
          else registers.ram address
        pointer := (registers.pointer + count) % 1024 } := by
  have hdata := @run_data moves registers (List.replicate count value) hmode hpointer
    (by rwa [List.length_replicate])
  have hstored : registers.stored (List.replicate count value) = fun address ↦
      if registers.pointer ≤ address ∧ address < registers.pointer + count then toChar value
      else registers.ram address := by
    funext address
    rw [Registers.stored, List.length_replicate]
    by_cases hinside : registers.pointer ≤ address ∧ address < registers.pointer + count
    · rw [if_pos hinside, if_pos hinside, List.getD_replicate _ (by omega)]
    · rw [if_neg hinside, if_neg hinside]
  rw [hdata, hstored, List.length_replicate]

/-- Wherever the pointer is, the bytes go once around: up to the end of the memory, and from its
start to the pointer. -/
theorem run_around (value : CInt) (hmode : registers.mode = 0x00)
    (hpointer : registers.pointer < 1024) :
    registers.run moves ((List.replicate 1024 value).map (⟨0x40, ·⟩)) =
      some { registers with
        ram := fun address ↦ if address < 1024 then toChar value else registers.ram address } := by
  have hparts : List.replicate 1024 value =
      List.replicate (1024 - registers.pointer) value ++
        List.replicate registers.pointer value := by
    rw [List.replicate_append_replicate, Nat.sub_add_cancel hpointer.le]
  have hend : (registers.pointer + (1024 - registers.pointer)) % 1024 = 0 := by omega
  have hfirst := @run_replicate moves registers value (1024 - registers.pointer) hmode hpointer
    (by omega)
  rw [hend] at hfirst
  have hsecond (ram : ℕ → Byte) :=
    @run_replicate moves { registers with ram, pointer := 0 } value registers.pointer hmode
      (Nat.succ_pos 1023) (by dsimp only; omega)
  rw [hparts, List.map_append, run_append hfirst]
  refine (hsecond _).trans ?_
  congr 2
  · funext address
    dsimp only
    by_cases hbehind : registers.pointer ≤ address
    · rw [if_neg (by omega)]
      by_cases hless : address < 1024
      · rw [if_pos (by omega), if_pos hless]
      · rw [if_neg (by omega), if_neg hless]
    · rw [if_pos (by omega), if_pos (by omega)]
  · dsimp only
    omega

theorem run_fill (value : CInt) (hnormal : registers.Normal)
    (hhome : home moves registers.pointer < 1024) :
    registers.run moves (fill value) =
      some { registers with
        ram := fun address ↦ if address < 1024 then toChar value else registers.ram address
        pointer := home moves registers.pointer } := by
  rw [fill_eq, run_append (run_reset_pos hnormal)]
  exact run_around value hnormal.mode hhome

/-- The cursor and the pointer stand at the same place behind `reset_pos`. -/
theorem home_place {pointer cursor : ℕ}
    (hplace : moves = false → pointer = 8 * cursor ∧ cursor < 128) :
    home moves pointer = 8 * home moves cursor ∧ home moves cursor < 128 := by
  cases moves with
  | false => exact hplace rfl
  | true => exact ⟨rfl, Nat.succ_pos 127⟩

/-- All pixels are the same on the screen, too. -/
theorem run_fill_shows {value : CInt} {lit : Bool}
    (hvalue : ∀ bit : Fin 8, (toChar value).getLsbD bit = lit) (hnormal : registers.Normal)
    {cursor : ℕ} (hplace : moves = false → registers.pointer = 8 * cursor ∧ cursor < 128) :
    ∃ after, registers.run moves (fill value) = some after ∧
      Shows after ⟨fun _ _ _ ↦ lit, home moves cursor⟩ := by
  obtain ⟨hpointer, hcursor⟩ := home_place hplace
  refine ⟨_, run_fill value hnormal (by omega), ⟨hnormal.mode, hnormal.ready, hnormal.visible⟩,
    fun place hless row column ↦ ?_, hpointer, hcursor⟩
  have haddress : 8 * place + (column : ℕ) < 1024 := by omega
  dsimp only
  rw [if_pos haddress]
  exact hvalue row

/-- The columns of the turned bitmap from the last to the first are those of the bitmap from left to
right. -/
theorem run_render (signedness : Signedness) (bitmap : Bitmap) (hshows : Shows registers screen) :
    ∃ after, registers.run moves (render signedness bitmap) = some after ∧
      Shows after ((Operation.render bitmap).onScreen moves screen) := by
  let values : List CInt :=
    (List.finRange 8).reverse.map fun x ↦ promote signedness (turned signedness bitmap x)
  have hlength : values.length = 8 := by
    simp [values]
  have hpointer := hshows.pointer
  have hcursor := hshows.cursor_lt
  have hwrites : render signedness bitmap = values.map (⟨0x40, ·⟩) := by
    simp [values, render]
  have hbyte (column : Fin 8) :
      toChar (values.getD column 0) = turned signedness bitmap column.rev := by
    have horder : (List.finRange 8).reverse[(column : ℕ)]? = some column.rev := by
      revert column
      decide
    rw [List.getD_eq_getElem?_getD, List.getElem?_map, horder]
    exact toChar_promote signedness _
  rw [hwrites]
  refine ⟨_, run_data values hshows.mode (by omega) (by omega),
    ⟨hshows.mode, hshows.ready, hshows.visible⟩, fun place hplace row column ↦ ?_, ?_, ?_⟩
  · dsimp only [Operation.onScreen, Registers.stored]
    rw [hlength, hpointer]
    have hcolumn := column.isLt
    by_cases hhere : place = screen.cursor
    · have hoffset : 8 * place + (column : ℕ) - 8 * screen.cursor = column := by omega
      rw [if_pos (by omega), hoffset, hbyte, hhere, Function.update_self]
      have hpixel := turned_moves signedness bitmap (column.rev, row)
      exact hpixel.trans (congrArg (fun c : Fin 8 ↦ (bitmap row).getLsbD c) column.rev_rev)
    · rw [if_neg (by omega), Function.update_of_ne hhere]
      exact hshows.pixel place hplace row column
  · dsimp only [Operation.onScreen, advance]
    rw [hlength, hpointer]
    omega
  · exact Nat.mod_lt _ (by decide)

/-- The step lemma: an operation does to the memory what it does to the screen. -/
theorem Shows.run (signedness : Signedness) (operation : Operation)
    (hshows : Shows registers screen) :
    ∃ after, registers.run moves (operation.writes signedness) = some after ∧
      Shows after (operation.onScreen moves screen) := by
  have hplace : moves = false → registers.pointer = 8 * screen.cursor ∧ screen.cursor < 128 :=
    fun _ ↦ ⟨hshows.pointer, hshows.cursor_lt⟩
  cases operation with
  | clear =>
    have hdark : ∀ bit : Fin 8, (toChar 0x00).getLsbD bit = false := by decide
    exact run_fill_shows hdark hshows.toNormal hplace
  | clear2 =>
    have hlit : ∀ bit : Fin 8, (toChar 0xff).getLsbD bit = true := by decide
    exact run_fill_shows hlit hshows.toNormal hplace
  | reset_pos =>
    obtain ⟨hpointer, hcursor⟩ := home_place hplace
    exact ⟨_, run_reset_pos hshows.toNormal, ⟨hshows.mode, hshows.ready, hshows.visible⟩,
      hshows.pixel, hpointer, hcursor⟩
  | render bitmap => exact run_render signedness bitmap hshows

end Operations

/-! ## Sessions -/

section Sessions

variable {moves : Bool} {registers : Registers}

/-- The start of `main`: an empty screen, whatever the display has shown before. -/
theorem run_start (hready : registers.awaiting = none)
    (hpointer : moves = false → registers.pointer = 0) :
    ∃ after, registers.run moves (init ++ clear) = some after ∧
      Shows after ⟨fun _ _ _ ↦ false, 0⟩ := by
  obtain ⟨between, hinit, hnormal, hkept⟩ := @run_init moves registers hready
  have hdark : ∀ bit : Fin 8, (toChar 0x00).getLsbD bit = false := by decide
  have hplace : moves = false → between.pointer = 8 * 0 ∧ 0 < 128 :=
    fun hmoves ↦ ⟨(hkept hmoves).trans (hpointer hmoves), Nat.succ_pos 127⟩
  have hhome : home moves 0 = 0 := ite_self 0
  obtain ⟨after, hclear, hshows⟩ := run_fill_shows hdark hnormal hplace
  rw [hhome] at hshows
  exact ⟨after, (run_append hinit clear).trans hclear, hshows⟩

/-- The run lemma on the registers. -/
theorem Shows.run_operations (signedness : Signedness) (operations : List Operation)
    {screen : Screen} (hshows : Shows registers screen) :
    ∃ after, registers.run moves (operations.flatMap (Operation.writes signedness)) = some after ∧
      Shows after (operations.foldl (Operation.onScreen moves) screen) := by
  induction operations generalizing registers screen with
  | nil => exact ⟨registers, rfl, hshows⟩
  | cons operation rest ih =>
    obtain ⟨between, hfirst, hbetween⟩ := hshows.run signedness operation
    obtain ⟨after, hrest, hafter⟩ := ih hbetween
    exact ⟨after, (run_append hfirst _).trans hrest, hafter⟩

end Sessions

/-- Behind the start, every sequence of operations leaves in the memory what it leaves on the
screen. -/
theorem session_shows {controller : Controller} (hdocumented : controller.Documented)
    {state : controller.State} (hwhole : controller.Whole state)
    (hready : (controller.registers state).awaiting = none)
    (hpointer : controller.moves = false → (controller.registers state).pointer = 0)
    (signedness : Signedness) (operations : List Operation) :
    Shows
      (controller.registers (controller.run state
        (init ++ clear ++ operations.flatMap (Operation.writes signedness))))
      (operations.foldl (Operation.onScreen controller.moves) ⟨fun _ _ _ ↦ false, 0⟩) := by
  obtain ⟨started, hstart, hempty⟩ := run_start hready hpointer
  obtain ⟨after, hrest, hafter⟩ := hempty.run_operations signedness operations
  have hrun := hdocumented.run hwhole ((run_append hstart _).trans hrest)
  rwa [hrun]

/-! ## A display behind its reset -/

/-- A controller that is its registers. -/
def bare (moves : Bool) : Controller where
  State := Registers
  receive registers write := (registers.receive moves write).getD registers
  registers := id
  Whole _ := True
  moves

theorem bare_documented (moves : Bool) : (bare moves).Documented where
  receives _ hreceive := congrArg (Option.getD · _) hreceive
  whole _ _ := trivial

/-- The page mode, and the pointer at the start of a memory that holds anything. -/
def afterReset (ram : ℕ → Byte) : Registers where
  ram
  pointer := 0
  settings := Function.update (fun _ ↦ 0) 0x20 0x02
  awaiting := none
  displayOn := false
  inverted := false
  resumed := true

/-- The bitmap `test` of `main`, a house. -/
def test : Bitmap := fun row ↦
  [0b00011000, 0b00111100, 0b01111110, 0b11111111, 0b01100110, 0b01100110, 0b01100110,
    0b00000000].getD row 0

/-- `main`, on a display that moves the pointer by the commands of the page mode in that mode
only. -/
theorem session_shows_test :
    Shows
      ((bare false).registers ((bare false).run (afterReset fun _ ↦ 0xff)
        (init ++ clear ++ render .unsigned test)))
      (Operation.onScreen (bare false).moves ⟨fun _ _ _ ↦ false, 0⟩ (.render test)) := by
  have hsession := @session_shows (bare false) (bare_documented false) (afterReset fun _ ↦ 0xff)
    trivial rfl (fun _ ↦ rfl) .unsigned [.render test]
  rw [List.flatMap_singleton, Operation.writes, List.foldl_cons, List.foldl_nil] at hsession
  exact hsession

end PiFunk.Display
