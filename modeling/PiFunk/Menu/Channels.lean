import PiFunk.Library.BinaryFloat
import PiFunk.Menu.State

/-!
# The channel menus

The frequency is chosen from one of three channel tables or typed in.  Each table is a `switch` on
the channel number with an exit and a default.  `channelmodepmr` asks for the type before it enters
one of the two PMR tables, and `typeselect` enters them again by the type that is left in the
global.

A program of the menu takes its answers one after another and appends to a trace when it acts on
its surroundings, so that the order of its steps can be stated.
-/

namespace PiFunk.Menu

open FuelLoop

inductive Modulation where
  | modulationfm
  | modulationam
deriving DecidableEq, Repr

/-- The calls of `assistant`. -/
inductive Call where
  | fileselect
  | sampleselect
  | modetypeselect
  | modselect
  | typeselect
  | powerselect
  | callsignselect
  | gpioselect
  | dmaselect
  | bandwidthselect
  | gpsselect
  | volumeselect
deriving DecidableEq, Repr

/-- What can be observed of the menu. -/
inductive Event where
  /-- A file is opened. -/
  | opened (name : CString)
  /-- A modulator is started while `freq` has this value. -/
  | started (modulation : Modulation) (freq : ℚ)
  /-- A call of `assistant` has returned and left this value in `freq`. -/
  | completed (call : Call) (freq : ℚ)
deriving DecidableEq

/-- The globals, the answers that are still to come, and what has been observed. -/
structure Dialog where
  globals : Globals
  answers : List Answer
  trace : List Event

/-- The menu has no unbounded loop of its own; `running` stands for a modulator that does not
return. -/
abbrev Program := Dialog → Outcome Stop Dialog

def Dialog.emit (dialog : Dialog) (events : List Event) : Dialog :=
  { dialog with trace := dialog.trace ++ events }

/-- One call of `scanf`: `read` is its format, and `store` assigns the variable. -/
def ask {α : Type*} (read : Answer → Option α) (store : Option α → Globals → Globals) : Program :=
  fun dialog ↦
    match dialog.answers with
    | [] => .done { dialog with globals := store none dialog.globals }
    | answer :: rest =>
      .done { dialog with globals := store (read answer) dialog.globals, answers := rest }

theorem ask_eq {α : Type*} (read : Answer → Option α) (store : Option α → Globals → Globals)
    (dialog : Dialog) :
    ask read store dialog = .done { dialog with
      globals := store (dialog.answers.head?.bind read) dialog.globals
      answers := dialog.answers.tail } := by
  unfold ask
  cases hanswers : dialog.answers with
  | nil => simp
  | cons answer rest => rfl

/-- Assignments to the globals. -/
def assign (update : Globals → Globals) : Program := fun dialog ↦
  .done { dialog with globals := update dialog.globals }

/-- One program after another. -/
def Program.andThen (first second : Program) : Program := fun dialog ↦ (first dialog).andThen second

/-! ## The channel tables -/

/-- What a `float` holds after a decimal constant has been assigned to it, which is a `double`. -/
def toFloat (constant : ℚ) : ℚ := BinaryFloat.nearest 24 (BinaryFloat.nearest 53 constant)

/-- A `switch` over channel numbers: the constants of its cases, the case that exits, and the
default. -/
structure ChannelTable where
  channels : List (CInt × ℚ)
  exit : CInt
  default : ℚ

/-- The frequency of a channel number, or nothing where the program exits. -/
def ChannelTable.freq? (table : ChannelTable) (number : CInt) : Option ℚ :=
  if number = table.exit then none
  else some (toFloat ((table.channels.lookup number).getD table.default))

/-- The `switch` of a channel menu. -/
def ChannelTable.switch (table : ChannelTable) (number : Globals → CInt) : Program := fun dialog ↦
  match table.freq? (number dialog.globals) with
  | none => .halted .exit dialog
  | some freq => .done { dialog with globals := { dialog.globals with freq } }

/-- The cases of `channelmodepmranalog`. -/
def pmrAnalog : ChannelTable where
  channels :=
    [(0, 446.00000), (1, 446.00625), (2, 446.01875), (3, 446.03125), (4, 446.04375),
     (5, 446.05625), (6, 446.06875), (7, 446.08125), (8, 446.09375), (9, 446.10312),
     (10, 446.10625), (11, 446.11875), (12, 446.13125), (13, 446.14375), (14, 446.15625),
     (15, 446.16875), (16, 446.18125), (17, 446.19375)]
  exit := 18
  default := 446.00625

/-- The cases of `channelmodepmrdigital`. -/
def pmrDigital : ChannelTable where
  channels :=
    [(0, 446.000000), (1, 446.003125), (2, 446.009375), (3, 446.015625), (4, 446.021875),
     (5, 446.028125), (6, 446.034375), (7, 446.040625), (8, 446.046875), (9, 446.053125),
     (10, 446.059375), (11, 446.065625), (12, 446.071875), (13, 446.078125), (14, 446.084375),
     (15, 446.090625), (16, 446.096875), (17, 446.103125), (18, 446.109375), (19, 446.115625),
     (20, 446.121875), (21, 446.128125), (22, 446.134375), (23, 446.140625), (24, 446.146875),
     (25, 446.153125), (26, 446.159375), (27, 446.165625), (28, 446.171875), (29, 446.178125),
     (30, 446.184375), (31, 446.190625), (32, 446.196875)]
  exit := 33
  default := 446.003125

/-- The cases of `channelmodecb`. -/
def cb : ChannelTable where
  channels :=
    [(0, 27.0450), (1, 26.9650), (2, 26.9750), (3, 26.9850), (4, 27.0050), (5, 27.0150),
     (6, 27.0250), (7, 27.0350), (8, 27.0550), (9, 27.0650), (10, 27.0750), (11, 27.0850),
     (1111, 27.0950), (12, 27.1050), (13, 27.1150), (14, 27.1250), (15, 27.1350), (1515, 27.1450),
     (16, 27.1550), (17, 27.1650), (18, 27.1750), (19, 27.1850), (1919, 27.1950), (20, 27.2050),
     (21, 27.2150), (22, 27.2250), (23, 27.2550), (24, 27.2350), (25, 27.2450), (26, 27.2650),
     (27, 27.2750), (28, 27.2850), (29, 27.2950), (30, 27.3050), (31, 27.3150), (32, 27.3250),
     (33, 27.3350), (34, 27.3450), (35, 27.3550), (36, 27.3650), (37, 27.3750), (38, 27.3850),
     (39, 27.3950), (40, 27.4050), (41, 27.5650), (42, 27.5750), (43, 27.5850), (44, 27.5950),
     (45, 27.6050), (46, 27.6150), (47, 27.6250), (48, 27.6350), (49, 27.6450), (50, 27.6550),
     (51, 27.6650), (52, 27.6750), (53, 27.6850), (54, 27.6950), (55, 27.7050), (56, 27.7150),
     (57, 27.7250), (58, 27.7350), (59, 27.7450), (60, 27.7550), (61, 26.7650), (62, 26.7750),
     (63, 26.7850), (64, 26.7950), (65, 26.8050), (66, 26.8150), (67, 26.8250), (68, 26.8350),
     (69, 26.8450), (70, 26.8550), (71, 26.8650), (72, 26.8750), (73, 26.8850), (74, 26.8950),
     (75, 26.9050), (76, 26.9150), (77, 26.9250), (78, 26.9350), (79, 26.9450), (80, 26.9550)]
  exit := 81
  default := 26.9650

/-! ## The menus -/

def channelmodepmranalog : Program :=
  (ask Answer.int fun answer globals ↦
    { globals with channelnumberpmr := scanf answer globals.channelnumberpmr }).andThen
  (pmrAnalog.switch Globals.channelnumberpmr)

def channelmodepmrdigital : Program :=
  (ask Answer.int fun answer globals ↦
    { globals with channelnumberpmr := scanf answer globals.channelnumberpmr }).andThen
  (pmrDigital.switch Globals.channelnumberpmr)

def channelmodecb : Program :=
  (ask Answer.int fun answer globals ↦
    { globals with channelnumbercb := scanf answer globals.channelnumbercb }).andThen
  (cb.switch Globals.channelnumbercb)

def channelmodepmr : Program :=
  (ask Answer.int fun answer globals ↦
    { globals with type := scanf answer globals.type }).andThen fun dialog ↦
  if dialog.globals.type = 1 then channelmodepmranalog dialog
  else if dialog.globals.type = 2 then channelmodepmrdigital dialog
  else assign (fun globals ↦ { globals with type := 1 }) dialog

def channelselect : Program :=
  (ask Answer.int fun answer globals ↦
    { globals with channelmode := scanf answer globals.channelmode }).andThen fun dialog ↦
  if dialog.globals.channelmode = 1 then channelmodepmr dialog
  else if dialog.globals.channelmode = 2 then channelmodecb dialog
  else channelmodepmr dialog

def freqselect : Program :=
  ask Answer.float fun answer globals ↦ { globals with freq := scanf answer globals.freq }

def modetypeselect : Program :=
  (ask Answer.int fun answer globals ↦
    { globals with modeselect := scanf answer globals.modeselect }).andThen fun dialog ↦
  if dialog.globals.modeselect = 1 then channelselect dialog
  else if dialog.globals.modeselect = 2 then freqselect dialog
  else channelselect dialog

/-- The comparisons are read as "`type` is 1" and "`type` is 2". -/
def typeselect : Program := fun dialog ↦
  if dialog.globals.type = 1 then channelmodepmranalog dialog
  else if dialog.globals.type = 2 then channelmodepmrdigital dialog
  else .done dialog

end PiFunk.Menu
