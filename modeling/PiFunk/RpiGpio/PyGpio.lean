import PiFunk.RpiGpio.CGpio

/-!
# The Python module

The module numbers channels by the pins of the board or by those of the chip, and remembers which
pins it has set up and as what.  The module here is one that was imported without an error; its
warnings change nothing and are left out.
-/

namespace PiFunk.RpiGpio

def MODE_UNKNOWN : CInt := -1
def BOARD : CInt := 10
def BCM : CInt := 11
def SERIAL : CInt := 40
def SPI : CInt := 41
def I2C : CInt := 42
def PWM : CInt := 43
def PY_PUD_CONST_OFFSET : CInt := 20

def pin_to_gpio_rev1 : List ℤ :=
  [-1, -1, -1, 0, -1, 1, -1, 4, 14, -1, 15, 17, 18, 21, -1, 22, 23, -1, 24, 10, -1, 9, 25, 11, 8,
    -1, 7, -1, -1, -1, -1, -1, -1, -1, -1, -1, -1, -1, -1, -1, -1]

def pin_to_gpio_rev2 : List ℤ :=
  [-1, -1, -1, 2, -1, 3, -1, 4, 14, -1, 15, 17, 18, 27, -1, 22, 23, -1, 24, 10, -1, 9, 25, 11, 8,
    -1, 7, -1, -1, -1, -1, -1, -1, -1, -1, -1, -1, -1, -1, -1, -1]

def pin_to_gpio_rev3 : List ℤ :=
  [-1, -1, -1, 2, -1, 3, -1, 4, 14, -1, 15, 17, 18, 27, -1, 22, 23, -1, 24, 10, -1, 9, 25, 11, 8,
    -1, 7, -1, -1, 5, -1, 6, 12, 13, -1, 19, 16, 26, 20, -1, 21]

/-- The table for a board. -/
def pin_to_gpio (p1_revision : ℕ) : List ℤ :=
  if p1_revision = 1 then pin_to_gpio_rev1
  else if p1_revision = 2 then pin_to_gpio_rev2
  else pin_to_gpio_rev3

/-- An exception, with its text where the module gives it. -/
inductive PyError where
  | RuntimeError (text : String)
  | ValueError (text : String)
  | OverflowError
  | MemoryError
deriving DecidableEq, Repr

/-- What `setup` of `c_gpio` returns. -/
inductive SetupResult where
  | SETUP_OK
  | SETUP_DEVMEM_FAIL
  | SETUP_MALLOC_FAIL
  | SETUP_MMAP_FAIL
  | SETUP_CPUINFO_FAIL
  | SETUP_NOT_RPI_FAIL
deriving DecidableEq, Repr

/-- An object in the place of a number: an integer, converted to an `int` unless it is too large for
that, or something else. -/
inductive PyObject where
  | int (value : CInt)
  | overflow
  | other

/-- An argument that is one object, or a list or tuple of them. -/
inductive PyArgument where
  | one (object : PyObject)
  | list (objects : List PyObject)

/-- The variables of the module. -/
structure Settings where
  p1_revision : ℕ
  gpio_mode : CInt
  /-- `INPUT`, `OUTPUT`, or -1 for a pin that is not set up. -/
  gpio_direction : ℕ → CInt
  module_setup : Bool

/-- The module and the block behind it. -/
structure Module extends Settings where
  block : Block

/-- An exception, or none, and the module afterwards. -/
abbrev Result := Except PyError Unit × Module

def Settings.get_gpio_number (settings : Settings) (channel : CInt) : Except PyError ℕ :=
  if settings.gpio_mode ≠ BOARD ∧ settings.gpio_mode ≠ BCM then
    .error (.RuntimeError ("Please set pin numbering mode using GPIO.setmode(GPIO.BOARD) or " ++
      "GPIO.setmode(GPIO.BCM)"))
  else if settings.gpio_mode = BCM ∧ (channel.toInt < 0 ∨ 53 < channel.toInt) ∨
      settings.gpio_mode = BOARD ∧ (channel.toInt < 1 ∨ 26 < channel.toInt) ∧
        settings.p1_revision ≠ 3 ∨
      settings.gpio_mode = BOARD ∧ (channel.toInt < 1 ∨ 40 < channel.toInt) ∧
        settings.p1_revision = 3 then
    .error (.ValueError "The channel sent is invalid on a Raspberry Pi")
  else if settings.gpio_mode = BOARD then
    let gpio := (pin_to_gpio settings.p1_revision).getD channel.toNat (-1)
    if gpio = -1 then .error (.ValueError "The channel sent is invalid on a Raspberry Pi")
    else .ok gpio.toNat
  else .ok channel.toNat

def Module.mmap_gpio_mem (board : Module) (result : SetupResult) : Result :=
  if board.module_setup then (.ok (), board)
  else
    match result with
    | .SETUP_DEVMEM_FAIL =>
      (.error (.RuntimeError "No access to /dev/mem.  Try running as root!"), board)
    | .SETUP_MALLOC_FAIL => (.error .MemoryError, board)
    | .SETUP_MMAP_FAIL => (.error (.RuntimeError "Mmap of GPIO registers failed"), board)
    | .SETUP_CPUINFO_FAIL => (.error (.RuntimeError "Unable to open /proc/cpuinfo"), board)
    | .SETUP_NOT_RPI_FAIL => (.error (.RuntimeError "Not running on a RPi!"), board)
    | .SETUP_OK => (.ok (), { board with module_setup := true })

/-! ## Arguments -/

/-- The number, or an exception with this text for another object. -/
def PyObject.number (text : String) : PyObject → Except PyError CInt
  | .int value => .ok value
  | .overflow => .error .OverflowError
  | .other => .error (.ValueError text)

/-- An argument is a number or a list or tuple; the objects in those are looked at later. -/
def PyArgument.check (text : String) : PyArgument → Except PyError Unit
  | .one object => (object.number text).map fun _ ↦ ()
  | .list _ => .ok ()

/-- One call of a function after another, up to the first exception. -/
def each {α : Type*} (body : α → Module → Result) : List α → Module → Result
  | [], board => (.ok (), board)
  | first :: rest, board =>
    match body first board with
    | (.error error, board) => (.error error, board)
    | (.ok _, board) => each body rest board

/-- A function of a pin, for an object that gives its channel. -/
def onChannel (text : String) (body : ℕ → Module → Result) (object : PyObject) (board : Module) :
    Result :=
  match object.number text >>= board.get_gpio_number with
  | .error error => (.error error, board)
  | .ok gpio => body gpio board

/-- A function of a pin, for every channel of an argument. -/
def onChannels (body : ℕ → Module → Result) : PyArgument → Module → Result
  | .one object => onChannel "Channel must be an integer or list/tuple of integers" body object
  | .list objects => each (onChannel "Channel must be an integer" body) objects

/-! ## Calls -/

def Module.setmode (board : Module) (new_mode : CInt) : Result :=
  if board.gpio_mode ≠ MODE_UNKNOWN ∧ new_mode ≠ board.gpio_mode then
    (.error (.ValueError "A different mode has already been set!"), board)
  else if new_mode ≠ BOARD ∧ new_mode ≠ BCM then
    (.error (.ValueError "An invalid mode was passed to setmode()"), board)
  else if board.p1_revision = 0 ∧ new_mode = BOARD then
    (.error (.RuntimeError "BOARD numbering system not applicable on compute module"), board)
  else (.ok (), { board with gpio_mode := new_mode })

def Module.setup_one (direction pud initial : CInt) (gpio : ℕ) (board : Module) : Result :=
  let block :=
    if direction = OUTPUT ∧ (initial = LOW ∨ initial = HIGH) then
      output_gpio gpio initial board.block
    else board.block
  (.ok (), { board with
    block := setup_gpio gpio direction pud block
    gpio_direction := Function.update board.gpio_direction gpio direction })

/-- `setup`. -/
def Module.setup_channel (board : Module) (result : SetupResult) (channels : PyArgument)
    (direction pud initial : CInt) : Result :=
  match channels.check "Channel must be an integer or list/tuple of integers" with
  | .error error => (.error error, board)
  | .ok _ =>
    match board.mmap_gpio_mem result with
    | (.error error, board) => (.error error, board)
    | (.ok _, board) =>
      if direction ≠ INPUT ∧ direction ≠ OUTPUT then
        (.error (.ValueError "An invalid direction was passed to setup()"), board)
      else if direction = OUTPUT ∧ pud ≠ PUD_OFF + PY_PUD_CONST_OFFSET then
        (.error (.ValueError "pull_up_down parameter is not valid for outputs"), board)
      else if direction = INPUT ∧ initial ≠ -1 then
        (.error (.ValueError "initial parameter is not valid for inputs"), board)
      else
        let pud := if direction = OUTPUT then PUD_OFF + PY_PUD_CONST_OFFSET else pud
        let pud := pud - PY_PUD_CONST_OFFSET
        if pud ≠ PUD_OFF ∧ pud ≠ PUD_DOWN ∧ pud ≠ PUD_UP then
          (.error (.ValueError ("Invalid value for pull_up_down - should be either PUD_OFF, " ++
            "PUD_UP or PUD_DOWN")), board)
        else onChannels (Module.setup_one direction pud initial) channels board

/-- `output`, the nested function. -/
def Module.output_one (value : CInt) (gpio : ℕ) (board : Module) : Result :=
  if board.gpio_direction gpio ≠ OUTPUT then
    (.error (.RuntimeError "The GPIO channel has not been set up as an OUTPUT"), board)
  else if ¬board.module_setup then
    (.error (.RuntimeError "No access to /dev/mem.  Try running as root!"), board)
  else (.ok (), { board with block := output_gpio gpio value board.block })

/-- The loop of `output` with a value for each channel: both are read before the pin is used. -/
def Module.output_pair (pair : PyObject × PyObject) (board : Module) : Result :=
  match pair.1.number "Channel must be an integer" with
  | .error error => (.error error, board)
  | .ok _ =>
    match pair.2.number "Value must be an integer or boolean" with
    | .error error => (.error error, board)
    | .ok value =>
      onChannel "Channel must be an integer" (Module.output_one value) pair.1 board

def Module.output (board : Module) (channels values : PyArgument) : Result :=
  match channels.check "Channel must be an integer or list/tuple of integers" with
  | .error error => (.error error, board)
  | .ok _ =>
    match values with
    | .one object =>
      match object.number
          "Value must be an integer/boolean or a list/tuple of integers/booleans" with
      | .error error => (.error error, board)
      | .ok value => onChannels (Module.output_one value) channels board
    | .list values =>
      match channels with
      | .one _ => (.error (.RuntimeError "Number of channels != number of values"), board)
      | .list channels =>
        if channels.length ≠ values.length then
          (.error (.RuntimeError "Number of channels != number of values"), board)
        else each Module.output_pair (channels.zip values) board

/-- `cleanup_one`, and the body of the loop over all pins. -/
def Module.cleanup_one (gpio : ℕ) (board : Module) : Module :=
  if board.gpio_direction gpio ≠ -1 then
    { board with
      block := setup_gpio gpio INPUT PUD_OFF board.block
      gpio_direction := Function.update board.gpio_direction gpio (-1) }
  else board

/-- `cleanup` without a channel. -/
def Module.cleanup_all (board : Module) : Module :=
  { (List.range 54).foldl (fun board gpio ↦ board.cleanup_one gpio) board with
    gpio_mode := MODE_UNKNOWN }

/-- `cleanup`; the number -666 stands for no channel. -/
def Module.cleanup (board : Module) (channels : PyArgument) : Result :=
  match channels.check "Channel must be an integer or list/tuple of integers" with
  | .error error => (.error error, board)
  | .ok _ =>
    if board.module_setup then
      match channels with
      | .one (.int channel) =>
        if channel = -666 then (.ok (), board.cleanup_all)
        else
          onChannels (fun gpio board ↦ (.ok (), board.cleanup_one gpio)) (.one (.int channel)) board
      | channels => onChannels (fun gpio board ↦ (.ok (), board.cleanup_one gpio)) channels board
    else (.ok (), board)

/-- The name of the function with a code. -/
def functionName (gpio : ℕ) (f : CInt) : CInt :=
  if f = 0 then INPUT
  else if f = 1 then OUTPUT
  else if f = 4 then
    if gpio ∈ [0, 1, 2, 3] then I2C
    else if gpio ∈ [7, 8, 9, 10, 11] then SPI
    else if gpio ∈ [12, 13] then PWM
    else if gpio ∈ [14, 15] then SERIAL
    else if gpio ∈ [28, 29] then I2C
    else MODE_UNKNOWN
  else if f = 2 then if gpio ∈ [18, 19] then PWM else MODE_UNKNOWN
  else if f = 3 then if gpio ∈ [16, 17, 18, 19, 20, 21] then SPI else MODE_UNKNOWN
  else MODE_UNKNOWN

def Module.py_gpio_function (board : Module) (result : SetupResult) (channel : CInt) :
    Except PyError CInt × Module :=
  match board.get_gpio_number channel with
  | .error error => (.error error, board)
  | .ok gpio =>
    match board.mmap_gpio_mem result with
    | (.error error, board) => (.error error, board)
    | (.ok _, board) => (.ok (functionName gpio (gpio_function gpio board.block)), board)

/-- A call of the program that changes something. -/
inductive PinCall where
  | setmode (new_mode : CInt)
  | setup (result : SetupResult) (channels : PyArgument) (direction pud initial : CInt)
  | output (channels values : PyArgument)
  /-- Without a channel it is the call with -666. -/
  | cleanup (channels : PyArgument)

def Module.step (board : Module) : PinCall → Result
  | .setmode new_mode => board.setmode new_mode
  | .setup result channels direction pud initial =>
    board.setup_channel result channels direction pud initial
  | .output channels values => board.output channels values
  | .cleanup channels => board.cleanup channels

/-- The exceptions of the calls, which the program may catch, and the module afterwards. -/
def Module.run (board : Module) : List PinCall → List (Except PyError Unit) × Module
  | [] => ([], board)
  | call :: rest =>
    let (exception, board) := board.step call
    let (exceptions, board) := board.run rest
    (exception :: exceptions, board)

/-- The module after the import. -/
def Module.imported (p1_revision : ℕ) (block : Block) : Module :=
  ⟨⟨p1_revision, MODE_UNKNOWN, fun _ ↦ -1, false⟩, block⟩

end PiFunk.RpiGpio
