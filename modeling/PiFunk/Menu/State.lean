import PiFunk.Constants
import PiFunk.Library.Loop

/-!
# The globals of the interactive menu

The selectors of the menu ask for one answer each and leave it in a global variable.  An answer is
what the conversion of `scanf` makes of the input at that point, for each format: input that it
cannot convert leaves the variable as it was, and so does the end of the input.  Lines that are
only printed are left out.
-/

namespace PiFunk.Menu

open FuelLoop

inductive CharPtr where
  | null
  /-- A pointer to a string. -/
  | text (address : CInt) (string : CString)
  /-- A variable whose own bytes `scanf ("%s", …)` has overwritten with characters. -/
  | overwritten (characters : CString)
deriving DecidableEq

/-- The string a pointer refers to. -/
def CharPtr.string? : CharPtr → Option CString
  | .null => none
  | .text _ string => some string
  | .overwritten _ => none

/-- A string constant of the program: its characters, and where the compiler has placed it. -/
structure Literal where
  address : CInt
  string : CString
deriving DecidableEq

/-- The pointer to a string constant. -/
def Literal.pointer (literal : Literal) : CharPtr := .text literal.address literal.string

/-- The comparison of two pointers with `==`. -/
def CharPtr.same : CharPtr → CharPtr → Bool
  | .null, .null => true
  | .text first _, .text second _ => first == second
  | _, _ => false

structure Globals where
  freq : ℚ
  type : CInt
  channelnumberpmr : CInt
  channelnumbercb : CInt
  channelmode : CInt
  modeselect : CInt
  freqmode : CInt
  mod : CharPtr
  callnameselect : CInt
  callsign : CharPtr
  powerlevel : CInt
  power : CInt
  gpiopin : CInt
  dmachannel : CInt
  bandwidth : ℚ
  gps : CharPtr
  filebit : CInt
  n : ℕ
  volbuffer : ℕ → ℚ
  volumeMultiplier : ℚ

def Globals.initial : Globals where
  freq := 0
  type := 0
  channelnumberpmr := 0
  channelnumbercb := 0
  channelmode := 0
  modeselect := 0
  freqmode := 0
  mod := .null
  callnameselect := 0
  callsign := .null
  powerlevel := 0
  power := 0
  gpiopin := 0
  dmachannel := 0
  bandwidth := 0
  gps := .null
  filebit := 16
  n := 0
  volbuffer := fun _ ↦ 0
  volumeMultiplier := 1

/-- Why the process ends inside the menu. -/
inductive Stop where
  /-- `exit (0)`. -/
  | exit
  /-- A pointer that refers to nothing is followed. -/
  | fault
deriving DecidableEq, Repr

/-- One answer of the user: what the conversions of `scanf` make of it. -/
structure Answer where
  /-- `%d`. -/
  int : Option CInt
  /-- `%f`. -/
  float : Option ℚ
  /-- `%s`. -/
  text : Option CString

/-- `scanf` into a variable that holds `before`. -/
def scanf {α : Type*} (answer : Option α) (before : α) : α := answer.getD before

/-- The value of a C expression as a condition. -/
def truth (value : ℤ) : Bool := value != 0

end PiFunk.Menu
