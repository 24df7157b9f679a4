import PiFunk.CTypes
import PiFunk.Library.LastWrite
import PiFunk.Library.Loop

/-!
# The option loop of `main`

`main` calls `getopt` once and `getopt_long` once, and then loops over a switch on the first of the
two results.  The C library delivers the options of `argv` one after another and then -1; the
parsing itself and the conversions are parameters.  Lines that are only printed are left out.

The loop condition is `options != (-1 || 0)`, where the right side is 1, and the loop never calls
`getopt` again.  So it goes round for ever with the first option, and every round falls through
from the case of that option into the following ones.
-/

namespace PiFunk.Options

open FuelLoop LastWrite

/-- The variables of `main` that an option sets. -/
inductive Param where
  | filename
  | freq
  | samplerate
  | mod
  | power
  | callsign
  | gpiopin
  | dmachannel
  | bandwidth
  | type
  | gps
  | loop
deriving DecidableEq, Repr

/-- The character of an option, as `getopt` returns it. -/
def Param.flag : Param → ℤ
  | .filename => 'n'.toNat
  | .freq => 'f'.toNat
  | .samplerate => 's'.toNat
  | .mod => 'm'.toNat
  | .power => 'p'.toNat
  | .callsign => 'c'.toNat
  | .gpiopin => 'g'.toNat
  | .dmachannel => 'd'.toNat
  | .bandwidth => 'b'.toNat
  | .type => 't'.toNat
  | .gps => 'x'.toNat
  | .loop => 'l'.toNat

/-- The contents of a variable: a pointer to characters or NULL, a `float` or an `int`. -/
inductive Value where
  | text (pointer : Option CString)
  | float (value : ℚ)
  | int (value : ℤ)
deriving DecidableEq

/-- One option as the C library delivers it; the options of `short_opt` that are followed by a
colon have an argument. -/
inductive Delivered where
  | setting (param : Param) (argument : CString)
  | assistant
  | menu
  | help
  /-- An unknown option, or a missing argument. -/
  | unknown
deriving DecidableEq

/-- What `getopt` returns for the option. -/
def Delivered.flag : Delivered → ℤ
  | .setting param _ => param.flag
  | .assistant => 'a'.toNat
  | .menu => 'u'.toNat
  | .help => 'h'.toNat
  | .unknown => '?'.toNat

/-- What `optarg` points to behind the option. -/
def Delivered.optarg : Delivered → Option CString
  | .setting _ argument => some argument
  | .assistant => none
  | .menu => none
  | .help => none
  | .unknown => none

/-- The functions of the C library that `main` parses with. -/
structure Libc where
  /-- The options of `argv`, in order. -/
  getopt : List CString → List Delivered
  /-- What `optarg` points to when there are no more options. -/
  optargAtEnd : Option CString
  atof : CString → ℚ
  atoi : CString → ℤ
  /-- The rounding of a number to a `float`. -/
  single : ℚ → ℚ

/-- The right side of the assignment to the variable, for an argument. -/
def Libc.convert (libc : Libc) (param : Param) (argument : CString) : Value :=
  match param with
  | .filename => .text (some argument)
  | .freq => .float (libc.single (libc.atof argument))
  | .samplerate => .int (libc.atoi argument)
  | .mod => .text (some argument)
  | .power => .int (libc.atoi argument)
  | .callsign => .text (some argument)
  | .gpiopin => .int (truncate (libc.atof argument))
  | .dmachannel => .int (truncate (libc.atof argument))
  | .bandwidth => .float (libc.single (libc.atoi argument))
  | .type => .int (truncate (libc.atof argument))
  | .gps => .text (some argument)
  | .loop => .int (truncate (libc.atof argument))

/-- The variables that are assigned `optarg` itself. -/
def Param.isPointer : Param → Bool
  | .filename => true
  | .mod => true
  | .callsign => true
  | .gps => true
  | _ => false

/-- The state of `main`: its variables, the state of the C library's scan, and the two results. -/
structure Main where
  values : Param → Value
  pending : List Delivered
  optarg : Option CString
  options : ℤ
  flags : ℤ

/-- Why `main` ends inside the loop. -/
inductive Stop where
  /-- `return (value)`. -/
  | returned (value : ℤ)
  /-- `atof (NULL)` or `atoi (NULL)`. -/
  | nullArgument
deriving DecidableEq, Repr

abbrev Program := FuelLoop.Program Stop Main

/-- Deliver the next option. -/
def Libc.next (libc : Libc) (main : Main) : ℤ × Main :=
  match main.pending with
  | [] => (-1, { main with optarg := libc.optargAtEnd })
  | option :: rest => (option.flag, { main with pending := rest, optarg := option.optarg })

/-- The assignment in the case of an option. -/
def Libc.assign (libc : Libc) (param : Param) (main : Main) : Outcome Stop Main :=
  match main.optarg with
  | some argument =>
    .done { main with
      values := Function.update main.values param (libc.convert param argument) }
  | none =>
    if param.isPointer then
      .done { main with values := Function.update main.values param (.text none) }
    else .halted .nullArgument main

/-- The cases of the switch that assign a variable, in the order of the source. -/
def cases : List Param :=
  [.filename, .freq, .samplerate, .mod, .power, .callsign, .gpiopin, .dmachannel, .bandwidth, .type,
    .gps, .loop]

/-- Assignments one after another. -/
def Libc.assignAll (libc : Libc) : List Param → Main → Outcome Stop Main
  | [], main => .done main
  | param :: rest, main => (libc.assign param main).andThen (libc.assignAll rest)

/-- `switch (options)`: no case of a variable ends with a `break`, so the switch runs from its own
case through to `'l'` and on into `'a'`, which only prints, as the other cases do. -/
def Libc.switch (libc : Libc) (main : Main) : Outcome Stop Main :=
  libc.assignAll (cases.dropWhile fun param ↦ param.flag ≠ main.options) main

/-- The operator `||`. -/
def logicalOr (left right : ℤ) : ℤ := if left ≠ 0 ∨ right ≠ 0 then 1 else 0

/-- One iteration of `while (options != (-1 || 0))`. -/
def Libc.iteration (libc : Libc) (argc : ℕ) : Main → Iteration Stop Main :=
  whileIteration (fun main ↦ main.options ≠ logicalOr (-1) 0)
    (fun main ↦ if argc ≤ 0 then .halted (.returned (-1)) main else libc.switch main)

/-- The options part of `main`. -/
def Libc.main (libc : Libc) (argv : List CString) : Program := fun fuel before ↦
  let (options, first) := libc.next { before with pending := libc.getopt argv }
  let (flags, second) := libc.next first
  loop (libc.iteration argv.length) fuel { second with options, flags }

/-! ## Termination -/

/-- No option is the character 1, which the loop condition waits for. -/
theorem flag_ne_one (option : Delivered) : option.flag ≠ 1 := by
  cases option with
  | setting param argument => cases param <;> exact ne_of_beq_false rfl
  | assistant => decide
  | menu => decide
  | help => decide
  | unknown => decide

/-- Neither is the end of the options. -/
theorem next_fst_ne_one (libc : Libc) (main : Main) : (libc.next main).1 ≠ 1 := by
  unfold Libc.next
  cases main.pending with
  | nil => exact ne_of_beq_false rfl
  | cons option rest => exact flag_ne_one option

theorem assignAll_options (libc : Libc) (params : List Param) {main final : Main}
    (hdone : libc.assignAll params main = .done final) : final.options = main.options := by
  induction params generalizing main with
  | nil =>
    cases hdone
    rfl
  | cons param rest ih =>
    obtain ⟨next, hassign, hrest⟩ := (Outcome.andThen_eq_done_iff _ _ _).mp hdone
    rw [ih hrest]
    unfold Libc.assign at hassign
    split at hassign
    · cases hassign
      rfl
    · split_ifs at hassign
      cases hassign
      rfl

/-- The option loop never ends: it runs for ever or faults. -/
theorem main_not_returns (libc : Libc) (argv : List CString) (before final : Main) :
    ¬ Returns (libc.main argv) before final := by
  rintro ⟨fuel, hdone⟩
  refine whileLoop_ne_done (fun main next hguard hbody ↦ ?_) _ final ?_ fuel hdone
  · split_ifs at hbody
    rwa [assignAll_options libc _ hbody]
  · exact decide_eq_true (next_fst_ne_one libc { before with pending := libc.getopt argv })

/-! ## What the loop does instead -/

/-- The state after the cases `params`, with the argument that `optarg` points to. -/
def Libc.overwrite (libc : Libc) (params : List Param) (argument : CString) (main : Main) : Main :=
  { main with
    values := fun param ↦
      if param ∈ params then libc.convert param argument else main.values param }

theorem assign_eq (libc : Libc) {argument : CString} (param : Param) {main : Main}
    (hoptarg : main.optarg = some argument) :
    libc.assign param main = .done { main with
      values := Function.update main.values param (libc.convert param argument) } := by
  unfold Libc.assign
  rw [hoptarg]

/-- With an argument in `optarg` the cases are run through to the end. -/
theorem assignAll_eq (libc : Libc) {argument : CString} (params : List Param) {main : Main}
    (hoptarg : main.optarg = some argument) :
    libc.assignAll params main = .done (libc.overwrite params argument main) := by
  induction params generalizing main with
  | nil => simp [Libc.assignAll, Libc.overwrite]
  | cons param rest ih =>
    let assigned : Main := { main with
      values := Function.update main.values param (libc.convert param argument) }
    have hvalues : (libc.overwrite rest argument assigned).values =
        (libc.overwrite (param :: rest) argument main).values := by
      funext other
      simp only [Libc.overwrite, assigned, List.mem_cons, Function.update_apply]
      by_cases hother : other = param
      · subst hother
        simp only [true_or, if_true, ite_self]
      · simp only [hother, false_or, if_false]
    calc
      libc.assignAll (param :: rest) main = libc.assignAll rest assigned := by
        rw [Libc.assignAll, assign_eq libc param hoptarg, Outcome.done_andThen]
      _ = .done (libc.overwrite rest argument assigned) := ih hoptarg
      _ = .done (libc.overwrite (param :: rest) argument main) :=
        congrArg (fun values ↦ (Outcome.done { main with values } : Outcome Stop Main)) hvalues

/-- Running through them again changes nothing. -/
theorem overwrite_overwrite (libc : Libc) (params : List Param) (argument : CString)
    (main : Main) : libc.overwrite params argument (libc.overwrite params argument main) =
      libc.overwrite params argument main := by
  simp only [Libc.overwrite]
  congr 1
  funext param
  split_ifs <;> rfl

/-- When the first two options have arguments, the loop gives the second argument to the variable
of the first option and to all variables in the cases behind it, and goes on doing so. -/
theorem main_overwrites (libc : Libc) (name : CString) (arguments : List CString)
    {first second : Param} {unused argument : CString} {rest : List Delivered}
    (hscan : libc.getopt (name :: arguments) =
      .setting first unused :: .setting second argument :: rest) (before : Main) (fuel : ℕ) :
    libc.main (name :: arguments) (fuel + 1) before = .running
      (libc.overwrite (cases.dropWhile fun param ↦ param.flag ≠ first.flag) argument
        { before with
          pending := rest, optarg := some argument, options := first.flag,
          flags := second.flag }) := by
  have hround (main : Main) (hoptions : main.options = first.flag)
      (hoptarg : main.optarg = some argument) :
      libc.iteration (name :: arguments).length main = .again (libc.overwrite
        (cases.dropWhile fun param ↦ param.flag ≠ first.flag) argument main) := by
    apply whileIteration_of_done
    · rw [hoptions]
      exact decide_eq_true (flag_ne_one (.setting first unused))
    · rw [if_neg (by simp), Libc.switch, hoptions, assignAll_eq libc _ hoptarg]
  have hmain : libc.main (name :: arguments) (fuel + 1) before =
      loop (libc.iteration (name :: arguments).length) (fuel + 1) { before with
        pending := rest, optarg := some argument, options := first.flag,
        flags := second.flag } := by
    simp only [Libc.main, Libc.next, hscan]
    rfl
  rw [hmain, loop_succ_again (hround _ rfl rfl)]
  apply loop_of_fixed
  -- the second round assigns the same values once more
  rw [hround _ rfl rfl, overwrite_overwrite]

/-! ## What the loop is for -/

/-- The argument of an option that sets the variable. -/
def Delivered.argument? (param : Param) : Delivered → Option CString
  | .setting other argument => if other = param then some argument else none
  | _ => none

/-- Every variable holds the conversion of the argument of the last occurrence of its option, and
is unchanged when the option does not occur. -/
def HoldsLastArguments (libc : Libc) (argv : List CString) (before after : Main) : Prop :=
  ∀ param, after.values param =
    ((lastSome (Delivered.argument? param) (libc.getopt argv)).map (libc.convert param)).getD
      (before.values param)

/-- For no command line does the option loop end with the last argument of every option. -/
theorem main_parses_no_options (libc : Libc) (argv : List CString) (before : Main) :
    ¬ ∃ final, Returns (libc.main argv) before final ∧
      HoldsLastArguments libc argv before final := by
  rintro ⟨final, hreturns, _⟩
  exact main_not_returns libc argv before final hreturns

/-- `pifunk -f 100 -s 22050`. -/
theorem main_parses_not_two_options :
    let freq : CString := ⟨[0x31, 0x30, 0x30], by decide⟩
    let samplerate : CString := ⟨[0x32, 0x32, 0x30, 0x35, 0x30], by decide⟩
    let argv : List CString := [⟨[0x70, 0x69, 0x66, 0x75, 0x6E, 0x6B], by decide⟩,
      ⟨[0x2D, 0x66], by decide⟩, freq, ⟨[0x2D, 0x73], by decide⟩, samplerate]
    let decimal (digits : CString) : ℕ :=
      digits.chars.foldl (fun value digit ↦ 10 * value + (digit.toNat - 0x30)) 0
    let libc : Libc := ⟨fun _ ↦ [.setting .freq freq, .setting .samplerate samplerate], none,
      fun digits ↦ decimal digits, fun digits ↦ decimal digits, id⟩
    let before : Main := ⟨fun _ ↦ .int 0, [], none, 0, 0⟩
    ¬ ∃ final, Returns (libc.main argv) before final ∧
      HoldsLastArguments libc argv before final := by
  rintro freq samplerate argv decimal libc before ⟨final, hreturns, _⟩
  exact main_not_returns libc argv before final hreturns

end PiFunk.Options
