import PiFunk.CTypes
import PiFunk.Library.Loop
import PiFunk.Library.Segments

/-!
# The scan of the command line

`getopt` and `getopt_long` are both `_getopt_internal`.  Every call returns the next option of
`argv` and keeps its place in static variables; under the order `PERMUTE` it also moves the
elements that are not options behind the options it has met.

A pointer into a string is the list of the characters from there to the terminator.  A `char` is
unsigned, as on the ARM targets, and an access of `argv` outside its bounds has no result.  The
flags that only the GNU C library keeps for the shell are not compiled in.
-/

namespace PiFunk.Getopt

open FuelLoop Segments

/-- A character of the source text. -/
abbrev ascii (literal : Char) : Byte := BitVec.ofNat 8 literal.toNat

/-- `ordering`. -/
inductive Order where
  | requireOrder
  | permute
  | returnInOrder
deriving DecidableEq, Repr

/-- `struct option`; `has_arg` is 0, 1 or 2 for no, a required and an optional argument. -/
structure LongOption where
  name : CString
  has_arg : ℤ
  /-- The variable that gets `val`, unless the pointer is NULL. -/
  flag : Option ℕ
  val : ℤ
deriving DecidableEq

/-- A line on `stderr`: the format and the strings and characters it is printed with. -/
structure Message where
  format : String
  arguments : List (List Byte)
deriving DecidableEq

/-- The arguments of every call and the environment. -/
structure Config where
  optstring : List Byte
  longopts : Option (List LongOption)
  long_only : Bool
  opterr : Bool
  posixly_correct : Bool

/-- The variables that live on between the calls. -/
structure State where
  argv : List CString
  optind : ℕ
  optarg : Option (List Byte)
  nextchar : Option (List Byte)
  first_nonopt : ℕ
  last_nonopt : ℕ
  ordering : Order
  initialized : Bool

/-- The value a call returns and the assignments it makes for the caller. -/
structure Reply where
  code : ℤ
  optopt : Option ℤ := none
  longind : Option ℕ := none
  /-- The variable `pfound->flag` points to and the value it gets. -/
  flag : Option (ℕ × ℤ) := none
  message : Option Message := none
deriving DecidableEq

/-- `argv [0]`, for the messages. -/
def State.program (state : State) : List Byte := (state.argv.head?.map CString.chars).getD []

/-- The value of a `char` that is returned. -/
def promote (c : Byte) : ℤ := c.toNat

/-- `NONOPTION_P`, for the element `argv [optind]`. -/
def nonoption (element : CString) : Bool :=
  element.get 0 ≠ ascii '-' ∨ element.get 1 = 0

def my_index : List Byte → Byte → Option (List Byte)
  | [], _ => none
  | first :: rest, chr => if first = chr then some (first :: rest) else my_index rest chr

/-! ## The order of the elements -/

def State.exchange (state : State) : Option State :=
  (Segments.exchange state.first_nonopt state.last_nonopt state.optind state.argv).map fun argv ↦
    { state with
      argv
      first_nonopt := state.first_nonopt + (state.optind - state.last_nonopt)
      last_nonopt := state.optind }

/-- The order that `_getopt_initialize` chooses. -/
def Config.ordering (config : Config) : Order :=
  if config.optstring.head? = some (ascii '-') then .returnInOrder
  else if config.optstring.head? = some (ascii '+') then .requireOrder
  else if config.posixly_correct then .requireOrder
  else .permute

/-- What `_getopt_initialize` returns: the option letters without the character of the order. -/
def Config.letters (config : Config) : List Byte :=
  if config.optstring.head? = some (ascii '-') ∨ config.optstring.head? = some (ascii '+') then
    config.optstring.tail
  else config.optstring

/-- The first call, or any other call with `optind` 0, starts a new scan. -/
def State.fresh (state : State) : Bool := state.optind = 0 ∨ !state.initialized

/-- The initialization at the beginning of a call. -/
def Config.getoptInitialize (config : Config) (state : State) : State :=
  let optind := if state.optind = 0 then 1 else state.optind
  { state with
    optind
    first_nonopt := optind
    last_nonopt := optind
    nextchar := none
    ordering := config.ordering
    initialized := true }

/-- `while (optind < argc && NONOPTION_P) optind++`, over the elements from `optind` on. -/
def skip : List CString → ℕ → ℕ
  | [], optind => optind
  | element :: rest, optind => if nonoption element then skip rest (optind + 1) else optind

/-- The bounds of the skipped elements when the caller has moved `optind` back. -/
def State.rational (state : State) : State :=
  { state with
    last_nonopt := min state.last_nonopt state.optind
    first_nonopt := min state.first_nonopt state.optind }

/-- Move the options processed since then in front of the skipped elements, and skip further
elements. -/
def State.permute (state : State) : Option State :=
  if state.ordering = .permute then
    (if state.first_nonopt ≠ state.last_nonopt ∧ state.last_nonopt ≠ state.optind then
      state.exchange
    else if state.last_nonopt ≠ state.optind then
      some { state with first_nonopt := state.optind }
    else some state).map fun moved ↦
      let optind := skip (moved.argv.drop moved.optind) moved.optind
      { moved with optind, last_nonopt := optind }
  else some state

/-- The special element `--` ends the options. -/
def State.terminator (state : State) : Option State :=
  if state.optind = state.argv.length then some state
  else state.argv[state.optind]?.bind fun element ↦
    if element.chars = [ascii '-', ascii '-'] then
      let state := { state with optind := state.optind + 1 }
      (if state.first_nonopt ≠ state.last_nonopt ∧ state.last_nonopt ≠ state.optind then
        state.exchange
      else if state.first_nonopt = state.last_nonopt then
        some { state with first_nonopt := state.optind }
      else some state).map fun moved ↦
        { moved with last_nonopt := moved.argv.length, optind := moved.argv.length }
    else some state

/-! ## Long options -/

/-- `pfound` with `indfound`, `exact` and `ambig`. -/
structure Search where
  pfound : Option (LongOption × ℕ)
  exact : Bool
  ambig : Bool

/-- The loop over the long options, for the name given on the command line.  The loop for `-W` is
the same as the one under `long_only`: there every second abbreviation is ambiguous. -/
def search (long_only : Bool) (name : List Byte) : List LongOption → ℕ → Search → Search
  | [], _, found => found
  | p :: rest, option_index, found =>
    -- `strncmp` compares as many characters as the name has
    if name.isPrefixOf p.name.chars then
      if name.length = p.name.chars.length then
        { found with pfound := some (p, option_index), exact := true }
      else
        match found.pfound with
        | none =>
          search long_only name rest (option_index + 1)
            { found with pfound := some (p, option_index) }
        | some (pfound, _) =>
          if long_only ∨ pfound.has_arg ≠ p.has_arg ∨ pfound.flag ≠ p.flag ∨
              pfound.val ≠ p.val then
            search long_only name rest (option_index + 1) { found with ambig := true }
          else search long_only name rest (option_index + 1) found
    else search long_only name rest (option_index + 1) found

/-- Messages are printed unless the caller or the option letters say otherwise. -/
def Config.print_errors (config : Config) : Bool :=
  config.opterr ∧ config.optstring.head? ≠ some (ascii ':')

def Config.print (config : Config) (format : String) (arguments : List (List Byte)) :
    Option Message :=
  if config.print_errors then some ⟨format, arguments⟩ else none

/-- The value for a missing argument. -/
def missing (optstring : List Byte) : ℤ :=
  promote (if optstring.head? = some (ascii ':') then ascii ':' else ascii '?')

/-- What a call returns for a long option it has found. -/
def LongOption.reply (pfound : LongOption) (option_index : ℕ) : Reply :=
  match pfound.flag with
  | some target => { code := 0, longind := option_index, flag := some (target, pfound.val) }
  | none => { code := pfound.val, longind := option_index }

/-- Several options begin with the name. -/
def Config.ambiguousName (config : Config) (program : List Byte) (element : CString) : Reply where
  code := promote (ascii '?')
  optopt := some 0
  message := config.print "%s: option `%s' is ambiguous\n" [program, element.chars]

/-- No option begins with the name. -/
def Config.unrecognized (config : Config) (program nextchar : List Byte) (element : CString) :
    Reply where
  code := promote (ascii '?')
  optopt := some 0
  message :=
    if element.get 1 = ascii '-' then
      config.print "%s: unrecognized option `--%s'\n" [program, nextchar]
    else
      config.print "%s: unrecognized option `%c%s'\n" [program, [element.get 0], nextchar]

/-- The option has an argument, which it does not take. -/
def Config.unwantedArgument (config : Config) (program : List Byte) (element : CString)
    (pfound : LongOption) : Reply where
  code := promote (ascii '?')
  optopt := some pfound.val
  message :=
    if element.get 1 = ascii '-' then
      config.print "%s: option `--%s' doesn't allow an argument\n" [program, pfound.name.chars]
    else
      config.print "%s: option `%c%s' doesn't allow an argument\n"
        [program, [element.get 0], pfound.name.chars]

/-- The option takes an argument, which is missing. -/
def Config.missingArgument (config : Config) (optstring program : List Byte) (element : CString)
    (pfound : LongOption) : Reply where
  code := missing optstring
  optopt := some pfound.val
  message := config.print "%s: option `%s' requires an argument\n" [program, element.chars]

/-- A long option that was found, when `optind` is past its element: `nameend` is what follows the
name. -/
def Config.accept (config : Config) (optstring nameend : List Byte) (element : CString)
    (pfound : LongOption) (option_index : ℕ) (state : State) : Reply × State :=
  if nameend ≠ [] then
    if pfound.has_arg ≠ 0 then
      (pfound.reply option_index, { state with optarg := some nameend.tail, nextchar := some [] })
    else
      (config.unwantedArgument state.program element pfound, { state with nextchar := some [] })
  else if pfound.has_arg = 1 then
    match state.argv[state.optind]? with
    | some argument =>
      (pfound.reply option_index, { state with
        optarg := some argument.chars, optind := state.optind + 1, nextchar := some [] })
    | none =>
      (config.missingArgument optstring state.program element pfound,
        { state with nextchar := some [] })
  else (pfound.reply option_index, { state with nextchar := some [] })

/-- The long options.  There is no result when the element is taken for a short option instead. -/
def Config.long (config : Config) (optstring nextchar : List Byte) (longopts : List LongOption)
    (element : CString) (state : State) : Option (Reply × State) :=
  let result :=
    search config.long_only (nextchar.takeWhile (· ≠ ascii '=')) longopts 0 ⟨none, false, false⟩
  if result.ambig ∧ !result.exact then
    some (config.ambiguousName state.program element,
      { state with nextchar := some [], optind := state.optind + 1 })
  else
    match result.pfound with
    | some (pfound, option_index) =>
      some (config.accept optstring (nextchar.dropWhile (· ≠ ascii '=')) element pfound option_index
        { state with optind := state.optind + 1 })
    | none =>
      if !config.long_only ∨ element.get 1 = ascii '-' ∨
          my_index optstring (nextchar.getD 0 0) = none then
        some (config.unrecognized state.program nextchar element,
          { state with nextchar := some [], optind := state.optind + 1 })
      else none

/-! ## Short options -/

/-- The long option that `-W` names, with its argument text in `optarg`. -/
def Config.longOfW (config : Config) (optstring text : List Byte) (state : State) :
    Option (Reply × State) :=
  let name := text.takeWhile (· ≠ ascii '=')
  let nameend := text.dropWhile (· ≠ ascii '=')
  let result := search true name (config.longopts.getD []) 0 ⟨none, false, false⟩
  if result.ambig ∧ !result.exact then
    let next := { state with nextchar := some [], optind := state.optind + 1 }
    if config.print_errors then
      state.argv[state.optind]?.map fun element ↦
        ({ code := promote (ascii '?'),
           message := config.print "%s: option `-W %s' is ambiguous\n"
             [state.program, element.chars] }, next)
    else some ({ code := promote (ascii '?') }, next)
  else
    match result.pfound with
    | some (pfound, option_index) =>
      if nameend ≠ [] then
        if pfound.has_arg ≠ 0 then
          some (pfound.reply option_index,
            { state with optarg := some nameend.tail, nextchar := some [] })
        else
          some ({
            code := promote (ascii '?')
            message := config.print "%s: option `-W %s' doesn't allow an argument\n"
              [state.program, pfound.name.chars] },
            { state with nextchar := some [] })
      else if pfound.has_arg = 1 then
        if state.optind < state.argv.length then
          state.argv[state.optind]?.map fun argument ↦
            (pfound.reply option_index, { state with
              optarg := some argument.chars, optind := state.optind + 1, nextchar := some [] })
        else
          state.argv[state.optind - 1]?.map fun element ↦
            ({ code := missing optstring,
               message := config.print "%s: option `%s' requires an argument\n"
                 [state.program, element.chars] },
              { state with nextchar := some [] })
      else some (pfound.reply option_index, { state with nextchar := some [] })
    | none => some ({ code := promote (ascii 'W') }, { state with nextchar := none })

/-- The character is not an option letter. -/
def Config.invalid (config : Config) (program : List Byte) (c : Byte) : Reply where
  code := promote (ascii '?')
  optopt := some (promote c)
  message := config.print
    (if config.posixly_correct then "%s: illegal option -- %c\n"
      else "%s: invalid option -- %c\n") [program, [c]]

/-- The argument of the option letter is missing. -/
def Config.requires (config : Config) (optstring program : List Byte) (c : Byte) : Reply where
  code := missing optstring
  optopt := some (promote c)
  message := config.print "%s: option requires an argument -- %c\n" [program, [c]]

/-- The short option `c`, when `nextchar` points behind it to the further characters `more`. -/
def Config.option (config : Config) (optstring : List Byte) (c : Byte) (more : List Byte)
    (state : State) : Option (Reply × State) :=
  match my_index optstring c with
  | none => some (config.invalid state.program c, state)
  | some temp =>
    if c = ascii ':' then some (config.invalid state.program c, state)
    else if temp.getD 0 0 = ascii 'W' ∧ temp.getD 1 0 = ascii ';' then
      if more ≠ [] then
        config.longOfW optstring more
          { state with optarg := some more, optind := state.optind + 1 }
      else if state.optind = state.argv.length then
        some (config.requires optstring state.program c, state)
      else
        state.argv[state.optind]?.bind fun argument ↦
          config.longOfW optstring argument.chars
            { state with optarg := some argument.chars, optind := state.optind + 1 }
    else if temp.getD 1 0 = ascii ':' then
      if temp.getD 2 0 = ascii ':' then
        if more ≠ [] then
          some ({ code := promote c }, { state with
            optarg := some more, optind := state.optind + 1, nextchar := none })
        else some ({ code := promote c }, { state with optarg := none, nextchar := none })
      else if more ≠ [] then
        some ({ code := promote c }, { state with
          optarg := some more, optind := state.optind + 1, nextchar := none })
      else if state.optind = state.argv.length then
        some (config.requires optstring state.program c, { state with nextchar := none })
      else
        state.argv[state.optind]?.map fun argument ↦
          ({ code := promote c }, { state with
            optarg := some argument.chars, optind := state.optind + 1, nextchar := none })
    else some ({ code := promote c }, state)

/-- The next short option: `optind` is incremented at the last character of an element. -/
def Config.short (config : Config) (optstring : List Byte) (c : Byte) (more : List Byte)
    (state : State) : Option (Reply × State) :=
  config.option optstring c more { state with
    nextchar := some more
    optind := if more = [] then state.optind + 1 else state.optind }

/-! ## One call -/

/-- Decode the current element from the character that `nextchar` points to. -/
def Config.decode (config : Config) (optstring : List Byte) (state : State) :
    Option (Reply × State) :=
  match state.nextchar with
  | some (c :: more) =>
    match config.longopts with
    | some longopts =>
      state.argv[state.optind]?.bind fun element ↦
        if element.get 1 = ascii '-' ∨ config.long_only ∧
            (element.get 2 ≠ 0 ∨ my_index optstring (element.get 1) = none) then
          match config.long optstring (c :: more) longopts element state with
          | some result => some result
          | none => config.short optstring c more state
        else config.short optstring c more state
    | none => config.short optstring c more state
  -- the terminator of the element is never decoded
  | _ => none

/-- Look at the next element, when skipped elements are behind `optind`. -/
def Config.proceed (config : Config) (optstring : List Byte) (state : State) :
    Option (Reply × State) :=
  state.terminator.bind fun state ↦
    if state.optind = state.argv.length then
      some ({ code := -1 }, { state with
        optind := if state.first_nonopt ≠ state.last_nonopt then state.first_nonopt
          else state.optind })
    else
      state.argv[state.optind]?.bind fun element ↦
        if nonoption element then
          if state.ordering = .requireOrder then some ({ code := -1 }, state)
          else some ({ code := 1 }, { state with
            optarg := some element.chars, optind := state.optind + 1 })
        else
          config.decode optstring { state with
            nextchar := some (element.chars.drop
              (if config.longopts.isSome ∧ element.get 1 = ascii '-' then 2 else 1)) }

/-- Go on with the scan: advance to the next element at the end of the current one. -/
def Config.resume (config : Config) (optstring : List Byte) (state : State) :
    Option (Reply × State) :=
  if state.nextchar = none ∨ state.nextchar = some [] then
    state.rational.permute.bind (config.proceed optstring)
  else config.decode optstring state

def Config.getopt_internal (config : Config) (state : State) : Option (Reply × State) :=
  if state.argv.length < 1 then some ({ code := -1 }, state)
  else
    let cleared := { state with optarg := none }
    if state.fresh then config.resume config.letters (config.getoptInitialize cleared)
    else config.resume config.optstring cleared

def getopt (config : Config) : State → Option (Reply × State) :=
  { config with longopts := none, long_only := false }.getopt_internal

def getopt_long (config : Config) : State → Option (Reply × State) :=
  { config with long_only := false }.getopt_internal

def getopt_long_only (config : Config) : State → Option (Reply × State) :=
  { config with long_only := true }.getopt_internal

end PiFunk.Getopt
