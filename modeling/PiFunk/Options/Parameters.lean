import PiFunk.Constants
import PiFunk.Library.LexicalScope
import PiFunk.Options.CommandLine

/-!
# The parameters the transmission reads

Twelve parameters are declared inside `main`, and eleven of them at file scope under the same
names.  The option cases of `main` assign to its own variables; `setupDMA`, `play_am`, `play_fm`,
`sampleselect` and `modselect` are functions outside `main` and read the file scope, which keeps
its initial values.

So whatever is parsed, the transmission code sees the same parameters, and they are the parsed
ones only where these happen to be the initial values.
-/

namespace PiFunk.Options

open LastWrite LexicalScope

/-- The declarations at file scope; what has no initializer is zero or NULL. -/
def fileScope : Param → Option Value
  | .filename => some (.text (some soundWav))
  | .freq => some (.float 0)
  | .samplerate => some (.int 0)
  | .mod => some (.text none)
  | .power => some (.int 0)
  | .callsign => some (.text none)
  | .gpiopin => some (.int 0)
  | .dmachannel => some (.int 0)
  | .bandwidth => some (.float 0)
  | .type => some (.int 0)
  | .gps => some (.text none)
  | .loop => none

/-- The declarations inside `main`; what has no initializer is indeterminate. -/
def mainBlock (indeterminate : Param → Value) : Param → Option Value
  | .callsign => some (.text (some callsignText))
  | param => some (indeterminate param)

/-- The variable an option assigns to inside `main`, and its value. -/
def Libc.assignment (libc : Libc) : Delivered → Option (Param × Value)
  | .setting param argument => some (param, libc.convert param argument)
  | _ => none

/-- The variables when `main` prints that the transmission is starting, after an option loop that
has assigned every option its own argument. -/
def transmissionStarting (libc : Libc) (argv : List CString) (indeterminate : Param → Value) :
    Scopes Param Value :=
  Scopes.run libc.assignment ⟨fileScope, mainBlock indeterminate⟩ (libc.getopt argv)

/-- The argument of the last occurrence of an option. -/
def lastArgument (libc : Libc) (argv : List CString) (param : Param) : Option CString :=
  lastSome (Delivered.argument? param) (libc.getopt argv)

/-- The parameters that code outside `main` reads. -/
def transmissionParams : List Param :=
  [.freq, .samplerate, .mod, .filename, .power, .gpiopin, .dmachannel, .bandwidth, .type, .gps]

/-- Outside `main`, every parameter that was given holds what was parsed. -/
def ReadsParsed (libc : Libc) (argv : List CString) (scopes : Scopes Param Value) : Prop :=
  ∀ param ∈ transmissionParams, ∀ argument, lastArgument libc argv param = some argument →
    scopes.file param = some (libc.convert param argument)

/-- What the modulators are handed. -/
def modulatorParams (scopes : Scopes Param Value) : Option Value × Option Value × Option Value :=
  (scopes.file .freq, scopes.file .samplerate, scopes.file .mod)

/-- The arguments that stand for what the file scope declares: none for the pointers that are NULL
there. -/
def Libc.AsDeclared (libc : Libc) : Param → CString → Prop
  | .filename, argument => argument = soundWav
  | .freq, argument => libc.single (libc.atof argument) = 0
  | .samplerate, argument => libc.atoi argument = 0
  | .mod, _ => False
  | .power, argument => libc.atoi argument = 0
  | .gpiopin, argument => truncate (libc.atof argument) = 0
  | .dmachannel, argument => truncate (libc.atof argument) = 0
  | .bandwidth, argument => libc.single (libc.atoi argument) = 0
  | .type, argument => truncate (libc.atof argument) = 0
  | .gps, _ => False
  | .callsign, _ => True
  | .loop, _ => True

/-- Every option that was given has such an argument. -/
def GivenAsDeclared (libc : Libc) (argv : List CString) : Prop :=
  ∀ param argument, lastArgument libc argv param = some argument → libc.AsDeclared param argument

section Run

variable (libc : Libc) (argv : List CString) (indeterminate : Param → Value)

/-- `main` declares every parameter itself. -/
theorem mainBlock_shadowed :
    (⟨fileScope, mainBlock indeterminate⟩ : Scopes Param Value).Shadowed := by
  intro param
  cases param <;> rfl

theorem transmissionStarting_file :
    (transmissionStarting libc argv indeterminate).file = fileScope :=
  (Scopes.run_spec libc.assignment (libc.getopt argv) (mainBlock_shadowed indeterminate)).1

theorem written_assignment (param : Param) (option : Delivered) :
    Scopes.written libc.assignment param option =
      (option.argument? param).map (libc.convert param) := by
  cases option with
  | setting other argument =>
    by_cases hother : other = param
    · subst hother
      simp [Scopes.written, Libc.assignment, Delivered.argument?]
    · simp [Scopes.written, Libc.assignment, Delivered.argument?, hother, Ne.symm hother]
  | assistant => rfl
  | menu => rfl
  | help => rfl
  | unknown => rfl

/-- Inside `main` a parameter that was given holds what was parsed. -/
theorem lookup_transmissionStarting {param : Param} {argument : CString}
    (hgiven : lastArgument libc argv param = some argument) :
    (transmissionStarting libc argv indeterminate).lookup param =
      some (libc.convert param argument) := by
  have hblock := (Scopes.run_spec libc.assignment (libc.getopt argv)
    (mainBlock_shadowed indeterminate)).2 param
  have hwritten : Scopes.written libc.assignment param =
      fun option ↦ (Delivered.argument? param option).map (libc.convert param) := by
    funext option
    exact written_assignment libc param option
  have hlast : lastSome (Scopes.written libc.assignment param) (libc.getopt argv) =
      some (libc.convert param argument) := by
    rw [hwritten, lastSome_map, ← lastArgument, hgiven, Option.map_some]
  calc
    (transmissionStarting libc argv indeterminate).lookup param =
        ((transmissionStarting libc argv indeterminate).block param).or
          ((transmissionStarting libc argv indeterminate).file param) := rfl
    _ = some (libc.convert param argument) := by
      rw [transmissionStarting, hblock, hlast, Option.some_or, Option.some_or]

/-- For the parameters that are read outside, these are the arguments converted to the declared
values. -/
theorem fileScope_eq_iff {param : Param} (hread : param ∈ transmissionParams)
    (argument : CString) :
    fileScope param = some (libc.convert param argument) ↔ libc.AsDeclared param argument := by
  cases param <;> simp [fileScope, Libc.convert, Libc.AsDeclared, transmissionParams, eq_comm]
    at hread ⊢

/-- The given parameters are read exactly when they equal the declared ones. -/
theorem readsParsed_iff :
    ReadsParsed libc argv (transmissionStarting libc argv indeterminate) ↔
      GivenAsDeclared libc argv := by
  rw [ReadsParsed, transmissionStarting_file]
  constructor
  · intro hreads param argument hargument
    by_cases hread : param ∈ transmissionParams
    · exact (fileScope_eq_iff libc hread argument).mp (hreads param hread argument hargument)
    · cases param <;> first | exact True.intro | exact absurd (by decide) hread
  · intro hgiven param hread argument hargument
    exact (fileScope_eq_iff libc hread argument).mpr (hgiven param argument hargument)

end Run

/-- On every command line the transmission code reads the parsed parameters exactly when they are
the ones of the file scope, and no two command lines hand different parameters to the
modulators. -/
theorem transmissionStarting_readsParsed_iff (libc : Libc) (argv : List CString)
    (indeterminate : Param → Value) :
    (ReadsParsed libc argv (transmissionStarting libc argv indeterminate) ↔
        GivenAsDeclared libc argv) ∧
      ∀ otherArgv otherIndeterminate,
        modulatorParams (transmissionStarting libc otherArgv otherIndeterminate) =
          modulatorParams (transmissionStarting libc argv indeterminate) := by
  refine ⟨readsParsed_iff libc argv indeterminate, fun otherArgv otherIndeterminate ↦ ?_⟩
  simp only [modulatorParams, transmissionStarting_file]

/-- `pifunk -f 100`: the transmission code reads the frequency 0. -/
theorem transmissionStarting_reads_not_freq :
    let freq : CString := ⟨[0x31, 0x30, 0x30], by decide⟩
    let argv : List CString := [⟨[0x70, 0x69, 0x66, 0x75, 0x6E, 0x6B], by decide⟩,
      ⟨[0x2D, 0x66], by decide⟩, freq]
    let decimal (digits : CString) : ℕ :=
      digits.chars.foldl (fun value digit ↦ 10 * value + (digit.toNat - 0x30)) 0
    let libc : Libc := ⟨fun _ ↦ [.setting .freq freq], none, fun digits ↦ decimal digits,
      fun digits ↦ decimal digits, id⟩
    ¬ ReadsParsed libc argv (transmissionStarting libc argv fun _ ↦ .int 0) := by
  intro freq argv decimal libc hreads
  have hread := hreads .freq (by decide) freq rfl
  rw [transmissionStarting_file] at hread
  exact absurd hread (by decide)

end PiFunk.Options
