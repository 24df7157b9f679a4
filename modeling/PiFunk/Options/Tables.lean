import PiFunk.Getopt.Session
import PiFunk.Options.CommandLine

/-!
# The option tables of `main`

`main` hands `short_opt` and `long_opt` to the scan.  For every command line the scan with these
tables ends and delivers what the command line says: an option that sets a variable always comes
with its argument, the other options come without one, and so does the `?` for what is no option or
lacks its argument.
-/

namespace PiFunk.Options

open FuelLoop Getopt

def short_opt : List Byte :=
  ['n', ':', 'f', ':', 's', ':', 'm', ':', 'p', ':', 'c', ':', 'g', ':', 'd', ':', 'b', ':', 't',
    ':', 'x', ':', 'l', ':', 'a', 'u', 'h'].map ascii

def required_argument : ℤ := 1

def no_argument : ℤ := 0

def long_opt : List LongOption :=
  [⟨⟨['f', 'i', 'l', 'e', 'n', 'a', 'm', 'e'].map ascii, by decide⟩, required_argument, none,
      'n'.toNat⟩,
    ⟨⟨['f', 'r', 'e', 'q', 'e', 'n', 'c', 'y'].map ascii, by decide⟩, required_argument, none,
      'f'.toNat⟩,
    ⟨⟨['s', 'a', 'm', 'p', 'l', 'e', 'r', 'a', 't', 'e'].map ascii, by decide⟩, required_argument,
      none, 's'.toNat⟩,
    ⟨⟨['m', 'o', 'd'].map ascii, by decide⟩, required_argument, none, 'm'.toNat⟩,
    ⟨⟨['p', 'o', 'w', 'e', 'r'].map ascii, by decide⟩, required_argument, none, 'p'.toNat⟩,
    ⟨⟨['c', 'a', 'l', 'l', 's', 'i', 'g', 'n'].map ascii, by decide⟩, required_argument, none,
      'c'.toNat⟩,
    ⟨⟨['g', 'p', 'i', 'o', 'p', 'i', 'n'].map ascii, by decide⟩, required_argument, none,
      'g'.toNat⟩,
    ⟨⟨['d', 'm', 'a', 'c', 'h', 'a', 'n', 'n', 'e', 'l'].map ascii, by decide⟩, required_argument,
      none, 'd'.toNat⟩,
    ⟨⟨['b', 'a', 'n', 'd', 'w', 'i', 'd', 't', 'h'].map ascii, by decide⟩, required_argument, none,
      'b'.toNat⟩,
    ⟨⟨['t', 'y', 'p', 'e'].map ascii, by decide⟩, required_argument, none, 't'.toNat⟩,
    ⟨⟨['g', 'p', 's'].map ascii, by decide⟩, required_argument, none, 'x'.toNat⟩,
    ⟨⟨['l', 'o', 'o', 'p'].map ascii, by decide⟩, required_argument, none, 'l'.toNat⟩,
    ⟨⟨['a', 's', 's', 'i', 's', 't', 'a', 'n', 't'].map ascii, by decide⟩, no_argument, none,
      'a'.toNat⟩,
    ⟨⟨['m', 'e', 'n', 'u'].map ascii, by decide⟩, no_argument, none, 'u'.toNat⟩,
    ⟨⟨['h', 'e', 'l', 'p'].map ascii, by decide⟩, no_argument, none, 'h'.toNat⟩]

/-- The arguments of `getopt_long` in `main`. -/
def tables (posixly_correct : Bool) : Config := ⟨short_opt, some long_opt, false, true,
  posixly_correct⟩

/-- The call delivers this option: the value it returns and `optarg`. -/
def IsDelivered (event : Event) : Prop :=
  ∃ option : Delivered, event.1.code = option.flag ∧ event.2 = option.optarg.map CString.chars

/-- The value belongs to an option that sets a variable. -/
def IsSetting (code : ℤ) : Prop := ∃ param : Param, code = param.flag

/-- The value belongs to an option without an argument. -/
def IsAction (code : ℤ) : Prop :=
  code = Delivered.assistant.flag ∨ code = Delivered.menu.flag ∨ code = Delivered.help.flag

theorem isDelivered_of_isSetting {reply : Reply} (hsetting : IsSetting reply.code)
    (argument : CString) : IsDelivered (reply, some argument.chars) := by
  obtain ⟨param, hparam⟩ := hsetting
  exact ⟨.setting param argument, hparam, rfl⟩

theorem isDelivered_of_isAction {reply : Reply} (haction : IsAction reply.code) :
    IsDelivered (reply, none) := by
  rcases haction with hassistant | hmenu | hhelp
  · exact ⟨.assistant, hassistant, rfl⟩
  · exact ⟨.menu, hmenu, rfl⟩
  · exact ⟨.help, hhelp, rfl⟩

theorem isDelivered_of_unknown {reply : Reply} (hcode : reply.code = promote (ascii '?')) :
    IsDelivered (reply, none) :=
  ⟨.unknown, hcode, rfl⟩

/-! ## The letters -/

theorem mem_of_my_index {str temp : List Byte} {chr : Byte}
    (hindex : my_index str chr = some temp) : chr ∈ str := by
  induction str with
  | nil => cases hindex
  | cons first rest ih =>
    rw [my_index] at hindex
    split_ifs at hindex with hfirst
    · rw [hfirst]
      exact List.mem_cons_self
    · exact List.mem_cons_of_mem first (ih hindex)

theorem mem_of_letter {optstring : List Byte} {c : Byte} (hletter : letter optstring c ≠ .invalid) :
    c ∈ optstring := by
  unfold letter at hletter
  cases hindex : my_index optstring c with
  | none => exact absurd (by rw [hindex]) hletter
  | some temp => exact mem_of_my_index hindex

instance (code : ℤ) : Decidable (IsAction code) :=
  inferInstanceAs (Decidable (code = _ ∨ code = _ ∨ code = _))

theorem mem_cases (param : Param) : param ∈ cases := by
  cases param <;> decide

instance (code : ℤ) : Decidable (IsSetting code) :=
  decidable_of_iff (∃ param ∈ cases, code = param.flag)
    ⟨fun ⟨param, _, hcode⟩ ↦ ⟨param, hcode⟩, fun ⟨param, hcode⟩ ↦ ⟨param, mem_cases param, hcode⟩⟩

/-- Every letter of `short_opt` is one of the options, with an argument exactly where the option
sets a variable. -/
theorem letter_short_opt :
    ∀ c ∈ short_opt, letter short_opt c = .invalid ∨
      letter short_opt c = .plain ∧ IsAction (promote c) ∨
      letter short_opt c = .required ∧ IsSetting (promote c) := by
  decide

/-! ## The calls -/

section Calls

variable (posixly_correct : Bool) (program : List Byte)

theorem shortEvent_isDelivered (c : Byte) {more : List Byte} (hmore : (0 : Byte) ∉ more)
    (following : List CString) :
    IsDelivered (shortEvent (tables posixly_correct) program short_opt c more following).1 := by
  unfold shortEvent
  by_cases hinvalid : letter short_opt c = .invalid
  · rw [hinvalid]
    exact isDelivered_of_unknown rfl
  · rcases letter_short_opt c (mem_of_letter hinvalid) with hletter | ⟨hletter, haction⟩ |
      ⟨hletter, hsetting⟩
    · exact absurd hletter hinvalid
    · rw [hletter]
      exact isDelivered_of_isAction haction
    · rw [hletter]
      by_cases hempty : more = []
      · simp only [hempty, ne_eq, not_true_eq_false, if_false]
        cases following with
        | nil => exact isDelivered_of_unknown rfl
        | cons argument rest => exact isDelivered_of_isSetting hsetting argument
      · simp only [hempty, ne_eq, not_false_eq_true, if_true]
        exact isDelivered_of_isSetting hsetting ⟨more, hmore⟩

/-- Every long option is one of the options, with an argument exactly where the option sets a
variable. -/
theorem mem_long_opt : ∀ option ∈ long_opt, option.flag = none ∧
    (option.has_arg = required_argument ∧ IsSetting option.val ∨
      option.has_arg = no_argument ∧ IsAction option.val) := by
  decide

theorem reply_code {option : LongOption} (hoption : option ∈ long_opt) (index : ℕ) :
    (option.reply index).code = option.val := by
  rw [LongOption.reply, (mem_long_opt option hoption).1]

theorem acceptEvent_isDelivered {argument : List Byte} (hargument : (0 : Byte) ∉ argument)
    (element : CString) {option : LongOption} (hoption : option ∈ long_opt) (index : ℕ)
    (following : List CString) :
    IsDelivered (acceptEvent (tables posixly_correct) program short_opt argument element option
      index following).1 := by
  have htail : (0 : Byte) ∉ argument.tail := fun hmem ↦ hargument (List.mem_of_mem_tail hmem)
  have hcode := reply_code hoption index
  unfold acceptEvent
  rcases (mem_long_opt option hoption).2 with ⟨hrequired, hsetting⟩ | ⟨hplain, haction⟩
  · rw [← hcode] at hsetting
    rw [hrequired]
    by_cases hempty : argument = []
    · simp only [hempty, ne_eq, not_true_eq_false, if_false, required_argument, if_true]
      cases following with
      | nil => exact isDelivered_of_unknown rfl
      | cons next rest => exact isDelivered_of_isSetting hsetting next
    · rw [if_pos hempty, if_pos (by decide)]
      exact isDelivered_of_isSetting hsetting ⟨argument.tail, htail⟩
  · rw [← hcode] at haction
    rw [hplain]
    by_cases hempty : argument = []
    · rw [if_neg (not_not.mpr hempty), if_neg (by decide)]
      exact isDelivered_of_isAction haction
    · rw [if_pos hempty, if_neg (by decide)]
      exact isDelivered_of_unknown rfl

theorem longEvent_isDelivered {element : CString} {text : List Byte} (htext : (0 : Byte) ∉ text)
    {following : List CString} {event : Event} {taken : ℕ}
    (hlong : longEvent (tables posixly_correct) program short_opt text long_opt element following =
      some (event, taken)) : IsDelivered event := by
  have hargument : (0 : Byte) ∉ text.dropWhile (· ≠ ascii '=') := fun hmem ↦
    htext ((List.dropWhile_sublist _).subset hmem)
  unfold longEvent at hlong
  cases hresolve : resolve (tables posixly_correct).long_only (text.takeWhile (· ≠ ascii '='))
      long_opt.zipIdx with
  | ambiguous =>
    rw [hresolve] at hlong
    cases hlong
    exact isDelivered_of_unknown rfl
  | option option index =>
    have haccept := acceptEvent_isDelivered posixly_correct program hargument element
      (mem_of_resolve hresolve) index following
    rw [hresolve] at hlong
    rwa [Option.some.inj hlong] at haccept
  | unknown =>
    simp only [hresolve] at hlong
    split_ifs at hlong
    cases hlong
    exact isDelivered_of_unknown rfl

theorem asLong_isDelivered {element : CString} {text : List Byte} (htext : (0 : Byte) ∉ text)
    {following : List CString} {event : Event} {taken : ℕ}
    (hlong : asLong (tables posixly_correct) program short_opt element text following =
      some (event, taken)) : IsDelivered event := by
  have hlongopts : (tables posixly_correct).longopts = some long_opt := rfl
  unfold asLong at hlong
  simp only [hlongopts] at hlong
  split at hlong
  · exact longEvent_isDelivered posixly_correct program htext hlong
  · cases hlong

theorem event_isDelivered (element : CString) {c : Byte} {more : List Byte}
    (htext : (0 : Byte) ∉ c :: more) (following : List CString) :
    IsDelivered (event (tables posixly_correct) program short_opt element c more following).1 := by
  unfold event
  split
  · rename_i hlong
    exact asLong_isDelivered posixly_correct program htext hlong
  · exact shortEvent_isDelivered posixly_correct program c
      (fun hmem ↦ htext (List.mem_cons_of_mem c hmem)) following

theorem optstringOf_tables (fresh : Bool) :
    optstringOf (tables posixly_correct) fresh = short_opt := by
  cases fresh <;> rfl

theorem events_isDelivered (element : CString) (following : List CString) (fresh : Bool)
    {text : List Byte} (htext : (0 : Byte) ∉ text) :
    ∀ event ∈ (events (tables posixly_correct) program element following fresh text).1,
      IsDelivered event := by
  induction text generalizing fresh with
  | nil => exact fun event hmem ↦ absurd hmem List.not_mem_nil
  | cons c more ih =>
    have hfirst := event_isDelivered posixly_correct program element htext following
    rw [events, optstringOf_tables]
    cases hevent : event (tables posixly_correct) program short_opt element c more following with
    | mk result advance =>
      rw [hevent] at hfirst
      cases advance with
      | within =>
        intro event hmem
        rcases List.mem_cons.mp hmem with rfl | hrest
        · exact hfirst
        · exact ih false (fun hmem ↦ htext (List.mem_cons_of_mem c hmem)) event hrest
      | beyond taken =>
        intro event hmem
        rw [List.mem_singleton.mp hmem]
        exact hfirst

theorem ordering_tables_ne : (tables posixly_correct).ordering ≠ .returnInOrder := by
  cases posixly_correct <;> decide

/-- Every event of a command line is an option of the program. -/
theorem parse_isDelivered (fresh : Bool) (taken : ℕ) (rest : List CString) :
    ∀ event ∈ (parse (tables posixly_correct) program fresh taken rest).events,
      IsDelivered event := by
  induction rest generalizing fresh taken with
  | nil => cases taken <;> exact fun event hmem ↦ absurd hmem List.not_mem_nil
  | cons element rest ih =>
    cases taken with
    | succ taken => exact ih fresh taken
    | zero =>
      rw [parse]
      split_ifs
      · exact fun event hmem ↦ absurd hmem List.not_mem_nil
      · cases hordering : (tables posixly_correct).ordering with
        | requireOrder => exact fun event hmem ↦ absurd hmem List.not_mem_nil
        | permute => exact ih fresh 0
        | returnInOrder => exact absurd hordering (ordering_tables_ne posixly_correct)
      · have hbody : (0 : Byte) ∉ body (tables posixly_correct) element := fun hmem ↦
          element.no_nul (List.mem_of_mem_drop hmem)
        intro event hmem
        rcases List.mem_append.mp hmem with hfirst | hrest
        · exact events_isDelivered posixly_correct program element rest fresh hbody event hfirst
        · exact ih false _ event hrest

end Calls

theorem tables_noPrefixW (posixly_correct fresh : Bool) :
    NoPrefixW (optstringOf (tables posixly_correct) fresh) := by
  have hw : my_index short_opt (ascii 'W') = none := by decide
  rw [optstringOf_tables]
  intro temp hindex
  rw [hw] at hindex
  cases hindex

theorem tables_noEnd (posixly_correct : Bool) : (tables posixly_correct).NoEnd := by
  have hval : ∀ option ∈ long_opt, option.flag = none → option.val ≠ -1 := by decide
  intro longopts hlongopts
  cases hlongopts
  exact hval

/-- For every command line the scan with the tables of `main` ends, and delivers what the command
line says with these tables, and that are options of the program, every setting with its
argument. -/
theorem session_tables (posixly_correct : Bool) (name : CString) (arguments : List CString)
    (start : State) (hargv : start.argv = name :: arguments)
    (hstart : start.optind = 0 ∨ start.optind = 1 ∧ start.initialized = false) :
    let events := (parse (tables posixly_correct) name.chars true 0 arguments).events
    (∃ final, Returns (scan (getopt_long (tables posixly_correct))) ⟨start, []⟩ ⟨final, events⟩) ∧
      ∀ event ∈ events, IsDelivered event := by
  intro events
  have hscan : scan (getopt_long (tables posixly_correct)) = (tables posixly_correct).session :=
    scan_getopt_long (tables posixly_correct)
  obtain ⟨final, hreturns, _⟩ := session_parses (tables posixly_correct)
    (tables_noPrefixW posixly_correct) (tables_noEnd posixly_correct) name arguments start hargv
    hstart
  rw [hscan]
  exact ⟨⟨final, hreturns⟩, parse_isDelivered posixly_correct name.chars true 0 arguments⟩

/-- `pifunk --freq=1 x -a -q`. -/
theorem session_tables_freq :
    let name : CString := ⟨['p', 'i', 'f', 'u', 'n', 'k'].map ascii, by decide⟩
    let freq : CString := ⟨['-', '-', 'f', 'r', 'e', 'q', '=', '1'].map ascii, by decide⟩
    let x : CString := ⟨['x'].map ascii, by decide⟩
    let assistant : CString := ⟨['-', 'a'].map ascii, by decide⟩
    let q : CString := ⟨['-', 'q'].map ascii, by decide⟩
    let start : State :=
      ⟨[name, freq, x, assistant, q], 1, none, none, 0, 0, .requireOrder, false⟩
    ∃ final events,
      Returns (scan (getopt_long (tables false))) ⟨start, []⟩ ⟨final, events⟩ ∧
      events.map (fun event ↦ (event.1.code, event.2)) =
        [(Param.freq.flag, some (['1'].map ascii)), (Delivered.assistant.flag, none),
          (Delivered.unknown.flag, none)] := by
  intro name freq x assistant q start
  obtain ⟨⟨final, hreturns⟩, _⟩ :=
    session_tables false name [freq, x, assistant, q] start rfl (Or.inr ⟨rfl, rfl⟩)
  exact ⟨final, _, hreturns, by decide⟩

end PiFunk.Options
