import PiFunk.Getopt.Internal

/-!
# What a command line says

The scan of the command line as a function of its elements, without places, static variables and
moved elements: which options the calls deliver, which elements belong to the options, and which
are the operands that the program has to look at itself.
-/

namespace PiFunk.Getopt

/-! ## Names of long options -/

/-- What the name of a long option on the command line stands for. -/
inductive Resolution where
  | unknown
  | ambiguous
  | option (option : LongOption) (index : ℕ)
deriving DecidableEq

/-- Two options that an abbreviation need not tell apart. -/
def agree (long_only : Bool) (option other : LongOption) : Bool :=
  !long_only ∧ option.has_arg = other.has_arg ∧ option.flag = other.flag ∧ option.val = other.val

/-- The options that the name is the beginning of. -/
def abbreviated (name : List Byte) (longopts : List (LongOption × ℕ)) : List (LongOption × ℕ) :=
  longopts.filter fun option ↦ name.isPrefixOf option.1.name.chars

/-- A name stands for the first option with exactly this name.  When there is none, it stands for
the first option it abbreviates, if that agrees with all the others. -/
def resolve (long_only : Bool) (name : List Byte) (longopts : List (LongOption × ℕ)) :
    Resolution :=
  match longopts.find? fun option ↦ option.1.name.chars = name with
  | some (option, index) => .option option index
  | none =>
    match abbreviated name longopts with
    | [] => .unknown
    | (option, index) :: others =>
      if others.all fun other ↦ agree long_only option other.1 then .option option index
      else .ambiguous

/-- What the loop over the long options has found. -/
def Search.resolution (result : Search) : Resolution :=
  if result.ambig ∧ !result.exact then .ambiguous
  else
    match result.pfound with
    | some (option, index) => .option option index
    | none => .unknown

theorem resolution_eq_ambiguous_iff (result : Search) :
    result.resolution = .ambiguous ↔ (result.ambig = true ∧ (!result.exact) = true) := by
  unfold Search.resolution
  split_ifs with hambiguous
  · exact iff_of_true rfl hambiguous
  · refine iff_of_false ?_ hambiguous
    split <;> nofun

theorem resolution_eq_option_iff (result : Search) (option : LongOption) (index : ℕ) :
    result.resolution = .option option index ↔
      ¬ (result.ambig = true ∧ (!result.exact) = true) ∧ result.pfound = some (option, index) := by
  unfold Search.resolution
  split_ifs with hambiguous
  · exact iff_of_false nofun fun hfound ↦ hfound.1 hambiguous
  · rw [and_iff_right hambiguous]
    cases result.pfound <;> simp [Prod.ext_iff]

theorem resolution_eq_unknown_iff (result : Search) :
    result.resolution = .unknown ↔
      ¬ (result.ambig = true ∧ (!result.exact) = true) ∧ result.pfound = none := by
  unfold Search.resolution
  split_ifs with hambiguous
  · exact iff_of_false nofun fun hfound ↦ hfound.1 hambiguous
  · rw [and_iff_right hambiguous]
    cases result.pfound <;> simp

theorem isPrefixOf_of_eq {name : List Byte} {option : LongOption}
    (hname : option.name.chars = name) : name.isPrefixOf option.name.chars = true := by
  rw [hname]
  exact List.isPrefixOf_iff_prefix.mpr List.prefix_rfl

/-- The condition under which the loop takes note of a second match. -/
theorem agree_eq_false_iff (long_only : Bool) (option other : LongOption) :
    agree long_only option other = false ↔
      (long_only ∨ option.has_arg ≠ other.has_arg ∨ option.flag ≠ other.flag ∨
        option.val ≠ other.val) := by
  unfold agree
  cases long_only <;> simp
  tauto

theorem eq_iff_of_isPrefixOf {name : List Byte} {option : LongOption}
    (hstarts : name.isPrefixOf option.name.chars = true) :
    option.name.chars = name ↔ name.length = option.name.chars.length := by
  constructor
  · rintro rfl
    rfl
  · exact fun hlength ↦ ((List.isPrefixOf_iff_prefix.mp hstarts).eq_of_length hlength).symm

/-- Once an abbreviation is found, the rest of the table can give an exact match or make the name
ambiguous. -/
theorem resolution_search_of_some (long_only : Bool) (name : List Byte)
    (longopts : List LongOption) (start : ℕ) (option : LongOption) (index : ℕ) (ambig : Bool) :
    (search long_only name longopts start ⟨some (option, index), false, ambig⟩).resolution =
      match (longopts.zipIdx start).find? fun other ↦ other.1.name.chars = name with
      | some (exact, place) => .option exact place
      | none =>
        if !ambig ∧ (abbreviated name (longopts.zipIdx start)).all fun other ↦
            agree long_only option other.1 then .option option index
        else .ambiguous := by
  induction longopts generalizing start ambig with
  | nil => cases ambig <;> rfl
  | cons p rest ih =>
    rw [search, List.zipIdx_cons, List.find?_cons, abbreviated, List.filter_cons]
    by_cases hstarts : name.isPrefixOf p.name.chars = true
    · simp only [hstarts, if_true, List.all_cons]
      by_cases hlength : name.length = p.name.chars.length
      · simp only [hlength, if_true, (eq_iff_of_isPrefixOf hstarts).mpr hlength, decide_true]
        cases ambig <;> rfl
      · have hne : p.name.chars ≠ name := fun heq ↦ hlength ((eq_iff_of_isPrefixOf hstarts).mp heq)
        cases hagree : agree long_only option p with
        | false =>
          simp only [hlength, if_false, hne, decide_false, (agree_eq_false_iff _ _ _).mp hagree,
            if_true, ih]
          simp
        | true =>
          have hkept : ¬ (long_only ∨ option.has_arg ≠ p.has_arg ∨ option.flag ≠ p.flag ∨
              option.val ≠ p.val) := by
            rw [← agree_eq_false_iff, hagree]
            decide
          simp only [hlength, if_false, hne, decide_false, hkept, ih, Bool.true_and]
          rfl
    · have hne : p.name.chars ≠ name := fun heq ↦ hstarts (isPrefixOf_of_eq heq)
      simp only [hstarts, Bool.false_eq_true, if_false, hne, decide_false, ih]
      rfl

/-- The loop over the long options resolves the name. -/
theorem resolution_search (long_only : Bool) (name : List Byte) (longopts : List LongOption)
    (start : ℕ) :
    (search long_only name longopts start ⟨none, false, false⟩).resolution =
      resolve long_only name (longopts.zipIdx start) := by
  induction longopts generalizing start with
  | nil => rfl
  | cons p rest ih =>
    rw [search, resolve, List.zipIdx_cons, List.find?_cons, abbreviated, List.filter_cons]
    by_cases hstarts : name.isPrefixOf p.name.chars = true
    · simp only [hstarts, if_true]
      by_cases hlength : name.length = p.name.chars.length
      · simp only [hlength, if_true, (eq_iff_of_isPrefixOf hstarts).mpr hlength, decide_true]
        rfl
      · have hne : p.name.chars ≠ name := fun heq ↦ hlength ((eq_iff_of_isPrefixOf hstarts).mp heq)
        simp only [hlength, if_false, hne, decide_false, resolution_search_of_some]
        simp only [Bool.not_false, true_and]
        rfl
    · have hne : p.name.chars ≠ name := fun heq ↦ hstarts (isPrefixOf_of_eq heq)
      simp only [hstarts, Bool.false_eq_true, if_false, hne, decide_false, ih]
      rfl

/-! ## Elements -/

/-- What the caller learns from one call: what it returns, and `optarg`. -/
abbrev Event := Reply × Option (List Byte)

/-- How far a call comes in the element it decodes. -/
inductive Advance where
  /-- Further characters of the element are left for the next call. -/
  | within
  /-- The element is done, and so many of the elements behind it are its argument. -/
  | beyond (taken : ℕ)

/-- What `optstring` says about a character. -/
inductive Letter where
  | invalid
  | plain
  | optional
  | required
deriving DecidableEq

/-- One colon behind a letter stands for an argument, two for an optional argument. -/
def letter (optstring : List Byte) (c : Byte) : Letter :=
  match my_index optstring c with
  | none => .invalid
  | some temp =>
    if c = ascii ':' then .invalid
    else if temp.getD 1 0 = ascii ':' then
      if temp.getD 2 0 = ascii ':' then .optional else .required
    else .plain

/-- The letter `W` is not declared as the prefix of a long option.  Behind `-W` an ambiguous name
makes the scan leave out the element behind it, or go past the end of `argv`. -/
def NoPrefixW (optstring : List Byte) : Prop :=
  ∀ temp, my_index optstring (ascii 'W') = some temp → temp.getD 1 0 ≠ ascii ';'

section Parse

variable (config : Config) (program : List Byte)

/-- A letter with the further characters of its element and the elements behind it. -/
def shortEvent (optstring : List Byte) (c : Byte) (more : List Byte) (following : List CString) :
    Event × Advance :=
  let advance := if more = [] then .beyond 0 else .within
  match letter optstring c with
  | .invalid => ((config.invalid program c, none), advance)
  | .plain => (({ code := promote c }, none), advance)
  | .optional => (({ code := promote c }, if more = [] then none else some more), .beyond 0)
  | .required =>
    if more ≠ [] then (({ code := promote c }, some more), .beyond 0)
    else
      match following with
      | argument :: _ => (({ code := promote c }, some argument.chars), .beyond 1)
      | [] => ((config.requires optstring program c, none), .beyond 0)

/-- A long option with the text behind its name and the elements behind it, and how many of them are
its argument. -/
def acceptEvent (optstring argument : List Byte) (element : CString) (option : LongOption)
    (index : ℕ) (following : List CString) : Event × ℕ :=
  if argument ≠ [] then
    if option.has_arg ≠ 0 then ((option.reply index, some argument.tail), 0)
    else ((config.unwantedArgument program element option, none), 0)
  else if option.has_arg = 1 then
    match following with
    | next :: _ => ((option.reply index, some next.chars), 1)
    | [] => ((config.missingArgument optstring program element option, none), 0)
  else ((option.reply index, none), 0)

/-- An element that names a long option.  A name that stands for no option may be a short option. -/
def longEvent (optstring text : List Byte) (longopts : List LongOption) (element : CString)
    (following : List CString) : Option (Event × ℕ) :=
  match resolve config.long_only (text.takeWhile (· ≠ ascii '=')) longopts.zipIdx with
  | .ambiguous => some ((config.ambiguousName program element, none), 0)
  | .option option index =>
    some (acceptEvent config program optstring (text.dropWhile (· ≠ ascii '=')) element option index
      following)
  | .unknown =>
    if !config.long_only ∨ element.get 1 = ascii '-' ∨
        my_index optstring (text.getD 0 0) = none then
      some ((config.unrecognized program text element, none), 0)
    else none

/-- The rest of an element as a long option. -/
def asLong (optstring : List Byte) (element : CString) (text : List Byte)
    (following : List CString) : Option (Event × ℕ) :=
  match config.longopts with
  | some longopts =>
    if element.get 1 = ascii '-' ∨ config.long_only ∧
        (element.get 2 ≠ 0 ∨ my_index optstring (element.get 1) = none) then
      longEvent config program optstring text longopts element following
    else none
  | none => none

/-- One call at the character `c` of an element. -/
def event (optstring : List Byte) (element : CString) (c : Byte) (more : List Byte)
    (following : List CString) : Event × Advance :=
  match asLong config program optstring element (c :: more) following with
  | some (event, taken) => (event, .beyond taken)
  | none => shortEvent config program optstring c more following

/-- The option letters that a call uses: only the first call leaves out the character of the
order. -/
def optstringOf (fresh : Bool) : List Byte := if fresh then config.letters else config.optstring

/-- The calls that decode the characters of an element, and how many elements behind it are its
argument. -/
def events (element : CString) (following : List CString) : Bool → List Byte → List Event × ℕ
  | _, [] => ([], 0)
  | fresh, c :: more =>
    match event config program (optstringOf config fresh) element c more following with
    | (event, .within) =>
      let rest := events element following false more
      (event :: rest.1, rest.2)
    | (event, .beyond taken) => ([event], taken)

/-- The characters of an element that are decoded. -/
def body (element : CString) : List Byte :=
  element.chars.drop (if config.longopts.isSome ∧ element.get 1 = ascii '-' then 2 else 1)

/-- Only a letter with further characters behind it is not the end of its element. -/
theorem ne_nil_of_within {optstring : List Byte} {element : CString} {c : Byte} {more : List Byte}
    {following : List CString} {result : Event}
    (hwithin : event config program optstring element c more following = (result, .within)) :
    more ≠ [] := by
  rintro rfl
  unfold event at hwithin
  split at hwithin
  · cases hwithin
  · unfold shortEvent at hwithin
    cases hletter : letter optstring c with
    | invalid => simp [hletter] at hwithin
    | plain => simp [hletter] at hwithin
    | optional => simp [hletter] at hwithin
    | required => cases following <;> simp [hletter] at hwithin

/-- What a command line says: what the calls deliver, the elements that belong to the options, and
the operands. -/
structure Parsed where
  events : List Event
  options : List CString
  operands : List CString

/-- The command line from an element on; the first `taken` elements are arguments of the option
before them. -/
def parse : Bool → ℕ → List CString → Parsed
  | _, _, [] => ⟨[], [], []⟩
  | fresh, taken + 1, element :: rest =>
    let parsed := parse fresh taken rest
    { parsed with options := element :: parsed.options }
  | fresh, 0, element :: rest =>
    if element.chars = [ascii '-', ascii '-'] then ⟨[], [element], rest⟩
    else if nonoption element then
      match config.ordering with
      | .requireOrder => ⟨[], [], element :: rest⟩
      | .permute =>
        let parsed := parse fresh 0 rest
        { parsed with operands := element :: parsed.operands }
      | .returnInOrder =>
        let parsed := parse false 0 rest
        { parsed with
          events := ({ code := 1 }, some element.chars) :: parsed.events
          options := element :: parsed.options }
    else
      let (first, taken) := events config program element rest fresh (body config element)
      let parsed := parse false taken rest
      { parsed with events := first ++ parsed.events, options := element :: parsed.options }

theorem parse_taken (fresh : Bool) (taken : ℕ) (rest : List CString) :
    parse config program fresh taken rest =
      { parse config program fresh 0 (rest.drop taken) with
        options := rest.take taken ++
          (parse config program fresh 0 (rest.drop taken)).options } := by
  induction taken generalizing rest with
  | zero => rfl
  | succ taken ih =>
    cases rest with
    | nil => rfl
    | cons element rest =>
      rw [parse, ih]
      rfl

/-- The special element has the syntax of an option. -/
theorem not_nonoption_of_terminator {element : CString}
    (helement : element.chars = [ascii '-', ascii '-']) : nonoption element = false := by
  have hzero : element.get 0 = ascii '-' := by rw [CString.get, helement]; rfl
  have hone : element.get 1 = ascii '-' := by rw [CString.get, helement]; rfl
  rw [nonoption, hzero, hone]
  decide

/-- Under `PERMUTE` what comes before the next option is operands. -/
theorem parse_skip (hordering : config.ordering = .permute) (fresh : Bool) (rest : List CString) :
    parse config program fresh 0 rest =
      { parse config program fresh 0 (rest.dropWhile nonoption) with
        operands := rest.takeWhile nonoption ++
          (parse config program fresh 0 (rest.dropWhile nonoption)).operands } := by
  induction rest with
  | nil => rfl
  | cons element rest ih =>
    cases hnonoption : nonoption element with
    | false =>
      rw [List.takeWhile_cons_of_neg (by simp [hnonoption]),
        List.dropWhile_cons_of_neg (by simp [hnonoption])]
      rfl
    | true =>
      have hother : element.chars ≠ [ascii '-', ascii '-'] := by
        intro hterminator
        rw [not_nonoption_of_terminator hterminator] at hnonoption
        cases hnonoption
      rw [List.takeWhile_cons_of_pos hnonoption, List.dropWhile_cons_of_pos hnonoption, parse,
        if_neg hother, if_pos hnonoption, hordering]
      simp only [ih, List.cons_append]

theorem options_sublist (fresh : Bool) (taken : ℕ) (rest : List CString) :
    (parse config program fresh taken rest).options.Sublist rest := by
  induction rest generalizing fresh taken with
  | nil => cases taken <;> exact List.nil_sublist []
  | cons element rest ih =>
    cases taken with
    | succ taken => exact (ih fresh taken).cons_cons element
    | zero =>
      rw [parse]
      split_ifs
      · exact (List.nil_sublist rest).cons_cons element
      · cases config.ordering with
        | requireOrder => exact List.nil_sublist _
        | permute => exact (ih fresh 0).cons element
        | returnInOrder => exact (ih false 0).cons_cons element
      · exact (ih false _).cons_cons element

theorem operands_sublist (fresh : Bool) (taken : ℕ) (rest : List CString) :
    (parse config program fresh taken rest).operands.Sublist rest := by
  induction rest generalizing fresh taken with
  | nil => cases taken <;> exact List.nil_sublist []
  | cons element rest ih =>
    cases taken with
    | succ taken => exact (ih fresh taken).cons element
    | zero =>
      rw [parse]
      split_ifs
      · exact (List.Sublist.refl rest).cons element
      · cases config.ordering with
        | requireOrder => exact List.Sublist.refl _
        | permute => exact (ih fresh 0).cons_cons element
        | returnInOrder => exact (ih false 0).cons element
      · exact (ih false _).cons element

theorem options_append_operands_perm (fresh : Bool) (taken : ℕ) (rest : List CString) :
    ((parse config program fresh taken rest).options ++
      (parse config program fresh taken rest).operands).Perm rest := by
  induction rest generalizing fresh taken with
  | nil => cases taken <;> exact List.Perm.refl []
  | cons element rest ih =>
    cases taken with
    | succ taken => exact (ih fresh taken).cons element
    | zero =>
      rw [parse]
      split_ifs
      · exact List.Perm.refl _
      · cases config.ordering with
        | requireOrder => exact List.Perm.refl _
        | permute => exact List.perm_middle.trans ((ih fresh 0).cons element)
        | returnInOrder => exact (ih false 0).cons element
      · exact (ih false _).cons element

theorem nonoption_eq_false_iff (element : CString) :
    nonoption element = false ↔ element.get 0 = ascii '-' ∧ element.get 1 ≠ 0 := by
  simp [nonoption]

theorem body_ne_nil {element : CString} (hoption : nonoption element = false)
    (hother : element.chars ≠ [ascii '-', ascii '-']) : body config element ≠ [] := by
  obtain ⟨hdash, hletter⟩ := (nonoption_eq_false_iff element).mp hoption
  intro hempty
  unfold body at hempty
  rw [List.drop_eq_nil_iff] at hempty
  match hchars : element.chars with
  | [] => exact hletter (by rw [CString.get, hchars]; rfl)
  | [first] => exact hletter (by rw [CString.get, hchars]; rfl)
  | [first, second] =>
    have hfirst : first = ascii '-' := by
      rw [← hdash, CString.get, hchars]
      rfl
    have hsecond : element.get 1 = second := by
      rw [CString.get, hchars]
      rfl
    rw [hchars, hsecond] at hempty
    split_ifs at hempty with hlong
    · exact hother (by rw [hchars, hfirst, hlong.2])
    · exact absurd hempty (Nat.lt_irrefl 1)
  | first :: second :: third :: rest =>
    rw [hchars] at hempty
    simp only [List.length_cons] at hempty
    split_ifs at hempty <;> omega

end Parse

end PiFunk.Getopt
