import PiFunk.Getopt.Scan

/-!
# Scanning to the end

A program calls `getopt_long` until it returns -1.  From any state that starts a new scan this ends,
for every command line and every order, without an access outside `argv`.  The calls deliver the
options the command line says, and afterwards `argv` holds the elements of the options and then the
operands, each in their own order, with `optind` at the first operand.
-/

namespace PiFunk.Getopt

open FuelLoop

/-- Why the scan gets stuck. -/
inductive Fault where
  | outOfBounds
deriving DecidableEq, Repr

/-- The state of the scan, and what the calls have delivered. -/
structure Session where
  state : State
  delivered : List Event

/-- One round of `while ((c = getopt_long (..)) != -1)`, or of one with another function. -/
def callOf (function : State → Option (Reply × State)) (session : Session) :
    Iteration Fault Session :=
  match function session.state with
  | none => .halted .outOfBounds session
  | some (reply, state) =>
    if reply.code = -1 then .exit { session with state }
    else .again ⟨state, session.delivered ++ [(reply, state.optarg)]⟩

/-- Calls until the return value is -1. -/
def scan (function : State → Option (Reply × State)) : FuelLoop.Program Fault Session :=
  loop (callOf function)

def Config.session (config : Config) : FuelLoop.Program Fault Session :=
  scan config.getopt_internal

/-- Scans with the three functions are sessions of their own tables. -/
theorem scan_getopt (config : Config) :
    scan (getopt config) = { config with longopts := none, long_only := false }.session := rfl

theorem scan_getopt_long (config : Config) :
    scan (getopt_long config) = { config with long_only := false }.session := rfl

theorem scan_getopt_long_only (config : Config) :
    scan (getopt_long_only config) = { config with long_only := true }.session := rfl

/-- No long option returns the value that stands for the end. -/
def Config.NoEnd (config : Config) : Prop :=
  ∀ longopts, config.longopts = some longopts →
    ∀ option ∈ longopts, option.flag = none → option.val ≠ -1

/-- A caller whose next call has this result is delivered these events and ends in this state. -/
def Ends (config : Config) (result : Option (Reply × State)) (delivered : List Event)
    (final : State) : Prop :=
  ∀ state before, config.getopt_internal state = result →
    Returns config.session ⟨state, before⟩ ⟨final, before ++ delivered⟩

section Ends

variable {config : Config} {result : Option (Reply × State)} {reply : Reply} {state final : State}

theorem Ends.last (hresult : result = some (reply, final)) (hend : reply.code = -1) :
    Ends config result [] final := by
  intro start before hcall
  refine ⟨1, loop_succ_exit ?_ 0⟩
  simp only [callOf, hcall, hresult, hend, if_true, List.append_nil]

theorem Ends.cons {delivered : List Event} (hresult : result = some (reply, state))
    (hmore : reply.code ≠ -1)
    (hrest : Ends config (config.getopt_internal state) delivered final) :
    Ends config result ((reply, state.optarg) :: delivered) final := by
  intro start before hcall
  obtain ⟨fuel, hdone⟩ := hrest state (before ++ [(reply, state.optarg)]) rfl
  refine ⟨fuel + 1, ?_⟩
  have hround : callOf config.getopt_internal ⟨start, before⟩ =
      .again ⟨state, before ++ [(reply, state.optarg)]⟩ := by
    simp only [callOf, hcall, hresult, hmore, if_false]
  rw [Config.session, scan, loop_succ_again hround, ← scan, ← Config.session, hdone,
    List.append_assoc, List.singleton_append]

end Ends

/-! ## No event of an option is the end -/

theorem promote_ne (c : Byte) : promote c ≠ -1 := by
  unfold promote
  omega

theorem mem_of_resolve {long_only : Bool} {name : List Byte} {longopts : List LongOption}
    {option : LongOption} {index : ℕ}
    (hresolve : resolve long_only name longopts.zipIdx = .option option index) :
    option ∈ longopts := by
  unfold resolve at hresolve
  cases hexact : longopts.zipIdx.find? fun option ↦ option.1.name.chars = name with
  | some found =>
    simp only [hexact, Resolution.option.injEq] at hresolve
    rw [← hresolve.1]
    exact List.fst_mem_of_mem_zipIdx (List.mem_of_find?_eq_some hexact)
  | none =>
    simp only [hexact] at hresolve
    cases habbreviated : abbreviated name longopts.zipIdx with
    | nil => simp [habbreviated] at hresolve
    | cons found others =>
      simp only [habbreviated] at hresolve
      split_ifs at hresolve
      cases hresolve
      have hmem : found ∈ abbreviated name longopts.zipIdx := by
        rw [habbreviated]
        exact List.mem_cons_self
      exact List.fst_mem_of_mem_zipIdx (List.mem_of_mem_filter hmem)

theorem reply_code_ne {option : LongOption} (index : ℕ)
    (hval : option.flag = none → option.val ≠ -1) : (option.reply index).code ≠ -1 := by
  unfold LongOption.reply
  cases hflag : option.flag with
  | none => exact hval hflag
  | some target => nofun

theorem missing_ne (optstring : List Byte) : missing optstring ≠ -1 := promote_ne _

theorem acceptEvent_code_ne (config : Config) (program optstring argument : List Byte)
    (element : CString) {option : LongOption} (index : ℕ) (following : List CString)
    (hval : option.flag = none → option.val ≠ -1) :
    (acceptEvent config program optstring argument element option index following).1.1.code ≠
      -1 := by
  unfold acceptEvent
  split_ifs
  · exact reply_code_ne index hval
  · exact promote_ne _
  · cases following with
    | nil => exact missing_ne optstring
    | cons next rest => exact reply_code_ne index hval
  · exact reply_code_ne index hval

theorem shortEvent_code_ne (config : Config) (program optstring : List Byte) (c : Byte)
    (more : List Byte) (following : List CString) :
    (shortEvent config program optstring c more following).1.1.code ≠ -1 := by
  unfold shortEvent
  cases letter optstring c with
  | invalid => exact promote_ne _
  | plain => exact promote_ne _
  | optional => exact promote_ne _
  | required =>
    by_cases hmore : more = []
    · simp only [hmore, ne_eq, not_true_eq_false, if_false]
      cases following with
      | nil => exact missing_ne optstring
      | cons next rest => exact promote_ne _
    · simp only [hmore, ne_eq, not_false_eq_true, if_true]
      exact promote_ne _

theorem longEvent_code_ne {config : Config} {longopts : List LongOption}
    (hlongopts : ∀ option ∈ longopts, option.flag = none → option.val ≠ -1)
    (program optstring text : List Byte) (element : CString) (following : List CString)
    {result : Event} {taken : ℕ}
    (hlong : longEvent config program optstring text longopts element following =
      some (result, taken)) : result.1.code ≠ -1 := by
  unfold longEvent at hlong
  cases hresolve : resolve config.long_only (text.takeWhile (· ≠ ascii '=')) longopts.zipIdx with
  | ambiguous =>
    rw [hresolve] at hlong
    cases hlong
    exact promote_ne _
  | option option index =>
    rw [hresolve] at hlong
    have hcode := acceptEvent_code_ne config program optstring (text.dropWhile (· ≠ ascii '='))
      element index following (hlongopts option (mem_of_resolve hresolve))
    rwa [Option.some.inj hlong] at hcode
  | unknown =>
    simp only [hresolve] at hlong
    split_ifs at hlong
    cases hlong
    exact promote_ne _

theorem event_code_ne {config : Config} (hend : config.NoEnd) (program optstring : List Byte)
    (element : CString) (c : Byte) (more : List Byte) (following : List CString) :
    (event config program optstring element c more following).1.1.code ≠ -1 := by
  unfold event
  cases hlong : asLong config program optstring element (c :: more) following with
  | none => exact shortEvent_code_ne config program optstring c more following
  | some result =>
    unfold asLong at hlong
    cases hlongopts : config.longopts with
    | none => simp [hlongopts] at hlong
    | some longopts =>
      simp only [hlongopts] at hlong
      split_ifs at hlong
      exact longEvent_code_ne (hend longopts hlongopts) program optstring (c :: more) element
        following hlong

/-! ## The calls in one element -/

section Calls

variable {config : Config} {name : CString} {done skipped recent : List CString}

/-- A later call goes on from the place where the last one stopped. -/
theorem getopt_internal_placed (hname : done.head? = some name)
    (optarg nextchar : Option (List Byte)) (rest : List CString) :
    config.getopt_internal (placed config optarg nextchar done skipped recent rest) =
      config.resume config.optstring (placed config none nextchar done skipped recent rest) := by
  have hdone : 0 < done.length := by
    cases done with
    | nil => cases hname
    | cons first others => exact Nat.succ_pos others.length
  have hargc : ¬ (placed config optarg nextchar done skipped recent rest).argv.length < 1 := by
    simp only [placed, List.length_append]
    omega
  have hfresh : (placed config optarg nextchar done skipped recent rest).fresh = false := by
    simp only [State.fresh, placed, Bool.not_true, Bool.false_eq_true, or_false,
      decide_eq_false_iff_not]
    omega
  rw [Config.getopt_internal, if_neg hargc]
  simp only [hfresh, Bool.false_eq_true, if_false]
  rfl

/-- The calls deliver the events of an element, and then what the calls behind it deliver. -/
theorem ends_events (hwithoutW : ∀ fresh, NoPrefixW (optstringOf config fresh))
    (hend : config.NoEnd) (hname : done.head? = some name) (element : CString)
    (following : List CString) (fresh : Bool) {text : List Byte} (htext : text ≠ []) :
    ∃ nextchar, (nextchar = none ∨ nextchar = some []) ∧ ∀ later final,
      Ends config (config.resume config.optstring (placed config none nextchar done skipped
        (recent ++ element ::
          following.take (events config name.chars element following fresh text).2)
        (following.drop (events config name.chars element following fresh text).2))) later final →
      Ends config
        (config.decode (optstringOf config fresh)
          (placed config none (some text) done skipped recent (element :: following)))
        ((events config name.chars element following fresh text).1 ++ later) final := by
  induction text generalizing fresh with
  | nil => exact absurd rfl htext
  | cons c more ih =>
    have hlands :=
      decode_lands config skipped recent element following (hwithoutW fresh) c more hname
    have hcode := event_code_ne hend name.chars (optstringOf config fresh) element c more following
    rw [events]
    cases hevent : event config name.chars (optstringOf config fresh) element c more following with
    | mk result advance =>
      rw [hevent] at hlands hcode
      cases advance with
      | within =>
        have hmore := ne_nil_of_within config name.chars hevent
        obtain ⟨nextchar, hnextchar, hrest⟩ := ih false hmore
        refine ⟨nextchar, hnextchar, fun later final hlater ↦ Ends.cons hlands hcode ?_⟩
        rw [getopt_internal_placed hname, Config.resume, if_neg (by simp [placed, hmore])]
        exact hrest later final hlater
      | beyond taken =>
        obtain ⟨nextchar, hnextchar, hresult⟩ := hlands
        refine ⟨nextchar, hnextchar, fun later final hlater ↦ Ends.cons hresult hcode ?_⟩
        rw [getopt_internal_placed hname]
        exact hlater

/-! ## All calls -/

/-- The caller is delivered what the rest of the command line says, and in the end the elements of
the options lie in front of the operands. -/
def Parses (config : Config) (name : CString) (done skipped recent rest : List CString)
    (fresh : Bool) (result : Option (Reply × State)) : Prop :=
  ∃ final,
    Ends config result (parse config name.chars fresh 0 rest).events final ∧
    final.argv = done ++ recent ++ (parse config name.chars fresh 0 rest).options ++ skipped ++
      (parse config name.chars fresh 0 rest).operands ∧
    final.optind = done.length + recent.length +
      (parse config name.chars fresh 0 rest).options.length

theorem parses_nil (fresh : Bool) (nextchar : Option (List Byte))
    (hsegments : skipped = [] ∨ recent = []) :
    Parses config name done skipped recent [] fresh
      (config.proceed (optstringOf config fresh)
        (placed config none nextchar done skipped recent [])) := by
  rw [Config.proceed, terminator_placed_nil, Option.bind_some,
    if_pos ((placed_optind_eq_iff config).mpr rfl)]
  refine ⟨_, Ends.last rfl rfl, ?_, ?_⟩
  · rcases hsegments with rfl | rfl <;> simp [placed, parse]
  · rcases hsegments with rfl | rfl <;> simp [placed, parse]

section Element

variable {element : CString} {following : List CString} {nextchar : Option (List Byte)}

theorem parses_terminator (hterminator : element.chars = [ascii '-', ascii '-']) (fresh : Bool) :
    Parses config name done skipped recent (element :: following) fresh
      (config.proceed (optstringOf config fresh)
        (placed config none nextchar done skipped recent (element :: following))) := by
  rw [Config.proceed, terminator_placed config hterminator, Option.bind_some,
    if_pos ((placed_optind_eq_iff config).mpr rfl)]
  have hparse : parse config name.chars fresh 0 (element :: following) =
      ⟨[], [element], following⟩ := by
    rw [parse, if_pos hterminator]
  rw [Parses, hparse]
  refine ⟨_, Ends.last rfl rfl, ?_, ?_⟩
  · simp [placed]
  · simp only [placed, List.length_append, List.length_singleton, List.length_nil]
    split_ifs <;> omega

/-- At any other element the call decodes it, or deals with an operand. -/
theorem proceed_placed (hother : element.chars ≠ [ascii '-', ascii '-']) (fresh : Bool) :
    config.proceed (optstringOf config fresh)
        (placed config none nextchar done skipped recent (element :: following)) =
      if nonoption element then
        if config.ordering = .requireOrder then
          some ({ code := -1 }, placed config none nextchar done skipped recent
            (element :: following))
        else
          some ({ code := 1 }, placed config (some element.chars) nextchar done skipped
            (recent ++ [element]) following)
      else
        config.decode (optstringOf config fresh)
          (placed config none (some (body config element)) done skipped recent
            (element :: following)) := by
  have hmore : (placed config none nextchar done skipped recent (element :: following)).optind ≠
      (placed config none nextchar done skipped recent
        (element :: following)).argv.length := by
    rw [Ne, placed_optind_eq_iff]
    exact List.cons_ne_nil element following
  have hpast := @past_placed config done skipped recent element following none nextchar
    (some element.chars) nextchar
  rw [Config.proceed, terminator_placed_of_ne config hother, Option.bind_some, if_neg hmore,
    placed_getElem?, Option.bind_some]
  cases nonoption element with
  | true =>
    rw [if_pos rfl, if_pos rfl]
    by_cases hordering : config.ordering = .requireOrder
    · rw [if_pos hordering]
      exact if_pos hordering
    · rw [if_neg hordering]
      exact (if_neg hordering).trans (congrArg some (congrArg (Prod.mk _) hpast))
  | false =>
    rw [if_neg Bool.false_ne_true, if_neg Bool.false_ne_true]
    rfl

theorem parses_operand (hnonoption : nonoption element = true)
    (hother : element.chars ≠ [ascii '-', ascii '-'])
    (hordering : config.ordering = .requireOrder) (fresh : Bool) :
    Parses config name done [] recent (element :: following) fresh
      (config.proceed (optstringOf config fresh)
        (placed config none nextchar done [] recent (element :: following))) := by
  have hparse : parse config name.chars fresh 0 (element :: following) =
      ⟨[], [], element :: following⟩ := by
    rw [parse, if_neg hother, if_pos hnonoption, hordering]
  rw [proceed_placed hother, if_pos hnonoption, if_pos hordering, Parses, hparse]
  refine ⟨_, Ends.last rfl rfl, ?_, ?_⟩
  · simp [placed]
  · simp [placed]

theorem parses_returned (hname : done.head? = some name) (hnonoption : nonoption element = true)
    (hother : element.chars ≠ [ascii '-', ascii '-'])
    (hordering : config.ordering = .returnInOrder) (fresh : Bool)
    (hrest : Parses config name done skipped (recent ++ [element]) following false
      (config.resume (optstringOf config false)
        (placed config none nextchar done skipped (recent ++ [element]) following))) :
    Parses config name done skipped recent (element :: following) fresh
      (config.proceed (optstringOf config fresh)
        (placed config none nextchar done skipped recent (element :: following))) := by
  have hparse : parse config name.chars fresh 0 (element :: following) =
      { parse config name.chars false 0 following with
        events := ({ code := 1 }, some element.chars) ::
          (parse config name.chars false 0 following).events
        options := element :: (parse config name.chars false 0 following).options } := by
    rw [parse, if_neg hother, if_pos hnonoption, hordering]
  have hcode : ({ code := 1 } : Reply).code ≠ -1 := by decide
  obtain ⟨final, hends, hargv, hoptind⟩ := hrest
  rw [proceed_placed hother, if_pos hnonoption, if_neg (by rw [hordering]; decide), Parses, hparse]
  refine ⟨final, Ends.cons rfl hcode ?_, ?_, ?_⟩
  · rw [getopt_internal_placed hname]
    exact hends
  · simp [hargv]
  · simp [hoptind]
    omega

theorem parses_option (hwithoutW : ∀ fresh, NoPrefixW (optstringOf config fresh))
    (hend : config.NoEnd) (hname : done.head? = some name) (hoption : nonoption element = false)
    (hother : element.chars ≠ [ascii '-', ascii '-']) (fresh : Bool)
    (hrest : ∀ taken nextchar, nextchar = none ∨ nextchar = some [] →
      Parses config name done skipped (recent ++ element :: following.take taken)
        (following.drop taken) false
        (config.resume (optstringOf config false)
          (placed config none nextchar done skipped (recent ++ element :: following.take taken)
            (following.drop taken)))) :
    Parses config name done skipped recent (element :: following) fresh
      (config.proceed (optstringOf config fresh)
        (placed config none nextchar done skipped recent (element :: following))) := by
  have hbody := body_ne_nil config hoption hother
  obtain ⟨nextchar', hnextchar', hcalls⟩ := @ends_events config name done skipped recent
    hwithoutW hend hname element following fresh (body config element) hbody
  cases hevents : events config name.chars element following fresh (body config element) with
  | mk first taken =>
    have hparse : parse config name.chars fresh 0 (element :: following) =
        { parse config name.chars false taken following with
          events := first ++ (parse config name.chars false taken following).events
          options := element :: (parse config name.chars false taken following).options } := by
      rw [parse, if_neg hother, if_neg (by simp [hoption]), hevents]
    rw [hevents] at hcalls
    rw [parse_taken config name.chars false taken following] at hparse
    obtain ⟨final, hends, hargv, hoptind⟩ := hrest taken nextchar' hnextchar'
    rw [proceed_placed hother, if_neg (by simp [hoption]), Parses, hparse]
    refine ⟨final, hcalls _ final hends, ?_, ?_⟩
    · simp [hargv]
    · simp [hoptind]
      omega

end Element

/-- The calls from an element on, when no operand can be skipped there. -/
theorem parses_proceed (hwithoutW : ∀ fresh, NoPrefixW (optstringOf config fresh))
    (hend : config.NoEnd) (hname : done.head? = some name) (rest : List CString) (fresh : Bool)
    {nextchar : Option (List Byte)} (hnextchar : nextchar = none ∨ nextchar = some [])
    (hrecent : config.ordering = .permute → recent = [])
    (hskipped : config.ordering ≠ .permute → skipped = [])
    (hfirst : config.ordering = .permute → ∀ element ∈ rest.head?, nonoption element = false)
    (ih : ∀ fresh recent rest' nextchar, rest'.length < rest.length →
      nextchar = none ∨ nextchar = some [] →
      Parses config name done skipped recent rest' fresh
        (config.resume (optstringOf config fresh)
          (placed config none nextchar done skipped recent rest'))) :
    Parses config name done skipped recent rest fresh
      (config.proceed (optstringOf config fresh)
        (placed config none nextchar done skipped recent rest)) := by
  have hsegments : skipped = [] ∨ recent = [] := by
    by_cases hordering : config.ordering = .permute
    · exact Or.inr (hrecent hordering)
    · exact Or.inl (hskipped hordering)
  cases rest with
  | nil => exact parses_nil fresh nextchar hsegments
  | cons element following =>
    by_cases hterminator : element.chars = [ascii '-', ascii '-']
    · exact parses_terminator hterminator fresh
    · cases hnonoption : nonoption element with
      | true =>
        cases hordering : config.ordering with
        | permute =>
          have hoption := hfirst hordering element rfl
          rw [hnonoption] at hoption
          cases hoption
        | requireOrder =>
          obtain rfl : skipped = [] := hskipped (by rw [hordering]; decide)
          exact parses_operand hnonoption hterminator hordering fresh
        | returnInOrder =>
          exact parses_returned hname hnonoption hterminator hordering fresh
            (ih false _ following nextchar (Nat.lt_succ_self _) hnextchar)
      | false =>
        refine parses_option hwithoutW hend hname hnonoption hterminator fresh ?_
        intro taken nextchar hnextchar
        have hshorter : (following.drop taken).length < (element :: following).length := by
          rw [List.length_drop, List.length_cons]
          omega
        exact ih false _ _ nextchar hshorter hnextchar

/-- The calls from any place where an element ends. -/
theorem parses_resume (hwithoutW : ∀ fresh, NoPrefixW (optstringOf config fresh))
    (hend : config.NoEnd) (hname : done.head? = some name) (rest : List CString) (fresh : Bool)
    {nextchar : Option (List Byte)} (hnextchar : nextchar = none ∨ nextchar = some [])
    (hskipped : config.ordering ≠ .permute → skipped = []) :
    Parses config name done skipped recent rest fresh
      (config.resume (optstringOf config fresh)
        (placed config none nextchar done skipped recent rest)) := by
  induction hlength : rest.length using Nat.strongRecOn
    generalizing fresh nextchar done skipped recent rest with
  | _ length ih =>
    have hcontinue (done skipped : List CString) (hname : done.head? = some name)
        (hskipped : config.ordering ≠ .permute → skipped = []) (bound : ℕ) (hbound : bound ≤ length)
        (fresh : Bool) (recent rest' : List CString) (nextchar : Option (List Byte))
        (hrest : rest'.length < bound) (hnextchar : nextchar = none ∨ nextchar = some []) :
        Parses config name done skipped recent rest' fresh
          (config.resume (optstringOf config fresh)
            (placed config none nextchar done skipped recent rest')) :=
      ih rest'.length (hrest.trans_le hbound) hname rest' fresh hnextchar hskipped rfl
    have hguard : (placed config none nextchar done skipped recent rest).nextchar = none ∨
      (placed config none nextchar done skipped recent rest).nextchar = some [] := hnextchar
    rw [Config.resume, if_pos hguard, rational_placed]
    by_cases hordering : config.ordering = .permute
    · have hbound : (rest.dropWhile nonoption).length ≤ length :=
        hlength ▸ (List.dropWhile_sublist nonoption).length_le
      have hhead : (done ++ recent).head? = some name := by
        rw [List.head?_append, hname, Option.some_or]
      have hoption : ∀ element ∈ (rest.dropWhile nonoption).head?, nonoption element = false := by
        intro element helement
        have hnot := List.head?_dropWhile_not nonoption rest
        rwa [helement] at hnot
      obtain ⟨final, hends, hargv, hoptind⟩ := parses_proceed hwithoutW hend hhead
        (rest.dropWhile nonoption) fresh hnextchar (fun _ ↦ rfl) (absurd hordering)
        (fun _ ↦ hoption) (hcontinue (done ++ recent) (skipped ++ rest.takeWhile nonoption) hhead
          (absurd hordering) _ hbound)
      rw [permute_placed config hordering, Option.bind_some, Parses,
        parse_skip config name.chars hordering fresh rest]
      refine ⟨final, hends, ?_, ?_⟩
      · simp [hargv]
      · simp [hoptind]
    · rw [permute_placed_of_ne config hordering, Option.bind_some]
      exact parses_proceed hwithoutW hend hname rest fresh hnextchar (fun hpermute ↦
        absurd hpermute hordering) hskipped (fun hpermute ↦ absurd hpermute hordering)
        (hcontinue done skipped hname hskipped _ hlength.le)

/-- From any state that starts a new scan, calling until the end delivers what the command line says
and sorts `argv`. -/
theorem session_parses (config : Config) (hwithoutW : ∀ fresh, NoPrefixW (optstringOf config fresh))
    (hend : config.NoEnd) (name : CString) (arguments : List CString) (start : State)
    (hargv : start.argv = name :: arguments)
    (hstart : start.optind = 0 ∨ start.optind = 1 ∧ start.initialized = false) :
    ∃ final,
      Returns config.session ⟨start, []⟩
        ⟨final, (parse config name.chars true 0 arguments).events⟩ ∧
      final.argv = name :: (parse config name.chars true 0 arguments).options ++
        (parse config name.chars true 0 arguments).operands ∧
      final.optind = 1 + (parse config name.chars true 0 arguments).options.length := by
  have hfresh : start.fresh = true := by
    simp only [State.fresh]
    rcases hstart with hzero | ⟨hone, huninitialized⟩
    · simp [hzero]
    · simp [huninitialized]
  have hinitial : config.getoptInitialize { start with optarg := none } =
      placed config none none [name] [] [] arguments := by
    have hoptind : (if start.optind = 0 then 1 else start.optind) = 1 := by
      rcases hstart with hzero | ⟨hone, huninitialized⟩
      · rw [if_pos hzero]
      · rw [hone]
        rfl
    simp only [Config.getoptInitialize, hoptind, hargv]
    rfl
  have hcall : config.getopt_internal start =
      config.resume (optstringOf config true) (placed config none none [name] [] [] arguments) := by
    rw [Config.getopt_internal, if_neg (by simp [hargv])]
    simp only [hfresh, if_true, hinitial]
    rfl
  obtain ⟨final, hends, hfinal, hoptind⟩ := @parses_resume config name [name] [] [] hwithoutW hend
    rfl arguments true none (Or.inl rfl) (fun _ ↦ rfl)
  refine ⟨final, hends start [] hcall, ?_, ?_⟩
  · simp [hfinal]
  · simp [hoptind]

end Calls

/-- The scan ends, delivers what the command line says, and moves the elements of the options in
front of the operands without losing one or changing the order of either. -/
theorem session_sorts (config : Config) (hwithoutW : ∀ fresh, NoPrefixW (optstringOf config fresh))
    (hend : config.NoEnd) (name : CString) (arguments : List CString) (start : State)
    (hargv : start.argv = name :: arguments)
    (hstart : start.optind = 0 ∨ start.optind = 1 ∧ start.initialized = false) :
    let parsed := parse config name.chars true 0 arguments
    (∃ final,
      Returns config.session ⟨start, []⟩ ⟨final, parsed.events⟩ ∧
      final.argv = name :: parsed.options ++ parsed.operands ∧
      final.optind = 1 + parsed.options.length) ∧
    parsed.options.Sublist arguments ∧ parsed.operands.Sublist arguments ∧
      (parsed.options ++ parsed.operands).Perm arguments :=
  ⟨session_parses config hwithoutW hend name arguments start hargv hstart,
    options_sublist config name.chars true 0 arguments,
    operands_sublist config name.chars true 0 arguments,
    options_append_operands_perm config name.chars true 0 arguments⟩

/-- `p x -f 1` with the option letters `f:`. -/
theorem session_sorts_operand_first :
    let config : Config := ⟨['f', ':'].map ascii, none, false, true, false⟩
    let program : CString := ⟨['p'].map ascii, by decide⟩
    let x : CString := ⟨['x'].map ascii, by decide⟩
    let option : CString := ⟨['-', 'f'].map ascii, by decide⟩
    let one : CString := ⟨['1'].map ascii, by decide⟩
    let start : State := ⟨[program, x, option, one], 1, none, none, 0, 0, .requireOrder, false⟩
    (∃ final,
      Returns config.session ⟨start, []⟩ ⟨final, [({ code := 102 }, some one.chars)]⟩ ∧
      final.argv = [program, option, one, x] ∧ final.optind = 3) ∧
    [option, one].Sublist [x, option, one] ∧ [x].Sublist [x, option, one] ∧
      [option, one, x].Perm [x, option, one] := by
  intro config program x option one start
  have hw : ∀ fresh, my_index (optstringOf config fresh) (ascii 'W') = none := by decide
  exact session_sorts config (fun fresh temp hindex ↦ absurd hindex (by rw [hw fresh]; nofun))
    (fun longopts hlongopts ↦ by cases hlongopts) program [x, option, one] start rfl
    (Or.inr ⟨rfl, rfl⟩)

end PiFunk.Getopt
