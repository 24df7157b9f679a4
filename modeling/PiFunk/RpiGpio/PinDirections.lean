import PiFunk.RpiGpio.PinRuns

/-!
# The direction that a pin was set up with

A successful `setup` records its direction for each of its pins, and only another `setup` or a
`cleanup` of the pin changes that.  `gpio_function` reads the function select register and finds the
same direction there.
-/

namespace PiFunk.RpiGpio

/-- The pin of an object that gives a channel. -/
def Settings.gpio? (settings : Settings) : PyObject → Option ℕ
  | .int channel => (settings.get_gpio_number channel).toOption
  | .overflow => none
  | .other => none

/-- The pins of an argument. -/
def Settings.pins (settings : Settings) : PyArgument → List ℕ
  | .one object => (settings.gpio? object).toList
  | .list objects => objects.filterMap settings.gpio?

/-- The call sets the pin up or cleans it up, or tries to. -/
def PinCall.Concerns (call : PinCall) (settings : Settings) (gpio : ℕ) : Prop :=
  match call with
  | .setmode _ => False
  | .setup _ channels _ _ _ => gpio ∈ settings.pins channels
  | .output _ _ => False
  | .cleanup channels => channels = .one (.int (-666)) ∨ gpio ∈ settings.pins channels

/-- None of the calls concerns the pin. -/
def Undisturbed (gpio : ℕ) : Module → List PinCall → Prop
  | _, [] => True
  | board, call :: rest =>
    ¬ call.Concerns board.toSettings gpio ∧ Undisturbed gpio (board.step call).2 rest

/-! ## What leaves a pin alone -/

/-- The channels have the same pins, and this pin the same direction. -/
structure Leaves (gpio : ℕ) (before after : Module) : Prop where
  mode : after.gpio_mode = before.gpio_mode
  revision : after.p1_revision = before.p1_revision
  direction : after.gpio_direction gpio = before.gpio_direction gpio

variable {gpio : ℕ} {board before middle after : Module}

theorem Leaves.refl (gpio : ℕ) (board : Module) : Leaves gpio board board := ⟨rfl, rfl, rfl⟩

theorem Leaves.trans (hfirst : Leaves gpio before middle) (hsecond : Leaves gpio middle after) :
    Leaves gpio before after :=
  ⟨hsecond.mode.trans hfirst.mode, hsecond.revision.trans hfirst.revision,
    hsecond.direction.trans hfirst.direction⟩

theorem Leaves.gpio? (hleaves : Leaves gpio before after) :
    after.toSettings.gpio? = before.toSettings.gpio? := by
  funext object
  cases object with
  | int channel =>
    simp only [Settings.gpio?, Settings.get_gpio_number, hleaves.mode, hleaves.revision]
  | overflow => rfl
  | other => rfl

theorem Leaves.pins (hleaves : Leaves gpio before after) (channels : PyArgument) :
    after.toSettings.pins channels = before.toSettings.pins channels := by
  cases channels with
  | one object => simp only [Settings.pins, hleaves.gpio?]
  | list objects => simp only [Settings.pins, hleaves.gpio?]

section Channels

variable {text : String} {body : ℕ → Module → Result} {object : PyObject}

theorem gpio?_int_eq_some_iff {settings : Settings} {channel : CInt} :
    settings.gpio? (.int channel) = some gpio ↔ settings.get_gpio_number channel = .ok gpio := by
  rw [Settings.gpio?]
  cases settings.get_gpio_number channel <;> simp [Except.toOption]

theorem onChannel_of_some (text : String) (body : ℕ → Module → Result)
    (hgpio : board.toSettings.gpio? object = some gpio) :
    onChannel text body object board = body gpio board := by
  cases object with
  | int channel =>
    have hnumber : ((PyObject.int channel).number text >>= board.get_gpio_number) = .ok gpio :=
      gpio?_int_eq_some_iff.mp hgpio
    rw [onChannel, hnumber]
  | overflow => cases hgpio
  | other => cases hgpio

theorem onChannel_of_none (text : String) (body : ℕ → Module → Result)
    (hgpio : board.toSettings.gpio? object = none) :
    ∃ error, onChannel text body object board = (.error error, board) := by
  cases hnumber : object.number text >>= board.get_gpio_number with
  | error error => exact ⟨error, by rw [onChannel, hnumber]⟩
  | ok gpio =>
    cases object with
    | int channel => exact absurd (gpio?_int_eq_some_iff.mpr hnumber) (by rw [hgpio]; nofun)
    | overflow => cases hnumber
    | other => cases hnumber

/-- A function that leaves the pin alone unless it is called for it. -/
abbrev Spares (gpio : ℕ) (body : ℕ → Module → Result) : Prop :=
  ∀ other ≠ gpio, ∀ board : Module, Leaves gpio board (body other board).2

theorem onChannel_leaves (hbody : Spares gpio body)
    (hother : board.toSettings.gpio? object ≠ some gpio) :
    Leaves gpio board (onChannel text body object board).2 := by
  cases hgpio : board.toSettings.gpio? object with
  | none =>
    obtain ⟨error, herror⟩ := onChannel_of_none text body hgpio
    rw [herror]
    exact .refl gpio board
  | some other =>
    rw [onChannel_of_some text body hgpio]
    exact hbody other (fun heq ↦ hother (heq ▸ hgpio)) board

/-- Functions one after another leave alone what each of them does. -/
theorem each_leaves {α : Type*} {step : α → Module → Result} {P : α → Prop}
    (hstep : ∀ first, P first → ∀ board : Module, Leaves gpio before board →
      Leaves gpio board (step first board).2)
    {list : List α} (hlist : ∀ first ∈ list, P first) (hboard : Leaves gpio before board) :
    Leaves gpio board (each step list board).2 := by
  induction list generalizing board with
  | nil => exact .refl gpio board
  | cons first rest ih =>
    have hfirst := hstep first (hlist first List.mem_cons_self) board hboard
    rw [each]
    cases hresult : step first board with
    | mk result next =>
      rw [hresult] at hfirst
      cases result with
      | error error => exact hfirst
      | ok value =>
        exact hfirst.trans (ih (fun other hmem ↦ hlist other (List.mem_cons_of_mem first hmem))
          (hboard.trans hfirst))

theorem onChannels_leaves (hbody : Spares gpio body) {channels : PyArgument}
    (hothers : gpio ∉ board.toSettings.pins channels) :
    Leaves gpio board (onChannels body channels board).2 := by
  cases channels with
  | one object =>
    refine onChannel_leaves hbody fun hgpio ↦ hothers ?_
    rw [Settings.pins, hgpio]
    exact List.mem_singleton_self gpio
  | list objects =>
    refine each_leaves (P := fun object ↦ board.toSettings.gpio? object ≠ some gpio) ?_ ?_
      (.refl gpio board)
    · intro object hother next hnext
      refine onChannel_leaves hbody ?_
      rw [hnext.gpio?]
      exact hother
    · intro object hmem hgpio
      exact hothers (List.mem_filterMap.mpr ⟨object, hmem, hgpio⟩)

end Channels

/-! ## Calls -/

theorem mmap_gpio_mem_leaves (gpio : ℕ) (board : Module) (result : SetupResult) :
    Leaves gpio board (board.mmap_gpio_mem result).2 := by
  unfold Module.mmap_gpio_mem
  split
  · exact .refl gpio board
  · cases result <;> exact ⟨rfl, rfl, rfl⟩

/-- `setup` raises an exception before it comes to the pins, or sets them up one by one. -/
theorem setup_channel_cases (board : Module) (result : SetupResult) (channels : PyArgument)
    (direction pud initial : CInt) :
    ∃ mapped : Module, (∀ gpio, Leaves gpio board mapped) ∧
      ((∃ error, board.setup_channel result channels direction pud initial =
          (.error error, mapped)) ∨
        (direction = INPUT ∨ direction = OUTPUT) ∧
          ∃ converted, board.setup_channel result channels direction pud initial =
            onChannels (Module.setup_one direction converted initial) channels mapped) := by
  have hmapped := fun gpio ↦ mmap_gpio_mem_leaves gpio board result
  unfold Module.setup_channel
  split
  · rename_i error _
    exact ⟨board, fun gpio ↦ .refl gpio board, .inl ⟨error, rfl⟩⟩
  · cases hmmap : board.mmap_gpio_mem result with
    | mk outcome mapped =>
      rw [hmmap] at hmapped
      refine ⟨mapped, hmapped, ?_⟩
      cases outcome with
      | error error => exact .inl ⟨error, rfl⟩
      | ok value =>
        dsimp only
        split
        · exact .inl ⟨_, rfl⟩
        · rename_i hdirection
          have hknown : direction = INPUT ∨ direction = OUTPUT := by
            by_contra hneither
            exact hdirection (not_or.mp hneither)
          split
          · exact .inl ⟨_, rfl⟩
          · split
            · exact .inl ⟨_, rfl⟩
            · generalize (if direction = OUTPUT then PUD_OFF + PY_PUD_CONST_OFFSET else pud) -
                PY_PUD_CONST_OFFSET = converted
              split
              · exact .inl ⟨_, rfl⟩
              · exact .inr ⟨hknown, converted, rfl⟩

theorem setup_one_spares (gpio : ℕ) (direction pud initial : CInt) :
    Spares gpio (Module.setup_one direction pud initial) :=
  fun _ hother _ ↦ ⟨rfl, rfl, Function.update_of_ne hother.symm _ _⟩

theorem cleanup_one_spares (gpio : ℕ) :
    Spares gpio fun other board ↦ (.ok (), board.cleanup_one other) := by
  intro other hother board
  dsimp only [Module.cleanup_one]
  split
  · exact ⟨rfl, rfl, Function.update_of_ne hother.symm _ _⟩
  · exact .refl gpio board

theorem output_one_leaves (gpio : ℕ) (value : CInt) (other : ℕ) (board : Module) :
    Leaves gpio board (Module.output_one value other board).2 := by
  unfold Module.output_one
  split
  · exact .refl gpio board
  · split
    · exact .refl gpio board
    · exact ⟨rfl, rfl, rfl⟩

theorem output_leaves (gpio : ℕ) (board : Module) (channels values : PyArgument) :
    Leaves gpio board (board.output channels values).2 := by
  have hobject : ∀ text value object, ∀ board : Module,
      Leaves gpio board (onChannel text (Module.output_one value) object board).2 := by
    intro text value object board
    cases hgpio : board.toSettings.gpio? object with
    | none =>
      obtain ⟨error, herror⟩ := onChannel_of_none text (Module.output_one value) hgpio
      rw [herror]
      exact .refl gpio board
    | some other =>
      rw [onChannel_of_some text _ hgpio]
      exact output_one_leaves gpio value other board
  have hpair : ∀ pair, ∀ board : Module,
      Leaves gpio board (Module.output_pair pair board).2 := by
    intro pair board
    unfold Module.output_pair
    split
    · exact .refl gpio board
    · split
      · exact .refl gpio board
      · exact hobject _ _ _ board
  unfold Module.output
  split
  · exact .refl gpio board
  · cases values with
    | one object =>
      dsimp only
      split
      · exact .refl gpio board
      · rename_i value _
        cases channels with
        | one channel => exact hobject _ value channel board
        | list objects =>
          exact each_leaves (P := fun _ ↦ True) (fun object _ next _ ↦ hobject _ value object next)
            (fun _ _ ↦ trivial) (.refl gpio board)
    | list values =>
      cases channels with
      | one channel => exact .refl gpio board
      | list objects =>
        dsimp only
        split
        · exact .refl gpio board
        · exact each_leaves (P := fun _ ↦ True) (fun pair _ next _ ↦ hpair pair next)
            (fun _ _ ↦ trivial) (.refl gpio board)

theorem cleanup_leaves {channels : PyArgument} (hall : channels ≠ .one (.int (-666)))
    (hothers : gpio ∉ board.toSettings.pins channels) :
    Leaves gpio board (board.cleanup channels).2 := by
  have hones := onChannels_leaves (cleanup_one_spares gpio) hothers
  unfold Module.cleanup
  split
  · exact .refl gpio board
  · by_cases hmapped : board.module_setup = true
    · rw [if_pos hmapped]
      cases channels with
      | one object =>
        cases object with
        | int channel =>
          have hchannel : channel ≠ -666 := fun heq ↦ hall (heq ▸ rfl)
          simp only [if_neg hchannel]
          exact hones
        | overflow => exact hones
        | other => exact hones
      | list objects => exact hones
    · rw [if_neg hmapped]
      exact .refl gpio board

/-- A call that does not concern a pin leaves its direction. -/
theorem step_direction {call : PinCall} (hothers : ¬ call.Concerns board.toSettings gpio) :
    (board.step call).2.gpio_direction gpio = board.gpio_direction gpio := by
  cases call with
  | setmode new_mode =>
    dsimp only [Module.step, Module.setmode]
    split_ifs <;> rfl
  | setup result channels direction pud initial =>
    obtain ⟨mapped, hmapped, ⟨error, hsetup⟩ | ⟨-, converted, hsetup⟩⟩ :=
      setup_channel_cases board result channels direction pud initial
    · rw [Module.step, hsetup]
      exact (hmapped gpio).direction
    · rw [Module.step, hsetup]
      have hpins : gpio ∉ mapped.toSettings.pins channels := by
        rw [(hmapped gpio).pins]
        exact hothers
      exact ((hmapped gpio).trans (onChannels_leaves (setup_one_spares gpio _ _ _) hpins)).direction
  | output channels values => exact (output_leaves gpio board channels values).direction
  | cleanup channels =>
    obtain ⟨hall, hothers⟩ := not_or.mp hothers
    exact (cleanup_leaves hall hothers).direction

theorem run_direction {calls : List PinCall} (hcalls : Undisturbed gpio board calls) :
    (board.run calls).2.gpio_direction gpio = board.gpio_direction gpio := by
  induction calls generalizing board with
  | nil => rfl
  | cons call rest ih => exact (ih hcalls.2).trans (step_direction hcalls.1)

/-! ## Calls that set a pin up -/

theorem setup_ones_direction {direction pud initial : CInt} {objects : List PyObject}
    (hok : (onChannels (Module.setup_one direction pud initial) (.list objects) board).1 = .ok ())
    (hgpio : gpio ∈ board.toSettings.pins (.list objects)) :
    (onChannels (Module.setup_one direction pud initial) (.list objects)
      board).2.gpio_direction gpio = direction := by
  induction objects generalizing board with
  | nil => cases hgpio
  | cons object rest ih =>
    rw [onChannels, each] at hok ⊢
    cases hobject : board.toSettings.gpio? object with
    | none =>
      obtain ⟨error, herror⟩ :=
        onChannel_of_none _ (Module.setup_one direction pud initial) hobject
      rw [herror] at hok
      cases hok
    | some other =>
      rw [onChannel_of_some _ _ hobject] at hok ⊢
      have hpins : (Module.setup_one direction pud initial other board).2.toSettings.pins
          (.list rest) = board.toSettings.pins (.list rest) := rfl
      rw [Settings.pins, List.filterMap_cons_some hobject] at hgpio
      -- the pin is one of the rest, or it is not touched any more
      by_cases hrest : gpio ∈ board.toSettings.pins (.list rest)
      · exact ih hok (hpins ▸ hrest)
      · have heq : gpio = other := (List.mem_cons.mp hgpio).resolve_right hrest
        rw [← hpins] at hrest
        refine (onChannels_leaves (setup_one_spares gpio direction pud initial)
          hrest).direction.trans ?_
        rw [heq]
        exact Function.update_self _ _ _

/-- A successful `setup` records its direction for its pins. -/
theorem setup_channel_direction {result : SetupResult} {channels : PyArgument}
    {direction pud initial : CInt}
    (hok : (board.setup_channel result channels direction pud initial).1 = .ok ())
    (hgpio : gpio ∈ board.toSettings.pins channels) :
    direction ≠ -1 ∧ (board.setup_channel result channels direction pud
      initial).2.gpio_direction gpio = direction := by
  obtain ⟨mapped, hmapped, ⟨error, hsetup⟩ | ⟨hknown, converted, hsetup⟩⟩ :=
    setup_channel_cases board result channels direction pud initial
  · rw [hsetup] at hok
    cases hok
  · rw [hsetup] at hok ⊢
    rw [← (hmapped gpio).pins] at hgpio
    constructor
    · rcases hknown with rfl | rfl <;> decide
    · cases channels with
      | one object =>
        have hobject : mapped.toSettings.gpio? object = some gpio := by
          simpa [Settings.pins, eq_comm] using hgpio
        rw [onChannels, onChannel_of_some _ _ hobject]
        exact Function.update_self _ _ _
      | list objects => exact setup_ones_direction hok hgpio

/-! ## Reading back -/

theorem Held.py_gpio_function (hheld : Held board) (result : SetupResult) {channel : CInt}
    (hnumber : board.get_gpio_number channel = .ok gpio) (hset : board.gpio_direction gpio ≠ -1) :
    board.py_gpio_function result channel = (.ok (board.gpio_direction gpio), board) := by
  have hmapped : board.mmap_gpio_mem result = (.ok (), board) := if_pos (hheld.mapped gpio hset)
  have hname : functionName gpio (gpio_function gpio board.block) = board.gpio_direction gpio := by
    rw [gpio_function_eq]
    rcases hheld.pins gpio (lt_of_get_gpio_number hnumber) hset with
      ⟨houtput, hfunction, -⟩ | ⟨hinput, hfunction, -⟩
    · rw [hfunction, houtput]
      rfl
    · rw [hfunction, hinput]
      rfl
  rw [Module.py_gpio_function, hnumber]
  dsimp only
  rw [hmapped]
  dsimp only
  rw [hname]

/-- Whatever calls a program has made, `gpio_function` returns for each pin that is set up the
direction the module holds, and changes nothing; and that is the direction of the last `setup` of
the pin, where this succeeded and no later call concerned the pin. -/
theorem run_readsBack {block : Block} (hchip : block.Chip) (p1_revision : ℕ)
    (calls : List PinCall) :
    ∃ board : Module, ((Module.imported p1_revision block).run calls).2 = board ∧
      (∀ (result : SetupResult) (channel : CInt) (gpio : ℕ),
        board.get_gpio_number channel = .ok gpio → board.gpio_direction gpio ≠ -1 →
        board.py_gpio_function result channel = (.ok (board.gpio_direction gpio), board)) ∧
      ∀ (earlier later : List PinCall) (result : SetupResult) (channels : PyArgument)
        (direction pud initial : CInt) (gpio : ℕ) (before : Module),
        calls = earlier ++ .setup result channels direction pud initial :: later →
        ((Module.imported p1_revision block).run earlier).2 = before →
        (before.setup_channel result channels direction pud initial).1 = .ok () →
        gpio ∈ before.toSettings.pins channels →
        Undisturbed gpio (before.setup_channel result channels direction pud initial).2 later →
        ∀ (again : SetupResult) (channel : CInt), board.get_gpio_number channel = .ok gpio →
          board.py_gpio_function again channel = (.ok direction, board) := by
  obtain ⟨-, -, hheld⟩ := preserved_held.run calls ⟨rfl, held_imported hchip p1_revision⟩
  refine ⟨_, rfl, fun result _ _ hnumber hset ↦ hheld.py_gpio_function result hnumber hset, ?_⟩
  rintro earlier later result channels direction pud initial gpio before rfl rfl hok hgpio hlater
    again channel hnumber
  obtain ⟨hset, hsetup⟩ := setup_channel_direction hok hgpio
  have hlast : ((Module.imported p1_revision block).run (earlier ++
      .setup result channels direction pud initial :: later)).2.gpio_direction gpio =
        direction := by
    rw [run_append]
    exact (run_direction hlater).trans hsetup
  have hreads := hheld.py_gpio_function again hnumber (by rwa [hlast])
  rwa [hlast] at hreads

/-- The button is read back as an input, and the light as an output. -/
theorem run_readsBack_button :
    ∃ board : Module, ((Module.imported 3 bcm2711).run button_and_light).2 = board ∧
      ∀ result : SetupResult, board.py_gpio_function result 11 = (.ok INPUT, board) ∧
        board.py_gpio_function result 12 = (.ok OUTPUT, board) := by
  obtain ⟨board, rfl, -, hlast⟩ := run_readsBack chip_bcm2711 3 button_and_light
  refine ⟨_, rfl, fun result ↦ ⟨?_, ?_⟩⟩
  · exact hlast [.setmode BOARD] _ .SETUP_OK _ _ _ _ 17 _ rfl rfl rfl (by decide)
      ⟨by rw [PinCall.Concerns]; decide, trivial⟩ result 11 (by decide)
  · exact hlast (button_and_light.take 2) [] .SETUP_OK _ _ _ _ 18 _ rfl rfl rfl (by decide)
      trivial result 12 (by decide)

end PiFunk.RpiGpio
