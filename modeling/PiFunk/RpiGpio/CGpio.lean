import PiFunk.Gpio.FunctionSelect

/-!
# The registers behind `c_gpio`

The functions write words of the GPIO block, and the block does something to its pins: bits that are
set in a set or clear word drive pins high or low.  On the older chips a clock takes the code in
`PULLUPDN` over for the pins whose bits are set; the BCM2711 has a field for each pin instead, and
other codes.  The functions do the same to the pins of both.
-/

namespace PiFunk.RpiGpio

open BitField Gpio

def FSEL_OFFSET : ℕ := 0
def SET_OFFSET : ℕ := 7
def CLR_OFFSET : ℕ := 10
def PULLUPDN_OFFSET : ℕ := 37
def PULLUPDNCLK_OFFSET : ℕ := 38
def PULLUPDN_OFFSET_2711_0 : ℕ := 57
def PULLUPDN_OFFSET_2711_3 : ℕ := 60

def INPUT : CInt := 1
def OUTPUT : CInt := 0
def HIGH : CInt := 1
def LOW : CInt := 0
def PUD_OFF : CInt := 0
def PUD_DOWN : CInt := 1
def PUD_UP : CInt := 2

structure Block where
  /-- The words that hold what is written to them. -/
  gpio_map : Registers
  /-- The levels of the pins that are outputs. -/
  latches : ℕ → Bool
  /-- The codes that the clock has taken over. -/
  pulls : ℕ → BitVec 2

/-- The bit for a pin is set in a word of a pair. -/
def Selects (first offset : ℕ) (value : CInt) (gpio : ℕ) : Prop :=
  first + gpio / 32 = offset ∧ value.getLsbD (gpio % 32) = true

instance (first offset gpio : ℕ) (value : CInt) : Decidable (Selects first offset value gpio) :=
  inferInstanceAs (Decidable (_ ∧ _))

/-- `*(gpio_map+offset) = value`. -/
def Block.write (block : Block) (offset : ℕ) (value : CInt) : Block :=
  if offset ∈ [SET_OFFSET, SET_OFFSET + 1] then
    { block with
      latches := fun gpio ↦
        if Selects SET_OFFSET offset value gpio then true else block.latches gpio }
  else if offset ∈ [CLR_OFFSET, CLR_OFFSET + 1] then
    { block with
      latches := fun gpio ↦
        if Selects CLR_OFFSET offset value gpio then false else block.latches gpio }
  else if offset ∈ [PULLUPDNCLK_OFFSET, PULLUPDNCLK_OFFSET + 1] then
    { block with
      pulls := fun gpio ↦
        if Selects PULLUPDNCLK_OFFSET offset value gpio then
          field 2 0 (block.gpio_map PULLUPDN_OFFSET)
        else block.pulls gpio }
  else { block with gpio_map := Function.update block.gpio_map offset value }

/-- `is2711`: on the older chips the word reads "gpio". -/
def Block.Is2711 (block : Block) : Prop :=
  block.gpio_map PULLUPDN_OFFSET_2711_3 ≠ 0x6770696f#32

instance (block : Block) : Decidable block.Is2711 := inferInstanceAs (Decidable (_ ≠ _))

def set_pullupdn (gpio : ℕ) (pud : CInt) (block : Block) : Block :=
  if block.Is2711 then
    let pullreg := PULLUPDN_OFFSET_2711_0 + (gpio >>> 4)
    let pullshift := (gpio &&& 0xf) <<< 1
    let pull : CInt := if pud = PUD_UP then 1 else if pud = PUD_DOWN then 2 else 0
    let pullbits := block.gpio_map pullreg
    let pullbits := pullbits &&& ~~~(3#32 <<< pullshift)
    let pullbits := pullbits ||| (pull <<< pullshift)
    block.write pullreg pullbits
  else
    let clk_offset := PULLUPDNCLK_OFFSET + gpio / 32
    let shift := gpio % 32
    let off := block.gpio_map PULLUPDN_OFFSET &&& ~~~3#32
    let block := block.write PULLUPDN_OFFSET
      (if pud = PUD_DOWN then off ||| PUD_DOWN else if pud = PUD_UP then off ||| PUD_UP else off)
    let block := block.write clk_offset (1#32 <<< shift)
    let block := block.write PULLUPDN_OFFSET (block.gpio_map PULLUPDN_OFFSET &&& ~~~3#32)
    block.write clk_offset 0

def setup_gpio (gpio : ℕ) (direction pud : CInt) (block : Block) : Block :=
  let offset := FSEL_OFFSET + gpio / 10
  let shift := gpio % 10 * 3
  let block := set_pullupdn gpio pud block
  if direction = OUTPUT then
    block.write offset ((block.gpio_map offset &&& ~~~(7#32 <<< shift)) ||| (1#32 <<< shift))
  else block.write offset (block.gpio_map offset &&& ~~~(7#32 <<< shift))

def gpio_function (gpio : ℕ) (block : Block) : CInt :=
  let offset := FSEL_OFFSET + gpio / 10
  let shift := gpio % 10 * 3
  let value := block.gpio_map offset
  let value := value.sshiftRight shift
  value &&& 7#32

def output_gpio (gpio : ℕ) (value : CInt) (block : Block) : Block :=
  let offset := if value ≠ LOW then SET_OFFSET + gpio / 32 else CLR_OFFSET + gpio / 32
  let shift := gpio % 32
  block.write offset (1#32 <<< shift)

/-! ## Pins -/

/-- What pulls a pin. -/
inductive Pull where
  | off
  | down
  | up
deriving DecidableEq, Repr

/-- A pin: its function, what pulls it unless the code is reserved, and the level of the output. -/
structure Pin where
  function : BitVec 3
  pull : Option Pull
  level : Bool
deriving DecidableEq

/-- The codes that the clock takes over. -/
def clockedPull (code : BitVec 2) : Option Pull :=
  if code = 0 then some .off else if code = 1 then some .down
  else if code = 2 then some .up else none

/-- The codes of the BCM2711. -/
def fieldPull (code : BitVec 2) : Option Pull :=
  if code = 0 then some .off else if code = 1 then some .up
  else if code = 2 then some .down else none

def Block.pull (block : Block) (gpio : ℕ) : Option Pull :=
  if block.Is2711 then
    fieldPull (field 2 (gpio % 16) (block.gpio_map (PULLUPDN_OFFSET_2711_0 + gpio / 16)))
  else clockedPull (block.pulls gpio)

def Block.pin (block : Block) (gpio : ℕ) : Pin :=
  ⟨pinField block.gpio_map gpio, block.pull gpio, block.latches gpio⟩

/-- The pull that an argument asks for. -/
def Pull.of (pud : CInt) : Pull :=
  if pud = PUD_UP then .up else if pud = PUD_DOWN then .down else .off

/-- The function that an argument asks for. -/
def functionOf (direction : CInt) : BitVec 3 := if direction = OUTPUT then 1 else 0

/-- A BCM2711, whose reserved bits do not read like the older chips, or one of those. -/
def Block.Chip (block : Block) : Prop :=
  ¬block.Is2711 ∨ (block.gpio_map PULLUPDN_OFFSET_2711_3).extractLsb' 12 20 ≠ 0x67706#20

variable {block : Block} {gpio : ℕ}

/-! ## Writes -/

/-- Most words only hold what is written. -/
theorem write_of_notMem {offset : ℕ} (hplain : offset ∉ [7, 8, 10, 11, 38, 39]) (value : CInt) :
    block.write offset value =
      { block with gpio_map := Function.update block.gpio_map offset value } := by
  simp only [List.mem_cons, List.not_mem_nil, or_false, not_or] at hplain
  have hset : offset ∉ [SET_OFFSET, SET_OFFSET + 1] := by
    simp [SET_OFFSET, hplain]
  have hclr : offset ∉ [CLR_OFFSET, CLR_OFFSET + 1] := by
    simp [CLR_OFFSET, hplain]
  have hclk : offset ∉ [PULLUPDNCLK_OFFSET, PULLUPDNCLK_OFFSET + 1] := by
    simp [PULLUPDNCLK_OFFSET, hplain]
  rw [Block.write, if_neg hset, if_neg hclr, if_neg hclk]

/-- The word for a pin selects this pin alone. -/
theorem selects_iff (first gpio other : ℕ) :
    Selects first (first + gpio / 32) (1#32 <<< (gpio % 32)) other ↔ other = gpio := by
  have hbit : (1#32 <<< (gpio % 32)).getLsbD (other % 32) = decide (other % 32 = gpio % 32) := by
    have hlt : other % 32 < 32 := Nat.mod_lt other (by decide)
    have hpin : gpio % 32 < 32 := Nat.mod_lt gpio (by decide)
    simp only [BitVec.getLsbD_shiftLeft, BitVec.getLsbD_one]
    grind
  rw [Selects, hbit, decide_eq_true_eq]
  omega

theorem not_selects_zero (first offset other : ℕ) : ¬Selects first offset 0 other := by
  simp [Selects]

theorem offset_mem (first : ℕ) (hgpio : gpio < 54) : first + gpio / 32 ∈ [first, first + 1] := by
  simp only [List.mem_cons, List.not_mem_nil, or_false]
  omega

theorem write_set (hgpio : gpio < 54) :
    block.write (SET_OFFSET + gpio / 32) (1#32 <<< (gpio % 32)) =
      { block with latches := Function.update block.latches gpio true } := by
  rw [Block.write, if_pos (offset_mem SET_OFFSET hgpio)]
  congr 1
  funext other
  simp only [selects_iff, Function.update_apply]

theorem write_clr (hgpio : gpio < 54) :
    block.write (CLR_OFFSET + gpio / 32) (1#32 <<< (gpio % 32)) =
      { block with latches := Function.update block.latches gpio false } := by
  have hset : CLR_OFFSET + gpio / 32 ∉ [SET_OFFSET, SET_OFFSET + 1] := by
    simp only [SET_OFFSET, CLR_OFFSET, List.mem_cons, List.not_mem_nil, or_false]
    omega
  rw [Block.write, if_neg hset, if_pos (offset_mem CLR_OFFSET hgpio)]
  congr 1
  funext other
  simp only [selects_iff, Function.update_apply]

theorem write_clk (hgpio : gpio < 54) (value : CInt) :
    block.write (PULLUPDNCLK_OFFSET + gpio / 32) value =
      { block with
        pulls := fun other ↦
          if Selects PULLUPDNCLK_OFFSET (PULLUPDNCLK_OFFSET + gpio / 32) value other then
            field 2 0 (block.gpio_map PULLUPDN_OFFSET)
          else block.pulls other } := by
  have hset : PULLUPDNCLK_OFFSET + gpio / 32 ∉ [SET_OFFSET, SET_OFFSET + 1] := by
    simp only [SET_OFFSET, PULLUPDNCLK_OFFSET, List.mem_cons, List.not_mem_nil, or_false]
    omega
  have hclr : PULLUPDNCLK_OFFSET + gpio / 32 ∉ [CLR_OFFSET, CLR_OFFSET + 1] := by
    simp only [CLR_OFFSET, PULLUPDNCLK_OFFSET, List.mem_cons, List.not_mem_nil, or_false]
    omega
  rw [Block.write, if_neg hset, if_neg hclr, if_pos (offset_mem PULLUPDNCLK_OFFSET hgpio)]

/-- In a row of words with a field for each pin, the field of one pin is written. -/
theorem field_update (size count first : ℕ) (hcount : 0 < count) (hfits : count * size ≤ 32)
    (code : BitVec size) (words : Registers) (gpio other : ℕ) :
    field size (other % count) (Function.update words (first + gpio / count)
      (put (gpio % count) code (clear size (gpio % count) (words (first + gpio / count))))
      (first + other / count)) =
      if other = gpio then code
      else field size (other % count) (words (first + other / count)) := by
  have hslot : ∀ pin : ℕ, pin % count * size + size ≤ 32 := by
    intro pin
    calc pin % count * size + size = (pin % count + 1) * size := (Nat.succ_mul _ _).symm
      _ ≤ count * size := Nat.mul_le_mul_right size (Nat.mod_lt pin hcount)
      _ ≤ 32 := hfits
  by_cases hpin : other = gpio
  · rw [if_pos hpin, hpin, Function.update_self, field_put_clear_self (hslot gpio)]
  · rw [if_neg hpin]
    by_cases hreg : first + other / count = first + gpio / count
    · have hne : other % count ≠ gpio % count := by
        intro heq
        apply hpin
        rw [← Nat.div_add_mod other count, heq, Nat.add_left_cancel hreg, Nat.div_add_mod]
      rw [hreg, Function.update_self, field_put_clear_of_ne hne (hslot other)]
    · rw [Function.update_of_ne hreg]

/-! ## Pulls -/

/-- The pull of a pin is set, and nothing else happens to the pins. -/
structure Pulled (gpio : ℕ) (pull : Pull) (before after : Block) : Prop where
  chip : after.Chip
  functions : ∀ other < 54, pinField after.gpio_map other = pinField before.gpio_map other
  latches : after.latches = before.latches
  pull : ∀ other < 54, after.pull other = if other = gpio then some pull else before.pull other

theorem is2711_of_reserved (hreserved :
    (block.gpio_map PULLUPDN_OFFSET_2711_3).extractLsb' 12 20 ≠ 0x67706#20) : block.Is2711 := by
  intro heq
  rw [heq] at hreserved
  exact hreserved (by decide)

/-- The code that the BCM2711 has for an argument. -/
def fieldCode (pud : CInt) : BitVec 2 := if pud = PUD_UP then 1 else if pud = PUD_DOWN then 2 else 0

/-- The code that the older chips have for it. -/
def clockedCode (pud : CInt) : BitVec 2 :=
  if pud = PUD_DOWN then 1 else if pud = PUD_UP then 2 else 0

theorem fieldPull_fieldCode (pud : CInt) : fieldPull (fieldCode pud) = some (Pull.of pud) := by
  unfold fieldCode Pull.of
  split
  · rfl
  · split
    · rfl
    · rfl

theorem clockedPull_clockedCode (pud : CInt) :
    clockedPull (clockedCode pud) = some (Pull.of pud) := by
  unfold clockedCode Pull.of
  split
  · rename_i hdown
    rw [hdown]
    rfl
  · split
    · rfl
    · rfl

theorem set_pullupdn_of_is2711 (h2711 : block.Is2711) (hgpio : gpio < 54) (pud : CInt) :
    set_pullupdn gpio pud block =
      { block with
        gpio_map := Function.update block.gpio_map (PULLUPDN_OFFSET_2711_0 + gpio / 16)
          (put (gpio % 16) (fieldCode pud)
            (clear 2 (gpio % 16) (block.gpio_map (PULLUPDN_OFFSET_2711_0 + gpio / 16)))) } := by
  have hreg : gpio >>> 4 = gpio / 16 := Nat.shiftRight_eq_div_pow gpio 4
  have hshift : (gpio &&& 0xf) <<< 1 = gpio % 16 * 2 := by
    rw [Nat.shiftLeft_eq, show 0xf = 2 ^ 4 - 1 from rfl, Nat.and_two_pow_sub_one_eq_mod]
  have hcode : (if pud = PUD_UP then 1 else if pud = PUD_DOWN then 2 else 0 : CInt) =
      (fieldCode pud).setWidth 32 := by
    unfold fieldCode
    split
    · rfl
    · split
      · rfl
      · rfl
  have hplain : PULLUPDN_OFFSET_2711_0 + gpio / 16 ∉ [7, 8, 10, 11, 38, 39] := by
    simp only [PULLUPDN_OFFSET_2711_0, List.mem_cons, List.not_mem_nil, or_false]
    omega
  rw [set_pullupdn, if_pos h2711, hreg, hshift, hcode]
  exact write_of_notMem hplain _

theorem set_pullupdn_of_not_is2711 (hold : ¬block.Is2711) (hgpio : gpio < 54) (pud : CInt) :
    ∃ word, set_pullupdn gpio pud block =
      { block with
        gpio_map := Function.update block.gpio_map PULLUPDN_OFFSET word
        pulls := Function.update block.pulls gpio (clockedCode pud) } := by
  have hplain : PULLUPDN_OFFSET ∉ [7, 8, 10, 11, 38, 39] := by decide
  have hcode : ∀ word : CInt,
      field 2 0 (if pud = PUD_DOWN then word &&& ~~~3#32 ||| PUD_DOWN
        else if pud = PUD_UP then word &&& ~~~3#32 ||| PUD_UP else word &&& ~~~3#32) =
        clockedCode pud := by
    intro word
    have hput : ∀ code : BitVec 2, field 2 0 (put 0 code (clear 2 0 word)) = code :=
      fun code ↦ field_put_clear_self (by decide) code word
    unfold clockedCode
    split
    · exact hput 1
    · split
      · exact hput 2
      · have hzero := hput 0
        rw [put, show (0 : BitVec 2).setWidth 32 <<< (0 * 2) = 0#32 from rfl,
          BitVec.or_zero] at hzero
        exact hzero
  refine ⟨(if pud = PUD_DOWN then block.gpio_map PULLUPDN_OFFSET &&& ~~~3#32 ||| PUD_DOWN
    else if pud = PUD_UP then block.gpio_map PULLUPDN_OFFSET &&& ~~~3#32 ||| PUD_UP
    else block.gpio_map PULLUPDN_OFFSET &&& ~~~3#32) &&& ~~~3#32, ?_⟩
  rw [set_pullupdn, if_neg hold]
  dsimp only
  rw [write_of_notMem hplain, write_clk hgpio, write_of_notMem hplain, write_clk hgpio]
  simp only [selects_iff, not_selects_zero, if_false, Function.update_self, Function.update_idem,
    hcode]
  congr 1
  funext other
  rw [Function.update_apply]

theorem pulled_of_is2711 (hchip : block.Chip) (h2711 : block.Is2711) (hgpio : gpio < 54)
    (pud : CInt) : Pulled gpio (Pull.of pud) block (set_pullupdn gpio pud block) := by
  have hreserved := hchip.resolve_left (not_not.mpr h2711)
  rw [set_pullupdn_of_is2711 h2711 hgpio]
  -- the field of the pin lies below the reserved bits
  have hkept : (Function.update block.gpio_map (PULLUPDN_OFFSET_2711_0 + gpio / 16)
      (put (gpio % 16) (fieldCode pud) (clear 2 (gpio % 16)
        (block.gpio_map (PULLUPDN_OFFSET_2711_0 + gpio / 16)))) PULLUPDN_OFFSET_2711_3).extractLsb'
        12 20 ≠ 0x67706#20 := by
    by_cases hreg : PULLUPDN_OFFSET_2711_3 = PULLUPDN_OFFSET_2711_0 + gpio / 16
    · have hlow : gpio % 16 * 2 + 2 ≤ 12 := by
        simp only [PULLUPDN_OFFSET_2711_3, PULLUPDN_OFFSET_2711_0] at hreg
        omega
      rw [← hreg, Function.update_self, extractLsb'_put_clear hlow (by decide)]
      exact hreserved
    · rw [Function.update_of_ne hreg]
      exact hreserved
  have hafter := @is2711_of_reserved { block with gpio_map := _ } hkept
  exact {
    chip := .inr hkept
    functions := by
      intro other hother
      have hne : other / 10 ≠ PULLUPDN_OFFSET_2711_0 + gpio / 16 := by
        simp only [PULLUPDN_OFFSET_2711_0]
        omega
      dsimp only [pinField]
      rw [Function.update_of_ne hne]
    latches := rfl
    pull := by
      intro other hother
      rw [Block.pull, if_pos hafter, Block.pull, if_pos h2711]
      dsimp only
      rw [field_update 2 16 PULLUPDN_OFFSET_2711_0 (by decide) (by decide), apply_ite fieldPull,
        fieldPull_fieldCode] }

theorem pulled_of_not_is2711 (h2711 : ¬block.Is2711) (hgpio : gpio < 54) (pud : CInt) :
    Pulled gpio (Pull.of pud) block (set_pullupdn gpio pud block) := by
  obtain ⟨word, hset⟩ := set_pullupdn_of_not_is2711 h2711 hgpio pud
  have hword : Function.update block.gpio_map PULLUPDN_OFFSET word PULLUPDN_OFFSET_2711_3 =
      block.gpio_map PULLUPDN_OFFSET_2711_3 := Function.update_of_ne (by decide) _ _
  rw [hset]
  have hafter : ¬Block.Is2711 { block with
      gpio_map := Function.update block.gpio_map PULLUPDN_OFFSET word
      pulls := Function.update block.pulls gpio (clockedCode pud) } :=
    fun his ↦ h2711 fun heq ↦ his (hword.trans heq)
  exact {
    chip := .inl hafter
    functions := by
      intro other hother
      have hne : other / 10 ≠ PULLUPDN_OFFSET := by
        simp only [PULLUPDN_OFFSET]
        omega
      dsimp only [pinField]
      rw [Function.update_of_ne hne]
    latches := rfl
    pull := by
      intro other hother
      rw [Block.pull, if_neg hafter, Block.pull, if_neg h2711]
      dsimp only
      rw [Function.update_apply]
      split
      · exact clockedPull_clockedCode pud
      · rfl }

/-- `set_pullupdn` does the same on every chip. -/
theorem pulled_set_pullupdn (hchip : block.Chip) (hgpio : gpio < 54) (pud : CInt) :
    Pulled gpio (Pull.of pud) block (set_pullupdn gpio pud block) := by
  by_cases h2711 : block.Is2711
  · exact pulled_of_is2711 hchip h2711 hgpio pud
  · exact pulled_of_not_is2711 h2711 hgpio pud

/-! ## Pins -/

/-- Both branches write the field of the pin. -/
theorem setup_gpio_eq (hgpio : gpio < 54) (direction pud : CInt) :
    setup_gpio gpio direction pud block =
      { set_pullupdn gpio pud block with
        gpio_map := Function.update (set_pullupdn gpio pud block).gpio_map (FSEL_OFFSET + gpio / 10)
          (put (gpio % 10) (functionOf direction) (clear 3 (gpio % 10)
            ((set_pullupdn gpio pud block).gpio_map (FSEL_OFFSET + gpio / 10)))) } := by
  have hplain : FSEL_OFFSET + gpio / 10 ∉ [7, 8, 10, 11, 38, 39] := by
    simp only [FSEL_OFFSET, List.mem_cons, List.not_mem_nil, or_false]
    omega
  unfold setup_gpio functionOf
  dsimp only
  rw [write_of_notMem hplain, write_of_notMem hplain]
  split
  · rfl
  · rw [put, show (0 : BitVec 3).setWidth 32 <<< (gpio % 10 * 3) = 0#32 by simp, BitVec.or_zero]
    rfl

/-- `setup_gpio` sets the function and the pull of its pin and leaves the other pins alone. -/
theorem pin_setup_gpio (hchip : block.Chip) (hgpio : gpio < 54) (direction pud : CInt) :
    (setup_gpio gpio direction pud block).Chip ∧
    ∀ other < 54, (setup_gpio gpio direction pud block).pin other =
      if other = gpio then
        { block.pin gpio with
          function := functionOf direction
          pull := some (Pull.of pud) }
      else block.pin other := by
  have hpulled := pulled_set_pullupdn hchip hgpio pud
  have hwrite := @setup_gpio_eq block gpio hgpio direction pud
  have hword : (setup_gpio gpio direction pud block).gpio_map PULLUPDN_OFFSET_2711_3 =
      (set_pullupdn gpio pud block).gpio_map PULLUPDN_OFFSET_2711_3 := by
    have hne : PULLUPDN_OFFSET_2711_3 ≠ FSEL_OFFSET + gpio / 10 := by
      simp only [PULLUPDN_OFFSET_2711_3, FSEL_OFFSET]
      omega
    rw [hwrite]
    exact Function.update_of_ne hne _ _
  have his : (setup_gpio gpio direction pud block).Is2711 ↔
      (set_pullupdn gpio pud block).Is2711 := by
    rw [Block.Is2711, hword, Block.Is2711]
  refine ⟨?_, fun other hother ↦ ?_⟩
  · rw [Block.Chip, his, hword]
    exact hpulled.chip
  · have hpull : (setup_gpio gpio direction pud block).pull other =
        (set_pullupdn gpio pud block).pull other := by
      have hne : PULLUPDN_OFFSET_2711_0 + other / 16 ≠ FSEL_OFFSET + gpio / 10 := by
        simp only [PULLUPDN_OFFSET_2711_0, FSEL_OFFSET]
        omega
      rw [Block.pull, Block.pull, if_congr his rfl rfl, hwrite]
      dsimp only
      rw [Function.update_of_ne hne]
    have hfunction : pinField (setup_gpio gpio direction pud block).gpio_map other =
        if other = gpio then functionOf direction else pinField block.gpio_map other := by
      have hfield := field_update 3 10 FSEL_OFFSET (by decide) (by decide)
        (functionOf direction) (set_pullupdn gpio pud block).gpio_map gpio other
      rw [show FSEL_OFFSET + other / 10 = other / 10 from Nat.zero_add _] at hfield
      rw [hwrite, ← hpulled.functions other hother]
      exact hfield
    have hlatch : (setup_gpio gpio direction pud block).latches = block.latches := by
      rw [hwrite]
      exact hpulled.latches
    rw [Block.pin, hfunction, hpull, hpulled.pull other hother, hlatch]
    by_cases hpin : other = gpio
    · simp only [hpin, if_true, Block.pin]
    · simp only [if_neg hpin, Block.pin]

/-- `gpio_function` reads the field of its pin: no copy of the sign gets as far down as the mask. -/
theorem gpio_function_eq (block : Block) (gpio : ℕ) :
    gpio_function gpio block = (block.pin gpio).function.setWidth 32 := by
  have hfits := slot_fits gpio
  have hword : FSEL_OFFSET + gpio / 10 = gpio / 10 := Nat.zero_add _
  apply BitVec.eq_of_getLsbD_eq
  intro bit hbit
  have hmask : (7#32).getLsbD bit = decide (bit < 3) := by
    change ((BitVec.allOnes 3).setWidth 32).getLsbD bit = decide (bit < 3)
    rw [BitVec.getLsbD_setWidth, decide_eq_true hbit, Bool.true_and, BitVec.getLsbD_allOnes]
  unfold gpio_function
  dsimp only [Block.pin, pinField]
  rw [hword, BitVec.getLsbD_and, hmask, BitVec.getLsbD_setWidth, decide_eq_true hbit,
    Bool.true_and, BitVec.getLsbD_sshiftRight]
  by_cases hlow : bit < 3
  · have hin : gpio % 10 * 3 + bit < 32 := by omega
    rw [getLsbD_field (gpio % 10) _ hlow, if_pos hin, decide_eq_true hlow, Bool.and_true]
    simp [hbit]
  · rw [decide_eq_false hlow, Bool.and_false, BitVec.getLsbD_of_ge _ _ (Nat.not_lt.mp hlow)]

theorem pin_output_gpio (hchip : block.Chip) (hgpio : gpio < 54) (value : CInt) :
    (output_gpio gpio value block).Chip ∧
    ∀ other < 54, (output_gpio gpio value block).pin other =
      if other = gpio then { block.pin gpio with level := decide (value ≠ LOW) }
      else block.pin other := by
  have hwrite : output_gpio gpio value block =
      { block with latches := Function.update block.latches gpio (decide (value ≠ LOW)) } := by
    unfold output_gpio
    dsimp only
    by_cases hvalue : value ≠ LOW
    · rw [if_pos hvalue, write_set hgpio, decide_eq_true hvalue]
    · rw [if_neg hvalue, write_clr hgpio, decide_eq_false hvalue]
  rw [hwrite]
  refine ⟨hchip, fun other hother ↦ ?_⟩
  by_cases hpin : other = gpio
  · rw [if_pos hpin, hpin]
    exact congrArg (Pin.mk _ _) (Function.update_self ..)
  · rw [if_neg hpin]
    exact congrArg (Pin.mk _ _) (Function.update_of_ne hpin ..)

end PiFunk.RpiGpio
