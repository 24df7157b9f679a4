import Mathlib.Data.List.FinRange
import Mathlib.Data.List.ProdSigma
import PiFunk.CTypes
import PiFunk.Library.BitMatrix

/-!
# Bitmaps on the display

`render` turns a bitmap of eight bytes bit by bit and writes the bytes of the result to the display,
the last one first.  A `char` may be signed or not, and is converted to an `int` for every operator;
the mask leaves at most one bit of it, so the conversion makes no difference.
-/

namespace PiFunk.Display

open BitMatrix

inductive Signedness where
  | signed
  | unsigned
deriving DecidableEq, Repr

abbrev Bitmap := Rows 8

/-- The integer promotion of a `char`. -/
def promote (signedness : Signedness) (character : Byte) : CInt :=
  match signedness with
  | .signed => character.signExtend 32
  | .unsigned => character.setWidth 32

/-- The conversion of an `int` to a `char` keeps the low eight bits. -/
def toChar (value : CInt) : Byte := value.setWidth 8

/-- One call of `wiringPiI2CWriteReg8`. -/
structure RegisterWrite where
  register : CInt
  value : CInt
deriving DecidableEq, Repr

variable (signedness : Signedness)

/-- `(m[x] & (1<<(7-y))) >> (7-y) << x`. -/
def movedBit (character : Byte) (x y : ℕ) : CInt :=
  ((promote signedness character &&& 1#32 <<< (7 - y)).sshiftRight (7 - y)) <<< x

/-- `n[y] |= (m[x] & (1<<(7-y))) >> (7-y) << x`, for the row and the bit that are visited. -/
def setPixel (m n : Bitmap) (visited : Fin 8 × Fin 8) : Bitmap :=
  let (y, x) := visited
  Function.update n y (toChar (promote signedness (n y) ||| movedBit signedness (m x) x y))

/-- The array `n` behind the two loops over `y` and `x`. -/
def turned (m : Bitmap) : Bitmap :=
  (List.finRange 8).foldl
    (fun n y ↦ (List.finRange 8).foldl (fun row x ↦ setPixel signedness m row (y, x)) n)
    fun _ ↦ 0

/-- The writes of `render`, for `x` from 7 down to 0. -/
def render (bitmap : Bitmap) : List RegisterWrite :=
  (List.finRange 8).reverse.map fun x ↦ ⟨0x40, promote signedness (turned signedness bitmap x)⟩

/-- The bitmap is turned: every pixel of it comes to one place, four turns are none, and the bytes
are displayed from the last one. -/
structure Turns (bitmap : Bitmap) : Prop where
  bit : ∀ x y : Fin 8,
    (turned signedness bitmap y).getLsbD x = (bitmap x).getLsbD (7 - (y : ℕ))
  permutes : ∃ places : Equiv.Perm (Fin 8 × Fin 8), ∀ position,
    pixel (turned signedness bitmap) position = pixel bitmap (places position)
  fourfold : (turned signedness)^[4] bitmap = bitmap
  length : (render signedness bitmap).length = 8
  written : ∀ k : Fin 8,
    (render signedness bitmap)[(k : ℕ)]?.map (fun write ↦ toChar write.value) =
      some (turned signedness bitmap k.rev)

/-! ## One bit -/

theorem getLsbD_promote (character : Byte) {bit : ℕ} (hbit : bit < 8) :
    (promote signedness character).getLsbD bit = character.getLsbD bit := by
  have hwide : bit < 32 := by omega
  cases signedness with
  | signed =>
    rw [promote, BitVec.getLsbD_signExtend, if_pos hbit, decide_eq_true hwide, Bool.true_and]
  | unsigned => rw [promote, BitVec.getLsbD_setWidth, decide_eq_true hwide, Bool.true_and]

theorem toChar_promote (character : Byte) : toChar (promote signedness character) = character := by
  apply BitVec.eq_of_getLsbD_eq
  intro bit hbit
  rw [toChar, BitVec.getLsbD_setWidth, decide_eq_true hbit, Bool.true_and,
    getLsbD_promote signedness character hbit]

/-- The mask leaves one bit, which the first shift moves to the lowest place. -/
theorem getLsbD_masked (value : CInt) {place bit : ℕ} (hplace : place < 8) (hbit : bit < 8) :
    ((value &&& 1#32 <<< place).sshiftRight place).getLsbD bit =
      (decide (bit = 0) && value.getLsbD place) := by
  rw [BitVec.getLsbD_sshiftRight, if_pos (by omega), BitVec.getLsbD_and, BitVec.getLsbD_shiftLeft,
    BitVec.getLsbD_one]
  grind

/-- From there it is moved to place `x`. -/
theorem getLsbD_movedBit (character : Byte) {x y bit : ℕ} (hbit : bit < 8) :
    (movedBit signedness character x y).getLsbD bit =
      (decide (bit = x) && character.getLsbD (7 - y)) := by
  have hplace : 7 - y < 8 := by omega
  have hmasked := getLsbD_masked (promote signedness character) hplace
    (Nat.lt_of_le_of_lt (Nat.sub_le bit x) hbit)
  rw [movedBit, BitVec.getLsbD_shiftLeft, hmasked, getLsbD_promote signedness character hplace]
  grind

/-! ## The bitmap -/

theorem rev_eq (y : Fin 8) : (y.rev : ℕ) = 7 - (y : ℕ) := by
  rw [Fin.val_rev]
  omega

/-- The step lemma: a visit draws the visited pixel of the turned bitmap. -/
theorem setPixel_draws (m : Bitmap) :
    Draws (setPixel signedness m) fun position ↦ pixel m (quarterTurn 8 position) := by
  intro n visited position
  obtain ⟨y, x⟩ := visited
  obtain ⟨row, bit⟩ := position
  change (Function.update n y _ row).getLsbD bit = true ↔
    (n row).getLsbD bit = true ∨ (row, bit) = (y, x) ∧ (m bit).getLsbD row.rev = true
  by_cases hrow : row = y
  · rw [← hrow, Function.update_self, toChar, BitVec.getLsbD_setWidth, decide_eq_true bit.isLt,
      Bool.true_and, BitVec.getLsbD_or, getLsbD_promote signedness _ bit.isLt,
      getLsbD_movedBit signedness _ bit.isLt, rev_eq]
    by_cases hbit : bit = x
    · simp [hbit]
    · have hvalue : ¬ (bit : ℕ) = x := fun heq ↦ hbit (Fin.ext heq)
      simp [hbit, hvalue]
  · rw [Function.update_of_ne hrow]
    simp [hrow]

/-- The two loops visit one pixel after another. -/
theorem turned_eq_foldl (m : Bitmap) :
    turned signedness m =
      ((List.finRange 8).product (List.finRange 8)).foldl (setPixel signedness m) fun _ ↦ 0 := by
  simp only [turned, List.product, List.foldl_flatMap, List.foldl_map]

/-- The run lemma: the loops draw the turned bitmap. -/
theorem turned_moves : Moves (quarterTurn 8) (turned signedness) := by
  intro m position
  have hvisited : position ∈ (List.finRange 8).product (List.finRange 8) :=
    List.mem_product.mpr ⟨List.mem_finRange _, List.mem_finRange _⟩
  rw [turned_eq_foldl, Bool.eq_iff_iff, (setPixel_draws signedness m).foldl, and_iff_right hvisited]
  exact or_iff_right (by simp [pixel])

/-- `render` turns every bitmap, whether `char` is signed or not. -/
theorem render_turns (bitmap : Bitmap) : Turns signedness bitmap where
  bit x y := by
    rw [← rev_eq]
    exact turned_moves signedness bitmap (y, x)
  permutes := ⟨quarterTurn 8, turned_moves signedness bitmap⟩
  fourfold := (turned_moves signedness).iterate_eq_self (quarterTurn_pow_four 8) bitmap
  length := by simp [render]
  written k := by
    have horder : (List.finRange 8).reverse[(k : ℕ)]? = some k.rev := by
      revert k
      decide
    rw [render, List.getElem?_map, horder, Option.map_map]
    exact congrArg some (toChar_promote signedness _)

end PiFunk.Display
