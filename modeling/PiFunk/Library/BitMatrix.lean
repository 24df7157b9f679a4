import Mathlib.Algebra.Group.End
import Mathlib.Data.Fin.Rev
import Mathlib.Data.Nat.Notation

/-!
# Square matrices of bits

A picture of one bit per pixel is kept row by row, each row as a word.  An operation that moves
pixels reads every pixel of its result at one place of the picture it is given, and these places are
a permutation; its iterates move the pixels by the powers of the permutation.  A picture that is
drawn pixel by pixel has the pixels that have been visited.
-/

namespace BitMatrix

variable {n : ℕ}

abbrev Rows (n : ℕ) := Fin n → BitVec n

/-- A pixel by its row and its bit, counted from the lowest one. -/
def pixel (rows : Rows n) (position : Fin n × Fin n) : Bool :=
  (rows position.1).getLsbD position.2

theorem rows_ext {rows other : Rows n}
    (hpixel : ∀ position, pixel rows position = pixel other position) : rows = other := by
  funext row
  apply BitVec.eq_of_getLsbD_eq
  intro bit hbit
  exact hpixel (row, ⟨bit, hbit⟩)

/-! ## Moving pixels -/

/-- Each pixel of the result is read at the place that the permutation gives. -/
def Moves (places : Equiv.Perm (Fin n × Fin n)) (step : Rows n → Rows n) : Prop :=
  ∀ rows position, pixel (step rows) position = pixel rows (places position)

section Moves

variable {places : Equiv.Perm (Fin n × Fin n)} {step : Rows n → Rows n}

/-- Repeated, the step reads at the places of the power. -/
theorem Moves.iterate (hmoves : Moves places step) (count : ℕ) :
    Moves (places ^ count) step^[count] := by
  intro rows
  induction count with
  | zero => exact fun _ ↦ rfl
  | succ count ih =>
    intro position
    calc
      pixel (step^[count + 1] rows) position = pixel (step (step^[count] rows)) position := by
        rw [Function.iterate_succ_apply']
      _ = pixel (step^[count] rows) (places position) := hmoves _ _
      _ = pixel rows ((places ^ count) (places position)) := ih _
      _ = pixel rows ((places ^ (count + 1)) position) := by rw [pow_succ, Equiv.Perm.mul_apply]

/-- A step whose permutation has a finite order comes back to where it started. -/
theorem Moves.iterate_eq_self (hmoves : Moves places step) {count : ℕ}
    (horder : places ^ count = 1) (rows : Rows n) : step^[count] rows = rows := by
  apply rows_ext
  intro position
  rw [hmoves.iterate count, horder, Equiv.Perm.one_apply]

end Moves

/-- A quarter turn: a row of the result is a column, read from its other end. -/
def quarterTurn (n : ℕ) : Equiv.Perm (Fin n × Fin n) where
  toFun position := (position.2, position.1.rev)
  invFun position := (position.2.rev, position.1)
  left_inv position := by simp
  right_inv position := by simp

theorem quarterTurn_pow_four (n : ℕ) : quarterTurn n ^ 4 = 1 := by
  ext position
  · simp [pow_succ, quarterTurn]
  · simp [pow_succ, quarterTurn]

/-! ## Drawing pixel by pixel -/

/-- A visit sets the visited pixel, if it is to be set, and no other one. -/
def Draws (visit : Rows n → Fin n × Fin n → Rows n) (picture : Fin n × Fin n → Bool) : Prop :=
  ∀ rows visited position, pixel (visit rows visited) position = true ↔
    pixel rows position = true ∨ position = visited ∧ picture position = true

/-- After some visits, in any order, the visited pixels are drawn. -/
theorem Draws.foldl {visit : Rows n → Fin n × Fin n → Rows n} {picture : Fin n × Fin n → Bool}
    (hdraws : Draws visit picture) (order : List (Fin n × Fin n)) (rows : Rows n)
    (position : Fin n × Fin n) :
    pixel (order.foldl visit rows) position = true ↔
      pixel rows position = true ∨ position ∈ order ∧ picture position = true := by
  induction order generalizing rows with
  | nil => simp
  | cons visited order ih =>
    rw [List.foldl_cons, ih, hdraws, or_assoc, ← or_and_right, List.mem_cons]

end BitMatrix
