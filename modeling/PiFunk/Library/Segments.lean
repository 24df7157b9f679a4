import Mathlib.Data.List.Basic
import Mathlib.Data.Nat.Notation

/-!
# Exchanging segments of an array in place

An array is the list of its elements, and an access outside it has no result.  Two blocks of one
length are exchanged element by element, and two adjacent segments of any lengths by exchanging the
shorter one with the far end of the longer one until one of them is empty.
-/

namespace Segments

variable {α : Type*}

/-- The array with the elements at two indices exchanged. -/
def swap (array : List α) (left right : ℕ) : Option (List α) :=
  array[left]?.bind fun first ↦ array[right]?.map fun second ↦
    (array.set left second).set right first

/-- The array with `count` elements from `left` on exchanged with those from `right` on. -/
def swapBlocks : ℕ → ℕ → ℕ → List α → Option (List α)
  | 0, _, _, array => some array
  | count + 1, left, right, array =>
    (swap array left right).bind (swapBlocks count (left + 1) (right + 1))

/-- The array with the segments from `bottom` to `middle` and from `middle` to `top` exchanged. -/
def exchange (bottom middle top : ℕ) (array : List α) : Option (List α) :=
  if middle < top ∧ bottom < middle then
    if middle - bottom < top - middle then
      (swapBlocks (middle - bottom) bottom (top - (middle - bottom)) array).bind
        (exchange bottom middle (top - (middle - bottom)))
    else
      (swapBlocks (top - middle) bottom middle array).bind
        (exchange (bottom + (top - middle)) middle top)
  else some array
termination_by top - bottom

theorem swap_append (before between after : List α) (first second : α) :
    swap (before ++ first :: (between ++ second :: after)) before.length
        (before.length + 1 + between.length) =
      some (before ++ second :: (between ++ first :: after)) := by
  have hfirst : (before ++ first :: (between ++ second :: after))[before.length]? = some first := by
    simp
  have hsecond : (before ++ first :: (between ++ second :: after))[
      before.length + 1 + between.length]? = some second := by
    rw [List.getElem?_append_right (by omega), Nat.add_assoc, Nat.add_sub_cancel_left, Nat.add_comm,
      List.getElem?_cons_succ, List.getElem?_append_right (Nat.le_refl _), Nat.sub_self,
      List.getElem?_cons_zero]
  rw [swap, hfirst, hsecond]
  simp only [Option.bind_some, Option.map_some, Option.some.injEq]
  rw [List.set_append_right _ _ (Nat.le_refl _), Nat.sub_self, List.set_cons_zero,
    List.set_append_right _ _ (by omega), Nat.add_assoc, Nat.add_sub_cancel_left, Nat.add_comm,
    List.set_cons_succ, List.set_append_right _ _ (Nat.le_refl _), Nat.sub_self, List.set_cons_zero]

/-- The loop over two blocks of one length exchanges them. -/
theorem swapBlocks_append (before left between right after : List α)
    (hlength : left.length = right.length) :
    swapBlocks left.length before.length (before.length + left.length + between.length)
        (before ++ left ++ between ++ right ++ after) =
      some (before ++ right ++ between ++ left ++ after) := by
  induction left generalizing before between right with
  | nil =>
    obtain rfl : right = [] := List.length_eq_zero_iff.mp hlength.symm
    rfl
  | cons first left ih =>
    cases right with
    | nil => cases hlength
    | cons second right =>
      have hrest : left.length = right.length := Nat.succ.inj hlength
      -- the element that is left behind joins the part between the blocks
      have hswap := swap_append before (left ++ between) (right ++ after) first second
      have hloop := ih (before ++ [second]) (between ++ [first]) right hrest
      simp only [List.length_append, List.length_cons, List.length_nil, List.append_assoc,
        List.cons_append, List.nil_append, Nat.zero_add] at hswap hloop ⊢
      rw [swapBlocks, show before.length + (left.length + 1) + between.length =
        before.length + 1 + (left.length + between.length) by omega, hswap, Option.bind_some,
        show before.length + 1 + (left.length + between.length) + 1 =
          before.length + 1 + left.length + (between.length + 1) by omega, hloop]

/-- A list whose end is as long as another list that is not longer. -/
theorem exists_append_of_length_le {short long : List α} (hlength : short.length ≤ long.length) :
    ∃ first last, long = first ++ last ∧ short.length = last.length := by
  refine ⟨long.take (long.length - short.length), long.drop (long.length - short.length),
    (List.take_append_drop _ _).symm, ?_⟩
  rw [List.length_drop]
  omega

/-- A list whose beginning is as long as another list that is not longer. -/
theorem exists_append_of_le_length {short long : List α} (hlength : short.length ≤ long.length) :
    ∃ first last, long = first ++ last ∧ first.length = short.length :=
  ⟨long.take short.length, long.drop short.length, (List.take_append_drop _ _).symm,
    List.length_take_of_le hlength⟩

/-- The segments are exchanged, each in its own order, and the rest stays in place. -/
theorem exchange_append (before left right after : List α) :
    exchange before.length (before.length + left.length)
        (before.length + left.length + right.length) (before ++ left ++ right ++ after) =
      some (before ++ right ++ left ++ after) := by
  induction hsize : left.length + right.length using Nat.strongRecOn
    generalizing before left right after with
  | _ size ih =>
    rw [exchange, Nat.add_sub_cancel_left, Nat.add_sub_cancel_left]
    split_ifs with hboth hshorter
    · -- the left segment goes to the end, and what came forward for it is the new left segment
      obtain ⟨first, last, rfl, hlast⟩ := exists_append_of_length_le (Nat.le_of_lt hshorter)
      rw [List.length_append] at hsize hboth ⊢
      have hswap := swapBlocks_append before left first last after hlast
      have hrest := ih (last.length + first.length) (by omega) before last first (left ++ after) rfl
      have htop : before.length + left.length + (first.length + last.length) - left.length =
          before.length + left.length + first.length := by omega
      rw [htop, ← List.append_assoc (before ++ left), hswap, Option.bind_some, hlast]
      simpa only [List.append_assoc] using hrest
    · -- the right segment comes to the front, and what went back for it is the new right segment
      obtain ⟨first, last, rfl, hfirst⟩ := exists_append_of_le_length (Nat.le_of_not_lt hshorter)
      rw [List.length_append] at hsize hboth ⊢
      have hswap := swapBlocks_append before first last right after hfirst
      have hrest :=
        ih (last.length + first.length) (by omega) (before ++ right) last first after rfl
      rw [hfirst] at hswap
      rw [List.length_append] at hrest
      have hmiddle : before.length + (first.length + last.length) =
          before.length + right.length + last.length := by omega
      rw [hmiddle, ← List.append_assoc before, hswap, Option.bind_some]
      rw [hfirst] at hrest
      simpa only [List.append_assoc] using hrest
    · have hempty : left = [] ∨ right = [] := by
        rw [← List.length_eq_zero_iff, ← List.length_eq_zero_iff]
        omega
      rcases hempty with rfl | rfl <;> simp

end Segments
