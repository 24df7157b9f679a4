import Mathlib.Algebra.Order.Ring.Nat
import Mathlib.Data.Nat.ModEq
import Mathlib.Logic.Function.Iterate

/-!
# Pointers into a cyclic buffer

A pointer that advances by a fixed stride and wraps at a size, starting at 0.  The slots it visits
lie below a capacity smaller than the size exactly as long as it has not been advanced past that
capacity: a wrap that is too late is found out after `capacity / stride` steps.
-/

namespace CyclicPointer

variable {stride size capacity offset : ℕ}

def advance (stride size pointer : ℕ) : ℕ := (pointer + stride) % size

theorem advance_iterate (stride size count : ℕ) :
    (advance stride size)^[count] 0 = count * stride % size := by
  induction count with
  | zero => simp
  | succ count ih =>
    calc (advance stride size)^[count + 1] 0
        = advance stride size ((advance stride size)^[count] 0) :=
          Function.iterate_succ_apply' _ _ _
      _ = (count * stride % size + stride) % size := by rw [ih, advance]
      _ = (count + 1) * stride % size := by rw [Nat.mod_add_mod, Nat.succ_mul]

theorem dvd_advance_iterate (haligned : stride ∣ size) (count : ℕ) :
    stride ∣ (advance stride size)^[count] 0 := by
  rw [advance_iterate, Nat.dvd_mod_iff haligned]
  exact Dvd.intro_left count rfl

/-- The slot `offset` behind the pointer is below the capacity in each of the first `count` steps
if and only if these steps do not use up the capacity. -/
theorem forall_slot_lt_iff (hcapacity : stride ∣ capacity) (hsize : capacity < size)
    (hoffset : offset < stride) (count : ℕ) :
    (∀ k < count, (advance stride size)^[k] 0 + offset < capacity) ↔
      count ≤ capacity / stride := by
  simp only [advance_iterate]
  obtain ⟨steps, rfl⟩ := hcapacity
  have hstride : 0 < stride := Nat.zero_lt_of_lt hoffset
  rw [Nat.mul_div_cancel_left steps hstride]
  constructor
  · intro hslots
    by_contra hcount
    have hlast := hslots steps (not_le.mp hcount)
    rw [mul_comm steps stride, Nat.mod_eq_of_lt hsize] at hlast
    omega
  · intro hcount k hk
    have hnext : (k + 1) * stride ≤ steps * stride :=
      Nat.mul_le_mul_right stride (hk.trans_le hcount)
    calc k * stride % size + offset
        ≤ k * stride + offset := Nat.add_le_add_right (Nat.mod_le _ _) offset
      _ < (k + 1) * stride := by rw [Nat.succ_mul]; omega
      _ ≤ stride * steps := by rwa [mul_comm stride steps]

end CyclicPointer
