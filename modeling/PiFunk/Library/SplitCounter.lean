import Mathlib.Order.Monotone.Basic
import Mathlib.Tactic.Ring

/-!
# Reading a counter in two halves

A counter that is wider than a bus is read as its high half and its low half, one after the other,
and it goes on counting in between.  Halves of different moments may be put together to a value the
counter never had.  What they say is this: between two moments at which the high half is the same
the low half may be read at any time, and behind a change of the high half any low half will do, as
long as it is not read too early.
-/

namespace SplitCounter

/-- The value put together from the high half of one and the low half of another. -/
def combine (base high low : ℕ) : ℕ := high / base * base + low % base

@[simp]
theorem combine_self (base value : ℕ) : combine base value value = value :=
  Nat.div_add_mod' value base

/-- Between two values with the same high half. -/
theorem combine_of_between {base before value after : ℕ} (hbefore : before ≤ value)
    (hafter : value ≤ after) (hsame : before / base = after / base) :
    combine base after value = value := by
  have hhigh : value / base = after / base :=
    Nat.le_antisymm (Nat.div_le_div_right hafter) (hsame ▸ Nat.div_le_div_right hbefore)
  unfold combine
  rw [← hhigh]
  exact Nat.div_add_mod' value base

/-- A low half read later makes no value that is too large. -/
theorem combine_le {base high low : ℕ} (hle : high ≤ low) : combine base high low ≤ low :=
  calc
    combine base high low ≤ low / base * base + low % base :=
      Nat.add_le_add_right (Nat.mul_le_mul_right base (Nat.div_le_div_right hle)) _
    _ = low := Nat.div_add_mod' low base

/-- Behind a change of the high half no value is too small. -/
theorem lt_combine {base before high : ℕ} (hbase : 0 < base) (hle : before ≤ high)
    (hchanged : before / base ≠ high / base) (low : ℕ) : before < combine base high low := by
  have hless : before / base < high / base :=
    lt_of_le_of_ne (Nat.div_le_div_right hle) hchanged
  calc
    before < high / base * base := (Nat.div_lt_iff_lt_mul hbase).mp hless
    _ ≤ combine base high low := Nat.le_add_right _ _

end SplitCounter
