import Mathlib.Algebra.Order.Ring.Nat
import Mathlib.Data.Nat.Find
import Mathlib.Logic.Function.Iterate

/-!
# Schedules

A device that runs beside a program takes a number of steps before each access of the program to it.
The schedule of these numbers is fair when it never stops for good, so that a program which polls
the device does not wait for ever.
-/

namespace Schedule

/-- A schedule that never stops for good. -/
def Fair (schedule : ℕ → ℕ) : Prop := ∀ n, ∃ m, n ≤ m ∧ 0 < schedule m

/-- How many entries of the schedule are left before one that is not zero. -/
def wait {schedule : ℕ → ℕ} (hfair : Fair schedule) (n : ℕ) : ℕ := Nat.find (hfair n) - n

theorem wait_succ_lt {schedule : ℕ → ℕ} (hfair : Fair schedule) {n : ℕ} (hzero : schedule n = 0) :
    wait hfair (n + 1) < wait hfair n := by
  obtain ⟨hle, hpos⟩ := Nat.find_spec (hfair n)
  have hlater : n + 1 ≤ Nat.find (hfair n) := by
    rcases Nat.eq_or_lt_of_le hle with heq | hlt
    · rw [← heq, hzero] at hpos
      exact absurd hpos (lt_irrefl 0)
    · exact hlt
  have hfind : Nat.find (hfair (n + 1)) ≤ Nat.find (hfair n) :=
    Nat.find_min' (hfair (n + 1)) ⟨hlater, hpos⟩
  unfold wait
  omega

/-- Steps that never add to the work left, the first of which does some of it. -/
theorem iterate_lt {σ : Type*} {step : σ → σ} {work : σ → ℕ}
    (hle : ∀ state, work (step state) ≤ work state) {state : σ}
    (hfirst : work (step state) < work state) {count : ℕ} (hcount : 0 < count) :
    work (step^[count] state) < work state := by
  obtain ⟨rest, rfl⟩ : ∃ rest, count = rest + 1 := ⟨count - 1, by omega⟩
  rw [Function.iterate_succ_apply]
  refine lt_of_le_of_lt ?_ hfirst
  induction rest with
  | zero => exact le_rfl
  | succ rest ih =>
    rw [Function.iterate_succ_apply']
    exact (hle _).trans (ih (Nat.succ_pos rest))

end Schedule
