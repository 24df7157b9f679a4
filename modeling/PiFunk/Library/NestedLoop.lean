import Mathlib.Order.WellFounded
import Mathlib.Tactic.SplitIfs
import PiFunk.Library.Loop

/-!
# Loops whose bodies contain loops

All loops of a program share one bound, so the body of an outer loop depends on it too.  A run
settles in a state when it ends there under every bound that is large enough, and such runs can be
put together: one after the other, and round by round along a measure that decreases.

A second rule is about loops that may never end, such as one that waits for a device: an invariant
of the iteration holds in every state that a run reports, whatever bound it is run under.
-/

namespace FuelLoop

variable {ε σ α : Type*}

/-! ## Settling -/

/-- From some bound on, the run ends in this state. -/
def Settles (run : ℕ → Outcome ε σ) (final : σ) : Prop :=
  ∃ bound, ∀ fuel ≥ bound, run fuel = .done final

theorem Settles.of_done {run : ℕ → Outcome ε σ} {final : σ}
    (hdone : ∀ fuel, run fuel = .done final) : Settles run final := ⟨0, fun fuel _ ↦ hdone fuel⟩

theorem Settles.returns {program : Program ε σ} {start final : σ}
    (hsettles : Settles (fun fuel ↦ program fuel start) final) : Returns program start final := by
  obtain ⟨bound, hbound⟩ := hsettles
  exact ⟨bound, hbound bound le_rfl⟩

theorem Settles.andThen {first : ℕ → Outcome ε σ} {second : Program ε σ} {middle final : σ}
    (hfirst : Settles first middle) (hsecond : Settles (fun fuel ↦ second fuel middle) final) :
    Settles (fun fuel ↦ (first fuel).andThen (second fuel)) final := by
  obtain ⟨bound, hbound⟩ := hfirst
  obtain ⟨later, hlater⟩ := hsecond
  refine ⟨max bound later, fun fuel hfuel ↦ ?_⟩
  dsimp only
  rw [hbound fuel ((le_max_left bound later).trans hfuel), Outcome.done_andThen]
  exact hlater fuel ((le_max_right bound later).trans hfuel)

/-- From some bound on, this is what the iteration does. -/
def Steps (iteration : ℕ → σ → Iteration ε σ) (state : σ) (result : Iteration ε σ) : Prop :=
  ∃ bound, ∀ fuel ≥ bound, iteration fuel state = result

theorem Steps.of_eq {iteration : ℕ → σ → Iteration ε σ} {state : σ} {result : Iteration ε σ}
    (heq : ∀ fuel, iteration fuel state = result) : Steps iteration state result :=
  ⟨0, fun fuel _ ↦ heq fuel⟩

/-- From some bound on, for the body and for the number of rounds, the loop ends in this state. -/
def LoopSettles (iteration : ℕ → σ → Iteration ε σ) (start final : σ) : Prop :=
  ∃ bound, ∀ fuel ≥ bound, ∀ rounds ≥ bound, loop (iteration fuel) rounds start = .done final

section LoopSettles

variable {iteration : ℕ → σ → Iteration ε σ}

theorem LoopSettles.settles {start final : σ} (hsettles : LoopSettles iteration start final) :
    Settles (fun fuel ↦ loop (iteration fuel) fuel start) final := by
  obtain ⟨bound, hbound⟩ := hsettles
  exact ⟨bound, fun fuel hfuel ↦ hbound fuel hfuel fuel hfuel⟩

theorem LoopSettles.of_exit {start final : σ} (hexit : Steps iteration start (.exit final)) :
    LoopSettles iteration start final := by
  obtain ⟨bound, hbound⟩ := hexit
  refine ⟨bound + 1, fun fuel hfuel rounds hrounds ↦ ?_⟩
  obtain ⟨rest, rfl⟩ := Nat.exists_eq_add_of_le' hrounds
  rw [← Nat.add_assoc]
  exact loop_succ_exit (hbound fuel (Nat.le_of_succ_le hfuel)) _

theorem LoopSettles.of_again {start next final : σ} (hagain : Steps iteration start (.again next))
    (hrest : LoopSettles iteration next final) : LoopSettles iteration start final := by
  obtain ⟨bound, hbound⟩ := hagain
  obtain ⟨later, hlater⟩ := hrest
  refine ⟨max bound later + 1, fun fuel hfuel rounds hrounds ↦ ?_⟩
  have hlarge : max bound later ≤ fuel := Nat.le_of_succ_le hfuel
  obtain ⟨rest, rfl⟩ := Nat.exists_eq_add_of_le' hrounds
  rw [← Nat.add_assoc, loop_succ_again (hbound fuel ((le_max_left bound later).trans hlarge))]
  exact hlater fuel ((le_max_right bound later).trans hlarge) _
    (Nat.le_add_left_of_le (le_max_right bound later))

/-- A loop whose rounds keep an invariant and decrease a measure settles. -/
theorem exists_loopSettles (invariant post : σ → Prop) {relation : α → α → Prop}
    (hwellFounded : WellFounded relation) (measure : σ → α)
    (hstep : ∀ state, invariant state →
      (∃ final, Steps iteration state (.exit final) ∧ post final) ∨
        ∃ next, Steps iteration state (.again next) ∧ invariant next ∧
          relation (measure next) (measure state))
    {start : σ} (hstart : invariant start) :
    ∃ final, LoopSettles iteration start final ∧ post final := by
  induction hmeasure : measure start using hwellFounded.induction generalizing start with
  | h value ih =>
    rcases hstep start hstart with ⟨final, hexit, hpost⟩ | ⟨next, hagain, hnext, hless⟩
    · exact ⟨final, .of_exit hexit, hpost⟩
    · obtain ⟨final, hsettles, hpost⟩ := ih (measure next) (hmeasure ▸ hless) hnext rfl
      exact ⟨final, .of_again hagain hsettles, hpost⟩

end LoopSettles

/-! ## Invariants of every run -/

/-- The state an iteration leaves, however it ended. -/
def Iteration.state : Iteration ε σ → σ
  | again state => state
  | exit state => state
  | halted _ state => state
  | running state => state

/-- What holds where the first part stops, and wherever the second part stops behind it. -/
theorem Outcome.andThen_state_of_done (invariant : σ → Prop) {outcome : Outcome ε σ}
    {next : σ → Outcome ε σ} (hfirst : invariant outcome.state)
    (hnext : ∀ state, outcome = .done state → invariant (next state).state) :
    invariant (outcome.andThen next).state := by
  cases outcome with
  | done state => exact hnext state rfl
  | halted reason state => exact hfirst
  | running state => exact hfirst

/-- What every iteration keeps holds in whatever state a run reports. -/
theorem loop_state_of_invariant (invariant : σ → Prop) {iteration : σ → Iteration ε σ}
    (hstep : ∀ state, invariant state → invariant (iteration state).state) {start : σ}
    (hstart : invariant start) (fuel : ℕ) : invariant (loop iteration fuel start).state := by
  induction fuel generalizing start with
  | zero => exact hstart
  | succ fuel ih =>
    have hnext := hstep start hstart
    unfold loop
    cases hround : iteration start with
    | again next =>
      rw [hround] at hnext
      exact ih hnext
    | exit final =>
      rw [hround] at hnext
      exact hnext
    | halted reason final =>
      rw [hround] at hnext
      exact hnext
    | running reached =>
      rw [hround] at hnext
      exact hnext

/-- One iteration of a `while` loop leaves what its body leaves. -/
theorem state_whileIteration (guard : σ → Bool) (body : σ → Outcome ε σ) (state : σ) :
    (whileIteration guard body state).state =
      if guard state then (body state).state else state := by
  unfold whileIteration
  split_ifs
  · cases body state <;> rfl
  · rfl

/-- A loop that returns has kept the invariant and has left by an exit. -/
theorem loop_done_of_invariant (invariant post : σ → Prop)
    {iteration : σ → Iteration ε σ}
    (hagain : ∀ state next, invariant state → iteration state = .again next → invariant next)
    (hexit : ∀ state final, invariant state → iteration state = .exit final → post final)
    {start final : σ} (hstart : invariant start) {fuel : ℕ}
    (hdone : loop iteration fuel start = .done final) : post final := by
  induction fuel generalizing start with
  | zero => cases hdone
  | succ fuel ih =>
    unfold loop at hdone
    cases hround : iteration start with
    | again next =>
      rw [hround] at hdone
      exact ih (hagain start next hstart hround) hdone
    | exit reached =>
      rw [hround] at hdone
      exact Outcome.done.inj hdone ▸ hexit start reached hstart hround
    | halted reason reached =>
      rw [hround] at hdone
      cases hdone
    | running reached =>
      rw [hround] at hdone
      cases hdone

/-- The iteration that runs a body and goes round again. -/
def Outcome.again : Outcome ε σ → Iteration ε σ
  | done state => .again state
  | halted reason state => .halted reason state
  | running state => .running state

@[simp]
theorem Outcome.state_again (outcome : Outcome ε σ) : outcome.again.state = outcome.state := by
  cases outcome <;> rfl

/-- A round that runs a settling body and goes round again. -/
theorem Settles.steps {run : ℕ → Outcome ε σ} {next : σ} (hsettles : Settles run next)
    {iteration : ℕ → σ → Iteration ε σ} {state : σ}
    (hround : ∀ fuel, iteration fuel state = (run fuel).again) :
    Steps iteration state (.again next) := by
  obtain ⟨bound, hbound⟩ := hsettles
  refine ⟨bound, fun fuel hfuel ↦ ?_⟩
  rw [hround, hbound fuel hfuel]
  rfl

/-- One round of a `while` loop whose body settles. -/
theorem steps_whileIteration {guard : σ → Bool} {body : Program ε σ} {state next : σ}
    (hguard : guard state = true) (hbody : Settles (fun fuel ↦ body fuel state) next) :
    Steps (fun fuel ↦ whileIteration guard (body fuel)) state (.again next) := by
  obtain ⟨bound, hbound⟩ := hbody
  exact ⟨bound, fun fuel hfuel ↦ whileIteration_of_done hguard (hbound fuel hfuel)⟩

end FuelLoop
