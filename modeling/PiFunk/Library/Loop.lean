import Mathlib.Data.Nat.Notation
import Mathlib.Logic.Function.Iterate

/-!
# Loops run under a fuel bound

A loop of an imperative program is given by what one iteration does to the state: go round
again, leave the loop, end the whole process, or get stuck in an inner loop that has used up its
own bound.  `loop` runs at most `fuel` iterations, so it is total and executable; a run that does
not finish reports the state it has reached, and that state is a point of the real, unbounded run.

Termination is the existence of a sufficient bound, and divergence is running out of every bound.
The rules below count the iterations of a loop whose iterations are known, and carry an invariant
through a loop that never leaves.
-/

namespace FuelLoop

/-- What a bounded run of a program over the states `σ` reports. -/
inductive Outcome (ε σ : Type*) where
  /-- The program returned in this state. -/
  | done (state : σ)
  /-- The whole process ended in this state, for a reason such as an exit or a fault. -/
  | halted (reason : ε) (state : σ)
  /-- The bound was used up here. -/
  | running (state : σ)
deriving DecidableEq, Repr

/-- What one iteration of a loop over the states `σ` does. -/
inductive Iteration (ε σ : Type*) where
  /-- Test the loop condition again from this state. -/
  | again (state : σ)
  /-- Leave the loop in this state. -/
  | exit (state : σ)
  /-- The process ended inside the body. -/
  | halted (reason : ε) (state : σ)
  /-- An inner loop used up its bound here. -/
  | running (state : σ)

variable {ε σ : Type*}

namespace Outcome

/-- The last state a run reports, however it ended. -/
def state : Outcome ε σ → σ
  | done state => state
  | halted _ state => state
  | running state => state

/-- The outcome of a part of a larger program, embedded into the states of that program. -/
def map {ε' σ' : Type*} (reason : ε → ε') (embed : σ → σ') : Outcome ε σ → Outcome ε' σ'
  | done state => done (embed state)
  | halted why state => halted (reason why) (embed state)
  | running state => running (embed state)

@[simp]
theorem state_map {ε' σ' : Type*} (reason : ε → ε') (embed : σ → σ') (outcome : Outcome ε σ) :
    (outcome.map reason embed).state = embed outcome.state := by
  cases outcome <;> rfl

/-- Sequential composition: only a program that returned is followed by the next one. -/
def andThen (outcome : Outcome ε σ) (next : σ → Outcome ε σ) : Outcome ε σ :=
  match outcome with
  | done state => next state
  | halted reason state => halted reason state
  | running state => running state

@[simp]
theorem done_andThen (state : σ) (next : σ → Outcome ε σ) :
    (done state).andThen next = next state := rfl

@[simp]
theorem halted_andThen (reason : ε) (state : σ) (next : σ → Outcome ε σ) :
    (halted reason state).andThen next = halted reason state := rfl

@[simp]
theorem running_andThen (state : σ) (next : σ → Outcome ε σ) :
    (running state).andThen next = running state := rfl

/-- What the first part establishes and the second part keeps holds at the end of a sequence,
however it ended. -/
theorem andThen_state_of_invariant (invariant : σ → Prop) {outcome : Outcome ε σ}
    {next : σ → Outcome ε σ} (hfirst : invariant outcome.state)
    (hnext : ∀ state, invariant state → invariant (next state).state) :
    invariant (outcome.andThen next).state := by
  cases outcome with
  | done state => exact hnext state hfirst
  | halted reason state => exact hfirst
  | running state => exact hfirst

theorem map_eq_done_iff {ε' σ' : Type*} (reason : ε → ε') (embed : σ → σ')
    (outcome : Outcome ε σ) (final : σ') :
    outcome.map reason embed = done final ↔
      ∃ state, outcome = done state ∧ embed state = final := by
  cases outcome <;> simp [map]

theorem andThen_eq_done_iff (outcome : Outcome ε σ) (next : σ → Outcome ε σ) (final : σ) :
    outcome.andThen next = done final ↔
      ∃ state, outcome = done state ∧ next state = done final := by
  cases outcome <;> simp

end Outcome

/-- A program is run under a bound from a state. -/
abbrev Program (ε σ : Type*) := ℕ → σ → Outcome ε σ

/-- The program returns from `start` in the state `final`, under some bound. -/
def Returns (program : Program ε σ) (start final : σ) : Prop :=
  ∃ fuel, program fuel start = .done final

/-- Every bound is used up: the program runs for ever from `start`. -/
def Diverges (program : Program ε σ) (start : σ) : Prop :=
  ∀ fuel, ∃ reached, program fuel start = .running reached

theorem Diverges.not_returns {program : Program ε σ} {start : σ}
    (hdiverges : Diverges program start) (final : σ) : ¬ Returns program start final := by
  rintro ⟨fuel, hdone⟩
  obtain ⟨reached, hrunning⟩ := hdiverges fuel
  rw [hrunning] at hdone
  cases hdone

/-! ## What a program leads to -/

/-- The program returns only in states related to the one it was run from. -/
def Leads (relation : σ → σ → Prop) (program : σ → Outcome ε σ) : Prop :=
  ∀ before after, program before = .done after → relation before after

section Leads

variable {relation : σ → σ → Prop} {first second : σ → Outcome ε σ}

/-- A program that computes the state it returns in. -/
theorem Leads.of_step {step : σ → σ} (hstep : ∀ before, relation before (step before)) :
    Leads relation fun before ↦ (.done (step before) : Outcome ε σ) := by
  intro before after hdone
  cases hdone
  exact hstep before

theorem Leads.andThen [IsTrans σ relation] (hfirst : Leads relation first)
    (hsecond : Leads relation second) :
    Leads relation fun before ↦ (first before).andThen second := by
  intro before after hdone
  obtain ⟨middle, hmiddle, hafter⟩ := (Outcome.andThen_eq_done_iff _ _ _).mp hdone
  exact trans_of relation (hfirst before middle hmiddle) (hsecond middle after hafter)

theorem Leads.ite (condition : σ → Prop) [DecidablePred condition] (hfirst : Leads relation first)
    (hsecond : Leads relation second) :
    Leads relation fun before ↦ if condition before then first before else second before := by
  intro before after hdone
  by_cases hcondition : condition before
  · exact hfirst before after ((if_pos hcondition).symm.trans hdone)
  · exact hsecond before after ((if_neg hcondition).symm.trans hdone)

end Leads

/-! ## Loops -/

/-- Run at most `fuel` iterations. -/
def loop (iteration : σ → Iteration ε σ) : Program ε σ
  | 0, state => .running state
  | fuel + 1, state =>
    match iteration state with
    | .again next => loop iteration fuel next
    | .exit final => .done final
    | .halted reason final => .halted reason final
    | .running reached => .running reached

/-- One iteration of `while (guard) body`. -/
def whileIteration (guard : σ → Bool) (body : σ → Outcome ε σ) (state : σ) : Iteration ε σ :=
  if guard state then
    match body state with
    | .done next => .again next
    | .halted reason final => .halted reason final
    | .running reached => .running reached
  else .exit state

/-- The C statement `while (guard) body`. -/
def whileLoop (guard : σ → Bool) (body : σ → Outcome ε σ) : Program ε σ :=
  loop (whileIteration guard body)

theorem whileIteration_of_false {guard : σ → Bool} {body : σ → Outcome ε σ} {state : σ}
    (hguard : guard state = false) : whileIteration guard body state = .exit state := by
  simp [whileIteration, hguard]

theorem whileIteration_of_done {guard : σ → Bool} {body : σ → Outcome ε σ} {state next : σ}
    (hguard : guard state = true) (hbody : body state = .done next) :
    whileIteration guard body state = .again next := by
  simp [whileIteration, hguard, hbody]

theorem whileIteration_of_running {guard : σ → Bool} {body : σ → Outcome ε σ}
    {state reached : σ} (hguard : guard state = true) (hbody : body state = .running reached) :
    whileIteration guard body state = .running reached := by
  simp [whileIteration, hguard, hbody]

section Rules

variable {iteration : σ → Iteration ε σ}

@[simp]
theorem loop_zero (state : σ) : loop iteration 0 state = .running state := rfl

theorem loop_succ_again {state next : σ} (hagain : iteration state = .again next) (fuel : ℕ) :
    loop iteration (fuel + 1) state = loop iteration fuel next := by
  simp [loop, hagain]

theorem loop_succ_exit {state final : σ} (hexit : iteration state = .exit final) (fuel : ℕ) :
    loop iteration (fuel + 1) state = .done final := by
  simp [loop, hexit]

theorem loop_succ_halted {state final : σ} {reason : ε}
    (hhalted : iteration state = .halted reason final) (fuel : ℕ) :
    loop iteration (fuel + 1) state = .halted reason final := by
  simp [loop, hhalted]

theorem loop_succ_running {state reached : σ} (hrunning : iteration state = .running reached)
    (fuel : ℕ) : loop iteration (fuel + 1) state = .running reached := by
  simp [loop, hrunning]

/-- A loop that goes round `count` times by the step `step` is run from the `count`-th iterate
with the remaining fuel. -/
theorem loop_add_iterate (step : σ → σ) (count : ℕ) (start : σ)
    (hagain : ∀ k < count, iteration (step^[k] start) = .again (step^[k + 1] start)) (fuel : ℕ) :
    loop iteration (count + fuel) start = loop iteration fuel (step^[count] start) := by
  induction count generalizing start with
  | zero => simp
  | succ count ih =>
    have hfirst : iteration start = .again (step start) := hagain 0 (Nat.succ_pos count)
    have hrest : ∀ k < count,
        iteration (step^[k] (step start)) = .again (step^[k + 1] (step start)) := by
      intro k hk
      simpa only [← Function.iterate_succ_apply] using hagain (k + 1) (Nat.succ_lt_succ hk)
    calc
      loop iteration (count + 1 + fuel) start = loop iteration (count + fuel) (step start) := by
        rw [Nat.add_right_comm, loop_succ_again hfirst]
      _ = loop iteration fuel (step^[count] (step start)) := ih (step start) hrest
      _ = loop iteration fuel (step^[count + 1] start) := by rw [← Function.iterate_succ_apply]

/-- A loop with exactly `count` iterations: it returns under every larger bound and has reached
the iterate of the bound under every other one. -/
theorem loop_eq_of_count (step : σ → σ) (count : ℕ) (start final : σ)
    (hagain : ∀ k < count, iteration (step^[k] start) = .again (step^[k + 1] start))
    (hexit : iteration (step^[count] start) = .exit final) (fuel : ℕ) :
    loop iteration fuel start =
      if count < fuel then .done final else .running (step^[fuel] start) := by
  split
  · rename_i hfuel
    obtain ⟨rest, rfl⟩ : ∃ rest, fuel = count + (rest + 1) := ⟨fuel - count - 1, by omega⟩
    rw [loop_add_iterate step count start hagain, loop_succ_exit hexit]
  · rename_i hfuel
    have hprefix : ∀ k < fuel, iteration (step^[k] start) = .again (step^[k + 1] start) :=
      fun k hk ↦ hagain k (by omega)
    simpa using loop_add_iterate step fuel start hprefix 0

/-- An invariant under which every iteration goes round again makes the loop use up every bound.  A
body stuck in an inner loop counts as well. -/
theorem loop_running_of_invariant (invariant : σ → Prop)
    (hstep : ∀ state, invariant state →
      (∃ next, iteration state = .again next ∧ invariant next) ∨
        ∃ reached, iteration state = .running reached)
    (start : σ) (hstart : invariant start) (fuel : ℕ) :
    ∃ reached, loop iteration fuel start = .running reached := by
  induction fuel generalizing start with
  | zero => exact ⟨start, rfl⟩
  | succ fuel ih =>
    rcases hstep start hstart with ⟨next, hagain, hnext⟩ | ⟨reached, hrunning⟩
    · rw [loop_succ_again hagain]
      exact ih next hnext
    · exact ⟨reached, loop_succ_running hrunning fuel⟩

end Rules

/-- A loop that comes back to the same state stays there. -/
theorem loop_of_fixed {iteration : σ → Iteration ε σ} {state : σ}
    (hfixed : iteration state = .again state) (fuel : ℕ) :
    loop iteration fuel state = .running state := by
  induction fuel with
  | zero => rfl
  | succ fuel ih => rw [loop_succ_again hfixed, ih]

/-- A `while` loop whose body keeps the condition true never returns: it runs for ever, or the
process ends inside the body. -/
theorem whileLoop_ne_done {guard : σ → Bool} {body : σ → Outcome ε σ}
    (hbody : ∀ state next, guard state = true → body state = .done next → guard next = true)
    (start final : σ) (hstart : guard start = true) (fuel : ℕ) :
    whileLoop guard body fuel start ≠ .done final := by
  unfold whileLoop
  induction fuel generalizing start with
  | zero => nofun
  | succ fuel ih =>
    unfold loop whileIteration
    rw [if_pos hstart]
    cases hround : body start with
    | done next => exact ih next (hbody start next hstart hround)
    | halted reason reached => nofun
    | running reached => nofun

/-! ## Loops whose body always returns -/

section Step

variable {guard : σ → Bool} {step : σ → σ}

theorem whileIteration_step {state : σ} (hguard : guard state = true) :
    whileIteration guard (fun s ↦ (.done (step s) : Outcome ε σ)) state = .again (step state) :=
  whileIteration_of_done hguard rfl

theorem whileIteration_step_iterate {start : σ} {k : ℕ}
    (hguard : guard (step^[k] start) = true) :
    whileIteration guard (fun s ↦ (.done (step s) : Outcome ε σ)) (step^[k] start) =
      .again (step^[k + 1] start) := by
  rw [whileIteration_step hguard, Function.iterate_succ_apply']

/-- `while (guard) step` returns in the first iterate at which the guard is false. -/
theorem whileLoop_step_returns {start : σ} {count : ℕ}
    (hrounds : ∀ k < count, guard (step^[k] start) = true)
    (hleave : guard (step^[count] start) = false) :
    Returns (whileLoop guard fun s ↦ (.done (step s) : Outcome ε σ)) start
      (step^[count] start) := by
  refine ⟨count + 1, ?_⟩
  calc
    whileLoop guard (fun s ↦ (.done (step s) : Outcome ε σ)) (count + 1) start =
        if count < count + 1 then .done (step^[count] start)
        else .running (step^[count + 1] start) :=
      loop_eq_of_count step count start _
        (fun k hk ↦ whileIteration_step_iterate (hrounds k hk))
        (whileIteration_of_false hleave) (count + 1)
    _ = .done (step^[count] start) := if_pos (Nat.lt_succ_self count)

/-- It returns nowhere else. -/
theorem returns_whileLoop_step_iff (start final : σ) :
    Returns (whileLoop guard fun s ↦ (.done (step s) : Outcome ε σ)) start final ↔
      ∃ count, (∀ k < count, guard (step^[k] start) = true) ∧
        guard (step^[count] start) = false ∧ final = step^[count] start := by
  constructor
  · intro hreturns
    obtain ⟨fuel, hdone⟩ := hreturns
    induction fuel generalizing start with
    | zero => cases hdone
    | succ fuel ih =>
      cases hguard : guard start with
      | false =>
        rw [whileLoop, loop_succ_exit (whileIteration_of_false hguard)] at hdone
        cases hdone
        exact ⟨0, nofun, hguard, rfl⟩
      | true =>
        rw [whileLoop, loop_succ_again (whileIteration_step hguard)] at hdone
        obtain ⟨count, hrounds, hleave, hfinal⟩ := ih (step start) hdone
        refine ⟨count + 1, fun k hk ↦ ?_, hleave, hfinal⟩
        cases k with
        | zero => exact hguard
        | succ k => exact hrounds k (Nat.lt_of_succ_lt_succ hk)
  · intro hcount
    obtain ⟨count, hrounds, hleave, hfinal⟩ := hcount
    rw [hfinal]
    exact whileLoop_step_returns hrounds hleave

/-- Where the number of rounds is known the loop returns in their iterate alone. -/
theorem returns_whileLoop_step_iff_eq {start : σ} {count : ℕ}
    (hrounds : ∀ k < count, guard (step^[k] start) = true)
    (hleave : guard (step^[count] start) = false) (final : σ) :
    Returns (whileLoop guard fun s ↦ (.done (step s) : Outcome ε σ)) start final ↔
      final = step^[count] start := by
  constructor
  · intro hreturns
    obtain ⟨other, hbefore, hat, hfinal⟩ := (returns_whileLoop_step_iff start final).mp hreturns
    have hsame : other = count := by
      rcases Nat.lt_trichotomy other count with hless | heq | hmore
      · exact absurd ((hrounds other hless).symm.trans hat) (by decide)
      · exact heq
      · exact absurd ((hbefore count hmore).symm.trans hleave) (by decide)
    rw [hfinal, hsame]
  · intro hfinal
    rw [hfinal]
    exact whileLoop_step_returns hrounds hleave

/-- When the guard stays true the loop runs for ever. -/
theorem whileLoop_step_diverges {start : σ} (hrounds : ∀ k, guard (step^[k] start) = true) :
    Diverges (whileLoop guard fun s ↦ (.done (step s) : Outcome ε σ)) start := by
  intro fuel
  exact ⟨step^[fuel] start, loop_add_iterate step fuel start
    (fun k _ ↦ whileIteration_step_iterate (hrounds k)) 0⟩

end Step

end FuelLoop
