import Mathlib.Algebra.Order.Ring.Nat
import Mathlib.Data.List.Chain
import Mathlib.Data.List.GetD
import Mathlib.Data.Nat.ModEq

/-!
# Piecewise constant waveforms

A signal that is held at one level after another is a list of phases, each a level with the
duration it is held for.  Phases of no duration cannot be observed, and adjacent phases of equal
level cannot be told apart from one longer phase: `merge` removes both, and a `Waveform` carries
the proof that neither is left.

`levelAt` reads the signal as a function of time.  When all durations are multiples of a period,
`sample` lists the level of each period; sampling does not see the difference that merging makes,
and `levelAt` at a multiple of the period is the corresponding sample.
-/

namespace Waveforms

variable {α : Type*}

/-- The level at time `t` of a signal that keeps the level `after` when its phases are over. -/
def levelAt : List (α × ℕ) → α → ℕ → α
  | [], after, _ => after
  | phase :: rest, after, t => if t < phase.2 then phase.1 else levelAt rest after (t - phase.2)

/-- One level for each whole period of each phase. -/
def sample (period : ℕ) (phases : List (α × ℕ)) : List α :=
  phases.flatMap fun phase ↦ List.replicate (phase.2 / period) phase.1

@[simp]
theorem sample_nil (period : ℕ) : sample period ([] : List (α × ℕ)) = [] := rfl

@[simp]
theorem sample_cons (period : ℕ) (phase : α × ℕ) (phases : List (α × ℕ)) :
    sample period (phase :: phases) =
      List.replicate (phase.2 / period) phase.1 ++ sample period phases := by
  simp [sample]

@[simp]
theorem sample_append (period : ℕ) (first second : List (α × ℕ)) :
    sample period (first ++ second) = sample period first ++ sample period second := by
  simp [sample]

/-- At a multiple of the period the signal has the level of the sample, and the final level from
the end of the samples on. -/
theorem levelAt_mul_period {period : ℕ} (hperiod : 0 < period) (after : α)
    (phases : List (α × ℕ)) (hdvd : ∀ phase ∈ phases, period ∣ phase.2) (index : ℕ) :
    levelAt phases after (index * period) = (sample period phases).getD index after := by
  induction phases generalizing index with
  | nil => simp [levelAt]
  | cons phase phases ih =>
    obtain ⟨count, hcount⟩ : period ∣ phase.2 := hdvd phase List.mem_cons_self
    have hrest := ih fun p hp ↦ hdvd p (List.mem_cons_of_mem phase hp)
    have hdiv : phase.2 / period = count := by
      rw [hcount, Nat.mul_div_cancel_left count hperiod]
    rw [levelAt, sample_cons, hdiv, hcount, Nat.mul_comm period count]
    by_cases hindex : index < count
    · rw [if_pos (Nat.mul_lt_mul_of_pos_right hindex hperiod),
        List.getD_append _ _ _ _ (by simpa using hindex)]
      simp [List.getD_eq_getElem?_getD, hindex]
    · rw [if_neg (by simpa [hperiod] using hindex), ← Nat.sub_mul, hrest,
        List.getD_append_right _ _ _ _ (by simpa using hindex)]
      simp

/-- The first `count` samples of the signal as a function of time, for a count that reaches the
end of the phases. -/
theorem levelAt_samples {period : ℕ} (hperiod : 0 < period) (after : α)
    (phases : List (α × ℕ)) (hdvd : ∀ phase ∈ phases, period ∣ phase.2) {count : ℕ}
    (hcount : (sample period phases).length ≤ count) :
    (List.range count).map (fun index ↦ levelAt phases after (index * period)) =
      sample period phases ++ List.replicate (count - (sample period phases).length) after := by
  apply List.ext_getElem
  · simp only [List.length_map, List.length_range, List.length_append, List.length_replicate]
    omega
  · intro index hleft hright
    rw [List.getElem_map, List.getElem_range, levelAt_mul_period hperiod after phases hdvd]
    rcases Nat.lt_or_ge index (sample period phases).length with hindex | hindex
    · rw [List.getElem_append_left hindex, List.getD_eq_getElem _ _ hindex]
    · rw [List.getElem_append_right hindex, List.getD_eq_default _ _ hindex,
        List.getElem_replicate]

/-! ## Merging -/

section Merge

variable [DecidableEq α]

/-- Put one phase before phases that are merged already. -/
def push (phase : α × ℕ) (phases : List (α × ℕ)) : List (α × ℕ) :=
  if phase.2 = 0 then phases
  else match phases with
    | [] => [phase]
    | next :: rest =>
      if phase.1 = next.1 then (next.1, phase.2 + next.2) :: rest else phase :: next :: rest

/-- Phases with a positive duration each, no two adjacent ones of equal level. -/
structure Waveform (α : Type*) where
  phases : List (α × ℕ)
  positive : ∀ phase ∈ phases, 0 < phase.2
  alternating : phases.IsChain fun first second ↦ first.1 ≠ second.1

/-- Pushing keeps the durations positive. -/
theorem push_positive (phase : α × ℕ) {phases : List (α × ℕ)}
    (hpositive : ∀ p ∈ phases, 0 < p.2) : ∀ p ∈ push phase phases, 0 < p.2 := by
  unfold push
  split
  · exact hpositive
  · rename_i hphase
    have hphase : 0 < phase.2 := Nat.pos_of_ne_zero hphase
    cases phases with
    | nil => simpa using hphase
    | cons next rest =>
      have hnext := hpositive next List.mem_cons_self
      have hrest := fun p hp ↦ hpositive p (List.mem_cons_of_mem next hp)
      dsimp only
      split
      · intro p hp
        rcases List.mem_cons.mp hp with rfl | hp
        · exact Nat.add_pos_left hphase _
        · exact hrest p hp
      · intro p hp
        rcases List.mem_cons.mp hp with rfl | hp
        · exact hphase
        · exact hpositive p hp

theorem push_alternating (phase : α × ℕ) {phases : List (α × ℕ)}
    (halternating : phases.IsChain fun first second ↦ first.1 ≠ second.1) :
    (push phase phases).IsChain fun first second ↦ first.1 ≠ second.1 := by
  unfold push
  split
  · exact halternating
  · cases phases with
    | nil => exact List.isChain_singleton phase
    | cons next rest =>
      dsimp only
      split
      · cases rest with
        | nil => exact List.isChain_singleton _
        | cons second rest =>
          rw [List.isChain_cons_cons] at halternating ⊢
          exact halternating
      · rename_i hlevel
        exact List.isChain_cons_cons.mpr ⟨hlevel, halternating⟩

/-- The waveform of a signal: its phases with everything merged that cannot be told apart. -/
def merge : List (α × ℕ) → Waveform α
  | [] => ⟨[], by simp, List.isChain_nil⟩
  | phase :: rest =>
    let merged := merge rest
    ⟨push phase merged.phases, push_positive phase merged.positive,
      push_alternating phase merged.alternating⟩

theorem sample_push (period : ℕ) (phase : α × ℕ) (phases : List (α × ℕ))
    (hdvd : period ∣ phase.2) :
    sample period (push phase phases) =
      List.replicate (phase.2 / period) phase.1 ++ sample period phases := by
  unfold push
  split
  · rename_i hzero
    simp [hzero]
  · cases phases with
    | nil => simp
    | cons next rest =>
      dsimp only
      split
      · rename_i hlevel
        rw [sample_cons, sample_cons, Nat.add_div_of_dvd_right hdvd, List.replicate_add, hlevel,
          List.append_assoc]
      · rw [sample_cons]

theorem sample_merge (period : ℕ) (phases : List (α × ℕ))
    (hdvd : ∀ phase ∈ phases, period ∣ phase.2) :
    sample period (merge phases).phases = sample period phases := by
  induction phases with
  | nil => rfl
  | cons phase phases ih =>
    have hrest := ih fun p hp ↦ hdvd p (List.mem_cons_of_mem phase hp)
    calc
      sample period (merge (phase :: phases)).phases =
          List.replicate (phase.2 / period) phase.1 ++ sample period (merge phases).phases :=
        sample_push period phase _ (hdvd phase List.mem_cons_self)
      _ = sample period (phase :: phases) := by rw [hrest, sample_cons]

end Merge

end Waveforms
