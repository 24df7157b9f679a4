import Mathlib.Data.List.Chain
import Mathlib.Order.Lattice
import Mathlib.Order.Monotone.Basic

/-!
# Debouncing

Every time reaches up to some later time.  Out of a sequence of times the selection takes the first
one and then each one that the last time taken does not reach.  The times selected do not reach one
another, each of the others is reached by one of them, and no choice of times that do not reach one
another is longer.
-/

namespace Debounce

variable {α : Type*} [LinearOrder α] {reach : α → α}

/-- The last time taken, if there is one, does not reach this time. -/
def Beyond (reach : α → α) (last : Option α) (time : α) : Prop := ∀ other ∈ last, reach other < time

instance (reach : α → α) (last : Option α) (time : α) : Decidable (Beyond reach last time) :=
  inferInstanceAs (Decidable (∀ other ∈ last, reach other < time))

/-- The times taken, after the last one. -/
def select (reach : α → α) : Option α → List α → List α
  | _, [] => []
  | last, time :: rest =>
    if Beyond reach last time then time :: select reach (some time) rest
    else select reach last rest

/-- No time in the list reaches the next one. -/
def Spaced (reach : α → α) (times : List α) : Prop :=
  times.IsChain fun first second ↦ reach first < second

@[simp]
theorem beyond_none (time : α) : Beyond reach none time := by
  intro other hmem
  exact absurd hmem (Option.not_mem_none other)

@[simp]
theorem beyond_some {last time : α} : Beyond reach (some last) time ↔ reach last < time := by
  simp [Beyond]

theorem select_cons_of_beyond {last : Option α} {time : α} (rest : List α)
    (hbeyond : Beyond reach last time) :
    select reach last (time :: rest) = time :: select reach (some time) rest :=
  if_pos hbeyond

theorem select_cons_of_not_beyond {last : Option α} {time : α} (rest : List α)
    (hreached : ¬Beyond reach last time) :
    select reach last (time :: rest) = select reach last rest :=
  if_neg hreached

/-- The times selected are some of the times, in their order. -/
theorem select_sublist (last : Option α) (times : List α) :
    (select reach last times).Sublist times := by
  induction times generalizing last with
  | nil => exact List.Sublist.slnil
  | cons time rest ih =>
    by_cases hbeyond : Beyond reach last time
    · rw [select_cons_of_beyond rest hbeyond]
      exact (ih (some time)).cons_cons time
    · rw [select_cons_of_not_beyond rest hbeyond]
      exact (ih last).cons time

/-- The first time selected is not reached by the last one before. -/
theorem beyond_head_select (last : Option α) (times : List α) :
    ∀ time ∈ (select reach last times).head?, Beyond reach last time := by
  induction times with
  | nil => simp [select]
  | cons first rest ih =>
    by_cases hbeyond : Beyond reach last first
    · rw [select_cons_of_beyond rest hbeyond]
      simpa using hbeyond
    · rw [select_cons_of_not_beyond rest hbeyond]
      exact ih

/-- The times selected do not reach one another. -/
theorem spaced_select (last : Option α) (times : List α) :
    Spaced reach (select reach last times) := by
  induction times generalizing last with
  | nil => exact List.isChain_nil
  | cons time rest ih =>
    by_cases hbeyond : Beyond reach last time
    · rw [select_cons_of_beyond rest hbeyond]
      refine List.isChain_cons.mpr ⟨fun next hnext ↦ ?_, ih (some time)⟩
      exact beyond_some.mp (beyond_head_select (some time) rest next hnext)
    · rw [select_cons_of_not_beyond rest hbeyond]
      exact ih last

section Sorted

variable {times : List α}

/-- Each time is selected, or reached by one that was selected before. -/
theorem covered (last : Option α) (hsorted : times.Pairwise (· ≤ ·)) :
    ∀ time ∈ times, time ∈ select reach last times ∨
      ∃ taken, (taken ∈ last ∨ taken ∈ select reach last times ∧ taken ≤ time) ∧
        time ≤ reach taken := by
  induction times generalizing last with
  | nil => simp
  | cons first rest ih =>
    obtain ⟨hfirst, hrest⟩ := List.pairwise_cons.mp hsorted
    intro time hmem
    by_cases hbeyond : Beyond reach last first
    · rw [select_cons_of_beyond rest hbeyond]
      rcases List.mem_cons.mp hmem with rfl | hlater
      · exact .inl List.mem_cons_self
      · rcases ih (some first) hrest time hlater with hselected | ⟨taken, htaken, hreach⟩
        · exact .inl (List.mem_cons_of_mem first hselected)
        · refine .inr ⟨taken, .inr ?_, hreach⟩
          rcases htaken with hlast | ⟨hselected, hle⟩
          · obtain rfl := Option.mem_some_iff.mp hlast
            exact ⟨List.mem_cons_self, hfirst time hlater⟩
          · exact ⟨List.mem_cons_of_mem first hselected, hle⟩
    · rw [select_cons_of_not_beyond rest hbeyond]
      rcases List.mem_cons.mp hmem with rfl | hlater
      · unfold Beyond at hbeyond
        push Not at hbeyond
        obtain ⟨taken, hlast, hreach⟩ := hbeyond
        exact .inr ⟨taken, .inl hlast, hreach⟩
      · exact ih last hrest time hlater

/-- No other choice of times that do not reach one another is longer. -/
theorem length_le_select (hmono : Monotone reach) (last : Option α) {chosen : List α}
    (hsorted : times.Pairwise (· ≤ ·)) (hchosen : chosen.Sublist times)
    (hspaced : Spaced reach chosen) (hlast : ∀ time ∈ chosen.head?, Beyond reach last time) :
    chosen.length ≤ (select reach last times).length := by
  induction times generalizing last chosen with
  | nil => rw [List.sublist_nil.mp hchosen, select]
  | cons first rest ih =>
    obtain ⟨hfirst, hrest⟩ := List.pairwise_cons.mp hsorted
    by_cases hbeyond : Beyond reach last first
    · rw [select_cons_of_beyond rest hbeyond]
      cases chosen with
      | nil => exact Nat.zero_le _
      | cons time later =>
        -- the choice can take the first time instead of its own first one
        obtain ⟨hnext, hlater⟩ := List.isChain_cons.mp hspaced
        have hle : first ≤ time := by
          rcases List.mem_cons.mp (hchosen.subset List.mem_cons_self) with heq | hmem
          · exact heq.ge
          · exact hfirst time hmem
        have hsub : later.Sublist rest := hchosen.tail
        apply Nat.succ_le_succ
        apply ih (some first) hrest hsub hlater
        intro next hmem
        exact beyond_some.mpr ((hmono hle).trans_lt (hnext next hmem))
    · rw [select_cons_of_not_beyond rest hbeyond]
      have hsub : chosen.Sublist rest := by
        cases hchosen with
        | cons _ hsub => exact hsub
        | cons_cons _ hsub => exact absurd (hlast first rfl) hbeyond
      exact ih last hrest hsub hspaced hlast

/-- A choice of times that do not reach one another, where each other time is reached by an earlier
one and which is as long as such a choice can be. -/
structure Debounced (reach : α → α) (times chosen : List α) : Prop where
  sublist : chosen.Sublist times
  spaced : Spaced reach chosen
  covered : ∀ time ∈ times, time ∈ chosen ∨ ∃ taken ∈ chosen, taken ≤ time ∧ time ≤ reach taken
  longest : ∀ other : List α, other.Sublist times → Spaced reach other →
    other.length ≤ chosen.length

theorem debounced_select (hmono : Monotone reach) (hsorted : times.Pairwise (· ≤ ·)) :
    Debounced reach times (select reach none times) where
  sublist := select_sublist none times
  spaced := spaced_select none times
  covered := by
    intro time hmem
    apply (covered none hsorted time hmem).imp_right
    rintro ⟨taken, hlast | ⟨hselected, hle⟩, hreach⟩
    · exact absurd hlast (Option.not_mem_none taken)
    · exact ⟨taken, hselected, hle, hreach⟩
  longest := by
    intro other hsub hspaced
    apply length_le_select hmono none hsorted hsub hspaced
    intro time hmem
    exact beyond_none time

end Sorted

end Debounce
