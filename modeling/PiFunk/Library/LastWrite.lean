import Mathlib.Data.List.Basic
import Mathlib.Data.Option.Basic

/-!
# The last write of a sequence of operations

Many invariants of a run say that some part of the state is what the last operation that wrote it
has left there.  `lastSome write operations` is that value, where `write` gives what an operation
writes, if anything.  A part of the state that every operation either sets by `write` or keeps is
the last write at the end of any run, or its initial value when nothing wrote it.
-/

namespace LastWrite

variable {α β γ σ : Type*}

/-- What the last writing operation of a list has written. -/
def lastSome (write : α → Option β) : List α → Option β
  | [] => none
  | operation :: rest => (lastSome write rest).or (write operation)

@[simp]
theorem lastSome_nil (write : α → Option β) : lastSome write [] = none := rfl

@[simp]
theorem lastSome_cons (write : α → Option β) (operation : α) (rest : List α) :
    lastSome write (operation :: rest) = (lastSome write rest).or (write operation) := rfl

theorem lastSome_append (write : α → Option β) (first second : List α) :
    lastSome write (first ++ second) = (lastSome write second).or (lastSome write first) := by
  induction first with
  | nil => simp
  | cons operation rest ih =>
    rw [List.cons_append, lastSome_cons, ih, lastSome_cons, Option.or_assoc]

/-- Converting every written value converts the last one. -/
theorem lastSome_map (write : α → Option β) (convert : β → γ) (operations : List α) :
    lastSome (fun operation ↦ (write operation).map convert) operations =
      (lastSome write operations).map convert := by
  induction operations with
  | nil => rfl
  | cons operation rest ih => rw [lastSome_cons, ih, lastSome_cons, Option.map_or]

theorem lastSome_eq_none_iff (write : α → Option β) (operations : List α) :
    lastSome write operations = none ↔ ∀ operation ∈ operations, write operation = none := by
  induction operations with
  | nil => simp
  | cons operation rest ih => simp [ih, and_comm]

/-- A value is the last one written exactly when some operation writes it and no later one
writes. -/
theorem lastSome_eq_some_iff (write : α → Option β) (operations : List α) (value : β) :
    lastSome write operations = some value ↔
      ∃ before operation after, operations = before ++ operation :: after ∧
        write operation = some value ∧ ∀ later ∈ after, write later = none := by
  induction operations with
  | nil => simp
  | cons first rest ih =>
    rw [lastSome_cons, Option.or_eq_some_iff, ih, lastSome_eq_none_iff]
    constructor
    · rintro (⟨before, operation, after, rfl, hwrite, hafter⟩ | ⟨hnone, hfirst⟩)
      · exact ⟨first :: before, operation, after, rfl, hwrite, hafter⟩
      · exact ⟨[], first, rest, rfl, hfirst, hnone⟩
    · rintro ⟨_ | ⟨head, before⟩, operation, after, hsplit, hwrite, hafter⟩
      · obtain ⟨rfl, rfl⟩ := List.cons.inj hsplit
        exact .inr ⟨hafter, hwrite⟩
      · obtain ⟨rfl, rfl⟩ := List.cons.inj hsplit
        exact .inl ⟨before, operation, after, rfl, hwrite, hafter⟩

/-- When the writes of `fine` are among those of `coarse`, the last write of `coarse` decides the
last one of `fine`, provided that operation writes for both. -/
theorem lastSome_of_refines {fine : α → Option β} {coarse : α → Option γ} {operations : List α}
    {coarseValue : γ} {fineValue : β} (hnone : ∀ operation, coarse operation = none →
      fine operation = none)
    (hsome : ∀ operation, coarse operation = some coarseValue → fine operation = some fineValue)
    (hlast : lastSome coarse operations = some coarseValue) :
    lastSome fine operations = some fineValue := by
  obtain ⟨before, operation, after, hsplit, hwrite, hafter⟩ :=
    (lastSome_eq_some_iff coarse operations coarseValue).mp hlast
  exact (lastSome_eq_some_iff fine operations fineValue).mpr
    ⟨before, operation, after, hsplit, hsome operation hwrite,
      fun later hlater ↦ hnone later (hafter later hlater)⟩

/-- The run lemma: what every step either sets or keeps holds the last write at the end. -/
theorem foldl_read (step : σ → α → σ) (read : σ → β) (write : α → Option β)
    (hstep : ∀ state operation, read (step state operation) = (write operation).getD (read state))
    (operations : List α) (start : σ) :
    read (operations.foldl step start) = (lastSome write operations).getD (read start) := by
  induction operations generalizing start with
  | nil => rfl
  | cons operation rest ih =>
    calc
      read ((operation :: rest).foldl step start) =
          (lastSome write rest).getD (read (step start operation)) := ih _
      _ = (lastSome write rest).getD ((write operation).getD (read start)) := by rw [hstep]
      _ = (lastSome write (operation :: rest)).getD (read start) := by
        rw [lastSome_cons, Option.getD_or]

end LastWrite
