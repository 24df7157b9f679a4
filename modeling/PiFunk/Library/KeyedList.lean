import Mathlib.Data.List.Nodup

/-!
# Lists with unique keys

A list whose elements have different keys holds at most one element for a key: it is found by its
key, erasing the first element with a key leaves none, and two such keys of an element stand for
each other. Leaving out one key leaves what there is of any other.
-/

namespace KeyedList

variable {α β γ : Type*} {key : α → β} {other : α → γ} {list : List α}

theorem key_eq_iff (hnodup : (list.map key).Nodup) {first second : α} (hfirst : first ∈ list)
    (hsecond : second ∈ list) : key first = key second ↔ first = second :=
  ⟨List.inj_on_of_nodup_map hnodup hfirst hsecond, congrArg key⟩

section Find

variable [DecidableEq β] [DecidableEq γ]

theorem find?_key (hnodup : (list.map key).Nodup) {element : α} (hmem : element ∈ list) :
    list.find? (fun found ↦ decide (key found = key element)) = some element := by
  have hsome : (list.find? fun found ↦ decide (key found = key element)).isSome := by
    rw [List.find?_isSome]
    exact ⟨element, hmem, by simp⟩
  obtain ⟨found, hfound⟩ := Option.isSome_iff_exists.mp hsome
  have hkey : key found = key element := by simpa using List.find?_some hfound
  rw [hfound, (key_eq_iff hnodup (List.mem_of_find?_eq_some hfound) hmem).mp hkey]

theorem mem_of_find?_key {value : β} {element : α}
    (hfound : list.find? (fun found ↦ decide (key found = value)) = some element) :
    element ∈ list ∧ key element = value :=
  ⟨List.mem_of_find?_eq_some hfound, by simpa using List.find?_some hfound⟩

theorem find?_key_eq_none_iff {value : β} :
    list.find? (fun found ↦ decide (key found = value)) = none ↔ value ∉ list.map key := by
  simp [List.find?_eq_none]

theorem eraseP_key (hnodup : (list.map key).Nodup) (value : β) :
    list.eraseP (fun element ↦ decide (key element = value)) =
      list.filter fun element ↦ decide (key element ≠ value) := by
  induction list with
  | nil => rfl
  | cons first rest ih =>
    rw [List.map_cons, List.nodup_cons] at hnodup
    by_cases hfirst : key first = value
    · have hrest : rest.filter (fun element ↦ decide (key element ≠ value)) = rest := by
        rw [List.filter_eq_self]
        intro element hmem
        have hne : key element ≠ value := by
          rintro rfl
          exact hnodup.1 (hfirst ▸ List.mem_map_of_mem hmem)
        exact decide_eq_true hne
      rw [List.eraseP_cons_of_pos (by simpa using hfirst),
        List.filter_cons_of_neg (by simpa using hfirst), hrest]
    · rw [List.eraseP_cons_of_neg (by simpa using hfirst),
        List.filter_cons_of_pos (by simpa using hfirst), ih hnodup.2]

/-- Leaving out an element by one key is leaving it out by the other. -/
theorem filter_ne_congr (hnodup : (list.map key).Nodup) (hother : (list.map other).Nodup)
    {element : α} (hmem : element ∈ list) :
    (list.filter fun found ↦ decide (key found ≠ key element)) =
      list.filter fun found ↦ decide (other found ≠ other element) := by
  refine List.filter_congr fun found hfound ↦ ?_
  rw [decide_eq_decide, not_iff_not, key_eq_iff hnodup hfound hmem, key_eq_iff hother hfound hmem]

/-- Leaving out the elements of one key leaves those of another. -/
theorem filter_key_of_ne (key : α → β) {value removed : β} (hne : removed ≠ value) :
    ((list.filter fun element ↦ decide (key element ≠ removed)).filter
      fun element ↦ decide (key element = value)) =
      list.filter fun element ↦ decide (key element = value) := by
  rw [List.filter_filter]
  refine List.filter_congr fun element _ ↦ ?_
  rw [← Bool.decide_and, decide_eq_decide, and_iff_left_iff_imp]
  rintro rfl
  exact hne.symm

end Find

end KeyedList
