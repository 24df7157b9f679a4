import Mathlib.Data.List.Nodup
import Mathlib.Logic.Function.Basic

/-!
# Singly linked lists

A linked list in memory is a pointer to the first node and the pointer in each node to the next
one.  Its contents are the nodes that following the pointers leads through.  Changing the pointer of
a node that is not in a list leaves the list alone; a node is taken out by changing the pointer
before it, and added at the end by changing the last pointer.
-/

namespace LinkedList

variable {α : Type*}

/-- Following the pointers from `first` leads through these nodes to `last`. -/
def Path (next : α → Option α) : Option α → List α → Option α → Prop
  | first, [], last => first = last
  | first, node :: rest, last => first = some node ∧ Path next (next node) rest last

variable {next next' : α → Option α} {first last : Option α}

@[simp]
theorem path_nil : Path next first [] last ↔ first = last := Iff.rfl

@[simp]
theorem path_cons {node : α} {rest : List α} :
    Path next first (node :: rest) last ↔ first = some node ∧ Path next (next node) rest last :=
  Iff.rfl

theorem path_append {front back : List α} :
    Path next first (front ++ back) last ↔
      ∃ middle, Path next first front middle ∧ Path next middle back last := by
  induction front generalizing first with
  | nil => simp
  | cons node front ih =>
    rw [List.cons_append, path_cons, ih]
    simp only [path_cons, and_assoc, exists_and_left]

/-- Only the pointers of the nodes on it matter to a path. -/
theorem Path.congr {nodes : List α} (hpath : Path next first nodes last)
    (hsame : ∀ node ∈ nodes, next' node = next node) : Path next' first nodes last := by
  induction nodes generalizing first with
  | nil => exact hpath
  | cons node rest ih =>
    obtain ⟨hfirst, hrest⟩ := hpath
    refine ⟨hfirst, ih ?_ fun other hmem ↦ hsame other (List.mem_cons_of_mem node hmem)⟩
    rwa [hsame node List.mem_cons_self]

theorem Path.first_eq {nodes : List α} (hpath : Path next first nodes none) :
    first = nodes.head? := by
  cases nodes with
  | nil => exact hpath
  | cons node rest => exact hpath.1

section Update

variable [DecidableEq α]

theorem Path.update_of_notMem {nodes : List α} {node : α} (hpath : Path next first nodes last)
    (hnode : node ∉ nodes) (pointer : Option α) :
    Path (Function.update next node pointer) first nodes last := by
  refine hpath.congr fun other hmem ↦ ?_
  have hne : other ≠ node := fun heq ↦ hnode (heq ▸ hmem)
  rw [Function.update_of_ne hne]

/-- A node is taken out when the pointer before it goes past it. -/
theorem Path.unlink {front back : List α} {prev node : α}
    (hpath : Path next first (front ++ prev :: node :: back) none)
    (hnodup : (front ++ prev :: node :: back).Nodup) :
    Path (Function.update next prev (next node)) first (front ++ prev :: back) none := by
  obtain ⟨middle, hfront, rfl, hprev, hback⟩ := path_append.mp hpath
  have hnot : prev ∉ front ∧ prev ∉ back := by
    rw [List.nodup_append] at hnodup
    refine ⟨fun hmem ↦ hnodup.2.2 prev hmem prev List.mem_cons_self rfl, fun hmem ↦ ?_⟩
    exact (List.nodup_cons.mp hnodup.2.1).1 (List.mem_cons_of_mem node hmem)
  refine path_append.mpr ⟨some prev, hfront.update_of_notMem hnot.1 _, rfl, ?_⟩
  rw [Function.update_self]
  exact hback.update_of_notMem hnot.2 _

/-- A node is added behind the last one. -/
theorem Path.extend {front : List α} {prev node : α}
    (hpath : Path next first (front ++ [prev]) none) (hnode : next node = none)
    (hnodup : (front ++ [prev, node]).Nodup) :
    Path (Function.update next prev (some node)) first (front ++ [prev, node]) none := by
  obtain ⟨middle, hfront, rfl, hlast⟩ := path_append.mp hpath
  have hnot : prev ∉ front ∧ node ≠ prev := by
    rw [List.nodup_append] at hnodup
    refine ⟨fun hmem ↦ hnodup.2.2 prev hmem prev List.mem_cons_self rfl, ?_⟩
    rintro rfl
    exact (List.nodup_cons.mp hnodup.2.1).1 List.mem_cons_self
  refine path_append.mpr ⟨some prev, hfront.update_of_notMem hnot.1 _, rfl, ?_⟩
  rw [Function.update_self]
  refine ⟨rfl, ?_⟩
  rw [Function.update_of_ne hnot.2, hnode]
  rfl

end Update

end LinkedList
