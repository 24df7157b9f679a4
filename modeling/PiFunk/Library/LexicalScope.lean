import Mathlib.Logic.Function.Basic
import PiFunk.Library.LastWrite

/-!
# A block inside the scope of a file

A name that is declared in a block hides the one of the same name at file scope: inside the block
every use of the name means the declaration of the block, while the functions outside keep meaning
the one of the file.  Assignments inside the block to names declared in it therefore never reach
what is read outside.
-/

namespace LexicalScope

open LastWrite

variable {ν α β : Type*}

/-- The variables of the file and those declared in the block; `none` means not declared. -/
structure Scopes (ν α : Type*) where
  file : ν → Option α
  block : ν → Option α

namespace Scopes

variable [DecidableEq ν]

/-- What a use of the name inside the block means. -/
def lookup (scopes : Scopes ν α) (name : ν) : Option α :=
  (scopes.block name).or (scopes.file name)

/-- An assignment inside the block goes to the innermost declaration of its name. -/
def assign (scopes : Scopes ν α) (name : ν) (value : α) : Scopes ν α :=
  if (scopes.block name).isSome then
    { scopes with block := Function.update scopes.block name (some value) }
  else if (scopes.file name).isSome then
    { scopes with file := Function.update scopes.file name (some value) }
  else scopes

/-- Every name is declared in the block. -/
def Shadowed (scopes : Scopes ν α) : Prop := ∀ name, (scopes.block name).isSome

theorem assign_file {scopes : Scopes ν α} (hshadowed : scopes.Shadowed) (name : ν) (value : α) :
    (scopes.assign name value).file = scopes.file := by
  rw [assign, if_pos (hshadowed name)]

theorem assign_block {scopes : Scopes ν α} (hshadowed : scopes.Shadowed) (name other : ν)
    (value : α) : (scopes.assign name value).block other =
      if other = name then some value else scopes.block other := by
  rw [assign, if_pos (hshadowed name)]
  exact Function.update_apply scopes.block name (some value) other

theorem assign_shadowed {scopes : Scopes ν α} (hshadowed : scopes.Shadowed) (name : ν) (value : α) :
    (scopes.assign name value).Shadowed := by
  intro other
  rw [assign_block hshadowed]
  split_ifs
  · rfl
  · exact hshadowed other

/-- Operations inside the block, each of which assigns to at most one name. -/
def run (write : β → Option (ν × α)) (scopes : Scopes ν α) (operations : List β) : Scopes ν α :=
  operations.foldl (fun s operation ↦
    match write operation with
    | some (name, value) => s.assign name value
    | none => s) scopes

/-- What an operation assigns to one name. -/
def written (write : β → Option (ν × α)) (name : ν) (operation : β) : Option α :=
  (write operation).bind fun assignment ↦ if name = assignment.1 then some assignment.2 else none

/-- The run lemma: operations inside the block leave the file as it is, and in the block every name
has the value assigned last. -/
theorem run_spec (write : β → Option (ν × α)) (operations : List β) {scopes : Scopes ν α}
    (hshadowed : scopes.Shadowed) :
    (scopes.run write operations).file = scopes.file ∧
      ∀ name, (scopes.run write operations).block name =
        (lastSome (written write name) operations).or (scopes.block name) := by
  induction operations generalizing scopes with
  | nil => exact ⟨rfl, fun name ↦ rfl⟩
  | cons operation rest ih =>
    cases hwrite : write operation with
    | none =>
      have hrest := ih hshadowed
      simp only [run, List.foldl_cons, hwrite, lastSome_cons, written, Option.bind_none,
        Option.or_none]
      exact hrest
    | some assignment =>
      have hrest := ih (assign_shadowed hshadowed assignment.1 assignment.2)
      simp only [run, List.foldl_cons, hwrite]
      refine ⟨hrest.1.trans (assign_file hshadowed _ _), fun name ↦ (hrest.2 name).trans ?_⟩
      rw [assign_block hshadowed, lastSome_cons, Option.or_assoc]
      simp only [written, hwrite, Option.bind_some]
      split_ifs <;> rfl

end Scopes

end LexicalScope
