import Mathlib.Data.Int.Notation
import Mathlib.Data.Nat.Notation
import Mathlib.Logic.Function.Basic
import Mathlib.Tactic.SplitIfs

/-!
# Files and the descriptors of a process

Locations are what names resolve to.  A location may hold a regular file, and the process has a
table of descriptors, each of which is free or refers to a location.  Opening a location takes the
lowest free descriptor; with the creation flag it may make a new file, and with the truncation flag
it empties one that exists.
-/

namespace FileSystem

variable {ν : Type*}

inductive Access where
  | readOnly
  | writeOnly
  | readWrite
deriving DecidableEq, Repr

structure Flags where
  access : Access
  creat : Bool
  trunc : Bool
  nonblock : Bool
deriving DecidableEq, Repr

/-- The files, what may be done to them, and the descriptors of the process. -/
structure Files (ν : Type*) where
  contents : ν → Option (List (BitVec 8))
  /-- Whether the permissions of a location, or of its directory, allow an open. -/
  permits : Flags → ν → Bool
  descriptors : List (Option ν)

namespace Files

/-- The lowest free descriptor, unless the table is full. -/
def lowest (files : Files ν) : Option ℕ := files.descriptors.findIdx? Option.isNone

/-- The descriptor an open takes, if it succeeds. -/
def opens (files : Files ν) (flags : Flags) (location : ν) : Option ℕ :=
  if files.permits flags location && (flags.creat || (files.contents location).isSome) then
    files.lowest
  else none

/-- The descriptor refers to the location. -/
def Refers (files : Files ν) (descriptor : ℤ) (location : ν) : Prop :=
  ∃ number : ℕ, descriptor = number ∧ files.descriptors[number]? = some (some location)

/-- Every file that existed before has its contents still. -/
def KeepsContents (before after : Files ν) : Prop :=
  ∀ location bytes, before.contents location = some bytes → after.contents location = some bytes

/-- The lowest free descriptor refers to nothing. -/
theorem getElem?_of_lowest {files : Files ν} {number : ℕ} (hlowest : files.lowest = some number) :
    files.descriptors[number]? = some none := by
  obtain ⟨hnumber, hnone, -⟩ := List.findIdx?_eq_some_iff_getElem.mp hlowest
  rw [List.getElem?_eq_getElem hnumber, Option.isNone_iff_eq_none.mp hnone]

theorem getElem?_of_opens {files : Files ν} {flags : Flags} {location : ν} {number : ℕ}
    (hopens : files.opens flags location = some number) :
    files.descriptors[number]? = some none := by
  unfold opens at hopens
  split_ifs at hopens
  exact getElem?_of_lowest hopens

variable [DecidableEq ν]

/-- The value of an open, and the files after it. -/
def openFile (files : Files ν) (flags : Flags) (location : ν) : ℤ × Files ν :=
  match files.opens flags location with
  | none => (-1, files)
  | some number =>
    (number, { files with
      contents := Function.update files.contents location
        (some (if flags.trunc then [] else (files.contents location).getD []))
      descriptors := files.descriptors.set number (some location) })

section OpenFile

variable {files : Files ν} {flags : Flags} {location : ν}

theorem openFile_of_none (hopens : files.opens flags location = none) :
    files.openFile flags location = (-1, files) := by
  rw [openFile, hopens]

theorem openFile_contents {number : ℕ} (hopens : files.opens flags location = some number) :
    (files.openFile flags location).2.contents = Function.update files.contents location
      (some (if flags.trunc then [] else (files.contents location).getD [])) := by
  rw [openFile, hopens]

theorem openFile_descriptors {number : ℕ} (hopens : files.opens flags location = some number) :
    (files.openFile flags location).2.descriptors =
      files.descriptors.set number (some location) := by
  rw [openFile, hopens]

/-- Opening keeps all contents unless it truncates a file that is not empty. -/
theorem keepsContents_openFile_iff :
    files.KeepsContents (files.openFile flags location).2 ↔
      (files.opens flags location).isSome → flags.trunc →
        ∀ bytes, files.contents location = some bytes → bytes = [] := by
  cases hopens : files.opens flags location with
  | none =>
    rw [openFile_of_none hopens]
    simp [KeepsContents]
  | some number =>
    unfold KeepsContents
    rw [openFile_contents hopens]
    constructor
    · intro hkeeps _ htrunc bytes hbytes
      have hafter := hkeeps location bytes hbytes
      rw [Function.update_self, if_pos htrunc] at hafter
      exact (Option.some.inj hafter).symm
    · intro hempty other bytes hbytes
      by_cases hother : other = location
      · subst hother
        rw [Function.update_self, hbytes]
        split_ifs with htrunc
        · rw [hempty rfl htrunc bytes hbytes]
        · rfl
      · rw [Function.update_of_ne hother, hbytes]

/-- After an open a descriptor refers to what it did before, or it is the new one. -/
theorem refers_openFile_iff (descriptor : ℤ) (other : ν) :
    (files.openFile flags location).2.Refers descriptor other ↔
      files.Refers descriptor other ∨
        ∃ number : ℕ, files.opens flags location = some number ∧ descriptor = number ∧
          other = location := by
  cases hopens : files.opens flags location with
  | none =>
    rw [openFile_of_none hopens]
    simp
  | some number =>
    have hfree := getElem?_of_opens hopens
    have hlength : number < files.descriptors.length := by
      obtain ⟨hlength, -⟩ := List.getElem?_eq_some_iff.mp hfree
      exact hlength
    have hentry (index : ℕ) :
        (files.descriptors.set number (some location))[index]? = some (some other) ↔
          files.descriptors[index]? = some (some other) ∨ index = number ∧ other = location := by
      rw [List.getElem?_set]
      by_cases hindex : number = index
      · subst hindex
        rw [if_pos rfl, if_pos hlength, hfree]
        simp [eq_comm]
      · simp [hindex, Ne.symm hindex]
    unfold Refers
    rw [openFile_descriptors hopens]
    simp only [hentry, Option.some.injEq, exists_eq_left']
    constructor
    · rintro ⟨index, hdescriptor, hbefore | hnew⟩
      · exact .inl ⟨index, hdescriptor, hbefore⟩
      · exact .inr ⟨hnew.1 ▸ hdescriptor, hnew.2⟩
    · rintro (⟨index, hdescriptor, hbefore⟩ | hnew)
      · exact ⟨index, hdescriptor, .inl hbefore⟩
      · exact ⟨number, hnew.1, .inr ⟨rfl, hnew.2⟩⟩

end OpenFile

end Files

end FileSystem
