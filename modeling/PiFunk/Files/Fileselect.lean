import PiFunk.Constants
import PiFunk.Library.FileSystem

/-!
# The file the user names

`fileselect` reads the name over the bytes of its pointer parameter, which has room for three
characters, writes `"file.ft"` to where these now point, and opens that name with the truncation
flag.  The descriptor goes to a variable of the inner block, and what is returned is the global `fp`
of the same name, which nothing assigns.
-/

namespace PiFunk.Files

open FileSystem

/-- What is at the addresses of the process. -/
structure AddressSpace where
  /-- The eight bytes from here on can be read and written, and hold no variable of the program. -/
  scratch : CInt → Bool
  /-- Where the compiler has placed `"sound.wav"`. -/
  stdfile : CInt
  readOnly : scratch stdfile = false

/-- The files, and the global `fp`. -/
structure Session (ν : Type*) where
  files : Files ν
  fp : ℤ

/-- The end of a process that uses memory it may not use. -/
inductive MemoryFault where
  | segmentation
  /-- What is behind a variable is overwritten with it; C does not say what follows. -/
  | overflow
deriving DecidableEq, Repr

/-- `O_RDONLY | O_CREAT | O_TRUNC | O_NONBLOCK`. -/
def openFlags : Flags where
  access := .readOnly
  creat := true
  trunc := true
  nonblock := true

/-- `scanf ("%s", &filename)` for a name that fits: the characters and their terminator are stored
over the four bytes of the pointer, the lowest one first. -/
def overwrite (filename : CInt) (typed : CString) : CInt :=
  let byte (index : ℕ) : Byte :=
    (typed.chars ++ [0])[index]?.getD (filename.extractLsb' (8 * index) 8)
  byte 3 ++ byte 2 ++ byte 1 ++ byte 0

section Fileselect

variable {ν : Type*} [DecidableEq ν] (space : AddressSpace) (resolve : CString → ν)
  (session : Session ν) (filename : CInt) (typed : CString)

/-- `resolve` is the location of a name. -/
def fileselect : Except MemoryFault (ℤ × Session ν) :=
  if 4 ≤ typed.strlen then .error .overflow
  else
    let filename := overwrite filename typed
    -- `printf` reads there, `malloc` stores one byte of its result, and `sprintf` writes eight
    if space.scratch filename then
      -- each branch declares an `fp` of its own
      if filename ≠ space.stdfile then
        let (_fp, files) := session.files.openFile openFlags (resolve fileFt)
        .ok (session.fp, { session with files })
      else
        let (_fp, files) := session.files.openFile openFlags (resolve soundWav)
        .ok (session.fp, { session with files })
    else .error .segmentation

/-- No existing file is changed, and what is returned, and is in the global `fp`, refers to the file
that was named. -/
def OpensNamed : Prop :=
  ∃ fp after, fileselect space resolve session filename typed = .ok (fp, after) ∧
    session.files.KeepsContents after.files ∧ after.fp = fp ∧
    after.files.Refers fp (resolve typed)

/-- The name fits, and the pointer points to memory then. -/
def Writable : Prop := typed.strlen < 4 ∧ space.scratch (overwrite filename typed) = true

theorem fileselect_of_not_writable (hwritable : ¬ Writable space filename typed) :
    ∃ fault, fileselect space resolve session filename typed = .error fault := by
  by_cases hlong : 4 ≤ typed.strlen
  · exact ⟨.overflow, if_pos hlong⟩
  · have hscratch : space.scratch (overwrite filename typed) = false :=
      Bool.eq_false_iff.mpr fun htrue ↦ hwritable ⟨not_le.mp hlong, htrue⟩
    exact ⟨.segmentation, by simp [fileselect, hlong, hscratch]⟩

/-- Memory that can be written is not that of a constant, so what is opened is `"file.ft"`. -/
theorem fileselect_of_writable (hwritable : Writable space filename typed) :
    fileselect space resolve session filename typed =
      .ok (session.fp,
        { session with files := (session.files.openFile openFlags (resolve fileFt)).2 }) := by
  obtain ⟨hfits, hscratch⟩ := hwritable
  have hstdfile : overwrite filename typed ≠ space.stdfile := by
    intro heq
    rw [heq, space.readOnly] at hscratch
    cases hscratch
  simp [fileselect, not_le.mpr hfits, hscratch, hstdfile]

theorem opensNamed_iff_of_writable (hwritable : Writable space filename typed) :
    OpensNamed space resolve session filename typed ↔
      session.files.KeepsContents (session.files.openFile openFlags (resolve fileFt)).2 ∧
        (session.files.openFile openFlags (resolve fileFt)).2.Refers session.fp
          (resolve typed) := by
  simp [OpensNamed, fileselect_of_writable space resolve session filename typed hwritable]

/-- The named file is open with the right number exactly when the name is short enough, the pointer
that it becomes happens to point to memory, `"file.ft"` holds nothing that the open could truncate,
and the global `fp` refers to the named file without being assigned: either already before, or
because the name is one of `"file.ft"` and `fp` is the number that the open takes. -/
theorem fileselect_opensNamed_iff :
    OpensNamed space resolve session filename typed ↔
      typed.strlen < 4 ∧ space.scratch (overwrite filename typed) = true ∧
      ((session.files.opens openFlags (resolve fileFt)).isSome →
        ∀ bytes, session.files.contents (resolve fileFt) = some bytes → bytes = []) ∧
      (session.files.Refers session.fp (resolve typed) ∨
        ∃ number : ℕ, session.files.opens openFlags (resolve fileFt) = some number ∧
          session.fp = number ∧ resolve typed = resolve fileFt) := by
  rw [← and_assoc]
  by_cases hwritable : Writable space filename typed
  · have htrunc : openFlags.trunc = true := rfl
    rw [opensNamed_iff_of_writable space resolve session filename typed hwritable,
      Files.keepsContents_openFile_iff, Files.refers_openFile_iff, ← Writable]
    simp only [htrunc, true_implies, hwritable, true_and]
  · obtain ⟨fault, hfault⟩ :=
      fileselect_of_not_writable space resolve session filename typed hwritable
    rw [← Writable]
    simp [OpensNamed, hfault, hwritable]

end Fileselect

/-- `"a"`. -/
def aText : CString := ⟨[0x61], by decide⟩

/-- Everything but the constant can be written. -/
def roomy : AddressSpace := ⟨fun address ↦ address != 0x20000, 0x20000, by decide⟩

/-- There is a file `"a"` and one `"file.ft"`; the terminal has the first three descriptors. -/
def twoFiles : Session (Option CString) where
  files := {
    contents := fun location ↦
      if location = some aText then some [1]
      else if location = some fileFt then some [2]
      else none
    permits := fun _ _ ↦ true
    descriptors := [some none, some none, some none, none] }
  fp := 0

/-- The user names `"a"`: `"file.ft"` is emptied, and `fp` is the terminal. -/
theorem fileselect_empties_file : ¬ OpensNamed roomy some twoFiles 0x20000 aText := by
  intro hopens
  rw [opensNamed_iff_of_writable roomy some twoFiles 0x20000 aText ⟨by decide, by decide⟩] at hopens
  exact absurd (hopens.1 (some fileFt) [2] rfl) (by decide)

end PiFunk.Files
