import PiFunk.CTypes
import PiFunk.Library.Stdio

/-!
# The copy of the tone list

`csvreader` copies `ctsspmr.csv` to `ctsswriter.csv` one character after another.  It tests for the
end of the file before it reads, so the value of the read that finds the end is copied too: `EOF`
becomes the byte `0xFF`.

The two names are taken to be those of two files.
-/

namespace PiFunk.Files

open FuelLoop Stdio

/-- The two files, and the global `char c`. -/
structure Csv where
  /-- The bytes of `ctsspmr.csv`, if it exists. -/
  ctsspmr : Option (List Byte)
  ctsswriter : Option (List Byte)
  /-- `ctsswriter.csv` can be opened for writing. -/
  writable : Bool
  c : Byte
deriving DecidableEq

inductive CsvFault where
  | nullStream
deriving DecidableEq, Repr

/-- The value of a `char`, which is a signed type on some targets. -/
def charValue (signed : Bool) (character : Byte) : ℤ :=
  if signed then character.toInt else character.toNat

/-- What has been written to `wfp`, and `c`. -/
abbrev Copied := List Byte × Byte

/-- `c = fgetc (rfp); fputc (c, wfp);` behind the read. -/
def copyCharacter (signed : Bool) (result : ℤ) (copied : Copied) : Copied :=
  let c := BitVec.ofInt 8 result
  (fputc (charValue signed c) copied.1, c)

/-- `while (!feof (rfp))`. -/
def copyLoop (signed : Bool) : Program CsvFault (InputStream × Copied) :=
  whileLoop (fun streams ↦ !feof streams.1)
    fun streams ↦ .done (readStep (copyCharacter signed) streams)

/-- `fopen ("ctsswriter.csv", "w+")` empties the file. -/
def Csv.truncated (csv : Csv) : Csv :=
  if csv.writable then { csv with ctsswriter := some [] } else csv

/-- What the streams have left when they are closed; the result is `c`. -/
def Csv.closed (csv : Csv) (streams : InputStream × Copied) : Csv :=
  { csv with ctsswriter := some streams.2.1, c := streams.2.2 }

def csvreader (signed : Bool) : Program CsvFault Csv := fun fuel csv ↦
  match csv.ctsspmr, csv.writable with
  -- `feof` is the first to be handed a null pointer
  | none, _ => .halted .nullStream csv.truncated
  -- here it is the first `fputc`
  | some bytes, false =>
    .halted .nullStream { csv with c := BitVec.ofInt 8 (fgetc (.ofBytes bytes)).1 }
  | some bytes, true =>
    (copyLoop signed fuel (.ofBytes bytes, ([], csv.c))).map id csv.truncated.closed

/-! ## The copied bytes -/

theorem ofInt_charValue (signed : Bool) (character : Byte) :
    BitVec.ofInt 8 (charValue signed character) = character := by
  cases signed with
  | false => simp [charValue]
  | true => simp [charValue]

theorem copyCharacter_eq (signed : Bool) (result : ℤ) (copied : Copied) :
    copyCharacter signed result copied =
      (copied.1 ++ [BitVec.ofInt 8 result], BitVec.ofInt 8 result) := by
  rw [copyCharacter, fputc, ofInt_charValue]

theorem actAll_copyCharacter (signed : Bool) (bytes : List Byte) (copied : Copied) :
    (actAll (copyCharacter signed) bytes copied).1 = copied.1 ++ bytes := by
  induction bytes generalizing copied with
  | nil => simp [actAll]
  | cons byte rest ih =>
    have hrest := ih (copyCharacter signed byte.toNat copied)
    rw [copyCharacter_eq] at hrest
    simpa [actAll, copyCharacter_eq] using hrest

/-- Both files can be opened, and the first one has these bytes. -/
def Csv.opening (csv : Csv) (bytes : List Byte) : Csv :=
  { csv with ctsspmr := some bytes, writable := true }

/-- The copy has one byte more than the file. -/
theorem csvreader_returns_iff (signed : Bool) (csv : Csv) (bytes : List Byte) (final : Csv) :
    Returns (csvreader signed) (csv.opening bytes) final ↔
      final = { csv.opening bytes with ctsswriter := some (bytes ++ [0xFF]), c := 0xFF } := by
  have hloop (streams : InputStream × Copied) :
      Returns (copyLoop signed) (.ofBytes bytes, ([], csv.c)) streams ↔
        streams = (⟨[], true⟩, (bytes ++ [0xFF], 0xFF)) := by
    rw [copyLoop, returns_readLoop_iff, copyCharacter_eq, actAll_copyCharacter, List.nil_append]
    rfl
  calc
    Returns (csvreader signed) (csv.opening bytes) final ↔
        ∃ streams, Returns (copyLoop signed) (.ofBytes bytes, ([], csv.c)) streams ∧
          (csv.opening bytes).truncated.closed streams = final := by
      simp only [Returns, csvreader, Csv.opening, Outcome.map_eq_done_iff]
      constructor
      · rintro ⟨fuel, streams, hdone, hfinal⟩
        exact ⟨streams, ⟨fuel, hdone⟩, hfinal⟩
      · rintro ⟨streams, ⟨fuel, hdone⟩, hfinal⟩
        exact ⟨fuel, streams, hdone, hfinal⟩
    _ ↔ _ := by
      simp only [hloop, exists_eq_left]
      exact eq_comm

def CopiesExactly (signed : Bool) (csv : Csv) (bytes : List Byte) : Prop :=
  ∃ final, Returns (csvreader signed) (csv.opening bytes) final ∧ final.ctsswriter = some bytes

/-- It returns for every file, but never with the same sequence of bytes. -/
theorem csvreader_never_copies_exactly (signed : Bool) (csv : Csv) (bytes : List Byte) :
    ¬ CopiesExactly signed csv bytes := by
  intro hcopies
  obtain ⟨final, hreturns, hsame⟩ := hcopies
  have hfinal := (csvreader_returns_iff signed csv bytes final).mp hreturns
  rw [hfinal] at hsame
  simp at hsame

/-- The copy of an empty file is the byte `0xFF`. -/
theorem csvreader_fills_empty_file : ¬ CopiesExactly false ⟨some [], none, true, 0⟩ [] := by
  intro hcopies
  obtain ⟨final, hreturns, hsame⟩ := hcopies
  rw [csvreader_returns_iff] at hreturns
  rw [hreturns] at hsame
  exact absurd hsame (by decide)

end PiFunk.Files
