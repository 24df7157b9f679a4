import Mathlib.Data.Int.Notation
import PiFunk.Library.Loop

/-!
# Character streams of the C library

A stream that is open for reading has the bytes that are left and an end-of-file flag, which only a
read beyond the last byte sets.  A loop that tests the flag before each read therefore makes one
read more than there are bytes, and hands on the value of that read too.
-/

namespace Stdio

open FuelLoop

structure InputStream where
  remaining : List (BitVec 8)
  eof : Bool
deriving DecidableEq, Repr

/-- The value of a read beyond the end. -/
def EOF : ℤ := -1

/-- A stream at the start of a file with these bytes. -/
def InputStream.ofBytes (bytes : List (BitVec 8)) : InputStream := ⟨bytes, false⟩

def feof (stream : InputStream) : Bool := stream.eof

/-- The next byte as an unsigned number; a read at the end sets the flag. -/
def fgetc (stream : InputStream) : ℤ × InputStream :=
  match stream.eof, stream.remaining with
  | false, byte :: rest => (byte.toNat, ⟨rest, false⟩)
  | _, _ => (EOF, { stream with eof := true })

/-- The bytes written after the character converted to an unsigned one. -/
def fputc (character : ℤ) (written : List (BitVec 8)) : List (BitVec 8) :=
  written ++ [BitVec.ofInt 8 character]

/-! ## Reading until the flag is set -/

section ReadLoop

variable {ε σ : Type*} (act : ℤ → σ → σ)

/-- One read, and what is done with its value. -/
def readStep (state : InputStream × σ) : InputStream × σ :=
  ((fgetc state.1).2, act (fgetc state.1).1 state.2)

/-- What is done with the bytes of a file. -/
def actAll (bytes : List (BitVec 8)) (state : σ) : σ :=
  bytes.foldl (fun s byte ↦ act byte.toNat s) state

/-- As long as there are bytes the flag is not set. -/
theorem readStep_iterate (bytes : List (BitVec 8)) (state : σ) {count : ℕ}
    (hcount : count ≤ bytes.length) :
    (readStep act)^[count] (.ofBytes bytes, state) =
      (.ofBytes (bytes.drop count), actAll act (bytes.take count) state) := by
  induction count with
  | zero => rfl
  | succ count ih =>
    rw [Function.iterate_succ_apply', ih (Nat.le_of_succ_le hcount),
      List.drop_eq_getElem_cons hcount, List.take_succ_eq_append_getElem hcount, actAll, actAll,
      List.foldl_append]
    rfl

/-- The read behind the last byte sets it. -/
theorem readStep_iterate_length (bytes : List (BitVec 8)) (state : σ) :
    (readStep act)^[bytes.length + 1] (.ofBytes bytes, state) =
      (⟨[], true⟩, act EOF (actAll act bytes state)) := by
  have hlength := Nat.le_refl bytes.length
  rw [Function.iterate_succ_apply', readStep_iterate act bytes state hlength, List.drop_length,
    List.take_length]
  rfl

/-- A loop that tests the flag before it reads has acted on every byte when it returns, and then on
the value of the read behind them. -/
theorem returns_readLoop_iff (bytes : List (BitVec 8)) (state : σ) (final : InputStream × σ) :
    Returns (whileLoop (fun s ↦ !feof s.1) fun s ↦
        (.done (readStep act s) : Outcome ε (InputStream × σ))) (.ofBytes bytes, state) final ↔
      final = (⟨[], true⟩, act EOF (actAll act bytes state)) := by
  have hrounds (k : ℕ) (hk : k < bytes.length + 1) :
      (!feof ((readStep act)^[k] (.ofBytes bytes, state)).1) = true := by
    rw [readStep_iterate act bytes state (Nat.le_of_lt_succ hk)]
    rfl
  have hleave : (!feof ((readStep act)^[bytes.length + 1] (.ofBytes bytes, state)).1) = false := by
    rw [readStep_iterate_length]
    rfl
  rw [returns_whileLoop_step_iff_eq hrounds hleave, readStep_iterate_length]

end ReadLoop

end Stdio
