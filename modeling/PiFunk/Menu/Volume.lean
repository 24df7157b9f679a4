import Mathlib.Algebra.Order.Ring.Rat
import PiFunk.Menu.Assistant

/-!
# The volume of the sample buffer

`volumeselect` is written as a loop over the elements of `volbuffer`, but its body ends in a
`return`, so the increment is never reached and one element is scaled.  The `return` behind the loop
would read the element behind the buffer.

Printing reads the element that has just been scaled once more.
-/

namespace PiFunk.Menu.Volume

open FuelLoop

/-- A call of `volumeselect` on its way: the globals, the elements that have been multiplied and
those that have been read, and the value that is returned. -/
structure Call where
  globals : Globals
  multiplied : List ℕ
  read : List ℕ
  result : Option ℚ

/-- `volbuffer [n] *= volumeMultiplier`, which is then printed. -/
def scale (call : Call) : Call :=
  let n := call.globals.n
  { call with
    globals := { call.globals with
      volbuffer := Function.update call.globals.volbuffer n
        (call.globals.volbuffer n * call.globals.volumeMultiplier) }
    multiplied := call.multiplied ++ [n]
    read := call.read ++ [n, n] }

/-- `return volbuffer [n]`. -/
def leave (call : Call) : Call :=
  { call with
    read := call.read ++ [call.globals.n]
    result := some (call.globals.volbuffer call.globals.n) }

/-- One round of the loop, and the statement behind it. -/
def round (call : Call) : Iteration Empty Call :=
  if call.globals.n < SAMPLES_PER_BUFFER then .exit (leave (scale call)) else .exit (leave call)

/-- The call with `n = 0` done. -/
def enter (globals : Globals) : Call := ⟨{ globals with n := 0 }, [], [], none⟩

def volumeselect : FuelLoop.Program Empty Call := loop round

/-- Every element is multiplied once, nothing else but the counter is changed, and no element
behind the buffer is read. -/
structure ScalesBuffer (before : Globals) (after : Call) : Prop where
  scaled : ∀ index < SAMPLES_PER_BUFFER,
    after.globals.volbuffer index = before.volbuffer index * before.volumeMultiplier
  once : ∀ index < SAMPLES_PER_BUFFER, after.multiplied.count index = 1
  others : after.globals = { before with
    n := after.globals.n, volbuffer := after.globals.volbuffer }
  outside : ∀ index, SAMPLES_PER_BUFFER ≤ index →
    after.globals.volbuffer index = before.volbuffer index
  read : ∀ index ∈ after.read, index < SAMPLES_PER_BUFFER

/-- The call returns after its first round. -/
theorem returns_volumeselect_iff (globals : Globals) (after : Call) :
    Returns volumeselect (enter globals) after ↔ after = leave (scale (enter globals)) := by
  have hround : round (enter globals) = .exit (leave (scale (enter globals))) :=
    if_pos (Nat.zero_lt_succ 511)
  constructor
  · intro hreturns
    obtain ⟨fuel, hdone⟩ := hreturns
    cases fuel with
    | zero => cases hdone
    | succ fuel =>
      rw [volumeselect, loop_succ_exit hround] at hdone
      exact (Outcome.done.inj hdone).symm
  · intro hafter
    exact ⟨1, hafter ▸ loop_succ_exit hround 0⟩

/-- What is left in the globals is what the call within the assistant leaves. -/
theorem leave_scale_globals (globals : Globals) :
    (leave (scale (enter globals))).globals = Menu.volumeselect globals := rfl

/-- Only the first element is multiplied. -/
theorem multiplied_leave_scale (globals : Globals) :
    (leave (scale (enter globals))).multiplied = [0] := rfl

theorem volbuffer_leave_scale (globals : Globals) :
    (leave (scale (enter globals))).globals.volbuffer =
      Function.update globals.volbuffer 0 (globals.volbuffer 0 * globals.volumeMultiplier) := rfl

theorem volbuffer_leave_scale_of_pos (globals : Globals) {index : ℕ} (hindex : 0 < index) :
    (leave (scale (enter globals))).globals.volbuffer index = globals.volbuffer index := by
  rw [volbuffer_leave_scale, Function.update_of_ne hindex.ne']

/-- No call multiplies every element once, whatever the buffer and the multiplier are. -/
theorem volumeselect_never_scales (globals : Globals) :
    ¬ ∃ after, Returns volumeselect (enter globals) after ∧ ScalesBuffer globals after := by
  intro hscales
  obtain ⟨after, hreturns, hafter⟩ := hscales
  rw [returns_volumeselect_iff] at hreturns
  have hsecond := hafter.once 1 (by decide)
  rw [hreturns, multiplied_leave_scale] at hsecond
  exact absurd hsecond (by decide)

/-- Half the volume, for a buffer of ones: the second element is still one. -/
theorem volumeselect_scales_one_element :
    let globals := { Globals.initial with volbuffer := fun _ ↦ 1, volumeMultiplier := 1 / 2 }
    ¬ ∃ after, Returns volumeselect (enter globals) after ∧ ScalesBuffer globals after := by
  intro globals hscales
  obtain ⟨after, hreturns, hafter⟩ := hscales
  rw [returns_volumeselect_iff] at hreturns
  have hsecond := hafter.scaled 1 (by decide)
  rw [hreturns, volbuffer_leave_scale_of_pos globals Nat.one_pos] at hsecond
  norm_num [globals] at hsecond

end PiFunk.Menu.Volume
