import Mathlib.Data.Nat.Bitwise
import PiFunk.CTypes
import PiFunk.Library.Loop

/-!
# Amplitude-shift keying of bytes and strings

`sendByteAsk` switches the carrier once for each of the eight bits of a byte, and `sendStringAsk`
calls it for the characters of a string.  Both loops count with the program-wide `int j`.  The
carrier switches and the delays are events that return; a run appends them to a trace.

Every call of `sendByteAsk` leaves `j` at 8, so the second test of the loop of `sendStringAsk`
sees 9: up to nine characters the loop ends after the first one, and from ten characters on it
sends the character at index 9 for ever.
-/

namespace PiFunk.Ask

open FuelLoop

/-- The calls by which the sender acts on the carrier and waits. -/
inductive Event where
  | carrierhigh
  | carrierlow
  | delayMicrosecondsHard (howLong : CInt)
  | usleep2 (us : CInt)
deriving DecidableEq, Repr

/-- The global loop counter `j` and the events of the run so far. -/
structure Machine where
  j : ℕ
  trace : List Event
deriving DecidableEq, Repr

namespace Machine

def emit (machine : Machine) (events : List Event) : Machine :=
  { machine with trace := machine.trace ++ events }

def incrementJ (machine : Machine) : Machine := { machine with j := machine.j + 1 }

end Machine

/-- Nothing in the sender ends the process. -/
abbrev Program := FuelLoop.Program Empty Machine

/-- The body of the bit loop: the two tests of `byte & (1 << j)`. -/
def sendBit (byte : Byte) (sleep : CInt) (machine : Machine) : Machine :=
  if byte.toNat &&& 1 <<< machine.j > 0 then
    machine.emit [.carrierlow, .delayMicrosecondsHard sleep, .usleep2 sleep,
      .carrierhigh, .delayMicrosecondsHard sleep]
  else if byte.toNat &&& 1 <<< machine.j = 0 then
    machine.emit [.carrierhigh, .delayMicrosecondsHard sleep,
      .carrierlow, .delayMicrosecondsHard sleep]
  else machine

def sendByteAsk (byte : Byte) (sleep : CInt) : Program := fun fuel machine ↦
  (whileLoop (fun m ↦ m.j < 8) (fun m ↦ .done (sendBit byte sleep m).incrementJ)
    fuel { machine with j := 0 }).andThen fun m ↦ .done (m.emit [.carrierlow])

/-- The length is an `int`; the counter is the one `sendByteAsk` counts with. -/
def sendStringAsk (string : CString) (sleep : CInt) : Program := fun fuel machine ↦
  let length := toInt string.strlen
  whileLoop (fun m ↦ (m.j : ℤ) < length)
    (fun m ↦ (sendByteAsk (string.get m.j) sleep fuel m).andThen fun m ↦ .done m.incrementJ)
    fuel { machine with j := 0 }

/-! ## One byte -/

def bitEvents (sleep : CInt) (bit : Bool) : List Event :=
  if bit then
    [.carrierlow, .delayMicrosecondsHard sleep, .usleep2 sleep,
      .carrierhigh, .delayMicrosecondsHard sleep]
  else
    [.carrierhigh, .delayMicrosecondsHard sleep, .carrierlow, .delayMicrosecondsHard sleep]

/-- The bits of a byte in the order of transmission, the lowest one first. -/
def bits (byte : Byte) : List Bool := (List.range 8).map fun k ↦ byte.getLsbD k

/-- The events of one byte: its bits, and the final `carrierlow ()`. -/
def byteEvents (byte : Byte) (sleep : CInt) : List Event :=
  (bits byte).flatMap (bitEvents sleep) ++ [.carrierlow]

theorem byteEvents_ne_nil (byte : Byte) (sleep : CInt) : byteEvents byte sleep ≠ [] := by
  simp [byteEvents]

/-- The mask test of the source is the bit of the byte. -/
theorem and_shiftLeft_one_pos_iff (byte : Byte) (k : ℕ) :
    byte.toNat &&& 1 <<< k > 0 ↔ byte.getLsbD k = true := by
  rw [Nat.one_shiftLeft, Nat.and_two_pow, BitVec.getLsbD]
  cases byte.toNat.testBit k <;> simp

theorem sendBit_eq (byte : Byte) (sleep : CInt) (machine : Machine) :
    sendBit byte sleep machine = machine.emit (bitEvents sleep (byte.getLsbD machine.j)) := by
  unfold sendBit bitEvents
  by_cases hbit : byte.toNat &&& 1 <<< machine.j > 0
  · rw [if_pos hbit, if_pos ((and_shiftLeft_one_pos_iff byte machine.j).mp hbit)]
  · have hzero : byte.toNat &&& 1 <<< machine.j = 0 := Nat.eq_zero_of_not_pos hbit
    have hclear := mt (and_shiftLeft_one_pos_iff byte machine.j).mpr hbit
    rw [if_neg hbit, if_pos hzero, if_neg hclear]

/-- The state after the first `count` bits. -/
theorem sendBit_iterate (byte : Byte) (sleep : CInt) (trace : List Event) (count : ℕ) :
    (fun m ↦ (sendBit byte sleep m).incrementJ)^[count] ⟨0, trace⟩ =
      ⟨count, trace ++ ((List.range count).map fun k ↦ byte.getLsbD k).flatMap
        (bitEvents sleep)⟩ := by
  induction count with
  | zero => simp
  | succ count ih =>
    rw [Function.iterate_succ_apply', ih]
    simp [sendBit_eq, Machine.emit, Machine.incrementJ, List.range_succ]

/-- The bit loop goes round eight times. -/
theorem bitLoop_eq (byte : Byte) (sleep : CInt) (trace : List Event) (fuel : ℕ) :
    (whileLoop (fun m ↦ m.j < 8) (fun m ↦ .done (sendBit byte sleep m).incrementJ) fuel
        ⟨0, trace⟩ : Outcome Empty Machine) =
      if 8 < fuel then .done ⟨8, trace ++ (bits byte).flatMap (bitEvents sleep)⟩
      else .running ((fun m ↦ (sendBit byte sleep m).incrementJ)^[fuel] ⟨0, trace⟩) := by
  apply loop_eq_of_count
  · intro k hk
    rw [Function.iterate_succ_apply']
    exact whileIteration_of_done (by simpa [sendBit_iterate] using hk) rfl
  · rw [sendBit_iterate]
    exact whileIteration_of_false (by simp)

/-- With room for the ninth test of its loop, `sendByteAsk` returns with the events of the byte
and with the counter at 8; under a smaller bound it is still running. -/
theorem sendByteAsk_eq (byte : Byte) (sleep : CInt) (fuel : ℕ) (machine : Machine) :
    (8 < fuel → sendByteAsk byte sleep fuel machine =
      .done ⟨8, machine.trace ++ byteEvents byte sleep⟩) ∧
    (fuel ≤ 8 → ∃ reached, sendByteAsk byte sleep fuel machine = .running reached) := by
  have hloop := bitLoop_eq byte sleep machine.trace fuel
  constructor
  · intro hfuel
    rw [if_pos hfuel] at hloop
    simp [sendByteAsk, hloop, Machine.emit, byteEvents]
  · intro hfuel
    rw [if_neg (not_lt.mpr hfuel)] at hloop
    exact ⟨_, by rw [sendByteAsk, hloop, Outcome.running_andThen]⟩

/-! ## Programs and their traces -/

/-- From every state the program returns, and what it appends to the trace is `events`. -/
def Emits (program : Program) (events : List Event) : Prop :=
  ∀ machine, ∃ final, Returns program machine final ∧ final.trace = machine.trace ++ events

theorem sendByteAsk_emits (byte : Byte) (sleep : CInt) :
    Emits (sendByteAsk byte sleep) (byteEvents byte sleep) := fun machine ↦
  ⟨_, ⟨9, (sendByteAsk_eq byte sleep 9 machine).1 (by decide)⟩, rfl⟩

theorem sendByteAsk_emits_unique {byte : Byte} {sleep : CInt} {events : List Event}
    (hemits : Emits (sendByteAsk byte sleep) events) : events = byteEvents byte sleep := by
  obtain ⟨final, ⟨fuel, hdone⟩, htrace⟩ := hemits ⟨0, []⟩
  have hspec := sendByteAsk_eq byte sleep fuel ⟨0, []⟩
  rcases Nat.lt_or_ge 8 fuel with hfuel | hfuel
  · rw [hspec.1 hfuel] at hdone
    cases hdone
    simpa using htrace.symm
  · obtain ⟨reached, hrunning⟩ := hspec.2 hfuel
    rw [hrunning] at hdone
    cases hdone

/-! ## A string -/

/-- The events of a string that is sent once, character after character. -/
theorem forall₂_emits_iff (characters : List Byte) (sleep : CInt) (traces : List (List Event)) :
    List.Forall₂ (fun character events ↦ Emits (sendByteAsk character sleep) events)
        characters traces ↔
      traces = characters.map fun character ↦ byteEvents character sleep := by
  constructor
  · intro hemits
    induction hemits with
    | nil => rfl
    | cons hhead _ ih => rw [sendByteAsk_emits_unique hhead, ih, List.map_cons]
  · rintro rfl
    induction characters with
    | nil => exact .nil
    | cons character characters ih =>
      exact .cons (sendByteAsk_emits character sleep) ih

section StringLoop

variable (string : CString) (sleep : CInt)

/-- The loop of `sendStringAsk` is left at once when the length is not positive. -/
theorem sendStringAsk_eq_of_nonpos (hlength : toInt string.strlen ≤ 0) (fuel : ℕ)
    (machine : Machine) :
    sendStringAsk string sleep (fuel + 1) machine = .done { machine with j := 0 } := by
  apply loop_succ_exit
  apply whileIteration_of_false
  simpa using hlength

theorem sendStringAsk_running (hlength : 0 < toInt string.strlen) {fuel : ℕ} (hfuel : fuel ≤ 8)
    (machine : Machine) :
    ∃ reached, sendStringAsk string sleep fuel machine = .running reached := by
  cases fuel with
  | zero => exact ⟨_, rfl⟩
  | succ fuel =>
    obtain ⟨reached, hbyte⟩ := (sendByteAsk_eq (string.get 0) sleep (fuel + 1)
      { machine with j := 0 }).2 hfuel
    refine ⟨reached, loop_succ_running ?_ fuel⟩
    exact whileIteration_of_running (by simpa using hlength) (by simp [hbyte])

/-- After the first character the counter is 9, so a length of at most nine ends the loop. -/
theorem sendStringAsk_eq_of_le_nine (hpos : 0 < toInt string.strlen)
    (hnine : toInt string.strlen ≤ 9) {fuel : ℕ} (hfuel : 8 < fuel) (machine : Machine) :
    sendStringAsk string sleep fuel machine =
      .done ⟨9, machine.trace ++ byteEvents (string.get 0) sleep⟩ := by
  obtain ⟨rest, rfl⟩ : ∃ rest, fuel = rest + 2 := ⟨fuel - 2, by omega⟩
  have hbyte := (sendByteAsk_eq (string.get 0) sleep (rest + 2) { machine with j := 0 }).1 hfuel
  rw [sendStringAsk, whileLoop, loop_succ_again (whileIteration_of_done (by simpa using hpos)
    (by rw [hbyte, Outcome.done_andThen]))]
  apply loop_succ_exit
  apply whileIteration_of_false
  exact decide_eq_false (not_lt.mpr hnine)

/-- From ten characters on the counter comes back to 9 after every call, and the loop never
ends. -/
theorem sendStringAsk_diverges (hten : 9 < toInt string.strlen) (machine : Machine) :
    Diverges (sendStringAsk string sleep) machine := by
  intro fuel
  rcases Nat.lt_or_ge 8 fuel with hfuel | hfuel
  · refine loop_running_of_invariant (fun m ↦ (m.j : ℤ) ≤ 9) ?_ _ (by simp) fuel
    intro m hm
    refine .inl ⟨⟨9, m.trace ++ byteEvents (string.get m.j) sleep⟩, ?_, le_rfl⟩
    apply whileIteration_of_done
    · simpa using hm.trans_lt hten
    · rw [(sendByteAsk_eq (string.get m.j) sleep fuel m).1 hfuel]
      rfl
  · exact sendStringAsk_running string sleep (by omega) hfuel machine

/-- Whenever `sendStringAsk` returns, it has sent the first character, if there is one, and
nothing else. -/
theorem sendStringAsk_returns {machine final : Machine}
    (hreturns : Returns (sendStringAsk string sleep) machine final) :
    (toInt string.strlen ≤ 0 ∧ final.trace = machine.trace) ∨
      (0 < toInt string.strlen ∧
        final.trace = machine.trace ++ byteEvents (string.get 0) sleep) := by
  obtain ⟨fuel, hdone⟩ := hreturns
  rcases le_or_gt (toInt string.strlen) 0 with hlength | hlength
  · cases fuel with
    | zero => cases hdone
    | succ fuel =>
      rw [sendStringAsk_eq_of_nonpos string sleep hlength] at hdone
      cases hdone
      exact .inl ⟨hlength, rfl⟩
  · rcases le_or_gt (toInt string.strlen) 9 with hnine | hnine
    · rcases Nat.lt_or_ge 8 fuel with hfuel | hfuel
      · rw [sendStringAsk_eq_of_le_nine string sleep hlength hnine hfuel] at hdone
        cases hdone
        exact .inr ⟨hlength, rfl⟩
      · obtain ⟨reached, hrunning⟩ := sendStringAsk_running string sleep hlength hfuel machine
        rw [hrunning] at hdone
        cases hdone
    · exact absurd ⟨fuel, hdone⟩
        ((sendStringAsk_diverges string sleep hnine machine).not_returns final)

end StringLoop

/-- A list of nonempty blocks is no longer than its first block only if it has no second one. -/
theorem map_byteEvents_flatten_eq_head {character : Byte} {characters : List Byte} {sleep : CInt}
    (hflatten : ((character :: characters).map fun c ↦ byteEvents c sleep).flatten =
      byteEvents character sleep) : characters = [] := by
  rw [List.map_cons, List.flatten_cons, List.append_right_eq_self] at hflatten
  cases characters with
  | nil => rfl
  | cons next _ =>
    rw [List.map_cons, List.flatten_cons, List.append_eq_nil_iff] at hflatten
    exact absurd hflatten.1 (byteEvents_ne_nil next sleep)

theorem sendStringAsk_emits_of_length_le_one (string : CString) (sleep : CInt)
    (hlength : string.chars.length ≤ 1) :
    Emits (sendStringAsk string sleep)
      (string.chars.map fun character ↦ byteEvents character sleep).flatten := by
  intro machine
  have hsmall : toInt string.strlen = string.chars.length :=
    toInt_of_small (hlength.trans_lt (by decide))
  match hchars : string.chars with
  | [] =>
    rw [hchars] at hsmall
    have hdone := sendStringAsk_eq_of_nonpos string sleep (by simp [hsmall]) 0 machine
    exact ⟨_, ⟨1, hdone⟩, by simp⟩
  | [character] =>
    rw [hchars] at hsmall
    have hget : string.get 0 = character := by simp [CString.get, hchars]
    have hdone := sendStringAsk_eq_of_le_nine string sleep (by simp [hsmall]) (by simp [hsmall])
      (show 8 < 9 by decide) machine
    exact ⟨_, ⟨9, hdone⟩, by simp [hget]⟩
  | _ :: _ :: _ => simp [hchars] at hlength

theorem length_le_one_of_sendStringAsk_emits {string : CString} {sleep : CInt}
    (hemits : Emits (sendStringAsk string sleep)
      (string.chars.map fun character ↦ byteEvents character sleep).flatten) :
    string.chars.length ≤ 1 := by
  obtain ⟨final, hreturns, htrace⟩ := hemits ⟨0, []⟩
  have hsent := sendStringAsk_returns string sleep hreturns
  match hchars : string.chars with
  | [] => simp
  | character :: characters =>
    rw [hchars] at htrace
    have hget : string.get 0 = character := by simp [CString.get, hchars]
    cases hsent with
    | inl hnone =>
      rw [hnone.2, List.map_cons, List.flatten_cons] at htrace
      simp [byteEvents_ne_nil] at htrace
    | inr hfirst =>
      rw [hfirst.2, hget, List.append_cancel_left_eq] at htrace
      simp [map_byteEvents_flatten_eq_head htrace.symm]

/-- `sendStringAsk` sends every character of the string exactly once and in order exactly when
the string has at most one character. -/
theorem sendStringAsk_sends_every_character_iff (string : CString) (sleep : CInt) :
    (∃ traces, List.Forall₂ (fun character events ↦ Emits (sendByteAsk character sleep) events)
        string.chars traces ∧ Emits (sendStringAsk string sleep) traces.flatten) ↔
      string.chars.length ≤ 1 := by
  simp only [forall₂_emits_iff, exists_eq_left]
  constructor
  · exact length_le_one_of_sendStringAsk_emits
  · exact sendStringAsk_emits_of_length_le_one string sleep

/-- A two-character string is cut after its first character. -/
theorem sendStringAsk_two_characters :
    ¬ ∃ traces, List.Forall₂ (fun character events ↦ Emits (sendByteAsk character 1) events)
        (CString.mk [0x61, 0x62] (by decide)).chars traces ∧
      Emits (sendStringAsk ⟨[0x61, 0x62], by decide⟩ 1) traces.flatten := by
  simp only [forall₂_emits_iff, exists_eq_left]
  intro hemits
  obtain ⟨final, hreturns, htrace⟩ := hemits ⟨0, []⟩
  rcases sendStringAsk_returns _ 1 hreturns with ⟨hlength, _⟩ | ⟨_, hfirst⟩
  · exact absurd hlength (by decide)
  · rw [hfirst] at htrace
    exact absurd htrace (by decide)

end PiFunk.Ask
