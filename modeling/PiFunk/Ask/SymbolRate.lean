import PiFunk.Ask.Waveform

/-!
# The symbol rate

`sendByteAsk` sends each bit as a cell of two half cells, one at each level of the carrier.  A zero
is high and low for one delay each.  A one is low for two delays, because one of the calls of
`usleep2` is not commented out as the others are, and high for one.

So the cells have the constant length of two delays exactly where no bit is set, or no delay is
asked for.
-/

namespace PiFunk.Ask

open FuelLoop

/-- The level that is not this one. -/
def Level.opposite : Level → Level
  | .low => .high
  | .high => .low

def Level.switch : Level → Event
  | .low => .carrierlow
  | .high => .carrierhigh

/-- The events that wait. -/
def Event.isDelay : Event → Bool
  | .carrierhigh => false
  | .carrierlow => false
  | .delayMicrosecondsHard _ => true
  | .usleep2 _ => true

/-- The nanoseconds of delay that a list of events requests. -/
def delay (events : List Event) : ℕ := (events.map Event.nanos).sum

@[simp]
theorem delay_nil : delay [] = 0 := rfl

@[simp]
theorem delay_cons (event : Event) (events : List Event) :
    delay (event :: events) = event.nanos + delay events := by
  simp [delay]

@[simp]
theorem delay_append (first second : List Event) :
    delay (first ++ second) = delay first + delay second := by
  simp [delay]

theorem delay_flatMap {α : Type*} (cell : α → List Event) (period : ℕ) (cells : List α)
    (hcell : ∀ index ∈ cells, delay (cell index) = period) :
    delay (cells.flatMap cell) = cells.length * period := by
  induction cells with
  | nil => simp
  | cons index cells ih =>
    have hrest := ih fun other hother ↦ hcell other (List.mem_cons_of_mem index hother)
    calc
      delay ((index :: cells).flatMap cell) = delay (cell index) + delay (cells.flatMap cell) := by
        rw [List.flatMap_cons, delay_append]
      _ = period + cells.length * period := by rw [hcell index List.mem_cons_self, hrest]
      _ = (index :: cells).length * period := by rw [List.length_cons, Nat.succ_mul, Nat.add_comm]

/-! ## Cells -/

/-- The events of bit `j`. -/
def cell (byte : Byte) (sleep : CInt) (j : ℕ) : List Event := (sendBit byte sleep ⟨j, []⟩).trace

/-- A cell of two half cells of `sleep` microseconds each, at opposite levels. -/
def IsConstantCell (sleep : CInt) (events : List Event) : Prop :=
  ∃ (level : Level) (first second : List Event),
    events = level.switch :: first ++ level.opposite.switch :: second ∧
    (∀ event ∈ first ++ second, event.isDelay = true) ∧
    delay first = sleep.toNat * 1000 ∧ delay second = sleep.toNat * 1000

/-- Every bit of the byte is sent as such a cell. -/
def HasConstantCells (sleep : CInt) (byte : Byte) : Prop :=
  ∀ j < 8, IsConstantCell sleep (cell byte sleep j)

theorem cell_eq (byte : Byte) (sleep : CInt) (j : ℕ) :
    cell byte sleep j = bitEvents sleep (byte.getLsbD j) := by
  rw [cell, sendBit_eq]
  rfl

/-- The cells of a byte are what `sendByteAsk` sends, before its last `carrierlow ()`. -/
theorem byteEvents_eq_cells (byte : Byte) (sleep : CInt) :
    byteEvents byte sleep = (List.range 8).flatMap (cell byte sleep) ++ [.carrierlow] := by
  have hcells : cell byte sleep = fun j ↦ bitEvents sleep (byte.getLsbD j) := by
    funext j
    exact cell_eq byte sleep j
  rw [byteEvents, bits, hcells, List.flatMap_map]

theorem nanos_switch (level : Level) : level.switch.nanos = 0 := by
  cases level <;> rfl

theorem IsConstantCell.delay_eq {sleep : CInt} {events : List Event}
    (hconstant : IsConstantCell sleep events) : delay events = 2 * (sleep.toNat * 1000) := by
  obtain ⟨level, first, second, hevents, _, hfirst, hsecond⟩ := hconstant
  rw [hevents, List.cons_append, delay_cons, delay_append, delay_cons, nanos_switch, nanos_switch,
    hfirst, hsecond]
  omega

section Cells

variable {sleep : CInt} (hpos : 0 ≤ sleep.toInt) (hbound : sleep.toInt < 1000000)

include hpos hbound

theorem requested_nanos : (Event.delayMicrosecondsHard sleep).nanos = sleep.toNat * 1000 ∧
    (Event.usleep2 sleep).nanos = sleep.toNat * 1000 :=
  ⟨by simp [Event.nanos, Delay.tLong_micros], Delay.nanosleep_usleep2 hpos hbound⟩

/-- A set bit takes three delays and a clear one two. -/
theorem delay_bitEvents (bit : Bool) :
    delay (bitEvents sleep bit) = (if bit then 3 else 2) * (sleep.toNat * 1000) := by
  obtain ⟨hhard, hsoft⟩ := requested_nanos hpos hbound
  cases bit with
  | false =>
    simp [bitEvents, hhard]
    omega
  | true =>
    simp [bitEvents, hhard, hsoft]
    omega

/-- A clear bit is sent as a constant cell, and a set one only when no delay is asked for. -/
theorem isConstantCell_bitEvents_iff (bit : Bool) :
    IsConstantCell sleep (bitEvents sleep bit) ↔ sleep = 0 ∨ bit = false := by
  obtain ⟨hhard, hsoft⟩ := requested_nanos hpos hbound
  constructor
  · intro hconstant
    have htwo := hconstant.delay_eq
    rw [delay_bitEvents hpos hbound] at htwo
    cases bit with
    | false => exact .inr rfl
    | true =>
      rw [if_pos rfl] at htwo
      exact .inl (BitVec.eq_of_toNat_eq (show sleep.toNat = 0 by omega))
  · intro hcases
    cases bit with
    | false =>
      exact ⟨.high, [.delayMicrosecondsHard sleep], [.delayMicrosecondsHard sleep], rfl,
        by simp [Event.isDelay], by simp [hhard], by simp [hhard]⟩
    | true =>
      have hzero : sleep.toNat = 0 := congrArg BitVec.toNat (hcases.resolve_right nofun)
      exact ⟨.low, [.delayMicrosecondsHard sleep, .usleep2 sleep], [.delayMicrosecondsHard sleep],
        rfl, by simp [Event.isDelay], by simp [hhard, hsoft, hzero], by simp [hhard]⟩

theorem hasConstantCells_iff (byte : Byte) :
    HasConstantCells sleep byte ↔ sleep = 0 ∨ byte = 0 := by
  have hclear (j : ℕ) : (0 : Byte).getLsbD j = false := by simp
  simp only [HasConstantCells, cell_eq, isConstantCell_bitEvents_iff hpos hbound]
  constructor
  · intro hcells
    by_cases hzero : sleep = 0
    · exact .inl hzero
    · right
      apply BitVec.eq_of_getLsbD_eq
      intro j hj
      rw [(hcells j hj).resolve_left hzero, hclear]
  · intro hcases j _
    cases hcases with
    | inl hsleep => exact .inl hsleep
    | inr hbyte => exact .inr (by rw [hbyte, hclear])

end Cells

/-! ## Byte lists -/

/-- Eight constant cells take sixteen delays. -/
theorem HasConstantCells.delay_byteEvents {sleep : CInt} {byte : Byte}
    (hcells : HasConstantCells sleep byte) :
    delay (byteEvents byte sleep) = 16 * (sleep.toNat * 1000) := by
  have hcell := delay_flatMap (cell byte sleep) (2 * (sleep.toNat * 1000)) (List.range 8)
    fun j hj ↦ (hcells j (List.mem_range.mp hj)).delay_eq
  rw [byteEvents_eq_cells, delay_append, hcell]
  simp
  omega

theorem delay_bytesEvents {sleep : CInt} {bytes : List Byte}
    (hcells : ∀ byte ∈ bytes, HasConstantCells sleep byte) :
    delay (bytesEvents bytes sleep) = bytes.length * (16 * (sleep.toNat * 1000)) :=
  delay_flatMap _ _ bytes fun byte hbyte ↦ (hcells byte hbyte).delay_byteEvents

/-- The two lists are sent in constant cells only, and in the same time. -/
structure ConstantRate (sleep : CInt) (first second : List Byte) : Prop where
  cells : ∀ byte ∈ first ++ second, HasConstantCells sleep byte
  same : ∃ firstEvents secondEvents, Emits (sendBytesAsk first sleep) firstEvents ∧
    Emits (sendBytesAsk second sleep) secondEvents ∧ delay firstEvents = delay secondEvents ∧
    delay firstEvents = first.length * (16 * (sleep.toNat * 1000))

/-- For every two byte lists of the same length, the symbol rate is constant exactly when no delay
is asked for or no bit is set. -/
theorem constantRate_iff (sleep : CInt) (hpos : 0 ≤ sleep.toInt) (hbound : sleep.toInt < 1000000)
    (first second : List Byte) (hlength : first.length = second.length) :
    ConstantRate sleep first second ↔ sleep = 0 ∨ ∀ byte ∈ first ++ second, byte = 0 := by
  constructor
  · intro hrate
    by_cases hzero : sleep = 0
    · exact .inl hzero
    · exact .inr fun byte hbyte ↦
        ((hasConstantCells_iff hpos hbound byte).mp (hrate.cells byte hbyte)).resolve_left hzero
  · intro hcases
    have hcells : ∀ byte ∈ first ++ second, HasConstantCells sleep byte := by
      intro byte hbyte
      rw [hasConstantCells_iff hpos hbound]
      exact hcases.imp_right fun hzero ↦ hzero byte hbyte
    obtain ⟨hfirst, hsecond⟩ := List.forall_mem_append.mp hcells
    have htotal := delay_bytesEvents hfirst
    refine ⟨hcells, bytesEvents first sleep, bytesEvents second sleep,
      sendBytesAsk_emits first sleep, sendBytesAsk_emits second sleep, ?_, htotal⟩
    rw [htotal, hlength, delay_bytesEvents hsecond]

/-- Zero bytes are sent at a constant rate. -/
theorem constantRate_zero_bytes : ConstantRate 1000 [0, 0] [0, 0] :=
  (constantRate_iff 1000 (by decide) (by decide) [0, 0] [0, 0] rfl).mpr (.inr (by decide))

/-- The bytes 1 and 0 do not take the same time. -/
theorem constantRate_fails_for_one : ¬ ConstantRate 1000 [1] [0] := by
  intro hrate
  have hcell := hrate.cells 1 List.mem_cons_self 0 (by decide)
  rw [cell_eq] at hcell
  have hdelay := hcell.delay_eq
  revert hdelay
  decide

end PiFunk.Ask
