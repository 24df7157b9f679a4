import PiFunk.Ask.SendByte
import PiFunk.Delay
import PiFunk.Library.Waveform

/-!
# The carrier as a function of time

Successive calls of `sendByteAsk` with one `sleep` hold the carrier low for two periods and high
for one to send a one, and high for one period and low for one to send a zero.  The first period
tells the two apart, so the waveform can be read bit by bit, and neither the phases that merge
between neighbouring bits nor the carrier that stays low after the last byte hide anything: the
level as a function of time determines the bytes, and `decode` recovers them.
-/

namespace PiFunk.Ask

open FuelLoop Waveforms

inductive Level where
  | low
  | high
deriving DecidableEq, Repr

/-- The calls `sendByteAsk (byte, sleep)` for the bytes of a list, one after another. -/
def sendBytesAsk (bytes : List Byte) (sleep : CInt) : Program := fun fuel machine ↦
  match bytes with
  | [] => .done machine
  | byte :: rest => (sendByteAsk byte sleep fuel machine).andThen (sendBytesAsk rest sleep fuel)

/-- The nanoseconds an event takes: the switches none, the delays what they request. -/
def Event.nanos : Event → ℕ
  | .carrierhigh => 0
  | .carrierlow => 0
  | .delayMicrosecondsHard howLong => (Delay.tLong howLong).micros.toNat * 1000
  | .usleep2 us => Delay.nanosleep (Delay.usleep2 us)

@[simp]
theorem nanos_carrierhigh : Event.carrierhigh.nanos = 0 := rfl

@[simp]
theorem nanos_carrierlow : Event.carrierlow.nanos = 0 := rfl

def Event.level (current : Level) : Event → Level
  | .carrierhigh => .high
  | .carrierlow => .low
  | .delayMicrosecondsHard _ => current
  | .usleep2 _ => current

/-- The phases of the carrier from a first level on, one for each event. -/
def phases (current : Level) : List Event → List (Level × ℕ)
  | [] => []
  | event :: events =>
    (event.level current, event.nanos) :: phases (event.level current) events

/-- The level the carrier is left at. -/
def finalLevel (current : Level) (events : List Event) : Level :=
  events.foldl Event.level current

/-- The carrier level at a time in nanoseconds after the first event, for a carrier at the level
`idle` before it. -/
def carrierLevel (idle : Level) (events : List Event) (t : ℕ) : Level :=
  levelAt (phases idle events) (finalLevel idle events) t

def waveform (idle : Level) (events : List Event) : Waveform Level := merge (phases idle events)

/-! ## The decoder -/

/-- Read bits off the levels of successive periods. -/
def decodeUnits : List Level → List Bool
  | .high :: .low :: rest => false :: decodeUnits rest
  | .low :: .low :: .high :: rest => true :: decodeUnits rest
  | _ => []

/-- Group bits into bytes, the lowest bit first. -/
def packBytes : List Bool → List Byte
  | b₀ :: b₁ :: b₂ :: b₃ :: b₄ :: b₅ :: b₆ :: b₇ :: rest =>
    BitVec.ofBoolListLE [b₀, b₁, b₂, b₃, b₄, b₅, b₆, b₇] :: packBytes rest
  | _ => []

/-- The bytes of a waveform: sample it with the period `sleep`, read the bits and pack them. -/
def decode (sleep : CInt) (waveform : Waveform Level) : List Byte :=
  packBytes (decodeUnits (sample (sleep.toNat * 1000) waveform.phases))

/-! ## The trace of a byte list -/

def bytesEvents (bytes : List Byte) (sleep : CInt) : List Event :=
  bytes.flatMap fun byte ↦ byteEvents byte sleep

theorem sendBytesAsk_eq (bytes : List Byte) (sleep : CInt) {fuel : ℕ} (hfuel : 8 < fuel)
    (machine : Machine) : ∃ j, sendBytesAsk bytes sleep fuel machine =
      .done ⟨j, machine.trace ++ bytesEvents bytes sleep⟩ := by
  induction bytes generalizing machine with
  | nil => exact ⟨machine.j, by simp [sendBytesAsk, bytesEvents]⟩
  | cons byte rest ih =>
    obtain ⟨j, hrest⟩ := ih ⟨8, machine.trace ++ byteEvents byte sleep⟩
    refine ⟨j, ?_⟩
    rw [sendBytesAsk, (sendByteAsk_eq byte sleep fuel machine).1 hfuel, Outcome.done_andThen, hrest]
    simp [bytesEvents]

theorem sendBytesAsk_emits (bytes : List Byte) (sleep : CInt) :
    Emits (sendBytesAsk bytes sleep) (bytesEvents bytes sleep) := by
  intro machine
  obtain ⟨j, hdone⟩ := sendBytesAsk_eq bytes sleep (by decide : 8 < 9) machine
  exact ⟨_, ⟨9, hdone⟩, rfl⟩

theorem sendBytesAsk_emits_unique {bytes : List Byte} {sleep : CInt} {events : List Event}
    (hemits : Emits (sendBytesAsk bytes sleep) events) : events = bytesEvents bytes sleep := by
  obtain ⟨final, ⟨fuel, hdone⟩, htrace⟩ := hemits ⟨0, []⟩
  rcases Nat.lt_or_ge 8 fuel with hfuel | hfuel
  · obtain ⟨j, hspec⟩ := sendBytesAsk_eq bytes sleep hfuel ⟨0, []⟩
    rw [hspec] at hdone
    cases hdone
    simpa using htrace.symm
  · cases bytes with
    | nil =>
      cases hdone
      simpa [bytesEvents] using htrace.symm
    | cons byte rest =>
      obtain ⟨reached, hrunning⟩ := (sendByteAsk_eq byte sleep fuel ⟨0, []⟩).2 hfuel
      rw [sendBytesAsk, hrunning] at hdone
      cases hdone

/-! ## Periods -/

section Periods

variable {sleep : CInt} (hpos : 0 < sleep.toInt) (hbound : sleep.toInt < 1000000)

/-- The levels of the periods of one bit. -/
def bitUnits (bit : Bool) : List Level :=
  if bit then [.low, .low, .high] else [.high, .low]

theorem phases_append (current : Level) (first second : List Event) :
    phases current (first ++ second) =
      phases current first ++ phases (finalLevel current first) second := by
  induction first generalizing current with
  | nil => rfl
  | cons event first ih => simp [phases, ih, finalLevel]

include hpos hbound in
theorem delay_nanos : (Event.delayMicrosecondsHard sleep).nanos = sleep.toNat * 1000 ∧
    (Event.usleep2 sleep).nanos = sleep.toNat * 1000 :=
  ⟨by simp [Event.nanos, Delay.tLong_micros], Delay.nanosleep_usleep2 hpos.le hbound⟩

include hpos in
theorem period_pos : 0 < sleep.toNat * 1000 := by
  have hsleep : 0 < sleep.toNat := by
    rcases Nat.eq_zero_or_pos sleep.toNat with hzero | hsleep
    · rw [BitVec.eq_of_toNat_eq (y := 0#32) hzero] at hpos
      exact absurd hpos (by decide)
    · exact hsleep
  omega

include hpos hbound in
/-- Sampled with the period `sleep`, the events of a bit are its units, whatever the level
before. -/
theorem sample_bitEvents (current : Level) (bit : Bool) :
    sample (sleep.toNat * 1000) (phases current (bitEvents sleep bit)) = bitUnits bit := by
  have hperiod : sleep.toNat * 1000 / (sleep.toNat * 1000) = 1 :=
    Nat.div_self (period_pos hpos)
  obtain ⟨hhard, hsoft⟩ := delay_nanos hpos hbound
  cases bit
  · simp [bitEvents, phases, Event.level, hhard, hperiod, bitUnits]
  · simp [bitEvents, phases, Event.level, hhard, hsoft, hperiod, bitUnits]

include hpos hbound in
theorem sample_bits (current : Level) (sent : List Bool) :
    sample (sleep.toNat * 1000) (phases current (sent.flatMap (bitEvents sleep))) =
      sent.flatMap bitUnits := by
  induction sent generalizing current with
  | nil => rfl
  | cons bit sent ih =>
    calc
      sample (sleep.toNat * 1000) (phases current ((bit :: sent).flatMap (bitEvents sleep))) =
          sample (sleep.toNat * 1000) (phases current (bitEvents sleep bit)) ++
            sample (sleep.toNat * 1000) (phases (finalLevel current (bitEvents sleep bit))
              (sent.flatMap (bitEvents sleep))) := by
        rw [List.flatMap_cons, phases_append, sample_append]
      _ = bitUnits bit ++ sent.flatMap bitUnits := by rw [sample_bitEvents hpos hbound, ih]
      _ = (bit :: sent).flatMap bitUnits := List.flatMap_cons.symm

include hpos hbound in
/-- The units of a byte list are the units of its bits; the `carrierlow ()` behind each byte takes
no time. -/
theorem sample_bytesEvents (current : Level) (bytes : List Byte) :
    sample (sleep.toNat * 1000) (phases current (bytesEvents bytes sleep)) =
      (bytes.flatMap bits).flatMap bitUnits := by
  induction bytes generalizing current with
  | nil => rfl
  | cons byte bytes ih =>
    have hhead : sample (sleep.toNat * 1000) (phases current (byteEvents byte sleep)) =
        (bits byte).flatMap bitUnits := by
      rw [byteEvents, phases_append, sample_append, sample_bits hpos hbound]
      simp [phases]
    calc
      sample (sleep.toNat * 1000) (phases current (bytesEvents (byte :: bytes) sleep)) =
          sample (sleep.toNat * 1000) (phases current (byteEvents byte sleep)) ++
            sample (sleep.toNat * 1000) (phases (finalLevel current (byteEvents byte sleep))
              (bytesEvents bytes sleep)) := by
        rw [bytesEvents, List.flatMap_cons, phases_append, sample_append, ← bytesEvents]
      _ = (bits byte).flatMap bitUnits ++ (bytes.flatMap bits).flatMap bitUnits := by
        rw [hhead, ih]
      _ = ((byte :: bytes).flatMap bits).flatMap bitUnits := by
        rw [List.flatMap_cons, List.flatMap_append]

/-- Phases last as long as the events they belong to. -/
theorem dvd_phases {period : ℕ} (current : Level) (events : List Event)
    (hdvd : ∀ event ∈ events, period ∣ event.nanos) :
    ∀ phase ∈ phases current events, period ∣ phase.2 := by
  induction events generalizing current with
  | nil => simp [phases]
  | cons event events ih =>
    intro phase hphase
    rcases List.mem_cons.mp hphase with rfl | hphase
    · exact hdvd event List.mem_cons_self
    · exact ih _ (fun e he ↦ hdvd e (List.mem_cons_of_mem event he)) phase hphase

include hpos hbound in
/-- Every phase of a byte list lasts a whole number of periods. -/
theorem dvd_phases_bytesEvents (current : Level) (bytes : List Byte) :
    ∀ phase ∈ phases current (bytesEvents bytes sleep), sleep.toNat * 1000 ∣ phase.2 := by
  obtain ⟨hhard, hsoft⟩ := delay_nanos hpos hbound
  have hbit (bit : Bool) : ∀ event ∈ bitEvents sleep bit, sleep.toNat * 1000 ∣ event.nanos := by
    cases bit <;> simp [bitEvents, hhard, hsoft]
  apply dvd_phases
  intro event hevent
  obtain ⟨byte, _, hevent⟩ := List.mem_flatMap.mp hevent
  rcases List.mem_append.mp hevent with hevent | hevent
  · obtain ⟨bit, _, hevent⟩ := List.mem_flatMap.mp hevent
    exact hbit bit event hevent
  · rw [List.mem_singleton.mp hevent]
    exact Nat.dvd_zero _

end Periods

/-! ## Reading the bytes back -/

/-- The units of a bit are a prefix code, and no run of one level behind them is read as a bit. -/
theorem decodeUnits_units (sent : List Bool) (count : ℕ) (after : Level) :
    decodeUnits (sent.flatMap bitUnits ++ List.replicate count after) = sent := by
  induction sent with
  | nil =>
    match count, after with
    | 0, _ | 1, .low | 1, .high | 2, .low | 2, .high => rfl
    | _ + 3, .low => simp [List.replicate_succ, decodeUnits]
    | _ + 3, .high => simp [List.replicate_succ, decodeUnits]
  | cons bit sent ih =>
    rw [List.flatMap_cons, List.append_assoc]
    cases bit <;> simp only [bitUnits, Bool.false_eq_true, if_false, if_true, List.cons_append,
      List.nil_append, decodeUnits, ih]

theorem ofBoolListLE_bits (byte : Byte) :
    BitVec.ofBoolListLE [byte.getLsbD 0, byte.getLsbD 1, byte.getLsbD 2, byte.getLsbD 3,
      byte.getLsbD 4, byte.getLsbD 5, byte.getLsbD 6, byte.getLsbD 7] = byte := by
  apply BitVec.eq_of_getLsbD_eq
  intro i hi
  rw [BitVec.getLsbD_ofBoolListLE]
  have hi : i < 8 := hi
  have hcases : i = 0 ∨ i = 1 ∨ i = 2 ∨ i = 3 ∨ i = 4 ∨ i = 5 ∨ i = 6 ∨ i = 7 := by omega
  rcases hcases with rfl | rfl | rfl | rfl | rfl | rfl | rfl | rfl <;> rfl

theorem packBytes_bits (bytes : List Byte) : packBytes (bytes.flatMap bits) = bytes := by
  induction bytes with
  | nil => rfl
  | cons byte bytes ih =>
    have hbits : bits byte = [byte.getLsbD 0, byte.getLsbD 1, byte.getLsbD 2, byte.getLsbD 3,
      byte.getLsbD 4, byte.getLsbD 5, byte.getLsbD 6, byte.getLsbD 7] := rfl
    rw [List.flatMap_cons, hbits]
    simp only [List.cons_append, List.nil_append, packBytes, ih]
    rw [ofBoolListLE_bits]

section Determined

variable {sleep : CInt} (hpos : 0 < sleep.toInt) (hbound : sleep.toInt < 1000000)

include hpos hbound in
/-- The merged waveform of a byte list is decoded to the list. -/
theorem decode_waveform (idle : Level) (bytes : List Byte) :
    decode sleep (waveform idle (bytesEvents bytes sleep)) = bytes := by
  have hunits := decodeUnits_units (bytes.flatMap bits) 0 .low
  rw [List.replicate_zero, List.append_nil] at hunits
  calc
    decode sleep (waveform idle (bytesEvents bytes sleep)) =
        packBytes (decodeUnits (sample (sleep.toNat * 1000)
          (phases idle (bytesEvents bytes sleep)))) := by
      rw [decode, waveform, sample_merge _ _ (dvd_phases_bytesEvents hpos hbound idle bytes)]
    _ = packBytes (decodeUnits ((bytes.flatMap bits).flatMap bitUnits)) := by
      rw [sample_bytesEvents hpos hbound]
    _ = packBytes (bytes.flatMap bits) := by rw [hunits]
    _ = bytes := packBytes_bits bytes

include hpos hbound in
/-- So are sufficiently many samples of the carrier level as a function of time. -/
theorem decode_carrierLevel (idle : Level) (bytes : List Byte) {count : ℕ}
    (hcount : ((bytes.flatMap bits).flatMap bitUnits).length ≤ count) :
    packBytes (decodeUnits ((List.range count).map fun index ↦
      carrierLevel idle (bytesEvents bytes sleep) (index * (sleep.toNat * 1000)))) = bytes := by
  have hlength : (sample (sleep.toNat * 1000)
      (phases idle (bytesEvents bytes sleep))).length ≤ count := by
    rwa [sample_bytesEvents hpos hbound]
  simp only [carrierLevel]
  rw [levelAt_samples (period_pos hpos) _ _ (dvd_phases_bytesEvents hpos hbound idle bytes) hlength,
    sample_bytesEvents hpos hbound, decodeUnits_units, packBytes_bits]

end Determined

/-- For a fixed `sleep` below one second the calls for every byte list return, the carrier level as
a function of time determines the list, and so does the merged waveform, from which `decode`
recovers it. -/
theorem carrier_determines_bytes (sleep : CInt) (hpos : 0 < sleep.toInt)
    (hbound : sleep.toInt < 1000000) (idle : Level) :
    (∀ bytes, ∃ events, Emits (sendBytesAsk bytes sleep) events) ∧
    (∀ first second firstEvents secondEvents,
      Emits (sendBytesAsk first sleep) firstEvents →
      Emits (sendBytesAsk second sleep) secondEvents →
      (∀ t, carrierLevel idle firstEvents t = carrierLevel idle secondEvents t) ∨
        waveform idle firstEvents = waveform idle secondEvents →
      first = second) ∧
    ∀ bytes events, Emits (sendBytesAsk bytes sleep) events →
      decode sleep (waveform idle events) = bytes := by
  refine ⟨fun bytes ↦ ⟨_, sendBytesAsk_emits bytes sleep⟩, ?_, ?_⟩
  · intro first second firstEvents secondEvents hfirst hsecond hsame
    obtain rfl := sendBytesAsk_emits_unique hfirst
    obtain rfl := sendBytesAsk_emits_unique hsecond
    rcases hsame with hlevel | hwaveform
    · let count := max ((first.flatMap bits).flatMap bitUnits).length
        ((second.flatMap bits).flatMap bitUnits).length
      calc
        first = packBytes (decodeUnits ((List.range count).map fun index ↦
            carrierLevel idle (bytesEvents first sleep) (index * (sleep.toNat * 1000)))) :=
          (decode_carrierLevel hpos hbound idle first (le_max_left _ _)).symm
        _ = packBytes (decodeUnits ((List.range count).map fun index ↦
            carrierLevel idle (bytesEvents second sleep) (index * (sleep.toNat * 1000)))) := by
          simp only [hlevel]
        _ = second := decode_carrierLevel hpos hbound idle second (le_max_right _ _)
    · calc
        first = decode sleep (waveform idle (bytesEvents first sleep)) :=
          (decode_waveform hpos hbound idle first).symm
        _ = decode sleep (waveform idle (bytesEvents second sleep)) := by rw [hwaveform]
        _ = second := decode_waveform hpos hbound idle second
  · intro bytes events hemits
    obtain rfl := sendBytesAsk_emits_unique hemits
    exact decode_waveform hpos hbound idle bytes

/-- The same for a period of one millisecond. -/
theorem carrier_determines_bytes_millisecond :
    (∀ bytes, ∃ events, Emits (sendBytesAsk bytes 1000) events) ∧
    (∀ first second firstEvents secondEvents,
      Emits (sendBytesAsk first 1000) firstEvents →
      Emits (sendBytesAsk second 1000) secondEvents →
      (∀ t, carrierLevel .low firstEvents t = carrierLevel .low secondEvents t) ∨
        waveform .low firstEvents = waveform .low secondEvents →
      first = second) ∧
    ∀ bytes events, Emits (sendBytesAsk bytes 1000) events →
      decode 1000 (waveform .low events) = bytes :=
  carrier_determines_bytes 1000 (by decide) (by decide) .low

/-- Two bytes, sent and read back. -/
example : decode 1000 (waveform .low (bytesEvents [0x61, 0xF0] 1000)) = [0x61, 0xF0] := by
  decide +kernel

end PiFunk.Ask
