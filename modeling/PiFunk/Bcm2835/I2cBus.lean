import PiFunk.Bcm2835.I2c
import PiFunk.Library.Acknowledge
import PiFunk.Library.Schedule

/-!
# The I2C bus

The controller behind its registers, with one FIFO for both directions.  A started transfer first
offers the address to the slave, and then moves one byte after the other, at times of its own; it
waits while it has no byte to send, or no room for one it receives.  The transfer is over, and DONE
is set, when the data length has been moved, or when the slave does not acknowledge a byte or holds
the clock for too long.

The data length has 16 bits.  A start during a transfer, which the datasheet does not describe, is
left out.
-/

namespace PiFunk.Bcm2835

open Display FuelLoop Acknowledge Schedule

variable {σ : Type*}

/-- Why a transfer is broken off. -/
inductive Refusal where
  | nack
  | stretch
deriving DecidableEq, Repr

/-- A slave: what becomes of its address with the read bit, of a byte written to it and of a byte
read from it; and how many steps the controller takes before each access to a register. -/
structure I2cBus (σ : Type*) where
  select : σ → Bool → Except Refusal σ
  accept : σ → Byte → Except Refusal σ
  deliver : σ → Except Refusal (Byte × σ)
  schedule : ℕ → ℕ
  fair : Fair schedule

inductive Phase where
  | idle
  | selecting
  | moving
deriving DecidableEq, Repr

/-- The state of the controller.  The length `left` is still to be moved. -/
structure Bsc (σ : Type*) where
  slave : σ
  fifo : List Byte
  phase : Phase
  enabled : Bool
  reading : Bool
  dlen : ℕ
  left : ℕ
  done : Bool
  err : Bool
  clkt : Bool
  accesses : ℕ

namespace Bsc

variable (bsc : Bsc σ)

def finish : Bsc σ := { bsc with phase := .idle, done := true }

def abort (reason : Refusal) : Bsc σ :=
  { bsc with
    phase := .idle
    done := true
    err := bsc.err || reason == .nack
    clkt := bsc.clkt || reason == .stretch }

/-- The word in S. -/
def status : CInt :=
  (if bsc.phase ≠ .idle then S.TA else 0) ||| (if bsc.done then S.DONE else 0) |||
    (if bsc.fifo.length < BSC_FIFO_SIZE then S.TXD else 0) |||
    (if bsc.fifo ≠ [] then S.RXD else 0) ||| (if bsc.err then S.ERR else 0) |||
    if bsc.clkt then S.CLKT else 0

/-- The word in C; the bits that start and clear are read as zero. -/
def control : CInt := (if bsc.enabled then C.I2CEN else 0) ||| if bsc.reading then C.READ else 0

end Bsc

namespace I2cBus

variable (bus : I2cBus σ)

/-- The byte in front of the FIFO is sent. -/
def sendByte (bsc : Bsc σ) : Bsc σ :=
  match bsc.fifo with
  | [] => bsc
  | byte :: fifo =>
    match bus.accept bsc.slave byte with
    | .ok slave => { bsc with slave, fifo, left := bsc.left - 1 }
    | .error reason => bsc.abort reason

/-- A byte is received behind the FIFO. -/
def receiveByte (bsc : Bsc σ) : Bsc σ :=
  if bsc.fifo.length < BSC_FIFO_SIZE then
    match bus.deliver bsc.slave with
    | .ok (byte, slave) => { bsc with slave, fifo := bsc.fifo ++ [byte], left := bsc.left - 1 }
    | .error reason => bsc.abort reason
  else bsc

/-- One step of the controller. -/
def step (bsc : Bsc σ) : Bsc σ :=
  match bsc.phase with
  | .idle => bsc
  | .selecting =>
    match bus.select bsc.slave bsc.reading with
    | .ok slave => { bsc with slave, phase := .moving }
    | .error reason => bsc.abort reason
  | .moving =>
    if bsc.left = 0 then bsc.finish
    else if bsc.reading then bus.receiveByte bsc
    else bus.sendByte bsc

/-- The time before an access. -/
def elapse (bsc : Bsc σ) : Bsc σ :=
  { bus.step^[bus.schedule bsc.accesses] bsc with accesses := bsc.accesses + 1 }

def readRegister (register : BscRegister) (bsc : Bsc σ) : CInt × Bsc σ :=
  let bsc := bus.elapse bsc
  match register, bsc.fifo with
  | .C, _ => (bsc.control, bsc)
  | .S, _ => (bsc.status, bsc)
  | .DLEN, _ => (BitVec.ofNat 32 bsc.dlen, bsc)
  | .FIFO, [] => (0, bsc)
  | .FIFO, byte :: fifo => (byte.setWidth 32, { bsc with fifo })

def writeRegister (register : BscRegister) (value : CInt) (bsc : Bsc σ) : Bsc σ :=
  let bsc := bus.elapse bsc
  match register with
  | .C =>
    let bsc :=
      { bsc with
        enabled := isSet value Bsc.C.I2CEN
        reading := isSet value Bsc.C.READ
        fifo := if isSet value (Bsc.C.CLEAR_1 ||| Bsc.C.CLEAR_2) then [] else bsc.fifo }
    if bsc.phase = .idle ∧ isSet value Bsc.C.ST ∧ isSet value Bsc.C.I2CEN then
      { bsc with phase := .selecting, left := bsc.dlen }
    else bsc
  | .S =>
    { bsc with
      done := bsc.done && !isSet value Bsc.S.DONE
      err := bsc.err && !isSet value Bsc.S.ERR
      clkt := bsc.clkt && !isSet value Bsc.S.CLKT }
  | .DLEN => { bsc with dlen := value.toNat % 2 ^ 16 }
  | .FIFO =>
    if bsc.fifo.length < BSC_FIFO_SIZE then { bsc with fifo := bsc.fifo ++ [toChar value] } else bsc

def bsc : Peripheral BscRegister (Bsc σ) where
  read := bus.readRegister
  write := bus.writeRegister

end I2cBus

/-! ## What the slave sees -/

namespace I2cBus

variable (bus : I2cBus σ)

/-- A whole transfer to the slave. -/
def written (slave : σ) (data : List Byte) : Option Refusal × σ :=
  match bus.select slave false with
  | .ok next => listen bus.accept next data
  | .error reason => (some reason, slave)

/-- A whole transfer from the slave. -/
def requested (slave : σ) (count : ℕ) : List Byte × Option Refusal × σ :=
  match bus.select slave true with
  | .ok next => fetch bus.deliver next count
  | .error reason => ([], some reason, slave)

end I2cBus

/-- The reason for a verdict, where `missing` bytes are left. -/
def reasonOf (verdict : Option Refusal) (missing : ℕ) : I2CReasonCodes :=
  match verdict with
  | some .nack => .REASON_ERROR_NACK
  | some .stretch => .REASON_ERROR_CLKT
  | none => if missing ≠ 0 then .REASON_ERROR_DATA else .REASON_OK

/-- The verdict in S. -/
def Bsc.verdict (bsc : Bsc σ) : Option Refusal :=
  if bsc.err then some .nack else if bsc.clkt then some .stretch else none

/-! ## The bits of S -/

/-- The flags of S are independent. -/
theorem isSet_flags (ta done txd rxd err clkt : Prop) [Decidable ta] [Decidable done]
    [Decidable txd] [Decidable rxd] [Decidable err] [Decidable clkt] :
    let status := (if ta then Bsc.S.TA else 0) ||| (if done then Bsc.S.DONE else 0) |||
      (if txd then Bsc.S.TXD else 0) ||| (if rxd then Bsc.S.RXD else 0) |||
      (if err then Bsc.S.ERR else 0) ||| if clkt then Bsc.S.CLKT else 0
    (isSet status Bsc.S.DONE ↔ done) ∧ (isSet status Bsc.S.TXD ↔ txd) ∧
      (isSet status Bsc.S.RXD ↔ rxd) ∧ (isSet status Bsc.S.ERR ↔ err) ∧
      (isSet status Bsc.S.CLKT ↔ clkt) := by
  by_cases hta : ta <;> by_cases hdone : done <;> by_cases htxd : txd <;> by_cases hrxd : rxd <;>
    by_cases herr : err <;> by_cases hclkt : clkt <;>
    simp only [hta, hdone, htxd, hrxd, herr, hclkt, if_true, if_false, iff_true, iff_false] <;>
    decide

section Status

variable (bsc : Bsc σ)

theorem isSet_bsc_done_iff : isSet bsc.status Bsc.S.DONE ↔ bsc.done = true :=
  (isSet_flags _ _ _ _ _ _).1

theorem isSet_bsc_txd_iff : isSet bsc.status Bsc.S.TXD ↔ bsc.fifo.length < BSC_FIFO_SIZE :=
  (isSet_flags _ _ _ _ _ _).2.1

theorem isSet_bsc_rxd_iff : isSet bsc.status Bsc.S.RXD ↔ bsc.fifo ≠ [] :=
  (isSet_flags _ _ _ _ _ _).2.2.1

theorem isSet_bsc_err_iff : isSet bsc.status Bsc.S.ERR ↔ bsc.err = true :=
  (isSet_flags _ _ _ _ _ _).2.2.2.1

theorem isSet_bsc_clkt_iff : isSet bsc.status Bsc.S.CLKT ↔ bsc.clkt = true :=
  (isSet_flags _ _ _ _ _ _).2.2.2.2

end Status

/-! ## Time -/

section Time

variable (bus : I2cBus σ) {bsc : Bsc σ}

@[simp]
theorem step_idle (hidle : bsc.phase = .idle) : bus.step bsc = bsc := by
  unfold I2cBus.step
  rw [hidle]

theorem bsc_elapse_idle (hidle : bsc.phase = .idle) :
    bus.elapse bsc = { bsc with accesses := bsc.accesses + 1 } := by
  rw [I2cBus.elapse, Function.iterate_fixed (step_idle bus hidle)]

/-- What the steps keep, time keeps. -/
theorem elapse_of_invariant {invariant : Bsc σ → Prop}
    (hstep : ∀ bsc, invariant bsc → invariant (bus.step bsc))
    (haccesses : ∀ bsc accesses, invariant bsc → invariant { bsc with accesses })
    (hbsc : invariant bsc) : invariant (bus.elapse bsc) := by
  have hsteps (count : ℕ) : invariant (bus.step^[count] bsc) := by
    induction count with
    | zero => exact hbsc
    | succ count ih =>
      rw [Function.iterate_succ_apply']
      exact hstep _ ih
  exact haccesses _ _ (hsteps _)

end Time

/-! ## Progress -/

/-- What the controller has still to do: a byte is moved on at most twice, on the bus and at the
FIFO. -/
def Bsc.pending (bsc : Bsc σ) : ℕ :=
  2 * bsc.left + bsc.fifo.length +
    match bsc.phase with
    | .idle => 0
    | .selecting => 2
    | .moving => 1

/-- The FIFO does not keep the controller waiting. -/
def Bsc.CanMove (bsc : Bsc σ) : Prop :=
  bsc.phase = .moving → bsc.left ≠ 0 →
    if bsc.reading then bsc.fifo.length < BSC_FIFO_SIZE else bsc.fifo ≠ []

section Progress

variable (bus : I2cBus σ) {bsc : Bsc σ}

theorem pending_abort_lt (hactive : bsc.phase ≠ .idle) (reason : Refusal) :
    (bsc.abort reason).pending < bsc.pending := by
  unfold Bsc.pending Bsc.abort
  dsimp only
  cases hphase : bsc.phase with
  | idle => exact absurd hphase hactive
  | selecting => simp
  | moving => simp

/-- A step of a controller that does not wait makes progress. -/
theorem pending_step_lt (hactive : bsc.phase ≠ .idle) (hmove : bsc.CanMove) :
    (bus.step bsc).pending < bsc.pending := by
  cases hphase : bsc.phase with
  | idle => exact absurd hphase hactive
  | selecting =>
    unfold I2cBus.step
    rw [hphase]
    dsimp only
    cases bus.select bsc.slave bsc.reading with
    | error reason => exact pending_abort_lt hactive reason
    | ok slave => simp [Bsc.pending, hphase]
  | moving =>
    unfold I2cBus.step
    rw [hphase]
    dsimp only
    by_cases hleft : bsc.left = 0
    · rw [if_pos hleft]
      simp [Bsc.pending, Bsc.finish, hphase]
    have hroom := hmove hphase hleft
    rw [if_neg hleft]
    split_ifs at hroom ⊢ with hreading
    · unfold I2cBus.receiveByte
      rw [if_pos hroom]
      cases bus.deliver bsc.slave with
      | error reason => exact pending_abort_lt hactive reason
      | ok delivered =>
        simp only [Bsc.pending, hphase, List.length_append, List.length_singleton]
        omega
    · unfold I2cBus.sendByte
      obtain ⟨byte, fifo, hfifo⟩ := List.exists_cons_of_ne_nil hroom
      rw [hfifo]
      dsimp only
      cases bus.accept bsc.slave byte with
      | error reason => exact pending_abort_lt hactive reason
      | ok slave =>
        simp only [Bsc.pending, hphase, hfifo, List.length_cons]
        omega

/-- A step of one that waits changes nothing. -/
theorem step_of_not_canMove (hmove : ¬ bsc.CanMove) : bus.step bsc = bsc := by
  unfold Bsc.CanMove at hmove
  push Not at hmove
  obtain ⟨hphase, hleft, hfull⟩ := hmove
  unfold I2cBus.step
  rw [hphase]
  dsimp only
  rw [if_neg hleft]
  split_ifs at hfull ⊢ with hreading
  · exact if_neg (by simpa using hfull)
  · unfold I2cBus.sendByte
    rw [not_not.mp hfull]

theorem pending_step_le (bsc : Bsc σ) : (bus.step bsc).pending ≤ bsc.pending := by
  by_cases hidle : bsc.phase = .idle
  · rw [step_idle bus hidle]
  · by_cases hmove : bsc.CanMove
    · exact (pending_step_lt bus hidle hmove).le
    · rw [step_of_not_canMove bus hmove]

theorem pending_elapse_le (bsc : Bsc σ) : (bus.elapse bsc).pending ≤ bsc.pending :=
  elapse_of_invariant bus (fun reached ↦ (pending_step_le bus reached).trans)
    (fun _ _ hle ↦ hle) (le_refl bsc.pending)

/-- What is left to do, with the bytes the program has not moved yet, and how long the controller
may still do nothing. -/
def I2cBus.outstanding (unmoved : ℕ) (bsc : Bsc σ) : ℕ × ℕ :=
  (2 * unmoved + bsc.pending, wait bus.fair bsc.accesses)

/-- Before each access there is progress, or time goes by. -/
theorem outstanding_elapse_lt (hactive : bsc.phase ≠ .idle) (hmove : bsc.CanMove) (unmoved : ℕ) :
    Prod.Lex (· < ·) (· < ·) (bus.outstanding unmoved (bus.elapse bsc))
      (bus.outstanding unmoved bsc) := by
  rcases Nat.eq_zero_or_pos (bus.schedule bsc.accesses) with hzero | hpos
  · have helapse : bus.elapse bsc = { bsc with accesses := bsc.accesses + 1 } := by
      rw [I2cBus.elapse, hzero, Function.iterate_zero_apply]
    rw [helapse]
    exact Prod.Lex.right _ (wait_succ_lt bus.fair hzero)
  · have hless : (bus.elapse bsc).pending < bsc.pending :=
      iterate_lt (pending_step_le bus) (pending_step_lt bus hactive hmove) hpos
    exact Prod.Lex.left _ _ (Nat.add_lt_add_left hless _)

end Progress

/-! ## Registers of a controller at rest -/

section Rest

variable (bus : I2cBus σ) {bsc : Bsc σ}

theorem writeRegister_control_idle (hidle : bsc.phase = .idle) {value : CInt}
    (hstart : ¬ isSet value Bsc.C.ST) :
    bus.writeRegister .C value bsc =
      { bsc with
        enabled := isSet value Bsc.C.I2CEN
        reading := isSet value Bsc.C.READ
        fifo := if isSet value (Bsc.C.CLEAR_1 ||| Bsc.C.CLEAR_2) then [] else bsc.fifo
        accesses := bsc.accesses + 1 } := by
  unfold I2cBus.writeRegister
  rw [bsc_elapse_idle bus hidle]
  exact if_neg fun hboth ↦ hstart hboth.2.1

/-- A change of C that sets no bit to start a transfer. -/
theorem peri_set_bits_idle (hidle : bsc.phase = .idle) {mask : CInt}
    (hmask : mask = Bsc.C.CLEAR_1 ∨ mask = Bsc.S.DONE) :
    ∃ enabled reading, bus.bsc.peri_set_bits .C mask mask bsc =
      { bsc with
        enabled
        reading
        fifo := if mask = Bsc.C.CLEAR_1 then [] else bsc.fifo
        accesses := bsc.accesses + 2 } := by
  let word := (bsc.control &&& ~~~mask) ||| (mask &&& mask)
  have hread : bus.bsc.read .C bsc = (bsc.control, { bsc with accesses := bsc.accesses + 1 }) := by
    change ((bus.elapse bsc).control, bus.elapse bsc) = _
    rw [bsc_elapse_idle bus hidle]
    rfl
  have hstart : ¬ isSet word Bsc.C.ST := by
    dsimp only [word, Bsc.control]
    rcases hmask with rfl | rfl <;> cases bsc.enabled <;> cases bsc.reading <;> decide
  have hclear : isSet word (Bsc.C.CLEAR_1 ||| Bsc.C.CLEAR_2) ↔ mask = Bsc.C.CLEAR_1 := by
    dsimp only [word, Bsc.control]
    rcases hmask with rfl | rfl <;> cases bsc.enabled <;> cases bsc.reading <;> decide
  have hwrite := writeRegister_control_idle bus
    (show ({ bsc with accesses := bsc.accesses + 1 } : Bsc σ).phase = .idle from hidle) hstart
  refine ⟨isSet word Bsc.C.I2CEN, isSet word Bsc.C.READ, ?_⟩
  rw [Peripheral.peri_set_bits, hread]
  refine hwrite.trans ?_
  simp only [hclear]

structure Ready (len dlen : CInt) (before transfer : I2cTransfer (Bsc σ)) : Prop where
  slave : transfer.device.slave = before.device.slave
  memory : transfer.memory = before.memory
  fifo : transfer.device.fifo = []
  idle : transfer.device.phase = .idle
  dlen : transfer.device.dlen = dlen.toNat % 2 ^ 16
  done : transfer.device.done = false
  err : transfer.device.err = false
  clkt : transfer.device.clkt = false
  remaining : transfer.remaining = len
  i : transfer.i = 0
  reason : transfer.reason = .REASON_OK

/-- Whatever the transfers before have left behind is cleared. -/
theorem prepare_ready (len dlen : CInt) {before : I2cTransfer (Bsc σ)}
    (hidle : before.device.phase = .idle) :
    Ready len dlen before (prepare bus.bsc len dlen before) := by
  obtain ⟨enabled, reading, hcleared⟩ := peri_set_bits_idle bus hidle (.inl rfl)
  have hstatus (bsc : Bsc σ) (hbsc : bsc.phase = .idle) :
      bus.bsc.write .S (Bsc.S.CLKT ||| Bsc.S.ERR ||| Bsc.S.DONE) bsc =
        { bsc with done := false, err := false, clkt := false, accesses := bsc.accesses + 1 } := by
    change bus.writeRegister .S _ bsc = _
    unfold I2cBus.writeRegister
    rw [bsc_elapse_idle bus hbsc]
    dsimp only
    rw [decide_eq_true (by decide), decide_eq_true (by decide), decide_eq_true (by decide)]
    simp only [Bool.not_true, Bool.and_false]
  have hlength (bsc : Bsc σ) (hbsc : bsc.phase = .idle) :
      bus.bsc.write .DLEN dlen bsc =
        { bsc with dlen := dlen.toNat % 2 ^ 16, accesses := bsc.accesses + 1 } := by
    change bus.writeRegister .DLEN _ bsc = _
    unfold I2cBus.writeRegister
    rw [bsc_elapse_idle bus hbsc]
  unfold prepare I2cTransfer.setBits I2cTransfer.write
  dsimp only
  rw [hcleared, hstatus _ (by exact hidle), hlength _ (by exact hidle)]
  exact ⟨rfl, rfl, rfl, hidle, rfl, rfl, rfl, rfl, rfl, rfl, rfl⟩

/-- The state behind a read of S. -/
def I2cTransfer.polled (transfer : I2cTransfer (Bsc σ)) : I2cTransfer (Bsc σ) :=
  { transfer with device := bus.elapse transfer.device }

theorem i2c_poll_eq (transfer : I2cTransfer (Bsc σ)) :
    transfer.poll bus.bsc = ((bus.elapse transfer.device).status, transfer.polled bus) := rfl

/-- What the end of a transfer makes of a controller that has finished. -/
structure Concluded (transfer after : I2cTransfer (Bsc σ)) : Prop where
  reason : after.reason = reasonOf transfer.device.verdict transfer.remaining.toNat
  slave : after.device.slave = transfer.device.slave
  memory : after.memory = transfer.memory
  idle : after.device.phase = .idle

theorem conclude_concluded {transfer : I2cTransfer (Bsc σ)}
    (hidle : transfer.device.phase = .idle) (hreason : transfer.reason = .REASON_OK) :
    Concluded transfer (conclude bus.bsc transfer) := by
  have hpoll (reached : I2cTransfer (Bsc σ)) (hreached : reached.device.phase = .idle) :
      reached.poll bus.bsc = (reached.device.status,
        { reached with
          device := { reached.device with accesses := reached.device.accesses + 1 } }) := by
    rw [i2c_poll_eq, I2cTransfer.polled, bsc_elapse_idle bus hreached]
    rfl
  have hend (reached : I2cTransfer (Bsc σ)) (hreached : reached.device.phase = .idle)
      (hslave : reached.device.slave = transfer.device.slave)
      (hmemory : reached.memory = transfer.memory)
      (hcode : reached.reason = reasonOf transfer.device.verdict transfer.remaining.toNat) :
      Concluded transfer (reached.setBits bus.bsc Bsc.S.DONE Bsc.S.DONE) := by
    obtain ⟨enabled, reading, hchanged⟩ := peri_set_bits_idle bus hreached (.inr rfl)
    refine ⟨hcode, ?_, hmemory, ?_⟩
    · change (bus.bsc.peri_set_bits _ _ _ _).slave = _
      rw [hchanged]
      exact hslave
    · change (bus.bsc.peri_set_bits _ _ _ _).phase = _
      rw [hchanged]
      exact hreached
  unfold conclude
  rw [hpoll transfer hidle]
  dsimp only
  by_cases herr : transfer.device.err = true
  · rw [if_pos ((isSet_bsc_err_iff _).mpr herr)]
    refine hend _ hidle rfl rfl ?_
    simp [Bsc.verdict, herr, reasonOf]
  rw [if_neg (mt (isSet_bsc_err_iff _).mp herr), hpoll _ (by exact hidle)]
  dsimp only
  have hflag := isSet_bsc_clkt_iff
    { transfer.device with accesses := transfer.device.accesses + 1 }
  by_cases hclkt : transfer.device.clkt = true
  · rw [if_pos (hflag.mpr hclkt)]
    refine hend _ hidle rfl rfl ?_
    simp [Bsc.verdict, herr, hclkt, reasonOf]
  rw [if_neg (mt hflag.mp hclkt)]
  have hverdict : transfer.device.verdict = none := by
    simp [Bsc.verdict, herr, hclkt]
  by_cases hmissing : transfer.remaining = 0
  · rw [if_neg (not_not.mpr hmissing)]
    refine hend _ hidle rfl rfl ?_
    rw [hverdict, hmissing]
    exact hreason
  · rw [if_pos hmissing]
    refine hend _ hidle rfl rfl ?_
    have hcount : transfer.remaining.toNat ≠ 0 := fun hzero ↦ hmissing (BitVec.eq_of_toNat_eq hzero)
    rw [hverdict, reasonOf, if_pos hcount]

end Rest

end PiFunk.Bcm2835
