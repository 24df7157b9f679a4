import PiFunk.Bcm2835.Spi
import PiFunk.Library.FullDuplex
import PiFunk.Library.Schedule

/-!
# The SPI bus

SPI0 behind its registers: two FIFOs on a full-duplex line that shifts at times of its own while the
transfer is active, and the status bits that tell how full the FIFOs are.  A write into a full FIFO
is lost, and so is a read from an empty one.
-/

namespace PiFunk.Bcm2835

open Display FuelLoop FullDuplex Schedule

variable {σ : Type*}

/-- What is on the bus: a slave, the room in each FIFO, and how many bytes are shifted before each
access to a register. -/
structure Bus (σ : Type*) where
  respond : σ → Byte → Byte × σ
  capacity : ℕ
  schedule : ℕ → ℕ
  capacity_pos : 0 < capacity
  fair : Fair schedule

/-- The state of SPI0: the line, the writable bits of CS, and the number of accesses so far.  The
wire is that of the bytes since the FIFOs were cleared. -/
structure Spi0 (σ : Type*) where
  line : Line σ Byte
  control : CInt
  accesses : ℕ

namespace Bus

variable (bus : Bus σ)

/-- The time before an access. -/
def elapse (device : Spi0 σ) : Spi0 σ :=
  { device with
    line :=
      if isSet device.control Cs.TA then
        (shift bus.respond bus.capacity)^[bus.schedule device.accesses] device.line
      else device.line
    accesses := device.accesses + 1 }

/-- The flags of CS that the device computes. -/
def flags (line : Line σ Byte) : CInt :=
  (if line.tx.length < bus.capacity then Cs.TXD else 0) |||
    (if line.rx ≠ [] then Cs.RXD else 0) ||| if line.tx = [] then Cs.DONE else 0

/-- What a read of CS delivers. -/
def status (device : Spi0 σ) : CInt :=
  (device.control &&& ~~~(Cs.TXD ||| Cs.RXD ||| Cs.DONE)) ||| bus.flags device.line

def readRegister (register : SpiRegister) (device : Spi0 σ) : CInt × Spi0 σ :=
  let device := bus.elapse device
  match register, device.line.rx with
  | .CS, _ => (bus.status device, device)
  | .FIFO, [] => (0, device)
  | .FIFO, byte :: rx => (byte.setWidth 32, { device with line := { device.line with rx } })

def writeRegister (register : SpiRegister) (value : CInt) (device : Spi0 σ) : Spi0 σ :=
  let device := bus.elapse device
  match register with
  | .CS =>
    { device with
      control := value &&& ~~~Cs.CLEAR
      line :=
        if isSet value Cs.CLEAR then ⟨[], [], [], device.line.partner⟩ else device.line }
  | .FIFO =>
    if device.line.tx.length < bus.capacity then
      { device with line := push (toChar value) device.line }
    else device

def spi0 : Peripheral SpiRegister (Spi0 σ) where
  read := bus.readRegister
  write := bus.writeRegister

end Bus

/-! ## The bits of CS -/

section Bits

variable (bus : Bus σ) (device : Spi0 σ)

theorem isSet_txd_iff : isSet (bus.status device) Cs.TXD ↔
    device.line.tx.length < bus.capacity := by
  have hmask : Cs.TXD = BitVec.twoPow 32 18 := by decide
  rw [hmask, isSet_twoPow_iff _ (by decide), Bus.status, Bus.flags]
  simp only [BitVec.getLsbD_or, BitVec.getLsbD_and, BitVec.getLsbD_not, getLsbD_flag]
  simp [Cs.TXD, Cs.RXD, Cs.DONE]

theorem isSet_rxd_iff : isSet (bus.status device) Cs.RXD ↔ device.line.rx ≠ [] := by
  have hmask : Cs.RXD = BitVec.twoPow 32 17 := by decide
  rw [hmask, isSet_twoPow_iff _ (by decide), Bus.status, Bus.flags]
  simp only [BitVec.getLsbD_or, BitVec.getLsbD_and, BitVec.getLsbD_not, getLsbD_flag]
  simp [Cs.TXD, Cs.RXD, Cs.DONE]

theorem isSet_done_iff : isSet (bus.status device) Cs.DONE ↔ device.line.tx = [] := by
  have hmask : Cs.DONE = BitVec.twoPow 32 16 := by decide
  rw [hmask, isSet_twoPow_iff _ (by decide), Bus.status, Bus.flags]
  simp only [BitVec.getLsbD_or, BitVec.getLsbD_and, BitVec.getLsbD_not, getLsbD_flag]
  simp [Cs.TXD, Cs.RXD, Cs.DONE]

end Bits

theorem isSet_ta_iff (control : CInt) : isSet control Cs.TA ↔ control.getLsbD 7 = true := by
  have hmask : Cs.TA = BitVec.twoPow 32 7 := by decide
  rw [hmask, isSet_twoPow_iff _ (by decide)]

theorem isSet_clear_iff (control : CInt) :
    isSet control Cs.CLEAR ↔ control.getLsbD 5 = true ∨ control.getLsbD 4 = true := by
  have hmask : Cs.CLEAR = BitVec.twoPow 32 5 ||| BitVec.twoPow 32 4 := by decide
  rw [← isSet_twoPow_iff control (by decide : 5 < 32),
    ← isSet_twoPow_iff control (by decide : 4 < 32), hmask]
  unfold isSet
  rw [← not_and_or, ← not_iff_not, not_not, not_not, BitVec.and_or_distrib_left]
  exact BitVec.or_eq_zero_iff

/-! ## The time between accesses -/

section Elapse

variable (bus : Bus σ) {device : Spi0 σ}

theorem elapse_idle (hidle : ¬ isSet device.control Cs.TA) :
    (bus.elapse device).line = device.line := if_neg hidle

theorem elapse_active (hactive : isSet device.control Cs.TA) :
    (bus.elapse device).line =
      (shift bus.respond bus.capacity)^[bus.schedule device.accesses] device.line := if_pos hactive

theorem elapse_empty (hempty : device.line.tx = []) :
    (bus.elapse device).line = device.line := by
  by_cases hactive : isSet device.control Cs.TA
  · have hfixed : shift bus.respond bus.capacity device.line = device.line := by
      unfold shift
      rw [hempty]
    rw [elapse_active bus hactive]
    exact Function.iterate_fixed hfixed _
  · exact elapse_idle bus hactive

/-- Time neither fills the transmit FIFO nor empties the receive FIFO. -/
theorem elapse_lengths (device : Spi0 σ) :
    (bus.elapse device).line.tx.length ≤ device.line.tx.length ∧
      device.line.rx.length ≤ (bus.elapse device).line.rx.length := by
  by_cases hactive : isSet device.control Cs.TA
  · rw [elapse_active bus hactive]
    exact shift_iterate_lengths _
  · rw [elapse_idle bus hactive]
    exact ⟨le_rfl, le_rfl⟩

end Elapse

/-! ## The changes of CS -/

section Control

variable (bus : Bus σ) {device : Spi0 σ}

/-- CS behind `bcm2835_peri_set_bits`, but for the bits that clear the FIFOs. -/
def Bus.changed (value mask : CInt) (device : Spi0 σ) : CInt :=
  (bus.status (bus.elapse device) &&& ~~~mask) ||| (value &&& mask)

theorem peri_set_bits_control (value mask : CInt) :
    (bus.spi0.peri_set_bits .CS value mask device).control =
      bus.changed value mask device &&& ~~~Cs.CLEAR := rfl

theorem peri_set_bits_line (value mask : CInt) :
    (bus.spi0.peri_set_bits .CS value mask device).line =
      if isSet (bus.changed value mask device) Cs.CLEAR then
        ⟨[], [], [], (bus.elapse (bus.elapse device)).line.partner⟩
      else (bus.elapse (bus.elapse device)).line := rfl

/-- The bits that the device does not compute are read as they were written. -/
theorem getLsbD_status {bit : ℕ} (hbit : bit < 16) :
    (bus.status (bus.elapse device)).getLsbD bit = device.control.getLsbD bit := by
  have hlow (mask : CInt) (hmask : mask = Cs.TXD ∨ mask = Cs.RXD ∨ mask = Cs.DONE) :
      mask.getLsbD bit = false := by
    rcases hmask with rfl | rfl | rfl
    all_goals
      revert bit
      decide
  have hwide : bit < 32 := hbit.trans (by decide)
  rw [Bus.status, Bus.flags]
  simp only [BitVec.getLsbD_or, BitVec.getLsbD_and, BitVec.getLsbD_not, getLsbD_flag,
    hlow Cs.TXD (.inl rfl), hlow Cs.RXD (.inr (.inl rfl)), hlow Cs.DONE (.inr (.inr rfl)),
    Bool.and_false, Bool.or_false, Bool.not_false, Bool.and_true, hwide, decide_true]
  rfl

theorem getLsbD_changed (value mask : CInt) {bit : ℕ} (hbit : bit < 16) :
    (bus.changed value mask device).getLsbD bit =
      if mask.getLsbD bit = true then value.getLsbD bit else device.control.getLsbD bit := by
  have hwide : bit < 32 := hbit.trans (by decide)
  rw [Bus.changed, BitVec.getLsbD_or, BitVec.getLsbD_and, BitVec.getLsbD_and, BitVec.getLsbD_not,
    getLsbD_status bus hbit]
  cases mask.getLsbD bit <;> simp [hwide]

theorem isSet_clear_changed_iff (value : CInt) {mask : CInt} (hmask : ¬ isSet mask Cs.CLEAR) :
    isSet (bus.changed value mask device) Cs.CLEAR ↔ isSet device.control Cs.CLEAR := by
  rw [isSet_clear_iff, not_or] at hmask
  rw [isSet_clear_iff, isSet_clear_iff, getLsbD_changed bus value mask (by decide),
    getLsbD_changed bus value mask (by decide), if_neg hmask.1, if_neg hmask.2]

theorem not_isSet_clear (value mask : CInt) :
    ¬ isSet (bus.spi0.peri_set_bits .CS value mask device).control Cs.CLEAR := by
  rw [peri_set_bits_control, isSet_clear_iff]
  simp [Cs.CLEAR]

theorem isSet_ta_control_iff (value mask : CInt) :
    isSet (bus.spi0.peri_set_bits .CS value mask device).control Cs.TA ↔
      if isSet mask Cs.TA then isSet value Cs.TA else isSet device.control Cs.TA := by
  have hkept : (~~~Cs.CLEAR).getLsbD 7 = true := by decide
  simp only [peri_set_bits_control, isSet_ta_iff, BitVec.getLsbD_and, hkept, Bool.and_true,
    getLsbD_changed bus value mask (by decide : 7 < 16)]
  split_ifs <;> rfl

end Control

end PiFunk.Bcm2835
