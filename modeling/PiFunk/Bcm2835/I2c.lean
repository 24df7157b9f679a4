import PiFunk.Bcm2835.Peripheral

/-!
# Transfers over I2C

`bcm2835_i2c_write` fills the FIFO of the controller, starts it, and goes on filling until the
status register says DONE; `bcm2835_i2c_read` starts it and empties the FIFO until then, and once
more afterwards.  Both return a reason made from the flags ERR and CLKT, and from the number of
bytes that are left.  The functions that write before they read, with a repeated start, read in the
same way but for one comparison.
-/

namespace PiFunk.Bcm2835

open Display FuelLoop

variable {δ : Type*}

/-! ## Registers -/

inductive BscRegister where
  | C
  | S
  | DLEN
  | FIFO
deriving DecidableEq, Repr

namespace Bsc.C

/-- I2C enable. -/
def I2CEN : CInt := 0x00008000

/-- Start transfer. -/
def ST : CInt := 0x00000080

/-- Clear the FIFO. -/
def CLEAR_1 : CInt := 0x00000020

/-- Clear the FIFO. -/
def CLEAR_2 : CInt := 0x00000010

/-- Read transfer. -/
def READ : CInt := 0x00000001

end Bsc.C

namespace Bsc.S

/-- Clock stretch timeout. -/
def CLKT : CInt := 0x00000200

/-- ACK error. -/
def ERR : CInt := 0x00000100

/-- FIFO contains data. -/
def RXD : CInt := 0x00000020

/-- FIFO can accept data. -/
def TXD : CInt := 0x00000010

/-- Transfer done. -/
def DONE : CInt := 0x00000002

/-- Transfer active. -/
def TA : CInt := 0x00000001

end Bsc.S

def BSC_FIFO_SIZE : ℕ := 16

inductive I2CReasonCodes where
  | REASON_OK
  | REASON_ERROR_NACK
  | REASON_ERROR_CLKT
  | REASON_ERROR_DATA
deriving DecidableEq, Repr

/-! ## The parts of a transfer -/

/-- The device, the memory, and the variables of a transfer. -/
structure I2cTransfer (δ : Type*) where
  device : δ
  memory : ℕ → Byte
  remaining : CInt
  i : CInt
  reason : I2CReasonCodes

section Parts

variable (signedness : Signedness) (peripheral : Peripheral BscRegister δ) (buf : ℕ)

/-- A write into a register. -/
def I2cTransfer.write (register : BscRegister) (value : CInt) (transfer : I2cTransfer δ) :
    I2cTransfer δ :=
  { transfer with device := peripheral.write register value transfer.device }

/-- A read of S. -/
def I2cTransfer.poll (transfer : I2cTransfer δ) : CInt × I2cTransfer δ :=
  let (status, device) := peripheral.read .S transfer.device
  (status, { transfer with device })

/-- `bcm2835_peri_set_bits` on C. -/
def I2cTransfer.setBits (value mask : CInt) (transfer : I2cTransfer δ) : I2cTransfer δ :=
  { transfer with device := peripheral.peri_set_bits .C value mask transfer.device }

/-- Write `buf[i]` into the FIFO. -/
def I2cTransfer.put (transfer : I2cTransfer δ) : I2cTransfer δ :=
  { transfer with
    device := peripheral.write .FIFO
      (promote signedness (transfer.memory (buf + transfer.i.toNat))) transfer.device
    i := transfer.i + 1
    remaining := transfer.remaining - 1 }

/-- Read `buf[i]` from the FIFO. -/
def I2cTransfer.get (transfer : I2cTransfer δ) : I2cTransfer δ :=
  let (value, device) := peripheral.read .FIFO transfer.device
  { transfer with
    device
    memory := Function.update transfer.memory (buf + transfer.i.toNat) (toChar value)
    i := transfer.i + 1
    remaining := transfer.remaining - 1 }

/-- Clear the FIFO and the status, and set the data length. -/
def prepare (len dlen : CInt) (transfer : I2cTransfer δ) : I2cTransfer δ :=
  let transfer := { transfer with remaining := len, i := 0, reason := .REASON_OK }
  let transfer := transfer.setBits peripheral Bsc.C.CLEAR_1 Bsc.C.CLEAR_1
  let transfer := transfer.write peripheral .S (Bsc.S.CLKT ||| Bsc.S.ERR ||| Bsc.S.DONE)
  transfer.write peripheral .DLEN dlen

/-- Pre populate the FIFO with max buffer. -/
def populate : Program Empty (I2cTransfer δ) :=
  whileLoop (fun transfer ↦ transfer.remaining ≠ 0 ∧ transfer.i.toNat < BSC_FIFO_SIZE)
    fun transfer ↦ .done (transfer.put signedness peripheral buf)

/-- Write as long as the FIFO can accept data. -/
def feed : Program Empty (I2cTransfer δ) := loop fun transfer ↦
  if transfer.remaining ≠ 0 then
    let (status, polled) := transfer.poll peripheral
    if isSet status Bsc.S.TXD then .again (polled.put signedness peripheral buf) else .exit polled
  else .exit transfer

/-- Read as long as the FIFO contains data, and, where this is `guarded`, as long as bytes are left
to read. -/
def drain (guarded : Bool) : Program Empty (I2cTransfer δ) := loop fun transfer ↦
  if guarded ∧ transfer.remaining = 0 then .exit transfer
  else
    let (status, polled) := transfer.poll peripheral
    if isSet status Bsc.S.RXD then .again (polled.get peripheral buf) else .exit polled

def untilDone (body : Program Empty (I2cTransfer δ)) : Program Empty (I2cTransfer δ) :=
  fun fuel ↦ loop (fun transfer ↦
    let (status, polled) := transfer.poll peripheral
    if isSet status Bsc.S.DONE then .exit polled else (body fuel polled).again) fuel

/-- The reason, and the last access. -/
def conclude (transfer : I2cTransfer δ) : I2cTransfer δ :=
  let (status, transfer) := transfer.poll peripheral
  let transfer :=
    if isSet status Bsc.S.ERR then { transfer with reason := .REASON_ERROR_NACK }
    else
      let (status, transfer) := transfer.poll peripheral
      if isSet status Bsc.S.CLKT then { transfer with reason := .REASON_ERROR_CLKT }
      else if transfer.remaining ≠ 0 then { transfer with reason := .REASON_ERROR_DATA }
      else transfer
  transfer.setBits peripheral Bsc.S.DONE Bsc.S.DONE

/-- Empty the FIFO until the transfer is done, grab any remaining stuff in it, and conclude. -/
def collect (guarded : Bool) : Program Empty (I2cTransfer δ) := fun fuel transfer ↦
  ((untilDone peripheral (drain peripheral buf guarded) fuel transfer).andThen
    (drain peripheral buf true fuel)).andThen fun transfer ↦ .done (conclude peripheral transfer)

end Parts

/-! ## The transfers -/

section Transfers

variable (signedness : Signedness) (peripheral : Peripheral BscRegister δ)

def i2c_write (buf : ℕ) (len : CInt) : Program Empty (I2cTransfer δ) := fun fuel transfer ↦
  (((populate signedness peripheral buf fuel (prepare peripheral len len transfer)).andThen
    fun transfer ↦ .done (transfer.write peripheral .C (Bsc.C.I2CEN ||| Bsc.C.ST))).andThen
      (untilDone peripheral (feed signedness peripheral buf) fuel)).andThen
    fun transfer ↦ .done (conclude peripheral transfer)

def i2c_read (buf : ℕ) (len : CInt) : Program Empty (I2cTransfer δ) := fun fuel transfer ↦
  collect peripheral buf false fuel
    ((prepare peripheral len len transfer).write peripheral .C
      (Bsc.C.I2CEN ||| Bsc.C.ST ||| Bsc.C.READ))

/-- Poll until the transfer has started, or is over already. -/
def awaitStart : Program Empty (I2cTransfer δ) := loop fun transfer ↦
  let (status, polled) := transfer.poll peripheral
  if isSet status Bsc.S.TA then .exit polled
  else
    let (status, again) := polled.poll peripheral
    if isSet status Bsc.S.DONE then .exit again else .again again

/-- The repeated start with the read bit, and the delay behind it. -/
def restart (delay : δ → δ) (len : CInt) (transfer : I2cTransfer δ) : I2cTransfer δ :=
  let transfer := transfer.write peripheral .DLEN len
  let transfer := transfer.write peripheral .C (Bsc.C.I2CEN ||| Bsc.C.ST ||| Bsc.C.READ)
  { transfer with device := delay transfer.device }

def i2c_read_register_rs (delay : δ → δ) (regaddr buf : ℕ) (len : CInt) :
    Program Empty (I2cTransfer δ) := fun fuel transfer ↦
  let transfer := prepare peripheral len 1 transfer
  let transfer := transfer.write peripheral .C Bsc.C.I2CEN
  let transfer := transfer.write peripheral .FIFO (promote signedness (transfer.memory regaddr))
  let transfer := transfer.write peripheral .C (Bsc.C.I2CEN ||| Bsc.C.ST)
  ((awaitStart peripheral fuel transfer).andThen fun transfer ↦
    .done (restart peripheral delay len transfer)).andThen (collect peripheral buf true fuel)

def i2c_write_read_rs (delay : δ → δ) (cmds : ℕ) (cmds_len : CInt) (buf : ℕ) (buf_len : CInt) :
    Program Empty (I2cTransfer δ) := fun fuel transfer ↦
  (((populate signedness peripheral cmds fuel
      (prepare peripheral cmds_len cmds_len transfer)).andThen fun transfer ↦
        awaitStart peripheral fuel
          (transfer.write peripheral .C (Bsc.C.I2CEN ||| Bsc.C.ST))).andThen fun transfer ↦
      .done (restart peripheral delay buf_len
        { transfer with remaining := buf_len, i := 0 })).andThen
    (collect peripheral buf true fuel)

end Transfers

theorem counts_succ {len i remaining : CInt} (hcounts : i.toNat + remaining.toNat = len.toNat)
    (hmore : remaining ≠ 0) :
    (i + 1).toNat = i.toNat + 1 ∧ (remaining - 1).toNat + 1 = remaining.toNat := by
  have hpositive : remaining.toNat ≠ 0 := fun hzero ↦ hmore (BitVec.eq_of_toNat_eq hzero)
  have hlen := len.isLt
  have hone : (1 : CInt).toNat = 1 := rfl
  rw [BitVec.toNat_add, BitVec.toNat_sub, hone]
  omega

end PiFunk.Bcm2835
