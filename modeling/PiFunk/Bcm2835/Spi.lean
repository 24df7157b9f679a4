import PiFunk.Bcm2835.Peripheral

/-!
# Transfers over SPI

`bcm2835_spi_transfernb` sends a buffer and receives as many bytes into another one.  It polls the
control and status register CS: as long as the transmit FIFO can accept data it writes, as long as
the receive FIFO contains data it reads, and it goes round until both counts have reached the
length.  `bcm2835_spi_transfern` uses one buffer for both.

The peripheral is any device that answers reads and writes of its registers.
-/

namespace PiFunk.Bcm2835

open Display FuelLoop

variable {δ : Type*}

/-! ## Registers -/

/-- The registers of SPI0 that a transfer uses. -/
inductive SpiRegister where
  | CS
  | FIFO
deriving DecidableEq, Repr

namespace Cs

/-- TX FIFO can accept data. -/
def TXD : CInt := 0x00040000

/-- RX FIFO contains data. -/
def RXD : CInt := 0x00020000

/-- Transfer done. -/
def DONE : CInt := 0x00010000

/-- Transfer active. -/
def TA : CInt := 0x00000080

/-- Clear RX and TX. -/
def CLEAR : CInt := 0x00000030

end Cs

/-! ## The transfer -/

/-- The device, the memory, and the counters of `bcm2835_spi_transfernb`. -/
structure Transfer (δ : Type*) where
  device : δ
  memory : ℕ → Byte
  TXCnt : ℕ
  RXCnt : ℕ

variable (signedness : Signedness) (peripheral : Peripheral SpiRegister δ) (tbuf rbuf len : ℕ)

/-- One read of CS. -/
def poll (transfer : Transfer δ) : CInt × Transfer δ :=
  let (status, device) := peripheral.read .CS transfer.device
  (status, { transfer with device })

/-- Write `tbuf[TXCnt]` into the FIFO. -/
def send (transfer : Transfer δ) : Transfer δ :=
  { transfer with
    device := peripheral.write .FIFO
      (promote signedness (transfer.memory (tbuf + transfer.TXCnt))) transfer.device
    TXCnt := transfer.TXCnt + 1 }

/-- Read `rbuf[RXCnt]` from the FIFO. -/
def receive (transfer : Transfer δ) : Transfer δ :=
  let (value, device) := peripheral.read .FIFO transfer.device
  { transfer with
    device
    memory := Function.update transfer.memory (rbuf + transfer.RXCnt) (toChar value)
    RXCnt := transfer.RXCnt + 1 }

/-- TX FIFO not full, so add some more bytes. -/
def sendIteration (transfer : Transfer δ) : Iteration Empty (Transfer δ) :=
  let (status, polled) := poll peripheral transfer
  if isSet status Cs.TXD ∧ polled.TXCnt < len then .again (send signedness peripheral tbuf polled)
  else .exit polled

/-- RX FIFO not empty, so get the next received bytes. -/
def receiveIteration (transfer : Transfer δ) : Iteration Empty (Transfer δ) :=
  let (status, polled) := poll peripheral transfer
  if isSet status Cs.RXD ∧ polled.RXCnt < len then .again (receive peripheral rbuf polled)
  else .exit polled

/-- The body of the outer loop. -/
def exchangeRound : Program Empty (Transfer δ) := fun fuel transfer ↦
  (loop (sendIteration signedness peripheral tbuf len) fuel transfer).andThen
    (loop (receiveIteration peripheral rbuf len) fuel)

def exchangeLoop : Program Empty (Transfer δ) := fun fuel ↦
  whileLoop (fun transfer ↦ transfer.TXCnt < len || transfer.RXCnt < len)
    (exchangeRound signedness peripheral tbuf rbuf len fuel) fuel

/-- Wait for DONE to be set. -/
def awaitDone : Program Empty (Transfer δ) :=
  loop fun transfer ↦
    let (status, polled) := poll peripheral transfer
    if isSet status Cs.DONE then .exit polled else .again polled

/-- Clear the FIFOs and set TA. -/
def activate (transfer : Transfer δ) : Transfer δ :=
  { transfer with
    device := peripheral.peri_set_bits .CS Cs.TA Cs.TA
      (peripheral.peri_set_bits .CS Cs.CLEAR Cs.CLEAR transfer.device)
    TXCnt := 0
    RXCnt := 0 }

/-- Set TA to 0. -/
def deactivate (transfer : Transfer δ) : Transfer δ :=
  { transfer with device := peripheral.peri_set_bits .CS 0 Cs.TA transfer.device }

def spi_transfernb : Program Empty (Transfer δ) := fun fuel transfer ↦
  ((exchangeLoop signedness peripheral tbuf rbuf len fuel (activate peripheral transfer)).andThen
    (awaitDone peripheral fuel)).andThen fun final ↦ .done (deactivate peripheral final)

/-- Read bytes are copied over onto the transmit buffer. -/
def spi_transfern (buf len : ℕ) : Program Empty (Transfer δ) :=
  spi_transfernb signedness peripheral buf buf len

end PiFunk.Bcm2835
