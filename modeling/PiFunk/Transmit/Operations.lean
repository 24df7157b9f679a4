import PiFunk.Ask.SendByte
import PiFunk.Clock.Control
import PiFunk.Fm.Ring

/-!
# The transmit operations as steps of a process

A signal can interrupt the program between any two of its steps, so this module lays the transmit
operations out as the steps they perform: stores to peripheral registers, waits, delays and system
calls.  `sendByteAsk`, `setupDMA` and `play_fm` are the programs of the other modules, whose events
are expanded into steps.
-/

namespace PiFunk.Transmit

open FuelLoop

/-- The peripheral registers the program knows how to store to. -/
inductive Register where
  | CM_GP0CTL
  | CM_GP0DIV
  | GPFSEL0
  | DMA_CS
deriving DecidableEq, Repr

/-- One step of the process. -/
inductive Step where
  | store (register : Register) (value : CInt)
  /-- Polling the busy flag of the generator until it has changed. -/
  | awaitBusy
  | delayMicrosecondsHard (howLong : CInt)
  | usleep2 (us : CInt)
  | malloc (size : ℕ)
  | mmap (address : CInt) (length : ℕ)
  /-- A step of `setupDMA` or `play_fm`. -/
  | modulator (event : Fm.Event)
  | exit (status : ℤ)
deriving DecidableEq, Repr

/-- What the process is compiled for and runs on. -/
structure Surroundings (δ : Type*) where
  PAGE_SIZE : ℕ
  /-- What `open ("/dev/mem", …)` returned. -/
  MEM_FD : ℤ
  device : Fm.Device δ

/-- The globals of the transmit operations and the steps of the process so far. -/
structure Process (δ : Type*) where
  gpio_mem : CInt
  gpio_map : CInt
  gpio : CInt
  allof7e : CInt
  j : ℕ
  modulator : Fm.Modulator δ
  steps : List Step

/-- Why the process ended inside an operation. -/
inductive Ended where
  /-- `exit (0)`. -/
  | exit
  | fault (fault : Fm.Fault)
deriving DecidableEq, Repr

abbrev Program (δ : Type*) := FuelLoop.Program Ended (Process δ)

variable {δ : Type*}

/-- The process before its first operation. -/
def Process.initial (fp : δ) : Process δ where
  gpio_mem := 0
  gpio_map := 0
  gpio := 0
  allof7e := 0
  j := 0
  modulator := .initial fp
  steps := []

def Process.perform (process : Process δ) (steps : List Step) : Process δ :=
  { process with steps := process.steps ++ steps }

def BLOCK_SIZE : ℕ := 4 * 1024

def BCM_HOST_GET_PERIPHERAL_SIZE : ℕ := 0x01000000

/-! ## The operations -/

/-- The steps of `carrierhigh` and `carrierlow`. -/
def carrierSteps (setupword : Clock.GPCTL) : List Step :=
  [.store .CM_GP0CTL setupword.word, .awaitBusy]

def carrierhigh : Program δ := fun _ process ↦
  .done (process.perform (carrierSteps Clock.setupwordHigh))

def carrierlow : Program δ := fun _ process ↦
  .done (process.perform (carrierSteps Clock.setupwordLow))

/-- `setup_io ()`, where `malloc` and `mmap` return `memory` and `mapped`.  The scheduler and
`mlockall` calls before it concern no register. -/
def setup_io (surroundings : Surroundings δ) (memory mapped : CInt) : Program δ :=
  fun fuel process ↦
    if surroundings.MEM_FD < 0 then .done process
    else
      let allocated := { process with gpio_mem := memory }.perform
        [.malloc (BLOCK_SIZE + (surroundings.PAGE_SIZE - 1))]
      if allocated.gpio_mem = 0 then .halted .exit allocated
      else
        let rest := allocated.gpio_mem.toNat % surroundings.PAGE_SIZE
        let aligned :=
          if rest ≠ 0 then
            let address := allocated.gpio_mem + BitVec.ofNat 32 (surroundings.PAGE_SIZE - rest)
            { allocated with gpio_mem := address, gpio_map := mapped }.perform
              [.mmap address BLOCK_SIZE]
          else allocated
        if aligned.gpio_map.toInt < 0 then .halted .exit aligned
        else carrierhigh fuel { aligned with gpio := aligned.gpio_map }

/-- `setup_fm ()`, where `mmap` returns `mapped`.  `SETBIT` and `CLRBIT` are expressions without a
store, and the setup word is not used. -/
def setup_fm (mapped : CInt) : Program δ := fun _ process ↦
  let attempted := { process with allof7e := mapped }.perform
    [.mmap 0 BCM_HOST_GET_PERIPHERAL_SIZE]
  if attempted.allof7e.toInt = -1 then .halted .exit attempted else .done attempted

/-- Run a program of the modulator; its events become steps. -/
def runModulator (program : Fm.Program δ) : Program δ := fun fuel process ↦
  (program fuel { process.modulator with trace := [] }).map .fault fun modulator ↦
    { process with modulator }.perform (modulator.trace.map .modulator)

/-- The steps behind an event of the sender. -/
def askSteps : Ask.Event → List Step
  | .carrierhigh => carrierSteps Clock.setupwordHigh
  | .carrierlow => carrierSteps Clock.setupwordLow
  | .delayMicrosecondsHard howLong => [.delayMicrosecondsHard howLong]
  | .usleep2 us => [.usleep2 us]

def sendByteAsk (byte : Byte) (sleep : CInt) : Program δ := fun fuel process ↦
  (Ask.sendByteAsk byte sleep fuel ⟨process.j, []⟩).map Empty.elim fun machine ↦
    { process with j := machine.j }.perform (machine.trace.flatMap askSteps)

def setupDMA : Program δ := runModulator Fm.setupDMA

/-- `modulationfm ()`: `setup_fm`, then `setupDMA` and `play_fm`. -/
def modulationfm (surroundings : Surroundings δ) (mapped : CInt) (session : Fm.Session δ) :
    Program δ := fun fuel process ↦
  (setup_fm mapped fuel process).andThen (runModulator (session.play surroundings.device) fuel)

/-- One call of a transmit operation, with what the system answers to it. -/
inductive Call (δ : Type*) where
  | setup_io (memory mapped : CInt)
  | setupDMA
  | carrierhigh
  | carrierlow
  | sendByteAsk (byte : Byte) (sleep : CInt)
  | modulationfm (mapped : CInt) (session : Fm.Session δ)

def Call.run (surroundings : Surroundings δ) : Call δ → Program δ
  | .setup_io memory mapped => Transmit.setup_io surroundings memory mapped
  | .setupDMA => Transmit.setupDMA
  | .carrierhigh => Transmit.carrierhigh
  | .carrierlow => Transmit.carrierlow
  | .sendByteAsk byte sleep => Transmit.sendByteAsk byte sleep
  | .modulationfm mapped session => Transmit.modulationfm surroundings mapped session

/-- The calls one after another, until one of them ends the process. -/
def runCalls (surroundings : Surroundings δ) (calls : List (Call δ)) : Program δ :=
  fun fuel process ↦
    match calls with
    | [] => .done process
    | call :: rest =>
      (call.run surroundings fuel process).andThen (runCalls surroundings rest fuel)

/-! ## What the steps do to the generator -/

/-- The effect of a step on the registers. -/
def Step.apply (peripherals : Clock.Peripherals) : Step → Clock.Peripherals
  | .store .CM_GP0CTL value =>
    { peripherals with CM_GP0CTL := Clock.storeControl peripherals.CM_GP0CTL value }
  | .store .CM_GP0DIV value => { peripherals with CM_GP0DIV := value }
  | .store .GPFSEL0 value => { peripherals with GPFSEL0 := value }
  | .store .DMA_CS value => { peripherals with DMA_CS := value }
  | _ => peripherals

/-- The steps of the carrier switches have the effect of the calls in the clock model. -/
theorem carrierSteps_apply (peripherals : Clock.Peripherals) :
    (carrierSteps Clock.setupwordHigh).foldl Step.apply peripherals =
        Clock.Call.apply peripherals .carrierhigh ∧
      (carrierSteps Clock.setupwordLow).foldl Step.apply peripherals =
        Clock.Call.apply peripherals .carrierlow :=
  ⟨rfl, rfl⟩

end PiFunk.Transmit
