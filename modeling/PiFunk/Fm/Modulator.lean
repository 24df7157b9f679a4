import PiFunk.Fm.Sample
import PiFunk.Library.CyclicPointer
import PiFunk.Library.Loop

/-!
# The frequency modulator

`setupDMA` installs the signal handlers and counts the instruction slots of the DMA ring, and
`play_fm` reads a file and hands one sample after another to the ring.  The file descriptor is a
device that answers `lseek` and `read`; the wait for the DMA engine and the delays are events that
return.

`play_fm` compares what `read` returns with the global `readBytes`, which nothing assigns, so the
loop body runs exactly for the reads that deliver no byte.
-/

namespace PiFunk.Fm

open FuelLoop CyclicPointer

/-- The signals `setupDMA` handles. -/
inductive Signal where
  | SIGINT
  | SIGTERM
  | SIGHUP
  | SIGQUIT
deriving DecidableEq, Repr

/-- The calls by which the modulator acts on its surroundings. -/
inductive Event where
  /-- `signal (number, handSig)`. -/
  | signal (number : Signal)
  | lseek
  | malloc (size : ℤ)
  | read (size : ℕ)
  /-- The loop that waits until the DMA engine has left the slot. -/
  | awaitDma (slot : ℕ)
  | usleep2 (us : CInt)
  | close
deriving DecidableEq, Repr

/-- An open file: where `lseek (fp, 0L, SEEK_END)` ends up, and what a `read` of at most the given
size delivers, if it does not fail. -/
structure Device (δ : Type*) where
  lseekEnd : δ → ℤ × δ
  read : ℕ → δ → Option (List Byte) × δ

/-- The value `read` returns. -/
def readCount : Option (List Byte) → ℤ
  | some bytes => bytes.length
  | none => -1

/-- The global `int readBytes`: it is zero at the start and nothing assigns it. -/
def readBytes : ℤ := 0

def BUFFERINSTRUCTIONS : ℕ := 65536

/-- `sizeof (struct CB)`: eight words. -/
def sizeofCB : ℕ := 8 * 4

/-- What one iteration of the read loop computes, and the slots of `instrs` it uses. -/
structure Processed where
  /-- `bufPtr` at the start of the iteration. -/
  start : ℕ
  /-- `bufPtr` after each of the three increments behind which a command uses `instrs`. -/
  uses : List ℕ
  /-- `instrCnt` during the iteration. -/
  slots : ℕ
  sample : BitVec 16
  dataold : ℚ
  datanew : ℚ
  clocksPerSample : ℤ
  /-- `intval` and `fracval`, where the filter has a value. -/
  timing : Option (ℤ × ℤ)
deriving DecidableEq

/-- The globals of the modulator, the buffer `data`, the events and the processed samples. -/
structure Modulator (δ : Type*) where
  fp : δ
  freq : ℚ
  samplerate : ℤ
  data : ℕ → Byte
  datanew : ℚ
  dataold : ℚ
  instrCnt : ℕ
  bufPtr : ℕ
  trace : List Event
  processed : List Processed

/-- Dividing by a sample rate of zero ends the process. -/
inductive Fault where
  | divisionByZero
deriving DecidableEq, Repr

variable {δ : Type*}

abbrev Program (δ : Type*) := FuelLoop.Program Fault (Modulator δ)

namespace Modulator

/-- The globals before anything is assigned. -/
def initial (fp : δ) : Modulator δ where
  fp
  freq := 0
  samplerate := 0
  data := fun _ ↦ 0
  datanew := 0
  dataold := 0
  instrCnt := 0
  bufPtr := 0
  trace := []
  processed := []

def emit (modulator : Modulator δ) (events : List Event) : Modulator δ :=
  { modulator with trace := modulator.trace ++ events }

def incrementInstrCnt (modulator : Modulator δ) : Modulator δ :=
  { modulator with instrCnt := modulator.instrCnt + 1 }

/-- `*data`: two bytes, the lower one first. -/
def sample (modulator : Modulator δ) : BitVec 16 := modulator.data 1 ++ modulator.data 0

end Modulator

/-- The memory behind `data` after a `read` into it. -/
def fill (data : ℕ → Byte) (answer : Option (List Byte)) : ℕ → Byte := fun position ↦
  (answer.getD [])[position]?.getD (data position)

def setupDMA : Program δ := fun fuel modulator ↦
  let _centerFreqDivider := centerFreqDivider modulator.freq
  whileLoop (fun m ↦ m.instrCnt < 1024)
    (fun m ↦ .done (Modulator.incrementInstrCnt^[4096 / sizeofCB] m)) fuel
    (modulator.emit [.signal .SIGINT, .signal .SIGTERM, .signal .SIGHUP, .signal .SIGQUIT])

/-- A `read` of `size` bytes into `data`. -/
def readData (device : Device δ) (size : ℕ) (modulator : Modulator δ) : Modulator δ :=
  let (answer, fp) := device.read size modulator.fp
  { modulator with
    fp, data := fill modulator.data answer, trace := modulator.trace ++ [.read size] }

/-- The body of the read loop behind its first division. -/
def process (modulator : Modulator δ) : Modulator δ :=
  let clocks := clocksPerSample modulator.samplerate
  let datanew := scaled modulator.sample
  let timing := (preemphasis modulator.samplerate modulator.dataold datanew).map fun sample ↦
    (intval (dval sample), fracval clocks (dval sample))
  let first := modulator.bufPtr + 1
  let second := first + 1
  let third := second + 1
  { modulator with
    datanew
    dataold := datanew
    bufPtr := (third + 1) % BUFFERINSTRUCTIONS
    trace := modulator.trace ++ [.awaitDma first, .usleep2 1000]
    processed := modulator.processed ++ [{
      start := modulator.bufPtr, uses := [first, second, third], slots := modulator.instrCnt,
      sample := modulator.sample, dataold := modulator.dataold, datanew,
      clocksPerSample := clocks, timing }] }

/-- One iteration of `while (readBytes == read (fp, &data, 1024))`. -/
def playIteration (device : Device δ) (modulator : Modulator δ) :
    Iteration Fault (Modulator δ) :=
  let filled := readData device 1024 modulator
  if readBytes = readCount (device.read 1024 modulator.fp).1 then
    if filled.samplerate = 0 then .halted .divisionByZero filled else .again (process filled)
  else .exit filled

/-- The start of `play_fm`: the size of the file, the buffer, and 22 reads past the header.  `heap`
is what the memory from `malloc` contains. -/
def skipHeader (device : Device δ) (heap : ℕ → Byte) (modulator : Modulator δ) : Modulator δ :=
  let (sz, fp) := device.lseekEnd modulator.fp
  (readData device 2)^[22] { modulator with
    fp, data := heap, trace := modulator.trace ++ [.lseek, .malloc sz] }

def play_fm (device : Device δ) (heap : ℕ → Byte) : Program δ := fun fuel modulator ↦
  (loop (playIteration device) fuel (skipHeader device heap modulator)).andThen fun m ↦
    .done (m.emit [.close])

/-! ## What the parts keep -/

section Parts

variable (device : Device δ) (size count : ℕ) (modulator : Modulator δ)

@[simp]
theorem incrementInstrCnt_iterate :
    Modulator.incrementInstrCnt^[count] modulator =
      { modulator with instrCnt := modulator.instrCnt + count } := by
  induction count with
  | zero => rfl
  | succ count ih => rw [Function.iterate_succ_apply', ih]; rfl

@[simp]
theorem readData_samplerate : (readData device size modulator).samplerate = modulator.samplerate :=
  rfl

/-- Repeated reads move the descriptor and change nothing else but the buffer and the trace. -/
theorem readData_iterate_fp : ((readData device size)^[count] modulator).fp =
    (fun fp ↦ (device.read size fp).2)^[count] modulator.fp := by
  have hsemiconj : Function.Semiconj Modulator.fp (readData device size)
      (fun fp ↦ (device.read size fp).2) := fun _ ↦ rfl
  exact (hsemiconj.iterate_right count).eq modulator

/-- The four increments are one step of a cyclic pointer. -/
@[simp]
theorem process_bufPtr :
    (process modulator).bufPtr = advance 4 BUFFERINSTRUCTIONS modulator.bufPtr := rfl

end Parts

/-- The pages `setupDMA` counts: 128 control blocks fit into one. -/
theorem page_iterate (count : ℕ) (modulator : Modulator δ) :
    (Modulator.incrementInstrCnt^[4096 / sizeofCB])^[count] modulator =
      { modulator with instrCnt := modulator.instrCnt + 128 * count } := by
  rw [← Function.iterate_mul, incrementInstrCnt_iterate]
  rfl

/-- The state `setupDMA` leaves: the handlers are installed and all slots are counted. -/
def Modulator.setUp (modulator : Modulator δ) : Modulator δ :=
  { modulator with
    instrCnt := 1024
    trace := modulator.trace ++
      [.signal .SIGINT, .signal .SIGTERM, .signal .SIGHUP, .signal .SIGQUIT] }

/-- `setupDMA` returns: it counts the slots up to 1024, unless an earlier call has done so. -/
theorem setupDMA_eq (modulator : Modulator δ) {fuel : ℕ} (hfuel : 8 < fuel)
    (hcount : modulator.instrCnt = 0 ∨ modulator.instrCnt = 1024) :
    setupDMA fuel modulator = .done modulator.setUp := by
  obtain ⟨pages, hpages⟩ : ∃ pages, pages ≤ 8 ∧ modulator.instrCnt + 128 * pages = 1024 := by
    cases hcount with
    | inl hzero => exact ⟨8, le_rfl, by rw [hzero]⟩
    | inr hfull => exact ⟨0, Nat.zero_le 8, by rw [hfull]⟩
  refine (loop_eq_of_count (Modulator.incrementInstrCnt^[4096 / sizeofCB]) pages _ _ ?_ ?_
    fuel).trans (if_pos (hpages.1.trans_lt hfuel))
  · intro k hk
    rw [Function.iterate_succ_apply', page_iterate]
    refine whileIteration_of_done (decide_eq_true ?_) rfl
    simp only [Modulator.emit]
    omega
  · rw [page_iterate]
    simp only [Modulator.emit, hpages.2]
    exact whileIteration_of_false (decide_eq_false (lt_irrefl 1024))

theorem playIteration_of_zero {device : Device δ} {modulator : Modulator δ}
    (hzero : readCount (device.read 1024 modulator.fp).1 = 0)
    (hrate : modulator.samplerate ≠ 0) :
    playIteration device modulator = .again (process (readData device 1024 modulator)) := by
  unfold playIteration
  simp only [readBytes, hzero, readData_samplerate, if_true]
  exact if_neg hrate

theorem playIteration_of_ne_zero {device : Device δ} {modulator : Modulator δ}
    (hcount : readCount (device.read 1024 modulator.fp).1 ≠ 0) :
    playIteration device modulator = .exit (readData device 1024 modulator) := by
  unfold playIteration
  exact if_neg hcount.symm

theorem playIteration_of_fault {device : Device δ} {modulator : Modulator δ}
    (hzero : readCount (device.read 1024 modulator.fp).1 = 0)
    (hrate : modulator.samplerate = 0) :
    playIteration device modulator =
      .halted .divisionByZero (readData device 1024 modulator) := by
  unfold playIteration
  simp only [readBytes, hzero, readData_samplerate, if_true]
  exact if_pos hrate

end PiFunk.Fm
