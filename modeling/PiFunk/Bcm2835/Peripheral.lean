import PiFunk.Display.Render
import PiFunk.Library.NestedLoop

/-!
# Peripherals behind registers

The library reaches a peripheral by reading and writing words at the addresses of its registers.  A
peripheral is any device that answers such reads and writes; memory barriers have no effect in this
model, and `debug` is off.
-/

namespace PiFunk.Bcm2835

open Display

/-! ## Registers -/

/-- A device behind registers: what a read delivers, and what reads and writes do to it. -/
structure Peripheral (ρ δ : Type*) where
  read : ρ → δ → CInt × δ
  write : ρ → CInt → δ → δ

variable {ρ δ : Type*}

def Peripheral.peri_set_bits (peripheral : Peripheral ρ δ) (paddr : ρ) (value mask : CInt)
    (device : δ) : δ :=
  let (v, device) := peripheral.read paddr device
  peripheral.write paddr ((v &&& ~~~mask) ||| (value &&& mask)) device

def isSet (status mask : CInt) : Prop := status &&& mask ≠ 0

instance (status mask : CInt) : Decidable (isSet status mask) :=
  inferInstanceAs (Decidable (_ ≠ _))

theorem isSet_twoPow_iff (status : CInt) {bit : ℕ} (hbit : bit < 32) :
    isSet status (BitVec.twoPow 32 bit) ↔ status.getLsbD bit = true := by
  rw [isSet, BitVec.and_twoPow]
  cases status.getLsbD bit with
  | false => simp
  | true =>
    have hself : (BitVec.twoPow 32 bit).getLsbD bit = true := by
      simp [hbit]
    have hpositive : BitVec.twoPow 32 bit ≠ 0 := by
      intro hzero
      rw [hzero] at hself
      simp at hself
    simpa using hpositive

theorem getLsbD_flag (condition : Prop) [Decidable condition] (mask : CInt) (bit : ℕ) :
    (if condition then mask else 0).getLsbD bit = (decide condition && mask.getLsbD bit) := by
  split_ifs with hcondition
  · simp [hcondition]
  · simp [hcondition]

/-! ## Logs -/

/-- An access to a register, with the value read or written. -/
inductive Access (ρ : Type*) where
  | readFrom (register : ρ) (value : CInt)
  | writeTo (register : ρ) (value : CInt)

/-- The same device with a log of the accesses. -/
def Peripheral.logged (peripheral : Peripheral ρ δ) : Peripheral ρ (δ × List (Access ρ)) where
  read register device :=
    let (value, next) := peripheral.read register device.1
    (value, (next, device.2 ++ [.readFrom register value]))
  write register value device :=
    (peripheral.write register value device.1, device.2 ++ [.writeTo register value])

section Logs

variable [DecidableEq ρ]

def written (register : ρ) : List (Access ρ) → List CInt :=
  List.filterMap fun
    | .writeTo other value => if other = register then some value else none
    | .readFrom _ _ => none

def fetched (register : ρ) : List (Access ρ) → List Byte :=
  List.filterMap fun
    | .readFrom other value => if other = register then some (toChar value) else none
    | .writeTo _ _ => none

end Logs

/-! ## Buffers -/

/-- The bytes of a buffer. -/
def bytes (memory : ℕ → Byte) (address count : ℕ) : List Byte :=
  (List.range count).map fun i ↦ memory (address + i)

@[simp]
theorem length_bytes (memory : ℕ → Byte) (address count : ℕ) :
    (bytes memory address count).length = count := by
  simp [bytes]

theorem bytes_succ (memory : ℕ → Byte) (address count : ℕ) :
    bytes memory address (count + 1) =
      bytes memory address count ++ [memory (address + count)] := by
  rw [bytes, bytes, List.range_succ, List.map_append]
  rfl

/-- A byte stored behind a buffer makes it longer. -/
theorem bytes_update (memory : ℕ → Byte) (address count : ℕ) (byte : Byte) :
    bytes (Function.update memory (address + count) byte) address (count + 1) =
      bytes memory address count ++ [byte] := by
  rw [bytes_succ, Function.update_self]
  congr 1
  refine List.map_congr_left fun i hi ↦ ?_
  have hless : i < count := List.mem_range.mp hi
  exact Function.update_of_ne (by omega) _ _

end PiFunk.Bcm2835
