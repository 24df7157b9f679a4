import PiFunk.Transmit.Operations

/-!
# The block that `setup_io` maps

`setup_io` allocates a block and the room to move it up to the next page, and maps the registers
over it.  The mapping is made only where the block has to be moved, and `PAGE_SIZE`, by which it is
moved, is 1024 on all targets but the last, while the boundary that `MAP_FIXED` needs is 4096.
-/

namespace PiFunk.Transmit

open FuelLoop

/-- The targets with a page size of their own. -/
inductive Target where
  | RASPI1
  | RASPI2
  | RASPI3
  | RASPI4
deriving DecidableEq, Repr

def Target.PAGE_SIZE : Target → ℕ
  | .RASPI1 => 1024
  | .RASPI2 => 1024
  | .RASPI3 => 1024
  | .RASPI4 => 4096

/-- The size `setup_io` asks `malloc` for. -/
def Target.mallocSize (target : Target) : ℕ := BLOCK_SIZE + (target.PAGE_SIZE - 1)

/-- What `malloc` returns when it does not fail: the block does not wrap around. -/
structure Allocation (target : Target) where
  address : CInt
  nonnull : address ≠ 0
  fits : address.toNat + target.mallocSize ≤ 2 ^ 32

/-- `mmap` with `MAP_FIXED`: the address itself if that is on a 4K boundary and the mapping is
granted, and else `MAP_FAILED`. -/
def mmapFixed (granted : Bool) (address : CInt) : CInt :=
  if granted && address.toNat % 4096 == 0 then address else -1

/-- The address `setup_io` passes to `mmap`. -/
def blockAddress (target : Target) (memory : CInt) : CInt :=
  memory + BitVec.ofNat 32 (target.PAGE_SIZE - memory.toNat % target.PAGE_SIZE)

variable {δ : Type*}

/-- `setup_io` on a target, with `/dev/mem` open. -/
def setupTarget (target : Target) (fd : ℕ) (device : Fm.Device δ) (granted : Bool)
    (memory : CInt) : Program δ :=
  setup_io ⟨target.PAGE_SIZE, fd, device⟩ memory (mmapFixed granted (blockAddress target memory))

/-- The address and the length of an `mmap`. -/
def Step.mapping? : Step → Option (CInt × ℕ)
  | .mmap address length => some (address, length)
  | _ => none

/-- The mappings that have been made. -/
def mappings (steps : List Step) : List (CInt × ℕ) := steps.filterMap Step.mapping?

/-- One mapping more has been made, on a 4K boundary inside the allocated block, and `gpio` points
to it. -/
structure MapsBlock (target : Target) (allocation : Allocation target) (before after : Process δ)
    (address : CInt) : Prop where
  once : mappings after.steps = mappings before.steps ++ [(address, BLOCK_SIZE)]
  aligned : address.toNat % 4096 = 0
  lower : allocation.address.toNat ≤ address.toNat
  upper : address.toNat + BLOCK_SIZE ≤ allocation.address.toNat + target.mallocSize
  gpio : after.gpio = address

/-- `setup_io` returns after it has mapped the block so. -/
def MapsBoundary (target : Target) (allocation : Allocation target) (fd : ℕ)
    (device : Fm.Device δ) (granted : Bool) (fuel : ℕ) (process : Process δ) : Prop :=
  ∃ after address,
    setupTarget target fd device granted allocation.address fuel process = .done after ∧
      MapsBlock target allocation process after address

/-! ## The address -/

section Address

variable {target : Target} (allocation : Allocation target)

/-- The next page starts inside the allocated block. -/
theorem toNat_blockAddress (hrest : allocation.address.toNat % target.PAGE_SIZE ≠ 0) :
    (blockAddress target allocation.address).toNat = allocation.address.toNat +
      (target.PAGE_SIZE - allocation.address.toNat % target.PAGE_SIZE) := by
  have hfits := allocation.fits
  rw [blockAddress, BitVec.toNat_add, BitVec.toNat_ofNat]
  cases target <;> simp only [Target.mallocSize, Target.PAGE_SIZE, BLOCK_SIZE] at hrest hfits ⊢ <;>
    omega

/-- It is a 4K boundary exactly when it is the first page behind one. -/
theorem blockAddress_aligned_iff (hrest : allocation.address.toNat % target.PAGE_SIZE ≠ 0) :
    (blockAddress target allocation.address).toNat % 4096 = 0 ↔
      4096 - target.PAGE_SIZE < allocation.address.toNat % 4096 := by
  rw [toNat_blockAddress allocation hrest]
  cases target <;> simp only [Target.PAGE_SIZE] at hrest ⊢ <;> omega

end Address

/-! ## The call -/

section Call

variable {target : Target} (allocation : Allocation target) (fd : ℕ) (device : Fm.Device δ)
  (granted : Bool) (fuel : ℕ) (process : Process δ)

@[simp]
theorem mappings_append (first second : List Step) :
    mappings (first ++ second) = mappings first ++ mappings second :=
  List.filterMap_append

@[simp]
theorem mappings_carrierSteps (setupword : Clock.GPCTL) : mappings (carrierSteps setupword) = [] :=
  rfl

theorem mappings_of_page {after : Process δ}
    (hpage : allocation.address.toNat % target.PAGE_SIZE = 0)
    (hdone : setupTarget target fd device granted allocation.address fuel process = .done after) :
    mappings after.steps = mappings process.steps := by
  have hfd : ¬ (fd : ℤ) < 0 := Int.natCast_nonneg fd |>.not_gt
  unfold setupTarget setup_io at hdone
  simp only [hfd, allocation.nonnull, hpage, Process.perform, if_false, ne_eq, not_true_eq_false]
    at hdone
  split_ifs at hdone
  cases hdone
  simp [Process.perform]
  rfl

/-- A block that does not start with a page is mapped at the next one, and the process goes on
unless the value of `mmap` is negative. -/
theorem setupTarget_of_rest (hrest : allocation.address.toNat % target.PAGE_SIZE ≠ 0) :
    ∃ halted after, setupTarget target fd device granted allocation.address fuel process =
        (if (mmapFixed granted (blockAddress target allocation.address)).toInt < 0 then
          .halted .exit halted else .done after) ∧
      mappings after.steps =
        mappings process.steps ++ [(blockAddress target allocation.address, BLOCK_SIZE)] ∧
      after.gpio = mmapFixed granted (blockAddress target allocation.address) := by
  have hfd : ¬ (fd : ℤ) < 0 := Int.natCast_nonneg fd |>.not_gt
  unfold setupTarget setup_io
  simp only [hfd, allocation.nonnull, Process.perform, if_false, ne_eq, hrest, not_false_eq_true,
    if_true, carrierhigh]
  refine ⟨_, _, rfl, ?_, rfl⟩
  simp
  rfl

end Call

/-- The value of `mmap` is not taken for an error exactly when the mapping is granted on a 4K
boundary in the lower half of the addresses. -/
theorem mmapFixed_nonneg_iff (granted : Bool) (address : CInt) :
    ¬ (mmapFixed granted address).toInt < 0 ↔
      granted = true ∧ address.toNat % 4096 = 0 ∧ address.toNat < 2 ^ 31 := by
  have hsign : ¬ address.toInt < 0 ↔ address.toNat < 2 ^ 31 := by
    rw [BitVec.toInt_eq_toNat_cond]
    split_ifs <;> omega
  have herror : (-1 : CInt).toInt < 0 := by decide
  unfold mmapFixed
  split_ifs with hmapped
  · simp only [Bool.and_eq_true, beq_iff_eq] at hmapped
    rw [hsign]
    tauto
  · simp only [Bool.and_eq_true, beq_iff_eq] at hmapped
    tauto

theorem mmapFixed_of_granted {address : CInt} (haligned : address.toNat % 4096 = 0) :
    mmapFixed true address = address := by
  rw [mmapFixed, Bool.true_and, haligned]
  rfl

theorem Target.PAGE_SIZE_bounds (target : Target) :
    0 < target.PAGE_SIZE ∧ target.PAGE_SIZE ≤ 4096 := by
  cases target <;> decide

section Boundary

variable {target : Target} (allocation : Allocation target) (fd : ℕ) (device : Fm.Device δ)
  (granted : Bool) (fuel : ℕ) (process : Process δ)

theorem not_mapsBoundary_of_page (hpage : allocation.address.toNat % target.PAGE_SIZE = 0) :
    ¬ MapsBoundary target allocation fd device granted fuel process := by
  intro hboundary
  obtain ⟨after, address, hdone, hmaps⟩ := hboundary
  have hnone := mappings_of_page allocation fd device granted fuel process hpage hdone
  rw [hmaps.once] at hnone
  simp at hnone

/-- One that does not start with a page is mapped so where its next page is on a boundary and `mmap`
returns that page. -/
theorem mapsBoundary_of_rest_iff (hrest : allocation.address.toNat % target.PAGE_SIZE ≠ 0) :
    MapsBoundary target allocation fd device granted fuel process ↔
      ¬ (mmapFixed granted (blockAddress target allocation.address)).toInt < 0 := by
  obtain ⟨halted, after, hsetup, honce, hgpio⟩ :=
    setupTarget_of_rest allocation fd device granted fuel process hrest
  constructor
  · intro hmaps herror
    obtain ⟨reached, address, hdone, -⟩ := hmaps
    rw [hsetup, if_pos herror] at hdone
    cases hdone
  · intro hnonneg
    obtain ⟨hgranted, hboundary, -⟩ := (mmapFixed_nonneg_iff _ _).mp hnonneg
    have hnat := toNat_blockAddress allocation hrest
    have hbounds := target.PAGE_SIZE_bounds
    have hless := Nat.mod_lt allocation.address.toNat hbounds.1
    rw [hgranted, mmapFixed_of_granted hboundary] at hgpio
    refine ⟨after, blockAddress target allocation.address, ?_, honce, hboundary, ?_, ?_, hgpio⟩
    · rw [hsetup, if_neg hnonneg]
    · omega
    · rw [hnat, Target.mallocSize]
      omega

end Boundary

/-- The block is mapped on a 4K boundary exactly when the mapping is granted, the block starts in
the last page before a boundary, but not with that page, and the boundary is in the lower half of
the addresses. -/
theorem mapsBoundary_iff (target : Target) (allocation : Allocation target) (fd : ℕ)
    (device : Fm.Device δ) (granted : Bool) (fuel : ℕ) (process : Process δ) :
    MapsBoundary target allocation fd device granted fuel process ↔
      granted = true ∧ 4096 - target.PAGE_SIZE < allocation.address.toNat % 4096 ∧
        allocation.address.toNat < 2 ^ 31 - 4096 := by
  by_cases hpage : allocation.address.toNat % target.PAGE_SIZE = 0
  · refine iff_of_false
      (not_mapsBoundary_of_page allocation fd device granted fuel process hpage) ?_
    intro hcondition
    have hlast := hcondition.2.1
    cases target <;> simp only [Target.PAGE_SIZE] at hpage hlast <;> omega
  · have hnat := toNat_blockAddress allocation hpage
    have haligned := blockAddress_aligned_iff allocation hpage
    have hbounds := target.PAGE_SIZE_bounds
    have hless := Nat.mod_lt allocation.address.toNat hbounds.1
    rw [mapsBoundary_of_rest_iff allocation fd device granted fuel process hpage,
      mmapFixed_nonneg_iff, haligned]
    refine and_congr_right fun _ ↦ and_congr_right fun hlast ↦ ?_
    have hboundary := haligned.mpr hlast
    omega

/-- On a Raspberry Pi 1 a block at `0x10008` is moved to `0x10400`, where nothing can be mapped. -/
theorem mapsBoundary_fails_on_RASPI1 :
    ¬ MapsBoundary .RASPI1 ⟨0x10008, by decide, by decide⟩ 3 Fm.emptyFile true 0
      (Process.initial ()) := by
  intro hmaps
  obtain ⟨reached, address, hdone, -⟩ := hmaps
  obtain ⟨halted, after, hsetup, -, -⟩ := setupTarget_of_rest
    (⟨0x10008, by decide, by decide⟩ : Allocation .RASPI1) 3 Fm.emptyFile true 0
    (Process.initial ()) (by decide)
  rw [hsetup, if_pos (by decide)] at hdone
  cases hdone

end PiFunk.Transmit
