import Mathlib.Tactic.Ring.RingNF
import PiFunk.CTypes

/-!
# The physical address of a page

`getRealMemPage` allocates a page and looks its frame up in `/proc/self/pagemap`, which has eight
bytes for every page of the address space.  The address is converted to a signed `int` before it is
divided, so for the upper half of the address space the offset is negative.

The file is taken to be open, and reading at the offset of an entry to deliver its low word.  What
is read at a negative offset is left open.
-/

namespace PiFunk.Fm

/-- What reading `/proc/self/pagemap` leaves in `frameinfo`: frame numbers of 20 bits at the
entries. -/
structure Pagemap where
  frame : ℕ → CInt
  bound : ∀ page, (frame page).toNat < 2 ^ 20
  /-- The word behind a negative offset. -/
  negative : ℤ → CInt

structure PageAddress where
  address : CInt
  nonnull : address ≠ 0
  aligned : address.toNat % 4096 = 0

/-- What `getRealMemPage` leaves in `*vAddr` and `*pAddr`, and the offset it asks `lseek` for. -/
structure MemPage where
  vAddr : CInt
  pAddr : CInt
  offset : ℤ
deriving DecidableEq, Repr

/-- `((int) m)/4096*8`. -/
def seekOffset (m : CInt) : ℤ := Int.tdiv m.toInt 4096 * 8

/-- `read (fp, &frameinfo, sizeof (frameinfo))` behind `lseek (fp, offset, SEEK_SET)`. -/
def Pagemap.read (pagemap : Pagemap) (offset : ℤ) : CInt :=
  if 0 ≤ offset then pagemap.frame (offset.toNat / 8) else pagemap.negative offset

/-- The page that `valloc` returned is `m`. -/
def getRealMemPage (pagemap : Pagemap) (m : CInt) : MemPage :=
  let frameinfo := pagemap.read (seekOffset m)
  { vAddr := m, pAddr := frameinfo * 4096, offset := seekOffset m }

/-- The offset is that of the page's entry, and the addresses are those of the page and its
frame. -/
structure FindsFrame (pagemap : Pagemap) (m : CInt) (page : MemPage) : Prop where
  offset : page.offset = 8 * (m.toNat / 4096)
  nonneg : 0 ≤ page.offset
  physical : page.pAddr.toNat = 4096 * (pagemap.frame (m.toNat / 4096)).toNat
  virtual : page.vAddr = m

/-- A negative address has the entry of its magnitude, counted backwards. -/
theorem seekOffset_of_negative {m : CInt} (hnegative : m.toInt ≤ 0) :
    seekOffset m = -(-m.toInt / 4096 * 8) := by
  have hquotient : Int.tdiv m.toInt 4096 = -(-m.toInt / 4096) := by
    rw [← Int.tdiv_eq_ediv_of_nonneg (by omega), Int.neg_tdiv, neg_neg]
  rw [seekOffset, hquotient]
  ring

/-- The offset fits into an `int`, so its product does not overflow. -/
theorem seekOffset_fits (m : CInt) : -2 ^ 31 ≤ seekOffset m ∧ seekOffset m < 2 ^ 31 := by
  have hlow := m.le_toInt
  have hhigh := m.toInt_lt
  rcases le_total m.toInt 0 with hnegative | hnonneg
  · rw [seekOffset_of_negative hnegative]
    omega
  · rw [seekOffset, Int.tdiv_eq_ediv_of_nonneg hnonneg]
    omega

theorem seekOffset_of_lower {m : CInt} (hlower : m.toNat < 2 ^ 31) :
    seekOffset m = 8 * (m.toNat / 4096) := by
  rw [seekOffset, BitVec.toInt_eq_toNat_of_lt (by omega), Int.tdiv_eq_ediv_of_nonneg (by omega)]
  omega

theorem seekOffset_of_upper {m : CInt} (hupper : 2 ^ 31 ≤ m.toNat) (haligned : m.toNat % 4096 = 0) :
    seekOffset m < 0 := by
  have hbound := m.isLt
  have hvalue := BitVec.toInt_eq_toNat_cond m
  rw [if_neg (by omega)] at hvalue
  rw [seekOffset_of_negative (by omega)]
  omega

theorem toNat_frame_mul (pagemap : Pagemap) (page : ℕ) :
    (pagemap.frame page * 4096 : CInt).toNat = 4096 * (pagemap.frame page).toNat := by
  have hbound := pagemap.bound page
  have hproduct : (pagemap.frame page * 4096 : CInt).toNat =
      (pagemap.frame page).toNat * 4096 % 2 ^ 32 := BitVec.toNat_mul _ _
  omega

/-- The frame of a page is found exactly in the lower half of the addresses. -/
theorem getRealMemPage_findsFrame_iff (pagemap : Pagemap) (m : PageAddress) :
    FindsFrame pagemap m.address (getRealMemPage pagemap m.address) ↔
      m.address.toNat < 2 ^ 31 := by
  constructor
  · intro hfinds
    by_contra hupper
    have hoffset := seekOffset_of_upper (not_lt.mp hupper) m.aligned
    have hnonneg : 0 ≤ seekOffset m.address := hfinds.nonneg
    omega
  · intro hlower
    have hoffset := seekOffset_of_lower hlower
    have hnonneg : 0 ≤ seekOffset m.address := by omega
    have hentry : (seekOffset m.address).toNat / 8 = m.address.toNat / 4096 := by omega
    refine ⟨hoffset, hnonneg, ?_, rfl⟩
    simp only [getRealMemPage, Pagemap.read, if_pos hnonneg, hentry, toNat_frame_mul]

/-- A page at `0xB6F00000` is looked for at a negative offset. -/
theorem getRealMemPage_fails_in_upper_half :
    ¬ FindsFrame ⟨fun _ ↦ 1, fun _ ↦ by decide, fun _ ↦ 1⟩ 0xB6F00000
      (getRealMemPage ⟨fun _ ↦ 1, fun _ ↦ by decide, fun _ ↦ 1⟩ 0xB6F00000) := by
  intro hfinds
  exact absurd hfinds.nonneg (by decide)

end PiFunk.Fm
