import Mathlib.Data.Nat.Notation
import Mathlib.Tactic.SplitIfs

/-!
# Words of equal fields

A word is divided into fields of `size` bits, numbered by slots from the lowest bits upwards; the
bits above the last field belong to none.  A field is written in two steps: its bits are cleared
through a mask and then those of the code are set.  Fields of different slots do not meet, so such
writes leave each other alone.
-/

namespace BitField

variable {width size : ℕ}

/-- The bits of a slot. -/
def field (size slot : ℕ) (word : BitVec width) : BitVec size := word.extractLsb' (slot * size) size

/-- The word whose set bits are those of the slot. -/
def mask (width size slot : ℕ) : BitVec width :=
  (BitVec.allOnes size).setWidth width <<< (slot * size)

def clear (size slot : ℕ) (word : BitVec width) : BitVec width := word &&& ~~~ mask width size slot

/-- The bits of the code set in the slot, on top of those that are set already. -/
def put (slot : ℕ) (code : BitVec size) (word : BitVec width) : BitVec width :=
  word ||| (code.setWidth width <<< (slot * size))

/-- The bit belongs to the slot. -/
def InSlot (size slot bit : ℕ) : Prop := slot * size ≤ bit ∧ bit < slot * size + size

instance (size slot bit : ℕ) : Decidable (InSlot size slot bit) :=
  inferInstanceAs (Decidable (_ ∧ _))

theorem InSlot.div_eq {slot bit : ℕ} (hslot : InSlot size slot bit) : bit / size = slot :=
  Nat.div_eq_of_lt_le hslot.1 (by rw [Nat.succ_mul]; exact hslot.2)

theorem InSlot.eq {slot other bit : ℕ} (hslot : InSlot size slot bit)
    (hother : InSlot size other bit) : slot = other :=
  hslot.div_eq.symm.trans hother.div_eq

theorem inSlot_add (slot : ℕ) {bit : ℕ} (hbit : bit < size) :
    InSlot size slot (slot * size + bit) :=
  ⟨Nat.le_add_right _ _, Nat.add_lt_add_left hbit _⟩

/-! ## Bit by bit -/

theorem getLsbD_field (slot : ℕ) (word : BitVec width) {bit : ℕ} (hbit : bit < size) :
    (field size slot word).getLsbD bit = word.getLsbD (slot * size + bit) := by
  rw [field, BitVec.getLsbD_extractLsb', decide_eq_true hbit, Bool.true_and]

theorem getLsbD_mask (slot : ℕ) {bit : ℕ} (hbit : bit < width) :
    (mask width size slot).getLsbD bit = decide (InSlot size slot bit) := by
  simp only [mask, BitVec.getLsbD_shiftLeft, BitVec.getLsbD_setWidth, BitVec.getLsbD_allOnes,
    InSlot]
  grind

theorem getLsbD_code (slot : ℕ) (code : BitVec size) {bit : ℕ} (hbit : bit < width) :
    (code.setWidth width <<< (slot * size)).getLsbD bit =
      (decide (InSlot size slot bit) && code.getLsbD (bit - slot * size)) := by
  simp only [BitVec.getLsbD_shiftLeft, BitVec.getLsbD_setWidth, InSlot]
  by_cases hcode : bit - slot * size < size
  · grind
  · rw [BitVec.getLsbD_of_ge code _ (Nat.not_lt.mp hcode)]
    simp

/-- Clearing and setting makes the bits of one slot those of the code and keeps all others. -/
theorem getLsbD_put_clear (slot : ℕ) (code : BitVec size) (word : BitVec width) {bit : ℕ}
    (hbit : bit < width) :
    (put slot code (clear size slot word)).getLsbD bit =
      if InSlot size slot bit then code.getLsbD (bit - slot * size) else word.getLsbD bit := by
  simp only [put, clear, BitVec.getLsbD_or, BitVec.getLsbD_and, BitVec.getLsbD_not,
    getLsbD_mask slot hbit, getLsbD_code slot code hbit]
  by_cases hslot : InSlot size slot bit
  · simp [hslot]
  · simp [hslot, hbit]

/-! ## Field by field -/

/-- The field written holds the code, as long as it lies inside the word. -/
theorem field_put_clear_self {slot : ℕ} (hslot : slot * size + size ≤ width) (code : BitVec size)
    (word : BitVec width) : field size slot (put slot code (clear size slot word)) = code := by
  apply BitVec.eq_of_getLsbD_eq
  intro bit hbit
  rw [getLsbD_field slot _ hbit, getLsbD_put_clear slot code word (by omega),
    if_pos (inSlot_add slot hbit), Nat.add_sub_cancel_left]

theorem field_put_clear_of_ne {slot other : ℕ} (hother : other ≠ slot)
    (hfits : other * size + size ≤ width) (code : BitVec size) (word : BitVec width) :
    field size other (put slot code (clear size slot word)) = field size other word := by
  apply BitVec.eq_of_getLsbD_eq
  intro bit hbit
  have hslot : ¬ InSlot size slot (other * size + bit) := by
    intro hslot
    exact hother ((inSlot_add other hbit).eq hslot)
  rw [getLsbD_field other _ hbit, getLsbD_put_clear slot code word (by omega), if_neg hslot,
    getLsbD_field other _ hbit]

/-- The bits that belong to no field are kept: from `low` on there are none of this slot. -/
theorem extractLsb'_put_clear {slot low count : ℕ} (hlow : slot * size + size ≤ low)
    (hfits : low + count ≤ width) (code : BitVec size) (word : BitVec width) :
    (put slot code (clear size slot word)).extractLsb' low count =
      word.extractLsb' low count := by
  apply BitVec.eq_of_getLsbD_eq
  intro bit hbit
  have hslot : ¬ InSlot size slot (low + bit) := by
    intro hslot
    have hhigh := hslot.2
    omega
  rw [BitVec.getLsbD_extractLsb', BitVec.getLsbD_extractLsb',
    getLsbD_put_clear slot code word (by omega), if_neg hslot]

theorem put_clear_comm {slot other : ℕ} (hother : other ≠ slot) (code otherCode : BitVec size)
    (word : BitVec width) :
    put other otherCode (clear size other (put slot code (clear size slot word))) =
      put slot code (clear size slot (put other otherCode (clear size other word))) := by
  apply BitVec.eq_of_getLsbD_eq
  intro bit hbit
  simp only [getLsbD_put_clear _ _ _ hbit]
  split_ifs with hfirst hsecond
  · exact absurd (hfirst.eq hsecond) hother
  · rfl
  · rfl
  · rfl

end BitField
