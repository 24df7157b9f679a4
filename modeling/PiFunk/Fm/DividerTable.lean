import Mathlib.Tactic.FieldSimp
import Mathlib.Tactic.Linarith
import PiFunk.Clock.Control
import PiFunk.Fm.Sample

/-!
# The divider table

`setupDMA` computes the divider of the carrier frequency in 12 fractional bits, and the loop behind
it is for a table of the 1024 words around it, each added to the password in bits 31:24.  A word is
a divider only with a positive integer part, and it must not reach into the password.

Both hold in the middle of the range that `freqselect` prompts for, but above 444.49 MHz the lowest
word has no integer part, and below 0.12208 MHz the highest one changes the password.
-/

namespace PiFunk.Fm

/-- `centerFreqDivider - 512 + i`. -/
def divider (freq : ℚ) (i : ℕ) : ℤ := centerFreqDivider freq - 512 + i

/-- The table word `(CARRIER << 24) + centerFreqDivider - 512 + i`. -/
def tableWord (freq : ℚ) (i : ℕ) : CInt := (Clock.CARRIER <<< 24) + BitVec.ofInt 32 (divider freq i)

/-- The word is a divider: the integer part is positive, and the password is intact. -/
structure ValidDivider (freq : ℚ) (i : ℕ) : Prop where
  integer_part : 4096 ≤ divider freq i
  below : divider freq i < 2 ^ 24
  password : Clock.passwordGiven (tableWord freq i) = true

/-- A value below bit 24 leaves the password as it is. -/
theorem passwordGiven_carrier_add {value : ℤ} (hnonneg : 0 ≤ value) (hbelow : value < 2 ^ 24) :
    Clock.passwordGiven ((Clock.CARRIER <<< 24) + BitVec.ofInt 32 value) = true := by
  obtain ⟨count, rfl⟩ := Int.eq_ofNat_of_zero_le hnonneg
  have hcount : count < 2 ^ 24 := by exact_mod_cast hbelow
  have hcarrier : (Clock.CARRIER <<< 24).toNat = 0x5A * 2 ^ 24 := by decide
  have hword : ((Clock.CARRIER <<< 24) + BitVec.ofInt 32 count).toNat = 0x5A * 2 ^ 24 + count := by
    rw [BitVec.toNat_add, hcarrier, BitVec.ofInt_natCast, BitVec.toNat_ofNat]
    omega
  rw [Clock.passwordGiven, beq_iff_eq]
  apply BitVec.eq_of_toNat_eq
  rw [BitVec.extractLsb'_toNat, hword, Nat.shiftRight_eq_div_pow]
  simp only [BitVec.toNat_ofNat]
  omega

theorem forall_validDivider_iff (freq : ℚ) :
    (∀ i < 1024, ValidDivider freq i) ↔
      4608 ≤ centerFreqDivider freq ∧ centerFreqDivider freq < 2 ^ 24 - 511 := by
  constructor
  · intro hvalid
    have hfirst := (hvalid 0 (by decide)).integer_part
    have hlast := (hvalid 1023 (by decide)).below
    unfold divider at hfirst hlast
    constructor
    · omega
    · omega
  · intro hcenter i hi
    obtain ⟨hlow, hhigh⟩ := hcenter
    have hinteger : 4096 ≤ divider freq i := by
      unfold divider
      omega
    have hbelow : divider freq i < 2 ^ 24 := by
      unfold divider
      omega
    exact ⟨hinteger, hbelow, passwordGiven_carrier_add (by omega) hbelow⟩

theorem centerFreqDivider_eq (freq : ℚ) :
    centerFreqDivider freq = truncate (2048000 / freq + 1 / 2) := by
  have hshift : (1 <<< 12 : ℕ) = 4096 := rfl
  rw [centerFreqDivider, hshift]
  congr 2
  push_cast
  ring

/-- A center of 4608 or more leaves 4096 for the lowest word. -/
theorem le_centerFreqDivider_iff (freq : ℚ) :
    4608 ≤ centerFreqDivider freq ↔ 0 < freq ∧ freq ≤ 4096000 / 9215 := by
  rw [centerFreqDivider_eq, le_truncate_iff (by decide), ← sub_le_iff_le_add]
  constructor
  · intro hcenter
    have hfreq : 0 < freq := by
      by_contra hneg
      have hquotient : 2048000 / freq ≤ 0 :=
        div_nonpos_of_nonneg_of_nonpos (by norm_num) (not_lt.mp hneg)
      push_cast at hcenter
      linarith
    rw [le_div_iff₀ hfreq] at hcenter
    push_cast at hcenter
    exact ⟨hfreq, by linarith⟩
  · intro hfreq
    rw [le_div_iff₀ hfreq.1]
    push_cast
    linarith [hfreq.2]

theorem centerFreqDivider_lt_iff {freq : ℚ} (hfreq : 0 < freq) :
    centerFreqDivider freq < 2 ^ 24 - 511 ↔ 4096000 / 33553409 < freq := by
  rw [centerFreqDivider_eq, truncate_lt_iff (by decide), ← lt_sub_iff_add_lt, div_lt_iff₀ hfreq]
  push_cast
  constructor
  · intro hcenter
    linarith
  · intro hlow
    linarith

theorem centerFreqDivider_iff (freq : ℚ) :
    (4608 ≤ centerFreqDivider freq ∧ centerFreqDivider freq < 2 ^ 24 - 511) ↔
      4096000 / 33553409 < freq ∧ freq ≤ 4096000 / 9215 := by
  rw [le_centerFreqDivider_iff]
  constructor
  · intro hcenter
    exact ⟨(centerFreqDivider_lt_iff hcenter.1.1).mp hcenter.2, hcenter.1.2⟩
  · intro hlimits
    have hfreq : 0 < freq := lt_trans (by norm_num) hlimits.1
    exact ⟨⟨hfreq, hlimits.2⟩, (centerFreqDivider_lt_iff hfreq).mpr hlimits.1⟩

/-- Every word of the table is a divider exactly for the frequencies from 0.12208 MHz to
444.49 MHz. -/
theorem dividerTable_valid_iff (freq : ℚ) :
    (∀ i < 1024, ValidDivider freq i) ↔
      4096000 / 33553409 < freq ∧ freq ≤ 4096000 / 9215 :=
  (forall_validDivider_iff freq).trans (centerFreqDivider_iff freq)

/-- At the lowest frequency of the prompt the last word reaches into the password. -/
theorem dividerTable_invalid_at_lowest : ¬ ∀ i < 1024, ValidDivider (1 / 10) i := by
  rw [forall_validDivider_iff]
  intro hcenter
  have hlow := (centerFreqDivider_lt_iff (by norm_num)).mp hcenter.2
  norm_num at hlow

end PiFunk.Fm
