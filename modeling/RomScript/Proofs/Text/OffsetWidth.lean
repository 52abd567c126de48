import RomScript.Proofs.Text.Cancellation

/-!
# The width of offsets

The offsets below a length are written in a column that has room for the last one, of four
digits at least. On numbers of sixty-four bits its width is counted from the leading zeros of
the last offset, four bits to a digit. Either way it is the least width from four on in which
every offset fits, so each of them fills the column.
-/

set_option autoImplicit false

namespace RomScript

theorem hexWidth_le_iff {length width : Nat} :
    hexWidth length ≤ width ↔ 4 ≤ width ∧ length - 1 < 16 ^ width := by
  rw [hexWidth, Nat.max_le]
  refine and_congr_right fun hwidth => ?_
  exact Nat.length_toDigits_le_iff (by omega) (by omega)

/-! ## Counted in bits -/

def bitCount (n : UInt64) : Nat := 64 - n.toBitVec.clz.toNat

theorem bitCount_le_iff {n : UInt64} {k : Nat} : bitCount n ≤ k ↔ n.toNat < 2 ^ k := by
  constructor
  · intro h
    have hlt : n.toNat < 2 ^ bitCount n := BitVec.toNat_lt_two_pow_sub_clz
    exact Nat.lt_of_lt_of_le hlt (Nat.pow_le_pow_right (by omega) h)
  · intro h
    by_cases hzero : n.toBitVec = 0#64
    · have hall : n.toBitVec.clz = 64 := BitVec.clz_eq_iff_eq_zero.mpr hzero
      rw [bitCount, hall]
      exact Nat.zero_le k
    · have hle : 2 ^ (64 - 1 - n.toBitVec.clz.toNat) ≤ n.toNat :=
        BitVec.two_pow_sub_clz_le_toNat_of_ne_zero (by omega) hzero
      have hlt := (Nat.pow_lt_pow_iff_right (by omega)).mp (Nat.lt_of_le_of_lt hle h)
      unfold bitCount
      omega

/-- The last offset below a length, which is zero if there is none. -/
def lastOffset (length : UInt64) : UInt64 := if length = 0 then 0 else length - 1

theorem toNat_lastOffset (length : UInt64) : (lastOffset length).toNat = length.toNat - 1 := by
  unfold lastOffset
  by_cases hzero : length = 0
  · rw [if_pos hzero, hzero]
    rfl
  · have hne : length.toNat ≠ 0 := fun h => hzero (UInt64.toNat_inj.mp h)
    have hone : (1 : UInt64) ≤ length := UInt64.le_iff_toNat_le.mpr (by
      show 1 ≤ length.toNat
      omega)
    rw [if_neg hzero, UInt64.toNat_sub_of_le length 1 hone]
    rfl

/-- Four bits to a digit, the last digit perhaps with fewer, and never fewer than four digits. -/
def countedWidth (length : UInt64) : Nat := max ((bitCount (lastOffset length) + 3) / 4) 4

theorem countedWidth_le_iff {length : UInt64} {width : Nat} :
    countedWidth length ≤ width ↔ 4 ≤ width ∧ length.toNat - 1 < 16 ^ width := by
  have hdigits : (bitCount (lastOffset length) + 3) / 4 ≤ width ↔
      bitCount (lastOffset length) ≤ 4 * width := by omega
  rw [countedWidth, Nat.max_le, and_comm, hdigits, bitCount_le_iff, toNat_lastOffset, Nat.pow_mul]

theorem countedWidth_eq (length : UInt64) : countedWidth length = hexWidth length.toNat := by
  have hsame (width : Nat) : countedWidth length ≤ width ↔ hexWidth length.toNat ≤ width :=
    countedWidth_le_iff.trans hexWidth_le_iff.symm
  exact Nat.le_antisymm ((hsame _).mpr (Nat.le_refl _)) ((hsame _).mp (Nat.le_refl _))

/-! ## Columns -/

/-- Every offset below the length fits the width, which has four digits at least, and no digit
beyond these can be spared. -/
structure LeastWidth (length width : Nat) : Prop where
  fits : ∀ offset < length, offset < 16 ^ width
  four_le : 4 ≤ width
  needed : 4 < width → 16 ^ (width - 1) ≤ length - 1

theorem leastWidth_hexWidth (length : Nat) : LeastWidth length (hexWidth length) := by
  obtain ⟨hfour, hlast⟩ := hexWidth_le_iff.mp (Nat.le_refl (hexWidth length))
  constructor
  · intro offset hlt
    omega
  · exact hfour
  · intro hmore
    refine Nat.le_of_not_lt fun hlt => ?_
    have hless : hexWidth length ≤ hexWidth length - 1 := hexWidth_le_iff.mpr ⟨by omega, hlt⟩
    omega

/-- A text of exactly so many hexadecimal digits, which read back to the offset. -/
structure Column (width offset : Nat) (text : String) : Prop where
  length : text.length = width
  reads : positional? 16 0 text.toList = some offset

theorem column_hex {length offset : Nat} (h : offset < length) :
    Column (hexWidth length) offset (hex (hexWidth length) offset) := by
  have hleast := leastWidth_hexWidth length
  have hpos : 0 < hexWidth length := Nat.lt_of_lt_of_le (by omega) hleast.four_le
  constructor
  · rw [← String.length_toList, toList_hex]
    exact length_hexDigits_of_lt (hleast.fits offset h) hpos
  · rw [toList_hex]
    exact positional?_hexDigits _ offset

end RomScript
