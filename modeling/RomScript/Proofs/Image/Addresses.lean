import Mathlib.Algebra.Group.Nat.Defs
import RomScript.Proofs.Image.Spelling

/-!
# Reads at addresses

Offsets are unbounded numbers, so the end of a read cannot wrap around. Addresses of sixty-four
bits can: there the sum of the address and the width is tested first, the bytes up to it are cut
out of the image, and a number is made of them, low byte first. Reads of either kind succeed
exactly where their last byte is inside the image, have the same values, and are refused with
the same offset, width and length.
-/

set_option autoImplicit false

namespace RomScript

/-- The number with the given bytes, low byte first. -/
def littleEndian (bytes : List UInt8) : Nat :=
  bytes.foldr (fun b rest => b.toNat + 256 * rest) 0

theorem littleEndian_wordBytes (value : UInt16) : littleEndian (wordBytes value) = value.toNat := by
  have hv := value.toNat_lt
  simp only [littleEndian, wordBytes, List.foldr_cons, List.foldr_nil, UInt8.toNat_ofNat']
  omega

theorem littleEndian_dwordBytes (value : UInt32) :
    littleEndian (dwordBytes value) = value.toNat := by
  have hv := value.toNat_lt
  simp only [littleEndian, dwordBytes, List.foldr_cons, List.foldr_nil, UInt8.toNat_ofNat']
  omega

def addressBehind? (address distance : UInt64) : Option UInt64 :=
  if address.toNat + distance.toNat < 2 ^ 64 then some (address + distance) else none

namespace Rom

variable (rom : Rom)

def cut? (first last : UInt64) : Option (List UInt8) :=
  if first ≤ last ∧ last.toNat ≤ rom.length then
    some (rom.bytes.extract first.toNat last.toNat).toList
  else none

def sliceAt (address width : UInt64) : Except ImageError (List UInt8) :=
  match (addressBehind? address width).bind (rom.cut? address) with
  | some bytes => .ok bytes
  | none => .error (rom.outside address.toNat width.toNat)

def wordAt (address : UInt64) : Except ImageError UInt16 :=
  (rom.sliceAt address 2).map fun bytes => UInt16.ofNat (littleEndian bytes)

def dwordAt (address : UInt64) : Except ImageError UInt32 :=
  (rom.sliceAt address 4).map fun bytes => UInt32.ofNat (littleEndian bytes)

/-! ## Exact reads -/

variable (offset : Nat)

/-- A read of so many bytes at an offset succeeds exactly if all of them are inside the image, has
only values with the property, and is refused with the offset, the width and the length. -/
structure Exact {α : Type} (width : Nat) (read : Except ImageError α) (IsValue : α → Prop) :
    Prop where
  succeeds : (∃ value, read = .ok value) ↔ offset + width ≤ rom.length
  values : ∀ value, read = .ok value → IsValue value
  refused : ∀ cause, read = .error cause → cause = .outOfBounds offset width rom.length

theorem exact_byte : rom.Exact offset 1 (rom.byte offset) fun b => rom.bytes[offset]? = some b where
  succeeds := rom.exists_byte_iff offset
  values b := (rom.byte_eq_ok_iff offset b).mp
  refused _ := rom.byte_refused offset

theorem exact_word : rom.Exact offset 2 (rom.word offset) fun value =>
    ∃ b0 b1, rom.byte offset = .ok b0 ∧ rom.byte (offset + 1) = .ok b1 ∧
      value.toNat = b0.toNat + 2 ^ 8 * b1.toNat where
  succeeds := rom.exists_word_iff offset
  values value h := by
    obtain ⟨b0, b1, h0, h1, hbytes⟩ := (rom.word_eq_ok_iff offset value).mp h
    rw [← wordOf_eq_iff] at hbytes
    exact ⟨b0, b1, h0, h1, hbytes ▸ toNat_wordOf b0 b1⟩
  refused _ := rom.word_refused offset

theorem exact_dword : rom.Exact offset 4 (rom.dword offset) fun value =>
    ∃ low high, rom.word offset = .ok low ∧ rom.word (offset + 2) = .ok high ∧
      value.toNat = low.toNat + 2 ^ 16 * high.toNat where
  succeeds := rom.exists_dword_iff offset
  values value h := by
    obtain ⟨b0, b1, b2, b3, h0, h1, h2, h3, hbytes⟩ := (rom.dword_eq_ok_iff offset value).mp h
    rw [← dwordOf_eq_iff] at hbytes
    have hlow : rom.word offset = .ok (wordOf b0 b1) :=
      (rom.word_eq_ok_iff offset _).mpr ⟨b0, b1, h0, h1, (wordOf_eq_iff b0 b1 _).mp rfl⟩
    have hhigh : rom.word (offset + 2) = .ok (wordOf b2 b3) :=
      (rom.word_eq_ok_iff (offset + 2) _).mpr ⟨b2, b3, h2, h3, (wordOf_eq_iff b2 b3 _).mp rfl⟩
    refine ⟨_, _, hlow, hhigh, ?_⟩
    rw [← hbytes, toNat_dwordOf, toNat_wordOf, toNat_wordOf]
    omega
  refused _ := rom.dword_refused offset

theorem exact_slice (count : Nat) : rom.Exact offset count (rom.slice offset count) fun bytes =>
    bytes.length = count ∧
      ∀ (k : Nat) (h : k < bytes.length), rom.byte (offset + k) = .ok bytes[k] where
  succeeds := rom.exists_slice_iff offset count
  values bytes h := by
    obtain rfl := length_slice h
    exact ⟨rfl, ((rom.slice_eq_ok_iff offset bytes).mp h).2⟩
  refused _ := rom.slice_refused offset

/-! ## Numbers and slices -/

variable {rom offset} in
theorem Exact.eq_slice {α : Type} {width : Nat} {read : Except ImageError α}
    (spelling : α → List UInt8) {ofBytes : List UInt8 → α}
    (h : rom.Exact offset width read fun value =>
      (Image.ofScript rom).Spells offset (spelling value))
    (hlength : ∀ value, (spelling value).length = width)
    (hback : ∀ value, ofBytes (spelling value) = value) :
    read = (rom.slice offset width).map ofBytes := by
  cases hr : read with
  | ok value =>
    have hle : offset + (spelling value).length ≤ rom.length := by
      rw [hlength]
      exact h.succeeds.mp ⟨value, hr⟩
    have hslice : rom.slice offset (spelling value).length = .ok (spelling value) :=
      ((Image.ofScript rom).spells_iff_slice (Nat.le_of_add_right_le hle)).mp (h.values value hr)
    rw [hlength] at hslice
    rw [hslice, Except.map, hback]
  | error cause =>
    have hle := mt h.succeeds.mpr (by simp [hr])
    rw [h.refused cause hr, slice, if_neg hle]
    rfl

theorem word_eq_slice :
    rom.word offset = (rom.slice offset 2).map fun bytes => UInt16.ofNat (littleEndian bytes) := by
  refine Exact.eq_slice wordBytes ⟨rom.exists_word_iff offset, fun value => ?_,
    fun _ => rom.word_refused offset⟩ length_wordBytes fun value => ?_
  · exact ((Image.ofScript rom).spells_wordBytes offset value).mpr
  · rw [littleEndian_wordBytes, UInt16.ofNat_toNat]

theorem dword_eq_slice :
    rom.dword offset = (rom.slice offset 4).map fun bytes => UInt32.ofNat (littleEndian bytes) := by
  refine Exact.eq_slice dwordBytes ⟨rom.exists_dword_iff offset, fun value => ?_,
    fun _ => rom.dword_refused offset⟩ length_dwordBytes fun value => ?_
  · exact ((Image.ofScript rom).spells_dwordBytes offset value).mpr
  · rw [littleEndian_dwordBytes, UInt32.ofNat_toNat]

/-! ## Reads at addresses -/

section Addresses

variable {rom} (h : rom.length < 2 ^ 64) (address : UInt64)

include h

/-- Where the sum overflows, the image has ended already. -/
theorem sliceAt_eq (width : UInt64) :
    rom.sliceAt address width = rom.slice address.toNat width.toNat := by
  unfold sliceAt addressBehind?
  by_cases hsum : address.toNat + width.toNat < 2 ^ 64
  · have hlast : (address + width).toNat = address.toNat + width.toNat := by
      rw [UInt64.toNat_add, Nat.mod_eq_of_lt hsum]
    have horder : address ≤ address + width := by
      rw [UInt64.le_iff_toNat_le, hlast]
      exact Nat.le_add_right _ _
    -- the two addresses are in order, so only the last one can leave the image
    rw [if_pos hsum, Option.bind_some]
    by_cases hle : address.toNat + width.toNat ≤ rom.length
    · simp only [cut?, slice, hlast, horder, hle, and_self, if_true]
    · simp only [cut?, slice, hlast, horder, hle, and_false, if_false]
  · rw [if_neg hsum, slice, if_neg (by omega)]
    rfl

theorem wordAt_eq : rom.wordAt address = rom.word address.toNat := by
  rw [wordAt, sliceAt_eq h, word_eq_slice]
  rfl

theorem dwordAt_eq : rom.dwordAt address = rom.dword address.toNat := by
  rw [dwordAt, sliceAt_eq h, dword_eq_slice]
  rfl

end Addresses

/-- Reads are exact at every offset, and at every address of an image that can be addressed. -/
theorem reads_exact (rom : Rom) :
    (∀ offset, rom.Exact offset 1 (rom.byte offset) fun b => rom.bytes[offset]? = some b) ∧
    (∀ offset, rom.Exact offset 2 (rom.word offset) fun value =>
      ∃ b0 b1, rom.byte offset = .ok b0 ∧ rom.byte (offset + 1) = .ok b1 ∧
        value.toNat = b0.toNat + 2 ^ 8 * b1.toNat) ∧
    (∀ offset, rom.Exact offset 4 (rom.dword offset) fun value =>
      ∃ low high, rom.word offset = .ok low ∧ rom.word (offset + 2) = .ok high ∧
        value.toNat = low.toNat + 2 ^ 16 * high.toNat) ∧
    (∀ offset count, rom.Exact offset count (rom.slice offset count) fun bytes =>
      bytes.length = count ∧
        ∀ (k : Nat) (h : k < bytes.length), rom.byte (offset + k) = .ok bytes[k]) ∧
    (rom.length < 2 ^ 64 → ∀ address : UInt64,
      rom.wordAt address = rom.word address.toNat ∧
      rom.dwordAt address = rom.dword address.toNat ∧
      ∀ width : UInt64, rom.sliceAt address width = rom.slice address.toNat width.toNat) :=
  ⟨rom.exact_byte, rom.exact_word, rom.exact_dword, rom.exact_slice,
    fun h address => ⟨wordAt_eq h address, dwordAt_eq h address, sliceAt_eq h address⟩⟩

/-- At the last address the end of a word would wrap around; at the end of the image only
nothing is left to read. -/
theorem reads_exact_of_wrap :
    let rom : Rom := ⟨#[0x34, 0x12, 0x78, 0x56]⟩
    rom.length < 2 ^ 64 ∧
      rom.dwordAt 0 = .ok 0x56781234 ∧
      rom.sliceAt 4 0 = .ok [] ∧
      rom.sliceAt 5 0 = .error (.outOfBounds 5 0 4) ∧
      rom.wordAt 0xffffffffffffffff = .error (.outOfBounds 0xffffffffffffffff 2 4) := by
  intro rom
  have hlength : rom.length < 2 ^ 64 := by decide
  obtain ⟨-, hword, -, -, haddressed⟩ := reads_exact rom
  refine ⟨hlength, ?_, ?_, ?_, ?_⟩
  · have hvalue : dwordOf 0x34 0x12 0x78 0x56 = 0x56781234 := by decide
    rw [(haddressed hlength 0).2.1, ← hvalue]
    rfl
  · rw [(haddressed hlength 4).2.2]
    rfl
  · rw [(haddressed hlength 5).2.2]
    exact if_neg (by decide)
  · rw [(haddressed hlength _).1]
    have hexact := hword (0xffffffffffffffff : UInt64).toNat
    cases hw : rom.word (0xffffffffffffffff : UInt64).toNat with
    | ok value => exact absurd (hexact.succeeds.mp ⟨value, hw⟩) (by decide)
    | error cause => exact congrArg Except.error (hexact.refused cause hw)

end Rom

end RomScript
