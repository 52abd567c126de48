import RomScript.Proofs.Image.Reads

/-!
# What stands at an offset

Numbers are written back to the bytes they were read from, low byte first. A list of bytes
stands at an offset when each of them can be read at its own place behind it; reading a
number, or a slice, is the same as its bytes standing there.
-/

set_option autoImplicit false

namespace RomScript

def wordBytes (value : UInt16) : List UInt8 :=
  [UInt8.ofNat value.toNat, UInt8.ofNat (value.toNat / 256)]

def dwordBytes (value : UInt32) : List UInt8 :=
  [UInt8.ofNat value.toNat, UInt8.ofNat (value.toNat / 256), UInt8.ofNat (value.toNat / 65536),
    UInt8.ofNat (value.toNat / 16777216)]

@[simp] theorem length_wordBytes (value : UInt16) : (wordBytes value).length = 2 := rfl

@[simp] theorem length_dwordBytes (value : UInt32) : (dwordBytes value).length = 4 := rfl

theorem byte_eq_ofNat_iff (b : UInt8) (n : Nat) : b = UInt8.ofNat n ↔ b.toNat = n % 256 := by
  rw [← UInt8.toNat_inj, UInt8.toNat_ofNat']

theorem wordOf_eq_iff (b0 b1 : UInt8) (value : UInt16) :
    wordOf b0 b1 = value ↔ [b0, b1] = wordBytes value := by
  have h0 := b0.toNat_lt
  have h1 := b1.toNat_lt
  have hv := value.toNat_lt
  simp only [wordBytes, List.cons.injEq, and_true, byte_eq_ofNat_iff, ← UInt16.toNat_inj,
    toNat_wordOf]
  omega

theorem dwordOf_eq_iff (b0 b1 b2 b3 : UInt8) (value : UInt32) :
    dwordOf b0 b1 b2 b3 = value ↔ [b0, b1, b2, b3] = dwordBytes value := by
  have h0 := b0.toNat_lt
  have h1 := b1.toNat_lt
  have h2 := b2.toNat_lt
  have h3 := b3.toNat_lt
  have hv := value.toNat_lt
  simp only [dwordBytes, List.cons.injEq, and_true, byte_eq_ofNat_iff, ← UInt32.toNat_inj,
    toNat_dwordOf]
  omega

/-- The bytes stand one behind the other from an offset on. -/
def Image.Spells (image : Image) : Nat → List UInt8 → Prop
  | _, [] => True
  | offset, b :: rest => image.byte offset = .ok b ∧ image.Spells (offset + 1) rest

theorem Image.spells_append (image : Image) (offset : Nat) (bytes rest : List UInt8) :
    image.Spells offset (bytes ++ rest) ↔
      image.Spells offset bytes ∧ image.Spells (offset + bytes.length) rest := by
  induction bytes generalizing offset with
  | nil => simp [Spells]
  | cons b bytes ih =>
    have hoffset : offset + 1 + bytes.length = offset + (bytes.length + 1) := by omega
    simp only [List.cons_append, Spells, ih, List.length_cons, hoffset, and_assoc]

theorem Image.spells_iff (image : Image) (offset : Nat) (bytes : List UInt8) :
    image.Spells offset bytes ↔
      ∀ (k : Nat) (h : k < bytes.length), image.byte (offset + k) = .ok bytes[k] := by
  induction bytes generalizing offset with
  | nil => simp [Spells]
  | cons b rest ih =>
    simp only [Spells, ih]
    constructor
    · rintro ⟨hb, hrest⟩ k hk
      cases k with
      | zero => exact hb
      | succ k =>
        have h := hrest k (Nat.lt_of_succ_lt_succ hk)
        rwa [Nat.add_assoc, Nat.add_comm 1 k] at h
    · intro h
      refine ⟨h 0 (Nat.succ_pos _), fun k hk => ?_⟩
      rw [Nat.add_assoc, Nat.add_comm 1 k]
      exact h (k + 1) (Nat.succ_lt_succ hk)

theorem Rom.word_eq_ok_iff (rom : Rom) (offset : Nat) (value : UInt16) :
    rom.word offset = .ok value ↔ ∃ b0 b1, rom.byte offset = .ok b0 ∧
      rom.byte (offset + 1) = .ok b1 ∧ [b0, b1] = wordBytes value := by
  simp only [byte_eq_ok_iff, ← wordOf_eq_iff]
  unfold word
  split
  · rename_i b0 b1 h0 h1
    simp [h0, h1]
  · rename_i h
    simp only [reduceCtorEq, false_iff]
    rintro ⟨b0, b1, h0, h1, -⟩
    exact h b0 b1 h0 h1

theorem Rom.dword_eq_ok_iff (rom : Rom) (offset : Nat) (value : UInt32) :
    rom.dword offset = .ok value ↔ ∃ b0 b1 b2 b3, rom.byte offset = .ok b0 ∧
      rom.byte (offset + 1) = .ok b1 ∧ rom.byte (offset + 2) = .ok b2 ∧
        rom.byte (offset + 3) = .ok b3 ∧ [b0, b1, b2, b3] = dwordBytes value := by
  simp only [byte_eq_ok_iff, ← dwordOf_eq_iff]
  unfold dword
  split
  · rename_i b0 b1 b2 b3 h0 h1 h2 h3
    simp [h0, h1, h2, h3]
  · rename_i h
    simp only [reduceCtorEq, false_iff]
    rintro ⟨b0, b1, b2, b3, h0, h1, h2, h3, -⟩
    exact h b0 b1 b2 b3 h0 h1 h2 h3

theorem Image.spells_wordBytes (image : Image) (offset : Nat) (value : UInt16) :
    image.Spells offset (wordBytes value) ↔ image.word offset = .ok value := by
  refine Iff.trans ?_ (Rom.word_eq_ok_iff image.rom offset value).symm
  simp only [wordBytes, Spells, and_true, List.cons.injEq]
  exact ⟨fun ⟨h0, h1⟩ => ⟨_, _, h0, h1, rfl, rfl⟩, fun ⟨_, _, h0, h1, e0, e1⟩ => ⟨e0 ▸ h0, e1 ▸ h1⟩⟩

theorem Image.spells_dwordBytes (image : Image) (offset : Nat) (value : UInt32) :
    image.Spells offset (dwordBytes value) ↔ image.dword offset = .ok value := by
  refine Iff.trans ?_ (Rom.dword_eq_ok_iff image.rom offset value).symm
  simp only [dwordBytes, Spells, and_true, List.cons.injEq]
  constructor
  · rintro ⟨h0, h1, h2, h3⟩
    exact ⟨_, _, _, _, h0, h1, h2, h3, rfl, rfl, rfl, rfl⟩
  · rintro ⟨_, _, _, _, h0, h1, h2, h3, rfl, rfl, rfl, rfl⟩
    exact ⟨h0, h1, h2, h3⟩

theorem Rom.slice_eq_ok_iff (rom : Rom) (offset : Nat) (bytes : List UInt8) :
    rom.slice offset bytes.length = .ok bytes ↔ offset + bytes.length ≤ rom.length ∧
      ∀ (k : Nat) (h : k < bytes.length), rom.byte (offset + k) = .ok bytes[k] := by
  simp only [byte_eq_ok_iff]
  unfold slice
  by_cases hle : offset + bytes.length ≤ rom.length
  · have hextract (k : Nat) (hk : k < bytes.length) :
        (rom.bytes.extract offset (offset + bytes.length)).toList[k]? =
          rom.bytes[offset + k]? := by
      have hsize : offset + bytes.length ≤ rom.bytes.size := hle
      rw [Array.getElem?_toList, Array.getElem?_extract, if_pos (by omega)]
    rw [if_pos hle, Except.ok.injEq]
    constructor
    · intro hs
      refine ⟨hle, fun k hk => ?_⟩
      rw [← hextract k hk, hs, List.getElem?_eq_getElem hk]
    · rintro ⟨-, hs⟩
      refine List.ext_getElem? fun k => ?_
      rcases Nat.lt_or_ge k bytes.length with hk | hk
      · rw [hextract k hk, hs k hk, List.getElem?_eq_getElem hk]
      · rw [List.getElem?_eq_none hk, List.getElem?_eq_none]
        simp only [Array.length_toList, Array.size_extract]
        omega
  · simp [hle]

theorem Image.spells_iff_slice (image : Image) {offset : Nat} {bytes : List UInt8}
    (h : offset ≤ image.length) :
    image.Spells offset bytes ↔ image.slice offset bytes.length = .ok bytes := by
  have hslice : image.slice offset bytes.length = .ok bytes ↔ _ :=
    Rom.slice_eq_ok_iff image.rom offset bytes
  rw [spells_iff, hslice]
  refine ⟨fun hs => ⟨?_, hs⟩, And.right⟩
  cases hn : bytes.length with
  | zero => exact h
  | succ n =>
    have hlast := lt_length_of_byte (hs n (by omega))
    exact hlast

end RomScript
