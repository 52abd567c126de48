import RomScript.Image.Error

/-!
# Firmware bytes

Every read names its offset as an unbounded number and succeeds exactly when all
of its bytes are inside the image. Numbers of several bytes are stored with the
low byte first. A refused read reports the offset, the width and the length.
-/

set_option autoImplicit false

namespace RomScript

def wordOf (b0 b1 : UInt8) : UInt16 := UInt16.ofNat (b0.toNat + 256 * b1.toNat)

def dwordOf (b0 b1 b2 b3 : UInt8) : UInt32 :=
  UInt32.ofNat (b0.toNat + 256 * (b1.toNat + 256 * (b2.toNat + 256 * b3.toNat)))

theorem toNat_wordOf (b0 b1 : UInt8) : (wordOf b0 b1).toNat = b0.toNat + 256 * b1.toNat := by
  have h0 := b0.toNat_lt
  have h1 := b1.toNat_lt
  simp only [wordOf, UInt16.toNat_ofNat']
  omega

theorem toNat_dwordOf (b0 b1 b2 b3 : UInt8) :
    (dwordOf b0 b1 b2 b3).toNat =
      b0.toNat + 256 * (b1.toNat + 256 * (b2.toNat + 256 * b3.toNat)) := by
  have h0 := b0.toNat_lt
  have h1 := b1.toNat_lt
  have h2 := b2.toNat_lt
  have h3 := b3.toNat_lt
  simp only [dwordOf, UInt32.toNat_ofNat']
  omega

structure Rom where
  bytes : Array UInt8
  deriving DecidableEq, Inhabited

namespace Rom

def length (rom : Rom) : Nat := rom.bytes.size

def outside (rom : Rom) (offset width : Nat) : ImageError := .outOfBounds offset width rom.length

def byte (rom : Rom) (offset : Nat) : Except ImageError UInt8 :=
  match rom.bytes[offset]? with
  | some b => .ok b
  | none => .error (rom.outside offset 1)

def word (rom : Rom) (offset : Nat) : Except ImageError UInt16 :=
  match rom.bytes[offset]?, rom.bytes[offset + 1]? with
  | some b0, some b1 => .ok (wordOf b0 b1)
  | _, _ => .error (rom.outside offset 2)

def dword (rom : Rom) (offset : Nat) : Except ImageError UInt32 :=
  match rom.bytes[offset]?, rom.bytes[offset + 1]?, rom.bytes[offset + 2]?,
    rom.bytes[offset + 3]? with
  | some b0, some b1, some b2, some b3 => .ok (dwordOf b0 b1 b2 b3)
  | _, _, _, _ => .error (rom.outside offset 4)

/-- The `count` bytes from `offset` on; no byte at all may also stand at the very end. -/
def slice (rom : Rom) (offset count : Nat) : Except ImageError (List UInt8) :=
  if offset + count ≤ rom.length then
    .ok (rom.bytes.extract offset (offset + count)).toList
  else
    .error (rom.outside offset count)

def signedByte (rom : Rom) (offset : Nat) : Except ImageError Int8 :=
  (rom.byte offset).map UInt8.toInt8

def matchesAt (rom : Rom) : List UInt8 → Nat → Bool
  | [], _ => true
  | b :: rest, offset => rom.bytes[offset]? == some b && rom.matchesAt rest (offset + 1)

/-- The first place where `pattern` stands in the image. The empty pattern stands nowhere. -/
def find? (rom : Rom) (pattern : List UInt8) : Option Nat :=
  if pattern.isEmpty then none
  else (List.range rom.length).find? (rom.matchesAt pattern)

theorem byte_eq_ok_iff (rom : Rom) (offset : Nat) (b : UInt8) :
    rom.byte offset = .ok b ↔ rom.bytes[offset]? = some b := by
  unfold byte
  split <;> simp_all

theorem exists_byte_of_lt (rom : Rom) {offset : Nat} (h : offset < rom.length) :
    ∃ b, rom.byte offset = .ok b := by
  simp [byte, Array.getElem?_eq_getElem h]

theorem byte_of_le (rom : Rom) {offset : Nat} (h : rom.length ≤ offset) :
    rom.byte offset = .error (rom.outside offset 1) := by
  simp [byte, Array.getElem?_eq_none h]

theorem length_slice {rom : Rom} {offset count : Nat} {bytes : List UInt8}
    (h : rom.slice offset count = .ok bytes) : bytes.length = count := by
  unfold slice length at h
  split at h
  · cases h
    simp only [Array.length_toList, Array.size_extract]
    omega
  · cases h

end Rom

end RomScript
