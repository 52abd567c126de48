import RomScript.Image.Rom

/-!
# Headers

A header is found by its five-byte signature. A BIT header carries a list of
typed entries that point at further data; a BMP header keeps its pointers at
fixed places and is legacy up to major version two.
-/

set_option autoImplicit false

namespace RomScript

def bitSignature : List UInt8 := [0xff, 0xb8, 0x42, 0x49, 0x54]

def bmpSignature : List UInt8 := [0xff, 0x7f, 0x4e, 0x56, 0x00]

structure BitEntry where
  id : UInt8
  version : UInt8
  length : UInt16
  offset : UInt16
  deriving DecidableEq, Repr

namespace BitEntry

/-- The bytes an entry takes up; a header with a shorter stride has no entries. -/
def size : Nat := 6

def read (rom : Rom) (offset : Nat) : Except ImageError BitEntry := do
  let id ← rom.byte offset
  let version ← rom.byte (offset + 1)
  let length ← rom.word (offset + 2)
  let target ← rom.word (offset + 4)
  return { id, version, length, offset := target }

def readAll (rom : Rom) (stride : Nat) : Nat → Nat → Except ImageError (List BitEntry)
  | 0, _ => .ok []
  | count + 1, offset => do
    let entry ← read rom offset
    let rest ← readAll rom stride count (offset + stride)
    return entry :: rest

end BitEntry

structure BitHeader where
  offset : Nat
  version : UInt16
  headerLength : UInt8
  entryLength : UInt8
  entries : List BitEntry
  deriving DecidableEq, Repr

namespace BitHeader

/-- Where the entries begin, counted from the signature. -/
def entriesOffset : Nat := 12

def read (rom : Rom) (offset : Nat) : Except ImageError BitHeader := do
  let version ← rom.word (offset + 6)
  let headerLength ← rom.byte (offset + 8)
  let entryLength ← rom.byte (offset + 9)
  let count ← rom.byte (offset + 10)
  let entries ←
    if BitEntry.size ≤ entryLength.toNat then
      BitEntry.readAll rom entryLength.toNat count.toNat (offset + entriesOffset)
    else .ok []
  return { offset, version, headerLength, entryLength, entries }

/-- The first entry of a kind; later ones of the same kind are not used. -/
def entry? (header : BitHeader) (id : UInt8) : Option BitEntry :=
  header.entries.find? fun entry => entry.id == id

end BitHeader

structure BmpHeader where
  offset : Nat
  major : UInt8
  minor : UInt8
  deriving DecidableEq, Repr

namespace BmpHeader

def read (rom : Rom) (offset : Nat) : Except ImageError BmpHeader := do
  let major ← rom.byte (offset + 5)
  let minor ← rom.byte (offset + 6)
  return { offset, major, minor }

def isLegacy (header : BmpHeader) : Bool := header.major ≤ 2

end BmpHeader

/-- What an image's directory was resolved from; `raw` has no header. -/
inductive ImageFormat
  | bit (header : BitHeader)
  | bmp (header : BmpHeader)
  | raw
  deriving DecidableEq, Repr

def ImageFormat.name : ImageFormat → String
  | .bit _ => "BIT"
  | .bmp _ => "BMP"
  | .raw => "raw"

end RomScript
