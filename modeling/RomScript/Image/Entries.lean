import RomScript.Image.Basic

/-!
# Table entries

Each table is an array of entries of one size, except for the lists that end at
a mark: script pointers end at zero and register sequences at a word of ones.
The fields of an entry are read in the order in which they are stored, and the
first one outside the image is the reported failure.
-/

set_option autoImplicit false

namespace RomScript

/-- The part of an indexed port that picks one element of a list:
the masked value, shifted right. -/
structure PortField where
  port : UInt16
  index : UInt8
  mask : UInt8
  shift : UInt8
  deriving DecidableEq, Repr

def PortField.position (field : PortField) (value : UInt8) : Nat :=
  (value &&& field.mask).toNat >>> field.shift.toNat

structure ConditionEntry where
  reg : UInt32
  mask : UInt32
  value : UInt32
  deriving DecidableEq, Repr

structure IoConditionEntry where
  port : UInt16
  index : UInt8
  mask : UInt8
  value : UInt8
  deriving DecidableEq, Repr

structure IoFlagConditionEntry where
  field : PortField
  flagArray : UInt16
  flagMask : UInt8
  value : UInt8
  deriving DecidableEq, Repr

structure MacroEntry where
  reg : UInt32
  value : UInt32
  deriving DecidableEq, Repr

structure MemInitEntry where
  offset : Nat
  flags : UInt8
  mpll : UInt16
  nvpll : UInt16
  deriving DecidableEq, Repr

namespace MemInitEntry

/-- The register values follow the flags and the two clock words. -/
def dataOffset (entry : MemInitEntry) : Nat := entry.offset + 6

def isDdr (entry : MemInitEntry) : Bool := entry.flags &&& 1 != 0

end MemInitEntry

/-- Ends a register sequence, and marks a data word that is not written. -/
def sequenceEnd : UInt32 := 0xffffffff

namespace Image

def entryOffset (image : Image) (id : TableId) (index size : Nat) : Except ImageError Nat := do
  let base ← image.table id
  return base + index * size

def scriptPointer (image : Image) (index : UInt8) : Except ImageError UInt16 := do
  let offset ← image.entryOffset .initScripts index.toNat 2
  image.word offset

/-- The pointers from `offset` on, at most `count`, up to the first zero or unreadable one. -/
def pointersFrom (image : Image) : Nat → Nat → List UInt16
  | 0, _ => []
  | count + 1, offset =>
    match image.word offset with
    | .error _ => []
    | .ok pointer =>
      if pointer = 0 then [] else pointer :: image.pointersFrom count (offset + 2)

def scriptPointers (image : Image) : Except ImageError (List UInt16) := do
  let base ← image.table .initScripts
  return image.pointersFrom 256 base

def condition (image : Image) (index : UInt8) : Except ImageError ConditionEntry := do
  let offset ← image.entryOffset .conditions index.toNat 12
  let reg ← image.dword offset
  let mask ← image.dword (offset + 4)
  let value ← image.dword (offset + 8)
  return { reg, mask, value }

def ioCondition (image : Image) (index : UInt8) : Except ImageError IoConditionEntry := do
  let offset ← image.entryOffset .ioConditions index.toNat 5
  let port ← image.word offset
  let selected ← image.byte (offset + 2)
  let mask ← image.byte (offset + 3)
  let value ← image.byte (offset + 4)
  return { port, index := selected, mask, value }

def ioFlagCondition (image : Image) (index : UInt8) : Except ImageError IoFlagConditionEntry := do
  let offset ← image.entryOffset .ioFlagConditions index.toNat 9
  let port ← image.word offset
  let selected ← image.byte (offset + 2)
  let mask ← image.byte (offset + 3)
  let shift ← image.byte (offset + 4)
  let flagArray ← image.word (offset + 5)
  let flagMask ← image.byte (offset + 7)
  let value ← image.byte (offset + 8)
  return { field := { port, index := selected, mask, shift }, flagArray, flagMask, value }

def macroRange (image : Image) (index : UInt8) : Except ImageError (UInt8 × UInt8) := do
  let offset ← image.entryOffset .macroIndex index.toNat 2
  let first ← image.byte offset
  let count ← image.byte (offset + 1)
  return (first, count)

def macroEntry (image : Image) (index : Nat) : Except ImageError MacroEntry := do
  let offset ← image.entryOffset .macros index 8
  let reg ← image.dword offset
  let value ← image.dword (offset + 4)
  return { reg, value }

def xlatByte (image : Image) (index position : UInt8) : Except ImageError UInt8 := do
  let offset ← image.entryOffset .xlat index.toNat 2
  let array ← image.word offset
  image.byte (array.toNat + position.toNat)

/-- The RAM-restrict column of a strap: its byte in the strap map, or the strap itself where
the image has no map. -/
def ramColumn (image : Image) (strap : UInt8) : Except ImageError UInt8 :=
  match image.directory.get? .ramRestrict with
  | some map => image.byte (map.toNat + strap.toNat)
  | none => .ok strap

def memInitEntry (image : Image) (index : UInt8) : Except ImageError MemInitEntry := do
  let offset ← image.entryOffset .memInit index.toNat 66
  let flags ← image.byte offset
  let mpll ← image.word (offset + 2)
  let nvpll ← image.word (offset + 4)
  return { offset, flags, mpll, nvpll }

/-- The registers from `offset` on, at most `count`, up to the end mark. -/
def registersFrom (image : Image) : Nat → Nat → Except ImageError (List UInt32)
  | 0, _ => .ok []
  | count + 1, offset => do
    let reg ← image.dword offset
    if reg = sequenceEnd then return []
    else
      let rest ← image.registersFrom count (offset + 4)
      return reg :: rest

def sequenceRegisters (image : Image) (ddr : Bool) : Except ImageError (List UInt32) := do
  let base ← image.table (if ddr then .ddrSequence else .sdrSequence)
  image.registersFrom 256 base

end Image

end RomScript
