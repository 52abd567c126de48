import RomScript.Image.Directory

/-!
# Images

An image is the firmware bytes with the directory resolved from them. BIT wins
when both signatures are present. An image can also be made from bytes and a
directory given by hand, or from a bare script without any table.
-/

set_option autoImplicit false

namespace RomScript

structure Image where
  rom : Rom
  format : ImageFormat
  directory : Directory

namespace Image

def resolve (rom : Rom) : Except ImageError Image :=
  match rom.find? bitSignature with
  | some offset => do
    let header ← BitHeader.read rom offset
    let directory ← Directory.ofBit rom header
    return { rom, format := .bit header, directory }
  | none =>
    match rom.find? bmpSignature with
    | some offset => do
      let header ← BmpHeader.read rom offset
      let directory ← Directory.ofBmp rom header
      return { rom, format := .bmp header, directory }
    | none => .error (.noHeader rom.length)

def withDirectory (rom : Rom) (directory : Directory) : Image := { rom, format := .raw, directory }

def ofScript (rom : Rom) : Image := withDirectory rom .empty

def length (image : Image) : Nat := image.rom.length

def byte (image : Image) (offset : Nat) : Except ImageError UInt8 := image.rom.byte offset

def word (image : Image) (offset : Nat) : Except ImageError UInt16 := image.rom.word offset

def dword (image : Image) (offset : Nat) : Except ImageError UInt32 := image.rom.dword offset

def slice (image : Image) (offset count : Nat) : Except ImageError (List UInt8) :=
  image.rom.slice offset count

/-- Only legacy images carry the tables that the CONFIGURE opcodes use. -/
def isLegacy (image : Image) : Bool :=
  match image.format with
  | .bmp header => header.isLegacy
  | .bit _ => false
  | .raw => image.directory.isLegacy

/-- The number of columns in the RAM-restrict tails. -/
def ramGroups (image : Image) : Nat := image.directory.ramGroups.toNat

def table (image : Image) (id : TableId) : Except ImageError Nat :=
  match image.directory.get? id with
  | some offset => .ok offset.toNat
  | none => .error (.missingTable id)

end Image

end RomScript
