import RomScript.Image.Header
import RomScript.OrderedMap

/-!
# The table directory

The directory records the tables in the order in which the header names them.
A stored pointer of zero means that the table is absent, so no recorded offset is
zero. The directory also holds the number of RAM-restrict groups and the legacy
mark.
-/

set_option autoImplicit false

namespace RomScript

structure Directory where
  tables : OrderedMap TableId UInt16
  ramGroups : UInt8
  isLegacy : Bool
  deriving Inhabited

namespace Directory

def empty : Directory := { tables := .empty, ramGroups := 0, isLegacy := false }

/-- Records a table; the pointer zero records nothing. -/
def insert (directory : Directory) (table : TableId) (offset : UInt16) : Directory :=
  if offset = 0 then directory
  else { directory with tables := directory.tables.insert table offset }

def get? (directory : Directory) (table : TableId) : Option UInt16 := directory.tables.get? table

def contains (directory : Directory) (table : TableId) : Bool := directory.tables.contains table

def entries (directory : Directory) : List (TableId × UInt16) := directory.tables.entries

def ofList (pairs : List (TableId × UInt16)) (ramGroups : UInt8) (isLegacy : Bool) : Directory :=
  pairs.foldl (fun directory pair => directory.insert pair.1 pair.2)
    { empty with ramGroups, isLegacy }

def load (rom : Rom) (table : TableId) (offset : Nat) (directory : Directory) :
    Except ImageError Directory := do
  let pointer ← rom.word offset
  return directory.insert table pointer

def loadAll (rom : Rom) : List TableId → Nat → Directory → Except ImageError Directory
  | [], _, directory => .ok directory
  | table :: rest, offset, directory => do
    let directory ← load rom table offset directory
    loadAll rom rest (offset + 2) directory

def pointerBlockSize : Nat := 12

/-- The entry `I` of a BIT header points at the pointer block and, in its longer form, at
the XLAT arrays. -/
def loadInit (rom : Rom) (header : BitHeader) (directory : Directory) :
    Except ImageError Directory :=
  match header.entry? 0x49 with
  | none => .ok directory
  | some entry =>
    if entry.length.toNat < pointerBlockSize then .ok directory
    else do
      let directory ← loadAll rom TableId.pointerBlock entry.offset.toNat directory
      if entry.length.toNat < 16 then return directory
      else load rom .xlat (entry.offset.toNat + 14) directory

/-- The entry `M` of a BIT header gives the group count and the strap map, at places that
depend on its version. -/
def loadMemory (rom : Rom) (header : BitHeader) (directory : Directory) :
    Except ImageError Directory :=
  let groupsAt (offset : Nat) : Except ImageError Directory := do
    let ramGroups ← rom.byte offset
    load rom .ramRestrict (offset + 1) { directory with ramGroups }
  match header.entry? 0x4d with
  | none => .ok directory
  | some entry =>
    if entry.version = 1 ∧ 5 ≤ entry.length.toNat then groupsAt (entry.offset.toNat + 2)
    else if entry.version = 2 ∧ 3 ≤ entry.length.toNat then groupsAt entry.offset.toNat
    else .ok directory

def loadClock (rom : Rom) (header : BitHeader) (directory : Directory) :
    Except ImageError Directory :=
  match header.entry? 0x43 with
  | none => .ok directory
  | some entry =>
    if entry.length.toNat < 10 then .ok directory
    else load rom .pllLimits (entry.offset.toNat + 8) directory

def ofBit (rom : Rom) (header : BitHeader) : Except ImageError Directory := do
  let directory ← loadInit rom header empty
  let directory ← loadMemory rom header directory
  loadClock rom header directory

/-- Loads a part of a BMP header if all of the header up to `size` bytes is in the image. -/
def loadWithin (rom : Rom) (header : BmpHeader) (size : Nat)
    (part : Directory → Except ImageError Directory) (directory : Directory) :
    Except ImageError Directory :=
  if header.offset + size ≤ rom.length then part directory else .ok directory

def ofBmp (rom : Rom) (header : BmpHeader) : Except ImageError Directory := do
  let start : Directory := { empty with isLegacy := header.isLegacy }
  let directory ←
    if header.isLegacy then
      loadWithin rom header 30
        (loadAll rom [.memInit, .sdrSequence, .ddrSequence] (header.offset + 24)) start
    else .ok start
  let directory ←
    loadWithin rom header 87 (loadAll rom TableId.pointerBlock (header.offset + 75)) directory
  loadWithin rom header 144 (load rom .pllLimits (header.offset + 142)) directory

theorem get?_insert (directory : Directory) (table other : TableId) (offset : UInt16) :
    (directory.insert table offset).get? other =
      if table = other ∧ offset ≠ 0 then some offset else directory.get? other := by
  unfold insert
  split
  · simp_all
  · simp_all [get?, OrderedMap.get?_insert]

end Directory

end RomScript
