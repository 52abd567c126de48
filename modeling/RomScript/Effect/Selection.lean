import RomScript.Effect.Basic
import RomScript.Image.Entries

/-!
# Selecting by board

Some instructions pick one of their operands by a field of a port or by the RAM
configuration of the board. The RAM column is found out from the straps once in a run
and then remembered; a column that the image has no data for is refused every time.
-/

set_option autoImplicit false

namespace RomScript

def crtcPort : UInt16 := 0x3d4

def sequencerPort : UInt16 := 0x3c4

/-- The boot straps, of which four bits give the RAM configuration. -/
def strapsReg : UInt32 := 0x101000

def ramStatusReg : UInt32 := 0x100000

/-- A shift operand below `0x80` shifts right, any other one left by its distance to `0x100`. -/
def shiftBy (shift : UInt8) (value : UInt32) : UInt32 :=
  if shift < 0x80 then UInt32.ofNat (value.toNat >>> shift.toNat)
  else UInt32.ofNat (value.toNat <<< (0x100 - shift.toNat))

/-- The RAM configuration in the straps. -/
def strapOf (straps : UInt32) : UInt8 := ((straps &&& 0x3c) >>> 2).toUInt8

namespace Effect

variable {α : Type}

def portSelector (field : PortField) : Effect Nat := do
  let value ← readIndexed field.port field.index
  return field.position value

def select (operand : BoundedOperand) (values : List α) (position : Nat) : Effect α :=
  match values[position]? with
  | some value => .done value
  | none => .fail (.outOfRange operand position values.length)

def selectByPort (field : PortField) (values : List α) : Effect α := do
  let position ← portSelector field
  select .portSelector values position

/-- The strap map's entry for this board, read from the straps on first use. -/
def boardColumn (image : Image) : Effect UInt8 :=
  .getColumn fun
    | some column => .done column
    | none => do
      let straps ← readReg strapsReg
      let column ← ofImage (image.ramColumn (strapOf straps))
      .setColumn column (.done column)

/-- The RAM column of this board, which has to be one that the image has data for. -/
def ramColumn (image : Image) : Effect Nat := do
  let column ← boardColumn image
  if column.toNat < image.ramGroups then return column.toNat
  else .fail (.outOfRange .ramColumn column.toNat image.ramGroups)

def portFlagMet (image : Image) (index : UInt8) : Effect Bool := do
  let entry ← ofImage (image.ioFlagCondition index)
  let position ← portSelector entry.field
  let flags ← ofImage (image.byte (entry.flagArray.toNat + position))
  return flags &&& entry.flagMask == entry.value

end Effect

end RomScript
