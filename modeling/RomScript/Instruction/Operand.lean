import RomScript.Image.Entries

/-!
# Operand text

Operands are printed as register transfers: registers as `R`, indexed ports as
`IO`, controller registers as `CR`, and buses by number and address. Every number
has a fixed least width, and lists stand between braces.
-/

set_option autoImplicit false

namespace RomScript

/-- An I2C bus and the eight-bit bus address stored in the script. -/
structure BusAddress where
  bus : UInt8
  addr : UInt8
  deriving DecidableEq, Repr

structure BytePair where
  target : UInt8
  data : UInt8
  deriving DecidableEq, Repr

/-- Bits to keep and bits to add. -/
structure MaskedByte where
  mask : UInt8
  data : UInt8
  deriving DecidableEq, Repr

structure MaskedWrite where
  target : UInt8
  mask : UInt8
  data : UInt8
  deriving DecidableEq, Repr

def byteText (value : UInt8) : String := hexLit 2 value.toNat

def wordText (value : UInt16) : String := hexLit 4 value.toNat

def dwordText (value : UInt32) : String := hexLit 8 value.toNat

def regText (reg : UInt32) : String := "R[" ++ hexLit 6 reg.toNat ++ "]"

def indexedText (port : UInt16) (index : UInt8) : String :=
  "IO[" ++ wordText port ++ "][" ++ byteText index ++ "]"

def crText (index : UInt8) : String := "CR[" ++ byteText index ++ "]"

def BusAddress.text (target : BusAddress) : String :=
  "I2C[" ++ byteText target.bus ++ "][" ++ byteText target.addr ++ "]"

def PortField.text (field : PortField) : String :=
  "(" ++ indexedText field.port field.index ++ " & " ++ byteText field.mask ++ ") >> " ++
    toString field.shift.toNat

/-- A shift operand below `0x80` shifts right, any other one left by its distance to `0x100`. -/
def shiftText (shift : UInt8) : String :=
  if shift < 0x80 then " >> " ++ toString shift.toNat
  else " << " ++ toString (0x100 - shift.toNat)

def mergeText (mask data : String) : String := " &= " ++ mask ++ " |= " ++ data

def bracedText (items : List String) : String := "\x7b" ++ ", ".intercalate items ++ "\x7d"

def dwordsText (values : List UInt32) : String := bracedText (values.map dwordText)

def decimalsText (values : List Nat) : String := bracedText (values.map fun value => toString value)

def BytePair.text (pair : BytePair) : String :=
  "[" ++ byteText pair.target ++ "] = " ++ byteText pair.data

def pairsText (pairs : List BytePair) : String := bracedText (pairs.map BytePair.text)

end RomScript
