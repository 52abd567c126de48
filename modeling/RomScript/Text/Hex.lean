/-!
# Hexadecimal text

Numbers are written with lower-case digits and a least width; a number that
needs more digits is written in full. Byte strings are written as pairs of
digits between single blanks. The width of an offset column is fixed by the
last offset of the image.
-/

set_option autoImplicit false

namespace RomScript

def hexDigits (width n : Nat) : List Char :=
  List.replicate (width - (Nat.toDigits 16 n).length) '0' ++ Nat.toDigits 16 n

def hex (width n : Nat) : String := String.ofList (hexDigits width n)

/-- The digits of `n` behind the mark `0x`; the mark does not count towards the width. -/
def hexLit (width n : Nat) : String := "0x" ++ hex width n

def hexBytes (bytes : List UInt8) : String :=
  " ".intercalate (bytes.map fun byte => hex 2 byte.toNat)

/-- Digits needed to write every offset below `length`, never fewer than four. -/
def hexWidth (length : Nat) : Nat := max 4 (Nat.toDigits 16 (length - 1)).length

@[simp] theorem toList_hex (width n : Nat) : (hex width n).toList = hexDigits width n := by
  simp [hex]

theorem length_hexDigits (width n : Nat) :
    (hexDigits width n).length = max width (Nat.toDigits 16 n).length := by
  simp only [hexDigits, List.length_append, List.length_replicate]
  omega

end RomScript
