import RomScript.Image.Table
import RomScript.Text.Hex

/-!
# Failures of an image

Resolving an image fails when it has no header; reading from it fails when the
bytes are not all inside it or when the table is absent.
-/

set_option autoImplicit false

namespace RomScript

inductive ImageError
  | noHeader (length : Nat)
  | outOfBounds (offset width length : Nat)
  | missingTable (table : TableId)
  deriving DecidableEq, Repr

def ImageError.message : ImageError → String
  | .noHeader length => "no BIT or BMP signature found in " ++ toString length ++ "-byte image"
  | .outOfBounds offset width length =>
    "read of " ++ toString width ++ " byte(s) at " ++ hexLit 4 offset ++
      " is past the end of the image (" ++ toString length ++ " bytes)"
  | .missingTable table => "image has no " ++ table.name ++ " table"

inductive DecodeError
  | unknownOpcode (offset : Nat) (id : UInt8)
  | image (cause : ImageError)
  deriving DecidableEq, Repr

def DecodeError.message : DecodeError → String
  | .unknownOpcode offset id =>
    "unknown opcode " ++ hexLit 2 id.toNat ++ " at " ++ hexLit 4 offset
  | .image cause => cause.message

end RomScript
