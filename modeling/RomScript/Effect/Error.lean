import RomScript.Device.Error
import RomScript.Image.Error

/-!
# Failures of an instruction

An instruction that fails has no further effect, and the script goes on behind it.
-/

set_option autoImplicit false

namespace RomScript

inductive BoundedOperand
  | portSelector
  | ramColumn
  | jumpTarget
  deriving DecidableEq, Repr

def BoundedOperand.name : BoundedOperand → String
  | .portSelector => "io restrict index"
  | .ramColumn => "ram restrict column"
  | .jumpTarget => "jump target"

inductive InstructionError
  | outOfRange (operand : BoundedOperand) (value limit : Nat)
  | transfer (cause : TransferError)
  | pll (cause : PllError)
  | image (cause : ImageError)
  | decode (cause : DecodeError)
  | noTmdsRegister (link : UInt8)
  | recursionLimit (limit : Nat)
  | unsupportedTest (test : UInt8)
  deriving DecidableEq, Repr

def InstructionError.message : InstructionError → String
  | .outOfRange operand value limit =>
    operand.name ++ " " ++ toString value ++ " is out of range (limit " ++ toString limit ++ ")"
  | .transfer cause => "transfer failed: " ++ cause.message
  | .pll cause => "pll programming failed: " ++ cause.message
  | .image cause => cause.message
  | .decode cause => cause.message
  | .noTmdsRegister link => "no TMDS register for link " ++ hexLit 2 link.toNat
  | .recursionLimit limit => "recursion limit of " ++ toString limit ++ " exceeded"
  | .unsupportedTest test => "unsupported DP condition " ++ hexLit 2 test.toNat

end RomScript
