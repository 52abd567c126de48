import RomScript.Text.Hex

/-!
# Failures of a device

Registers and ports always answer. Transfers on a bus and the programming of a
clock can fail.
-/

set_option autoImplicit false

namespace RomScript

inductive TransferError
  | noDevice (bus : UInt8) (addr : UInt32)
  | nak (bus : UInt8) (addr : UInt32)
  deriving DecidableEq, Repr

def TransferError.message : TransferError → String
  | .noDevice bus addr =>
    "no device at bus " ++ toString bus.toNat ++ " address " ++ hexLit 1 addr.toNat
  | .nak bus addr =>
    "device at bus " ++ toString bus.toNat ++ " address " ++ hexLit 1 addr.toNat ++
      " did not acknowledge"

inductive PllError
  | noLimits (reg : UInt32)
  | outOfRange (reg khz : UInt32)
  deriving DecidableEq, Repr

def PllError.message : PllError → String
  | .noLimits reg => "no PLL limits for register " ++ hexLit 6 reg.toNat
  | .outOfRange reg khz =>
    toString khz.toNat ++ " kHz is out of range for PLL " ++ hexLit 6 reg.toNat

end RomScript
