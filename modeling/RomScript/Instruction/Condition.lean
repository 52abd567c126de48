import RomScript.Instruction.Operand
import RomScript.Opcode

/-!
# Conditions

A condition compares a masked value of the device and turns the execute flag off
unless the comparison holds. It never turns the flag on.
-/

set_option autoImplicit false

namespace RomScript

inductive Condition
  | register (index : UInt8)
  | port (index : UInt8)
  | portFlag (index : UInt8)
  | displayPort (test size : UInt8)
  | polled (index retries : UInt8)
  | ramStatus (mask value : UInt8)
  | straps (mask value : UInt32)
  | i2c (target : BusAddress) (reg mask data : UInt8)
  | i2cLong (target : BusAddress) (regLow regHigh mask data : UInt8)
  deriving DecidableEq, Repr

namespace Condition

def opcode : Condition → Opcode
  | .register .. => .condition
  | .port .. => .ioCondition
  | .portFlag .. => .ioFlagCondition
  | .displayPort .. => .dpCondition
  | .polled .. => .conditionTime
  | .ramStatus .. => .ramCondition
  | .straps .. => .ramCondition2
  | .i2c .. => .i2cIf
  | .i2cLong .. => .i2cLongIf

def operands : Condition → String
  | .register index | .port index | .portFlag index => byteText index
  | .displayPort test size => byteText test ++ " " ++ byteText size
  | .polled index retries => byteText index ++ " retries " ++ toString retries.toNat
  | .ramStatus mask value => "(R[0x100000] & " ++ byteText mask ++ ") == " ++ byteText value
  | .straps mask value => "(R[0x101000] & " ++ dwordText mask ++ ") == " ++ dwordText value
  | .i2c target reg mask data =>
    target.text ++ "[" ++ byteText reg ++ "] & " ++ byteText mask ++ " == " ++ byteText data
  | .i2cLong target regLow regHigh mask data =>
    target.text ++ "[0x" ++ hex 2 regHigh.toNat ++ hex 2 regLow.toNat ++ "] & " ++
      byteText mask ++ " == " ++ byteText data

end Condition

end RomScript
