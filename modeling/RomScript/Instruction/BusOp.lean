import RomScript.Instruction.Operand
import RomScript.Opcode

/-!
# Bus operations

These transfer bytes over the I2C and AUX buses and program the TMDS links.
-/

set_option autoImplicit false

namespace RomScript

inductive BusOp
  | i2cByte (target : BusAddress) (writes : List MaskedWrite)
  | zmI2cByte (target : BusAddress) (writes : List BytePair)
  | zmI2c (target : BusAddress) (data : List UInt8)
  | auxch (addr : UInt32) (writes : List MaskedByte)
  | zmAuxch (addr : UInt32) (data : List UInt8)
  | tmds (link addr mask data : UInt8)
  | zmTmdsGroup (link : UInt8) (writes : List BytePair)
  deriving DecidableEq, Repr

namespace BusOp

def opcode : BusOp → Opcode
  | .i2cByte .. => .i2cByte
  | .zmI2cByte .. => .zmI2cByte
  | .zmI2c .. => .zmI2c
  | .auxch .. => .auxch
  | .zmAuxch .. => .zmAuxch
  | .tmds .. => .tmds
  | .zmTmdsGroup .. => .zmTmdsGroup

def tailSize : BusOp → Nat
  | .i2cByte _ writes => writes.length * 3
  | .zmI2cByte _ writes => writes.length * 2
  | .zmI2c _ data => data.length
  | .auxch _ writes => writes.length * 2
  | .zmAuxch _ data => data.length
  | .tmds .. => 0
  | .zmTmdsGroup _ writes => writes.length * 2

def operands : BusOp → String
  | .i2cByte target writes =>
    target.text ++ " " ++ bracedText (writes.map fun write =>
      "[" ++ byteText write.target ++ "]" ++ mergeText (byteText write.mask) (byteText write.data))
  | .zmI2cByte target writes => target.text ++ " " ++ pairsText writes
  | .zmI2c target data => target.text ++ " = " ++ hexBytes data
  | .auxch addr writes =>
    "AUX[" ++ dwordText addr ++ "] " ++ bracedText (writes.map fun write =>
      "&= " ++ byteText write.mask ++ " |= " ++ byteText write.data)
  | .zmAuxch addr data => "AUX[" ++ dwordText addr ++ "] = " ++ hexBytes data
  | .tmds link addr mask data =>
    "T[" ++ byteText link ++ "][" ++ byteText addr ++ "]" ++
      mergeText (byteText mask) (byteText data)
  | .zmTmdsGroup link writes => "T[" ++ byteText link ++ "] " ++ pairsText writes

end BusOp

end RomScript
