import RomScript.Instruction.Operand
import RomScript.Opcode

/-!
# Port operations

These write input and output ports, directly or behind an index; the display
controller has its own indexed port.
-/

set_option autoImplicit false

namespace RomScript

inductive PortOp
  | io (port : UInt16) (mask data : UInt8)
  | indexIo (port : UInt16) (index mask data : UInt8)
  | zmIndexIo (port : UInt16) (index data : UInt8)
  | cr (index mask data : UInt8)
  | zmCr (index data : UInt8)
  | zmCrGroup (writes : List BytePair)
  | crIndexAddressLatched (index1 index2 base : UInt8) (data : List UInt8)
  | ioMaskOr (index : UInt8)
  | ioOr (index : UInt8)
  | copy (reg : UInt32) (shift srcMask : UInt8) (port : UInt16) (index mask : UInt8)
  deriving DecidableEq, Repr

namespace PortOp

def opcode : PortOp → Opcode
  | .io .. => .io
  | .indexIo .. => .indexIo
  | .zmIndexIo .. => .zmIndexIo
  | .cr .. => .cr
  | .zmCr .. => .zmCr
  | .zmCrGroup .. => .zmCrGroup
  | .crIndexAddressLatched .. => .crIndexAddressLatched
  | .ioMaskOr .. => .ioMaskOr
  | .ioOr .. => .ioOr
  | .copy .. => .copy

def tailSize : PortOp → Nat
  | .zmCrGroup writes => writes.length * 2
  | .crIndexAddressLatched _ _ _ data => data.length
  | _ => 0

def operands : PortOp → String
  | .io port mask data => "IO[" ++ wordText port ++ "]" ++ mergeText (byteText mask) (byteText data)
  | .indexIo port index mask data =>
    indexedText port index ++ mergeText (byteText mask) (byteText data)
  | .zmIndexIo port index data => indexedText port index ++ " = " ++ byteText data
  | .cr index mask data => crText index ++ mergeText (byteText mask) (byteText data)
  | .zmCr index data => crText index ++ " = " ++ byteText data
  | .zmCrGroup writes => "CR " ++ pairsText writes
  | .crIndexAddressLatched index1 index2 base data =>
    crText index1 ++ " " ++ crText index2 ++ " from " ++ byteText base ++ " = " ++ hexBytes data
  | .ioMaskOr index => crText index ++ " &= ~(1 << OR)"
  | .ioOr index => crText index ++ " |= (1 << OR)"
  | .copy reg shift srcMask port index mask =>
    indexedText port index ++ " = (" ++ indexedText port index ++ " & " ++ byteText mask ++
      ") | ((" ++ regText reg ++ shiftText shift ++ ") & " ++ byteText srcMask ++ ")"

end PortOp

end RomScript
