import RomScript.Instruction.Operand
import RomScript.Opcode

/-!
# Control instructions

These decide which instruction runs next or change the two flags of the script.
-/

set_option autoImplicit false

namespace RomScript

inductive Control
  | repeatBlock (count : UInt8)
  | endRepeat
  | negate
  | resume
  | done
  | jump (target : UInt16)
  | sub (index : UInt8)
  | subDirect (target : UInt16)
  | reserved (which : Reserved)
  deriving DecidableEq, Repr

namespace Control

def opcode : Control → Opcode
  | .repeatBlock .. => .repeatBlock
  | .endRepeat => .endRepeat
  | .negate => .negate
  | .resume => .resume
  | .done => .done
  | .jump .. => .jump
  | .sub .. => .sub
  | .subDirect .. => .subDirect
  | .reserved which => .reserved which

def operands : Control → String
  | .repeatBlock count => toString count.toNat
  | .endRepeat | .negate | .resume | .done => ""
  | .jump target | .subDirect target => wordText target
  | .sub index => byteText index
  | .reserved which => byteText (Opcode.reserved which).id

end Control

end RomScript
