import RomScript.Instruction.Operand
import RomScript.Opcode

/-!
# Board operations

These ask the board for work that the script does not describe, and bring up the
memory of legacy boards.
-/

set_option autoImplicit false

namespace RomScript

inductive BoardOp
  | computeMem
  | gpio
  | gpioNe (functions : List UInt8)
  | configureMem
  | configureClk
  | configurePreinit
  deriving DecidableEq, Repr

namespace BoardOp

def opcode : BoardOp → Opcode
  | .computeMem => .computeMem
  | .gpio => .gpio
  | .gpioNe .. => .gpioNe
  | .configureMem => .configureMem
  | .configureClk => .configureClk
  | .configurePreinit => .configurePreinit

def tailSize : BoardOp → Nat
  | .gpioNe functions => functions.length
  | _ => 0

def operands : BoardOp → String
  | .gpioNe functions => "except " ++ hexBytes functions
  | _ => ""

end BoardOp

end RomScript
