import RomScript.Instruction.BoardOp
import RomScript.Instruction.BusOp
import RomScript.Instruction.ClockOp
import RomScript.Instruction.Condition
import RomScript.Instruction.Control
import RomScript.Instruction.PortOp
import RomScript.Instruction.RegisterOp

/-!
# Instructions

An instruction with its operands read. Only control instructions and conditions
touch the state of the script; all others act on the device alone. The size is
computed from the operands, and the text is the mnemonic with the operands.
-/

set_option autoImplicit false

namespace RomScript

inductive Instruction
  | control (op : Control)
  | condition (op : Condition)
  | register (op : RegisterOp)
  | port (op : PortOp)
  | clock (op : ClockOp)
  | bus (op : BusOp)
  | board (op : BoardOp)
  deriving DecidableEq, Repr

namespace Instruction

def opcode : Instruction → Opcode
  | .control op => op.opcode
  | .condition op => op.opcode
  | .register op => op.opcode
  | .port op => op.opcode
  | .clock op => op.opcode
  | .bus op => op.opcode
  | .board op => op.opcode

def tailSize : Instruction → Nat
  | .control _ => 0
  | .condition _ => 0
  | .register op => op.tailSize
  | .port op => op.tailSize
  | .clock op => op.tailSize
  | .bus op => op.tailSize
  | .board op => op.tailSize

def size (instruction : Instruction) : Nat :=
  instruction.opcode.fixedSize + instruction.tailSize

def operands : Instruction → String
  | .control op => op.operands
  | .condition op => op.operands
  | .register op => op.operands
  | .port op => op.operands
  | .clock op => op.operands
  | .bus op => op.operands
  | .board op => op.operands

def text (instruction : Instruction) : String :=
  let operands := instruction.operands
  if operands.isEmpty then instruction.opcode.mnemonic
  else instruction.opcode.mnemonic ++ " " ++ operands

end Instruction

end RomScript
