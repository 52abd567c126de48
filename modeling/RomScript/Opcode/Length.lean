import RomScript.Image.Basic
import RomScript.Opcode

/-!
# Encoded lengths

The size of an instruction is known from its opcode and at most one count byte.
It is the distance to the next instruction, so stepping over an instruction
reads no other operand and the tail itself may lie outside the image.
-/

set_option autoImplicit false

namespace RomScript

namespace Opcode

def tailCount (image : Image) (offset : Nat) : TailCount → Except ImageError Nat
  | .operand distance => (image.byte (offset + distance)).map UInt8.toNat
  | .groups => .ok image.ramGroups
  | .operandTimesGroups distance =>
    (image.byte (offset + distance)).map fun count => count.toNat * image.ramGroups

def encodedLength (opcode : Opcode) (image : Image) (offset : Nat) : Except ImageError Nat :=
  match opcode.tail with
  | none => .ok opcode.fixedSize
  | some tail => (tailCount image offset tail.count).map fun count =>
      opcode.fixedSize + count * tail.elementSize

end Opcode

end RomScript
