import RomScript.Instruction.Decode

/-!
# Linear disassembly

The instructions of a script in the order of their bytes. Jumps and calls are not
followed. The walk ends behind DONE, at an unknown opcode, at an instruction that
does not fit, at the end of the image, or after a fixed number of instructions.
-/

set_option autoImplicit false

namespace RomScript

inductive DisassemblyLine
  | instruction (offset : Nat) (instruction : Instruction)
  | unknown (offset : Nat) (id : UInt8)
  | truncated (offset : Nat) (opcode : Opcode)
  | endOfImage (offset : Nat)
  | limit
  deriving DecidableEq, Repr

def disassemblyLimit : Nat := 1000

def disassembleFrom (image : Image) : Nat → Nat → List DisassemblyLine
  | 0, _ => [.limit]
  | left + 1, offset =>
    match image.byte offset with
    | .error _ => [.endOfImage offset]
    | .ok id =>
      match Opcode.ofByte? id with
      | none => [.unknown offset id]
      | some opcode =>
        match Instruction.decode image offset with
        | .error _ => [.truncated offset opcode]
        | .ok instruction =>
          .instruction offset instruction ::
            if opcode = .done then []
            else disassembleFrom image left (offset + instruction.size)

/-- The lines of the script at `start`; a script at zero is no script and has none. -/
def disassemble (image : Image) (start : Nat) : List DisassemblyLine :=
  if start = 0 then [] else disassembleFrom image disassemblyLimit start

end RomScript
