import RomScript.Effect.Buses
import RomScript.Engine.Report
import RomScript.Instruction.Basic

/-!
# Events

Everything that a run does is announced as an event. An observer keeps what it
likes of the events; the run does not look at it.
-/

set_option autoImplicit false

namespace RomScript

inductive Event
  | listed (index start : Nat)
  | selected (start : Nat)
  | script (start : Nat)
  | dispatch (offset : Nat)
  | instruction (offset : Nat) (instruction : Instruction)
  | skip (offset : Nat) (opcode : Opcode)
  /-- The execute flag behind a condition or behind an instruction that changed it. -/
  | execute (flag : Bool)
  | failure (offset : Nat) (opcode : Opcode) (cause : InstructionError)
  /-- A nested run begins at the given depth. -/
  | call (target depth : Nat)
  | ret
  /-- The nested run that has ended met an unknown opcode. -/
  | aborted (target : Nat) (cause : UnknownOpcode)
  | verdict (offset : Nat) (met : Except InstructionError Bool)
  | transfer (offset : Nat) (opcode : Opcode) (notice : TransferNotice)
  | reserved (offset : Nat) (which : Reserved)
  | unknownOpcode (cause : UnknownOpcode)
  | needsLegacy (offset : Nat) (opcode : Opcode)
  | pastEnd (start offset : Nat)
  | runaway (start ops offset : Nat)
  | beforeStart (offset : Nat)
  | truncated (offset : Nat)

/-- The surroundings of an event: the number of nested runs under way and the execute flag. -/
structure Moment where
  depth : Nat
  execute : Bool
  deriving DecidableEq, Repr

structure Observer (τ : Type) where
  note : Moment → Event → τ → τ

namespace Observer

variable {τ υ : Type}

def silent : Observer τ where
  note _ _ notes := notes

def both (first : Observer τ) (second : Observer υ) : Observer (τ × υ) where
  note moment event notes := (first.note moment event notes.1, second.note moment event notes.2)

/-- Keeps every event, the latest first. -/
def recorder : Observer (List (Moment × Event)) where
  note moment event notes := (moment, event) :: notes

end Observer

end RomScript
