import RomScript.Text.Hex

/-!
# How a run ends
-/

set_option autoImplicit false

namespace RomScript

inductive Exit
  /-- At its end, at the end of a repeated block, or at an instruction for legacy images. -/
  | done
  | noScript
  /-- The next instruction is not all inside the image. -/
  | truncated
  | runaway
  deriving DecidableEq, Repr

/-- The cursor is behind the last instruction of a finished run, or where the run was given up. -/
structure Report where
  start : Nat
  cursor : Nat
  ops : Nat
  exit : Exit
  deriving DecidableEq, Repr

/-- The only failure of a run: behind an unknown opcode no instruction can be found. -/
structure UnknownOpcode where
  offset : Nat
  id : UInt8
  deriving DecidableEq, Repr

def UnknownOpcode.message (cause : UnknownOpcode) : String :=
  "unknown opcode " ++ hexLit 2 cause.id.toNat ++ " at " ++ hexLit 4 cause.offset

abbrev Outcome := Except UnknownOpcode Report

inductive Step
  /-- The cursor moves; it can stay or go back only by a jump. -/
  | advance (distance : Int)
  | stop
  | truncated
  deriving DecidableEq, Repr

end RomScript
