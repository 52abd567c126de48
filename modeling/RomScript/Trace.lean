import RomScript.Engine.Event
import RomScript.Listing

/-!
# Traces

A trace is a printed listing of what ran, in the order in which it ran, with nested
runs set further in. It is made from events alone. More detail adds lines and never
changes one.
-/

set_option autoImplicit false

namespace RomScript

inductive Verbosity
  /-- Executed instructions, flag changes, calls and failures. -/
  | executed
  /-- Also instructions that were stepped over. -/
  | skipped
  /-- Also the bytes of every executed instruction. -/
  | bytes
  deriving DecidableEq, Repr

def Verbosity.ofCount : Nat → Verbosity
  | 0 => .executed
  | 1 => .skipped
  | _ => .bytes

structure Trace where
  lines : Array String := #[]
  depth : Nat := 0
  deriving Inhabited

structure TraceStyle where
  image : Image
  verbosity : Verbosity
  palette : Palette

namespace TraceStyle

variable (style : TraceStyle)

def width : Nat := Listing.offsetWidth style.image

def indent (depth : Nat) : String := String.ofList (List.replicate (2 * depth) ' ')

/-- A line below an instruction, under the column of its mnemonic. -/
def underLine (depth : Nat) (text : String) : String :=
  indent depth ++ String.ofList (List.replicate (style.width + 2) ' ') ++ text

def headingLine (start : Nat) : String :=
  style.palette.heading ("[script " ++ hexLit style.width start ++ "]")

def instructionLine (depth offset : Nat) (instruction : Instruction) : String :=
  indent depth ++ style.palette.faint (hex style.width offset) ++ "  " ++
    instruction.columns style.palette

def byteLines (depth offset : Nat) (instruction : Instruction) : List String :=
  if style.verbosity = .bytes then
    match style.image.slice offset instruction.size with
    | .ok bytes => [style.underLine depth (style.palette.faint (hexBytes bytes))]
    | .error _ => []
  else []

def skipLines (depth offset : Nat) (opcode : Opcode) : List String :=
  if style.verbosity = .executed then []
  else [indent depth ++
    style.palette.faint (hex style.width offset ++ "  " ++ opcode.mnemonic ++ " (skipped)")]

def eventLines (depth : Nat) : Event → List String
  | .script start => [style.headingLine start]
  | .instruction offset instruction =>
    style.instructionLine depth offset instruction :: style.byteLines depth offset instruction
  | .skip offset opcode => style.skipLines depth offset opcode
  | .execute flag =>
    [style.underLine depth (style.palette.notice ("execute = " ++ toString flag))]
  | .failure _ _ cause => [style.underLine depth (style.palette.notice ("! " ++ cause.message))]
  | .call target _ =>
    [style.underLine depth (style.palette.faint ("-> " ++ hexLit style.width target))]
  | _ => []

def depthAfter (depth : Nat) : Event → Nat
  | .script _ => 0
  | .call .. => depth + 1
  | .ret => depth - 1
  | _ => depth

/-- An empty line comes before every script but the first. -/
def gap (trace : Trace) : Event → List String
  | .script _ => if trace.lines.isEmpty then [] else [""]
  | _ => []

def observer : Observer Trace where
  note _ event trace :=
    { lines := trace.lines ++ gap trace event ++ style.eventLines trace.depth event,
      depth := depthAfter trace.depth event }

end TraceStyle

end RomScript
