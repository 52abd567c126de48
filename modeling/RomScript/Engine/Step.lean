import RomScript.Effect.Board
import RomScript.Effect.Clocks
import RomScript.Effect.Conditions
import RomScript.Effect.Ports
import RomScript.Effect.Registers
import RomScript.Engine.Machine
import RomScript.Instruction.Decode

/-!
# One instruction

A step takes the byte at an offset as an instruction. What follows it depends on the
image alone, except that a jump is taken only while the execute flag is on and that the
end of a block ends the script only while the repeat flag is on. A failed instruction
is stepped over.
-/

set_option autoImplicit false

namespace RomScript

/-- Where a run stands among the runs under way: their number inside the outermost one, and
how to run a script inside this one unless the limit is reached. -/
structure Nesting (δ τ : Type) where
  depth : Nat
  inner : Option (Nat → MachineM δ τ Outcome)

namespace Engine

open MachineM

variable {δ τ : Type} (engine : Engine δ τ) (nesting : Nesting δ τ)

/-- Runs a script inside this one. However it ends, this one goes on. -/
def call (target : Nat) : MachineM δ τ (Except InstructionError Unit) :=
  match nesting.inner with
  | none => return .error (.recursionLimit engine.limits.maxDepth)
  | some run => do
    engine.note nesting.depth (.call target (nesting.depth + 1))
    let outcome ← run target
    engine.note nesting.depth .ret
    match outcome with
    | .ok _ => return .ok ()
    | .error cause =>
      engine.note nesting.depth (.aborted target cause)
      return .ok ()

def callTimes (target : Nat) : Nat → MachineM δ τ (Except InstructionError Unit)
  | 0 => return .ok ()
  | times + 1 => do
    match ← engine.call nesting target with
    | .error cause => return .error cause
    | .ok () => callTimes target times

/-- The distance of a jump, which is a signed number of thirty-two bits. -/
def jumpDistance (offset : Nat) (target : UInt16) : Except InstructionError Int :=
  let distance : Int := target.toNat - offset
  if -0x80000000 ≤ distance ∧ distance < 0x80000000 then .ok distance
  else .error (.outOfRange .jumpTarget target.toNat offset)

/-- Runs a control instruction of the given length. The passes of a repeated block but the last
are nested runs; the last one is the run itself going on. -/
def control (offset length : Nat) : Control → MachineM δ τ (Except InstructionError Step)
  | .repeatBlock count => do
    let result ← whileRepeating (engine.callTimes nesting (offset + length) (count.toNat - 1))
    return result.map fun _ => .advance length
  | .endRepeat => do
    let state ← MachineM.state
    return .ok (if state.repeating then .stop else .advance length)
  | .negate => do
    let state ← MachineM.state
    setExecute !state.execute
    return .ok (.advance length)
  | .resume => do
    setExecute true
    return .ok (.advance length)
  | .done => return .ok .stop
  | .jump target => return (jumpDistance offset target).map .advance
  | .sub index =>
    match engine.image.scriptPointer index with
    | .error cause => return .error (.image cause)
    | .ok target => do
      let result ← engine.call nesting target.toNat
      return result.map fun _ => .advance length
  | .subDirect target => do
    let result ← engine.call nesting target.toNat
    return result.map fun _ => .advance length
  | .reserved which => do
    engine.note nesting.depth (.reserved offset which)
    return .ok (.advance length)

def condition (offset : Nat) (condition : Condition) :
    MachineM δ τ (Except InstructionError Unit) :=
  match condition.unsupported? with
  | some cause => return .error cause
  | none => do
    let state ← MachineM.state
    let verdict ← engine.perform (condition.test engine.image state.output)
    engine.note nesting.depth (.verdict offset verdict)
    match verdict with
    | .ok true => return .ok ()
    | _ =>
      setExecute false
      return .ok ()

def bus (offset : Nat) (op : BusOp) : MachineM δ τ (Except InstructionError Unit) := do
  let state ← MachineM.state
  match ← engine.perform (op.run state.output) with
  | .error cause => return .error cause
  | .ok notices =>
    notices.forM fun notice => engine.note nesting.depth (.transfer offset op.opcode notice)
    return .ok ()

def execute (offset length : Nat) :
    Instruction → MachineM δ τ (Except InstructionError Step)
  | .control op => engine.control nesting offset length op
  | .condition op => do
    let result ← engine.condition nesting offset op
    return result.map fun _ => .advance length
  | .register op => do
    let result ← engine.perform (op.run engine.image)
    return result.map fun _ => .advance length
  | .port op => do
    let state ← MachineM.state
    let result ← engine.perform (op.run state.output)
    return result.map fun _ => .advance length
  | .clock op => do
    let result ← engine.perform (op.run engine.image)
    return result.map fun _ => .advance length
  | .bus op => do
    let result ← engine.bus nesting offset op
    return result.map fun _ => .advance length
  | .board op => do
    let result ← engine.perform (op.run engine.image)
    return result.map fun _ => .advance length

def announce (offset : Nat) (opcode : Opcode) (before : Bool)
    (result : Except InstructionError Step) : MachineM δ τ Unit := do
  if let .error cause := result then
    engine.note nesting.depth (.failure offset opcode cause)
  let after ← MachineM.state
  if after.execute != before || opcode.isCondition then
    engine.note nesting.depth (.execute after.execute)

/-- What follows an instruction of the given length; behind a failed one it is the next one. -/
def settle (length : Nat) : Except InstructionError Step → Step
  | .ok step => step
  | .error _ => .advance length

def runInstruction (offset length : Nat) (opcode : Opcode) (instruction : Instruction) :
    MachineM δ τ Step := do
  engine.note nesting.depth (.instruction offset instruction)
  let before ← MachineM.state
  let result ← engine.execute nesting offset length instruction
  engine.announce nesting offset opcode before.execute result
  return settle length result

def stepKnown (offset length : Nat) (opcode : Opcode) : MachineM δ τ Step := do
  let state ← MachineM.state
  if !state.execute && !opcode.runsWhileSkipping then
    engine.note nesting.depth (.skip offset opcode)
    return .advance length
  else
    match Instruction.decode engine.image offset with
    | .error cause =>
      engine.note nesting.depth (.failure offset opcode (.decode cause))
      return .advance length
    | .ok instruction => engine.runInstruction nesting offset length opcode instruction

def step (offset : Nat) : MachineM δ τ (Except UnknownOpcode Step) := do
  engine.note nesting.depth (.dispatch offset)
  match engine.image.byte offset with
  | .error _ => return .ok .truncated
  | .ok id =>
    match Opcode.ofByte? id with
    | none =>
      engine.note nesting.depth (.unknownOpcode { offset, id })
      return .error { offset, id }
    | some opcode =>
      if opcode.legacyOnly && !engine.image.isLegacy then
        engine.note nesting.depth (.needsLegacy offset opcode)
        return .ok .stop
      else
        match opcode.encodedLength engine.image offset with
        | .error _ => return .ok .truncated
        | .ok length => return .ok (← engine.stepKnown nesting offset length opcode)

end Engine

end RomScript
