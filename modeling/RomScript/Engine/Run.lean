import RomScript.Engine.Step

/-!
# Runs

A run walks from instruction to instruction until it stops, leaves the image, or has
run as many instructions as are allowed. Nested runs count their own instructions, and
the number of them inside each other is limited, so every run ends. An outermost run
begins without a remembered column.
-/

set_option autoImplicit false

namespace RomScript

/-- The cursor behind a step, unless it would be before the image. -/
def advance? (cursor : Nat) (distance : Int) : Option Nat :=
  let target := (cursor : Int) + distance
  if 0 ≤ target then some target.toNat else none

structure InitRun where
  index : Nat
  start : UInt16
  outcome : Outcome

namespace Engine

open MachineM

variable {δ τ : Type} (engine : Engine δ τ)

/-- Walks on from a cursor with the given number of instructions left. -/
def walk (nesting : Nesting δ τ) (start : Nat) : Nat → Nat → MachineM δ τ Outcome
  | left, cursor => do
    let ops := engine.limits.maxOps - left
    if engine.image.length ≤ cursor then
      engine.note nesting.depth (.pastEnd start cursor)
      return .ok { start, cursor, ops, exit := .truncated }
    else
      match left with
      | 0 =>
        engine.note nesting.depth (.runaway start ops cursor)
        return .ok { start, cursor, ops, exit := .runaway }
      | left + 1 =>
        match ← engine.step nesting cursor with
        | .error cause => return .error cause
        | .ok .stop => return .ok { start, cursor := cursor + 1, ops := ops + 1, exit := .done }
        | .ok .truncated =>
          engine.note nesting.depth (.truncated cursor)
          return .ok { start, cursor, ops := ops + 1, exit := .truncated }
        | .ok (.advance distance) =>
          match advance? cursor distance with
          | some next => walk nesting start left next
          | none =>
            engine.note nesting.depth (.beforeStart cursor)
            return .ok { start, cursor, ops := ops + 1, exit := .truncated }

def runAt (nesting : Nesting δ τ) (start : Nat) : MachineM δ τ Outcome :=
  if start = 0 then return .ok { start, cursor := 0, ops := 0, exit := .noScript }
  else engine.walk nesting start engine.limits.maxOps start

/-- The place of a run that has room for the given number of runs inside it. -/
def nesting : Nat → Nesting δ τ
  | 0 => { depth := engine.limits.maxDepth, inner := none }
  | room + 1 =>
    { depth := engine.limits.maxDepth - (room + 1),
      inner := some fun target => engine.runAt (nesting room) target }

def outermost : Nesting δ τ := engine.nesting engine.limits.maxDepth

def runScript (start : Nat) : MachineM δ τ Outcome := do
  clearColumn
  engine.note 0 (.script start)
  engine.runAt engine.outermost start

def stepAt (offset : Nat) : MachineM δ τ (Except UnknownOpcode Step) :=
  engine.step engine.outermost offset

/-- Runs a script with a fresh state and leaves the machine's own state as it was. -/
def runFresh (output : Output) (announcement : Event) (start : Nat) : MachineM δ τ Outcome :=
  withState (.fresh output) do
    engine.note 0 announcement
    engine.runScript start

def runInitTables (output : Output) : MachineM δ τ (Except ImageError (List InitRun)) :=
  match engine.image.scriptPointers with
  | .error cause => return .error cause
  | .ok pointers => do
    let runs ← pointers.zipIdx.mapM fun entry => do
      let outcome ← engine.runFresh output (.listed entry.2 entry.1.toNat) entry.1.toNat
      return { index := entry.2, start := entry.1, outcome : InitRun }
    return .ok runs

end Engine

end RomScript
