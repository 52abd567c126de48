import RomScript.Batch.Selection
import RomScript.Device.Simulated
import RomScript.Engine.Run

/-!
# Batches

A batch runs selected scripts one after the other on one simulated device, each with a
fresh state. The calls recorded during a run are kept with it.
-/

set_option autoImplicit false

namespace RomScript

structure ScriptRun where
  target : Target
  outcome : Outcome
  calls : List Call

def ScriptRun.isFailed (run : ScriptRun) : Bool :=
  match run.outcome with
  | .ok _ => false
  | .error _ => true

namespace Engine

variable {τ : Type} (engine : Engine SimulatedDevice τ)

/-- The calls recorded since they were last taken. -/
def takeCalls : MachineM SimulatedDevice τ (List Call) := fun ⟨⟨device, column⟩, state, notes⟩ =>
  let taken := SimulatedDevice.takeCalls device
  (taken.1.toList, ⟨⟨taken.2, column⟩, state, notes⟩)

def runTarget (output : Output) (target : Target) : MachineM SimulatedDevice τ ScriptRun := do
  let outcome ← engine.runFresh output (.selected target.start) target.start
  let calls ← takeCalls
  return { target, outcome, calls }

def runBatch (output : Output) (selection : Selection) :
    MachineM SimulatedDevice τ (Except ImageError (List ScriptRun)) :=
  match selection.targets engine.image with
  | .error cause => return .error cause
  | .ok targets => do
    let runs ← targets.mapM (engine.runTarget output)
    return .ok runs

end Engine

end RomScript
