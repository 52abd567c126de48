import RomScript.Engine.Event
import RomScript.Engine.State
import RomScript.Image.Basic

/-!
# Machines

An engine runs the scripts of one image on one device. Its machine is the device with
the column remembered for it, the state of the script, and the notes of the observer.
-/

set_option autoImplicit false

namespace RomScript

structure Engine (δ τ : Type) where
  image : Image
  facade : Facade δ
  observer : Observer τ
  limits : Limits

structure Machine (δ τ : Type) where
  bench : Bench δ
  state : ScriptState
  notes : τ

namespace Machine

variable {δ τ : Type}

def start (device : δ) (output : Output) (notes : τ) : Machine δ τ :=
  { bench := { device, column := none }, state := .fresh output, notes }

def device (machine : Machine δ τ) : δ := machine.bench.device

end Machine

abbrev MachineM (δ τ α : Type) := StateM (Machine δ τ) α

namespace MachineM

variable {δ τ α β : Type}

@[simp] theorem pure_apply (value : α) (machine : Machine δ τ) :
    (pure value : MachineM δ τ α) machine = (value, machine) := rfl

@[simp] theorem bind_apply (action : MachineM δ τ α) (next : α → MachineM δ τ β)
    (machine : Machine δ τ) :
    (action >>= next) machine = next (action machine).1 (action machine).2 := rfl

@[simp] theorem map_apply (f : α → β) (action : MachineM δ τ α) (machine : Machine δ τ) :
    (f <$> action) machine = (f (action machine).1, (action machine).2) := rfl

def state : MachineM δ τ ScriptState := fun machine => (machine.state, machine)

def setExecute (flag : Bool) : MachineM δ τ Unit := fun machine =>
  ((), { machine with state := { machine.state with execute := flag } })

def setRepeating (flag : Bool) : MachineM δ τ Unit := fun machine =>
  ((), { machine with state := { machine.state with repeating := flag } })

def setState (state : ScriptState) : MachineM δ τ Unit := fun machine =>
  ((), { machine with state })

@[simp] theorem state_apply (machine : Machine δ τ) :
    MachineM.state machine = (machine.state, machine) := rfl

@[simp] theorem setExecute_apply (flag : Bool) (machine : Machine δ τ) :
    setExecute flag machine =
      ((), { machine with state := { machine.state with execute := flag } }) := rfl

def clearColumn : MachineM δ τ Unit := fun ⟨⟨device, _⟩, state, notes⟩ =>
  ((), ⟨⟨device, none⟩, state, notes⟩)

/-- Runs an action with a state of its own and puts the former state back. -/
def withState (state : ScriptState) (action : MachineM δ τ α) : MachineM δ τ α := do
  let former ← MachineM.state
  setState state
  let result ← action
  setState former
  return result

/-- Runs an action with the repeat flag on and puts the former flag back. -/
def whileRepeating (action : MachineM δ τ α) : MachineM δ τ α := do
  let former ← MachineM.state
  setRepeating true
  let result ← action
  setRepeating former.repeating
  return result

end MachineM

namespace Engine

variable {δ τ α : Type} (engine : Engine δ τ)

def note (depth : Nat) (event : Event) : MachineM δ τ Unit := fun ⟨bench, state, notes⟩ =>
  ((), ⟨bench, state, engine.observer.note { depth, execute := state.execute } event notes⟩)

def perform (effect : Effect α) : MachineM δ τ (Except InstructionError α) :=
  fun ⟨bench, state, notes⟩ =>
    let ended := effect.run engine.facade bench
    (ended.1, ⟨ended.2, state, notes⟩)

@[simp] theorem note_apply (depth : Nat) (event : Event) (machine : Machine δ τ) :
    engine.note depth event machine =
      ((), { machine with notes :=
        engine.observer.note { depth, execute := machine.state.execute } event machine.notes }) :=
  rfl

@[simp] theorem perform_apply (effect : Effect α) (machine : Machine δ τ) :
    engine.perform effect machine =
      ((effect.run engine.facade machine.bench).1,
        { machine with bench := (effect.run engine.facade machine.bench).2 }) := rfl

end Engine

end RomScript
