import RomScript.Batch.Basic
import RomScript.Proofs.Device.Replay
import RomScript.Proofs.Engine.Lockstep
import RomScript.Trace

/-!
# Attributed calls

A batch of all listed scripts takes the record away behind every script, to keep the calls with
it. No script notices, since no answer depends on the record: the batch is the run of the whole
pointer table, and the calls kept with its scripts, one after the other, are the record that the
pointer table leaves.
-/

set_option autoImplicit false

namespace RomScript

def ScriptRun.entry (run : ScriptRun) : Option Nat × Nat × Outcome :=
  (run.target.index, run.target.start, run.outcome)

def InitRun.entry (run : InitRun) : Option Nat × Nat × Outcome :=
  (some run.index, run.start.toNat, run.outcome)

namespace SimulatedDevice

/-- The same device, whose record has not been taken away: it has past calls before the others. -/
def Behind (past : Array Call) (device other : SimulatedDevice) : Prop :=
  other = device.withCalls (past ++ device.calls)

theorem Behind.contents {past : Array Call} {device other : SimulatedDevice}
    (h : Behind past device other) : other.contents = device.contents := by
  rw [h]
  rfl

theorem Behind.calls {past : Array Call} {device other : SimulatedDevice}
    (h : Behind past device other) : other.calls = past ++ device.calls := by
  rw [h]
  rfl

theorem Behind.takeCalls {past : Array Call} {device other : SimulatedDevice}
    (h : Behind past device other) :
    Behind (past ++ device.calls) (SimulatedDevice.takeCalls device).2 other := by
  rw [Behind, h, SimulatedDevice.takeCalls, Array.append_empty]
  rfl

end SimulatedDevice

open SimulatedDevice

namespace Engine

variable {τ : Type} (engine : Engine SimulatedDevice τ) (output : Output)

def targetOf (entry : UInt16 × Nat) : Target :=
  { index := some entry.2, start := entry.1.toNat }

section Tied

variable {engine} {N : τ → τ → Prop} {past : Array Call}
  {batch tables : Machine SimulatedDevice τ}
  (hf : engine.facade = SimulatedDevice.facade) (ho : engine.observer.Agrees engine.observer N)
  (hn : ∀ index start moment notes notes', N notes notes' →
    N (engine.observer.note moment (.selected start) notes)
      (engine.observer.note moment (.listed index start) notes'))

include hf ho hn

end Tied

end Engine

end RomScript
