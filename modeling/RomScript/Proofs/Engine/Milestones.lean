import RomScript.Proofs.Engine.Budget
import RomScript.Proofs.Engine.Execution

/-!
# Milestones

A run and the runs that it calls pass from instruction to instruction. Their milestones are the
scenes at the beginning and at the end of every instruction, in order, those of a called run
between the beginning and the end of the instruction that calls it. They are the same whoever
observes the runs.
-/

set_option autoImplicit false

namespace RomScript

/-- A point of a run: an instruction begins at an offset, or one has ended. -/
structure Milestone (δ : Type) where
  depth : Nat
  begins? : Option Nat
  scene : Scene δ

namespace Chronicle

def dispatchList (events : Chronicle) : List (Moment × Nat) :=
  events.filterMap fun entry =>
    match entry.2 with
    | .dispatch offset => some (entry.1, offset)
    | _ => none

theorem dispatchList_append (events rest : Chronicle) :
    dispatchList (events ++ rest) = dispatchList events ++ dispatchList rest :=
  List.filterMap_append

theorem length_dispatchList (events : Chronicle) :
    (dispatchList events).length = dispatches events := by
  induction events with
  | nil => rfl
  | cons entry rest ih =>
    obtain ⟨moment, event⟩ := entry
    have hcons : dispatchList ((moment, event) :: rest) =
        dispatchList [(moment, event)] ++ dispatchList rest :=
      dispatchList_append [(moment, event)] rest
    rw [hcons, List.length_append, ih, dispatches, dispatches, List.countP_cons, Nat.add_comm]
    congr 1
    cases event <;> rfl

theorem dispatchList_of_account {limits : Limits} {depth own : Nat} {events : Chronicle}
    (h : Account limits depth own 0 events) : dispatchList events = [] :=
  List.eq_nil_of_length_eq_zero ((length_dispatchList events).trans (Nat.le_zero.mp h.total))

end Chronicle

open Chronicle

namespace Milestone

variable {δ : Type}

/-- The instructions that begin, with the depth and the execute flag there. -/
def beginnings (points : List (Milestone δ)) : List (Moment × Nat) :=
  points.filterMap fun point => point.begins?.map fun offset =>
    ({ depth := point.depth, execute := point.scene.state.execute }, offset)

theorem beginnings_append (points rest : List (Milestone δ)) :
    beginnings (points ++ rest) = beginnings points ++ beginnings rest :=
  List.filterMap_append

end Milestone

namespace Engine

variable {δ τ : Type} (engine : Engine δ τ) (nesting : Nesting δ τ)
  (inside : Nat → Machine δ τ → List (Milestone δ))

def called (target : Nat) (machine : Machine δ τ) : Machine δ τ :=
  (engine.note nesting.depth (.call target (nesting.depth + 1)) machine).2

def passMilestones (target : Nat) : Nat → Machine δ τ → List (Milestone δ)
  | 0, _ => []
  | times + 1, machine =>
    inside target (engine.called nesting target machine) ++
      passMilestones target times (engine.call nesting target machine).2

variable {inside} in
theorem passMilestones_of_none (h : ∀ target machine, inside target machine = [])
    (target times : Nat) (machine : Machine δ τ) :
    engine.passMilestones nesting inside target times machine = [] := by
  induction times generalizing machine with
  | zero => rfl
  | succ times ih => rw [passMilestones, h, ih, List.append_nil]

def innerMilestones (offset : Nat) (machine : Machine δ τ) :
    Instruction → List (Milestone δ)
  | .control (.repeatBlock count) =>
    engine.passMilestones nesting inside (offset + 2) (count.toNat - 1)
      (MachineM.setRepeating true machine).2
  | .control (.sub index) =>
    match engine.image.scriptPointer index with
    | .error _ => []
    | .ok target => inside target.toNat (engine.called nesting target.toNat machine)
  | .control (.subDirect target) =>
    inside target.toNat (engine.called nesting target.toNat machine)
  | _ => []

/-- The milestones of the runs that a step calls, which are none while the execute flag is off. -/
def heldMilestones (offset : Nat) (machine : Machine δ τ) : List (Milestone δ) :=
  match machine.state.execute, Instruction.decode engine.image offset with
  | true, .ok instruction =>
    engine.innerMilestones nesting inside offset
      (engine.entered nesting offset machine instruction) instruction
  | _, _ => []

variable {engine nesting inside} in
theorem heldMilestones_of_ok {offset : Nat} {machine : Machine δ τ} {instruction : Instruction}
    (he : machine.state.execute = true)
    (hd : Instruction.decode engine.image offset = .ok instruction) :
    engine.heldMilestones nesting inside offset machine =
      engine.innerMilestones nesting inside offset
        (engine.entered nesting offset machine instruction) instruction := by
  simp only [heldMilestones, he, hd]

variable {engine nesting inside} in
theorem heldMilestones_of_not {offset : Nat} {machine : Machine δ τ}
    (h : ∀ instruction, Instruction.decode engine.image offset = .ok instruction →
      machine.state.execute = false) :
    engine.heldMilestones nesting inside offset machine = [] := by
  cases hd : Instruction.decode engine.image offset with
  | error cause =>
    unfold heldMilestones
    rw [hd]
    cases machine.state.execute <;> rfl
  | ok instruction => simp only [heldMilestones, h instruction hd]

def stepMilestones (offset : Nat) (machine : Machine δ τ) : List (Milestone δ) :=
  { depth := nesting.depth, begins? := some offset, scene := machine.scene } ::
    engine.heldMilestones nesting inside offset machine ++
    [{ depth := nesting.depth, begins? := none,
       scene := (engine.step nesting offset machine).2.scene }]

def restMilestones (cursor : Nat) (go : Nat → Machine δ τ → List (Milestone δ)) :
    Except UnknownOpcode Step → Machine δ τ → List (Milestone δ)
  | .ok (.advance distance), after =>
    match advance? cursor distance with
    | some next => go next after
    | none => []
  | _, _ => []

def walkMilestones : Nat → Nat → Machine δ τ → List (Milestone δ)
  | 0, _, _ => []
  | left + 1, cursor, machine =>
    if engine.image.length ≤ cursor then []
    else
      engine.stepMilestones nesting inside cursor machine ++
        restMilestones cursor (walkMilestones left) (engine.step nesting cursor machine).1
          (engine.step nesting cursor machine).2

def runMilestones (start : Nat) (machine : Machine δ τ) : List (Milestone δ) :=
  if start = 0 then []
  else engine.walkMilestones nesting inside engine.limits.maxOps start machine

def calledMilestones : Nat → Nat → Machine δ τ → List (Milestone δ)
  | 0, _, _ => []
  | room + 1, target, machine =>
    engine.runMilestones (engine.nesting room) (calledMilestones room) target machine

def milestones (room start : Nat) (machine : Machine δ τ) : List (Milestone δ) :=
  engine.runMilestones (engine.nesting room) (engine.calledMilestones room) start machine

/-! ## Milestones and observers -/

section Observed

variable {υ : Type} {engine : Engine δ τ} {observer : Observer υ}

/-- The milestones are the same whoever observes the runs. -/
def Unseen (inside : Nat → Machine δ τ → List (Milestone δ))
    (observed : Nat → Machine δ υ → List (Milestone δ)) : Prop :=
  ∀ target (scene : Scene δ) notes notes',
    observed target (scene.noted notes') = inside target (scene.noted notes)

section Steps

variable {nesting : Nesting δ τ} {observed : Nesting δ υ}
  {inside : Nat → Machine δ τ → List (Milestone δ)}
  {inside' : Nat → Machine δ υ → List (Milestone δ)}
  (hm : engine.Matched observer nesting observed) (hu : Unseen inside inside')

include hm hu

theorem unseen_passes (target times : Nat) (scene : Scene δ) (notes : τ) (notes' : υ) :
    (engine.observedBy observer).passMilestones observed inside' target times
        (scene.noted notes') =
      engine.passMilestones nesting inside target times (scene.noted notes) := by
  induction times generalizing scene notes notes' with
  | zero => rfl
  | succ times ih =>
    obtain ⟨value, events, last, -, hc, hc'⟩ := concur_call hm target scene notes notes'
    rw [passMilestones, passMilestones, hc, hc', ih]
    exact congrArg (· ++ _) (hu target scene _ _)

theorem unseen_inner (offset : Nat) (instruction : Instruction) (scene : Scene δ) (notes : τ)
    (notes' : υ) :
    (engine.observedBy observer).innerMilestones observed inside' offset (scene.noted notes')
        instruction =
      engine.innerMilestones nesting inside offset (scene.noted notes) instruction := by
  cases instruction with
  | control op =>
    cases op with
    | repeatBlock count =>
      exact unseen_passes hm hu (offset + 2) (count.toNat - 1) (scene.withRepeating true) notes
        notes'
    | sub index =>
      simp only [innerMilestones, observedBy]
      cases engine.image.scriptPointer index with
      | error cause => rfl
      | ok target => exact hu target.toNat scene _ _
    | subDirect target => exact hu target.toNat scene _ _
    | _ => rfl
  | _ => rfl

theorem unseen_held (offset : Nat) (scene : Scene δ) (notes : τ) (notes' : υ) :
    (engine.observedBy observer).heldMilestones observed inside' offset (scene.noted notes') =
      engine.heldMilestones nesting inside offset (scene.noted notes) := by
  by_cases hrun : ∀ instruction, Instruction.decode engine.image offset = .ok instruction →
    scene.state.execute = false
  · have hnone : (engine.observedBy observer).heldMilestones observed inside' offset
        (scene.noted notes') = [] := heldMilestones_of_not hrun
    rw [hnone]
    exact (heldMilestones_of_not hrun).symm
  · obtain ⟨instruction, hrun⟩ := Classical.not_forall.mp hrun
    obtain ⟨hd, he⟩ := Classical.not_imp.mp hrun
    have he : scene.state.execute = true := by simpa using he
    have hheld : (engine.observedBy observer).heldMilestones observed inside' offset
        (scene.noted notes') = _ := heldMilestones_of_ok he hd
    have hheld' : engine.heldMilestones nesting inside offset (scene.noted notes) = _ :=
      heldMilestones_of_ok he hd
    rw [hheld, hheld']
    exact unseen_inner hm hu offset instruction scene _ _

theorem unseen_step (offset : Nat) (scene : Scene δ) (notes : τ) (notes' : υ) :
    (engine.observedBy observer).stepMilestones observed inside' offset (scene.noted notes') =
      engine.stepMilestones nesting inside offset (scene.noted notes) := by
  obtain ⟨value, events, last, -, hs, hs'⟩ := concur_step hm offset scene notes notes'
  rw [stepMilestones, stepMilestones, unseen_held hm hu offset scene notes notes', hs, hs',
    hm.depth]
  rfl

theorem unseen_walk (left cursor : Nat) (scene : Scene δ) (notes : τ) (notes' : υ) :
    (engine.observedBy observer).walkMilestones observed inside' left cursor
        (scene.noted notes') =
      engine.walkMilestones nesting inside left cursor (scene.noted notes) := by
  induction left generalizing cursor scene notes notes' with
  | zero => rfl
  | succ left ih =>
    obtain ⟨value, events, last, -, hs, hs'⟩ := concur_step hm cursor scene notes notes'
    have hrest : restMilestones cursor
        ((engine.observedBy observer).walkMilestones observed inside' left) value
          (last.noted (observer.replay events notes')) =
        restMilestones cursor (engine.walkMilestones nesting inside left) value
          (last.noted (engine.observer.replay events notes)) := by
      rcases value with cause | distance | _ | _
      · rfl
      · simp only [restMilestones]
        cases advance? cursor distance with
        | some target => exact ih target last _ _
        | none => rfl
      · rfl
      · rfl
    rw [walkMilestones, walkMilestones, hs, hs', hrest, unseen_step hm hu cursor scene notes notes']

theorem unseen_runMilestones : Unseen (engine.runMilestones nesting inside)
    ((engine.observedBy observer).runMilestones observed inside') := by
  intro start scene notes notes'
  unfold runMilestones
  by_cases h : start = 0
  · rw [if_pos h, if_pos h]
  · rw [if_neg h, if_neg h]
    exact unseen_walk hm hu _ start scene notes notes'

end Steps

theorem unseen_called {room : Nat} (hr : room ≤ engine.limits.maxDepth) :
    Unseen (engine.calledMilestones room)
      ((engine.observedBy observer).calledMilestones room) := by
  induction room with
  | zero => exact fun _ _ _ _ => rfl
  | succ room ih =>
    have hless : room ≤ engine.limits.maxDepth := Nat.le_of_lt hr
    exact unseen_runMilestones (engine.matched_nesting observer hless) (ih hless)

theorem unseen_milestones {room : Nat} (hr : room ≤ engine.limits.maxDepth) :
    Unseen (engine.milestones room) ((engine.observedBy observer).milestones room) :=
  unseen_runMilestones (engine.matched_nesting observer hr) (unseen_called hr)

end Observed

end Engine

end RomScript
