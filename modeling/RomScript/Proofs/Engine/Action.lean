import RomScript.Proofs.Engine.Execution
import RomScript.Proofs.Engine.Outline

/-!
# Actions

An instruction that runs no other ones acts on the device and on the execute flag. What it does
there is told from the scene alone, and so is what follows it unless it is a jump: the offset at
which it stands and the depth of the run are for the observer only.
-/

set_option autoImplicit false

namespace RomScript

/-- Runs other instructions before it ends. -/
def Opcode.nests : Opcode → Bool
  | .repeatBlock | .sub | .subDirect => true
  | _ => false

theorem Instruction.cases_of_nests {instruction : Instruction}
    (h : instruction.opcode.nests = true) :
    (∃ count, instruction = .control (.repeatBlock count)) ∨
      (∃ index, instruction = .control (.sub index)) ∨
        ∃ target, instruction = .control (.subDirect target) := by
  cases instruction with
  | control op =>
    cases op with
    | repeatBlock count => exact .inl ⟨count, rfl⟩
    | sub index => exact .inr (.inl ⟨index, rfl⟩)
    | subDirect target => exact .inr (.inr ⟨target, rfl⟩)
    | _ => cases h
  | condition op => cases op <;> cases h
  | register op => cases op <;> cases h
  | port op => cases op <;> cases h
  | clock op => cases op <;> cases h
  | bus op => cases op <;> cases h
  | board op => cases op <;> cases h

def Image.Supports (image : Image) (opcode : Opcode) : Prop :=
  opcode.legacyOnly = true → image.isLegacy = true

instance (image : Image) (opcode : Opcode) : Decidable (image.Supports opcode) :=
  inferInstanceAs (Decidable (_ → _))

theorem Image.not_supports_iff {image : Image} {opcode : Opcode} :
    ¬image.Supports opcode ↔ opcode.legacyOnly = true ∧ ¬image.isLegacy = true :=
  Classical.not_imp

def Effect.silently {α : Type} (effect : Effect α) : Effect Unit := effect >>= fun _ => .done ()

theorem Effect.run_silently {α δ : Type} (effect : Effect α) (facade : Facade δ)
    (bench : Bench δ) : (effect.silently.run facade bench).2 = (effect.run facade bench).2 := by
  rw [silently, run_bind]
  rcases effect.run facade bench with ⟨cause | value, after⟩ <;> rfl

def Instruction.effect (image : Image) (output : Output) : Instruction → Effect Unit
  | .control _ => .done ()
  | .condition op =>
    if op.unsupported?.isSome then .done () else (op.test image output).silently
  | .register op => op.run image
  | .port op => op.run output
  | .clock op => op.run image
  | .bus op => (op.run output).silently
  | .board op => op.run image

namespace Engine

variable {δ τ : Type} (engine : Engine δ τ)

def flagBehind (scene : Scene δ) : Instruction → Bool
  | .control .negate => !scene.state.execute
  | .control .resume => true
  | .condition op =>
    if op.unsupported?.isSome then scene.state.execute
    else
      match ((op.test engine.image scene.state.output).run engine.facade scene.bench).1 with
      | .ok true => scene.state.execute
      | _ => false
  | _ => scene.state.execute

def act (instruction : Instruction) (scene : Scene δ) : Scene δ where
  bench := ((instruction.effect engine.image scene.state.output).run engine.facade scene.bench).2
  state := { scene.state with execute := engine.flagBehind scene instruction }

/-- The instruction is not stepped over. -/
def Runs (instruction : Instruction) (scene : Scene δ) : Prop :=
  engine.image.Supports instruction.opcode ∧
    (scene.state.execute = true ∨ instruction.opcode.runsWhileSkipping = true)

instance (instruction : Instruction) (scene : Scene δ) :
    Decidable (engine.Runs instruction scene) :=
  inferInstanceAs (Decidable (_ ∧ _))

/-- What an instruction that runs no other ones does when it is met. -/
def take (instruction : Instruction) (scene : Scene δ) : Scene δ :=
  if engine.Runs instruction scene then engine.act instruction scene else scene

def turn (offset : Nat) (scene : Scene δ) : Scene δ :=
  match Instruction.decode engine.image offset with
  | .ok instruction => engine.take instruction scene
  | .error _ => scene

theorem turn_of_ok {offset : Nat} {instruction : Instruction}
    (h : Instruction.decode engine.image offset = .ok instruction) (scene : Scene δ) :
    engine.turn offset scene = engine.take instruction scene := by
  simp only [turn, h]

section Steps

variable (nesting : Nesting δ τ) (offset length : Nat) (machine : Machine δ τ)

theorem notices_scene (opcode : Opcode) (notices : List TransferNotice) :
    ((notices.forM fun notice => engine.note nesting.depth (.transfer offset opcode notice) :
      MachineM δ τ Unit) machine).2.scene = machine.scene := by
  induction notices generalizing machine with
  | nil => rfl
  | cons notice rest ih => exact ih _

theorem condition_act (op : Condition) :
    (engine.condition nesting offset op machine).2.scene =
      engine.act (.condition op) machine.scene := by
  simp only [condition, act, Instruction.effect, flagBehind]
  cases hu : op.unsupported? with
  | some cause => rfl
  | none =>
    simp only [Option.isSome_none, Bool.false_eq_true, if_false, Effect.run_silently,
      MachineM.bind_apply, MachineM.state_apply, perform_apply, note_apply, Machine.scene]
    cases (op.test engine.image machine.state.output).run engine.facade machine.bench with
    | mk verdict bench => rcases verdict with cause | met | met <;> rfl

theorem bus_act (op : BusOp) :
    (engine.bus nesting offset op machine).2.scene = engine.act (.bus op) machine.scene := by
  simp only [bus, act, Instruction.effect, flagBehind, Effect.run_silently, MachineM.bind_apply,
    MachineM.state_apply, perform_apply, Machine.scene]
  cases (op.run machine.state.output).run engine.facade machine.bench with
  | mk result bench =>
    cases result with
    | error cause => rfl
    | ok notices =>
      exact engine.notices_scene nesting offset { machine with bench } op.opcode notices

theorem execute_act {instruction : Instruction} (h : instruction.opcode.nests = false) :
    (engine.execute nesting offset length instruction machine).2.scene =
      engine.act instruction machine.scene := by
  cases instruction with
  | control op =>
    cases op with
    | repeatBlock | sub | subDirect => cases h
    | _ => rfl
  | condition op => exact engine.condition_act nesting offset machine op
  | bus op => exact engine.bus_act nesting offset machine op
  | register op => rfl
  | port op => rfl
  | clock op => rfl
  | board op => rfl

theorem step_scene_of_ok {instruction : Instruction}
    (hd : Instruction.decode engine.image offset = .ok instruction) :
    (engine.step nesting offset machine).2.scene =
      if engine.Runs instruction machine.scene then
        (engine.execute nesting offset instruction.size instruction
          (engine.entered nesting offset machine instruction)).2.scene
      else machine.scene := by
  obtain ⟨ho, hl⟩ := Instruction.decode_opcode hd
  by_cases hs : engine.image.Supports instruction.opcode
  · by_cases hr : machine.state.execute = true ∨ instruction.opcode.runsWhileSkipping = true
    · have hruns : engine.Runs instruction machine.scene := ⟨hs, hr⟩
      rw [if_pos hruns]
      exact (engine.step_executed nesting offset machine hd hs hr).2
    · have hruns : ¬engine.Runs instruction machine.scene := fun h => hr h.2
      rw [if_neg hruns, step_of_known nesting offset machine ho hs hl]
      rcases engine.stepKnown_cases nesting offset instruction.size
        (engine.dispatched nesting offset machine) instruction.opcode with ⟨-, -, hk⟩ | ⟨he, -⟩
      · rw [hk]
        rfl
      · exact absurd he hr
  · have hruns : ¬engine.Runs instruction machine.scene := fun h => hs h.1
    obtain ⟨hl, hi⟩ := Image.not_supports_iff.mp hs
    rw [if_neg hruns, step_of_unsupported nesting offset machine ho hl hi]
    rfl

theorem step_take {instruction : Instruction}
    (hd : Instruction.decode engine.image offset = .ok instruction)
    (hn : instruction.opcode.nests = false) :
    (engine.step nesting offset machine).2.scene = engine.take instruction machine.scene := by
  rw [engine.step_scene_of_ok nesting offset machine hd, engine.execute_act _ _ _ _ hn]
  rfl

theorem step_bench {instruction : Instruction}
    (hd : Instruction.decode engine.image offset = .ok instruction)
    (hn : instruction.opcode.nests = false) (hruns : engine.Runs instruction machine.scene) :
    (engine.step nesting offset machine).2.bench =
      ((instruction.effect engine.image machine.state.output).run engine.facade
        machine.bench).2 := by
  have hscene := engine.step_take nesting offset machine hd hn
  rw [take, if_pos hruns] at hscene
  exact congrArg Scene.bench hscene

theorem step_turn (h : (engine.image.opcodeAt? offset).any Opcode.nests = false) :
    (engine.step nesting offset machine).2.scene = engine.turn offset machine.scene := by
  cases hd : Instruction.decode engine.image offset with
  | ok instruction =>
    rw [(Instruction.decode_opcode hd).1] at h
    rw [engine.turn_of_ok hd]
    exact engine.step_take nesting offset machine hd h
  | error cause =>
    simp only [turn, hd]
    rcases engine.step_scene nesting offset machine with hs | ⟨instruction, hi, -⟩
    · exact hs
    · cases hd.symm.trans hi

end Steps

/-! ## Several in order -/

def turns (offsets : List Nat) (scene : Scene δ) : Scene δ :=
  offsets.foldl (fun scene offset => engine.turn offset scene) scene

theorem turns_cons (offset : Nat) (offsets : List Nat) (scene : Scene δ) :
    engine.turns (offset :: offsets) scene = engine.turns offsets (engine.turn offset scene) := rfl

section Repeating

theorem take_withRepeating (repeating : Bool) (instruction : Instruction) (scene : Scene δ) :
    engine.take instruction (scene.withRepeating repeating) =
      (engine.take instruction scene).withRepeating repeating :=
  (apply_ite (fun after : Scene δ => after.withRepeating repeating)
    (engine.Runs instruction scene) (engine.act instruction scene) scene).symm

theorem take_repeating (instruction : Instruction) (scene : Scene δ) :
    (engine.take instruction scene).state.repeating = scene.state.repeating :=
  congrArg (·.state.repeating) (engine.take_withRepeating scene.state.repeating instruction scene)

/-- Only the end of a block reads the repeat flag. -/
theorem turn_withRepeating (repeating : Bool) (offset : Nat) (scene : Scene δ) :
    engine.turn offset (scene.withRepeating repeating) =
      (engine.turn offset scene).withRepeating repeating := by
  unfold turn
  cases Instruction.decode engine.image offset with
  | error cause => rfl
  | ok instruction => exact engine.take_withRepeating repeating instruction scene

theorem turns_withRepeating (repeating : Bool) (offsets : List Nat) (scene : Scene δ) :
    engine.turns offsets (scene.withRepeating repeating) =
      (engine.turns offsets scene).withRepeating repeating := by
  induction offsets generalizing scene with
  | nil => rfl
  | cons offset rest ih => rw [turns_cons, turns_cons, turn_withRepeating, ih]

theorem turns_repeating (offsets : List Nat) (scene : Scene δ) :
    (engine.turns offsets scene).state.repeating = scene.state.repeating :=
  congrArg (·.state.repeating) (engine.turns_withRepeating scene.state.repeating offsets scene)

end Repeating

end Engine

/-! ## What follows -/

/-- What follows an instruction that is no jump, with the repeat flag as given. -/
def Image.pace (image : Image) (repeating : Bool) (instruction : Instruction) : Step :=
  if ¬image.Supports instruction.opcode ∨ instruction.opcode = .done ∨
      instruction.opcode = .endRepeat ∧ repeating then .stop
  else .advance instruction.size

theorem Engine.step_pace {δ τ : Type} (engine : Engine δ τ) (nesting : Nesting δ τ) (offset : Nat)
    (machine : Machine δ τ) {instruction : Instruction}
    (hd : Instruction.decode engine.image offset = .ok instruction)
    (hj : instruction.opcode ≠ .jump) : (engine.step nesting offset machine).1 =
      .ok (engine.image.pace machine.state.repeating instruction) := by
  obtain ⟨ho, hl⟩ := Instruction.decode_opcode hd
  rw [step_fst, Image.outline_of_opcodeAt? ho, hl]
  by_cases hs : engine.image.Supports instruction.opcode
  · have hlegacy : ¬(instruction.opcode.legacyOnly ∧ ¬engine.image.isLegacy) := by
      simpa [Image.Supports] using hs
    rw [if_neg hlegacy, Image.pace]
    simp only [hs, not_true_eq_false, false_or]
    generalize instruction.opcode = opcode at hj
    cases opcode <;> first | exact absurd rfl hj | simp [Image.follow]
  · rw [if_pos (Image.not_supports_iff.mp hs), Image.pace, if_pos (.inl hs)]

end RomScript
