import RomScript.Device.Simulated
import RomScript.Proofs.Engine.Cases

/-!
# The outline of a script

What follows an instruction does not depend on the device, on what the instruction does
there, or on the scripts it calls. It is computed here from the image and from the two
flags, and the execute flag matters to a jump only. Stepping over an instruction therefore
leads to the same place as running it.
-/

set_option autoImplicit false

namespace RomScript

namespace Image

/-- How far the jump at an offset goes, if its operand can be read and the distance is a
signed number of thirty-two bits. -/
def jumpAt? (image : Image) (offset : Nat) : Option Int :=
  match image.word (offset + 1) with
  | .error _ => none
  | .ok target =>
    let distance : Int := target.toNat - offset
    if -0x80000000 ≤ distance ∧ distance < 0x80000000 then some distance else none

def follow (image : Image) (offset length : Nat) (repeating execute : Bool) : Opcode → Step
  | .done => .stop
  | .endRepeat => if repeating then .stop else .advance length
  | .jump => if execute then .advance ((image.jumpAt? offset).getD length) else .advance length
  | _ => .advance length

/-- What follows the instruction at an offset, told from the bytes and the flags. -/
def outline (image : Image) (offset : Nat) (repeating execute : Bool) :
    Except UnknownOpcode Step :=
  match image.byte offset with
  | .error _ => .ok .truncated
  | .ok id =>
    match Opcode.ofByte? id with
    | none => .error { offset, id }
    | some opcode =>
      if opcode.legacyOnly ∧ ¬image.isLegacy then .ok .stop
      else
        match opcode.encodedLength image offset with
        | .error _ => .ok .truncated
        | .ok length => .ok (image.follow offset length repeating execute opcode)

theorem outline_of_le {image : Image} {offset : Nat} (h : image.length ≤ offset)
    (repeating execute : Bool) : image.outline offset repeating execute = .ok .truncated := by
  have hb : image.byte offset = .error _ := Rom.byte_of_le image.rom h
  simp only [outline, hb]

theorem outline_of_unknown {image : Image} {offset : Nat} {id : UInt8}
    (hb : image.byte offset = .ok id) (ho : Opcode.ofByte? id = none) (repeating execute : Bool) :
    image.outline offset repeating execute = .error { offset, id } := by
  simp only [outline, hb, ho]

theorem outline_of_opcodeAt? {image : Image} {offset : Nat} {opcode : Opcode}
    (h : image.opcodeAt? offset = some opcode) (repeating execute : Bool) :
    image.outline offset repeating execute =
      if opcode.legacyOnly ∧ ¬image.isLegacy then .ok .stop
      else match opcode.encodedLength image offset with
        | .error _ => .ok .truncated
        | .ok length => .ok (image.follow offset length repeating execute opcode) := by
  have hb := (image.opcodeAt?_eq_some_iff offset opcode).mp h
  simp only [outline, hb, Opcode.ofByte?_id]

theorem outline_execute {image : Image} {offset : Nat}
    (h : image.opcodeAt? offset ≠ some .jump) (repeating execute execute' : Bool) :
    image.outline offset repeating execute = image.outline offset repeating execute' := by
  unfold outline
  cases hb : image.byte offset with
  | error cause => rfl
  | ok id =>
    cases ho : Opcode.ofByte? id with
    | none => simp only [ho]
    | some opcode =>
      have hj : opcode ≠ .jump := fun e => h ((opcodeAt?_of_byte hb).trans (e ▸ ho))
      have hf (length : Nat) : image.follow offset length repeating execute opcode =
          image.follow offset length repeating execute' opcode := by
        cases opcode <;> first | rfl | exact absurd rfl hj
      simp only [ho, hf]

end Image

def Instruction.follow (offset length : Nat) (repeating : Bool) : Instruction → Step
  | .control .done => .stop
  | .control .endRepeat => if repeating then .stop else .advance length
  | .control (.jump target) =>
    Engine.settle length ((Engine.jumpDistance offset target).map .advance)
  | _ => .advance length

namespace Engine

variable {δ τ : Type} (engine : Engine δ τ) (nesting : Nesting δ τ) (offset length : Nat)
  (machine : Machine δ τ)

@[simp] theorem settle_map {α : Type} (result : Except InstructionError α) :
    settle length (result.map fun _ => .advance length) = .advance length := by
  cases result <;> rfl

theorem settle_control (op : Control) :
    settle length (engine.control nesting offset length op machine).1 =
      (Instruction.control op).follow offset length machine.state.repeating := by
  cases op with
  | repeatBlock count => simp [control, Instruction.follow]
  | endRepeat => rfl
  | negate => rfl
  | resume => rfl
  | done => rfl
  | jump target => rfl
  | sub index =>
    simp only [control, Instruction.follow]
    cases engine.image.scriptPointer index with
    | error cause => rfl
    | ok target => simp
  | subDirect target => simp [control, Instruction.follow]
  | reserved which => rfl

theorem settle_execute (instruction : Instruction) :
    settle length (engine.execute nesting offset length instruction machine).1 =
      instruction.follow offset length machine.state.repeating := by
  cases instruction with
  | control op => exact engine.settle_control nesting offset length machine op
  | condition op => simp [execute, Instruction.follow]
  | register op => simp [execute, Instruction.follow]
  | port op => simp [execute, Instruction.follow]
  | clock op => simp [execute, Instruction.follow]
  | bus op => simp [execute, Instruction.follow]
  | board op => simp [execute, Instruction.follow]

theorem runInstruction_fst (opcode : Opcode) (instruction : Instruction) :
    (engine.runInstruction nesting offset length opcode instruction machine).1 =
      instruction.follow offset length machine.state.repeating := by
  have h := engine.settle_execute nesting offset length
    (engine.note nesting.depth (.instruction offset instruction) machine).2 instruction
  simpa only [runInstruction, MachineM.bind_apply, MachineM.pure_apply, MachineM.state_apply,
    note_apply] using h

theorem follow_decoded {instruction : Instruction}
    (h : Instruction.decode engine.image offset = .ok instruction) (repeating : Bool) :
    instruction.follow offset length repeating =
      engine.image.follow offset length repeating true instruction.opcode := by
  cases instruction with
  | control op =>
    cases op with
    | jump target =>
      have hw : engine.image.word (offset + 1) = .ok target := by
        obtain ⟨opcode, -, hi⟩ := (Instruction.decode_eq_ok_iff _ _ _).mp h
        obtain ⟨rfl, -⟩ := OperandReader.opcode_size_of_instruction _ opcode _ hi
        obtain ⟨target', hw, ht⟩ := bind_eq_ok_iff.mp hi
        cases ht
        exact hw
      simp only [Instruction.follow, Image.follow, Instruction.opcode, Control.opcode,
        Image.jumpAt?, hw, jumpDistance, if_true]
      split <;> rfl
    | _ => rfl
  | condition op => cases op <;> rfl
  | register op => cases op <;> rfl
  | port op => cases op <;> rfl
  | clock op => cases op <;> rfl
  | bus op => cases op <;> rfl
  | board op => cases op <;> rfl

/-- Of the opcodes that end a script or jump, only a jump can be undecodable. -/
theorem follow_undecoded {opcode : Opcode} {cause : DecodeError}
    (ho : engine.image.opcodeAt? offset = some opcode)
    (h : Instruction.decode engine.image offset = .error cause) (repeating execute : Bool) :
    engine.image.follow offset length repeating execute opcode = .advance length := by
  have hi (instruction : Instruction) :
      ({ image := engine.image, base := offset } : OperandReader).instruction opcode ≠
        .ok instruction := by
    intro hi
    rw [(Instruction.decode_eq_ok_iff _ _ _).mpr ⟨opcode, ho, hi⟩] at h
    cases h
  cases opcode with
  | done => exact (hi (.control .done) rfl).elim
  | endRepeat => exact (hi (.control .endRepeat) rfl).elim
  | jump =>
    cases hw : engine.image.word (offset + 1) with
    | error cause => simp [Image.follow, Image.jumpAt?, hw]
    | ok target =>
      exact (hi (.control (.jump target)) (bind_eq_ok_iff.mpr ⟨target, hw, rfl⟩)).elim
  | _ => rfl

theorem stepKnown_fst {opcode : Opcode} (ho : engine.image.opcodeAt? offset = some opcode) :
    (engine.stepKnown nesting offset length opcode machine).1 =
      engine.image.follow offset length machine.state.repeating machine.state.execute opcode := by
  rcases engine.stepKnown_cases nesting offset length machine opcode with
    ⟨he, hr, hs⟩ | ⟨he, ⟨cause, hd, hs⟩ | ⟨instruction, hd, hs⟩⟩
  · rw [hs, he]
    cases opcode <;> first | rfl | cases hr
  · rw [hs, engine.follow_undecoded offset length ho hd]
  · obtain rfl := Option.some.inj (ho.symm.trans (Instruction.decode_opcode hd).1)
    rw [hs, runInstruction_fst, engine.follow_decoded offset length hd]
    rcases he with he | hr
    · rw [he]
    · generalize instruction.opcode = opcode at hr
      cases opcode <;> first | rfl | cases hr

theorem step_fst : (engine.step nesting offset machine).1 =
    engine.image.outline offset machine.state.repeating machine.state.execute := by
  rcases engine.step_cases nesting offset machine with ⟨hb, hs⟩ | ⟨id, hb, ho, hs⟩ |
    ⟨opcode, ho, ⟨hl, hs⟩ | ⟨hl, ⟨cause, he, hs⟩ | ⟨length, next, after, he, hk, hs⟩⟩⟩
  · rw [hs, Image.outline_of_le hb]
  · rw [hs, Image.outline_of_unknown hb ho]
  · rw [hs, Image.outline_of_opcodeAt? ho, if_pos hl]
  · rw [hs, Image.outline_of_opcodeAt? ho, if_neg hl, he]
  · have hn := engine.stepKnown_fst nesting offset length
      (engine.dispatched nesting offset machine) ho
    rw [hk] at hn
    rw [hs, Image.outline_of_opcodeAt? ho, if_neg hl, he]
    exact congrArg Except.ok hn

/-- A step leads where the outline says, whatever the device answers and nested scripts do,
and unless it is at a jump it also leads there if the execute flag differs. -/
theorem step_eq_outline : (engine.step nesting offset machine).1 =
      engine.image.outline offset machine.state.repeating machine.state.execute ∧
    (engine.image.opcodeAt? offset ≠ some .jump →
      ∀ {δ' τ' : Type} (other : Engine δ' τ') (nesting' : Nesting δ' τ')
        (machine' : Machine δ' τ'), other.image = engine.image →
        machine'.state.repeating = machine.state.repeating →
        (other.step nesting' offset machine').1 = (engine.step nesting offset machine).1) := by
  constructor
  · exact engine.step_fst nesting offset machine
  · intro hj δ' τ' other nesting' machine' hi hr
    rw [step_fst, step_fst, hi, hr]
    exact Image.outline_execute hj _ _ _

/-- A condition leads on the same way whether it is tested or stepped over. -/
theorem step_eq_outline_of_condition :
    let engine : Engine SimulatedDevice Unit :=
      { image := .ofScript ⟨#[0, 0x75, 0x03, 0x71]⟩
        facade := SimulatedDevice.facade
        observer := .silent
        limits := {} }
    let tested : Machine SimulatedDevice Unit := .start .blank {} ()
    let skipped : Machine SimulatedDevice Unit := { tested with state := { execute := false } }
    engine.image.opcodeAt? 1 ≠ some .jump ∧
      (engine.step engine.outermost 1 skipped).1 = (engine.step engine.outermost 1 tested).1 := by
  intro engine tested skipped
  have hj : engine.image.opcodeAt? 1 ≠ some .jump := by decide
  exact ⟨hj, (step_eq_outline engine engine.outermost 1 tested).2 hj engine engine.outermost
    skipped rfl rfl⟩

end Engine

end RomScript
