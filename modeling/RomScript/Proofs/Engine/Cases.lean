import RomScript.Engine.Run
import RomScript.Proofs.Instruction.Extent

/-!
# What steps and runs can do

Every step takes one of several courses, and so does every turn of a run. The cases name
the course, what decides for it, and the machine behind it; statements about steps and runs
go through them and leave the definitions alone.
-/

set_option autoImplicit false

namespace RomScript

namespace Engine

variable {δ τ : Type} (engine : Engine δ τ) (nesting : Nesting δ τ) (offset length : Nat)
  (machine : Machine δ τ)

/-- A known instruction is stepped over, fails to be decoded, or runs. -/
theorem stepKnown_cases (opcode : Opcode) :
    (machine.state.execute = false ∧ opcode.runsWhileSkipping = false ∧
      engine.stepKnown nesting offset length opcode machine =
        (.advance length, (engine.note nesting.depth (.skip offset opcode) machine).2)) ∨
    ((machine.state.execute = true ∨ opcode.runsWhileSkipping = true) ∧
      ((∃ cause, Instruction.decode engine.image offset = .error cause ∧
        engine.stepKnown nesting offset length opcode machine =
          (.advance length,
            (engine.note nesting.depth (.failure offset opcode (.decode cause)) machine).2)) ∨
      ∃ instruction, Instruction.decode engine.image offset = .ok instruction ∧
        engine.stepKnown nesting offset length opcode machine =
          engine.runInstruction nesting offset length opcode instruction machine)) := by
  have hs : engine.stepKnown nesting offset length opcode machine =
      (if !machine.state.execute && !opcode.runsWhileSkipping then _ else _ : MachineM δ τ Step)
        machine := rfl
  cases he : machine.state.execute with
  | false =>
    cases hr : opcode.runsWhileSkipping with
    | false => exact .inl ⟨rfl, rfl, by rw [hs, he, hr]; rfl⟩
    | true =>
      rw [hs, he, hr]
      refine .inr ⟨.inr rfl, ?_⟩
      cases hd : Instruction.decode engine.image offset with
      | error cause => exact .inl ⟨cause, rfl, rfl⟩
      | ok instruction => exact .inr ⟨instruction, rfl, rfl⟩
  | true =>
    rw [hs, he]
    refine .inr ⟨.inl rfl, ?_⟩
    cases hd : Instruction.decode engine.image offset with
    | error cause => exact .inl ⟨cause, rfl, rfl⟩
    | ok instruction => exact .inr ⟨instruction, rfl, rfl⟩

def dispatched : Machine δ τ := (engine.note nesting.depth (.dispatch offset) machine).2

/-- A step is outside the image, at a byte of no opcode, at an opcode that the image does not
support, at one whose length cannot be read, or at a known instruction. -/
theorem step_cases :
    (engine.image.length ≤ offset ∧
      engine.step nesting offset machine =
        (.ok .truncated, engine.dispatched nesting offset machine)) ∨
    (∃ id, engine.image.byte offset = .ok id ∧ Opcode.ofByte? id = none ∧
      engine.step nesting offset machine =
        (.error { offset, id }, (engine.note nesting.depth (.unknownOpcode { offset, id })
          (engine.dispatched nesting offset machine)).2)) ∨
    ∃ opcode, engine.image.opcodeAt? offset = some opcode ∧
      (((opcode.legacyOnly ∧ ¬engine.image.isLegacy) ∧
        engine.step nesting offset machine =
          (.ok .stop, (engine.note nesting.depth (.needsLegacy offset opcode)
            (engine.dispatched nesting offset machine)).2)) ∨
      (¬(opcode.legacyOnly ∧ ¬engine.image.isLegacy) ∧
        ((∃ cause, opcode.encodedLength engine.image offset = .error cause ∧
          engine.step nesting offset machine =
            (.ok .truncated, engine.dispatched nesting offset machine)) ∨
        ∃ length next after, opcode.encodedLength engine.image offset = .ok length ∧
          engine.stepKnown nesting offset length opcode
            (engine.dispatched nesting offset machine) = (next, after) ∧
          engine.step nesting offset machine = (.ok next, after)))) := by
  unfold step
  cases hb : engine.image.byte offset with
  | error cause =>
    refine .inl ⟨Nat.le_of_not_lt fun hlt => ?_, rfl⟩
    obtain ⟨b, h⟩ := Rom.exists_byte_of_lt engine.image.rom hlt
    cases hb.symm.trans h
  | ok id =>
    cases ho : Opcode.ofByte? id with
    | none => exact .inr (.inl ⟨id, rfl, ho, by simp only [ho]; rfl⟩)
    | some opcode =>
      refine .inr (.inr ⟨opcode, (Image.opcodeAt?_of_byte hb).trans ho, ?_⟩)
      simp only [ho]
      by_cases hl : opcode.legacyOnly ∧ ¬engine.image.isLegacy
      · refine .inl ⟨hl, ?_⟩
        rw [if_pos (by simpa using hl)]
        rfl
      · refine .inr ⟨hl, ?_⟩
        rw [if_neg (by simpa using hl)]
        cases he : opcode.encodedLength engine.image offset with
        | error cause => exact .inl ⟨cause, rfl, rfl⟩
        | ok length => exact .inr ⟨length, _, _, rfl, rfl, rfl⟩

variable {engine length} in
theorem step_of_known {opcode : Opcode}
    (ho : engine.image.opcodeAt? offset = some opcode)
    (hs : opcode.legacyOnly = true → engine.image.isLegacy = true)
    (hl : opcode.encodedLength engine.image offset = .ok length) :
    engine.step nesting offset machine =
      (.ok (engine.stepKnown nesting offset length opcode
          (engine.dispatched nesting offset machine)).1,
        (engine.stepKnown nesting offset length opcode
          (engine.dispatched nesting offset machine)).2) := by
  have hb := (engine.image.opcodeAt?_eq_some_iff offset opcode).mp ho
  have hlegacy : ¬(opcode.legacyOnly && !engine.image.isLegacy) = true := by simpa using hs
  simp only [step, hb, Opcode.ofByte?_id, if_neg hlegacy, hl]
  rfl

variable {engine} in
theorem step_of_unsupported {opcode : Opcode}
    (ho : engine.image.opcodeAt? offset = some opcode) (hl : opcode.legacyOnly = true)
    (hi : ¬engine.image.isLegacy = true) :
    engine.step nesting offset machine =
      (.ok .stop, (engine.note nesting.depth (.needsLegacy offset opcode)
        (engine.dispatched nesting offset machine)).2) := by
  have hb := (engine.image.opcodeAt?_eq_some_iff offset opcode).mp ho
  have hlegacy : (opcode.legacyOnly && !engine.image.isLegacy) = true := by simp [hl, hi]
  simp only [step, hb, Opcode.ofByte?_id, if_pos hlegacy]
  rfl

theorem announce_frame (opcode : Opcode) (before : Bool) (result : Except InstructionError Step) :
    (engine.announce nesting offset opcode before result machine).2.bench = machine.bench ∧
      (engine.announce nesting offset opcode before result machine).2.state = machine.state := by
  have hs (noted : Machine δ τ) :
      let ended := (if noted.state.execute != before || opcode.isCondition then
        engine.note nesting.depth (.execute noted.state.execute) else pure ()) noted
      ended.2.bench = noted.bench ∧ ended.2.state = noted.state := by
    by_cases h : noted.state.execute != before || opcode.isCondition
    · rw [if_pos h]
      exact ⟨rfl, rfl⟩
    · rw [if_neg h]
      exact ⟨rfl, rfl⟩
  cases result with
  | ok next => exact hs machine
  | error cause => exact hs (engine.note nesting.depth (.failure offset opcode cause) machine).2

/-! ## Runs -/

variable (start left cursor : Nat)

theorem walk_of_le (h : engine.image.length ≤ cursor) :
    engine.walk nesting start left cursor machine =
      (.ok { start, cursor, ops := engine.limits.maxOps - left, exit := .truncated },
        (engine.note nesting.depth (.pastEnd start cursor) machine).2) := by
  unfold walk
  rw [if_pos h]
  rfl

theorem walk_zero (h : cursor < engine.image.length) :
    engine.walk nesting start 0 cursor machine =
      (.ok { start, cursor, ops := engine.limits.maxOps, exit := .runaway },
        (engine.note nesting.depth (.runaway start engine.limits.maxOps cursor) machine).2) := by
  unfold walk
  rw [if_neg (Nat.not_le.mpr h)]
  rfl

/-- What a run does behind a step, with the number of instructions taken so far and a way to
go on from a cursor. -/
def proceed (depth start cursor ops : Nat) (go : Nat → MachineM δ τ Outcome) :
    Except UnknownOpcode Step → MachineM δ τ Outcome
  | .error cause => return .error cause
  | .ok .stop => return .ok { start, cursor := cursor + 1, ops, exit := .done }
  | .ok .truncated => do
    engine.note depth (.truncated cursor)
    return .ok { start, cursor, ops, exit := .truncated }
  | .ok (.advance distance) =>
    match advance? cursor distance with
    | some next => go next
    | none => do
      engine.note depth (.beforeStart cursor)
      return .ok { start, cursor, ops, exit := .truncated }

theorem walk_succ (h : cursor < engine.image.length) :
    engine.walk nesting start (left + 1) cursor =
      engine.step nesting cursor >>=
        engine.proceed nesting.depth start cursor (engine.limits.maxOps - (left + 1) + 1)
          (engine.walk nesting start left) := by
  rw [walk, if_neg (Nat.not_le.mpr h)]
  refine bind_congr fun next => ?_
  rcases next with cause | distance | _ | _
  · rfl
  · rfl
  · rfl
  · rfl

def begun : Machine δ τ := (engine.note 0 (.script start) (MachineM.clearColumn machine).2).2

theorem runScript_apply : engine.runScript start machine =
    engine.runAt engine.outermost start (engine.begun machine start) := rfl

theorem depth_nesting (room : Nat) :
    (engine.nesting room).depth = engine.limits.maxDepth - room := by
  cases room <;> rfl

theorem depth_outermost : engine.outermost.depth = 0 :=
  (engine.depth_nesting _).trans (Nat.sub_self _)

end Engine

end RomScript
