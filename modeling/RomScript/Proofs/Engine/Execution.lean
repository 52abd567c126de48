import RomScript.Proofs.Engine.Passage

/-!
# What is left of a step

Only a decoded instruction that the image supports, met with the execute flag on or by one of
the opcodes that run in any case, does anything; then the device and the state behind the step
are those behind the instruction. Every other step is shown to the observer and leaves both as
they were.
-/

set_option autoImplicit false

namespace RomScript

namespace Engine

variable {δ τ : Type} (engine : Engine δ τ) (nesting : Nesting δ τ) (offset length : Nat)
  (machine : Machine δ τ)

def entered (instruction : Instruction) : Machine δ τ :=
  (engine.note nesting.depth (.instruction offset instruction)
    (engine.dispatched nesting offset machine)).2

theorem runInstruction_scene (opcode : Opcode) (instruction : Instruction) :
    (engine.runInstruction nesting offset length opcode instruction machine).2.scene =
      (engine.execute nesting offset length instruction
        (engine.note nesting.depth (.instruction offset instruction) machine).2).2.scene := by
  let noted := (engine.note nesting.depth (.instruction offset instruction) machine).2
  let executed := engine.execute nesting offset length instruction noted
  obtain ⟨hb, hs⟩ := engine.announce_frame nesting offset executed.2 opcode
    noted.state.execute executed.1
  show Scene.mk _ _ = Scene.mk _ _
  rw [Scene.mk.injEq]
  exact ⟨hb, hs⟩

theorem step_scene :
    (engine.step nesting offset machine).2.scene = machine.scene ∨
      ∃ instruction, Instruction.decode engine.image offset = .ok instruction ∧
        (machine.state.execute = true ∨ instruction.opcode.runsWhileSkipping = true) ∧
        (engine.step nesting offset machine).2.scene =
          (engine.execute nesting offset instruction.size instruction
            (engine.entered nesting offset machine instruction)).2.scene := by
  rcases engine.step_cases nesting offset machine with ⟨-, hs⟩ | ⟨id, -, -, hs⟩ |
    ⟨opcode, ho, ⟨-, hs⟩ | ⟨-, ⟨cause, -, hs⟩ | ⟨length, next, after, hl, hk, hs⟩⟩⟩
  · exact .inl (by rw [hs]; rfl)
  · exact .inl (by rw [hs]; rfl)
  · exact .inl (by rw [hs]; rfl)
  · exact .inl (by rw [hs]; rfl)
  · rw [hs]
    have hafter := congrArg (fun ended => ended.2.scene) hk
    simp only at hafter
    rw [← hafter]
    rcases engine.stepKnown_cases nesting offset length
      (engine.dispatched nesting offset machine) opcode with
      ⟨-, -, hk⟩ | ⟨he, ⟨cause, -, hk⟩ | ⟨instruction, hd, hk⟩⟩
    · exact .inl (by rw [hk]; rfl)
    · exact .inl (by rw [hk]; rfl)
    · obtain ⟨hi, hsize⟩ := Instruction.decode_opcode hd
      obtain rfl := Option.some.inj (ho.symm.trans hi)
      obtain rfl := Except.ok.inj (hl.symm.trans hsize)
      refine .inr ⟨instruction, hd, he, ?_⟩
      rw [hk, runInstruction_scene]
      rfl

/-- An instruction that the image supports is executed while the execute flag is on, and what
follows it is settled by its result. -/
theorem step_executed {instruction : Instruction}
    (hd : Instruction.decode engine.image offset = .ok instruction)
    (hs : instruction.opcode.legacyOnly = true → engine.image.isLegacy = true)
    (hr : machine.state.execute = true ∨ instruction.opcode.runsWhileSkipping = true) :
    let executed := engine.execute nesting offset instruction.size instruction
      (engine.entered nesting offset machine instruction)
    (engine.step nesting offset machine).1 = .ok (settle instruction.size executed.1) ∧
      (engine.step nesting offset machine).2.scene = executed.2.scene := by
  obtain ⟨ho, hl⟩ := Instruction.decode_opcode hd
  rw [step_of_known nesting offset machine ho hs hl]
  rcases engine.stepKnown_cases nesting offset instruction.size
    (engine.dispatched nesting offset machine) instruction.opcode with
    ⟨he, hw, -⟩ | ⟨-, ⟨cause, hc, -⟩ | ⟨decoded, hi, hk⟩⟩
  · have he : machine.state.execute = false := he
    simp [he, hw] at hr
  · cases hd.symm.trans hc
  · obtain rfl := Except.ok.inj (hd.symm.trans hi)
    rw [hk]
    exact ⟨rfl, engine.runInstruction_scene nesting offset instruction.size
      (engine.dispatched nesting offset machine) instruction.opcode instruction⟩

end Engine

end RomScript
