import RomScript.Proofs.Effect.Verdict
import RomScript.Proofs.Engine.Action
import RomScript.Proofs.Engine.Rest

/-!
# The execute flag

Only conditions and five control instructions can leave the execute flag other than it was. A
condition that runs leaves it on exactly if its verdict is that it is met; a condition that is
refused for its number has no verdict and leaves it on. Nothing turns the flag on but the two
instructions that do so by design, so without them it goes off once at most in a run.
-/

set_option autoImplicit false

namespace RomScript

open Chronicle Milestone

/-- The execute flag may differ behind the instruction: it sets the flag, tests a condition, or
runs other instructions. -/
def Opcode.movesFlag : Opcode → Bool
  | .negate | .resume | .sub | .subDirect | .repeatBlock => true
  | opcode => opcode.isCondition

theorem Condition.unsupported?_eq_none_iff (condition : Condition) :
    condition.unsupported? = none ↔
      ¬∃ test size, condition = .displayPort test size ∧ ¬(test ≤ 2 ∨ test = 5 ∨ test = 6) := by
  cases condition with
  | displayPort number size =>
    by_cases h : number ≤ 2 ∨ number = 5 ∨ number = 6
    · rw [unsupported?, if_pos h]
      refine iff_of_true rfl ?_
      rintro ⟨test, size, hop, hn⟩
      cases hop
      exact hn h
    · rw [unsupported?, if_neg h]
      exact iff_of_false nofun (not_not_intro ⟨number, size, rfl, h⟩)
  | _ => simp [unsupported?]

namespace Engine

variable {δ τ : Type} (engine : Engine δ τ) (nesting : Nesting δ τ) (offset length : Nat)
  (machine : Machine δ τ)

theorem execute_state {instruction : Instruction} (h : instruction.opcode.movesFlag = false) :
    (engine.execute nesting offset length instruction machine).2.state = machine.state := by
  have hn : instruction.opcode.nests = false := by
    generalize instruction.opcode = opcode at h
    cases opcode <;> first | rfl | cases h
  have hflag : engine.flagBehind machine.scene instruction = machine.state.execute := by
    cases instruction with
    | control op => cases op <;> first | rfl | cases h
    | condition op => cases op <;> cases h
    | _ => rfl
  have hscene := engine.execute_act nesting offset length machine hn
  rw [act, hflag] at hscene
  exact congrArg Scene.state hscene

theorem step_execute_of_still (h : (engine.image.opcodeAt? offset).any Opcode.movesFlag = false) :
    (engine.step nesting offset machine).2.state = machine.state := by
  rcases engine.step_scene nesting offset machine with hs | ⟨instruction, hd, -, hs⟩
  · exact congrArg Scene.state hs
  · rw [(Instruction.decode_opcode hd).1] at h
    exact (congrArg Scene.state hs).trans (engine.execute_state nesting offset _ _ h)

theorem condition_execute (op : Condition) (he : machine.state.execute = true) :
    ((engine.condition nesting offset op machine).2.state.execute = true ↔
      op.unsupported? = none → op.verdict engine.image machine.state.output engine.facade
        machine.bench.device = .met) := by
  rw [← Condition.test_eq_true_iff]
  unfold condition
  cases hu : op.unsupported? with
  | some cause => exact iff_of_true he nofun
  | none =>
    simp only [MachineM.bind_apply, MachineM.state_apply, perform_apply, note_apply, forall_const]
    cases (op.test engine.image machine.state.output).run engine.facade machine.bench with
    | mk verdict bench =>
      rcases verdict with cause | met | met
      · exact iff_of_false nofun nofun
      · exact iff_of_false nofun nofun
      · exact iff_of_true he rfl

/-- Behind a condition that is met with the execute flag on, the flag is on exactly if the
condition is met, or refused for its number. -/
theorem step_execute_of_condition {op : Condition}
    (hd : Instruction.decode engine.image offset = .ok (.condition op))
    (he : machine.state.execute = true) :
    ((engine.step nesting offset machine).2.state.execute = true ↔
      op.unsupported? = none → op.verdict engine.image machine.state.output engine.facade
        machine.bench.device = .met) := by
  have hs : (Instruction.condition op).opcode.legacyOnly = true → engine.image.isLegacy = true := by
    cases op <;> exact nofun
  have hscene := (engine.step_executed nesting offset machine hd hs (.inl he)).2
  rw [show (engine.step nesting offset machine).2.state = _ from congrArg Scene.state hscene]
  exact engine.condition_execute nesting offset (engine.entered nesting offset machine _) op he

/-! ## Runs -/

/-- The instructions that begin at the milestones are the dispatches of the chronicle. If none of
them turns the flag on, it stays off from the first scene on in which it is off, and the device,
whatever it keeps of what it is asked, is left alone up to the end. -/
structure Latches (points : List (Milestone δ)) (events : Chronicle) (scene after : Scene δ) :
    Prop where
  begun : dispatchList events = beginnings points
  rests : engine.Sleeps (dispatchList events) →
    (scene :: points.map Milestone.scene ++ [after]).Pairwise Scene.Rests

section Runs

variable {room : Nat} (hr : room ≤ engine.limits.maxDepth) (start : Nat)

include hr

theorem beginnings_milestones (past : Chronicle) : ∃ events,
    (engine.recorded.runAt (engine.recorded.nesting room) start
        { machine with notes := (machine.notes, past) }).2.notes =
      engine.recorded.observer.replay events (machine.notes, past) ∧
    dispatchList events = beginnings (engine.milestones room start machine) := by
  obtain ⟨events, hn, hb⟩ := engine.recorded.begins_milestones hr start
    { machine with notes := (machine.notes, past) }
  have hsame : engine.recorded.milestones room start
      { machine with notes := (machine.notes, past) } = engine.milestones room start machine :=
    unseen_milestones hr start machine.scene machine.notes (machine.notes, past)
  exact ⟨events, hn, hsame ▸ hb⟩

theorem latches_runAt : engine.Latches (engine.milestones room start machine)
    (chronicle (engine.recorded.runAt (engine.recorded.nesting room) start) machine)
    machine.scene (engine.runAt (engine.nesting room) start machine).2.scene := by
  obtain ⟨events, hn, hb⟩ := engine.beginnings_milestones machine hr start []
  rw [engine.chronicle_of_notes hn]
  refine ⟨hb, fun hs => ?_⟩
  rw [List.reverse_nil, List.nil_append, hb] at hs
  exact ((engine.journey_milestones room start machine).path hs).pairwise

omit hr in
theorem latches_runScript :
    engine.Latches (engine.milestones engine.limits.maxDepth start (engine.begun machine start))
      (chronicle (engine.recorded.runScript start) machine)
      (engine.begun machine start).scene (engine.runScript start machine).2.scene := by
  obtain ⟨events, hn, hb⟩ := engine.beginnings_milestones (engine.begun machine start)
    (Nat.le_refl _) start [({ depth := 0, execute := machine.state.execute }, .script start)]
  have hc : chronicle (engine.recorded.runScript start) machine = _ := engine.chronicle_of_notes hn
  have hd : dispatchList (chronicle (engine.recorded.runScript start) machine) =
      dispatchList events := by
    rw [hc]
    rfl
  refine ⟨hd.trans hb, fun hs => ?_⟩
  rw [hd, hb] at hs
  have hjourney := engine.journey_milestones engine.limits.maxDepth start
    (engine.begun machine start)
  exact (hjourney.path hs).pairwise

end Runs

/-- What becomes of the execute flag. Instructions other than conditions, the two that turn it on
and the three that run others leave it, and the whole state, as it was. A condition that is
executed leaves it on if it is met or refused for its number, and turns it off for every reason
for which it is not met. In runs that do not meet the two instructions that turn it on, it is
off for good once it is off, at whatever depth, and the device is no longer asked. -/
theorem execute_flag_account :
    (∀ (nesting : Nesting δ τ) offset machine,
      (engine.image.opcodeAt? offset).any Opcode.movesFlag = false →
        (engine.step nesting offset machine).2.state = machine.state) ∧
    (∀ (nesting : Nesting δ τ) offset machine op,
      Instruction.decode engine.image offset = .ok (.condition op) →
      machine.state.execute = true →
        ((engine.step nesting offset machine).2.state.execute = true ↔
          op.verdict engine.image machine.state.output engine.facade machine.bench.device = .met ∨
            ∃ test size, op = .displayPort test size ∧ ¬(test ≤ 2 ∨ test = 5 ∨ test = 6))) ∧
    (∀ (op : Condition) output device,
      let verdict := op.verdict engine.image output engine.facade device
      (verdict = .noEntry ↔ ¬op.HasEntry engine.image) ∧
      (verdict = .noFlag ↔ ∃ index entry, op = .portFlag index ∧
        engine.image.ioFlagCondition index = .ok entry ∧
        engine.image.length ≤ entry.flagArray.toNat + entry.field.position
          (engine.facade.answer (.readIndexed entry.field.port entry.field.index) device).1) ∧
      (verdict = .failed ↔
        ∃ cause, op.transfer? output engine.facade device = some (.error cause))) ∧
    (∀ room ≤ engine.limits.maxDepth, ∀ start machine,
      engine.Latches (engine.milestones room start machine)
        (chronicle (engine.recorded.runAt (engine.recorded.nesting room) start) machine)
        machine.scene (engine.runAt (engine.nesting room) start machine).2.scene) ∧
    ∀ start machine,
      engine.Latches (engine.milestones engine.limits.maxDepth start (engine.begun machine start))
        (chronicle (engine.recorded.runScript start) machine)
        (engine.begun machine start).scene (engine.runScript start machine).2.scene := by
  refine ⟨?_, ?_, ?_, ?_, ?_⟩
  · intro nesting offset machine h
    exact engine.step_execute_of_still nesting offset machine h
  · intro nesting offset machine op hd he
    rw [engine.step_execute_of_condition nesting offset machine hd he,
      op.unsupported?_eq_none_iff, ← or_iff_not_imp_right]
  · intro op output device
    exact ⟨op.verdict_eq_noEntry_iff engine.image output engine.facade device,
      op.verdict_eq_noFlag_iff engine.image output engine.facade device,
      op.verdict_eq_failed_iff engine.image output engine.facade device⟩
  · intro room hr start machine
    exact engine.latches_runAt machine hr start
  · intro start machine
    exact engine.latches_runScript machine start

/-- In a called script a condition has no table; the flag is off behind it, and when the caller
goes on. -/
theorem execute_flag_account_of_missing_table :
    let engine : Engine SimulatedDevice Unit :=
      { image := .ofScript ⟨#[0, 0x5b, 0x05, 0x00, 0x71, 0x75, 0x03, 0x71]⟩
        facade := SimulatedDevice.facade
        observer := .silent
        limits := {} }
    let machine : Machine SimulatedDevice Unit := .start .blank {} ()
    (engine.image.opcodeAt? 4).any Opcode.movesFlag = false ∧
      (engine.step engine.outermost 4 machine).2.state = machine.state ∧
      machine.state.execute = true ∧
      Instruction.decode engine.image 5 = .ok (.condition (.register 3)) ∧
      (engine.step engine.outermost 5 machine).2.state.execute = false ∧
      1 ≤ engine.limits.maxDepth ∧
      dispatchList (chronicle (engine.recorded.runAt (engine.recorded.nesting 1) 1) machine) =
        [({ depth := 31, execute := true }, 1), ({ depth := 32, execute := true }, 5),
          ({ depth := 32, execute := false }, 7), ({ depth := 31, execute := false }, 4)] ∧
      (machine.scene :: (engine.milestones 1 1 machine).map Milestone.scene ++
        [(engine.runAt (engine.nesting 1) 1 machine).2.scene]).Pairwise Scene.Rests := by
  intro engine machine
  obtain ⟨hstill, hcondition, hverdict, hruns, -⟩ := execute_flag_account engine
  have hd : Instruction.decode engine.image 5 = .ok (.condition (.register 3)) := rfl
  have hm : (engine.image.opcodeAt? 4).any Opcode.movesFlag = false := by decide
  have hr : 1 ≤ engine.limits.maxDepth := by decide
  have hnone : ((Condition.register 3).verdict engine.image machine.state.output engine.facade
      machine.bench.device) = .noEntry := by decide
  have hdispatched :
      dispatchList (chronicle (engine.recorded.runAt (engine.recorded.nesting 1) 1) machine) =
        [({ depth := 31, execute := true }, 1), ({ depth := 32, execute := true }, 5),
          ({ depth := 32, execute := false }, 7), ({ depth := 31, execute := false }, 4)] := by
    decide +kernel
  refine ⟨hm, hstill engine.outermost 4 machine hm, rfl, hd, ?_, hr, hdispatched,
    (hruns 1 hr 1 machine).rests ?_⟩
  · rw [← Bool.not_eq_true, hcondition engine.outermost 5 machine _ hd rfl, hnone]
    rintro (hmet | ⟨test, size, hop, -⟩)
    · cases hmet
    · cases hop
  · rw [hdispatched]
    unfold Sleeps
    decide

end Engine

end RomScript
