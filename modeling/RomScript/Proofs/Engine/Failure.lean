import RomScript.Proofs.Effect.Failure
import RomScript.Proofs.Engine.Execution

/-!
# Failed instructions

A failed instruction is stepped over and leaves the state as it was. Of the device it has only
asked what changes nothing there, but for two instructions that write before they read on in
their tables.
-/

set_option autoImplicit false

namespace RomScript

open Effect

namespace Instruction

variable {δ : Type} (image : Image) (facade : Facade δ) (device : δ)

/-- The instruction writes before it reads on in a table: a group of which the first entry is in
the image, and the bringing up of a memory that has an entry there. -/
def WritesFirst : Instruction → Prop
  | .register (.macroGroup index) => ∃ range entry, image.macroRange index = .ok range ∧
      range.2 ≠ 0 ∧ image.macroEntry range.1.toNat = .ok entry
  | .board .configureMem => ∃ entry, image.memInitEntry
      ((facade.answer (.readIndexed 0x3d4 0x3c) device).1 >>> 4) = .ok entry
  | _ => False

structure Leaves (instruction : Instruction) (calls : List Call) : Prop where
  idle_iff : (∀ call ∈ calls, call.isIdle = true) ↔ ¬instruction.WritesFirst image facade device
  group : ∀ index, instruction = .register (.macroGroup index) →
    calls = RegisterOp.groupCalls image index
  memory : instruction = .board .configureMem → calls = BoardOp.memoryCalls facade image device

variable {image facade device}

theorem not_writesFirst {instruction : Instruction} (hg : instruction.opcode ≠ .macroGroup)
    (hm : instruction.opcode ≠ .configureMem) : ¬instruction.WritesFirst image facade device := by
  cases instruction with
  | register op =>
    cases op with
    | macroGroup index => exact absurd rfl hg
    | _ => exact id
  | board op =>
    cases op with
    | configureMem => exact absurd rfl hm
    | _ => exact id
  | _ => exact id

theorem leaves_idle {instruction : Instruction} {calls : List Call}
    (hg : instruction.opcode ≠ .macroGroup) (hm : instruction.opcode ≠ .configureMem)
    (h : ∀ call ∈ calls, call.isIdle = true) : instruction.Leaves image facade device calls := by
  constructor
  · exact iff_of_true h (not_writesFirst hg hm)
  · rintro index rfl
    exact absurd rfl hg
  · rintro rfl
    exact absurd rfl hm

end Instruction

namespace Engine

variable {δ τ : Type} (engine : Engine δ τ) (nesting : Nesting δ τ) (offset length : Nat)
  (machine : Machine δ τ)

/-! ## Control instructions and conditions -/

theorem inner_of_callTimes_error {target times : Nat} {cause : InstructionError}
    (h : (engine.callTimes nesting target times machine).1 = .error cause) :
    nesting.inner = none := by
  induction times generalizing machine with
  | zero => cases h
  | succ times ih =>
    simp only [callTimes, MachineM.bind_apply] at h
    cases hc : (engine.call nesting target machine).1 with
    | error refused => exact engine.inner_of_call_error hc
    | ok _ =>
      rw [hc] at h
      exact ih _ h

theorem callTimes_of_error {target times : Nat} {cause : InstructionError}
    (h : (engine.callTimes nesting target times machine).1 = .error cause) :
    (engine.callTimes nesting target times machine).2 = machine := by
  have hn := engine.inner_of_callTimes_error nesting machine h
  cases times with
  | zero => cases h
  | succ times =>
    simp only [callTimes, MachineM.bind_apply, engine.call_of_none hn, MachineM.pure_apply]

theorem map_eq_error {α β : Type} {f : α → β} {value : Except InstructionError α}
    {cause : InstructionError} (h : value.map f = .error cause) : value = .error cause := by
  cases value with
  | error refused => exact congrArg _ (Except.error.inj h)
  | ok value => cases h

theorem control_of_error {op : Control} {cause : InstructionError}
    (h : (engine.control nesting offset length op machine).1 = .error cause) :
    (engine.control nesting offset length op machine).2 = machine := by
  have hcall {target : Nat} (h : (engine.call nesting target machine).1 = .error cause) :
      (engine.call nesting target machine).2 = machine := by
    rw [engine.call_of_none (engine.inner_of_call_error h), MachineM.pure_apply]
  cases op with
  | repeatBlock count =>
    let repeating := (MachineM.setRepeating true machine).2
    have hpasses := engine.callTimes_of_error nesting repeating (map_eq_error h)
    have hback : (engine.control nesting offset length (.repeatBlock count) machine).2 =
        (MachineM.setRepeating machine.state.repeating
          (engine.callTimes nesting (offset + length) (count.toNat - 1) repeating).2).2 := rfl
    rw [hback, hpasses]
    rfl
  | sub index =>
    simp only [control] at h ⊢
    cases hp : engine.image.scriptPointer index with
    | error missing => rfl
    | ok target =>
      rw [hp] at h
      exact hcall (map_eq_error h)
  | subDirect target => exact hcall (map_eq_error h)
  | jump target => rfl
  | endRepeat | negate | resume | done | reserved => cases h

theorem condition_of_error {op : Condition} {cause : InstructionError}
    (h : (engine.condition nesting offset op machine).1 = .error cause) :
    (engine.condition nesting offset op machine).2 = machine := by
  unfold condition at h ⊢
  cases hu : op.unsupported? with
  | some refused => rfl
  | none =>
    rw [hu] at h
    simp only [MachineM.bind_apply, MachineM.state_apply, perform_apply] at h
    cases hv : ((op.test engine.image machine.state.output).run engine.facade machine.bench).1 with
    | error unmet =>
      rw [hv] at h
      cases h
    | ok met =>
      rw [hv] at h
      cases met <;> cases h

theorem bus_of_error {op : BusOp} {cause : InstructionError}
    (h : (engine.bus nesting offset op machine).1 = .error cause) :
    ((op.run machine.state.output).run engine.facade machine.bench).1 = .error cause ∧
      (engine.bus nesting offset op machine).2 =
        { machine with
          bench := ((op.run machine.state.output).run engine.facade machine.bench).2 } := by
  simp only [bus, MachineM.bind_apply, MachineM.state_apply, perform_apply] at h ⊢
  cases hr : ((op.run machine.state.output).run engine.facade machine.bench).1 with
  | error refused =>
    rw [hr] at h
    cases h
    exact ⟨rfl, rfl⟩
  | ok notices =>
    rw [hr] at h
    cases h

/-! ## Failed instructions -/

/-- The instruction failed between the machines. The state is as it was, and the device is that
behind a failed effect, of which the calls are known. -/
def Failed (instruction : Instruction) (cause : InstructionError) (machine after : Machine δ τ) :
    Prop :=
  after.state = machine.state ∧ ∃ (α : Type) (effect : Effect α),
    effect.run engine.facade machine.bench = (.error cause, after.bench) ∧
    instruction.Leaves engine.image engine.facade machine.bench.device
      (effect.calls engine.facade machine.bench)

section Failed

variable {instruction : Instruction} {cause : InstructionError}

theorem failed_of_leaves {α : Type} {effect : Effect α}
    (he : (effect.run engine.facade machine.bench).1 = .error cause)
    (hl : instruction.Leaves engine.image engine.facade machine.bench.device
      (effect.calls engine.facade machine.bench)) :
    engine.Failed instruction cause machine
      { machine with bench := (effect.run engine.facade machine.bench).2 } :=
  ⟨rfl, α, effect, by rw [← he], hl⟩

theorem failed_of_failsIdly (hg : instruction.opcode ≠ .macroGroup)
    (hm : instruction.opcode ≠ .configureMem) {α : Type} {effect : Effect α}
    (hf : effect.FailsIdly) (he : (effect.run engine.facade machine.bench).1 = .error cause) :
    engine.Failed instruction cause machine
      { machine with bench := (effect.run engine.facade machine.bench).2 } := by
  apply engine.failed_of_leaves machine he
  apply Instruction.leaves_idle hg hm
  exact calls_of_failsIdly engine.facade machine.bench hf (by rw [← he])

theorem failed_of_same (hg : instruction.opcode ≠ .macroGroup)
    (hm : instruction.opcode ≠ .configureMem) :
    engine.Failed instruction cause machine machine := by
  have hf : (Effect.fail cause : Effect Unit).FailsIdly := trivial
  exact engine.failed_of_failsIdly machine hg hm hf rfl

theorem failed_register {op : RegisterOp}
    (he : ((op.run engine.image).run engine.facade machine.bench).1 = .error cause) :
    engine.Failed (.register op) cause machine
      { machine with bench := ((op.run engine.image).run engine.facade machine.bench).2 } := by
  by_cases hg : (Instruction.register op).opcode = .macroGroup
  · obtain ⟨index, rfl⟩ : ∃ index, op = .macroGroup index := by
      cases op <;> first | exact ⟨_, rfl⟩ | cases hg
    apply engine.failed_of_leaves machine he
    rw [RegisterOp.calls_group]
    constructor
    · exact RegisterOp.groupCalls_idle_iff engine.facade engine.image (by rw [← he])
    · rintro _ ⟨⟩
      rfl
    · nofun
  · exact engine.failed_of_failsIdly machine hg (by cases op <;> nofun)
      (op.failsIdly_run engine.image hg) he

theorem failed_board {op : BoardOp}
    (he : ((op.run engine.image).run engine.facade machine.bench).1 = .error cause) :
    engine.Failed (.board op) cause machine
      { machine with bench := ((op.run engine.image).run engine.facade machine.bench).2 } := by
  by_cases hm : (Instruction.board op).opcode = .configureMem
  · obtain rfl : op = .configureMem := by
      cases op <;> first | rfl | cases hm
    apply engine.failed_of_leaves machine he
    rw [BoardOp.calls_configureMem]
    constructor
    · exact BoardOp.memoryCalls_idle_iff engine.facade engine.image machine.bench.device
    · nofun
    · exact fun _ => rfl
  · exact engine.failed_of_failsIdly machine (by cases op <;> nofun) hm
      (op.failsIdly_run engine.image hm) he

theorem execute_of_error
    (h : (engine.execute nesting offset length instruction machine).1 = .error cause) :
    engine.Failed instruction cause machine
      (engine.execute nesting offset length instruction machine).2 := by
  cases instruction with
  | control op =>
    have hsame : (engine.execute nesting offset length (.control op) machine).2 = machine :=
      engine.control_of_error nesting offset length machine h
    rw [hsame]
    exact engine.failed_of_same machine (by cases op <;> nofun) (by cases op <;> nofun)
  | condition op =>
    have hsame : (engine.execute nesting offset length (.condition op) machine).2 = machine :=
      engine.condition_of_error nesting offset machine (map_eq_error h)
    rw [hsame]
    exact engine.failed_of_same machine (by cases op <;> nofun) (by cases op <;> nofun)
  | port op =>
    obtain ⟨value, after, ho⟩ := run_of_total engine.facade machine.bench
      (op.total_run machine.state.output)
    have he : ((op.run machine.state.output).run engine.facade machine.bench).1 = .error cause :=
      map_eq_error h
    rw [ho] at he
    cases he
  | register op => exact engine.failed_register machine (map_eq_error h)
  | board op => exact engine.failed_board machine (map_eq_error h)
  | clock op =>
    exact engine.failed_of_failsIdly machine (by cases op <;> nofun) (by cases op <;> nofun)
      (op.failsIdly_run engine.image) (map_eq_error h)
  | bus op =>
    obtain ⟨he, hafter⟩ := engine.bus_of_error nesting offset machine (map_eq_error h)
    have hafter : (engine.execute nesting offset length (.bus op) machine).2 = _ := hafter
    rw [hafter]
    exact engine.failed_of_failsIdly machine (by cases op <;> nofun) (by cases op <;> nofun)
      (op.failsIdly_run machine.state.output) he

end Failed

/-! ## Steps -/

/-- The instruction at an offset, of which the length is known, fails: its operands are not all in
the image, or executing it fails. -/
inductive FailsAt : Nat → Prop
  | undecoded {opcode : Opcode} {length : Nat} {cause : DecodeError}
      (known : engine.image.opcodeAt? offset = some opcode)
      (supported : opcode.legacyOnly = true → engine.image.isLegacy = true)
      (long : opcode.encodedLength engine.image offset = .ok length)
      (error : Instruction.decode engine.image offset = .error cause) : FailsAt length
  | executed {instruction : Instruction} {length : Nat} {cause : InstructionError}
      (decoded : Instruction.decode engine.image offset = .ok instruction)
      (supported : instruction.opcode.legacyOnly = true → engine.image.isLegacy = true)
      (long : instruction.opcode.encodedLength engine.image offset = .ok length)
      (error : (engine.execute nesting offset length instruction
        (engine.entered nesting offset machine instruction)).1 = .error cause) : FailsAt length

variable {engine nesting offset length machine}

theorem step_of_failure (he : machine.state.execute = true)
    (h : engine.FailsAt nesting offset machine length) :
    (engine.step nesting offset machine).1 = .ok (.advance length) ∧
      (engine.step nesting offset machine).2.state = machine.state ∧
      ∃ (α : Type) (effect : Effect α),
        (engine.step nesting offset machine).2.bench =
          (effect.run engine.facade machine.bench).2 ∧
        (∀ cause, Instruction.decode engine.image offset = .error cause →
          effect.calls engine.facade machine.bench = []) ∧
        ∀ instruction, Instruction.decode engine.image offset = .ok instruction →
          instruction.Leaves engine.image engine.facade machine.bench.device
            (effect.calls engine.facade machine.bench) := by
  cases h with
  | @undecoded opcode _ cause known supported long error =>
    have hstep := step_of_known nesting offset machine known supported long
    rcases engine.stepKnown_cases nesting offset length
      (engine.dispatched nesting offset machine) opcode with
      ⟨hasleep, -, -⟩ | ⟨-, ⟨cause, -, hk⟩ | ⟨instruction, hd, -⟩⟩
    · cases he.symm.trans hasleep
    · rw [hstep, hk]
      refine ⟨rfl, rfl, Unit, .done (), rfl, fun _ _ => rfl, ?_⟩
      intro instruction hd
      cases error.symm.trans hd
    · cases error.symm.trans hd
  | @executed instruction _ cause decoded supported long error =>
    obtain rfl := Except.ok.inj (long.symm.trans (Instruction.decode_opcode decoded).2)
    obtain ⟨hfst, hscene⟩ := engine.step_executed nesting offset machine decoded supported (.inl he)
    obtain ⟨hstate, α, effect, hrun, hleaves⟩ := engine.execute_of_error nesting offset
      instruction.size (engine.entered nesting offset machine instruction) error
    rw [error] at hfst
    have hbench := congrArg Scene.bench hscene
    have hrun : effect.run engine.facade machine.bench = _ := hrun
    refine ⟨hfst, (congrArg Scene.state hscene).trans hstate, α, effect, ?_, ?_, ?_⟩
    · rw [hrun]
      exact hbench
    · intro cause hd
      cases decoded.symm.trans hd
    · intro other hd
      obtain rfl := Except.ok.inj (decoded.symm.trans hd)
      exact hleaves

/-- Behind a failed instruction comes the next one, and the state is as it was. Whatever a
simulated device holds is as it was if the calls of the instruction are idle, and they are unless
the instruction writes before it reads on in a table; then the writes stay. -/
theorem failure_is_no_op_iff (engine : Engine SimulatedDevice τ)
    (nesting : Nesting SimulatedDevice τ) (offset : Nat) (machine : Machine SimulatedDevice τ)
    {length : Nat} (hs : engine.facade = SimulatedDevice.facade)
    (he : machine.state.execute = true) (hf : engine.FailsAt nesting offset machine length) :
    let ended := engine.step nesting offset machine
    let device := machine.bench.device
    ended.1 = .ok (.advance length) ∧ ended.2.state = machine.state ∧
      ∃ calls, ended.2.bench.device.calls.toList = device.calls.toList ++ calls ∧
        ((∀ call ∈ calls, call.isIdle = true) →
          ended.2.bench.device.contents = device.contents) ∧
        ((∀ call ∈ calls, call.isIdle = true) ↔
          ∀ instruction, Instruction.decode engine.image offset = .ok instruction →
            ¬instruction.WritesFirst engine.image engine.facade device) ∧
        ∀ instruction, Instruction.decode engine.image offset = .ok instruction →
          instruction.Leaves engine.image engine.facade device calls := by
  intro ended device
  obtain ⟨hnext, hstate, α, effect, hbench, hnone, hleaves⟩ := step_of_failure he hf
  have hbench : ended.2.bench = (effect.run engine.facade machine.bench).2 := hbench
  refine ⟨hnext, hstate, effect.calls engine.facade machine.bench, ?_, ?_, ?_, hleaves⟩
  · rw [hbench, hs]
    exact SimulatedDevice.calls_run effect machine.bench
  · rw [hbench, hs]
    exact SimulatedDevice.contents_of_idle_calls effect machine.bench
  · cases hd : Instruction.decode engine.image offset with
    | error cause =>
      rw [hnone cause hd]
      exact iff_of_true nofun nofun
    | ok instruction =>
      rw [(hleaves instruction hd).idle_iff]
      constructor
      · rintro hw other ⟨⟩
        exact hw
      · exact fun hw => hw instruction rfl

/-- A message to a bus without devices. -/
theorem failure_is_no_op_iff_of_silent_bus :
    let engine : Engine SimulatedDevice Unit :=
      { image := .ofScript ⟨#[0, 0x4e, 0x02, 0xa0, 0x01, 0x55]⟩
        facade := SimulatedDevice.facade
        observer := .silent
        limits := {} }
    let machine : Machine SimulatedDevice Unit := .start .blank {} ()
    let ended := engine.step engine.outermost 1 machine
    machine.state.execute = true ∧ engine.FailsAt engine.outermost 1 machine 5 ∧
      ended.1 = .ok (.advance 5) ∧ ended.2.state = machine.state ∧
      ended.2.bench.device.contents = machine.bench.device.contents := by
  intro engine machine ended
  have hd : Instruction.decode engine.image 1 = .ok (.bus (.zmI2c ⟨0x02, 0xa0⟩ [0x55])) := rfl
  have hf : engine.FailsAt engine.outermost 1 machine 5 := .executed hd nofun rfl rfl
  obtain ⟨hnext, hstate, calls, -, hcontents, hidle, -⟩ :=
    failure_is_no_op_iff engine engine.outermost 1 machine rfl rfl hf
  refine ⟨rfl, hf, hnext, hstate, hcontents (hidle.mpr ?_)⟩
  intro instruction hi
  obtain rfl := Except.ok.inj (hd.symm.trans hi)
  exact id

/-- The second entry of a group is behind the end of the image, and the write of the first one
stays. -/
theorem failed_group_writes :
    let engine : Engine SimulatedDevice Unit :=
      { image := .withDirectory
          ⟨#[0, 0x6f, 0x00, 0x00, 0x02, 0x34, 0x12, 0x00, 0x00, 0x07, 0x00, 0x00, 0x00]⟩
          (.ofList [(.macroIndex, 3), (.macros, 5)] 0 false)
        facade := SimulatedDevice.facade
        observer := .silent
        limits := {} }
    let machine : Machine SimulatedDevice Unit := .start .blank {} ()
    let ended := engine.step engine.outermost 1 machine
    machine.state.execute = true ∧ engine.FailsAt engine.outermost 1 machine 2 ∧
      ended.1 = .ok (.advance 2) ∧ machine.bench.device.reg 0x1234 = 0 ∧
      ended.2.bench.device.reg 0x1234 = 7 := by
  intro engine machine ended
  have hd : Instruction.decode engine.image 1 = .ok (.register (.macroGroup 0)) := rfl
  have hlegacy : Opcode.macroGroup.legacyOnly = true → engine.image.isLegacy = true := by decide
  have hcause : (engine.execute engine.outermost 1 2 (.register (.macroGroup 0))
      (engine.entered engine.outermost 1 machine (.register (.macroGroup 0)))).1 =
        .error (.image (.outOfBounds 13 4 13)) := rfl
  have hf : engine.FailsAt engine.outermost 1 machine 2 := .executed hd hlegacy rfl hcause
  exact ⟨rfl, hf, (step_of_failure rfl hf).1, rfl, by decide +kernel⟩

end Engine

end RomScript
