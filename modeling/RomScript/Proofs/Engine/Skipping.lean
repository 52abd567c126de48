import RomScript.Device.Simulated
import RomScript.Proofs.Engine.Outline

/-!
# Stepping over

While the execute flag is off no step reaches the device, calls a script, or changes any
state but the flag, which only two opcodes turn on again. A run that meets neither of them
goes from instruction to instruction by their encoded lengths, ends the same way on every
device, and leaves device and state as they were.
-/

set_option autoImplicit false

namespace RomScript

def Opcode.wakes : Opcode → Bool
  | .negate | .resume => true
  | _ => false

@[simp] theorem advance?_natCast (cursor length : Nat) :
    advance? cursor (length : Int) = some (cursor + length) := by
  unfold advance?
  rw [if_pos (by omega)]
  rfl

namespace Image

section

variable (image : Image) (repeating : Bool)

def wakes (offset : Nat) : Bool := (image.opcodeAt? offset).any Opcode.wakes

/-- How far it is to the next instruction when the one at an offset is stepped over, if the
script does not end there. -/
def stride? (offset : Nat) : Option Nat :=
  match image.opcodeAt? offset with
  | none => none
  | some opcode =>
    if (opcode.legacyOnly ∧ ¬image.isLegacy) ∨ opcode = .done ∨ opcode = .endRepeat ∧ repeating
    then none
    else (opcode.encodedLength image offset).toOption

def strides : Nat → Nat → List Nat
  | 0, _ => []
  | left + 1, cursor => cursor ::
    match image.stride? repeating cursor with
    | none => []
    | some length => strides left (cursor + length)

/-- Stepping over from a start on, a run ends before the execute flag is turned on. -/
def Dormant (maxOps start : Nat) : Prop :=
  start ≠ 0 → ∀ met ∈ image.strides repeating maxOps start, image.wakes met = false

instance (maxOps start : Nat) : Decidable (image.Dormant repeating maxOps start) :=
  inferInstanceAs (Decidable (start ≠ 0 → _))

end

variable {image : Image} {repeating : Bool} {offset : Nat}

theorem follow_false (image : Image) (repeating : Bool) (offset length : Nat) (opcode : Opcode) :
    image.follow offset length repeating false opcode =
      if opcode = .done ∨ opcode = .endRepeat ∧ repeating then .stop else .advance length := by
  cases opcode <;> simp [follow]

theorem opcodeAt?_of_outline {execute : Bool} {distance : Int}
    (h : image.outline offset repeating execute = .ok (.advance distance)) :
    ∃ opcode, image.opcodeAt? offset = some opcode := by
  unfold outline at h
  cases hb : image.byte offset with
  | error cause => simp [hb] at h
  | ok id =>
    cases ho : Opcode.ofByte? id with
    | none => simp [hb, ho] at h
    | some opcode => exact ⟨opcode, (opcodeAt?_of_byte hb).trans ho⟩

theorem stride?_of_outline {distance : Int}
    (h : image.outline offset repeating false = .ok (.advance distance)) :
    ∃ length : Nat, image.stride? repeating offset = some length ∧ distance = length := by
  obtain ⟨opcode, ho⟩ := opcodeAt?_of_outline h
  rw [outline_of_opcodeAt? ho] at h
  simp only [stride?, ho]
  by_cases hl : opcode.legacyOnly ∧ ¬image.isLegacy
  · rw [if_pos hl] at h
    cases h
  · rw [if_neg hl] at h
    cases he : opcode.encodedLength image offset with
    | error cause =>
      rw [he] at h
      cases h
    | ok length =>
      rw [he] at h
      have hf := Except.ok.inj h
      rw [follow_false] at hf
      by_cases hs : opcode = .done ∨ opcode = .endRepeat ∧ repeating
      · rw [if_pos hs] at hf
        cases hf
      · rw [if_neg hs] at hf
        rw [if_neg (not_or.mpr ⟨hl, hs⟩)]
        exact ⟨length, rfl, (Step.advance.inj hf).symm⟩

end Image

def Machine.withBench {δ δ' τ : Type} (machine : Machine δ τ) (bench : Bench δ') : Machine δ' τ :=
  { bench, state := machine.state, notes := machine.notes }

namespace Engine

variable {δ δ' τ : Type}

structure Alike (engine : Engine δ τ) (other : Engine δ' τ) : Prop where
  image : other.image = engine.image
  observer : other.observer = engine.observer
  limits : other.limits = engine.limits

variable (engine : Engine δ τ) (nesting : Nesting δ τ) (offset length : Nat)
  (machine : Machine δ τ)

theorem decode_of_runsWhileSkipping {opcode : Opcode}
    (ho : engine.image.opcodeAt? offset = some opcode) (hr : opcode.runsWhileSkipping = true) :
    ∃ op : Control, Instruction.decode engine.image offset = .ok (.control op) ∧
      op.opcode = opcode := by
  have hd (op : Control) (hi : ({ image := engine.image, base := offset } :
      OperandReader).instruction opcode = .ok (.control op)) :
      Instruction.decode engine.image offset = .ok (.control op) :=
    (Instruction.decode_eq_ok_iff _ _ _).mpr ⟨opcode, ho, hi⟩
  cases opcode with
  | negate => exact ⟨.negate, hd _ rfl, rfl⟩
  | resume => exact ⟨.resume, hd _ rfl, rfl⟩
  | endRepeat => exact ⟨.endRepeat, hd _ rfl, rfl⟩
  | done => exact ⟨.done, hd _ rfl, rfl⟩
  | _ => cases hr

theorem control_state_asleep {op : Control} (hr : op.opcode.runsWhileSkipping = true)
    (h : machine.state.execute = false) :
    (engine.control nesting offset length op machine).2.state =
      { machine.state with execute := op.opcode.wakes } := by
  obtain ⟨bench, ⟨execute, repeating, output⟩, notes⟩ := machine
  obtain rfl : execute = false := h
  -- negating the flag turns it on because it is off
  cases op with
  | negate => rfl
  | resume => rfl
  | endRepeat => rfl
  | done => rfl
  | reserved which => cases which <;> cases hr
  | _ => cases hr

theorem runInstruction_state (opcode : Opcode) (instruction : Instruction) :
    (engine.runInstruction nesting offset length opcode instruction machine).2.state =
      (engine.execute nesting offset length instruction
        (engine.note nesting.depth (.instruction offset instruction) machine).2).2.state :=
  (engine.announce_frame nesting offset _ opcode _ _).2

theorem stepKnown_state_asleep {opcode : Opcode} (ho : engine.image.opcodeAt? offset = some opcode)
    (h : machine.state.execute = false) :
    (engine.stepKnown nesting offset length opcode machine).2.state =
      { machine.state with execute := opcode.wakes } := by
  rcases engine.stepKnown_cases nesting offset length machine opcode with
    ⟨-, hr, hs⟩ | ⟨he, hs⟩
  · have hw : opcode.wakes = machine.state.execute := by
      rw [h]
      cases opcode <;> first | rfl | cases hr
    rw [hs, hw]
    rfl
  · have hr : opcode.runsWhileSkipping = true := by simpa [h] using he
    obtain ⟨op, hd, rfl⟩ := engine.decode_of_runsWhileSkipping offset ho hr
    rcases hs with ⟨cause, he, -⟩ | ⟨instruction, hi, hs⟩
    · cases he.symm.trans hd
    · obtain rfl := Except.ok.inj (hi.symm.trans hd)
      rw [hs, runInstruction_state]
      exact engine.control_state_asleep nesting offset length _ hr h

theorem step_state_asleep (h : machine.state.execute = false) :
    (engine.step nesting offset machine).2.state =
      { machine.state with execute := engine.image.wakes offset } := by
  have hstay (hw : engine.image.wakes offset = false) :
      { machine.state with execute := engine.image.wakes offset } = machine.state := by
    rw [hw, ← h]
  rcases engine.step_cases nesting offset machine with ⟨hb, hs⟩ | ⟨id, hb, ho, hs⟩ |
    ⟨opcode, ho, ⟨hl, hs⟩ | ⟨hl, ⟨cause, he, hs⟩ | ⟨length, next, after, he, hk, hs⟩⟩⟩
  · rw [hs, hstay (by rw [Image.wakes, Image.opcodeAt?_of_le hb]; rfl)]
    rfl
  · rw [hs, hstay (by rw [Image.wakes, Image.opcodeAt?_of_byte hb, ho]; rfl)]
    rfl
  · have hw : opcode.wakes = false := by
      cases opcode <;> first | rfl | cases hl.1
    rw [hs, hstay (by rw [Image.wakes, ho]; exact hw)]
    rfl
  · have hw : opcode.wakes = false := by
      cases opcode <;> first | rfl | cases he
    rw [hs, hstay (by rw [Image.wakes, ho]; exact hw)]
    rfl
  · have hst := engine.stepKnown_state_asleep nesting offset length
      (engine.dispatched nesting offset machine) ho h
    rw [hk] at hst
    rw [hs, Image.wakes, ho]
    exact hst

section Benches

variable {engine nesting} {other : Engine δ' τ} {nesting' : Nesting δ' τ} (bench : Bench δ')

theorem note_withBench {depth depth' : Nat} (ha : engine.Alike other) (hd : depth' = depth)
    (event : Event) : other.note depth' event (machine.withBench bench) =
      ((), (engine.note depth event machine).2.withBench bench) := by
  simp only [note_apply, ha.observer, hd]
  rfl

theorem control_withBench {op : Control} (hr : op.opcode.runsWhileSkipping = true) :
    other.control nesting' offset length op (machine.withBench bench) =
      ((engine.control nesting offset length op machine).1,
        (engine.control nesting offset length op machine).2.withBench bench) := by
  cases op with
  | negate => rfl
  | resume => rfl
  | endRepeat => rfl
  | done => rfl
  | reserved which => cases which <;> cases hr
  | _ => cases hr

variable (ha : engine.Alike other) (hd : nesting'.depth = nesting.depth)

include ha hd

theorem announce_withBench (opcode : Opcode) (before : Bool)
    (result : Except InstructionError Step) :
    other.announce nesting' offset opcode before result (machine.withBench bench) =
      ((), (engine.announce nesting offset opcode before result machine).2.withBench bench) := by
  have hs (noted : Machine δ τ) :
      (if noted.state.execute != before || opcode.isCondition then
        other.note nesting'.depth (.execute noted.state.execute) else pure ())
          (noted.withBench bench) =
      ((), ((if noted.state.execute != before || opcode.isCondition then
        engine.note nesting.depth (.execute noted.state.execute) else pure ()) noted).2.withBench
          bench) := by
    by_cases h : noted.state.execute != before || opcode.isCondition
    · rw [if_pos h, if_pos h]
      exact note_withBench noted bench ha hd _
    · rw [if_neg h, if_neg h]
      rfl
  cases result with
  | ok next => exact hs machine
  | error cause =>
    have hn := note_withBench machine bench ha hd (.failure offset opcode cause)
    simp only [announce, MachineM.bind_apply, hn]
    exact hs _

theorem runInstruction_withBench {op : Control} (hr : op.opcode.runsWhileSkipping = true) :
    other.runInstruction nesting' offset length op.opcode (.control op) (machine.withBench bench) =
      ((engine.runInstruction nesting offset length op.opcode (.control op) machine).1,
        (engine.runInstruction nesting offset length op.opcode (.control op) machine).2.withBench
          bench) := by
  have hc (noted : Machine δ τ) :
      other.control nesting' offset length op (noted.withBench bench) =
        ((engine.control nesting offset length op noted).1,
          (engine.control nesting offset length op noted).2.withBench bench) :=
    control_withBench offset length noted bench hr
  simp only [runInstruction, execute, MachineM.bind_apply, MachineM.pure_apply,
    MachineM.state_apply, note_withBench _ bench ha hd, hc, announce_withBench offset _ bench ha hd]
  rfl

theorem stepKnown_withBench {opcode : Opcode} (ho : engine.image.opcodeAt? offset = some opcode)
    (h : machine.state.execute = false) :
    other.stepKnown nesting' offset length opcode (machine.withBench bench) =
      ((engine.stepKnown nesting offset length opcode machine).1,
        (engine.stepKnown nesting offset length opcode machine).2.withBench bench) := by
  have he : (machine.withBench bench).state.execute = false := h
  simp only [stepKnown, MachineM.bind_apply, MachineM.state_apply, he, h, ha.image]
  cases hr : opcode.runsWhileSkipping with
  | false =>
    have hn := note_withBench machine bench ha hd (.skip offset opcode)
    simp only [Bool.not_false, Bool.and_self, if_true, MachineM.bind_apply, MachineM.pure_apply, hn]
  | true =>
    obtain ⟨op, hop, rfl⟩ := engine.decode_of_runsWhileSkipping offset ho hr
    simp only [hop]
    exact runInstruction_withBench offset length machine bench ha hd hr

theorem step_withBench (h : machine.state.execute = false) :
    other.step nesting' offset (machine.withBench bench) =
      ((engine.step nesting offset machine).1,
        (engine.step nesting offset machine).2.withBench bench) := by
  simp only [step, MachineM.bind_apply, note_withBench _ bench ha hd, ha.image]
  cases hb : engine.image.byte offset with
  | error cause => rfl
  | ok id =>
    cases hid : Opcode.ofByte? id with
    | none =>
      simp only [hid, MachineM.bind_apply, note_withBench _ bench ha hd]
      rfl
    | some opcode =>
      simp only [hid]
      by_cases hl : opcode.legacyOnly && !engine.image.isLegacy
      · simp only [if_pos hl, MachineM.bind_apply, note_withBench _ bench ha hd]
        rfl
      · simp only [if_neg hl]
        cases opcode.encodedLength engine.image offset with
        | error cause => rfl
        | ok length =>
          have hk := stepKnown_withBench offset length
            (engine.note nesting.depth (.dispatch offset) machine).2 bench ha hd
            ((Image.opcodeAt?_of_byte hb).trans hid) h
          simp only [MachineM.bind_apply, hk]
          rfl

theorem walk_past_withBench {start left cursor : Nat} (hle : engine.image.length ≤ cursor) :
    other.walk nesting' start left cursor (machine.withBench bench) =
      ((engine.walk nesting start left cursor machine).1,
        (engine.walk nesting start left cursor machine).2.withBench bench) := by
  rw [walk_of_le engine nesting machine start left cursor hle,
    walk_of_le other nesting' _ start left cursor (ha.image ▸ hle), ha.limits,
    note_withBench machine bench ha hd]

theorem walk_asleep (start left cursor : Nat) (h : machine.state.execute = false)
    (hw : ∀ met ∈ engine.image.strides machine.state.repeating left cursor,
      engine.image.wakes met = false) :
    other.walk nesting' start left cursor (machine.withBench bench) =
        ((engine.walk nesting start left cursor machine).1,
          (engine.walk nesting start left cursor machine).2.withBench bench) ∧
      (engine.walk nesting start left cursor machine).2.state = machine.state := by
  -- the state behind a step is the one before it, so the strides from there on are the rest
  induction left generalizing cursor machine with
  | zero =>
    rcases Nat.lt_or_ge cursor engine.image.length with hlt | hle
    · rw [walk_zero engine nesting machine start cursor hlt,
        walk_zero other nesting' _ start cursor (ha.image ▸ hlt), ha.limits,
        note_withBench machine bench ha hd]
      exact ⟨rfl, rfl⟩
    · refine ⟨walk_past_withBench machine bench ha hd hle, ?_⟩
      rw [walk_of_le engine nesting machine start 0 cursor hle]
      rfl
  | succ left ih =>
    rcases Nat.lt_or_ge cursor engine.image.length with hlt | hle
    · have hw' : engine.image.wakes cursor = false := hw cursor List.mem_cons_self
      have hs : (engine.step nesting cursor machine).2.state = machine.state := by
        rw [engine.step_state_asleep nesting cursor machine h, hw', ← h]
      rw [walk_succ engine nesting start left cursor hlt,
        walk_succ other nesting' start left cursor (ha.image ▸ hlt), MachineM.bind_apply,
        MachineM.bind_apply, step_withBench cursor machine bench ha hd h, step_fst, h, ha.limits]
      generalize (engine.step nesting cursor machine).2 = after at hs ⊢
      cases ho : engine.image.outline cursor machine.state.repeating false with
      | error cause => exact ⟨rfl, hs⟩
      | ok next =>
        cases next with
        | stop => exact ⟨rfl, hs⟩
        | truncated =>
          simp only [proceed, MachineM.bind_apply, note_withBench after bench ha hd]
          exact ⟨rfl, hs⟩
        | advance distance =>
          obtain ⟨length, hl, rfl⟩ := Image.stride?_of_outline ho
          have hn : ∀ met ∈ engine.image.strides after.state.repeating left (cursor + length),
              engine.image.wakes met = false := by
            intro met hm
            refine hw met (List.mem_cons_of_mem cursor ?_)
            rw [hl]
            exact hs ▸ hm
          obtain ⟨hb, hst⟩ := ih after (cursor + length) (hs ▸ h) hn
          simp only [proceed, advance?_natCast]
          exact ⟨hb, hst.trans hs⟩
    · refine ⟨walk_past_withBench machine bench ha hd hle, ?_⟩
      rw [walk_of_le engine nesting machine start (left + 1) cursor hle]
      rfl

theorem runAt_asleep (start : Nat) (h : machine.state.execute = false)
    (hw : engine.image.Dormant machine.state.repeating engine.limits.maxOps start) :
    other.runAt nesting' start (machine.withBench bench) =
        ((engine.runAt nesting start machine).1,
          (engine.runAt nesting start machine).2.withBench bench) ∧
      (engine.runAt nesting start machine).2.state = machine.state := by
  unfold runAt
  by_cases h0 : start = 0
  · rw [if_pos h0, if_pos h0]
    exact ⟨rfl, rfl⟩
  · rw [if_neg h0, if_neg h0, ha.limits]
    exact walk_asleep machine bench ha hd start _ start h (hw h0)

omit hd in
theorem runScript_asleep (start : Nat) (h : machine.state.execute = false)
    (hw : engine.image.Dormant machine.state.repeating engine.limits.maxOps start) :
    other.runScript start (machine.withBench bench) =
        ((engine.runScript start machine).1,
          (engine.runScript start machine).2.withBench { bench with column := none }) ∧
      (engine.runScript start machine).2.state = machine.state := by
  have hd : other.outermost.depth = engine.outermost.depth := by
    rw [depth_outermost, depth_outermost]
  have hb : other.begun (machine.withBench bench) start =
      (engine.begun machine start).withBench { bench with column := none } := by
    simp only [begun, note_apply, ha.observer]
    rfl
  rw [runScript_apply, runScript_apply, hb]
  exact runAt_asleep (engine.begun machine start) _ ha hd start h hw

end Benches

/-- A step that begins with the execute flag off does nothing but step over, on whatever device
and at whatever depth; only two opcodes turn the flag on. So does a whole run that meets
neither of them on its way. -/
theorem skipping_pure (h : machine.state.execute = false) :
    (let ended := engine.step nesting offset machine
     ended.2.bench = machine.bench ∧
     ended.2.state = { machine.state with execute := engine.image.wakes offset } ∧
     ∀ {δ' : Type} (other : Engine δ' τ) (nesting' : Nesting δ' τ) (bench : Bench δ'),
       engine.Alike other → nesting'.depth = nesting.depth →
       other.step nesting' offset (machine.withBench bench) =
         (ended.1, ended.2.withBench bench)) ∧
    ∀ start, engine.image.Dormant machine.state.repeating engine.limits.maxOps start →
      (let ended := engine.runAt nesting start machine
       ended.2.bench = machine.bench ∧
       ended.2.state = machine.state ∧
       ∀ {δ' : Type} (other : Engine δ' τ) (nesting' : Nesting δ' τ) (bench : Bench δ'),
         engine.Alike other → nesting'.depth = nesting.depth →
         other.runAt nesting' start (machine.withBench bench) =
           (ended.1, ended.2.withBench bench)) ∧
      (let ended := engine.runScript start machine
       ended.2.bench = { machine.bench with column := none } ∧
       ended.2.state = machine.state ∧
       ∀ {δ' : Type} (other : Engine δ' τ) (bench : Bench δ'), engine.Alike other →
         other.runScript start (machine.withBench bench) =
           (ended.1, ended.2.withBench { bench with column := none })) := by
  have halike : engine.Alike engine := ⟨rfl, rfl, rfl⟩
  -- on its own bench, a step or run is said to put the bench back
  have hstep : (engine.step nesting offset machine).2.bench = machine.bench :=
    congrArg (fun ended => ended.2.bench)
      (step_withBench offset machine machine.bench halike (Eq.refl nesting.depth) h)
  constructor
  · exact ⟨hstep, engine.step_state_asleep nesting offset machine h,
      fun other nesting' bench ha hd => step_withBench offset machine bench ha hd h⟩
  · intro start hw
    obtain ⟨hr, hrs⟩ := runAt_asleep machine machine.bench halike (Eq.refl nesting.depth) start h hw
    obtain ⟨ho, hos⟩ := runScript_asleep machine machine.bench halike start h hw
    have hrun : (engine.runAt nesting start machine).2.bench = machine.bench :=
      congrArg (fun ended => ended.2.bench) hr
    have hscript : (engine.runScript start machine).2.bench =
        { machine.bench with column := none } :=
      congrArg (fun ended => ended.2.bench) ho
    constructor
    · exact ⟨hrun, hrs,
        fun other nesting' bench ha hd => (runAt_asleep machine bench ha hd start h hw).1⟩
    · exact ⟨hscript, hos, fun other bench ha => (runScript_asleep machine bench ha start h hw).1⟩

/-- Stepping over a jump to itself and a condition leads to the end of the script. -/
theorem skipping_pure_of_jump :
    let engine : Engine SimulatedDevice Unit :=
      { image := .ofScript ⟨#[0, 0x5c, 0x01, 0x00, 0x75, 0x03, 0x71]⟩
        facade := SimulatedDevice.facade
        observer := .silent
        limits := {} }
    let machine : Machine SimulatedDevice Unit :=
      { bench := { device := .blank, column := none }, state := { execute := false }, notes := () }
    machine.state.execute = false ∧
      engine.image.Dormant machine.state.repeating engine.limits.maxOps 1 ∧
      (engine.runScript 1 machine).2.bench = { machine.bench with column := none } ∧
      (engine.runScript 1 machine).2.state = machine.state := by
  intro engine machine
  have hd : engine.image.Dormant machine.state.repeating engine.limits.maxOps 1 := by decide
  obtain ⟨hb, hs, -⟩ := ((skipping_pure engine engine.outermost 1 machine rfl).2 1 hd).2
  exact ⟨rfl, hd, hb, hs⟩

end Engine

end RomScript
