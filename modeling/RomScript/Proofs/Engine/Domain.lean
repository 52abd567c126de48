import Mathlib.Algebra.Group.Int.Defs
import Mathlib.Algebra.Group.Nat.Defs
import RomScript.Proofs.Effect.Domain
import RomScript.Proofs.Engine.Endings

/-!
# Runs on fixed-width numbers

The numbers of a run are machine numbers as well. Its instructions and the runs under way are
counted with thirty-two bits, offsets are addresses, and a distance is cast to thirty-two bits
on its way to the cursor. Here a run is written once more with these tests and casts, and a
failed test is again a fault that may do anything. On an image whose offsets are positive as
signed numbers, with limits of thirty-two bits, it is the run as it was: lengths are small, the
limits are reached before the counters overflow, and a jump lands on its target.
-/

set_option autoImplicit false

namespace RomScript

/-! ## Distances -/

def signed32 (number : Int) : Int := number.bmod (2 ^ 32)

def signed64 (number : Int) : Int := number.bmod (2 ^ 64)

theorem signed32_of_fits {number : Int} (hlow : -2 ^ 31 ≤ number) (hhigh : number < 2 ^ 31) :
    signed32 number = number :=
  Int.bmod_eq_of_le (by omega) (by omega)

theorem signed64_natCast {number : Nat} (h : number < 2 ^ 63) : signed64 number = number :=
  Int.bmod_eq_of_le (by omega) (by omega)

/-- The cursor behind a step by a distance of thirty-two bits, if it is an address. -/
def landing? (cursor : Nat) (distance : Int) : Option Nat :=
  let target := (cursor : Int) + signed32 distance
  if 0 ≤ target ∧ target < 2 ^ 64 then some target.toNat else none

structure Lands (cursor : Nat) (distance : Int) : Prop where
  low : -2 ^ 31 ≤ distance
  high : distance < 2 ^ 31
  inside : 0 ≤ cursor + distance
  address : cursor + distance < 2 ^ 64

namespace Lands

variable {cursor : Nat} {distance : Int} (h : Lands cursor distance)

include h

theorem advance?_eq : advance? cursor distance = some (cursor + distance).toNat := by
  rw [advance?, if_pos h.inside]

theorem landing?_eq : landing? cursor distance = some (cursor + distance).toNat := by
  rw [landing?, signed32_of_fits h.low h.high, if_pos ⟨h.inside, h.address⟩]

end Lands

theorem lands_target {offset : Nat} {target : UInt16}
    (h : -0x80000000 ≤ (target.toNat - offset : Int) ∧
      (target.toNat - offset : Int) < 0x80000000) :
    Lands offset (target.toNat - offset) := by
  have htarget := target.toNat_lt
  obtain ⟨hlow, hhigh⟩ := h
  constructor <;> omega

/-! ## Lengths -/

def TailCount.most : TailCount → Nat
  | .operand _ | .groups => 255
  | .operandTimesGroups _ => 255 * 255

theorem Image.ramGroups_le (image : Image) : image.ramGroups ≤ 255 :=
  Nat.le_of_lt_succ image.directory.ramGroups.toNat_lt

namespace Opcode

/-- The greatest length of an instruction: a register group with 255 rows of 255 columns. -/
def maxLength : Nat := 7 + 4 * 255 * 255

theorem tailCount_le_most {image : Image} {offset count : Nat} {kind : TailCount}
    (h : tailCount image offset kind = .ok count) : count ≤ kind.most := by
  have hoperand (n : UInt8) : n.toNat ≤ 255 := Nat.le_of_lt_succ n.toNat_lt
  cases kind with
  | operand distance =>
    obtain ⟨n, -, rfl⟩ := map_eq_ok_iff.mp h
    exact hoperand n
  | groups =>
    cases h
    exact image.ramGroups_le
  | operandTimesGroups distance =>
    obtain ⟨n, -, rfl⟩ := map_eq_ok_iff.mp h
    exact Nat.mul_le_mul (hoperand n) image.ramGroups_le

theorem one_le_fixedSize (opcode : Opcode) : 1 ≤ opcode.fixedSize := by
  cases opcode with
  | reserved which => cases which <;> decide
  | _ => decide

theorem longest_le (opcode : Opcode) :
    opcode.fixedSize + (opcode.tail.map fun tail => tail.count.most * tail.elementSize).getD 0 ≤
      maxLength := by
  cases opcode with
  | reserved which => cases which <;> decide
  | _ => decide

variable {opcode : Opcode} {image : Image} {offset length : Nat}

theorem encodedLength_bounds (h : opcode.encodedLength image offset = .ok length) :
    1 ≤ length ∧ length ≤ maxLength := by
  have hone := opcode.one_le_fixedSize
  have hlongest := opcode.longest_le
  unfold encodedLength at h
  cases ht : opcode.tail with
  | none =>
    simp only [ht, Except.ok.injEq] at h
    simp only [ht, Option.map_none, Option.getD_none] at hlongest
    omega
  | some tail =>
    simp only [ht] at h
    simp only [ht, Option.map_some, Option.getD_some] at hlongest
    obtain ⟨count, hcount, rfl⟩ := map_eq_ok_iff.mp h
    have hmost := Nat.mul_le_mul_right tail.elementSize (tailCount_le_most hcount)
    omega

theorem signed32_encodedLength (h : opcode.encodedLength image offset = .ok length) :
    signed32 length = length := by
  have hle := (encodedLength_bounds h).2
  unfold maxLength at hle
  exact signed32_of_fits (by omega) (by omega)

end Opcode

/-! ## Steps -/

namespace Image

variable {image : Image} {repeating execute : Bool} {offset : Nat} {distance : Int}

theorem distance_of_follow {opcode : Opcode} {length : Nat}
    (h : image.follow offset length repeating execute opcode = .advance distance) :
    distance = length ∨ image.jumpAt? offset = some distance := by
  cases opcode with
  | done => cases h
  | endRepeat =>
    cases repeating with
    | true => cases h
    | false =>
      cases h
      exact .inl rfl
  | jump =>
    cases execute with
    | false =>
      cases h
      exact .inl rfl
    | true =>
      cases hj : image.jumpAt? offset with
      | none =>
        simp only [follow, hj, if_true, Option.getD_none, Step.advance.injEq] at h
        exact .inl h.symm
      | some target =>
        simp only [follow, hj, if_true, Option.getD_some, Step.advance.injEq] at h
        exact .inr (congrArg some h)
  | _ =>
    cases h
    exact .inl rfl

theorem lands_of_jumpAt? (h : image.jumpAt? offset = some distance) : Lands offset distance := by
  unfold jumpAt? at h
  cases hw : image.word (offset + 1) with
  | error cause => simp [hw] at h
  | ok target =>
    simp only [hw] at h
    split at h
    · rename_i hfits
      cases h
      exact lands_target hfits
    · cases h

theorem lands_natCast {length : Nat} (hoffset : offset < 2 ^ 63) (h : length ≤ Opcode.maxLength) :
    Lands offset length := by
  unfold Opcode.maxLength at h
  constructor <;> omega

theorem lands_of_outline (hoffset : offset < 2 ^ 63)
    (h : image.outline offset repeating execute = .ok (.advance distance)) :
    Lands offset distance := by
  unfold outline at h
  split at h
  · cases h
  · split at h
    · cases h
    · split at h
      · cases h
      · split at h
        · cases h
        · rename_i length hlength
          rcases distance_of_follow (Except.ok.inj h) with rfl | hj
          · exact lands_natCast hoffset (Opcode.encodedLength_bounds hlength).2
          · exact lands_of_jumpAt? hj

end Image

/-! ## Runs with tests -/

/-- What stands for an operation outside its domain. It may do anything. -/
structure Fault (δ τ : Type) where
  effect : Effect Unit
  call : MachineM δ τ (Except InstructionError Unit)
  outcome : MachineM δ τ Outcome

namespace Engine

open MachineM

def checkedJump (offset : Nat) (target : UInt16) : Except InstructionError Int :=
  let distance : Int := target.toNat - signed64 offset
  if -0x80000000 ≤ distance ∧ distance < 0x80000000 then .ok distance
  else .error (.outOfRange .jumpTarget target.toNat offset)

variable {δ τ : Type} (engine : Engine δ τ) (fault : Fault δ τ)

section Step

variable (nesting : Nesting δ τ)

def checkedCall (target : Nat) : MachineM δ τ (Except InstructionError Unit) :=
  match nesting.inner with
  | none => engine.call nesting target
  | some _ => if nesting.depth + 1 < 2 ^ 32 then engine.call nesting target else fault.call

def checkedCallTimes (target : Nat) : Nat → MachineM δ τ (Except InstructionError Unit)
  | 0 => return .ok ()
  | times + 1 => do
    match ← if target < 2 ^ 64 then engine.checkedCall fault nesting target else fault.call with
    | .error cause => return .error cause
    | .ok () => checkedCallTimes target times

def checkedControl (offset length : Nat) :
    Control → MachineM δ τ (Except InstructionError Step)
  | .repeatBlock count => do
    let result ← whileRepeating
      (engine.checkedCallTimes fault nesting (offset + length) (count.toNat - 1))
    return result.map fun _ => .advance length
  | .jump target => return (checkedJump offset target).map .advance
  | .sub index =>
    match engine.image.scriptPointer index with
    | .error cause => return .error (.image cause)
    | .ok target => do
      let result ← engine.checkedCall fault nesting target.toNat
      return result.map fun _ => .advance length
  | .subDirect target => do
    let result ← engine.checkedCall fault nesting target.toNat
    return result.map fun _ => .advance length
  | op => engine.control nesting offset length op

def checkedExecute (offset length : Nat) :
    Instruction → MachineM δ τ (Except InstructionError Step)
  | .control op => engine.checkedControl fault nesting offset length op
  | .register op => do
    let result ← engine.perform (op.checked engine.image fault.effect)
    return result.map fun _ => .advance length
  | .clock op => do
    let result ← engine.perform (op.checked engine.image fault.effect)
    return result.map fun _ => .advance length
  | .board op => do
    let result ← engine.perform (op.checked engine.image fault.effect)
    return result.map fun _ => .advance length
  | op => engine.execute nesting offset length op

def checkedInstruction (offset length : Nat) (opcode : Opcode) (instruction : Instruction) :
    MachineM δ τ Step := do
  engine.note nesting.depth (.instruction offset instruction)
  let before ← MachineM.state
  let result ← engine.checkedExecute fault nesting offset length instruction
  engine.announce nesting offset opcode before.execute result
  return settle length result

def checkedKnown (offset length : Nat) (opcode : Opcode) : MachineM δ τ Step := do
  let state ← MachineM.state
  if !state.execute && !opcode.runsWhileSkipping then
    engine.note nesting.depth (.skip offset opcode)
    return .advance length
  else
    match Instruction.decode engine.image offset with
    | .error cause =>
      engine.note nesting.depth (.failure offset opcode (.decode cause))
      return .advance length
    | .ok instruction => engine.checkedInstruction fault nesting offset length opcode instruction

def checkedStep (offset : Nat) : MachineM δ τ (Except UnknownOpcode Step) := do
  engine.note nesting.depth (.dispatch offset)
  match engine.image.byte offset with
  | .error _ => return .ok .truncated
  | .ok id =>
    match Opcode.ofByte? id with
    | none =>
      engine.note nesting.depth (.unknownOpcode { offset, id })
      return .error { offset, id }
    | some opcode =>
      if opcode.legacyOnly && !engine.image.isLegacy then
        engine.note nesting.depth (.needsLegacy offset opcode)
        return .ok .stop
      else
        match opcode.encodedLength engine.image offset with
        | .error _ => return .ok .truncated
        | .ok length => return .ok (← engine.checkedKnown fault nesting offset length opcode)

/-- What a run does behind a step. The instructions are counted with thirty-two bits, the cursor
is an address, and it is a fault to leave the image backwards. -/
def checkedProceed (start cursor ops : Nat) (go : Nat → MachineM δ τ Outcome) :
    Except UnknownOpcode Step → MachineM δ τ Outcome
  | .error cause => return .error cause
  | .ok step =>
    if ops < 2 ^ 32 then
      match step with
      | .advance distance =>
        match landing? cursor distance with
        | some next => go next
        | none => fault.outcome
      | .stop =>
        if cursor + 1 < 2 ^ 64 then
          return .ok { start, cursor := cursor + 1, ops, exit := .done }
        else fault.outcome
      | .truncated => do
        engine.note nesting.depth (.truncated cursor)
        return .ok { start, cursor, ops, exit := .truncated }
    else fault.outcome

def checkedWalk (start : Nat) : Nat → Nat → MachineM δ τ Outcome
  | left, cursor => do
    let ops := engine.limits.maxOps - left
    if engine.image.length ≤ cursor then
      engine.note nesting.depth (.pastEnd start cursor)
      return .ok { start, cursor, ops, exit := .truncated }
    else
      match left with
      | 0 =>
        engine.note nesting.depth (.runaway start ops cursor)
        return .ok { start, cursor, ops, exit := .runaway }
      | left + 1 => do
        let step ← engine.checkedStep fault nesting cursor
        engine.checkedProceed fault nesting start cursor (ops + 1) (checkedWalk start left) step

def checkedRunAt (start : Nat) : MachineM δ τ Outcome :=
  if start = 0 then return .ok { start, cursor := 0, ops := 0, exit := .noScript }
  else engine.checkedWalk fault nesting start engine.limits.maxOps start

end Step

def checkedNesting : Nat → Nesting δ τ
  | 0 => { depth := engine.limits.maxDepth, inner := none }
  | room + 1 =>
    { depth := engine.limits.maxDepth - (room + 1),
      inner := some fun target => engine.checkedRunAt fault (checkedNesting room) target }

def checkedRunScript (start : Nat) : MachineM δ τ Outcome := do
  clearColumn
  engine.note 0 (.script start)
  engine.checkedRunAt fault (engine.checkedNesting fault engine.limits.maxDepth) start

/-! ## Nothing faults -/

theorem checkedJump_eq {offset : Nat} (hoffset : offset < 2 ^ 63) (target : UInt16) :
    checkedJump offset target = jumpDistance offset target := by
  rw [checkedJump, signed64_natCast hoffset]
  rfl

theorem landing?_of_checkedJump {offset : Nat} (hoffset : offset < 2 ^ 63) {target : UInt16}
    {distance : Int} (h : checkedJump offset target = .ok distance) :
    landing? offset distance = some target.toNat := by
  rw [checkedJump, signed64_natCast hoffset] at h
  split at h
  · rename_i hfits
    cases h
    have htarget : (offset : Int) + (target.toNat - offset) = target.toNat := by omega
    rw [(lands_target hfits).landing?_eq, htarget, Int.toNat_natCast]
  · cases h

section Instruction

variable {nesting : Nesting δ τ} (hdepth : nesting.inner.isSome → nesting.depth + 1 < 2 ^ 32)
variable {offset length : Nat}

include hdepth

theorem checkedCall_eq (target : Nat) :
    engine.checkedCall fault nesting target = engine.call nesting target := by
  unfold checkedCall
  split
  · rfl
  · rename_i hinner
    exact if_pos (hdepth (by rw [hinner]; rfl))

theorem checkedCallTimes_eq {target : Nat} (htarget : target < 2 ^ 64) (times : Nat) :
    engine.checkedCallTimes fault nesting target times = engine.callTimes nesting target times := by
  induction times with
  | zero => rfl
  | succ times ih =>
    rw [checkedCallTimes, callTimes, if_pos htarget, checkedCall_eq engine fault hdepth]
    refine bind_congr fun result => ?_
    cases result with
    | error cause => rfl
    | ok _ => exact ih

variable (hoffset : offset < 2 ^ 63) (hlength : length ≤ Opcode.maxLength)

include hoffset hlength

theorem checkedControl_eq (op : Control) :
    engine.checkedControl fault nesting offset length op =
      engine.control nesting offset length op := by
  have htarget : offset + length < 2 ^ 64 := by
    unfold Opcode.maxLength at hlength
    omega
  cases op with
  | repeatBlock count =>
    rw [checkedControl, control, checkedCallTimes_eq engine fault hdepth htarget]
  | jump target => rw [checkedControl, control, checkedJump_eq hoffset]
  | sub index =>
    cases hp : engine.image.scriptPointer index with
    | error cause => simp only [checkedControl, control, hp]
    | ok target => simp only [checkedControl, control, hp, checkedCall_eq engine fault hdepth]
  | subDirect target => rw [checkedControl, control, checkedCall_eq engine fault hdepth]
  | _ => rfl

theorem checkedExecute_eq (instruction : Instruction) :
    engine.checkedExecute fault nesting offset length instruction =
      engine.execute nesting offset length instruction := by
  cases instruction with
  | control op => exact checkedControl_eq engine fault hdepth hoffset hlength op
  | register op => rw [checkedExecute, execute, RegisterOp.checked_eq]
  | clock op => rw [checkedExecute, execute, ClockOp.checked_eq]
  | board op => rw [checkedExecute, execute, BoardOp.checked_eq]
  | _ => rfl

theorem checkedKnown_eq (opcode : Opcode) :
    engine.checkedKnown fault nesting offset length opcode =
      engine.stepKnown nesting offset length opcode := by
  have hexecute := checkedExecute_eq engine fault hdepth hoffset hlength
  cases hd : Instruction.decode engine.image offset with
  | error cause => simp only [checkedKnown, stepKnown, hd]
  | ok instruction =>
    simp only [checkedKnown, stepKnown, hd, checkedInstruction, runInstruction, hexecute]

omit hlength

theorem checkedStep_eq :
    engine.checkedStep fault nesting offset = engine.step nesting offset := by
  unfold checkedStep step
  refine bind_congr fun _ => ?_
  cases hb : engine.image.byte offset with
  | error cause => rfl
  | ok id =>
    cases ho : Opcode.ofByte? id with
    | none => simp only [ho]
    | some opcode =>
      cases hl : opcode.encodedLength engine.image offset with
      | error cause => simp only [ho, hl]
      | ok length =>
        have hknown := checkedKnown_eq engine fault hdepth hoffset
          (Opcode.encodedLength_bounds hl).2 opcode
        simp only [ho, hl, hknown]

end Instruction

theorem checkedProceed_eq {nesting : Nesting δ τ} {start cursor ops : Nat}
    (hcursor : cursor < 2 ^ 63) (hops : ops < 2 ^ 32) {next : Except UnknownOpcode Step}
    (hnext : ∀ distance, next = .ok (.advance distance) → Lands cursor distance)
    (go : Nat → MachineM δ τ Outcome) :
    engine.checkedProceed fault nesting start cursor ops go next =
      engine.proceed nesting.depth start cursor ops go next := by
  cases next with
  | error cause => rfl
  | ok step =>
    refine (if_pos hops).trans ?_
    cases step with
    | advance distance =>
      have hlands := hnext distance rfl
      simp only [proceed, hlands.landing?_eq, hlands.advance?_eq]
    | stop => exact if_pos (by omega)
    | truncated => rfl

theorem nesting_counted (hdepth : engine.limits.maxDepth < 2 ^ 32) {room : Nat}
    (hroom : room ≤ engine.limits.maxDepth) :
    (engine.nesting room).inner.isSome → (engine.nesting room).depth + 1 < 2 ^ 32 := by
  cases room with
  | zero => nofun
  | succ room =>
    intro _
    rw [depth_nesting]
    omega

section Run

variable (himage : engine.image.length < 2 ^ 63) (hops : engine.limits.maxOps < 2 ^ 32)

include himage hops

theorem checkedWalk_eq {nesting : Nesting δ τ}
    (hdepth : nesting.inner.isSome → nesting.depth + 1 < 2 ^ 32) (start : Nat) {left : Nat}
    (hleft : left ≤ engine.limits.maxOps) (cursor : Nat) :
    engine.checkedWalk fault nesting start left cursor =
      engine.walk nesting start left cursor := by
  induction left generalizing cursor with
  | zero => rfl
  | succ left ih =>
    rcases Nat.lt_or_ge cursor engine.image.length with hlt | hle
    · have hcursor : cursor < 2 ^ 63 := Nat.lt_trans hlt himage
      rw [walk_succ engine nesting start left cursor hlt, checkedWalk,
        if_neg (Nat.not_le.mpr hlt), checkedStep_eq engine fault hdepth hcursor,
        funext (ih (Nat.le_of_succ_le hleft))]
      funext machine
      have hnext (distance : Int)
          (h : (engine.step nesting cursor machine).1 = .ok (.advance distance)) :
          Lands cursor distance := by
        rw [engine.step_fst] at h
        exact Image.lands_of_outline hcursor h
      rw [MachineM.bind_apply, MachineM.bind_apply,
        checkedProceed_eq engine fault hcursor (by omega) hnext]
    · rw [checkedWalk, walk, if_pos hle, if_pos hle]

theorem checkedRunAt_eq {nesting : Nesting δ τ}
    (hdepth : nesting.inner.isSome → nesting.depth + 1 < 2 ^ 32) (start : Nat) :
    engine.checkedRunAt fault nesting start = engine.runAt nesting start := by
  rw [checkedRunAt, runAt, checkedWalk_eq engine fault himage hops hdepth start (Nat.le_refl _)]

variable (hdepth : engine.limits.maxDepth < 2 ^ 32)

include hdepth

theorem checkedNesting_eq {room : Nat} (hroom : room ≤ engine.limits.maxDepth) :
    engine.checkedNesting fault room = engine.nesting room := by
  induction room with
  | zero => rfl
  | succ room ih =>
    have hroom := Nat.le_of_succ_le hroom
    rw [checkedNesting, nesting, ih hroom]
    congr 2
    funext target
    exact checkedRunAt_eq engine fault himage hops (engine.nesting_counted hdepth hroom) target

theorem checkedRunScript_eq (start : Nat) :
    engine.checkedRunScript fault start = engine.runScript start := by
  have hfull := Nat.le_refl engine.limits.maxDepth
  rw [checkedRunScript, runScript, checkedNesting_eq engine fault himage hops hdepth hfull,
    checkedRunAt_eq engine fault himage hops (engine.nesting_counted hdepth hfull)]
  rfl

end Run

/-- No device, state or firmware leads a run to a fault. The column that a register group is
indexed with is one of its columns, so there is at least one; a length is positive and small; the
cursor behind a step is an address; and a jump that is taken goes to its target. -/
theorem runScript_never_faults (himage : engine.image.length < 2 ^ 63)
    (hops : engine.limits.maxOps < 2 ^ 32) (hdepth : engine.limits.maxDepth < 2 ^ 32) :
    (∀ (fault : Fault δ τ) (start : Nat),
      engine.checkedRunScript fault start = engine.runScript start) ∧
    (∀ (bench after : Bench δ) (column : Nat),
      (Effect.ramColumn engine.image).run engine.facade bench = (.ok column, after) →
        column < engine.image.ramGroups) ∧
    (∀ (opcode : Opcode) (offset length : Nat),
      opcode.encodedLength engine.image offset = .ok length →
        1 ≤ length ∧ length ≤ 7 + 4 * 255 * 255 ∧ signed32 length = length) ∧
    (∀ (nesting : Nesting δ τ) (cursor : Nat) (machine : Machine δ τ) (distance : Int),
      cursor < engine.image.length →
      (engine.step nesting cursor machine).1 = .ok (.advance distance) →
        Lands cursor distance) ∧
    ∀ (offset : Nat) (target : UInt16) (distance : Int), offset < engine.image.length →
      checkedJump offset target = .ok distance → landing? offset distance = some target.toNat := by
  refine ⟨fun fault => engine.checkedRunScript_eq fault himage hops hdepth,
    fun _ _ _ => Effect.ramColumn_lt, fun opcode offset length h => ?_,
    fun nesting cursor machine distance hcursor h => ?_,
    fun offset target distance hoffset => landing?_of_checkedJump (Nat.lt_trans hoffset himage)⟩
  · obtain ⟨hone, hle⟩ := Opcode.encodedLength_bounds h
    exact ⟨hone, hle, Opcode.signed32_encodedLength h⟩
  · rw [engine.step_fst] at h
    exact Image.lands_of_outline (Nat.lt_trans hcursor himage) h

/-- A register group without columns, a long delay and a jump. -/
theorem runScript_never_faults_of_jump :
    let engine : Engine SimulatedDevice Unit :=
      { image := .ofScript
          ⟨#[0, 0x8f, 0, 0, 0, 0, 4, 2, 0x74, 0xff, 0xff, 0x5c, 0x0f, 0, 0xff, 0x71]⟩
        facade := SimulatedDevice.facade
        observer := .silent
        limits := {} }
    let fault : Fault SimulatedDevice Unit :=
      { effect := Effect.writeReg 0 0
        call := return .error (.recursionLimit 0)
        outcome := return .ok { start := 0, cursor := 0, ops := 0, exit := .noScript } }
    (engine.checkedRunScript fault 1 (.start .blank {} ())).1.toOption =
        some { start := 1, cursor := 16, ops := 4, exit := .done } ∧
      landing? 11 4 = some 15 := by
  intro engine fault
  obtain ⟨hrun, -, -, -, hjump⟩ :=
    runScript_never_faults engine (by decide) (by decide) (by decide)
  constructor
  · rw [hrun]
    decide +kernel
  · exact hjump 11 15 4 (by decide) rfl

end Engine

end RomScript
