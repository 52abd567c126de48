import Mathlib.Logic.Function.Iterate
import RomScript.Effect.Conditions
import RomScript.Proofs.Device.Replay
import RomScript.Proofs.Image.Reads

/-!
# The verdict on a condition

A condition is met, or there is one reason for which it is not: the compared value differs, its
table has no such entry, the flag that it asks for is outside the image, or a transfer failed.
The verdict is told from the answers of the device, and for a polled condition from the answers
that it would give in each round. The test has the value true exactly for conditions that are
met.
-/

set_option autoImplicit false

namespace RomScript

inductive Verdict
  | met
  | differs
  /-- The table is missing, or the entry is not all inside the image. -/
  | noEntry
  /-- The flag byte is outside the image. -/
  | noFlag
  | failed
  deriving DecidableEq, Repr

namespace Verdict

def compare (holds : Prop) [Decidable holds] : Verdict := if holds then .met else .differs

def ofEntry {α : Type} (read : Except ImageError α) (judge : α → Verdict) : Verdict :=
  match read with
  | .error _ => .noEntry
  | .ok entry => judge entry

def ofFlag (read : Except ImageError UInt8) (holds : UInt8 → Prop) [DecidablePred holds] :
    Verdict :=
  match read with
  | .error _ => .noFlag
  | .ok flags => .compare (holds flags)

def ofTransfer (answer : Except TransferError (List UInt8)) (holds : UInt8 → Prop)
    [DecidablePred holds] : Verdict :=
  match answer with
  | .error _ => .failed
  | .ok bytes => .compare (holds (bytes.headD 0))

section

variable {α : Type} (holds : Prop) [Decidable holds] (holding : UInt8 → Prop)
  [DecidablePred holding] (read : Except ImageError α) (judge : α → Verdict)

@[simp] theorem compare_eq_met_iff : compare holds = .met ↔ holds := by
  unfold compare
  split <;> simp_all

@[simp] theorem compare_ne_noEntry : compare holds ≠ .noEntry := by
  unfold compare
  split <;> nofun

@[simp] theorem compare_ne_noFlag : compare holds ≠ .noFlag := by
  unfold compare
  split <;> nofun

@[simp] theorem compare_ne_failed : compare holds ≠ .failed := by
  unfold compare
  split <;> nofun

theorem ofEntry_eq_noEntry_iff : ofEntry read judge = .noEntry ↔
    (¬∃ entry, read = .ok entry) ∨ ∃ entry, read = .ok entry ∧ judge entry = .noEntry := by
  cases read <;> simp [ofEntry]

theorem ofEntry_eq_iff {verdict : Verdict} (h : verdict ≠ .noEntry) :
    ofEntry read judge = verdict ↔ ∃ entry, read = .ok entry ∧ judge entry = verdict := by
  cases read with
  | error cause => simp [ofEntry, h.symm]
  | ok entry => simp [ofEntry]

@[simp] theorem ofFlag_eq_noFlag_iff (flags : Except ImageError UInt8) :
    ofFlag flags holding = .noFlag ↔ ¬∃ byte, flags = .ok byte := by
  cases flags <;> simp [ofFlag]

@[simp] theorem ofFlag_ne_noEntry (flags : Except ImageError UInt8) :
    ofFlag flags holding ≠ .noEntry := by
  cases flags <;> simp [ofFlag]

@[simp] theorem ofFlag_ne_failed (flags : Except ImageError UInt8) :
    ofFlag flags holding ≠ .failed := by
  cases flags <;> simp [ofFlag]

@[simp] theorem ofTransfer_eq_failed_iff (answer : Except TransferError (List UInt8)) :
    ofTransfer answer holding = .failed ↔ ∃ cause, answer = .error cause := by
  cases answer <;> simp [ofTransfer]

@[simp] theorem ofTransfer_ne_noEntry (answer : Except TransferError (List UInt8)) :
    ofTransfer answer holding ≠ .noEntry := by
  cases answer <;> simp [ofTransfer]

@[simp] theorem ofTransfer_ne_noFlag (answer : Except TransferError (List UInt8)) :
    ofTransfer answer holding ≠ .noFlag := by
  cases answer <;> simp [ofTransfer]

end

end Verdict

section

variable {δ : Type} (image : Image) (output : Output) (facade : Facade δ) (device : δ)

def ConditionEntry.Holds (entry : ConditionEntry) : Prop :=
  (facade.answer (.readReg entry.reg) device).1 &&& entry.mask = entry.value

instance (entry : ConditionEntry) : Decidable (entry.Holds facade device) :=
  inferInstanceAs (Decidable (_ = _))

/-- The device behind a round of a polled condition, which reads the register and pauses. -/
def ConditionEntry.round (entry : ConditionEntry) : δ → δ :=
  facade.issue [.readReg entry.reg, .sleepMillis 20]

def Condition.verdict : Condition → Verdict
  | .register index =>
    .ofEntry (image.condition index) fun entry => .compare (entry.Holds facade device)
  | .port index =>
    .ofEntry (image.ioCondition index) fun entry =>
      let value := (facade.answer (.readIndexed entry.port entry.index) device).1
      .compare (value &&& entry.mask = entry.value)
  | .portFlag index =>
    .ofEntry (image.ioFlagCondition index) fun entry =>
      let value := (facade.answer (.readIndexed entry.field.port entry.field.index) device).1
      .ofFlag (image.byte (entry.flagArray.toNat + entry.field.position value)) fun flags =>
        flags &&& entry.flagMask = entry.value
  | .displayPort test _ =>
    if test ≤ 2 then .compare (output.linkFlags &&& 1 <<< test ≠ 0)
    else
      .ofTransfer (facade.answer (.auxRead output.auxBus 0x0d [0]) device).1
        fun value => value &&& 1 ≠ 0 ↔ test = 5
  | .polled index retries =>
    .ofEntry (image.condition index) fun entry =>
      .compare (∃ past < min (max retries.toNat 1) 100,
        entry.Holds facade ((entry.round facade)^[past] device))
  | .ramStatus mask value =>
    .compare ((facade.answer (.readReg 0x100000) device).1 &&& mask.toUInt32 = value.toUInt32)
  | .straps mask value =>
    .compare ((facade.answer (.readReg 0x101000) device).1 &&& mask = value)
  | .i2c target reg mask data =>
    let (bus, addr) := target.resolve output
    .ofTransfer (facade.answer (.i2cWriteRead bus addr [reg] [0]) device).1
      fun value => value &&& mask = data
  | .i2cLong target regLow regHigh mask data =>
    let (bus, addr) := target.resolve output
    .ofTransfer (facade.answer (.i2cWriteRead bus addr [regHigh, regLow] [0]) device).1
      fun value => value &&& mask = data

end

namespace Condition

variable {δ : Type} (image : Image) (output : Output) (facade : Facade δ) (bench : Bench δ)

/-- The entry that a condition needs, if any, is all inside the image. -/
def HasEntry : Condition → Prop
  | .register index | .polled index _ => image.HasEntry .conditions index.toNat 12
  | .port index => image.HasEntry .ioConditions index.toNat 5
  | .portFlag index => image.HasEntry .ioFlagConditions index.toNat 9
  | _ => True

def transfer? (device : δ) : Condition → Option (Except TransferError (List UInt8))
  | .displayPort test _ =>
    if test ≤ 2 then none else some (facade.answer (.auxRead output.auxBus 0x0d [0]) device).1
  | .i2c target reg _ _ =>
    let (bus, addr) := target.resolve output
    some (facade.answer (.i2cWriteRead bus addr [reg] [0]) device).1
  | .i2cLong target regLow regHigh _ _ =>
    let (bus, addr) := target.resolve output
    some (facade.answer (.i2cWriteRead bus addr [regHigh, regLow] [0]) device).1
  | _ => none

section

variable (condition : Condition) (device : δ)

theorem verdict_eq_noEntry_iff :
    condition.verdict image output facade device = .noEntry ↔ ¬condition.HasEntry image := by
  cases condition with
  | displayPort number size =>
    simp only [verdict]
    split <;> simp [HasEntry]
  | _ =>
    simp [verdict, HasEntry, Verdict.ofEntry_eq_noEntry_iff, ← Image.exists_condition_iff,
      ← Image.exists_ioCondition_iff, ← Image.exists_ioFlagCondition_iff]

/-- Only a condition on a port and a flag has a flag byte, at a place that the port picks. -/
theorem verdict_eq_noFlag_iff :
    condition.verdict image output facade device = .noFlag ↔
      ∃ index entry, condition = .portFlag index ∧ image.ioFlagCondition index = .ok entry ∧
        image.length ≤ entry.flagArray.toNat + entry.field.position
          (facade.answer (.readIndexed entry.field.port entry.field.index) device).1 := by
  cases condition with
  | displayPort number size =>
    simp only [verdict]
    split <;> simp
  | _ => simp [verdict, Verdict.ofEntry_eq_iff]

theorem verdict_eq_failed_iff :
    condition.verdict image output facade device = .failed ↔
      ∃ cause, condition.transfer? output facade device = some (.error cause) := by
  cases condition with
  | displayPort number size =>
    simp only [verdict, transfer?]
    split <;> simp
  | _ => simp [verdict, transfer?, Verdict.ofEntry_eq_iff]

end

theorem registerMet_of_error {index : UInt8} {cause : ImageError}
    (h : image.condition index = .error cause) :
    (registerMet image index).run facade bench = (.error (.image cause), bench) := by
  unfold registerMet
  rw [h]
  rfl

theorem registerMet_of_entry {index : UInt8} {entry : ConditionEntry}
    (h : image.condition index = .ok entry) :
    (registerMet image index).run facade bench =
      (.ok (decide (entry.Holds facade bench.device)),
        { bench with device := (facade.answer (.readReg entry.reg) bench.device).2 }) := by
  unfold registerMet
  rw [h]
  rfl

theorem poll_of_error {index : UInt8} {cause : ImageError}
    (h : image.condition index = .error cause) (further : Nat) :
    ((poll (registerMet image index) further).run facade bench).1 = .error (.image cause) := by
  cases further with
  | zero =>
    unfold poll
    rw [registerMet_of_error image facade bench h]
  | succ further =>
    unfold poll
    rw [Effect.run_bind, registerMet_of_error image facade bench h]

/-- A poll stops at the first round in which the entry holds. -/
theorem poll_of_entry {index : UInt8} {entry : ConditionEntry}
    (h : image.condition index = .ok entry) (further : Nat) :
    ((poll (registerMet image index) further).run facade bench).1 = .ok true ↔
      ∃ past < further + 1, entry.Holds facade ((entry.round facade)^[past] bench.device) := by
  induction further generalizing bench with
  | zero =>
    unfold poll
    rw [registerMet_of_entry image facade bench h]
    simp
  | succ further ih =>
    unfold poll
    rw [Effect.run_bind, registerMet_of_entry image facade bench h]
    by_cases hb : entry.Holds facade bench.device
    · simp only [hb, decide_true, if_true]
      exact iff_of_true rfl ⟨0, Nat.succ_pos _, hb⟩
    · simp only [hb, decide_false, Bool.false_eq_true, if_false]
      let paused : Bench δ := { bench with device := entry.round facade bench.device }
      refine (ih paused).trans ?_
      constructor
      · rintro ⟨past, hlt, hold⟩
        exact ⟨past + 1, Nat.succ_lt_succ hlt, hold⟩
      · rintro ⟨past, hlt, hold⟩
        cases past with
        | zero => exact absurd hold hb
        | succ past => exact ⟨past, Nat.lt_of_succ_lt_succ hlt, hold⟩

theorem error_eq_true_iff {cause : InstructionError} (verdict : Verdict) (h : verdict ≠ .met) :
    (.error cause : Except InstructionError Bool) = .ok true ↔ verdict = .met := by
  simp [h]

theorem ok_eq_true_iff {holds : Prop} [Decidable holds] {value : Bool} (h : value = true ↔ holds) :
    (.ok value : Except InstructionError Bool) = .ok true ↔ Verdict.compare holds = .met := by
  rw [Verdict.compare_eq_met_iff, Except.ok.injEq]
  exact h

theorem transfer_eq_true_iff (answer : Except TransferError (List UInt8)) (holds : UInt8 → Prop)
    [DecidablePred holds] {value : UInt8 → Bool} (h : ∀ byte, value byte = true ↔ holds byte) :
    ((Effect.ofTransfer (answer.map fun bytes => bytes.headD 0) >>= fun byte =>
      pure (value byte)).run facade bench).1 = .ok true ↔
        Verdict.ofTransfer answer holds = .met := by
  cases answer with
  | error cause => exact error_eq_true_iff .failed (by decide)
  | ok bytes => exact ok_eq_true_iff (h _)

theorem flag_eq_true_iff (read : Except ImageError UInt8) (holds : UInt8 → Prop)
    [DecidablePred holds] {value : UInt8 → Bool} (h : ∀ byte, value byte = true ↔ holds byte) :
    ((Effect.ofImage read >>= fun byte => pure (value byte)).run facade bench).1 = .ok true ↔
      Verdict.ofFlag read holds = .met := by
  cases read with
  | error cause => exact error_eq_true_iff .noFlag (by decide)
  | ok byte => exact ok_eq_true_iff (h byte)

theorem test_eq_true_iff (condition : Condition) :
    ((condition.test image output).run facade bench).1 = .ok true ↔
      condition.verdict image output facade bench.device = .met := by
  cases condition with
  | register index =>
    simp only [test, verdict]
    cases h : image.condition index with
    | error cause =>
      rw [registerMet_of_error image facade bench h]
      exact error_eq_true_iff .noEntry (by decide)
    | ok entry =>
      rw [registerMet_of_entry image facade bench h]
      exact ok_eq_true_iff decide_eq_true_iff
  | polled index retries =>
    simp only [test, verdict]
    cases h : image.condition index with
    | error cause =>
      rw [poll_of_error image facade bench h]
      exact error_eq_true_iff .noEntry (by decide)
    | ok entry =>
      have hrounds : furtherTests retries + 1 = min (max retries.toNat 1) 100 := by
        unfold furtherTests
        omega
      rw [poll_of_entry image facade bench h, hrounds]
      exact (Verdict.compare_eq_met_iff _).symm
  | port index =>
    simp only [test, verdict, portMet]
    cases h : image.ioCondition index with
    | error cause => exact error_eq_true_iff .noEntry (by decide)
    | ok entry => exact ok_eq_true_iff beq_iff_eq
  | portFlag index =>
    simp only [test, verdict, Effect.portFlagMet]
    cases h : image.ioFlagCondition index with
    | error cause => exact error_eq_true_iff .noEntry (by decide)
    | ok entry => exact flag_eq_true_iff facade _ _ _ fun _ => beq_iff_eq
  | displayPort number size =>
    simp only [test, verdict, displayPortMet]
    by_cases ht : number ≤ 2
    · rw [if_pos ht, if_pos ht]
      exact ok_eq_true_iff bne_iff_ne
    · rw [if_neg ht, if_neg ht]
      exact transfer_eq_true_iff facade _ _ _ fun byte => by
        rw [beq_iff_eq, Bool.eq_iff_iff, bne_iff_ne, beq_iff_eq]
  | ramStatus mask value => exact ok_eq_true_iff beq_iff_eq
  | straps mask value => exact ok_eq_true_iff beq_iff_eq
  | i2c target reg mask data => exact transfer_eq_true_iff facade _ _ _ fun _ => beq_iff_eq
  | i2cLong target regLow regHigh mask data =>
    exact transfer_eq_true_iff facade _ _ _ fun _ => beq_iff_eq

end Condition

end RomScript
