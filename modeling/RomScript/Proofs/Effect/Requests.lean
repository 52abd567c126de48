import Mathlib.Algebra.Group.Nat.Defs
import RomScript.Proofs.Effect.Column
import RomScript.Proofs.Effect.Verdict

/-!
# The requests of an effect

An effect makes its requests one after the other, each with the answers to those before it at
hand. A look-up in the image makes none. What is requested for an operand that the board picks
comes behind the request that finds out the pick, and there is nothing more if the pick is none
of the operands.
-/

set_option autoImplicit false

namespace RomScript

def PortField.selector {δ : Type} (field : PortField) (facade : Facade δ) (device : δ) : Nat :=
  ((facade.answer (.readIndexed field.port field.index) device).1 &&& field.mask).toNat /
    2 ^ field.shift.toNat

namespace Bench

variable {δ : Type}

/-- The column that is kept on the bench, or else the one of the straps, if the image tells it. -/
def column? (facade : Facade δ) (image : Image) : Bench δ → Option UInt8
  | ⟨_, some column⟩ => some column
  | ⟨device, none⟩ => (image.ramColumn (facade.ramStrap device).1).toOption

def columnLookup : Bench δ → List Request
  | ⟨_, some _⟩ => []
  | ⟨_, none⟩ => [.readReg 0x101000]

end Bench

def flagLookup (image : Image) (index : UInt8) : List Request :=
  match image.ioFlagCondition index with
  | .error _ => []
  | .ok entry => [.readIndexed entry.field.port entry.field.index]

namespace Effect

variable {α β δ ε : Type} (facade : Facade δ) (image : Image) (bench : Bench δ)

theorem requests_ofExcept_bind (wrap : ε → InstructionError) (result : Except ε α)
    (next : α → Effect β) : (ofExcept wrap result >>= next).requests facade bench =
      match result with
      | .ok value => (next value).requests facade bench
      | .error _ => [] := by
  cases result <;> rfl

theorem requests_ofExcept (wrap : ε → InstructionError) (result : Except ε α) :
    (ofExcept wrap result).requests facade bench = [] := by
  cases result <;> rfl

theorem requests_setPll (reg khz : UInt32) :
    (setPll reg khz).requests facade bench = [.programPll reg khz] :=
  congrArg (List.cons _) (requests_ofExcept facade _ .pll _)

theorem requests_writeRegs (stride reg : UInt32) (values : List UInt32) :
    (writeRegs stride reg values).requests facade bench = rowRequests stride reg values := by
  induction values generalizing reg bench with
  | nil => rfl
  | cons value rest ih => exact congrArg (List.cons _) (ih _ _)

theorem requests_selectByPort_bind (field : PortField) (values : List α) (next : α → Effect β) :
    (selectByPort field values >>= next).requests facade bench =
      .readIndexed field.port field.index ::
        match values[field.selector facade bench.device]? with
        | some value => (next value).requests facade
          ⟨(facade.answer (.readIndexed field.port field.index) bench.device).2, bench.column⟩
        | none => [] := by
  let answered := facade.answer (.readIndexed field.port field.index) bench.device
  have hposition : field.position answered.1 = field.selector facade bench.device :=
    Nat.shiftRight_eq_div_pow _ _
  have hsplit : (selectByPort field values >>= next).requests facade bench =
      .readIndexed field.port field.index ::
        (select .portSelector values (field.position answered.1) >>= next).requests facade
          ⟨answered.2, bench.column⟩ := rfl
  rw [hsplit, hposition, select]
  cases values[field.selector facade bench.device]? <;> rfl

theorem requests_ramColumn_bind (next : Nat → Effect β) :
    (ramColumn image >>= next).requests facade bench = bench.columnLookup ++
      match bench.column? facade image with
      | some column =>
        if column.toNat < image.ramGroups then
          (next column.toNat).requests facade
            ⟨facade.issue bench.columnLookup bench.device, some column⟩
        else []
      | none => [] := by
  let within (column : UInt8) : Effect Nat :=
    if column.toNat < image.ramGroups then return column.toNat
    else .fail (.outOfRange .ramColumn column.toNat image.ramGroups)
  have hknown (column : UInt8) (device : δ) :
      (within column >>= next).requests facade ⟨device, some column⟩ =
        if column.toNat < image.ramGroups then
          (next column.toNat).requests facade ⟨device, some column⟩
        else [] := by
    unfold within
    by_cases h : column.toNat < image.ramGroups
    · rw [if_pos h, if_pos h]
      rfl
    · rw [if_neg h, if_neg h]
      rfl
  obtain ⟨device, column | column⟩ := bench
  · let strap := facade.ramStrap device
    let found : Effect UInt8 :=
      ofImage (image.ramColumn strap.1) >>= fun column => .setColumn column (.done column)
    have hlookup : (ramColumn image >>= next).requests facade ⟨device, none⟩ =
        .readReg 0x101000 :: ((found >>= within) >>= next).requests facade ⟨strap.2, none⟩ := rfl
    rw [hlookup, Bench.column?]
    unfold found
    cases image.ramColumn strap.1 with
    | error cause => rfl
    | ok column => exact congrArg (List.cons _) (hknown column strap.2)
  · exact hknown column device

theorem requests_portFlagMet_bind (output : Output) (index : UInt8) (next : Bool → Effect β) :
    (portFlagMet image index >>= next).requests facade bench = flagLookup image index ++
      let after : Bench δ :=
        { bench with device := facade.issue (flagLookup image index) bench.device }
      match (Condition.portFlag index).verdict image output facade bench.device with
      | .met => (next true).requests facade after
      | .differs => (next false).requests facade after
      | _ => [] := by
  simp only [Condition.verdict, flagLookup]
  unfold portFlagMet
  cases image.ioFlagCondition index with
  | error cause => rfl
  | ok entry =>
    let answered := facade.answer (.readIndexed entry.field.port entry.field.index) bench.device
    let read := image.byte (entry.flagArray.toNat + entry.field.position answered.1)
    let meets (flags : UInt8) : Bool := flags &&& entry.flagMask == entry.value
    have hsplit : ((ofImage (.ok entry) >>= fun entry =>
          portSelector entry.field >>= fun position =>
            ofImage (image.byte (entry.flagArray.toNat + position)) >>= fun flags =>
              pure (flags &&& entry.flagMask == entry.value)) >>= next).requests facade bench =
        .readIndexed entry.field.port entry.field.index ::
          ((ofImage read >>= fun flags => pure (meets flags)) >>= next).requests facade
            ⟨answered.2, bench.column⟩ := rfl
    refine hsplit.trans (congrArg (List.cons _) ?_)
    show _ = match Verdict.ofFlag read fun flags => flags &&& entry.flagMask = entry.value with
      | .met => (next true).requests facade ⟨answered.2, bench.column⟩
      | .differs => (next false).requests facade ⟨answered.2, bench.column⟩
      | _ => []
    cases read with
    | error cause => rfl
    | ok flags =>
      show (next (meets flags)).requests facade ⟨answered.2, bench.column⟩ = _
      by_cases h : flags &&& entry.flagMask = entry.value
      · have hmeets : meets flags = true := beq_iff_eq.mpr h
        simp only [hmeets, Verdict.ofFlag, Verdict.compare, if_pos h]
      · have hmeets : meets flags = false := beq_eq_false_iff_ne.mpr h
        simp only [hmeets, Verdict.ofFlag, Verdict.compare, if_neg h]

end Effect

end RomScript
