import RomScript.Effect.Board
import RomScript.Effect.Clocks
import RomScript.Effect.Conditions
import RomScript.Effect.Ports
import RomScript.Effect.Registers
import RomScript.Proofs.Device.Replay

/-!
# Effects and the RAM column

Two instructions take their values from the column of the board. The first one that finds the
column out keeps it on the bench, and all other ones leave it there untouched. With a column on
the bench, the two make no more requests than those for its values.
-/

set_option autoImplicit false

namespace RomScript

def Opcode.takesColumn : Opcode → Bool
  | .ramRestrictPll | .ramRestrictZmRegGroup => true
  | _ => false

namespace Effect

variable {α β δ : Type}

/-! ## Without the column -/

/-- Whatever the answers, the effect neither looks at the column nor sets it. -/
def Blind : Effect α → Prop
  | .done _ | .fail _ => True
  | .ask _ next => ∀ answer, (next answer).Blind
  | .getColumn _ | .setColumn .. => False

section Blind

theorem blind_bind {effect : Effect α} {next : α → Effect β} (h : effect.Blind)
    (hn : ∀ value, (next value).Blind) : (effect >>= next).Blind := by
  induction effect with
  | done value => exact hn value
  | fail cause => trivial
  | ask request rest ih => exact fun answer => ih answer (h answer)
  | getColumn rest ih => exact h.elim
  | setColumn column rest ih => exact h.elim

theorem column_of_blind {effect : Effect α} (h : effect.Blind) (facade : Facade δ)
    (bench : Bench δ) : (effect.run facade bench).2.column = bench.column := by
  induction effect generalizing bench with
  | done value => rfl
  | fail cause => rfl
  | ask request rest ih => exact ih _ (h _) _
  | getColumn rest ih => exact h.elim
  | setColumn column rest ih => exact h.elim

theorem blind_request (request : Request) : (Effect.request request).Blind := fun _ => trivial

theorem blind_ofExcept {ε : Type} (wrap : ε → InstructionError) (result : Except ε α) :
    (ofExcept wrap result).Blind := by
  cases result <;> trivial

theorem blind_forM {items : List α} {f : α → Effect PUnit} (h : ∀ item, (f item).Blind) :
    (items.forM f).Blind := by
  induction items with
  | nil => trivial
  | cons item rest ih => exact blind_bind (h item) fun _ => ih

theorem blind_filterMapM {items : List α} {f : α → Effect (Option β)}
    (h : ∀ item, (f item).Blind) : (items.filterMapM f).Blind := by
  induction items with
  | nil => trivial
  | cons item rest ih =>
    rw [List.filterMapM_cons]
    refine blind_bind (h item) fun result => ?_
    cases result with
    | none => exact ih
    | some value => exact blind_bind ih fun _ => trivial

theorem blind_writeRegs (stride reg : UInt32) (values : List UInt32) :
    (writeRegs stride reg values).Blind := by
  induction values generalizing reg with
  | nil => trivial
  | cons value rest ih => exact fun _ => ih _

theorem blind_writeLatchedBytes (addressIndex dataIndex address : UInt8) (data : List UInt8) :
    (writeLatchedBytes addressIndex dataIndex address data).Blind := by
  induction data generalizing address with
  | nil => trivial
  | cons byte rest ih => exact fun _ _ => ih _

theorem blind_selectByPort (field : PortField) (values : List α) :
    (selectByPort field values).Blind := by
  refine blind_bind (fun _ => trivial) fun position => ?_
  unfold select
  split <;> trivial

theorem blind_portFlagMet (image : Image) (index : UInt8) : (portFlagMet image index).Blind :=
  blind_bind (blind_ofExcept .image _) fun _ => blind_bind (fun _ => trivial) fun _ =>
    blind_bind (blind_ofExcept .image _) fun _ => trivial

theorem blind_setPll (reg khz : UInt32) : (setPll reg khz).Blind :=
  fun _ => blind_ofExcept .pll _

end Blind

end Effect

open Effect

theorem RegisterOp.blind_run (image : Image) (op : RegisterOp)
    (h : op.opcode.takesColumn = false) : (op.run image).Blind := by
  cases op with
  | zmReg | zmReg16 => exact fun _ => trivial
  | nvReg | andnReg | orReg | zmMaskAdd | copyZmReg => exact fun _ _ => trivial
  | copyNvReg => exact fun _ _ _ => trivial
  | reset => exact fun _ _ _ _ _ _ _ _ => trivial
  | zmRegSequence | zmRegGroup => exact blind_writeRegs _ _ _
  | zmRegIndirect => exact blind_bind (blind_ofExcept .image _) fun _ _ => trivial
  | xlat =>
    exact blind_bind (blind_request _) fun _ =>
      blind_bind (blind_ofExcept .image _) fun _ _ _ => trivial
  | indexAddressLatched => exact blind_forM fun _ _ _ _ => trivial
  | macroGroup index =>
    have hrange : (groupRange image index).Blind := by
      unfold groupRange
      split
      · exact blind_ofExcept .image _
      · trivial
    refine blind_bind hrange fun _ => blind_forM fun _ => ?_
    exact blind_bind (blind_ofExcept .image _) fun _ _ => trivial
  | ramRestrictZmRegGroup => cases h
  | ioRestrictProg field reg values =>
    exact blind_bind (blind_selectByPort field values) fun _ _ => trivial

theorem PortOp.blind_run (output : Output) (op : PortOp) : (op.run output).Blind := by
  cases op with
  | zmIndexIo | zmCr => exact fun _ => trivial
  | io | indexIo | cr | ioMaskOr | ioOr => exact fun _ _ => trivial
  | copy => exact fun _ _ _ => trivial
  | zmCrGroup => exact blind_forM fun _ _ => trivial
  | crIndexAddressLatched =>
    exact blind_bind (blind_request _) fun _ =>
      blind_bind (blind_writeLatchedBytes _ _ _ _) fun _ _ => trivial

theorem ClockOp.blind_run (image : Image) (op : ClockOp) (h : op.opcode.takesColumn = false) :
    (op.run image).Blind := by
  cases op with
  | pll | pll2 => exact blind_setPll _ _
  | ioRestrictPll field flagCondition =>
    have hdoubled : (isDoubled image flagCondition).Blind := by
      unfold isDoubled
      split
      · trivial
      · exact blind_portFlagMet image flagCondition
    exact blind_bind (blind_selectByPort field _) fun _ =>
      blind_bind hdoubled fun _ => blind_setPll _ _
  | ioRestrictPll2 field =>
    exact blind_bind (blind_selectByPort field _) fun _ => blind_setPll _ _
  | ramRestrictPll => cases h
  | time =>
    simp only [run]
    split <;> exact blind_request _
  | ltime => exact blind_request _

theorem BusOp.blind_run (output : Output) (op : BusOp) : (op.run output).Blind := by
  have hlink (link : UInt8) : (linkRegister link output).Blind := by
    intro answer
    cases answer <;> trivial
  cases op with
  | i2cByte =>
    refine blind_filterMapM fun write => ?_
    refine blind_bind (fun answer => ?_) fun _ => trivial
    cases answer with
    | error cause => trivial
    | ok bytes => exact fun _ => trivial
  | auxch =>
    refine blind_filterMapM fun write => ?_
    refine blind_bind (fun answer => ?_) fun _ => trivial
    cases answer with
    | error cause => trivial
    | ok bytes => exact fun _ => trivial
  | zmI2cByte | zmAuxch => exact blind_filterMapM fun _ _ => trivial
  | zmI2c =>
    exact blind_bind (blind_request _) fun _ =>
      blind_bind (blind_ofExcept .transfer _) fun _ => trivial
  | tmds link => exact blind_bind (hlink link) fun _ _ _ _ _ => trivial
  | zmTmdsGroup link =>
    exact blind_bind (hlink link) fun _ =>
      blind_bind (blind_forM fun _ _ _ => trivial) fun _ => trivial

theorem BoardOp.blind_run (image : Image) (op : BoardOp) : (op.run image).Blind := by
  have hentry : (memoryEntry image).Blind := fun _ => blind_ofExcept .image _
  have hsequence (regs : List UInt32) (offset : Nat) :
      (writeSequence image regs offset).Blind := by
    induction regs generalizing offset with
    | nil => trivial
    | cons reg rest ih =>
      unfold writeSequence
      split
      · exact fun _ => ih offset
      · refine blind_bind (blind_ofExcept .image _) fun value => ?_
        split
        · exact ih _
        · exact fun _ => ih _
  cases op with
  | computeMem | gpio | gpioNe => exact fun _ => trivial
  | configurePreinit => exact fun _ _ => trivial
  | configureMem =>
    exact blind_bind hentry fun _ => blind_bind (blind_request _) fun _ =>
      blind_bind (blind_request _) fun _ => blind_bind (blind_ofExcept .image _) fun _ =>
        hsequence _ _
  | configureClk =>
    exact blind_bind hentry fun _ => blind_bind (blind_request _) fun _ =>
      blind_bind (blind_request _) fun _ => blind_bind (blind_ofExcept .pll _) fun _ =>
        blind_ofExcept .pll _

theorem Condition.blind_test (image : Image) (output : Output) (op : Condition) :
    (op.test image output).Blind := by
  have hregister (index : UInt8) : (registerMet image index).Blind :=
    blind_bind (blind_ofExcept .image _) fun _ _ => trivial
  have hpoll (test : Effect Bool) (ht : test.Blind) (further : Nat) :
      (poll test further).Blind := by
    induction further with
    | zero => exact ht
    | succ further ih =>
      refine blind_bind ht fun met => ?_
      cases met with
      | true => trivial
      | false => exact fun _ => ih
  cases op with
  | register index => exact hregister index
  | port => exact blind_bind (blind_ofExcept .image _) fun _ _ => trivial
  | portFlag index => exact blind_portFlagMet image index
  | displayPort number =>
    simp only [test, displayPortMet]
    split
    · trivial
    · exact blind_bind (blind_bind (blind_request _) fun _ => trivial) fun _ =>
        blind_bind (blind_ofExcept .transfer _) fun _ => trivial
  | polled index => exact hpoll _ (hregister index) _
  | ramStatus | straps => exact fun _ => trivial
  | i2c | i2cLong =>
    exact blind_bind (blind_bind (blind_request _) fun _ => trivial) fun _ =>
      blind_bind (blind_ofExcept .transfer _) fun _ => trivial

/-! ## With the column -/

theorem Instruction.cases_of_takesColumn {instruction : Instruction}
    (h : instruction.opcode.takesColumn = true) :
    (∃ id khz, instruction = .clock (.ramRestrictPll id khz)) ∨
      ∃ reg increment count values,
        instruction = .register (.ramRestrictZmRegGroup reg increment count values) := by
  cases instruction with
  | clock op =>
    cases op with
    | ramRestrictPll id khz => exact .inl ⟨id, khz, rfl⟩
    | _ => cases h
  | register op =>
    cases op with
    | ramRestrictZmRegGroup reg increment count values =>
      exact .inr ⟨reg, increment, count, values, rfl⟩
    | _ => cases h
  | control op => cases op <;> cases h
  | condition op => cases op <;> cases h
  | port op => cases op <;> cases h
  | bus op => cases op <;> cases h
  | board op => cases op <;> cases h

def rowRequests (stride : UInt32) : UInt32 → List UInt32 → List Request
  | _, [] => []
  | reg, value :: rest => .writeReg reg value :: rowRequests stride (reg + stride) rest

/-- The requests that an instruction makes for its values in a column. -/
def Instruction.valueRequests (columns column : Nat) : Instruction → List Request
  | .clock (.ramRestrictPll id khz) => khz[column]?.toList.map (.programPllId id)
  | .register (.ramRestrictZmRegGroup reg increment _ values) =>
    rowRequests increment.toUInt32 reg
      ((List.range (values.length / columns)).filterMap fun row => values[row * columns + column]?)
  | _ => []

def Instruction.columnRequests (image : Image) (column : UInt8) (instruction : Instruction) :
    List Request :=
  if column.toNat < image.ramGroups then
    instruction.valueRequests image.ramGroups column.toNat
  else []

theorem Instruction.not_mem_columnRequests (image : Image) (column : UInt8)
    (instruction : Instruction) (reg : UInt32) :
    .readReg reg ∉ instruction.columnRequests image column := by
  have hrows (stride base : UInt32) (values : List UInt32) :
      .readReg reg ∉ rowRequests stride base values := by
    induction values generalizing base with
    | nil => exact List.not_mem_nil
    | cons value rest ih => exact List.not_mem_cons_of_ne_of_not_mem nofun (ih _)
  unfold columnRequests
  split
  · cases instruction with
    | clock op =>
      cases op with
      | ramRestrictPll => simp [valueRequests]
      | _ => exact List.not_mem_nil
    | register op =>
      cases op with
      | ramRestrictZmRegGroup => exact hrows _ _ _
      | _ => exact List.not_mem_nil
    | _ => exact List.not_mem_nil
  · exact List.not_mem_nil

section Running

variable {δ : Type} (facade : Facade δ) (image : Image)

/-- The RAM configuration in the boot straps, and the device behind the read. -/
def Facade.ramStrap (device : δ) : UInt8 × δ :=
  let straps := facade.answer (.readReg 0x101000) device
  (((straps.1 &&& 0x3c) >>> 2).toUInt8, straps.2)

/-- The bench behind an instruction that takes its values from the column of the board: the one
that is kept there, or else the one of the straps, which is kept from then on if it can be
found out. -/
def Instruction.behindColumn (instruction : Instruction) : Bench δ → Bench δ
  | ⟨device, some column⟩ =>
    ⟨facade.issue (instruction.columnRequests image column) device, some column⟩
  | ⟨device, none⟩ =>
    let strap := facade.ramStrap device
    match image.ramColumn strap.1 with
    | .error _ => ⟨strap.2, none⟩
    | .ok column => ⟨facade.issue (instruction.columnRequests image column) strap.2, some column⟩

theorem run_writeRegs (stride reg : UInt32) (values : List UInt32) (device : δ)
    (column : Option UInt8) : (writeRegs stride reg values).run facade ⟨device, column⟩ =
      (.ok (), ⟨facade.issue (rowRequests stride reg values) device, column⟩) := by
  induction values generalizing reg device with
  | nil => rfl
  | cons value rest ih => exact ih _ _

theorem run_ramColumn_bind {instruction : Instruction} {next : Nat → Effect Unit}
    (hn : ∀ position device column, ((next position).run facade ⟨device, column⟩).2 =
      ⟨facade.issue (instruction.valueRequests image.ramGroups position) device, column⟩)
    (bench : Bench δ) : ((ramColumn image >>= next).run facade bench).2 =
      instruction.behindColumn facade image bench := by
  let within (column : UInt8) : Effect Nat :=
    if column.toNat < image.ramGroups then return column.toNat
    else .fail (.outOfRange .ramColumn column.toNat image.ramGroups)
  have hknown (column : UInt8) (device : δ) :
      ((within column >>= next).run facade ⟨device, some column⟩).2 =
        ⟨facade.issue (instruction.columnRequests image column) device, some column⟩ := by
    unfold Instruction.columnRequests within
    split
    · exact hn column.toNat device (some column)
    · rfl
  obtain ⟨device, column | column⟩ := bench
  · let strap := facade.ramStrap device
    let found : Effect UInt8 :=
      ofImage (image.ramColumn strap.1) >>= fun column => .setColumn column (.done column)
    have hlookup : (ramColumn image >>= next).run facade ⟨device, none⟩ =
        ((found >>= within) >>= next).run facade ⟨strap.2, none⟩ := rfl
    rw [hlookup, Instruction.behindColumn]
    unfold found
    cases image.ramColumn strap.1 with
    | error cause => rfl
    | ok column => exact hknown column strap.2
  · exact hknown column device

theorem run_ramColumn_of_le (next : Nat → Effect Unit) {column : UInt8}
    (hc : image.ramGroups ≤ column.toNat) (device : δ) :
    (ramColumn image >>= next).run facade ⟨device, some column⟩ =
      (.error (.outOfRange .ramColumn column.toNat image.ramGroups), ⟨device, some column⟩) := by
  have hknown : (ramColumn image >>= next).run facade ⟨device, some column⟩ =
      ((if column.toNat < image.ramGroups then return column.toNat
        else .fail (.outOfRange .ramColumn column.toNat image.ramGroups)) >>= next).run facade
          ⟨device, some column⟩ := rfl
  rw [hknown, if_neg (Nat.not_lt.mpr hc)]
  rfl

end Running

end RomScript
