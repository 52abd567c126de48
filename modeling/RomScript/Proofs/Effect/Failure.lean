import RomScript.Effect.Board
import RomScript.Effect.Clocks
import RomScript.Effect.Ports
import RomScript.Effect.Registers
import RomScript.Proofs.Device.Replay

/-!
# What failures leave

An effect that fails leaves what it did before. Most effects that can fail have only read from
the device by then, or asked for a transfer that failed, or set a clock; such calls change
nothing that a device holds. Two effects write as they go along their tables: the writes of a
group, and the sequence that brings up the memory.
-/

set_option autoImplicit false

namespace RomScript

/-- Changes nothing that a device holds. -/
def Call.isIdle : Call → Bool
  | .readReg .. | .readIndexed .. | .readPort .. | .i2cWriteRead .. | .auxRead ..
  | .programPll .. | .programPllId .. => true
  | .i2cWrite _ _ _ ok | .auxWrite _ _ _ ok => !ok
  | _ => false

def Exchange.IsIdle (exchange : Exchange) : Prop :=
  ∀ call, exchange.call? = some call → call.isIdle = true

namespace Effect

variable {α β δ : Type}

def calls (facade : Facade δ) : Effect α → Bench δ → List Call
  | .done _, _ => []
  | .fail _, _ => []
  | .ask request next, ⟨device, column⟩ =>
    let answered := facade.answer request device
    (Exchange.call? ⟨request, answered.1⟩).toList ++
      (next answered.1).calls facade ⟨answered.2, column⟩
  | .getColumn next, bench => (next bench.column).calls facade bench
  | .setColumn column next, ⟨device, _⟩ => next.calls facade ⟨device, some column⟩

theorem calls_bind (facade : Facade δ) (effect : Effect α) (next : α → Effect β)
    (bench : Bench δ) :
    (effect >>= next).calls facade bench = effect.calls facade bench ++
      match effect.run facade bench with
      | (.ok value, after) => (next value).calls facade after
      | (.error _, _) => [] := by
  induction effect generalizing bench with
  | done | fail => rfl
  | ask request rest ih =>
    simp only [calls, List.append_assoc]
    exact congrArg _ (ih _ _)
  | getColumn rest ih => exact ih _ _
  | setColumn column rest ih => exact ih _

/-! ## Kinds of effects -/

def Total : Effect α → Prop
  | .done _ => True
  | .fail _ => False
  | .ask _ next => ∀ answer, (next answer).Total
  | .getColumn next => ∀ column, (next column).Total
  | .setColumn _ next => next.Total

def Idle : Effect α → Prop
  | .done _ | .fail _ => True
  | .ask request next => ∀ answer, Exchange.IsIdle ⟨request, answer⟩ ∧ (next answer).Idle
  | .getColumn next => ∀ column, (next column).Idle
  | .setColumn _ next => next.Idle

/-- Whatever the answers, all calls are idle if the effect fails. -/
def FailsIdly : Effect α → Prop
  | .done _ | .fail _ => True
  | .ask request next => ∀ answer,
    (next answer).Total ∨ Exchange.IsIdle ⟨request, answer⟩ ∧ (next answer).FailsIdly
  | .getColumn next => ∀ column, (next column).FailsIdly
  | .setColumn _ next => next.FailsIdly

section Kinds

variable {effect : Effect α} {next : α → Effect β}

theorem Total.failsIdly (h : effect.Total) : effect.FailsIdly := by
  induction effect with
  | done value => trivial
  | fail cause => trivial
  | ask request rest ih => exact fun answer => .inl (h answer)
  | getColumn rest ih => exact fun column => ih column (h column)
  | setColumn column rest ih => exact ih h

theorem Idle.failsIdly (h : effect.Idle) : effect.FailsIdly := by
  induction effect with
  | done value => trivial
  | fail cause => trivial
  | ask request rest ih => exact fun answer => .inr ⟨(h answer).1, ih answer (h answer).2⟩
  | getColumn rest ih => exact fun column => ih column (h column)
  | setColumn column rest ih => exact ih h

theorem total_bind (h : effect.Total) (hn : ∀ value, (next value).Total) :
    (effect >>= next).Total := by
  induction effect with
  | done value => exact hn value
  | fail cause => exact h.elim
  | ask request rest ih => exact fun answer => ih answer (h answer)
  | getColumn rest ih => exact fun column => ih column (h column)
  | setColumn column rest ih => exact ih h

theorem idle_bind (h : effect.Idle) (hn : ∀ value, (next value).Idle) :
    (effect >>= next).Idle := by
  induction effect with
  | done value => exact hn value
  | fail cause => trivial
  | ask request rest ih => exact fun answer => ⟨(h answer).1, ih answer (h answer).2⟩
  | getColumn rest ih => exact fun column => ih column (h column)
  | setColumn column rest ih => exact ih h

/-- Behind idle calls an effect may do what fails idly. -/
theorem failsIdly_bind (h : effect.Idle) (hn : ∀ value, (next value).FailsIdly) :
    (effect >>= next).FailsIdly := by
  induction effect with
  | done value => exact hn value
  | fail cause => trivial
  | ask request rest ih => exact fun answer => .inr ⟨(h answer).1, ih answer (h answer).2⟩
  | getColumn rest ih => exact fun column => ih column (h column)
  | setColumn column rest ih => exact ih h

theorem total_request (request : Request) : (Effect.request request).Total := fun _ => trivial

theorem idle_request {request : Request} (h : ∀ answer, Exchange.IsIdle ⟨request, answer⟩) :
    (Effect.request request).Idle := fun answer => ⟨h answer, trivial⟩

theorem idle_ofExcept {ε : Type} (wrap : ε → InstructionError) (value : Except ε α) :
    (ofExcept wrap value).Idle := by
  cases value <;> trivial

theorem total_forM {items : List α} {f : α → Effect PUnit} (h : ∀ item, (f item).Total) :
    (items.forM f).Total := by
  induction items with
  | nil => trivial
  | cons item rest ih => exact total_bind (h item) fun _ => ih

theorem total_filterMapM {items : List α} {f : α → Effect (Option β)}
    (h : ∀ item, (f item).Total) : (items.filterMapM f).Total := by
  induction items with
  | nil => trivial
  | cons item rest ih =>
    rw [List.filterMapM_cons]
    apply total_bind (h item)
    intro result
    cases result with
    | none => exact ih
    | some value => exact total_bind ih fun _ => trivial

end Kinds

/-! ## Running -/

section Running

variable (facade : Facade δ) {effect : Effect α} (bench : Bench δ)

theorem run_of_total (h : effect.Total) :
    ∃ value after, effect.run facade bench = (.ok value, after) := by
  induction effect generalizing bench with
  | done value => exact ⟨value, bench, rfl⟩
  | fail cause => exact h.elim
  | ask request rest ih => exact ih _ _ (h _)
  | getColumn rest ih => exact ih _ bench (h _)
  | setColumn column rest ih => exact ih _ h

theorem calls_of_failsIdly (h : effect.FailsIdly) {cause : InstructionError} {after : Bench δ}
    (hr : effect.run facade bench = (.error cause, after)) :
    ∀ call ∈ effect.calls facade bench, call.isIdle = true := by
  induction effect generalizing bench with
  | done value => nofun
  | fail cause => nofun
  | ask request rest ih =>
    -- behind a call that is not idle nothing fails
    rcases h (facade.answer request bench.device).1 with ht | ⟨hi, hf⟩
    · obtain ⟨value, ended, ho⟩ := run_of_total facade
        ⟨(facade.answer request bench.device).2, bench.column⟩ ht
      cases ho.symm.trans hr
    · simp only [calls, List.forall_mem_append]
      exact ⟨fun call hc => hi call (Option.mem_toList.mp hc), ih _ _ hf hr⟩
  | getColumn rest ih => exact ih _ bench (h _) hr
  | setColumn column rest ih => exact ih _ h hr

end Running

/-! ## Requests -/

section Requests

theorem idle_readReg (reg : UInt32) : (readReg reg).Idle :=
  idle_request fun _ _ h => by cases h; rfl

theorem idle_readIndexed (port : UInt16) (index : UInt8) : (readIndexed port index).Idle :=
  idle_request fun _ _ h => by cases h; rfl

theorem idle_programPll (reg khz : UInt32) : (programPll reg khz).Idle :=
  idle_request fun _ _ h => by cases h; rfl

theorem idle_programPllId (id : UInt8) (khz : UInt32) : (programPllId id khz).Idle :=
  idle_request fun _ _ h => by cases h; rfl

theorem idle_tmdsRegister (link : UInt8) (output : Output) : (tmdsRegister link output).Idle :=
  idle_request nofun

theorem idle_portSelector (field : PortField) : (portSelector field).Idle :=
  idle_bind (idle_readIndexed field.port field.index) fun _ => trivial

theorem idle_select (operand : BoundedOperand) (values : List α) (position : Nat) :
    (select operand values position).Idle := by
  unfold select
  cases values[position]? <;> trivial

theorem idle_selectByPort (field : PortField) (values : List α) :
    (selectByPort field values).Idle :=
  idle_bind (idle_portSelector field) fun position => idle_select .portSelector values position

theorem idle_boardColumn (image : Image) : (boardColumn image).Idle := by
  intro column
  cases column with
  | some column => trivial
  | none =>
    apply idle_bind (idle_readReg strapsReg)
    intro straps
    exact idle_bind (idle_ofExcept .image _) fun column => trivial

theorem idle_ramColumn (image : Image) : (ramColumn image).Idle := by
  apply idle_bind (idle_boardColumn image)
  intro column
  by_cases h : column.toNat < image.ramGroups
  · rw [if_pos h]
    trivial
  · rw [if_neg h]
    trivial

theorem idle_portFlagMet (image : Image) (index : UInt8) : (portFlagMet image index).Idle := by
  apply idle_bind (idle_ofExcept .image _)
  intro entry
  apply idle_bind (idle_portSelector entry.field)
  intro position
  exact idle_bind (idle_ofExcept .image _) fun flags => trivial

theorem idle_setPll (reg khz : UInt32) : (setPll reg khz).Idle :=
  idle_bind (idle_programPll reg khz) fun answer => idle_ofExcept .pll answer

theorem total_updateReg (reg : UInt32) (change : UInt32 → UInt32) :
    (updateReg reg change).Total :=
  total_bind (total_request _) fun _ => total_request _

theorem total_updateIndexed (port : UInt16) (index : UInt8) (change : UInt8 → UInt8) :
    (updateIndexed port index change).Total :=
  total_bind (total_request _) fun _ => total_request _

theorem total_writeRegs (stride reg : UInt32) (values : List UInt32) :
    (writeRegs stride reg values).Total := by
  induction values generalizing reg with
  | nil => trivial
  | cons value rest ih => exact total_bind (total_request _) fun _ => ih (reg + stride)

theorem total_writeLatchedBytes (addressIndex dataIndex address : UInt8) (bytes : List UInt8) :
    (writeLatchedBytes addressIndex dataIndex address bytes).Total := by
  induction bytes generalizing address with
  | nil => trivial
  | cons byte rest ih =>
    exact total_bind (total_request _) fun _ => total_bind (total_request _) fun _ =>
      ih (address + 1)

end Requests

end Effect

open Effect

theorem PortOp.total_run (output : Output) (op : PortOp) : (op.run output).Total := by
  cases op with
  | io port mask data => exact total_bind (total_request _) fun _ => total_request _
  | zmIndexIo port index data => exact total_request _
  | zmCr index data => exact total_request _
  | zmCrGroup writes => exact total_forM fun _ => total_request _
  | crIndexAddressLatched index1 index2 base data =>
    apply total_bind (total_request _)
    intro saved
    exact total_bind (total_writeLatchedBytes index1 index2 base data) fun _ => total_request _
  | copy reg shift srcMask port index mask =>
    exact total_bind (total_request _) fun source => total_updateIndexed port index _
  | indexIo | cr | ioMaskOr | ioOr => exact total_updateIndexed _ _ _

theorem ClockOp.failsIdly_run (image : Image) (op : ClockOp) : (op.run image).FailsIdly := by
  cases op with
  | pll reg tensOfKhz => exact (idle_setPll reg _).failsIdly
  | pll2 reg khz => exact (idle_setPll reg khz).failsIdly
  | ioRestrictPll field flagCondition reg tensOfKhz =>
    have hdoubled : (isDoubled image flagCondition).Idle := by
      unfold isDoubled
      by_cases h : flagCondition = 0
      · rw [if_pos h]
        trivial
      · rw [if_neg h]
        exact idle_portFlagMet image flagCondition
    apply Idle.failsIdly
    apply idle_bind (idle_selectByPort field tensOfKhz)
    intro tens
    exact idle_bind hdoubled fun doubled => idle_setPll reg _
  | ioRestrictPll2 field reg khz =>
    exact (idle_bind (idle_selectByPort field khz) fun khz => idle_setPll reg khz).failsIdly
  | ramRestrictPll id khz =>
    apply Idle.failsIdly
    apply idle_bind (idle_ramColumn image)
    intro column
    apply idle_bind (idle_select .ramColumn khz column)
    intro khz
    exact idle_bind (idle_programPllId id khz) fun answer => idle_ofExcept .pll answer
  | time micros =>
    simp only [run]
    split
    · exact (total_request _).failsIdly
    · exact (total_request _).failsIdly
  | ltime millis => exact (total_request _).failsIdly

theorem BusOp.failsIdly_run (output : Output) (op : BusOp) : (op.run output).FailsIdly := by
  have hfetch (bus addr : UInt8) (message : List UInt8) : (i2cFetch bus addr message).Total :=
    total_bind (total_request _) fun _ => trivial
  have hlink (link : UInt8) : (linkRegister link output).Idle := by
    apply idle_bind (idle_tmdsRegister link output)
    intro reg
    cases reg <;> trivial
  cases op with
  | i2cByte target writes =>
    apply Total.failsIdly
    apply total_filterMapM
    intro write
    refine total_bind (total_bind (hfetch _ _ _) fun answer => ?_) fun _ => trivial
    cases answer with
    | error cause => trivial
    | ok value => exact total_request _
  | zmI2cByte target writes =>
    apply Total.failsIdly
    apply total_filterMapM
    intro write
    exact total_bind (total_request _) fun _ => trivial
  | zmI2c target data =>
    intro answer
    cases answer with
    | ok _ => exact .inl trivial
    | error cause => exact .inr ⟨fun call h => by cases h; rfl, trivial⟩
  | auxch addr writes =>
    apply Total.failsIdly
    apply total_filterMapM
    intro write
    refine total_bind (total_bind (total_bind (total_request _) fun _ => trivial) fun answer => ?_)
      fun _ => trivial
    cases answer with
    | error cause => trivial
    | ok value => exact total_request _
  | zmAuxch addr data =>
    apply Total.failsIdly
    apply total_filterMapM
    intro byte
    exact total_bind (total_request _) fun _ => trivial
  | tmds link addr mask data =>
    apply failsIdly_bind (hlink link)
    intro reg
    apply Total.failsIdly
    apply total_bind (total_request _)
    intro _
    apply total_bind (total_request _)
    intro value
    apply total_bind (total_request _)
    intro _
    exact total_bind (total_request _) fun _ => trivial
  | zmTmdsGroup link writes =>
    apply failsIdly_bind (hlink link)
    intro reg
    apply Total.failsIdly
    refine total_bind (total_forM fun write => ?_) fun _ => trivial
    exact total_bind (total_request _) fun _ => total_request _

namespace RegisterOp

theorem failsIdly_run (image : Image) (op : RegisterOp) (h : op.opcode ≠ .macroGroup) :
    (op.run image).FailsIdly := by
  cases op with
  | zmReg | zmReg16 => exact (total_request _).failsIdly
  | nvReg | andnReg | orReg | zmMaskAdd => exact (total_updateReg _ _).failsIdly
  | zmRegSequence | zmRegGroup => exact (total_writeRegs _ _ _).failsIdly
  | zmRegIndirect reg pointer =>
    exact failsIdly_bind (idle_ofExcept .image _) fun value => (total_request _).failsIdly
  | copyZmReg src dst =>
    apply Total.failsIdly
    exact total_bind (total_request _) fun value => total_request _
  | copyNvReg src shift srcMask xor dst dstMask =>
    exact (total_bind (total_request _) fun source => total_updateReg dst _).failsIdly
  | xlat src shift srcMask index dst dstMask dstShift =>
    apply failsIdly_bind (idle_readReg src)
    intro source
    exact failsIdly_bind (idle_ofExcept .image _) fun byte => (total_updateReg dst _).failsIdly
  | indexAddressLatched ctrlReg dataReg ctrlMask ctrlData pairs =>
    apply Total.failsIdly
    apply total_forM
    intro pair
    exact total_bind (total_request _) fun _ => total_updateReg ctrlReg _
  | reset reg value1 value2 =>
    apply Total.failsIdly
    apply total_bind (total_request _)
    intro saved
    apply total_bind (total_request _)
    intro _
    apply total_bind (total_request _)
    intro _
    apply total_bind (total_request _)
    intro _
    apply total_bind (total_request _)
    intro _
    exact total_bind (total_request _) fun _ => total_updateReg _ _
  | macroGroup index => exact absurd rfl h
  | ramRestrictZmRegGroup reg increment count values =>
    exact failsIdly_bind (idle_ramColumn image) fun column => (total_writeRegs _ _ _).failsIdly
  | ioRestrictProg field reg values =>
    exact failsIdly_bind (idle_selectByPort field values) fun value => (total_request _).failsIdly

/-- The writes of a group from an entry on, up to the first one that is not in the image. -/
def entryCalls (image : Image) : Nat → Nat → List Call
  | _, 0 => []
  | index, count + 1 =>
    match image.macroEntry index with
    | .error _ => []
    | .ok entry => .writeReg entry.reg entry.value :: entryCalls image (index + 1) count

def groupCalls (image : Image) (index : UInt8) : List Call :=
  if image.directory.contains .macroIndex then
    match image.macroRange index with
    | .error _ => []
    | .ok range => entryCalls image range.1.toNat range.2.toNat
  else entryCalls image index.toNat 1

variable {δ : Type} (facade : Facade δ) (image : Image)

theorem calls_entries (index count : Nat) (bench : Bench δ) :
    ((List.range' index count).forM (writeGroupEntry image)).calls facade bench =
      entryCalls image index count := by
  induction count generalizing index bench with
  | zero => rfl
  | succ count ih =>
    show (writeGroupEntry image index >>= fun _ =>
      (List.range' (index + 1) count).forM (writeGroupEntry image)).calls facade bench = _
    rw [calls_bind, entryCalls]
    unfold writeGroupEntry
    cases image.macroEntry index with
    | error cause => rfl
    | ok entry => exact congrArg (List.cons _) (ih (index + 1) _)

theorem calls_group (index : UInt8) (bench : Bench δ) :
    ((RegisterOp.macroGroup index).run image).calls facade bench = groupCalls image index := by
  simp only [run, groupRange, groupCalls]
  by_cases h : image.directory.contains .macroIndex
  · rw [if_pos h, if_pos h]
    cases image.macroRange index with
    | error cause => rfl
    | ok range => exact calls_entries facade image range.1.toNat range.2.toNat bench
  · rw [if_neg h, if_neg h]
    exact calls_entries facade image index.toNat 1 bench

theorem entryCalls_idle_iff (index count : Nat) :
    (∀ call ∈ entryCalls image index count, call.isIdle = true) ↔
      ¬(count ≠ 0 ∧ ∃ entry, image.macroEntry index = .ok entry) := by
  cases count with
  | zero => simp [entryCalls]
  | succ count =>
    unfold entryCalls
    cases image.macroEntry index with
    | error cause => simp
    | ok entry =>
      refine iff_of_false (fun h => ?_) (by simp)
      cases h (.writeReg entry.reg entry.value) List.mem_cons_self

theorem macroRange_of_not_contains {index : UInt8}
    (h : ¬image.directory.contains .macroIndex = true) :
    image.macroRange index = .error (.missingTable .macroIndex) := by
  have hnone : image.directory.get? .macroIndex = none := by
    simpa [Directory.contains, OrderedMap.contains, Directory.get?] using h
  simp only [Image.macroRange, Image.entryOffset, Image.table, hnone]
  rfl

/-- Behind a failure of a group there are writes exactly if its first entry is in the image. -/
theorem groupCalls_idle_iff {index : UInt8} {bench after : Bench δ} {cause : InstructionError}
    (h : ((RegisterOp.macroGroup index).run image).run facade bench = (.error cause, after)) :
    (∀ call ∈ groupCalls image index, call.isIdle = true) ↔
      ¬∃ range entry, image.macroRange index = .ok range ∧ range.2 ≠ 0 ∧
        image.macroEntry range.1.toNat = .ok entry := by
  unfold groupCalls
  by_cases hc : image.directory.contains .macroIndex
  · rw [if_pos hc]
    cases image.macroRange index with
    | error cause => simp
    | ok range =>
      have hcount : range.2.toNat ≠ 0 ↔ range.2 ≠ 0 := by simp [← UInt8.toNat_inj]
      simp [entryCalls_idle_iff, ← hcount]
  · rw [if_neg hc]
    -- without a table of groups a group is one entry, and only that can fail
    have hentry : ¬∃ entry, image.macroEntry index.toNat = .ok entry := by
      rintro ⟨entry, he⟩
      have hok : (((RegisterOp.macroGroup index).run image).run facade bench).1 = .ok () := by
        simp only [run, groupRange, if_neg hc]
        show ((writeGroupEntry image index.toNat >>= fun _ => .done ()).run facade bench).1 = .ok ()
        unfold writeGroupEntry
        rw [he]
        rfl
      rw [h] at hok
      cases hok
    rw [entryCalls_idle_iff, macroRange_of_not_contains image hc]
    simp [hentry]

end RegisterOp

namespace BoardOp

theorem failsIdly_run (image : Image) (op : BoardOp) (h : op.opcode ≠ .configureMem) :
    (op.run image).FailsIdly := by
  cases op with
  | computeMem | gpio | gpioNe => exact (total_request _).failsIdly
  | configurePreinit =>
    apply Total.failsIdly
    exact total_bind (total_request _) fun straps => total_request _
  | configureMem => exact absurd rfl h
  | configureClk =>
    have hentry : (memoryEntry image).Idle :=
      idle_bind (idle_readIndexed crtcPort memoryIndex) fun value => idle_ofExcept .image _
    apply Idle.failsIdly
    apply idle_bind hentry
    intro entry
    apply idle_bind (idle_programPll coreClockReg _)
    intro core
    apply idle_bind (idle_programPll memoryClockReg _)
    intro memory
    exact idle_bind (idle_ofExcept .pll core) fun _ => idle_ofExcept .pll memory

/-- The registers of a sequence that are set to one and take no data word. -/
def strobes : List UInt32 := [0x10021c, 0x1002d0, 0x1002d4]

theorem isStrobe_iff_mem {reg : UInt32} : isStrobe reg = true ↔ reg ∈ strobes := by
  simp only [isStrobe, strobes, Bool.or_eq_true, beq_iff_eq, List.mem_cons, List.not_mem_nil,
    or_false, or_assoc]

/-- The writes of a sequence of registers, up to the first data word outside the image. -/
def sequenceCalls (image : Image) : List UInt32 → Nat → List Call
  | [], _ => []
  | reg :: rest, offset =>
    if reg ∈ strobes then .writeReg reg 1 :: sequenceCalls image rest offset
    else
      match image.dword offset with
      | .error _ => []
      | .ok value =>
        if value = 0xffffffff then sequenceCalls image rest (offset + 4)
        else .writeReg reg value :: sequenceCalls image rest (offset + 4)

variable {δ : Type} (facade : Facade δ) (image : Image)

def memoryCalls (device : δ) : List Call :=
  let index := facade.answer (.readIndexed 0x3d4 0x3c) device
  .readIndexed 0x3d4 0x3c index.1 ::
    match image.memInitEntry (index.1 >>> 4) with
    | .error _ => []
    | .ok entry =>
      let mode := (facade.answer (.readIndexed 0x3c4 1) index.2).1
      .readIndexed 0x3c4 1 mode :: .writeIndexed 0x3c4 1 (mode ||| 0x20) ::
        match image.sequenceRegisters entry.isDdr with
        | .error _ => []
        | .ok regs => sequenceCalls image regs entry.dataOffset

theorem calls_sequence (regs : List UInt32) (offset : Nat) (bench : Bench δ) :
    (writeSequence image regs offset).calls facade bench = sequenceCalls image regs offset := by
  induction regs generalizing offset bench with
  | nil => rfl
  | cons reg rest ih =>
    unfold writeSequence sequenceCalls
    by_cases hs : reg ∈ strobes
    · rw [if_pos (isStrobe_iff_mem.mpr hs), if_pos hs]
      exact congrArg (List.cons _) (ih offset _)
    · rw [if_neg (mt isStrobe_iff_mem.mp hs), if_neg hs]
      cases image.dword offset with
      | error cause => rfl
      | ok value =>
        show (if value = 0xffffffff then writeSequence image rest (offset + 4)
          else writeReg reg value >>= fun _ =>
            writeSequence image rest (offset + 4)).calls facade bench = _
        by_cases hv : value = 0xffffffff
        · simp only [if_pos hv]
          exact ih (offset + 4) _
        · simp only [if_neg hv]
          exact congrArg (List.cons _) (ih (offset + 4) _)

theorem calls_configureMem (bench : Bench δ) :
    (configureMem.run image).calls facade bench = memoryCalls facade image bench.device := by
  let index := facade.answer (.readIndexed 0x3d4 0x3c) bench.device
  let bringUp (entry : MemInitEntry) : Effect Unit := do
    let mode ← readIndexed sequencerPort 1
    writeIndexed sequencerPort 1 (mode ||| 0x20)
    let regs ← ofImage (image.sequenceRegisters entry.isDdr)
    writeSequence image regs entry.dataOffset
  have hsplit : (configureMem.run image).calls facade bench =
      .readIndexed 0x3d4 0x3c index.1 ::
        (ofImage (image.memInitEntry (index.1 >>> 4)) >>= bringUp).calls facade
          ⟨index.2, bench.column⟩ := rfl
  rw [hsplit]
  apply congrArg (List.cons _)
  cases image.memInitEntry (index.1 >>> 4) with
  | error cause => rfl
  | ok entry =>
    apply congrArg (List.cons _)
    apply congrArg (List.cons _)
    cases image.sequenceRegisters entry.isDdr with
    | error cause => rfl
    | ok regs => exact calls_sequence facade image regs entry.dataOffset _

/-- There is a write exactly if the board has an entry in the image. -/
theorem memoryCalls_idle_iff (device : δ) :
    (∀ call ∈ memoryCalls facade image device, call.isIdle = true) ↔
      ¬∃ entry, image.memInitEntry
        ((facade.answer (.readIndexed 0x3d4 0x3c) device).1 >>> 4) = .ok entry := by
  cases he : image.memInitEntry
    ((facade.answer (.readIndexed 0x3d4 0x3c) device).1 >>> 4) with
  | error cause => simp [memoryCalls, he, Call.isIdle]
  | ok entry =>
    refine iff_of_false (fun h => ?_) (by simp)
    simp only [memoryCalls, he] at h
    cases h _ (List.mem_cons_of_mem _ (List.mem_cons_of_mem _ List.mem_cons_self))

end BoardOp

namespace SimulatedDevice

theorem calls_run {α : Type} (effect : Effect α) (bench : Bench SimulatedDevice) :
    (effect.run facade bench).2.device.calls.toList =
      bench.device.calls.toList ++ effect.calls facade bench := by
  induction effect generalizing bench with
  | done | fail => exact (List.append_nil _).symm
  | ask request next ih =>
    refine (ih _ _).trans ?_
    rw [calls_answer, List.append_assoc]
    rfl
  | getColumn next ih => exact ih _ bench
  | setColumn column next ih => exact ih ⟨bench.device, some column⟩

theorem contents_of_idle {request : Request} {device : SimulatedDevice}
    (h : Exchange.IsIdle ⟨request, (facade.answer request device).1⟩) :
    (facade.answer request device).2.contents = device.contents := by
  cases request with
  | readReg | readIndexed | readPort | programPllId | tmdsRegister => rfl
  | i2cWriteRead bus addr message buffer =>
    exact contents_i2cWriteRead device bus addr message buffer
  | auxRead bus addr buffer => exact contents_auxRead device bus addr buffer
  | i2cWrite bus addr message => exact contents_i2cWrite_of_failed (h _ rfl)
  | auxWrite bus addr data => exact contents_auxWrite_of_failed (h _ rfl)
  | programPll reg khz =>
    simp only [facade, programPll]
    split <;> rfl
  | writeReg | writeIndexed | writePort | sleepMicros | sleepMillis | computeMemory
  | resetGpios => cases h _ rfl

theorem contents_of_idle_calls {α : Type} (effect : Effect α) (bench : Bench SimulatedDevice)
    (h : ∀ call ∈ effect.calls facade bench, call.isIdle = true) :
    (effect.run facade bench).2.device.contents = bench.device.contents := by
  induction effect generalizing bench with
  | done | fail => rfl
  | ask request next ih =>
    simp only [Effect.calls, List.forall_mem_append] at h
    have hidle : Exchange.IsIdle ⟨request, (facade.answer request bench.device).1⟩ :=
      fun call hc => h.1 call (Option.mem_toList.mpr hc)
    exact (ih _ _ h.2).trans (contents_of_idle hidle)
  | getColumn next ih => exact ih _ bench h
  | setColumn column next ih => exact ih ⟨bench.device, some column⟩ h

end SimulatedDevice

end RomScript
