import RomScript.Proofs.Image.Spelling
import RomScript.Proofs.Instruction.Extent

/-!
# The bytes of an instruction

An encoder is written next to the decoder: the opcode byte and behind it the operands in the
order in which they are stored, with the count of a tail taken from its length. Decoding and
encoding are inverse to each other wherever the decoder succeeds. A count that is multiplied
by the group count of the image is an operand of its own, since without groups the tail no
longer tells it.
-/

set_option autoImplicit false

namespace RomScript

def PortField.bytes (field : PortField) : List UInt8 :=
  wordBytes field.port ++ [field.index, field.mask, field.shift]

def BusAddress.bytes (target : BusAddress) : List UInt8 := [target.bus, target.addr]

def BytePair.bytes (pair : BytePair) : List UInt8 := [pair.target, pair.data]

def MaskedByte.bytes (write : MaskedByte) : List UInt8 := [write.mask, write.data]

def MaskedWrite.bytes (write : MaskedWrite) : List UInt8 := [write.target, write.mask, write.data]

/-- The count of a tail, which has to be below 256. -/
def countByte {α : Type} (items : List α) : UInt8 := UInt8.ofNat items.length

/-! ## The operands of an instruction, in the order in which they are stored -/

def Control.bytes : Control → List UInt8
  | .repeatBlock count => [count]
  | .jump target | .subDirect target => wordBytes target
  | .sub index => [index]
  | .endRepeat | .negate | .resume | .done | .reserved _ => []

def Condition.bytes : Condition → List UInt8
  | .register index | .port index | .portFlag index => [index]
  | .displayPort test size => [test, size]
  | .polled index retries => [index, retries]
  | .ramStatus mask value => [mask, value]
  | .straps mask value => dwordBytes mask ++ dwordBytes value
  | .i2c target reg mask data => target.bytes ++ [reg, mask, data]
  | .i2cLong target regLow regHigh mask data => target.bytes ++ [regLow, regHigh, mask, data]

def RegisterOp.bytes : RegisterOp → List UInt8
  | .zmReg reg value => dwordBytes reg ++ dwordBytes value
  | .zmReg16 reg data => dwordBytes reg ++ wordBytes data
  | .nvReg reg mask data => dwordBytes reg ++ dwordBytes mask ++ dwordBytes data
  | .andnReg reg mask => dwordBytes reg ++ dwordBytes mask
  | .orReg reg mask => dwordBytes reg ++ dwordBytes mask
  | .zmRegSequence base values =>
    dwordBytes base ++ [countByte values] ++ values.flatMap dwordBytes
  | .zmRegGroup reg values => dwordBytes reg ++ [countByte values] ++ values.flatMap dwordBytes
  | .zmRegIndirect reg pointer => dwordBytes reg ++ wordBytes pointer
  | .copyZmReg src dst => dwordBytes src ++ dwordBytes dst
  | .copyNvReg src shift srcMask xor dst dstMask =>
    dwordBytes src ++ [shift] ++ dwordBytes srcMask ++ dwordBytes xor ++ dwordBytes dst ++
      dwordBytes dstMask
  | .zmMaskAdd reg mask add => dwordBytes reg ++ dwordBytes mask ++ dwordBytes add
  | .xlat src shift srcMask index dst dstMask dstShift =>
    dwordBytes src ++ [shift, srcMask, index] ++ dwordBytes dst ++ dwordBytes dstMask ++ [dstShift]
  | .indexAddressLatched ctrlReg dataReg ctrlMask ctrlData pairs =>
    dwordBytes ctrlReg ++ dwordBytes dataReg ++ dwordBytes ctrlMask ++ dwordBytes ctrlData ++
      [countByte pairs] ++ pairs.flatMap BytePair.bytes
  | .reset reg value1 value2 => dwordBytes reg ++ dwordBytes value1 ++ dwordBytes value2
  | .macroGroup index => [index]
  | .ramRestrictZmRegGroup reg increment count values =>
    dwordBytes reg ++ [increment, count] ++ values.flatMap dwordBytes
  | .ioRestrictProg field reg values =>
    field.bytes ++ [countByte values] ++ dwordBytes reg ++ values.flatMap dwordBytes

def PortOp.bytes : PortOp → List UInt8
  | .io port mask data => wordBytes port ++ [mask, data]
  | .indexIo port index mask data => wordBytes port ++ [index, mask, data]
  | .zmIndexIo port index data => wordBytes port ++ [index, data]
  | .cr index mask data => [index, mask, data]
  | .zmCr index data => [index, data]
  | .zmCrGroup writes => [countByte writes] ++ writes.flatMap BytePair.bytes
  | .crIndexAddressLatched index1 index2 base data =>
    [index1, index2, base, countByte data] ++ data
  | .ioMaskOr index | .ioOr index => [index]
  | .copy reg shift srcMask port index mask =>
    dwordBytes reg ++ [shift, srcMask] ++ wordBytes port ++ [index, mask]

def ClockOp.bytes : ClockOp → List UInt8
  | .pll reg tensOfKhz => dwordBytes reg ++ wordBytes tensOfKhz
  | .pll2 reg khz => dwordBytes reg ++ dwordBytes khz
  | .ioRestrictPll field flagCondition reg tensOfKhz =>
    field.bytes ++ [flagCondition, countByte tensOfKhz] ++ dwordBytes reg ++
      tensOfKhz.flatMap wordBytes
  | .ioRestrictPll2 field reg khz =>
    field.bytes ++ [countByte khz] ++ dwordBytes reg ++ khz.flatMap dwordBytes
  | .ramRestrictPll id khz => [id] ++ khz.flatMap dwordBytes
  | .time micros => wordBytes micros
  | .ltime millis => wordBytes millis

def BusOp.bytes : BusOp → List UInt8
  | .i2cByte target writes =>
    target.bytes ++ [countByte writes] ++ writes.flatMap MaskedWrite.bytes
  | .zmI2cByte target writes =>
    target.bytes ++ [countByte writes] ++ writes.flatMap BytePair.bytes
  | .zmI2c target data => target.bytes ++ [countByte data] ++ data
  | .auxch addr writes => dwordBytes addr ++ [countByte writes] ++ writes.flatMap MaskedByte.bytes
  | .zmAuxch addr data => dwordBytes addr ++ [countByte data] ++ data
  | .tmds link addr mask data => [link, addr, mask, data]
  | .zmTmdsGroup link writes => [link, countByte writes] ++ writes.flatMap BytePair.bytes

def BoardOp.bytes : BoardOp → List UInt8
  | .gpioNe functions => [countByte functions] ++ functions
  | .computeMem | .gpio | .configureMem | .configureClk | .configurePreinit => []

namespace Instruction

def operandBytes : Instruction → List UInt8
  | .control op => op.bytes
  | .condition op => op.bytes
  | .register op => op.bytes
  | .port op => op.bytes
  | .clock op => op.bytes
  | .bus op => op.bytes
  | .board op => op.bytes

def bytes (instruction : Instruction) : List UInt8 :=
  instruction.opcode.id :: instruction.operandBytes

end Instruction

theorem length_flatMap_of_forall {α : Type} {write : α → List UInt8} {size : Nat}
    (h : ∀ item, (write item).length = size) (items : List α) :
    (items.flatMap write).length = items.length * size := by
  induction items with
  | nil => simp
  | cons item rest ih =>
    rw [List.flatMap_cons, List.length_append, h, ih, List.length_cons, Nat.succ_mul, Nat.add_comm]

theorem length_fieldBytes (field : PortField) : field.bytes.length = 5 := rfl

theorem length_addressBytes (target : BusAddress) : target.bytes.length = 2 := rfl

theorem length_pairBytes (pair : BytePair) : pair.bytes.length = 2 := rfl

theorem length_maskedByteBytes (write : MaskedByte) : write.bytes.length = 2 := rfl

theorem length_maskedWriteBytes (write : MaskedWrite) : write.bytes.length = 3 := rfl

theorem Instruction.length_bytes (instruction : Instruction) :
    instruction.bytes.length = instruction.size := by
  have hdwords := length_flatMap_of_forall length_dwordBytes
  have hwords := length_flatMap_of_forall length_wordBytes
  have hpairs := length_flatMap_of_forall length_pairBytes
  have hmasked := length_flatMap_of_forall length_maskedByteBytes
  have hwrites := length_flatMap_of_forall length_maskedWriteBytes
  -- without a tail both sizes are closed numbers
  cases instruction with
  | control op =>
    cases op with
    | reserved which => cases which <;> rfl
    | _ => rfl
  | condition op => cases op <;> rfl
  | register op =>
    cases op with
    | zmRegSequence | zmRegGroup | indexAddressLatched | ramRestrictZmRegGroup | ioRestrictProg =>
      simp [bytes, operandBytes, RegisterOp.bytes, PortField.bytes, size, opcode,
        RegisterOp.opcode, tailSize, RegisterOp.tailSize, hdwords, hpairs, Opcode.fixedSize,
        Opcode.row, Opcode.counted]
      omega
    | _ => rfl
  | port op =>
    cases op with
    | zmCrGroup | crIndexAddressLatched =>
      simp [bytes, operandBytes, PortOp.bytes, size, opcode, PortOp.opcode, tailSize,
        PortOp.tailSize, hpairs, Opcode.fixedSize, Opcode.row, Opcode.counted]
      omega
    | _ => rfl
  | clock op =>
    cases op with
    | ioRestrictPll | ioRestrictPll2 | ramRestrictPll =>
      simp [bytes, operandBytes, ClockOp.bytes, PortField.bytes, size, opcode, ClockOp.opcode,
        tailSize, ClockOp.tailSize, hdwords, hwords, Opcode.fixedSize, Opcode.row, Opcode.counted]
      omega
    | _ => rfl
  | bus op =>
    cases op with
    | tmds => rfl
    | _ =>
      simp [bytes, operandBytes, BusOp.bytes, BusAddress.bytes, size, opcode, BusOp.opcode,
        tailSize, BusOp.tailSize, hpairs, hmasked, hwrites, Opcode.fixedSize, Opcode.row,
        Opcode.counted]
      omega
  | board op =>
    cases op with
    | gpioNe functions =>
      simp [bytes, operandBytes, BoardOp.bytes, size, opcode, BoardOp.opcode, tailSize,
        BoardOp.tailSize, Opcode.fixedSize, Opcode.row, Opcode.counted]
      omega
    | _ => rfl

namespace OperandReader

variable (op : OperandReader) (distance count : Nat)

def Spells (bytes : List UInt8) : Prop := op.image.Spells (op.base + distance) bytes

@[simp] theorem spells_nil : op.Spells distance [] := trivial

@[simp] theorem spells_cons (b : UInt8) (rest : List UInt8) :
    op.Spells distance (b :: rest) ↔ op.byte distance = .ok b ∧ op.Spells (distance + 1) rest :=
  Iff.rfl

@[simp] theorem spells_append (bytes rest : List UInt8) :
    op.Spells distance (bytes ++ rest) ↔
      op.Spells distance bytes ∧ op.Spells (distance + bytes.length) rest := by
  unfold Spells
  rw [Image.spells_append, Nat.add_assoc]

@[simp] theorem spells_wordBytes (value : UInt16) :
    op.Spells distance (wordBytes value) ↔ op.word distance = .ok value :=
  Image.spells_wordBytes op.image _ value

@[simp] theorem spells_dwordBytes (value : UInt32) :
    op.Spells distance (dwordBytes value) ↔ op.dword distance = .ok value :=
  Image.spells_dwordBytes op.image _ value

theorem portField_eq_ok_iff (field : PortField) :
    op.portField = .ok field ↔ op.Spells 1 field.bytes := by
  obtain ⟨port, index, mask, shift⟩ := field
  simp only [portField, bind_eq_ok_iff, pure_eq_ok_iff, PortField.mk.injEq, PortField.bytes,
    spells_append, spells_wordBytes, length_wordBytes, spells_cons, spells_nil, and_true]
  constructor
  · rintro ⟨_, hport, _, hindex, _, hmask, _, hshift, rfl, rfl, rfl, rfl⟩
    exact ⟨hport, hindex, hmask, hshift⟩
  · rintro ⟨hport, hindex, hmask, hshift⟩
    exact ⟨_, hport, _, hindex, _, hmask, _, hshift, rfl, rfl, rfl, rfl⟩

theorem busAddress_eq_ok_iff (target : BusAddress) :
    op.busAddress = .ok target ↔ op.Spells 1 target.bytes := by
  obtain ⟨bus, addr⟩ := target
  simp [busAddress, bind_eq_ok_iff, BusAddress.bytes, -bind_pure_comp]

theorem spells_flatMap_iff {α : Type} {write : α → List UInt8} {size : Nat}
    {read : Nat → Except ImageError α} (hsize : ∀ item, (write item).length = size)
    (hread : ∀ distance item, read distance = .ok item ↔ op.Spells distance (write item))
    (items : List α) :
    (List.range items.length).mapM (fun i => read (distance + i * size)) = .ok items ↔
      op.Spells distance (items.flatMap write) := by
  induction items generalizing distance with
  | nil => simp [pure, Except.pure]
  | cons item rest ih =>
    have hnext (i : Nat) : distance + (i + 1) * size = distance + size + i * size := by
      rw [Nat.succ_mul]
      omega
    simp only [List.length_cons, List.range_succ_eq_map, List.mapM_cons, List.mapM_map,
      Function.comp_def, Nat.zero_mul, Nat.add_zero, Nat.succ_eq_add_one, hnext, bind_eq_ok_iff,
      pure_eq_ok_iff, List.cons.injEq, List.flatMap_cons, spells_append, hsize, ← ih, ← hread]
    constructor
    · rintro ⟨_, hi, _, hr, rfl, rfl⟩
      exact ⟨hi, hr⟩
    · rintro ⟨hi, hr⟩
      exact ⟨item, hi, rest, hr, rfl, rfl⟩

theorem dwords_eq_ok_iff (values : List UInt32) :
    op.dwords distance values.length = .ok values ↔
      op.Spells distance (values.flatMap dwordBytes) :=
  op.spells_flatMap_iff distance length_dwordBytes
    (fun distance value => (op.spells_dwordBytes distance value).symm) values

theorem words_eq_ok_iff (values : List UInt16) :
    op.words distance values.length = .ok values ↔
      op.Spells distance (values.flatMap wordBytes) :=
  op.spells_flatMap_iff distance length_wordBytes
    (fun distance value => (op.spells_wordBytes distance value).symm) values

theorem pairs_eq_ok_iff (pairs : List BytePair) :
    op.pairs distance pairs.length = .ok pairs ↔
      op.Spells distance (pairs.flatMap BytePair.bytes) := by
  have hread (distance : Nat) (pair : BytePair) :
      (do
        let target ← op.byte distance
        let data ← op.byte (distance + 1)
        return { target, data }) = Except.ok pair ↔ op.Spells distance pair.bytes := by
    obtain ⟨target, data⟩ := pair
    simp [bind_eq_ok_iff, BytePair.bytes, -bind_pure_comp]
  exact op.spells_flatMap_iff distance length_pairBytes hread pairs

theorem maskedBytes_eq_ok_iff (writes : List MaskedByte) :
    op.maskedBytes distance writes.length = .ok writes ↔
      op.Spells distance (writes.flatMap MaskedByte.bytes) := by
  have hread (distance : Nat) (write : MaskedByte) :
      (do
        let mask ← op.byte distance
        let data ← op.byte (distance + 1)
        return { mask, data }) = Except.ok write ↔ op.Spells distance write.bytes := by
    obtain ⟨mask, data⟩ := write
    simp [bind_eq_ok_iff, MaskedByte.bytes, -bind_pure_comp]
  exact op.spells_flatMap_iff distance length_maskedByteBytes hread writes

theorem maskedWrites_eq_ok_iff (writes : List MaskedWrite) :
    op.maskedWrites distance writes.length = .ok writes ↔
      op.Spells distance (writes.flatMap MaskedWrite.bytes) := by
  have hread (distance : Nat) (write : MaskedWrite) :
      (do
        let target ← op.byte distance
        let mask ← op.byte (distance + 1)
        let data ← op.byte (distance + 2)
        return { target, mask, data }) = Except.ok write ↔ op.Spells distance write.bytes := by
    obtain ⟨target, mask, data⟩ := write
    simp only [bind_eq_ok_iff, pure_eq_ok_iff, MaskedWrite.mk.injEq, MaskedWrite.bytes,
      spells_cons, spells_nil, and_true]
    constructor
    · rintro ⟨_, htarget, _, hmask, _, hdata, rfl, rfl, rfl⟩
      exact ⟨htarget, hmask, hdata⟩
    · rintro ⟨htarget, hmask, hdata⟩
      exact ⟨_, htarget, _, hmask, _, hdata, rfl, rfl, rfl⟩
  exact op.spells_flatMap_iff distance length_maskedWriteBytes hread writes

/-- Bytes are copied as a whole, which at the very end of the image needs their place too. -/
theorem bytes_eq_ok_iff {data : List UInt8} (h : op.base + distance ≤ op.image.length) :
    op.bytes distance data.length = .ok data ↔ op.Spells distance data :=
  (op.image.spells_iff_slice h).symm

theorem byte_of_count {α : Type} {items : List α} (h : op.count distance = .ok items.length) :
    op.byte distance = .ok (countByte items) := by
  obtain ⟨b, hb, hn⟩ := map_eq_ok_iff.mp h
  rw [hb, countByte, ← hn, UInt8.ofNat_toNat]

theorem spells_of_instruction (op : OperandReader) (opcode : Opcode) :
    ∀ instruction, op.instruction opcode = .ok instruction →
      op.Spells 1 instruction.operandBytes := by
  cases opcode
  all_goals
    simp only [instruction, forall_bind_eq_ok_iff, pure_eq_ok_iff, forall_eq',
      Instruction.operandBytes, Control.bytes, Condition.bytes, RegisterOp.bytes, PortOp.bytes,
      ClockOp.bytes, BusOp.bytes, BoardOp.bytes, portField_eq_ok_iff, busAddress_eq_ok_iff,
      spells_append, spells_cons, spells_nil, spells_wordBytes, spells_dwordBytes,
      length_wordBytes, length_dwordBytes, length_fieldBytes, length_addressBytes,
      List.length_append, List.length_cons, List.length_nil, Nat.reduceAdd, and_true]
  case ioRestrictPll =>
    intro _ hfield _ hflag _ hreg n hn values hv
    obtain rfl := length_words hv
    exact ⟨⟨⟨hfield, hflag, op.byte_of_count _ hn⟩, hreg⟩, (op.words_eq_ok_iff _ _).mp hv⟩
  case ioRestrictProg | ioRestrictPll2 =>
    intro _ hfield _ hreg n hn values hv
    obtain rfl := length_dwords hv
    exact ⟨⟨⟨hfield, op.byte_of_count _ hn⟩, hreg⟩, (op.dwords_eq_ok_iff _ _).mp hv⟩
  case zmRegSequence | zmRegGroup =>
    intro _ hreg n hn values hv
    obtain rfl := length_dwords hv
    exact ⟨⟨hreg, op.byte_of_count _ hn⟩, (op.dwords_eq_ok_iff _ _).mp hv⟩
  case indexAddressLatched =>
    intro _ hctrl _ hdata _ hmask _ hvalue n hn pairs hp
    obtain rfl := length_pairs hp
    exact ⟨⟨⟨⟨⟨hctrl, hdata⟩, hmask⟩, hvalue⟩, op.byte_of_count _ hn⟩,
      (op.pairs_eq_ok_iff _ _).mp hp⟩
  case zmI2cByte | zmTmdsGroup =>
    intro _ htarget n hn pairs hp
    obtain rfl := length_pairs hp
    exact ⟨⟨htarget, op.byte_of_count _ hn⟩, (op.pairs_eq_ok_iff _ _).mp hp⟩
  case zmCrGroup =>
    intro n hn pairs hp
    obtain rfl := length_pairs hp
    exact ⟨op.byte_of_count _ hn, (op.pairs_eq_ok_iff _ _).mp hp⟩
  case i2cByte =>
    intro n hn writes hw _ htarget
    obtain rfl := length_maskedWrites hw
    exact ⟨⟨htarget, op.byte_of_count _ hn⟩, (op.maskedWrites_eq_ok_iff _ _).mp hw⟩
  case auxch =>
    intro _ haddr n hn masked hm
    obtain rfl := length_maskedBytes hm
    exact ⟨⟨haddr, op.byte_of_count _ hn⟩, (op.maskedBytes_eq_ok_iff _ _).mp hm⟩
  case zmI2c | zmAuxch =>
    intro _ htarget n hn data hd
    obtain rfl := length_bytes hd
    exact ⟨⟨htarget, op.byte_of_count _ hn⟩,
      (op.bytes_eq_ok_iff _ (op.lt_length_of_count _ hn)).mp hd⟩
  case crIndexAddressLatched =>
    intro _ hindex1 _ hindex2 _ hbase n hn data hd
    obtain rfl := length_bytes hd
    exact ⟨⟨hindex1, hindex2, hbase, op.byte_of_count _ hn⟩,
      (op.bytes_eq_ok_iff _ (op.lt_length_of_count _ hn)).mp hd⟩
  case gpioNe =>
    intro n hn data hd
    obtain rfl := length_bytes hd
    exact ⟨op.byte_of_count _ hn, (op.bytes_eq_ok_iff _ (op.lt_length_of_count _ hn)).mp hd⟩
  case ramRestrictPll =>
    intro _ hid values hv
    obtain hn := length_dwords hv
    rw [← hn, dwords_eq_ok_iff] at hv
    exact ⟨hid, hv⟩
  case ramRestrictZmRegGroup =>
    intro _ hcount _ hreg _ hincrement values hv
    obtain hn := length_dwords hv
    rw [← hn, dwords_eq_ok_iff] at hv
    exact ⟨⟨hreg, hincrement, hcount⟩, hv⟩
  -- the operands of all others are of fixed places
  all_goals
    intros
    simp only [*, and_self]

theorem count_of_encodedLength {opcode : Opcode} {n elementSize tailSize : Nat}
    (ht : opcode.tail = some { count := .operand distance, elementSize })
    (hpos : 0 < elementSize) (hs : tailSize = n * elementSize)
    (h : opcode.encodedLength op.image op.base = .ok (opcode.fixedSize + tailSize)) :
    op.count distance = .ok n := by
  rw [Opcode.encodedLength, ht] at h
  obtain ⟨count, hc, hsize⟩ := map_eq_ok_iff.mp h
  obtain rfl := Nat.eq_of_mul_eq_mul_right hpos ((Nat.add_left_cancel hsize).trans hs)
  exact hc

theorem instruction_of_spells (op : OperandReader) (i : Instruction)
    (hl : i.opcode.encodedLength op.image op.base = .ok i.size)
    (h : op.Spells 1 i.operandBytes) : op.instruction i.opcode = .ok i := by
  rcases i with i | i | i | i | i | i | i <;> cases i
  all_goals
    simp only [Instruction.operandBytes, Control.bytes, Condition.bytes, RegisterOp.bytes,
      PortOp.bytes, ClockOp.bytes, BusOp.bytes, BoardOp.bytes, ← portField_eq_ok_iff,
      ← busAddress_eq_ok_iff, ← dwords_eq_ok_iff, ← words_eq_ok_iff, ← pairs_eq_ok_iff,
      ← maskedBytes_eq_ok_iff, ← maskedWrites_eq_ok_iff, spells_append, spells_cons, spells_nil,
      spells_wordBytes, spells_dwordBytes, length_wordBytes, length_dwordBytes,
      length_fieldBytes, length_addressBytes, List.length_append, List.length_cons,
      List.length_nil, Nat.reduceAdd, and_true] at h
    simp only [Instruction.opcode, Control.opcode, Condition.opcode, RegisterOp.opcode,
      PortOp.opcode, ClockOp.opcode, BusOp.opcode, BoardOp.opcode] at hl ⊢
  case crIndexAddressLatched data | zmI2c data | zmAuxch data | gpioNe data =>
    have hn : op.count _ = .ok data.length :=
      op.count_of_encodedLength _ rfl Nat.one_pos (Nat.mul_one _).symm hl
    have hd := (op.bytes_eq_ok_iff _ (op.lt_length_of_count _ hn)).mpr h.2
    simp only [instruction, h, hn, hd, bind_eq_ok_iff, Except.ok.injEq, exists_eq_left',
      pure_eq_ok_iff]
  case zmRegSequence | zmRegGroup | indexAddressLatched | ioRestrictProg | zmCrGroup
      | ioRestrictPll | ioRestrictPll2 | i2cByte | zmI2cByte | auxch | zmTmdsGroup =>
    have hn := op.count_of_encodedLength _ rfl (by decide) rfl hl
    simp only [instruction, h, hn, bind_eq_ok_iff, Except.ok.injEq, exists_eq_left',
      pure_eq_ok_iff]
  case ramRestrictPll values =>
    have hn : op.image.ramGroups = values.length :=
      Nat.eq_of_mul_eq_mul_right (by decide) (Nat.add_left_cancel (Except.ok.inj hl))
    simp only [instruction, h, hn, bind_eq_ok_iff, Except.ok.injEq, exists_eq_left',
      pure_eq_ok_iff]
  case ramRestrictZmRegGroup count values =>
    have hn : count.toNat * op.image.ramGroups = values.length := by
      obtain ⟨n, hc, hsize⟩ := map_eq_ok_iff.mp hl
      obtain ⟨b, hb, rfl⟩ := map_eq_ok_iff.mp hc
      obtain rfl : b = count := Except.ok.inj (hb.symm.trans h.1.2.2)
      exact Nat.eq_of_mul_eq_mul_right (by decide) (Nat.add_left_cancel hsize)
    simp only [instruction, h, hn, bind_eq_ok_iff, Except.ok.injEq, exists_eq_left',
      pure_eq_ok_iff]
  all_goals
    simp only [instruction, h, bind_eq_ok_iff, Except.ok.injEq, exists_eq_left', pure_eq_ok_iff]

end OperandReader

namespace Opcode

theorem lt_fixedSize_of_tail {opcode : Opcode} {tail : Tail} (h : opcode.tail = some tail) :
    match tail.count with
    | .operand distance | .operandTimesGroups distance => distance < opcode.fixedSize
    | .groups => True := by
  cases opcode
  case reserved which => cases which <;> cases h
  all_goals cases h
  all_goals decide

theorem encodedLength_congr {opcode : Opcode} {image other : Image} {offset place : Nat}
    (hgroups : image.ramGroups = other.ramGroups)
    (h : ∀ k < opcode.fixedSize, image.byte (offset + k) = other.byte (place + k)) :
    opcode.encodedLength image offset = opcode.encodedLength other place := by
  unfold encodedLength
  cases ht : opcode.tail with
  | none => rfl
  | some tail =>
    have hlt := lt_fixedSize_of_tail ht
    suffices hcount : tailCount image offset tail.count = tailCount other place tail.count by
      simp only [hcount]
    cases hc : tail.count with
    | operand distance =>
      rw [hc] at hlt
      simp only [tailCount, h distance hlt]
    | groups => simp only [tailCount, hgroups]
    | operandTimesGroups distance =>
      rw [hc] at hlt
      simp only [tailCount, hgroups, h distance hlt]

end Opcode

namespace Instruction

/-- An instruction is decoded exactly where its bytes stand, provided that the size that is
foreseen there is its own. -/
theorem decode_iff_spells (image : Image) (offset : Nat) (instruction : Instruction) :
    decode image offset = .ok instruction ↔
      instruction.opcode.encodedLength image offset = .ok instruction.size ∧
        image.Spells offset instruction.bytes := by
  rw [decode_eq_ok_iff]
  constructor
  · rintro ⟨opcode, ho, hi⟩
    obtain ⟨rfl, hl⟩ := OperandReader.opcode_size_of_instruction _ opcode instruction hi
    exact ⟨hl, (image.opcodeAt?_eq_some_iff offset _).mp ho,
      OperandReader.spells_of_instruction _ _ instruction hi⟩
  · rintro ⟨hl, hid, hoperands⟩
    exact ⟨instruction.opcode, (image.opcodeAt?_eq_some_iff offset _).mpr hid,
      OperandReader.instruction_of_spells { image, base := offset } instruction hl hoperands⟩

theorem slice_of_decode {image : Image} {offset : Nat} {instruction : Instruction}
    (h : decode image offset = .ok instruction) :
    image.slice offset instruction.size = .ok instruction.bytes := by
  have hspells := ((decode_iff_spells image offset instruction).mp h).2
  have hlt := Image.lt_length_of_byte hspells.1
  rw [← instruction.length_bytes]
  exact (image.spells_iff_slice (Nat.le_of_lt hlt)).mp hspells

theorem decode_of_slice {image other : Image} {offset place : Nat} {instruction : Instruction}
    (hgroups : image.ramGroups = other.ramGroups) (h : decode image offset = .ok instruction)
    (hslice : other.slice place instruction.size = .ok instruction.bytes) :
    decode other place = .ok instruction := by
  obtain ⟨hl, hspells⟩ := (decode_iff_spells image offset instruction).mp h
  rw [← instruction.length_bytes] at hslice
  obtain ⟨hle, hother⟩ := (Rom.slice_eq_ok_iff _ _ _).mp hslice
  have hspelled := (image.spells_iff offset instruction.bytes).mp hspells
  have hsame : ∀ k < instruction.opcode.fixedSize,
      image.byte (offset + k) = other.byte (place + k) := by
    intro k hk
    have hk' : k < instruction.bytes.length := by
      rw [instruction.length_bytes]
      exact Nat.lt_of_lt_of_le hk (Nat.le_add_right _ _)
    exact (hspelled k hk').trans (hother k hk').symm
  rw [decode_iff_spells, ← Opcode.encodedLength_congr hgroups hsame]
  exact ⟨hl, (other.spells_iff place instruction.bytes).mpr hother⟩

/-- Instructions and their bytes determine each other. A window of the same bytes, in an image
with as many RAM-restrict groups, decodes to the same instruction; windows that decode to the
same instruction are equal, in whatever images they stand; and the bytes of the instruction are
the window it was decoded from, and decode to it wherever they stand. -/
theorem window_determines_decode (image other : Image) (offset place : Nat)
    (instruction : Instruction) :
    (image.ramGroups = other.ramGroups → decode image offset = .ok instruction →
      ∀ window, image.slice offset instruction.size = .ok window →
        other.slice place instruction.size = .ok window →
          decode other place = .ok instruction) ∧
    (decode image offset = .ok instruction → decode other place = .ok instruction →
      ∃ window, image.slice offset instruction.size = .ok window ∧
        other.slice place instruction.size = .ok window) ∧
    (decode image offset = .ok instruction →
      image.slice offset instruction.size = .ok instruction.bytes ∧
        (image.ramGroups = other.ramGroups →
          other.slice place instruction.size = .ok instruction.bytes →
            decode other place = .ok instruction)) := by
  refine ⟨fun hgroups h window hw hother => ?_, fun h hother => ?_, fun h => ?_⟩
  · obtain rfl : instruction.bytes = window :=
      Except.ok.inj ((slice_of_decode h).symm.trans hw)
    exact decode_of_slice hgroups h hother
  · exact ⟨instruction.bytes, slice_of_decode h, slice_of_decode hother⟩
  · exact ⟨slice_of_decode h, fun hgroups hslice => decode_of_slice hgroups h hslice⟩

/-- A group of controller writes is decoded, moved to the front of another image, decoded
there and found to be the same bytes. -/
theorem window_determines_decode_of_moved :
    let image : Image := .ofScript ⟨#[0x71, 0x54, 1, 7, 9]⟩
    let other : Image := .ofScript ⟨#[0x54, 1, 7, 9, 0x71]⟩
    let instruction : Instruction := .port (.zmCrGroup [⟨7, 9⟩])
    decode image 1 = .ok instruction ∧ decode other 0 = .ok instruction ∧
      ∃ window, image.slice 1 4 = .ok window ∧ other.slice 0 4 = .ok window := by
  intro image other instruction
  have h : decode image 1 = .ok instruction := rfl
  obtain ⟨hlocal, hinjective, -⟩ := window_determines_decode image other 1 0 instruction
  have hother := hlocal rfl h [0x54, 1, 7, 9] rfl rfl
  exact ⟨h, hother, hinjective h hother⟩

end Instruction

end RomScript
