import Mathlib.Data.List.Basic
import RomScript.Proofs.Effect.Requests
import RomScript.Proofs.Engine.Action

/-!
# Instructions that pick an operand

Five instructions carry a tail of operands and use one of its columns: three take the position
from a field of a port, two the column of the board. What they ask of the device is told from the
bytes of the image at their offset. The operand stands where the position says, and if there is
none at that position nothing is written and no clock is set.
-/

set_option autoImplicit false

namespace RomScript

/-- Uses the operands of its tail that the board picks, and no other ones. -/
def Opcode.picks : Opcode → Bool
  | .ioRestrictProg | .ioRestrictPll | .ioRestrictPll2 | .ramRestrictPll
  | .ramRestrictZmRegGroup => true
  | _ => false

namespace Image

structure FieldAt (image : Image) (offset : Nat) (field : PortField) : Prop where
  port : image.word (offset + 1) = .ok field.port
  index : image.byte (offset + 3) = .ok field.index
  mask : image.byte (offset + 4) = .ok field.mask
  shift : image.byte (offset + 5) = .ok field.shift

section Asks

variable {δ : Type} (image : Image) (facade : Facade δ) (offset : Nat) (bench : Bench δ)
  (asked : List Request)

/-- For the number that a port picks, one request `use` with the register and the number. -/
def AsksForNumber (use : UInt32 → UInt32 → Request) : Prop :=
  ∃ field count reg, image.FieldAt offset field ∧ image.byte (offset + 6) = .ok count ∧
    image.dword (offset + 7) = .ok reg ∧
    let lookup : Request := .readIndexed field.port field.index
    let position := field.selector facade bench.device
    if position < count.toNat then
      ∃ value, image.dword (offset + 11 + 4 * position) = .ok value ∧
        asked = [lookup, use reg value]
    else asked = [lookup]

/-- For the frequency that a port picks, the clock is set; to twice the frequency if there is a
flag condition and it is met, and not at all if that has no value. -/
def AsksForClock : Prop :=
  ∃ field flag count reg, image.FieldAt offset field ∧ image.byte (offset + 6) = .ok flag ∧
    image.byte (offset + 7) = .ok count ∧ image.dword (offset + 8) = .ok reg ∧
    let lookup : Request := .readIndexed field.port field.index
    let position := field.selector facade bench.device
    if position < count.toNat then
      let device := (facade.answer (.readIndexed field.port field.index) bench.device).2
      let verdict := (Condition.portFlag flag).verdict image {} facade device
      ∃ tens khz, image.word (offset + 12 + 2 * position) = .ok tens ∧
        khz.toNat = 10 * tens.toNat * (if flag ≠ 0 ∧ verdict = .met then 2 else 1) ∧
        asked = lookup :: ((if flag = 0 then [] else flagLookup image flag) ++
          if flag ≠ 0 ∧ (verdict = .noEntry ∨ verdict = .noFlag) then []
          else [.programPll reg khz])
    else asked = [lookup]

/-- Behind the look-up of the column, the requests for its operands, if the image has any. -/
def AsksForColumn (uses : Nat → List Request → Prop) : Prop :=
  match bench.column? facade image with
  | none => asked = bench.columnLookup
  | some column =>
    if column.toNat < image.ramGroups then
      ∃ more, uses column.toNat more ∧ asked = bench.columnLookup ++ more
    else asked = bench.columnLookup

def Asks : Opcode → Prop
  | .ioRestrictProg => image.AsksForNumber facade offset bench asked .writeReg
  | .ioRestrictPll2 => image.AsksForNumber facade offset bench asked .programPll
  | .ioRestrictPll => image.AsksForClock facade offset bench asked
  | .ramRestrictPll => ∃ id, image.byte (offset + 1) = .ok id ∧
    image.AsksForColumn facade bench asked fun column more =>
      ∃ khz, image.dword (offset + 2 + 4 * column) = .ok khz ∧ more = [.programPllId id khz]
  | .ramRestrictZmRegGroup => ∃ reg increment count, image.dword (offset + 1) = .ok reg ∧
    image.byte (offset + 5) = .ok increment ∧ image.byte (offset + 6) = .ok count ∧
    image.AsksForColumn facade bench asked fun column more =>
      more.length = count.toNat ∧ ∀ row < count.toNat, ∃ target value,
        target.toNat = (reg.toNat + row * increment.toNat) % 2 ^ 32 ∧
        image.dword (offset + 7 + 4 * (row * image.ramGroups + column)) = .ok value ∧
        more[row]? = some (.writeReg target value)
  | _ => True

end Asks

end Image

/-! ## Where the operands stand -/

namespace OperandReader

variable {op : OperandReader}

theorem fieldAt_of_portField {field : PortField} (h : op.portField = .ok field) :
    op.image.FieldAt op.base field := by
  simp only [portField, bind_eq_ok_iff, pure_eq_ok_iff] at h
  obtain ⟨port, hport, index, hindex, mask, hmask, shift, hshift, rfl⟩ := h
  exact ⟨hport, hindex, hmask, hshift⟩

theorem exists_of_count {distance n : Nat} (h : op.count distance = .ok n) :
    ∃ count, op.image.byte (op.base + distance) = .ok count ∧ n = count.toNat := by
  obtain ⟨count, hc, hn⟩ := map_eq_ok_iff.mp h
  exact ⟨count, hc, hn.symm⟩

theorem dword_of_dwords {distance count : Nat} {values : List UInt32}
    (h : op.dwords distance count = .ok values) {i : Nat} (hi : i < count) :
    ∃ value, op.image.dword (op.base + distance + 4 * i) = .ok value ∧
      values[i]? = some value := by
  obtain ⟨value, hv, hg⟩ := getElem?_of_mapM h (List.getElem?_range hi)
  refine ⟨value, ?_, hg⟩
  rw [Nat.mul_comm, Nat.add_assoc]
  exact hv

theorem word_of_words {distance count : Nat} {values : List UInt16}
    (h : op.words distance count = .ok values) {i : Nat} (hi : i < count) :
    ∃ value, op.image.word (op.base + distance + 2 * i) = .ok value ∧
      values[i]? = some value := by
  obtain ⟨value, hv, hg⟩ := getElem?_of_mapM h (List.getElem?_range hi)
  refine ⟨value, ?_, hg⟩
  rw [Nat.mul_comm, Nat.add_assoc]
  exact hv

end OperandReader

/-! ## What is asked -/

theorem length_columnValues_and_get {columns column count : Nat} (hcolumn : column < columns)
    {values : List UInt32} (hlength : values.length = count * columns) :
    (columnValues columns column values).length = count ∧
      ∀ row < count, (columnValues columns column values)[row]? =
        values[row * columns + column]? := by
  have hrow {row : Nat} (h : row < count) : row * columns + column < values.length := by
    have hle := Nat.mul_le_mul_right columns (Nat.succ_le_of_lt h)
    rw [Nat.succ_mul] at hle
    omega
  have hcount : values.length / columns = count := by
    rw [hlength, Nat.mul_div_cancel count (Nat.zero_lt_of_lt hcolumn)]
  have hall : columnValues columns column values =
      (List.range count).map fun row => values.getD (row * columns + column) 0 := by
    rw [columnValues, hcount]
    refine List.filterMap_eq_map_iff_forall_eq_some.mpr fun row h => ?_
    have hlt := hrow (List.mem_range.mp h)
    rw [List.getD_eq_getElem?_getD, List.getElem?_eq_getElem hlt]
    rfl
  rw [hall]
  refine ⟨by simp, fun row h => ?_⟩
  rw [List.getElem?_map, List.getElem?_range h, Option.map_some, List.getD_eq_getElem?_getD,
    List.getElem?_eq_getElem (hrow h)]
  rfl

theorem length_rowRequests (stride reg : UInt32) (values : List UInt32) :
    (rowRequests stride reg values).length = values.length := by
  induction values generalizing reg with
  | nil => rfl
  | cons value rest ih => exact congrArg Nat.succ (ih _)

theorem getElem?_rowRequests (stride reg : UInt32) {values : List UInt32} {row : Nat}
    {value : UInt32} (h : values[row]? = some value) :
    ∃ target, target.toNat = (reg.toNat + row * stride.toNat) % 2 ^ 32 ∧
      (rowRequests stride reg values)[row]? = some (.writeReg target value) := by
  induction values generalizing reg row with
  | nil => simp at h
  | cons first rest ih =>
    cases row with
    | zero =>
      obtain rfl := Option.some.inj h
      have hlt := reg.toNat_lt
      exact ⟨reg, by omega, rfl⟩
    | succ row =>
      obtain ⟨target, ht, hg⟩ := ih (reg + stride) h
      refine ⟨target, ?_, hg⟩
      rw [ht, UInt32.toNat_add, Nat.succ_mul]
      omega

theorem toNat_khz (tens : UInt16) (doubled : Bool) :
    (if doubled then tens.toUInt32 * 10 * 2 else tens.toUInt32 * 10).toNat =
      10 * tens.toNat * (if doubled then 2 else 1) := by
  have hlt := tens.toNat_lt
  cases doubled with
  | false =>
    simp only [Bool.false_eq_true, if_false, UInt32.toNat_mul, UInt16.toNat_toUInt32,
      UInt32.reduceToNat]
    omega
  | true =>
    simp only [if_true, UInt32.toNat_mul, UInt16.toNat_toUInt32, UInt32.reduceToNat]
    omega

section Asks

open OperandReader

variable {δ : Type} {op : OperandReader} (facade : Facade δ) (bench : Bench δ)

theorem asksForNumber {field : PortField} {reg : UInt32} {n : Nat} {values : List UInt32}
    (hfield : op.portField = .ok field) (hreg : op.dword 7 = .ok reg) (hn : op.count 6 = .ok n)
    (hvalues : op.dwords 11 n = .ok values) {use : UInt32 → UInt32 → Request}
    {run : UInt32 → Effect Unit}
    (hrun : ∀ value bench, (run value).requests facade bench = [use reg value]) :
    op.image.AsksForNumber facade op.base bench
      ((Effect.selectByPort field values >>= run).requests facade bench) use := by
  obtain ⟨count, hcount, rfl⟩ := exists_of_count hn
  refine ⟨field, count, reg, fieldAt_of_portField hfield, hcount, hreg, ?_⟩
  rw [Effect.requests_selectByPort_bind]
  by_cases hlt : field.selector facade bench.device < count.toNat
  · obtain ⟨value, hvalue, hget⟩ := dword_of_dwords hvalues hlt
    rw [if_pos hlt, hget]
    exact ⟨value, hvalue, congrArg (List.cons _) (hrun value _)⟩
  · rw [if_neg hlt, List.getElem?_eq_none (by rw [length_dwords hvalues]; omega)]

theorem asksForClock {field : PortField} {flag : UInt8} {reg : UInt32} {n : Nat}
    {values : List UInt16} (hfield : op.portField = .ok field) (hflag : op.byte 6 = .ok flag)
    (hreg : op.dword 8 = .ok reg) (hn : op.count 7 = .ok n)
    (hvalues : op.words 12 n = .ok values) :
    op.image.AsksForClock facade op.base bench
      (((ClockOp.ioRestrictPll field flag reg values).run op.image).requests facade bench) := by
  obtain ⟨count, hcount, rfl⟩ := exists_of_count hn
  refine ⟨field, flag, count, reg, fieldAt_of_portField hfield, hflag, hcount, hreg, ?_⟩
  let clock (tens : UInt16) (doubled : Bool) : UInt32 :=
    if doubled then tens.toUInt32 * 10 * 2 else tens.toUInt32 * 10
  have hsplit : ((ClockOp.ioRestrictPll field flag reg values).run op.image).requests facade bench =
      (Effect.selectByPort field values >>= fun tens =>
        ClockOp.isDoubled op.image flag >>= fun doubled =>
          Effect.setPll reg (clock tens doubled)).requests facade bench := rfl
  rw [hsplit, Effect.requests_selectByPort_bind]
  by_cases hlt : field.selector facade bench.device < count.toNat
  · obtain ⟨tens, htens, hget⟩ := word_of_words hvalues hlt
    rw [if_pos hlt, hget]
    generalize hverdict : (Condition.portFlag flag).verdict op.image {} facade
      (facade.answer (.readIndexed field.port field.index) bench.device).2 = verdict
    have hset (doubled : Bool) (bench : Bench δ) :
        (Effect.setPll reg (clock tens doubled)).requests facade bench =
          [.programPll reg (clock tens doubled)] := Effect.requests_setPll facade bench reg _
    refine ⟨tens, clock tens (flag ≠ 0 ∧ verdict = .met), htens, ?_, congrArg (List.cons _) ?_⟩
    · exact (toNat_khz tens _).trans (by simp [hverdict])
    · unfold ClockOp.isDoubled
      by_cases hzero : flag = 0
      · simp only [hzero, if_true, ne_eq, not_true_eq_false, false_and, if_false, decide_false]
        exact hset false _
      · simp only [hzero, if_false, ne_eq, not_false_eq_true, true_and]
        rw [Effect.requests_portFlagMet_bind facade op.image _ {}]
        refine congrArg (flagLookup op.image flag ++ ·) ?_
        simp only [hverdict]
        cases verdict with
        | met => exact hset true _
        | differs => exact hset false _
        | noEntry => rfl
        | noFlag => rfl
        | failed => simp [Condition.verdict_eq_failed_iff, Condition.transfer?] at hverdict
  · rw [if_neg hlt, List.getElem?_eq_none (by rw [length_words hvalues]; omega)]

theorem asksForColumn (next : Nat → Effect Unit) {uses : Nat → List Request → Prop}
    (h : ∀ column < op.image.ramGroups, ∀ bench,
      uses column ((next column).requests facade bench)) :
    op.image.AsksForColumn facade bench
      ((Effect.ramColumn op.image >>= next).requests facade bench) uses := by
  rw [Effect.requests_ramColumn_bind, Image.AsksForColumn]
  cases bench.column? facade op.image with
  | none => exact List.append_nil _
  | some column =>
    by_cases hlt : column.toNat < op.image.ramGroups
    · simp only [if_pos hlt]
      exact ⟨_, h column.toNat hlt _, rfl⟩
    · simp only [if_neg hlt]
      exact List.append_nil _

theorem asks_of_instruction {opcode : Opcode} {instruction : Instruction} (output : Output)
    (hp : opcode.picks = true) (h : op.instruction opcode = .ok instruction) :
    op.image.Asks facade op.base bench
      ((instruction.effect op.image output).requests facade bench) opcode := by
  cases opcode with
  | ioRestrictProg =>
    simp only [OperandReader.instruction, bind_eq_ok_iff, pure_eq_ok_iff] at h
    obtain ⟨field, hfield, reg, hreg, n, hn, values, hvalues, rfl⟩ := h
    exact asksForNumber facade bench hfield hreg hn hvalues fun _ _ => rfl
  | ioRestrictPll2 =>
    simp only [OperandReader.instruction, bind_eq_ok_iff, pure_eq_ok_iff] at h
    obtain ⟨field, hfield, reg, hreg, n, hn, values, hvalues, rfl⟩ := h
    exact asksForNumber facade bench hfield hreg hn hvalues fun khz bench =>
      Effect.requests_setPll facade bench reg khz
  | ioRestrictPll =>
    simp only [OperandReader.instruction, bind_eq_ok_iff, pure_eq_ok_iff] at h
    obtain ⟨field, hfield, flag, hflag, reg, hreg, n, hn, values, hvalues, rfl⟩ := h
    exact asksForClock facade bench hfield hflag hreg hn hvalues
  | ramRestrictPll =>
    simp only [OperandReader.instruction, bind_eq_ok_iff, pure_eq_ok_iff] at h
    obtain ⟨id, hid, values, hvalues, rfl⟩ := h
    refine ⟨id, hid, asksForColumn facade bench _ fun column hlt bench => ?_⟩
    obtain ⟨khz, hkhz, hget⟩ := dword_of_dwords hvalues hlt
    refine ⟨khz, hkhz, ?_⟩
    rw [Effect.select, hget]
    exact congrArg (List.cons _) (Effect.requests_ofExcept facade _ .pll _)
  | ramRestrictZmRegGroup =>
    simp only [OperandReader.instruction, bind_eq_ok_iff, pure_eq_ok_iff] at h
    obtain ⟨count, hcount, reg, hreg, increment, hincrement, values, hvalues, rfl⟩ := h
    refine ⟨reg, increment, count, hreg, hincrement, hcount,
      asksForColumn facade bench _ fun column hlt bench => ?_⟩
    obtain ⟨hlength, hrows⟩ := length_columnValues_and_get hlt (length_dwords hvalues)
    rw [Effect.requests_writeRegs, length_rowRequests]
    refine ⟨hlength, fun row hrow => ?_⟩
    have hposition : row * op.image.ramGroups + column < count.toNat * op.image.ramGroups := by
      have hle := Nat.mul_le_mul_right op.image.ramGroups (Nat.succ_le_of_lt hrow)
      rw [Nat.succ_mul] at hle
      omega
    obtain ⟨value, hvalue, hget⟩ := dword_of_dwords hvalues hposition
    obtain ⟨target, ht, hrequest⟩ :=
      getElem?_rowRequests increment.toUInt32 reg ((hrows row hrow).trans hget)
    rw [UInt8.toNat_toUInt32] at ht
    exact ⟨target, value, ht, hvalue, hrequest⟩
  | _ => cases hp

end Asks

/-! ## Steps -/

namespace Engine

variable {δ τ : Type}

/-- Of the operands in its tail an instruction uses those that the board picks, as they stand in
the image at the place of the pick: its step runs its effect on the bench, and all that the device
is asked by that is, in order, what the pick calls for. -/
theorem picked_operands_requested (engine : Engine δ τ) (nesting : Nesting δ τ) (offset : Nat)
    (machine : Machine δ τ) {instruction : Instruction}
    (hd : Instruction.decode engine.image offset = .ok instruction)
    (hp : instruction.opcode.picks = true) (he : machine.state.execute = true) :
    let effect := instruction.effect engine.image machine.state.output
    let asked := effect.requests engine.facade machine.bench
    let ended := engine.step nesting offset machine
    ended.2.bench = (effect.run engine.facade machine.bench).2 ∧
      ended.2.bench.device = engine.facade.issue asked machine.bench.device ∧
      engine.image.Asks engine.facade offset machine.bench asked instruction.opcode := by
  intro effect asked ended
  obtain ⟨opcode, ho, hi⟩ := (Instruction.decode_eq_ok_iff _ _ _).mp hd
  obtain rfl := Option.some.inj (ho.symm.trans (Instruction.decode_opcode hd).1)
  have hquiet : instruction.opcode.nests = false ∧ instruction.opcode.legacyOnly = false := by
    generalize instruction.opcode = opcode at hp
    cases opcode <;> first | exact ⟨rfl, rfl⟩ | cases hp
  have hruns : engine.Runs instruction machine.scene :=
    ⟨fun hl => (nomatch hquiet.2.symm.trans hl), .inl he⟩
  have hbench : ended.2.bench = (effect.run engine.facade machine.bench).2 :=
    engine.step_bench nesting offset machine hd hquiet.1 hruns
  refine ⟨hbench, ?_, asks_of_instruction engine.facade machine.bench _ hp hi⟩
  rw [hbench]
  exact effect.device_run engine.facade machine.bench

/-- The third of three frequencies, doubled by a flag condition that another port decides. -/
theorem picked_operands_requested_of_doubled_clock :
    let engine : Engine SimulatedDevice Unit :=
      { image := .withDirectory
          ⟨#[0, 0x34, 0xd4, 0x03, 0x30, 0x06, 1, 1, 3, 0x00, 0x40, 0, 0, 100, 0, 200, 0, 0x2c, 1,
            0xc4, 0x03, 0x05, 0x07, 0, 28, 0, 0x80, 0x80, 0x00, 0x80]⟩
          (.ofList [(.ioFlagConditions, 10)] 0 false)
        facade := SimulatedDevice.facade
        observer := .silent
        limits := {} }
    let device := (SimulatedDevice.blank.withIndexed 0x3d4 0x30 0x05).withIndexed 0x3c4 0x05 0x01
    let machine : Machine SimulatedDevice Unit := .start device {} ()
    let instruction : Instruction :=
      .clock (.ioRestrictPll ⟨0x3d4, 0x30, 0x06, 1⟩ 1 0x4000 [100, 200, 300])
    let asked : List Request :=
      [.readIndexed 0x3d4 0x30, .readIndexed 0x3c4 0x05, .programPll 0x4000 6000]
    Instruction.decode engine.image 1 = .ok instruction ∧ instruction.opcode.picks = true ∧
      machine.state.execute = true ∧
      engine.image.Asks engine.facade 1 machine.bench asked instruction.opcode ∧
      (engine.step engine.outermost 1 machine).2.bench.device =
        engine.facade.issue asked device := by
  intro engine device machine instruction asked
  have hd : Instruction.decode engine.image 1 = .ok instruction :=
    eq_ok_of_toOption (by decide +kernel)
  obtain ⟨-, hdevice, hasks⟩ :=
    picked_operands_requested engine engine.outermost 1 machine hd rfl rfl
  have hasked : (instruction.effect engine.image machine.state.output).requests engine.facade
      machine.bench = asked := by decide +kernel
  rw [hasked] at hdevice hasks
  exact ⟨hd, rfl, rfl, hasks, hdevice⟩

end Engine

end RomScript
