import Mathlib.Data.List.Induction
import Mathlib.Data.Nat.Digits.Defs
import Mathlib.Logic.Function.Iterate
import RomScript.Proofs.Device.Replay

/-!
# Transfers over a bus

What a transfer writes to a device is read back from there, for as many bytes as there are
addresses, also where the addresses wrap around. Bytes at other addresses, other devices and all
else that is simulated stay as they were. A transfer fails if no device answers, and leaves nothing
but a failed call in the record, with the buffer of a read as it was.
-/

set_option autoImplicit false

namespace RomScript

/-! ## Runs of bytes -/

section Runs

variable {κ : Type} [DecidableEq κ] {next : κ → κ}

theorem get?_storeRun_of_ne {address other : κ} {values : List UInt8}
    (h : ∀ k < values.length, next^[k] address ≠ other) (map : OrderedMap κ UInt8) :
    (storeRun next address values map).get? other = map.get? other := by
  induction values generalizing address map with
  | nil => rfl
  | cons value rest ih =>
    have hfirst : address ≠ other := h 0 (Nat.succ_pos _)
    have hrest : ∀ k < rest.length, next^[k] (next address) ≠ other :=
      fun k hk => h (k + 1) (Nat.succ_lt_succ hk)
    rw [storeRun, ih hrest, OrderedMap.get?_insert_of_ne map value hfirst]

/-- In fewer steps than there are addresses none of them comes back, so no byte of a run takes
the place of an earlier one. -/
theorem loadRun_storeRun {span : Nat}
    (hspan : ∀ address k, k + 1 < span → next^[k + 1] address ≠ address) (address : κ)
    {values : List UInt8} (h : values.length ≤ span) (map : OrderedMap κ UInt8) :
    loadRun next (storeRun next address values map) address values.length = values := by
  induction values generalizing address map with
  | nil => rfl
  | cons value rest ih =>
    rw [List.length_cons] at h
    have hfirst : (storeRun next (next address) rest (map.insert address value)).get? address =
        some value := by
      rw [get?_storeRun_of_ne fun k hk => hspan address k (by omega)]
      exact OrderedMap.get?_insert_self map address value
    simp only [storeRun, List.length_cons, loadRun, hfirst, Option.getD_some]
    rw [ih (next address) (by omega)]

end Runs

theorem toNat_iterate_word (address : UInt16) (k : Nat) :
    ((· + 1)^[k] address).toNat = (address.toNat + k) % 2 ^ 16 := by
  induction k with
  | zero => exact (Nat.mod_eq_of_lt address.toNat_lt).symm
  | succ k ih =>
    rw [Function.iterate_succ_apply', UInt16.toNat_add, ih, UInt16.toNat_one]
    omega

theorem toNat_iterate_dword (address : UInt32) (k : Nat) :
    ((· + 1)^[k] address).toNat = (address.toNat + k) % 2 ^ 32 := by
  induction k with
  | zero => exact (Nat.mod_eq_of_lt address.toNat_lt).symm
  | succ k ih =>
    rw [Function.iterate_succ_apply', UInt32.toNat_add, ih, UInt32.toNat_one]
    omega

namespace I2cDevice

theorem toNat_shift_or (pointer : UInt16) (byte : UInt8) :
    (pointer <<< 8 ||| byte.toUInt16).toNat = (byte.toNat + 256 * pointer.toNat) % 2 ^ 16 := by
  have hpointer := pointer.toNat_lt
  have hbyte : byte.toNat < 2 ^ 8 := byte.toNat_lt
  have hshift : (pointer <<< 8).toNat = (pointer.toNat % 2 ^ 8) <<< 8 := by
    rw [UInt16.toNat_shiftLeft, Nat.shiftLeft_eq, Nat.shiftLeft_eq]
    have h8 : (8 : UInt16).toNat % 16 = 8 := rfl
    rw [h8]
    omega
  rw [UInt16.toNat_or, hshift, UInt8.toNat_toUInt16, ← Nat.shiftLeft_add_eq_or_of_lt hbyte,
    Nat.shiftLeft_eq]
  omega

/-- Of a long message the last two bytes are the pointer. -/
theorem toNat_pointerOf (message : List UInt8) :
    (pointerOf message).toNat = Nat.ofDigits 256 (message.reverse.map UInt8.toNat) % 2 ^ 16 := by
  induction message using List.reverseRecOn with
  | nil => rfl
  | append_singleton front byte ih =>
    have hstep : pointerOf (front ++ [byte]) = pointerOf front <<< 8 ||| byte.toUInt16 := by
      simp [pointerOf]
    rw [hstep, toNat_shift_or, ih, List.reverse_append, List.reverse_singleton,
      List.singleton_append, List.map_cons, Nat.ofDigits_cons]
    omega

theorem answer_accept (target : I2cDevice) {pointer : UInt8} {values message : List UInt8}
    (h : values.length ≤ 2 ^ 16)
    (hm : Nat.ofDigits 256 (message.reverse.map UInt8.toNat) % 2 ^ 16 = pointer.toNat) :
    (target.accept (pointer :: values)).answer message values.length = values := by
  have hpointer : pointerOf message = pointer.toUInt16 := by
    rw [← UInt16.toNat_inj, toNat_pointerOf, hm, UInt8.toNat_toUInt16]
  have hspan (address : UInt16) (k : Nat) (hk : k + 1 < 2 ^ 16) :
      (· + 1)^[k + 1] address ≠ address := by
    have hlt := address.toNat_lt
    rw [Ne, ← UInt16.toNat_inj, toNat_iterate_word]
    omega
  rw [answer, hpointer]
  exact loadRun_storeRun hspan pointer.toUInt16 h target.registers

theorem get?_accept_of_ne (target : I2cDevice) {pointer : UInt8} {values : List UInt8}
    {reg : UInt16} (h : ∀ k < values.length, reg.toNat ≠ (pointer.toNat + k) % 2 ^ 16) :
    (target.accept (pointer :: values)).registers.get? reg = target.registers.get? reg := by
  refine get?_storeRun_of_ne (fun k hk => ?_) target.registers
  rw [Ne, ← UInt16.toNat_inj, toNat_iterate_word, UInt8.toNat_toUInt16]
  exact (h k hk).symm

end I2cDevice

namespace SimulatedDevice

def Unanswered (device : SimulatedDevice) (bus addr : UInt8) : Prop :=
  device.i2c.get? (bus, addr) = none ∨
    ∃ target, device.i2c.get? (bus, addr) = some target ∧ target.refuses = true

/-- A transfer fails exactly if no device answers it, and leaves a failed call and no other
trace. -/
structure FailsAlone {α : Type} (device : SimulatedDevice)
    (answered : Except TransferError α × SimulatedDevice) (unanswered : Prop) (call : Call) :
    Prop where
  error_iff : (∃ cause, answered.1 = .error cause) ↔ unanswered
  after : ∀ cause, answered.1 = .error cause → answered.2 = device.record call

section

variable (device : SimulatedDevice) (bus : UInt8)

theorem i2cTarget_eq_ok_iff (addr : UInt8) (target : I2cDevice) :
    device.i2cTarget bus addr = .ok target ↔
      device.i2c.get? (bus, addr) = some target ∧ target.refuses = false := by
  unfold i2cTarget
  cases device.i2c.get? (bus, addr) with
  | none => simp
  | some found =>
    cases hr : found.refuses with
    | false =>
      simp only [hr, Bool.false_eq_true, if_false, Except.ok.injEq, Option.some.injEq]
      exact ⟨fun h => ⟨h, h ▸ hr⟩, And.left⟩
    | true =>
      simp only [hr, if_true, reduceCtorEq, Option.some.injEq, false_iff, not_and]
      rintro rfl
      simp [hr]

theorem i2cTarget_eq_error_iff (addr : UInt8) :
    (∃ cause, device.i2cTarget bus addr = .error cause) ↔ device.Unanswered bus addr := by
  unfold i2cTarget Unanswered
  cases device.i2c.get? (bus, addr) with
  | none => simp
  | some found => cases hr : found.refuses <;> simp [hr]

theorem auxTarget_eq_ok_iff (addr : UInt32) (channel : OrderedMap UInt32 UInt8) :
    device.auxTarget bus addr = .ok channel ↔ device.aux.get? bus = some channel := by
  unfold auxTarget
  cases device.aux.get? bus <;> simp

theorem auxTarget_eq_error_iff (addr : UInt32) :
    (∃ cause, device.auxTarget bus addr = .error cause) ↔ device.aux.get? bus = none := by
  unfold auxTarget
  cases device.aux.get? bus <;> simp

/-! ## Failures -/

variable {device bus} in
theorem failsAlone_of_target {α β : Type} {target : Except TransferError β} {unanswered : Prop}
    {answered : Except TransferError α × SimulatedDevice} {call : Call}
    (h : (∃ cause, target = .error cause) ↔ unanswered)
    (herror : ∀ cause, target = .error cause → answered = (.error cause, device.record call))
    (hok : ∀ found, target = .ok found → ∃ value, answered.1 = .ok value) :
    device.FailsAlone answered unanswered call := by
  cases ht : target with
  | error cause =>
    have hanswered := herror cause ht
    refine ⟨iff_of_true ⟨cause, by rw [hanswered]⟩ (h.mp ⟨cause, ht⟩), fun _ _ => ?_⟩
    rw [hanswered]
  | ok found =>
    obtain ⟨value, hvalue⟩ := hok found ht
    have hfine : ¬∃ cause, answered.1 = .error cause := by
      rintro ⟨cause, hc⟩
      cases hvalue.symm.trans hc
    have hanswers : ¬unanswered := by
      rw [← h, ht]
      rintro ⟨cause, hc⟩
      cases hc
    exact ⟨iff_of_false hfine hanswers, fun cause hc => absurd ⟨cause, hc⟩ hfine⟩

theorem failsAlone_i2cWrite (addr : UInt8) (message : List UInt8) :
    device.FailsAlone (facade.answer (.i2cWrite bus addr message) device)
      (device.Unanswered bus addr) (.i2cWrite bus addr message false) :=
  failsAlone_of_target (device.i2cTarget_eq_error_iff bus addr)
    (fun cause ht => by simp only [facade, i2cWrite, ht])
    (fun target ht => ⟨(), by simp only [facade, i2cWrite, ht]⟩)

theorem failsAlone_i2cWriteRead (addr : UInt8) (message buffer : List UInt8) :
    device.FailsAlone (facade.answer (.i2cWriteRead bus addr message buffer) device)
      (device.Unanswered bus addr) (.i2cWriteRead bus addr message buffer false) :=
  failsAlone_of_target (device.i2cTarget_eq_error_iff bus addr)
    (fun cause ht => by simp only [facade, i2cWriteRead, ht])
    (fun target ht => ⟨_, by simp only [facade, i2cWriteRead, ht]; rfl⟩)

theorem failsAlone_auxRead (addr : UInt32) (buffer : List UInt8) :
    device.FailsAlone (facade.answer (.auxRead bus addr buffer) device)
      (device.aux.get? bus = none) (.auxRead bus addr buffer false) :=
  failsAlone_of_target (device.auxTarget_eq_error_iff bus addr)
    (fun cause ht => by simp only [facade, auxRead, ht])
    (fun channel ht => ⟨_, by simp only [facade, auxRead, ht]; rfl⟩)

theorem failsAlone_auxWrite (addr : UInt32) (data : List UInt8) :
    device.FailsAlone (facade.answer (.auxWrite bus addr data) device)
      (device.aux.get? bus = none) (.auxWrite bus addr data false) :=
  failsAlone_of_target (device.auxTarget_eq_error_iff bus addr)
    (fun cause ht => by simp only [facade, auxWrite, ht])
    (fun channel ht => ⟨(), by simp only [facade, auxWrite, ht]⟩)

end

/-! ## Successes -/

section

variable {device : SimulatedDevice} {bus : UInt8}

theorem i2cWrite_of_ok {addr : UInt8} {message : List UInt8}
    (h : (facade.answer (.i2cWrite bus addr message) device).1 = .ok ()) :
    ∃ target, device.i2c.get? (bus, addr) = some target ∧ target.refuses = false ∧
      (facade.answer (.i2cWrite bus addr message) device).2 =
        { device with i2c := device.i2c.insert (bus, addr) (target.accept message) }.record
          (.i2cWrite bus addr message true) := by
  cases ht : device.i2cTarget bus addr with
  | error cause =>
    simp only [facade, i2cWrite, ht] at h
    cases h
  | ok target =>
    obtain ⟨hg, hr⟩ := (device.i2cTarget_eq_ok_iff bus addr target).mp ht
    exact ⟨target, hg, hr, by simp only [facade, i2cWrite, ht]⟩

theorem auxWrite_of_ok {addr : UInt32} {data : List UInt8}
    (h : (facade.answer (.auxWrite bus addr data) device).1 = .ok ()) :
    ∃ channel, device.aux.get? bus = some channel ∧
      (facade.answer (.auxWrite bus addr data) device).2 =
        { device with aux := device.aux.insert bus (storeRun (· + 1) addr data channel) }.record
          (.auxWrite bus addr data true) := by
  cases ht : device.auxTarget bus addr with
  | error cause =>
    simp only [facade, auxWrite, ht] at h
    cases h
  | ok channel =>
    exact ⟨channel, (device.auxTarget_eq_ok_iff bus addr channel).mp ht,
      by simp only [facade, auxWrite, ht]⟩

theorem i2cWriteRead_of_get? {addr : UInt8} {target : I2cDevice}
    (h : device.i2c.get? (bus, addr) = some target) (hr : target.refuses = false)
    (message buffer : List UInt8) :
    (facade.answer (.i2cWriteRead bus addr message buffer) device).1 =
      .ok (target.answer message buffer.length) := by
  have ht := (device.i2cTarget_eq_ok_iff bus addr target).mpr ⟨h, hr⟩
  simp only [facade, i2cWriteRead, ht]

theorem auxRead_of_get? {channel : OrderedMap UInt32 UInt8} (h : device.aux.get? bus = some channel)
    (addr : UInt32) (buffer : List UInt8) :
    (facade.answer (.auxRead bus addr buffer) device).1 =
      .ok (loadRun (· + 1) channel addr buffer.length) := by
  have ht := (device.auxTarget_eq_ok_iff bus addr channel).mpr h
  simp only [facade, auxRead, ht]

end

variable (device : SimulatedDevice)

/-- What a write of bytes to an I2C device brings about: they are read back with any message that
ends in the pointer, and all but the registers that the bytes went to is as it was. -/
structure StoresI2c (written : SimulatedDevice) (bus addr pointer : UInt8) (values : List UInt8) :
    Prop where
  readBack : ∀ message buffer,
    Nat.ofDigits 256 (message.reverse.map UInt8.toNat) % 2 ^ 16 = pointer.toNat →
    buffer.length = values.length →
      let read := facade.answer (.i2cWriteRead bus addr message buffer) written
      read.1 = .ok values ∧ read.2.contents = written.contents
  registers : ∀ reg : UInt16, (∀ k < values.length, reg.toNat ≠ (pointer.toNat + k) % 2 ^ 16) →
    written.i2cRegister bus addr reg = device.i2cRegister bus addr reg
  devices : ∀ other, other ≠ (bus, addr) → written.i2c.get? other = device.i2c.get? other
  rest : written.contents = { device.contents with i2c := written.i2c }

structure StoresAux (written : SimulatedDevice) (bus : UInt8) (addr : UInt32)
    (values : List UInt8) : Prop where
  readBack : ∀ buffer, buffer.length = values.length →
    let read := facade.answer (.auxRead bus addr buffer) written
    read.1 = .ok values ∧ read.2.contents = written.contents
  bytes : ∀ other : UInt32, (∀ k < values.length, other.toNat ≠ (addr.toNat + k) % 2 ^ 32) →
    written.auxByte bus other = device.auxByte bus other
  channels : ∀ other, other ≠ bus → written.aux.get? other = device.aux.get? other
  rest : written.contents = { device.contents with aux := written.aux }

variable {device}

theorem storesI2c_of_ok {bus addr pointer : UInt8} {values : List UInt8}
    (hl : values.length ≤ 2 ^ 16)
    (h : (facade.answer (.i2cWrite bus addr (pointer :: values)) device).1 = .ok ()) :
    device.StoresI2c (facade.answer (.i2cWrite bus addr (pointer :: values)) device).2
      bus addr pointer values := by
  let written := (facade.answer (.i2cWrite bus addr (pointer :: values)) device).2
  obtain ⟨target, hg, hr, hafter⟩ := i2cWrite_of_ok h
  have hget : written.i2c.get? (bus, addr) = some (target.accept (pointer :: values)) := by
    rw [show written = _ from hafter]
    exact OrderedMap.get?_insert_self _ _ _
  refine ⟨fun message buffer hm hb => ⟨?_, ?_⟩, fun reg hreg => ?_, fun other hother => ?_, ?_⟩
  · rw [i2cWriteRead_of_get? hget hr message buffer, hb, target.answer_accept hl hm]
  · exact contents_i2cWriteRead written bus addr message buffer
  · show (written.i2c.get? (bus, addr)).bind _ = (device.i2c.get? (bus, addr)).bind _
    rw [hget, hg]
    exact target.get?_accept_of_ne hreg
  · rw [hafter]
    exact OrderedMap.get?_insert_of_ne device.i2c _ hother.symm
  · rw [hafter]
    rfl

theorem storesAux_of_ok {bus : UInt8} {addr : UInt32} {values : List UInt8}
    (hl : values.length ≤ 2 ^ 32)
    (h : (facade.answer (.auxWrite bus addr values) device).1 = .ok ()) :
    device.StoresAux (facade.answer (.auxWrite bus addr values) device).2 bus addr values := by
  let written := (facade.answer (.auxWrite bus addr values) device).2
  obtain ⟨channel, hg, hafter⟩ := auxWrite_of_ok h
  have hget : written.aux.get? bus = some (storeRun (· + 1) addr values channel) := by
    rw [show written = _ from hafter]
    exact OrderedMap.get?_insert_self _ _ _
  have hspan (address : UInt32) (k : Nat) (hk : k + 1 < 2 ^ 32) :
      (· + 1)^[k + 1] address ≠ address := by
    have hlt := address.toNat_lt
    rw [Ne, ← UInt32.toNat_inj, toNat_iterate_dword]
    omega
  refine ⟨fun buffer hb => ⟨?_, ?_⟩, fun other hother => ?_, fun other hother => ?_, ?_⟩
  · rw [auxRead_of_get? hget addr buffer, hb, loadRun_storeRun hspan addr hl channel]
  · exact contents_auxRead written bus addr buffer
  · show (written.aux.get? bus).bind _ = (device.aux.get? bus).bind _
    rw [hget, hg]
    refine get?_storeRun_of_ne (fun k hk => ?_) channel
    rw [Ne, ← UInt32.toNat_inj, toNat_iterate_dword]
    exact (hother k hk).symm
  · rw [hafter]
    exact OrderedMap.get?_insert_of_ne device.aux _ hother.symm
  · rw [hafter]
    rfl

variable (device)

/-- What an I2C write or a write to a channel stores is read back behind it, and nothing else has
changed. Each of the four transfers fails if no device answers it, and only then; it leaves the
contents as they were and one failed call in the record, which shows that the buffer of a read is
as it was, too. -/
theorem transfers_store_or_fail :
    (∀ bus addr pointer values, values.length ≤ 2 ^ 16 →
      let written := facade.answer (.i2cWrite bus addr (pointer :: values)) device
      written.1 = .ok () → device.StoresI2c written.2 bus addr pointer values) ∧
    (∀ bus addr values, values.length ≤ 2 ^ 32 →
      let written := facade.answer (.auxWrite bus addr values) device
      written.1 = .ok () → device.StoresAux written.2 bus addr values) ∧
    (∀ bus addr message, device.FailsAlone (facade.answer (.i2cWrite bus addr message) device)
      (device.Unanswered bus addr) (.i2cWrite bus addr message false)) ∧
    (∀ bus addr message buffer,
      device.FailsAlone (facade.answer (.i2cWriteRead bus addr message buffer) device)
        (device.Unanswered bus addr) (.i2cWriteRead bus addr message buffer false)) ∧
    (∀ bus addr buffer, device.FailsAlone (facade.answer (.auxRead bus addr buffer) device)
      (device.aux.get? bus = none) (.auxRead bus addr buffer false)) ∧
    ∀ bus addr data, device.FailsAlone (facade.answer (.auxWrite bus addr data) device)
      (device.aux.get? bus = none) (.auxWrite bus addr data false) :=
  ⟨fun _ _ _ _ hl h => storesI2c_of_ok hl h, fun _ _ _ hl h => storesAux_of_ok hl h,
    device.failsAlone_i2cWrite, device.failsAlone_i2cWriteRead, device.failsAlone_auxRead,
    device.failsAlone_auxWrite⟩

/-- A long message that ends in the pointer, a channel written across the end of its addresses,
and a device that does not acknowledge. -/
theorem transfers_store_or_fail_of_wrapped :
    let device := ((blank.withI2cDevice 1 0x50).withRefusingDevice 1 0x51).withAuxDevice 2
    let stored := (facade.answer (.i2cWrite 1 0x50 [0xff, 7, 8]) device).2
    let wrapped := (facade.answer (.auxWrite 2 0xffffffff [5, 6]) device).2
    (facade.answer (.i2cWriteRead 1 0x50 [0x12, 0, 0xff] [0, 0]) stored).1 = .ok [7, 8] ∧
      stored.i2cRegister 1 0x50 1 = device.i2cRegister 1 0x50 1 ∧
      (facade.answer (.auxRead 2 0xffffffff [0, 0]) wrapped).1 = .ok [5, 6] ∧
      wrapped.auxByte 2 1 = device.auxByte 2 1 ∧
      device.Unanswered 1 0x51 ∧
      (facade.answer (.i2cWriteRead 1 0x51 [0] [9]) device).2 =
        device.record (.i2cWriteRead 1 0x51 [0] [9] false) := by
  intro device stored wrapped
  obtain ⟨hi2c, haux, -, hread, -⟩ := transfers_store_or_fail device
  have hstored := hi2c 1 0x50 0xff [7, 8] (by decide) rfl
  have hwrapped := haux 2 0xffffffff [5, 6] (by decide) rfl
  have hfailed := hread 1 0x51 [0] [9]
  refine ⟨(hstored.readBack [0x12, 0, 0xff] [0, 0] (by decide) rfl).1,
    hstored.registers 1 (by decide), (hwrapped.readBack [0, 0] rfl).1,
    hwrapped.bytes 1 (by decide), hfailed.error_iff.mp ⟨_, rfl⟩, hfailed.after _ rfl⟩

end SimulatedDevice

end RomScript
