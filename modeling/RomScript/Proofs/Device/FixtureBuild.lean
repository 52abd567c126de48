import Mathlib.Algebra.Group.Nat.Defs
import RomScript.Device.FixtureText
import RomScript.Proofs.Device.FixtureMaps
import RomScript.Proofs.Image.Reads

/-!
# Devices built from fixtures

Building a device checks the numbers of the fixture one after the other. Apart from the checks each
section of a fixture fills one part of the device, so the device holds what the fixture says: for
each register, port and link its number, and for a device on a bus what the entries that name it
say together.
-/

set_option autoImplicit false

namespace RomScript

/-! ## Numbers -/

/-- A number fits its place if it is below this bound. -/
def FixtureField.limit : FixtureField → Nat
  | .register | .registerValue | .auxAddress | .tmdsRegister | .pllRegister => 2 ^ 32
  | .port | .i2cRegister => 2 ^ 16
  | .i2cAddress => 2 ^ 7
  | .portIndex | .portValue | .i2cBus | .i2cValue | .auxBus | .auxValue | .tmdsLink | .head => 2 ^ 8

structure FixtureNumber where
  field : FixtureField
  value : Nat
  deriving DecidableEq, Repr

def FixtureNumber.Fits (number : FixtureNumber) : Prop := number.value < number.field.limit

instance (number : FixtureNumber) : Decidable number.Fits := inferInstanceAs (Decidable (_ < _))

def pairNumbers (key value : FixtureField) (map : OrderedMap Nat Nat) : List FixtureNumber :=
  map.entries.flatMap fun entry => [⟨key, entry.1⟩, ⟨value, entry.2⟩]

def rowNumbers (row key value : FixtureField) (map : OrderedMap Nat (OrderedMap Nat Nat)) :
    List FixtureNumber :=
  map.entries.flatMap fun entry => ⟨row, entry.1⟩ :: pairNumbers key value entry.2

namespace Fixture

/-- All numbers of a fixture, in the order in which they are checked. -/
def numbers (fixture : Fixture) : List FixtureNumber :=
  pairNumbers .register .registerValue fixture.registers ++
  rowNumbers .port .portIndex .portValue fixture.indexed ++
  pairNumbers .port .portValue fixture.ports ++
  fixture.i2c.flatMap (fun entry => ⟨.i2cBus, entry.bus⟩ :: ⟨.i2cAddress, entry.addr⟩ ::
    pairNumbers .i2cRegister .i2cValue entry.registers) ++
  fixture.aux.flatMap (fun entry =>
    ⟨.auxBus, entry.bus⟩ :: pairNumbers .auxAddress .auxValue entry.registers) ++
  pairNumbers .tmdsLink .tmdsRegister fixture.tmds ++
  rowNumbers .head .tmdsLink .tmdsRegister fixture.headTmds ++
  fixture.failingPlls.map (⟨.pllRegister, ·⟩)

end Fixture

def I2cFixture.Names (entry : I2cFixture) (bus addr : UInt8) : Prop :=
  entry.bus = bus.toNat ∧ entry.addr = addr.toNat

instance (entry : I2cFixture) (bus addr : UInt8) : Decidable (entry.Names bus addr) :=
  inferInstanceAs (Decidable (_ ∧ _))

/-- The device holds what the fixture says, and nothing is recorded. -/
structure Fixture.Describes (fixture : Fixture) (device : SimulatedDevice) : Prop where
  calls : device.calls = #[]
  reg : ∀ reg, (device.reg reg).toNat = (fixture.registers.get? reg.toNat).getD 0
  indexed : ∀ port index, (device.indexed port index).toNat =
    ((fixture.indexed.get? port.toNat).bind (·.get? index.toNat)).getD 0
  port : ∀ port, (device.port port).toNat = (fixture.ports.get? port.toNat).getD 0
  i2c : ∀ bus addr, (device.i2c.get? (bus, addr)).isSome = true ↔
    ∃ entry ∈ fixture.i2c, entry.Names bus addr
  refuses : ∀ bus addr, device.i2cTarget bus addr = .error (.nak bus addr.toUInt32) ↔
    ∃ entry ∈ fixture.i2c, entry.Names bus addr ∧ entry.refuses = true
  i2cRegister : ∀ bus addr reg, (device.i2cRegister bus addr reg).map UInt8.toNat =
    lastOf (fun entry => if entry.Names bus addr then entry.registers.get? reg.toNat else none)
      fixture.i2c
  aux : ∀ bus, (device.aux.get? bus).isSome = true ↔ ∃ entry ∈ fixture.aux, entry.bus = bus.toNat
  auxByte : ∀ bus addr, (device.auxByte bus addr).map UInt8.toNat =
    lastOf (fun entry => if entry.bus = bus.toNat then entry.registers.get? addr.toNat else none)
      fixture.aux
  tmdsLink : ∀ link output, (device.tmdsLink link output).map UInt32.toNat =
    ((fixture.headTmds.get? output.head.toNat).bind (·.get? link.toNat)).or
      (fixture.tmds.get? link.toNat)
  failingPlls : ∀ reg, reg ∈ device.failingPlls ↔ reg.toNat ∈ fixture.failingPlls

/-- The value, if the numbers fit, or else the first one that does not. -/
def checked {α : Type} (numbers : List FixtureNumber) (value : α) : Except RangeError α :=
  match numbers.find? fun number => ¬number.Fits with
  | none => .ok value
  | some number => .error { field := number.field, value := number.value }

section Checked

variable {α β ι κ σ ω μ : Type}

theorem checked_bind (numbers : List FixtureNumber) {value : α} {next : α → Except RangeError β}
    {more : List FixtureNumber} {result : β} (h : next value = checked more result) :
    checked numbers value >>= next = checked (numbers ++ more) result := by
  unfold checked at h ⊢
  rw [List.find?_append]
  cases numbers.find? fun number => ¬number.Fits with
  | none => exact h
  | some number => rfl

theorem checked_pure (numbers : List FixtureNumber) (value : α) (f : α → β) :
    (checked numbers value >>= fun value => pure (f value)) = checked numbers (f value) := by
  unfold checked
  cases numbers.find? fun number => ¬number.Fits <;> rfl

theorem checked_one (field : FixtureField) (number : Nat) (value : α) :
    checked [⟨field, number⟩] value =
      if number < field.limit then .ok value else .error { field, value := number } := by
  by_cases h : number < field.limit
  · simp [checked, FixtureNumber.Fits, h]
  · simp [checked, FixtureNumber.Fits, h, Nat.le_of_not_lt h]

theorem byte_eq_checked {field : FixtureField} (h : field.limit = 2 ^ 8) (n : Nat) :
    field.byte n = checked [⟨field, n⟩] (UInt8.ofNat n) := by
  rw [checked_one, h]
  rfl

theorem word_eq_checked {field : FixtureField} (h : field.limit = 2 ^ 16) (n : Nat) :
    field.word n = checked [⟨field, n⟩] (UInt16.ofNat n) := by
  rw [checked_one, h]
  rfl

theorem dword_eq_checked {field : FixtureField} (h : field.limit = 2 ^ 32) (n : Nat) :
    field.dword n = checked [⟨field, n⟩] (UInt32.ofNat n) := by
  rw [checked_one, h]
  rfl

theorem busAddress_eq_checked (n : Nat) :
    FixtureField.busAddress n = checked [⟨.i2cAddress, n⟩] (UInt8.ofNat n) := by
  rw [checked_one]
  rfl

theorem checked_eq_ok_iff {numbers : List FixtureNumber} {value result : α} :
    checked numbers value = .ok result ↔ (∀ number ∈ numbers, number.Fits) ∧ value = result := by
  unfold checked
  cases hfind : numbers.find? fun number => ¬number.Fits with
  | none =>
    have hall : ∀ number ∈ numbers, number.Fits := by simpa using hfind
    exact ⟨fun h => ⟨hall, Except.ok.inj h⟩, fun h => congrArg Except.ok h.2⟩
  | some number =>
    have hnot : ¬number.Fits := by simpa using List.find?_some hfind
    have hmem := List.mem_of_find?_eq_some hfind
    exact ⟨fun h => (nomatch h), fun h => absurd (h.1 number hmem) hnot⟩

theorem checked_eq_error_iff {numbers : List FixtureNumber} {value : α} {cause : RangeError} :
    checked numbers value = .error cause ↔ ∃ before number after,
      numbers = before ++ number :: after ∧ (∀ other ∈ before, other.Fits) ∧ ¬number.Fits ∧
        cause = { field := number.field, value := number.value } := by
  have hfirst (number : FixtureNumber) : (numbers.find? fun number => ¬number.Fits) = some number ↔
      ¬number.Fits ∧ ∃ before after, numbers = before ++ number :: after ∧
        ∀ other ∈ before, other.Fits := by
    rw [List.find?_eq_some_iff_append]
    simp
  unfold checked
  constructor
  · intro h
    cases hfind : numbers.find? fun number => ¬number.Fits with
    | none =>
      rw [hfind] at h
      cases h
    | some number =>
      rw [hfind] at h
      obtain ⟨hnot, before, after, hsplit, hbefore⟩ := (hfirst number).mp hfind
      exact ⟨before, number, after, hsplit, hbefore, hnot, (Except.error.inj h).symm⟩
  · rintro ⟨before, number, after, hsplit, hbefore, hnot, rfl⟩
    rw [(hfirst number).mpr ⟨hnot, before, after, hsplit, hbefore⟩]

/-- A section whose items check numbers of their own and then fill a part of the device. -/
theorem foldlM_checked {add : SimulatedDevice → ι → Except RangeError SimulatedDevice}
    {numbers : ι → List FixtureNumber} (place : μ → SimulatedDevice) (put : μ → ι → μ)
    (h : ∀ part item, add (place part) item = checked (numbers item) (place (put part item)))
    (items : List ι) (part : μ) :
    items.foldlM add (place part) =
      checked (items.flatMap numbers) (place (items.foldl put part)) := by
  induction items generalizing part with
  | nil => rfl
  | cons item rest ih =>
    rw [List.foldlM_cons, h]
    exact checked_bind (numbers item) (ih (put part item))

def fill [DecidableEq κ] (toKey : Nat → κ) (toValue : Nat → ω) (pairs : OrderedMap Nat Nat)
    (map : OrderedMap κ ω) : OrderedMap κ ω :=
  pairs.entries.foldl (fun map entry => map.insert (toKey entry.1) (toValue entry.2)) map

def fillRows [DecidableEq σ] [DecidableEq κ] (toRow : Nat → σ) (toKey : Nat → κ)
    (toValue : Nat → ω) (rows : OrderedMap Nat (OrderedMap Nat Nat)) (map : OrderedMap (σ × κ) ω) :
    OrderedMap (σ × κ) ω :=
  rows.entries.foldl (fun map entry => fill (fun n => (toRow entry.1, toKey n)) toValue entry.2 map)
    map

theorem foldlM_pairs {keyField valueField : FixtureField} {readKey : Nat → Except RangeError κ}
    {readValue : Nat → Except RangeError ω} {toKey : Nat → κ} {toValue : Nat → ω}
    (hkey : ∀ n, readKey n = checked [⟨keyField, n⟩] (toKey n))
    (hvalue : ∀ n, readValue n = checked [⟨valueField, n⟩] (toValue n))
    {set : SimulatedDevice → κ → ω → SimulatedDevice} (place : μ → SimulatedDevice)
    (put : μ → κ → ω → μ)
    (hset : ∀ part key value, set (place part) key value = place (put part key value))
    (pairs : OrderedMap Nat Nat) (part : μ) :
    pairs.entries.foldlM (fun device entry => do
        let key ← readKey entry.1
        let value ← readValue entry.2
        return set device key value) (place part) =
      checked (pairNumbers keyField valueField pairs) (place (pairs.entries.foldl
        (fun part entry => put part (toKey entry.1) (toValue entry.2)) part)) := by
  refine foldlM_checked place _ (fun part entry => ?_) pairs.entries part
  rw [hkey]
  refine checked_bind [_] ?_
  rw [hvalue, ← hset]
  exact checked_pure _ _ _

theorem foldlM_rows {rowField keyField valueField : FixtureField}
    {readRow : Nat → Except RangeError σ} {readKey : Nat → Except RangeError κ}
    {readValue : Nat → Except RangeError ω} {toRow : Nat → σ} {toKey : Nat → κ} {toValue : Nat → ω}
    (hrow : ∀ n, readRow n = checked [⟨rowField, n⟩] (toRow n))
    (hkey : ∀ n, readKey n = checked [⟨keyField, n⟩] (toKey n))
    (hvalue : ∀ n, readValue n = checked [⟨valueField, n⟩] (toValue n))
    {set : SimulatedDevice → σ → κ → ω → SimulatedDevice} (place : μ → SimulatedDevice)
    (put : μ → σ → κ → ω → μ)
    (hset : ∀ part row key value, set (place part) row key value = place (put part row key value))
    (rows : OrderedMap Nat (OrderedMap Nat Nat)) (part : μ) :
    rows.entries.foldlM (fun device entry => do
        let row ← readRow entry.1
        entry.2.entries.foldlM (fun device pair => do
          let key ← readKey pair.1
          let value ← readValue pair.2
          return set device row key value) device) (place part) =
      checked (rowNumbers rowField keyField valueField rows) (place (rows.entries.foldl
        (fun part entry => entry.2.entries.foldl
          (fun part pair => put part (toRow entry.1) (toKey pair.1) (toValue pair.2)) part)
        part)) := by
  refine foldlM_checked place _ (fun part entry => ?_) rows.entries part
  rw [hrow]
  exact checked_bind [_] (foldlM_pairs hkey hvalue place (put · (toRow entry.1))
    (fun part => hset part (toRow entry.1)) entry.2 part)

end Checked

/-! ## The device -/

def I2cFixture.change (entry : I2cFixture) (target : I2cDevice) : I2cDevice where
  registers := fill UInt16.ofNat UInt8.ofNat entry.registers target.registers
  refuses := target.refuses || entry.refuses

namespace Fixture

def putI2c (map : OrderedMap (UInt8 × UInt8) I2cDevice) (entry : I2cFixture) :
    OrderedMap (UInt8 × UInt8) I2cDevice :=
  map.modify (UInt8.ofNat entry.bus, UInt8.ofNat entry.addr) .blank entry.change

def putAux (map : OrderedMap UInt8 (OrderedMap UInt32 UInt8)) (entry : AuxFixture) :
    OrderedMap UInt8 (OrderedMap UInt32 UInt8) :=
  map.modify (UInt8.ofNat entry.bus) .empty (fill UInt32.ofNat UInt8.ofNat entry.registers)

def device (fixture : Fixture) : SimulatedDevice where
  regs := fill UInt32.ofNat UInt32.ofNat fixture.registers .empty
  indexedPorts := fillRows UInt16.ofNat UInt8.ofNat UInt8.ofNat fixture.indexed .empty
  ports := fill UInt16.ofNat UInt8.ofNat fixture.ports .empty
  i2c := fixture.i2c.foldl putI2c .empty
  aux := fixture.aux.foldl putAux .empty
  tmds := fill UInt8.ofNat UInt32.ofNat fixture.tmds .empty
  headTmds := fillRows UInt8.ofNat UInt8.ofNat UInt32.ofNat fixture.headTmds .empty
  failingPlls := fixture.failingPlls.foldl (fun regs reg => UInt32.ofNat reg :: regs) []

theorem foldlM_addRegister (device : SimulatedDevice) (pairs : OrderedMap Nat Nat) :
    pairs.entries.foldlM addRegister device = checked (pairNumbers .register .registerValue pairs)
      { device with regs := fill UInt32.ofNat UInt32.ofNat pairs device.regs } :=
  foldlM_pairs (dword_eq_checked rfl) (dword_eq_checked rfl) ({ device with regs := · })
    OrderedMap.insert (fun _ _ _ => rfl) pairs device.regs

theorem foldlM_addPort (device : SimulatedDevice) (pairs : OrderedMap Nat Nat) :
    pairs.entries.foldlM addPort device = checked (pairNumbers .port .portValue pairs)
      { device with ports := fill UInt16.ofNat UInt8.ofNat pairs device.ports } :=
  foldlM_pairs (word_eq_checked rfl) (byte_eq_checked rfl) ({ device with ports := · })
    OrderedMap.insert (fun _ _ _ => rfl) pairs device.ports

theorem foldlM_addTmds (device : SimulatedDevice) (pairs : OrderedMap Nat Nat) :
    pairs.entries.foldlM addTmds device = checked (pairNumbers .tmdsLink .tmdsRegister pairs)
      { device with tmds := fill UInt8.ofNat UInt32.ofNat pairs device.tmds } :=
  foldlM_pairs (byte_eq_checked rfl) (dword_eq_checked rfl) ({ device with tmds := · })
    OrderedMap.insert (fun _ _ _ => rfl) pairs device.tmds

theorem foldlM_addIndexed (device : SimulatedDevice) (rows : OrderedMap Nat (OrderedMap Nat Nat)) :
    rows.entries.foldlM addIndexed device =
      checked (rowNumbers .port .portIndex .portValue rows) { device with
        indexedPorts := fillRows UInt16.ofNat UInt8.ofNat UInt8.ofNat rows device.indexedPorts } :=
  foldlM_rows (word_eq_checked rfl) (byte_eq_checked rfl) (byte_eq_checked rfl)
    ({ device with indexedPorts := · }) (fun map port index => map.insert (port, index))
    (fun _ _ _ _ => rfl) rows device.indexedPorts

theorem foldlM_addHeadTmds (device : SimulatedDevice) (rows : OrderedMap Nat (OrderedMap Nat Nat)) :
    rows.entries.foldlM addHeadTmds device =
      checked (rowNumbers .head .tmdsLink .tmdsRegister rows) { device with
        headTmds := fillRows UInt8.ofNat UInt8.ofNat UInt32.ofNat rows device.headTmds } :=
  foldlM_rows (byte_eq_checked rfl) (byte_eq_checked rfl) (dword_eq_checked rfl)
    ({ device with headTmds := · }) (fun map head link => map.insert (head, link))
    (fun _ _ _ _ => rfl) rows device.headTmds

theorem foldlM_addAux (device : SimulatedDevice) (entries : List AuxFixture) :
    entries.foldlM addAux device =
      checked (entries.flatMap fun entry =>
          ⟨.auxBus, entry.bus⟩ :: pairNumbers .auxAddress .auxValue entry.registers)
        { device with aux := entries.foldl putAux device.aux } := by
  refine foldlM_checked ({ device with aux := · }) putAux (fun map entry => ?_) entries device.aux
  rw [addAux, byte_eq_checked rfl]
  refine checked_bind [_] ?_
  let bus := UInt8.ofNat entry.bus
  have hfill : putAux map entry = entry.registers.entries.foldl
      (fun map pair => map.modify bus .empty fun channel =>
        channel.insert (UInt32.ofNat pair.1) (UInt8.ofNat pair.2)) (map.modify bus .empty id) :=
    (map.foldl_modify bus .empty id (fun channel (pair : Nat × Nat) =>
      channel.insert (UInt32.ofNat pair.1) (UInt8.ofNat pair.2)) entry.registers.entries).symm
  rw [hfill]
  exact foldlM_pairs (dword_eq_checked rfl) (byte_eq_checked rfl) ({ device with aux := · })
    (fun map addr value => map.modify bus .empty (·.insert addr value)) (fun _ _ _ => rfl)
    entry.registers (map.modify bus .empty id)

theorem foldlM_addI2c (device : SimulatedDevice) (entries : List I2cFixture) :
    entries.foldlM addI2c device =
      checked (entries.flatMap fun entry => ⟨.i2cBus, entry.bus⟩ :: ⟨.i2cAddress, entry.addr⟩ ::
          pairNumbers .i2cRegister .i2cValue entry.registers)
        { device with i2c := entries.foldl putI2c device.i2c } := by
  refine foldlM_checked ({ device with i2c := · }) putI2c (fun map entry => ?_) entries device.i2c
  rw [addI2c, byte_eq_checked rfl]
  refine checked_bind [_] ?_
  rw [busAddress_eq_checked]
  refine checked_bind [_] ?_
  let bus := UInt8.ofNat entry.bus
  let addr := UInt8.ofNat entry.addr
  let mark (target : I2cDevice) : I2cDevice :=
    { target with refuses := target.refuses || entry.refuses }
  let store (target : I2cDevice) (reg : UInt16) (value : UInt8) : I2cDevice :=
    { target with registers := target.registers.insert reg value }
  have hmark : (if entry.refuses then
        ({ device with i2c := map } : SimulatedDevice).withRefusingDevice bus addr
      else ({ device with i2c := map } : SimulatedDevice).withI2cDevice bus addr) =
      { device with i2c := map.modify (bus, addr) .blank mark } := by
    have hwhich : mark =
        if entry.refuses then fun target => { target with refuses := true } else id := by
      funext target
      cases h : entry.refuses <;> simp [mark, h]
    rw [hwhich]
    cases entry.refuses <;> rfl
  have hchange : entry.change = fun target => entry.registers.entries.foldl
      (fun target pair => store target (UInt16.ofNat pair.1) (UInt8.ofNat pair.2)) (mark target) :=
    funext fun target => (List.foldl_hom (fun registers => { mark target with registers })
      fun _ _ => rfl).symm
  have hfill : putI2c map entry = entry.registers.entries.foldl
      (fun map pair => map.modify (bus, addr) .blank
        (store · (UInt16.ofNat pair.1) (UInt8.ofNat pair.2)))
      (map.modify (bus, addr) .blank mark) := by
    rw [OrderedMap.foldl_modify map (bus, addr) .blank mark
      (fun target (pair : Nat × Nat) => store target (UInt16.ofNat pair.1) (UInt8.ofNat pair.2)),
      putI2c, hchange]
  rw [hfill, hmark]
  exact foldlM_pairs (word_eq_checked rfl) (byte_eq_checked rfl) ({ device with i2c := · })
    (fun map reg value => map.modify (bus, addr) .blank (store · reg value)) (fun _ _ _ => rfl)
    entry.registers (map.modify (bus, addr) .blank mark)

theorem foldlM_addFailingPll (device : SimulatedDevice) (regs : List Nat) :
    regs.foldlM addFailingPll device = checked (regs.map (⟨.pllRegister, ·⟩))
      { device with failingPlls :=
          regs.foldl (fun regs reg => UInt32.ofNat reg :: regs) device.failingPlls } := by
  rw [← List.flatMap_singleton' (regs.map _), List.flatMap_map]
  refine foldlM_checked ({ device with failingPlls := · })
    (fun regs reg => UInt32.ofNat reg :: regs) (fun part reg => ?_) regs device.failingPlls
  rw [addFailingPll, dword_eq_checked rfl]
  exact checked_pure _ _ _

theorem build_eq (fixture : Fixture) : fixture.build = checked fixture.numbers fixture.device := by
  -- The sections follow each other, so each one's checks come in front of those behind it.
  simp only [build, numbers, List.append_assoc]
  rw [foldlM_addRegister]
  refine checked_bind _ ?_
  rw [foldlM_addIndexed]
  refine checked_bind _ ?_
  rw [foldlM_addPort]
  refine checked_bind _ ?_
  rw [foldlM_addI2c]
  refine checked_bind _ ?_
  rw [foldlM_addAux]
  refine checked_bind _ ?_
  rw [foldlM_addTmds]
  refine checked_bind _ ?_
  rw [foldlM_addHeadTmds]
  refine checked_bind _ ?_
  exact foldlM_addFailingPll _ _

end Fixture

/-! ## What the device holds -/

theorem byte_ofNat_eq_iff {n : Nat} (h : n < 2 ^ 8) (byte : UInt8) :
    UInt8.ofNat n = byte ↔ n = byte.toNat := by
  rw [← UInt8.toNat_inj, UInt8.toNat_ofNat_of_lt' h]

theorem word_ofNat_eq_iff {n : Nat} (h : n < 2 ^ 16) (word : UInt16) :
    UInt16.ofNat n = word ↔ n = word.toNat := by
  rw [← UInt16.toNat_inj, UInt16.toNat_ofNat_of_lt' h]

theorem dword_ofNat_eq_iff {n : Nat} (h : n < 2 ^ 32) (dword : UInt32) :
    UInt32.ofNat n = dword ↔ n = dword.toNat := by
  rw [← UInt32.toNat_inj, UInt32.toNat_ofNat_of_lt' h]

theorem fits_pairNumbers {key value : FixtureField} {map : OrderedMap Nat Nat}
    (h : ∀ number ∈ pairNumbers key value map, number.Fits) {entry : Nat × Nat}
    (hentry : entry ∈ map.entries) : entry.1 < key.limit ∧ entry.2 < value.limit :=
  ⟨h ⟨key, entry.1⟩ (List.mem_flatMap.mpr ⟨entry, hentry, by simp⟩),
    h ⟨value, entry.2⟩ (List.mem_flatMap.mpr ⟨entry, hentry, by simp⟩)⟩

theorem fits_rowNumbers {row key value : FixtureField} {map : OrderedMap Nat (OrderedMap Nat Nat)}
    (h : ∀ number ∈ rowNumbers row key value map, number.Fits) {entry : Nat × OrderedMap Nat Nat}
    (hentry : entry ∈ map.entries) : entry.1 < row.limit ∧
      ∀ pair ∈ entry.2.entries, pair.1 < key.limit ∧ pair.2 < value.limit := by
  obtain ⟨hrow, hpairs⟩ := List.forall_mem_cons.mp fun number hnumber =>
    h number (List.mem_flatMap.mpr ⟨entry, hentry, hnumber⟩)
  exact ⟨hrow, fun pair hpair => fits_pairNumbers hpairs hpair⟩

section Fill

variable {κ σ ω : Type} [DecidableEq κ] [DecidableEq σ] {toKey : Nat → κ} {toValue : Nat → ω}
  {toNat : ω → Nat} {key : κ} {code : Nat}

theorem get?_fill {pairs : OrderedMap Nat Nat}
    (hkey : ∀ entry ∈ pairs.entries, (toKey entry.1 = key ↔ entry.1 = code))
    (hvalue : ∀ entry ∈ pairs.entries, toNat (toValue entry.2) = entry.2) (map : OrderedMap κ ω) :
    ((fill toKey toValue pairs map).get? key).map toNat =
      (pairs.get? code).or ((map.get? key).map toNat) := by
  have hlast : lastOf (fun entry => if entry.1 = code then some entry.2 else none) pairs.entries =
      pairs.get? code := (pairs.lastOf_entries code some).trans (Option.bind_fun_some _)
  rw [← hlast]
  refine view_foldl (fun map : OrderedMap κ ω => (map.get? key).map toNat) _ _ pairs.entries
    (fun map entry hentry => ?_) map
  rw [OrderedMap.get?_insert]
  by_cases h : entry.1 = code
  · rw [if_pos ((hkey entry hentry).mpr h), if_pos h, Option.map_some, hvalue entry hentry]
    rfl
  · rw [if_neg (mt (hkey entry hentry).mp h), if_neg h]
    rfl

theorem get?_fill_of_ne {pairs : OrderedMap Nat Nat} (h : ∀ n, toKey n ≠ key)
    (map : OrderedMap κ ω) : (fill toKey toValue pairs map).get? key = map.get? key := by
  have hlast : lastOf (fun _ : Nat × Nat => (none : Option ω)) pairs.entries = none :=
    (lastOf_eq_none_iff _ _).mpr fun _ _ => rfl
  refine (view_foldl (fun map : OrderedMap κ ω => map.get? key) _ (fun _ => none) pairs.entries
    (fun map entry _ => ?_) map).trans (by rw [hlast, Option.none_or])
  exact OrderedMap.get?_insert_of_ne map _ (h entry.1)

theorem get?_fillRows {toRow : Nat → σ} {row : σ} {rowCode : Nat}
    {rows : OrderedMap Nat (OrderedMap Nat Nat)}
    (hrow : ∀ entry ∈ rows.entries, (toRow entry.1 = row ↔ entry.1 = rowCode))
    (hkey : ∀ entry ∈ rows.entries, ∀ pair ∈ entry.2.entries, (toKey pair.1 = key ↔ pair.1 = code))
    (hvalue : ∀ entry ∈ rows.entries, ∀ pair ∈ entry.2.entries, toNat (toValue pair.2) = pair.2) :
    ((fillRows toRow toKey toValue rows .empty).get? (row, key)).map toNat =
      (rows.get? rowCode).bind (·.get? code) := by
  rw [← rows.lastOf_entries]
  refine (view_foldl (fun map : OrderedMap (σ × κ) ω => (map.get? (row, key)).map toNat) _ _
    rows.entries (fun map entry hentry => ?_) .empty).trans Option.or_none
  by_cases h : entry.1 = rowCode
  · have hpair (pair : Nat × Nat) (hpair : pair ∈ entry.2.entries) :
        (toRow entry.1, toKey pair.1) = (row, key) ↔ pair.1 = code := by
      rw [Prod.mk.injEq, (hrow entry hentry).mpr h, hkey entry hentry pair hpair]
      simp
    rw [if_pos h]
    exact get?_fill hpair (hvalue entry hentry) map
  · have hne (n : Nat) : (toRow entry.1, toKey n) ≠ (row, key) := fun heq =>
      h ((hrow entry hentry).mp (congrArg Prod.fst heq))
    rw [if_neg h, get?_fill_of_ne hne]
    rfl

end Fill

section Device

variable {fixture : Fixture}

open OrderedMap

theorem reg_device
    (h : ∀ number ∈ pairNumbers .register .registerValue fixture.registers, number.Fits)
    (reg : UInt32) :
    (fixture.device.reg reg).toNat = (fixture.registers.get? reg.toNat).getD 0 := by
  have hview : (fixture.device.regs.get? reg).map UInt32.toNat =
      (fixture.registers.get? reg.toNat).or none :=
    get?_fill (fun entry hentry => dword_ofNat_eq_iff (fits_pairNumbers h hentry).1 reg)
      (fun entry hentry => UInt32.toNat_ofNat_of_lt' (fits_pairNumbers h hentry).2) .empty
  exact (Option.getD_map UInt32.toNat 0 _).symm.trans
    (congrArg (Option.getD · 0) (hview.trans Option.or_none))

theorem port_device (h : ∀ number ∈ pairNumbers .port .portValue fixture.ports, number.Fits)
    (port : UInt16) :
    (fixture.device.port port).toNat = (fixture.ports.get? port.toNat).getD 0 := by
  have hview : (fixture.device.ports.get? port).map UInt8.toNat =
      (fixture.ports.get? port.toNat).or none :=
    get?_fill (fun entry hentry => word_ofNat_eq_iff (fits_pairNumbers h hentry).1 port)
      (fun entry hentry => UInt8.toNat_ofNat_of_lt' (fits_pairNumbers h hentry).2) .empty
  exact (Option.getD_map UInt8.toNat 0 _).symm.trans
    (congrArg (Option.getD · 0) (hview.trans Option.or_none))

theorem indexed_device
    (h : ∀ number ∈ rowNumbers .port .portIndex .portValue fixture.indexed, number.Fits)
    (port : UInt16) (index : UInt8) : (fixture.device.indexed port index).toNat =
      ((fixture.indexed.get? port.toNat).bind (·.get? index.toNat)).getD 0 := by
  have hview : (fixture.device.indexedPorts.get? (port, index)).map UInt8.toNat =
      (fixture.indexed.get? port.toNat).bind (·.get? index.toNat) :=
    get?_fillRows (fun entry hentry => word_ofNat_eq_iff (fits_rowNumbers h hentry).1 port)
      (fun entry hentry pair hpair =>
        byte_ofNat_eq_iff ((fits_rowNumbers h hentry).2 pair hpair).1 index)
      (fun entry hentry pair hpair =>
        UInt8.toNat_ofNat_of_lt' ((fits_rowNumbers h hentry).2 pair hpair).2)
  exact (Option.getD_map UInt8.toNat 0 _).symm.trans (congrArg (Option.getD · 0) hview)

theorem tmdsLink_device
    (hlinks : ∀ number ∈ pairNumbers .tmdsLink .tmdsRegister fixture.tmds, number.Fits)
    (hheads : ∀ number ∈ rowNumbers .head .tmdsLink .tmdsRegister fixture.headTmds, number.Fits)
    (link : UInt8) (output : Output) : (fixture.device.tmdsLink link output).map UInt32.toNat =
      ((fixture.headTmds.get? output.head.toNat).bind (·.get? link.toNat)).or
        (fixture.tmds.get? link.toNat) := by
  have hlink : (fixture.device.tmds.get? link).map UInt32.toNat =
      (fixture.tmds.get? link.toNat).or none :=
    get?_fill (fun entry hentry => byte_ofNat_eq_iff (fits_pairNumbers hlinks hentry).1 link)
      (fun entry hentry => UInt32.toNat_ofNat_of_lt' (fits_pairNumbers hlinks hentry).2) .empty
  have hhead : (fixture.device.headTmds.get? (output.head, link)).map UInt32.toNat =
      (fixture.headTmds.get? output.head.toNat).bind (·.get? link.toNat) :=
    get?_fillRows
      (fun entry hentry => byte_ofNat_eq_iff (fits_rowNumbers hheads hentry).1 output.head)
      (fun entry hentry pair hpair =>
        byte_ofNat_eq_iff ((fits_rowNumbers hheads hentry).2 pair hpair).1 link)
      (fun entry hentry pair hpair =>
        UInt32.toNat_ofNat_of_lt' ((fits_rowNumbers hheads hentry).2 pair hpair).2)
  rw [SimulatedDevice.tmdsLink, Option.map_or, hhead, hlink, Option.or_none]

theorem names_iff {entry : I2cFixture} (hbus : FixtureNumber.Fits ⟨.i2cBus, entry.bus⟩)
    (haddr : FixtureNumber.Fits ⟨.i2cAddress, entry.addr⟩) (bus addr : UInt8) :
    (UInt8.ofNat entry.bus, UInt8.ofNat entry.addr) = (bus, addr) ↔ entry.Names bus addr := by
  have haddr : entry.addr < 2 ^ 7 := haddr
  rw [Prod.mk.injEq, byte_ofNat_eq_iff hbus, byte_ofNat_eq_iff (by omega)]
  rfl

theorem refuses_device {bus addr : UInt8}
    (h : ∀ entry ∈ fixture.i2c, ((UInt8.ofNat entry.bus, UInt8.ofNat entry.addr) = (bus, addr) ↔
      entry.Names bus addr)) :
    fixture.device.i2cTarget bus addr = .error (.nak bus addr.toUInt32) ↔
      ∃ entry ∈ fixture.i2c, entry.Names bus addr ∧ entry.refuses = true := by
  let refused (refuses : Bool) : Option Unit := if refuses then some () else none
  have hor (refuses other : Bool) : refused (other || refuses) =
      (refused refuses).or (refused other) := by
    cases refuses <;> cases other <;> rfl
  have hview : ((fixture.device.i2c.get? (bus, addr)).bind fun target => refused target.refuses) =
      lastOf (fun entry => if entry.Names bus addr then refused entry.refuses else none)
        fixture.i2c :=
    view_modifies (fun target : I2cDevice => refused target.refuses)
      (fun entry : I2cFixture => refused entry.refuses) h
      (fun entry _ => (hor entry.refuses false).trans Option.or_none)
      (fun entry _ target => hor entry.refuses target.refuses)
  have htarget : fixture.device.i2cTarget bus addr = .error (.nak bus addr.toUInt32) ↔
      ((fixture.device.i2c.get? (bus, addr)).bind fun target =>
        refused target.refuses).isSome = true := by
    rw [SimulatedDevice.i2cTarget]
    cases fixture.device.i2c.get? (bus, addr) with
    | none => simp
    | some target => cases h : target.refuses <;> simp [refused, h]
  rw [htarget, hview, isSome_lastOf_iff]
  refine exists_congr fun entry => and_congr_right fun _ => ?_
  by_cases hnames : entry.Names bus addr
  · simp [hnames, refused]
  · simp [hnames]

theorem i2cRegister_device {bus addr : UInt8}
    (h : ∀ entry ∈ fixture.i2c, ((UInt8.ofNat entry.bus, UInt8.ofNat entry.addr) = (bus, addr) ↔
      entry.Names bus addr))
    (hfits : ∀ entry ∈ fixture.i2c,
      ∀ number ∈ pairNumbers .i2cRegister .i2cValue entry.registers, number.Fits) (reg : UInt16) :
    (fixture.device.i2cRegister bus addr reg).map UInt8.toNat =
      lastOf (fun entry => if entry.Names bus addr then entry.registers.get? reg.toNat else none)
        fixture.i2c := by
  have hfill (entry : I2cFixture) (hentry : entry ∈ fixture.i2c) (target : I2cDevice) :
      ((entry.change target).registers.get? reg).map UInt8.toNat =
        (entry.registers.get? reg.toNat).or ((target.registers.get? reg).map UInt8.toNat) :=
    get?_fill
      (fun pair hpair => word_ofNat_eq_iff (fits_pairNumbers (hfits entry hentry) hpair).1 reg)
      (fun pair hpair => UInt8.toNat_ofNat_of_lt' (fits_pairNumbers (hfits entry hentry) hpair).2)
      target.registers
  rw [SimulatedDevice.i2cRegister, Option.map_bind]
  exact view_modifies (fun target : I2cDevice => (target.registers.get? reg).map UInt8.toNat)
    (fun entry : I2cFixture => entry.registers.get? reg.toNat) h
    (fun entry hentry => (hfill entry hentry .blank).trans Option.or_none) hfill

theorem auxByte_device {bus : UInt8}
    (h : ∀ entry ∈ fixture.aux, (UInt8.ofNat entry.bus = bus ↔ entry.bus = bus.toNat))
    (hfits : ∀ entry ∈ fixture.aux,
      ∀ number ∈ pairNumbers .auxAddress .auxValue entry.registers, number.Fits) (addr : UInt32) :
    (fixture.device.auxByte bus addr).map UInt8.toNat =
      lastOf (fun entry => if entry.bus = bus.toNat then entry.registers.get? addr.toNat else none)
        fixture.aux := by
  have hfill (entry : AuxFixture) (hentry : entry ∈ fixture.aux)
      (channel : OrderedMap UInt32 UInt8) :
      ((fill UInt32.ofNat UInt8.ofNat entry.registers channel).get? addr).map UInt8.toNat =
        (entry.registers.get? addr.toNat).or ((channel.get? addr).map UInt8.toNat) :=
    get?_fill
      (fun pair hpair => dword_ofNat_eq_iff (fits_pairNumbers (hfits entry hentry) hpair).1 addr)
      (fun pair hpair => UInt8.toNat_ofNat_of_lt' (fits_pairNumbers (hfits entry hentry) hpair).2)
      channel
  rw [SimulatedDevice.auxByte, Option.map_bind]
  exact view_modifies (fun channel : OrderedMap UInt32 UInt8 => (channel.get? addr).map UInt8.toNat)
    (fun entry : AuxFixture => entry.registers.get? addr.toNat) h
    (fun entry hentry => (hfill entry hentry .empty).trans Option.or_none) hfill

theorem mem_failingPlls_device
    (h : ∀ number ∈ fixture.failingPlls.map (FixtureNumber.mk .pllRegister), number.Fits)
    (reg : UInt32) : reg ∈ fixture.device.failingPlls ↔ reg.toNat ∈ fixture.failingPlls := by
  have hregs : fixture.device.failingPlls = (fixture.failingPlls.map UInt32.ofNat).reverse := by
    rw [Fixture.device, List.foldl_flip_cons_eq_append, List.append_nil]
  rw [hregs, List.mem_reverse, List.mem_map]
  constructor
  · rintro ⟨value, hvalue, hreg⟩
    have hlt := h ⟨.pllRegister, value⟩ (List.mem_map.mpr ⟨value, hvalue, rfl⟩)
    exact (dword_ofNat_eq_iff hlt reg).mp hreg ▸ hvalue
  · exact fun hmem => ⟨reg.toNat, hmem, UInt32.ofNat_toNat⟩

theorem describes_device (h : ∀ number ∈ fixture.numbers, number.Fits) :
    fixture.Describes fixture.device := by
  -- What is assumed of all numbers is assumed of each section on its own.
  simp only [Fixture.numbers, List.forall_mem_append, List.forall_mem_flatMap,
    List.forall_mem_cons] at h
  obtain ⟨⟨⟨⟨⟨⟨⟨hregs, hindexed⟩, hports⟩, hi2c⟩, haux⟩, htmds⟩, hheads⟩, hplls⟩ := h
  have hnames (bus addr : UInt8) (entry : I2cFixture) (hentry : entry ∈ fixture.i2c) :
      (UInt8.ofNat entry.bus, UInt8.ofNat entry.addr) = (bus, addr) ↔ entry.Names bus addr :=
    names_iff (hi2c entry hentry).1 (hi2c entry hentry).2.1 bus addr
  have hchannel (bus : UInt8) (entry : AuxFixture) (hentry : entry ∈ fixture.aux) :
      UInt8.ofNat entry.bus = bus ↔ entry.bus = bus.toNat :=
    byte_ofNat_eq_iff (haux entry hentry).1 bus
  constructor
  case calls => rfl
  case reg => exact reg_device hregs
  case indexed => exact indexed_device hindexed
  case port => exact port_device hports
  case i2c => exact fun bus addr => isSome_modifies (hnames bus addr)
  case refuses => exact fun bus addr => refuses_device (hnames bus addr)
  case i2cRegister =>
    exact fun bus addr => i2cRegister_device (hnames bus addr) fun entry hentry =>
      (hi2c entry hentry).2.2
  case aux => exact fun bus => isSome_modifies (hchannel bus)
  case auxByte =>
    exact fun bus => auxByte_device (hchannel bus) fun entry hentry => (haux entry hentry).2
  case tmdsLink => exact tmdsLink_device htmds hheads
  case failingPlls => exact mem_failingPlls_device hplls

end Device

/-! ## Fixtures as they are written -/

theorem mapError_eq_ok_iff {ε ε' α : Type} {f : ε → ε'} {first : Except ε α} {result : α} :
    first.mapError f = .ok result ↔ first = .ok result := by
  cases first <;> simp [Except.mapError]

/-- The map that is read from an object has its numbers in the order of the document, and a number
that comes again, in whatever spelling, replaces the value of the earlier one. -/
theorem collapses_of_map {α : Type} {value : FixtureText.Reader α} {fields : List (String × Json)}
    {map : OrderedMap Nat α} (h : FixtureText.map value (.object fields) = .ok map) :
    ∃ pairs, List.Forall₂ (fun field pair =>
        parseNumber field.1 = .ok pair.1 ∧ value field.2 = .ok pair.2) fields pairs ∧
      map.Collapses pairs := by
  obtain ⟨pairs, hpairs, hmap⟩ := bind_eq_ok_iff.mp h
  obtain rfl := Except.ok.inj hmap
  refine ⟨pairs, ?_, OrderedMap.collapses_ofList pairs⟩
  clear h hmap
  induction fields generalizing pairs with
  | nil =>
    cases hpairs
    exact .nil
  | cons field rest ih =>
    simp only [List.mapM_cons, bind_eq_ok_iff, pure_eq_ok_iff, mapError_eq_ok_iff] at hpairs
    obtain ⟨pair, ⟨key, hkey, read, hread, rfl⟩, more, hmore, rfl⟩ := hpairs
    exact .cons ⟨hkey, hread⟩ (ih more hmore)

/-! ## Building -/

/-- A device is built exactly if all numbers fit, and else the first one that does not, in the
order of the fixture, is reported. The device holds what the fixture says; and a map of the
fixture has, for each number in the order of the document, the value that stands last for it. -/
theorem fixture_build_faithful (fixture : Fixture) :
    ((∃ device, fixture.build = .ok device) ↔ ∀ number ∈ fixture.numbers, number.Fits) ∧
      (∀ cause, fixture.build = .error cause ↔ ∃ before number after,
        fixture.numbers = before ++ number :: after ∧ (∀ other ∈ before, other.Fits) ∧
          ¬number.Fits ∧ cause = { field := number.field, value := number.value }) ∧
      (∀ device, fixture.build = .ok device → fixture.Describes device) ∧
      ∀ (α : Type) (value : FixtureText.Reader α) (fields : List (String × Json))
        (map : OrderedMap Nat α), FixtureText.map value (.object fields) = .ok map →
          ∃ pairs, List.Forall₂ (fun field pair =>
              parseNumber field.1 = .ok pair.1 ∧ value field.2 = .ok pair.2) fields pairs ∧
            map.Collapses pairs := by
  rw [fixture.build_eq]
  refine ⟨?_, fun cause => checked_eq_error_iff, fun device h => ?_,
    fun α value fields map h => collapses_of_map h⟩
  · simp only [checked_eq_ok_iff, exists_and_left, exists_eq', and_true]
  · obtain ⟨hfits, rfl⟩ := checked_eq_ok_iff.mp h
    exact describes_device hfits

/-- Two entries name one device: it refuses as the first one says, and has the register value of
the second one. -/
theorem fixture_build_faithful_of_two_entries :
    let fixture : Fixture :=
      { i2c := [{ bus := 1, addr := 0x50, registers := .ofList [(2, 5)], refuses := true },
          { bus := 1, addr := 0x50, registers := .ofList [(2, 6)] }] }
    ∃ device, fixture.build = .ok device ∧ device.calls = #[] ∧
      device.i2cTarget 1 0x50 = .error (.nak 1 0x50) ∧
      (device.i2cRegister 1 0x50 2).map UInt8.toNat = some 6 := by
  intro fixture
  obtain ⟨hbuilt, -, hdescribes, -⟩ := fixture_build_faithful fixture
  obtain ⟨device, hd⟩ := hbuilt.mpr (by decide)
  have h := hdescribes device hd
  refine ⟨device, hd, h.calls, (h.refuses 1 0x50).mpr ?_, (h.i2cRegister 1 0x50 2).trans ?_⟩
  · exact ⟨_, List.mem_cons_self, ⟨rfl, rfl⟩, rfl⟩
  · decide

end RomScript
