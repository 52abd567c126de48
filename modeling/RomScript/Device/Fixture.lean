import RomScript.Device.Simulated

/-!
# Fixtures

A fixture describes the first state of a simulated device in plain numbers. Building
the device narrows every number to the width of its place, in the order in which the
fixture lists them and a key before its value; the first number that does not fit is
reported.
-/

set_option autoImplicit false

namespace RomScript

structure I2cFixture where
  bus : Nat
  addr : Nat
  registers : OrderedMap Nat Nat := .empty
  refuses : Bool := false

structure AuxFixture where
  bus : Nat
  registers : OrderedMap Nat Nat := .empty

structure Fixture where
  registers : OrderedMap Nat Nat := .empty
  indexed : OrderedMap Nat (OrderedMap Nat Nat) := .empty
  ports : OrderedMap Nat Nat := .empty
  i2c : List I2cFixture := []
  aux : List AuxFixture := []
  tmds : OrderedMap Nat Nat := .empty
  headTmds : OrderedMap Nat (OrderedMap Nat Nat) := .empty
  failingPlls : List Nat := []

inductive FixtureField
  | register
  | registerValue
  | port
  | portIndex
  | portValue
  | i2cBus
  | i2cAddress
  | i2cRegister
  | i2cValue
  | auxBus
  | auxAddress
  | auxValue
  | tmdsLink
  | tmdsRegister
  | head
  | pllRegister
  deriving DecidableEq, Repr

def FixtureField.name : FixtureField → String
  | .register => "register"
  | .registerValue => "register value"
  | .port => "port"
  | .portIndex => "port index"
  | .portValue => "port value"
  | .i2cBus => "i2c bus"
  | .i2cAddress => "i2c address"
  | .i2cRegister => "i2c register"
  | .i2cValue => "i2c value"
  | .auxBus => "aux bus"
  | .auxAddress => "aux address"
  | .auxValue => "aux value"
  | .tmdsLink => "tmds link"
  | .tmdsRegister => "tmds register"
  | .head => "head"
  | .pllRegister => "pll register"

structure RangeError where
  field : FixtureField
  value : Nat
  deriving DecidableEq, Repr

def RangeError.message (cause : RangeError) : String :=
  cause.field.name ++ " " ++ hexLit 1 cause.value ++ " is out of range"

namespace FixtureField

def byte (field : FixtureField) (value : Nat) : Except RangeError UInt8 :=
  if value < UInt8.size then .ok (UInt8.ofNat value) else .error { field, value }

def word (field : FixtureField) (value : Nat) : Except RangeError UInt16 :=
  if value < UInt16.size then .ok (UInt16.ofNat value) else .error { field, value }

def dword (field : FixtureField) (value : Nat) : Except RangeError UInt32 :=
  if value < UInt32.size then .ok (UInt32.ofNat value) else .error { field, value }

/-- A bus address has seven bits. -/
def busAddress (value : Nat) : Except RangeError UInt8 :=
  if value < 0x80 then .ok (UInt8.ofNat value) else .error { field := .i2cAddress, value }

end FixtureField

namespace Fixture

open FixtureField

def addRegister (device : SimulatedDevice) (entry : Nat × Nat) :
    Except RangeError SimulatedDevice := do
  let reg ← register.dword entry.1
  let value ← registerValue.dword entry.2
  return device.withReg reg value

def addIndexed (device : SimulatedDevice) (entry : Nat × OrderedMap Nat Nat) :
    Except RangeError SimulatedDevice := do
  let port ← port.word entry.1
  entry.2.entries.foldlM (fun device entry => do
    let index ← portIndex.byte entry.1
    let value ← portValue.byte entry.2
    return device.withIndexed port index value) device

def addPort (device : SimulatedDevice) (entry : Nat × Nat) :
    Except RangeError SimulatedDevice := do
  let port ← port.word entry.1
  let value ← portValue.byte entry.2
  return device.withPort port value

/-- Adds a device or its registers. One refusing entry is enough to make the device refuse. -/
def addI2c (device : SimulatedDevice) (entry : I2cFixture) :
    Except RangeError SimulatedDevice := do
  let bus ← i2cBus.byte entry.bus
  let addr ← busAddress entry.addr
  let device := if entry.refuses then device.withRefusingDevice bus addr
    else device.withI2cDevice bus addr
  entry.registers.entries.foldlM (fun device entry => do
    let reg ← i2cRegister.word entry.1
    let value ← i2cValue.byte entry.2
    return device.withI2cRegister bus addr reg value) device

def addAux (device : SimulatedDevice) (entry : AuxFixture) :
    Except RangeError SimulatedDevice := do
  let bus ← auxBus.byte entry.bus
  entry.registers.entries.foldlM (fun device entry => do
    let addr ← auxAddress.dword entry.1
    let value ← auxValue.byte entry.2
    return device.withAuxByte bus addr value) (device.withAuxDevice bus)

def addTmds (device : SimulatedDevice) (entry : Nat × Nat) :
    Except RangeError SimulatedDevice := do
  let link ← tmdsLink.byte entry.1
  let reg ← tmdsRegister.dword entry.2
  return device.withTmds link reg

def addHeadTmds (device : SimulatedDevice) (entry : Nat × OrderedMap Nat Nat) :
    Except RangeError SimulatedDevice := do
  let head ← head.byte entry.1
  entry.2.entries.foldlM (fun device entry => do
    let link ← tmdsLink.byte entry.1
    let reg ← tmdsRegister.dword entry.2
    return device.withHeadTmds head link reg) device

def addFailingPll (device : SimulatedDevice) (value : Nat) :
    Except RangeError SimulatedDevice := do
  let reg ← pllRegister.dword value
  return device.withFailingPll reg

def build (fixture : Fixture) : Except RangeError SimulatedDevice := do
  let device ← fixture.registers.entries.foldlM addRegister SimulatedDevice.blank
  let device ← fixture.indexed.entries.foldlM addIndexed device
  let device ← fixture.ports.entries.foldlM addPort device
  let device ← fixture.i2c.foldlM addI2c device
  let device ← fixture.aux.foldlM addAux device
  let device ← fixture.tmds.entries.foldlM addTmds device
  let device ← fixture.headTmds.entries.foldlM addHeadTmds device
  fixture.failingPlls.foldlM addFailingPll device

end Fixture

end RomScript
