import RomScript.Device.Call
import RomScript.Device.Request
import RomScript.OrderedMap

/-!
# Simulated devices

A simulated device keeps what was written and records every call. A register or
port that was never set reads as zero. A transfer needs a device on the bus that
acknowledges; a failed transfer changes nothing but the record. Bytes of one
transfer go to addresses that follow each other and wrap around.
-/

set_option autoImplicit false

namespace RomScript

section Runs

variable {κ : Type} [DecidableEq κ]

/-- Sets bytes at `address` and the addresses that follow it. -/
def storeRun (next : κ → κ) : κ → List UInt8 → OrderedMap κ UInt8 → OrderedMap κ UInt8
  | _, [], map => map
  | address, byte :: rest, map => storeRun next (next address) rest (map.insert address byte)

/-- Reads bytes at `address` and the addresses that follow it; unset ones are zero. -/
def loadRun (next : κ → κ) (map : OrderedMap κ UInt8) : κ → Nat → List UInt8
  | _, 0 => []
  | address, count + 1 => (map.get? address).getD 0 :: loadRun next map (next address) count

theorem length_loadRun (next : κ → κ) (map : OrderedMap κ UInt8) (address : κ) (count : Nat) :
    (loadRun next map address count).length = count := by
  induction count generalizing address with
  | zero => rfl
  | succ count ih => simp [loadRun, ih]

end Runs

/-- The register file of a device on an I2C bus; `refuses` marks one that never acknowledges. -/
structure I2cDevice where
  registers : OrderedMap UInt16 UInt8
  refuses : Bool
  deriving Inhabited

namespace I2cDevice

def blank : I2cDevice := { registers := .empty, refuses := false }

/-- The first byte of a written message names the register for the bytes behind it. -/
def accept (target : I2cDevice) : List UInt8 → I2cDevice
  | [] => target
  | pointer :: values =>
    { target with registers := storeRun (· + 1) pointer.toUInt16 values target.registers }

/-- A message before a read names the register by its bytes, high byte first. -/
def pointerOf (message : List UInt8) : UInt16 :=
  message.foldl (fun pointer byte => pointer <<< 8 ||| byte.toUInt16) 0

def answer (target : I2cDevice) (message : List UInt8) (count : Nat) : List UInt8 :=
  loadRun (· + 1) target.registers (pointerOf message) count

end I2cDevice

structure SimulatedDevice where
  regs : OrderedMap UInt32 UInt32 := .empty
  indexedPorts : OrderedMap (UInt16 × UInt8) UInt8 := .empty
  ports : OrderedMap UInt16 UInt8 := .empty
  i2c : OrderedMap (UInt8 × UInt8) I2cDevice := .empty
  aux : OrderedMap UInt8 (OrderedMap UInt32 UInt8) := .empty
  tmds : OrderedMap UInt8 UInt32 := .empty
  /-- Links of one head, which win over those of `tmds`. -/
  headTmds : OrderedMap (UInt8 × UInt8) UInt32 := .empty
  failingPlls : List UInt32 := []
  calls : Array Call := #[]

namespace SimulatedDevice

def blank : SimulatedDevice := {}

instance : Inhabited SimulatedDevice := ⟨blank⟩

/-! ## Setting up -/

def withReg (device : SimulatedDevice) (reg value : UInt32) : SimulatedDevice :=
  { device with regs := device.regs.insert reg value }

def withIndexed (device : SimulatedDevice) (port : UInt16) (index value : UInt8) :
    SimulatedDevice :=
  { device with indexedPorts := device.indexedPorts.insert (port, index) value }

def withPort (device : SimulatedDevice) (port : UInt16) (value : UInt8) : SimulatedDevice :=
  { device with ports := device.ports.insert port value }

def modifyI2c (device : SimulatedDevice) (bus addr : UInt8) (change : I2cDevice → I2cDevice) :
    SimulatedDevice :=
  let target := (device.i2c.get? (bus, addr)).getD .blank
  { device with i2c := device.i2c.insert (bus, addr) (change target) }

def withI2cDevice (device : SimulatedDevice) (bus addr : UInt8) : SimulatedDevice :=
  device.modifyI2c bus addr id

def withI2cRegister (device : SimulatedDevice) (bus addr : UInt8) (reg : UInt16)
    (value : UInt8) : SimulatedDevice :=
  device.modifyI2c bus addr fun target =>
    { target with registers := target.registers.insert reg value }

def withRefusingDevice (device : SimulatedDevice) (bus addr : UInt8) : SimulatedDevice :=
  device.modifyI2c bus addr fun target => { target with refuses := true }

def modifyAux (device : SimulatedDevice) (bus : UInt8)
    (change : OrderedMap UInt32 UInt8 → OrderedMap UInt32 UInt8) : SimulatedDevice :=
  let channel := (device.aux.get? bus).getD .empty
  { device with aux := device.aux.insert bus (change channel) }

def withAuxDevice (device : SimulatedDevice) (bus : UInt8) : SimulatedDevice :=
  device.modifyAux bus id

def withAuxByte (device : SimulatedDevice) (bus : UInt8) (addr : UInt32) (value : UInt8) :
    SimulatedDevice :=
  device.modifyAux bus fun channel => channel.insert addr value

def withTmds (device : SimulatedDevice) (link : UInt8) (reg : UInt32) : SimulatedDevice :=
  { device with tmds := device.tmds.insert link reg }

def withHeadTmds (device : SimulatedDevice) (head link : UInt8) (reg : UInt32) :
    SimulatedDevice :=
  { device with headTmds := device.headTmds.insert (head, link) reg }

def withFailingPll (device : SimulatedDevice) (reg : UInt32) : SimulatedDevice :=
  { device with failingPlls := reg :: device.failingPlls }

/-! ## Looking without a call -/

def reg (device : SimulatedDevice) (reg : UInt32) : UInt32 := (device.regs.get? reg).getD 0

def indexed (device : SimulatedDevice) (port : UInt16) (index : UInt8) : UInt8 :=
  (device.indexedPorts.get? (port, index)).getD 0

def port (device : SimulatedDevice) (port : UInt16) : UInt8 := (device.ports.get? port).getD 0

def i2cRegister (device : SimulatedDevice) (bus addr : UInt8) (reg : UInt16) : Option UInt8 :=
  (device.i2c.get? (bus, addr)).bind fun target => target.registers.get? reg

def auxByte (device : SimulatedDevice) (bus : UInt8) (addr : UInt32) : Option UInt8 :=
  (device.aux.get? bus).bind fun channel => channel.get? addr

/-- The link of the active head, or else the one that all heads share. -/
def tmdsLink (device : SimulatedDevice) (link : UInt8) (output : Output) : Option UInt32 :=
  (device.headTmds.get? (output.head, link)).or (device.tmds.get? link)

/-! ## The record -/

def record (device : SimulatedDevice) (call : Call) : SimulatedDevice :=
  { device with calls := device.calls.push call }

@[simp] theorem toList_calls_record (device : SimulatedDevice) (call : Call) :
    (device.record call).calls.toList = device.calls.toList ++ [call] := by
  simp [record]

def takeCalls : StateM SimulatedDevice (Array Call) := fun device =>
  (device.calls, { device with calls := #[] })

/-! ## Operations -/

def i2cTarget (device : SimulatedDevice) (bus addr : UInt8) : Except TransferError I2cDevice :=
  match device.i2c.get? (bus, addr) with
  | none => .error (.noDevice bus addr.toUInt32)
  | some target => if target.refuses then .error (.nak bus addr.toUInt32) else .ok target

def auxTarget (device : SimulatedDevice) (bus : UInt8) (addr : UInt32) :
    Except TransferError (OrderedMap UInt32 UInt8) :=
  match device.aux.get? bus with
  | none => .error (.noDevice bus addr)
  | some channel => .ok channel

def readReg (reg : UInt32) : StateM SimulatedDevice UInt32 := fun device =>
  let value := device.reg reg
  (value, device.record (.readReg reg value))

def writeReg (reg value : UInt32) : StateM SimulatedDevice Unit := fun device =>
  ((), (device.withReg reg value).record (.writeReg reg value))

def readIndexed (port : UInt16) (index : UInt8) : StateM SimulatedDevice UInt8 := fun device =>
  let value := device.indexed port index
  (value, device.record (.readIndexed port index value))

def writeIndexed (port : UInt16) (index value : UInt8) : StateM SimulatedDevice Unit :=
  fun device => ((), (device.withIndexed port index value).record (.writeIndexed port index value))

def readPort (port : UInt16) : StateM SimulatedDevice UInt8 := fun device =>
  let value := device.port port
  (value, device.record (.readPort port value))

def writePort (port : UInt16) (value : UInt8) : StateM SimulatedDevice Unit := fun device =>
  ((), (device.withPort port value).record (.writePort port value))

def i2cWrite (bus addr : UInt8) (message : List UInt8) :
    StateM SimulatedDevice (Except TransferError Unit) := fun device =>
  match device.i2cTarget bus addr with
  | .error cause => (.error cause, device.record (.i2cWrite bus addr message false))
  | .ok target =>
    (.ok (), { device with i2c := device.i2c.insert (bus, addr) (target.accept message) }.record
      (.i2cWrite bus addr message true))

def i2cWriteRead (bus addr : UInt8) (message buffer : List UInt8) :
    StateM SimulatedDevice (Except TransferError (List UInt8)) := fun device =>
  match device.i2cTarget bus addr with
  | .error cause => (.error cause, device.record (.i2cWriteRead bus addr message buffer false))
  | .ok target =>
    let bytes := target.answer message buffer.length
    (.ok bytes, device.record (.i2cWriteRead bus addr message bytes true))

def auxRead (bus : UInt8) (addr : UInt32) (buffer : List UInt8) :
    StateM SimulatedDevice (Except TransferError (List UInt8)) := fun device =>
  match device.auxTarget bus addr with
  | .error cause => (.error cause, device.record (.auxRead bus addr buffer false))
  | .ok channel =>
    let bytes := loadRun (· + 1) channel addr buffer.length
    (.ok bytes, device.record (.auxRead bus addr bytes true))

def auxWrite (bus : UInt8) (addr : UInt32) (data : List UInt8) :
    StateM SimulatedDevice (Except TransferError Unit) := fun device =>
  match device.auxTarget bus addr with
  | .error cause => (.error cause, device.record (.auxWrite bus addr data false))
  | .ok channel =>
    (.ok (),
      { device with aux := device.aux.insert bus (storeRun (· + 1) addr data channel) }.record
        (.auxWrite bus addr data true))

def programPll (reg khz : UInt32) : StateM SimulatedDevice (Except PllError Unit) := fun device =>
  if reg ∈ device.failingPlls then
    (.error (.outOfRange reg khz), device.record (.programPll reg khz false))
  else (.ok (), device.record (.programPll reg khz true))

def programPllId (id : UInt8) (khz : UInt32) : StateM SimulatedDevice (Except PllError Unit) :=
  fun device => (.ok (), device.record (.programPllId id khz))

def sleepMicros (micros : UInt32) : StateM SimulatedDevice Unit := fun device =>
  ((), device.record (.sleepMicros micros))

def sleepMillis (millis : UInt32) : StateM SimulatedDevice Unit := fun device =>
  ((), device.record (.sleepMillis millis))

def computeMemory : StateM SimulatedDevice Unit := fun device =>
  ((), device.record .computeMemory)

def resetGpios (excluded : List UInt8) : StateM SimulatedDevice Unit := fun device =>
  ((), device.record (.resetGpios excluded))

def tmdsRegister (link : UInt8) (output : Output) : StateM SimulatedDevice (Option UInt32) :=
  fun device => (device.tmdsLink link output, device)

def facade : Facade SimulatedDevice where
  answer
    | .readReg reg => readReg reg
    | .writeReg reg value => writeReg reg value
    | .readIndexed port index => readIndexed port index
    | .writeIndexed port index value => writeIndexed port index value
    | .readPort port => readPort port
    | .writePort port value => writePort port value
    | .i2cWrite bus addr message => i2cWrite bus addr message
    | .i2cWriteRead bus addr message buffer => i2cWriteRead bus addr message buffer
    | .auxRead bus addr buffer => auxRead bus addr buffer
    | .auxWrite bus addr data => auxWrite bus addr data
    | .programPll reg khz => programPll reg khz
    | .programPllId id khz => programPllId id khz
    | .sleepMicros micros => sleepMicros micros
    | .sleepMillis millis => sleepMillis millis
    | .computeMemory => computeMemory
    | .resetGpios excluded => resetGpios excluded
    | .tmdsRegister link output => tmdsRegister link output

end SimulatedDevice

end RomScript
