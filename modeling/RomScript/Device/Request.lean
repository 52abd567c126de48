import RomScript.Device.Error
import RomScript.Device.Output

/-!
# Requests to a device

All that a script does to a device is a request with an answer of a fixed type.
Registers and ports always answer; transfers and clocks can fail. A read from a bus
fills a buffer, so its answer has as many bytes as the buffer, and a failed read
leaves the buffer as it was. A facade answers requests from a device state of any
type.
-/

set_option autoImplicit false

namespace RomScript

inductive Request
  | readReg (reg : UInt32)
  | writeReg (reg value : UInt32)
  /-- Selects an index on a port and reads the port behind it. -/
  | readIndexed (port : UInt16) (index : UInt8)
  | writeIndexed (port : UInt16) (index value : UInt8)
  | readPort (port : UInt16)
  | writePort (port : UInt16) (value : UInt8)
  | i2cWrite (bus addr : UInt8) (message : List UInt8)
  /-- Writes a message to a seven-bit address on a bus, then fills the buffer from it. -/
  | i2cWriteRead (bus addr : UInt8) (message buffer : List UInt8)
  | auxRead (bus : UInt8) (addr : UInt32) (buffer : List UInt8)
  | auxWrite (bus : UInt8) (addr : UInt32) (data : List UInt8)
  | programPll (reg khz : UInt32)
  | programPllId (id : UInt8) (khz : UInt32)
  | sleepMicros (micros : UInt32)
  | sleepMillis (millis : UInt32)
  | computeMemory
  | resetGpios (excluded : List UInt8)
  | tmdsRegister (link : UInt8) (output : Output)
  deriving DecidableEq, Repr

namespace Request

abbrev Answer : Request → Type
  | .readReg _ => UInt32
  | .readIndexed .. | .readPort _ => UInt8
  | .i2cWrite .. | .auxWrite .. => Except TransferError Unit
  | .i2cWriteRead .. | .auxRead .. => Except TransferError (List UInt8)
  | .programPll .. | .programPllId .. => Except PllError Unit
  | .tmdsRegister .. => Option UInt32
  | .writeReg .. | .writeIndexed .. | .writePort .. | .sleepMicros _ | .sleepMillis _
  | .computeMemory | .resetGpios _ => Unit

end Request

structure Facade (δ : Type) where
  answer : (request : Request) → StateM δ request.Answer

/-- The same device on a board that has no memory probe, no GPIO reset and no TMDS links:
such requests do nothing there. -/
def Facade.bare {δ : Type} (facade : Facade δ) : Facade δ where
  answer
    | .computeMemory => pure ()
    | .resetGpios _ => pure ()
    | .tmdsRegister .. => pure none
    | request => facade.answer request

end RomScript
