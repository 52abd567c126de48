import RomScript.Effect.Basic
import RomScript.Instruction.BusOp

/-!
# Effects on buses

Most bus operations send several bytes one by one. Where one of these transfers fails,
the others still take place, and the failure is noticed.
-/

set_option autoImplicit false

namespace RomScript

/-- Bus `0xff` is the bus of the active output; a stored address has one bit too many. -/
def BusAddress.resolve (target : BusAddress) (output : Output) : UInt8 × UInt8 :=
  (if target.bus = 0xff then output.i2cBus else target.bus, target.addr >>> 1)

/-- A failed transfer of one byte, to a device register where there is one. -/
structure TransferNotice where
  register : Option UInt8
  cause : TransferError
  deriving DecidableEq, Repr

namespace BusOp

open Effect

def noticeOf (register : Option UInt8) : Except TransferError Unit → Option TransferNotice
  | .ok _ => none
  | .error cause => some { register, cause }

def mergeI2c (bus addr : UInt8) (write : MaskedWrite) : Effect (Except TransferError Unit) := do
  match ← i2cReadByte bus addr write.target with
  | .error cause => return .error cause
  | .ok value => i2cWriteByte bus addr write.target (value &&& write.mask ||| write.data)

def mergeAux (bus : UInt8) (addr : UInt32) (write : MaskedByte) :
    Effect (Except TransferError Unit) := do
  match ← auxReadByte bus addr with
  | .error cause => return .error cause
  | .ok value => auxWriteByte bus addr (value &&& write.mask ||| write.data)

def linkRegister (link : UInt8) (output : Output) : Effect UInt32 := do
  match ← tmdsRegister link output with
  | some reg => return reg
  | none => .fail (.noTmdsRegister link)

def run (output : Output) : BusOp → Effect (List TransferNotice)
  | .i2cByte target writes =>
    let (bus, addr) := target.resolve output
    writes.filterMapM fun write => do
      return noticeOf (some write.target) (← mergeI2c bus addr write)
  | .zmI2cByte target writes =>
    let (bus, addr) := target.resolve output
    writes.filterMapM fun write => do
      return noticeOf (some write.target) (← i2cWriteByte bus addr write.target write.data)
  | .zmI2c target data => do
    let (bus, addr) := target.resolve output
    let answer ← i2cWrite bus addr data
    ofTransfer answer
    return []
  | .auxch addr writes =>
    writes.filterMapM fun write => do
      return noticeOf none (← mergeAux output.auxBus addr write)
  | .zmAuxch addr data =>
    data.filterMapM fun byte => do
      return noticeOf none (← auxWriteByte output.auxBus addr byte)
  | .tmds link addr mask data => do
    let reg ← linkRegister link output
    writeReg reg (addr.toUInt32 ||| 0x10000)
    let value ← readReg (reg + 4)
    writeReg (reg + 4) (value &&& mask.toUInt32 ||| data.toUInt32)
    writeReg reg addr.toUInt32
    return []
  | .zmTmdsGroup link writes => do
    let reg ← linkRegister link output
    writes.forM fun write => do
      writeReg (reg + 4) write.data.toUInt32
      writeReg reg write.target.toUInt32
    return []

end BusOp

end RomScript
