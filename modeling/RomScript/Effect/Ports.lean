import RomScript.Effect.Selection
import RomScript.Instruction.PortOp

/-!
# Effects on ports
-/

set_option autoImplicit false

namespace RomScript

namespace Effect

def updatePort (port : UInt16) (change : UInt8 → UInt8) : Effect Unit := do
  let value ← readPort port
  writePort port (change value)

def updateIndexed (port : UInt16) (index : UInt8) (change : UInt8 → UInt8) : Effect Unit := do
  let value ← readIndexed port index
  writeIndexed port index (change value)

def writeLatchedBytes (addressIndex dataIndex : UInt8) : UInt8 → List UInt8 → Effect Unit
  | _, [] => .done ()
  | address, byte :: rest => do
    writeIndexed crtcPort addressIndex address
    writeIndexed crtcPort dataIndex byte
    writeLatchedBytes addressIndex dataIndex (address + 1) rest

end Effect

namespace PortOp

open Effect

/-- The bit of the active output resource; resources above seven have none. -/
def resourceBit (output : Output) : UInt8 := UInt8.ofNat (1 <<< output.resource.toNat)

def run (output : Output) : PortOp → Effect Unit
  | .io port mask data => updatePort port fun value => value &&& mask ||| data
  | .indexIo port index mask data => updateIndexed port index fun value => value &&& mask ||| data
  | .zmIndexIo port index data => writeIndexed port index data
  | .cr index mask data => updateIndexed crtcPort index fun value => value &&& mask ||| data
  | .zmCr index data => writeIndexed crtcPort index data
  | .zmCrGroup writes => writes.forM fun write => writeIndexed crtcPort write.target write.data
  | .crIndexAddressLatched index1 index2 base data => do
    let saved ← readIndexed crtcPort index1
    writeLatchedBytes index1 index2 base data
    writeIndexed crtcPort index1 saved
  | .ioMaskOr index => updateIndexed crtcPort index fun value => value &&& ~~~resourceBit output
  | .ioOr index => updateIndexed crtcPort index fun value => value ||| resourceBit output
  | .copy reg shift srcMask port index mask => do
    let source ← readReg reg
    let data := (shiftBy shift source &&& srcMask.toUInt32).toUInt8
    updateIndexed port index fun value => value &&& mask ||| data

end PortOp

end RomScript
