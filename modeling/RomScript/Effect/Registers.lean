import RomScript.Effect.Selection
import RomScript.Instruction.RegisterOp

/-!
# Effects on registers
-/

set_option autoImplicit false

namespace RomScript

namespace Effect

def updateReg (reg : UInt32) (change : UInt32 → UInt32) : Effect Unit := do
  let value ← readReg reg
  writeReg reg (change value)

def writeRegs (stride : UInt32) : UInt32 → List UInt32 → Effect Unit
  | _, [] => .done ()
  | reg, value :: rest => do
    writeReg reg value
    writeRegs stride (reg + stride) rest

end Effect

/-- The values of one column in a table of rows, each as long as there are columns. -/
def columnValues (columns column : Nat) (values : List UInt32) : List UInt32 :=
  (List.range (values.length / columns)).filterMap fun row => values[row * columns + column]?

namespace RegisterOp

open Effect

/-- The engine enable register, whose lowest bit no script can clear. -/
def enableReg : UInt32 := 0x200

def writeLatched (ctrlReg dataReg ctrlMask ctrlData : UInt32) (pair : BytePair) : Effect Unit := do
  writeReg dataReg pair.data.toUInt32
  updateReg ctrlReg fun ctrl => ctrl &&& ctrlMask ||| ctrlData ||| pair.target.toUInt32

/-- The writes of a group of the image; without an index every group has one. -/
def groupRange (image : Image) (index : UInt8) : Effect (UInt8 × UInt8) :=
  if image.directory.contains .macroIndex then ofImage (image.macroRange index)
  else .done (index, 1)

def writeGroupEntry (image : Image) (index : Nat) : Effect Unit := do
  let entry ← ofImage (image.macroEntry index)
  writeReg entry.reg entry.value

def run (image : Image) : RegisterOp → Effect Unit
  | .zmReg reg value => writeReg reg (if reg = enableReg then value ||| 1 else value)
  | .zmReg16 reg data => writeReg reg data.toUInt32
  | .nvReg reg mask data => updateReg reg fun value => value &&& mask ||| data
  | .andnReg reg mask => updateReg reg fun value => value &&& ~~~mask
  | .orReg reg mask => updateReg reg fun value => value ||| mask
  | .zmRegSequence base values => writeRegs 4 base values
  | .zmRegGroup reg values => writeRegs 0 reg values
  | .zmRegIndirect reg pointer => do
    let value ← ofImage (image.dword pointer.toNat)
    writeReg reg value
  | .copyZmReg src dst => do
    let value ← readReg src
    writeReg dst value
  | .copyNvReg src shift srcMask xor dst dstMask => do
    let source ← readReg src
    updateReg dst fun value => value &&& dstMask ||| ((shiftBy shift source &&& srcMask) ^^^ xor)
  | .zmMaskAdd reg mask add =>
    updateReg reg fun value => value &&& mask ||| ((value + add) &&& ~~~mask)
  | .xlat src shift srcMask index dst dstMask dstShift => do
    let source ← readReg src
    let position := (shiftBy shift source &&& srcMask.toUInt32).toUInt8
    let byte ← ofImage (image.xlatByte index position)
    let data := UInt32.ofNat (byte.toNat <<< dstShift.toNat)
    updateReg dst fun value => value &&& dstMask ||| data
  | .indexAddressLatched ctrlReg dataReg ctrlMask ctrlData pairs =>
    pairs.forM (writeLatched ctrlReg dataReg ctrlMask ctrlData)
  | .reset reg value1 value2 => do
    let saved ← readReg 0x184c
    writeReg 0x184c (saved &&& ~~~0xf00)
    writeReg reg value1
    sleepMicros 10
    writeReg reg value2
    writeReg 0x184c saved
    updateReg 0x1850 fun value => value &&& ~~~1
  | .macroGroup index => do
    let range ← groupRange image index
    (List.range' range.1.toNat range.2.toNat).forM (writeGroupEntry image)
  | .ramRestrictZmRegGroup reg increment _ values => do
    let column ← ramColumn image
    writeRegs increment.toUInt32 reg (columnValues image.ramGroups column values)
  | .ioRestrictProg field reg values => do
    let value ← selectByPort field values
    writeReg reg value

end RegisterOp

end RomScript
