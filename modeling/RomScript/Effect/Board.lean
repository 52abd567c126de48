import RomScript.Effect.Selection
import RomScript.Instruction.BoardOp

/-!
# Effects on the board

The memory of a legacy board is brought up from a table entry that the board's straps
select. The entry's data words go to the registers of a sequence; some registers of the
sequence take a fixed value and no data word.
-/

set_option autoImplicit false

namespace RomScript

namespace BoardOp

open Effect

/-- Holds the number of the memory entry in its upper half. -/
def memoryIndex : UInt8 := 0x3c

def coreClockReg : UInt32 := 0x680500

def memoryClockReg : UInt32 := 0x680504

/-- The registers of a sequence that are set to one. -/
def isStrobe (reg : UInt32) : Bool := reg == 0x10021c || reg == 0x1002d0 || reg == 0x1002d4

/-- What the straps say about the memory, as the controller register holds it. -/
def memoryStraps (straps : UInt32) : UInt8 :=
  let size := (straps <<< (2 : UInt32)) &&& 0xf0
  let kind := (straps &&& 0x40) >>> (6 : UInt32)
  (size ||| kind).toUInt8

def memoryEntry (image : Image) : Effect MemInitEntry := do
  let value ← readIndexed crtcPort memoryIndex
  ofImage (image.memInitEntry (value >>> 4))

def writeSequence (image : Image) : List UInt32 → Nat → Effect Unit
  | [], _ => .done ()
  | reg :: rest, offset =>
    if isStrobe reg then do
      writeReg reg 1
      writeSequence image rest offset
    else do
      let value ← ofImage (image.dword offset)
      unless value = sequenceEnd do writeReg reg value
      writeSequence image rest (offset + 4)

def run (image : Image) : BoardOp → Effect Unit
  | .computeMem => request .computeMemory
  | .gpio => request (.resetGpios [])
  | .gpioNe functions => request (.resetGpios functions)
  | .configurePreinit => do
    let straps ← readReg strapsReg
    writeIndexed crtcPort memoryIndex (memoryStraps straps)
  | .configureMem => do
    let entry ← memoryEntry image
    let mode ← readIndexed sequencerPort 1
    writeIndexed sequencerPort 1 (mode ||| 0x20)
    let regs ← ofImage (image.sequenceRegisters entry.isDdr)
    writeSequence image regs entry.dataOffset
  | .configureClk => do
    let entry ← memoryEntry image
    let memory := entry.mpll.toUInt32 * 10
    let core ← programPll coreClockReg (entry.nvpll.toUInt32 * 10)
    let memory ← programPll memoryClockReg (if entry.isDdr then memory * 2 else memory)
    ofPll core
    ofPll memory

end BoardOp

end RomScript
