import RomScript.Instruction.Basic
import RomScript.Opcode.Length

/-!
# Decoding

Decoding reads every operand of the instruction at an offset, tails included. The
order of the reads decides which failure is reported: operands in the order in
which they are listed here, a tail's count directly before its elements.
-/

set_option autoImplicit false

namespace RomScript

/-- Reads at distances from the opcode byte of one instruction. -/
structure OperandReader where
  image : Image
  base : Nat

namespace OperandReader

def byte (op : OperandReader) (distance : Nat) : Except ImageError UInt8 :=
  op.image.byte (op.base + distance)

def word (op : OperandReader) (distance : Nat) : Except ImageError UInt16 :=
  op.image.word (op.base + distance)

def dword (op : OperandReader) (distance : Nat) : Except ImageError UInt32 :=
  op.image.dword (op.base + distance)

def bytes (op : OperandReader) (distance count : Nat) : Except ImageError (List UInt8) :=
  op.image.slice (op.base + distance) count

def dwords (op : OperandReader) (distance count : Nat) : Except ImageError (List UInt32) :=
  (List.range count).mapM fun i => op.dword (distance + i * 4)

def words (op : OperandReader) (distance count : Nat) : Except ImageError (List UInt16) :=
  (List.range count).mapM fun i => op.word (distance + i * 2)

def pairs (op : OperandReader) (distance count : Nat) : Except ImageError (List BytePair) :=
  (List.range count).mapM fun i => do
    let target ← op.byte (distance + i * 2)
    let data ← op.byte (distance + i * 2 + 1)
    return { target, data }

def maskedBytes (op : OperandReader) (distance count : Nat) :
    Except ImageError (List MaskedByte) :=
  (List.range count).mapM fun i => do
    let mask ← op.byte (distance + i * 2)
    let data ← op.byte (distance + i * 2 + 1)
    return { mask, data }

def maskedWrites (op : OperandReader) (distance count : Nat) :
    Except ImageError (List MaskedWrite) :=
  (List.range count).mapM fun i => do
    let target ← op.byte (distance + i * 3)
    let mask ← op.byte (distance + i * 3 + 1)
    let data ← op.byte (distance + i * 3 + 2)
    return { target, mask, data }

def portField (op : OperandReader) : Except ImageError PortField := do
  let port ← op.word 1
  let index ← op.byte 3
  let mask ← op.byte 4
  let shift ← op.byte 5
  return { port, index, mask, shift }

def busAddress (op : OperandReader) : Except ImageError BusAddress := do
  let bus ← op.byte 1
  let addr ← op.byte 2
  return { bus, addr }

def count (op : OperandReader) (distance : Nat) : Except ImageError Nat :=
  (op.byte distance).map UInt8.toNat

def instruction (op : OperandReader) : Opcode → Except ImageError Instruction
  | .repeatBlock => return .control (.repeatBlock (← op.byte 1))
  | .endRepeat => return .control .endRepeat
  | .negate => return .control .negate
  | .resume => return .control .resume
  | .done => return .control .done
  | .jump => return .control (.jump (← op.word 1))
  | .sub => return .control (.sub (← op.byte 1))
  | .subDirect => return .control (.subDirect (← op.word 1))
  | .reserved which => return .control (.reserved which)
  | .condition => return .condition (.register (← op.byte 1))
  | .ioCondition => return .condition (.port (← op.byte 1))
  | .ioFlagCondition => return .condition (.portFlag (← op.byte 1))
  | .dpCondition => return .condition (.displayPort (← op.byte 1) (← op.byte 2))
  | .conditionTime => return .condition (.polled (← op.byte 1) (← op.byte 2))
  | .ramCondition => return .condition (.ramStatus (← op.byte 1) (← op.byte 2))
  | .ramCondition2 => return .condition (.straps (← op.dword 1) (← op.dword 5))
  | .i2cIf =>
    return .condition (.i2c (← op.busAddress) (← op.byte 3) (← op.byte 4) (← op.byte 5))
  | .i2cLongIf =>
    return .condition
      (.i2cLong (← op.busAddress) (← op.byte 3) (← op.byte 4) (← op.byte 5) (← op.byte 6))
  | .zmReg => return .register (.zmReg (← op.dword 1) (← op.dword 5))
  | .zmReg16 => return .register (.zmReg16 (← op.dword 1) (← op.word 5))
  | .nvReg => return .register (.nvReg (← op.dword 1) (← op.dword 5) (← op.dword 9))
  | .andnReg => return .register (.andnReg (← op.dword 1) (← op.dword 5))
  | .orReg => return .register (.orReg (← op.dword 1) (← op.dword 5))
  | .zmRegSequence =>
    return .register (.zmRegSequence (← op.dword 1) (← op.dwords 6 (← op.count 5)))
  | .zmRegGroup =>
    return .register (.zmRegGroup (← op.dword 1) (← op.dwords 6 (← op.count 5)))
  | .zmRegIndirect => return .register (.zmRegIndirect (← op.dword 1) (← op.word 5))
  | .copyZmReg => return .register (.copyZmReg (← op.dword 1) (← op.dword 5))
  | .copyNvReg =>
    return .register (.copyNvReg (← op.dword 1) (← op.byte 5) (← op.dword 6) (← op.dword 10)
      (← op.dword 14) (← op.dword 18))
  | .zmMaskAdd => return .register (.zmMaskAdd (← op.dword 1) (← op.dword 5) (← op.dword 9))
  | .xlat =>
    return .register (.xlat (← op.dword 1) (← op.byte 5) (← op.byte 6) (← op.byte 7)
      (← op.dword 8) (← op.dword 12) (← op.byte 16))
  | .indexAddressLatched =>
    return .register (.indexAddressLatched (← op.dword 1) (← op.dword 5) (← op.dword 9)
      (← op.dword 13) (← op.pairs 18 (← op.count 17)))
  | .reset => return .register (.reset (← op.dword 1) (← op.dword 5) (← op.dword 9))
  | .macroGroup => return .register (.macroGroup (← op.byte 1))
  | .ramRestrictZmRegGroup => do
    let count ← op.byte 6
    return .register (.ramRestrictZmRegGroup (← op.dword 1) (← op.byte 5) count
      (← op.dwords 7 (count.toNat * op.image.ramGroups)))
  | .ioRestrictProg =>
    return .register
      (.ioRestrictProg (← op.portField) (← op.dword 7) (← op.dwords 11 (← op.count 6)))
  | .io => return .port (.io (← op.word 1) (← op.byte 3) (← op.byte 4))
  | .indexIo => return .port (.indexIo (← op.word 1) (← op.byte 3) (← op.byte 4) (← op.byte 5))
  | .zmIndexIo => return .port (.zmIndexIo (← op.word 1) (← op.byte 3) (← op.byte 4))
  | .cr => return .port (.cr (← op.byte 1) (← op.byte 2) (← op.byte 3))
  | .zmCr => return .port (.zmCr (← op.byte 1) (← op.byte 2))
  | .zmCrGroup => return .port (.zmCrGroup (← op.pairs 2 (← op.count 1)))
  | .crIndexAddressLatched =>
    return .port (.crIndexAddressLatched (← op.byte 1) (← op.byte 2) (← op.byte 3)
      (← op.bytes 5 (← op.count 4)))
  | .ioMaskOr => return .port (.ioMaskOr (← op.byte 1))
  | .ioOr => return .port (.ioOr (← op.byte 1))
  | .copy =>
    return .port (.copy (← op.dword 1) (← op.byte 5) (← op.byte 6) (← op.word 7) (← op.byte 9)
      (← op.byte 10))
  | .pll => return .clock (.pll (← op.dword 1) (← op.word 5))
  | .pll2 => return .clock (.pll2 (← op.dword 1) (← op.dword 5))
  | .ioRestrictPll =>
    return .clock (.ioRestrictPll (← op.portField) (← op.byte 6) (← op.dword 8)
      (← op.words 12 (← op.count 7)))
  | .ioRestrictPll2 =>
    return .clock
      (.ioRestrictPll2 (← op.portField) (← op.dword 7) (← op.dwords 11 (← op.count 6)))
  | .ramRestrictPll =>
    return .clock (.ramRestrictPll (← op.byte 1) (← op.dwords 2 op.image.ramGroups))
  | .time => return .clock (.time (← op.word 1))
  | .ltime => return .clock (.ltime (← op.word 1))
  | .i2cByte => do
    let writes ← op.maskedWrites 4 (← op.count 3)
    return .bus (.i2cByte (← op.busAddress) writes)
  | .zmI2cByte => return .bus (.zmI2cByte (← op.busAddress) (← op.pairs 4 (← op.count 3)))
  | .zmI2c => return .bus (.zmI2c (← op.busAddress) (← op.bytes 4 (← op.count 3)))
  | .auxch => return .bus (.auxch (← op.dword 1) (← op.maskedBytes 6 (← op.count 5)))
  | .zmAuxch => return .bus (.zmAuxch (← op.dword 1) (← op.bytes 6 (← op.count 5)))
  | .tmds => return .bus (.tmds (← op.byte 1) (← op.byte 2) (← op.byte 3) (← op.byte 4))
  | .zmTmdsGroup => return .bus (.zmTmdsGroup (← op.byte 1) (← op.pairs 3 (← op.count 2)))
  | .computeMem => return .board .computeMem
  | .gpio => return .board .gpio
  | .gpioNe => return .board (.gpioNe (← op.bytes 2 (← op.count 1)))
  | .configureMem => return .board .configureMem
  | .configureClk => return .board .configureClk
  | .configurePreinit => return .board .configurePreinit

end OperandReader

def Instruction.decode (image : Image) (offset : Nat) : Except DecodeError Instruction :=
  match image.byte offset with
  | .error cause => .error (.image cause)
  | .ok id =>
    match Opcode.ofByte? id with
    | none => .error (.unknownOpcode offset id)
    | some opcode =>
      match ({ image, base := offset } : OperandReader).instruction opcode with
      | .error cause => .error (.image cause)
      | .ok instruction => .ok instruction

end RomScript
