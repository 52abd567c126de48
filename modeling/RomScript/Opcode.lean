/-!
# Opcodes

One table gives for every opcode its byte, its mnemonic, the size of its fixed
part and the tail that may follow. A tail's element count is an operand byte,
the number of RAM-restrict groups of the image, or the product of both. Decoding
a byte is a look-up in this table.
-/

set_option autoImplicit false

namespace RomScript

/-- Bytes that are known to be opcodes of no effect. -/
inductive Reserved
  | x8c
  | x8d
  | x92
  | xaa
  deriving DecidableEq, Repr

inductive Opcode
  | ioRestrictProg
  | repeatBlock
  | ioRestrictPll
  | endRepeat
  | copy
  | negate
  | ioFlagCondition
  | dpCondition
  | ioMaskOr
  | ioOr
  | andnReg
  | orReg
  | indexAddressLatched
  | ioRestrictPll2
  | pll2
  | i2cByte
  | zmI2cByte
  | zmI2c
  | tmds
  | zmTmdsGroup
  | crIndexAddressLatched
  | cr
  | zmCr
  | zmCrGroup
  | conditionTime
  | ltime
  | zmRegSequence
  | zmRegIndirect
  | subDirect
  | jump
  | i2cIf
  | copyNvReg
  | zmIndexIo
  | computeMem
  | reset
  | configureMem
  | configureClk
  | configurePreinit
  | io
  | sub
  | ramCondition
  | nvReg
  | macroGroup
  | done
  | resume
  | ramCondition2
  | time
  | condition
  | ioCondition
  | zmReg16
  | indexIo
  | pll
  | zmReg
  | ramRestrictPll
  | reserved (which : Reserved)
  | gpio
  | ramRestrictZmRegGroup
  | copyZmReg
  | zmRegGroup
  | xlat
  | zmMaskAdd
  | auxch
  | zmAuxch
  | i2cLongIf
  | gpioNe
  deriving DecidableEq, Repr

inductive TailCount
  /-- The byte at this distance from the opcode byte. -/
  | operand (distance : Nat)
  | groups
  /-- The byte at this distance, times the group count. -/
  | operandTimesGroups (distance : Nat)
  deriving DecidableEq, Repr

structure Tail where
  count : TailCount
  elementSize : Nat
  deriving DecidableEq, Repr

/-- A row of the opcode table. The fixed size includes the opcode byte and any count byte. -/
structure OpcodeRow where
  id : UInt8
  mnemonic : String
  fixedSize : Nat
  tail : Option Tail
  deriving DecidableEq, Repr

namespace Opcode

def plain (id : UInt8) (mnemonic : String) (fixedSize : Nat) : OpcodeRow :=
  { id, mnemonic, fixedSize, tail := none }

def counted (id : UInt8) (mnemonic : String) (fixedSize distance elementSize : Nat) :
    OpcodeRow :=
  { id, mnemonic, fixedSize, tail := some { count := .operand distance, elementSize } }

def row : Opcode → OpcodeRow
  | .ioRestrictProg => counted 0x32 "IO_RESTRICT_PROG" 11 6 4
  | .repeatBlock => plain 0x33 "REPEAT" 2
  | .ioRestrictPll => counted 0x34 "IO_RESTRICT_PLL" 12 7 2
  | .endRepeat => plain 0x36 "END_REPEAT" 1
  | .copy => plain 0x37 "COPY" 11
  | .negate => plain 0x38 "NOT" 1
  | .ioFlagCondition => plain 0x39 "IO_FLAG_CONDITION" 2
  | .dpCondition => plain 0x3a "DP_CONDITION" 3
  | .ioMaskOr => plain 0x3b "IO_MASK_OR" 2
  | .ioOr => plain 0x3c "IO_OR" 2
  | .andnReg => plain 0x47 "ANDN_REG" 9
  | .orReg => plain 0x48 "OR_REG" 9
  | .indexAddressLatched => counted 0x49 "INDEX_ADDRESS_LATCHED" 18 17 2
  | .ioRestrictPll2 => counted 0x4a "IO_RESTRICT_PLL2" 11 6 4
  | .pll2 => plain 0x4b "PLL2" 9
  | .i2cByte => counted 0x4c "I2C_BYTE" 4 3 3
  | .zmI2cByte => counted 0x4d "ZM_I2C_BYTE" 4 3 2
  | .zmI2c => counted 0x4e "ZM_I2C" 4 3 1
  | .tmds => plain 0x4f "TMDS" 5
  | .zmTmdsGroup => counted 0x50 "ZM_TMDS_GROUP" 3 2 2
  | .crIndexAddressLatched => counted 0x51 "CR_INDEX_ADDRESS_LATCHED" 5 4 1
  | .cr => plain 0x52 "CR" 4
  | .zmCr => plain 0x53 "ZM_CR" 3
  | .zmCrGroup => counted 0x54 "ZM_CR_GROUP" 2 1 2
  | .conditionTime => plain 0x56 "CONDITION_TIME" 3
  | .ltime => plain 0x57 "LTIME" 3
  | .zmRegSequence => counted 0x58 "ZM_REG_SEQUENCE" 6 5 4
  | .zmRegIndirect => plain 0x5a "ZM_REG_INDIRECT" 7
  | .subDirect => plain 0x5b "SUB_DIRECT" 3
  | .jump => plain 0x5c "JUMP" 3
  | .i2cIf => plain 0x5e "I2C_IF" 6
  | .copyNvReg => plain 0x5f "COPY_NV_REG" 22
  | .zmIndexIo => plain 0x62 "ZM_INDEX_IO" 5
  | .computeMem => plain 0x63 "COMPUTE_MEM" 1
  | .reset => plain 0x65 "RESET" 13
  | .configureMem => plain 0x66 "CONFIGURE_MEM" 1
  | .configureClk => plain 0x67 "CONFIGURE_CLK" 1
  | .configurePreinit => plain 0x68 "CONFIGURE_PREINIT" 1
  | .io => plain 0x69 "IO" 5
  | .sub => plain 0x6b "SUB" 2
  | .ramCondition => plain 0x6d "RAM_CONDITION" 3
  | .nvReg => plain 0x6e "NV_REG" 13
  | .macroGroup => plain 0x6f "MACRO" 2
  | .done => plain 0x71 "DONE" 1
  | .resume => plain 0x72 "RESUME" 1
  | .ramCondition2 => plain 0x73 "RAM_CONDITION2" 9
  | .time => plain 0x74 "TIME" 3
  | .condition => plain 0x75 "CONDITION" 2
  | .ioCondition => plain 0x76 "IO_CONDITION" 2
  | .zmReg16 => plain 0x77 "ZM_REG16" 7
  | .indexIo => plain 0x78 "INDEX_IO" 6
  | .pll => plain 0x79 "PLL" 7
  | .zmReg => plain 0x7a "ZM_REG" 9
  | .ramRestrictPll =>
    { id := 0x87, mnemonic := "RAM_RESTRICT_PLL", fixedSize := 2,
      tail := some { count := .groups, elementSize := 4 } }
  | .reserved .x8c => plain 0x8c "RESERVED" 1
  | .reserved .x8d => plain 0x8d "RESERVED" 1
  | .gpio => plain 0x8e "GPIO" 1
  | .ramRestrictZmRegGroup =>
    { id := 0x8f, mnemonic := "RAM_RESTRICT_ZM_REG_GROUP", fixedSize := 7,
      tail := some { count := .operandTimesGroups 6, elementSize := 4 } }
  | .copyZmReg => plain 0x90 "COPY_ZM_REG" 9
  | .zmRegGroup => counted 0x91 "ZM_REG_GROUP" 6 5 4
  | .reserved .x92 => plain 0x92 "RESERVED" 1
  | .xlat => plain 0x96 "XLAT" 17
  | .zmMaskAdd => plain 0x97 "ZM_MASK_ADD" 13
  | .auxch => counted 0x98 "AUXCH" 6 5 2
  | .zmAuxch => counted 0x99 "ZM_AUXCH" 6 5 1
  | .i2cLongIf => plain 0x9a "I2C_LONG_IF" 7
  | .gpioNe => counted 0xa9 "GPIO_NE" 2 1 1
  | .reserved .xaa => plain 0xaa "RESERVED" 1

def id (opcode : Opcode) : UInt8 := opcode.row.id

def mnemonic (opcode : Opcode) : String := opcode.row.mnemonic

def fixedSize (opcode : Opcode) : Nat := opcode.row.fixedSize

def tail (opcode : Opcode) : Option Tail := opcode.row.tail

def all : List Opcode :=
  [ioRestrictProg, repeatBlock, ioRestrictPll, endRepeat, copy, negate, ioFlagCondition,
    dpCondition, ioMaskOr, ioOr, andnReg, orReg, indexAddressLatched, ioRestrictPll2, pll2,
    i2cByte, zmI2cByte, zmI2c, tmds, zmTmdsGroup, crIndexAddressLatched, cr, zmCr, zmCrGroup,
    conditionTime, ltime, zmRegSequence, zmRegIndirect, subDirect, jump, i2cIf, copyNvReg,
    zmIndexIo, computeMem, reset, configureMem, configureClk, configurePreinit, io, sub,
    ramCondition, nvReg, macroGroup, done, resume, ramCondition2, time, condition, ioCondition,
    zmReg16, indexIo, pll, zmReg, ramRestrictPll, reserved .x8c, reserved .x8d, gpio,
    ramRestrictZmRegGroup, copyZmReg, zmRegGroup, reserved .x92, xlat, zmMaskAdd, auxch, zmAuxch,
    i2cLongIf, gpioNe, reserved .xaa]

def ofByte? (byte : UInt8) : Option Opcode := all.find? fun opcode => opcode.id == byte

def mnemonicWidth : Nat := 25

/-- Run also while the execute flag is off; all others are then stepped over. -/
def runsWhileSkipping : Opcode → Bool
  | .negate | .resume | .endRepeat | .done => true
  | _ => false

/-- Ends the script on an image that is not legacy. -/
def legacyOnly : Opcode → Bool
  | .configureMem | .configureClk | .configurePreinit => true
  | _ => false

/-- Tests that can turn the execute flag off and never on. -/
def isCondition : Opcode → Bool
  | .condition | .ioCondition | .ioFlagCondition | .dpCondition | .ramCondition
  | .ramCondition2 | .conditionTime | .i2cIf | .i2cLongIf => true
  | _ => false

theorem mem_all (opcode : Opcode) : opcode ∈ all := by
  cases opcode with
  | reserved which => cases which <;> decide
  | _ => decide

theorem ofByte?_id (opcode : Opcode) : ofByte? opcode.id = some opcode := by
  cases opcode with
  | reserved which => cases which <;> rfl
  | _ => rfl

theorem id_of_ofByte? {byte : UInt8} {opcode : Opcode} (h : ofByte? byte = some opcode) :
    opcode.id = byte := by
  have := List.find?_some h
  simpa using this

end Opcode

end RomScript
