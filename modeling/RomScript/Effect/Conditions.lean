import RomScript.Effect.Buses
import RomScript.Effect.Selection
import RomScript.Instruction.Condition

/-!
# Testing conditions

A test has a truth value or fails; a failed test counts as unmet. A polled condition is
tested again, with a pause before each further test, until it holds, fails or has
been tested often enough.
-/

set_option autoImplicit false

namespace RomScript

namespace Condition

open Effect

/-- The DisplayPort register that tells the encoding apart. -/
def encodingAddress : UInt32 := 0x0d

/-- The pause between two tests of a polled condition, in milliseconds. -/
def pollPause : UInt32 := 20

/-- The number of tests of a polled condition behind the first one. -/
def furtherTests (retries : UInt8) : Nat := min (max retries.toNat 1) 100 - 1

def registerMet (image : Image) (index : UInt8) : Effect Bool := do
  let entry ← ofImage (image.condition index)
  let value ← readReg entry.reg
  return value &&& entry.mask == entry.value

def portMet (image : Image) (index : UInt8) : Effect Bool := do
  let entry ← ofImage (image.ioCondition index)
  let value ← readIndexed entry.port entry.index
  return value &&& entry.mask == entry.value

def poll (test : Effect Bool) : Nat → Effect Bool
  | 0 => test
  | further + 1 => do
    if ← test then return true
    else
      sleepMillis pollPause
      poll test further

/-- DisplayPort tests zero to two look at the link state, five and six at the channel. -/
def displayPortMet (output : Output) (test : UInt8) : Effect Bool :=
  if test ≤ 2 then return output.linkFlags &&& 1 <<< test != 0
  else do
    let answer ← auxReadByte output.auxBus encodingAddress
    let value ← ofTransfer answer
    return (value &&& 1 != 0) == (test == 5)

/-- A DisplayPort test with another number is refused, and nothing is tested. -/
def unsupported? : Condition → Option InstructionError
  | .displayPort test _ =>
    if test ≤ 2 ∨ test = 5 ∨ test = 6 then none else some (.unsupportedTest test)
  | _ => none

def test (image : Image) (output : Output) : Condition → Effect Bool
  | .register index => registerMet image index
  | .port index => portMet image index
  | .portFlag index => portFlagMet image index
  | .displayPort test _ => displayPortMet output test
  | .polled index retries => poll (registerMet image index) (furtherTests retries)
  | .ramStatus mask value => do
    let status ← readReg ramStatusReg
    return status &&& mask.toUInt32 == value.toUInt32
  | .straps mask value => do
    let straps ← readReg strapsReg
    return straps &&& mask == value
  | .i2c target reg mask data => do
    let (bus, addr) := target.resolve output
    let answer ← i2cReadByte bus addr reg
    let value ← ofTransfer answer
    return value &&& mask == data
  | .i2cLong target regLow regHigh mask data => do
    let (bus, addr) := target.resolve output
    let answer ← i2cFetch bus addr [regHigh, regLow]
    let value ← ofTransfer answer
    return value &&& mask == data

end Condition

end RomScript
