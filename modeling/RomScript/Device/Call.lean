import RomScript.Text.Hex

/-!
# Recorded calls

A call holds the arguments of a device operation and what it answered. Calls that
change the device are told apart from those that only look at it or wait. The text
of a call shows reads with `->`, writes with `<-`, and failed transfers as failed.
-/

set_option autoImplicit false

namespace RomScript

inductive Call
  | readReg (reg value : UInt32)
  | writeReg (reg value : UInt32)
  | readIndexed (port : UInt16) (index value : UInt8)
  | writeIndexed (port : UInt16) (index value : UInt8)
  | readPort (port : UInt16) (value : UInt8)
  | writePort (port : UInt16) (value : UInt8)
  | i2cWrite (bus addr : UInt8) (data : List UInt8) (ok : Bool)
  | i2cWriteRead (bus addr : UInt8) (write read : List UInt8) (ok : Bool)
  | auxRead (bus : UInt8) (addr : UInt32) (data : List UInt8) (ok : Bool)
  | auxWrite (bus : UInt8) (addr : UInt32) (data : List UInt8) (ok : Bool)
  | programPll (reg khz : UInt32) (ok : Bool)
  | programPllId (id : UInt8) (khz : UInt32)
  | sleepMicros (micros : UInt32)
  | sleepMillis (millis : UInt32)
  | computeMemory
  | resetGpios (excluded : List UInt8)
  deriving DecidableEq, Repr

namespace Call

def isWrite : Call → Bool
  | .writeReg .. | .writeIndexed .. | .writePort .. | .i2cWrite .. | .auxWrite ..
  | .programPll .. | .programPllId .. => true
  | _ => false

def regName (reg : UInt32) : String := "R[" ++ hexLit 6 reg.toNat ++ "]"

def portName (port : UInt16) : String := "IO[" ++ hexLit 4 port.toNat ++ "]"

def indexName (index : UInt8) : String := "[" ++ hexLit 2 index.toNat ++ "]"

def i2cName (bus addr : UInt8) : String :=
  "I2C[" ++ toString bus.toNat ++ "]" ++ indexName addr

def auxName (bus : UInt8) (addr : UInt32) : String :=
  "AUX[" ++ toString bus.toNat ++ "][" ++ hexLit 5 addr.toNat ++ "]"

def failureMark (ok : Bool) : String := if ok then "" else " (failed)"

def text : Call → String
  | .readReg reg value => regName reg ++ " -> " ++ hexLit 8 value.toNat
  | .writeReg reg value => regName reg ++ " <- " ++ hexLit 8 value.toNat
  | .readIndexed port index value =>
    portName port ++ indexName index ++ " -> " ++ hexLit 2 value.toNat
  | .writeIndexed port index value =>
    portName port ++ indexName index ++ " <- " ++ hexLit 2 value.toNat
  | .readPort port value => portName port ++ " -> " ++ hexLit 2 value.toNat
  | .writePort port value => portName port ++ " <- " ++ hexLit 2 value.toNat
  | .i2cWrite bus addr data ok =>
    i2cName bus addr ++ " write " ++ hexBytes data ++ failureMark ok
  | .i2cWriteRead bus addr write read ok =>
    i2cName bus addr ++ " write " ++ hexBytes write ++ " read " ++ hexBytes read ++ failureMark ok
  | .auxRead bus addr data ok => auxName bus addr ++ " read " ++ hexBytes data ++ failureMark ok
  | .auxWrite bus addr data ok => auxName bus addr ++ " write " ++ hexBytes data ++ failureMark ok
  | .programPll reg khz ok =>
    "PLL " ++ regName reg ++ " = " ++ toString khz.toNat ++ " kHz" ++ failureMark ok
  | .programPllId id khz =>
    "PLL #" ++ hexLit 2 id.toNat ++ " = " ++ toString khz.toNat ++ " kHz"
  | .sleepMicros micros => "sleep " ++ toString micros.toNat ++ " us"
  | .sleepMillis millis => "sleep " ++ toString millis.toNat ++ " ms"
  | .computeMemory => "compute memory"
  | .resetGpios excluded =>
    if excluded.isEmpty then "reset gpios" else "reset gpios except " ++ hexBytes excluded

end Call

end RomScript
