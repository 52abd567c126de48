import RomScript.Instruction.Operand
import RomScript.Opcode

/-!
# Clock operations

These program a PLL, at a fixed frequency or at one picked by a port or by the
RAM configuration, and let time pass. Two of them store frequencies in units of
ten kilohertz.
-/

set_option autoImplicit false

namespace RomScript

inductive ClockOp
  | pll (reg : UInt32) (tensOfKhz : UInt16)
  | pll2 (reg khz : UInt32)
  | ioRestrictPll (field : PortField) (flagCondition : UInt8) (reg : UInt32)
      (tensOfKhz : List UInt16)
  | ioRestrictPll2 (field : PortField) (reg : UInt32) (khz : List UInt32)
  | ramRestrictPll (id : UInt8) (khz : List UInt32)
  | time (micros : UInt16)
  | ltime (millis : UInt16)
  deriving DecidableEq, Repr

namespace ClockOp

def opcode : ClockOp → Opcode
  | .pll .. => .pll
  | .pll2 .. => .pll2
  | .ioRestrictPll .. => .ioRestrictPll
  | .ioRestrictPll2 .. => .ioRestrictPll2
  | .ramRestrictPll .. => .ramRestrictPll
  | .time .. => .time
  | .ltime .. => .ltime

def tailSize : ClockOp → Nat
  | .ioRestrictPll _ _ _ freqs => freqs.length * 2
  | .ioRestrictPll2 _ _ freqs => freqs.length * 4
  | .ramRestrictPll _ freqs => freqs.length * 4
  | _ => 0

def operands : ClockOp → String
  | .pll reg freq => regText reg ++ " = " ++ toString (freq.toNat * 10) ++ " kHz"
  | .pll2 reg khz => regText reg ++ " = " ++ toString khz.toNat ++ " kHz"
  | .ioRestrictPll field flagCondition reg freqs =>
    regText reg ++ " = " ++ decimalsText (freqs.map fun freq => freq.toNat * 10) ++ "[" ++
      field.text ++ "] kHz" ++
      (if flagCondition = 0 then "" else ", x2 if IO_FLAG " ++ byteText flagCondition)
  | .ioRestrictPll2 field reg freqs =>
    regText reg ++ " = " ++ decimalsText (freqs.map UInt32.toNat) ++ "[" ++ field.text ++ "] kHz"
  | .ramRestrictPll id freqs =>
    "PLL " ++ byteText id ++ " = " ++ decimalsText (freqs.map UInt32.toNat) ++ "[RAMCFG] kHz"
  | .time micros => toString micros.toNat ++ " us"
  | .ltime millis => toString millis.toNat ++ " ms"

end ClockOp

end RomScript
