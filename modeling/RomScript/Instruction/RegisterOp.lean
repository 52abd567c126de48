import RomScript.Instruction.Operand
import RomScript.Opcode

/-!
# Register operations

These write memory-mapped registers, most of them after reading one.
-/

set_option autoImplicit false

namespace RomScript

inductive RegisterOp
  | zmReg (reg value : UInt32)
  | zmReg16 (reg : UInt32) (data : UInt16)
  | nvReg (reg mask data : UInt32)
  | andnReg (reg mask : UInt32)
  | orReg (reg mask : UInt32)
  | zmRegSequence (base : UInt32) (values : List UInt32)
  | zmRegGroup (reg : UInt32) (values : List UInt32)
  | zmRegIndirect (reg : UInt32) (pointer : UInt16)
  | copyZmReg (src dst : UInt32)
  | copyNvReg (src : UInt32) (shift : UInt8) (srcMask xor dst dstMask : UInt32)
  | zmMaskAdd (reg mask add : UInt32)
  | xlat (src : UInt32) (shift srcMask index : UInt8) (dst dstMask : UInt32) (dstShift : UInt8)
  | indexAddressLatched (ctrlReg dataReg ctrlMask ctrlData : UInt32) (pairs : List BytePair)
  | reset (reg value1 value2 : UInt32)
  | macroGroup (index : UInt8)
  | ramRestrictZmRegGroup (reg : UInt32) (increment count : UInt8) (values : List UInt32)
  | ioRestrictProg (field : PortField) (reg : UInt32) (values : List UInt32)
  deriving DecidableEq, Repr

namespace RegisterOp

def opcode : RegisterOp → Opcode
  | .zmReg .. => .zmReg
  | .zmReg16 .. => .zmReg16
  | .nvReg .. => .nvReg
  | .andnReg .. => .andnReg
  | .orReg .. => .orReg
  | .zmRegSequence .. => .zmRegSequence
  | .zmRegGroup .. => .zmRegGroup
  | .zmRegIndirect .. => .zmRegIndirect
  | .copyZmReg .. => .copyZmReg
  | .copyNvReg .. => .copyNvReg
  | .zmMaskAdd .. => .zmMaskAdd
  | .xlat .. => .xlat
  | .indexAddressLatched .. => .indexAddressLatched
  | .reset .. => .reset
  | .macroGroup .. => .macroGroup
  | .ramRestrictZmRegGroup .. => .ramRestrictZmRegGroup
  | .ioRestrictProg .. => .ioRestrictProg

def tailSize : RegisterOp → Nat
  | .zmRegSequence _ values => values.length * 4
  | .zmRegGroup _ values => values.length * 4
  | .indexAddressLatched _ _ _ _ pairs => pairs.length * 2
  | .ramRestrictZmRegGroup _ _ _ values => values.length * 4
  | .ioRestrictProg _ _ values => values.length * 4
  | _ => 0

def operands : RegisterOp → String
  | .zmReg reg value => regText reg ++ " = " ++ dwordText value
  | .zmReg16 reg data => regText reg ++ " = " ++ wordText data
  | .nvReg reg mask data => regText reg ++ mergeText (dwordText mask) (dwordText data)
  | .andnReg reg mask => regText reg ++ " &= ~" ++ dwordText mask
  | .orReg reg mask => regText reg ++ " |= " ++ dwordText mask
  | .zmRegSequence base values => regText base ++ ".. = " ++ dwordsText values
  | .zmRegGroup reg values => regText reg ++ " = " ++ dwordsText values
  | .zmRegIndirect reg pointer => regText reg ++ " = ROM32[" ++ wordText pointer ++ "]"
  | .copyZmReg src dst => regText dst ++ " = " ++ regText src
  | .copyNvReg src shift srcMask xor dst dstMask =>
    regText dst ++ " = (" ++ regText dst ++ " & " ++ dwordText dstMask ++ ") | (((" ++
      regText src ++ shiftText shift ++ ") & " ++ dwordText srcMask ++ ") ^ " ++
      dwordText xor ++ ")"
  | .zmMaskAdd reg mask add =>
    regText reg ++ " += " ++ dwordText add ++ " & ~" ++ dwordText mask
  | .xlat src shift srcMask index dst dstMask dstShift =>
    regText dst ++ " = (" ++ regText dst ++ " & " ++ dwordText dstMask ++ ") | (XLAT[" ++
      byteText index ++ "][(" ++ regText src ++ shiftText shift ++ ") & " ++
      byteText srcMask ++ "] << " ++ toString dstShift.toNat ++ ")"
  | .indexAddressLatched ctrlReg dataReg ctrlMask ctrlData pairs =>
    regText ctrlReg ++ " & " ++ dwordText ctrlMask ++ " |= " ++ dwordText ctrlData ++ ", " ++
      regText dataReg ++ " " ++ pairsText pairs
  | .reset reg value1 value2 =>
    regText reg ++ " = " ++ dwordText value1 ++ ", " ++ dwordText value2
  | .macroGroup index => byteText index
  | .ramRestrictZmRegGroup reg increment count values =>
    regText reg ++ " +" ++ byteText increment ++ " x" ++ toString count.toNat ++ " = " ++
      dwordsText values ++ "[RAMCFG]"
  | .ioRestrictProg field reg values =>
    regText reg ++ " = " ++ dwordsText values ++ "[" ++ field.text ++ "]"

end RegisterOp

end RomScript
