import RiscvSoc.Lib.PriorityEncoder
import RiscvSoc.Rtl.Fpu.Classifier

/-! `fpu_float_to_int.sv` and `fpu_int_to_float.sv`. -/
namespace RiscvSoc.Fpu
open PriorityEncoder (encode)

structure IntResult where
  result : BitVec 32
  invalid : Bool
  deriving DecidableEq, Repr

def upperBound (isSigned : Bool) : BitVec 32 := if isSigned then 0x7FFFFFFF else 0xFFFFFFFF
def lowerBound (isSigned : Bool) : BitVec 32 := if isSigned then 0x80000000 else 0x00000000

/- `shift` is signed. -/
def intShift (val : BitVec 32) : BitVec 9 := (0#1 ++ exponent val) - 127#9

def tempResult (val : BitVec 32) : BitVec 32 :=
  let shift := (intShift val).toInt
  if 23 ≤ shift then (0#8 ++ significand val) <<< (shift - 23).toNat
  else (0#8 ++ significand val) >>> (23 - shift).toNat

def floatToInt (val : BitVec 32) (isSigned : Bool) : IntResult :=
  if isNan val || isInf val then
    if isNan val then ⟨upperBound isSigned,true⟩
    else if sign val then ⟨lowerBound isSigned,true⟩
    else ⟨upperBound isSigned,true⟩
  else if isZero val then ⟨0,false⟩
  else if (intShift val).toInt < 0 then ⟨0,false⟩
  else if 31 < (intShift val).toInt then ⟨upperBound isSigned,true⟩
  else if sign val then if isSigned then ⟨-tempResult val,false⟩ else ⟨0,true⟩
  else ⟨tempResult val,false⟩

def absVal (val : BitVec 32) (isSigned : Bool) : BitVec 32 := if isSigned && val.msb then -val else val

def msbPos (absVal : BitVec 32) : BitVec 8 := encode absVal.getLsbD (BitVec.ofNat 8) 0 32 0

/- `abs_val[(msb_pos-1) -: 23]` are the 23 bits below the leading one. -/
def intMantissa (absVal : BitVec 32) : BitVec 23 :=
  if 23 ≤ (msbPos absVal).toNat then absVal.extractLsb' ((msbPos absVal).toNat - 23) 23
  else absVal.extractLsb' 0 23 <<< (23 - (msbPos absVal).toNat)

def intToFloat (val : BitVec 32) (isSigned : Bool) : BitVec 32 :=
  if val = 0 then posZero
  else pack (isSigned && val.msb) (127#8 + msbPos (absVal val isSigned)) (intMantissa (absVal val isSigned))

end RiscvSoc.Fpu
