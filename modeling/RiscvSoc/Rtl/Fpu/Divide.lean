import RiscvSoc.Lib.PriorityEncoder
import RiscvSoc.Rtl.Fpu.Classifier

/-! `fpu_div_setup.sv` and `fpu_div_assemble.sv`, before and behind the 48-bit divider. -/
namespace RiscvSoc.Fpu
open PriorityEncoder (encode)

structure DivSetup where
  dividend : BitVec 48
  divisor : BitVec 48
  needsDiv : Bool
  specialResult : BitVec 32
  flags : BitVec 5
  deriving DecidableEq, Repr

def special (result : BitVec 32) (flags : BitVec 5) : DivSetup := ⟨0,0,false,result,flags⟩

def divSetup (a b : BitVec 32) : DivSetup :=
  if isNan a || isNan b then special qnan 0
  else if isZero b then
    if isZero a then special qnan 0b01000 else special (if sign a then negInf else posInf) 0b01000
  else if isInf a then if isInf b then special qnan 0 else special (pack (sign a ^^ sign b) 0xFF 0) 0
  else if isInf b then special (pack (sign a ^^ sign b) 0 0) 0
  else if isZero a then special (pack (sign a ^^ sign b) 0 0) 0
  else ⟨significand a ++ 0#24,0#24 ++ significand b,true,0,0⟩

def divExpWide (a b : BitVec 32) : BitVec 9 := (0#1 ++ exponent a) - (0#1 ++ exponent b) + 127#9

def quotientMsb (quotient : BitVec 48) : BitVec 8 := encode quotient.getLsbD (BitVec.ofNat 8) 0 48 0

def quotientShift (quotient : BitVec 48) : BitVec 9 := 24#9 - (0#1 ++ quotientMsb quotient)

structure Normalized where
  expWide : BitVec 9
  mant : BitVec 23
  deriving DecidableEq, Repr

def normalizeRare (expWide : BitVec 9) (quotient : BitVec 48) : Normalized :=
  let shift := quotientShift quotient
  if quotientMsb quotient = 0 then ⟨expWide,0⟩
  else if 0 < shift.toInt then ⟨expWide - shift,(quotient <<< shift.toNat).extractLsb' 1 23⟩
  else if shift.toInt < 0 then ⟨expWide + -shift,(quotient >>> (-shift).toNat).extractLsb' 1 23⟩
  else ⟨expWide,quotient.extractLsb' 1 23⟩

def normalizeQuotient (expWide : BitVec 9) (quotient : BitVec 48) : Normalized :=
  if quotient.getLsbD 24 then ⟨expWide,quotient.extractLsb' 1 23⟩
  else if quotient.getLsbD 23 then ⟨expWide - 1,quotient.extractLsb' 0 23⟩
  else normalizeRare expWide quotient

structure FpResult where
  result : BitVec 32
  flags : BitVec 5
  deriving DecidableEq, Repr

def assembleRange (s : Bool) (n : Normalized) : FpResult :=
  if n.expWide.getLsbD 8 && n.expWide.getLsbD 7 then ⟨pack s 0 0,0⟩
  else if 255 ≤ n.expWide.toNat then ⟨pack s 0xFF 0,0b00100⟩
  else if n.expWide = 0 then ⟨pack s 0 0,0⟩
  else ⟨pack s (n.expWide.extractLsb' 0 8) n.mant,0⟩

def divAssemble (a b : BitVec 32) (quotientRaw : BitVec 48) : FpResult :=
  assembleRange (sign a ^^ sign b) (normalizeQuotient (divExpWide a b) quotientRaw)

end RiscvSoc.Fpu
