import RiscvSoc.Lib.PriorityEncoder
import RiscvSoc.Rtl.Fpu.Classifier

/-! `fpu_fma.sv`: a multiplier and, behind it, an adder. -/
namespace RiscvSoc.Fpu
open PriorityEncoder (encode)

/- `mul_result_exp_wide` before normalisation: nine bits, so that a negative sum wraps. -/
def mulExpWide (a b : BitVec 32) : BitVec 9 := (0#1 ++ exponent a) + (0#1 ++ exponent b) - 127#9

def mulProduct (a b : BitVec 32) : BitVec 48 := (0#24 ++ significand a) * (0#24 ++ significand b)

def multiplyNormal (a b : BitVec 32) : BitVec 32 :=
  let mant := if (mulProduct a b).getLsbD 47 then (mulProduct a b).extractLsb' 24 23
    else (mulProduct a b).extractLsb' 23 23
  let expWide := if (mulProduct a b).getLsbD 47 then mulExpWide a b + 1 else mulExpWide a b
  if expWide.getLsbD 8 || decide (254 < expWide.toNat) then pack (sign a ^^ sign b) 0xFF 0
  else if expWide = 0 then pack (sign a ^^ sign b) 0 0
  else pack (sign a ^^ sign b) (expWide.extractLsb' 0 8) mant

def multiply (a b : BitVec 32) : BitVec 32 :=
  if isNan a || isNan b then qnan
  else if isInf a then if isZero b then qnan else pack (sign a ^^ sign b) 0xFF 0
  else if isInf b then if isZero a then qnan else pack (sign a ^^ sign b) 0xFF 0
  else if isZero a || isZero b then pack (sign a ^^ sign b) 0 0
  else multiplyNormal a b

structure Aligned where
  aMant : BitVec 24
  bMant : BitVec 24
  exp : BitVec 8
  deriving DecidableEq, Repr

def shiftAligned (diff : BitVec 8) (mant : BitVec 24) : BitVec 24 :=
  if diff.toNat < 24 then mant >>> diff.toNat else 0

def align (a b : BitVec 32) : Aligned :=
  if (exponent b).toNat < (exponent a).toNat then
    ⟨significand a,shiftAligned (exponent a - exponent b) (significand b),exponent a⟩
  else ⟨shiftAligned (exponent b - exponent a) (significand a),significand b,exponent b⟩

def addMagnitudes (m : Aligned) : BitVec 25 × BitVec 8 :=
  let sum := (0#1 ++ m.aMant) + (0#1 ++ m.bMant)
  if sum.getLsbD 24 then (sum >>> 1,m.exp + 1) else (sum,m.exp)

def subMagnitudes (m : Aligned) : BitVec 25 :=
  if m.bMant.toNat ≤ m.aMant.toNat then (0#1 ++ m.aMant) - (0#1 ++ m.bMant)
  else (0#1 ++ m.bMant) - (0#1 ++ m.aMant)

def shiftCode (i : Nat) : BitVec 8 := BitVec.ofNat 8 (23 - i)

def normShift (mant : BitVec 25) : BitVec 8 :=
  if mant.extractLsb' 16 7 ≠ 0 then encode mant.getLsbD shiftCode 16 7 0
  else if mant.extractLsb' 8 8 ≠ 0 then encode mant.getLsbD shiftCode 8 8 0
  else encode mant.getLsbD shiftCode 0 8 0

def normalize (mant : BitVec 25) (exp : BitVec 8) : BitVec 25 × BitVec 8 :=
  if mant ≠ 0 ∧ mant.getLsbD 23 = false then
    if (normShift mant).toNat ≤ exp.toNat then (mant <<< (normShift mant).toNat,exp - normShift mant)
    else (0,exp)
  else (mant,exp)

def addAssemble (s : Bool) (r : BitVec 25 × BitVec 8) : BitVec 32 :=
  if r.1 = 0 then posZero else pack s r.2 (r.1.extractLsb' 0 23)

def addNormal (a b : BitVec 32) (negateAddend : Bool) : BitVec 32 :=
  let aSign := sign a
  let bSign := sign b ^^ negateAddend
  let m := align a b
  if aSign = bSign then addAssemble aSign (addMagnitudes m)
  else addAssemble (if m.bMant.toNat ≤ m.aMant.toNat then aSign else bSign) (normalize (subMagnitudes m) m.exp)

def addend (c : BitVec 32) (negateAddend : Bool) : BitVec 32 := if negateAddend then negate c else c

def add (product c : BitVec 32) (negateAddend : Bool) : BitVec 32 :=
  if isNan product || isNan c then qnan
  else if isInf product && isInf c then if sign product ≠ (sign c ^^ negateAddend) then qnan else product
  else if isInf product then product
  else if isInf c then addend c negateAddend
  else if isZero product then addend c negateAddend
  else if isZero c then product
  else addNormal product c negateAddend

def fma (a b c : BitVec 32) (negateProduct negateAddend : Bool) : BitVec 32 :=
  add (if negateProduct then negate (multiply a b) else multiply a b) c negateAddend

def fmaFlags : BitVec 5 := 0

end RiscvSoc.Fpu
