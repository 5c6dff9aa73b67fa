import RiscvSoc.Rtl.DivUnit
import RiscvSoc.Rtl.Fpu.Conversions
import RiscvSoc.Rtl.Fpu.Divide
import RiscvSoc.Rtl.Fpu.Fma

/-! `fpu.sv` with its comparator and its square root. Only a division takes more than the cycle
it is asked in; the rounding mode input is not read anywhere. -/
namespace RiscvSoc.Fpu

def lessThan (a b : BitVec 32) : Bool :=
  if isNan a || isNan b then false
  else if isZero a && isZero b then false
  else if sign a ≠ sign b then sign a
  else if sign a = false then decide ((lowBits a).toNat < (lowBits b).toNat)
  else decide ((lowBits b).toNat < (lowBits a).toNat)

def sqrtExp (a : BitVec 32) : BitVec 8 := ((exponent a - 127#8) >>> 1) + 127#8

/- The concatenation of 25 bits is assigned to 24, which drops its leading zero. -/
def mantWithBit (a : BitVec 32) : BitVec 24 :=
  if a.getLsbD 23 then (0b01#2 ++ fraction a).setWidth 24 else 1#1 ++ fraction a

def sqrt (a : BitVec 32) : FpResult :=
  if isNan a then ⟨qnan,0⟩
  else if sign a && !isZero a then ⟨qnan,0b10000⟩
  else if isZero a || isInf a then ⟨a,0⟩
  else ⟨pack false (sqrtExp a) ((mantWithBit a).extractLsb' 0 23),0⟩

inductive FpuOp where
  | add | sub | mul | div | sqrt | min | max
  | madd | msub | nmsub | nmadd
  | sgnj | sgnjn | sgnjx
  | cvtws | cvtwus | cvtsw | cvtswu
  | feq | flt | fle | fclass
  | mvxw | mvwx
  | reserved
  deriving DecidableEq, Repr

structure Inputs where
  fpuStart : Bool
  fs1 : BitVec 32
  fs2 : BitVec 32
  fs3 : BitVec 32
  intSrc : BitVec 32
  fpuOp : FpuOp
  deriving DecidableEq, Repr

structure Regs where
  div : DivUnit.Regs 48
  divFs1Reg : BitVec 32
  divFs2Reg : BitVec 32
  divInProgress : Bool
  deriving DecidableEq, Repr

def reset : Regs := ⟨DivUnit.reset,0,0,false⟩

def fmaResult (i : Inputs) : BitVec 32 := match i.fpuOp with
  | .add => fma i.fs1 fpOne i.fs2 false false
  | .sub => fma i.fs1 fpOne i.fs2 false true
  | .mul => fma i.fs1 i.fs2 posZero false false
  | .msub => fma i.fs1 i.fs2 i.fs3 false true
  | .nmsub => fma i.fs1 i.fs2 i.fs3 true false
  | .nmadd => fma i.fs1 i.fs2 i.fs3 true true
  | _ => fma i.fs1 i.fs2 i.fs3 false false

def divStart (i : Inputs) : Bool := i.fpuStart && i.fpuOp == .div && (divSetup i.fs1 i.fs2).needsDiv

def divInputs (i : Inputs) : DivUnit.Inputs 48 :=
  ⟨divStart i,false,false,(divSetup i.fs1 i.fs2).dividend,(divSetup i.fs1 i.fs2).divisor⟩

def divReady (s : Regs) : Bool := DivUnit.ready s.div

def fpuReady (s : Regs) (i : Inputs) : Bool := if s.divInProgress then divReady s else !divStart i

def step (s : Regs) (i : Inputs) : Regs :=
  {div := DivUnit.step s.div (divInputs i)
   divFs1Reg := if divStart i then i.fs1 else s.divFs1Reg
   divFs2Reg := if divStart i then i.fs2 else s.divFs2Reg
   divInProgress := if divStart i then true else if divReady s then false else s.divInProgress}

def divAssembled (s : Regs) (i : Inputs) : FpResult :=
  divAssemble s.divFs1Reg s.divFs2Reg (DivUnit.result s.div (divInputs i))

def fpMin (a b : BitVec 32) : BitVec 32 :=
  if isNan a && isNan b then qnan
  else if isNan a then b
  else if isNan b then a
  else if isZero a && isZero b then if sign a || sign b then negZero else posZero
  else if lessThan a b then a else b

def fpMax (a b : BitVec 32) : BitVec 32 :=
  if isNan a && isNan b then qnan
  else if isNan a then b
  else if isNan b then a
  else if isZero a && isZero b then if sign a && sign b then negZero else posZero
  else if lessThan a b then b else a

def fpResult (s : Regs) (i : Inputs) : BitVec 32 := match i.fpuOp with
  | .add | .sub | .mul | .madd | .msub | .nmsub | .nmadd => fmaResult i
  | .div => if s.divInProgress && divReady s then (divAssembled s i).result else (divSetup i.fs1 i.fs2).specialResult
  | .sqrt => (sqrt i.fs1).result
  | .sgnj => pack (sign i.fs2) (exponent i.fs1) (fraction i.fs1)
  | .sgnjn => pack (!sign i.fs2) (exponent i.fs1) (fraction i.fs1)
  | .sgnjx => pack (sign i.fs1 ^^ sign i.fs2) (exponent i.fs1) (fraction i.fs1)
  | .mvwx => i.intSrc
  | .min => fpMin i.fs1 i.fs2
  | .max => fpMax i.fs1 i.fs2
  | .cvtsw => intToFloat i.intSrc true
  | .cvtswu => intToFloat i.intSrc false
  | _ => posZero

def fclass (a : BitVec 32) : BitVec 32 :=
  if isNan a then if a.getLsbD 22 then 0x200 else 0x100
  else if isInf a then if sign a then 0x001 else 0x080
  else if isZero a then if sign a then 0x008 else 0x010
  else if isSubnormal a then if sign a then 0x004 else 0x020
  else if sign a then 0x002 else 0x040

def intResult (i : Inputs) : BitVec 32 := match i.fpuOp with
  | .mvxw => i.fs1
  | .feq =>
      if isNan i.fs1 || isNan i.fs2 then 0
      else if i.fs1 = i.fs2 then 1 else 0
  | .flt =>
      if isNan i.fs1 || isNan i.fs2 then 0
      else if lessThan i.fs1 i.fs2 then 1 else 0
  | .fle =>
      if isNan i.fs1 || isNan i.fs2 then 0
      else if lessThan i.fs1 i.fs2 || i.fs1 == i.fs2 then 1 else 0
  | .fclass => fclass i.fs1
  | .cvtws => (floatToInt i.fs1 true).result
  | .cvtwus => (floatToInt i.fs1 false).result
  | _ => 0

def invalidFlag (invalid : Bool) : BitVec 5 := if invalid then 0b10000 else 0

def fflags (s : Regs) (i : Inputs) : BitVec 5 := match i.fpuOp with
  | .add | .sub | .mul | .madd | .msub | .nmsub | .nmadd => fmaFlags
  | .div => if s.divInProgress && divReady s then (divAssembled s i).flags else (divSetup i.fs1 i.fs2).flags
  | .sqrt => (sqrt i.fs1).flags
  | .feq => invalidFlag ((isNan i.fs1 || isNan i.fs2) && (isSnan i.fs1 || isSnan i.fs2))
  | .flt | .fle => invalidFlag (isNan i.fs1 || isNan i.fs2)
  | .cvtws => invalidFlag (floatToInt i.fs1 true).invalid
  | .cvtwus => invalidFlag (floatToInt i.fs1 false).invalid
  | _ => 0

/- An operation on two operands; what the other inputs hold is left as it is. -/
def Inputs.ask (i : Inputs) (op : FpuOp) (fs1 fs2 : BitVec 32) : Inputs :=
  {i with fpuOp := op, fs1 := fs1, fs2 := fs2}

end RiscvSoc.Fpu
