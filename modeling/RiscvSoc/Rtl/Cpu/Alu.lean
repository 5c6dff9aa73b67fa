import RiscvSoc.Rtl.Cpu.Decoder
import RiscvSoc.Rtl.MulUnit

/-! `alu.sv`. A request is latched, and its result stands at the output until the next one. -/
namespace RiscvSoc.Alu
open Decoder

def aluMulh : BitVec 5 := 0b01011
def aluMulhsu : BitVec 5 := 0b01100
def aluMulhu : BitVec 5 := 0b01101
def aluDiv : BitVec 5 := 0b01110
def aluDivu : BitVec 5 := 0b01111
def aluRem : BitVec 5 := 0b10000
def aluRemu : BitVec 5 := 0b10001

def isArithOp (op : BitVec 5) : Bool := op ∈ [aluAdd,aluSub,aluSlt,aluSltu]
def isBitwiseOp (op : BitVec 5) : Bool := op ∈ [aluAnd,aluOr,aluXor]
def isShiftOp (op : BitVec 5) : Bool := op ∈ [aluSll,aluSrl,aluSra]
def isMinmaxOp (op : BitVec 5) : Bool := op ∈ [aluMin,aluMax,aluMinu,aluMaxu]
def isMulOp (op : BitVec 5) : Bool := op ∈ [aluMul,aluMulh,aluMulhsu,aluMulhu]
def isDivOp (op : BitVec 5) : Bool := op ∈ [aluDiv,aluDivu,aluRem,aluRemu]

inductive MinmaxState where
  | idle
  | compareCapture
  | compareSelect
  | resultCapture
  | outputSelect
  deriving DecidableEq, Repr

structure Inputs where
  a : BitVec 32
  b : BitVec 32
  aluOp : BitVec 5
  inValid : Bool
  deriving DecidableEq, Repr

structure Regs where
  pendingOperationReg : Bool
  reqAReg : BitVec 32
  reqBReg : BitVec 32
  reqOpReg : BitVec 5
  reqIsArithReg : Bool
  reqIsBitwiseReg : Bool
  reqIsShiftReg : Bool
  reqIsMinmaxReg : Bool
  reqIsMulReg : Bool
  reqIsDivReg : Bool
  minmaxSignedLtReg : Bool
  minmaxUnsignedLtReg : Bool
  minmaxUseSignedCompareReg : Bool
  minmaxIsMinOpReg : Bool
  minmaxLessThanReg : Bool
  minmaxMinResultReg : BitVec 32
  minmaxMaxResultReg : BitVec 32
  minmaxStateReg : MinmaxState
  divIsSigned : Bool
  divRemSel : Bool
  mulOpType : MulUnit.OpType
  outData : BitVec 32
  outValid : Bool
  mul : MulUnit.Regs 32
  div : DivUnit.Regs 32
  deriving DecidableEq, Repr

/- The result and the data of the comparison are not reset. -/
def reset (s : Regs) : Regs :=
  {s with
    pendingOperationReg := false
    reqAReg := 0
    reqBReg := 0
    reqOpReg := 0
    reqIsArithReg := false
    reqIsBitwiseReg := false
    reqIsShiftReg := false
    reqIsMinmaxReg := false
    reqIsMulReg := false
    reqIsDivReg := false
    minmaxUseSignedCompareReg := false
    minmaxIsMinOpReg := false
    minmaxStateReg := .idle
    divIsSigned := false
    divRemSel := false
    mulOpType := .mul
    outValid := false
    mul := MulUnit.reset
    div := DivUnit.reset}

namespace Regs

def inReady (s : Regs) : Bool := !s.pendingOperationReg
def launchOp (s : Regs) (i : Inputs) : Bool := i.inValid && s.inReady

def minmaxSignedLt (s : Regs) : Bool := s.reqAReg.slt s.reqBReg
def minmaxUnsignedLt (s : Regs) : Bool := s.reqAReg.ult s.reqBReg

def arithResult (s : Regs) : BitVec 32 :=
  if s.reqOpReg = aluAdd then s.reqAReg + s.reqBReg
  else if s.reqOpReg = aluSub then s.reqAReg - s.reqBReg
  else if s.reqOpReg = aluSlt then if s.minmaxSignedLt then 1 else 0
  else if s.reqOpReg = aluSltu then if s.minmaxUnsignedLt then 1 else 0
  else 0
def bitwiseResult (s : Regs) : BitVec 32 :=
  if s.reqOpReg = aluAnd then s.reqAReg &&& s.reqBReg
  else if s.reqOpReg = aluOr then s.reqAReg ||| s.reqBReg
  else if s.reqOpReg = aluXor then s.reqAReg ^^^ s.reqBReg
  else 0
def shiftResult (s : Regs) : BitVec 32 :=
  let shamt := (s.reqBReg.extractLsb' 0 5).toNat
  if s.reqOpReg = aluSll then s.reqAReg <<< shamt
  else if s.reqOpReg = aluSrl then s.reqAReg >>> shamt
  else if s.reqOpReg = aluSra then s.reqAReg.sshiftRight shamt
  else 0

/- The units read the latched operands; without the M extension they are not there. -/
def mulInputs (s : Regs) (enableM : Bool) (i : Inputs) : MulUnit.Inputs 32 :=
  ⟨enableM && s.launchOp i && isMulOp i.aluOp,s.mulOpType,s.reqAReg,s.reqBReg⟩
def divInputs (s : Regs) (enableM : Bool) (i : Inputs) : DivUnit.Inputs 32 :=
  ⟨enableM && s.launchOp i && isDivOp i.aluOp,s.divIsSigned,s.divRemSel,s.reqAReg,s.reqBReg⟩
def mulReady (s : Regs) (enableM : Bool) : Bool := !enableM || MulUnit.ready s.mul
def divReady (s : Regs) (enableM : Bool) : Bool := !enableM || DivUnit.ready s.div

def muldivResult (s : Regs) (enableM : Bool) (i : Inputs) : BitVec 32 :=
  if !enableM then 0
  else if s.reqIsMulReg then MulUnit.result s.mul
  else if s.reqIsDivReg then DivUnit.result s.div (s.divInputs enableM i)
  else 0

def resultNext (s : Regs) (enableM : Bool) (i : Inputs) : BitVec 32 :=
  if s.reqIsArithReg then s.arithResult
  else if s.reqIsShiftReg then s.shiftResult
  else if s.reqIsBitwiseReg then s.bitwiseResult
  else if s.reqIsMulReg || s.reqIsDivReg then s.muldivResult enableM i
  else 0

def launch (s : Regs) (enableM : Bool) (i : Inputs) : Regs :=
  {s with
    pendingOperationReg := true
    reqAReg := i.a
    reqBReg := i.b
    reqOpReg := i.aluOp
    reqIsArithReg := isArithOp i.aluOp
    reqIsBitwiseReg := isBitwiseOp i.aluOp
    reqIsShiftReg := isShiftOp i.aluOp
    reqIsMinmaxReg := isMinmaxOp i.aluOp
    reqIsMulReg := enableM && isMulOp i.aluOp
    reqIsDivReg := enableM && isDivOp i.aluOp
    minmaxStateReg := if isMinmaxOp i.aluOp then .compareCapture else .idle
    outValid := false
    divIsSigned := i.aluOp == aluDiv || i.aluOp == aluRem
    divRemSel := i.aluOp == aluRem || i.aluOp == aluRemu
    mulOpType :=
      if i.aluOp = aluMulh then .mulh else if i.aluOp = aluMulhsu then .mulhsu else if i.aluOp = aluMulhu then .mulhu
      else .mul}

def minmaxStep (s : Regs) : Regs := match s.minmaxStateReg with
  | .compareCapture =>
    {s with
      minmaxSignedLtReg := s.minmaxSignedLt
      minmaxUnsignedLtReg := s.minmaxUnsignedLt
      minmaxUseSignedCompareReg := s.reqOpReg == aluMin || s.reqOpReg == aluMax
      minmaxIsMinOpReg := s.reqOpReg == aluMin || s.reqOpReg == aluMinu
      minmaxStateReg := .compareSelect}
  | .compareSelect =>
    {s with
      minmaxLessThanReg := if s.minmaxUseSignedCompareReg then s.minmaxSignedLtReg else s.minmaxUnsignedLtReg
      minmaxStateReg := .resultCapture}
  | .resultCapture =>
    {s with
      minmaxMinResultReg := if s.minmaxLessThanReg then s.reqAReg else s.reqBReg
      minmaxMaxResultReg := if s.minmaxLessThanReg then s.reqBReg else s.reqAReg
      minmaxStateReg := .outputSelect}
  | .outputSelect =>
    {s with
      pendingOperationReg := false
      outData := if s.minmaxIsMinOpReg then s.minmaxMinResultReg else s.minmaxMaxResultReg
      outValid := true
      minmaxStateReg := .idle}
  | .idle => {s with pendingOperationReg := false, minmaxStateReg := .idle}

def proceed (s : Regs) (enableM : Bool) (i : Inputs) : Regs :=
  if s.reqIsMinmaxReg then s.minmaxStep
  else if s.reqIsMulReg && s.mulReady enableM || s.reqIsDivReg && s.divReady enableM || !s.reqIsMulReg && !s.reqIsDivReg then
    {s with pendingOperationReg := false, outData := s.resultNext enableM i, outValid := true}
  else s

def next (s : Regs) (enableM : Bool) (i : Inputs) : Regs :=
  let control := if s.launchOp i then s.launch enableM i else if s.pendingOperationReg then s.proceed enableM i else s
  {control with mul := MulUnit.step s.mul (s.mulInputs enableM i), div := DivUnit.step s.div (s.divInputs enableM i)}

end Regs

def isAtomicOp (op : BitVec 5) : Bool := op ∈ [aluAdd,aluXor,aluAnd,aluOr,aluMin,aluMax,aluMinu,aluMaxu]

def lessThan (op : BitVec 5) (a b : BitVec 32) : Bool := if op = aluMin ∨ op = aluMax then a.slt b else a.ult b

def atomicResult (op : BitVec 5) (a b : BitVec 32) : BitVec 32 :=
  if op = aluAdd then a + b
  else if op = aluXor then a ^^^ b
  else if op = aluAnd then a &&& b
  else if op = aluOr then a ||| b
  else if op = aluMin ∨ op = aluMinu then if lessThan op a b then a else b
  else if lessThan op a b then b else a

def compared (op : BitVec 5) (a b : BitVec 32) (x : Regs) : Prop := match x.minmaxStateReg with
  | .compareCapture => True
  | .compareSelect => x.minmaxSignedLtReg = a.slt b ∧ x.minmaxUnsignedLtReg = a.ult b ∧
      x.minmaxUseSignedCompareReg = (op == aluMin || op == aluMax) ∧ x.minmaxIsMinOpReg = (op == aluMin || op == aluMinu)
  | .resultCapture => x.minmaxLessThanReg = lessThan op a b ∧ x.minmaxIsMinOpReg = (op == aluMin || op == aluMinu)
  | .outputSelect => x.minmaxMinResultReg = (if lessThan op a b then a else b) ∧
      x.minmaxMaxResultReg = (if lessThan op a b then b else a) ∧ x.minmaxIsMinOpReg = (op == aluMin || op == aluMinu)
  | .idle => False

structure Works (op : BitVec 5) (a b : BitVec 32) (x : Regs) : Prop where
  pending : x.pendingOperationReg = true
  operands : x.reqAReg = a ∧ x.reqBReg = b ∧ x.reqOpReg = op
  invalid : x.outValid = false
  kind : x.reqIsArithReg = isArithOp op ∧ x.reqIsBitwiseReg = isBitwiseOp op ∧ x.reqIsShiftReg = isShiftOp op ∧
    x.reqIsMinmaxReg = isMinmaxOp op
  units : x.reqIsMulReg = false ∧ x.reqIsDivReg = false
  stage : isMinmaxOp op = true → compared op a b x

structure Holds (r : BitVec 32) (x : Regs) : Prop where
  idle : x.pendingOperationReg = false
  valid : x.outValid = true
  data : x.outData = r

def remaining (x : Regs) : Nat :=
  if x.reqIsMinmaxReg then match x.minmaxStateReg with
    | .compareCapture => 4
    | .compareSelect => 3
    | .resultCapture => 2
    | .outputSelect | .idle => 1
  else 1

theorem remainingBounds (x : Regs) : 1 ≤ remaining x ∧ remaining x ≤ 4 := by
  unfold remaining
  repeat' split
  all_goals omega

variable {op : BitVec 5} {a b r : BitVec 32} {x : Regs} {enableM : Bool} {i : Inputs}

theorem atomicOps (atomic : isAtomicOp op = true) : op = aluAdd ∨ op = aluXor ∨ op = aluAnd ∨ op = aluOr ∨ op = aluMin ∨
    op = aluMax ∨ op = aluMinu ∨ op = aluMaxu := by
  simpa [isAtomicOp] using atomic

theorem launches (enableM : Bool) (idle : x.pendingOperationReg = false) (valid : i.inValid = true) (atomic : isAtomicOp i.aluOp = true) :
    Works i.aluOp i.a i.b (x.next enableM i) := by
  have taken : x.launchOp i = true := by simp [Regs.launchOp,Regs.inReady,idle,valid]
  have units : isMulOp i.aluOp = false ∧ isDivOp i.aluOp = false := by
    rcases atomicOps atomic with h | h | h | h | h | h | h | h <;> rw [h] <;> decide
  simp only [Regs.next,taken,if_true]
  refine ⟨rfl,⟨rfl,rfl,rfl⟩,rfl,⟨rfl,rfl,rfl,rfl⟩,?_,fun minmax => ?_⟩
  · simp [Regs.launch,units]
  · simp [compared,Regs.launch,minmax]

theorem holdsOn (enableM : Bool) (holds : Holds r x) (quiet : i.inValid = false) : Holds r (x.next enableM i) := by
  obtain ⟨idle,valid,data⟩ := holds
  have absent : x.launchOp i = false := by simp [Regs.launchOp,quiet]
  simp only [Regs.next,absent,idle,Bool.false_eq_true,if_false]
  exact ⟨rfl,valid,data⟩

theorem pendingNext (pending : x.pendingOperationReg = true) : x.next enableM i =
    {x.proceed enableM i with
      mul := MulUnit.step x.mul (x.mulInputs enableM i), div := DivUnit.step x.div (x.divInputs enableM i)} := by
  have absent : x.launchOp i = false := by simp [Regs.launchOp,Regs.inReady,pending]
  simp [Regs.next,absent,pending]

theorem worksPlainly (works : Works op a b x) (plain : isMinmaxOp op = false) (atomic : isAtomicOp op = true) :
    Holds (atomicResult op a b) (x.next enableM i) := by
  obtain ⟨pending,operands,_,kind,units,_⟩ := works
  have data : x.resultNext enableM i = atomicResult op a b := by
    rw [Regs.resultNext,kind.1,kind.2.1,kind.2.2.1,Regs.arithResult,Regs.bitwiseResult,operands.1,operands.2.1,operands.2.2]
    rcases atomicOps atomic with h | h | h | h | h | h | h | h <;> rw [h] at plain ⊢
    · rfl
    · rfl
    · rfl
    · rfl
    all_goals contradiction
  have done : x.proceed enableM i =
      {x with pendingOperationReg := false, outData := x.resultNext enableM i, outValid := true} := by
    simp [Regs.proceed,kind,plain,units]
  rw [pendingNext pending,done]
  exact ⟨rfl,rfl,data⟩

theorem worksComparing (works : Works op a b x) (minmax : isMinmaxOp op = true) :
    Works op a b (x.next enableM i) ∧ remaining (x.next enableM i) < remaining x ∨
      Holds (atomicResult op a b) (x.next enableM i) := by
  obtain ⟨pending,operands,invalid,kind,units,stage⟩ := works
  have on : x.proceed enableM i = x.minmaxStep := by simp [Regs.proceed,kind,minmax]
  have stage := stage minmax
  rw [pendingNext pending,on]
  simp only [compared] at stage
  cases state : x.minmaxStateReg with
  | compareCapture =>
    left
    simp only [Regs.minmaxStep,state]
    refine ⟨⟨pending,operands,invalid,kind,units,fun _ => ?_⟩,by simp [remaining,kind,minmax,state]⟩
    simp [compared,Regs.minmaxSignedLt,Regs.minmaxUnsignedLt,operands]
  | compareSelect =>
    left
    rw [state] at stage
    obtain ⟨signed,unsigned,uses,isMin⟩ := stage
    simp only [Regs.minmaxStep,state]
    refine ⟨⟨pending,operands,invalid,kind,units,fun _ => ?_⟩,by simp [remaining,kind,minmax,state]⟩
    simp [compared,lessThan,signed,unsigned,uses,isMin]
  | resultCapture =>
    left
    rw [state] at stage
    obtain ⟨less,isMin⟩ := stage
    simp only [Regs.minmaxStep,state]
    refine ⟨⟨pending,operands,invalid,kind,units,fun _ => ?_⟩,by simp [remaining,kind,minmax,state]⟩
    simp [compared,less,isMin,operands]
  | outputSelect =>
    right
    rw [state] at stage
    obtain ⟨least,greatest,isMin⟩ := stage
    simp only [Regs.minmaxStep,state]
    refine ⟨rfl,rfl,?_⟩
    simp only [least,greatest,isMin]
    simp only [isMinmaxOp,decide_eq_true_eq,List.mem_cons,List.not_mem_nil,or_false] at minmax
    rcases minmax with h | h | h | h <;> rw [h] <;> rfl
  | idle => simp [state] at stage

theorem worksOn (enableM : Bool) (i : Inputs) (works : Works op a b x) (atomic : isAtomicOp op = true) :
    Works op a b (x.next enableM i) ∧ remaining (x.next enableM i) < remaining x ∨
      Holds (atomicResult op a b) (x.next enableM i) := by
  rcases Bool.eq_false_or_eq_true (isMinmaxOp op) with minmax | plain
  · exact worksComparing works minmax
  · exact .inr (worksPlainly works plain atomic)

theorem proceedValid (pending : (x.proceed enableM i).pendingOperationReg = true) :
    (x.proceed enableM i).outValid = x.outValid := by
  unfold Regs.proceed at pending ⊢
  split
  · rename_i minmax
    rw [if_pos minmax] at pending
    unfold Regs.minmaxStep at pending ⊢
    cases state : x.minmaxStateReg with
    | compareCapture | compareSelect | resultCapture | idle => rfl
    | outputSelect => simp [state] at pending
  · rename_i plain
    rw [if_neg plain] at pending
    split
    · rename_i done
      rw [if_pos done] at pending
      contradiction
    · rfl

theorem pendingFrom (pending : (x.next enableM i).pendingOperationReg = true) :
    x.launchOp i = true ∧ (x.next enableM i).outValid = false ∨
      x.pendingOperationReg = true ∧ (x.next enableM i).outValid = x.outValid := by
  rcases Bool.eq_false_or_eq_true (x.launchOp i) with taken | absent
  · exact .inl ⟨taken,by simp [Regs.next,taken,Regs.launch]⟩
  · rcases Bool.eq_false_or_eq_true x.pendingOperationReg with before | idle
    · rw [pendingNext before] at pending ⊢
      exact .inr ⟨before,proceedValid pending⟩
    · simp [Regs.next,absent,idle] at pending

end RiscvSoc.Alu
