import RiscvSoc.Rtl.Cpu.Alu
import RiscvSoc.Rtl.MulProduct

/-! What the ALU answers to the requests of the integer instructions: the plain ones after a cycle, the
products when the multiplier's loop is done. -/
namespace RiscvSoc.Alu
open Decoder

def isPlainOp (op : BitVec 5) : Bool := isArithOp op || isBitwiseOp op || isShiftOp op

def plainResult (op : BitVec 5) (a b : BitVec 32) : BitVec 32 :=
  let shamt := (b.extractLsb' 0 5).toNat
  if op = aluAdd then a + b
  else if op = aluSub then a - b
  else if op = aluSlt then if a.slt b then 1 else 0
  else if op = aluSltu then if a.ult b then 1 else 0
  else if op = aluAnd then a &&& b
  else if op = aluOr then a ||| b
  else if op = aluXor then a ^^^ b
  else if op = aluSll then a <<< shamt
  else if op = aluSrl then a >>> shamt
  else a.sshiftRight shamt

def mulType (op : BitVec 5) : MulUnit.OpType :=
  if op = aluMulh then .mulh else if op = aluMulhsu then .mulhsu else if op = aluMulhu then .mulhu else .mul

def product (op : BitVec 5) (a b : BitVec 32) : MulUnit.Request 32 := ⟨mulType op,a,b⟩

def answer (op : BitVec 5) (a b : BitVec 32) : BitVec 32 :=
  if isMulOp op then (product op a b).answer else plainResult op a b

def Answers (enableM : Bool) (op : BitVec 5) : Prop := isPlainOp op = true ∨ isMulOp op = true ∧ enableM = true

inductive Multiplies (r : MulUnit.Request 32) (x : MulUnit.Regs 32) : Prop where
  | begins (state : x.state = .init)
  | loops {k : Nat} (early : k < 32) (multiplying : MulUnit.Multiplying r k x)
  | ends (multiplied : MulUnit.Multiplied r x)

structure Working (enableM : Bool) (op : BitVec 5) (a b : BitVec 32) (x : Regs) : Prop where
  answers : Answers enableM op
  pending : x.pendingOperationReg = true
  operands : x.reqAReg = a ∧ x.reqBReg = b ∧ x.reqOpReg = op
  invalid : x.outValid = false
  kind : x.reqIsArithReg = isArithOp op ∧ x.reqIsBitwiseReg = isBitwiseOp op ∧ x.reqIsShiftReg = isShiftOp op
  units : x.reqIsMinmaxReg = false ∧ x.reqIsMulReg = isMulOp op ∧ x.reqIsDivReg = false
  mulOpType : x.mulOpType = mulType op
  stage : isMulOp op = true → Multiplies (product op a b) x.mul

def left (x : Regs) : Nat :=
  if x.reqIsMulReg then match x.mul.state with
    | .init => 34
    | .iter => 33 - x.mul.iterCount.toNat
    | .idle | .done => 1
  else 1

structure Free (enableM : Bool) (x : Regs) : Prop where
  pending : x.mul.state ≠ .idle → x.pendingOperationReg = true
  units : x.mul.state ≠ .idle → x.reqIsMinmaxReg = false ∧ x.reqIsMulReg = true ∧ x.reqIsDivReg = false
  there : x.mul.state ≠ .idle → enableM = true

variable {enableM : Bool} {op : BitVec 5} {a b : BitVec 32} {x : Regs} {i : Inputs}

theorem plainOps (plain : isPlainOp op = true) : op = aluAdd ∨ op = aluSub ∨ op = aluSlt ∨ op = aluSltu ∨ op = aluAnd ∨
    op = aluOr ∨ op = aluXor ∨ op = aluSll ∨ op = aluSrl ∨ op = aluSra := by
  simpa [isPlainOp,isArithOp,isBitwiseOp,isShiftOp,or_assoc] using plain

theorem plainApart : ∀ op, isPlainOp op = true → isMinmaxOp op = false ∧ isMulOp op = false ∧ isDivOp op = false := by
  decide

theorem mulApart : ∀ op, isMulOp op = true → isMinmaxOp op = false ∧ isDivOp op = false ∧ isArithOp op = false ∧
    isShiftOp op = false ∧ isBitwiseOp op = false := by
  decide

theorem Answers.apart (answers : Answers enableM op) : isMinmaxOp op = false ∧ isDivOp op = false := by
  rcases answers with plain | ⟨mul,_⟩
  · exact ⟨(plainApart op plain).1,(plainApart op plain).2.2⟩
  · exact ⟨(mulApart op mul).1,(mulApart op mul).2.1⟩

theorem Answers.there (answers : Answers enableM op) : (enableM && isMulOp op) = isMulOp op := by
  rcases answers with plain | ⟨_,rfl⟩
  · rw [(plainApart op plain).2.1,Bool.and_false]
  · exact Bool.true_and _

theorem mulNext : (x.next enableM i).mul = MulUnit.step x.mul (x.mulInputs enableM i) := rfl

theorem stepState (s : MulUnit.Regs 32) (j : MulUnit.Inputs 32) : (MulUnit.step s j).state = MulUnit.nextState s j := by
  unfold MulUnit.step
  split <;> rfl

theorem Free.rest (free : Free enableM x) (idle : x.pendingOperationReg = false) : x.mul.state = .idle :=
  Decidable.byContradiction fun busy => Bool.false_ne_true (idle.symm.trans (free.pending busy))

theorem launched (answers : Answers enableM i.aluOp) (free : Free enableM x) (idle : x.pendingOperationReg = false)
    (valid : i.inValid = true) : Working enableM i.aluOp i.a i.b (x.next enableM i) := by
  have taken : x.launchOp i = true := by simp [Regs.launchOp,Regs.inReady,idle,valid]
  have rest := free.rest idle
  obtain ⟨minmax,div⟩ := answers.apart
  have there := answers.there
  refine ⟨answers,?_,?_,?_,?_,?_,?_,fun mul => .begins ?_⟩
  · simp [Regs.next,taken,Regs.launch]
  · simp [Regs.next,taken,Regs.launch]
  · simp [Regs.next,taken,Regs.launch]
  · simp [Regs.next,taken,Regs.launch]
  · simp [Regs.next,taken,Regs.launch,minmax,div,there]
  · simp [Regs.next,taken,Regs.launch,mulType]
  · rw [mulNext,stepState,MulUnit.nextState,rest]
    rw [mul] at there
    simp [Regs.mulInputs,taken,there,mul]

theorem pendingStep (pending : x.pendingOperationReg = true) : (x.mulInputs enableM i).start = false := by
  simp [Regs.mulInputs,Regs.launchOp,Regs.inReady,pending]

theorem plainAnswered (working : Working enableM op a b x) (plain : isPlainOp op = true) :
    Holds (answer op a b) (x.next enableM i) := by
  obtain ⟨_,pending,⟨reqA,reqB,reqOp⟩,_,⟨arith,bitwise,shift⟩,⟨minmax,mul,div⟩,_,_⟩ := working
  obtain ⟨-,noMul,-⟩ := plainApart op plain
  have data : x.resultNext enableM i = answer op a b := by
    rw [answer,noMul,Regs.resultNext,arith,shift,bitwise,Regs.arithResult,Regs.shiftResult,Regs.bitwiseResult,
      reqA,reqB,reqOp]
    rcases plainOps plain with h | h | h | h | h | h | h | h | h | h <;> rw [h] <;>
      simp [Regs.minmaxSignedLt,Regs.minmaxUnsignedLt,reqA,reqB,plainResult,isArithOp,isShiftOp,isBitwiseOp,aluAdd,aluSub,
        aluSlt,aluSltu,aluAnd,aluOr,aluXor,aluSll,aluSrl,aluSra]
  have done : x.proceed enableM i =
      {x with pendingOperationReg := false, outData := x.resultNext enableM i, outValid := true} := by
    simp [Regs.proceed,minmax,mul,noMul,div]
  rw [pendingNext pending,done]
  exact ⟨rfl,rfl,data⟩

theorem multiplyingStays (working : Working enableM op a b x) (mul : isMulOp op = true) (busy : x.mul.state ≠ .done)
    (stage : Multiplies (product op a b) (x.next enableM i).mul) : Working enableM op a b (x.next enableM i) := by
  obtain ⟨answers,pending,operands,invalid,kind,⟨minmax,isMul,div⟩,mulOpType,_⟩ := working
  have there : enableM = true := by
    have there := answers.there
    rw [mul,Bool.and_true] at there
    exact there
  have still : x.proceed enableM i = x := by
    simp [Regs.proceed,minmax,isMul,mul,div,Regs.mulReady,MulUnit.ready,there,busy]
  rw [pendingNext pending,still] at stage ⊢
  exact ⟨answers,pending,operands,invalid,kind,⟨minmax,isMul,div⟩,mulOpType,fun _ => stage⟩

theorem productAnswered (working : Working enableM op a b x) (mul : isMulOp op = true)
    (multiplied : MulUnit.Multiplied (product op a b) x.mul) : Holds (answer op a b) (x.next enableM i) := by
  obtain ⟨answers,pending,_,_,⟨arith,bitwise,shift⟩,⟨minmax,isMul,div⟩,_,_⟩ := working
  have there : enableM = true := by
    have there := answers.there
    rw [mul,Bool.and_true] at there
    exact there
  obtain ⟨-,-,noArith,noShift,noBitwise⟩ := mulApart op mul
  have data : x.resultNext enableM i = answer op a b := by
    rw [answer,mul,if_pos rfl,← MulUnit.resultExact multiplied]
    simp [Regs.resultNext,Regs.muldivResult,arith,noArith,shift,noShift,bitwise,noBitwise,isMul,mul,there]
  have done : x.proceed enableM i =
      {x with pendingOperationReg := false, outData := x.resultNext enableM i, outValid := true} := by
    simp [Regs.proceed,minmax,isMul,mul,Regs.mulReady,MulUnit.ready,multiplied.state]
  rw [pendingNext pending,done]
  exact ⟨rfl,rfl,data⟩

theorem workingOn (i : Inputs) (working : Working enableM op a b x) :
    Working enableM op a b (x.next enableM i) ∧ left (x.next enableM i) < left x ∨
      Holds (answer op a b) (x.next enableM i) := by
  rcases working.answers with plain | ⟨mul,_⟩
  · exact .inr (plainAnswered working plain)
  · have isMul : x.reqIsMulReg = true := working.units.2.1.trans mul
    have after {y : Regs} (w : Working enableM op a b y) : y.reqIsMulReg = true := w.units.2.1.trans mul
    cases working.stage mul with
    | begins state =>
      have next : MulUnit.Multiplying (product op a b) 0 (x.next enableM i).mul := by
        rw [mulNext]
        exact MulUnit.initMultiplies state working.mulOpType working.operands.1 working.operands.2.1
      have stays := multiplyingStays working mul (by rw [state]; decide) (.loops (by decide) next)
      refine .inl ⟨stays,?_⟩
      rw [left,left,after stays,isMul,state,next.state]
      exact Nat.lt_succ_of_le (Nat.sub_le _ _)
    | @loops k early multiplying =>
      by_cases last : k + 1 = 32
      · obtain rfl : k = 32 - 1 := by omega
        have next : MulUnit.Multiplied (product op a b) (x.next enableM i).mul :=
          MulUnit.lastMultiplies _ (by decide) multiplying
        have stays := multiplyingStays working mul (by rw [multiplying.state]; decide) (.ends next)
        refine .inl ⟨stays,?_⟩
        rw [left,left,after stays,isMul,multiplying.state,next.state]
        simp [multiplying.count]
      · have next : MulUnit.Multiplying (product op a b) (k + 1) (x.next enableM i).mul :=
          MulUnit.iterMultiplies _ (by decide) (by omega) multiplying
        have stays := multiplyingStays working mul (by rw [multiplying.state]; decide) (.loops (by omega) next)
        refine .inl ⟨stays,?_⟩
        rw [left,left,after stays,isMul,multiplying.state,next.state]
        simp only [if_true,multiplying.count,next.count]
        omega
    | ends multiplied => exact .inr (productAnswered working mul multiplied)

theorem leftMost (x : Regs) : left x ≤ 34 := by
  unfold left
  repeat' split
  all_goals omega

theorem leftWorking (working : Working enableM op a b x) : 1 ≤ left x := by
  unfold left
  split
  · rename_i isMul
    have stage := working.stage (working.units.2.1.symm.trans isMul)
    cases state : x.mul.state with
    | iter =>
      cases stage with
      | begins other => exact absurd (state.symm.trans other) (by decide)
      | loops early multiplying =>
        simp only [multiplying.count]
        omega
      | ends multiplied => exact absurd (state.symm.trans multiplied.state) (by decide)
    | idle | init | done => exact Nat.le_add_left 1 _
  · exact Nat.le_refl 1

theorem freeReset (x : Regs) : Free enableM (reset x) :=
  ⟨fun busy => absurd rfl busy,fun busy => absurd rfl busy,fun busy => absurd rfl busy⟩

theorem restNext (rest : x.mul.state = .idle) (quiet : (x.mulInputs enableM i).start = false) :
    (x.next enableM i).mul.state = .idle := by
  rw [mulNext,stepState,MulUnit.nextState,rest,quiet]
  rfl

theorem freeNext (free : Free enableM x) (i : Inputs) : Free enableM (x.next enableM i) := by
  cases pending : x.pendingOperationReg with
  | false =>
    have rest := free.rest pending
    by_cases start : (x.mulInputs enableM i).start = true
    · simp only [Regs.mulInputs,Bool.and_eq_true] at start
      obtain ⟨⟨there,taken⟩,mul⟩ := start
      obtain ⟨minmax,div,-⟩ := mulApart i.aluOp mul
      refine ⟨fun _ => ?_,fun _ => ?_,fun _ => there⟩
      · simp [Regs.next,taken,Regs.launch]
      · simp [Regs.next,taken,Regs.launch,minmax,div,mul,there]
    · have still := restNext rest (Bool.eq_false_iff.mpr start)
      exact ⟨absurd still,absurd still,absurd still⟩
  | true =>
    by_cases rest : x.mul.state = .idle
    · have still := restNext rest (@pendingStep enableM x i pending)
      exact ⟨absurd still,absurd still,absurd still⟩
    · obtain ⟨minmax,mul,div⟩ := free.units rest
      have there := free.there rest
      by_cases done : x.mul.state = .done
      · have still : (x.next enableM i).mul.state = .idle := by
          rw [mulNext,stepState,MulUnit.nextState,done]
        exact ⟨absurd still,absurd still,absurd still⟩
      · have on : x.proceed enableM i = x := by
          simp [Regs.proceed,minmax,mul,div,Regs.mulReady,MulUnit.ready,there,done]
        rw [pendingNext pending,on]
        exact ⟨fun _ => pending,fun _ => ⟨minmax,mul,div⟩,fun _ => there⟩

end RiscvSoc.Alu
