import RiscvSoc.Rtl.MulProduct

/-! `dsp_pipe.sv`, three registers deep, and its products beside those of the multiplier. The
payload registers are not reset, so they may hold anything at first. -/
namespace RiscvSoc.DspPipe
open MulUnit (OpType Request)

def aluAdd : BitVec 5 := 0b00000
def aluSub : BitVec 5 := 0b00001
def aluAnd : BitVec 5 := 0b00010
def aluOr : BitVec 5 := 0b00011
def aluXor : BitVec 5 := 0b00100
def aluSll : BitVec 5 := 0b00101
def aluSrl : BitVec 5 := 0b00110
def aluSra : BitVec 5 := 0b00111
def aluSlt : BitVec 5 := 0b01000
def aluSltu : BitVec 5 := 0b01001
def aluMul : BitVec 5 := 0b01010
def aluMulh : BitVec 5 := 0b01011
def aluMulhsu : BitVec 5 := 0b01100
def aluMulhu : BitVec 5 := 0b01101

structure Inputs where
  a : BitVec 32
  b : BitVec 32
  aluOp : BitVec 5
  inValid : Bool
  deriving DecidableEq, Repr

structure Regs where
  stage1A : BitVec 32
  stage1B : BitVec 32
  stage1Op : BitVec 5
  stage1Valid : Bool
  stage2Result : BitVec 32
  stage2Valid : Bool
  outData : BitVec 32
  outValid : Bool
  deriving DecidableEq, Repr

def mulSignedSigned (s : Regs) : BitVec 64 := s.stage1A.signExtend 64 * s.stage1B.signExtend 64
def mulSignedUnsigned (s : Regs) : BitVec 64 := s.stage1A.signExtend 64 * (0#32 ++ s.stage1B)
def mulUnsignedUnsigned (s : Regs) : BitVec 64 := (0#32 ++ s.stage1A) * (0#32 ++ s.stage1B)

def shiftAmount (s : Regs) : Nat := (s.stage1B.extractLsb' 0 5).toNat

def stage2ResultNext (s : Regs) : BitVec 32 :=
  if s.stage1Op = aluAdd then s.stage1A + s.stage1B
  else if s.stage1Op = aluSub then s.stage1A - s.stage1B
  else if s.stage1Op = aluAnd then s.stage1A &&& s.stage1B
  else if s.stage1Op = aluOr then s.stage1A ||| s.stage1B
  else if s.stage1Op = aluXor then s.stage1A ^^^ s.stage1B
  else if s.stage1Op = aluSll then s.stage1A <<< shiftAmount s
  else if s.stage1Op = aluSrl then s.stage1A >>> shiftAmount s
  else if s.stage1Op = aluSra then s.stage1A.sshiftRight (shiftAmount s)
  else if s.stage1Op = aluSlt then 0#31 ++ BitVec.ofBool (s.stage1A.slt s.stage1B)
  else if s.stage1Op = aluSltu then 0#31 ++ BitVec.ofBool (s.stage1A.ult s.stage1B)
  else if s.stage1Op = aluMul then (mulSignedSigned s).extractLsb' 0 32
  else if s.stage1Op = aluMulh then (mulSignedSigned s).extractLsb' 32 32
  else if s.stage1Op = aluMulhsu then (mulSignedUnsigned s).extractLsb' 32 32
  else if s.stage1Op = aluMulhu then (mulUnsignedUnsigned s).extractLsb' 32 32
  else 0

def step (s : Regs) (i : Inputs) : Regs where
  stage1A := i.a
  stage1B := i.b
  stage1Op := i.aluOp
  stage1Valid := i.inValid
  stage2Result := stage2ResultNext s
  stage2Valid := s.stage1Valid
  outData := s.stage2Result
  outValid := s.stage2Valid

def resets (s : Regs) : Regs := {s with stage1Valid := false, stage2Valid := false, outValid := false}

def states (s : Regs) (i : Nat → Inputs) : Nat → Regs
  | 0 => resets s
  | n+1 => step (states s i n) (i n)

def opCode : OpType → BitVec 5
  | .mul => aluMul
  | .mulh => aluMulh
  | .mulhsu => aluMulhsu
  | .mulhu => aluMulhu

def Request.inputs (r : Request 32) : Inputs := ⟨r.multiplicand,r.multiplier,opCode r.opType,true⟩

theorem signExtended (x : BitVec 32) : x.signExtend 64 = BitVec.ofInt 64 x.toInt := rfl

theorem zeroExtended (x : BitVec 32) : 0#32 ++ x = BitVec.ofInt 64 x.toNat := by
  rw [BitVec.ofInt_natCast]
  apply BitVec.eq_of_toNat_eq
  have bound := x.isLt
  rw [BitNumbers.zeroExtended,BitVec.toNat_ofNat,Nat.mod_eq_of_lt (by omega)]

theorem stage2Exact {s : Regs} (r : Request 32) (a : s.stage1A = r.multiplicand) (b : s.stage1B = r.multiplier)
    (op : s.stage1Op = opCode r.opType) : stage2ResultNext s = r.answer := by
  rw [Request.answer,MulUnit.exactProduct,BitVec.ofInt_mul]
  cases kind : r.opType <;>
    simp only [stage2ResultNext,op,kind,a,b,opCode,mulSignedSigned,mulSignedUnsigned,mulUnsignedUnsigned,
      signExtended,zeroExtended,MulUnit.number,OpType.firstSigned,OpType.secondSigned] <;> rfl

theorem pipeDelivers (s : Regs) (i : Nat → Inputs) (n : Nat) (r : Request 32) (asked : i n = Request.inputs r) :
    (states s i (n + 3)).outValid = true ∧ (states s i (n + 3)).outData = r.answer := by
  refine ⟨by simp [states,step,asked,Request.inputs],?_⟩
  change stage2ResultNext (states s i (n + 1)) = r.answer
  apply stage2Exact <;> simp [states,step,asked,Request.inputs]

theorem pipeValid (s : Regs) (i : Nat → Inputs) (n : Nat) :
    (states s i n).outValid = true → ∃ m, n = m + 3 ∧ (i m).inValid = true := by
  intro valid
  rcases n with _ | _ | _ | n
  · simp [states,resets] at valid
  · simp [states,resets,step] at valid
  · simp [states,resets,step] at valid
  · exact ⟨n,rfl,by simpa [states,step] using valid⟩

/- Both multipliers, over every sequence of requests. -/
theorem multiplication :
    (∀ w, 2 ≤ w → ∀ i : Nat → MulUnit.Inputs w, MulUnit.Serves i) ∧
    ∀ (s : Regs) (j : Nat → Inputs),
      (∀ m r, j m = Request.inputs r →
        (states s j (m + 3)).outValid = true ∧ (states s j (m + 3)).outData = r.answer ∧
        ∀ (i : Nat → MulUnit.Inputs 32) (n : Nat), MulUnit.Asks i n r →
          (states s j (m + 3)).outData = MulUnit.result (MulUnit.states i (n + 34))) ∧
      ∀ n, (states s j n).outValid = true → ∃ m, n = m + 3 ∧ (j m).inValid = true := by
  refine ⟨fun w wide i => MulUnit.everySequenceServed wide i,fun s j => ⟨fun m r asked => ?_,pipeValid s j⟩⟩
  obtain ⟨valid,data⟩ := pipeDelivers s j m r asked
  refine ⟨valid,data,fun i n asks => ?_⟩
  rw [data,((MulUnit.everySequenceServed (by decide) i).answered n r asks).2]

/- MULH of the two most negative numbers. -/
theorem leastSquared : MulUnit.result (MulUnit.states (fun _ => ⟨true,.mulh,0x80000000,0x80000000⟩) 34) =
    (0x40000000 : BitVec 32) :=
  ((multiplication.1 32 (by decide) _).answered 0 ⟨.mulh,0x80000000,0x80000000⟩ ⟨rfl,rfl,rfl,rfl,rfl⟩).2.trans
    (by decide)

end RiscvSoc.DspPipe
