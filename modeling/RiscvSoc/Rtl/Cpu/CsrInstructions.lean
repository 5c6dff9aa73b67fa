import RiscvSoc.Rtl.Cpu.Execution

/-! The CSR instructions. What software reads and writes of the CSRs, and that CSRRW, CSRRS, CSRRC and
their immediate forms do it in one piece. -/
namespace RiscvSoc.CsrFile

def addressOf (instruction : BitVec 32) : Address := (Decoder.immI instruction).extractLsb' 0 12

/- The bits that a CSR can have; without the F extension those of `fcsr` are 0. -/
def legalMask (enableF : Bool) (a : Address) : BitVec 32 :=
  if a = csrFflags then if enableF then 0x1F else 0
  else if a = csrFrm then if enableF then 0x7 else 0
  else if a = csrFcsr then if enableF then 0xFF else 0
  else if a = csrMie then 0x888
  else if a = csrMtvec then ~~~3
  else if a = csrMepc then ~~~1
  else BitVec.allOnes 32

/- Write, set and clear; `funct3[2]` takes `rs1` itself as the operand. -/
def operandOf (funct3 : BitVec 3) (rs1 : BitVec 5) (x : BitVec 32) : BitVec 32 :=
  if funct3.getLsbD 2 then rs1.setWidth 32 else x
def operate (funct3 : BitVec 3) (old operand : BitVec 32) : BitVec 32 :=
  if funct3.extractLsb' 0 2 = 0b01 then operand
  else if funct3.extractLsb' 0 2 = 0b10 then old ||| operand
  else old &&& ~~~operand

def writesNothing (funct3 : BitVec 3) (rs1 : BitVec 5) : Prop := funct3.extractLsb' 0 2 ≠ 0b01 ∧ rs1 = 0

instance (funct3 : BitVec 3) (rs1 : BitVec 5) : Decidable (writesNothing funct3 rs1) :=
  inferInstanceAs (Decidable (_ ∧ _))

def overlaps (a b : Address) : Bool :=
  a == b || a == csrFcsr && (b == csrFflags || b == csrFrm) || b == csrFcsr && (a == csrFflags || a == csrFrm)

def isCounter (a : Address) : Bool := a == csrCycle || a == csrTime || a == csrInstret

section Fields
variable (w : BitVec 32)

theorem lowBits (n : Nat) : (w.extractLsb' 0 n).setWidth 32 = w &&& BitVec.ofNat 32 (2 ^ n - 1) := by
  apply BitVec.eq_of_getLsbD_eq
  intro k bound
  rw [BitVec.getLsbD_and,BitVec.getLsbD_setWidth,BitVec.getLsbD_extractLsb',BitVec.getLsbD_ofNat,
    Nat.testBit_two_pow_sub_one]
  simp [bound,Bool.and_comm]

theorem mtvecMasked : sanitizeMtvec w = w &&& ~~~3 := by
  apply BitVec.eq_of_getLsbD_eq
  intro k bound
  have low : (3 : BitVec 32).getLsbD k = decide (k < 2) := by
    rw [show (3 : BitVec 32) = BitVec.ofNat 32 (2 ^ 2 - 1) from rfl,BitVec.getLsbD_ofNat,Nat.testBit_two_pow_sub_one]
    simp [bound]
  rw [sanitizeMtvec,BitVec.getLsbD_append,BitVec.getLsbD_and,BitVec.getLsbD_not,low,BitVec.getLsbD_extractLsb']
  by_cases below : k < 2
  · simp [below]
  · have upper : k - 2 < 30 := by omega
    simp [below,bound,upper,show 2 + (k - 2) = k by omega]

theorem frmWritten (high : BitVec 24) (rm : BitVec 3) (flags : BitVec 5) : (high ++ rm ++ flags).extractLsb' 5 3 = rm := by
  apply BitVec.eq_of_getLsbD_eq
  intro k bound
  have above : ¬ 5 + k < 5 := by omega
  rw [BitVec.getLsbD_extractLsb',BitVec.getLsbD_append,BitVec.getLsbD_append,if_neg above,
    if_pos (show 5 + k - 5 < 3 by omega),show 5 + k - 5 = k by omega]
  simp [bound]

theorem upperOf (high : BitVec 24) (rm : BitVec 3) (flags : BitVec 5) : (high ++ rm ++ flags).extractLsb' 8 24 = high := by
  apply BitVec.eq_of_getLsbD_eq
  intro k bound
  rw [BitVec.getLsbD_extractLsb',BitVec.getLsbD_append,BitVec.getLsbD_append,if_neg (show ¬ 8 + k < 5 by omega),
    if_neg (show ¬ 8 + k - 5 < 3 by omega),show 8 + k - 5 - 3 = k by omega]
  simp [bound]

theorem fcsrWritten (field : BitVec 8) : (field.setWidth 32).extractLsb' 0 8 = field := by
  apply BitVec.eq_of_getLsbD_eq
  intro k bound
  simp [bound,show k < 32 by omega]

theorem upperKept (high : BitVec 27) (flags : BitVec 5) : (high ++ flags).extractLsb' 5 3 = high.extractLsb' 0 3 := by
  apply BitVec.eq_of_getLsbD_eq
  intro k bound
  rw [BitVec.getLsbD_extractLsb',BitVec.getLsbD_append,if_neg (show ¬ 5 + k < 5 by omega),BitVec.getLsbD_extractLsb',
    show 5 + k - 5 = k by omega,Nat.zero_add]

theorem partOfPart (w : BitVec 32) : (w.extractLsb' 5 27).extractLsb' 0 3 = w.extractLsb' 5 3 := by
  apply BitVec.eq_of_getLsbD_eq
  intro k bound
  simp [bound,show k < 27 by omega]

theorem reservedKept (flags : BitVec 5) (zero : w.extractLsb' 8 24 = 0) : (w.extractLsb' 5 27 ++ flags).extractLsb' 8 24 = 0 := by
  rw [← zero]
  apply BitVec.eq_of_getLsbD_eq
  intro k bound
  rw [BitVec.getLsbD_extractLsb',BitVec.getLsbD_extractLsb',BitVec.getLsbD_append,if_neg (show ¬ 8 + k < 5 by omega),
    BitVec.getLsbD_extractLsb']
  simp [show 8 + k - 5 < 27 by omega,show 5 + (8 + k - 5) = 8 + k by omega]

theorem reservedCleared (field : BitVec 8) : (field.setWidth 32).extractLsb' 8 24 = 0 := by
  apply BitVec.eq_of_getLsbD_eq
  intro k bound
  simp

theorem andSelf (mask : BitVec 32) : w &&& mask &&& mask = w &&& mask := by rw [BitVec.and_assoc,BitVec.and_self]

end Fields

namespace Regs

/- What a read of a CSR returns, with no interrupt pending. -/
def value (s : Regs) (enableM enableF : Bool) (a : Address) : BitVec 32 :=
  s.rdataNext enableM enableF ⟨false,false,0,0,a,0,false,0,0,0,false,false,false,false,0,false⟩

variable {s : Regs} {enableM enableF : Bool} {i : Inputs}

theorem rdataValue (s : Regs) (other : i.csrAddr ≠ csrMip) :
    s.rdataNext enableM enableF i = s.value enableM enableF i.csrAddr := by
  simp [value,rdataNext,other]

theorem valueUncounted (s : Regs) {a : Address} (other : isCounter a = false) :
    s.uncounted.value enableM enableF a = s.value enableM enableF a := by
  simp only [isCounter,Bool.or_eq_false_iff,beq_eq_false_iff_ne,ne_eq] at other
  simp [value,rdataNext,uncounted,other]

theorem writableOther {a : Address} (writable : isSoftwareWritable a = true) : a ≠ csrMip ∧ isCounter a = false := by
  simp only [isSoftwareWritable,decide_eq_true_eq,List.mem_cons,List.not_mem_nil,or_false] at writable
  rcases writable with h | h | h | h | h | h | h | h | h | h | h | h <;> rw [h] <;> decide

theorem writtenValue (enableM enableF : Bool) (writable : isSoftwareWritable i.csrAddr = true) :
    (s.written enableF i).value enableM enableF i.csrAddr = s.wdata i &&& legalMask enableF i.csrAddr := by
  simp only [written]
  generalize s.wdata i = w
  simp only [isSoftwareWritable,decide_eq_true_eq,List.mem_cons,List.not_mem_nil,or_false] at writable
  rcases writable with h | h | h | h | h | h | h | h | h | h | h | h <;> rw [h]
  case inl =>
    cases enableF
    · simp [value,rdataNext,legalMask]
    · simp only [value,rdataNext,legalMask,if_true]
      rw [BitVec.extractLsb'_append_eq_right]
      exact lowBits w 5
  case inr.inl =>
    cases enableF
    · simp [value,rdataNext,legalMask,csrFrm,csrFflags]
    · simp only [value,rdataNext,legalMask,show csrFrm ≠ csrFflags by decide,if_true,if_false]
      rw [frmWritten]
      exact lowBits w 3
  case inr.inr.inl =>
    cases enableF
    · simp [value,rdataNext,legalMask,csrFcsr,csrFrm,csrFflags]
    · simp only [value,rdataNext,legalMask,show csrFcsr ≠ csrFflags by decide,show csrFcsr ≠ csrFrm by decide,if_true,if_false]
      rw [fcsrWritten]
      exact lowBits w 8
  all_goals
    have whole : w &&& 4294967295#32 = w := BitVec.and_allOnes
    simp [value,rdataNext,legalMask,csrFflags,csrFrm,csrFcsr,csrMstatus,csrMisa,csrMedeleg,csrMideleg,csrMie,csrMtvec,
      csrMscratch,csrMepc,csrMcause,csrMtval,sanitizeMie,sanitizeMepc,mtvecMasked,machineInterruptMask,whole]

theorem writtenOther {b : Address} (writable : isSoftwareWritable i.csrAddr = true) (apart : overlaps i.csrAddr b = false) :
    (s.written enableF i).value enableM enableF b = s.value enableM enableF b := by
  simp only [written]
  generalize s.wdata i = w
  simp only [isSoftwareWritable,decide_eq_true_eq,List.mem_cons,List.not_mem_nil,or_false] at writable
  rcases writable with h | h | h | h | h | h | h | h | h | h | h | h <;> rw [h] at apart ⊢
  case inl =>
    have others : b ≠ csrFflags ∧ b ≠ csrFcsr := by refine ⟨?_,?_⟩ <;> intro same <;> rw [same] at apart <;> contradiction
    cases enableF
    · simp [value,rdataNext,others]
    · simp only [value,rdataNext,others,if_true,if_false]
      rw [upperKept,partOfPart]
  case inr.inl =>
    have others : b ≠ csrFrm ∧ b ≠ csrFcsr := by refine ⟨?_,?_⟩ <;> intro same <;> rw [same] at apart <;> contradiction
    cases enableF
    · simp [value,rdataNext,others,show csrFrm ≠ csrFflags by decide]
    · simp only [value,rdataNext,others,show csrFrm ≠ csrFflags by decide,if_true,if_false]
      rw [BitVec.extractLsb'_append_eq_right]
  case inr.inr.inl =>
    have others : b ≠ csrFflags ∧ b ≠ csrFrm ∧ b ≠ csrFcsr := by
      refine ⟨?_,?_,?_⟩ <;> intro same <;> rw [same] at apart <;> contradiction
    simp [value,rdataNext,others,show csrFcsr ≠ csrFflags by decide,show csrFcsr ≠ csrFrm by decide]
  all_goals
    have other : b ≠ i.csrAddr := fun same => by
      rw [same,h] at apart
      contradiction
    rw [h] at other
    simp only [csrMstatus,csrMedeleg,csrMideleg,csrMie,csrMtvec,csrMscratch,csrMepc,csrMcause,csrMtval,
      BitVec.ofNat_eq_ofNat] at other
    simp [value,rdataNext,other,csrFflags,csrFrm,csrFcsr,csrMstatus,csrMisa,csrMedeleg,csrMideleg,csrMie,csrMtvec,
      csrMscratch,csrMepc,csrMcause,csrMtval]

theorem sixOperations {f : BitVec 3} (csr : f.extractLsb' 0 2 ≠ 0b00) :
    f = 0b001 ∨ f = 0b010 ∨ f = 0b011 ∨ f = 0b101 ∨ f = 0b110 ∨ f = 0b111 := by
  revert csr f
  decide

theorem writeEnWhen (csr : i.funct3.extractLsb' 0 2 ≠ 0b00) : writeEn i = true ↔ ¬ writesNothing i.funct3 i.rs1 := by
  simp only [writeEn,writesNothing]
  rcases sixOperations csr with f | f | f | f | f | f <;> rw [f] <;> simp

theorem wdataOperates (csr : i.funct3.extractLsb' 0 2 ≠ 0b00) :
    s.wdata i = operate i.funct3 s.rdata (operandOf i.funct3 i.rs1 i.rs1Data) := by
  simp only [wdata,operate,operandOf]
  rcases sixOperations csr with f | f | f | f | f | f <;> rw [f] <;> simp

theorem commanded (enableM enableF : Bool) (entry : i.trapEntry = false) (noReturn : i.trapReturn = false) (flags : i.fpFflagsWe = false)
    (csr : i.isCsr = true) (writable : isSoftwareWritable i.csrAddr = true) : (s.next enableM enableF i).uncounted =
      if writeEn i then (s.written enableF i).uncounted else s.uncounted := by
  rcases Bool.eq_false_or_eq_true (writeEn i) with writes | absent
  · simp [next,entry,noReturn,flags,csr,writable,writes,uncounted]
  · simp [next,entry,noReturn,flags,absent,uncounted]

theorem fcsrParts (s : Regs) : s.value enableM enableF csrFcsr =
    s.value enableM enableF csrFrm <<< 5 ||| s.value enableM enableF csrFflags := by
  cases enableF
  · simp [value,rdataNext,csrFcsr,csrFrm,csrFflags]
  · apply BitVec.eq_of_getLsbD_eq
    intro k bound
    simp only [value,rdataNext,if_true,show csrFcsr ≠ csrFflags by decide,show csrFcsr ≠ csrFrm by decide,
      show csrFrm ≠ csrFflags by decide,if_false]
    by_cases below : k < 5
    · simp [below,bound,show k < 8 by omega]
    · simp [below,bound,show 5 + (k - 5) = k by omega,show k - 5 < 3 ↔ k < 8 by omega]

/- The CSRs have only bits that they can have. -/
structure Legal (enableF : Bool) (s : Regs) : Prop where
  mie : s.mie &&& 0x888 = s.mie
  mtvec : s.mtvec &&& ~~~3 = s.mtvec
  mepc : s.mepc &&& ~~~1 = s.mepc
  fcsr : s.fcsr.extractLsb' 8 24 = 0
  off : enableF = false → s.fcsr = 0

theorem legalIf {p : Prop} [Decidable p] {a b : Regs} (yes : p → Legal enableF a) (no : Legal enableF b) :
    Legal enableF (if p then a else b) := by
  split
  · exact yes (by assumption)
  · exact no

theorem resetLegal : Legal enableF reset := ⟨rfl,rfl,rfl,rfl,fun _ => rfl⟩

theorem writtenLegal (h : Legal enableF s) : Legal enableF (s.written enableF i) := by
  obtain ⟨mie,mtvec,mepc,fcsr,off⟩ := h
  simp only [written]
  generalize s.wdata i = w
  refine legalIf (fun _ => ?_) (legalIf (fun _ => ?_) (legalIf (fun _ => ?_) ?_))
  · cases enableF
    · exact ⟨mie,mtvec,mepc,fcsr,off⟩
    · exact ⟨mie,mtvec,mepc,reservedKept _ _ fcsr,by simp⟩
  · cases enableF
    · exact ⟨mie,mtvec,mepc,fcsr,off⟩
    · exact ⟨mie,mtvec,mepc,(upperOf _ _ _).trans fcsr,by simp⟩
  · cases enableF
    · exact ⟨mie,mtvec,mepc,fcsr,off⟩
    · exact ⟨mie,mtvec,mepc,reservedCleared _,by simp⟩
  · repeat' refine legalIf (fun _ => ?_) ?_
    all_goals first
      | exact ⟨mie,mtvec,mepc,fcsr,off⟩
      | exact ⟨andSelf _ _,mtvec,mepc,fcsr,off⟩
      | exact ⟨mie,(mtvecMasked w).symm ▸ andSelf _ _,mepc,fcsr,off⟩
      | exact ⟨mie,mtvec,andSelf _ _,fcsr,off⟩

theorem Legal.next (h : Legal enableF s) : Legal enableF (s.next enableM enableF i) := by
  have written := @writtenLegal s enableF i h
  obtain ⟨mie,mtvec,mepc,fcsr,off⟩ := h
  refine legalIf (fun _ => ⟨mie,mtvec,andSelf _ _,fcsr,off⟩) (legalIf (fun _ => ⟨mie,mtvec,mepc,fcsr,off⟩)
    (legalIf (fun accrues => ?_) (legalIf (fun _ => ?_) ⟨mie,mtvec,mepc,fcsr,off⟩)))
  · simp only [Bool.and_eq_true] at accrues
    exact ⟨mie,mtvec,mepc,reservedKept _ _ fcsr,fun absent => by simp [absent] at accrues⟩
  · exact ⟨written.mie,written.mtvec,written.mepc,written.fcsr,written.off⟩

end Regs
end RiscvSoc.CsrFile

namespace RiscvSoc.Decoder

def isCsrInstruction (instruction : BitVec 32) : Bool :=
  opcode instruction == opSystem && (funct3 instruction).extractLsb' 0 2 != 0b00

theorem csrControl {w : BitVec 32} (enableM enableF : Bool) (csr : isCsrInstruction w = true) :
    control w enableM enableF = {Control.defaults with isCsr := true, regWrite := true} := by
  simp only [isCsrInstruction,Bool.and_eq_true,beq_iff_eq,bne_iff_ne] at csr
  have other : funct3 w ≠ 0b000 := fun same => by simp [same] at csr
  rw [controlSystem enableM enableF csr.1,system,if_neg other]

end RiscvSoc.Decoder

namespace RiscvSoc.Core
open Mealy Machine

structure Readable (cfg : Config) (s : Regs) : Prop extends Supplied cfg s where
  legal : s.csr.Legal cfg.enableF

variable {cfg : Config} {s t : Regs} {i : Inputs}

theorem resetReadable (s : Regs) : Readable cfg (reset s) := ⟨resetSupplied s,CsrFile.Regs.resetLegal⟩

theorem readableNext (h : Readable cfg s) (i : Inputs) : Readable cfg (s.next cfg i) :=
  ⟨suppliedNext h.toSupplied i,h.legal.next⟩

theorem resultNext (cfg : Config) (s : Regs) (i : Inputs) : (s.next cfg i).csrRdataReg =
    if s.currentState = .regRead ∧ s.dec.isCsr then s.csr.rdata else s.csrRdataReg := rfl

section Instruction
variable (csr : Decoder.isCsrInstruction s.irReg = true) (writable : CsrFile.isSoftwareWritable (CsrFile.addressOf s.irReg) = true)

theorem portAfter (decoded : t.currentState.decoded = true) (reached : Reached cfg t) (kept : Kept s t)
    (writable : CsrFile.isSoftwareWritable (CsrFile.addressOf s.irReg) = true) :
    (t.next cfg i).csr.rdata = s.csr.value cfg.enableM cfg.enableF (CsrFile.addressOf s.irReg) := by
  obtain ⟨notMip,notCounter⟩ := CsrFile.Regs.writableOther writable
  have address : (t.csrInputs i).csrAddr = CsrFile.addressOf s.irReg := by
    rw [Regs.csrInputs,reached.decoded decoded,kept.ir]
    rfl
  rw [csrNext,CsrFile.Regs.rdataAfter,CsrFile.Regs.rdataValue _ (by rw [address]; exact notMip),address,
    ← CsrFile.Regs.valueUncounted _ notCounter,kept.csr,CsrFile.Regs.valueUncounted _ notCounter]

structure Operating (cfg : Config) (s t : Regs) : Prop extends Dispatched cfg s t where
  csrState : t.currentState = .csr
  port : t.csr.rdata = s.csr.value cfg.enableM cfg.enableF (CsrFile.addressOf s.irReg)
  result : t.csrRdataReg = s.csr.value cfg.enableM cfg.enableF (CsrFile.addressOf s.irReg)
  legal : t.csr.Legal cfg.enableF

include csr writable in
theorem operatesAfter (h : Readable cfg s) (state : s.currentState = .decode) (latched : s.isInstructionValidReg = true)
    (i j k l : Inputs) : Operating cfg s ((((s.next cfg i).next cfg j).next cfg k).next cfg l) := by
  have control := Decoder.csrControl cfg.enableM cfg.enableF csr
  have proceeds : Proceeds (Decoder.control s.irReg cfg.enableM cfg.enableF) := by
    rw [control]
    exact ⟨rfl,rfl,rfl,rfl⟩
  have first := (preparedFirst h.toSupplied state latched).decodes i
  have second := first.waits proceeds j
  have third := second.reads k
  have last := third.dispatches proceeds l
  have port₂ := portAfter (i := j) (by rw [first.state]; rfl) first.toReached first.toKept writable
  have port₄ := portAfter (i := l) (by rw [third.state]; rfl) third.toReached third.toKept writable
  have isCsr : ((s.next cfg i).next cfg j).dec.isCsr = true := by
    rw [second.dec rfl,Decoder.decode,control]
  have csrState : ((((s.next cfg i).next cfg j).next cfg k).next cfg l).currentState = .csr := by
    simp only [Decoder.isCsrInstruction,Bool.and_eq_true,beq_iff_eq] at csr
    rw [last.state,Regs.dispatch,last.dec,Decoder.decode,control,csr.1]
    rfl
  refine ⟨last,csrState,port₄,?_,(readableNext (readableNext (readableNext (readableNext h i) j) k) l).legal⟩
  have read : ((s.next cfg i).next cfg j |>.next cfg k).currentState ≠ .regRead := by
    rw [third.state]
    decide
  rw [resultNext,if_neg fun now => read now.1,resultNext,if_pos ⟨second.state,isCsr⟩]
  exact port₂

/- What a CSR instruction does between its decoding in `s` and the next fetch in `t`. -/
structure ReadModifyWrite (cfg : Config) (s t : Regs) : Prop where
  fetches : t.currentState = .fetch
  returned : ∀ r, operand t.bankA r = (if r = Decoder.rd s.irReg ∧ r ≠ 0 then
      s.csr.value cfg.enableM cfg.enableF (CsrFile.addressOf s.irReg) else operand s.bankA r) ∧
    operand t.bankB r = if r = Decoder.rd s.irReg ∧ r ≠ 0 then
      s.csr.value cfg.enableM cfg.enableF (CsrFile.addressOf s.irReg) else operand s.bankB r
  left : ¬ CsrFile.writesNothing (Decoder.funct3 s.irReg) (Decoder.rs1 s.irReg) →
    t.csr.value cfg.enableM cfg.enableF (CsrFile.addressOf s.irReg) =
      CsrFile.operate (Decoder.funct3 s.irReg) (s.csr.value cfg.enableM cfg.enableF (CsrFile.addressOf s.irReg))
        (CsrFile.operandOf (Decoder.funct3 s.irReg) (Decoder.rs1 s.irReg) (operand s.bankA (Decoder.rs1 s.irReg))) &&&
      CsrFile.legalMask cfg.enableF (CsrFile.addressOf s.irReg)
  kept : CsrFile.writesNothing (Decoder.funct3 s.irReg) (Decoder.rs1 s.irReg) → t.csr.uncounted = s.csr.uncounted
  others : ∀ b, CsrFile.isCounter b = false → CsrFile.overlaps (CsrFile.addressOf s.irReg) b = false →
    t.csr.value cfg.enableM cfg.enableF b = s.csr.value cfg.enableM cfg.enableF b
  parts : t.csr.value cfg.enableM cfg.enableF CsrFile.csrFcsr =
    t.csr.value cfg.enableM cfg.enableF CsrFile.csrFrm <<< 5 ||| t.csr.value cfg.enableM cfg.enableF CsrFile.csrFflags
  legal : t.csr.Legal cfg.enableF

theorem Operating.writesCsr (o : Operating cfg s t) (i : Inputs) :
    (t.next cfg i).currentState = .writeback ∧ (t.next cfg i).dec = t.dec ∧
    ((t.next cfg i).bankA.mem = t.bankA.mem ∧ (t.next cfg i).bankB.mem = t.bankB.mem) ∧
    (t.next cfg i).csrRdataReg = t.csrRdataReg ∧ (t.next cfg i).rdIsX0 = t.rdIsX0 ∧
    (t.next cfg i).csr = t.csr.next cfg.enableM cfg.enableF (t.csrInputs i) := by
  have other : t.currentState ≠ .decodeWait := by simp [o.csrState]
  refine ⟨by simp [Regs.nextState,o.csrState],decKept (by simp [o.csrState]),banksKept cfg i (regWeIn (by simp [o.csrState])),
    ?_,?_,rfl⟩
  · rw [resultNext,if_neg (by simp [o.csrState])]
  · simp [Regs.next,other]

theorem Operating.given (o : Operating cfg s t) (i : Inputs)
    (control : Decoder.control s.irReg cfg.enableM cfg.enableF = {Decoder.Control.defaults with isCsr := true, regWrite := true}) :
    (t.csrInputs i).trapEntry = false ∧ (t.csrInputs i).trapReturn = false ∧ (t.csrInputs i).fpFflagsWe = false ∧
    (t.csrInputs i).isCsr = true ∧ (t.csrInputs i).funct3 = Decoder.funct3 s.irReg ∧
    (t.csrInputs i).rs1 = Decoder.rs1 s.irReg ∧ (t.csrInputs i).csrAddr = CsrFile.addressOf s.irReg ∧
    (t.csrInputs i).rs1Data = operand s.bankA (Decoder.rs1 s.irReg) := by
  have dec := o.dec
  have a : t.aReg = operand s.bankA (Decoder.rs1 s.irReg) := by
    rw [(o.operands (by rw [o.csrState]; rfl)).1,operand,operand,o.bankA,dec]
    rfl
  simp only [Regs.csrInputs,Regs.csrTrapEntry,Regs.csrTrapReturn,o.csrState,dec,a,Decoder.decode,control]
  exact ⟨trivial,rfl,rfl,rfl,trivial,trivial,rfl,trivial⟩

include csr writable in
theorem readsModifiesWrites (h : Readable cfg s) (state : s.currentState = .decode) (latched : s.isInstructionValidReg = true)
    (i j k l m n : Inputs) : ReadModifyWrite cfg s ((machine cfg).final s [i,j,k,l,m,n]) := by
  have control := Decoder.csrControl cfg.enableM cfg.enableF csr
  have system : Decoder.opcode s.irReg = Decoder.opSystem ∧ (Decoder.funct3 s.irReg).extractLsb' 0 2 ≠ 0b00 := by
    simpa [Decoder.isCsrInstruction] using csr
  have counterless := (CsrFile.Regs.writableOther writable).2
  have o := operatesAfter csr writable h state latched i j k l
  have readable := readableNext (readableNext (readableNext (readableNext (readableNext (readableNext h i) j) k) l) m) n
  rw [show (machine cfg).final s [i,j,k,l,m,n] =
    (((((s.next cfg i).next cfg j).next cfg k).next cfg l).next cfg m).next cfg n from rfl]
  generalize (((s.next cfg i).next cfg j).next cfg k).next cfg l = t at o readable ⊢
  obtain ⟨state₅,dec₅,banks₅,result₅,_,csr₅⟩ := o.writesCsr m
  obtain ⟨entry,returns,flags,isCsr,funct3,rs1,address,source⟩ := o.given m control
  have supplied := suppliedNext o.toSupplied m
  have dec := dec₅.trans o.dec
  have command := CsrFile.Regs.commanded cfg.enableM cfg.enableF (s := t.csr) entry returns flags
    isCsr (by rw [address]; exact writable)
  rw [← csr₅] at command
  clear csr₅
  generalize t.next cfg m = v at *
  have plain : v.fpResult = false := by
    rw [Regs.fpResult,dec,Decoder.decode,control]
    rfl
  have written := (csrsKept cfg n (by simp [Regs.csrTrapEntry,state₅]) (by simp [Regs.csrTrapReturn,state₅])
    (by simp [Regs.csrInputs,plain]) (by simp [Regs.csrInputs,state₅])).trans command
  have writeEn := CsrFile.Regs.writeEnWhen (i := t.csrInputs m) (by rw [funct3]; exact system.2)
  have wdata := CsrFile.Regs.wdataOperates (s := t.csr) (i := t.csrInputs m) (by rw [funct3]; exact system.2)
  rw [funct3,rs1] at writeEn wdata
  have before {b : CsrFile.Address} (counterless : CsrFile.isCounter b = false) :
      t.csr.value cfg.enableM cfg.enableF b = s.csr.value cfg.enableM cfg.enableF b := by
    rw [← CsrFile.Regs.valueUncounted _ counterless,o.csr,CsrFile.Regs.valueUncounted _ counterless]
  refine ⟨by simp [Regs.nextState,state₅],fun r => ?_,fun writes => ?_,fun absent => ?_,fun b counterless apart => ?_,
    CsrFile.Regs.fcsrParts _,readable.legal⟩
  · obtain ⟨writtenA,writtenB⟩ := writtenBack cfg n state₅ (supplied.flags (by rw [state₅]; rfl)).1 r
    have data : v.rdData = s.csr.value cfg.enableM cfg.enableF (CsrFile.addressOf s.irReg) := by
      rw [← o.result,← result₅,Regs.rdData,dec,Decoder.decode,control,system.1]
      rfl
    have fields : v.dec.regWrite = true ∧ v.dec.rd = Decoder.rd s.irReg := by
      rw [dec,Decoder.decode,control]
      exact ⟨rfl,rfl⟩
    rw [writtenA,writtenB,data,fields.1,fields.2,operand,operand,operand,operand,banks₅.1,banks₅.2,o.bankA,o.bankB]
    simp only [true_and,and_comm (a := r ≠ 0),and_self]
  · have en := writeEn.mpr writes
    rw [if_pos en] at written
    rw [← CsrFile.Regs.valueUncounted _ counterless,written,CsrFile.Regs.valueUncounted _ counterless]
    have value := CsrFile.Regs.writtenValue cfg.enableM cfg.enableF (s := t.csr) (i := t.csrInputs m) (by rw [address]; exact writable)
    rw [address] at value
    rw [value,wdata,o.port,source]
  · rw [written,if_neg fun en => writeEn.mp en absent]
    exact o.csr
  · rw [← CsrFile.Regs.valueUncounted _ counterless,written]
    split
    · rw [CsrFile.Regs.valueUncounted _ counterless,
        CsrFile.Regs.writtenOther (by rw [address]; exact writable) (by rw [address]; exact apart)]
      exact before counterless
    · rw [CsrFile.Regs.valueUncounted _ counterless]
      exact before counterless

end Instruction

/- In every run from reset a CSR instruction reads, modifies and writes its CSR, whatever the
interrupt lines and the bus do meanwhile. -/
theorem csrInstructions (cfg : Config) (s₀ : Regs) (before : List Inputs) (i j k l m n : Inputs)
    (state : ((machine cfg).final (reset s₀) before).currentState = .decode)
    (latched : ((machine cfg).final (reset s₀) before).isInstructionValidReg = true)
    (csr : Decoder.isCsrInstruction ((machine cfg).final (reset s₀) before).irReg = true)
    (writable : CsrFile.isSoftwareWritable (CsrFile.addressOf ((machine cfg).final (reset s₀) before).irReg) = true) :
    ReadModifyWrite cfg ((machine cfg).final (reset s₀) before)
      ((machine cfg).final ((machine cfg).final (reset s₀) before) [i,j,k,l,m,n]) := by
  have readable : Readable cfg ((machine cfg).final (reset s₀) before) :=
    @Machine.invariant Regs Inputs Outputs (machine cfg) (Readable cfg) (fun _ i h => readableNext h i) _ (resetReadable s₀) before
  exact readsModifiesWrites csr writable readable state latched i j k l m n

/- `csrrw` of mepc. -/
theorem mepcWritten :
    let s := (machine ⟨true,true⟩).final based (drive ⟨true,true⟩ (program [0x341091F3]) 4 based)
    let i := respond (program [0x341091F3]) s
    ReadModifyWrite ⟨true,true⟩ s ((machine ⟨true,true⟩).final s [i,i,i,i,i,i]) :=
  csrInstructions ⟨true,true⟩ { (default : Regs) with bankA := ⟨fun _ => 0x2000,0,0⟩ } _ _ _ _ _ _ _ (by decide +kernel)
    (by decide +kernel) (by decide +kernel) (by decide +kernel)

/- `csrrwi` of fcsr without the F extension: nothing is written. -/
theorem fcsrIgnored :
    let s := (machine ⟨true,false⟩).final based (drive ⟨true,false⟩ (program [0x003FD1F3]) 4 based)
    let i := respond (program [0x003FD1F3]) s
    let t := (machine ⟨true,false⟩).final s [i,i,i,i,i,i]
    s.currentState = .decode ∧ s.isInstructionValidReg = true ∧ Decoder.isCsrInstruction s.irReg = true ∧
      CsrFile.addressOf s.irReg = CsrFile.csrFcsr ∧ CsrFile.isSoftwareWritable CsrFile.csrFcsr = true ∧
      ¬ CsrFile.writesNothing (Decoder.funct3 s.irReg) (Decoder.rs1 s.irReg) ∧
      CsrFile.operate (Decoder.funct3 s.irReg) (s.csr.value true false CsrFile.csrFcsr)
        (CsrFile.operandOf (Decoder.funct3 s.irReg) (Decoder.rs1 s.irReg) 0) &&& 0xFF = 31 ∧
      t.currentState = .fetch ∧ t.csr.value true false CsrFile.csrFcsr = 0 := by
  decide +kernel

end RiscvSoc.Core
