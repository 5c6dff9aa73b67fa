import Mathlib.Tactic.IntervalCases
import RiscvSoc.Isa.BaseDecoding
import RiscvSoc.Isa.Trace
import RiscvSoc.Rtl.Cpu.Core

/-! The names in the trace against what the CPU does: the decoder's control signals, and what the branch unit, the loads, the
stores and the CSR file make of `funct3`. -/
namespace RiscvSoc.Trace
open Instruction (Word)
open Decoder (Control)

inductive CsrUpdate where
  | write | set | clear
  deriving DecidableEq, Repr

def CsrUpdate.result (old operand : Word) : CsrUpdate → Word
  | .write => operand
  | .set => old ||| operand
  | .clear => old &&& ~~~operand

/- The low bits of `funct3`, of which the other one tells an immediate. -/
def CsrUpdate.code : CsrUpdate → BitVec 2
  | .write => 0b01
  | .set => 0b10
  | .clear => 0b11

/- What a name stands for. A CSR form has its operand in `rs1`, as an immediate or in the register. -/
structure Meaning where
  control : Control
  comparison : Option Isa.Comparison := none
  load : Option Isa.Load := none
  store : Option Isa.Width := none
  csr : Option (CsrUpdate × Bool) := none
  deriving DecidableEq, Repr

def ofRegister (op : BitVec 5) : Meaning := {control := {Control.defaults with regWrite := true, aluOp := op}}
def ofImmediate (op : BitVec 5) : Meaning := {control := {Control.defaults with aluSrc := true, regWrite := true, aluOp := op}}
def ofLoad (kind : Isa.Load) : Meaning where
  control := {Control.defaults with aluSrc := true, memRead := true, regWrite := true, memToReg := true}
  load := some kind
def ofStore (width : Isa.Width) : Meaning where
  control := {Control.defaults with aluSrc := true, memWrite := true}
  store := some width
def ofBranch (c : Isa.Comparison) : Meaning where
  control := {Control.defaults with aluOp := Decoder.aluSub, branch := true}
  comparison := some c
def ofCsr (update : CsrUpdate) (immediate : Bool) : Meaning where
  control := {Control.defaults with isCsr := true, regWrite := true}
  csr := some (update,immediate)

def meaning : InstructionType → Option Meaning
  | .add => some (ofRegister Decoder.aluAdd)
  | .sub => some (ofRegister Decoder.aluSub)
  | .sll => some (ofRegister Decoder.aluSll)
  | .slt => some (ofRegister Decoder.aluSlt)
  | .sltu => some (ofRegister Decoder.aluSltu)
  | .xor => some (ofRegister Decoder.aluXor)
  | .srl => some (ofRegister Decoder.aluSrl)
  | .sra => some (ofRegister Decoder.aluSra)
  | .or => some (ofRegister Decoder.aluOr)
  | .and => some (ofRegister Decoder.aluAnd)
  | .addi => some (ofImmediate Decoder.aluAdd)
  | .slti => some (ofImmediate Decoder.aluSlt)
  | .sltiu => some (ofImmediate Decoder.aluSltu)
  | .xori => some (ofImmediate Decoder.aluXor)
  | .ori => some (ofImmediate Decoder.aluOr)
  | .andi => some (ofImmediate Decoder.aluAnd)
  | .slli => some (ofImmediate Decoder.aluSll)
  | .srli => some (ofImmediate Decoder.aluSrl)
  | .srai => some (ofImmediate Decoder.aluSra)
  | .lw => some (ofLoad .lw)
  | .lh => some (ofLoad .lh)
  | .lb => some (ofLoad .lb)
  | .lhu => some (ofLoad .lhu)
  | .lbu => some (ofLoad .lbu)
  | .sw => some (ofStore .word)
  | .sh => some (ofStore .half)
  | .sb => some (ofStore .byte)
  | .beq => some (ofBranch .beq)
  | .bne => some (ofBranch .bne)
  | .blt => some (ofBranch .blt)
  | .bge => some (ofBranch .bge)
  | .bltu => some (ofBranch .bltu)
  | .bgeu => some (ofBranch .bgeu)
  | .lui => some {control := {Control.defaults with aluSrc := true, regWrite := true}}
  | .auipc => some {control := {Control.defaults with aluSrc := true, regWrite := true, isAuipc := true}}
  | .jal => some {control := {Control.defaults with jump := true, regWrite := true}}
  | .jalr => some {control := {Control.defaults with jump := true, aluSrc := true, regWrite := true}}
  | .ecall => some {control := {Control.defaults with isEcall := true}}
  | .ebreak => some {control := {Control.defaults with isEbreak := true}}
  | .fence => some {control := {Control.defaults with isFence := true}}
  | .csrrw => some (ofCsr .write false)
  | .csrrs => some (ofCsr .set false)
  | .csrrc => some (ofCsr .clear false)
  | .csrrwi => some (ofCsr .write true)
  | .csrrsi => some (ofCsr .set true)
  | .csrrci => some (ofCsr .clear true)
  | .mul => some (ofRegister Decoder.aluMul)
  | .mulh => some (ofRegister (Decoder.aluMul + 1))
  | .mulhsu => some (ofRegister (Decoder.aluMul + 2))
  | .mulhu => some (ofRegister (Decoder.aluMul + 3))
  | .div => some (ofRegister (Decoder.aluMul + 4))
  | .divu => some (ofRegister (Decoder.aluMul + 5))
  | .rem => some (ofRegister (Decoder.aluMul + 6))
  | .remu => some (ofRegister (Decoder.aluMul + 7))
  | .unknown => none

/- The CPU does it, in whatever state it holds these outputs of the decoder. -/
structure Does (r : Decoder.Regs) (m : Meaning) : Prop where
  control : r.toControl = m.control
  branches : ∀ c ∈ m.comparison, ∀ s : Core.Regs, s.dec = r → s.takeBranchNext = c.holds s.aReg s.bReg
  loads : ∀ kind ∈ m.load, r.funct3.extractLsb' 0 2 = kind.width.size ∧
    ∀ (s : Core.Regs) i, s.dec = r → s.formattedLoadData i = kind.extend i.memDRdata
  stores : ∀ width ∈ m.store, r.funct3.extractLsb' 0 2 = width.size
  csrs : ∀ form ∈ m.csr, ∀ (s : Core.Regs) i, s.dec = r →
    s.csr.wdata (s.csrInputs i) = form.1.result s.csr.rdata (if form.2 then r.rs1.setWidth 32 else s.aReg) ∧
    CsrFile.Regs.writeEn (s.csrInputs i) = (form.1 == .write || r.rs1 != 0)

/- The instruction changes nothing, or is illegal. -/
structure Inert (r : Decoder.Regs) : Prop where
  control : r.toControl =
    {Control.defaults with branch := r.branch, aluOp := r.aluOp, instructionValid := r.instructionValid}
  branches : ∀ s : Core.Regs, s.dec = r → s.takeBranchNext = false

/- The unknown is what does nothing. -/
def Names (r : Decoder.Regs) (t : InstructionType) : Prop := match meaning t with
  | some m => Does r m
  | none => Inert r

/- The atomics by `funct5` and the floating-point operations by `funct7`. -/
def atomics : List (BitVec 5) :=
  [0b00000,0b00001,0b00010,0b00011,0b00100,0b01000,0b01100,0b10000,0b10100,0b11000,0b11100]
def floats : List (BitVec 7) := [0b0000000,0b0000100,0b0001000,0b0001100,0b0010000,0b0010100,0b0101100,0b1010000,0b1100000,
  0b1101000,0b1110000,0b1111000]

/- The words with another name than what the CPU does: right shifts that are neither SRLI nor SRAI by their `funct7`, the
multiplications and divisions without M, and MRET, WFI and the illegal words of SYSTEM; and those that are unknown to the trace
and not to the CPU, which looks at less of `funct7` and `funct3`, and has the atomics and F. -/
def Misnamed (enableM enableF : Bool) (w : Word) : Prop :=
  let op := Decoder.opcode w
  let f3 := Decoder.funct3 w
  let f7 := Decoder.funct7 w
  if op = Decoder.opImm then f3 = 0b101 ∧ f7 ≠ 0 ∧ f7.getLsbD 5 = false
  else if op = Decoder.opReg then
    f7 = 0b0000001 ∧ enableM = false ∨ f7 ≠ 0b0000001 ∧ f7 ≠ 0 ∧ ¬ (f7 = 0b0100000 ∧ (f3 = 0b000 ∨ f3 = 0b101))
  else if op = Decoder.opLoad then f3 ∈ [0b011,0b110,0b111]
  else if op = Decoder.opStore then f3 ∉ [0b000,0b001,0b010]
  else if op = Decoder.opSystem then f3 = 0b100 ∨ f3 = 0b000 ∧ w ≠ Instruction.ecall ∧ w ≠ Instruction.ebreak
  else if op = Decoder.opAmo then Decoder.funct5 w ∈ atomics
  else if op = Decoder.opFp then enableF = true ∧ f7 ∈ floats
  else enableF = true ∧ op ∈ [Decoder.opLoadFp,Decoder.opStoreFp,Decoder.opFmadd,Decoder.opFmsub,Decoder.opFnmsub,
    Decoder.opFnmadd]

section Units
variable {r : Decoder.Regs}

theorem doesPlain {c : Control} : Does r {control := c} ↔ r.toControl = c :=
  ⟨Does.control,fun control => ⟨control,nofun,nofun,nofun,nofun⟩⟩

theorem doesLoad (kind : Isa.Load) (control : r.toControl = (ofLoad kind).control) (f3 : r.funct3 = kind.funct3) :
    Does r (ofLoad kind) where
  control := control
  branches := nofun
  loads := by
    rintro _ ⟨⟩
    refine ⟨by rw [f3]; cases kind <;> rfl,fun s i dec => ?_⟩
    rw [Core.Regs.formattedLoadData,dec,f3]
    cases kind <;> rfl
  stores := nofun
  csrs := nofun

theorem doesStore (width : Isa.Width) (control : r.toControl = (ofStore width).control)
    (f3 : r.funct3.extractLsb' 0 2 = width.size) : Does r (ofStore width) where
  control := control
  branches := nofun
  loads := nofun
  stores := by
    rintro _ ⟨⟩
    exact f3
  csrs := nofun

theorem doesBranch (c : Isa.Comparison) (control : r.toControl = (ofBranch c).control) (f3 : r.funct3 = c.funct3) :
    Does r (ofBranch c) where
  control := control
  branches := by
    rintro _ ⟨⟩ s dec
    have branch : r.branch = true := congrArg Control.branch control
    rw [Core.Regs.takeBranchNext,dec,branch,f3]
    cases c <;> rfl
  loads := nofun
  stores := nofun
  csrs := nofun

theorem doesCsr (update : CsrUpdate) (immediate : Bool) (control : r.toControl = (ofCsr update immediate).control)
    (f3 : r.funct3 = BitVec.ofBool immediate ++ update.code) : Does r (ofCsr update immediate) where
  control := control
  branches := nofun
  loads := nofun
  stores := nofun
  csrs := by
    rintro _ ⟨⟩ s i dec
    have funct3 : (s.csrInputs i).funct3 = r.funct3 := congrArg Decoder.Regs.funct3 dec
    have rs1 : (s.csrInputs i).rs1 = r.rs1 := congrArg Decoder.Regs.rs1 dec
    have value : (s.csrInputs i).rs1Data = s.aReg := rfl
    rw [CsrFile.Regs.wdata,CsrFile.Regs.writeEn,funct3,rs1,value,f3]
    cases update <;> cases immediate <;> exact ⟨rfl,rfl⟩

theorem notInert (acts : r.regWrite = true ∨ r.memWrite = true ∨ r.memRead = true ∨ r.fpRegWrite = true) : ¬ Inert r := by
  intro inert
  have regWrite : r.regWrite = false := congrArg Control.regWrite inert.control
  have memWrite : r.memWrite = false := congrArg Control.memWrite inert.control
  have memRead : r.memRead = false := congrArg Control.memRead inert.control
  have fpRegWrite : r.fpRegWrite = false := congrArg Control.fpRegWrite inert.control
  simp [regWrite,memWrite,memRead,fpRegWrite] at acts

theorem inertOf (plain : r.toControl = {Control.defaults with instructionValid := r.instructionValid}) : Inert r := by
  have branch : r.branch = false := congrArg Control.branch plain
  have aluOp : r.aluOp = Decoder.aluAdd := congrArg Control.aluOp plain
  refine ⟨?_,fun s dec => ?_⟩
  · rw [branch,aluOp]
    exact plain
  · rw [Core.Regs.takeBranchNext,dec,branch,Bool.false_and]

end Units

theorem inertDefaults {r : Decoder.Regs} (plain : r.toControl = Control.defaults) : Inert r :=
  inertOf (by rw [congrArg Control.instructionValid plain,plain])

section Names
variable {w : Word} {enableM enableF : Bool}

theorem namesPlain {r : Decoder.Regs} {t : InstructionType} {wrong : Prop}
    (known : ∀ m ∈ meaning t, m = {control := m.control} ∧ (r.toControl = m.control ↔ ¬ wrong))
    (unknown : meaning t = none → r.regWrite = true ∧ wrong) : Names r t ↔ ¬ wrong := by
  unfold Names
  cases stands : meaning t with
  | some m =>
    obtain ⟨plain,same⟩ := known m stands
    rw [plain]
    exact doesPlain.trans same
  | none =>
    obtain ⟨acts,wrong⟩ := unknown stands
    exact iff_of_false (notInert (.inl acts)) (not_not_intro wrong)

theorem namesKnown {r : Decoder.Regs} {t : InstructionType} {m : Meaning} {wrong : Prop} (stands : meaning t = some m)
    (does : Does r m) (right : ¬ wrong) : Names r t ↔ ¬ wrong := by
  unfold Names
  rw [stands]
  exact iff_of_true does right

theorem namesNothing {r : Decoder.Regs} {t : InstructionType} {wrong : Prop} (stands : meaning t = none)
    (acts : r.regWrite = true ∨ r.memWrite = true ∨ r.memRead = true ∨ r.fpRegWrite = true) (is : wrong) : Names r t ↔ ¬ wrong := by
  unfold Names
  rw [stands]
  exact iff_of_false (notInert acts) (not_not_intro is)

def functions (f3 : BitVec 3) (f7 : BitVec 7) : Word := f7 ++ 0#10 ++ f3 ++ 0#12

theorem functionsOf (f3 : BitVec 3) (f7 : BitVec 7) : Decoder.funct3 (functions f3 f7) = f3 ∧
    Decoder.funct7 (functions f3 f7) = f7 := by
  revert f3 f7
  decide +kernel

theorem registerNamed (f3 : BitVec 3) (f7 : BitVec 7) (enableM : Bool) :
    ∀ m ∈ meaning (rType (f3.setWidth 8) (f7.setWidth 8)), m = {control := m.control} ∧
      (Decoder.register (functions f3 f7) enableM = m.control ↔
        ¬ (f7 = 0b0000001 ∧ enableM = false ∨ f7 ≠ 0b0000001 ∧ f7 ≠ 0 ∧ ¬ (f7 = 0b0100000 ∧ (f3 = 0b000 ∨ f3 = 0b101)))) := by
  revert enableM f3 f7
  decide +kernel

theorem registerUnknown (f3 : BitVec 3) (f7 : BitVec 7) (enableM : Bool) :
    meaning (rType (f3.setWidth 8) (f7.setWidth 8)) = none → (Decoder.register (functions f3 f7) enableM).regWrite = true ∧
      f7 ≠ 0b0000001 ∧ f7 ≠ 0 ∧ ¬ (f7 = 0b0100000 ∧ (f3 = 0b000 ∨ f3 = 0b101)) := by
  revert enableM f3 f7
  decide +kernel

theorem aluNamed (f3 : BitVec 3) (f7 : BitVec 7) :
    (∀ m ∈ meaning (aluType (f3.setWidth 8) (f7.setWidth 32) 0 0).1, m = {control := m.control} ∧
      ((ofImmediate (Decoder.baseOp (functions f3 f7) false)).control = m.control ↔
        ¬ (f3 = 0b101 ∧ f7 ≠ 0 ∧ f7.getLsbD 5 = false))) ∧
    meaning (aluType (f3.setWidth 8) (f7.setWidth 32) 0 0).1 ≠ none := by
  revert f3 f7
  decide +kernel

theorem registerSame {w w' : Word} (f3 : Decoder.funct3 w = Decoder.funct3 w') (f7 : Decoder.funct7 w = Decoder.funct7 w')
    (enableM : Bool) : Decoder.register w enableM = Decoder.register w' enableM ∧
      Decoder.baseOp w false = Decoder.baseOp w' false := by
  simp only [Decoder.register,Decoder.baseOp,f3,f7,and_self]

theorem funct3Cases : ∀ f3 : BitVec 3, f3 = 0 ∨ f3 = 1 ∨ f3 = 2 ∨ f3 = 3 ∨ f3 = 4 ∨ f3 = 5 ∨ f3 = 6 ∨ f3 = 7 := by decide

section Opcodes
variable {r : Decoder.Regs} {f3 : BitVec 3} (same : r.funct3 = f3)
include same

theorem loadNamed (control : r.toControl = (ofLoad .lw).control) :
    Names r (loadType (f3.setWidth 8)) ↔ ¬ f3 ∈ [0b011,0b110,0b111] := by
  have acts : r.regWrite = true := congrArg Control.regWrite control
  rcases funct3Cases f3 with rfl | rfl | rfl | rfl | rfl | rfl | rfl | rfl
  · exact namesKnown rfl (doesLoad .lb control same) (by decide)
  · exact namesKnown rfl (doesLoad .lh control same) (by decide)
  · exact namesKnown rfl (doesLoad .lw control same) (by decide)
  · exact namesNothing rfl (.inl acts) (by decide)
  · exact namesKnown rfl (doesLoad .lbu control same) (by decide)
  · exact namesKnown rfl (doesLoad .lhu control same) (by decide)
  · exact namesNothing rfl (.inl acts) (by decide)
  · exact namesNothing rfl (.inl acts) (by decide)

theorem storeNamed (control : r.toControl = (ofStore .word).control) :
    Names r (storeType (f3.setWidth 8)) ↔ ¬ f3 ∉ [0b000,0b001,0b010] := by
  have acts : r.memWrite = true := congrArg Control.memWrite control
  rcases funct3Cases f3 with rfl | rfl | rfl | rfl | rfl | rfl | rfl | rfl
  · exact namesKnown rfl (doesStore .byte control (by rw [same]; rfl)) (by decide)
  · exact namesKnown rfl (doesStore .half control (by rw [same]; rfl)) (by decide)
  · exact namesKnown rfl (doesStore .word control (by rw [same]; rfl)) (by decide)
  all_goals exact namesNothing rfl (.inr (.inl acts)) (by decide)

theorem branchNamed (control : r.toControl = (ofBranch .beq).control) : Names r (branchType (f3.setWidth 8)) := by
  have branch : r.branch = true := congrArg Control.branch control
  have inert (never : ∀ a b : Word, (if f3 = 0b000 then a == b else if f3 = 0b001 then a != b
      else if f3 = 0b100 then a.slt b else if f3 = 0b101 then !a.slt b else if f3 = 0b110 then a.ult b
      else if f3 = 0b111 then !a.ult b else false) = false) : Inert r := by
    refine ⟨?_,fun s dec => ?_⟩
    · have aluOp : r.aluOp = Decoder.aluSub := congrArg Control.aluOp control
      have valid : r.instructionValid = true := congrArg Control.instructionValid control
      rw [branch,aluOp,valid,control]
      rfl
    · rw [Core.Regs.takeBranchNext,dec,same,never,Bool.and_false]
  rcases funct3Cases f3 with rfl | rfl | rfl | rfl | rfl | rfl | rfl | rfl
  · exact doesBranch .beq control same
  · exact doesBranch .bne control same
  · exact inert fun _ _ => rfl
  · exact inert fun _ _ => rfl
  · exact doesBranch .blt control same
  · exact doesBranch .bge control same
  · exact doesBranch .bltu control same
  · exact doesBranch .bgeu control same

theorem csrNamed (control : r.toControl = (ofCsr .write false).control) (other : f3 ≠ 0b000) :
    Names r (csrType (f3.setWidth 8)) ↔ ¬ f3 = 0b100 := by
  have acts : r.regWrite = true := congrArg Control.regWrite control
  rcases funct3Cases f3 with rfl | rfl | rfl | rfl | rfl | rfl | rfl | rfl
  · exact absurd rfl other
  · exact namesKnown rfl (doesCsr .write false control same) (by decide)
  · exact namesKnown rfl (doesCsr .set false control same) (by decide)
  · exact namesKnown rfl (doesCsr .clear false control same) (by decide)
  · exact namesNothing rfl (.inl acts) rfl
  · exact namesKnown rfl (doesCsr .write true control same) (by decide)
  · exact namesKnown rfl (doesCsr .set true control same) (by decide)
  · exact namesKnown rfl (doesCsr .clear true control same) (by decide)

end Opcodes

theorem wordFields (w : Word) : w = w.extractLsb' 20 12 ++ (w.extractLsb' 7 13 ++ w.extractLsb' 0 7) := by
  simp (disch := decide) only [BitVec.extractLsb'_append_extractLsb'_eq_extractLsb']
  exact BitVec.extractLsb'_eq_self.symm

def environmentControl (first : Bool) : Control :=
  if first then {Control.defaults with isEcall := true} else {Control.defaults with isEbreak := true}

theorem neither {c : Control} (other : c.isEcall = false ∧ c.isEbreak = false) (first : Bool) :
    c ≠ environmentControl first := by
  rintro rfl
  cases first <;> simp [environmentControl] at other

theorem environmentShown (op : Decoder.opcode w = Decoder.opSystem) (plain : Decoder.funct3 w = 0b000) :
    Decoder.system w = environmentControl (Decoder.immI w &&& 0x1#32 == 0) ↔
      ¬ (w ≠ Instruction.ecall ∧ w ≠ Instruction.ebreak) := by
  rw [not_and_or,not_not,not_not,Decoder.system,if_pos plain]
  by_cases middle : w.extractLsb' 7 13 = 0
  · have word : w = w.extractLsb' 20 12 ++ (0#13 ++ Decoder.opSystem) := by
      have fields := wordFields w
      rw [middle,show w.extractLsb' 0 7 = Decoder.opSystem from op] at fields
      exact fields
    rw [if_pos middle]
    by_cases ecall : w.extractLsb' 20 12 = 0x000
    · rw [ecall] at word
      subst word
      decide
    by_cases ebreak : w.extractLsb' 20 12 = 0x001
    · rw [ebreak] at word
      subst word
      decide
    simp only [if_neg ecall,if_neg ebreak]
    refine iff_of_false (neither ?_ _) ?_
    · split
      · exact ⟨rfl,rfl⟩
      · split <;> exact ⟨rfl,rfl⟩
    · rintro (rfl | rfl)
      · exact ecall (by decide)
      · exact ebreak (by decide)
  · rw [if_neg middle]
    refine iff_of_false (neither ⟨rfl,rfl⟩ _) ?_
    rintro (rfl | rfl) <;> exact middle (by decide)

theorem environmentNamed {r : Decoder.Regs} (op : Decoder.opcode w = Decoder.opSystem) (plain : Decoder.funct3 w = 0b000)
    (control : r.toControl = Decoder.system w) : Names r (if Decoder.immI w &&& 0x1#32 = 0 then .ecall else .ebreak) ↔
      ¬ (w ≠ Instruction.ecall ∧ w ≠ Instruction.ebreak) := by
  have shown := environmentShown op plain
  rw [← control] at shown
  split
  · rename_i zero
    rw [beq_iff_eq.mpr zero] at shown
    exact doesPlain.trans shown
  · rename_i one
    rw [beq_eq_false_iff_ne.mpr one] at shown
    exact doesPlain.trans shown

theorem atomicActs (w : Word) : if Decoder.funct5 w ∈ atomics then (Decoder.atomic w).regWrite = true
    else Decoder.atomic w = Control.defaults := by
  unfold Decoder.atomic Decoder.amoOp
  generalize Decoder.funct5 w = f5
  revert f5
  decide

theorem floatingActs (known : Decoder.funct7 w ∈ floats) :
    (Decoder.floating w).regWrite = true ∨ (Decoder.floating w).fpRegWrite = true := by
  simp only [floats,List.mem_cons,List.not_mem_nil,or_false] at known
  rcases known with f7 | f7 | f7 | f7 | f7 | f7 | f7 | f7 | f7 | f7 | f7 | f7 <;>
    (rw [Decoder.floating,f7]; first | exact .inl rfl | exact .inr rfl)

theorem floatingNothing (unknown : Decoder.funct7 w ∉ floats) : Decoder.floating w = Control.defaults := by
  simp only [floats,List.mem_cons,List.not_mem_nil,or_false,not_or] at unknown
  obtain ⟨add,sub,mul,div,sgnj,minmax,sqrt,compare,cvtw,cvts,mvx,mvw⟩ := unknown
  rw [Decoder.floating,if_neg add,if_neg sub,if_neg mul,if_neg div,if_neg sqrt,if_neg sgnj,if_neg minmax,if_neg compare,
    if_neg cvtw,if_neg cvts,if_neg mvx,if_neg mvw]

theorem untracedNamed (other : Decoder.opcode w ∉ tracedOpcodes) :
    Names (Decoder.decode enableM enableF w) .unknown ↔ ¬ Misnamed enableM enableF w := by
  have control : (Decoder.decode enableM enableF w).toControl = Decoder.control w enableM enableF := rfl
  have apart {k : BitVec 7} (traced : k ∈ tracedOpcodes) : Decoder.opcode w ≠ k := fun same => other (same ▸ traced)
  unfold Misnamed
  simp only [if_neg (apart (k := Decoder.opImm) (by decide)),if_neg (apart (k := Decoder.opReg) (by decide)),
    if_neg (apart (k := Decoder.opLoad) (by decide)),if_neg (apart (k := Decoder.opStore) (by decide)),
    if_neg (apart (k := Decoder.opSystem) (by decide))]
  by_cases atomic : Decoder.opcode w = Decoder.opAmo
  · have acts := atomicActs w
    have does : (Decoder.decode enableM enableF w).toControl = Decoder.atomic w := by
      rw [control,Decoder.control,atomic]
      rfl
    rw [if_pos atomic]
    by_cases known : Decoder.funct5 w ∈ atomics
    · rw [if_pos known] at acts
      exact namesNothing rfl (.inl ((congrArg Control.regWrite does).trans acts)) known
    · rw [if_neg known] at acts
      exact iff_of_true (inertDefaults (does.trans acts)) known
  rw [if_neg atomic]
  by_cases fp : Decoder.opcode w = Decoder.opFp
  · rw [if_pos fp]
    cases enableF with
    | false => exact iff_of_true (inertDefaults (by rw [control,Decoder.control,fp]; rfl)) fun is => absurd is.1 (by decide)
    | true =>
      have does : (Decoder.decode enableM true w).toControl = Decoder.floating w := by
        rw [control,Decoder.control,fp]
        rfl
      by_cases known : Decoder.funct7 w ∈ floats
      · refine namesNothing rfl ?_ ⟨rfl,known⟩
        rcases floatingActs known with acts | acts
        · exact .inl ((congrArg Control.regWrite does).trans acts)
        · exact .inr (.inr (.inr ((congrArg Control.fpRegWrite does).trans acts)))
      · exact iff_of_true (inertDefaults (does.trans (floatingNothing known))) fun is => known is.2
  rw [if_neg fp]
  by_cases disabled : Decoder.opcode w ∈ [Decoder.opLoadFp,Decoder.opStoreFp,Decoder.opFmadd,Decoder.opFmsub,Decoder.opFnmsub,
      Decoder.opFnmadd]
  · cases enableF with
    | false =>
      refine iff_of_true (inertDefaults ?_) fun is => absurd is.1 (by decide)
      simp only [List.mem_cons,List.not_mem_nil,or_false] at disabled
      rcases disabled with op | op | op | op | op | op <;> (rw [control,Decoder.control,op]; rfl)
    | true =>
      refine namesNothing rfl ?_ ⟨rfl,disabled⟩
      change (Decoder.control w enableM true).regWrite = true ∨ (Decoder.control w enableM true).memWrite = true ∨
        (Decoder.control w enableM true).memRead = true ∨ (Decoder.control w enableM true).fpRegWrite = true
      simp only [List.mem_cons,List.not_mem_nil,or_false] at disabled
      rw [Decoder.control]
      rcases disabled with op | op | op | op | op | op <;> rw [op]
      · exact .inr (.inr (.inl rfl))
      · exact .inr (.inl rfl)
      all_goals exact .inr (.inr (.inr rfl))
  · refine iff_of_true (inertOf ?_) fun is => disabled is.2
    have illegal : Decoder.control w enableM enableF = {Control.defaults with instructionValid := false} := by
      simp only [tracedOpcodes,List.mem_cons,List.not_mem_nil,or_false,not_or] at other disabled
      simp [Decoder.control,other,disabled,atomic,fp]
    have invalid : (Decoder.decode enableM enableF w).instructionValid = false :=
      congrArg Control.instructionValid (control.trans illegal)
    rw [invalid]
    exact control.trans illegal

theorem alwaysNamed {name : InstructionType} {m : Meaning} (stands : meaning name = some m) (plain : m = {control := m.control})
    (control : Decoder.control w enableM enableF = m.control) (right : ¬ Misnamed enableM enableF w) :
    Names (Decoder.decode enableM enableF w) name ↔ ¬ Misnamed enableM enableF w := by
  refine namesKnown stands ?_ right
  rw [plain]
  exact doesPlain.mpr control

theorem formNamed {pc v1 v2 vd : Word} {t : InstructionTrace} (form : Form pc w v1 v2 vd t) :
    Names (Decoder.decode enableM enableF w) t.instType ↔ ¬ Misnamed enableM enableF w := by
  have control {c : Control} (same : Decoder.control w enableM enableF = c) :
      (Decoder.decode enableM enableF w).toControl = c := same
  have right {k : BitVec 7} (op : Decoder.opcode w = k)
      (known : k ∈ [Decoder.opBranch,Decoder.opLui,Decoder.opAuipc,Decoder.opJal,Decoder.opJalr,Decoder.opFence]) :
      ¬ Misnamed enableM enableF w := by
    rw [Misnamed,op]
    simp only [List.mem_cons,List.not_mem_nil,or_false] at known
    rcases known with rfl | rfl | rfl | rfl | rfl | rfl <;> exact fun is => absurd is.2 (by decide)
  cases form with
  | register op =>
    obtain ⟨f3,f7⟩ := functionsOf (Decoder.funct3 w) (Decoder.funct7 w)
    have does : (Decoder.decode enableM enableF w).toControl =
        Decoder.register (functions (Decoder.funct3 w) (Decoder.funct7 w)) enableM := by
      rw [← (registerSame f3.symm f7.symm enableM).1]
      exact control (by rw [Decoder.control,op]; rfl)
    rw [Misnamed,op]
    refine namesPlain (fun m stands => ?_) fun absent => ?_
    · rw [does]
      exact registerNamed _ _ enableM m stands
    · obtain ⟨acts,wrong⟩ := registerUnknown _ _ enableM absent
      exact ⟨(congrArg Control.regWrite does).trans acts,.inr wrong⟩
  | alu op named =>
    obtain ⟨f3,f7⟩ := functionsOf (Decoder.funct3 w) (Decoder.funct7 w)
    have does : (Decoder.decode enableM enableF w).toControl =
        (ofImmediate (Decoder.baseOp (functions (Decoder.funct3 w) (Decoder.funct7 w)) false)).control := by
      rw [← (registerSame f3.symm f7.symm enableM).2]
      exact control (by rw [Decoder.control,op]; rfl)
    rw [aluTypeImmediate] at named
    obtain ⟨rfl,-⟩ := Prod.mk.inj named
    obtain ⟨known,present⟩ := aluNamed (Decoder.funct3 w) (Decoder.funct7 w)
    rw [Misnamed,op]
    refine namesPlain (fun m stands => ?_) fun absent => absurd absent present
    rw [does]
    exact known m stands
  | load op =>
    rw [Misnamed,op]
    exact loadNamed rfl (control (by rw [Decoder.control,op]; rfl))
  | store op =>
    rw [Misnamed,op]
    exact storeNamed rfl (control (by rw [Decoder.control,op]; rfl))
  | branch op =>
    exact iff_of_true (branchNamed rfl (control (by rw [Decoder.control,op]; rfl))) (right op (by decide))
  | lui op => exact alwaysNamed rfl rfl (by rw [Decoder.control,op]; rfl) (right op (by decide))
  | auipc op => exact alwaysNamed rfl rfl (by rw [Decoder.control,op]; rfl) (right op (by decide))
  | jal op => exact alwaysNamed rfl rfl (by rw [Decoder.control,op]; rfl) (right op (by decide))
  | jalr op => exact alwaysNamed rfl rfl (by rw [Decoder.control,op]; rfl) (right op (by decide))
  | fence op => exact alwaysNamed rfl rfl (by rw [Decoder.control,op]; rfl) (right op (by decide))
  | environment op plain =>
    have wrong : Misnamed enableM enableF w ↔ w ≠ Instruction.ecall ∧ w ≠ Instruction.ebreak := by
      have same : Misnamed enableM enableF w ↔ Decoder.funct3 w = 0b100 ∨ Decoder.funct3 w = 0b000 ∧
          w ≠ Instruction.ecall ∧ w ≠ Instruction.ebreak := by
        rw [Misnamed,op]
        exact Iff.rfl
      rw [same,plain,or_iff_right (by decide),and_iff_right rfl]
    rw [wrong]
    exact environmentNamed op plain (control (by rw [Decoder.control,op]; rfl))
  | csr op other =>
    have wrong : Misnamed enableM enableF w ↔ Decoder.funct3 w = 0b100 := by
      have same : Misnamed enableM enableF w ↔ Decoder.funct3 w = 0b100 ∨ Decoder.funct3 w = 0b000 ∧
          w ≠ Instruction.ecall ∧ w ≠ Instruction.ebreak := by
        rw [Misnamed,op]
        exact Iff.rfl
      rw [same,or_iff_left fun is => other is.1]
    rw [wrong]
    refine csrNamed rfl (control ?_) other
    rw [Decoder.control,op]
    exact if_neg other
  | unknown other => exact untracedNamed other

end Names

end RiscvSoc.Trace
