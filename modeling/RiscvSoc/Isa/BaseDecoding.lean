import RiscvSoc.Isa.BaseInstructions
import RiscvSoc.Isa.Immediates

/-! What the CPU's decoder makes of the words of the base instructions: the operands come back as they
were given to the encoder, with the control signals of the operation. -/
namespace RiscvSoc.Isa
open Instruction (Word)
open Decoder (Control)
open BitFields

namespace Operation

def funct3 : Operation → BitVec 3
  | .add | .sub | .mul => 0b000
  | .sll | .mulh => 0b001
  | .slt | .mulhsu => 0b010
  | .sltu | .mulhu => 0b011
  | .xor => 0b100
  | .srl | .sra => 0b101
  | .or => 0b110
  | .and => 0b111

def funct7 : Operation → BitVec 7
  | .sub | .sra => 0b0100000
  | .mul | .mulh | .mulhsu | .mulhu => 0b0000001
  | _ => 0b0000000

def aluOp : Operation → BitVec 5
  | .add => Decoder.aluAdd
  | .sub => Decoder.aluSub
  | .sll => Decoder.aluSll
  | .slt => Decoder.aluSlt
  | .sltu => Decoder.aluSltu
  | .xor => Decoder.aluXor
  | .srl => Decoder.aluSrl
  | .sra => Decoder.aluSra
  | .or => Decoder.aluOr
  | .and => Decoder.aluAnd
  | .mul => Decoder.aluMul
  | .mulh => Decoder.aluMul + 1
  | .mulhsu => Decoder.aluMul + 2
  | .mulhu => Decoder.aluMul + 3

end Operation

def Comparison.funct3 : Comparison → BitVec 3
  | .beq => 0b000
  | .bne => 0b001
  | .blt => 0b100
  | .bge => 0b101
  | .bltu => 0b110
  | .bgeu => 0b111

def Load.funct3 : Load → BitVec 3
  | .lb => 0b000
  | .lh => 0b001
  | .lw => 0b010
  | .lbu => 0b100
  | .lhu => 0b101

/- The size of an access on the bus, which is a store's `funct3` too. -/
def Width.size : Width → BitVec 2
  | .byte => 0b00
  | .half => 0b01
  | .word => 0b10

namespace Instr

def opcode : Instr → BitVec 7
  | .register .. => Decoder.opReg
  | .immediate .. | .shift .. => Decoder.opImm
  | .lui .. => Decoder.opLui
  | .auipc .. => Decoder.opAuipc
  | .jal .. => Decoder.opJal
  | .jalr .. => Decoder.opJalr
  | .branch .. => Decoder.opBranch
  | .load .. => Decoder.opLoad
  | .store .. => Decoder.opStore
  | .fence => Decoder.opFence

def control : Instr → Control
  | .register op _ _ _ => {Control.defaults with regWrite := true, aluOp := op.aluOp}
  | .immediate op _ _ _ => {Control.defaults with aluSrc := true, regWrite := true, aluOp := op.operation.aluOp}
  | .shift op _ _ _ => {Control.defaults with aluSrc := true, regWrite := true, aluOp := op.operation.aluOp}
  | .lui _ _ => {Control.defaults with aluSrc := true, regWrite := true}
  | .auipc _ _ => {Control.defaults with aluSrc := true, regWrite := true, isAuipc := true}
  | .jal _ _ => {Control.defaults with jump := true, regWrite := true}
  | .jalr _ _ _ => {Control.defaults with jump := true, aluSrc := true, regWrite := true}
  | .branch .. => {Control.defaults with aluOp := Decoder.aluSub, branch := true}
  | .load .. => {Control.defaults with aluSrc := true, memRead := true, regWrite := true, memToReg := true}
  | .store .. => {Control.defaults with aluSrc := true, memWrite := true}
  | .fence => {Control.defaults with isFence := true}

def Fields (w : Word) : Instr → Prop
  | .register _ rd rs1 rs2 => Decoder.rd w = rd ∧ Decoder.rs1 w = rs1 ∧ Decoder.rs2 w = rs2
  | .immediate _ rd rs1 imm => Decoder.rd w = rd ∧ Decoder.rs1 w = rs1 ∧ Decoder.immI w = signed imm
  | .shift _ rd rs1 shamt => Decoder.rd w = rd ∧ Decoder.rs1 w = rs1 ∧ (Decoder.immI w).extractLsb' 0 5 = shamt
  | .lui rd imm | .auipc rd imm => Decoder.rd w = rd ∧ Decoder.immU w = upper imm
  | .jal rd offset => Decoder.rd w = rd ∧ Decoder.immJ w = halves offset
  | .jalr rd rs1 imm => Decoder.rd w = rd ∧ Decoder.rs1 w = rs1 ∧ Decoder.immI w = signed imm
  | .branch c rs1 rs2 offset =>
    Decoder.rs1 w = rs1 ∧ Decoder.rs2 w = rs2 ∧ Decoder.funct3 w = c.funct3 ∧ Decoder.immB w = halves offset
  | .load kind rd rs1 imm =>
    Decoder.rd w = rd ∧ Decoder.rs1 w = rs1 ∧ Decoder.funct3 w = kind.funct3 ∧ Decoder.immI w = signed imm
  | .store width rs1 rs2 imm =>
    Decoder.rs1 w = rs1 ∧ Decoder.rs2 w = rs2 ∧ Decoder.funct3 w = 0#1 ++ width.size ∧ Decoder.immS w = signed imm
  | .fence => True

end Instr

section Formats
variable {w : Word} {opcode : BitVec 7} {rd rs1 rs2 : BitVec 5} {f3 : BitVec 3}

theorem registerWord (f7 : BitVec 7)
    (word : w = Instruction.encodeRType (opcode.setWidth 32) (reg rd) (f3.setWidth 32) (reg rs1) (reg rs2) (f7.setWidth 32)) :
    Decoder.opcode w = opcode ∧ Decoder.rd w = rd ∧ Decoder.funct3 w = f3 ∧ Decoder.rs1 w = rs1 ∧ Decoder.rs2 w = rs2 ∧
      Decoder.funct7 w = f7 :=
  Disasm.rTypeSlices _ rd rs1 rs2 f3 f7 w (word.trans (Instruction.rTypeFields opcode rd rs1 rs2 f3 f7))

theorem immediateWord {imm : Word}
    (word : w = Instruction.encodeIType (opcode.setWidth 32) (reg rd) (f3.setWidth 32) (reg rs1) imm) :
    Decoder.opcode w = opcode ∧ Decoder.rd w = rd ∧ Decoder.funct3 w = f3 ∧ Decoder.rs1 w = rs1 ∧
      w.extractLsb' 20 12 = imm.extractLsb' 0 12 :=
  Disasm.iTypeSlices _ rd rs1 f3 _ w (word.trans (Instruction.iTypeFields opcode rd rs1 f3 imm))

theorem signedSlice {n : Nat} (x : BitVec n) (k l : Nat) (inside : k + l ≤ n) (fits : n ≤ 32) :
    (signed x).extractLsb' k l = x.extractLsb' k l := signSlice 32 x k l inside fits

theorem signedWord {imm : BitVec 12}
    (word : w = Instruction.encodeIType (opcode.setWidth 32) (reg rd) (f3.setWidth 32) (reg rs1) (signed imm)) :
    Decoder.opcode w = opcode ∧ Decoder.rd w = rd ∧ Decoder.funct3 w = f3 ∧ Decoder.rs1 w = rs1 ∧ Decoder.immI w = signed imm := by
  obtain ⟨hop,hrd,hf3,hrs1,field⟩ := immediateWord word
  rw [signedSlice imm 0 12 (by decide) (by decide),BitVec.extractLsb'_eq_self] at field
  refine ⟨hop,hrd,hf3,hrs1,?_⟩
  rw [← Decoder.immIDecoded,Disasm.immI,field]
  rfl

theorem upperWord {imm : BitVec 20} (word : w = Instruction.encodeUType (opcode.setWidth 32) (reg rd) (upper imm)) :
    Decoder.opcode w = opcode ∧ Decoder.rd w = rd ∧ Decoder.immU w = upper imm := by
  obtain ⟨hop,hrd,field⟩ := Disasm.uTypeSlices opcode rd _ w (word.trans (Instruction.uTypeFields opcode rd (upper imm)))
  refine ⟨hop,hrd,?_⟩
  rw [Decoder.immU,field,upper,BitVec.extractLsb'_append_eq_left]

theorem storeWord {imm : BitVec 12}
    (word : w = Instruction.encodeSType (opcode.setWidth 32) (f3.setWidth 32) (reg rs1) (reg rs2) (signed imm)) :
    Decoder.opcode w = opcode ∧ Decoder.rs1 w = rs1 ∧ Decoder.rs2 w = rs2 ∧ Decoder.funct3 w = f3 ∧ Decoder.immS w = signed imm := by
  have fields := word.trans (Instruction.sTypeFields opcode rs1 rs2 f3 (signed imm))
  obtain ⟨hop,low,hf3,hrs1,hrs2,high⟩ := Disasm.rTypeSlices _ _ rs1 rs2 f3 _ w fields
  refine ⟨hop,hrs1,hrs2,hf3,?_⟩
  have whole : imm.extractLsb' 5 7 ++ imm.extractLsb' 0 5 = imm :=
    (BitVec.extractLsb'_append_extractLsb'_eq_extractLsb' rfl).trans BitVec.extractLsb'_eq_self
  rw [← Decoder.immSDecoded,Disasm.immS,high,low,signedSlice imm 5 7 (by decide) (by decide),
    signedSlice imm 0 5 (by decide) (by decide),whole]
  rfl

theorem shiftWord {f7 : BitVec 7} {shamt : BitVec 5} (word : w = Instruction.encodeIType (opcode.setWidth 32) (reg rd)
    (f3.setWidth 32) (reg rs1) (f7.setWidth 32 <<< 5 ||| shamt.setWidth 32)) :
    Decoder.opcode w = opcode ∧ Decoder.rd w = rd ∧ Decoder.funct3 w = f3 ∧ Decoder.rs1 w = rs1 ∧
      Decoder.funct7 w = f7 ∧ (Decoder.immI w).extractLsb' 0 5 = shamt := by
  obtain ⟨hop,hrd,hf3,hrs1,field⟩ := immediateWord word
  have whole : w.extractLsb' 20 12 = f7 ++ shamt := by
    rw [field,← BitVec.setWidth_append_eq_shiftLeft_setWidth_or,BitVec.extractLsb'_setWidth_of_le (by decide)]
    exact BitVec.extractLsb'_eq_self
  refine ⟨hop,hrd,hf3,hrs1,?_,?_⟩
  · have slice : (w.extractLsb' 20 12).extractLsb' 5 7 = w.extractLsb' 25 7 := sliceSlice w 20 (by decide)
    rw [whole] at slice
    exact slice.symm.trans BitVec.extractLsb'_append_eq_left
  · rw [← Decoder.immIDecoded,Disasm.immI,whole]
    exact (signedSlice (f7 ++ shamt) 0 5 (by decide) (by decide)).trans BitVec.extractLsb'_append_eq_right

theorem evenOffset {n : Nat} (offset : BitVec n) : 0#1 = (offset ++ 0#1).extractLsb' 0 1 :=
  BitVec.extractLsb'_append_eq_right.symm

theorem branchWord {offset : BitVec 12}
    (word : w = Instruction.encodeBType (opcode.setWidth 32) (f3.setWidth 32) (reg rs1) (reg rs2) (halves offset)) :
    Decoder.opcode w = opcode ∧ Decoder.rs1 w = rs1 ∧ Decoder.rs2 w = rs2 ∧ Decoder.funct3 w = f3 ∧
      Decoder.immB w = halves offset := by
  have fields := word.trans (Instruction.bTypeFields opcode rs1 rs2 f3 (halves offset))
  obtain ⟨hop,hf3,hrs1,hrs2,b12,b11,b10to5,b4to1⟩ := Disasm.bTypeSlices _ rs1 rs2 f3 _ _ _ _ w fields
  refine ⟨hop,hrs1,hrs2,hf3,?_⟩
  have slice (k l : Nat) (inside : k + l ≤ 13) : (halves offset).extractLsb' k l = (offset ++ 0#1).extractLsb' k l :=
    signedSlice (offset ++ 0#1) k l inside (by decide)
  have whole : (offset ++ 0#1).extractLsb' 12 1 ++ ((offset ++ 0#1).extractLsb' 11 1 ++ ((offset ++ 0#1).extractLsb' 5 6 ++
      ((offset ++ 0#1).extractLsb' 1 4 ++ (offset ++ 0#1).extractLsb' 0 1))) = offset ++ 0#1 := by
    rw [BitVec.extractLsb'_append_extractLsb'_eq_extractLsb' (show 1 = 0 + 1 from rfl),
      BitVec.extractLsb'_append_extractLsb'_eq_extractLsb' (show 5 = 0 + (4 + 1) from rfl),
      BitVec.extractLsb'_append_extractLsb'_eq_extractLsb' (show 11 = 0 + (6 + (4 + 1)) from rfl),
      BitVec.extractLsb'_append_extractLsb'_eq_extractLsb' (show 12 = 0 + (1 + (6 + (4 + 1))) from rfl)]
    exact BitVec.extractLsb'_eq_self
  rw [← evenOffset] at whole
  rw [← Decoder.immBDecoded,Disasm.immB,b12,b11,b10to5,b4to1,slice 12 1 (by decide),slice 11 1 (by decide),
    slice 5 6 (by decide),slice 1 4 (by decide),whole]
  rfl

theorem jumpWord {offset : BitVec 20} (word : w = Instruction.jal (reg rd) (halves offset)) :
    Decoder.opcode w = Decoder.opJal ∧ Decoder.rd w = rd ∧ Decoder.immJ w = halves offset := by
  have fields := word.trans (Instruction.jalFields rd (halves offset))
  obtain ⟨hop,hrd,b20,b19to12,b11,b10to1⟩ := Disasm.jTypeSlices _ rd _ _ _ _ w fields
  refine ⟨hop,hrd,?_⟩
  have slice (k l : Nat) (inside : k + l ≤ 21) : (halves offset).extractLsb' k l = (offset ++ 0#1).extractLsb' k l :=
    signedSlice (offset ++ 0#1) k l inside (by decide)
  have whole : (offset ++ 0#1).extractLsb' 20 1 ++ ((offset ++ 0#1).extractLsb' 12 8 ++ ((offset ++ 0#1).extractLsb' 11 1 ++
      ((offset ++ 0#1).extractLsb' 1 10 ++ (offset ++ 0#1).extractLsb' 0 1))) = offset ++ 0#1 := by
    rw [BitVec.extractLsb'_append_extractLsb'_eq_extractLsb' (show 1 = 0 + 1 from rfl),
      BitVec.extractLsb'_append_extractLsb'_eq_extractLsb' (show 11 = 0 + (10 + 1) from rfl),
      BitVec.extractLsb'_append_extractLsb'_eq_extractLsb' (show 12 = 0 + (1 + (10 + 1)) from rfl),
      BitVec.extractLsb'_append_extractLsb'_eq_extractLsb' (show 20 = 0 + (8 + (1 + (10 + 1))) from rfl)]
    exact BitVec.extractLsb'_eq_self
  rw [← evenOffset] at whole
  rw [← Decoder.immJDecoded,Disasm.immJ,b20,b19to12,b11,b10to1,slice 20 1 (by decide),slice 12 8 (by decide),
    slice 11 1 (by decide),slice 1 10 (by decide),whole]
  rfl

end Formats

theorem Operation.encoded (op : Operation) (rd rs1 rs2 : BitVec 5) : op.encoder (reg rd) (reg rs1) (reg rs2) =
    Instruction.encodeRType (Decoder.opReg.setWidth 32) (reg rd) (op.funct3.setWidth 32) (reg rs1) (reg rs2)
      (op.funct7.setWidth 32) := by
  cases op <;> rfl

theorem ImmediateOp.encoded (op : ImmediateOp) (rd rs1 : BitVec 5) (imm : Word) : op.encoder (reg rd) (reg rs1) imm =
    Instruction.encodeIType (Decoder.opImm.setWidth 32) (reg rd) (op.operation.funct3.setWidth 32) (reg rs1) imm := by
  cases op <;> rfl

theorem ShiftOp.encoded (op : ShiftOp) (rd rs1 shamt : BitVec 5) : op.encoder (reg rd) (reg rs1) (shamt.setWidth 32) =
    Instruction.encodeIType (Decoder.opImm.setWidth 32) (reg rd) (op.operation.funct3.setWidth 32) (reg rs1)
      (op.operation.funct7.setWidth 32 <<< 5 ||| shamt.setWidth 32) := by
  cases op with
  | slli | srli => exact congrArg (Instruction.encodeIType _ _ _ _) BitVec.zero_or.symm
  | srai => exact congrArg (Instruction.encodeIType _ _ _ _) (BitVec.or_comm _ _)

theorem Comparison.encoded (c : Comparison) (rs1 rs2 : BitVec 5) (imm : Word) : c.encoder (reg rs1) (reg rs2) imm =
    Instruction.encodeBType (Decoder.opBranch.setWidth 32) (c.funct3.setWidth 32) (reg rs1) (reg rs2) imm := by
  cases c <;> rfl

theorem Load.encoded (kind : Load) (rd rs1 : BitVec 5) (imm : Word) : kind.encoder (reg rd) (reg rs1) imm =
    Instruction.encodeIType (Decoder.opLoad.setWidth 32) (reg rd) (kind.funct3.setWidth 32) (reg rs1) imm := by
  cases kind <;> rfl

theorem Width.encoded (width : Width) (rs1 rs2 : BitVec 5) (imm : Word) : width.encoder (reg rs1) (reg rs2) imm =
    Instruction.encodeSType (Decoder.opStore.setWidth 32) ((0#1 ++ width.size).setWidth 32) (reg rs1) (reg rs2) imm := by
  cases width <;> rfl

theorem registerControl {w : Word} (enableM : Bool) {op : Operation} (f3 : Decoder.funct3 w = op.funct3)
    (f7 : Decoder.funct7 w = op.funct7) (there : op.multiplies = true → enableM = true) :
    Decoder.register w enableM = {Control.defaults with regWrite := true, aluOp := op.aluOp} := by
  rw [Decoder.register,Decoder.baseOp,f3,f7]
  cases op with
  | mul | mulh | mulhsu | mulhu =>
    rw [there rfl]
    rfl
  | _ => rfl

theorem immediateOp {w : Word} {op : ImmediateOp} (f3 : Decoder.funct3 w = op.operation.funct3) :
    Decoder.baseOp w false = op.operation.aluOp := by
  rw [Decoder.baseOp,f3]
  cases op <;> rfl

theorem shiftOp {w : Word} {op : ShiftOp} (f3 : Decoder.funct3 w = op.operation.funct3)
    (f7 : Decoder.funct7 w = op.operation.funct7) : Decoder.baseOp w false = op.operation.aluOp := by
  rw [Decoder.baseOp,f3,f7]
  cases op <;> rfl

theorem decoded (instr : Instr) (enableM enableF : Bool) (there : instr.multiplies = true → enableM = true) :
    Decoder.opcode instr.encode = instr.opcode ∧ Decoder.control instr.encode enableM enableF = instr.control ∧
      instr.Fields instr.encode := by
  cases instr with
  | register op rd rs1 rs2 =>
    obtain ⟨hop,hrd,f3,hrs1,hrs2,f7⟩ := registerWord op.funct7 (op.encoded rd rs1 rs2)
    refine ⟨hop,?_,hrd,hrs1,hrs2⟩
    exact Eq.trans (by simp only [Instr.encode,Decoder.control,hop]; rfl) (registerControl enableM f3 f7 there)
  | immediate op rd rs1 imm =>
    obtain ⟨hop,hrd,f3,hrs1,himm⟩ := signedWord (op.encoded rd rs1 (signed imm))
    refine ⟨hop,?_,hrd,hrs1,himm⟩
    simp only [Instr.encode,Decoder.control,hop,immediateOp f3]
    rfl
  | shift op rd rs1 shamt =>
    obtain ⟨hop,hrd,f3,hrs1,f7,hshamt⟩ := shiftWord (op.encoded rd rs1 shamt)
    refine ⟨hop,?_,hrd,hrs1,hshamt⟩
    simp only [Instr.encode,Decoder.control,hop,shiftOp f3 f7]
    rfl
  | lui rd imm =>
    obtain ⟨hop,hrd,himm⟩ := @upperWord (Instr.lui rd imm).encode Decoder.opLui rd imm rfl
    exact ⟨hop,by simp only [Decoder.control,hop]; rfl,hrd,himm⟩
  | auipc rd imm =>
    obtain ⟨hop,hrd,himm⟩ := @upperWord (Instr.auipc rd imm).encode Decoder.opAuipc rd imm rfl
    exact ⟨hop,by simp only [Decoder.control,hop]; rfl,hrd,himm⟩
  | jal rd offset =>
    obtain ⟨hop,hrd,himm⟩ := @jumpWord (Instr.jal rd offset).encode rd offset rfl
    exact ⟨hop,by simp only [Decoder.control,hop]; rfl,hrd,himm⟩
  | jalr rd rs1 imm =>
    obtain ⟨hop,hrd,_,hrs1,himm⟩ :=
      @signedWord (Instr.jalr rd rs1 imm).encode Decoder.opJalr rd rs1 0b000 imm rfl
    exact ⟨hop,by simp only [Decoder.control,hop]; rfl,hrd,hrs1,himm⟩
  | branch c rs1 rs2 offset =>
    obtain ⟨hop,hrs1,hrs2,f3,himm⟩ := branchWord (c.encoded rs1 rs2 (halves offset))
    refine ⟨hop,?_,hrs1,hrs2,f3,himm⟩
    simp only [Instr.encode,Decoder.control,hop]
    rfl
  | load kind rd rs1 imm =>
    obtain ⟨hop,hrd,f3,hrs1,himm⟩ := signedWord (kind.encoded rd rs1 (signed imm))
    refine ⟨hop,?_,hrd,hrs1,f3,himm⟩
    simp only [Instr.encode,Decoder.control,hop]
    rfl
  | store width rs1 rs2 imm =>
    obtain ⟨hop,hrs1,hrs2,f3,himm⟩ := storeWord (width.encoded rs1 rs2 (signed imm))
    refine ⟨hop,?_,hrs1,hrs2,f3,himm⟩
    simp only [Instr.encode,Decoder.control,hop]
    rfl
  | fence => exact ⟨rfl,by cases enableM <;> cases enableF <;> rfl,trivial⟩

end RiscvSoc.Isa
