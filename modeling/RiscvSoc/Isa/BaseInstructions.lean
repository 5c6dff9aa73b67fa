import RiscvSoc.Isa.Instruction

/-! The integer instructions of the base ISA and the multiplications of M, with what each does to a hart and
what it asks of the memory, and the words that the encoders of `instruction.rs` make of them. -/
namespace RiscvSoc.Isa
open Instruction (Word)

inductive Operation where
  | add | sub | sll | slt | sltu | xor | srl | sra | or | and
  | mul | mulh | mulhsu | mulhu
  deriving DecidableEq, Repr

namespace Operation

/- Shifts go by the low five bits; the upper products are of the signed or unsigned numbers. -/
def result (a b : Word) : Operation → Word
  | .add => a + b
  | .sub => a - b
  | .sll => a <<< (b.toNat % 32)
  | .slt => if a.slt b then 1 else 0
  | .sltu => if a.ult b then 1 else 0
  | .xor => a ^^^ b
  | .srl => a >>> (b.toNat % 32)
  | .sra => a.sshiftRight (b.toNat % 32)
  | .or => a ||| b
  | .and => a &&& b
  | .mul => a * b
  | .mulh => BitVec.ofInt 32 (a.toInt * b.toInt / 2 ^ 32)
  | .mulhsu => BitVec.ofInt 32 (a.toInt * b.toNat / 2 ^ 32)
  | .mulhu => BitVec.ofNat 32 (a.toNat * b.toNat / 2 ^ 32)

def multiplies : Operation → Bool
  | .mul | .mulh | .mulhsu | .mulhu => true
  | _ => false

end Operation

inductive ImmediateOp where
  | addi | slti | sltiu | xori | ori | andi
  deriving DecidableEq, Repr

def ImmediateOp.operation : ImmediateOp → Operation
  | .addi => .add
  | .slti => .slt
  | .sltiu => .sltu
  | .xori => .xor
  | .ori => .or
  | .andi => .and

inductive ShiftOp where
  | slli | srli | srai
  deriving DecidableEq, Repr

def ShiftOp.operation : ShiftOp → Operation
  | .slli => .sll
  | .srli => .srl
  | .srai => .sra

inductive Comparison where
  | beq | bne | blt | bge | bltu | bgeu
  deriving DecidableEq, Repr

def Comparison.holds (a b : Word) : Comparison → Bool
  | .beq => a == b
  | .bne => a != b
  | .blt => a.slt b
  | .bge => !a.slt b
  | .bltu => a.ult b
  | .bgeu => !a.ult b

inductive Width where
  | byte | half | word
  deriving DecidableEq, Repr

inductive Load where
  | lb | lh | lw | lbu | lhu
  deriving DecidableEq, Repr

def Load.width : Load → Width
  | .lb | .lbu => .byte
  | .lh | .lhu => .half
  | .lw => .word

def Load.extend (data : Word) : Load → Word
  | .lb => (data.extractLsb' 0 8).signExtend 32
  | .lh => (data.extractLsb' 0 16).signExtend 32
  | .lw => data
  | .lbu => (data.extractLsb' 0 8).setWidth 32
  | .lhu => (data.extractLsb' 0 16).setWidth 32

/- Offsets of branches and jumps count half-words. -/
inductive Instr where
  | register (op : Operation) (rd rs1 rs2 : BitVec 5)
  | immediate (op : ImmediateOp) (rd rs1 : BitVec 5) (imm : BitVec 12)
  | shift (op : ShiftOp) (rd rs1 : BitVec 5) (shamt : BitVec 5)
  | lui (rd : BitVec 5) (imm : BitVec 20)
  | auipc (rd : BitVec 5) (imm : BitVec 20)
  | jal (rd : BitVec 5) (offset : BitVec 20)
  | jalr (rd rs1 : BitVec 5) (imm : BitVec 12)
  | branch (comparison : Comparison) (rs1 rs2 : BitVec 5) (offset : BitVec 12)
  | load (kind : Load) (rd rs1 : BitVec 5) (imm : BitVec 12)
  | store (width : Width) (rs1 rs2 : BitVec 5) (imm : BitVec 12)
  | fence
  deriving DecidableEq, Repr

def Instr.multiplies : Instr → Bool
  | .register op _ _ _ => op.multiplies
  | _ => false

@[ext] structure Hart where
  x : BitVec 5 → Word
  pc : Word
  zero : x 0 = 0

namespace Hart

def write (h : Hart) (rd : BitVec 5) (value : Word) : Hart where
  x r := if r ≠ 0 ∧ r = rd then value else h.x r
  pc := h.pc
  zero := (if_neg fun both => both.1 rfl).trans h.zero

def goto (h : Hart) (pc : Word) : Hart := {h with pc := pc}

@[simp] theorem gotoX (h : Hart) (pc : Word) : (h.goto pc).x = h.x := rfl
@[simp] theorem gotoPc (h : Hart) (pc : Word) : (h.goto pc).pc = pc := rfl
@[simp] theorem writeX (h : Hart) (rd : BitVec 5) (value : Word) (r : BitVec 5) :
    (h.write rd value).x r = if r ≠ 0 ∧ r = rd then value else h.x r := rfl

end Hart

/- What an instruction comes to: it is done, or it asks the memory once and goes on from the answer. -/
inductive Outcome where
  | done (after : Hart)
  | load (addr : Word) (width : Width) (after : Word → Hart)
  | store (addr : Word) (width : Width) (data : Word) (after : Hart)

def target (a : Word) : Word := a &&& ~~~1

def signed {n : Nat} (imm : BitVec n) : Word := imm.signExtend 32
def halves {n : Nat} (offset : BitVec n) : Word := (offset ++ 0#1).signExtend 32
def upper (imm : BitVec 20) : Word := imm ++ 0#12

/- `next` is the address after the instruction, which is two bytes on when it was compressed. -/
def Instr.execute (h : Hart) (next : Word) : Instr → Outcome
  | .register op rd rs1 rs2 => .done ((h.write rd (op.result (h.x rs1) (h.x rs2))).goto next)
  | .immediate op rd rs1 imm => .done ((h.write rd (op.operation.result (h.x rs1) (signed imm))).goto next)
  | .shift op rd rs1 shamt => .done ((h.write rd (op.operation.result (h.x rs1) (shamt.setWidth 32))).goto next)
  | .lui rd imm => .done ((h.write rd (upper imm)).goto next)
  | .auipc rd imm => .done ((h.write rd (h.pc + upper imm)).goto next)
  | .jal rd offset => .done ((h.write rd next).goto (target (h.pc + halves offset)))
  | .jalr rd rs1 imm => .done ((h.write rd next).goto (target (h.x rs1 + signed imm)))
  | .branch c rs1 rs2 offset =>
    .done (h.goto (if c.holds (h.x rs1) (h.x rs2) then target (h.pc + halves offset) else next))
  | .load kind rd rs1 imm =>
    .load (h.x rs1 + signed imm) kind.width fun data => (h.write rd (kind.extend data)).goto next
  | .store width rs1 rs2 imm => .store (h.x rs1 + signed imm) width (h.x rs2) (h.goto next)
  | .fence => .done (h.goto next)

def Operation.encoder : Operation → Word → Word → Word → Word
  | .add => Instruction.add
  | .sub => Instruction.sub
  | .sll => Instruction.sll
  | .slt => Instruction.slt
  | .sltu => Instruction.sltu
  | .xor => Instruction.xor
  | .srl => Instruction.srl
  | .sra => Instruction.sra
  | .or => Instruction.or
  | .and => Instruction.and
  | .mul => Instruction.mul
  | .mulh => Instruction.mulh
  | .mulhsu => Instruction.mulhsu
  | .mulhu => Instruction.mulhu

def ImmediateOp.encoder : ImmediateOp → Word → Word → Word → Word
  | .addi => Instruction.addi
  | .slti => Instruction.slti
  | .sltiu => Instruction.sltiu
  | .xori => Instruction.xori
  | .ori => Instruction.ori
  | .andi => Instruction.andi

def ShiftOp.encoder : ShiftOp → Word → Word → Word → Word
  | .slli => Instruction.slli
  | .srli => Instruction.srli
  | .srai => Instruction.srai

def Comparison.encoder : Comparison → Word → Word → Word → Word
  | .beq => Instruction.beq
  | .bne => Instruction.bne
  | .blt => Instruction.blt
  | .bge => Instruction.bge
  | .bltu => Instruction.bltu
  | .bgeu => Instruction.bgeu

def Load.encoder : Load → Word → Word → Word → Word
  | .lb => Instruction.lb
  | .lh => Instruction.lh
  | .lw => Instruction.lw
  | .lbu => Instruction.lbu
  | .lhu => Instruction.lhu

def Width.encoder : Width → Word → Word → Word → Word
  | .byte => Instruction.sb
  | .half => Instruction.sh
  | .word => Instruction.sw

def reg (r : BitVec 5) : Word := r.setWidth 32

def Instr.encode : Instr → Word
  | .register op rd rs1 rs2 => op.encoder (reg rd) (reg rs1) (reg rs2)
  | .immediate op rd rs1 imm => op.encoder (reg rd) (reg rs1) (signed imm)
  | .shift op rd rs1 shamt => op.encoder (reg rd) (reg rs1) (shamt.setWidth 32)
  | .lui rd imm => Instruction.lui (reg rd) (upper imm)
  | .auipc rd imm => Instruction.auipc (reg rd) (upper imm)
  | .jal rd offset => Instruction.jal (reg rd) (halves offset)
  | .jalr rd rs1 imm => Instruction.jalr (reg rd) (reg rs1) (signed imm)
  | .branch c rs1 rs2 offset => c.encoder (reg rs1) (reg rs2) (halves offset)
  | .load kind rd rs1 imm => kind.encoder (reg rd) (reg rs1) (signed imm)
  | .store width rs1 rs2 imm => width.encoder (reg rs1) (reg rs2) (signed imm)
  | .fence => Instruction.fence

end RiscvSoc.Isa
