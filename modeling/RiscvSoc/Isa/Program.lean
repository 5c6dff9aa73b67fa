import Mathlib.Algebra.Group.Nat.Defs
import RiscvSoc.Isa.BaseInstructions
import RiscvSoc.Lib.ByteMemory
import RiscvSoc.Rtl.Cpu.InstructionDelivery

/-! Programs: a hart with a byte-addressable memory, from one instruction to the next. -/
namespace RiscvSoc.Isa
open Instruction (Word)
open ByteMemory
open RiscvSoc.Core (instructionAt instructionLength)

def Width.count : Width → Nat
  | .byte => 1
  | .half => 2
  | .word => 4

structure Computer where
  hart : Hart
  memory : Memory 32

def Width.stored (width : Width) (data : Word) : List LittleEndian.Byte := (LittleEndian.bytes 4 data.toNat).take width.count
def Width.loaded (width : Width) (memory : Memory 32) (addr : Word) : Word := LittleEndian.word 32 (load memory addr width.count)

def Outcome.perform (memory : Memory 32) : Outcome → Computer
  | .done after => ⟨after,memory⟩
  | .load addr width after => ⟨after (width.loaded memory addr),memory⟩
  | .store addr width data after => ⟨after,ByteMemory.store memory addr (width.stored data)⟩

namespace Computer

/- After an instruction, which may be a compressed one. -/
def after (p : Computer) (instr : Instr) : Computer :=
  (instr.execute p.hart (p.hart.pc + instructionLength p.memory p.hart.pc)).perform p.memory

structure Begins (enableM : Bool) (text : Word → Prop) (p : Computer) (instr : Instr) : Prop where
  word : (instructionAt p.memory p.hart.pc).insn32 = instr.encode
  valid : (instructionAt p.memory p.hart.pc).isValid = true
  there : instr.multiplies = true → enableM = true
  fetched : ∀ k < (instructionLength p.memory p.hart.pc).toNat, text (p.hart.pc + BitVec.ofNat 32 k)
  kept : ∀ a, text a → (p.after instr).memory a = p.memory a

inductive Steps (enableM : Bool) (text : Word → Prop) (p : Computer) : Computer → Prop where
  | instruction {instr : Instr} (begins : p.Begins enableM text instr) : Steps enableM text p (p.after instr)

end Computer

theorem Load.takes (kind : Load) {data : Word} {memory : Memory 32} {addr : Word}
    (same : (LittleEndian.bytes 4 data.toNat).take kind.width.count = load memory addr kind.width.count) :
    kind.extend data = kind.extend (kind.width.loaded memory addr) := by
  have low : kind.width.loaded memory addr = BitVec.ofNat 32 (data.toNat % 256 ^ kind.width.count) := by
    rw [Width.loaded,← same,LittleEndian.bytesTake (by cases kind <;> decide),LittleEndian.word,LittleEndian.valueBytes]
  rw [low]
  cases kind with
  | lw =>
    apply BitVec.eq_of_toNat_eq
    have whole : data.toNat % 256 ^ 4 = data.toNat := Nat.mod_eq_of_lt data.isLt
    rw [extend,extend,BitVec.toNat_ofNat,Load.width,Width.count,whole,Nat.mod_eq_of_lt data.isLt]
  | lb | lbu | lh | lhu =>
    have part (n : Nat) (fits : n ≤ 32) : (BitVec.ofNat 32 (data.toNat % 2 ^ n)).extractLsb' 0 n = data.extractLsb' 0 n := by
      apply BitVec.eq_of_toNat_eq
      have small : data.toNat % 2 ^ n < 2 ^ 32 :=
        Nat.lt_of_lt_of_le (Nat.mod_lt _ (Nat.two_pow_pos n)) (Nat.pow_le_pow_right (by decide) fits)
      rw [BitVec.extractLsb'_toNat,BitVec.extractLsb'_toNat,BitVec.toNat_ofNat,Nat.mod_eq_of_lt small,Nat.shiftRight_zero,
        Nat.shiftRight_zero,Nat.mod_mod]
    simp only [extend,Load.width,Width.count]
    rw [← part _ (by decide)]
    rfl

end RiscvSoc.Isa
