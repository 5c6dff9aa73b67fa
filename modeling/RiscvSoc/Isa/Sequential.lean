import RiscvSoc.Isa.BaseDecoding
import RiscvSoc.Isa.Expansion
import RiscvSoc.Isa.Program
import RiscvSoc.Lib.Following

/-! The sequential machine of the ISA. Its instructions stand in memory as the words of the assembler's encoders, of 32 bits
or compressed, and no word is two of them; the decompressor of the CPU has no part in what an instruction means here. -/
namespace RiscvSoc.Isa
open Instruction (Word)
open Mealy Machine
open ByteMemory
open Compressed (Counterpart)
open BitFields
open RiscvSoc.Core (halfword word instructionAt instructionLength)

section Injectivity
variable {n : Nat}

theorem signedInjective {a b : BitVec n} (same : signed a = signed b) (fits : n ≤ 32) : a = b := by
  have slices := congrArg (BitVec.extractLsb' 0 n) same
  rwa [signedSlice a 0 n (by omega) fits,signedSlice b 0 n (by omega) fits,BitVec.extractLsb'_eq_self,
    BitVec.extractLsb'_eq_self] at slices

theorem halvesInjective {a b : BitVec n} (same : halves a = halves b) (fits : n + 1 ≤ 32) : a = b := by
  have whole : a ++ 0#1 = b ++ 0#1 := signedInjective same fits
  have slices := congrArg (BitVec.extractLsb' 1 n) whole
  rwa [BitVec.extractLsb'_append_eq_left,BitVec.extractLsb'_append_eq_left] at slices

theorem upperInjective {a b : BitVec 20} (same : upper a = upper b) : a = b := by
  have slices := congrArg (BitVec.extractLsb' 12 20) same
  rwa [upper,upper,BitVec.extractLsb'_append_eq_left,BitVec.extractLsb'_append_eq_left] at slices

theorem operationOf {a b : Operation} (same : a.aluOp = b.aluOp) : a = b := by
  revert same
  cases a <;> cases b <;> decide

theorem immediateOf {a b : ImmediateOp} (same : a.operation = b.operation) : a = b := by
  revert same
  cases a <;> cases b <;> decide

theorem shiftOf {a b : ShiftOp} (same : a.operation = b.operation) : a = b := by
  revert same
  cases a <;> cases b <;> decide

theorem notBoth {a : ImmediateOp} {b : ShiftOp} : a.operation ≠ b.operation := by
  cases a <;> cases b <;> decide

theorem comparisonOf {a b : Comparison} (same : a.funct3 = b.funct3) : a = b := by
  revert same
  cases a <;> cases b <;> decide

theorem loadOf {a b : Load} (same : a.funct3 = b.funct3) : a = b := by
  revert same
  cases a <;> cases b <;> decide

theorem widthOf {a b : Width} (same : 0#1 ++ a.size = 0#1 ++ b.size) : a = b := by
  revert same
  cases a <;> cases b <;> decide

theorem fieldsTell {a b : Instr} {w : Word} (opcode : a.opcode = b.opcode) (control : a.control = b.control)
    (here : a.Fields w) (there : b.Fields w) : a = b := by
  have aluOp : a.control.aluOp = b.control.aluOp := congrArg Decoder.Control.aluOp control
  cases a with
  | register op =>
    cases b with
    | register =>
      obtain ⟨rfl,rfl,rfl⟩ := here
      obtain ⟨rfl,rfl,rfl⟩ := there
      rw [operationOf aluOp]
    | _ => exact absurd opcode (by dsimp only [Instr.opcode]; decide)
  | immediate op =>
    cases b with
    | immediate =>
      obtain ⟨rfl,rfl,imm⟩ := here
      obtain ⟨rfl,rfl,same⟩ := there
      rw [immediateOf (operationOf aluOp),signedInjective (imm.symm.trans same) (by decide)]
    | shift => exact absurd (operationOf aluOp) notBoth
    | _ => exact absurd opcode (by dsimp only [Instr.opcode]; decide)
  | shift op =>
    cases b with
    | shift =>
      obtain ⟨rfl,rfl,rfl⟩ := here
      obtain ⟨rfl,rfl,rfl⟩ := there
      rw [shiftOf (operationOf aluOp)]
    | immediate => exact absurd (operationOf aluOp).symm notBoth
    | _ => exact absurd opcode (by dsimp only [Instr.opcode]; decide)
  | lui =>
    cases b with
    | lui =>
      obtain ⟨rfl,imm⟩ := here
      obtain ⟨rfl,same⟩ := there
      rw [upperInjective (imm.symm.trans same)]
    | _ => exact absurd opcode (by dsimp only [Instr.opcode]; decide)
  | auipc =>
    cases b with
    | auipc =>
      obtain ⟨rfl,imm⟩ := here
      obtain ⟨rfl,same⟩ := there
      rw [upperInjective (imm.symm.trans same)]
    | _ => exact absurd opcode (by dsimp only [Instr.opcode]; decide)
  | jal =>
    cases b with
    | jal =>
      obtain ⟨rfl,offset⟩ := here
      obtain ⟨rfl,same⟩ := there
      rw [halvesInjective (offset.symm.trans same) (by decide)]
    | _ => exact absurd opcode (by dsimp only [Instr.opcode]; decide)
  | jalr =>
    cases b with
    | jalr =>
      obtain ⟨rfl,rfl,imm⟩ := here
      obtain ⟨rfl,rfl,same⟩ := there
      rw [signedInjective (imm.symm.trans same) (by decide)]
    | _ => exact absurd opcode (by dsimp only [Instr.opcode]; decide)
  | branch c =>
    cases b with
    | branch =>
      obtain ⟨rfl,rfl,kind,offset⟩ := here
      obtain ⟨rfl,rfl,sameKind,same⟩ := there
      rw [comparisonOf (kind.symm.trans sameKind),halvesInjective (offset.symm.trans same) (by decide)]
    | _ => exact absurd opcode (by dsimp only [Instr.opcode]; decide)
  | load kind =>
    cases b with
    | load =>
      obtain ⟨rfl,rfl,size,imm⟩ := here
      obtain ⟨rfl,rfl,sameSize,same⟩ := there
      rw [loadOf (size.symm.trans sameSize),signedInjective (imm.symm.trans same) (by decide)]
    | _ => exact absurd opcode (by dsimp only [Instr.opcode]; decide)
  | store width =>
    cases b with
    | store =>
      obtain ⟨rfl,rfl,size,imm⟩ := here
      obtain ⟨rfl,rfl,sameSize,same⟩ := there
      rw [widthOf (size.symm.trans sameSize),signedInjective (imm.symm.trans same) (by decide)]
    | _ => exact absurd opcode (by dsimp only [Instr.opcode]; decide)
  | fence =>
    cases b with
    | fence => rfl
    | _ => exact absurd opcode (by dsimp only [Instr.opcode]; decide)

theorem encodeInjective {a b : Instr} (same : a.encode = b.encode) : a = b := by
  obtain ⟨opcode,control,fields⟩ := decoded a true true fun _ => rfl
  obtain ⟨opcode',control',fields'⟩ := decoded b true true fun _ => rfl
  rw [← same] at opcode' control' fields'
  exact fieldsTell (opcode.symm.trans opcode') (control.symm.trans control') fields fields'

end Injectivity

theorem encodeLong (instr : Instr) : instr.encode.extractLsb' 0 2 = 0b11 := by
  have opcode : (instr.encode.extractLsb' 0 7).extractLsb' 0 2 = instr.opcode.extractLsb' 0 2 :=
    congrArg (BitVec.extractLsb' 0 2) (decoded instr true true fun _ => rfl).1
  rw [sliceSlice _ 0 (by decide)] at opcode
  refine opcode.trans ?_
  cases instr <;> (dsimp only [Instr.opcode]; decide)

namespace Computer

inductive Fetches (p : Computer) : Instr → Word → Prop where
  | whole {instr : Instr} (here : word p.memory p.hart.pc = instr.encode) : Fetches p instr 4
  | compressed {instr : Instr} (here : Counterpart (halfword p.memory p.hart.pc) (some instr.encode)) : Fetches p instr 2

def executed (p : Computer) (instr : Instr) (length : Word) : Computer :=
  (instr.execute p.hart (p.hart.pc + length)).perform p.memory

/- One instruction after another; those of M are there when M is. -/
inductive Step (enableM : Bool) (p : Computer) : Computer → Prop where
  | instruction {instr : Instr} {length : Word} (fetches : p.Fetches instr length) (there : instr.multiplies = true → enableM = true) :
      Step enableM p (p.executed instr length)

variable {p q r : Computer} {instr : Instr} {length : Word} {enableM : Bool}

theorem Fetches.found (fetches : p.Fetches instr length) : (instructionAt p.memory p.hart.pc).insn32 = instr.encode ∧
    (instructionAt p.memory p.hart.pc).isValid = true ∧ instructionLength p.memory p.hart.pc = length := by
  cases fetches with
  | whole here =>
    have low : (halfword p.memory p.hart.pc).extractLsb' 0 2 = 0b11 := by
      have half : (word p.memory p.hart.pc).extractLsb' 0 16 = halfword p.memory p.hart.pc := BitVec.extractLsb'_append_eq_right
      rw [← half,here,sliceSlice _ 0 (by decide)]
      exact encodeLong instr
    have long : Decompress.isCompressed (halfword p.memory p.hart.pc) = false := by
      rw [Decompress.isCompressed,low]
      rfl
    refine ⟨?_,?_,?_⟩
    · rw [instructionAt,Decompress.decompress,long]
      exact here
    · rw [instructionAt,Decompress.decompress,long]
      rfl
    · rw [instructionLength,Core.isShort,long]
      rfl
  | compressed here =>
    obtain ⟨short,expanded⟩ := Compressed.counterpartExpands here
    refine ⟨?_,?_,?_⟩
    · rw [instructionAt,Decompress.decompress,if_pos short,expanded]
      rfl
    · rw [instructionAt,Decompress.decompress,if_pos short,expanded]
      rfl
    · rw [instructionLength,Core.isShort,if_pos short]

theorem Fetches.after (fetches : p.Fetches instr length) : p.after instr = p.executed instr length := by
  rw [Computer.after,executed,fetches.found.2.2]

theorem Step.unique (left : p.Step enableM q) (right : p.Step enableM r) : q = r := by
  obtain ⟨fetches,_⟩ := left
  obtain ⟨again,_⟩ := right
  obtain ⟨word,_,length⟩ := fetches.found
  obtain ⟨word',_,length'⟩ := again.found
  rw [← length,← length',encodeInjective (word.symm.trans word')]

end Computer

/- A program: an instruction follows in every state that it comes to, and the bytes of none are ever overwritten. -/
structure Program (enableM : Bool) (start : Computer) : Prop where
  goes : ∀ {n c}, Reaches (Computer.Step enableM) start n c → ∃ d, c.Step enableM d
  kept : ∀ {n c instr length}, Reaches (Computer.Step enableM) start n c → c.Fetches instr length →
    ∀ {m d}, Reaches (Computer.Step enableM) start m d → ∀ k < length.toNat,
      d.memory (c.hart.pc + BitVec.ofNat 32 k) = start.memory (c.hart.pc + BitVec.ofNat 32 k)

namespace Program
variable {enableM : Bool} {start c d : Computer} {n : Nat}

def Text (enableM : Bool) (start : Computer) (a : Word) : Prop :=
  ∃ n c instr length, Reaches (Computer.Step enableM) start n c ∧ c.Fetches instr length ∧
    ∃ k < length.toNat, a = c.hart.pc + BitVec.ofNat 32 k

theorem unwritten (program : Program enableM start) (reaches : Reaches (Computer.Step enableM) start n c) {a : Word}
    (inside : Text enableM start a) : c.memory a = start.memory a := by
  obtain ⟨_,_,_,_,there,fetches,k,low,rfl⟩ := inside
  exact program.kept there fetches reaches k low

theorem steps (program : Program enableM start) (reaches : Reaches (Computer.Step enableM) start n c)
    (step : c.Step enableM d) : c.Steps enableM (Text enableM start) d := by
  have kept : ∀ a, Text enableM start a → d.memory a = c.memory a := fun a inside =>
    (program.unwritten (.goes reaches step) inside).trans (program.unwritten reaches inside).symm
  obtain ⟨fetches,there⟩ := step
  obtain ⟨word,valid,length⟩ := fetches.found
  rw [← fetches.after] at kept ⊢
  exact .instruction ⟨word,valid,there,fun k low => ⟨n,c,_,_,reaches,fetches,k,length ▸ low,rfl⟩,kept⟩

theorem stepOf (program : Program enableM start) (reaches : Reaches (Computer.Step enableM) start n c)
    (steps : c.Steps enableM (Text enableM start) d) : c.Step enableM d := by
  obtain ⟨_,fetches,there⟩ := program.goes reaches
  obtain ⟨begins⟩ := steps
  obtain rfl := encodeInjective (begins.word.symm.trans fetches.found.1)
  rw [fetches.after]
  exact .instruction fetches there

theorem reached (program : Program enableM start) (reaches : Reaches (Computer.Steps enableM (Text enableM start)) start n c) :
    Reaches (Computer.Step enableM) start n c := by
  induction reaches with
  | begins => exact .begins
  | goes _ next ih => exact .goes ih (program.stepOf ih next)

end Program

end RiscvSoc.Isa
