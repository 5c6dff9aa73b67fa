/-! `decompress.sv` and `fetch_buffer.sv`: 16-bit instructions expanded, and the half-word that is
left over from a fetch. -/
namespace RiscvSoc.Decompress

/- Where the expansion is invalid, `insn_32` is its default and `is_valid` is low. -/
section Quadrants
variable (insn : BitVec 16)

def funct3 : BitVec 3 := insn.extractLsb' 13 3
def rdFull : BitVec 5 := 0b01#2 ++ insn.extractLsb' 2 3
def rs1Full : BitVec 5 := 0b01#2 ++ insn.extractLsb' 7 3
def rs2Full : BitVec 5 := 0b01#2 ++ insn.extractLsb' 2 3
def rdRs1 : BitVec 5 := insn.extractLsb' 7 5
def uimmLwSw : BitVec 7 := insn.extractLsb' 5 1 ++ insn.extractLsb' 10 3 ++ insn.extractLsb' 6 1 ++ 0b00#2
def imm : BitVec 6 := insn.extractLsb' 12 1 ++ insn.extractLsb' 2 5

/- The literals of C.ADDI4SPN and C.ADDI16SP are wider than the 32 bits that are kept. -/
def quadrant0 : Option (BitVec 32) :=
  if funct3 insn = 0b000 then
    let nzuimm := insn.extractLsb' 7 4 ++ insn.extractLsb' 11 2 ++ insn.extractLsb' 5 1 ++ insn.extractLsb' 6 1 ++ 0b00#2
    if nzuimm = 0 then none
    else some ((0#22 ++ nzuimm ++ 2#5 ++ 0b000#3 ++ rdFull insn ++ 0b0010011#7).setWidth 32)
  else if funct3 insn = 0b010 then
    some (0#5 ++ uimmLwSw insn ++ rs1Full insn ++ 0b010#3 ++ rdFull insn ++ 0b0000011#7)
  else if funct3 insn = 0b011 then
    some (0#5 ++ uimmLwSw insn ++ rs1Full insn ++ 0b010#3 ++ rdFull insn ++ 0b0000111#7)
  else if funct3 insn = 0b110 then
    some (0#5 ++ (uimmLwSw insn).extractLsb' 5 2 ++ rs2Full insn ++ rs1Full insn ++ 0b010#3 ++
      (uimmLwSw insn).extractLsb' 0 5 ++ 0b0100011#7)
  else if funct3 insn = 0b111 then
    some (0#5 ++ (uimmLwSw insn).extractLsb' 5 2 ++ rs2Full insn ++ rs1Full insn ++ 0b010#3 ++
      (uimmLwSw insn).extractLsb' 0 5 ++ 0b0100111#7)
  else none

def immJ : BitVec 12 :=
  insn.extractLsb' 12 1 ++ insn.extractLsb' 8 1 ++ insn.extractLsb' 9 2 ++ insn.extractLsb' 6 1 ++ insn.extractLsb' 7 1 ++
    insn.extractLsb' 2 1 ++ insn.extractLsb' 11 1 ++ insn.extractLsb' 3 3 ++ 0b0#1

def jal (rd : BitVec 5) : BitVec 32 :=
  let sign := (immJ insn).extractLsb' 11 1
  sign ++ (immJ insn).extractLsb' 1 10 ++ sign ++ sign.replicate 8 ++ rd ++ 0b1101111#7

def immB : BitVec 9 :=
  insn.extractLsb' 12 1 ++ insn.extractLsb' 5 2 ++ insn.extractLsb' 2 1 ++ insn.extractLsb' 10 2 ++ insn.extractLsb' 3 2 ++ 0b0#1

def branch (f : BitVec 3) : BitVec 32 :=
  let sign := (immB insn).extractLsb' 8 1
  sign.replicate 4 ++ (immB insn).extractLsb' 5 3 ++ 0#5 ++ rs1Full insn ++ f ++ (immB insn).extractLsb' 1 4 ++ sign ++
    0b1100011#7

def arithmetic : Option (BitVec 32) :=
  let shamt := insn.extractLsb' 2 5
  let funct2 := insn.extractLsb' 10 2
  let funct2Ca := insn.extractLsb' 5 2
  let register (funct7 : BitVec 7) (f : BitVec 3) : BitVec 32 :=
    funct7 ++ rs2Full insn ++ rs1Full insn ++ f ++ rs1Full insn ++ 0b0110011#7
  if funct2 = 0b00 then
    if shamt = 0 then none else some (0b0000000#7 ++ shamt ++ rs1Full insn ++ 0b101#3 ++ rs1Full insn ++ 0b0010011#7)
  else if funct2 = 0b01 then
    if shamt = 0 then none else some (0b0100000#7 ++ shamt ++ rs1Full insn ++ 0b101#3 ++ rs1Full insn ++ 0b0010011#7)
  else if funct2 = 0b10 then
    some (((imm insn).extractLsb' 5 1).replicate 6 ++ imm insn ++ rs1Full insn ++ 0b111#3 ++ rs1Full insn ++ 0b0010011#7)
  else if insn.getLsbD 12 then none
  else if funct2Ca = 0b00 then some (register 0b0100000 0b000)
  else if funct2Ca = 0b01 then some (register 0b0000000 0b100)
  else if funct2Ca = 0b10 then some (register 0b0000000 0b110)
  else some (register 0b0000000 0b111)

def quadrant1 : Option (BitVec 32) :=
  let sign := (imm insn).extractLsb' 5 1
  if funct3 insn = 0b000 then
    if rdRs1 insn = 0 ∧ imm insn = 0 then some 0x00000013
    else some (sign.replicate 6 ++ imm insn ++ rdRs1 insn ++ 0b000#3 ++ rdRs1 insn ++ 0b0010011#7)
  else if funct3 insn = 0b001 then some (jal insn 1)
  else if funct3 insn = 0b010 then
    some (sign.replicate 6 ++ imm insn ++ 0#5 ++ 0b000#3 ++ rdRs1 insn ++ 0b0010011#7)
  else if funct3 insn = 0b011 then
    if rdRs1 insn = 2 then
      let nzimm := insn.extractLsb' 12 1 ++ insn.extractLsb' 3 2 ++ insn.extractLsb' 5 1 ++ insn.extractLsb' 2 1 ++
        insn.extractLsb' 6 1 ++ 0#4
      if nzimm = 0 then none
      else some (((nzimm.extractLsb' 9 1).replicate 22 ++ nzimm ++ 2#5 ++ 0b000#3 ++ 2#5 ++ 0b0010011#7).setWidth 32)
    else if rdRs1 insn = 0 ∨ imm insn = 0 then none
    else some (sign.replicate 14 ++ imm insn ++ rdRs1 insn ++ 0b0110111#7)
  else if funct3 insn = 0b100 then arithmetic insn
  else if funct3 insn = 0b101 then some (jal insn 0)
  else if funct3 insn = 0b110 then some (branch insn 0b000)
  else some (branch insn 0b001)

def jumpMoveAdd : Option (BitVec 32) :=
  let rs2 := insn.extractLsb' 2 5
  if insn.getLsbD 12 then
    if rdRs1 insn = 0 ∧ rs2 = 0 then some 0x00100073
    else if rdRs1 insn = 0 then none
    else if rs2 = 0 then some (0#12 ++ rdRs1 insn ++ 0b000#3 ++ 1#5 ++ 0b1100111#7)
    else some (0b0000000#7 ++ rs2 ++ rdRs1 insn ++ 0b000#3 ++ rdRs1 insn ++ 0b0110011#7)
  else if rdRs1 insn = 0 then none
  else if rs2 = 0 then some (0#12 ++ rdRs1 insn ++ 0b000#3 ++ 0#5 ++ 0b1100111#7)
  else some (0b0000000#7 ++ rs2 ++ 0#5 ++ 0b000#3 ++ rdRs1 insn ++ 0b0110011#7)

def quadrant2 : Option (BitVec 32) :=
  let rs2 := insn.extractLsb' 2 5
  let shamt := insn.extractLsb' 12 1 ++ insn.extractLsb' 2 5
  let uimmLwsp := insn.extractLsb' 2 2 ++ insn.extractLsb' 12 1 ++ insn.extractLsb' 4 3 ++ 0b00#2
  let uimmSwsp := insn.extractLsb' 7 2 ++ insn.extractLsb' 9 4 ++ 0b00#2
  if funct3 insn = 0b000 then
    if shamt = 0 ∨ rdRs1 insn = 0 then none
    else some (0b0000000#7 ++ shamt.extractLsb' 0 5 ++ rdRs1 insn ++ 0b001#3 ++ rdRs1 insn ++ 0b0010011#7)
  else if funct3 insn = 0b010 then
    if rdRs1 insn = 0 then none else some (0#4 ++ uimmLwsp ++ 2#5 ++ 0b010#3 ++ rdRs1 insn ++ 0b0000011#7)
  else if funct3 insn = 0b011 then some (0#4 ++ uimmLwsp ++ 2#5 ++ 0b010#3 ++ rdRs1 insn ++ 0b0000111#7)
  else if funct3 insn = 0b100 then jumpMoveAdd insn
  else if funct3 insn = 0b110 then
    some (0#4 ++ uimmSwsp.extractLsb' 5 3 ++ rs2 ++ 2#5 ++ 0b010#3 ++ uimmSwsp.extractLsb' 0 5 ++ 0b0100011#7)
  else if funct3 insn = 0b111 then
    some (0#4 ++ uimmSwsp.extractLsb' 5 3 ++ rs2 ++ 2#5 ++ 0b010#3 ++ uimmSwsp.extractLsb' 0 5 ++ 0b0100111#7)
  else none

def expand : Option (BitVec 32) :=
  if insn.extractLsb' 0 2 = 0b00 then quadrant0 insn
  else if insn.extractLsb' 0 2 = 0b01 then quadrant1 insn
  else quadrant2 insn

def isCompressed : Bool := insn.extractLsb' 0 2 != 0b11

end Quadrants

structure Outputs where
  insn32 : BitVec 32
  isCompressed : Bool
  isValid : Bool
  deriving DecidableEq, Repr

def decompress (insn16 : BitVec 16) (insn32In : BitVec 32) : Outputs :=
  if isCompressed insn16 then ⟨(expand insn16).getD 0x00000013,true,(expand insn16).isSome⟩
  else ⟨insn32In,false,true⟩

end RiscvSoc.Decompress

namespace RiscvSoc.FetchBuffer

structure Regs where
  bufferedHalf : BitVec 16
  bufferValid : Bool
  currentInsnCompressed : Bool
  deriving DecidableEq, Repr, Inhabited

structure Inputs where
  imemData : BitVec 32
  imemReady : Bool
  pc : BitVec 32
  irWrite : Bool
  invalidateBuffer : Bool
  deriving DecidableEq, Repr

def reset (s : Regs) : Regs := {s with bufferValid := false, currentInsnCompressed := false}

namespace Regs

def currentHalf (s : Regs) (data : BitVec 32) : BitVec 16 :=
  if s.bufferValid then s.bufferedHalf else data.extractLsb' 0 16

def assembledInsn (s : Regs) (data : BitVec 32) : BitVec 32 :=
  if Decompress.isCompressed (s.currentHalf data) then 0#16 ++ s.currentHalf data
  else if s.bufferValid then data.extractLsb' 16 16 ++ s.bufferedHalf
  else data

def output (s : Regs) (data : BitVec 32) : Decompress.Outputs :=
  Decompress.decompress ((s.assembledInsn data).extractLsb' 0 16) (s.assembledInsn data)

def consumed (s : Regs) (i : Inputs) : Regs :=
  if Decompress.isCompressed (s.currentHalf i.imemData) then
    if s.bufferValid || !i.pc.getLsbD 1 then {s with bufferedHalf := i.imemData.extractLsb' 16 16, bufferValid := true}
    else {s with bufferValid := false}
  else {s with bufferValid := false}

def next (s : Regs) (i : Inputs) : Regs :=
  let b := if i.irWrite && i.imemReady then s.consumed i else s
  { bufferedHalf := b.bufferedHalf
    bufferValid := b.bufferValid && !i.invalidateBuffer
    currentInsnCompressed := if i.irWrite then (s.output i.imemData).isCompressed else s.currentInsnCompressed }

def pcInc2 (s : Regs) : Bool := s.currentInsnCompressed

end Regs
end RiscvSoc.FetchBuffer
