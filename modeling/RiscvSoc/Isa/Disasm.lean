import RiscvSoc.Isa.Instruction

/-! `disasm.rs`. A `u8` is its 8 bits; the register values are shown and do not decide anything. -/
namespace RiscvSoc.Disasm
open Instruction (Word)

def hex (x : Word) : String := String.ofList (Nat.toDigits 16 x.toNat)

def hex2 (x : Word) : String :=
  let digits := Nat.toDigits 16 x.toNat
  String.ofList (List.replicate (2 - digits.length) '0' ++ digits)

def reg (r : BitVec 8) (value : Word) : String := "x" ++ toString r.toNat ++ "=0x" ++ hex value

def signed (imm : Word) : String := toString imm.toInt

def getImmI (instruction : Word) : Word :=
  let imm := instruction >>> 20 &&& 0xFFF#32
  if imm &&& 0x800#32 ≠ 0 then imm ||| 0xFFFFF000#32 else imm

def getImmS (instruction : Word) : Word :=
  let imm11to5 := instruction >>> 25 &&& 0x7F#32
  let imm4to0 := instruction >>> 7 &&& 0x1F#32
  let imm := imm11to5 <<< 5 ||| imm4to0
  if imm &&& 0x800#32 ≠ 0 then imm ||| 0xFFFFF000#32 else imm

def getImmB (instruction : Word) : Word :=
  let imm12 := instruction >>> 31 &&& 0x1#32
  let imm10to5 := instruction >>> 25 &&& 0x3F#32
  let imm4to1 := instruction >>> 8 &&& 0xF#32
  let imm11 := instruction >>> 7 &&& 0x1#32
  let imm := imm12 <<< 12 ||| imm11 <<< 11 ||| imm10to5 <<< 5 ||| imm4to1 <<< 1
  if imm &&& 0x1000#32 ≠ 0 then imm ||| 0xFFFFE000#32 else imm

def getImmU (instruction : Word) : Word := instruction &&& 0xFFFFF000#32

def getImmJ (instruction : Word) : Word :=
  let imm20 := instruction >>> 31 &&& 0x1#32
  let imm10to1 := instruction >>> 21 &&& 0x3FF#32
  let imm11 := instruction >>> 20 &&& 0x1#32
  let imm19to12 := instruction >>> 12 &&& 0xFF#32
  let imm := imm20 <<< 20 ||| imm19to12 <<< 12 ||| imm11 <<< 11 ||| imm10to1 <<< 1
  if imm &&& 0x100000#32 ≠ 0 then imm ||| 0xFFE00000#32 else imm

/- The tables of mnemonics, by `funct3` and `funct7` or `funct5`. -/
def rTypeMnemonic (funct3 funct7 : BitVec 8) : Option String :=
  match funct3.toNat,funct7.toNat with
  | 0b000,0b0000000 => some "add"
  | 0b000,0b0100000 => some "sub"
  | 0b001,0b0000000 => some "sll"
  | 0b010,0b0000000 => some "slt"
  | 0b011,0b0000000 => some "sltu"
  | 0b100,0b0000000 => some "xor"
  | 0b101,0b0000000 => some "srl"
  | 0b101,0b0100000 => some "sra"
  | 0b110,0b0000000 => some "or"
  | 0b111,0b0000000 => some "and"
  | 0b000,0b0000001 => some "mul"
  | 0b001,0b0000001 => some "mulh"
  | 0b010,0b0000001 => some "mulhsu"
  | 0b011,0b0000001 => some "mulhu"
  | 0b100,0b0000001 => some "div"
  | 0b101,0b0000001 => some "divu"
  | 0b110,0b0000001 => some "rem"
  | 0b111,0b0000001 => some "remu"
  | _,_ => none

def iTypeMnemonic (funct3 : BitVec 8) (funct7 : Word) : Option String :=
  match funct3.toNat with
  | 0b000 => some "addi"
  | 0b010 => some "slti"
  | 0b011 => some "sltiu"
  | 0b100 => some "xori"
  | 0b110 => some "ori"
  | 0b111 => some "andi"
  | 0b001 => some "slli"
  | 0b101 => if funct7 = 0b0000000 then some "srli" else some "srai"
  | _ => none

def loadMnemonic (funct3 : BitVec 8) : Option String :=
  match funct3.toNat with
  | 0b010 => some "lw"
  | 0b000 => some "lb"
  | 0b001 => some "lh"
  | 0b100 => some "lbu"
  | 0b101 => some "lhu"
  | _ => none

def storeMnemonic (funct3 : BitVec 8) : Option String :=
  match funct3.toNat with
  | 0b010 => some "sw"
  | 0b000 => some "sb"
  | 0b001 => some "sh"
  | _ => none

def branchMnemonic (funct3 : BitVec 8) : Option String :=
  match funct3.toNat with
  | 0b000 => some "beq"
  | 0b001 => some "bne"
  | 0b100 => some "blt"
  | 0b101 => some "bge"
  | 0b110 => some "bltu"
  | 0b111 => some "bgeu"
  | _ => none

def csrMnemonic (funct3 : BitVec 8) : Option String :=
  match funct3.toNat with
  | 0b001 => some "csrrw"
  | 0b010 => some "csrrs"
  | 0b011 => some "csrrc"
  | 0b101 => some "csrrwi"
  | 0b110 => some "csrrsi"
  | 0b111 => some "csrrci"
  | _ => none

/- LR.W has a form of its own. -/
def atomicMnemonic (funct5 : Word) : Option String :=
  match funct5.toNat with
  | 0b00011 => some "sc.w"
  | 0b00001 => some "amoswap.w"
  | 0b00000 => some "amoadd.w"
  | 0b00100 => some "amoxor.w"
  | 0b01100 => some "amoand.w"
  | 0b01000 => some "amoor.w"
  | 0b10000 => some "amomin.w"
  | 0b10100 => some "amomax.w"
  | 0b11000 => some "amominu.w"
  | 0b11100 => some "amomaxu.w"
  | _ => none

def disassembleRType (rd funct3 rs1 rs2 funct7 : BitVec 8) (rs1Value rs2Value rdValue : Word) : String :=
  match rTypeMnemonic funct3 funct7 with
  | none => "unknown R-type f3=" ++ toString funct3.toNat ++ " f7=" ++ toString funct7.toNat
  | some mnemonic => mnemonic ++ " " ++ reg rd rdValue ++ ", " ++ reg rs1 rs1Value ++ ", " ++ reg rs2 rs2Value

def disassembleITypeAlu (instruction : Word) (rd funct3 rs1 : BitVec 8) (rs1Value rdValue : Word) : String :=
  let imm := getImmI instruction
  let shamt := instruction >>> 20 &&& 0x1F#32
  let funct7 := instruction >>> 25 &&& 0x7F#32
  match iTypeMnemonic funct3 funct7 with
  | none => "unknown I-type f3=" ++ toString funct3.toNat
  | some mnemonic =>
    if funct3 = 0b001 ∨ funct3 = 0b101 then
      mnemonic ++ " " ++ reg rd rdValue ++ ", " ++ reg rs1 rs1Value ++ ", " ++ toString shamt.toNat
    else mnemonic ++ " " ++ reg rd rdValue ++ ", " ++ reg rs1 rs1Value ++ ", " ++ signed imm

def disassembleLoad (rd funct3 rs1 : BitVec 8) (imm rs1Value rdValue : Word) : String :=
  match loadMnemonic funct3 with
  | none => "unknown load f3=" ++ toString funct3.toNat
  | some mnemonic => mnemonic ++ " " ++ reg rd rdValue ++ ", " ++ signed imm ++ "(" ++ reg rs1 rs1Value ++ ")"

def disassembleStore (funct3 rs1 rs2 : BitVec 8) (imm rs1Value rs2Value : Word) : String :=
  match storeMnemonic funct3 with
  | none => "unknown store f3=" ++ toString funct3.toNat
  | some mnemonic => mnemonic ++ " " ++ reg rs2 rs2Value ++ ", " ++ signed imm ++ "(" ++ reg rs1 rs1Value ++ ")"

def disassembleBranch (funct3 rs1 rs2 : BitVec 8) (imm rs1Value rs2Value : Word) : String :=
  match branchMnemonic funct3 with
  | none => "unknown branch f3=" ++ toString funct3.toNat
  | some mnemonic => mnemonic ++ " " ++ reg rs1 rs1Value ++ ", " ++ reg rs2 rs2Value ++ ", " ++ signed imm

def disassembleSystem (instruction : Word) (rd funct3 rs1 : BitVec 8) (rs1Value rdValue : Word) : String :=
  if funct3 = 0b000 then
    if getImmI instruction &&& 0x1#32 = 0 then "ecall" else "ebreak"
  else
    let csr := instruction >>> 20 &&& 0xFFF#32
    match csrMnemonic funct3 with
    | none => "unknown SYSTEM f3=" ++ toString funct3.toNat
    | some mnemonic =>
      -- the rs1 field is the immediate itself
      if funct3 &&& 0b100#8 ≠ 0 then
        mnemonic ++ " " ++ reg rd rdValue ++ ", 0x" ++ hex csr ++ ", " ++ toString rs1.toNat
      else mnemonic ++ " " ++ reg rd rdValue ++ ", 0x" ++ hex csr ++ ", " ++ reg rs1 rs1Value

def ordering (aq rl : Word) : String :=
  match aq.toNat,rl.toNat with
  | 1,0 => ".aq"
  | 0,1 => ".rl"
  | 1,1 => ".aqrl"
  | _,_ => ""

def disassembleAtomic (instruction : Word) (rd funct3 rs1 rs2 : BitVec 8) (rs1Value rs2Value rdValue : Word) : String :=
  if funct3 ≠ 0b010 then "unknown atomic f3=" ++ toString funct3.toNat
  else
    let funct5 := instruction >>> 27 &&& 0x1F#32
    let order := ordering (instruction >>> 26 &&& 0x1#32) (instruction >>> 25 &&& 0x1#32)
    if funct5 = 0b00010 then "lr.w" ++ order ++ " " ++ reg rd rdValue ++ ", (" ++ reg rs1 rs1Value ++ ")"
    else match atomicMnemonic funct5 with
      | none => "unknown atomic funct5=" ++ toString funct5.toNat
      | some mnemonic =>
        mnemonic ++ order ++ " " ++ reg rd rdValue ++ ", " ++ reg rs2 rs2Value ++ ", (" ++ reg rs1 rs1Value ++ ")"

def disassembleWithAllValues (instruction rs1Value rs2Value rdValue : Word) : String :=
  let opcode := instruction &&& 0x7F#32
  let rd := (instruction >>> 7 &&& 0x1F#32).setWidth 8
  let funct3 := (instruction >>> 12 &&& 0x7#32).setWidth 8
  let rs1 := (instruction >>> 15 &&& 0x1F#32).setWidth 8
  let rs2 := (instruction >>> 20 &&& 0x1F#32).setWidth 8
  let funct7 := (instruction >>> 25 &&& 0x7F#32).setWidth 8
  if opcode = 0b0110011 then disassembleRType rd funct3 rs1 rs2 funct7 rs1Value rs2Value rdValue
  else if opcode = 0b0010011 then disassembleITypeAlu instruction rd funct3 rs1 rs1Value rdValue
  else if opcode = 0b0000011 then disassembleLoad rd funct3 rs1 (getImmI instruction) rs1Value rdValue
  else if opcode = 0b0100011 then disassembleStore funct3 rs1 rs2 (getImmS instruction) rs1Value rs2Value
  else if opcode = 0b1100011 then disassembleBranch funct3 rs1 rs2 (getImmB instruction) rs1Value rs2Value
  else if opcode = 0b0110111 then "lui " ++ reg rd rdValue ++ ", 0x" ++ hex (getImmU instruction >>> 12)
  else if opcode = 0b0010111 then "auipc " ++ reg rd rdValue ++ ", 0x" ++ hex (getImmU instruction >>> 12)
  else if opcode = 0b1101111 then "jal " ++ reg rd rdValue ++ ", " ++ signed (getImmJ instruction)
  else if opcode = 0b1100111 then
    "jalr " ++ reg rd rdValue ++ ", " ++ signed (getImmI instruction) ++ "(" ++ reg rs1 rs1Value ++ ")"
  else if opcode = 0b0001111 then "fence"
  else if opcode = 0b1110011 then disassembleSystem instruction rd funct3 rs1 rs1Value rdValue
  else if opcode = 0b0101111 then disassembleAtomic instruction rd funct3 rs1 rs2 rs1Value rs2Value rdValue
  else "unknown opcode 0x" ++ hex2 opcode

def disassemble (instruction : Word) : String := disassembleWithAllValues instruction 0 0 0

end RiscvSoc.Disasm
