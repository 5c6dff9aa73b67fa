import RiscvSoc.Lib.BitFields

/-! The 32-bit encoders of `instruction.rs`. A `u32` or an `i32` is its 32 bits. -/
namespace RiscvSoc.Instruction

abbrev Word := BitVec 32

def encodeIType (opcode rd funct3 rs1 imm : Word) : Word :=
  let immU := imm &&& 0xFFF#32
  immU <<< 20 ||| rs1 <<< 15 ||| funct3 <<< 12 ||| rd <<< 7 ||| opcode

def encodeRType (opcode rd funct3 rs1 rs2 funct7 : Word) : Word :=
  funct7 <<< 25 ||| rs2 <<< 20 ||| rs1 <<< 15 ||| funct3 <<< 12 ||| rd <<< 7 ||| opcode

def encodeUType (opcode rd imm : Word) : Word := imm &&& 0xFFFFF000#32 ||| rd <<< 7 ||| opcode

def encodeBType (opcode funct3 rs1 rs2 imm : Word) : Word :=
  let imm12 := imm >>> 12 &&& 0x1#32
  let imm10to5 := imm >>> 5 &&& 0x3F#32
  let imm4to1 := imm >>> 1 &&& 0xF#32
  let imm11 := imm >>> 11 &&& 0x1#32
  imm12 <<< 31 ||| imm10to5 <<< 25 ||| rs2 <<< 20 ||| rs1 <<< 15 ||| funct3 <<< 12 ||| imm4to1 <<< 8 ||| imm11 <<< 7 ||| opcode

def encodeSType (opcode funct3 rs1 rs2 imm : Word) : Word :=
  let immU := imm &&& 0xFFF#32
  let imm11to5 := immU >>> 5 &&& 0x7F#32
  let imm4to0 := immU &&& 0x1F#32
  imm11to5 <<< 25 ||| rs2 <<< 20 ||| rs1 <<< 15 ||| funct3 <<< 12 ||| imm4to0 <<< 7 ||| opcode

def addi (rd rs1 imm : Word) : Word := encodeIType 0b0010011 rd 0b000 rs1 imm
def add (rd rs1 rs2 : Word) : Word := encodeRType 0b0110011 rd 0b000 rs1 rs2 0b0000000
def sub (rd rs1 rs2 : Word) : Word := encodeRType 0b0110011 rd 0b000 rs1 rs2 0b0100000
def and (rd rs1 rs2 : Word) : Word := encodeRType 0b0110011 rd 0b111 rs1 rs2 0b0000000
def andi (rd rs1 imm : Word) : Word := encodeIType 0b0010011 rd 0b111 rs1 imm
def or (rd rs1 rs2 : Word) : Word := encodeRType 0b0110011 rd 0b110 rs1 rs2 0b0000000
def ori (rd rs1 imm : Word) : Word := encodeIType 0b0010011 rd 0b110 rs1 imm
def xor (rd rs1 rs2 : Word) : Word := encodeRType 0b0110011 rd 0b100 rs1 rs2 0b0000000
def xori (rd rs1 imm : Word) : Word := encodeIType 0b0010011 rd 0b100 rs1 imm
def sll (rd rs1 rs2 : Word) : Word := encodeRType 0b0110011 rd 0b001 rs1 rs2 0b0000000
def slli (rd rs1 shamt : Word) : Word := encodeIType 0b0010011 rd 0b001 rs1 shamt
def srl (rd rs1 rs2 : Word) : Word := encodeRType 0b0110011 rd 0b101 rs1 rs2 0b0000000
def srli (rd rs1 shamt : Word) : Word := encodeIType 0b0010011 rd 0b101 rs1 shamt
def sra (rd rs1 rs2 : Word) : Word := encodeRType 0b0110011 rd 0b101 rs1 rs2 0b0100000
def srai (rd rs1 shamt : Word) : Word := encodeIType 0b0010011 rd 0b101 rs1 (shamt ||| 0x400#32)
def slt (rd rs1 rs2 : Word) : Word := encodeRType 0b0110011 rd 0b010 rs1 rs2 0b0000000
def slti (rd rs1 imm : Word) : Word := encodeIType 0b0010011 rd 0b010 rs1 imm
def sltu (rd rs1 rs2 : Word) : Word := encodeRType 0b0110011 rd 0b011 rs1 rs2 0b0000000
def sltiu (rd rs1 imm : Word) : Word := encodeIType 0b0010011 rd 0b011 rs1 imm

def lui (rd imm : Word) : Word := encodeUType 0b0110111 rd imm
def auipc (rd imm : Word) : Word := encodeUType 0b0010111 rd imm

def beq (rs1 rs2 imm : Word) : Word := encodeBType 0b1100011 0b000 rs1 rs2 imm
def bne (rs1 rs2 imm : Word) : Word := encodeBType 0b1100011 0b001 rs1 rs2 imm
def blt (rs1 rs2 imm : Word) : Word := encodeBType 0b1100011 0b100 rs1 rs2 imm
def bge (rs1 rs2 imm : Word) : Word := encodeBType 0b1100011 0b101 rs1 rs2 imm
def bltu (rs1 rs2 imm : Word) : Word := encodeBType 0b1100011 0b110 rs1 rs2 imm
def bgeu (rs1 rs2 imm : Word) : Word := encodeBType 0b1100011 0b111 rs1 rs2 imm

def jal (rd imm : Word) : Word :=
  let imm20 := imm >>> 20 &&& 0x1#32
  let imm10to1 := imm >>> 1 &&& 0x3FF#32
  let imm11 := imm >>> 11 &&& 0x1#32
  let imm19to12 := imm >>> 12 &&& 0xFF#32
  imm20 <<< 31 ||| imm19to12 <<< 12 ||| imm11 <<< 20 ||| imm10to1 <<< 21 ||| rd <<< 7 ||| 0b1101111#32

def jalr (rd rs1 imm : Word) : Word := encodeIType 0b1100111 rd 0b000 rs1 imm

def lw (rd rs1 imm : Word) : Word := encodeIType 0b0000011 rd 0b010 rs1 imm
def lh (rd rs1 imm : Word) : Word := encodeIType 0b0000011 rd 0b001 rs1 imm
def lb (rd rs1 imm : Word) : Word := encodeIType 0b0000011 rd 0b000 rs1 imm
def lhu (rd rs1 imm : Word) : Word := encodeIType 0b0000011 rd 0b101 rs1 imm
def lbu (rd rs1 imm : Word) : Word := encodeIType 0b0000011 rd 0b100 rs1 imm

def sw (rs1 rs2 imm : Word) : Word := encodeSType 0b0100011 0b010 rs1 rs2 imm
def sh (rs1 rs2 imm : Word) : Word := encodeSType 0b0100011 0b001 rs1 rs2 imm
def sb (rs1 rs2 imm : Word) : Word := encodeSType 0b0100011 0b000 rs1 rs2 imm

def fence : Word := 0b00001111111100000000000000001111

def ecall : Word := encodeIType 0b1110011 0 0b000 0 0
def ebreak : Word := encodeIType 0b1110011 0 0b000 0 1

def csrrw (rd rs1 csr : Word) : Word := encodeIType 0b1110011 rd 0b001 rs1 csr
def csrrs (rd rs1 csr : Word) : Word := encodeIType 0b1110011 rd 0b010 rs1 csr
def csrrc (rd rs1 csr : Word) : Word := encodeIType 0b1110011 rd 0b011 rs1 csr
def csrrwi (rd imm csr : Word) : Word := encodeIType 0b1110011 rd 0b101 imm csr
def csrrsi (rd imm csr : Word) : Word := encodeIType 0b1110011 rd 0b110 imm csr
def csrrci (rd imm csr : Word) : Word := encodeIType 0b1110011 rd 0b111 imm csr

def mul (rd rs1 rs2 : Word) : Word := encodeRType 0b0110011 rd 0b000 rs1 rs2 0b0000001
def mulh (rd rs1 rs2 : Word) : Word := encodeRType 0b0110011 rd 0b001 rs1 rs2 0b0000001
def mulhsu (rd rs1 rs2 : Word) : Word := encodeRType 0b0110011 rd 0b010 rs1 rs2 0b0000001
def mulhu (rd rs1 rs2 : Word) : Word := encodeRType 0b0110011 rd 0b011 rs1 rs2 0b0000001
def div (rd rs1 rs2 : Word) : Word := encodeRType 0b0110011 rd 0b100 rs1 rs2 0b0000001
def divu (rd rs1 rs2 : Word) : Word := encodeRType 0b0110011 rd 0b101 rs1 rs2 0b0000001
def rem (rd rs1 rs2 : Word) : Word := encodeRType 0b0110011 rd 0b110 rs1 rs2 0b0000001
def remu (rd rs1 rs2 : Word) : Word := encodeRType 0b0110011 rd 0b111 rs1 rs2 0b0000001

def encodeAtomic (funct5 : Word) (aq rl : Bool) (rd rs1 rs2 : Word) : Word :=
  let aqBit : Word := if aq then 1 else 0
  let rlBit : Word := if rl then 1 else 0
  funct5 <<< 27 ||| aqBit <<< 26 ||| rlBit <<< 25 ||| rs2 <<< 20 ||| rs1 <<< 15 ||| 0b010#32 <<< 12 ||| rd <<< 7 ||| 0b0101111#32

def lrW (rd rs1 : Word) : Word := encodeAtomic 0b00010 false false rd rs1 0
def lrWAq (rd rs1 : Word) : Word := encodeAtomic 0b00010 true false rd rs1 0
def scW (rd rs1 rs2 : Word) : Word := encodeAtomic 0b00011 false false rd rs1 rs2
def scWRl (rd rs1 rs2 : Word) : Word := encodeAtomic 0b00011 false true rd rs1 rs2
def amoswapW (rd rs1 rs2 : Word) : Word := encodeAtomic 0b00001 false false rd rs1 rs2
def amoaddW (rd rs1 rs2 : Word) : Word := encodeAtomic 0b00000 false false rd rs1 rs2
def amoxorW (rd rs1 rs2 : Word) : Word := encodeAtomic 0b00100 false false rd rs1 rs2
def amoandW (rd rs1 rs2 : Word) : Word := encodeAtomic 0b01100 false false rd rs1 rs2
def amoorW (rd rs1 rs2 : Word) : Word := encodeAtomic 0b01000 false false rd rs1 rs2
def amominW (rd rs1 rs2 : Word) : Word := encodeAtomic 0b10000 false false rd rs1 rs2
def amomaxW (rd rs1 rs2 : Word) : Word := encodeAtomic 0b10100 false false rd rs1 rs2
def amominuW (rd rs1 rs2 : Word) : Word := encodeAtomic 0b11000 false false rd rs1 rs2
def amomaxuW (rd rs1 rs2 : Word) : Word := encodeAtomic 0b11100 false false rd rs1 rs2

def encodeFpRType (opcode rd rm rs1 rs2 funct7 : Word) : Word :=
  funct7 <<< 25 ||| rs2 <<< 20 ||| rs1 <<< 15 ||| rm <<< 12 ||| rd <<< 7 ||| opcode

def encodeFpR4Type (opcode rd rm rs1 rs2 funct2 rs3 : Word) : Word :=
  rs3 <<< 27 ||| funct2 <<< 25 ||| rs2 <<< 20 ||| rs1 <<< 15 ||| rm <<< 12 ||| rd <<< 7 ||| opcode

def flw (fd rs1 imm : Word) : Word := encodeIType 0b0000111 fd 0b010 rs1 imm
def fsw (rs1 fs2 imm : Word) : Word := encodeSType 0b0100111 0b010 rs1 fs2 imm

def faddS (fd fs1 fs2 : Word) : Word := encodeFpRType 0b1010011 fd 0b111 fs1 fs2 0b0000000
def fsubS (fd fs1 fs2 : Word) : Word := encodeFpRType 0b1010011 fd 0b111 fs1 fs2 0b0000100
def fmulS (fd fs1 fs2 : Word) : Word := encodeFpRType 0b1010011 fd 0b111 fs1 fs2 0b0001000
def fdivS (fd fs1 fs2 : Word) : Word := encodeFpRType 0b1010011 fd 0b111 fs1 fs2 0b0001100
def fsqrtS (fd fs1 : Word) : Word := encodeFpRType 0b1010011 fd 0b111 fs1 0 0b0101100

def fmaddS (fd fs1 fs2 fs3 : Word) : Word := encodeFpR4Type 0b1000011 fd 0b111 fs1 fs2 0b00 fs3
def fmsubS (fd fs1 fs2 fs3 : Word) : Word := encodeFpR4Type 0b1000111 fd 0b111 fs1 fs2 0b00 fs3
def fnmsubS (fd fs1 fs2 fs3 : Word) : Word := encodeFpR4Type 0b1001011 fd 0b111 fs1 fs2 0b00 fs3
def fnmaddS (fd fs1 fs2 fs3 : Word) : Word := encodeFpR4Type 0b1001111 fd 0b111 fs1 fs2 0b00 fs3

def fminS (fd fs1 fs2 : Word) : Word := encodeFpRType 0b1010011 fd 0b000 fs1 fs2 0b0010100
def fmaxS (fd fs1 fs2 : Word) : Word := encodeFpRType 0b1010011 fd 0b001 fs1 fs2 0b0010100
def fsgnjS (fd fs1 fs2 : Word) : Word := encodeFpRType 0b1010011 fd 0b000 fs1 fs2 0b0010000
def fsgnjnS (fd fs1 fs2 : Word) : Word := encodeFpRType 0b1010011 fd 0b001 fs1 fs2 0b0010000
def fsgnjxS (fd fs1 fs2 : Word) : Word := encodeFpRType 0b1010011 fd 0b010 fs1 fs2 0b0010000

def feqS (rd fs1 fs2 : Word) : Word := encodeFpRType 0b1010011 rd 0b010 fs1 fs2 0b1010000
def fltS (rd fs1 fs2 : Word) : Word := encodeFpRType 0b1010011 rd 0b001 fs1 fs2 0b1010000
def fleS (rd fs1 fs2 : Word) : Word := encodeFpRType 0b1010011 rd 0b000 fs1 fs2 0b1010000

def fcvtWS (rd fs1 : Word) : Word := encodeFpRType 0b1010011 rd 0b111 fs1 0 0b1100000
def fcvtWuS (rd fs1 : Word) : Word := encodeFpRType 0b1010011 rd 0b111 fs1 1 0b1100000
def fcvtSW (fd rs1 : Word) : Word := encodeFpRType 0b1010011 fd 0b111 rs1 0 0b1101000
def fcvtSWu (fd rs1 : Word) : Word := encodeFpRType 0b1010011 fd 0b111 rs1 1 0b1101000

def fmvXW (rd fs1 : Word) : Word := encodeFpRType 0b1010011 rd 0b000 fs1 0 0b1110000
def fmvWX (fd rs1 : Word) : Word := encodeFpRType 0b1010011 fd 0b000 rs1 0 0b1111000
def fclassS (rd fs1 : Word) : Word := encodeFpRType 0b1010011 rd 0b001 fs1 0 0b1110000

section formats
variable (opcode : BitVec 7) (rd rs1 rs2 : BitVec 5) (funct3 : BitVec 3) (imm : Word)
open BitFields

theorem rTypeFields (funct7 : BitVec 7) :
    encodeRType (opcode.setWidth 32) (rd.setWidth 32) (funct3.setWidth 32) (rs1.setWidth 32) (rs2.setWidth 32)
      (funct7.setWidth 32) = funct7 ++ (rs2 ++ (rs1 ++ (funct3 ++ (rd ++ opcode)))) := by
  unfold encodeRType
  simp only [BitVec.or_assoc]
  simp only [← BitVec.setWidth_append_eq_shiftLeft_setWidth_or]
  exact BitVec.setWidth_eq _

theorem iTypeFields : encodeIType (opcode.setWidth 32) (rd.setWidth 32) (funct3.setWidth 32) (rs1.setWidth 32) imm =
    imm.extractLsb' 0 12 ++ (rs1 ++ (funct3 ++ (rd ++ opcode))) := by
  have low : imm &&& 0xFFF#32 = (imm.extractLsb' 0 12).setWidth 32 := maskLow imm 12
  unfold encodeIType
  simp only [low,BitVec.or_assoc]
  simp only [← BitVec.setWidth_append_eq_shiftLeft_setWidth_or]
  exact BitVec.setWidth_eq _

theorem uTypeFields : encodeUType (opcode.setWidth 32) (rd.setWidth 32) imm = imm.extractLsb' 12 20 ++ (rd ++ opcode) := by
  have high : imm &&& 0xFFFFF000#32 = (imm.extractLsb' 12 20).setWidth 32 <<< 12 := maskHigh imm 12 20
  unfold encodeUType
  simp only [high,BitVec.or_assoc]
  simp only [← BitVec.setWidth_append_eq_shiftLeft_setWidth_or]
  exact BitVec.setWidth_eq _

theorem sTypeFields : encodeSType (opcode.setWidth 32) (funct3.setWidth 32) (rs1.setWidth 32) (rs2.setWidth 32) imm =
    imm.extractLsb' 5 7 ++ (rs2 ++ (rs1 ++ (funct3 ++ (imm.extractLsb' 0 5 ++ opcode)))) := by
  have high : (imm &&& 0xFFF#32) >>> 5 &&& 0x7F#32 = (imm.extractLsb' 5 7).setWidth 32 :=
    (maskField _ 5 7).trans (congrArg _ (maskSlice imm (m := 12) (by decide) (by decide)))
  have low : imm &&& 0xFFF#32 &&& 0x1F#32 = (imm.extractLsb' 0 5).setWidth 32 :=
    (maskLow _ 5).trans (congrArg _ (maskSlice imm (m := 12) (by decide) (by decide)))
  unfold encodeSType
  simp only [high,low,BitVec.or_assoc]
  simp only [← BitVec.setWidth_append_eq_shiftLeft_setWidth_or]
  exact BitVec.setWidth_eq _

theorem bTypeFields : encodeBType (opcode.setWidth 32) (funct3.setWidth 32) (rs1.setWidth 32) (rs2.setWidth 32) imm =
    imm.extractLsb' 12 1 ++ (imm.extractLsb' 5 6 ++ (rs2 ++ (rs1 ++ (funct3 ++
      (imm.extractLsb' 1 4 ++ (imm.extractLsb' 11 1 ++ opcode)))))) := by
  have imm12 : imm >>> 12 &&& 0x1#32 = (imm.extractLsb' 12 1).setWidth 32 := maskField imm 12 1
  have imm10to5 : imm >>> 5 &&& 0x3F#32 = (imm.extractLsb' 5 6).setWidth 32 := maskField imm 5 6
  have imm4to1 : imm >>> 1 &&& 0xF#32 = (imm.extractLsb' 1 4).setWidth 32 := maskField imm 1 4
  have imm11 : imm >>> 11 &&& 0x1#32 = (imm.extractLsb' 11 1).setWidth 32 := maskField imm 11 1
  unfold encodeBType
  simp only [imm12,imm10to5,imm4to1,imm11,BitVec.or_assoc]
  simp only [← BitVec.setWidth_append_eq_shiftLeft_setWidth_or]
  exact BitVec.setWidth_eq _

theorem jalFields : jal (rd.setWidth 32) imm =
    imm.extractLsb' 20 1 ++ (imm.extractLsb' 1 10 ++ (imm.extractLsb' 11 1 ++ (imm.extractLsb' 12 8 ++ (rd ++ 0b1101111#7)))) := by
  have imm20 : imm >>> 20 &&& 0x1#32 = (imm.extractLsb' 20 1).setWidth 32 := maskField imm 20 1
  have imm10to1 : imm >>> 1 &&& 0x3FF#32 = (imm.extractLsb' 1 10).setWidth 32 := maskField imm 1 10
  have imm11 : imm >>> 11 &&& 0x1#32 = (imm.extractLsb' 11 1).setWidth 32 := maskField imm 11 1
  have imm19to12 : imm >>> 12 &&& 0xFF#32 = (imm.extractLsb' 12 8).setWidth 32 := maskField imm 12 8
  have op : 0b1101111#32 = (0b1101111#7).setWidth 32 := rfl
  have sorted (a b c d e f : Word) : a ||| d ||| c ||| b ||| e ||| f = a ||| (b ||| (c ||| (d ||| (e ||| f)))) := by ac_rfl
  unfold jal
  simp only [imm20,imm10to1,imm11,imm19to12,op,sorted]
  simp only [← BitVec.setWidth_append_eq_shiftLeft_setWidth_or]
  exact BitVec.setWidth_eq _

theorem atomicFields (funct5 : BitVec 5) (aq rl : Bool) :
    encodeAtomic (funct5.setWidth 32) aq rl (rd.setWidth 32) (rs1.setWidth 32) (rs2.setWidth 32) =
      funct5 ++ (BitVec.ofBool aq ++ (BitVec.ofBool rl ++ (rs2 ++ (rs1 ++ (0b010#3 ++ (rd ++ 0b0101111#7)))))) := by
  have bit (b : Bool) : (if b then 1 else 0 : Word) = (BitVec.ofBool b).setWidth 32 := by cases b <;> rfl
  have word : 0b010#32 = (0b010#3).setWidth 32 := rfl
  have op : 0b0101111#32 = (0b0101111#7).setWidth 32 := rfl
  unfold encodeAtomic
  simp only [bit,word,op,BitVec.or_assoc]
  simp only [← BitVec.setWidth_append_eq_shiftLeft_setWidth_or]
  exact BitVec.setWidth_eq _

end formats
end RiscvSoc.Instruction
