import Mathlib.Tactic.IntervalCases
import RiscvSoc.Isa.Instruction

/-! The 16-bit encoders of `instruction.rs`. An assertion that fails is `none`. -/
namespace RiscvSoc.Compressed
open Instruction (Word)

def contains (r : Word) : Bool := 8 ≤ r.toNat && r.toNat ≤ 15

def isMultipleOf (n : Word) (k : Nat) : Bool := n.toNat % k == 0

/- An `assert!` before the word that is returned. -/
def asserted (condition : Bool) (insn : BitVec 16) : Option (BitVec 16) := if condition then some insn else none

def addi4spnWord (rd nzuimm : Word) : BitVec 16 :=
  let n := nzuimm
  (n >>> 6 &&& 0xF#32).setWidth 16 <<< 7 ||| (n >>> 4 &&& 0x3#32).setWidth 16 <<< 11 ||| (n >>> 3 &&& 0x1#32).setWidth 16 <<< 5 |||
    (n >>> 2 &&& 0x1#32).setWidth 16 <<< 6 ||| ((rd - 8) &&& 0x7#32).setWidth 16 <<< 2

def cAddi4spn (rd rs1 nzuimm : Word) : Option (BitVec 16) :=
  asserted (rs1 == 2 && contains rd && (isMultipleOf nzuimm 4 && nzuimm.toNat ≤ 1020)) (addi4spnWord rd nzuimm)

/- The loads and the stores with an offset from a register: `data` is the register loaded or stored. -/
def offsetWord (funct3 : BitVec 16) (data rs1 offset : Word) : BitVec 16 :=
  let u := offset >>> 2
  (u >>> 4 &&& 0x1#32).setWidth 16 <<< 5 ||| (u &&& 0x1#32).setWidth 16 <<< 6 ||| (u >>> 1 &&& 0x7#32).setWidth 16 <<< 10 |||
    ((rs1 - 8) &&& 0x7#32).setWidth 16 <<< 7 ||| ((data - 8) &&& 0x7#32).setWidth 16 <<< 2 ||| funct3 <<< 13

def cOffset (funct3 : BitVec 16) (data rs1 offset : Word) : Option (BitVec 16) :=
  asserted (contains data && contains rs1 && (isMultipleOf offset 4 && offset.toNat ≤ 124)) (offsetWord funct3 data rs1 offset)

def cLw (rd rs1 offset : Word) : Option (BitVec 16) := cOffset 0b010 rd rs1 offset
def cSw (rs1 rs2 offset : Word) : Option (BitVec 16) := cOffset 0b110 rs2 rs1 offset
def cFlw (fd rs1 offset : Word) : Option (BitVec 16) := cOffset 0b011 fd rs1 offset
def cFsw (rs1 fs2 offset : Word) : Option (BitVec 16) := cOffset 0b111 fs2 rs1 offset

def cNop : BitVec 16 := 0b0000000000000001

def immediateWord (funct3 : BitVec 16) (rd imm : Word) : BitVec 16 :=
  let imm6 := imm &&& 0x3F#32
  (imm6 >>> 5 &&& 0x1#32).setWidth 16 <<< 12 ||| (imm6 &&& 0x1F#32).setWidth 16 <<< 2 ||| (rd &&& 0x1F#32).setWidth 16 <<< 7 |||
    funct3 <<< 13 ||| 0b01#16

def cAddi (rd imm : Word) : BitVec 16 := immediateWord 0b000 rd imm
def cLi (rd imm : Word) : BitVec 16 := immediateWord 0b010 rd imm

def jumpWord (funct3 : BitVec 16) (offset : Word) : BitVec 16 :=
  let immU := offset &&& 0xFFF#32
  (immU >>> 11 &&& 0x1#32).setWidth 16 <<< 12 ||| (immU >>> 10 &&& 0x1#32).setWidth 16 <<< 8 |||
    (immU >>> 8 &&& 0x3#32).setWidth 16 <<< 9 ||| (immU >>> 7 &&& 0x1#32).setWidth 16 <<< 6 |||
    (immU >>> 6 &&& 0x1#32).setWidth 16 <<< 7 ||| (immU >>> 5 &&& 0x1#32).setWidth 16 <<< 2 |||
    (immU >>> 4 &&& 0x1#32).setWidth 16 <<< 11 ||| (immU >>> 1 &&& 0x7#32).setWidth 16 <<< 3 ||| 0b01#16 ||| funct3 <<< 13

def cJal (offset : Word) : BitVec 16 := jumpWord 0b001 offset
def cJ (offset : Word) : BitVec 16 := jumpWord 0b101 offset

def addi16spWord (nzimm : Word) : BitVec 16 :=
  let nz := nzimm >>> 4
  (nz >>> 5 &&& 0x1#32).setWidth 16 <<< 12 ||| (nz >>> 3 &&& 0x3#32).setWidth 16 <<< 3 ||| (nz >>> 2 &&& 0x1#32).setWidth 16 <<< 5 |||
    (nz >>> 1 &&& 0x1#32).setWidth 16 <<< 2 ||| (nz &&& 0x1#32).setWidth 16 <<< 6 ||| (2#16 &&& 0x1F#16) <<< 7 ||| 0b01#16 |||
    0b011#16 <<< 13

def cAddi16sp (nzimm : Word) : Option (BitVec 16) :=
  asserted (isMultipleOf nzimm 16 && nzimm.toNat ≤ 1008) (addi16spWord nzimm)

/- C.LUI takes the six bits themselves. -/
def luiWord (rd nzimmField : Word) : BitVec 16 :=
  (nzimmField >>> 5 &&& 0x1#32).setWidth 16 <<< 12 ||| (nzimmField &&& 0x1F#32).setWidth 16 <<< 2 |||
    (rd &&& 0x1F#32).setWidth 16 <<< 7 ||| 0b01#16 ||| 0b011#16 <<< 13

def cLui (rd nzimmField : Word) : Option (BitVec 16) := asserted (nzimmField.toNat ≤ 0x3F) (luiWord rd nzimmField)

def shiftWord (funct2 : BitVec 16) (rd shamt : Word) : BitVec 16 :=
  (shamt &&& 0x1F#32).setWidth 16 <<< 2 ||| ((rd - 8) &&& 0x7#32).setWidth 16 <<< 7 ||| 0b100#16 <<< 13 ||| funct2 <<< 10 ||| 0b01#16

def cShift (funct2 : BitVec 16) (rd shamt : Word) : Option (BitVec 16) :=
  asserted (contains rd && (shamt != 0 && shamt.toNat ≤ 31)) (shiftWord funct2 rd shamt)

def cSrli (rd shamt : Word) : Option (BitVec 16) := cShift 0b00 rd shamt
def cSrai (rd shamt : Word) : Option (BitVec 16) := cShift 0b01 rd shamt

def andiWord (rd imm : Word) : BitVec 16 :=
  let imm6 := imm &&& 0x3F#32
  (imm6 >>> 5 &&& 0x1#32).setWidth 16 <<< 12 ||| (imm6 &&& 0x1F#32).setWidth 16 <<< 2 ||| ((rd - 8) &&& 0x7#32).setWidth 16 <<< 7 |||
    0b100#16 <<< 13 ||| 0b10#16 <<< 10 ||| 0b01#16

def cAndi (rd imm : Word) : Option (BitVec 16) := asserted (contains rd) (andiWord rd imm)

def rtypeWord (rd rs2 : Word) (funct2Ca : BitVec 16) : BitVec 16 :=
  ((rs2 - 8) &&& 0x7#32).setWidth 16 <<< 2 ||| ((rd - 8) &&& 0x7#32).setWidth 16 <<< 7 ||| 0b100#16 <<< 13 ||| 0b11#16 <<< 10 |||
    (funct2Ca &&& 0x3#16) <<< 5 ||| 0b01#16

def cRtypeFamily (rd rs2 : Word) (funct2Ca : BitVec 16) : Option (BitVec 16) :=
  asserted (contains rd && contains rs2) (rtypeWord rd rs2 funct2Ca)

def cSub (rd rs2 : Word) : Option (BitVec 16) := cRtypeFamily rd rs2 0
def cXor (rd rs2 : Word) : Option (BitVec 16) := cRtypeFamily rd rs2 1
def cOr (rd rs2 : Word) : Option (BitVec 16) := cRtypeFamily rd rs2 2
def cAnd (rd rs2 : Word) : Option (BitVec 16) := cRtypeFamily rd rs2 3

def branchWord (funct3 : BitVec 16) (rs1 offset : Word) : BitVec 16 :=
  let immU := offset &&& 0x1FF#32
  (immU >>> 8 &&& 0x1#32).setWidth 16 <<< 12 ||| (immU >>> 7 &&& 0x1#32).setWidth 16 <<< 6 |||
    (immU >>> 6 &&& 0x1#32).setWidth 16 <<< 5 ||| (immU >>> 5 &&& 0x1#32).setWidth 16 <<< 2 |||
    (immU >>> 3 &&& 0x3#32).setWidth 16 <<< 10 ||| (immU >>> 1 &&& 0x3#32).setWidth 16 <<< 3 |||
    ((rs1 - 8) &&& 0x7#32).setWidth 16 <<< 7 ||| 0b01#16 ||| funct3 <<< 13

def cBranch (funct3 : BitVec 16) (rs1 offset : Word) : Option (BitVec 16) := asserted (contains rs1) (branchWord funct3 rs1 offset)

def cBeqz (rs1 offset : Word) : Option (BitVec 16) := cBranch 0b110 rs1 offset
def cBnez (rs1 offset : Word) : Option (BitVec 16) := cBranch 0b111 rs1 offset

/- Quadrant 2 with two fields of five bits: `high` is `funct3` and bit 12. -/
def twoFieldsWord (high : BitVec 16) (rd low : Word) : BitVec 16 :=
  (low &&& 0x1F#32).setWidth 16 <<< 2 ||| (rd &&& 0x1F#32).setWidth 16 <<< 7 ||| 0b10#16 ||| high

def cSlli (rd shamt : Word) : Option (BitVec 16) :=
  asserted (rd.toNat < 32 && shamt.toNat ≤ 63) (twoFieldsWord (0b000#16 <<< 13) rd shamt)

def stackLoadWord (funct3 : BitVec 16) (rd offset : Word) : BitVec 16 :=
  let u := offset >>> 2
  (u &&& 0x7#32).setWidth 16 <<< 4 ||| (u >>> 3 &&& 0x1#32).setWidth 16 <<< 12 ||| (u >>> 4 &&& 0x3#32).setWidth 16 <<< 2 |||
    (rd &&& 0x1F#32).setWidth 16 <<< 7 ||| 0b10#16 ||| funct3 <<< 13

def cLwsp (rd offset : Word) : Option (BitVec 16) :=
  asserted (isMultipleOf offset 4 && offset.toNat ≤ 255) (stackLoadWord 0b010 rd offset)
def cFlwsp (fd offset : Word) : Option (BitVec 16) :=
  asserted (fd.toNat < 32 && (isMultipleOf offset 4 && offset.toNat ≤ 255)) (stackLoadWord 0b011 fd offset)

def cJr (rs1 : Word) : Option (BitVec 16) := asserted (rs1.toNat < 32) (twoFieldsWord (0b100#16 <<< 13) rs1 0)
def cMv (rd rs2 : Word) : BitVec 16 := twoFieldsWord (0b100#16 <<< 13) rd rs2
def cEbreak : BitVec 16 := 0b1001000000000010
def cJalr (rs1 : Word) : Option (BitVec 16) := asserted (rs1 != 0) (twoFieldsWord (0b100#16 <<< 13 ||| 1#16 <<< 12) rs1 0)
def cAdd (rd rs2 : Word) : Option (BitVec 16) :=
  asserted (rd != 0 && rs2 != 0) (twoFieldsWord (0b100#16 <<< 13 ||| 1#16 <<< 12) rd rs2)

def stackStoreWord (funct3 : BitVec 16) (rs2 offset : Word) : BitVec 16 :=
  let u := offset >>> 2
  (u >>> 4 &&& 0x3#32).setWidth 16 <<< 7 ||| (u &&& 0xF#32).setWidth 16 <<< 9 ||| (rs2 &&& 0x1F#32).setWidth 16 <<< 2 ||| 0b10#16 |||
    funct3 <<< 13

def cSwsp (rs2 offset : Word) : Option (BitVec 16) :=
  asserted (isMultipleOf offset 4 && offset.toNat ≤ 1020) (stackStoreWord 0b110 rs2 offset)
def cFswsp (fs2 offset : Word) : Option (BitVec 16) :=
  asserted (fs2.toNat < 32 && (isMultipleOf offset 4 && offset.toNat ≤ 252)) (stackStoreWord 0b111 fs2 offset)

section layouts

theorem lowThree (x : Word) : (x - 8) &&& 0x7#32 = x &&& 0x7#32 := by
  apply BitVec.eq_of_toNat_eq
  have low (n : Nat) : n &&& 7 = n % 8 := Nat.and_two_pow_sub_one_eq_mod n 3
  have inside := x.isLt
  rw [BitVec.toNat_and,BitVec.toNat_and,BitVec.toNat_sub]
  change _ &&& 7 = _ &&& 7
  rw [low,low]
  change (2 ^ 32 - 8 + x.toNat) % 2 ^ 32 % 8 = x.toNat % 8
  omega

theorem addi4spnLayout (rd nzuimm : Word) : addi4spnWord rd nzuimm =
    0b000#3 ++ (nzuimm.extractLsb' 4 2 ++ (nzuimm.extractLsb' 6 4 ++ (nzuimm.extractLsb' 2 1 ++
      (nzuimm.extractLsb' 3 1 ++ (rd.extractLsb' 0 3 ++ 0b00#2))))) := by
  apply BitVec.eq_of_getLsbD_eq
  intro i inside
  unfold addi4spnWord
  rw [lowThree]
  interval_cases i <;>
    simp only [BitVec.getLsbD_append,BitVec.getLsbD_or,BitVec.getLsbD_shiftLeft,BitVec.getLsbD_and,BitVec.getLsbD_setWidth,
      BitVec.getLsbD_ushiftRight,BitVec.getLsbD_extractLsb'] <;> simp

theorem offsetLayout (funct3 : BitVec 3) (data rs1 offset : Word) : offsetWord (funct3.setWidth 16) data rs1 offset =
    funct3 ++ (offset.extractLsb' 3 3 ++ (rs1.extractLsb' 0 3 ++ (offset.extractLsb' 2 1 ++
      (offset.extractLsb' 6 1 ++ (data.extractLsb' 0 3 ++ 0b00#2))))) := by
  apply BitVec.eq_of_getLsbD_eq
  intro i inside
  unfold offsetWord
  rw [lowThree,lowThree]
  interval_cases i <;>
    simp only [BitVec.getLsbD_append,BitVec.getLsbD_or,BitVec.getLsbD_shiftLeft,BitVec.getLsbD_and,BitVec.getLsbD_setWidth,
      BitVec.getLsbD_ushiftRight,BitVec.getLsbD_extractLsb'] <;> simp

theorem immediateLayout (funct3 : BitVec 3) (rd imm : Word) : immediateWord (funct3.setWidth 16) rd imm =
    funct3 ++ (imm.extractLsb' 5 1 ++ (rd.extractLsb' 0 5 ++ (imm.extractLsb' 0 5 ++ 0b01#2))) := by
  apply BitVec.eq_of_getLsbD_eq
  intro i inside
  unfold immediateWord
  interval_cases i <;>
    simp only [BitVec.getLsbD_append,BitVec.getLsbD_or,BitVec.getLsbD_shiftLeft,BitVec.getLsbD_and,BitVec.getLsbD_setWidth,
      BitVec.getLsbD_ushiftRight,BitVec.getLsbD_extractLsb'] <;> simp

theorem jumpLayout (funct3 : BitVec 3) (offset : Word) : jumpWord (funct3.setWidth 16) offset =
    funct3 ++ (offset.extractLsb' 11 1 ++ (offset.extractLsb' 4 1 ++ (offset.extractLsb' 8 2 ++
      (offset.extractLsb' 10 1 ++ (offset.extractLsb' 6 1 ++ (offset.extractLsb' 7 1 ++
      (offset.extractLsb' 1 3 ++ (offset.extractLsb' 5 1 ++ 0b01#2)))))))) := by
  apply BitVec.eq_of_getLsbD_eq
  intro i inside
  unfold jumpWord
  interval_cases i <;>
    simp only [BitVec.getLsbD_append,BitVec.getLsbD_or,BitVec.getLsbD_shiftLeft,BitVec.getLsbD_and,BitVec.getLsbD_setWidth,
      BitVec.getLsbD_ushiftRight,BitVec.getLsbD_extractLsb'] <;> simp

theorem addi16spLayout (nzimm : Word) : addi16spWord nzimm =
    0b011#3 ++ (nzimm.extractLsb' 9 1 ++ (2#5 ++ (nzimm.extractLsb' 4 1 ++ (nzimm.extractLsb' 6 1 ++
      (nzimm.extractLsb' 7 2 ++ (nzimm.extractLsb' 5 1 ++ 0b01#2)))))) := by
  apply BitVec.eq_of_getLsbD_eq
  intro i inside
  unfold addi16spWord
  interval_cases i <;>
    simp only [BitVec.getLsbD_append,BitVec.getLsbD_or,BitVec.getLsbD_shiftLeft,BitVec.getLsbD_and,BitVec.getLsbD_setWidth,
      BitVec.getLsbD_ushiftRight,BitVec.getLsbD_extractLsb'] <;> simp

theorem luiLayout (rd nzimmField : Word) : luiWord rd nzimmField =
    0b011#3 ++ (nzimmField.extractLsb' 5 1 ++ (rd.extractLsb' 0 5 ++ (nzimmField.extractLsb' 0 5 ++ 0b01#2))) := by
  apply BitVec.eq_of_getLsbD_eq
  intro i inside
  unfold luiWord
  interval_cases i <;>
    simp only [BitVec.getLsbD_append,BitVec.getLsbD_or,BitVec.getLsbD_shiftLeft,BitVec.getLsbD_and,BitVec.getLsbD_setWidth,
      BitVec.getLsbD_ushiftRight,BitVec.getLsbD_extractLsb'] <;> simp

theorem shiftLayout (funct2 : BitVec 2) (rd shamt : Word) : shiftWord (funct2.setWidth 16) rd shamt =
    0b100#3 ++ (0#1 ++ (funct2 ++ (rd.extractLsb' 0 3 ++ (shamt.extractLsb' 0 5 ++ 0b01#2)))) := by
  apply BitVec.eq_of_getLsbD_eq
  intro i inside
  unfold shiftWord
  rw [lowThree]
  interval_cases i <;>
    simp only [BitVec.getLsbD_append,BitVec.getLsbD_or,BitVec.getLsbD_shiftLeft,BitVec.getLsbD_and,BitVec.getLsbD_setWidth,
      BitVec.getLsbD_extractLsb'] <;> simp

theorem andiLayout (rd imm : Word) : andiWord rd imm =
    0b100#3 ++ (imm.extractLsb' 5 1 ++ (0b10#2 ++ (rd.extractLsb' 0 3 ++ (imm.extractLsb' 0 5 ++ 0b01#2)))) := by
  apply BitVec.eq_of_getLsbD_eq
  intro i inside
  unfold andiWord
  rw [lowThree]
  interval_cases i <;>
    simp only [BitVec.getLsbD_append,BitVec.getLsbD_or,BitVec.getLsbD_shiftLeft,BitVec.getLsbD_and,BitVec.getLsbD_setWidth,
      BitVec.getLsbD_ushiftRight,BitVec.getLsbD_extractLsb'] <;> simp

theorem rtypeLayout (rd rs2 : Word) (funct2Ca : BitVec 2) : rtypeWord rd rs2 (funct2Ca.setWidth 16) =
    0b100#3 ++ (0#1 ++ (0b11#2 ++ (rd.extractLsb' 0 3 ++ (funct2Ca ++ (rs2.extractLsb' 0 3 ++ 0b01#2))))) := by
  apply BitVec.eq_of_getLsbD_eq
  intro i inside
  unfold rtypeWord
  rw [lowThree,lowThree]
  interval_cases i <;>
    simp only [BitVec.getLsbD_append,BitVec.getLsbD_or,BitVec.getLsbD_shiftLeft,BitVec.getLsbD_and,BitVec.getLsbD_setWidth,
      BitVec.getLsbD_extractLsb'] <;> simp

theorem branchLayout (funct3 : BitVec 3) (rs1 offset : Word) : branchWord (funct3.setWidth 16) rs1 offset =
    funct3 ++ (offset.extractLsb' 8 1 ++ (offset.extractLsb' 3 2 ++ (rs1.extractLsb' 0 3 ++
      (offset.extractLsb' 6 2 ++ (offset.extractLsb' 1 2 ++ (offset.extractLsb' 5 1 ++ 0b01#2)))))) := by
  apply BitVec.eq_of_getLsbD_eq
  intro i inside
  unfold branchWord
  rw [lowThree]
  interval_cases i <;>
    simp only [BitVec.getLsbD_append,BitVec.getLsbD_or,BitVec.getLsbD_shiftLeft,BitVec.getLsbD_and,BitVec.getLsbD_setWidth,
      BitVec.getLsbD_ushiftRight,BitVec.getLsbD_extractLsb'] <;> simp

theorem twoFieldsLayout (high : BitVec 4) (rd low : Word) : twoFieldsWord (high.setWidth 16 <<< 12) rd low =
    high ++ (rd.extractLsb' 0 5 ++ (low.extractLsb' 0 5 ++ 0b10#2)) := by
  apply BitVec.eq_of_getLsbD_eq
  intro i inside
  unfold twoFieldsWord
  interval_cases i <;>
    simp only [BitVec.getLsbD_append,BitVec.getLsbD_or,BitVec.getLsbD_shiftLeft,BitVec.getLsbD_and,BitVec.getLsbD_setWidth,
      BitVec.getLsbD_extractLsb'] <;> simp

theorem stackLoadLayout (funct3 : BitVec 3) (rd offset : Word) : stackLoadWord (funct3.setWidth 16) rd offset =
    funct3 ++ (offset.extractLsb' 5 1 ++ (rd.extractLsb' 0 5 ++ (offset.extractLsb' 2 3 ++
      (offset.extractLsb' 6 2 ++ 0b10#2)))) := by
  apply BitVec.eq_of_getLsbD_eq
  intro i inside
  unfold stackLoadWord
  interval_cases i <;>
    simp only [BitVec.getLsbD_append,BitVec.getLsbD_or,BitVec.getLsbD_shiftLeft,BitVec.getLsbD_and,BitVec.getLsbD_setWidth,
      BitVec.getLsbD_ushiftRight,BitVec.getLsbD_extractLsb'] <;> simp

theorem stackStoreLayout (funct3 : BitVec 3) (rs2 offset : Word) : stackStoreWord (funct3.setWidth 16) rs2 offset =
    funct3 ++ (offset.extractLsb' 2 4 ++ (offset.extractLsb' 6 2 ++ (rs2.extractLsb' 0 5 ++ 0b10#2))) := by
  apply BitVec.eq_of_getLsbD_eq
  intro i inside
  unfold stackStoreWord
  interval_cases i <;>
    simp only [BitVec.getLsbD_append,BitVec.getLsbD_or,BitVec.getLsbD_shiftLeft,BitVec.getLsbD_and,BitVec.getLsbD_setWidth,
      BitVec.getLsbD_ushiftRight,BitVec.getLsbD_extractLsb'] <;> simp

end layouts

end RiscvSoc.Compressed
