import RiscvSoc.Isa.Disasm

/-! The fields and the immediates that the disassembler reads, as slices of the word, and each format of the encoders
taken apart again. -/
namespace RiscvSoc.Disasm
open Instruction BitFields

section slices
variable (w : Word)

theorem byteField (k m : Nat) : (w >>> k &&& BitVec.ofNat 32 (2 ^ m - 1)).setWidth 8 = (w.extractLsb' k m).setWidth 8 := by
  rw [maskField,BitVec.setWidth_setWidth_of_le _ (show 8 ≤ 32 by decide)]

theorem opcodeField : w &&& 0x7F#32 = (w.extractLsb' 0 7).setWidth 32 := maskLow w 7
theorem rdField : (w >>> 7 &&& 0x1F#32).setWidth 8 = (w.extractLsb' 7 5).setWidth 8 := byteField w 7 5
theorem funct3Field : (w >>> 12 &&& 0x7#32).setWidth 8 = (w.extractLsb' 12 3).setWidth 8 := byteField w 12 3
theorem rs1Field : (w >>> 15 &&& 0x1F#32).setWidth 8 = (w.extractLsb' 15 5).setWidth 8 := byteField w 15 5
theorem rs2Field : (w >>> 20 &&& 0x1F#32).setWidth 8 = (w.extractLsb' 20 5).setWidth 8 := byteField w 20 5
theorem funct7Field : (w >>> 25 &&& 0x7F#32).setWidth 8 = (w.extractLsb' 25 7).setWidth 8 := byteField w 25 7

theorem immI : getImmI w = (w.extractLsb' 20 12).signExtend 32 := by
  have field : w >>> 20 &&& 0xFFF#32 = (w.extractLsb' 20 12).setWidth 32 := maskField w 20 12
  unfold getImmI
  rw [field]
  exact signTest (m := 11) (n := 32) _ (by decide)

theorem immS : getImmS w = (w.extractLsb' 25 7 ++ w.extractLsb' 7 5).signExtend 32 := by
  have high : w >>> 25 &&& 0x7F#32 = (w.extractLsb' 25 7).setWidth 32 := maskField w 25 7
  have low : w >>> 7 &&& 0x1F#32 = (w.extractLsb' 7 5).setWidth 32 := maskField w 7 5
  unfold getImmS
  simp only [high,low,← BitVec.setWidth_append_eq_shiftLeft_setWidth_or]
  exact signTest (m := 11) (n := 32) _ (by decide)

theorem immB : getImmB w =
    (w.extractLsb' 31 1 ++ (w.extractLsb' 7 1 ++ (w.extractLsb' 25 6 ++ (w.extractLsb' 8 4 ++ 0#1)))).signExtend 32 := by
  have imm12 : w >>> 31 &&& 0x1#32 = (w.extractLsb' 31 1).setWidth 32 := maskField w 31 1
  have imm10to5 : w >>> 25 &&& 0x3F#32 = (w.extractLsb' 25 6).setWidth 32 := maskField w 25 6
  have imm4to1 : w >>> 8 &&& 0xF#32 = (w.extractLsb' 8 4).setWidth 32 := maskField w 8 4
  have imm11 : w >>> 7 &&& 0x1#32 = (w.extractLsb' 7 1).setWidth 32 := maskField w 7 1
  have even (x : Word) : x <<< 1 = x <<< 1 ||| (0#1).setWidth 32 := by simp
  have whole : (w >>> 31 &&& 0x1#32) <<< 12 ||| (w >>> 7 &&& 0x1#32) <<< 11 ||| (w >>> 25 &&& 0x3F#32) <<< 5 |||
      (w >>> 8 &&& 0xF#32) <<< 1 =
        (w.extractLsb' 31 1 ++ (w.extractLsb' 7 1 ++ (w.extractLsb' 25 6 ++ (w.extractLsb' 8 4 ++ 0#1)))).setWidth 32 := by
    rw [imm12,imm10to5,imm4to1,imm11,even,BitVec.or_assoc,BitVec.or_assoc]
    simp only [← BitVec.setWidth_append_eq_shiftLeft_setWidth_or]
  unfold getImmB
  simp only [whole]
  exact signTest (m := 12) (n := 32) _ (by decide)

theorem immU : getImmU w >>> 12 = (w.extractLsb' 12 20).setWidth 32 := by
  unfold getImmU
  rw [BitVec.ushiftRight_and_distrib]
  exact maskField w 12 20

theorem immJ : getImmJ w =
    (w.extractLsb' 31 1 ++ (w.extractLsb' 12 8 ++ (w.extractLsb' 20 1 ++ (w.extractLsb' 21 10 ++ 0#1)))).signExtend 32 := by
  have imm20 : w >>> 31 &&& 0x1#32 = (w.extractLsb' 31 1).setWidth 32 := maskField w 31 1
  have imm10to1 : w >>> 21 &&& 0x3FF#32 = (w.extractLsb' 21 10).setWidth 32 := maskField w 21 10
  have imm11 : w >>> 20 &&& 0x1#32 = (w.extractLsb' 20 1).setWidth 32 := maskField w 20 1
  have imm19to12 : w >>> 12 &&& 0xFF#32 = (w.extractLsb' 12 8).setWidth 32 := maskField w 12 8
  have even (x : Word) : x <<< 1 = x <<< 1 ||| (0#1).setWidth 32 := by simp
  have whole : (w >>> 31 &&& 0x1#32) <<< 20 ||| (w >>> 12 &&& 0xFF#32) <<< 12 ||| (w >>> 20 &&& 0x1#32) <<< 11 |||
      (w >>> 21 &&& 0x3FF#32) <<< 1 =
        (w.extractLsb' 31 1 ++ (w.extractLsb' 12 8 ++ (w.extractLsb' 20 1 ++ (w.extractLsb' 21 10 ++ 0#1)))).setWidth 32 := by
    rw [imm20,imm10to1,imm11,imm19to12,even,BitVec.or_assoc,BitVec.or_assoc]
    simp only [← BitVec.setWidth_append_eq_shiftLeft_setWidth_or]
  unfold getImmJ
  simp only [whole]
  exact signTest (m := 20) (n := 32) _ (by decide)

end slices

section formats
variable (opcode : BitVec 7) (rd rs1 rs2 : BitVec 5) (f3 : BitVec 3)

theorem rTypeSlices (f7 : BitVec 7) (w : BitVec (7 + (5 + (5 + (3 + (5 + 7))))))
    (word : w = f7 ++ (rs2 ++ (rs1 ++ (f3 ++ (rd ++ opcode))))) :
    w.extractLsb' 0 7 = opcode ∧ w.extractLsb' 7 5 = rd ∧ w.extractLsb' 12 3 = f3 ∧
      w.extractLsb' 15 5 = rs1 ∧ w.extractLsb' 20 5 = rs2 ∧ w.extractLsb' 25 7 = f7 := by
  subst word
  simp (disch := decide) only [BitVec.extractLsb'_append_eq_of_le,BitVec.extractLsb'_append_eq_of_add_le,
    BitVec.extractLsb'_eq_self]
  simp

theorem iTypeSlices (imm : BitVec 12) (w : BitVec (12 + (5 + (3 + (5 + 7)))))
    (word : w = imm ++ (rs1 ++ (f3 ++ (rd ++ opcode)))) :
    w.extractLsb' 0 7 = opcode ∧ w.extractLsb' 7 5 = rd ∧ w.extractLsb' 12 3 = f3 ∧
      w.extractLsb' 15 5 = rs1 ∧ w.extractLsb' 20 12 = imm := by
  subst word
  simp (disch := decide) only [BitVec.extractLsb'_append_eq_of_le,BitVec.extractLsb'_append_eq_of_add_le,
    BitVec.extractLsb'_eq_self]
  simp

theorem uTypeSlices (imm : BitVec 20) (w : BitVec (20 + (5 + 7)))
    (word : w = imm ++ (rd ++ opcode)) :
    w.extractLsb' 0 7 = opcode ∧ w.extractLsb' 7 5 = rd ∧ w.extractLsb' 12 20 = imm := by
  subst word
  simp (disch := decide) only [BitVec.extractLsb'_append_eq_of_le,BitVec.extractLsb'_append_eq_of_add_le,
    BitVec.extractLsb'_eq_self]
  simp

theorem bTypeSlices (imm12 imm11 : BitVec 1) (imm10to5 : BitVec 6) (imm4to1 : BitVec 4)
    (w : BitVec (1 + (6 + (5 + (5 + (3 + (4 + (1 + 7))))))))
    (word : w = imm12 ++ (imm10to5 ++ (rs2 ++ (rs1 ++ (f3 ++ (imm4to1 ++ (imm11 ++ opcode))))))) :
    w.extractLsb' 0 7 = opcode ∧ w.extractLsb' 12 3 = f3 ∧ w.extractLsb' 15 5 = rs1 ∧
      w.extractLsb' 20 5 = rs2 ∧ w.extractLsb' 31 1 = imm12 ∧ w.extractLsb' 7 1 = imm11 ∧
      w.extractLsb' 25 6 = imm10to5 ∧ w.extractLsb' 8 4 = imm4to1 := by
  subst word
  simp (disch := decide) only [BitVec.extractLsb'_append_eq_of_le,BitVec.extractLsb'_append_eq_of_add_le,
    BitVec.extractLsb'_eq_self]
  simp

theorem jTypeSlices (imm20 imm11 : BitVec 1) (imm10to1 : BitVec 10) (imm19to12 : BitVec 8)
    (w : BitVec (1 + (10 + (1 + (8 + (5 + 7))))))
    (word : w = imm20 ++ (imm10to1 ++ (imm11 ++ (imm19to12 ++ (rd ++ opcode))))) :
    w.extractLsb' 0 7 = opcode ∧ w.extractLsb' 7 5 = rd ∧ w.extractLsb' 31 1 = imm20 ∧
      w.extractLsb' 12 8 = imm19to12 ∧ w.extractLsb' 20 1 = imm11 ∧ w.extractLsb' 21 10 = imm10to1 := by
  subst word
  simp (disch := decide) only [BitVec.extractLsb'_append_eq_of_le,BitVec.extractLsb'_append_eq_of_add_le,
    BitVec.extractLsb'_eq_self]
  simp

theorem atomicSlices (funct5 : BitVec 5) (aq rl : BitVec 1) (w : BitVec (5 + (1 + (1 + (5 + (5 + (3 + (5 + 7))))))))
    (word : w = funct5 ++ (aq ++ (rl ++ (rs2 ++ (rs1 ++ (f3 ++ (rd ++ opcode))))))) :
    w.extractLsb' 0 7 = opcode ∧ w.extractLsb' 7 5 = rd ∧ w.extractLsb' 12 3 = f3 ∧
      w.extractLsb' 15 5 = rs1 ∧ w.extractLsb' 20 5 = rs2 ∧ w.extractLsb' 27 5 = funct5 ∧
      w.extractLsb' 26 1 = aq ∧ w.extractLsb' 25 1 = rl := by
  subst word
  simp (disch := decide) only [BitVec.extractLsb'_append_eq_of_le,BitVec.extractLsb'_append_eq_of_add_le,
    BitVec.extractLsb'_eq_self]
  simp

end formats

section shown
variable (v1 v2 vd : Word) {rd rs1 rs2 : BitVec 5} {f3 : BitVec 3} {w : Word}

theorem rTypeShown {f7 : BitVec 7} (word : w = f7 ++ (rs2 ++ (rs1 ++ (f3 ++ (rd ++ 0b0110011#7))))) :
    disassembleWithAllValues w v1 v2 vd =
      disassembleRType (rd.setWidth 8) (f3.setWidth 8) (rs1.setWidth 8) (rs2.setWidth 8) (f7.setWidth 8) v1 v2 vd := by
  obtain ⟨hop,hrd,hf3,hrs1,hrs2,hf7⟩ := rTypeSlices _ rd rs1 rs2 f3 f7 w word
  unfold disassembleWithAllValues
  simp only [opcodeField w,rdField w,funct3Field w,rs1Field w,rs2Field w,funct7Field w,hop,hrd,hf3,hrs1,hrs2,hf7]
  rfl

theorem aluShown {imm : BitVec 12} (word : w = imm ++ (rs1 ++ (f3 ++ (rd ++ 0b0010011#7)))) :
    disassembleWithAllValues w v1 v2 vd =
      disassembleITypeAlu w (rd.setWidth 8) (f3.setWidth 8) (rs1.setWidth 8) v1 vd := by
  obtain ⟨hop,hrd,hf3,hrs1,_⟩ := iTypeSlices _ rd rs1 f3 imm w word
  unfold disassembleWithAllValues
  simp only [opcodeField w,rdField w,funct3Field w,rs1Field w,hop,hrd,hf3,hrs1]
  rfl

theorem loadShown {imm : BitVec 12} (word : w = imm ++ (rs1 ++ (f3 ++ (rd ++ 0b0000011#7)))) :
    disassembleWithAllValues w v1 v2 vd =
      disassembleLoad (rd.setWidth 8) (f3.setWidth 8) (rs1.setWidth 8) (imm.signExtend 32) v1 vd := by
  obtain ⟨hop,hrd,hf3,hrs1,himm⟩ := iTypeSlices _ rd rs1 f3 imm w word
  unfold disassembleWithAllValues
  simp only [opcodeField w,rdField w,funct3Field w,rs1Field w,immI w,hop,hrd,hf3,hrs1,himm]
  rfl

theorem jalrShown {imm : BitVec 12} (word : w = imm ++ (rs1 ++ (f3 ++ (rd ++ 0b1100111#7)))) :
    disassembleWithAllValues w v1 v2 vd = "jalr " ++ reg (rd.setWidth 8) vd ++ ", " ++ signed (imm.signExtend 32) ++ "(" ++
      reg (rs1.setWidth 8) v1 ++ ")" := by
  obtain ⟨hop,hrd,_,hrs1,himm⟩ := iTypeSlices _ rd rs1 f3 imm w word
  unfold disassembleWithAllValues
  simp only [opcodeField w,rdField w,rs1Field w,immI w,hop,hrd,hrs1,himm]
  rfl

theorem systemShown {imm : BitVec 12} (word : w = imm ++ (rs1 ++ (f3 ++ (rd ++ 0b1110011#7)))) :
    disassembleWithAllValues w v1 v2 vd =
      disassembleSystem w (rd.setWidth 8) (f3.setWidth 8) (rs1.setWidth 8) v1 vd := by
  obtain ⟨hop,hrd,hf3,hrs1,_⟩ := iTypeSlices _ rd rs1 f3 imm w word
  unfold disassembleWithAllValues
  simp only [opcodeField w,rdField w,funct3Field w,rs1Field w,hop,hrd,hf3,hrs1]
  rfl

theorem luiShown {imm : BitVec 20} (word : w = imm ++ (rd ++ 0b0110111#7)) :
    disassembleWithAllValues w v1 v2 vd = "lui " ++ reg (rd.setWidth 8) vd ++ ", 0x" ++ hex (imm.setWidth 32) := by
  obtain ⟨hop,hrd,himm⟩ := uTypeSlices _ rd imm w word
  unfold disassembleWithAllValues
  simp only [opcodeField w,rdField w,immU w,hop,hrd,himm]
  rfl

theorem auipcShown {imm : BitVec 20} (word : w = imm ++ (rd ++ 0b0010111#7)) :
    disassembleWithAllValues w v1 v2 vd = "auipc " ++ reg (rd.setWidth 8) vd ++ ", 0x" ++ hex (imm.setWidth 32) := by
  obtain ⟨hop,hrd,himm⟩ := uTypeSlices _ rd imm w word
  unfold disassembleWithAllValues
  simp only [opcodeField w,rdField w,immU w,hop,hrd,himm]
  rfl

theorem storeShown {high : BitVec 7} {low : BitVec 5} (word : w = high ++ (rs2 ++ (rs1 ++ (f3 ++ (low ++ 0b0100011#7))))) :
    disassembleWithAllValues w v1 v2 vd =
      disassembleStore (f3.setWidth 8) (rs1.setWidth 8) (rs2.setWidth 8) ((high ++ low).signExtend 32) v1 v2 := by
  obtain ⟨hop,hlow,hf3,hrs1,hrs2,hhigh⟩ := rTypeSlices _ low rs1 rs2 f3 high w word
  unfold disassembleWithAllValues
  simp only [opcodeField w,funct3Field w,rs1Field w,rs2Field w,immS w,hop,hlow,hf3,hrs1,hrs2,hhigh]
  rfl

theorem branchShown {imm12 imm11 : BitVec 1} {imm10to5 : BitVec 6} {imm4to1 : BitVec 4}
    (word : w = imm12 ++ (imm10to5 ++ (rs2 ++ (rs1 ++ (f3 ++ (imm4to1 ++ (imm11 ++ 0b1100011#7))))))) :
    disassembleWithAllValues w v1 v2 vd = disassembleBranch (f3.setWidth 8) (rs1.setWidth 8) (rs2.setWidth 8)
      ((imm12 ++ (imm11 ++ (imm10to5 ++ (imm4to1 ++ 0#1)))).signExtend 32) v1 v2 := by
  obtain ⟨hop,hf3,hrs1,hrs2,h12,h11,h10,h4⟩ := bTypeSlices _ rs1 rs2 f3 imm12 imm11 imm10to5 imm4to1 w word
  unfold disassembleWithAllValues
  simp only [opcodeField w,funct3Field w,rs1Field w,rs2Field w,immB w,hop,hf3,hrs1,hrs2,h12,h11,h10,h4]
  rfl

theorem jalShown {imm20 imm11 : BitVec 1} {imm10to1 : BitVec 10} {imm19to12 : BitVec 8}
    (word : w = imm20 ++ (imm10to1 ++ (imm11 ++ (imm19to12 ++ (rd ++ 0b1101111#7))))) :
    disassembleWithAllValues w v1 v2 vd = "jal " ++ reg (rd.setWidth 8) vd ++ ", " ++
      signed ((imm20 ++ (imm19to12 ++ (imm11 ++ (imm10to1 ++ 0#1)))).signExtend 32) := by
  obtain ⟨hop,hrd,h20,h19,h11,h10⟩ := jTypeSlices _ rd imm20 imm11 imm10to1 imm19to12 w word
  unfold disassembleWithAllValues
  simp only [opcodeField w,rdField w,immJ w,hop,hrd,h20,h19,h11,h10]
  rfl

theorem atomicShown {funct5 : BitVec 5} {aq rl : BitVec 1}
    (word : w = funct5 ++ (aq ++ (rl ++ (rs2 ++ (rs1 ++ (0b010#3 ++ (rd ++ 0b0101111#7))))))) :
    disassembleWithAllValues w v1 v2 vd =
      let order := ordering (aq.setWidth 32) (rl.setWidth 32)
      if funct5.setWidth 32 = 0b00010#32 then
        "lr.w" ++ order ++ " " ++ reg (rd.setWidth 8) vd ++ ", (" ++ reg (rs1.setWidth 8) v1 ++ ")"
      else match atomicMnemonic (funct5.setWidth 32) with
        | none => "unknown atomic funct5=" ++ toString (funct5.setWidth 32).toNat
        | some mnemonic => mnemonic ++ order ++ " " ++ reg (rd.setWidth 8) vd ++ ", " ++ reg (rs2.setWidth 8) v2 ++ ", (" ++
          reg (rs1.setWidth 8) v1 ++ ")" := by
  obtain ⟨hop,hrd,hf3,hrs1,hrs2,hfunct5,haq,hrl⟩ := atomicSlices _ rd rs1 rs2 _ funct5 aq rl w word
  have funct5Field : w >>> 27 &&& 0x1F#32 = (w.extractLsb' 27 5).setWidth 32 := maskField w 27 5
  have aqField : w >>> 26 &&& 0x1#32 = (w.extractLsb' 26 1).setWidth 32 := maskField w 26 1
  have rlField : w >>> 25 &&& 0x1#32 = (w.extractLsb' 25 1).setWidth 32 := maskField w 25 1
  unfold disassembleWithAllValues disassembleAtomic
  simp only [opcodeField w,rdField w,funct3Field w,rs1Field w,rs2Field w,funct5Field,aqField,rlField,hop,hrd,hf3,hrs1,hrs2,
    hfunct5,haq,hrl]
  rfl

theorem unknownShown {opcode : Word} (low : w &&& 0x7F#32 = opcode)
    (unknown : opcode ∈ [0x07#32,0x27#32,0x43#32,0x47#32,0x4B#32,0x4F#32,0x53#32]) :
    disassembleWithAllValues w v1 v2 vd = "unknown opcode 0x" ++ hex2 opcode := by
  unfold disassembleWithAllValues
  simp only [List.mem_cons,List.not_mem_nil,or_false] at unknown
  rcases unknown with rfl | rfl | rfl | rfl | rfl | rfl | rfl <;> simp only [low] <;> rfl

end shown

end RiscvSoc.Disasm
