import RiscvSoc.Isa.Compressed
import RiscvSoc.Rtl.Cpu.FetchBuffer

/-! The words of the 16-bit encoders through `decompress.sv`: each is expanded to the word of the uncompressed encoder. -/
namespace RiscvSoc.Compressed
open Instruction BitFields Decompress

section slices

theorem addi4spnSlices (f3 : BitVec 3) (five : BitVec 2) (nine : BitVec 4) (two three : BitVec 1) (rd : BitVec 3)
    (q : BitVec 2) (w : BitVec (3 + (2 + (4 + (1 + (1 + (3 + 2)))))))
    (word : w = f3 ++ (five ++ (nine ++ (two ++ (three ++ (rd ++ q)))))) :
    w.extractLsb' 0 2 = q ∧ w.extractLsb' 2 3 = rd ∧ w.extractLsb' 5 1 = three ∧ w.extractLsb' 6 1 = two ∧
      w.extractLsb' 7 4 = nine ∧ w.extractLsb' 11 2 = five ∧ w.extractLsb' 13 3 = f3 := by
  subst word
  simp (disch := decide) only [BitVec.extractLsb'_append_eq_of_le,BitVec.extractLsb'_append_eq_of_add_le,
    BitVec.extractLsb'_eq_self]
  simp

theorem offsetSlices (f3 five rs1 : BitVec 3) (two six : BitVec 1) (data : BitVec 3) (q : BitVec 2)
    (w : BitVec (3 + (3 + (3 + (1 + (1 + (3 + 2)))))))
    (word : w = f3 ++ (five ++ (rs1 ++ (two ++ (six ++ (data ++ q)))))) :
    w.extractLsb' 0 2 = q ∧ w.extractLsb' 2 3 = data ∧ w.extractLsb' 5 1 = six ∧ w.extractLsb' 6 1 = two ∧
      w.extractLsb' 7 3 = rs1 ∧ w.extractLsb' 10 3 = five ∧ w.extractLsb' 13 3 = f3 := by
  subst word
  simp (disch := decide) only [BitVec.extractLsb'_append_eq_of_le,BitVec.extractLsb'_append_eq_of_add_le,
    BitVec.extractLsb'_eq_self]
  simp

theorem immediateSlices (f3 : BitVec 3) (top : BitVec 1) (rd low : BitVec 5) (q : BitVec 2)
    (w : BitVec (3 + (1 + (5 + (5 + 2))))) (word : w = f3 ++ (top ++ (rd ++ (low ++ q)))) :
    w.extractLsb' 0 2 = q ∧ w.extractLsb' 2 5 = low ∧ w.extractLsb' 7 5 = rd ∧ w.extractLsb' 12 1 = top ∧
      w.extractLsb' 13 3 = f3 := by
  subst word
  simp (disch := decide) only [BitVec.extractLsb'_append_eq_of_le,BitVec.extractLsb'_append_eq_of_add_le,
    BitVec.extractLsb'_eq_self]
  simp

theorem jumpSlices (f3 : BitVec 3) (b11 b4 : BitVec 1) (b8 : BitVec 2) (b10 b6 b7 : BitVec 1) (b1 : BitVec 3)
    (b5 : BitVec 1) (q : BitVec 2)
    (w : BitVec (3 + (1 + (1 + (2 + (1 + (1 + (1 + (3 + (1 + 2))))))))))
    (word : w = f3 ++ (b11 ++ (b4 ++ (b8 ++ (b10 ++ (b6 ++ (b7 ++ (b1 ++ (b5 ++ q))))))))) :
    w.extractLsb' 0 2 = q ∧ w.extractLsb' 2 1 = b5 ∧ w.extractLsb' 3 3 = b1 ∧ w.extractLsb' 6 1 = b7 ∧
      w.extractLsb' 7 1 = b6 ∧ w.extractLsb' 8 1 = b10 ∧ w.extractLsb' 9 2 = b8 ∧ w.extractLsb' 11 1 = b4 ∧
      w.extractLsb' 12 1 = b11 ∧ w.extractLsb' 13 3 = f3 := by
  subst word
  simp (disch := decide) only [BitVec.extractLsb'_append_eq_of_le,BitVec.extractLsb'_append_eq_of_add_le,
    BitVec.extractLsb'_eq_self]
  simp

theorem addi16spSlices (f3 : BitVec 3) (b9 : BitVec 1) (sp : BitVec 5) (b4 b6 : BitVec 1) (b7 : BitVec 2)
    (b5 : BitVec 1) (q : BitVec 2)
    (w : BitVec (3 + (1 + (5 + (1 + (1 + (2 + (1 + 2))))))))
    (word : w = f3 ++ (b9 ++ (sp ++ (b4 ++ (b6 ++ (b7 ++ (b5 ++ q))))))) :
    w.extractLsb' 0 2 = q ∧ w.extractLsb' 2 1 = b5 ∧ w.extractLsb' 3 2 = b7 ∧ w.extractLsb' 5 1 = b6 ∧
      w.extractLsb' 6 1 = b4 ∧ w.extractLsb' 7 5 = sp ∧ w.extractLsb' 12 1 = b9 ∧ w.extractLsb' 13 3 = f3 := by
  subst word
  simp (disch := decide) only [BitVec.extractLsb'_append_eq_of_le,BitVec.extractLsb'_append_eq_of_add_le,
    BitVec.extractLsb'_eq_self]
  simp

theorem arithmeticSlices (f3 : BitVec 3) (top : BitVec 1) (f2 : BitVec 2) (rd : BitVec 3) (low : BitVec 5) (q : BitVec 2)
    (w : BitVec (3 + (1 + (2 + (3 + (5 + 2)))))) (word : w = f3 ++ (top ++ (f2 ++ (rd ++ (low ++ q))))) :
    w.extractLsb' 0 2 = q ∧ w.extractLsb' 2 5 = low ∧ w.extractLsb' 7 3 = rd ∧ w.extractLsb' 10 2 = f2 ∧
      w.extractLsb' 12 1 = top ∧ w.extractLsb' 13 3 = f3 := by
  subst word
  simp (disch := decide) only [BitVec.extractLsb'_append_eq_of_le,BitVec.extractLsb'_append_eq_of_add_le,
    BitVec.extractLsb'_eq_self]
  simp

theorem rtypeSlices (f3 : BitVec 3) (top : BitVec 1) (f2 : BitVec 2) (rd : BitVec 3) (ca : BitVec 2) (rs2 : BitVec 3)
    (q : BitVec 2) (w : BitVec (3 + (1 + (2 + (3 + (2 + (3 + 2)))))))
    (word : w = f3 ++ (top ++ (f2 ++ (rd ++ (ca ++ (rs2 ++ q)))))) :
    w.extractLsb' 0 2 = q ∧ w.extractLsb' 2 3 = rs2 ∧ w.extractLsb' 5 2 = ca ∧ w.extractLsb' 7 3 = rd ∧
      w.extractLsb' 10 2 = f2 ∧ w.extractLsb' 12 1 = top ∧ w.extractLsb' 13 3 = f3 := by
  subst word
  simp (disch := decide) only [BitVec.extractLsb'_append_eq_of_le,BitVec.extractLsb'_append_eq_of_add_le,
    BitVec.extractLsb'_eq_self]
  simp

theorem branchSlices (f3 : BitVec 3) (b8 : BitVec 1) (b3 : BitVec 2) (rs1 : BitVec 3) (b6 b1 : BitVec 2)
    (b5 : BitVec 1) (q : BitVec 2)
    (w : BitVec (3 + (1 + (2 + (3 + (2 + (2 + (1 + 2))))))))
    (word : w = f3 ++ (b8 ++ (b3 ++ (rs1 ++ (b6 ++ (b1 ++ (b5 ++ q))))))) :
    w.extractLsb' 0 2 = q ∧ w.extractLsb' 2 1 = b5 ∧ w.extractLsb' 3 2 = b1 ∧ w.extractLsb' 5 2 = b6 ∧
      w.extractLsb' 7 3 = rs1 ∧ w.extractLsb' 10 2 = b3 ∧ w.extractLsb' 12 1 = b8 ∧ w.extractLsb' 13 3 = f3 := by
  subst word
  simp (disch := decide) only [BitVec.extractLsb'_append_eq_of_le,BitVec.extractLsb'_append_eq_of_add_le,
    BitVec.extractLsb'_eq_self]
  simp

theorem twoFieldsSlices (high : BitVec 4) (rd low : BitVec 5) (q : BitVec 2) (w : BitVec (4 + (5 + (5 + 2))))
    (word : w = high ++ (rd ++ (low ++ q))) :
    w.extractLsb' 0 2 = q ∧ w.extractLsb' 2 5 = low ∧ w.extractLsb' 7 5 = rd ∧
      w.extractLsb' 13 3 = high.extractLsb' 1 3 ∧ w.extractLsb' 12 1 = high.extractLsb' 0 1 := by
  subst word
  simp (disch := decide) only [BitVec.extractLsb'_append_eq_of_le,BitVec.extractLsb'_append_eq_of_add_le,
    BitVec.extractLsb'_eq_self]
  simp

theorem stackLoadSlices (f3 : BitVec 3) (b5 : BitVec 1) (rd : BitVec 5) (b2 : BitVec 3) (b6 q : BitVec 2)
    (w : BitVec (3 + (1 + (5 + (3 + (2 + 2)))))) (word : w = f3 ++ (b5 ++ (rd ++ (b2 ++ (b6 ++ q))))) :
    w.extractLsb' 0 2 = q ∧ w.extractLsb' 2 2 = b6 ∧ w.extractLsb' 4 3 = b2 ∧ w.extractLsb' 7 5 = rd ∧
      w.extractLsb' 12 1 = b5 ∧ w.extractLsb' 13 3 = f3 := by
  subst word
  simp (disch := decide) only [BitVec.extractLsb'_append_eq_of_le,BitVec.extractLsb'_append_eq_of_add_le,
    BitVec.extractLsb'_eq_self]
  simp

theorem stackStoreSlices (f3 : BitVec 3) (b2 : BitVec 4) (b6 : BitVec 2) (rs2 : BitVec 5) (q : BitVec 2)
    (w : BitVec (3 + (4 + (2 + (5 + 2))))) (word : w = f3 ++ (b2 ++ (b6 ++ (rs2 ++ q)))) :
    w.extractLsb' 0 2 = q ∧ w.extractLsb' 2 5 = rs2 ∧ w.extractLsb' 7 2 = b6 ∧ w.extractLsb' 9 4 = b2 ∧
      w.extractLsb' 13 3 = f3 := by
  subst word
  simp (disch := decide) only [BitVec.extractLsb'_append_eq_of_le,BitVec.extractLsb'_append_eq_of_add_le,
    BitVec.extractLsb'_eq_self]
  simp

end slices

section fields

theorem containsBits {r : Word} (inside : contains r = true) :
    (0b01#2 ++ r.extractLsb' 0 3 : BitVec 5).setWidth 32 = r := by
  simp only [contains,Bool.and_eq_true,decide_eq_true_eq] at inside
  apply BitVec.eq_of_toNat_eq
  rw [BitVec.toNat_setWidth,BitVec.toNat_append,BitVec.extractLsb'_toNat,Nat.shiftRight_zero]
  have small : r.toNat % 2 ^ 3 < 2 ^ 3 := Nat.mod_lt _ (by decide)
  rw [Nat.shiftLeft_eq,Nat.mul_comm,← Nat.two_pow_add_eq_or_of_lt small]
  change (2 ^ 3 * 1 + _) % 2 ^ 32 = _
  omega

theorem addi4spnField {nzuimm : Word} (multiple : nzuimm.toNat % 2 ^ 2 = 0) (small : nzuimm.toNat < 2 ^ 10) :
    (0#22 ++ (nzuimm.extractLsb' 6 4 ++ nzuimm.extractLsb' 4 2 ++
      nzuimm.extractLsb' 3 1 ++ nzuimm.extractLsb' 2 1 ++ 0b00#2) :
      BitVec 32) = nzuimm := by
  rw [← lowZero multiple,← highZero (k := 22) small]
  simp (disch := decide) only [BitVec.extractLsb'_append_extractLsb'_eq_extractLsb']
  exact BitVec.extractLsb'_eq_self

theorem offsetField {offset : Word} (multiple : offset.toNat % 2 ^ 2 = 0) (small : offset.toNat < 2 ^ 7) :
    (0#5 ++ (offset.extractLsb' 6 1 ++ offset.extractLsb' 3 3 ++ offset.extractLsb' 2 1 ++ 0b00#2) : BitVec 12) =
      offset.extractLsb' 0 12 := by
  rw [← lowZero multiple,← highZero (k := 5) small]
  simp (disch := decide) only [BitVec.extractLsb'_append_extractLsb'_eq_extractLsb']

theorem stackLoadField {offset : Word} (multiple : offset.toNat % 2 ^ 2 = 0) (small : offset.toNat < 2 ^ 8) :
    (0#4 ++ (offset.extractLsb' 6 2 ++ offset.extractLsb' 5 1 ++ offset.extractLsb' 2 3 ++ 0b00#2) : BitVec 12) =
      offset.extractLsb' 0 12 := by
  rw [← lowZero multiple,← highZero (k := 4) small]
  simp (disch := decide) only [BitVec.extractLsb'_append_extractLsb'_eq_extractLsb']

theorem stackStoreField {offset : Word} (multiple : offset.toNat % 2 ^ 2 = 0) (small : offset.toNat < 2 ^ 8) :
    (0#4 ++ (offset.extractLsb' 6 2 ++ offset.extractLsb' 2 4 ++ 0b00#2) : BitVec 12) = offset.extractLsb' 0 12 := by
  rw [← lowZero multiple,← highZero (k := 4) small]
  simp (disch := decide) only [BitVec.extractLsb'_append_extractLsb'_eq_extractLsb']

theorem shiftField {shamt : Word} (small : shamt.toNat < 2 ^ 5) :
    (0b0000000#7 ++ shamt.extractLsb' 0 5 : BitVec 12) = shamt.extractLsb' 0 12 ∧
    (0b0100000#7 ++ shamt.extractLsb' 0 5 : BitVec 12) = (shamt ||| 0x400#32).extractLsb' 0 12 := by
  have whole : (0b0000000#7 ++ shamt.extractLsb' 0 5 : BitVec 12) = shamt.extractLsb' 0 12 := by
    rw [← highZero (k := 7) small,BitVec.extractLsb'_append_extractLsb'_eq_extractLsb' (show 5 = 0 + 5 by rfl)]
  refine ⟨whole,?_⟩
  have flag : (0x400#32).extractLsb' 0 12 = 0b0100000#7 ++ 0#5 := by decide
  rw [BitVec.extractLsb'_or,← whole,flag,BitVec.or_append,BitVec.or_zero,BitVec.zero_or]

theorem storeHigh {k : Nat} {offset : Word} {field : BitVec (k + 5)} {n : Nat}
    (same : (0#n ++ field).setWidth 12 = offset.extractLsb' 0 12) :
    (0#n ++ field.extractLsb' 5 k).setWidth 7 = offset.extractLsb' 5 7 := by
  have whole := congrArg (fun x : BitVec 12 => x.extractLsb' 5 7) same
  simp only [sliceSlice offset 0 (show 5 + 7 ≤ 12 by decide)] at whole
  rw [← whole]
  apply BitVec.eq_of_getLsbD_eq
  intro i inside
  simp only [BitVec.getLsbD_setWidth,BitVec.getLsbD_append,BitVec.getLsbD_extractLsb']
  by_cases low : i < k
  · have here : 5 + i < k + 5 := by omega
    have fits : 5 + i < 12 := by omega
    simp [inside,low,here,fits]
  · have here : ¬ 5 + i < k + 5 := by omega
    simp [low,here]

theorem storeLow {k : Nat} {offset : Word} {field : BitVec (k + 5)} {n : Nat}
    (same : (0#n ++ field).setWidth 12 = offset.extractLsb' 0 12) : field.extractLsb' 0 5 = offset.extractLsb' 0 5 := by
  have whole := congrArg (fun x : BitVec 12 => x.extractLsb' 0 5) same
  simp only [sliceSlice offset 0 (show 0 + 5 ≤ 12 by decide)] at whole
  rw [← whole,BitVec.extractLsb'_setWidth_of_le (by decide)]
  exact (BitVec.extractLsb'_append_eq_of_add_le (by omega)).symm

def signField (m : Nat) (imm : Word) : Word := (imm.extractLsb' 0 m).signExtend 32

theorem sixField (imm : Word) :
    (((imm.extractLsb' 5 1 ++ imm.extractLsb' 0 5).extractLsb' 5 1).replicate 6 ++
      (imm.extractLsb' 5 1 ++ imm.extractLsb' 0 5) :
      BitVec 12) = (signField 6 imm).extractLsb' 0 12 := by
  rw [BitVec.extractLsb'_append_extractLsb'_eq_extractLsb' (show 5 = 0 + 5 by rfl),signField,signLow _ (by decide)]
  exact signTop 6 _

theorem upperField (imm : Word) :
    (((imm.extractLsb' 5 1 ++ imm.extractLsb' 0 5).extractLsb' 5 1).replicate 14 ++
      (imm.extractLsb' 5 1 ++ imm.extractLsb' 0 5) :
      BitVec 20) = (signField 6 imm <<< 12).extractLsb' 12 20 := by
  rw [BitVec.extractLsb'_append_extractLsb'_eq_extractLsb' (show 5 = 0 + 5 by rfl),slideSlice _ (by decide),signField,signLow _ (by decide)]
  exact signTop 14 _

theorem addi16spField {nzimm : Word} (multiple : nzimm.toNat % 2 ^ 4 = 0) :
    let field := nzimm.extractLsb' 9 1 ++ nzimm.extractLsb' 7 2 ++ nzimm.extractLsb' 6 1 ++ nzimm.extractLsb' 5 1 ++
      nzimm.extractLsb' 4 1 ++ 0#4
    ((field.extractLsb' 9 1).replicate 22 ++ field : BitVec 32) = signField 10 nzimm := by
  intro field
  have whole : field = nzimm.extractLsb' 0 10 := by
    unfold field
    rw [← lowZero multiple]
    simp (disch := decide) only [BitVec.extractLsb'_append_extractLsb'_eq_extractLsb']
  rw [whole]
  exact signTop 22 _

/- The slices of an extended field and of an even offset. -/
theorem signInner {m k l : Nat} (imm : Word) (fits : m ≤ 32) (inside : k + l ≤ m) :
    (signField m imm).extractLsb' k l = imm.extractLsb' k l := by
  rw [signField,signSlice _ _ _ _ inside fits,sliceSlice _ _ inside,Nat.zero_add]

theorem signOuter {m s k : Nat} (imm : Word) (above : m ≤ s) (fits : s + k ≤ 32) :
    (signField (m + 1) imm).extractLsb' s (1 * k) = (imm.extractLsb' m 1).replicate k := by
  rw [signField,signAbove _ above fits,sliceSlice _ _ (Nat.le_refl _),Nat.zero_add]

theorem signBit {m s : Nat} (imm : Word) (above : m ≤ s) (fits : s + 1 ≤ 32) :
    (signField (m + 1) imm).extractLsb' s 1 = imm.extractLsb' m 1 :=
  (signOuter imm above fits).trans BitVec.replicate_one

theorem evenSlice {n k l : Nat} (imm : Word) (inside : k + l ≤ n) :
    (imm.extractLsb' 1 n ++ 0b0#1).extractLsb' (k + 1) l = imm.extractLsb' (k + 1) l := by
  rw [BitVec.extractLsb'_append_eq_of_le (by omega),sliceSlice _ _ (by omega),Nat.add_sub_cancel,Nat.add_comm]

theorem jumpField (offset : Word) :
    let field := offset.extractLsb' 11 1 ++ offset.extractLsb' 10 1 ++ offset.extractLsb' 8 2 ++ offset.extractLsb' 7 1 ++
      offset.extractLsb' 6 1 ++ offset.extractLsb' 5 1 ++ offset.extractLsb' 4 1 ++ offset.extractLsb' 1 3 ++ 0b0#1
    (field.extractLsb' 11 1 ++ field.extractLsb' 1 10 ++ field.extractLsb' 11 1 ++ (field.extractLsb' 11 1).replicate 8 :
      BitVec 20) = (signField 12 offset).extractLsb' 20 1 ++ (signField 12 offset).extractLsb' 1 10 ++
        (signField 12 offset).extractLsb' 11 1 ++ (signField 12 offset).extractLsb' 12 8 := by
  intro field
  have parts : field = offset.extractLsb' 1 11 ++ 0b0#1 := by
    unfold field
    simp (disch := decide) only [BitVec.extractLsb'_append_extractLsb'_eq_extractLsb']
  rw [parts,evenSlice (k := 10) offset (by decide),evenSlice (k := 0) offset (by decide),signBit (m := 11) offset (by decide)
    (by decide),signInner offset (by decide) (by decide),signInner offset (by decide) (by decide)]
  exact congrArg _ (signOuter (k := 8) offset (show 11 ≤ 12 by decide) (by decide)).symm

theorem branchField (offset : Word) :
    let field := offset.extractLsb' 8 1 ++ offset.extractLsb' 6 2 ++ offset.extractLsb' 5 1 ++ offset.extractLsb' 3 2 ++
      offset.extractLsb' 1 2 ++ 0b0#1
    ((field.extractLsb' 8 1).replicate 4 ++ field.extractLsb' 5 3 : BitVec 7) =
      (signField 9 offset).extractLsb' 12 1 ++ (signField 9 offset).extractLsb' 5 6 ∧
    (field.extractLsb' 1 4 ++ field.extractLsb' 8 1 : BitVec 5) =
      (signField 9 offset).extractLsb' 1 4 ++ (signField 9 offset).extractLsb' 11 1 := by
  intro field
  have parts : field = offset.extractLsb' 1 8 ++ 0b0#1 := by
    unfold field
    simp (disch := decide) only [BitVec.extractLsb'_append_extractLsb'_eq_extractLsb']
  rw [parts,evenSlice (k := 7) offset (by decide),evenSlice (k := 4) offset (by decide),evenSlice (k := 0) offset (by decide),
    signBit (m := 8) offset (by decide) (by decide),signBit (m := 8) offset (by decide) (by decide),
    signInner (k := 1) offset (by decide) (by decide)]
  refine ⟨?_,rfl⟩
  have apart : (signField 9 offset).extractLsb' 5 6 = (offset.extractLsb' 8 1).replicate 3 ++ offset.extractLsb' 5 3 := by
    rw [← signOuter (m := 8) (s := 8) (k := 3) offset (by decide) (by decide),
      ← signInner (m := 9) (k := 5) offset (by decide) (by decide)]
    exact (BitVec.extractLsb'_append_extractLsb'_eq_extractLsb' (show 8 = 5 + 3 by rfl)).symm
  rw [apart,BitVec.replicate_succ]
  exact BitVec.append_assoc

end fields

section words
variable {imm : Word} (rd rs1 rs2 : BitVec 5) (f3 : BitVec 3) (opcode : BitVec 7)

theorem iTypeExpanded {field : BitVec 12} (same : field = imm.extractLsb' 0 12) :
    (field ++ rs1 ++ f3 ++ rd ++ opcode : BitVec 32) =
      encodeIType (opcode.setWidth 32) (rd.setWidth 32) (f3.setWidth 32) (rs1.setWidth 32) imm := by
  rw [iTypeFields,same,BitVec.append_assoc,BitVec.append_assoc,BitVec.append_assoc]
  rfl

theorem iTypeNarrowed (imm : Word) : ((imm ++ rs1 ++ f3 ++ rd ++ opcode : BitVec 52).setWidth 32) =
    encodeIType (opcode.setWidth 32) (rd.setWidth 32) (f3.setWidth 32) (rs1.setWidth 32) imm := by
  have cut (y : BitVec 20) : (imm ++ y).setWidth (12 + 20) = imm.setWidth 12 ++ y := by
    rw [BitVec.setWidth_append_of_eq rfl,BitVec.setWidth_eq]
  rw [iTypeFields,BitVec.append_assoc,BitVec.append_assoc,BitVec.append_assoc,← BitVec.setWidth_eq_extractLsb' (by decide)]
  exact cut _

theorem sixNested (f7 : BitVec 7) : (f7 ++ rs2 ++ rs1 ++ f3 ++ rd ++ opcode : BitVec 32) =
    f7 ++ (rs2 ++ (rs1 ++ (f3 ++ (rd ++ opcode)))) := by
  rw [BitVec.append_assoc,BitVec.append_assoc,BitVec.append_assoc,BitVec.append_assoc]
  rfl

theorem rTypeExpanded (f7 : BitVec 7) : (f7 ++ rs2 ++ rs1 ++ f3 ++ rd ++ opcode : BitVec 32) =
    encodeRType (opcode.setWidth 32) (rd.setWidth 32) (f3.setWidth 32) (rs1.setWidth 32) (rs2.setWidth 32)
      (f7.setWidth 32) := by
  rw [rTypeFields]
  exact sixNested rd rs1 rs2 f3 opcode f7

theorem sTypeExpanded {high : BitVec 7} {low : BitVec 5} (sameHigh : high = imm.extractLsb' 5 7)
    (sameLow : low = imm.extractLsb' 0 5) : (high ++ rs2 ++ rs1 ++ f3 ++ low ++ opcode : BitVec 32) =
      encodeSType (opcode.setWidth 32) (f3.setWidth 32) (rs1.setWidth 32) (rs2.setWidth 32) imm := by
  rw [sTypeFields,sameHigh,sameLow]
  exact sixNested _ rs1 rs2 f3 opcode _

theorem uTypeExpanded {field : BitVec 20} (same : field = imm.extractLsb' 12 20) : (field ++ rd ++ opcode : BitVec 32) =
    encodeUType (opcode.setWidth 32) (rd.setWidth 32) imm := by
  rw [uTypeFields,same,BitVec.append_assoc]
  rfl

theorem bTypeExpanded {high : BitVec 7} {low : BitVec 5} (sameHigh : high = imm.extractLsb' 12 1 ++ imm.extractLsb' 5 6)
    (sameLow : low = imm.extractLsb' 1 4 ++ imm.extractLsb' 11 1) : (high ++ rs2 ++ rs1 ++ f3 ++ low ++ opcode : BitVec 32) =
      encodeBType (opcode.setWidth 32) (f3.setWidth 32) (rs1.setWidth 32) (rs2.setWidth 32) imm := by
  have left (a : BitVec 1) (b : BitVec 6) (c : BitVec 25) : (a ++ b ++ c : BitVec 32) = a ++ (b ++ c) := by
    rw [BitVec.append_assoc]
    rfl
  have right (a : BitVec 4) (b : BitVec 1) (c : BitVec 7) : (a ++ b ++ c : BitVec 12) = a ++ (b ++ c) := by
    rw [BitVec.append_assoc]
    rfl
  have outer := left (imm.extractLsb' 12 1) (imm.extractLsb' 5 6) (rs2 ++ (rs1 ++ (f3 ++ (low ++ opcode))))
  have inner := right (imm.extractLsb' 1 4) (imm.extractLsb' 11 1) opcode
  rw [← sameHigh,sameLow,inner] at outer
  rw [bTypeFields]
  exact (sixNested low rs1 rs2 f3 opcode high).trans (by rw [sameLow,inner]; exact outer)

theorem jTypeExpanded {field : BitVec 20} (same : field = imm.extractLsb' 20 1 ++ imm.extractLsb' 1 10 ++
    imm.extractLsb' 11 1 ++ imm.extractLsb' 12 8) :
    (field ++ rd ++ 0b1101111#7 : BitVec 32) = Instruction.jal (rd.setWidth 32) imm := by
  rw [jalFields,same,BitVec.append_assoc,BitVec.append_assoc,BitVec.append_assoc,BitVec.append_assoc]
  rfl

end words

def Expands (insn : BitVec 16) (word : Option Word) : Prop := isCompressed insn = true ∧ expand insn = word

theorem compressed {insn : BitVec 16} {quadrant : BitVec 2} (slice : insn.extractLsb' 0 2 = quadrant)
    (short : quadrant ≠ 0b11) :
    isCompressed insn = true := by
  unfold isCompressed
  rw [slice]
  exact bne_iff_ne.mpr short

def register (r : Word) : Word := r &&& 0x1F#32

theorem registerField (r : Word) : (r.extractLsb' 0 5).setWidth 32 = register r := (maskLow r 5).symm

theorem registerZero {r : Word} : r.extractLsb' 0 5 = 0 ↔ register r = 0 := by
  rw [← registerField]
  constructor
  · intro zero
    rw [zero]
    rfl
  · intro zero
    have back := congrArg (BitVec.setWidth 5) zero
    rwa [BitVec.setWidth_setWidth_of_le _ (by decide),BitVec.setWidth_eq] at back

section offsets
variable {data rs1 offset : Word} (hdata : contains data = true) (hrs1 : contains rs1 = true)
  (multiple : offset.toNat % 2 ^ 2 = 0) (small : offset.toNat < 2 ^ 7)
include hdata hrs1 multiple small

theorem offsetParts (f3 : BitVec 3) : let w := offsetWord (f3.setWidth 16) data rs1 offset
    w.extractLsb' 0 2 = 0b00 ∧ Decompress.funct3 w = f3 ∧ 0#5 ++ uimmLwSw w = offset.extractLsb' 0 12 ∧
      (rs1Full w).setWidth 32 = rs1 ∧ (rdFull w).setWidth 32 = data := by
  intro w
  obtain ⟨q,hf3,data',six,two,base,high⟩ := offsetSlices f3 _ _ _ _ _ _ w (offsetLayout f3 data rs1 offset)
  unfold Decompress.funct3 uimmLwSw rs1Full rdFull
  rw [hf3,six,high,two,base,data']
  exact ⟨q,rfl,offsetField multiple small,containsBits hrs1,containsBits hdata⟩

theorem lwExpands : Expands (offsetWord 0b010 data rs1 offset) (some (lw data rs1 offset)) := by
  obtain ⟨q,hf3,field,base,reg⟩ := offsetParts hdata hrs1 multiple small 0b010
  change Expands (offsetWord ((0b010#3).setWidth 16) data rs1 offset) _
  generalize offsetWord _ _ _ _ = w at *
  refine ⟨compressed q (by decide),?_⟩
  have word := iTypeExpanded (rdFull w) (rs1Full w) 0b010#3 0b0000011#7 field
  rw [base,reg] at word
  unfold expand quadrant0
  simp only [q,hf3]
  exact congrArg some word

theorem flwExpands : Expands (offsetWord 0b011 data rs1 offset) (some (flw data rs1 offset)) := by
  obtain ⟨q,hf3,field,base,reg⟩ := offsetParts hdata hrs1 multiple small 0b011
  change Expands (offsetWord ((0b011#3).setWidth 16) data rs1 offset) _
  generalize offsetWord _ _ _ _ = w at *
  refine ⟨compressed q (by decide),?_⟩
  have word := iTypeExpanded (rdFull w) (rs1Full w) 0b010#3 0b0000111#7 field
  rw [base,reg] at word
  unfold expand quadrant0
  simp only [q,hf3]
  exact congrArg some word

theorem swExpands : Expands (offsetWord 0b110 data rs1 offset) (some (sw rs1 data offset)) := by
  obtain ⟨q,hf3,field,base,reg⟩ := offsetParts hdata hrs1 multiple small 0b110
  change Expands (offsetWord ((0b110#3).setWidth 16) data rs1 offset) _
  generalize offsetWord _ _ _ _ = w at *
  refine ⟨compressed q (by decide),?_⟩
  have same := (BitVec.setWidth_eq _).trans field
  have word := sTypeExpanded (rs1Full w) (rs2Full w) 0b010#3 0b0100011#7 (storeHigh (k := 2) same) (storeLow (k := 2) same)
  rw [base,show (rs2Full w).setWidth 32 = data from reg] at word
  unfold expand quadrant0
  simp only [q,hf3]
  exact congrArg some word

theorem fswExpands : Expands (offsetWord 0b111 data rs1 offset) (some (fsw rs1 data offset)) := by
  obtain ⟨q,hf3,field,base,reg⟩ := offsetParts hdata hrs1 multiple small 0b111
  change Expands (offsetWord ((0b111#3).setWidth 16) data rs1 offset) _
  generalize offsetWord _ _ _ _ = w at *
  refine ⟨compressed q (by decide),?_⟩
  have same := (BitVec.setWidth_eq _).trans field
  have word := sTypeExpanded (rs1Full w) (rs2Full w) 0b010#3 0b0100111#7 (storeHigh (k := 2) same) (storeLow (k := 2) same)
  rw [base,show (rs2Full w).setWidth 32 = data from reg] at word
  unfold expand quadrant0
  simp only [q,hf3]
  exact congrArg some word

end offsets

theorem addi4spnExpands {rd nzuimm : Word} (hrd : contains rd = true) (multiple : nzuimm.toNat % 2 ^ 2 = 0)
    (small : nzuimm.toNat < 2 ^ 10) :
    Expands (addi4spnWord rd nzuimm) (if nzuimm = 0 then none else some (addi rd 2 nzuimm)) := by
  obtain ⟨q,reg,three,two,nine,five,hf3⟩ := addi4spnSlices _ _ _ _ _ _ _ _ (addi4spnLayout rd nzuimm)
  generalize addi4spnWord _ _ = w at *
  refine ⟨compressed q (by decide),?_⟩
  have word := iTypeNarrowed (0b01#2 ++ rd.extractLsb' 0 3) 2#5 0b000#3 0b0010011#7 nzuimm
  rw [containsBits hrd] at word
  have field := addi4spnField multiple small
  unfold expand quadrant0
  simp only [q,Decompress.funct3,hf3,rdFull,reg,three,two,nine,five]
  generalize nzuimm.extractLsb' 6 4 ++ nzuimm.extractLsb' 4 2 ++ nzuimm.extractLsb' 3 1 ++ nzuimm.extractLsb' 2 1 ++
    0b00#2 = n at field ⊢
  have nothing : n = 0 ↔ nzuimm = 0 := by rw [← field]; exact clearAbove n
  rw [field]
  by_cases zero : nzuimm = 0
  · rw [if_pos zero]
    exact if_pos (nothing.mpr zero)
  · rw [if_neg zero]
    exact (if_neg (mt nothing.mp zero)).trans (congrArg some word)

section immediates
variable (rd imm : Word)

theorem immediateParts (f3 : BitVec 3) : let w := immediateWord (f3.setWidth 16) rd imm
    w.extractLsb' 0 2 = 0b01 ∧ Decompress.funct3 w = f3 ∧ (rdRs1 w).setWidth 32 = register rd ∧
      ((Decompress.imm w).extractLsb' 5 1).replicate 6 ++ Decompress.imm w = (signField 6 imm).extractLsb' 0 12 := by
  intro w
  obtain ⟨q,low,reg,top,hf3⟩ := immediateSlices f3 _ _ _ _ w (immediateLayout f3 rd imm)
  unfold Decompress.funct3 rdRs1 Decompress.imm
  rw [hf3,reg,low,top]
  exact ⟨q,rfl,registerField rd,sixField imm⟩

theorem addiExpands : Expands (cAddi rd imm) (some (addi (register rd) (register rd) (signField 6 imm))) := by
  obtain ⟨q,hf3,reg,field⟩ := immediateParts rd imm 0b000
  change Expands (immediateWord ((0b000#3).setWidth 16) rd imm) _
  generalize immediateWord _ _ _ = w at *
  refine ⟨compressed q (by decide),?_⟩
  have word := iTypeExpanded (rdRs1 w) (rdRs1 w) 0b000#3 0b0010011#7 field
  rw [reg] at word
  unfold expand quadrant1
  simp only [q,hf3]
  by_cases nop : rdRs1 w = 0 ∧ Decompress.imm w = 0
  · rw [nop.1,nop.2] at word
    rw [if_pos nop]
    exact congrArg some word
  · rw [if_neg nop]
    exact congrArg some word

theorem liExpands : Expands (cLi rd imm) (some (addi (register rd) 0 (signField 6 imm))) := by
  obtain ⟨q,hf3,reg,field⟩ := immediateParts rd imm 0b010
  change Expands (immediateWord ((0b010#3).setWidth 16) rd imm) _
  generalize immediateWord _ _ _ = w at *
  refine ⟨compressed q (by decide),?_⟩
  have word := iTypeExpanded (rdRs1 w) 0#5 0b000#3 0b0010011#7 field
  rw [reg] at word
  unfold expand quadrant1
  simp only [q,hf3]
  exact congrArg some word

end immediates

theorem luiExpands {rd field : Word} (small : field.toNat < 2 ^ 6) (other : register rd ≠ 2) :
    Expands (luiWord rd field)
      (if register rd = 0 ∨ field = 0 then none else some (lui (register rd) (signField 6 field <<< 12))) := by
  obtain ⟨q,low,reg,top,hf3⟩ := immediateSlices 0b011#3 _ _ _ _ _ (luiLayout rd field)
  generalize luiWord _ _ = w at *
  refine ⟨compressed q (by decide),?_⟩
  have word := uTypeExpanded (rd.extractLsb' 0 5) 0b0110111#7 (upperField field)
  rw [registerField] at word
  have six : field.extractLsb' 5 1 ++ field.extractLsb' 0 5 = field.extractLsb' 0 6 :=
    BitVec.extractLsb'_append_extractLsb'_eq_extractLsb' rfl
  have nothing : Decompress.imm w = 0 ↔ field = 0 := by
    unfold Decompress.imm
    rw [top,low,six]
    constructor
    · intro zero
      rw [← narrow small,zero]
      rfl
    · intro zero
      rw [zero]
      rfl
  have sp : rdRs1 w ≠ 2 := by
    intro two
    apply other
    rw [← registerField,← reg]
    exact congrArg (BitVec.setWidth 32) two
  have zero : rdRs1 w = 0 ↔ register rd = 0 := by
    rw [← registerZero,← reg]
    rfl
  unfold expand quadrant1
  simp only [q,Decompress.funct3,hf3,if_neg sp]
  by_cases reserved : register rd = 0 ∨ field = 0
  · rw [if_pos reserved]
    exact if_pos (reserved.imp zero.mpr nothing.mpr)
  · rw [if_neg reserved]
    refine (if_neg (mt (Or.imp zero.mp nothing.mp) reserved)).trans ?_
    unfold Decompress.imm rdRs1
    rw [top,low,reg]
    exact congrArg some word

theorem addi16spExpands {nzimm : Word} (multiple : nzimm.toNat % 2 ^ 4 = 0) (small : nzimm.toNat < 2 ^ 10) :
    Expands (addi16spWord nzimm) (if nzimm = 0 then none else some (addi 2 2 (signField 10 nzimm))) := by
  obtain ⟨q,b5,b7,b6,b4,sp,b9,hf3⟩ := addi16spSlices _ _ _ _ _ _ _ _ _ (addi16spLayout nzimm)
  generalize addi16spWord _ = w at *
  refine ⟨compressed q (by decide),?_⟩
  have word := iTypeNarrowed 2#5 2#5 0b000#3 0b0010011#7 (signField 10 nzimm)
  have field := addi16spField multiple
  simp only at field
  unfold expand quadrant1
  simp only [q,Decompress.funct3,hf3,rdRs1,sp,b5,b7,b6,b4,b9]
  generalize nzimm.extractLsb' 9 1 ++ nzimm.extractLsb' 7 2 ++ nzimm.extractLsb' 6 1 ++ nzimm.extractLsb' 5 1 ++
    nzimm.extractLsb' 4 1 ++ 0#4 = n at field ⊢
  have low : n = nzimm.extractLsb' 0 10 := by
    have slice := congrArg (fun x : BitVec 32 => x.extractLsb' 0 10) field
    have short := (signSlice 32 (nzimm.extractLsb' 0 10) 0 10 (by decide) (by decide)).trans BitVec.extractLsb'_eq_self
    exact BitVec.extractLsb'_append_eq_right.symm.trans (slice.trans short)
  have nothing : n = 0 ↔ nzimm = 0 := by
    rw [low]
    exact ⟨fun zero => by rw [← narrow small,zero]; rfl,fun zero => by rw [zero]; rfl⟩
  rw [field]
  by_cases zero : nzimm = 0
  · rw [if_pos zero]
    exact if_pos (nothing.mpr zero)
  · rw [if_neg zero]
    exact (if_neg (mt nothing.mp zero)).trans (congrArg some word)

theorem andiExpands {rd imm : Word} (hrd : contains rd = true) :
    Expands (andiWord rd imm) (some (andi rd rd (signField 6 imm))) := by
  obtain ⟨q,low,reg,f2,top,hf3⟩ := arithmeticSlices _ _ _ _ _ _ _ (andiLayout rd imm)
  generalize andiWord _ _ = w at *
  refine ⟨compressed q (by decide),?_⟩
  have word := iTypeExpanded (0b01#2 ++ rd.extractLsb' 0 3) (0b01#2 ++ rd.extractLsb' 0 3) 0b111#3 0b0010011#7 (sixField imm)
  rw [containsBits hrd] at word
  unfold expand quadrant1 arithmetic
  simp only [q,Decompress.funct3,hf3,f2,Decompress.imm,top,low,rs1Full,reg]
  exact congrArg some word

section registers
variable {rd rs2 shamt : Word} (hrd : contains rd = true)
include hrd

theorem shiftParts (nonzero : shamt ≠ 0) (small : shamt.toNat < 2 ^ 5) (f2 : BitVec 2) :
    let w := shiftWord (f2.setWidth 16) rd shamt
    w.extractLsb' 0 2 = 0b01 ∧ Decompress.funct3 w = 0b100 ∧ w.extractLsb' 10 2 = f2 ∧ (rs1Full w).setWidth 32 = rd ∧
      w.extractLsb' 2 5 = shamt.extractLsb' 0 5 ∧ w.extractLsb' 2 5 ≠ 0 := by
  intro w
  obtain ⟨q,low,reg,hf2,top,hf3⟩ := arithmeticSlices _ _ _ _ _ _ w (shiftLayout f2 rd shamt)
  unfold Decompress.funct3 rs1Full
  rw [hf3,reg,low]
  refine ⟨q,rfl,hf2,containsBits hrd,rfl,?_⟩
  intro zero
  apply nonzero
  rw [← narrow small,zero]
  rfl

theorem srliExpands (nonzero : shamt ≠ 0) (small : shamt.toNat < 2 ^ 5) :
    Expands (shiftWord 0b00 rd shamt) (some (srli rd rd shamt)) := by
  obtain ⟨q,hf3,f2,reg,amount,shifts⟩ := shiftParts hrd nonzero small 0b00
  change Expands (shiftWord ((0b00#2).setWidth 16) rd shamt) _
  generalize shiftWord _ _ _ = w at *
  refine ⟨compressed q (by decide),?_⟩
  have field := (shiftField small).1
  rw [← amount] at field
  have word := iTypeExpanded (rs1Full w) (rs1Full w) 0b101#3 0b0010011#7 field
  rw [reg] at word
  unfold expand quadrant1 arithmetic
  simp only [q,hf3,f2]
  exact (if_neg shifts).trans (congrArg some word)

theorem sraiExpands (nonzero : shamt ≠ 0) (small : shamt.toNat < 2 ^ 5) :
    Expands (shiftWord 0b01 rd shamt) (some (srai rd rd shamt)) := by
  obtain ⟨q,hf3,f2,reg,amount,shifts⟩ := shiftParts hrd nonzero small 0b01
  change Expands (shiftWord ((0b01#2).setWidth 16) rd shamt) _
  generalize shiftWord _ _ _ = w at *
  refine ⟨compressed q (by decide),?_⟩
  have field := (shiftField small).2
  rw [← amount] at field
  have word := iTypeExpanded (rs1Full w) (rs1Full w) 0b101#3 0b0010011#7 field
  rw [reg] at word
  unfold expand quadrant1 arithmetic
  simp only [q,hf3,f2]
  exact (if_neg shifts).trans (congrArg some word)

theorem rtypeParts (hrs2 : contains rs2 = true) (ca : BitVec 2) : let w := rtypeWord rd rs2 (ca.setWidth 16)
    w.extractLsb' 0 2 = 0b01 ∧ Decompress.funct3 w = 0b100 ∧ w.extractLsb' 10 2 = 0b11 ∧ w.getLsbD 12 = false ∧
      w.extractLsb' 5 2 = ca ∧ (rs1Full w).setWidth 32 = rd ∧ (rs2Full w).setWidth 32 = rs2 := by
  intro w
  obtain ⟨q,reg2,hca,reg1,hf2,top,hf3⟩ := rtypeSlices _ _ _ _ _ _ _ w (rtypeLayout rd rs2 ca)
  have clear : w.getLsbD 12 = (w.extractLsb' 12 1).getLsbD 0 := by simp
  rw [clear,top]
  unfold Decompress.funct3 rs1Full rs2Full
  rw [hf3,reg1,reg2]
  exact ⟨q,rfl,hf2,rfl,hca,containsBits hrd,containsBits hrs2⟩

theorem rtypeExpands (hrs2 : contains rs2 = true) (ca : BitVec 2) : Expands (rtypeWord rd rs2 (ca.setWidth 16))
    (some (if ca = 0b00 then sub rd rd rs2 else if ca = 0b01 then Instruction.xor rd rd rs2
      else if ca = 0b10 then Instruction.or rd rd rs2 else Instruction.and rd rd rs2)) := by
  obtain ⟨q,hf3,f2,clear,hca,reg1,reg2⟩ := rtypeParts hrd hrs2 ca
  generalize rtypeWord _ _ _ = w at *
  refine ⟨compressed q (by decide),?_⟩
  have word (f7 : BitVec 7) (f3 : BitVec 3) := rTypeExpanded (rs1Full w) (rs1Full w) (rs2Full w) f3 0b0110011#7 f7
  simp only [reg1,reg2] at word
  unfold expand quadrant1 arithmetic
  simp only [q,hf3,f2,clear,hca]
  simp only [word]
  by_cases c0 : ca = 0b00
  · subst c0; rfl
  · by_cases c1 : ca = 0b01
    · subst c1; rfl
    · by_cases c2 : ca = 0b10
      · subst c2; rfl
      · simp only [if_neg c0,if_neg c1,if_neg c2]
        rfl

end registers

theorem jumpExpands (offset : Word) : Expands (cJal offset) (some (Instruction.jal 1 (signField 12 offset))) ∧
    Expands (cJ offset) (some (Instruction.jal 0 (signField 12 offset))) := by
  have parts (f3 : BitVec 3) (rd : BitVec 5) : let w := jumpWord (f3.setWidth 16) offset
      w.extractLsb' 0 2 = 0b01 ∧ Decompress.funct3 w = f3 ∧
        Decompress.jal w rd = Instruction.jal (rd.setWidth 32) (signField 12 offset) := by
    intro w
    obtain ⟨q,b5,b1,b7,b6,b10,b8,b4,b11,hf3⟩ := jumpSlices f3 _ _ _ _ _ _ _ _ _ w (jumpLayout f3 offset)
    refine ⟨q,hf3,?_⟩
    unfold Decompress.jal immJ
    rw [b5,b1,b7,b6,b10,b8,b4,b11]
    exact jTypeExpanded rd (jumpField offset)
  constructor
  · obtain ⟨q,hf3,word⟩ := parts 0b001 1
    change Expands (jumpWord ((0b001#3).setWidth 16) offset) _
    generalize jumpWord _ _ = w at *
    refine ⟨compressed q (by decide),?_⟩
    unfold expand quadrant1
    simp only [q,hf3]
    exact congrArg some word
  · obtain ⟨q,hf3,word⟩ := parts 0b101 0
    change Expands (jumpWord ((0b101#3).setWidth 16) offset) _
    generalize jumpWord _ _ = w at *
    refine ⟨compressed q (by decide),?_⟩
    unfold expand quadrant1
    simp only [q,hf3]
    exact congrArg some word

theorem branchExpands {rs1 offset : Word} (hrs1 : contains rs1 = true) :
    Expands (branchWord 0b110 rs1 offset) (some (beq rs1 0 (signField 9 offset))) ∧
    Expands (branchWord 0b111 rs1 offset) (some (bne rs1 0 (signField 9 offset))) := by
  have parts (f3 f : BitVec 3) : let w := branchWord (f3.setWidth 16) rs1 offset
      w.extractLsb' 0 2 = 0b01 ∧ Decompress.funct3 w = f3 ∧
        branch w f = encodeBType ((0b1100011#7).setWidth 32) (f.setWidth 32) rs1 0 (signField 9 offset) := by
    intro w
    obtain ⟨q,b5,b1,b6,reg,b3,b8,hf3⟩ := branchSlices f3 _ _ _ _ _ _ _ w (branchLayout f3 rs1 offset)
    refine ⟨q,hf3,?_⟩
    obtain ⟨high,low⟩ := branchField offset
    have word := bTypeExpanded (0b01#2 ++ rs1.extractLsb' 0 3) 0#5 f 0b1100011#7 high low
    rw [containsBits hrs1] at word
    unfold branch immB rs1Full
    rw [b5,b1,b6,reg,b3,b8]
    have merge (x : BitVec 20) (y : BitVec 4) (z : BitVec 1) : (x ++ y ++ z : BitVec 25) = x ++ (y ++ z) := by
      rw [BitVec.append_assoc]
      rfl
    exact (congrArg (fun x : BitVec 25 => (x ++ 0b1100011#7 : BitVec 32)) (merge _ _ _)).trans word
  constructor
  · obtain ⟨q,hf3,word⟩ := parts 0b110 0b000
    change Expands (branchWord ((0b110#3).setWidth 16) rs1 offset) _
    generalize branchWord _ _ _ = w at *
    refine ⟨compressed q (by decide),?_⟩
    unfold expand quadrant1
    simp only [q,hf3]
    exact congrArg some word
  · obtain ⟨q,hf3,word⟩ := parts 0b111 0b001
    change Expands (branchWord ((0b111#3).setWidth 16) rs1 offset) _
    generalize branchWord _ _ _ = w at *
    refine ⟨compressed q (by decide),?_⟩
    unfold expand quadrant1
    simp only [q,hf3]
    exact congrArg some word

section quadrant2
variable {rd low : Word}

theorem twoFieldsParts (high : BitVec 4) : let w := twoFieldsWord (high.setWidth 16 <<< 12) rd low
    w.extractLsb' 0 2 = 0b10 ∧ Decompress.funct3 w = high.extractLsb' 1 3 ∧ w.extractLsb' 12 1 = high.extractLsb' 0 1 ∧
      rdRs1 w = rd.extractLsb' 0 5 ∧ w.extractLsb' 2 5 = low.extractLsb' 0 5 := by
  intro w
  obtain ⟨q,low',reg,top,bit⟩ := twoFieldsSlices high _ _ _ w (twoFieldsLayout high rd low)
  exact ⟨q,top,bit,reg,low'⟩

theorem slliExpands (hrd : rd.toNat < 2 ^ 5) (small : low.toNat < 2 ^ 5) :
    Expands (twoFieldsWord (0b000#16 <<< 13) rd low) (if low = 0 ∨ rd = 0 then none else some (slli rd rd low)) := by
  obtain ⟨q,hf3,bit,reg,amount⟩ := @twoFieldsParts rd low 0b0000
  change Expands (twoFieldsWord ((0b0000#4).setWidth 16 <<< 12) rd low) _
  generalize twoFieldsWord _ _ _ = w at *
  refine ⟨compressed q (by decide),?_⟩
  have word := iTypeExpanded (rd.extractLsb' 0 5) (rd.extractLsb' 0 5) 0b001#3 0b0010011#7 (shiftField small).1
  rw [narrow hrd] at word
  have zeroLow : 0#1 ++ low.extractLsb' 0 5 = 0 ↔ low = 0 := by
    rw [← clearAbove]
    exact ⟨fun zero => by rw [← narrow small,zero]; rfl,fun zero => by rw [zero]; rfl⟩
  have zeroRd : rd.extractLsb' 0 5 = 0 ↔ rd = 0 := ⟨fun zero => by rw [← narrow hrd,zero]; rfl,fun zero => by rw [zero]; rfl⟩
  unfold expand quadrant2
  simp only [q,hf3,bit,amount,reg]
  by_cases reserved : low = 0 ∨ rd = 0
  · rw [if_pos reserved]
    exact if_pos (reserved.imp zeroLow.mpr zeroRd.mpr)
  · rw [if_neg reserved]
    refine (if_neg (mt (Or.imp zeroLow.mp zeroRd.mp) reserved)).trans ?_
    have shamt : (0#1 ++ low.extractLsb' 0 5).extractLsb' 0 5 = low.extractLsb' 0 5 := BitVec.extractLsb'_append_eq_right
    rw [← shamt] at word
    exact congrArg some word

theorem zeroField : 0#12 = BitVec.extractLsb' 0 12 (0 : Word) := rfl

theorem topBit {w : BitVec 16} {b : BitVec 1} (slice : w.extractLsb' 12 1 = b) : w.getLsbD 12 = b.getLsbD 0 := by
  rw [← slice]
  simp

theorem jrExpands (hrd : rd.toNat < 2 ^ 5) :
    Expands (twoFieldsWord (0b100#16 <<< 13) rd 0) (if rd = 0 then none else some (jalr 0 rd 0)) := by
  obtain ⟨q,hf3,bit,reg,rs2⟩ := @twoFieldsParts rd 0 0b1000
  change Expands (twoFieldsWord ((0b1000#4).setWidth 16 <<< 12) rd 0) _
  generalize twoFieldsWord _ _ _ = w at *
  refine ⟨compressed q (by decide),?_⟩
  have word := iTypeExpanded 0#5 (rd.extractLsb' 0 5) 0b000#3 0b1100111#7 zeroField
  rw [narrow hrd] at word
  have zero : rd.extractLsb' 0 5 = 0 ↔ rd = 0 := ⟨fun zero => by rw [← narrow hrd,zero]; rfl,fun zero => by rw [zero]; rfl⟩
  unfold expand quadrant2 jumpMoveAdd
  simp only [q,hf3,topBit bit,reg,rs2]
  by_cases reserved : rd = 0
  · rw [if_pos reserved]
    exact if_pos (zero.mpr reserved)
  · rw [if_neg reserved]
    exact (if_neg (mt zero.mp reserved)).trans (congrArg some word)

theorem mvExpands (source : register low ≠ 0) : Expands (cMv rd low)
    (if register rd = 0 then none else some (add (register rd) 0 (register low))) := by
  obtain ⟨q,hf3,bit,reg,rs2⟩ := @twoFieldsParts rd low 0b1000
  change Expands (twoFieldsWord ((0b1000#4).setWidth 16 <<< 12) rd low) _
  generalize twoFieldsWord _ _ _ = w at *
  refine ⟨compressed q (by decide),?_⟩
  have word := rTypeExpanded (rd.extractLsb' 0 5) 0#5 (low.extractLsb' 0 5) 0b000#3 0b0110011#7 0b0000000#7
  rw [registerField,registerField] at word
  unfold expand quadrant2 jumpMoveAdd
  simp only [q,hf3,topBit bit,reg,rs2]
  by_cases reserved : register rd = 0
  · rw [if_pos reserved]
    exact if_pos (registerZero.mpr reserved)
  · rw [if_neg reserved]
    refine (if_neg (mt registerZero.mp reserved)).trans ?_
    exact (if_neg (mt registerZero.mp source)).trans (congrArg some word)

theorem jalrExpands (other : register rd ≠ 0) :
    Expands (twoFieldsWord (0b100#16 <<< 13 ||| 1#16 <<< 12) rd 0) (some (jalr 1 (register rd) 0)) := by
  obtain ⟨q,hf3,bit,reg,rs2⟩ := @twoFieldsParts rd 0 0b1001
  change Expands (twoFieldsWord ((0b1001#4).setWidth 16 <<< 12) rd 0) _
  generalize twoFieldsWord _ _ _ = w at *
  refine ⟨compressed q (by decide),?_⟩
  have word := iTypeExpanded 1#5 (rd.extractLsb' 0 5) 0b000#3 0b1100111#7 zeroField
  rw [registerField] at word
  have used := mt registerZero.mp other
  unfold expand quadrant2 jumpMoveAdd
  simp only [q,hf3,topBit bit,reg,rs2]
  refine (if_neg (mt And.left used)).trans ((if_neg used).trans ?_)
  exact congrArg some word

theorem addExpands (hrd : register rd ≠ 0) (hlow : register low ≠ 0) :
    Expands (twoFieldsWord (0b100#16 <<< 13 ||| 1#16 <<< 12) rd low)
      (some (add (register rd) (register rd) (register low))) := by
  obtain ⟨q,hf3,bit,reg,rs2⟩ := @twoFieldsParts rd low 0b1001
  change Expands (twoFieldsWord ((0b1001#4).setWidth 16 <<< 12) rd low) _
  generalize twoFieldsWord _ _ _ = w at *
  refine ⟨compressed q (by decide),?_⟩
  have word := rTypeExpanded (rd.extractLsb' 0 5) (rd.extractLsb' 0 5) (low.extractLsb' 0 5) 0b000#3 0b0110011#7 0b0000000#7
  rw [registerField,registerField] at word
  have used := mt registerZero.mp hrd
  unfold expand quadrant2 jumpMoveAdd
  simp only [q,hf3,topBit bit,reg,rs2]
  refine (if_neg (mt And.left used)).trans ((if_neg used).trans ?_)
  exact (if_neg (mt registerZero.mp hlow)).trans (congrArg some word)

section stack
variable {offset : Word} (multiple : offset.toNat % 2 ^ 2 = 0) (small : offset.toNat < 2 ^ 8)
include multiple small

theorem lwspExpands : Expands (stackLoadWord 0b010 rd offset)
    (if register rd = 0 then none else some (lw (register rd) 2 offset)) := by
  obtain ⟨q,b6,b2,reg,b5,hf3⟩ := stackLoadSlices 0b010#3 _ _ _ _ _ _ (stackLoadLayout 0b010#3 rd offset)
  change Expands (stackLoadWord ((0b010#3).setWidth 16) rd offset) _
  generalize stackLoadWord _ _ _ = w at *
  refine ⟨compressed q (by decide),?_⟩
  have word := iTypeExpanded (rd.extractLsb' 0 5) 2#5 0b010#3 0b0000011#7 (stackLoadField multiple small)
  rw [registerField] at word
  unfold expand quadrant2
  simp only [q,Decompress.funct3,hf3,rdRs1,reg,b6,b2,b5]
  by_cases reserved : register rd = 0
  · rw [if_pos reserved]
    exact if_pos (registerZero.mpr reserved)
  · rw [if_neg reserved]
    exact (if_neg (mt registerZero.mp reserved)).trans (congrArg some word)

theorem flwspExpands (hrd : rd.toNat < 2 ^ 5) : Expands (stackLoadWord 0b011 rd offset) (some (flw rd 2 offset)) := by
  obtain ⟨q,b6,b2,reg,b5,hf3⟩ := stackLoadSlices 0b011#3 _ _ _ _ _ _ (stackLoadLayout 0b011#3 rd offset)
  change Expands (stackLoadWord ((0b011#3).setWidth 16) rd offset) _
  generalize stackLoadWord _ _ _ = w at *
  refine ⟨compressed q (by decide),?_⟩
  have word := iTypeExpanded (rd.extractLsb' 0 5) 2#5 0b010#3 0b0000111#7 (stackLoadField multiple small)
  rw [narrow hrd] at word
  unfold expand quadrant2
  simp only [q,Decompress.funct3,hf3,rdRs1,reg,b6,b2,b5]
  exact congrArg some word

theorem swspExpands : Expands (stackStoreWord 0b110 low offset) (some (sw 2 (register low) offset)) := by
  obtain ⟨q,reg,b6,b2,hf3⟩ := stackStoreSlices 0b110#3 _ _ _ _ _ (stackStoreLayout 0b110#3 low offset)
  change Expands (stackStoreWord ((0b110#3).setWidth 16) low offset) _
  generalize stackStoreWord _ _ _ = w at *
  refine ⟨compressed q (by decide),?_⟩
  have same := (BitVec.setWidth_eq _).trans (stackStoreField multiple small)
  have word := sTypeExpanded 2#5 (low.extractLsb' 0 5) 0b010#3 0b0100011#7 (storeHigh (k := 3) same) (storeLow (k := 3) same)
  rw [registerField] at word
  unfold expand quadrant2
  simp only [q,Decompress.funct3,hf3,reg,b6,b2]
  exact congrArg some word

theorem fswspExpands (hlow : low.toNat < 2 ^ 5) : Expands (stackStoreWord 0b111 low offset) (some (fsw 2 low offset)) := by
  obtain ⟨q,reg,b6,b2,hf3⟩ := stackStoreSlices 0b111#3 _ _ _ _ _ (stackStoreLayout 0b111#3 low offset)
  change Expands (stackStoreWord ((0b111#3).setWidth 16) low offset) _
  generalize stackStoreWord _ _ _ = w at *
  refine ⟨compressed q (by decide),?_⟩
  have same := (BitVec.setWidth_eq _).trans (stackStoreField multiple small)
  have word := sTypeExpanded 2#5 (low.extractLsb' 0 5) 0b010#3 0b0100111#7 (storeHigh (k := 3) same) (storeLow (k := 3) same)
  rw [narrow hlow] at word
  unfold expand quadrant2
  simp only [q,Decompress.funct3,hf3,reg,b6,b2]
  exact congrArg some word

end stack
end quadrant2

/- The word of an encoder whose assertions hold, and the word that the uncompressed encoder makes for the same arguments:
registers modulo 32 where they are masked, an immediate reduced to its field and its sign extended where it is not
asserted; `none` for the reserved arguments. -/
inductive Counterpart : BitVec 16 → Option Word → Prop
  | addi4spn {rd rs1 nzuimm insn} (coded : cAddi4spn rd rs1 nzuimm = some insn) :
      Counterpart insn (if nzuimm = 0 then none else some (addi rd rs1 nzuimm))
  | lw {rd rs1 offset insn} (coded : cLw rd rs1 offset = some insn) : Counterpart insn (some (lw rd rs1 offset))
  | sw {rs1 rs2 offset insn} (coded : cSw rs1 rs2 offset = some insn) : Counterpart insn (some (sw rs1 rs2 offset))
  | flw {fd rs1 offset insn} (coded : cFlw fd rs1 offset = some insn) : Counterpart insn (some (flw fd rs1 offset))
  | fsw {rs1 fs2 offset insn} (coded : cFsw rs1 fs2 offset = some insn) : Counterpart insn (some (fsw rs1 fs2 offset))
  | nop : Counterpart cNop (some (addi 0 0 0))
  | addi (rd imm) : Counterpart (cAddi rd imm) (some (addi (register rd) (register rd) (signField 6 imm)))
  | jal (offset) : Counterpart (cJal offset) (some (Instruction.jal 1 (signField 12 offset)))
  | li (rd imm) : Counterpart (cLi rd imm) (some (addi (register rd) 0 (signField 6 imm)))
  | addi16sp {nzimm insn} (coded : cAddi16sp nzimm = some insn) :
      Counterpart insn (if nzimm = 0 then none else some (addi 2 2 (signField 10 nzimm)))
  | lui {rd field insn} (coded : cLui rd field = some insn) (other : register rd ≠ 2) :
      Counterpart insn (if register rd = 0 ∨ field = 0 then none else some (lui (register rd) (signField 6 field <<< 12)))
  | srli {rd shamt insn} (coded : cSrli rd shamt = some insn) : Counterpart insn (some (srli rd rd shamt))
  | srai {rd shamt insn} (coded : cSrai rd shamt = some insn) : Counterpart insn (some (srai rd rd shamt))
  | andi {rd imm insn} (coded : cAndi rd imm = some insn) : Counterpart insn (some (andi rd rd (signField 6 imm)))
  | sub {rd rs2 insn} (coded : cSub rd rs2 = some insn) : Counterpart insn (some (sub rd rd rs2))
  | xor {rd rs2 insn} (coded : cXor rd rs2 = some insn) : Counterpart insn (some (Instruction.xor rd rd rs2))
  | or {rd rs2 insn} (coded : cOr rd rs2 = some insn) : Counterpart insn (some (Instruction.or rd rd rs2))
  | and {rd rs2 insn} (coded : cAnd rd rs2 = some insn) : Counterpart insn (some (Instruction.and rd rd rs2))
  | j (offset) : Counterpart (cJ offset) (some (Instruction.jal 0 (signField 12 offset)))
  | beqz {rs1 offset insn} (coded : cBeqz rs1 offset = some insn) : Counterpart insn (some (beq rs1 0 (signField 9 offset)))
  | bnez {rs1 offset insn} (coded : cBnez rs1 offset = some insn) : Counterpart insn (some (bne rs1 0 (signField 9 offset)))
  | slli {rd shamt insn} (coded : cSlli rd shamt = some insn) (small : shamt.toNat < 32) :
      Counterpart insn (if shamt = 0 ∨ rd = 0 then none else some (slli rd rd shamt))
  | lwsp {rd offset insn} (coded : cLwsp rd offset = some insn) :
      Counterpart insn (if register rd = 0 then none else some (lw (register rd) 2 offset))
  | flwsp {fd offset insn} (coded : cFlwsp fd offset = some insn) : Counterpart insn (some (flw fd 2 offset))
  | jr {rs1 insn} (coded : cJr rs1 = some insn) : Counterpart insn (if rs1 = 0 then none else some (jalr 0 rs1 0))
  | mv {rd rs2} (source : register rs2 ≠ 0) :
      Counterpart (cMv rd rs2) (if register rd = 0 then none else some (add (register rd) 0 (register rs2)))
  | ebreak : Counterpart cEbreak (some ebreak)
  | jalr {rs1 insn} (coded : cJalr rs1 = some insn) (other : register rs1 ≠ 0) :
      Counterpart insn (some (jalr 1 (register rs1) 0))
  | add {rd rs2 insn} (coded : cAdd rd rs2 = some insn) (hrd : register rd ≠ 0) (hrs2 : register rs2 ≠ 0) :
      Counterpart insn (some (add (register rd) (register rd) (register rs2)))
  | swsp {rs2 offset insn} (coded : cSwsp rs2 offset = some insn) (small : offset.toNat ≤ 252) :
      Counterpart insn (some (sw 2 (register rs2) offset))
  | fswsp {fs2 offset insn} (coded : cFswsp fs2 offset = some insn) : Counterpart insn (some (fsw 2 fs2 offset))

theorem assertedWord {condition : Bool} {word insn : BitVec 16} (coded : asserted condition word = some insn) :
    condition = true ∧ word = insn := by
  unfold asserted at coded
  split at coded
  · rename_i holds
    exact ⟨holds,Option.some.inj coded⟩
  · contradiction

theorem offsetCoded {f3 : BitVec 16} {data rs1 offset : Word} {insn : BitVec 16}
    (coded : cOffset f3 data rs1 offset = some insn) :
    contains data = true ∧ contains rs1 = true ∧ offset.toNat % 2 ^ 2 = 0 ∧ offset.toNat < 2 ^ 7 ∧
      offsetWord f3 data rs1 offset = insn := by
  obtain ⟨holds,word⟩ := assertedWord coded
  simp only [isMultipleOf,Bool.and_eq_true,beq_iff_eq,decide_eq_true_eq] at holds
  obtain ⟨⟨hdata,hrs1⟩,multiple,small⟩ := holds
  exact ⟨hdata,hrs1,multiple,by omega,word⟩

theorem shiftCoded {f2 : BitVec 16} {rd shamt : Word} {insn : BitVec 16} (coded : cShift f2 rd shamt = some insn) :
    contains rd = true ∧ shamt ≠ 0 ∧ shamt.toNat < 2 ^ 5 ∧ shiftWord f2 rd shamt = insn := by
  obtain ⟨holds,word⟩ := assertedWord coded
  simp only [Bool.and_eq_true,bne_iff_ne,decide_eq_true_eq] at holds
  obtain ⟨hrd,nonzero,small⟩ := holds
  exact ⟨hrd,nonzero,by omega,word⟩

theorem rtypeCoded {rd rs2 : Word} {ca insn : BitVec 16} (coded : cRtypeFamily rd rs2 ca = some insn) :
    contains rd = true ∧ contains rs2 = true ∧ rtypeWord rd rs2 ca = insn := by
  obtain ⟨holds,word⟩ := assertedWord coded
  simp only [Bool.and_eq_true] at holds
  exact ⟨holds.1,holds.2,word⟩

theorem counterpartExpands {insn : BitVec 16} {word : Option Word} (counterpart : Counterpart insn word) :
    Expands insn word := by
  cases counterpart with
  | addi4spn coded =>
    obtain ⟨holds,rfl⟩ := assertedWord coded
    simp only [isMultipleOf,Bool.and_eq_true,beq_iff_eq,decide_eq_true_eq] at holds
    obtain ⟨⟨rfl,hrd⟩,multiple,small⟩ := holds
    exact addi4spnExpands hrd multiple (by omega)
  | lw coded =>
    obtain ⟨hrd,hrs1,multiple,small,rfl⟩ := offsetCoded coded
    exact lwExpands hrd hrs1 multiple small
  | sw coded =>
    obtain ⟨hrs2,hrs1,multiple,small,rfl⟩ := offsetCoded coded
    exact swExpands hrs2 hrs1 multiple small
  | flw coded =>
    obtain ⟨hfd,hrs1,multiple,small,rfl⟩ := offsetCoded coded
    exact flwExpands hfd hrs1 multiple small
  | fsw coded =>
    obtain ⟨hfs2,hrs1,multiple,small,rfl⟩ := offsetCoded coded
    exact fswExpands hfs2 hrs1 multiple small
  | nop => exact ⟨rfl,rfl⟩
  | addi rd imm => exact addiExpands rd imm
  | jal offset => exact (jumpExpands offset).1
  | li rd imm => exact liExpands rd imm
  | addi16sp coded =>
    obtain ⟨holds,rfl⟩ := assertedWord coded
    simp only [isMultipleOf,Bool.and_eq_true,beq_iff_eq,decide_eq_true_eq] at holds
    exact addi16spExpands holds.1 (by omega)
  | lui coded other =>
    obtain ⟨small,rfl⟩ := assertedWord coded
    exact luiExpands (Nat.lt_succ_of_le (of_decide_eq_true small)) other
  | srli coded =>
    obtain ⟨hrd,nonzero,small,rfl⟩ := shiftCoded coded
    exact srliExpands hrd nonzero small
  | srai coded =>
    obtain ⟨hrd,nonzero,small,rfl⟩ := shiftCoded coded
    exact sraiExpands hrd nonzero small
  | andi coded =>
    obtain ⟨hrd,rfl⟩ := assertedWord coded
    exact andiExpands hrd
  | sub coded =>
    obtain ⟨hrd,hrs2,rfl⟩ := rtypeCoded coded
    exact rtypeExpands hrd hrs2 0b00
  | xor coded =>
    obtain ⟨hrd,hrs2,rfl⟩ := rtypeCoded coded
    exact rtypeExpands hrd hrs2 0b01
  | or coded =>
    obtain ⟨hrd,hrs2,rfl⟩ := rtypeCoded coded
    exact rtypeExpands hrd hrs2 0b10
  | and coded =>
    obtain ⟨hrd,hrs2,rfl⟩ := rtypeCoded coded
    exact rtypeExpands hrd hrs2 0b11
  | j offset => exact (jumpExpands offset).2
  | beqz coded =>
    obtain ⟨hrs1,rfl⟩ := assertedWord coded
    exact (branchExpands hrs1).1
  | bnez coded =>
    obtain ⟨hrs1,rfl⟩ := assertedWord coded
    exact (branchExpands hrs1).2
  | slli coded small =>
    obtain ⟨holds,rfl⟩ := assertedWord coded
    simp only [Bool.and_eq_true,decide_eq_true_eq] at holds
    exact slliExpands holds.1 small
  | lwsp coded =>
    obtain ⟨holds,rfl⟩ := assertedWord coded
    simp only [isMultipleOf,Bool.and_eq_true,beq_iff_eq,decide_eq_true_eq] at holds
    exact lwspExpands holds.1 (by omega)
  | flwsp coded =>
    obtain ⟨holds,rfl⟩ := assertedWord coded
    simp only [isMultipleOf,Bool.and_eq_true,beq_iff_eq,decide_eq_true_eq] at holds
    exact flwspExpands holds.2.1 (by omega) holds.1
  | jr coded =>
    obtain ⟨hrs1,rfl⟩ := assertedWord coded
    exact jrExpands (of_decide_eq_true hrs1)
  | mv source => exact mvExpands source
  | ebreak => exact ⟨rfl,rfl⟩
  | jalr coded other =>
    obtain ⟨_,rfl⟩ := assertedWord coded
    exact jalrExpands other
  | add coded hrd hrs2 =>
    obtain ⟨_,rfl⟩ := assertedWord coded
    exact addExpands hrd hrs2
  | swsp coded small =>
    obtain ⟨holds,rfl⟩ := assertedWord coded
    simp only [isMultipleOf,Bool.and_eq_true,beq_iff_eq,decide_eq_true_eq] at holds
    exact swspExpands holds.1 (by omega)
  | fswsp coded =>
    obtain ⟨holds,rfl⟩ := assertedWord coded
    simp only [isMultipleOf,Bool.and_eq_true,beq_iff_eq,decide_eq_true_eq] at holds
    exact fswspExpands holds.2.1 (by omega) holds.1

/- The outputs of the decompressor on each encoder's word, whatever the other half of the fetched word is. -/
theorem counterpartDecompressed {insn : BitVec 16} {word : Option Word} (counterpart : Counterpart insn word)
    (insn32In : Word) :
    decompress insn insn32In = ⟨word.getD 0x00000013,true,word.isSome⟩ := by
  obtain ⟨short,expanded⟩ := counterpartExpands counterpart
  unfold decompress
  rw [if_pos short,expanded]

/- A store below the stack pointer's last word. -/
theorem swspDecompressed : decompress 0b1101111110010110 0 = ⟨sw 2 5 252,true,true⟩ :=
  counterpartDecompressed (.swsp (show cSwsp 5 252 = some 0b1101111110010110 from rfl) (by decide)) 0

/- The encoder makes the reserved C.ADDI4SPN, which the decompressor refuses. -/
theorem addi4spnReserved : cAddi4spn 8 2 0 = some 0 ∧ (decompress 0 0).isValid = false ∧
    (decompress 0 0).insn32 ≠ addi 8 2 0 := by decide

end RiscvSoc.Compressed
