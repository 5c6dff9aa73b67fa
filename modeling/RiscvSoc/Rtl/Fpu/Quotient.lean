import RiscvSoc.Rtl.Fpu.Operations
import RiscvSoc.Rtl.Fpu.Product

/-! FDIV of normal operands. The quotient of the significands, scaled by 2^24, has 24 or 25 bits,
and the nine-bit exponent tells underflow from overflow for every pair of normal operands. -/
namespace RiscvSoc.Fpu
open BitNumbers BinaryFloat

section quotient
variable (a b : BitVec 32)

def mantQuotient : BitVec 48 := (significand a ++ 0#24) / (0#24 ++ significand b)

theorem mantQuotientValue : (mantQuotient a b).toNat = (significand a).toNat * 2 ^ 24 / (significand b).toNat := by
  have zero : (0#24).toNat = 0 := rfl
  rw [mantQuotient,BitVec.toNat_udiv,zeroExtended,appendValue,zero,Nat.add_zero]

theorem mantQuotientBounds : 2 ^ 23 ≤ (mantQuotient a b).toNat ∧ (mantQuotient a b).toNat < 2 ^ 25 := by
  obtain ⟨lowA,highA⟩ := significandBounds a
  obtain ⟨lowB,highB⟩ := significandBounds b
  have positive : 0 < (significand b).toNat := by omega
  rw [mantQuotientValue,Nat.le_div_iff_mul_le positive,Nat.div_lt_iff_lt_mul positive]
  omega

def quotientCarry : Nat := if 2 ^ 24 ≤ (mantQuotient a b).toNat then 1 else 0

theorem quotientCases :
    (mantQuotient a b).getLsbD 24 = true ∧ quotientCarry a b = 1 ∧ 2 ^ 24 ≤ (mantQuotient a b).toNat ∨
    (mantQuotient a b).getLsbD 24 = false ∧ (mantQuotient a b).getLsbD 23 = true ∧ quotientCarry a b = 0 ∧
      (mantQuotient a b).toNat < 2 ^ 24 := by
  obtain ⟨low,high⟩ := mantQuotientBounds a b
  rw [bitValue,bitValue,quotientCarry]
  by_cases carry : 2 ^ 24 ≤ (mantQuotient a b).toNat
  · exact .inl ⟨decide_eq_true (by omega),if_pos carry,carry⟩
  · exact .inr ⟨decide_eq_false (by omega),decide_eq_true (by omega),if_neg carry,by omega⟩

theorem divExpValue : (divExpWide a b).toNat = ((exponent a).toNat + 639 - (exponent b).toNat) % 512 := by
  have ea := (exponent a).isLt
  have eb := (exponent b).isLt
  rw [divExpWide,BitVec.toNat_add,BitVec.toNat_sub,zeroExtended,zeroExtended]
  simp only [BitVec.toNat_ofNat]
  omega

def quotientWeight : Nat := (exponent a).toNat + 638 + quotientCarry a b - (exponent b).toNat

theorem normalizedQuotient : (normalizeQuotient (divExpWide a b) (mantQuotient a b)).expWide.toNat =
      quotientWeight a b % 512 ∧
    (normalizeQuotient (divExpWide a b) (mantQuotient a b)).mant =
      BitVec.ofNat 23 ((mantQuotient a b).toNat / 2 ^ quotientCarry a b) := by
  have eb := (exponent b).isLt
  have exp := divExpValue a b
  rw [normalizeQuotient,quotientWeight]
  rcases quotientCases a b with ⟨bit,carry,_⟩ | ⟨clear,bit,carry,_⟩
  · rw [if_pos bit,carry]
    refine ⟨exp,BitVec.eq_of_toNat_eq ?_⟩
    rw [sliceValue,BitVec.toNat_ofNat]
  · rw [if_neg (Bool.eq_false_iff.mp clear),if_pos bit,carry]
    refine ⟨?_,BitVec.eq_of_toNat_eq ?_⟩
    · rw [BitVec.toNat_sub,exp]
      simp only [BitVec.ofNat_eq_ofNat,BitVec.toNat_ofNat]
      omega
    · rw [sliceValue,BitVec.toNat_ofNat]

theorem weightRange {a b : BitVec 32} (normalA : IsNormal a) (normalB : IsNormal b) :
    385 ≤ quotientWeight a b ∧ quotientWeight a b < 893 := by
  have rangeA := exponentRange normalA
  have rangeB := exponentRange normalB
  rw [quotientWeight]
  rcases quotientCases a b with ⟨_,carry,_⟩ | ⟨_,_,carry,_⟩ <;> omega

end quotient

section normal
variable {a b : BitVec 32} (normalA : IsNormal a) (normalB : IsNormal b)
include normalA normalB

theorem quotientLeading : Leading 24 (|value a / value b|)
    ((mantQuotient a b).toNat / 2 ^ quotientCarry a b) ((quotientWeight a b : Int) - 512 - 150) := by
  obtain ⟨lowB,highB⟩ := significandBounds b
  obtain ⟨low,high⟩ := mantQuotientBounds a b
  have eb := (exponent b).isLt
  have positive : 0 < (significand b).toNat := by omega
  have exact : |value a / value b| =
      scaled (significand a).toNat ((exponent a).toNat - (exponent b).toNat) / (significand b).toNat := by
    have unit := unitPositive ((exponent b).toNat - 150 : Int)
    have nonzero : ((significand b).toNat : ℚ) ≠ 0 := by exact_mod_cast positive.ne'
    have parts : ((exponent a).toNat : Int) - 150 =
        (exponent a).toNat - (exponent b).toNat + ((exponent b).toNat - 150) := by omega
    rw [abs_div,valueSize,valueSize,sizeNormal normalA.2,sizeNormal normalB.2,parts,scaled,scaled,scaled,
      zpow_add₀ (by norm_num : (2 : ℚ) ≠ 0)]
    field_simp
  have raised : ∀ k : Nat, scaled (significand a).toNat ((exponent a).toNat - (exponent b).toNat) =
      scaled ((significand a).toNat * 2 ^ k) ((exponent a).toNat - (exponent b).toNat - k) := by
    intro k
    rw [scaledShift,sub_add_cancel]
  have quotient := mantQuotientValue a b
  rw [exact,quotientWeight]
  rcases quotientCases a b with ⟨_,carry,top⟩ | ⟨_,_,carry,top⟩ <;> rw [carry]
  · have halved : (mantQuotient a b).toNat / 2 ^ 1 = (significand a).toNat * 2 ^ 23 / (significand b).toNat := by
      rw [quotient,Nat.div_div_eq_div_mul,Nat.pow_one,Nat.pow_succ 2 23,← Nat.mul_assoc,Nat.mul_div_mul_right _ _ (by decide)]
    have weight : ((exponent a).toNat + 638 + 1 - (exponent b).toNat : Nat) - 512 - 150 =
        ((exponent a).toNat : Int) - (exponent b).toNat - 23 := by omega
    rw [raised 23,halved,weight]
    exact leadingQuotient _ positive (by rw [← halved]; omega) (by rw [← halved]; omega)
  · have weight : ((exponent a).toNat + 638 + 0 - (exponent b).toNat : Nat) - 512 - 150 =
        ((exponent a).toNat : Int) - (exponent b).toNat - 24 := by omega
    rw [raised 24,Nat.pow_zero,Nat.div_one,quotient,weight]
    exact leadingQuotient _ positive (by rw [← quotient]; omega) (by rw [← quotient]; omega)

theorem assembledRange : (divAssemble a b (mantQuotient a b)).result =
    if quotientWeight a b ≤ 512 then pack (sign a ^^ sign b) 0 0
    else if 767 ≤ quotientWeight a b then pack (sign a ^^ sign b) 0xFF 0
    else pack (sign a ^^ sign b) (BitVec.ofNat 8 (quotientWeight a b - 512))
      (BitVec.ofNat 23 ((mantQuotient a b).toNat / 2 ^ quotientCarry a b)) := by
  obtain ⟨low,high⟩ := weightRange normalA normalB
  obtain ⟨exp,mant⟩ := normalizedQuotient a b
  rw [divAssemble,assembleRange,mant]
  generalize (normalizeQuotient (divExpWide a b) (mantQuotient a b)).expWide = e at *
  have under : (e.getLsbD 8 && e.getLsbD 7) = decide (quotientWeight a b < 512) := by
    rw [bitValue,bitValue,← Bool.decide_and,decide_eq_decide,exp]
    omega
  have zero : e = 0 ↔ quotientWeight a b % 512 = 0 := by
    rw [← exp,← BitVec.toNat_inj]
    rfl
  simp only [under,zero,exp,decide_eq_true_eq]
  by_cases less : quotientWeight a b < 512
  · rw [if_pos less,if_pos less.le]
  · rw [if_neg less]
    by_cases large : 767 ≤ quotientWeight a b
    · rw [if_pos (by omega),if_neg (by omega),if_pos large]
    · rw [if_neg (by omega)]
      by_cases nothing : quotientWeight a b = 512
      · rw [if_pos (by omega),if_pos nothing.le]
      · have kept : e.extractLsb' 0 8 = BitVec.ofNat 8 (quotientWeight a b - 512) := by
          apply BitVec.eq_of_toNat_eq
          rw [sliceValue,exp,BitVec.toNat_ofNat]
          omega
        rw [if_neg (by omega),if_neg (by omega),if_neg large,kept]

/- The quotient of two normal operands, with a zero below the normal range. -/
structure Divided (a b r : BitVec 32) : Prop where
  rounds : Rounds (sign a ^^ sign b) (|value a / value b|) r
  zero : |value a / value b| < 2 ^ (-126 : Int) → r = pack (sign a ^^ sign b) 0 0

theorem assembledDivided : Divided a b (divAssemble a b (mantQuotient a b)).result := by
  have leading := quotientLeading normalA normalB
  have reaches := leadingReaches leading
  have range := weightRange normalA normalB
  rw [assembledRange normalA normalB]
  by_cases less : quotientWeight a b ≤ 512
  · have small : |value a / value b| < 2 ^ (-126 : Int) :=
      not_le.mp fun high => by have := (reaches (-126)).mp high; omega
    rw [if_pos less]
    exact ⟨roundsZero small,fun _ => rfl⟩
  · have reached := (reaches (-126)).mpr (by omega)
    refine ⟨?_,fun small => absurd reached (not_le.mpr small)⟩
    rw [if_neg less]
    by_cases large : 767 ≤ quotientWeight a b
    · rw [if_pos large]
      exact roundsInf ((reaches 128).mpr (by omega))
    · have weight : ((quotientWeight a b - 512 : Nat) : Int) - 150 = quotientWeight a b - 512 - 150 := by omega
      rw [if_neg large]
      refine roundsNormal ?_ (by omega) (by omega)
      rw [weight]
      exact leading

theorem normalStarts (i : Inputs) : divStart (i.ask .div a b).begin = true := by
  obtain ⟨nanA,infA⟩ := finiteClass normalA.1
  obtain ⟨nanB,infB⟩ := finiteClass normalB.1
  have needs : (divSetup a b).needsDiv = true := by
    simp [divSetup,nanA,infA,nanB,infB,nonzeroExponent normalA.2,nonzeroExponent normalB.2]
  simp only [divStart,Inputs.ask,Inputs.begin,needs]
  rfl

end normal

/- FDIV truncates, whatever was computed before it. -/
theorem fdivTruncates {s : Regs} (reached : Reached s) (i : Inputs) (a b : BitVec 32) (normalA : IsNormal a)
    (normalB : IsNormal b) :
    (∃ r t, Completes (i.ask .div a b).begin s r t) ∧
    ∀ r t, Completes (i.ask .div a b).begin s r t → Divided a b r := by
  have quiet := reachedQuiet reached
  have start := normalStarts normalA normalB i
  refine ⟨startCompletes quiet start,fun r t done => ?_⟩
  rw [(startAnswers quiet start done).2]
  exact assembledDivided normalA normalB

/- 1.0 / 0.0 and then 1.0 / 3.0. -/
theorem thirdTruncates : ∃ r t, Completes (Inputs.ask ⟨true,0,0,0,0,.div⟩ .div 0x3F800000 0x40400000).begin
    (step reset (Inputs.ask ⟨true,0,0,0,0,.div⟩ .div 0x3F800000 posZero).begin) r t ∧
    Divided 0x3F800000 0x40400000 r := by
  have before : Reached (step reset (Inputs.ask ⟨true,0,0,0,0,.div⟩ .div 0x3F800000 posZero).begin) :=
    .operation .reset _ (.ready (by decide))
  obtain ⟨⟨r,t,done⟩,truncates⟩ := fdivTruncates before ⟨true,0,0,0,0,.div⟩ 0x3F800000 0x40400000 (by decide) (by decide)
  exact ⟨r,t,done,truncates r t done⟩

end RiscvSoc.Fpu
