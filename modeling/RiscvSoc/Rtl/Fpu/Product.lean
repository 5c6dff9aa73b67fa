import RiscvSoc.Rtl.Fpu.Fpu

/-! FMUL of normal operands. The product of the significands has 47 or 48 bits, and the weight of
its leading bits decides between the normal range and the two ends; the nine-bit exponent sum
tells the two ends apart only at zero. -/
namespace RiscvSoc.Fpu
open BitNumbers BinaryFloat

/- A result of sign `s` for an exact magnitude `q`. -/
structure Rounds (s : Bool) (q : ℚ) (r : BitVec 32) : Prop where
  sign : sign r = s
  small : q < 2 ^ (-126 : Int) → exponent r = 0
  normal : 2 ^ (-126 : Int) ≤ q → q < 2 ^ (128 : Int) → IsFinite r ∧ size r = truncate 24 q
  large : 2 ^ (128 : Int) ≤ q → r = pack s 0xFF 0

theorem packedLeading {s : Bool} {q : ℚ} {m e : Nat} (h : Leading 24 q m ((e : Int) - 150)) (positive : 0 < e)
    (below : e < 255) : size (pack s (BitVec.ofNat 8 e) (BitVec.ofNat 23 m)) = truncate 24 q := by
  have normal := h.normal
  have fits := h.fits
  have bits : (significand (pack s (BitVec.ofNat 8 e) (BitVec.ofNat 23 m))).toNat = m := by
    rw [significandValue,packFraction,BitVec.toNat_ofNat]
    omega
  rw [leadingTruncate h,sizeNormal (packedNormal positive below).2,bits,packExponent,biasedValue below]

theorem rangeApart {q : ℚ} (large : 2 ^ (128 : Int) ≤ q) : ¬ q < 2 ^ (-126 : Int) := by
  have less : (2 : ℚ) ^ (-126 : Int) ≤ 2 ^ (128 : Int) := zpow_le_zpow_right₀ (by norm_num) (by norm_num)
  exact not_lt.mpr (le_trans less large)

theorem roundsNormal {s : Bool} {q : ℚ} {m e : Nat} (h : Leading 24 q m ((e : Int) - 150)) (positive : 0 < e)
    (below : e < 255) : Rounds s q (pack s (BitVec.ofNat 8 e) (BitVec.ofNat 23 m)) where
  sign := packSign ..
  small less := absurd ((leadingReaches h (-126)).mpr (by omega)) (not_le.mpr less)
  normal _ _ := ⟨packedFinite below,packedLeading h positive below⟩
  large reaches := absurd ((leadingReaches h 128).mp reaches) (by omega)

theorem roundsInf {s : Bool} {q : ℚ} (large : 2 ^ (128 : Int) ≤ q) : Rounds s q (pack s 0xFF 0) where
  sign := packSign ..
  small less := absurd less (rangeApart large)
  normal _ less := absurd large (not_le.mpr less)
  large _ := rfl

theorem roundsZero {s : Bool} {q : ℚ} (small : q < 2 ^ (-126 : Int)) : Rounds s q (pack s 0 0) where
  sign := packSign ..
  small _ := packExponent ..
  normal reaches _ := absurd small (not_lt.mpr reaches)
  large reaches := absurd small (rangeApart reaches)

section product
variable (a b : BitVec 32)

theorem mulProductValue : (mulProduct a b).toNat = (significand a).toNat * (significand b).toNat := by
  have fits : (significand a).toNat * (significand b).toNat < 2 ^ 24 * 2 ^ 24 :=
    Nat.mul_lt_mul'' (significandBounds a).2 (significandBounds b).2
  rw [mulProduct,BitVec.toNat_mul,zeroExtended,zeroExtended]
  exact Nat.mod_eq_of_lt fits

theorem mulProductBounds : 2 ^ 46 ≤ (mulProduct a b).toNat ∧ (mulProduct a b).toNat < 2 ^ 48 := by
  have low : 2 ^ 23 * 2 ^ 23 ≤ (significand a).toNat * (significand b).toNat :=
    Nat.mul_le_mul (significandBounds a).1 (significandBounds b).1
  rw [mulProductValue]
  exact ⟨low,mulProductValue a b ▸ (mulProduct a b).isLt⟩

def productCarry : Nat := if 2 ^ 47 ≤ (mulProduct a b).toNat then 1 else 0

def productWeight : Nat := (exponent a).toNat + (exponent b).toNat + productCarry a b

theorem carryCases :
    (mulProduct a b).getLsbD 47 = true ∧ productCarry a b = 1 ∧ 2 ^ 47 ≤ (mulProduct a b).toNat ∨
    (mulProduct a b).getLsbD 47 = false ∧ productCarry a b = 0 ∧ (mulProduct a b).toNat < 2 ^ 47 := by
  have high := (mulProductBounds a b).2
  rw [bitValue,productCarry]
  by_cases carry : 2 ^ 47 ≤ (mulProduct a b).toNat
  · exact .inl ⟨decide_eq_true (by omega),if_pos carry,carry⟩
  · exact .inr ⟨decide_eq_false (by omega),if_neg carry,by omega⟩

theorem expWideValue : (mulExpWide a b).toNat = ((exponent a).toNat + (exponent b).toNat + 385) % 512 := by
  have ea := (exponent a).isLt
  have eb := (exponent b).isLt
  rw [mulExpWide,BitVec.toNat_sub,BitVec.toNat_add,zeroExtended,zeroExtended]
  simp only [BitVec.toNat_ofNat]
  omega

theorem normalizedExponent : (if (mulProduct a b).getLsbD 47 then mulExpWide a b + 1 else mulExpWide a b).toNat =
    (productWeight a b + 385) % 512 := by
  rw [productWeight]
  rcases carryCases a b with ⟨bit,carry,_⟩ | ⟨bit,carry,_⟩
  · rw [if_pos bit,carry,BitVec.toNat_add,expWideValue]
    simp only [BitVec.ofNat_eq_ofNat,BitVec.toNat_ofNat]
    omega
  · rw [if_neg (Bool.eq_false_iff.mp bit),carry,expWideValue,Nat.add_zero]

theorem normalizedMantissa : (if (mulProduct a b).getLsbD 47 then (mulProduct a b).extractLsb' 24 23
    else (mulProduct a b).extractLsb' 23 23) =
    BitVec.ofNat 23 ((mulProduct a b).toNat / 2 ^ (23 + productCarry a b)) := by
  apply BitVec.eq_of_toNat_eq
  rw [BitVec.toNat_ofNat]
  rcases carryCases a b with ⟨bit,carry,_⟩ | ⟨bit,carry,_⟩
  · rw [if_pos bit,carry,sliceValue]
  · rw [if_neg (Bool.eq_false_iff.mp bit),carry,sliceValue]

theorem weightBound : productWeight a b ≤ 511 := by
  have ea := (exponent a).isLt
  have eb := (exponent b).isLt
  rw [productWeight]
  rcases carryCases a b with ⟨_,carry,_⟩ | ⟨_,carry,_⟩ <;> omega

theorem multiplyRange : multiplyNormal a b =
    if productWeight a b < 127 ∨ 382 ≤ productWeight a b then pack (sign a ^^ sign b) 0xFF 0
    else if productWeight a b = 127 then pack (sign a ^^ sign b) 0 0
    else pack (sign a ^^ sign b) (BitVec.ofNat 8 (productWeight a b - 127))
      (BitVec.ofNat 23 ((mulProduct a b).toNat / 2 ^ (23 + productCarry a b))) := by
  have bound := weightBound a b
  have value := normalizedExponent a b
  rw [multiplyNormal,normalizedMantissa]
  generalize (if (mulProduct a b).getLsbD 47 then mulExpWide a b + 1 else mulExpWide a b) = e at *
  have ends : (e.getLsbD 8 || decide (254 < e.toNat)) =
      decide (productWeight a b < 127 ∨ 382 ≤ productWeight a b) := by
    rw [bitValue,← Bool.decide_or,decide_eq_decide,value]
    omega
  have zero : e = 0 ↔ (productWeight a b + 385) % 512 = 0 := by
    rw [← value,← BitVec.toNat_inj]
    rfl
  simp only [ends,zero,decide_eq_true_eq]
  by_cases out : productWeight a b < 127 ∨ 382 ≤ productWeight a b
  · rw [if_pos out,if_pos out]
  · rw [if_neg out,if_neg out]
    by_cases nothing : productWeight a b = 127
    · rw [if_pos (by omega),if_pos nothing]
    · rw [if_neg (by omega),if_neg nothing]
      have kept : e.extractLsb' 0 8 = BitVec.ofNat 8 (productWeight a b - 127) := by
        apply BitVec.eq_of_toNat_eq
        rw [sliceValue,value,BitVec.toNat_ofNat]
        omega
      rw [kept]

end product

section normal
variable {a b : BitVec 32} (normalA : IsNormal a) (normalB : IsNormal b)
include normalA normalB

theorem productLeading : Leading 24 (|value a * value b|)
    ((mulProduct a b).toNat / 2 ^ (23 + productCarry a b)) (productWeight a b - 277) := by
  obtain ⟨low,high⟩ := mulProductBounds a b
  have exact : |value a * value b| =
      scaled (mulProduct a b).toNat ((exponent a).toNat - 150 + ((exponent b).toNat - 150)) := by
    rw [abs_mul,valueSize,valueSize,sizeNormal normalA.2,sizeNormal normalB.2,scaledMul,mulProductValue]
  have weight : (productWeight a b : Int) - 277 =
      (exponent a).toNat - 150 + ((exponent b).toNat - 150) + (23 + productCarry a b : Nat) := by
    rw [productWeight]
    omega
  rw [exact,weight]
  rcases carryCases a b with ⟨_,carry,top⟩ | ⟨_,carry,top⟩ <;> rw [carry]
  · exact leadingShift _ top high
  · exact leadingShift _ low top

theorem multiplyNormals : multiply a b = multiplyNormal a b := by
  obtain ⟨nanA,infA⟩ := finiteClass normalA.1
  obtain ⟨nanB,infB⟩ := finiteClass normalB.1
  simp [multiply,nanA,infA,nanB,infB,nonzeroExponent normalA.2,nonzeroExponent normalB.2]

end normal

theorem addPosZero {p : BitVec 32} (number : isNan p = false) :
    add p posZero false = if isZero p then posZero else p := by
  have zero : isNan posZero = false ∧ isInf posZero = false ∧ isZero posZero = true := by decide
  have addendZero : addend posZero false = posZero := rfl
  have bounded : isInf p = true → isZero p = false := by
    intro inf
    apply nonzeroExponent
    have full : exponent p = 0xFF := by
      rw [isInf,Bool.and_eq_true] at inf
      exact beq_iff_eq.mp inf.1
    rw [full]
    decide
  rw [add]
  cases inf : isInf p with
  | true => simp [number,zero,bounded inf]
  | false => simp [number,zero,addendZero]

theorem fmulRange (s : Regs) (i : Inputs) {a b : BitVec 32} (normalA : IsNormal a) (normalB : IsNormal b) :
    fpResult s (i.ask .mul a b) =
      if productWeight a b < 127 ∨ 382 ≤ productWeight a b then pack (sign a ^^ sign b) 0xFF 0
      else if productWeight a b = 127 then posZero
      else pack (sign a ^^ sign b) (BitVec.ofNat 8 (productWeight a b - 127))
        (BitVec.ofNat 23 ((mulProduct a b).toNat / 2 ^ (23 + productCarry a b))) := by
  have wired : fpResult s (i.ask .mul a b) = add (multiply a b) posZero false := rfl
  rw [wired,multiplyNormals normalA normalB,multiplyRange]
  by_cases out : productWeight a b < 127 ∨ 382 ≤ productWeight a b
  · simp only [if_pos out]
    rw [addPosZero (infPacked _).1,(infPacked _).2.2]
    rfl
  · simp only [if_neg out]
    by_cases zero : productWeight a b = 127
    · simp only [if_pos zero]
      rw [addPosZero (zeroPacked _).1,(zeroPacked _).2.2]
      rfl
    · simp only [if_neg zero]
      have normal : IsNormal (pack (sign a ^^ sign b) (BitVec.ofNat 8 (productWeight a b - 127))
          (BitVec.ofNat 23 ((mulProduct a b).toNat / 2 ^ (23 + productCarry a b)))) :=
        packedNormal (by omega) (by omega)
      rw [addPosZero (finiteClass normal.1).1,nonzeroExponent normal.2]
      rfl

/- FMUL behaves at both ends of the range exactly when the product does not fall below the
normal numbers, or falls into the last binade below them with a positive sign. -/
theorem fmulRounds (s : Regs) (i : Inputs) (a b : BitVec 32) (normalA : IsNormal a) (normalB : IsNormal b) :
    Rounds (sign a ^^ sign b) (|value a * value b|) (fpResult s (i.ask .mul a b)) ↔
      2 ^ (-126 : Int) ≤ |value a * value b| ∨ 2 ^ (-127 : Int) ≤ |value a * value b| ∧ sign a = sign b := by
  have leading := productLeading normalA normalB
  have reaches := leadingReaches leading
  have bound := weightBound a b
  have result := fmulRange s i normalA normalB
  rw [result,reaches,reaches]
  rcases Nat.lt_trichotomy (productWeight a b) 127 with less | last | more
  · rw [if_pos (.inl less)]
    refine iff_of_false (fun rounds => ?_) (by omega)
    have zero := rounds.small (not_le.mp fun high => by have := (reaches (-126)).mp high; omega)
    rw [packExponent] at zero
    contradiction
  · have small : |value a * value b| < 2 ^ (-126 : Int) :=
      not_le.mp fun high => by have := (reaches (-126)).mp high; omega
    rw [if_neg (by omega),if_pos last]
    constructor
    · intro rounds
      have plus : false = (sign a ^^ sign b) := rounds.sign
      exact .inr ⟨by omega,by simpa using plus.symm⟩
    · rintro (high | ⟨_,same⟩)
      · omega
      · rw [same,Bool.xor_self]
        exact roundsZero small
  · by_cases large : 382 ≤ productWeight a b
    · rw [if_pos (.inr large)]
      exact iff_of_true (roundsInf ((reaches 128).mpr (by omega))) (.inl (by omega))
    · rw [if_neg (by omega),if_neg (by omega)]
      have weight : ((productWeight a b - 127 : Nat) : Int) - 150 = productWeight a b - 277 := by omega
      refine iff_of_true (roundsNormal ?_ (by omega) (by omega)) (.inl (by omega))
      rw [weight]
      exact leading

/- 1.5 times 2.0. -/
theorem threeRounds : Rounds false (|value 0x3FC00000 * value 0x40000000|)
    (fpResult reset (Inputs.ask ⟨true,0,0,0,0,.mul⟩ .mul 0x3FC00000 0x40000000)) :=
  (fmulRounds reset ⟨true,0,0,0,0,.mul⟩ 0x3FC00000 0x40000000 (by decide) (by decide)).mpr (.inl (by decide +kernel))

/- The least normal number squared is answered with an infinity. -/
theorem leastSquareInfinite : IsNormal 0x00800000 ∧
    fpResult reset (Inputs.ask ⟨true,0,0,0,0,.mul⟩ .mul 0x00800000 0x00800000) = posInf ∧
    ¬ Rounds false (|value 0x00800000 * value 0x00800000|)
      (fpResult reset (Inputs.ask ⟨true,0,0,0,0,.mul⟩ .mul 0x00800000 0x00800000)) := by
  refine ⟨by decide,by decide,fun rounds => ?_⟩
  have zero := rounds.small (by decide +kernel)
  exact absurd zero (by decide)

end RiscvSoc.Fpu
