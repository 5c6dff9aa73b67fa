import RiscvSoc.Rtl.Fpu.Integers
import RiscvSoc.Rtl.Fpu.SumAccuracy

/-! Integers to floats and back: the 24 leading bits of the magnitude go through both ways. -/
namespace RiscvSoc.Fpu
open BitNumbers BinaryFloat PriorityEncoder

def clearLow (n : Nat) : Nat := n / 2 ^ (n.log2 - 23) * 2 ^ (n.log2 - 23)

def clearInt (x : Int) : Int := if x < 0 then -(clearLow x.natAbs : Int) else clearLow x.natAbs

theorem clearLowLe (n : Nat) : clearLow n ≤ n := Nat.div_mul_le_self ..

theorem clearLowNonzero {n : Nat} (nonzero : n ≠ 0) : clearLow n ≠ 0 := by
  have low := Nat.log2_self_le nonzero
  have unit := Nat.two_pow_pos (n.log2 - 23)
  have part : 2 ^ (n.log2 - 23) ≤ n := le_trans (Nat.pow_le_pow_right (by decide) (by omega)) low
  exact Nat.mul_ne_zero (Nat.div_pos part unit).ne' unit.ne'

theorem clearIntNat (n : Nat) : clearInt n = clearLow n := by
  rw [clearInt,if_neg (by omega),Int.natAbs_natCast]

theorem clearIntNeg (n : Nat) : clearInt (-n) = -(clearLow n : Int) := by
  rcases Nat.eq_zero_or_pos n with rfl | nonzero
  · rfl
  · rw [clearInt,if_pos (by omega),Int.natAbs_neg,Int.natAbs_natCast]

section magnitude
variable {isSigned : Bool} {val : BitVec 32}

theorem absNumber : intNumber isSigned val =
    if isSigned && val.msb then -((absVal val isSigned).toNat : Int) else (absVal val isSigned).toNat := by
  have bound := val.isLt
  have sign := BitVec.msb_eq_decide val
  cases isSigned with
  | false => rfl
  | true =>
    rw [intNumber,if_pos rfl,BitVec.toInt_eq_toNat_cond,absVal,Bool.true_and]
    cases negative : val.msb with
    | false =>
      rw [negative] at sign
      have low : ¬ 2 ^ 31 ≤ val.toNat := of_decide_eq_false sign.symm
      rw [if_pos (by omega)]
      rfl
    | true =>
      rw [negative] at sign
      have high : 2 ^ 31 ≤ val.toNat := of_decide_eq_true sign.symm
      rw [if_neg (by omega),if_pos rfl,if_pos rfl,BitVec.toNat_neg,Nat.mod_eq_of_lt (by omega)]
      omega

theorem absBound (isSigned : Bool) (val : BitVec 32) : isSigned = true → (absVal val isSigned).toNat ≤ 2 ^ 31 ∧
    (val.msb = false → (absVal val isSigned).toNat < 2 ^ 31) := by
  rintro rfl
  have bound := val.isLt
  have sign := BitVec.msb_eq_decide val
  rw [absVal,Bool.true_and]
  cases negative : val.msb with
  | false =>
    rw [negative] at sign
    have low : ¬ 2 ^ 31 ≤ val.toNat := of_decide_eq_false sign.symm
    rw [if_neg Bool.false_ne_true]
    omega
  | true =>
    rw [negative] at sign
    have high : 2 ^ 31 ≤ val.toNat := of_decide_eq_true sign.symm
    rw [if_pos rfl,BitVec.toNat_neg,Nat.mod_eq_of_lt (by omega)]
    exact ⟨by omega,fun plus => absurd plus Bool.true_eq_false.mp⟩

theorem absNonzero (isSigned : Bool) (nonzero : val ≠ 0) : (absVal val isSigned).toNat ≠ 0 := by
  intro zero
  have nothing : absVal val isSigned = 0 := BitVec.eq_of_toNat_eq zero
  rw [absVal] at nothing
  split at nothing
  · exact nonzero (BitVec.neg_eq_zero_iff.mp nothing)
  · exact nonzero nothing

end magnitude

section encoding
variable {a : BitVec 32} (nonzero : a.toNat ≠ 0)
include nonzero

theorem logSmall : a.toNat.log2 ≤ 31 := by
  have less := (Nat.log2_lt nonzero).mpr a.isLt
  omega

theorem msbPosValue : (msbPos a).toNat = a.toNat.log2 := by
  have small := logSmall nonzero
  obtain ⟨set,clear⟩ := highestBit a (Nat.log2_self_le nonzero) Nat.lt_log2_self
  have code : (BitVec.ofNat 8 a.toNat.log2).toNat = a.toNat.log2 := by
    rw [BitVec.toNat_ofNat]
    omega
  rw [msbPos,encodeHighest (Nat.zero_le _) (by omega) set (fun q more _ => clear q more),code]
  intro zero
  rw [zero] at code
  exact code.symm

def leadingBits (n : Nat) : Nat := if 23 ≤ n.log2 then n / 2 ^ (n.log2 - 23) else n * 2 ^ (23 - n.log2)

theorem intLeading : Leading 24 (a.toNat : ℚ) (leadingBits a.toNat) ((a.toNat.log2 + 127 : Nat) - 150) := by
  have low := Nat.log2_self_le nonzero
  have high := Nat.lt_log2_self (n := a.toNat)
  have whole : (a.toNat : ℚ) = scaled a.toNat 0 := by simp [scaled]
  rw [leadingBits]
  split
  · rename_i wide
    have unit : ((a.toNat.log2 + 127 : Nat) : Int) - 150 = 0 + (a.toNat.log2 - 23 : Nat) := by omega
    rw [whole,unit]
    apply leadingShift
    · rwa [show 24 - 1 + (a.toNat.log2 - 23) = a.toNat.log2 by omega]
    · rwa [show 24 + (a.toNat.log2 - 23) = a.toNat.log2 + 1 by omega]
  · rename_i narrow
    have unit : (0 : Int) = (a.toNat.log2 + 127 : Nat) - 150 + (23 - a.toNat.log2 : Nat) := by omega
    rw [whole,unit,← scaledShift]
    obtain ⟨up,less⟩ := leadingUp 23 nonzero (by omega)
    exact leadingExact _ up less

theorem intMantissaValue : intMantissa a = BitVec.ofNat 23 (leadingBits a.toNat) := by
  have position := msbPosValue nonzero
  apply BitVec.eq_of_toNat_eq
  rw [intMantissa,leadingBits,position,BitVec.toNat_ofNat]
  by_cases wide : 23 ≤ a.toNat.log2
  · rw [if_pos wide,if_pos wide,sliceValue]
  · rw [if_neg wide,if_neg wide,BitVec.toNat_shiftLeft,sliceValue,Nat.shiftLeft_eq,Nat.pow_zero,Nat.div_one,
      Nat.mod_mul_mod]

end encoding

section conversion
variable {isSigned : Bool} {val : BitVec 32} (given : val ≠ 0)
include given

theorem intToFloatPacked : intToFloat val isSigned = pack (isSigned && val.msb)
    (BitVec.ofNat 8 ((absVal val isSigned).toNat.log2 + 127)) (BitVec.ofNat 23 (leadingBits (absVal val isSigned).toNat)) := by
  have nonzero := absNonzero isSigned given
  have small := logSmall nonzero
  have exp : 127#8 + msbPos (absVal val isSigned) = BitVec.ofNat 8 ((absVal val isSigned).toNat.log2 + 127) := by
    apply BitVec.eq_of_toNat_eq
    rw [BitVec.toNat_add,msbPosValue nonzero]
    simp only [BitVec.toNat_ofNat]
    omega
  rw [intToFloat,if_neg given,exp,intMantissaValue nonzero]

theorem intToFloatTruncates (isSigned : Bool) : IsFinite (intToFloat val isSigned) ∧
    size (intToFloat val isSigned) = truncate 24 ((absVal val isSigned).toNat : ℚ) := by
  have nonzero := absNonzero isSigned given
  have small := logSmall nonzero
  rw [intToFloatPacked given]
  exact ⟨packedFinite (by omega),packedLeading (intLeading nonzero) (by omega) (by omega)⟩

theorem floatFloor : ⌊size (intToFloat val isSigned)⌋ = clearLow (absVal val isSigned).toNat := by
  have nonzero := absNonzero isSigned given
  have small := logSmall nonzero
  rw [(intToFloatTruncates given isSigned).2,leadingTruncate (intLeading nonzero),leadingBits,clearLow]
  generalize (absVal val isSigned).toNat = n at *
  split
  · have unit : ((n.log2 + 127 : Nat) : Int) - 150 = (n.log2 - 23 : Nat) := by omega
    rw [unit,floorWhole]
  · have unit : (n.log2 + 127 : Nat) - 150 + ((23 - n.log2 : Nat) : Int) = (0 : Nat) := by omega
    rw [scaledShift,unit,floorWhole,show n.log2 - 23 = 0 by omega,Nat.pow_zero,Nat.div_one]

theorem roundTripNumber : intNumber isSigned (floatToInt (intToFloat val isSigned) isSigned).result =
    clearInt (intNumber isSigned val) := by
  have nonzero := absNonzero isSigned given
  have small := logSmall nonzero
  have biased : (exponent (intToFloat val isSigned)).toNat = 127 + (absVal val isSigned).toNat.log2 := by
    rw [intToFloatPacked given,packExponent,BitVec.toNat_ofNat]
    omega
  have negative : sign (intToFloat val isSigned) = (isSigned && val.msb) := by
    rw [intToFloatPacked given,packSign]
  have finite := (intToFloatTruncates given isSigned).1
  have temp := tempValue finite biased small
  have returned := (finiteReturned isSigned finite).within _ biased small
  have bound := absBound isSigned val
  have below := clearLowLe (absVal val isSigned).toNat
  rw [floatFloor given,Nat.cast_inj] at temp
  have exact := @absNumber isSigned val
  rw [returned,negative,exact]
  generalize tempResult (intToFloat val isSigned) = t at *
  generalize (absVal val isSigned).toNat = n at *
  have plain := tempNumber isSigned (x := t)
  cases isSigned with
  | false =>
    simp only [Bool.false_and,Bool.false_eq_true,if_false] at plain ⊢
    rw [plain,clearIntNat,temp]
  | true =>
    obtain ⟨most,less⟩ := bound rfl
    cases minus : val.msb with
    | false =>
      have fits := less minus
      simp only [Bool.true_and,decide_eq_true_eq,Bool.false_eq_true,if_false] at plain ⊢
      rw [plain,clearIntNat,if_neg (by omega),temp]
    | true =>
      have negated := tempNumber true (x := -t)
      rw [BitVec.toNat_neg] at negated
      simp only [Bool.true_and,decide_eq_true_eq,if_true] at negated ⊢
      have kept := clearLowNonzero nonzero
      rw [negated,clearIntNeg,Nat.mod_eq_of_lt (by omega)]
      split <;> omega

end conversion

theorem noneConverted (isSigned : Bool) : intToFloat 0 isSigned = posZero := if_pos rfl

theorem intToFloatValue (isSigned : Bool) (val : BitVec 32) : IsFinite (intToFloat val isSigned) ∧
    value (intToFloat val isSigned) = truncate 24 (intNumber isSigned val : ℚ) := by
  by_cases nothing : val = 0
  · have zero : value posZero = 0 := by decide +kernel
    have cutNone : truncate 24 0 = 0 := by simp [truncate,cut]
    rw [nothing,noneConverted,zero,zeroNumber,Int.cast_zero,cutNone]
    exact ⟨by decide,rfl⟩
  · obtain ⟨finite,magnitude⟩ := intToFloatTruncates nothing isSigned
    have negative : sign (intToFloat val isSigned) = (isSigned && val.msb) := by
      rw [intToFloatPacked nothing,packSign]
    have exact : (intNumber isSigned val : ℚ) = signed (isSigned && val.msb) (absVal val isSigned).toNat := by
      rw [absNumber,signed]
      split <;> push_cast <;> rfl
    refine ⟨finite,?_⟩
    rw [value,negative,magnitude,exact,signedTruncate _ (Nat.cast_nonneg _)]

theorem clearedBack (isSigned : Bool) (val : BitVec 32) :
    intNumber isSigned (floatToInt (intToFloat val isSigned) isSigned).result = clearInt (intNumber isSigned val) := by
  by_cases zero : val = 0
  · rw [zero]
    cases isSigned <;> decide
  · exact roundTripNumber zero

def floatOp (isSigned : Bool) : FpuOp := if isSigned then .cvtsw else .cvtswu

/- FCVT.S.W and FCVT.S.WU round toward zero, and the way back clears what was cut off. -/
theorem fcvtRoundTrip (s : Regs) (i back : Inputs) (isSigned : Bool) (x other : BitVec 32) :
    IsFinite (fpResult s {i with fpuOp := floatOp isSigned, intSrc := x}) ∧
    value (fpResult s {i with fpuOp := floatOp isSigned, intSrc := x}) = truncate 24 (intNumber isSigned x : ℚ) ∧
    intNumber isSigned (intResult (back.ask (intOp isSigned)
        (fpResult s {i with fpuOp := floatOp isSigned, intSrc := x}) other)) =
      clearInt (intNumber isSigned x) := by
  have wired : fpResult s {i with fpuOp := floatOp isSigned, intSrc := x} = intToFloat x isSigned := by
    cases isSigned <;> rfl
  rw [wired,(fcvtWired s back isSigned _ other).1]
  obtain ⟨finite,rounded⟩ := intToFloatValue isSigned x
  exact ⟨finite,rounded,clearedBack isSigned x⟩

end RiscvSoc.Fpu
