import RiscvSoc.Rtl.Fpu.Fpu

/-! The comparisons. The comparator orders the patterns by sign and magnitude with both zeros in
one place; FEQ and FLE compare bits. -/
namespace RiscvSoc.Fpu
open BitNumbers

def place (x : BitVec 32) : Int := if sign x then -(lowBits x).toNat else (lowBits x).toNat

theorem zeroPlace (x : BitVec 32) : isZero x = true ↔ (lowBits x).toNat = 0 := by
  rw [isZero,beq_iff_eq,← BitVec.toNat_inj]
  rfl

theorem lessPlace {a b : BitVec 32} (numberA : isNan a = false) (numberB : isNan b = false) :
    lessThan a b = decide (place a < place b) := by
  have zeroA := zeroPlace a
  have zeroB := zeroPlace b
  rw [lessThan,numberA,numberB,Bool.or_self,if_neg Bool.false_ne_true,place,place]
  by_cases zeros : (isZero a && isZero b) = true
  · rw [Bool.and_eq_true,zeroA,zeroB] at zeros
    rw [if_pos (by rw [Bool.and_eq_true,zeroA,zeroB]; exact zeros)]
    symm
    apply decide_eq_false
    split <;> split <;> omega
  · rw [if_neg zeros]
    rw [Bool.and_eq_true,zeroA,zeroB] at zeros
    cases sign a <;> cases sign b <;> simp
    all_goals omega

theorem lowValue (x : BitVec 32) : (lowBits x).toNat = x.toNat % 2 ^ 31 := by
  rw [lowBits,sliceValue,Nat.pow_zero,Nat.div_one]

theorem samePlace (a b : BitVec 32) : place a = place b ↔ a = b ∨ isZero a = true ∧ isZero b = true := by
  have signA := signValue a
  have signB := signValue b
  have boundA := a.isLt
  have boundB := b.isLt
  rw [zeroPlace,zeroPlace,← BitVec.toNat_inj,place,place,lowValue,lowValue]
  cases first : sign a <;> cases second : sign b <;> rw [first] at signA <;> rw [second] at signB <;>
    simp only [Bool.toNat_false,Bool.toNat_true,Bool.false_eq_true,if_false,if_true] at * <;> omega

structure Comparison (feq flt fle : BitVec 32 → BitVec 32 → BitVec 32) (a b : BitVec 32) : Prop where
  one : isNan a = false → isNan b = false →
    flt a b = 1 ∧ flt b a = 0 ∧ feq a b = 0 ∨ flt a b = 0 ∧ flt b a = 1 ∧ feq a b = 0 ∨
    flt a b = 0 ∧ flt b a = 0 ∧ feq a b = 1
  either : fle a b = flt a b ||| feq a b
  transitive : ∀ c, flt a b = 1 → flt b c = 1 → flt a c = 1
  nan : isNan a = true ∨ isNan b = true → feq a b = 0 ∧ flt a b = 0 ∧ fle a b = 0

section results
variable (i : Inputs)

def feq (a b : BitVec 32) : BitVec 32 := intResult (i.ask .feq a b)
def flt (a b : BitVec 32) : BitVec 32 := intResult (i.ask .flt a b)
def fle (a b : BitVec 32) : BitVec 32 := intResult (i.ask .fle a b)

theorem feqResult (a b : BitVec 32) :
    feq i a b = if isNan a || isNan b then 0 else if a = b then 1 else 0 := rfl

theorem fltResult (a b : BitVec 32) :
    flt i a b = if isNan a || isNan b then 0 else if lessThan a b then 1 else 0 := rfl

theorem fleResult (a b : BitVec 32) :
    fle i a b = if isNan a || isNan b then 0 else if lessThan a b || a == b then 1 else 0 := rfl

theorem fltPlace {a b : BitVec 32} (numberA : isNan a = false) (numberB : isNan b = false) :
    flt i a b = if place a < place b then 1 else 0 := by
  rw [fltResult,numberA,numberB,lessPlace numberA numberB]
  simp

theorem feqSame {a b : BitVec 32} (numberA : isNan a = false) (numberB : isNan b = false) :
    feq i a b = if a = b then 1 else 0 := by
  rw [feqResult,numberA,numberB]
  rfl

theorem nanResults {a b : BitVec 32} (nan : isNan a = true ∨ isNan b = true) :
    feq i a b = 0 ∧ flt i a b = 0 ∧ fle i a b = 0 := by
  have nonzero : (isNan a || isNan b) = true := by rwa [Bool.or_eq_true]
  rw [feqResult,fltResult,fleResult,nonzero]
  exact ⟨rfl,rfl,rfl⟩

theorem fltNumbers {a b : BitVec 32} (less : flt i a b = 1) : isNan a = false ∧ isNan b = false ∧ place a < place b := by
  have clear : ¬ (isNan a = true ∨ isNan b = true) := by
    intro nan
    rw [(nanResults i nan).2.1] at less
    exact absurd less (by decide)
  rw [not_or] at clear
  have numberA := Bool.eq_false_iff.mpr clear.1
  have numberB := Bool.eq_false_iff.mpr clear.2
  rw [fltPlace i numberA numberB] at less
  refine ⟨numberA,numberB,?_⟩
  by_contra more
  rw [if_neg more] at less
  exact absurd less (by decide)

theorem fleEither (a b : BitVec 32) : fle i a b = flt i a b ||| feq i a b := by
  rw [fleResult,fltResult,feqResult]
  by_cases nan : (isNan a || isNan b) = true
  · rw [if_pos nan,if_pos nan,if_pos nan]
    rfl
  · rw [if_neg nan,if_neg nan,if_neg nan]
    cases lessThan a b <;> by_cases same : a = b <;> simp [same]

theorem fltTransitive (a b c : BitVec 32) (first : flt i a b = 1) (second : flt i b c = 1) : flt i a c = 1 := by
  obtain ⟨numberA,_,less⟩ := fltNumbers i first
  obtain ⟨_,numberC,more⟩ := fltNumbers i second
  rw [fltPlace i numberA numberC,if_pos (by omega)]

/- The comparisons are those of one total order exactly where zeros of both signs do not meet. -/
theorem comparisonOrder (a b : BitVec 32) : Comparison (feq i) (flt i) (fle i) a b ↔
    ¬ (isZero a = true ∧ isZero b = true ∧ a ≠ b) := by
  constructor
  · rintro ⟨one,_,_,_⟩ ⟨zeroA,zeroB,apart⟩
    have numberA : isNan a = false := by
      have fields := (zeroFields a).mp zeroA
      simp [isNan,fields.1]
    have numberB : isNan b = false := by
      have fields := (zeroFields b).mp zeroB
      simp [isNan,fields.1]
    have same := (samePlace a b).mpr (.inr ⟨zeroA,zeroB⟩)
    have cases := one numberA numberB
    rw [fltPlace i numberA numberB,fltPlace i numberB numberA,feqSame i numberA numberB,if_neg apart,
      if_neg (by omega),if_neg (by omega)] at cases
    revert cases
    decide
  · intro met
    refine ⟨fun numberA numberB => ?_,fleEither i a b,fltTransitive i a b,nanResults i⟩
    have distinct : place a = place b ↔ a = b := by
      rw [samePlace]
      refine ⟨?_,.inl⟩
      rintro (same | ⟨zeroA,zeroB⟩)
      · exact same
      · by_contra apart
        exact met ⟨zeroA,zeroB,apart⟩
    rw [fltPlace i numberA numberB,fltPlace i numberB numberA,feqSame i numberA numberB]
    rcases lt_trichotomy (place a) (place b) with less | same | more
    · exact .inl ⟨if_pos less,if_neg (by omega),if_neg fun equal => by have place := distinct.mpr equal; omega⟩
    · exact .inr (.inr ⟨if_neg (by omega),if_neg (by omega),if_pos (distinct.mp same)⟩)
    · exact .inr (.inl ⟨if_neg (by omega),if_pos more,if_neg fun equal => by have place := distinct.mpr equal; omega⟩)

end results

/- +0.0 and -0.0 are neither less nor equal. -/
theorem zerosIncomparable : ¬ Comparison (feq ⟨true,0,0,0,0,.feq⟩) (flt ⟨true,0,0,0,0,.feq⟩) (fle ⟨true,0,0,0,0,.feq⟩)
    posZero negZero := fun comparison => absurd (comparison.one (by decide) (by decide)) (by decide)

end RiscvSoc.Fpu
