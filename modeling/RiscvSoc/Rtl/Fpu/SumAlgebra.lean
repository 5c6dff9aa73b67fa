import RiscvSoc.Rtl.Fpu.Sum

/-! The algebra of FADD and FSUB. The sum is symmetric where the addition stage sees both
operands; subnormals are flushed in front of it as first operand and taken for normal numbers as
second. A carry out of the largest exponent keeps its fraction. -/
namespace RiscvSoc.Fpu
open BitNumbers BinaryFloat

section sizes
variable {a b : BitVec 32}

theorem exponentSmall (finite : IsFinite a) : (exponent a).toNat ≤ 254 := by
  have bound := (exponent a).isLt
  have other : (exponent a).toNat ≠ 255 := fun full => finite (BitVec.eq_of_toNat_eq full)
  omega

theorem sizeTiny (zero : exponent a = 0) : size a < 2 ^ (104 : Int) := by
  have small := (fraction a).isLt
  rw [size,if_pos zero]
  calc scaled (fraction a).toNat (-149) < scaled (2 ^ 23) (-149) := scaledLt.mpr small
    _ = 2 ^ (-126 : Int) := by rw [← Nat.one_mul (2 ^ 23),scaledShift,scaledOne]; norm_num
    _ ≤ 2 ^ (104 : Int) := zpow_le_zpow_right₀ (by norm_num) (by norm_num)

theorem sizeFinite (finite : IsFinite a) : size a + 2 ^ (104 : Int) ≤ 2 ^ (128 : Int) := by
  have top : scaled (2 ^ 24 - 1) 104 + 2 ^ (104 : Int) = 2 ^ (128 : Int) := by
    rw [← scaledOne,scaledAdd,← scaledOne 128]
    exact scaledShift 1 24 104
  have least : size a ≤ scaled (2 ^ 24 - 1) 104 := by
    by_cases zero : exponent a = 0
    · have one : scaled 1 104 ≤ scaled (2 ^ 24 - 1) 104 := scaledLe.mpr (by norm_num)
      rw [scaledOne] at one
      exact (sizeTiny zero).le.trans one
    · have bits := (significandBounds a).2
      have low := exponentSmall finite
      rw [sizeNormal zero]
      calc scaled (significand a).toNat ((exponent a).toNat - 150)
          ≤ scaled (2 ^ 24 - 1) ((exponent a).toNat - 150) := scaledLe.mpr (by omega)
        _ ≤ scaled (2 ^ 24 - 1) 104 :=
          mul_le_mul_of_nonneg_left (zpow_le_zpow_right₀ (by norm_num) (by omega)) (Nat.cast_nonneg _)
  linarith

theorem sumSame (same : sign a = sign b) : |value a + value b| = size a + size b := by
  have first := sizeNonneg a
  have second := sizeNonneg b
  rw [value,value,same,signed,signed]
  split
  · rw [← neg_add,abs_neg,abs_of_nonneg (by linarith)]
  · exact abs_of_nonneg (by linarith)

theorem sumOpposite (opposite : sign a ≠ sign b) : |value a + value b| = |size a - size b| := by
  rw [value,value,signed,signed]
  cases first : sign a <;> cases second : sign b <;> simp_all [sub_eq_add_neg]
  rw [add_comm,← sub_eq_add_neg,abs_sub_comm,sub_eq_add_neg]

theorem sumTinyBelow (zero : exponent a = 0) (finite : IsFinite b) : |value a + value b| < 2 ^ (128 : Int) := by
  have tiny := sizeTiny zero
  have rest := sizeFinite finite
  have triangle := abs_add_le (value a) (value b)
  rw [valueSize,valueSize] at triangle
  linarith

theorem sumOppositeBelow (opposite : sign a ≠ sign b) (finiteA : IsFinite a) (finiteB : IsFinite b) :
    |value a + value b| < 2 ^ (128 : Int) := by
  have unit := unitPositive 104
  have first := sizeFinite finiteA
  have second := sizeFinite finiteB
  have nonzero := sizeNonneg a
  have other := sizeNonneg b
  rw [sumOpposite opposite,abs_lt]
  constructor <;> linarith

end sizes

theorem finiteNumber {x : BitVec 32} (finite : IsFinite x) : isNan x = false := (finiteClass finite).1

theorem normalizeFinite (s : Bool) (m : BitVec 25) {e : BitVec 8} (small : e.toNat < 255) :
    IsFinite (addAssemble s (normalize m e)) := by
  have assembled : ∀ (m : BitVec 25) (e : BitVec 8), e.toNat < 255 → IsFinite (addAssemble s (m,e)) := by
    intro m e small
    rw [addAssemble]
    split
    · decide
    · rw [IsFinite,packExponent]
      intro full
      have value : e.toNat = 255 := congrArg BitVec.toNat full
      omega
  rw [normalize]
  split
  · split
    · apply assembled
      rw [BitVec.toNat_sub]
      omega
    · exact assembled _ _ small
  · exact assembled _ _ small

section same
variable {a b : BitVec 32} (same : sign a = sign b)
include same

theorem sameOverflow (finiteA : IsFinite a) (finiteB : IsFinite b) :
    isNan (addNormal a b false) = decide (max (exponent a).toNat (exponent b).toNat = 254 ∧
      2 ^ 24 + 2 ≤ sumMant a b) ∧
    (max (exponent a).toNat (exponent b).toNat = 254 → 2 ^ 24 ≤ sumMant a b → sumMant a b < 2 ^ 24 + 2 →
      isInf (addNormal a b false) = true) := by
  have high := (sumMantBounds a b).2
  have smallA := exponentSmall finiteA
  have smallB := exponentSmall finiteB
  rw [addNormalSame a b false (by rw [same,Bool.xor_false])]
  by_cases carry : sumMant a b < 2 ^ 24
  · have finite : IsFinite (pack (sign a) (BitVec.ofNat 8 (max (exponent a).toNat (exponent b).toNat))
        (BitVec.ofNat 23 (sumMant a b))) := packedFinite (by omega)
    rw [if_pos carry,finiteNumber finite]
    exact ⟨(decide_eq_false (by omega)).symm,by omega⟩
  · rw [if_neg carry]
    have exp : (BitVec.ofNat 8 (max (exponent a).toNat (exponent b).toNat + 1) = 0xFF) ↔
        max (exponent a).toNat (exponent b).toNat = 254 := by
      rw [← BitVec.toNat_inj,BitVec.toNat_ofNat,Nat.mod_eq_of_lt (by omega)]
      exact ⟨fun full => by have top : max (exponent a).toNat (exponent b).toNat + 1 = 255 := full; omega,
        fun full => by rw [full]; rfl⟩
    have empty : (BitVec.ofNat 23 (sumMant a b / 2) = 0) ↔ sumMant a b < 2 ^ 24 + 2 := by
      rw [← BitVec.toNat_inj,BitVec.toNat_ofNat]
      exact ⟨fun zero => by have nothing : sumMant a b / 2 % 2 ^ 23 = 0 := zero; omega,
        fun less => by have nothing : sumMant a b / 2 % 2 ^ 23 = 0 := by omega
                       exact nothing⟩
    constructor
    · rw [Bool.eq_iff_iff,isNan,packExponent,packFraction,Bool.and_eq_true,beq_iff_eq,bne_iff_ne,ne_eq,exp,empty,
        decide_eq_true_eq]
      omega
    · intro top _ less
      rw [isInf,packExponent,packFraction,Bool.and_eq_true,beq_iff_eq,beq_iff_eq,exp,empty]
      exact ⟨top,less⟩

end same

theorem unitsTotal {a b : BitVec 32} (someA : exponent a ≠ 0) (someB : exponent b ≠ 0) :
    size a + size b = scaled (units a b + units b a) (lowUnit a b) := by
  rw [unitsSize a b someA,unitsSize b a someB,lowSymmetric b a,scaledAdd]

theorem sumReaches {a b : BitVec 32} (someA : exponent a ≠ 0) (someB : exponent b ≠ 0) (k : Nat) :
    scaled k (highUnit a b) ≤ size a + size b ↔ k ≤ sumMant a b := by
  rw [unitsTotal someA someB,sumMant,Nat.le_div_iff_mul_le (Nat.two_pow_pos _),← unitGap,← scaledShift]
  exact scaledLe

theorem tinyCarry {a b : BitVec 32} (top : (exponent a).toNat = 254) (nothing : exponent b = 0) :
    sumMant a b < 2 ^ 24 := by
  have zero : (exponent b).toNat = 0 := by rw [nothing]; rfl
  obtain ⟨first,second⟩ := unitsTop a b (by omega)
  have wide : gap a b = 254 := by
    rw [gap]
    omega
  have large : 2 ^ 24 ≤ 2 ^ gap a b := by
    rw [wide]
    exact Nat.pow_le_pow_right (by decide) (by decide)
  rw [sumMant,← sumAligned,first,second,Nat.mul_div_cancel _ (Nat.two_pow_pos _),
    Nat.div_eq_of_lt (Nat.lt_of_lt_of_le (significandBounds b).2 large),Nat.add_zero]
  exact (significandBounds a).2

def Closed (a b r : BitVec 32) : Prop :=
  isNan r = false ∧ (2 ^ (128 : Int) ≤ |value a + value b| → isInf r = true)

theorem closedBelow {a b r : BitVec 32} (finite : IsFinite r) (below : |value a + value b| < 2 ^ (128 : Int)) :
    Closed a b r ↔ |value a + value b| < 2 ^ (128 : Int) + 2 ^ (105 : Int) := by
  have unit := unitPositive 105
  exact iff_of_true ⟨finiteNumber finite,fun reaches => absurd reaches (not_le.mpr below)⟩ (by linarith)

section closure
variable {a b : BitVec 32} (finiteA : IsFinite a) (finiteB : IsFinite b)
include finiteA finiteB

theorem sameClosed (same : sign a = sign b) (someA : exponent a ≠ 0) :
    Closed a b (addNormal a b false) ↔ |value a + value b| < 2 ^ (128 : Int) + 2 ^ (105 : Int) := by
  obtain ⟨nan,inf⟩ := sameOverflow same finiteA finiteB
  have smallA := exponentSmall finiteA
  have smallB := exponentSmall finiteB
  by_cases top : max (exponent a).toNat (exponent b).toNat = 254 ∧ exponent b ≠ 0
  · have carries := sumReaches someA top.2 (2 ^ 24)
    have beyond := sumReaches someA top.2 (2 ^ 24 + 2)
    have weight : highUnit a b = 104 := by rw [highUnit,top.1]; rfl
    have one : scaled (2 ^ 24) 104 = 2 ^ (128 : Int) := by
      rw [← Nat.one_mul (2 ^ 24),scaledShift,scaledOne]
      norm_num
    have two : scaled (2 ^ 24 + 2) 104 = 2 ^ (128 : Int) + 2 ^ (105 : Int) := by
      have pair : scaled 2 104 = 2 ^ (105 : Int) := by
        have double := scaledShift 1 1 104
        rw [scaledOne] at double
        exact double
      rw [← scaledAdd,one,pair]
    rw [weight,one] at carries
    rw [weight,two] at beyond
    rw [sumSame same,← not_le,beyond,Closed,nan,sumSame same,carries]
    constructor
    · rintro ⟨number,_⟩ more
      exact absurd ⟨top.1,more⟩ (of_decide_eq_false number)
    · intro less
      exact ⟨decide_eq_false fun both => less both.2,fun reaches => inf top.1 reaches (by omega)⟩
  · have below : |value a + value b| < 2 ^ (128 : Int) := by
      by_cases nothing : exponent b = 0
      · rw [add_comm]
        exact sumTinyBelow nothing finiteA
      · have low : max (exponent a).toNat (exponent b).toNat ≤ 253 := by
          have other : max (exponent a).toNat (exponent b).toNat ≠ 254 := fun full => top ⟨full,nothing⟩
          omega
        have high := mt (sumReaches someA nothing (2 ^ 25)).mp (by have := (sumMantBounds a b).2; omega)
        rw [sumSame same]
        refine lt_of_lt_of_le (not_le.mp high) ?_
        rw [← Nat.one_mul (2 ^ 25),scaledShift,scaledOne]
        exact zpow_le_zpow_right₀ (by norm_num) (by rw [highUnit]; omega)
    have unit := unitPositive 105
    refine iff_of_true ⟨?_,fun reaches => absurd reaches (not_le.mpr below)⟩ (by linarith)
    rw [nan]
    apply decide_eq_false
    rintro ⟨full,more⟩
    have nothing : exponent b = 0 := not_not.mp fun nonzero => top ⟨full,nonzero⟩
    have zero : (exponent b).toNat = 0 := by rw [nothing]; rfl
    have less := tinyCarry (a := a) (by omega) nothing
    omega

theorem faddClosed : Closed a b (addition a b false) ↔
    |value a + value b| < 2 ^ (128 : Int) + 2 ^ (105 : Int) := by
  rw [additionFinite finiteA finiteB]
  by_cases noneA : exponent a = 0
  · rw [if_pos noneA]
    exact closedBelow finiteB (sumTinyBelow noneA finiteB)
  · rw [if_neg noneA]
    by_cases zero : isZero b = true
    · rw [if_pos zero]
      refine closedBelow finiteA ?_
      rw [add_comm]
      exact sumTinyBelow ((zeroFields b).mp zero).1 finiteA
    · rw [if_neg zero]
      by_cases same : sign a = sign b
      · exact sameClosed finiteA finiteB same noneA
      · refine closedBelow ?_ (sumOppositeBelow same finiteA finiteB)
        have smallA := exponentSmall finiteA
        have smallB := exponentSmall finiteB
        have top := (alignValue a b).2.2
        simp only [addNormal,Bool.xor_false,if_neg same]
        exact normalizeFinite _ _ (by omega)

end closure

theorem packSignificand (x : BitVec 32) : pack (sign x) (exponent x) (BitVec.ofNat 23 (significand x).toNat) = x := by
  have bits := significandValue x
  have less := (fraction x).isLt
  apply fieldsEqual (packSign ..) (packExponent ..)
  rw [packFraction]
  exact BitVec.eq_of_toNat_eq (by rw [BitVec.toNat_ofNat]; omega)

theorem fractionDiffers {x : BitVec 32} {m : Nat} (s : Bool) (e : BitVec 8) (low : 2 ^ 23 ≤ m) (high : m < 2 ^ 24)
    (other : m ≠ (significand x).toNat) : pack s e (BitVec.ofNat 23 m) ≠ x := by
  intro same
  have bits := significandValue x
  have less := (fraction x).isLt
  have fractions := congrArg (fun y => (fraction y).toNat) same
  simp only [packFraction,BitVec.toNat_ofNat] at fractions
  omega

section absorption
variable {x c : BitVec 32} (tiny : exponent c = 0)
include tiny

theorem tinyUnits : units x c = (significand x).toNat * 2 ^ (exponent x).toNat ∧ units c x = (significand c).toNat ∧
    gap x c = (exponent x).toNat ∧ max (exponent x).toNat (exponent c).toNat = (exponent x).toNat := by
  have zero : (exponent c).toNat = 0 := by rw [tiny]; rfl
  obtain ⟨first,second⟩ := unitsTop x c (by omega)
  have wide : gap x c = (exponent x).toNat := by
    rw [gap]
    omega
  rw [wide] at first
  exact ⟨first,second,wide,by omega⟩

def tinyShifted (x c : BitVec 32) : Nat := (significand c).toNat / 2 ^ (exponent x).toNat

theorem tinyAligned : units x c / 2 ^ gap x c = (significand x).toNat ∧
    units c x / 2 ^ gap x c = tinyShifted x c := by
  obtain ⟨own,other,wide,_⟩ := tinyUnits (x := x) tiny
  rw [own,other,wide,Nat.mul_div_cancel _ (Nat.two_pow_pos _)]
  exact ⟨rfl,rfl⟩

omit tiny in
theorem positiveExponent (nonzero : exponent x ≠ 0) : 0 < (exponent x).toNat :=
  Nat.pos_of_ne_zero fun zero => nonzero (BitVec.eq_of_toNat_eq zero)

omit tiny in
theorem tinyGone : tinyShifted x c = 0 ↔ 24 ≤ (exponent x).toNat := by
  obtain ⟨low,high⟩ := significandBounds c
  constructor
  · intro gone
    by_contra early
    have positive : 0 < tinyShifted x c :=
      Nat.div_pos (Nat.le_trans (Nat.pow_le_pow_right (by decide) (by omega)) low) (Nat.two_pow_pos _)
    omega
  · intro late
    exact Nat.div_eq_of_lt (Nat.lt_of_lt_of_le high (Nat.pow_le_pow_right (by decide) late))

omit tiny in
theorem tinyHalf (nonzero : exponent x ≠ 0) : tinyShifted x c < 2 ^ 23 := by
  have high := (significandBounds c).2
  have two : 2 ^ 1 ≤ 2 ^ (exponent x).toNat := Nat.pow_le_pow_right (by decide) (positiveExponent nonzero)
  have half : tinyShifted x c ≤ (significand c).toNat / 2 ^ 1 := Nat.div_le_div_left two (by decide)
  omega

theorem tinyAbsorbedSame (same : sign x = sign c) :
    addNormal x c false = x ↔ tinyShifted x c = 0 := by
  have bound := (exponent x).isLt
  obtain ⟨low,high⟩ := significandBounds x
  obtain ⟨full,shifted⟩ := tinyAligned (x := x) tiny
  have mant : sumMant x c = (significand x).toNat + tinyShifted x c := by rw [sumMant,← sumAligned,full,shifted]
  rw [addNormalSame x c false (by rw [same,Bool.xor_false]),(tinyUnits tiny).2.2.2,mant,exponentKept]
  by_cases carry : (significand x).toNat + tinyShifted x c < 2 ^ 24
  · rw [if_pos carry]
    constructor
    · intro kept
      by_contra left
      exact fractionDiffers _ _ (by omega) carry (by omega) kept
    · intro gone
      rw [gone,Nat.add_zero]
      exact packSignificand x
  · rw [if_neg carry]
    refine iff_of_false (fun kept => ?_) (fun gone => by omega)
    have exponents := congrArg (fun y => (exponent y).toNat) kept
    simp only [packExponent,BitVec.toNat_ofNat] at exponents
    omega

theorem tinyAbsorbedOpposite (nonzero : exponent x ≠ 0) (opposite : sign x ≠ sign c) :
    addNormal x c false = x ↔ tinyShifted x c = 0 := by
  have bound := (exponent x).isLt
  have positive := positiveExponent nonzero
  obtain ⟨low,high⟩ := significandBounds x
  obtain ⟨own,other,_,top⟩ := tinyUnits (x := x) tiny
  obtain ⟨full,shifted⟩ := tinyAligned (x := x) tiny
  have small := tinyHalf (c := c) nonzero
  have larger : units c x ≤ units x c := by
    have rest := (significandBounds c).2
    have two : 2 ^ 1 ≤ 2 ^ (exponent x).toNat := Nat.pow_le_pow_right (by decide) positive
    have more := Nat.mul_le_mul low two
    rw [own,other]
    omega
  have mant : differenceMant x c = (significand x).toNat - tinyShifted x c := by rw [differenceMant,full,shifted]
  generalize tinyShifted x c = j at *
  have least : (significand x).toNat - j ≠ 0 := by omega
  have within : (BitVec.ofNat 25 ((significand x).toNat - j)).toNat = (significand x).toNat - j := by
    rw [BitVec.toNat_ofNat]
    omega
  have lowLog := Nat.log2_self_le least
  have highLog := Nat.lt_log2_self (n := (significand x).toNat - j)
  have capped : Nat.log2 ((significand x).toNat - j) ≤ 23 := by
    have less := (Nat.log2_lt least).mpr (show (significand x).toNat - j < 2 ^ 24 by omega)
    omega
  rw [addNormalOpposite x c opposite larger,top,mant,normalizeValue (p := Nat.log2 ((significand x).toNat - j))
    (by rwa [within]) (by rwa [within]) capped,within,exponentKept]
  rcases Nat.eq_or_lt_of_le capped with leads | falls
  · rw [leads] at lowLog
    rw [leads,if_pos (by omega),Nat.sub_self,Nat.pow_zero,Nat.mul_one,Nat.sub_zero,exponentKept]
    constructor
    · intro kept
      by_contra left
      exact fractionDiffers _ _ lowLog (by omega) (by omega) kept
    · intro gone
      rw [gone,Nat.sub_zero]
      exact packSignificand x
  · refine iff_of_false (fun kept => ?_) (fun gone => ?_)
    · have exponents := congrArg (fun y => (exponent y).toNat) kept
      split at exponents
      · simp only [packExponent,BitVec.toNat_ofNat] at exponents
        omega
      · have zero : 0 = (exponent x).toNat := exponents
        omega
    · rw [gone,Nat.sub_zero] at highLog falls
      have below : 2 ^ ((significand x).toNat.log2 + 1) ≤ 2 ^ 23 := Nat.pow_le_pow_right (by decide) falls
      omega

theorem tinyAbsorbed (nonzero : exponent x ≠ 0) : addNormal x c false = x ↔ 24 ≤ (exponent x).toNat := by
  rw [← tinyGone (c := c)]
  by_cases same : sign x = sign c
  · exact tinyAbsorbedSame tiny same
  · exact tinyAbsorbedOpposite tiny nonzero same

end absorption

/- The pairs on which the order of the operands shows. -/
structure Clashes (a b : BitVec 32) : Prop where
  tiny : exponent a = 0
  unequal : exponent b = 0 → a ≠ b
  near : exponent b ≠ 0 → fraction a ≠ 0 ∧ (exponent b).toNat < 24

theorem tinyCommutes {a b : BitVec 32} (finiteB : IsFinite b) (noneA : exponent a = 0) :
    addition a b false = addition b a false ↔ ¬ Clashes a b := by
  have finiteA : IsFinite a := by
    rw [IsFinite,noneA]
    decide
  rw [additionFinite finiteA finiteB,additionFinite finiteB finiteA,if_pos noneA]
  by_cases noneB : exponent b = 0
  · rw [if_pos noneB]
    constructor
    · intro equal clash
      exact clash.unequal noneB equal.symm
    · intro apart
      by_contra differs
      exact apart ⟨noneA,fun _ equal => differs equal.symm,fun nonzero => absurd noneB nonzero⟩
  · rw [if_neg noneB]
    by_cases zero : isZero a = true
    · rw [if_pos zero]
      refine iff_of_true rfl fun clash => (clash.near noneB).1 ((zeroFields a).mp zero).2
    · rw [if_neg zero]
      have subnormal : fraction a ≠ 0 := fun empty => zero ((zeroFields a).mpr ⟨noneA,empty⟩)
      rw [eq_comm,tinyAbsorbed noneA noneB]
      constructor
      · intro late clash
        have early := (clash.near noneB).2
        omega
      · intro apart
        by_contra early
        exact apart ⟨noneA,fun equal => absurd equal noneB,fun _ => ⟨subnormal,by omega⟩⟩

theorem infFields {x : BitVec 32} (inf : isInf x = true) : exponent x = 0xFF ∧ fraction x = 0 := by
  simpa [isInf] using inf

theorem additionInf {a b : BitVec 32} (numberB : isNan b = false) (inf : isInf a = true) :
    addition a b false = if isInf b && (sign a ^^ sign b) then qnan else a := by
  obtain ⟨full,empty⟩ := infFields inf
  have number : isNan a = false := by simp [isNan,full,empty]
  have nonzero : ¬ exponent a = 0 := by
    rw [full]
    decide
  rw [addition,multiplyOne number,if_neg nonzero,add]
  cases isInf b <;> cases sign a <;> cases sign b <;> simp [number,numberB,inf]

theorem additionInfSecond {a b : BitVec 32} (numberA : isNan a = false) (finite : isInf a = false)
    (inf : isInf b = true) : addition a b false = b := by
  obtain ⟨full,empty⟩ := infFields inf
  have number : isNan b = false := by simp [isNan,full,empty]
  obtain ⟨nanZ,infZ,_⟩ := zeroPacked (sign a)
  rw [addition,multiplyOne numberA]
  split
  · simp only [add,addend,nanZ,infZ,number,inf,Bool.or_self,Bool.false_and,Bool.false_eq_true,if_false,if_true]
  · simp only [add,addend,numberA,finite,number,inf,Bool.or_self,Bool.false_and,Bool.false_eq_true,if_false,if_true]

theorem infCommutes {a b : BitVec 32} (numberB : isNan b = false) (inf : isInf a = true) :
    addition a b false = addition b a false := by
  have numberA : isNan a = false := by
    obtain ⟨full,empty⟩ := infFields inf
    simp [isNan,full,empty]
  rw [additionInf numberB inf]
  cases second : isInf b with
  | false =>
    rw [Bool.false_and,if_neg Bool.false_ne_true,additionInfSecond numberB second inf]
  | true =>
    rw [additionInf numberA second,inf,Bool.xor_comm]
    split
    · rfl
    · rename_i agree
      obtain ⟨fullA,emptyA⟩ := infFields inf
      obtain ⟨fullB,emptyB⟩ := infFields second
      have signs : sign a = sign b := by
        revert agree
        cases sign a <;> cases sign b <;> simp
      exact fieldsEqual signs (fullA.trans fullB.symm) (emptyA.trans emptyB.symm)

theorem notFinite {x : BitVec 32} (number : isNan x = false) (infinite : ¬ IsFinite x) : isInf x = true := by
  have full : exponent x = 0xFF := not_not.mp infinite
  simpa [isNan,isInf,full] using number

theorem clashesFinite {a b : BitVec 32} (clash : Clashes a b) : IsFinite a ∧ IsFinite b := by
  constructor
  · rw [IsFinite,clash.tiny]
    decide
  · intro full
    have nonzero : exponent b ≠ 0 := by
      rw [full]
      decide
    have near := (clash.near nonzero).2
    rw [full] at near
    exact absurd near (by decide)

theorem faddCommutes {a b : BitVec 32} (numberA : isNan a = false) (numberB : isNan b = false) :
    addition a b false = addition b a false ↔ ¬ Clashes a b ∧ ¬ Clashes b a := by
  by_cases finiteA : IsFinite a
  · by_cases finiteB : IsFinite b
    · by_cases noneA : exponent a = 0
      · rw [tinyCommutes finiteB noneA]
        refine ⟨fun apart => ⟨apart,fun clash => apart ⟨noneA,fun _ => (clash.unequal noneA).symm,fun nonzero => ?_⟩⟩,And.left⟩
        exact absurd clash.tiny nonzero
      · by_cases noneB : exponent b = 0
        · rw [eq_comm,tinyCommutes finiteA noneB]
          exact ⟨fun apart => ⟨fun clash => noneA clash.tiny,apart⟩,And.right⟩
        · rw [additionFinite finiteA finiteB,additionFinite finiteB finiteA,if_neg noneA,if_neg noneB,
            nonzeroExponent noneA,nonzeroExponent noneB,addNormalComm b a]
          exact iff_of_true rfl ⟨fun clash => noneA clash.tiny,fun clash => noneB clash.tiny⟩
    · exact iff_of_true (infCommutes numberA (notFinite numberB finiteB)).symm
        ⟨fun clash => finiteB (clashesFinite clash).2,fun clash => finiteB (clashesFinite clash).1⟩
  · exact iff_of_true (infCommutes numberB (notFinite numberA finiteA))
      ⟨fun clash => finiteA (clashesFinite clash).1,fun clash => finiteA (clashesFinite clash).2⟩

theorem negateAddend (p c : BitVec 32) : add p c true = add p (negate c) false := by
  have nan : isNan (negate c) = isNan c := by rw [isNan,negateExponent,negateFraction,isNan]
  have inf : isInf (negate c) = isInf c := by rw [isInf,negateExponent,negateFraction,isInf]
  have zero : isZero (negate c) = isZero c := by
    rw [Bool.eq_iff_iff,zeroFields,zeroFields,negateExponent,negateFraction]
  have mant : significand (negate c) = significand c := by rw [significand,negateFraction,significand]
  have aligned : align p (negate c) = align p c := by simp only [align,negateExponent,mant]
  have normal : addNormal p c true = addNormal p (negate c) false := by
    rw [addNormal,addNormal,aligned,negateSign,Bool.xor_true,Bool.xor_false]
  have negated : addend c true = negate c := rfl
  have kept : addend (negate c) false = negate c := rfl
  rw [add,add,nan,inf,zero,normal,negated,kept,negateSign,Bool.xor_true,Bool.xor_false]

/- What the claim asks of a pair of operands. -/
structure SumAlgebra (fadd fsub : BitVec 32 → BitVec 32 → BitVec 32) (a b : BitVec 32) : Prop where
  closed : IsFinite a → IsFinite b → Closed a b (fadd a b)
  commutes : isNan a = false → isNan b = false → fadd a b = fadd b a
  subtracts : fsub a b = fadd a (negate b)

/- FSUB is always FADD of the negated operand; the rest fails on a carry out of the largest
exponent that leaves a fraction, and on the clashing pairs. -/
theorem sumAlgebra (s : Regs) (i : Inputs) (a b : BitVec 32) :
    SumAlgebra (fun x y => fpResult s (i.ask .add x y)) (fun x y => fpResult s (i.ask .sub x y)) a b ↔
      (IsFinite a → IsFinite b → |value a + value b| < 2 ^ (128 : Int) + 2 ^ (105 : Int)) ∧
      ¬ Clashes a b ∧ ¬ Clashes b a := by
  constructor
  · rintro ⟨closed,commutes,_⟩
    simp only [faddWired] at closed commutes
    refine ⟨fun finiteA finiteB => (faddClosed finiteA finiteB).mp (closed finiteA finiteB),?_⟩
    by_cases numbers : isNan a = false ∧ isNan b = false
    · exact (faddCommutes numbers.1 numbers.2).mp (commutes numbers.1 numbers.2)
    · refine ⟨fun clash => numbers ?_,fun clash => numbers ?_⟩
      · exact ⟨finiteNumber (clashesFinite clash).1,finiteNumber (clashesFinite clash).2⟩
      · exact ⟨finiteNumber (clashesFinite clash).2,finiteNumber (clashesFinite clash).1⟩
  · rintro ⟨below,apart⟩
    constructor
    · intro finiteA finiteB
      simp only [faddWired]
      exact (faddClosed finiteA finiteB).mpr (below finiteA finiteB)
    · intro numberA numberB
      simp only [faddWired]
      exact (faddCommutes numberA numberB).mpr apart
    · simp only [faddWired,fsubWired]
      exact negateAddend ..

/- The largest finite number doubled is a NaN. -/
theorem doubledNan : ¬ SumAlgebra (fun x y => fpResult reset (Inputs.ask ⟨true,0,0,0,0,.add⟩ .add x y))
    (fun x y => fpResult reset (Inputs.ask ⟨true,0,0,0,0,.add⟩ .sub x y)) 0x7F7FFFFF 0x7F7FFFFF :=
  fun algebra => absurd (algebra.closed (by decide) (by decide)).1 (by decide)

end RiscvSoc.Fpu
