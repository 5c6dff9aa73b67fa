import RiscvSoc.Rtl.Fpu.SumAlgebra

/-! How far FADD of normal operands is from the exact sum: truncation after the carry for equal
signs, and for opposite signs what alignment shifts out of the smaller operand. -/
namespace RiscvSoc.Fpu
open BitNumbers BinaryFloat PriorityEncoder

structure Accurate (a b r : BitVec 32) : Prop where
  finite : IsFinite r
  same : sign a = sign b → value r = truncate 24 (value a + value b)
  zero : sign a ≠ sign b → value a + value b = 0 → r = posZero
  direction : sign a ≠ sign b → value a + value b ≠ 0 → (sign r = true ↔ value a + value b < 0)
  larger : sign a ≠ sign b → |value a + value b| ≤ |value r|
  near : sign a ≠ sign b → |value r - (value a + value b)| < 2 ^ highUnit a b

theorem accurateSwap {a b r : BitVec 32} (h : Accurate b a r) : Accurate a b r := by
  obtain ⟨finite,same,zero,direction,larger,near⟩ := h
  rw [add_comm (value b) (value a)] at same zero direction larger near
  rw [highSymmetric] at near
  exact ⟨finite,fun equal => same equal.symm,fun apart => zero (Ne.symm apart),fun apart => direction (Ne.symm apart),
    fun apart => larger (Ne.symm apart),fun apart => near (Ne.symm apart)⟩

theorem signedTruncate (s : Bool) {q : ℚ} (nonneg : 0 ≤ q) : truncate 24 (signed s q) = signed s (truncate 24 q) := by
  cases s with
  | false => rfl
  | true => exact truncateNeg 24 nonneg

section sum
variable {a b : BitVec 32} (normalA : IsNormal a) (normalB : IsNormal b)
include normalA normalB

theorem sameTruncates (same : sign a = sign b) (below : size a + size b < 2 ^ (128 : Int)) :
    IsFinite (addNormal a b false) ∧ sign (addNormal a b false) = sign a ∧
    size (addNormal a b false) = truncate 24 (size a + size b) := by
  have rangeA := exponentRange normalA
  have rangeB := exponentRange normalB
  obtain ⟨low,high⟩ := sumBounds a b
  have weight := unitGap a b
  have total := unitsTotal normalA.2 normalB.2
  rw [addNormalSame a b false (by rw [same,Bool.xor_false])]
  by_cases small : sumMant a b < 2 ^ 24
  · have less : units a b + units b a < 2 ^ (24 + gap a b) := by
      rw [Nat.pow_add]
      exact (Nat.div_lt_iff_lt_mul (Nat.two_pow_pos _)).mp small
    have leading := leadingShift (p := 24) (lowUnit a b) (by rw [Nat.pow_add]; exact low) less
    rw [weight,← total] at leading
    rw [if_pos small]
    exact ⟨packedFinite (by omega),packSign ..,packedLeading leading (by omega) (by omega)⟩
  · have least : 2 ^ (24 - 1 + (gap a b + 1)) ≤ units a b + units b a := by
      have carry : 2 ^ 24 ≤ sumMant a b := by omega
      have up := (Nat.le_div_iff_mul_le (Nat.two_pow_pos _)).mp carry
      rwa [← Nat.pow_add,show 24 + gap a b = 24 - 1 + (gap a b + 1) by omega] at up
    have most : units a b + units b a < 2 ^ (24 + (gap a b + 1)) := by
      rw [← Nat.pow_add] at high
      rwa [show 24 + (gap a b + 1) = 25 + gap a b by omega]
    have leading := leadingShift (p := 24) (lowUnit a b) least most
    have halved : (units a b + units b a) / 2 ^ (gap a b + 1) = sumMant a b / 2 := by
      rw [sumMant,Nat.pow_succ,Nat.div_div_eq_div_mul]
    have raised : lowUnit a b + (gap a b + 1 : Nat) =
        (max (exponent a).toNat (exponent b).toNat + 1 : Nat) - 150 := by
      rw [Nat.cast_succ,← add_assoc,weight,highUnit]
      omega
    rw [raised,← total,halved] at leading
    have top := mt (leadingReaches leading 128).mpr (not_le.mpr below)
    rw [if_neg small]
    exact ⟨packedFinite (by omega),packSign ..,packedLeading leading (by omega) (by omega)⟩

end sum

theorem absSigned (s : Bool) (q : ℚ) : |signed s q| = |q| := by
  cases s with
  | false => rfl
  | true => exact abs_neg q

theorem signedSub (s : Bool) (p q : ℚ) : signed s p - signed s q = signed s (p - q) := by
  cases s <;> simp only [signed,Bool.false_eq_true,if_false,if_true]
  ring

theorem signedNegative (s : Bool) {q : ℚ} (positive : 0 < q) : s = true ↔ signed s q < 0 := by
  cases s with
  | false => exact iff_of_false Bool.false_ne_true (not_lt.mpr positive.le)
  | true => exact iff_of_true rfl (neg_lt_zero.mpr positive)

theorem differenceUnits {a b : BitVec 32} (larger : units b a ≤ units a b) :
    differenceMant a b * 2 ^ gap a b = units a b - units b a + units b a % 2 ^ gap a b := by
  have lowA := (significandBounds a).2
  have lowB := (significandBounds b).1
  have high : (exponent b).toNat ≤ (exponent a).toNat := by
    by_contra more
    obtain ⟨top,rest⟩ := unitsTop b a (by omega)
    have apart : 1 ≤ gap b a := by
      rw [gap]
      omega
    have two : 2 ^ 1 ≤ 2 ^ gap b a := Nat.pow_le_pow_right (by decide) apart
    have grown := Nat.mul_le_mul lowB two
    omega
  have own := (unitsTop a b high).1
  have whole : units a b / 2 ^ gap a b * 2 ^ gap a b = units a b := by
    rw [own,Nat.mul_div_cancel _ (Nat.two_pow_pos _)]
  have parts := Nat.div_add_mod (units b a) (2 ^ gap a b)
  rw [Nat.mul_comm] at parts
  rw [differenceMant,Nat.sub_mul,whole]
  omega

theorem differenceBounds {a b : BitVec 32} (larger : units b a < units a b) :
    differenceMant a b ≠ 0 ∧ differenceMant a b < 2 ^ 24 := by
  have error := differenceUnits larger.le
  constructor
  · intro zero
    rw [zero,Nat.zero_mul] at error
    omega
  · exact Nat.lt_of_le_of_lt (Nat.sub_le ..) ((Nat.div_lt_iff_lt_mul (Nat.two_pow_pos _)).mpr (unitsBound a b))

theorem differenceSize {a b : BitVec 32} (larger : units b a ≤ units a b) :
    scaled (differenceMant a b) (highUnit a b) =
      scaled (units a b - units b a) (lowUnit a b) + scaled (units b a % 2 ^ gap a b) (lowUnit a b) := by
  rw [scaledAdd,← differenceUnits larger,scaledShift,unitGap]

theorem shiftedOut (a b : BitVec 32) : 0 ≤ scaled (units b a % 2 ^ gap a b) (lowUnit a b) ∧
    scaled (units b a % 2 ^ gap a b) (lowUnit a b) < 2 ^ highUnit a b := by
  refine ⟨scaledNonneg ..,?_⟩
  rw [← unitGap,← scaledOne,← scaledShift,Nat.one_mul]
  exact scaledLt.mpr (Nat.mod_lt _ (Nat.two_pow_pos _))

theorem normalizedSize {m e : Nat} (s : Bool) (nonzero : m ≠ 0) (bits : m < 2 ^ 24) (below : e < 255)
    (reached : 23 < e + m.log2) :
    IsFinite (addAssemble s (normalize (BitVec.ofNat 25 m) (BitVec.ofNat 8 e))) ∧
    sign (addAssemble s (normalize (BitVec.ofNat 25 m) (BitVec.ofNat 8 e))) = s ∧
    size (addAssemble s (normalize (BitVec.ofNat 25 m) (BitVec.ofNat 8 e))) = scaled m ((e : Int) - 150) := by
  have low := Nat.log2_self_le nonzero
  have high := Nat.lt_log2_self (n := m)
  have capped : m.log2 ≤ 23 := by
    have less := (Nat.log2_lt nonzero).mpr bits
    omega
  have within : (BitVec.ofNat 25 m).toNat = m := by
    rw [BitVec.toNat_ofNat]
    omega
  have biased := biasedValue below
  have normal := leadingUp 23 nonzero capped
  have leading := leadingExact (p := 24) ((e - (23 - m.log2) : Nat) - 150) normal.1 normal.2
  have back : ((e - (23 - m.log2) : Nat) : Int) - 150 + (23 - m.log2 : Nat) = (e : Int) - 150 := by omega
  rw [normalizeValue (p := m.log2) (by rwa [within]) (by rwa [within]) capped,within,biased,if_pos (by omega)]
  refine ⟨packedFinite (by omega),packSign ..,?_⟩
  rw [packedLeading leading (by omega) (by omega),leadingTruncate leading,scaledShift,back]

section opposite
variable {a b : BitVec 32} (normalA : IsNormal a) (normalB : IsNormal b) (opposite : sign a ≠ sign b)
  (larger : units b a ≤ units a b)
include normalA normalB opposite larger

theorem exactDifference : value a + value b = signed (sign a) (scaled (units a b - units b a) (lowUnit a b)) := by
  have second := unitsSize b a normalB.2
  rw [lowSymmetric] at second
  rw [← scaledSub larger,← unitsSize a b normalA.2,← second,value,value,signed,signed,signed]
  cases plus : sign a <;> cases minus : sign b
  · exact absurd (plus.trans minus.symm) opposite
  · simp [sub_eq_add_neg]
  · simp
    ring
  · exact absurd (plus.trans minus.symm) opposite

theorem differenceReached (apart : units b a < units a b)
    (range : value a + value b = 0 ∨ 2 ^ (-126 : Int) ≤ |value a + value b|) :
    23 < max (exponent a).toNat (exponent b).toNat + (differenceMant a b).log2 := by
  have positive : 0 < scaled (units a b - units b a) (lowUnit a b) := scaledPositive (by omega) _
  have exact : |value a + value b| = scaled (units a b - units b a) (lowUnit a b) := by
    rw [exactDifference normalA normalB opposite larger,absSigned,abs_of_pos positive]
  have bound : (2 : ℚ) ^ (-126 : Int) ≤ |value a + value b| := by
    rcases range with zero | reaches
    · rw [← abs_eq_zero,exact] at zero
      exact absurd zero positive.ne'
    · exact reaches
  have above : scaled (differenceMant a b) (highUnit a b) < 2 ^ (highUnit a b + ((differenceMant a b).log2 + 1 : Nat)) := by
    rw [← scaledOne,← scaledShift,Nat.one_mul]
    exact scaledLt.mpr Nat.lt_log2_self
  have chain : (2 : ℚ) ^ (-126 : Int) < 2 ^ (highUnit a b + ((differenceMant a b).log2 + 1 : Nat)) := by
    have sum := differenceSize larger
    have rest := (shiftedOut a b).1
    linarith
  have powers := (zpow_lt_zpow_iff_right₀ (by norm_num : (1 : ℚ) < 2)).mp chain
  rw [highUnit] at powers
  omega

theorem oppositeSize (apart : units b a < units a b)
    (range : value a + value b = 0 ∨ 2 ^ (-126 : Int) ≤ |value a + value b|) :
    IsFinite (addNormal a b false) ∧ sign (addNormal a b false) = sign a ∧
    size (addNormal a b false) = scaled (differenceMant a b) (highUnit a b) := by
  have rangeA := exponentRange normalA
  have rangeB := exponentRange normalB
  obtain ⟨nonzero,bits⟩ := differenceBounds apart
  rw [addNormalOpposite a b opposite larger]
  exact normalizedSize (sign a) nonzero bits (by omega) (differenceReached normalA normalB opposite larger apart range)

theorem oppositeAccurate (range : value a + value b = 0 ∨ 2 ^ (-126 : Int) ≤ |value a + value b|) :
    Accurate a b (addNormal a b false) := by
  have exact := exactDifference normalA normalB opposite larger
  by_cases equal : units a b ≤ units b a
  · have same : units a b - units b a = 0 := by omega
    have absent : differenceMant a b = 0 := by rw [differenceMant,Nat.le_antisymm equal larger,Nat.sub_self]
    have zero : value a + value b = 0 := by
      rw [exact,same,scaledZero,signed,neg_zero,ite_self]
    have result : addNormal a b false = posZero := by
      rw [addNormalOpposite a b opposite larger,absent]
      exact normalizeNone ..
    have nothing : value posZero = 0 := by decide +kernel
    rw [result]
    refine ⟨by decide,fun together => absurd together opposite,fun _ _ => rfl,fun _ nonzero => absurd zero nonzero,
      fun _ => ?_,fun _ => ?_⟩
    · rw [zero,nothing]
    · rw [zero,nothing,sub_zero,abs_zero]
      exact unitPositive _
  · obtain ⟨finite,direction,magnitude⟩ := oppositeSize normalA normalB opposite larger (by omega) range
    obtain ⟨least,most⟩ := shiftedOut a b
    have sum := differenceSize larger
    have positive : 0 < scaled (units a b - units b a) (lowUnit a b) := scaledPositive (by omega) _
    have nonzero : value a + value b ≠ 0 := by
      rw [← abs_pos,exact,absSigned,abs_of_pos positive]
      exact positive
    refine ⟨finite,fun together => absurd together opposite,fun _ zero => absurd zero nonzero,fun _ _ => ?_,fun _ => ?_,
      fun _ => ?_⟩
    · rw [direction,exact]
      exact signedNegative _ positive
    · rw [exact,absSigned,abs_of_pos positive,valueSize,magnitude]
      linarith
    · rw [exact,value,direction,signedSub,absSigned,magnitude,abs_of_nonneg (by linarith)]
      linarith

end opposite
theorem sameAccurate {a b : BitVec 32} (normalA : IsNormal a) (normalB : IsNormal b) (same : sign a = sign b)
    (below : |value a + value b| < 2 ^ (128 : Int)) : Accurate a b (addNormal a b false) := by
  rw [sumSame same] at below
  obtain ⟨finite,direction,magnitude⟩ := sameTruncates normalA normalB same below
  have first := sizeNonneg a
  have second := sizeNonneg b
  have total : value a + value b = signed (sign a) (size a + size b) := by
    rw [value,value,← same,signed,signed,signed]
    split
    · ring
    · rfl
  refine ⟨finite,fun _ => ?_,fun apart => absurd same apart,fun apart => absurd same apart,fun apart => absurd same apart,
    fun apart => absurd same apart⟩
  rw [value,direction,magnitude,total,signedTruncate _ (by linarith)]

theorem faddAccurate (s : Regs) (i : Inputs) (a b : BitVec 32) (normalA : IsNormal a) (normalB : IsNormal b)
    (range : value a + value b = 0 ∨
      2 ^ (-126 : Int) ≤ |value a + value b| ∧ |value a + value b| < 2 ^ (128 : Int)) :
    Accurate a b (fpResult s (i.ask .add a b)) := by
  rw [faddWired,additionFinite normalA.1 normalB.1,if_neg normalA.2,nonzeroExponent normalB.2]
  have reaches : value a + value b = 0 ∨ 2 ^ (-126 : Int) ≤ |value a + value b| := range.imp_right And.left
  have below : |value a + value b| < 2 ^ (128 : Int) := by
    rcases range with zero | inside
    · rw [zero,abs_zero]
      exact unitPositive 128
    · exact inside.2
  by_cases same : sign a = sign b
  · exact sameAccurate normalA normalB same below
  · rcases Nat.le_total (units b a) (units a b) with larger | larger
    · exact oppositeAccurate normalA normalB same larger reaches
    · rw [add_comm] at reaches
      have swapped := oppositeAccurate normalB normalA (Ne.symm same) larger reaches
      rw [addNormalComm] at swapped
      exact accurateSwap swapped

/- 1.0 less the number above 2^-24: the shifted-out bit makes the result too large. -/
theorem almostOneAccurate : Accurate 0x3F800000 0xB3800001
    (fpResult reset (Inputs.ask ⟨true,0,0,0,0,.add⟩ .add 0x3F800000 0xB3800001)) :=
  faddAccurate reset ⟨true,0,0,0,0,.add⟩ 0x3F800000 0xB3800001 (by decide) (by decide)
    (.inr ⟨by decide +kernel,by decide +kernel⟩)

end RiscvSoc.Fpu
