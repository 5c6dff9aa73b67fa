import Mathlib.Data.Nat.ModEq
import RiscvSoc.Rtl.Fpu.Product

/-! The addition path: the multiplication by 1.0 in front of it, and the alignment as division of
both significands, counted in units of the operand with the smaller exponent. -/
namespace RiscvSoc.Fpu
open BitNumbers BinaryFloat PriorityEncoder

theorem multiplyOne {a : BitVec 32} (number : isNan a = false) :
    multiply a fpOne = if exponent a = 0 then pack (sign a) 0 0 else a := by
  have one : isNan fpOne = false ∧ isInf fpOne = false ∧ isZero fpOne = false ∧ sign fpOne = false ∧
      exponent fpOne = 127 ∧ (significand fpOne).toNat = 2 ^ 23 := by decide
  obtain ⟨nan,inf,zero,plus,expOne,sigOne⟩ := one
  simp only [multiply,number,nan,inf,zero,plus,Bool.or_self,Bool.or_false,Bool.false_eq_true,if_false,Bool.xor_false]
  by_cases infinite : isInf a = true
  · have fields : exponent a = 0xFF ∧ fraction a = 0 := by simpa [isInf] using infinite
    have nonzero : ¬ exponent a = 0 := by
      rw [fields.1]
      decide
    rw [if_pos infinite,if_neg nonzero]
    exact fieldsEqual (packSign ..) ((packExponent ..).trans fields.1.symm) ((packFraction ..).trans fields.2.symm)
  · rw [if_neg infinite]
    by_cases nothing : isZero a = true
    · rw [if_pos nothing,if_pos ((zeroFields a).mp nothing).1]
    · have bound := significandBounds a
      have small : (exponent a).toNat ≠ 255 := by
        intro full
        have fields : exponent a = 0xFF := BitVec.eq_of_toNat_eq full
        simp [isNan,isInf,fields] at number infinite
        exact infinite number
      have range := (exponent a).isLt
      have product : (mulProduct a fpOne).toNat = (significand a).toNat * 2 ^ 23 := by
        rw [mulProductValue,sigOne]
      have carry : productCarry a fpOne = 0 := by
        rw [productCarry,product,if_neg (by omega)]
      have weight : productWeight a fpOne = (exponent a).toNat + 127 := by
        rw [productWeight,carry,expOne]
        rfl
      rw [if_neg nothing,multiplyRange,weight,carry,product,plus,Bool.xor_false,if_neg (by omega)]
      by_cases subnormal : exponent a = 0
      · rw [if_pos (by simp [subnormal]),if_pos subnormal]
      · have positive : (exponent a).toNat ≠ 0 := fun zero => subnormal (BitVec.eq_of_toNat_eq zero)
        rw [if_neg (by omega),if_neg subnormal]
        apply fieldsEqual (packSign ..)
        · rw [packExponent]
          exact BitVec.eq_of_toNat_eq (by rw [BitVec.toNat_ofNat]; omega)
        · rw [packFraction]
          apply BitVec.eq_of_toNat_eq
          have bits := significandValue a
          have less := (fraction a).isLt
          rw [BitVec.toNat_ofNat,Nat.add_zero,Nat.mul_div_cancel _ (by decide)]
          omega

/- FADD and FSUB; `negateAddend` is set for FSUB. -/
def addition (a b : BitVec 32) (negateAddend : Bool) : BitVec 32 := add (multiply a fpOne) b negateAddend

theorem faddWired (s : Regs) (i : Inputs) (a b : BitVec 32) : fpResult s (i.ask .add a b) = addition a b false := by
  simp only [fpResult,Inputs.ask,fmaResult,fma,addition,Bool.false_eq_true,if_false]

theorem fsubWired (s : Regs) (i : Inputs) (a b : BitVec 32) : fpResult s (i.ask .sub a b) = addition a b true := by
  simp only [fpResult,Inputs.ask,fmaResult,fma,addition,Bool.false_eq_true,if_false]

theorem additionFinite {a b : BitVec 32} (finiteA : IsFinite a) (finiteB : IsFinite b) :
    addition a b false = if exponent a = 0 then b else if isZero b then a else addNormal a b false := by
  obtain ⟨nanA,infA⟩ := finiteClass finiteA
  obtain ⟨nanB,infB⟩ := finiteClass finiteB
  obtain ⟨nanZ,infZ,zero⟩ := zeroPacked (sign a)
  rw [addition,multiplyOne nanA]
  by_cases nothing : exponent a = 0
  · simp only [add,addend,if_pos nothing,nanZ,infZ,zero,nanB,infB,Bool.or_self,Bool.and_self,Bool.false_eq_true,if_false,
      if_true]
  · simp only [add,addend,if_neg nothing,nanA,infA,nonzeroExponent nothing,nanB,infB,Bool.or_self,Bool.and_self,
      Bool.false_eq_true,if_false]

section alignment
variable (a b : BitVec 32)

/- The significand of `a` in units of the smaller of the two exponents. -/
def units : Nat := (significand a).toNat * 2 ^ ((exponent a).toNat - (exponent b).toNat)

def gap : Nat := ((exponent a).toNat - (exponent b).toNat) + ((exponent b).toNat - (exponent a).toNat)

def lowUnit : Int := (min (exponent a).toNat (exponent b).toNat : Nat) - 150
def highUnit : Int := (max (exponent a).toNat (exponent b).toNat : Nat) - 150

theorem unitGap : lowUnit a b + gap a b = highUnit a b := by
  rw [lowUnit,highUnit,gap]
  omega

theorem lowSymmetric : lowUnit a b = lowUnit b a := by rw [lowUnit,Nat.min_comm,lowUnit]

theorem highSymmetric : highUnit a b = highUnit b a := by rw [highUnit,Nat.max_comm,highUnit]

theorem gapSymmetric : gap a b = gap b a := Nat.add_comm ..

theorem shiftValue (d : BitVec 8) (m : BitVec 24) : (shiftAligned d m).toNat = m.toNat / 2 ^ d.toNat := by
  rw [shiftAligned]
  split
  · rw [BitVec.toNat_ushiftRight,Nat.shiftRight_eq_div_pow]
  · have large : 2 ^ 24 ≤ 2 ^ d.toNat := Nat.pow_le_pow_right (by decide) (by omega)
    have zero : m.toNat / 2 ^ d.toNat = 0 := Nat.div_eq_of_lt (Nat.lt_of_lt_of_le m.isLt large)
    rw [zero]
    rfl

theorem exponentGap (high : (exponent b).toNat ≤ (exponent a).toNat) :
    (exponent a - exponent b).toNat = (exponent a).toNat - (exponent b).toNat := by
  have ea := (exponent a).isLt
  rw [BitVec.toNat_sub]
  omega

theorem alignValue : (align a b).aMant.toNat = units a b / 2 ^ gap a b ∧
    (align a b).bMant.toNat = units b a / 2 ^ gap a b ∧
    (align a b).exp.toNat = max (exponent a).toNat (exponent b).toNat := by
  rw [align,units,units,gap]
  split
  · rename_i more
    have zero : (exponent b).toNat - (exponent a).toNat = 0 := by omega
    rw [zero,Nat.add_zero,shiftValue,exponentGap a b (by omega),Nat.mul_div_cancel _ (Nat.two_pow_pos _)]
    have top : max (exponent a).toNat (exponent b).toNat = (exponent a).toNat := by omega
    exact ⟨rfl,by simp,top.symm⟩
  · have zero : (exponent a).toNat - (exponent b).toNat = 0 := by omega
    rw [zero,Nat.zero_add,shiftValue,exponentGap b a (by omega),Nat.mul_div_cancel _ (Nat.two_pow_pos _)]
    have top : max (exponent a).toNat (exponent b).toNat = (exponent b).toNat := by omega
    exact ⟨by simp,rfl,top.symm⟩

theorem alignSwap : align b a = ⟨(align a b).bMant,(align a b).aMant,(align a b).exp⟩ := by
  obtain ⟨ma,mb,e⟩ := alignValue a b
  obtain ⟨mb',ma',e'⟩ := alignValue b a
  rw [← gapSymmetric] at mb' ma'
  have first := BitVec.eq_of_toNat_eq (mb'.trans mb.symm)
  have second := BitVec.eq_of_toNat_eq (ma'.trans ma.symm)
  have third := BitVec.eq_of_toNat_eq (e'.trans ((Nat.max_comm ..).trans e.symm))
  rw [← first,← second,← third]

theorem unitsExact : units a b % 2 ^ gap a b = 0 ∨ units b a % 2 ^ gap a b = 0 := by
  rw [units,units,gap]
  rcases Nat.le_total (exponent a).toNat (exponent b).toNat with le | le
  · have zero : (exponent a).toNat - (exponent b).toNat = 0 := by omega
    rw [zero,Nat.zero_add]
    exact .inr (Nat.mul_mod_left ..)
  · have zero : (exponent b).toNat - (exponent a).toNat = 0 := by omega
    rw [zero,Nat.add_zero]
    exact .inl (Nat.mul_mod_left ..)

theorem unitsSize (normal : exponent a ≠ 0) : size a = scaled (units a b) (lowUnit a b) := by
  have weight : ((exponent a).toNat : Int) - 150 =
      lowUnit a b + ((exponent a).toNat - (exponent b).toNat : Nat) := by
    rw [lowUnit]
    omega
  rw [sizeNormal normal,units,scaledShift,← weight]

end alignment

theorem subSymmetric (x y : BitVec 24) (e : BitVec 8) : subMagnitudes ⟨y,x,e⟩ = subMagnitudes ⟨x,y,e⟩ := by
  simp only [subMagnitudes]
  rcases Nat.lt_trichotomy x.toNat y.toNat with less | same | more
  · rw [if_pos (by omega),if_neg (by omega)]
  · rw [BitVec.eq_of_toNat_eq same]
  · rw [if_neg (by omega),if_pos (by omega)]

theorem normalizeNone (s : Bool) (e : BitVec 8) : addAssemble s (normalize 0 e) = posZero := by
  simp [normalize,addAssemble]

theorem addNormalComm (a b : BitVec 32) : addNormal b a false = addNormal a b false := by
  simp only [addNormal,Bool.xor_false,alignSwap a b]
  generalize align a b = m
  by_cases same : sign a = sign b
  · rw [if_pos same,if_pos same.symm,same]
    simp only [addMagnitudes,BitVec.add_comm (0#1 ++ m.bMant)]
  · rw [if_neg same,if_neg (Ne.symm same)]
    have difference : subMagnitudes ⟨m.bMant,m.aMant,m.exp⟩ = subMagnitudes m := subSymmetric ..
    rw [difference]
    rcases Nat.lt_trichotomy m.aMant.toNat m.bMant.toNat with less | equal | more
    · rw [if_pos (by omega),if_neg (by omega)]
    · have zero : subMagnitudes m = 0 := by
        rw [subMagnitudes,BitVec.eq_of_toNat_eq equal,if_pos (Nat.le_refl _)]
        exact BitVec.sub_self ..
      rw [zero,normalizeNone,normalizeNone]
    · rw [if_neg (by omega),if_pos (by omega)]

section bounds
variable (a b : BitVec 32)

theorem unitsTop (high : (exponent b).toNat ≤ (exponent a).toNat) :
    units a b = (significand a).toNat * 2 ^ gap a b ∧ units b a = (significand b).toNat := by
  have zero : (exponent b).toNat - (exponent a).toNat = 0 := by omega
  rw [units,units,gap,zero,Nat.add_zero]
  exact ⟨rfl,by simp⟩

theorem unitsBound : units a b < 2 ^ 24 * 2 ^ gap a b := by
  have small := (significandBounds a).2
  have within : 2 ^ ((exponent a).toNat - (exponent b).toNat) ≤ 2 ^ gap a b :=
    Nat.pow_le_pow_right (by decide) (Nat.le_add_right ..)
  exact Nat.lt_of_lt_of_le (Nat.mul_lt_mul_of_pos_right small (Nat.two_pow_pos _)) (Nat.mul_le_mul_left _ within)

theorem sumBounds : 2 ^ 23 * 2 ^ gap a b ≤ units a b + units b a ∧
    units a b + units b a < 2 ^ 25 * 2 ^ gap a b := by
  have first := unitsBound a b
  have second := unitsBound b a
  rw [gapSymmetric b a] at second
  refine ⟨?_,by omega⟩
  rcases Nat.le_total (exponent b).toNat (exponent a).toNat with le | le
  · have top := Nat.mul_le_mul_right (2 ^ gap a b) (significandBounds a).1
    rw [← (unitsTop a b le).1] at top
    omega
  · have top := Nat.mul_le_mul_right (2 ^ gap b a) (significandBounds b).1
    rw [← (unitsTop b a le).1,gapSymmetric b a] at top
    omega

theorem sumAligned : units a b / 2 ^ gap a b + units b a / 2 ^ gap a b =
    (units a b + units b a) / 2 ^ gap a b := by
  rcases unitsExact a b with exact | exact
  · rw [Nat.add_div_of_dvd_right (Nat.dvd_of_mod_eq_zero exact)]
  · rw [Nat.add_div_of_dvd_left (Nat.dvd_of_mod_eq_zero exact)]

def sumMant : Nat := (units a b + units b a) / 2 ^ gap a b

theorem sumMantBounds : 2 ^ 23 ≤ sumMant a b ∧ sumMant a b < 2 ^ 25 := by
  obtain ⟨low,high⟩ := sumBounds a b
  exact ⟨(Nat.le_div_iff_mul_le (Nat.two_pow_pos _)).mpr low,(Nat.div_lt_iff_lt_mul (Nat.two_pow_pos _)).mpr high⟩

theorem addNormalSame (neg : Bool) (same : sign a = (sign b ^^ neg)) : addNormal a b neg =
    if sumMant a b < 2 ^ 24 then
      pack (sign a) (BitVec.ofNat 8 (max (exponent a).toNat (exponent b).toNat)) (BitVec.ofNat 23 (sumMant a b))
    else pack (sign a) (BitVec.ofNat 8 (max (exponent a).toNat (exponent b).toNat + 1))
      (BitVec.ofNat 23 (sumMant a b / 2)) := by
  obtain ⟨first,second,top⟩ := alignValue a b
  obtain ⟨low,high⟩ := sumMantBounds a b
  have total : ((0#1 ++ (align a b).aMant) + (0#1 ++ (align a b).bMant) : BitVec 25).toNat = sumMant a b := by
    rw [BitVec.toNat_add,zeroExtended,zeroExtended,first,second,sumAligned]
    exact Nat.mod_eq_of_lt high
  rw [addNormal,if_pos same,addMagnitudes]
  generalize ((0#1 ++ (align a b).aMant) + (0#1 ++ (align a b).bMant) : BitVec 25) = sum at *
  have carry : sum.getLsbD 24 = decide (2 ^ 24 ≤ sumMant a b) := by
    rw [bitValue,decide_eq_decide,total]
    omega
  have expSame : (align a b).exp = BitVec.ofNat 8 (max (exponent a).toNat (exponent b).toNat) := by
    rw [← top,exponentKept]
  by_cases small : sumMant a b < 2 ^ 24
  · have nonzero : ¬ sum = 0 := by
      intro zero
      rw [zero] at total
      have nothing : 0 = sumMant a b := total
      omega
    have kept : sum.extractLsb' 0 23 = BitVec.ofNat 23 (sumMant a b) :=
      BitVec.eq_of_toNat_eq (by rw [sliceValue,total,BitVec.toNat_ofNat]; omega)
    rw [if_neg (by rw [carry,decide_eq_true_eq]; omega),if_pos small,addAssemble,if_neg nonzero,kept,expSame]
  · have shifted : (sum >>> 1).toNat = sumMant a b / 2 := by
      rw [BitVec.toNat_ushiftRight,Nat.shiftRight_eq_div_pow,total]
    have nonzero : ¬ sum >>> 1 = 0 := by
      intro zero
      rw [zero] at shifted
      have nothing : 0 = sumMant a b / 2 := shifted
      omega
    have kept : (sum >>> 1).extractLsb' 0 23 = BitVec.ofNat 23 (sumMant a b / 2) :=
      BitVec.eq_of_toNat_eq (by rw [sliceValue,shifted,BitVec.toNat_ofNat]; omega)
    rw [if_pos (by rw [carry,decide_eq_true_eq]; omega),if_neg small,addAssemble,if_neg nonzero,kept,expSame,
      BitVec.ofNat_add]
    rfl

end bounds

section normalization
variable {m : BitVec 25} {p : Nat} (low : 2 ^ p ≤ m.toNat) (high : m.toNat < 2 ^ (p + 1))
include low high

theorem partFinds {first count : Nat} (above : first ≤ p) (below : p < first + count) (small : p < 23) :
    (encode m.getLsbD shiftCode first count 0).toNat = 23 - p := by
  obtain ⟨set,clear⟩ := highestBit m low high
  have code : (shiftCode p).toNat = 23 - p := by
    rw [shiftCode,BitVec.toNat_ofNat]
    omega
  rw [encodeHighest above below set (fun q more _ => clear q more),code]
  intro nothing
  rw [nothing] at code
  have zero : 0 = 23 - p := code
  omega

theorem sliceNonzero {k l : Nat} (bound : m.toNat < 2 ^ (k + l)) : m.extractLsb' k l ≠ 0 ↔ k ≤ p := by
  have inside : m.toNat / 2 ^ k % 2 ^ l = m.toNat / 2 ^ k :=
    Nat.mod_eq_of_lt (Nat.div_lt_of_lt_mul (by rwa [← Nat.pow_add]))
  have value := (sliceValue m k l).trans inside
  rw [ne_eq,← BitVec.toNat_inj,value]
  constructor
  · intro nonzero
    rcases Nat.lt_or_ge p k with less | more
    · have beyond : m.toNat < 2 ^ k := Nat.lt_of_lt_of_le high (Nat.pow_le_pow_right (by decide) less)
      exact absurd (by rw [Nat.div_eq_of_lt beyond]; rfl) nonzero
    · exact more
  · intro more nothing
    have least : 2 ^ k ≤ m.toNat := Nat.le_trans (Nat.pow_le_pow_right (by decide) more) low
    have one := Nat.div_pos least (Nat.two_pow_pos k)
    have zero : m.toNat / 2 ^ k = 0 := nothing
    omega

theorem normShiftValue (small : p < 23) : (normShift m).toNat = 23 - p := by
  have below : ∀ q, p < q → m.toNat < 2 ^ q :=
    fun q more => Nat.lt_of_lt_of_le high (Nat.pow_le_pow_right (by decide) more)
  rw [normShift]
  split
  · rename_i first
    exact partFinds low high ((sliceNonzero low high (below 23 small)).mp first) (by omega) small
  · rename_i first
    rw [sliceNonzero low high (below 23 small)] at first
    split
    · rename_i second
      exact partFinds low high ((sliceNonzero low high (below 16 (by omega))).mp second) (by omega) small
    · rename_i second
      rw [sliceNonzero low high (below 16 (by omega))] at second
      exact partFinds low high (by omega) (by omega) small

theorem normalizeValue (within : p ≤ 23) (s : Bool) (e : BitVec 8) : addAssemble s (normalize m e) =
    if 23 - p ≤ e.toNat then
      pack s (BitVec.ofNat 8 (e.toNat - (23 - p))) (BitVec.ofNat 23 (m.toNat * 2 ^ (23 - p)))
    else posZero := by
  obtain ⟨set,clear⟩ := highestBit m low high
  have present : m ≠ 0 := by
    rintro rfl
    have positive := Nat.two_pow_pos p
    have nothing : 2 ^ p ≤ 0 := low
    omega
  rcases Nat.eq_or_lt_of_le within with rfl | small
  · have kept : m.extractLsb' 0 23 = BitVec.ofNat 23 (m.toNat * 2 ^ (23 - 23)) :=
      BitVec.eq_of_toNat_eq (by rw [sliceValue,BitVec.toNat_ofNat]; simp)
    have same : e = BitVec.ofNat 8 (e.toNat - (23 - 23)) := by simp
    rw [normalize,if_neg (by simp [set]),addAssemble,if_neg present,if_pos (by omega),kept,← same]
  · have shift := normShiftValue low high small
    have total : m.toNat * 2 ^ (23 - p) < 2 ^ 24 := by
      have scaledUp := Nat.mul_lt_mul_of_pos_right high (Nat.two_pow_pos (23 - p))
      rw [← Nat.pow_add] at scaledUp
      have width : p + 1 + (23 - p) = 24 := by omega
      rwa [width] at scaledUp
    have value : (m <<< (normShift m).toNat).toNat = m.toNat * 2 ^ (23 - p) := by
      rw [BitVec.toNat_shiftLeft,shift,Nat.shiftLeft_eq]
      exact Nat.mod_eq_of_lt (by omega)
    rw [normalize,if_pos ⟨present,clear 23 small⟩,shift]
    split
    · rename_i enough
      have nonzero : ¬ m <<< (normShift m).toNat = 0 := by
        intro zero
        rw [zero] at value
        have nothing : 0 = m.toNat * 2 ^ (23 - p) := value
        have positive := Nat.mul_le_mul low (Nat.one_le_two_pow (n := 23 - p))
        have least := Nat.two_pow_pos p
        omega
      have kept : (m <<< (normShift m).toNat).extractLsb' 0 23 = BitVec.ofNat 23 (m.toNat * 2 ^ (23 - p)) :=
        BitVec.eq_of_toNat_eq (by rw [sliceValue,value,BitVec.toNat_ofNat]; simp)
      have exp : e - normShift m = BitVec.ofNat 8 (e.toNat - (23 - p)) := by
        have bound := e.isLt
        apply BitVec.eq_of_toNat_eq
        rw [BitVec.toNat_sub,shift,BitVec.toNat_ofNat]
        omega
      rw [← shift,addAssemble,if_neg nonzero,kept,shift,exp]
    · rfl

end normalization

section difference
variable (a b : BitVec 32)

/- `add_result_mant` of opposite signs before normalisation, when `a` is the larger operand. -/
def differenceMant : Nat := units a b / 2 ^ gap a b - units b a / 2 ^ gap a b

theorem addNormalOpposite (opposite : sign a ≠ sign b) (larger : units b a ≤ units a b) :
    addNormal a b false = addAssemble (sign a) (normalize (BitVec.ofNat 25 (differenceMant a b))
      (BitVec.ofNat 8 (max (exponent a).toNat (exponent b).toNat))) := by
  obtain ⟨first,second,top⟩ := alignValue a b
  have order : (align a b).bMant.toNat ≤ (align a b).aMant.toNat := by
    rw [first,second]
    exact Nat.div_le_div_right larger
  have mant : subMagnitudes (align a b) = BitVec.ofNat 25 (differenceMant a b) := by
    have small := (align a b).aMant.isLt
    have less := (align a b).bMant.isLt
    rw [subMagnitudes,if_pos order]
    apply BitVec.eq_of_toNat_eq
    rw [BitVec.toNat_sub,zeroExtended,zeroExtended,BitVec.toNat_ofNat,differenceMant,← first,← second]
    omega
  have expSame : (align a b).exp = BitVec.ofNat 8 (max (exponent a).toNat (exponent b).toNat) := by
    rw [← top,exponentKept]
  rw [addNormal,Bool.xor_false]
  simp only [if_neg opposite,if_pos order,mant,expSame]

end difference

end RiscvSoc.Fpu
