import RiscvSoc.Lib.BinaryFloat
import RiscvSoc.Lib.BitNumbers

/-! Single-precision bit patterns: their fields, the classes of `fpu_classifier.sv`, which the
other modules test in the same words, and the rational a finite pattern stands for. -/
namespace RiscvSoc.Fpu
open BitNumbers BinaryFloat

def sign (x : BitVec 32) : Bool := x.getLsbD 31
def exponent (x : BitVec 32) : BitVec 8 := x.extractLsb' 23 8
def fraction (x : BitVec 32) : BitVec 23 := x.extractLsb' 0 23
def lowBits (x : BitVec 32) : BitVec 31 := x.extractLsb' 0 31

def pack (s : Bool) (e : BitVec 8) (m : BitVec 23) : BitVec 32 := BitVec.ofBool s ++ e ++ m

def isNan (x : BitVec 32) : Bool := exponent x == 0xFF && fraction x != 0
def isSnan (x : BitVec 32) : Bool := exponent x == 0xFF && fraction x != 0 && !x.getLsbD 22
def isInf (x : BitVec 32) : Bool := exponent x == 0xFF && fraction x == 0
def isZero (x : BitVec 32) : Bool := lowBits x == 0
def isSubnormal (x : BitVec 32) : Bool := exponent x == 0 && fraction x != 0

def posZero : BitVec 32 := 0x00000000
def negZero : BitVec 32 := 0x80000000
def posInf : BitVec 32 := 0x7F800000
def negInf : BitVec 32 := 0xFF800000
def qnan : BitVec 32 := 0x7FC00000
def fpOne : BitVec 32 := 0x3F800000

def negate (x : BitVec 32) : BitVec 32 := pack (!sign x) (exponent x) (fraction x)

/- The implicit bit is set whatever the exponent. -/
def significand (x : BitVec 32) : BitVec 24 := 1#1 ++ fraction x

def IsFinite (x : BitVec 32) : Prop := exponent x ≠ 0xFF
instance (x) : Decidable (IsFinite x) := by unfold IsFinite; infer_instance

def IsNormal (x : BitVec 32) : Prop := exponent x ≠ 0xFF ∧ exponent x ≠ 0
instance (x) : Decidable (IsNormal x) := by unfold IsNormal; infer_instance

def size (x : BitVec 32) : ℚ :=
  if exponent x = 0 then scaled (fraction x).toNat (-149)
  else scaled (significand x).toNat ((exponent x).toNat - 150)

def signed (s : Bool) (q : ℚ) : ℚ := if s then -q else q

def value (x : BitVec 32) : ℚ := signed (sign x) (size x)

theorem packValue (s : Bool) (e : BitVec 8) (m : BitVec 23) :
    (pack s e m).toNat = s.toNat * 2 ^ 31 + e.toNat * 2 ^ 23 + m.toNat := by
  rw [pack,appendValue,appendValue,BitVec.toNat_ofBool]
  omega

@[simp] theorem packSign (s : Bool) (e : BitVec 8) (m : BitVec 23) : sign (pack s e m) = s := by
  have low := e.isLt
  have less := m.isLt
  rw [sign,bitValue,packValue]
  cases s <;> simp <;> omega

@[simp] theorem packExponent (s : Bool) (e : BitVec 8) (m : BitVec 23) : exponent (pack s e m) = e := by
  have low := e.isLt
  have less := m.isLt
  apply BitVec.eq_of_toNat_eq
  rw [exponent,sliceValue,packValue]
  omega

@[simp] theorem packFraction (s : Bool) (e : BitVec 8) (m : BitVec 23) : fraction (pack s e m) = m := by
  have less := m.isLt
  apply BitVec.eq_of_toNat_eq
  rw [fraction,sliceValue,packValue]
  omega

theorem signValue (x : BitVec 32) : (sign x).toNat = x.toNat / 2 ^ 31 := by
  have bound := x.isLt
  rw [sign,bitValue]
  by_cases high : x.toNat / 2 ^ 31 % 2 = 1
  · rw [decide_eq_true high,Bool.toNat_true]
    omega
  · rw [decide_eq_false high,Bool.toNat_false]
    omega

theorem packFields (x : BitVec 32) : pack (sign x) (exponent x) (fraction x) = x := by
  have bound := x.isLt
  apply BitVec.eq_of_toNat_eq
  rw [packValue,signValue,exponent,fraction,sliceValue,sliceValue]
  omega

theorem fieldsEqual {x y : BitVec 32} (s : sign x = sign y) (e : exponent x = exponent y)
    (m : fraction x = fraction y) : x = y := by
  rw [← packFields x,← packFields y,s,e,m]

theorem zeroFields (x : BitVec 32) : isZero x = true ↔ exponent x = 0 ∧ fraction x = 0 := by
  rw [isZero,beq_iff_eq,← BitVec.toNat_inj,← BitVec.toNat_inj,← BitVec.toNat_inj,lowBits,exponent,fraction,
    sliceValue,sliceValue,sliceValue]
  simp only [BitVec.ofNat_eq_ofNat,BitVec.toNat_ofNat,Nat.zero_mod]
  omega

theorem negateSign (x : BitVec 32) : sign (negate x) = !sign x := packSign ..
theorem negateExponent (x : BitVec 32) : exponent (negate x) = exponent x := packExponent ..
theorem negateFraction (x : BitVec 32) : fraction (negate x) = fraction x := packFraction ..

theorem finiteClass {x : BitVec 32} (finite : IsFinite x) : isNan x = false ∧ isInf x = false := by
  have other : (exponent x == 0xFF) = false := beq_eq_false_iff_ne.mpr finite
  rw [isNan,isInf,other]
  exact ⟨rfl,rfl⟩

theorem nonzeroExponent {x : BitVec 32} (nonzero : exponent x ≠ 0) : isZero x = false :=
  Bool.eq_false_iff.mpr fun zero => nonzero ((zeroFields x).mp zero).1

theorem infPacked (s : Bool) : isNan (pack s 0xFF 0) = false ∧ isInf (pack s 0xFF 0) = true ∧
    isZero (pack s 0xFF 0) = false := by
  cases s <;> decide

theorem zeroPacked (s : Bool) : isNan (pack s 0 0) = false ∧ isInf (pack s 0 0) = false ∧
    isZero (pack s 0 0) = true := by
  cases s <;> decide

theorem sizeNonneg (x : BitVec 32) : 0 ≤ size x := by
  rw [size]
  split <;> exact scaledNonneg ..

theorem valueSize (x : BitVec 32) : |value x| = size x := by
  rw [value,signed]
  split
  · rw [abs_neg,abs_of_nonneg (sizeNonneg x)]
  · exact abs_of_nonneg (sizeNonneg x)

theorem sizeNormal {x : BitVec 32} (nonzero : exponent x ≠ 0) :
    size x = scaled (significand x).toNat ((exponent x).toNat - 150) := by
  rw [size,if_neg nonzero]

theorem significandValue (x : BitVec 32) : (significand x).toNat = 2 ^ 23 + (fraction x).toNat := by
  rw [significand,appendValue]
  rfl

theorem significandBounds (x : BitVec 32) : 2 ^ 23 ≤ (significand x).toNat ∧ (significand x).toNat < 2 ^ 24 := by
  have bound := (fraction x).isLt
  have value := significandValue x
  omega

theorem exponentRange {x : BitVec 32} (normal : IsNormal x) : 0 < (exponent x).toNat ∧ (exponent x).toNat < 255 := by
  have bound := (exponent x).isLt
  have low : (exponent x).toNat ≠ 0 := fun zero => normal.2 (BitVec.eq_of_toNat_eq zero)
  have high : (exponent x).toNat ≠ 255 := fun full => normal.1 (BitVec.eq_of_toNat_eq full)
  omega

theorem exponentKept (e : BitVec 8) : BitVec.ofNat 8 e.toNat = e := by
  rw [BitVec.ofNat_toNat,BitVec.setWidth_eq]

theorem biasedValue {e : Nat} (below : e < 255) : (BitVec.ofNat 8 e).toNat = e := by
  rw [BitVec.toNat_ofNat]
  omega

theorem packedFinite {s : Bool} {e : Nat} {m : BitVec 23} (below : e < 255) : IsFinite (pack s (BitVec.ofNat 8 e) m) := by
  rw [IsFinite,packExponent]
  intro full
  have value := congrArg BitVec.toNat full
  rw [biasedValue below] at value
  have top : e = 255 := value
  omega

theorem packedNormal {s : Bool} {e : Nat} {m : BitVec 23} (positive : 0 < e) (below : e < 255) :
    IsNormal (pack s (BitVec.ofNat 8 e) m) := by
  refine ⟨packedFinite below,?_⟩
  rw [packExponent]
  intro zero
  have value := congrArg BitVec.toNat zero
  rw [biasedValue below] at value
  have nothing : e = 0 := value
  omega

end RiscvSoc.Fpu
