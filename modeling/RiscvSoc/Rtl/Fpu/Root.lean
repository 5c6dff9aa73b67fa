import RiscvSoc.Rtl.Fpu.Integers

/-! FSQRT of normal operands: half the exponent and the same fraction. The eight-bit shift of the
unbiased exponent is a logical one, so it halves only the exponents of numbers from 1 on. -/
namespace RiscvSoc.Fpu
open BitNumbers BinaryFloat

/- The scale of a square root, within a factor of two. -/
structure RootScale (a r : BitVec 32) : Prop where
  normal : IsNormal r
  positive : sign r = false
  atLeast : value a / 2 ≤ value r ^ 2
  atMost : value r ^ 2 ≤ 2 * value a

section root
variable {a : BitVec 32}

theorem rootMantissa (a : BitVec 32) : (mantWithBit a).extractLsb' 0 23 = fraction a := by
  have bound := (fraction a).isLt
  apply BitVec.eq_of_toNat_eq
  rw [sliceValue,mantWithBit]
  split
  · rw [BitVec.toNat_setWidth,appendValue]
    have one : (0b01#2).toNat = 1 := rfl
    rw [one]
    omega
  · rw [appendValue]
    have one : (1#1).toNat = 1 := rfl
    rw [one]
    omega

theorem sqrtExpValue (a : BitVec 32) : (sqrtExp a).toNat = (((exponent a).toNat + 129) % 256 / 2 + 127) % 256 := by
  have bound := (exponent a).isLt
  rw [sqrtExp,BitVec.toNat_add,BitVec.toNat_ushiftRight,Nat.shiftRight_eq_div_pow,BitVec.toNat_sub]
  simp only [BitVec.toNat_ofNat]
  omega

theorem sqrtNormal (normal : IsNormal a) (positive : sign a = false) :
    (sqrt a).result = pack false (sqrtExp a) (fraction a) := by
  obtain ⟨nan,inf⟩ := finiteClass normal.1
  rw [sqrt,nan,positive,inf,nonzeroExponent normal.2,rootMantissa]
  rfl

theorem rootSignificand (e : BitVec 8) : significand (pack false e (fraction a)) = significand a := by
  rw [significand,packFraction,significand]

theorem rootSize {e : BitVec 8} (nonzero : e ≠ 0) :
    size (pack false e (fraction a)) = scaled (significand a).toNat (e.toNat - 150) := by
  rw [sizeNormal (by rwa [packExponent]),rootSignificand,packExponent]

theorem positiveValue (positive : sign a = false) : value a = size a := by
  rw [value,positive]
  rfl

theorem halvedScale (normal : IsNormal a) {e : BitVec 8} (nonzero : e ≠ 0)
    (halved : 2 * e.toNat = (exponent a).toNat + 127 ∨ 2 * e.toNat = (exponent a).toNat + 126) :
    size a / 2 ≤ size (pack false e (fraction a)) ^ 2 ∧ size (pack false e (fraction a)) ^ 2 ≤ 2 * size a := by
  obtain ⟨low,high⟩ := significandBounds a
  rw [rootSize nonzero,sizeNormal normal.2,pow_two,scaledMul,scaledHalf,scaledDouble]
  generalize (significand a).toNat = m at *
  have square : e.toNat - 150 + ((e.toNat : Int) - 150) = 2 * e.toNat - 300 := by ring
  have least := Nat.mul_le_mul_left m low
  have most := Nat.mul_le_mul_left m high.le
  rw [square]
  rcases halved with even | odd
  · have below : ((exponent a).toNat : Int) - 150 - 1 = 2 * e.toNat - 300 + (22 : Nat) := by omega
    have above : ((exponent a).toNat : Int) - 150 + 1 = 2 * e.toNat - 300 + (24 : Nat) := by omega
    rw [below,above,← scaledShift,← scaledShift,scaledLe,scaledLe]
    omega
  · have below : ((exponent a).toNat : Int) - 150 - 1 = 2 * e.toNat - 300 + (23 : Nat) := by omega
    have above : ((exponent a).toNat : Int) - 150 + 1 = 2 * e.toNat - 300 + (25 : Nat) := by omega
    rw [below,above,← scaledShift,← scaledShift,scaledLe,scaledLe]
    omega

end root

theorem oneReached {a : BitVec 32} (normal : IsNormal a) (positive : sign a = false) :
    1 ≤ value a ↔ 127 ≤ (exponent a).toNat := by
  have reaches := sizeReaches normal.2 0
  rw [zpow_zero] at reaches
  rw [positiveValue positive,reaches]
  omega

theorem fsqrtWired (s : Regs) (i : Inputs) (a other : BitVec 32) :
    fpResult s (i.ask .sqrt a other) = (sqrt a).result := rfl

/- FSQRT has the scale of the root exactly for the numbers that are not below 1. -/
theorem fsqrtScale (s : Regs) (i : Inputs) (a other : BitVec 32) (normal : IsNormal a) (positive : sign a = false) :
    RootScale a (fpResult s (i.ask .sqrt a other)) ↔ 1 ≤ value a := by
  have range := exponentRange normal
  have exp := sqrtExpValue a
  have nonzero : sqrtExp a ≠ 0 := by
    intro nothing
    rw [nothing] at exp
    have zero : 0 = (((exponent a).toNat + 129) % 256 / 2 + 127) % 256 := exp
    omega
  rw [fsqrtWired,sqrtNormal normal positive,oneReached normal positive]
  constructor
  · rintro ⟨_,_,_,most⟩
    by_contra early
    have small : size a < 1 := sizeFraction (by omega)
    have large : 2 ^ (1 : Int) ≤ size (pack false (sqrtExp a) (fraction a)) := by
      rw [sizeReaches (by rwa [packExponent]),packExponent,exp]
      omega
    rw [positiveValue positive,positiveValue (packSign ..)] at most
    rw [zpow_one] at large
    nlinarith only [most,small,large]
  · intro late
    have full : sqrtExp a ≠ 0xFF := by
      intro same
      rw [same] at exp
      have top : 255 = (((exponent a).toNat + 129) % 256 / 2 + 127) % 256 := exp
      omega
    obtain ⟨least,most⟩ := halvedScale normal nonzero (by omega)
    rw [← positiveValue positive,← positiveValue (a := pack false (sqrtExp a) (fraction a)) (packSign ..)] at least most
    exact ⟨⟨by rwa [packExponent],by rwa [packExponent]⟩,packSign ..,least,most⟩

/- The root of 2.0. -/
theorem twoScale : RootScale 0x40000000 (fpResult reset (Inputs.ask ⟨true,0,0,0,0,.sqrt⟩ .sqrt 0x40000000 0)) :=
  (fsqrtScale reset ⟨true,0,0,0,0,.sqrt⟩ 0x40000000 0 (by decide) (by decide)).mpr (by decide +kernel)

/- The root of 0.25 is answered with 2^127. -/
theorem quarterRoot : fpResult reset (Inputs.ask ⟨true,0,0,0,0,.sqrt⟩ .sqrt 0x3E800000 0) = 0x7F000000 ∧
    IsNormal 0x3E800000 ∧ sign 0x3E800000 = false ∧
    ¬ RootScale 0x3E800000 (fpResult reset (Inputs.ask ⟨true,0,0,0,0,.sqrt⟩ .sqrt 0x3E800000 0)) := by
  refine ⟨by decide,by decide,by decide,fun scale => ?_⟩
  exact absurd scale.atMost (by decide +kernel)

end RiscvSoc.Fpu
