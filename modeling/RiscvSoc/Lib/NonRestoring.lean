import Mathlib.Algebra.Group.Nat.Defs

/-! Non-restoring division of a partial remainder kept in two's complement: what one
iteration does to the remainder that is meant, and when the sign bit tells the truth. -/
namespace NonRestoring
variable {n : Nat}

def restored (p d : BitVec n) : BitVec n := if p.msb then p + d else p

def advance (p d : BitVec n) : BitVec n := if p.msb then (p <<< 1) + d else (p <<< 1) - d

def quotientBit (p d : BitVec n) : Bool := !(advance p d).msb

theorem advanceDoubles (p d : BitVec n) :
    advance p d = restored p d + restored p d - d := by
  have double : p <<< 1 = p + p := by
    rw [BitVec.shiftLeft_eq_mul_twoPow]
    apply BitVec.eq_of_toNat_eq
    rw [BitVec.toNat_mul,BitVec.toNat_twoPow,BitVec.toNat_add,Nat.mul_mod_mod]
    congr 1
    omega
  simp only [advance,restored,double]
  split
  · rw [← BitVec.add_assoc,BitVec.add_sub_cancel,BitVec.add_assoc p d p,BitVec.add_comm d p,
      BitVec.add_assoc]
  · rfl

/- `total` is the quotient `q` of `d` and the remainder `r`. -/
structure Divided (total q r d : Nat) : Prop where
  equation : total = q * d + r
  below : r < d

def fitsOnce (r d : Nat) : Nat := if d ≤ 2 * r then 1 else 0

theorem dividedNext {total q r d : Nat} (h : Divided total q r d) :
    Divided (2 * total) (2 * q + fitsOnce r d) (2 * r - fitsOnce r d * d) d := by
  have less := h.below
  have doubled : 2 * total = 2 * q * d + 2 * r := by rw [h.equation,Nat.mul_add,Nat.mul_assoc]
  rw [fitsOnce]
  split
  · refine ⟨?_,by omega⟩
    rw [doubled,Nat.add_mul]
    omega
  · refine ⟨?_,by omega⟩
    rw [doubled,Nat.add_zero,Nat.zero_mul,Nat.sub_zero]

structure Signed (n r d : Nat) : Prop where
  low : d ≤ 2 * r + 2 ^ (n - 1)
  high : 2 * r < d + 2 ^ (n - 1)

section step
variable {p d : BitVec n} (below : (restored p d).toNat < d.toNat)
  (signed : Signed n (restored p d).toNat d.toNat)
include below signed

theorem halves : 2 ^ n = 2 * 2 ^ (n - 1) := by
  have wide : n ≠ 0 := by
    rintro rfl
    have bound := d.isLt
    omega
  rw [← Nat.pow_succ']
  congr 1
  omega

theorem advanceValue : (advance p d).toNat =
    if d.toNat ≤ 2 * (restored p d).toNat then 2 * (restored p d).toNat - d.toNat
    else 2 ^ n + 2 * (restored p d).toNat - d.toNat := by
  have low := signed.low
  have high := signed.high
  have bound := d.isLt
  have both := halves below signed
  rw [advanceDoubles,BitVec.toNat_sub,BitVec.toNat_add,Nat.add_mod_mod]
  generalize (restored p d).toNat = r at *
  generalize d.toNat = e at *
  generalize 2 ^ (n - 1) = half at *
  rw [both] at bound ⊢
  split
  · have shift : 2 * half - e + (r + r) = (2 * r - e) + 2 * half := by omega
    rw [shift,Nat.add_mod_right,Nat.mod_eq_of_lt (by omega)]
  · rw [Nat.mod_eq_of_lt (by omega)]
    omega

theorem signTells : quotientBit p d = decide (d.toNat ≤ 2 * (restored p d).toNat) := by
  have low := signed.low
  have high := signed.high
  have both := halves below signed
  rw [quotientBit,BitVec.msb_eq_decide,advanceValue below signed]
  split
  · rename_i fits
    simp only [fits,decide_true,Bool.not_eq_eq_eq_not,Bool.not_true,decide_eq_false_iff_not]
    omega
  · rename_i short
    simp only [short,decide_false,Bool.not_eq_eq_eq_not,Bool.not_false,decide_eq_true_eq]
    omega

theorem restoredAdvance : (restored (advance p d) d).toNat =
    2 * (restored p d).toNat - fitsOnce (restored p d).toNat d.toNat * d.toNat := by
  have sign := signTells below signed
  have value := advanceValue below signed
  have bound := d.isLt
  rw [quotientBit] at sign
  rw [fitsOnce,restored]
  by_cases fits : d.toNat ≤ 2 * (restored p d).toNat
  · have positive : (advance p d).msb = false := by simpa [fits] using sign
    rw [if_neg (by simp [positive]),value,if_pos fits,if_pos fits,Nat.one_mul]
  · have negative : (advance p d).msb = true := by simpa [fits] using sign
    rw [if_pos negative,BitVec.toNat_add,value,if_neg fits,if_neg fits]
    have back : 2 ^ n + 2 * (restored p d).toNat - d.toNat + d.toNat =
        2 * (restored p d).toNat + 2 ^ n := by omega
    rw [back,Nat.add_mod_right,Nat.mod_eq_of_lt (by omega)]
    omega

end step
end NonRestoring
