import Mathlib.Algebra.Group.Nat.Defs

/-! Concatenations, slices and bits of bit vectors as arithmetic on their values. -/
namespace BitNumbers

theorem appendValue {n m : Nat} (x : BitVec n) (y : BitVec m) :
    (x ++ y).toNat = x.toNat * 2 ^ m + y.toNat := by
  rw [BitVec.toNat_append,← Nat.shiftLeft_add_eq_or_of_lt y.isLt,Nat.shiftLeft_eq]

theorem sliceValue {n : Nat} (x : BitVec n) (k l : Nat) :
    (x.extractLsb' k l).toNat = x.toNat / 2 ^ k % 2 ^ l := by
  rw [BitVec.extractLsb'_toNat,Nat.shiftRight_eq_div_pow]

theorem bitValue {n : Nat} (x : BitVec n) (k : Nat) : x.getLsbD k = decide (x.toNat / 2 ^ k % 2 = 1) := by
  rw [← BitVec.testBit_toNat,Nat.testBit_eq_decide_div_mod_eq]

theorem zeroExtended {n : Nat} (m : Nat) (x : BitVec n) : (0#m ++ x).toNat = x.toNat := by
  rw [appendValue]
  simp

theorem countNext {w k : Nat} {x : BitVec w} (bound : k < 2 ^ w) (below : x.toNat < k) : (x + 1).toNat = x.toNat + 1 := by
  have one : (1 : BitVec w).toNat = 1 := Nat.mod_eq_of_lt (a := 1) (by omega)
  rw [BitVec.toNat_add_of_lt (by rw [one]; omega),one]

/- `$clog2`, and one bit where it gives none. -/
def counterWidth (n : Nat) : Nat := if n ≤ 1 then 1 else Nat.log2 (n - 1) + 1

theorem counterFits (n : Nat) : n ≤ 2 ^ counterWidth n := by
  unfold counterWidth
  split
  · omega
  · have below := Nat.lt_log2_self (n := n - 1)
    omega

section shift
variable {n : Nat} {line : Nat → BitVec n} {bit : Nat → Bool} (shifts : ∀ k, line (k + 1) = (line k).shiftConcat (bit k))
include shifts

theorem shiftDelays (k j : Nat) (within : j < n) : (line (k + j + 1)).getLsbD j = bit k := by
  induction j with
  | zero =>
    rw [Nat.add_zero,shifts,BitVec.getLsbD_shiftConcat]
    simp [within]
  | succ j ih =>
    rw [← Nat.add_assoc,shifts,BitVec.getLsbD_shiftConcat]
    simp [within,ih (by omega)]

theorem shiftStarts (k j : Nat) (within : j < n) (early : k ≤ j) : (line k).getLsbD j = (line 0).getLsbD (j - k) := by
  induction k generalizing j with
  | zero => rw [Nat.sub_zero]
  | succ k ih =>
    rw [shifts,BitVec.getLsbD_shiftConcat]
    obtain ⟨j,rfl⟩ : ∃ i, j = i + 1 := ⟨j - 1,by omega⟩
    simp [within,ih j (by omega) (by omega),show j + 1 - (k + 1) = j - k by omega]

end shift

end BitNumbers
