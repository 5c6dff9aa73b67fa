import Mathlib.Data.Int.Log
import Mathlib.Data.Rat.Floor
import Mathlib.Tactic.Linarith
import Mathlib.Tactic.NormNum
import Mathlib.Tactic.Positivity
import Mathlib.Tactic.Ring

/-! Numbers of a bounded count of leading bits: `m` units of weight `2^e`, and what is left of
a rational when it is cut after its leading bits. -/
namespace BinaryFloat

def scaled (m : Nat) (e : Int) : ℚ := m * 2 ^ e

theorem unitPositive (e : Int) : (0 : ℚ) < 2 ^ e := zpow_pos (by norm_num) e

theorem scaledNonneg (m : Nat) (e : Int) : 0 ≤ scaled m e :=
  mul_nonneg (Nat.cast_nonneg m) (unitPositive e).le

theorem scaledPositive {m : Nat} (positive : 0 < m) (e : Int) : 0 < scaled m e :=
  mul_pos (Nat.cast_pos.mpr positive) (unitPositive e)

theorem scaledZero (e : Int) : scaled 0 e = 0 := by simp [scaled]

theorem scaledOne (e : Int) : scaled 1 e = 2 ^ e := by simp [scaled]

theorem scaledAdd (m n : Nat) (e : Int) : scaled m e + scaled n e = scaled (m + n) e := by
  simp only [scaled]
  push_cast
  ring

theorem scaledSub {m n : Nat} (le : n ≤ m) (e : Int) : scaled m e - scaled n e = scaled (m - n) e := by
  simp only [scaled]
  rw [Nat.cast_sub le]
  ring

theorem scaledMul (m n : Nat) (e f : Int) : scaled m e * scaled n f = scaled (m * n) (e + f) := by
  simp only [scaled]
  rw [zpow_add₀ (by norm_num)]
  push_cast
  ring

theorem scaledShift (m k : Nat) (e : Int) : scaled (m * 2 ^ k) e = scaled m (e + k) := by
  simp only [scaled]
  rw [zpow_add₀ (by norm_num),zpow_natCast]
  push_cast
  ring

theorem scaledHalf (m : Nat) (e : Int) : scaled m e / 2 = scaled m (e - 1) := by
  rw [scaled,scaled,zpow_sub_one₀ (by norm_num),mul_div_assoc,div_eq_mul_inv]

theorem scaledDouble (m : Nat) (e : Int) : 2 * scaled m e = scaled m (e + 1) := by
  rw [scaled,scaled,zpow_add_one₀ (by norm_num)]
  ring

theorem scaledLe {m n : Nat} {e : Int} : scaled m e ≤ scaled n e ↔ m ≤ n := by
  rw [scaled,scaled,mul_le_mul_iff_of_pos_right (unitPositive e),Nat.cast_le]

theorem scaledLt {m n : Nat} {e : Int} : scaled m e < scaled n e ↔ m < n := by
  rw [scaled,scaled,mul_lt_mul_iff_of_pos_right (unitPositive e),Nat.cast_lt]

def cut (p : Nat) (q : ℚ) : ℚ := ⌊q / 2 ^ (Int.log 2 q + 1 - p)⌋ * 2 ^ (Int.log 2 q + 1 - p)

def truncate (p : Nat) (q : ℚ) : ℚ := if q < 0 then -cut p (-q) else cut p q

theorem truncateNeg (p : Nat) {q : ℚ} (nonneg : 0 ≤ q) : truncate p (-q) = -truncate p q := by
  rcases nonneg.lt_or_eq with positive | zero
  · simp [truncate,positive,not_lt.mpr nonneg]
  · simp [truncate,cut,← zero]

structure Leading (p : Nat) (q : ℚ) (m : Nat) (e : Int) : Prop where
  normal : 2 ^ (p - 1) ≤ m
  fits : m < 2 ^ p
  below : scaled m e ≤ q
  above : q < scaled (m + 1) e

section leading
variable {p m : Nat} {q : ℚ} {e : Int} (h : Leading p q m e)
include h

theorem leadingPositive : 0 < q :=
  lt_of_lt_of_le (scaledPositive (Nat.lt_of_lt_of_le (Nat.two_pow_pos _) h.normal) e) h.below

theorem leadingWidth : 0 < p := by
  have normal := h.normal
  have fits := h.fits
  rcases Nat.eq_zero_or_pos p with rfl | nonzero
  · simp at normal fits
    omega
  · exact nonzero

theorem leadingReaches (k : Int) : 2 ^ k ≤ q ↔ k < e + p := by
  have nonzero := leadingWidth h
  constructor
  · intro reaches
    have above := lt_of_le_of_lt reaches h.above
    have wide : scaled (m + 1) e ≤ 2 ^ (e + p) := by
      rw [← scaledOne,← scaledShift,Nat.one_mul]
      exact scaledLe.mpr h.fits
    exact (zpow_lt_zpow_iff_right₀ (by norm_num : (1 : ℚ) < 2)).mp (lt_of_lt_of_le above wide)
  · intro early
    calc (2 : ℚ) ^ k ≤ 2 ^ (e + (p - 1 : Nat)) := zpow_le_zpow_right₀ (by norm_num) (by omega)
      _ = scaled (2 ^ (p - 1)) e := by rw [← scaledOne,← scaledShift,Nat.one_mul]
      _ ≤ scaled m e := scaledLe.mpr h.normal
      _ ≤ q := h.below

theorem leadingLog : Int.log 2 q = e + p - 1 := by
  have positive := leadingPositive h
  have same : ∀ k : Int, k ≤ Int.log 2 q ↔ k < e + p := by
    intro k
    rw [← Int.zpow_le_iff_le_log (by norm_num) positive,← leadingReaches h]
    norm_num
  have low := (same (e + p - 1)).mpr (by omega)
  have high := (same (Int.log 2 q)).mp le_rfl
  omega

theorem leadingTruncate : truncate p q = scaled m e := by
  have positive := leadingPositive h
  have weight : Int.log 2 q + 1 - p = e := by
    rw [leadingLog h]
    omega
  have unit := unitPositive e
  have floor : ⌊q / 2 ^ e⌋ = (m : Int) := by
    rw [Int.floor_eq_iff]
    constructor
    · rw [le_div_iff₀ unit]
      exact_mod_cast h.below
    · rw [div_lt_iff₀ unit]
      have above := h.above
      simp only [scaled] at above
      exact_mod_cast above
  rw [truncate,if_neg (not_lt.mpr positive.le),cut,weight,floor,scaled]
  norm_cast

end leading

theorem leadingShift {p k n : Nat} (e : Int) (low : 2 ^ (p - 1 + k) ≤ n) (high : n < 2 ^ (p + k)) :
    Leading p (scaled n e) (n / 2 ^ k) (e + k) := by
  have unit := Nat.two_pow_pos k
  have parts := Nat.div_add_mod n (2 ^ k)
  have rest := Nat.mod_lt n unit
  rw [Nat.mul_comm] at parts
  refine ⟨?_,?_,?_,?_⟩
  · rw [Nat.le_div_iff_mul_le unit,← Nat.pow_add]
    exact low
  · rw [Nat.div_lt_iff_lt_mul unit,← Nat.pow_add]
    exact high
  · rw [← scaledShift]
    exact scaledLe.mpr (by omega)
  · rw [← scaledShift]
    exact scaledLt.mpr (by rw [Nat.add_mul]; omega)

theorem leadingQuotient {p n d : Nat} (e : Int) (positive : 0 < d) (low : 2 ^ (p - 1) ≤ n / d) (high : n / d < 2 ^ p) :
    Leading p (scaled n e / d) (n / d) e := by
  have divisor : (0 : ℚ) < d := Nat.cast_pos.mpr positive
  have parts := Nat.div_add_mod n d
  have rest := Nat.mod_lt n positive
  have scaledBy : ∀ m : Nat, scaled m e * d = scaled (m * d) e := by
    intro m
    simp only [scaled]
    push_cast
    ring
  rw [Nat.mul_comm] at parts
  refine ⟨low,high,?_,?_⟩
  · rw [le_div_iff₀ divisor,scaledBy]
    exact scaledLe.mpr (by omega)
  · rw [div_lt_iff₀ divisor,scaledBy]
    exact scaledLt.mpr (by rw [Nat.add_mul]; omega)

theorem leadingExact {p m : Nat} (e : Int) (normal : 2 ^ (p - 1) ≤ m) (fits : m < 2 ^ p) :
    Leading p (scaled m e) m e := ⟨normal,fits,le_rfl,scaledLt.mpr (by omega)⟩

theorem leadingUp {m : Nat} (p : Nat) (nonzero : m ≠ 0) (narrow : m.log2 ≤ p) :
    2 ^ p ≤ m * 2 ^ (p - m.log2) ∧ m * 2 ^ (p - m.log2) < 2 ^ (p + 1) := by
  have up := Nat.mul_le_mul_right (2 ^ (p - m.log2)) (Nat.log2_self_le nonzero)
  have less := Nat.mul_lt_mul_of_pos_right (Nat.lt_log2_self (n := m)) (Nat.two_pow_pos (p - m.log2))
  rw [← Nat.pow_add] at up less
  rw [show m.log2 + (p - m.log2) = p by omega] at up
  rw [show m.log2 + 1 + (p - m.log2) = p + 1 by omega] at less
  exact ⟨up,less⟩

def towardZero (q : ℚ) : Int := if q < 0 then ⌈q⌉ else ⌊q⌋

theorem towardZeroNeg {q : ℚ} (nonneg : 0 ≤ q) : towardZero (-q) = -⌊q⌋ := by
  rcases nonneg.lt_or_eq with positive | zero
  · rw [towardZero,if_pos (by linarith),Int.ceil_neg]
  · rw [← zero]
    rfl

theorem towardZeroNonneg {q : ℚ} (nonneg : 0 ≤ q) : towardZero q = ⌊q⌋ := if_neg (not_lt.mpr nonneg)

theorem towardZeroMono {q r : ℚ} (le : q ≤ r) : towardZero q ≤ towardZero r := by
  rw [towardZero,towardZero]
  split <;> split
  · exact Int.ceil_le_ceil le
  · rename_i negative nonneg
    have first : ⌈q⌉ ≤ 0 := Int.ceil_le.mpr (by exact_mod_cast negative.le)
    have second : 0 ≤ ⌊r⌋ := Int.floor_nonneg.mpr (not_lt.mp nonneg)
    omega
  · linarith
  · exact Int.floor_le_floor le

theorem floorWhole (m k : Nat) : ⌊scaled m k⌋ = (m * 2 ^ k : Nat) := by
  rw [scaled,zpow_natCast,Int.floor_eq_iff]
  push_cast
  constructor <;> linarith

theorem floorPart (m k : Nat) : ⌊scaled m (-k)⌋ = (m / 2 ^ k : Nat) := by
  have power : ((2 : ℚ) ^ k)⁻¹ = (2 : ℚ) ^ (-k : Int) := by rw [zpow_neg,zpow_natCast]
  rw [scaled,← power,← div_eq_mul_inv]
  exact_mod_cast Rat.floor_natCast_div_natCast m (2 ^ k)

end BinaryFloat
