import Mathlib.Algebra.Group.Nat.Defs
import Mathlib.Algebra.Group.Int.Defs

/-! Words put together from fields by shifts and ORs, the fields taken out by shifts and masks, and the sign of a
field extended, as concatenations and slices. -/
namespace BitFields

section narrow
variable {n m : Nat} {x : BitVec n} (small : x.toNat < 2 ^ m)
include small

theorem highClear {k : Nat} (above : m ≤ k) : x.getLsbD k = false := by
  rw [← BitVec.testBit_toNat]
  exact Nat.testBit_lt_two_pow (Nat.lt_of_lt_of_le small (Nat.pow_le_pow_right (by decide) above))

theorem narrow : (x.extractLsb' 0 m).setWidth n = x := by
  apply BitVec.eq_of_getLsbD_eq
  intro k inside
  rw [BitVec.getLsbD_setWidth,BitVec.getLsbD_extractLsb',Nat.zero_add]
  by_cases low : k < m
  · simp [inside,low]
  · simp [low,highClear small (Nat.le_of_not_lt low)]

theorem highZero {k : Nat} : x.extractLsb' m k = 0#k := by
  apply BitVec.eq_of_toNat_eq
  rw [BitVec.extractLsb'_toNat,Nat.shiftRight_eq_div_pow,Nat.div_eq_of_lt small]
  rfl

end narrow

theorem lowZero {n m : Nat} {x : BitVec n} (multiple : x.toNat % 2 ^ m = 0) : x.extractLsb' 0 m = 0#m := by
  apply BitVec.eq_of_toNat_eq
  rw [BitVec.extractLsb'_toNat,Nat.shiftRight_zero,multiple]
  exact (Nat.zero_mod _).symm

theorem clearAbove {k m : Nat} (x : BitVec m) : x = 0 ↔ 0#k ++ x = 0 := by
  rw [← BitVec.toNat_inj,← BitVec.toNat_inj,BitVec.toNat_append]
  simp

theorem maskField {n : Nat} (x : BitVec n) (k m : Nat) :
    x >>> k &&& BitVec.ofNat n (2 ^ m - 1) = (x.extractLsb' k m).setWidth n := by
  apply BitVec.eq_of_getLsbD_eq
  intro j inside
  rw [BitVec.getLsbD_and,BitVec.getLsbD_ushiftRight,BitVec.getLsbD_setWidth,BitVec.getLsbD_extractLsb',BitVec.getLsbD_ofNat,
    Nat.testBit_two_pow_sub_one]
  simp only [inside,decide_true,Bool.true_and]
  exact Bool.and_comm _ _

theorem maskLow {n : Nat} (x : BitVec n) (m : Nat) :
    x &&& BitVec.ofNat n (2 ^ m - 1) = (x.extractLsb' 0 m).setWidth n := by
  have here := maskField x 0 m
  rwa [BitVec.ushiftRight_zero] at here

theorem topField {n : Nat} (x : BitVec n) (k m : Nat) (top : n = k + m) : x >>> k = (x.extractLsb' k m).setWidth n := by
  apply BitVec.eq_of_getLsbD_eq
  intro j inside
  rw [BitVec.getLsbD_ushiftRight,BitVec.getLsbD_setWidth,BitVec.getLsbD_extractLsb']
  by_cases low : j < m
  · simp [inside,low]
  · simp [low,BitVec.getLsbD_of_ge x (k + j) (by omega)]

theorem maskSlice {n : Nat} (x : BitVec n) {m k l : Nat} (inside : k + l ≤ m) (fits : m ≤ n) :
    (x &&& BitVec.ofNat n (2 ^ m - 1)).extractLsb' k l = x.extractLsb' k l := by
  apply BitVec.eq_of_getLsbD_eq
  intro j low
  have here : k + j < m := by omega
  have there : k + j < n := by omega
  rw [BitVec.getLsbD_extractLsb',BitVec.getLsbD_extractLsb',BitVec.getLsbD_and,BitVec.getLsbD_ofNat,
    Nat.testBit_two_pow_sub_one]
  simp [here,there]

theorem sliceSlice {n : Nat} (x : BitVec n) (s : Nat) {m k l : Nat} (inside : k + l ≤ m) :
    (x.extractLsb' s m).extractLsb' k l = x.extractLsb' (s + k) l := by
  apply BitVec.eq_of_getLsbD_eq
  intro j low
  have here : k + j < m := by omega
  rw [BitVec.getLsbD_extractLsb',BitVec.getLsbD_extractLsb',BitVec.getLsbD_extractLsb',Nat.add_assoc]
  simp [here]

theorem maskHigh {n : Nat} (x : BitVec n) (k m : Nat) :
    x &&& BitVec.ofNat n ((2 ^ m - 1) * 2 ^ k) = (x.extractLsb' k m).setWidth n <<< k := by
  apply BitVec.eq_of_getLsbD_eq
  intro j inside
  rw [BitVec.getLsbD_and,BitVec.getLsbD_ofNat,Nat.testBit_mul_two_pow,Nat.testBit_two_pow_sub_one,BitVec.getLsbD_shiftLeft,
    BitVec.getLsbD_setWidth,BitVec.getLsbD_extractLsb']
  by_cases low : j < k
  · have under : ¬ k ≤ j := by omega
    simp [inside,low,under]
  · have above : k ≤ j := by omega
    have place : k + (j - k) = j := by omega
    have here : j - k < n := by omega
    simp [inside,low,above,place,here,Bool.and_comm]

theorem maskBelow {n : Nat} (x y : BitVec n) {m k : Nat} (above : m ≤ k) :
    (x <<< k ||| y) &&& BitVec.ofNat n (2 ^ m - 1) = y &&& BitVec.ofNat n (2 ^ m - 1) := by
  apply BitVec.eq_of_getLsbD_eq
  intro j inside
  rw [BitVec.getLsbD_and,BitVec.getLsbD_and,BitVec.getLsbD_or,BitVec.getLsbD_shiftLeft,BitVec.getLsbD_ofNat,
    Nat.testBit_two_pow_sub_one]
  by_cases low : j < m
  · have under : j < k := by omega
    simp [under]
  · simp [low]

theorem slideSlice {n s k : Nat} (x : BitVec n) (fits : s + k ≤ n) : (x <<< s).extractLsb' s k = x.extractLsb' 0 k := by
  apply BitVec.eq_of_getLsbD_eq
  intro j low
  rw [BitVec.getLsbD_extractLsb',BitVec.getLsbD_extractLsb',BitVec.getLsbD_shiftLeft]
  simp [low,show s + j < n by omega]

theorem signSlice {m : Nat} (n : Nat) (x : BitVec m) (k l : Nat) (inside : k + l ≤ m) (fits : m ≤ n) :
    (x.signExtend n).extractLsb' k l = x.extractLsb' k l := by
  apply BitVec.eq_of_getLsbD_eq
  intro j low
  rw [BitVec.getLsbD_extractLsb',BitVec.getLsbD_extractLsb',BitVec.getLsbD_signExtend]
  have here : k + j < m := by omega
  have there : k + j < n := by omega
  simp [here,there]

theorem signLow {m n k : Nat} (x : BitVec m) (fits : k ≤ n) : (x.signExtend n).extractLsb' 0 k = x.signExtend k := by
  apply BitVec.eq_of_getLsbD_eq
  intro j low
  have there : j < n := by omega
  rw [BitVec.getLsbD_extractLsb',Nat.zero_add,BitVec.getLsbD_signExtend,BitVec.getLsbD_signExtend]
  simp [low,there]

theorem signAbove {m n s k : Nat} (x : BitVec (m + 1)) (above : m ≤ s) (fits : s + k ≤ n) :
    (x.signExtend n).extractLsb' s (1 * k) = (x.extractLsb' m 1).replicate k := by
  apply BitVec.eq_of_getLsbD_eq
  intro j low
  rw [BitVec.getLsbD_extractLsb',BitVec.getLsbD_signExtend,BitVec.getLsbD_replicate,BitVec.getLsbD_extractLsb',
    BitVec.msb_eq_getLsbD_last,Nat.mod_one]
  have there : s + j < n := by omega
  have here : j < k := by omega
  by_cases top : s + j < m + 1
  · simp [here,show s + j = m by omega,show m < n by omega]
  · simp [here,there,top]

theorem signTest {m n : Nat} (x : BitVec (m + 1)) (fits : m + 1 ≤ n) :
    (if x.setWidth n &&& BitVec.twoPow n m ≠ 0 then x.setWidth n ||| BitVec.allOnes n <<< (m + 1) else x.setWidth n) =
      x.signExtend n := by
  have inside : m < n := fits
  have top : (x.setWidth n).getLsbD m = x.msb := by
    rw [BitVec.getLsbD_setWidth,BitVec.msb_eq_getLsbD_last]
    simp [inside]
  rw [BitVec.and_twoPow,top]
  cases sign : x.msb with
  | false =>
    rw [BitVec.signExtend_eq_setWidth_of_msb_false sign]
    simp
  | true =>
    have nonzero : BitVec.twoPow n m ≠ 0 := by
      intro zero
      have bit := congrArg (fun y : BitVec n => y.getLsbD m) zero
      simp [inside] at bit
    simp only [if_true,ne_eq,nonzero,not_false_eq_true]
    apply BitVec.eq_of_getLsbD_eq
    intro j low
    rw [BitVec.getLsbD_or,BitVec.getLsbD_setWidth,BitVec.getLsbD_shiftLeft,BitVec.getLsbD_allOnes,BitVec.getLsbD_signExtend,sign]
    by_cases under : j < m + 1
    · simp [low,under]
    · have here : j - (m + 1) < n := by omega
      simp [low,under,here]

theorem signNarrow {n m : Nat} (x : BitVec n) (fits : m + 1 ≤ n) (low : -(2 : Int) ^ m ≤ x.toInt) (high : x.toInt < 2 ^ m) :
    (x.extractLsb' 0 (m + 1)).signExtend n = x := by
  apply BitVec.eq_of_toInt_eq
  have whole : x.extractLsb' 0 (m + 1) = x.signExtend (m + 1) := by
    rw [BitVec.signExtend_eq_setWidth_of_le x fits,BitVec.setWidth_eq_extractLsb' fits]
  have power : ((2 ^ (m + 1) : Nat) : Int) = 2 ^ m * 2 := by rw [Int.natCast_pow,Int.pow_succ]; rfl
  rw [BitVec.toInt_signExtend_of_le fits,whole,BitVec.toInt_signExtend_eq_toInt_bmod_of_le x fits]
  exact Int.bmod_eq_of_le_mul_two (by omega) (by omega)

theorem signRepeated {n m : Nat} (k : Nat) (x : BitVec n) {s : BitVec 1} (sign : x.msb = s.getLsbD 0) {y : BitVec m}
    (fits : m ≤ 1 * k + n) (whole : y.toNat = (s.replicate k ++ x).toNat) : x.signExtend m = y := by
  apply BitVec.eq_of_getLsbD_eq
  intro i inside
  have bits : y.getLsbD i = (s.replicate k ++ x).getLsbD i := by rw [← BitVec.testBit_toNat,whole,BitVec.testBit_toNat]
  rw [bits,BitVec.getLsbD_signExtend,BitVec.getLsbD_append,BitVec.getLsbD_replicate,sign]
  by_cases low : i < n
  · simp [low,inside]
  · simp [low,inside,Nat.mod_one,show i - n < k by omega]

theorem signTop {m : Nat} (k : Nat) (x : BitVec (m + 1)) :
    (x.extractLsb' m 1).replicate k ++ x = x.signExtend (1 * k + (m + 1)) := by
  refine (signRepeated k x ?_ (Nat.le_refl _) rfl).symm
  rw [BitVec.msb_eq_getLsbD_last,BitVec.getLsbD_extractLsb']
  rfl

end BitFields
