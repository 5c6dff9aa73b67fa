import Mathlib.Algebra.Group.Nat.Defs

/-! Multiplication by shift and add in one double-width number: the accumulator grows from the
top while the multiplier is used up at the bottom. -/
namespace ShiftAdd

/- After `k` of `w` iterations the low `k` bits of `b` have been multiplied by `m`. -/
def Accumulated (w m b k p : Nat) : Prop := p = m * (b % 2 ^ k) * 2 ^ (w - k) + b / 2 ^ k

/- One iteration: the lowest bit decides whether `m` is added on top, then all shifts right. -/
def advance (w m p : Nat) : Nat := (p + p % 2 * (m * 2 ^ w)) / 2

theorem accumulatedStart (w m b : Nat) : Accumulated w m b 0 b := by simp [Accumulated,Nat.mod_one]

variable {w m b k p : Nat}

theorem accumulatedBit (h : Accumulated w m b k p) (within : k < w) : p % 2 = b / 2 ^ k % 2 := by
  have even : 2 ^ (w - k) = 2 * 2 ^ (w - (k + 1)) := by
    rw [← Nat.pow_succ']
    congr 1
    omega
  rw [h,even,Nat.mul_left_comm]
  omega

theorem accumulatedNext (h : Accumulated w m b k p) (within : k < w) :
    Accumulated w m b (k + 1) (advance w m p) := by
  have bit := accumulatedBit h within
  have even : 2 ^ (w - k) = 2 * 2 ^ (w - (k + 1)) := by
    rw [← Nat.pow_succ']
    congr 1
    omega
  have whole : 2 ^ w = 2 * (2 ^ k * 2 ^ (w - (k + 1))) := by
    rw [← Nat.pow_add,← Nat.pow_succ']
    congr 1
    omega
  have added : p % 2 * (m * 2 ^ w) = 2 * (m * (2 ^ k * (b / 2 ^ k % 2)) * 2 ^ (w - (k + 1))) := by
    rw [bit,whole]
    simp only [Nat.mul_assoc,Nat.mul_left_comm]
  have first : p = 2 * (m * (b % 2 ^ k) * 2 ^ (w - (k + 1))) + b / 2 ^ k := by
    rw [h,even,Nat.mul_left_comm]
  have used : b / 2 ^ (k + 1) = b / 2 ^ k / 2 := by rw [Nat.pow_succ,Nat.div_div_eq_div_mul]
  rw [Accumulated,advance,added,Nat.mod_pow_succ,Nat.mul_add,Nat.add_mul,used]
  generalize m * (2 ^ k * (b / 2 ^ k % 2)) * 2 ^ (w - (k + 1)) = x at *
  generalize m * (b % 2 ^ k) * 2 ^ (w - (k + 1)) = y at *
  omega

theorem accumulatedDone (h : Accumulated w m b w p) (bound : b < 2 ^ w) : p = m * b := by
  rw [h,Nat.mod_eq_of_lt bound,Nat.div_eq_of_lt bound,Nat.sub_self]
  simp

end ShiftAdd
