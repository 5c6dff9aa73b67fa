import RiscvSoc.Lib.BitNumbers

/-! The loop that looks for the highest set bit from the top down and keeps the first code it
finds that is not zero. -/
namespace PriorityEncoder

/- Positions `low + count - 1` down to `low`. -/
def encode {n : Nat} (bit : Nat → Bool) (code : Nat → BitVec n) (low : Nat) : Nat → BitVec n → BitVec n
  | 0, found => found
  | count+1, found =>
      encode bit code low count (if bit (low + count) && found == 0 then code (low + count) else found)

variable {n : Nat} {bit : Nat → Bool} {code : Nat → BitVec n} {low count : Nat}

theorem encodeKeeps {found : BitVec n} (nonzero : found ≠ 0) : encode bit code low count found = found := by
  induction count with
  | zero => rfl
  | succ count ih =>
    have later : (found == 0) = false := beq_eq_false_iff_ne.mpr nonzero
    rw [encode,later,Bool.and_false,if_neg Bool.false_ne_true]
    exact ih

theorem encodeHighest {p : Nat} (above : low ≤ p) (below : p < low + count) (set : bit p = true)
    (highest : ∀ q, p < q → q < low + count → bit q = false)
    (lower : code p = 0 → p = low) : encode bit code low count 0 = code p := by
  induction count with
  | zero => omega
  | succ count ih =>
    by_cases here : p = low + count
    · subst here
      have first : (if bit (low + count) && (0 : BitVec n) == 0 then code (low + count) else 0) = code (low + count) := by
        simp [set]
      rw [encode,first]
      by_cases zero : code (low + count) = 0
      · have last := lower zero
        have done : count = 0 := by omega
        subst done
        rfl
      · exact encodeKeeps zero
    · have clear := highest (low + count) (by omega) (by omega)
      have unset : (if bit (low + count) && (0 : BitVec n) == 0 then code (low + count) else 0) = 0 := by
        simp [clear]
      rw [encode,unset]
      exact ih (by omega) fun q more less => highest q more (by omega)

theorem highestBit {m p : Nat} (x : BitVec m) (low : 2 ^ p ≤ x.toNat) (high : x.toNat < 2 ^ (p + 1)) :
    x.getLsbD p = true ∧ ∀ q, p < q → x.getLsbD q = false := by
  constructor
  · have one : x.toNat / 2 ^ p = 1 := by
      have least : 1 ≤ x.toNat / 2 ^ p := (Nat.le_div_iff_mul_le (Nat.two_pow_pos p)).mpr (by rwa [Nat.one_mul])
      have most : x.toNat / 2 ^ p < 2 := Nat.div_lt_of_lt_mul (by rwa [← Nat.pow_succ])
      omega
    rw [BitNumbers.bitValue,one]
    rfl
  · intro q more
    have beyond : x.toNat < 2 ^ q := Nat.lt_of_lt_of_le high (Nat.pow_le_pow_right (by decide) more)
    rw [BitNumbers.bitValue,Nat.div_eq_of_lt beyond]
    rfl

end PriorityEncoder
