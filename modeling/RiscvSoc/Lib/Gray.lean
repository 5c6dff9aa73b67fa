import Mathlib.Algebra.Group.Nat.Defs

/-! Gray codes of a counter that wraps: decoding, one bit from each code to the next, and what
a reader sees of a code that is changing. -/
namespace Gray
variable {w : Nat}

def encode (bin : BitVec w) : BitVec w := bin ^^^ (bin >>> 1)

def decodeFrom : {w : Nat} → Bool → BitVec w → BitVec w
  | 0, _, _ => 0
  | w+1, above, gray =>
    let bit := above ^^ gray.getLsbD w
    BitVec.cons bit (decodeFrom bit (gray.setWidth w))

def decode (gray : BitVec w) : BitVec w := decodeFrom false gray

def codeBit (w n i : Nat) : Bool := n.testBit i ^^ (decide (i + 1 < w) && n.testBit (i + 1))

theorem encodeBit (bin : BitVec w) (i : Nat) :
    (encode bin).getLsbD i = (bin.getLsbD i ^^ bin.getLsbD (i + 1)) := by
  rw [encode,BitVec.getLsbD_xor,BitVec.getLsbD_ushiftRight,Nat.add_comm]

theorem encodeCounter (n : Nat) {i : Nat} (within : i < w) : (encode (BitVec.ofNat w n)).getLsbD i = codeBit w n i := by
  rw [encodeBit,BitVec.getLsbD_ofNat,BitVec.getLsbD_ofNat,codeBit]
  simp [within]

theorem decodeFromEncode (above : Bool) (gray bin : BitVec w)
    (code : ∀ i, i < w → gray.getLsbD i = (bin.getLsbD i ^^ if i + 1 < w then bin.getLsbD (i + 1) else above)) :
    decodeFrom above gray = bin := by
  induction w generalizing above with
  | zero => exact (BitVec.eq_nil _).trans (BitVec.eq_nil _).symm
  | succ w ih =>
    have top : (above ^^ gray.getLsbD w) = bin.getLsbD w := by
      rw [code w (Nat.lt_succ_self w),if_neg (Nat.lt_irrefl _)]
      cases above <;> cases bin.getLsbD w <;> rfl
    have rest : decodeFrom (bin.getLsbD w) (gray.setWidth w) = bin.setWidth w := by
      refine ih _ _ _ fun i within => ?_
      have bit := code i (by omega)
      rw [if_pos (by omega)] at bit
      simp only [BitVec.getLsbD_setWidth,within,decide_true,Bool.true_and,bit]
      by_cases below : i + 1 < w
      · simp [below]
      · simp [show i + 1 = w by omega]
    rw [decodeFrom]
    simp only [top,rest]
    exact BitVec.eq_of_getLsbD_eq fun i within => by
      rw [BitVec.getLsbD_cons,BitVec.getLsbD_setWidth]
      by_cases last : i = w
      · simp [last]
      · simp [last,show i < w by omega]

@[simp] theorem decodeEncode (bin : BitVec w) : decode (encode bin) = bin := by
  refine decodeFromEncode false _ _ fun i within => ?_
  rw [encodeBit]
  split
  · rfl
  · rw [BitVec.getLsbD_of_ge bin (i + 1) (by omega)]

theorem encodeInj {a b : BitVec w} : encode a = encode b ↔ a = b :=
  ⟨fun same => by rw [← decodeEncode a,same,decodeEncode],congrArg encode⟩

theorem codeNext (w n : Nat) : ∃ t, ∀ i, i < w → i ≠ t → codeBit w n i = codeBit w (n + 1) i := by
  induction w generalizing n with
  | zero => exact ⟨0,fun i within => absurd within (Nat.not_lt_zero i)⟩
  | succ w ih =>
    have shifted (m j : Nat) : codeBit (w + 1) m (j + 1) = codeBit w (m / 2) j := by
      simp only [codeBit,Nat.testBit_succ,Nat.add_lt_add_iff_right]
    rcases Nat.mod_two_eq_zero_or_one n with even | odd
    · refine ⟨0,fun i _ other => ?_⟩
      obtain ⟨j,rfl⟩ : ∃ j, i = j + 1 := ⟨i - 1,by omega⟩
      rw [shifted,shifted,show (n + 1) / 2 = n / 2 by omega]
    · have half : (n + 1) / 2 = n / 2 + 1 := by omega
      rcases Nat.eq_zero_or_pos w with rfl | wide
      · exact ⟨0,fun i within other => absurd (Nat.lt_one_iff.mp within) other⟩
      obtain ⟨t,same⟩ := ih (n / 2)
      refine ⟨t + 1,fun i within other => ?_⟩
      cases i with
      | zero =>
        -- the carry turns bit 0 and bit 1 together
        have carry : (n / 2 + 1).testBit 0 = !(n / 2).testBit 0 := by
          rw [Nat.testBit_zero,Nat.testBit_zero]
          rcases Nat.mod_two_eq_zero_or_one (n / 2) with low | low <;> simp [low,Nat.add_mod]
        simp only [codeBit,Nat.testBit_succ,half,carry,Nat.testBit_zero]
        have next : (n + 1) % 2 = 0 := by omega
        simp [odd,next,wide]
      | succ j => rw [shifted,shifted,half,same j (by omega) (by omega)]

def mix (mask old new : BitVec w) : BitVec w := (old &&& ~~~mask) ||| (new &&& mask)

theorem mixBit (mask old new : BitVec w) {i : Nat} (within : i < w) :
    (mix mask old new).getLsbD i = if mask.getLsbD i then new.getLsbD i else old.getLsbD i := by
  simp only [mix,BitVec.getLsbD_or,BitVec.getLsbD_and,BitVec.getLsbD_not]
  cases mask.getLsbD i <;> simp [within]

@[simp] theorem mixSame (mask a : BitVec w) : mix mask a a = a :=
  BitVec.eq_of_getLsbD_eq fun i within => by rw [mixBit mask a a within]; split <;> rfl

theorem mixNext (mask : BitVec w) (n : Nat) :
    mix mask (encode (BitVec.ofNat w n)) (encode (BitVec.ofNat w (n + 1))) = encode (BitVec.ofNat w n) ∨
    mix mask (encode (BitVec.ofNat w n)) (encode (BitVec.ofNat w (n + 1))) = encode (BitVec.ofNat w (n + 1)) := by
  obtain ⟨t,same⟩ := codeNext w n
  have alike : ∀ i, i < w → i ≠ t →
      (encode (BitVec.ofNat w n)).getLsbD i = (encode (BitVec.ofNat w (n + 1))).getLsbD i := fun i within other => by
    rw [encodeCounter n within,encodeCounter (n + 1) within,same i within other]
  cases seen : mask.getLsbD t with
  | false =>
    left
    refine BitVec.eq_of_getLsbD_eq fun i within => ?_
    rw [mixBit _ _ _ within]
    by_cases here : i = t
    · simp [here,seen]
    · rw [alike i within here]
      exact ite_self _
  | true =>
    right
    refine BitVec.eq_of_getLsbD_eq fun i within => ?_
    rw [mixBit _ _ _ within]
    by_cases here : i = t
    · simp [here,seen]
    · rw [alike i within here]
      exact ite_self _

def oppose (gray : BitVec (w + 1)) : BitVec (w + 1) := gray ^^^ (3#(w + 1) <<< (w - 1))

theorem encodeHalfTurn (wide : 0 < w) (n : Nat) :
    encode (BitVec.ofNat (w + 1) (n + 2 ^ w)) = oppose (encode (BitVec.ofNat (w + 1) n)) := by
  refine BitVec.eq_of_getLsbD_eq fun i within => ?_
  have top : (n + 2 ^ w).testBit w = !n.testBit w := by rw [Nat.add_comm,Nat.testBit_two_pow_add_eq]
  have low {j : Nat} (below : j < w) : (n + 2 ^ w).testBit j = n.testBit j := by
    rw [Nat.add_comm,Nat.testBit_two_pow_add_gt below]
  rw [oppose,BitVec.getLsbD_xor,encodeCounter _ within,encodeCounter _ within]
  have bits : (3#(w + 1) <<< (w - 1)).getLsbD i = decide (w ≤ i + 1) := by
    have three {j : Nat} (two : j < 2) : (3#(w + 1)).getLsbD j = true := by
      rw [BitVec.getLsbD_ofNat]
      rcases (show j = 0 ∨ j = 1 by omega) with rfl | rfl <;> simp [wide]
      decide
    rw [BitVec.getLsbD_shiftLeft]
    by_cases high : w ≤ i + 1
    · simp [within,high,three (show i - (w - 1) < 2 by omega)]
    · simp [high]
  rw [bits]
  by_cases last : i = w
  · simp [codeBit,last,top]
  · by_cases second : i + 1 = w
    · simp only [codeBit,second,low (show i < w by omega),top]
      simp
    · simp only [codeBit,low (show i < w by omega),low (show i + 1 < w by omega)]
      simp [show ¬w ≤ i + 1 by omega]

end Gray
