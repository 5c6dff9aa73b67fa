import RiscvSoc.Rtl.DivQuotient

/-! What the divider answers to a signed request. The iterations see the magnitudes of the
operands, and a magnitude is at most half the range, so none of them overruns the sign bit. -/
namespace RiscvSoc.DivUnit
open NonRestoring

variable {w : Nat}

theorem absoluteNegates (x : BitVec w) : absolute x = if x.msb then -x else x := by
  rw [absolute,BitVec.neg_eq_not_add]

theorem absoluteHalf (wide : 2 ≤ w) (x : BitVec w) : (absolute x).toNat ≤ 2 ^ (w - 1) := by
  obtain ⟨half,_⟩ := powHalves wide
  have bound := x.isLt
  have sign := BitVec.msb_eq_decide x
  rw [absoluteNegates]
  split
  · rename_i negative
    rw [negative] at sign
    have high : 2 ^ (w - 1) ≤ x.toNat := of_decide_eq_true sign.symm
    rw [BitVec.toNat_neg,Nat.mod_eq_of_lt (by have := Nat.two_pow_pos (w - 1); omega)]
    omega
  · rename_i positive
    rw [Bool.eq_false_iff.mpr positive] at sign
    have low : ¬ 2 ^ (w - 1) ≤ x.toNat := of_decide_eq_false sign.symm
    omega

theorem absoluteNonzero {x : BitVec w} (nonzero : x ≠ 0#w) : absolute x ≠ 0#w := by
  rw [absoluteNegates]
  split
  · rwa [ne_eq,BitVec.neg_eq_zero_iff]
  · exact nonzero

theorem intMinTwoPow : intMin w = BitVec.intMin w := by
  rw [intMin,BitVec.intMin,BitVec.twoPow]

theorem correctedSigned (r : Request w) (t : Regs w) (signed : r.isSigned = true)
    (quotient : t.Q = absolute r.dividend / absolute r.divisor)
    (remainder : upper (restored t.P t.D) = absolute r.dividend % absolute r.divisor) :
    corrected r t = if r.remSel then r.dividend.srem r.divisor else r.dividend.sdiv r.divisor := by
  rw [corrected,quotient,remainder,BitVec.srem_eq,BitVec.sdiv_eq,signed]
  simp only [negated,absoluteNegates,← BitVec.neg_eq_not_add]
  cases r.dividend.msb <;> cases r.divisor.msb <;> rfl

theorem signedAnswer (wide : 2 ≤ w) (r : Request w) (signed : r.isSigned = true) (ordinary : special r = false)
    (o : BitVec w) : Serves reset [r] [o] ↔
      o = if r.remSel then r.dividend.srem r.divisor else r.dividend.sdiv r.divisor := by
  have nonzero : r.divisor ≠ 0#w := by
    intro zero
    simp [special,zero] at ordinary
  have small := absoluteHalf wide r.divisor
  have magnitudes : r.magnitudes = ⟨true,r.remSel,absolute r.dividend,absolute r.divisor⟩ := by
    simp [Request.magnitudes,magnitude,signed]
  obtain ⟨t,holds,answers⟩ := firstCorrected
    (I := fun k s => Dividing (absolute r.dividend) (absolute r.divisor) k s) wide r ordinary
    (fun k s within iter h => dividingNext wide (.inl small) _ within iter h)
    (fun s h => by
      rw [magnitudes] at h
      exact begunDividing (absoluteNonzero nonzero) h)
  obtain ⟨quotient,remainder⟩ := dividingAnswer holds
  rw [answers,correctedSigned r t signed quotient remainder]

/- What the RISC-V manual asks of DIV and REM. -/
def SignedDivides (a d q m : BitVec w) : Prop :=
  if d = 0#w then q.toInt = -1 ∧ m = a
  else if a = intMin w ∧ d.toInt = -1 then q = intMin w ∧ m = 0#w
  else q.toInt = a.toInt.tdiv d.toInt ∧ m.toInt = a.toInt.tmod d.toInt
instance (a d q m : BitVec w) : Decidable (SignedDivides a d q m) := by
  unfold SignedDivides; infer_instance

theorem minusOne (wide : 2 ≤ w) (d : BitVec w) : d.toInt = -1 ↔ d = BitVec.allOnes w := by
  rw [← BitVec.toInt_inj,BitVec.toInt_allOnes,if_pos (by omega)]

/- DIV and REM as the first request after reset. -/
theorem signedDivision (wide : 2 ≤ w) (a d : BitVec w) : ∃ q m : BitVec w,
    (∀ o, Serves reset [⟨true,false,a,d⟩] [o] ↔ o = q) ∧
    (∀ o, Serves reset [⟨true,true,a,d⟩] [o] ↔ o = m) ∧
    SignedDivides a d q m := by
  by_cases edge : special (⟨true,false,a,d⟩ : Request w) = true
  · refine ⟨_,_,specialServed wide ⟨true,false,a,d⟩ edge,specialServed wide ⟨true,true,a,d⟩ edge,?_⟩
    by_cases zero : d = 0#w
    · simp [SignedDivides,specialAnswer,zero,(minusOne wide _).mpr]
    · have overflow : a = intMin w ∧ d = BitVec.allOnes w := by simpa [special,zero] using edge
      rw [SignedDivides,if_neg zero,if_pos ⟨overflow.1,(minusOne wide d).mpr overflow.2⟩]
      simp [specialAnswer,zero]
  · have ordinary : special (⟨true,false,a,d⟩ : Request w) = false := Bool.eq_false_iff.mpr edge
    have parts : d ≠ 0#w ∧ ¬ (a = intMin w ∧ d = BitVec.allOnes w) := by simpa [special] using ordinary
    refine ⟨_,_,signedAnswer wide ⟨true,false,a,d⟩ rfl ordinary,signedAnswer wide ⟨true,true,a,d⟩ rfl ordinary,?_⟩
    rw [SignedDivides,if_neg parts.1,if_neg (by rw [minusOne wide]; exact parts.2)]
    have exact : a ≠ BitVec.intMin w ∨ d ≠ -1#w := by
      rw [← intMinTwoPow,BitVec.neg_one_eq_allOnes]
      exact Decidable.not_and_iff_not_or_not.mp parts.2
    exact ⟨BitVec.toInt_sdiv_of_ne_or_ne a d exact,BitVec.toInt_srem a d⟩

theorem minusSevenByTwo : ∃ q m : BitVec 32, Serves reset [⟨true,false,-7,2⟩] [q] ∧
    Serves reset [⟨true,true,-7,2⟩] [m] ∧ SignedDivides (-7) 2 q m := by
  obtain ⟨q,m,quotient,remainder,right⟩ := signedDivision (w := 32) (by decide) (-7) 2
  exact ⟨q,m,(quotient q).mpr rfl,(remainder m).mpr rfl,right⟩

end RiscvSoc.DivUnit
