import RiscvSoc.Rtl.Fpu.Quotient

/-! A division cycle by cycle, and its flags. Overflow is the only one that a quotient raises; the
setup alone has none for the operands that reach the divider. -/
namespace RiscvSoc.Fpu
open BitNumbers
open DivUnit (Waits)

/- The exponent of the quotient is past the format. It is one up where the significand of the dividend
is not the smaller. -/
def divOverflows (a b : BitVec 32) : Bool :=
  (exponent b).toNat + 129 ≤ (exponent a).toNat + if (significand b).toNat ≤ (significand a).toNat then 1 else 0

theorem carryWhen (a b : BitVec 32) :
    quotientCarry a b = if (significand b).toNat ≤ (significand a).toNat then 1 else 0 := by
  have positive : 0 < (significand b).toNat := by
    have low := (significandBounds b).1
    omega
  have reaches : 2 ^ 24 ≤ (mantQuotient a b).toNat ↔ (significand b).toNat ≤ (significand a).toNat := by
    rw [mantQuotientValue,Nat.le_div_iff_mul_le positive]
    omega
  simp only [quotientCarry,reaches]

theorem numberExponent {x : BitVec 32} (nan : isNan x = false) (inf : isInf x = false) : (exponent x).toNat < 255 := by
  have bound := (exponent x).isLt
  have other : exponent x ≠ 0xFF := by
    intro full
    rw [isNan,full] at nan
    rw [isInf,full] at inf
    by_cases zero : fraction x = 0
    · rw [zero] at inf
      exact absurd inf (by decide)
    · rw [bne_iff_ne.mpr zero] at nan
      exact absurd nan (by decide)
  have value : (exponent x).toNat ≠ 255 := fun same => other (BitVec.eq_of_toNat_eq same)
  omega

theorem setupFinite {a b : BitVec 32} (needs : (divSetup a b).needsDiv = true) :
    (exponent a).toNat < 255 ∧ (exponent b).toNat < 255 := by
  rw [divSetup] at needs
  rcases Bool.eq_false_or_eq_true (isNan a || isNan b) with nan | numbers
  · rw [if_pos nan] at needs
    contradiction
  rw [if_neg (by simp [numbers])] at needs
  rw [Bool.or_eq_false_iff] at numbers
  rcases Bool.eq_false_or_eq_true (isZero b) with zero | nonzero
  · rw [if_pos zero] at needs
    split at needs <;> contradiction
  rw [if_neg (by simp [nonzero])] at needs
  rcases Bool.eq_false_or_eq_true (isInf a) with inf | finiteA
  · rw [if_pos inf] at needs
    split at needs <;> contradiction
  rw [if_neg (by simp [finiteA])] at needs
  rcases Bool.eq_false_or_eq_true (isInf b) with inf | finiteB
  · rw [if_pos inf] at needs
    contradiction
  exact ⟨numberExponent numbers.1 finiteA,numberExponent numbers.2 finiteB⟩

theorem assembledFlags {a b : BitVec 32} (needs : (divSetup a b).needsDiv = true) :
    (divAssemble a b (mantQuotient a b)).flags = if divOverflows a b then 0b00100 else 0 := by
  obtain ⟨finiteA,finiteB⟩ := setupFinite needs
  obtain ⟨exp,_⟩ := normalizedQuotient a b
  have weight : quotientWeight a b = (exponent a).toNat + 638 + quotientCarry a b - (exponent b).toNat := rfl
  have carry := carryWhen a b
  have least : quotientCarry a b ≤ 1 := by
    rw [carry]
    split <;> omega
  have overflows : divOverflows a b = decide (767 ≤ quotientWeight a b) := by
    rw [divOverflows,← carry,decide_eq_decide]
    omega
  rw [overflows,divAssemble,assembleRange]
  generalize (normalizeQuotient (divExpWide a b) (mantQuotient a b)).expWide = e at exp ⊢
  have under : (e.getLsbD 8 && e.getLsbD 7) = decide (quotientWeight a b < 512) := by
    rw [bitValue,bitValue,← Bool.decide_and,decide_eq_decide,exp]
    omega
  simp only [under,exp,decide_eq_true_eq]
  by_cases less : quotientWeight a b < 512
  · rw [if_pos less,if_neg (by omega)]
  · rw [if_neg less]
    by_cases large : 767 ≤ quotientWeight a b
    · rw [if_pos (by omega),if_pos large]
    · rw [if_neg (by omega),if_neg large]
      split <;> rfl

theorem fflagsFree {s : Regs} {i : Inputs} (free : s.divInProgress = false) : fflags s i = fflags reset i.hold := by
  have absent : reset.divInProgress = false := rfl
  simp only [fflags,Inputs.hold,free,absent]
  rfl

structure Dividing (i : Inputs) (s : Regs) : Prop where
  busy : s.divInProgress = true
  operands : s.divFs1Reg = i.fs1 ∧ s.divFs2Reg = i.fs2
  answers : ∀ out final, Waits (request i) s.div out final →
    out = mantQuotient i.fs1 i.fs2 ∧ final.state = .idle ∧ DivUnit.flagged final = false

variable {s : Regs} {i : Inputs}

theorem dividingFirst (quiet : Quiet s) (start : divStart i = true) : Dividing i.hold (step s i) := by
  obtain ⟨div,first,second,busy⟩ := startStep quiet start
  refine ⟨busy,⟨first,second⟩,fun out final waits => ?_⟩
  have answered := DivUnit.initAnswered waits (by rw [div])
  refine ⟨dividerAnswers quiet start waits,answered.idle,?_⟩
  rw [DivUnit.loadedFlagged answered.loaded]
  exact ordinaryRequest (i := i.hold) (startParts start).2

theorem dividingNext (d : Dividing i.hold s) (waits : fpuReady s i.hold = false) : Dividing i.hold (step s i.hold) := by
  have early : DivUnit.ready s.div = false := by rw [← busyReady i.hold d.busy,waits]
  obtain ⟨div,first,second,progress⟩ := busyStep (s := s) i
  refine ⟨by rw [progress,early,if_neg Bool.false_ne_true,d.busy],⟨first.trans d.operands.1,second.trans d.operands.2⟩,
    fun out final later => d.answers out final ?_⟩
  rw [div] at later
  exact .wait false early later

theorem dividingEnds (d : Dividing i.hold s) (ready : fpuReady s i.hold = true) (op : i.fpuOp = .div) :
    Quiet (step s i.hold) ∧ fflags s i.hold = (divAssemble i.fs1 i.fs2 (mantQuotient i.fs1 i.fs2)).flags := by
  have last : DivUnit.ready s.div = true := by rw [← busyReady i.hold d.busy,ready]
  obtain ⟨div,_,_,free⟩ := busyStep (s := s) i
  obtain ⟨answer,idle,clear⟩ := d.answers _ _ (.ready false last)
  have shown : divInputs i.hold = (request i).inputs false := dividerHeld i
  refine ⟨⟨by rw [div]; exact idle,by rw [div]; exact clear,by rw [free,if_pos last]⟩,?_⟩
  rw [fflags,show i.hold.fpuOp = .div from op]
  simp only [d.busy,divReady,last,Bool.and_self,if_true]
  rw [divAssembled,d.operands.1,d.operands.2,shown,show DivUnit.result s.div ((request i).inputs false) = _ from answer]
  rfl

end RiscvSoc.Fpu
