import RiscvSoc.Lib.NonRestoring
import RiscvSoc.Rtl.DivHistory

/-! What the divider answers to an unsigned request: the iteration is the non-restoring one
as long as the doubled remainder less the aligned divisor keeps its sign in 2*WIDTH bits,
and a large divisor loses that sign in the very first iteration. -/
namespace RiscvSoc.DivUnit
open NonRestoring

variable {w : Nat}

theorem iterAdvances (s : Regs w) (i : Inputs w) (iter : s.state = .iter) :
    (step s i).P = advance s.P s.D ∧ (step s i).D = s.D ∧
    (step s i).Q = s.Q.shiftConcat (quotientBit s.P s.D) := by
  rw [step,iter]
  exact ⟨rfl,rfl,rfl⟩

theorem oneCounts (wide : 2 ≤ w) : (1 : BitVec (clog2 w)).toNat = 1 := by
  have bound := counterHoldsLast wide
  exact Nat.mod_eq_of_lt (a := 1) (by omega)

theorem iterRun {I : Nat → Regs w → Prop} (wide : 2 ≤ w) (r : Request w)
    (kept : ∀ k s, k < w → s.state = .iter → I k s → I (k + 1) (step s (r.inputs false)))
    (left : Nat) {k : Nat} {s : Regs w} (iter : s.state = .iter) (count : s.iterCount.toNat = k)
    (total : k + left + 1 = w) (h : I k s) :
    ∃ t, t.state = .correct ∧ I w t ∧ ∀ out final, Waits r t out final → Waits r s out final := by
  have busy : ready s = false := by simp [ready,iter]
  have next := kept k s (by omega) iter h
  induction left generalizing k s with
  | zero =>
    have last : s.iterCount.toNat = w - 1 := by omega
    have correct : (step s (r.inputs false)).state = .correct := by
      simp [step,iter,stepIter,nextState,last]
    refine ⟨_,correct,?_,fun out final waits => .wait false busy waits⟩
    have full : k + 1 = w := total
    exact full ▸ next
  | succ left ih =>
    have early : ¬ s.iterCount.toNat = w - 1 := by omega
    have again : (step s (r.inputs false)).state = .iter := by
      simp [step,iter,stepIter,nextState,early]
    have counted : (step s (r.inputs false)).iterCount.toNat = k + 1 := by
      have bound := counterHoldsLast wide
      have added : (step s (r.inputs false)).iterCount = s.iterCount + 1 := by
        simp [step,iter,stepIter]
      rw [added]
      exact (BitVec.toNat_add_of_lt (by rw [count,oneCounts wide]; omega)).trans (by rw [count,oneCounts wide])
    obtain ⟨t,correct,holds,waits⟩ := ih again counted (by omega) next (by simp [ready,again])
      (kept _ _ (by omega) again next)
    exact ⟨t,correct,holds,fun out final later => .wait false busy (waits out final later)⟩

structure Begun (r : Request w) (s : Regs w) : Prop where
  iter : s.state = .iter
  count : s.iterCount = 0
  dividend : s.P = 0#w ++ r.dividend
  divisor : s.D = r.divisor ++ 0#w
  quotient : s.Q = 0#w

def magnitude (isSigned : Bool) (x : BitVec w) : BitVec w := if isSigned then absolute x else x

def Request.magnitudes (r : Request w) : Request w :=
  {r with dividend := magnitude r.isSigned r.dividend, divisor := magnitude r.isSigned r.divisor}

structure Signs (r : Request w) (s : Regs w) : Prop where
  dividend : s.dividendNeg = (r.isSigned && r.dividend.msb)
  divisor : s.divisorNeg = (r.isSigned && r.divisor.msb)

theorem firstBegun (r : Request w) (nonzero : r.divisor ≠ 0#w) :
    Begun r.magnitudes (step {(reset : Regs w) with state := .init} (r.inputs false)) ∧
    Signs r (step {(reset : Regs w) with state := .init} (r.inputs false)) := by
  constructor <;> constructor <;>
    simp [step,stepInit,nextState,absDividend,absDivisor,reset,Request.inputs,nonzero,Request.magnitudes,magnitude]

theorem signsKept {r : Request w} {s : Regs w} (i : Inputs w) (iter : s.state = .iter) (h : Signs r s) :
    Signs r (step s i) := by
  rw [step,iter]
  exact ⟨h.dividend,h.divisor⟩

def negated (negative : Bool) (x : BitVec w) : BitVec w := if negative then ~~~x + 1#w else x

def corrected (r : Request w) (t : Regs w) : BitVec w :=
  if r.remSel then negated (r.isSigned && r.dividend.msb) (upper (restored t.P t.D))
  else negated (r.isSigned && (r.dividend.msb ^^ r.divisor.msb)) t.Q

theorem doneResult {r : Request w} {t : Regs w} (done : t.state = .done) (signs : Signs r t)
    (clear : flagged t = false) : result t (r.inputs false) =
      if r.remSel then negated (r.isSigned && r.dividend.msb) (upper t.P)
      else negated (r.isSigned && (r.dividend.msb ^^ r.divisor.msb)) t.Q := by
  simp only [flagged,Bool.or_eq_false_iff] at clear
  simp only [result,done,clear,finalRemainder,finalQuotient,Request.inputs,signs.dividend,signs.divisor,negated]
  cases r.isSigned <;> simp

theorem correctAnswer {r : Request w} {s : Regs w} (correct : s.state = .correct) (signs : Signs r s)
    (loaded : Loaded r s) (ordinary : special r = false) : ∃ final, Waits r s (corrected r s) final := by
  have done : (step s (r.inputs false)).state = .done := by
    simp [step,correct,stepCorrect,nextState]
  have clear := loadedFlagged (loadedKept false loaded (by simp [correct]))
  have later : Signs r (step s (r.inputs false)) := by
    rw [step,correct]
    exact ⟨signs.dividend,signs.divisor⟩
  have shown := doneResult done later (clear.trans ordinary)
  have remainder : (step s (r.inputs false)).P = restored s.P s.D := by
    rw [step,correct]
    rfl
  have quotient : (step s (r.inputs false)).Q = s.Q := by simp [step,correct,stepCorrect]
  have last : Waits r (step s (r.inputs false)) _ _ := .ready false (by simp [ready,done])
  rw [shown,remainder,quotient] at last
  exact ⟨_,.wait false (by simp [ready,correct]) last⟩

theorem firstCorrected {I : Nat → Regs w → Prop} (wide : 2 ≤ w) (r : Request w) (ordinary : special r = false)
    (kept : ∀ k s, k < w → s.state = .iter → I k s → I (k + 1) (step s (r.inputs false)))
    (start : ∀ s, Begun r.magnitudes s → I 0 s) :
    ∃ t, I w t ∧ ∀ o, Serves reset [r] [o] ↔ o = corrected r t := by
  have init : ({(reset : Regs w) with state := .init}).state = .init := rfl
  have nonzero : r.divisor ≠ 0#w := by
    intro zero
    simp [special,zero] at ordinary
  obtain ⟨begun,signs⟩ := firstBegun r nonzero
  have both : ∀ k s, k < w → s.state = .iter → I k s ∧ Loaded r s ∧ Signs r s →
      I (k + 1) (step s (r.inputs false)) ∧ Loaded r (step s (r.inputs false)) ∧ Signs r (step s (r.inputs false)) :=
    fun k s within iter h =>
      ⟨kept k s within iter h.1,loadedKept false h.2.1 (by simp [iter]),signsKept _ iter h.2.2⟩
  obtain ⟨t,correct,⟨holds,loaded,later⟩,waits⟩ := iterRun (I := fun k s => I k s ∧ Loaded r s ∧ Signs r s) wide r
    both (w - 1) begun.iter (by rw [begun.count]; rfl) (by omega) ⟨start _ begun,initLoads r false init,signs⟩
  obtain ⟨final,answered⟩ := correctAnswer correct later loaded ordinary
  refine ⟨t,holds,fun o => ?_⟩
  refine aloneAfterReset (.wait false rfl (waits _ _ answered)) init ?_ o wide
  simp [flagged,reset]

theorem firstAnswer {I : Nat → Regs w → Prop} (wide : 2 ≤ w) (r : Request w)
    (unsigned : r.isSigned = false) (nonzero : r.divisor ≠ 0#w)
    (kept : ∀ k s, k < w → s.state = .iter → I k s → I (k + 1) (step s (r.inputs false)))
    (start : ∀ s, Begun r s → I 0 s) :
    ∃ t, I w t ∧ ∀ o, Serves reset [r] [o] ↔ o = if r.remSel then upper (restored t.P t.D) else t.Q := by
  have ordinary : special r = false := by simp [special,unsigned,nonzero]
  have same : r.magnitudes = r := by
    cases r
    cases unsigned
    rfl
  obtain ⟨t,holds,answers⟩ := firstCorrected wide r ordinary kept (by rwa [same])
  refine ⟨t,holds,fun o => ?_⟩
  rw [answers,corrected,unsigned]
  rfl

/- The operands for which no iteration overruns the sign bit of P. -/
def KeepsSign (a d : BitVec w) : Prop :=
  d.toNat ≤ 2 ^ (w - 1) ∨ d.toNat = 2 ^ (w - 1) + 1 ∧ 2 ^ (w - 1) ≤ a.toNat

structure Dividing (a d : BitVec w) (k : Nat) (s : Regs w) : Prop where
  divisor : s.D.toNat = d.toNat * 2 ^ w
  divided : Divided (2 ^ k * a.toNat) s.Q.toNat (restored s.P s.D).toNat s.D.toNat

theorem powHalves (wide : 2 ≤ w) : 2 ^ w = 2 * 2 ^ (w - 1) ∧ 2 ^ (w + w - 1) = 2 ^ (w - 1) * 2 ^ w := by
  constructor
  · rw [← Nat.pow_succ']
    congr 1
    omega
  · rw [← Nat.pow_add]
    congr 1
    omega

theorem powWithin {k : Nat} (within : k < w) : 2 ^ k ≤ 2 ^ (w - 1) :=
  Nat.pow_le_pow_right (by decide) (by omega)

theorem dividingSigned {a d : BitVec w} {k : Nat} {s : Regs w} (wide : 2 ≤ w) (keeps : KeepsSign a d)
    (within : k < w) (h : Dividing a d k s) : Signed (w + w) (restored s.P s.D).toNat s.D.toNat := by
  have below := h.divided.below
  have equation := h.divided.equation
  rw [h.divisor] at below equation ⊢
  obtain ⟨half,square⟩ := powHalves wide
  rcases keeps with small | ⟨large,high⟩
  · have aligned := Nat.mul_le_mul_right (2 ^ w) small
    rw [← square] at aligned
    exact ⟨by omega,by omega⟩
  · have started : 2 ^ k * a.toNat < 2 ^ (w - 1) * 2 ^ w :=
      Nat.lt_of_le_of_lt (Nat.mul_le_mul_right _ (powWithin within)) (Nat.mul_lt_mul_of_pos_left a.isLt (by omega))
    have aligned : d.toNat * 2 ^ w = 2 ^ (w - 1) * 2 ^ w + 2 ^ w := by rw [large,Nat.add_mul,Nat.one_mul]
    have nothing : s.Q.toNat = 0 := by
      rcases Nat.eq_zero_or_pos s.Q.toNat with zero | nonzero
      · exact zero
      · have once := Nat.mul_le_mul_right (d.toNat * 2 ^ w) nonzero
        omega
    have grown : a.toNat ≤ 2 ^ k * a.toNat := Nat.le_mul_of_pos_left _ (Nat.two_pow_pos k)
    rw [nothing,Nat.zero_mul,Nat.zero_add] at equation
    exact ⟨by omega,by omega⟩

theorem quotientWithin {a d : BitVec w} {k : Nat} {s : Regs w} (h : Dividing a d k s) : s.Q.toNat < 2 ^ k := by
  have below := h.divided.below
  have equation := h.divided.equation
  rw [h.divisor] at below equation
  have positive : 0 < d.toNat := by
    rcases Nat.eq_zero_or_pos d.toNat with zero | nonzero
    · simp [zero] at below
    · exact nonzero
  have aligned : 2 ^ w ≤ d.toNat * 2 ^ w := Nat.le_mul_of_pos_left _ positive
  have scaled : s.Q.toNat * 2 ^ w ≤ s.Q.toNat * (d.toNat * 2 ^ w) := Nat.mul_le_mul_left _ aligned
  have total : 2 ^ k * a.toNat < 2 ^ k * 2 ^ w := Nat.mul_lt_mul_of_pos_left a.isLt (Nat.two_pow_pos k)
  exact Nat.lt_of_mul_lt_mul_right (a := 2 ^ w) (by omega)

theorem dividingNext {a d : BitVec w} {k : Nat} {s : Regs w} (wide : 2 ≤ w) (keeps : KeepsSign a d) (i : Inputs w)
    (within : k < w) (iter : s.state = .iter) (h : Dividing a d k s) : Dividing a d (k + 1) (step s i) := by
  have signed := dividingSigned wide keeps within h
  obtain ⟨nextP,nextD,nextQ⟩ := iterAdvances s i iter
  have shifted : (step s i).Q.toNat = 2 * s.Q.toNat + fitsOnce (restored s.P s.D).toNat s.D.toNat := by
    rw [nextQ,BitVec.toNat_shiftConcat_eq_of_lt within (quotientWithin h),signTells h.divided.below signed,fitsOnce]
    split <;> simp_all [Nat.mul_comm]
  refine ⟨by rw [nextD,h.divisor],?_⟩
  rw [nextP,nextD,shifted,restoredAdvance h.divided.below signed,Nat.pow_succ',Nat.mul_assoc]
  exact dividedNext h.divided

theorem begunDividing {r : Request w} {s : Regs w} (nonzero : r.divisor ≠ 0#w) (h : Begun r s) :
    Dividing r.dividend r.divisor 0 s := by
  have aligned : s.D.toNat = r.divisor.toNat * 2 ^ w := by
    rw [h.divisor,BitVec.toNat_append]
    simp [Nat.shiftLeft_eq]
  have loaded : s.P.toNat = r.dividend.toNat := by
    rw [h.dividend,BitVec.toNat_append]
    simp
  have positive : 0 < r.divisor.toNat := by
    rcases Nat.eq_zero_or_pos r.divisor.toNat with zero | present
    · exact absurd (BitVec.eq_of_toNat_eq zero) nonzero
    · exact present
  have bound := r.dividend.isLt
  have same : restored s.P s.D = s.P := by
    have plus : s.P.msb = false := by
      have half : 2 ^ w ≤ 2 ^ (w + w - 1) := Nat.pow_le_pow_right (by decide) (by omega)
      rw [BitVec.msb_eq_decide,loaded,decide_eq_false_iff_not]
      omega
    simp [restored,plus]
  refine ⟨aligned,?_,?_⟩
  · rw [same,loaded,h.quotient]
    simp
  · have unit : 2 ^ w ≤ r.divisor.toNat * 2 ^ w := Nat.le_mul_of_pos_left _ positive
    rw [same,loaded,aligned]
    omega

theorem dividingDone {a d : BitVec w} {s : Regs w} (h : Dividing a d w s) :
    a.toNat = s.Q.toNat * d.toNat + (upper (restored s.P s.D)).toNat ∧
    (upper (restored s.P s.D)).toNat < d.toNat := by
  have below := h.divided.below
  have equation := h.divided.equation
  rw [h.divisor] at below equation
  have positive := Nat.two_pow_pos w
  have scaled : (restored s.P s.D).toNat = 2 ^ w * (a.toNat - s.Q.toNat * d.toNat) := by
    rw [Nat.mul_sub,equation,← Nat.mul_assoc,Nat.mul_comm (2 ^ w) (s.Q.toNat * d.toNat)]
    omega
  have top : (upper (restored s.P s.D)).toNat = a.toNat - s.Q.toNat * d.toNat := by
    have bound := a.isLt
    rw [upper,BitVec.extractLsb'_toNat,scaled,Nat.shiftRight_eq_div_pow,Nat.mul_div_cancel_left _ positive]
    exact Nat.mod_eq_of_lt (by omega)
  have within : s.Q.toNat * d.toNat ≤ a.toNat := by
    apply Nat.le_of_mul_le_mul_left _ positive
    rw [equation,Nat.mul_comm (2 ^ w) (s.Q.toNat * d.toNat),Nat.mul_assoc]
    omega
  rw [top]
  refine ⟨by omega,?_⟩
  apply Nat.lt_of_mul_lt_mul_left (a := 2 ^ w)
  rw [← scaled,Nat.mul_comm (2 ^ w)]
  exact below

/- The first iteration took an overrun difference for a quotient bit, and it stays the top bit. -/
structure Overrun (k : Nat) (s : Regs w) : Prop where
  low : 2 ^ k ≤ 2 * s.Q.toNat
  high : s.Q.toNat < 2 ^ k

theorem overrunNext {k : Nat} {s : Regs w} (i : Inputs w) (within : k < w) (iter : s.state = .iter)
    (h : Overrun k s) : Overrun (k + 1) (step s i) := by
  have low := h.low
  have high := h.high
  have bit := Bool.toNat_lt (quotientBit s.P s.D)
  constructor <;> rw [(iterAdvances s i iter).2.2,BitVec.toNat_shiftConcat_eq_of_lt within high,Nat.pow_succ] <;> omega

theorem largeOverruns {a d : BitVec w} (wide : 2 ≤ w) (large : ¬ KeepsSign a d) :
    2 * a.toNat + 2 ^ (w + w - 1) < d.toNat * 2 ^ w ∧ d.toNat * 2 ^ w ≤ 2 * a.toNat + 2 ^ (w + w) := by
  obtain ⟨half,square⟩ := powHalves wide
  have bound := a.isLt
  have above := d.isLt
  simp only [KeepsSign,not_or,not_and,Nat.not_le] at large
  rw [square,Nat.pow_add]
  refine ⟨?_,Nat.le_add_left_of_le (Nat.mul_le_mul_right _ (Nat.le_of_lt above))⟩
  by_cases least : d.toNat = 2 ^ (w - 1) + 1
  · have less := large.2 least
    rw [least,Nat.add_mul,Nat.one_mul]
    omega
  · have twice : (2 ^ (w - 1) + 2) * 2 ^ w ≤ d.toNat * 2 ^ w := Nat.mul_le_mul_right _ (by omega)
    rw [Nat.add_mul] at twice
    omega

theorem begunOverrun {r : Request w} {s : Regs w} (wide : 2 ≤ w) (large : ¬ KeepsSign r.dividend r.divisor)
    (i : Inputs w) (h : Begun r s) : Overrun 1 (step s i) := by
  obtain ⟨short,within⟩ := largeOverruns wide large
  have nonzero : r.divisor ≠ 0#w := by
    intro zero
    simp [KeepsSign,zero] at large
  have begun := begunDividing nonzero h
  have equation := begun.divided.equation
  rw [h.quotient] at equation
  have value : (restored s.P s.D).toNat = r.dividend.toNat := by simpa using equation.symm
  have wraps : quotientBit s.P s.D = true := by
    have bound := r.divisor.isLt
    have aligned := begun.divisor
    have half : 2 ^ (w + w) = 2 * 2 ^ (w + w - 1) := by
      rw [← Nat.pow_succ']
      congr 1
      omega
    rw [quotientBit,advanceDoubles,BitVec.msb_eq_decide,BitVec.toNat_sub,BitVec.toNat_add,value,aligned,
      Nat.add_mod_mod,Nat.mod_eq_of_lt (by omega)]
    simp
    omega
  have quotient : (step s i).Q.toNat = 1 := by
    rw [(iterAdvances s i h.iter).2.2,h.quotient,wraps,
      BitVec.toNat_shiftConcat_eq_of_lt (k := 0) (by omega) (by simp)]
    simp
  exact ⟨by omega,by omega⟩

theorem dividingAnswer {a d : BitVec w} {s : Regs w} (h : Dividing a d w s) :
    s.Q = a / d ∧ upper (restored s.P s.D) = a % d := by
  obtain ⟨equation,below⟩ := dividingDone h
  rw [Nat.add_comm,Nat.mul_comm] at equation
  have unique := (Nat.div_mod_unique (Nat.lt_of_le_of_lt (Nat.zero_le _) below)).mpr ⟨equation.symm,below⟩
  exact ⟨BitVec.eq_of_toNat_eq (by rw [BitVec.toNat_udiv,unique.1]),
    BitVec.eq_of_toNat_eq (by rw [BitVec.toNat_umod,unique.2])⟩

theorem keptAnswer (wide : 2 ≤ w) (r : Request w) (unsigned : r.isSigned = false) (nonzero : r.divisor ≠ 0#w)
    (keeps : KeepsSign r.dividend r.divisor) (o : BitVec w) : Serves reset [r] [o] ↔
      o = if r.remSel then r.dividend % r.divisor else r.dividend / r.divisor := by
  obtain ⟨t,holds,answers⟩ := firstAnswer (I := fun k s => Dividing r.dividend r.divisor k s) wide r unsigned nonzero
    (fun k s within iter h => dividingNext wide keeps _ within iter h) (fun s h => begunDividing nonzero h)
  obtain ⟨quotient,remainder⟩ := dividingAnswer holds
  rw [answers,quotient,remainder]

theorem overrunAnswer (wide : 2 ≤ w) (r : Request w) (unsigned : r.isSigned = false)
    (large : ¬ KeepsSign r.dividend r.divisor) : ∃ q m : BitVec w, 2 ^ w ≤ 2 * q.toNat ∧
    ∀ o, Serves reset [r] [o] ↔ o = if r.remSel then m else q := by
  have nonzero : r.divisor ≠ 0#w := by
    intro zero
    simp [KeepsSign,zero] at large
  obtain ⟨t,holds,answers⟩ := firstAnswer (I := fun k s => k = 0 ∧ Begun r s ∨ Overrun k s) wide r unsigned nonzero
    (fun k s within iter h => .inr (h.elim
      (fun first => by rw [first.1]; exact begunOverrun wide large _ first.2)
      (fun later => overrunNext _ within iter later)))
    (fun s h => .inl ⟨rfl,h⟩)
  rcases holds with first | later
  · omega
  · exact ⟨t.Q,_,later.low,answers⟩

/- What the RISC-V manual asks of DIVU and REMU. -/
def Divides (a d q m : BitVec w) : Prop :=
  if d = 0#w then q = BitVec.allOnes w ∧ m = a
  else a.toNat = q.toNat * d.toNat + m.toNat ∧ m.toNat < d.toNat
instance (a d q m : BitVec w) : Decidable (Divides a d q m) := by
  unfold Divides; infer_instance

theorem specialServed (wide : 2 ≤ w) (r : Request w) (edge : special r = true) (o : BitVec w) :
    Serves reset [r] [o] ↔ o = specialAnswer r := by
  have init : ({(reset : Regs w) with state := .init}).state = .init := rfl
  obtain ⟨out,final,waits⟩ := initServed wide r init
  have answer := (initAnswered waits init).answer edge
  rw [aloneAfterReset waits init (by simp [flagged,reset]) o wide,answer]

theorem zeroAnswer (wide : 2 ≤ w) (r : Request w) (zero : r.divisor = 0#w) (o : BitVec w) :
    Serves reset [r] [o] ↔ o = if r.remSel then r.dividend else BitVec.allOnes w := by
  rw [specialServed wide r (by simp [special,zero]),specialAnswer,if_pos zero]

theorem quotientDivides {a d : BitVec w} (nonzero : d ≠ 0#w) : Divides a d (a / d) (a % d) := by
  have positive : 0 < d.toNat := by
    rcases Nat.eq_zero_or_pos d.toNat with zero | present
    · exact absurd (BitVec.eq_of_toNat_eq zero) nonzero
    · exact present
  rw [Divides,if_neg nonzero,BitVec.toNat_udiv,BitVec.toNat_umod]
  exact ⟨by rw [Nat.mul_comm,Nat.div_add_mod],Nat.mod_lt _ positive⟩

theorem overrunWrong {a d q m : BitVec w} (wide : 2 ≤ w) (large : ¬ KeepsSign a d) (top : 2 ^ w ≤ 2 * q.toNat) :
    ¬ Divides a d q m := by
  obtain ⟨half,square⟩ := powHalves wide
  have bound := a.isLt
  have two := powWithin (w := w) (k := 1) (by omega)
  have beyond : 2 ^ (w - 1) < d.toNat := Nat.lt_of_not_le fun small => large (.inl small)
  have nonzero : d ≠ 0#w := by
    rintro rfl
    simp at beyond
  intro h
  rw [Divides,if_neg nonzero] at h
  have twice : 2 * d.toNat ≤ q.toNat * d.toNat := Nat.mul_le_mul_right _ (by omega)
  omega

/- DIVU and REMU as the first request after reset: right exactly for the divisors up to
half the range, and for the next one when the dividend is not below half the range. -/
theorem unsignedDivision (wide : 2 ≤ w) (a d : BitVec w) : ∃ q m : BitVec w,
    (∀ o, Serves reset [⟨false,false,a,d⟩] [o] ↔ o = q) ∧
    (∀ o, Serves reset [⟨false,true,a,d⟩] [o] ↔ o = m) ∧
    (Divides a d q m ↔ d.toNat ≤ 2 ^ (w - 1) ∨ d.toNat = 2 ^ (w - 1) + 1 ∧ 2 ^ (w - 1) ≤ a.toNat) := by
  by_cases zero : d = 0#w
  · refine ⟨_,_,zeroAnswer wide ⟨false,false,a,d⟩ zero,zeroAnswer wide ⟨false,true,a,d⟩ zero,?_⟩
    simp [Divides,zero]
  · by_cases keeps : KeepsSign a d
    · refine ⟨_,_,keptAnswer wide ⟨false,false,a,d⟩ rfl zero keeps,keptAnswer wide ⟨false,true,a,d⟩ rfl zero keeps,?_⟩
      exact iff_of_true (quotientDivides zero) keeps
    · obtain ⟨q,_,top,quotient⟩ := overrunAnswer wide ⟨false,false,a,d⟩ rfl keeps
      obtain ⟨_,m,_,remainder⟩ := overrunAnswer wide ⟨false,true,a,d⟩ rfl keeps
      exact ⟨q,m,quotient,remainder,iff_of_false (overrunWrong wide keeps top) keeps⟩

theorem sevenByTwo : ∃ q m : BitVec 32, Serves reset [⟨false,false,7,2⟩] [q] ∧ Serves reset [⟨false,true,7,2⟩] [m] ∧
    Divides 7 2 q m := by
  obtain ⟨q,m,quotient,remainder,right⟩ := unsignedDivision (w := 32) (by decide) 7 2
  exact ⟨q,m,(quotient q).mpr rfl,(remainder m).mpr rfl,right.mpr (by decide)⟩

/- 1 / 0xFFFFFFFF is answered 0xFFFFFFFF, remainder 0. -/
theorem oneByLargest : Serves (w := 32) reset [⟨false,false,1,0xFFFFFFFF⟩] [0xFFFFFFFF] ∧
    Serves (w := 32) reset [⟨false,true,1,0xFFFFFFFF⟩] [0] ∧ ¬ Divides (w := 32) 1 0xFFFFFFFF 0xFFFFFFFF 0 :=
  ⟨serveServes 40 (by decide +kernel),serveServes 40 (by decide +kernel),by decide +kernel⟩

end RiscvSoc.DivUnit
