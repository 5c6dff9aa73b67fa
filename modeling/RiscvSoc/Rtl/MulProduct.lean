import RiscvSoc.Lib.BitNumbers
import RiscvSoc.Lib.ShiftAdd
import RiscvSoc.Rtl.DivSigned
import RiscvSoc.Rtl.MulUnit

/-! What the multiplier answers: the loop multiplies magnitudes, whose product fits 2*WIDTH bits,
and the sign is put on at the end. -/
namespace RiscvSoc.MulUnit
open DivUnit (clog2 absolute upper magnitude counterHoldsLast oneCounts absoluteNegates)
open BitNumbers ShiftAdd

variable {w : Nat}

def OpType.firstSigned : OpType → Bool
  | .mul | .mulh | .mulhsu => true
  | .mulhu => false

def OpType.secondSigned : OpType → Bool
  | .mul | .mulh => true
  | .mulhsu | .mulhu => false

/- An operand as the number the operation takes it for. -/
def number (signed : Bool) (x : BitVec w) : Int := if signed then x.toInt else x.toNat

def exactProduct (r : Request w) : Int :=
  number r.opType.firstSigned r.multiplicand * number r.opType.secondSigned r.multiplier

/- The low or the high WIDTH bits of the exact product. -/
def Request.answer (r : Request w) : BitVec w :=
  if r.opType = .mul then lower (BitVec.ofInt (w + w) (exactProduct r))
  else upper (BitVec.ofInt (w + w) (exactProduct r))

theorem numberMagnitude (signed : Bool) (x : BitVec w) : number signed x =
    if signed && x.msb then -((magnitude signed x).toNat : Int) else (magnitude signed x).toNat := by
  have bound := x.isLt
  cases signed with
  | false => simp [number,magnitude]
  | true =>
    rw [number,BitVec.toInt_eq_msb_cond,magnitude,absoluteNegates]
    cases sign : x.msb with
    | false => simp
    | true =>
      have nonzero : x.toNat ≠ 0 := by
        intro zero
        rw [BitVec.msb_eq_decide,zero] at sign
        simp at sign
      simp only [Bool.and_self,if_true,BitVec.toNat_neg]
      rw [Nat.mod_eq_of_lt (by omega)]
      omega

structure Loaded (r : Request w) (s : Regs w) : Prop where
  mcand : s.mcand = magnitude r.opType.firstSigned r.multiplicand
  negative : s.resultNegative =
    ((r.opType.firstSigned && r.multiplicand.msb) ^^ (r.opType.secondSigned && r.multiplier.msb))
  opType : s.opTypeReg = r.opType

structure Multiplying (r : Request w) (k : Nat) (s : Regs w) : Prop where
  state : s.state = .iter
  count : s.iterCount.toNat = k
  loaded : Loaded r s
  product : Accumulated w s.mcand.toNat (magnitude r.opType.secondSigned r.multiplier).toNat k s.product.toNat

theorem initMultiplies {r : Request w} {s : Regs w} {i : Inputs w} (init : s.state = .init)
    (opType : i.opType = r.opType) (multiplicand : i.multiplicand = r.multiplicand)
    (multiplier : i.multiplier = r.multiplier) : Multiplying r 0 (step s i) := by
  obtain ⟨op,a,b⟩ := r
  subst opType multiplicand multiplier
  have next : step s i = stepInit s i := by rw [step,init]
  have product : (step s i).product = 0#w ++ magnitude i.opType.secondSigned i.multiplier := by
    rw [next]
    cases op : i.opType <;> simp [stepInit,absMultiplier,init,op,magnitude,OpType.secondSigned]
  constructor
  · simp [next,stepInit,nextState,init]
  · simp [next,stepInit]
  · rw [next]
    constructor <;> cases op : i.opType <;>
      simp [stepInit,absMultiplicand,init,op,magnitude,OpType.firstSigned,OpType.secondSigned]
  · rw [product,zeroExtended]
    exact accumulatedStart ..

theorem addResultValue (s : Regs w) :
    (addResult s).toNat = s.product.toNat / 2 ^ w + s.mcand.toNat := by
  have top : (upper s.product).toNat = s.product.toNat / 2 ^ w := by
    rw [upper,sliceValue,Nat.mod_eq_of_lt]
    exact Nat.div_lt_of_lt_mul (by rw [← Nat.pow_add]; exact s.product.isLt)
  have small : (upper s.product).toNat < 2 ^ w := (upper s.product).isLt
  have cand := s.mcand.isLt
  rw [addResult,BitVec.toNat_add,zeroExtended,zeroExtended,Nat.mod_eq_of_lt,top]
  rw [Nat.pow_add,Nat.pow_one]
  omega

theorem iterProduct {s : Regs w} (i : Inputs w) (wide : 2 ≤ w) (iter : s.state = .iter) :
    (step s i).product.toNat = advance w s.mcand.toNat s.product.toNat := by
  have next : step s i = stepIter s i := by rw [step,iter]
  rw [next,stepIter,advance]
  simp only [bitValue,Nat.pow_zero,Nat.div_one,decide_eq_true_eq]
  have half : 2 ^ w = 2 * 2 ^ (w - 1) := by
    rw [← Nat.pow_succ']
    congr 1
    omega
  have low : s.product.toNat / 2 ^ 1 % 2 ^ (w - 1) = s.product.toNat % 2 ^ w / 2 := by
    rw [half,Nat.pow_one,Nat.mod_mul_right_div_self]
  have parts : s.product.toNat = s.product.toNat / 2 ^ w * 2 ^ w + s.product.toNat % 2 ^ w := by
    rw [Nat.mul_comm]
    exact (Nat.div_add_mod ..).symm
  split
  · rename_i bit
    rw [BitVec.toNat_setWidth,appendValue,addResultValue,sliceValue,low,bit,Nat.one_mul]
    have sum : (s.product.toNat / 2 ^ w + s.mcand.toNat) * 2 ^ (w - 1) + s.product.toNat % 2 ^ w / 2 =
        (s.product.toNat + s.mcand.toNat * 2 ^ w) / 2 := by
      have carried : s.product.toNat + s.mcand.toNat * 2 ^ w =
          2 * ((s.product.toNat / 2 ^ w + s.mcand.toNat) * 2 ^ (w - 1)) + s.product.toNat % 2 ^ w := by
        rw [Nat.mul_left_comm,← half,Nat.add_mul]
        omega
      omega
    rw [sum,Nat.mod_eq_of_lt]
    have cand : s.mcand.toNat * 2 ^ w < 2 ^ w * 2 ^ w := Nat.mul_lt_mul_of_pos_right s.mcand.isLt (Nat.two_pow_pos w)
    have bound := s.product.isLt
    rw [Nat.pow_add] at bound ⊢
    omega
  · have bit : s.product.toNat % 2 = 0 := by omega
    rw [BitVec.toNat_ushiftRight,Nat.shiftRight_eq_div_pow,bit,Nat.zero_mul,Nat.add_zero,Nat.pow_one]

theorem loadedKept {r : Request w} {s : Regs w} (i : Inputs w) (iter : s.state = .iter) (h : Loaded r s) :
    Loaded r (step s i) := by
  rw [step,iter]
  exact ⟨h.mcand,h.negative,h.opType⟩

theorem iterMultiplies {r : Request w} {k : Nat} {s : Regs w} (i : Inputs w) (wide : 2 ≤ w) (early : k + 1 < w)
    (h : Multiplying r k s) : Multiplying r (k + 1) (step s i) := by
  have next : step s i = stepIter s i := by rw [step,h.state]
  have bound := counterHoldsLast wide
  have again : ¬ s.iterCount.toNat = w - 1 := by
    rw [h.count]
    omega
  constructor
  · simp [next,stepIter,nextState,h.state,again]
  · have added : (step s i).iterCount = s.iterCount + 1 := by rw [next,stepIter]
    rw [added]
    exact (BitVec.toNat_add_of_lt (by rw [h.count,oneCounts wide]; omega)).trans (by rw [h.count,oneCounts wide])
  · exact loadedKept i h.state h.loaded
  · have same : (step s i).mcand = s.mcand := by rw [next,stepIter]
    rw [iterProduct i wide h.state,same]
    exact accumulatedNext h.product (by omega)

structure Multiplied (r : Request w) (s : Regs w) : Prop where
  state : s.state = .done
  loaded : Loaded r s
  product : s.product.toNat = s.mcand.toNat * (magnitude r.opType.secondSigned r.multiplier).toNat

theorem lastMultiplies {r : Request w} {s : Regs w} (i : Inputs w) (wide : 2 ≤ w)
    (h : Multiplying r (w - 1) s) : Multiplied r (step s i) := by
  have next : step s i = stepIter s i := by rw [step,h.state]
  have same : (step s i).mcand = s.mcand := by rw [next,stepIter]
  have full := accumulatedNext h.product (show w - 1 < w by omega)
  rw [Nat.sub_add_cancel (by omega)] at full
  refine ⟨?_,loadedKept i h.state h.loaded,?_⟩
  · simp [next,stepIter,nextState,h.state,h.count]
  · rw [iterProduct i wide h.state,same]
    exact accumulatedDone full (BitVec.isLt _)

theorem finalExact {r : Request w} {s : Regs w} (h : Multiplied r s) :
    finalProduct s = BitVec.ofInt (w + w) (exactProduct r) := by
  have product : s.product = BitVec.ofInt (w + w) ((magnitude r.opType.firstSigned r.multiplicand).toNat *
      (magnitude r.opType.secondSigned r.multiplier).toNat) := by
    apply BitVec.eq_of_toNat_eq
    rw [h.product,h.loaded.mcand,← Int.natCast_mul,BitVec.ofInt_natCast,BitVec.toNat_ofNat,Nat.mod_eq_of_lt]
    rw [Nat.pow_add]
    exact Nat.mul_lt_mul'' (BitVec.isLt _) (BitVec.isLt _)
  have negation : finalProduct s = if s.resultNegative then -s.product else s.product := by
    rw [finalProduct]
    have plus : ~~~s.product + 1 = -s.product := (BitVec.neg_eq_not_add _).symm
    rw [plus]
    by_cases zero : s.product = 0#(w + w)
    · simp [zero]
    · simp [zero]
  rw [negation,h.loaded.negative,exactProduct,numberMagnitude,numberMagnitude,product]
  cases r.opType.firstSigned && r.multiplicand.msb <;> cases r.opType.secondSigned && r.multiplier.msb <;>
    simp only [Bool.xor_false,Bool.xor_true,Bool.not_false,Bool.not_true,Bool.false_eq_true,if_false,if_true,BitVec.ofInt_neg,
      Int.mul_neg,Int.neg_mul,Int.neg_neg]

theorem resultExact {r : Request w} {s : Regs w} (h : Multiplied r s) : result s = r.answer := by
  rw [result,if_pos h.state,finalExact h,h.loaded.opType,Request.answer]

theorem asksMultiplies {i : Nat → Inputs w} {n : Nat} {r : Request w} (wide : 2 ≤ w) (h : Asks i n r)
    (k : Nat) (early : k < w) : Multiplying r k (states i (n + 2 + k)) := by
  induction k with
  | zero =>
    have init : (states i (n + 1)).state = .init := by simp [states,step,nextState,h.idle,h.start]
    exact initMultiplies init h.opType h.multiplicand h.multiplier
  | succ k ih => exact iterMultiplies _ wide early (ih (by omega))

theorem asksMultiplied {i : Nat → Inputs w} {n : Nat} {r : Request w} (wide : 2 ≤ w) (h : Asks i n r) :
    Multiplied r (states i (n + (w + 2))) := by
  have last := lastMultiplies (i (n + 2 + (w - 1))) wide (asksMultiplies wide h (w - 1) (by omega))
  have cycle : n + (w + 2) = n + 2 + (w - 1) + 1 := by omega
  rw [cycle]
  exact last

theorem startAsks {i : Nat → Inputs w} {n : Nat} (idle : (states i n).state = .idle) (start : (i n).start = true) :
    Asks i n ⟨(i (n + 1)).opType,(i (n + 1)).multiplicand,(i (n + 1)).multiplier⟩ :=
  ⟨idle,start,rfl,rfl,rfl⟩

theorem busyUntilDone {i : Nat → Inputs w} {n : Nat} {r : Request w} (wide : 2 ≤ w) (h : Asks i n r)
    (k : Nat) (started : 0 < k) (early : k < w + 2) : (states i (n + k)).state = .init ∨ (states i (n + k)).state = .iter := by
  by_cases first : k = 1
  · subst first
    exact .inl (by simp [states,step,nextState,h.idle,h.start])
  · obtain ⟨j,rfl⟩ : ∃ j, k = 2 + j := ⟨k - 2,by omega⟩
    rw [← Nat.add_assoc]
    exact .inr (asksMultiplies wide h j (by omega)).state

theorem idleAfter {i : Nat → Inputs w} {n : Nat} {r : Request w} (wide : 2 ≤ w) (h : Asks i n r) :
    (states i (n + (w + 3))).state = .idle := by
  have done := (asksMultiplied wide h).state
  change (step (states i (n + (w + 2))) (i (n + (w + 2)))).state = .idle
  simp [step,nextState,done]

theorem everyCycle (i : Nat → Inputs w) (wide : 2 ≤ w) (n : Nat) : (states i n).state = .idle ∨
    ∃ m k r, n = m + k ∧ 0 < k ∧ k ≤ w + 2 ∧ Asks i m r := by
  induction n with
  | zero => exact .inl rfl
  | succ n ih =>
    rcases ih with idle | ⟨m,k,r,rfl,started,within,asks⟩
    · cases start : (i n).start with
      | false => exact .inl (by simp [states,step,nextState,idle,start])
      | true => exact .inr ⟨n,1,_,rfl,by omega,by omega,startAsks idle start⟩
    · by_cases last : k = w + 2
      · subst last
        exact .inl (idleAfter wide asks)
      · exact .inr ⟨m,k + 1,r,rfl,by omega,by omega,asks⟩

/- Every request is answered WIDTH+2 cycles after its start, not before, and the unit is then
idle for the next; and nothing else is answered. -/
structure Serves (i : Nat → Inputs w) : Prop where
  answered : ∀ n r, Asks i n r →
    ready (states i (n + (w + 2))) = true ∧ result (states i (n + (w + 2))) = r.answer
  waits : ∀ n r k, Asks i n r → k < w + 2 → ready (states i (n + k)) = false
  idle : ∀ n r, Asks i n r → (states i (n + (w + 3))).state = .idle
  asked : ∀ n, ready (states i n) = true → ∃ m r, n = m + (w + 2) ∧ Asks i m r

theorem everySequenceServed (wide : 2 ≤ w) (i : Nat → Inputs w) : Serves i where
  answered n r asks := by
    have done := asksMultiplied wide asks
    exact ⟨by simp [ready,done.state],resultExact done⟩
  waits n r k asks early := by
    rcases Nat.eq_zero_or_pos k with zero | started
    · subst zero
      simp [ready,asks.idle]
    · rcases busyUntilDone wide asks k started early with busy | busy <;> simp [ready,busy]
  idle n r asks := idleAfter wide asks
  asked n now := by
    have done : (states i n).state = .done := by simpa [ready] using now
    rcases everyCycle i wide n with idle | ⟨m,k,r,rfl,started,within,asks⟩
    · rw [idle] at done
      contradiction
    · by_cases last : k = w + 2
      · subst last
        exact ⟨m,r,rfl,asks⟩
      · rcases busyUntilDone wide asks k started (by omega) with busy | busy <;>
          rw [busy] at done <;> contradiction

end RiscvSoc.MulUnit
