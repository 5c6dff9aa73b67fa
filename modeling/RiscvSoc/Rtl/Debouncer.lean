import Mathlib.Algebra.Group.Nat.Defs
import Mathlib.Data.List.Induction
import RiscvSoc.Lib.BitNumbers
import RiscvSoc.Lib.Mealy
import RiscvSoc.Lib.Streak

/-! `debouncer.sv`, for every clock and stable time: the output takes the value of the input once the input has shown it
on `STABLE_CYCLES` edges in a row, and a shorter glitch does not reach it. -/
namespace RiscvSoc.Debouncer
open BitNumbers Mealy Machine Streak

/- `STABLE_CYCLES`, rounded up in 64 bits. -/
def stableCycles (clkFreqHz stableTimeUs : BitVec 32) : BitVec 64 :=
  (clkFreqHz.zeroExtend 64 * stableTimeUs.zeroExtend 64 + 999999) / 1000000

def stableCountPreMax (stableCycles : Nat) : BitVec (counterWidth stableCycles) :=
  if stableCycles ≤ 1 then 0 else BitVec.ofNat _ (stableCycles - 2)

structure Regs (n : Nat) where
  stableCounter : BitVec (counterWidth n)
  stableCounterIsMax : Bool
  dout : Bool
  deriving DecidableEq, Repr

structure Inputs where
  rst : Bool
  din : Bool
  deriving DecidableEq, Repr

namespace Regs
variable {n : Nat}

def reset : Regs n := ⟨0,false,false⟩

def sample (r : Regs n) (din : Bool) : Regs n :=
  if din == r.dout then {r with stableCounter := 0,stableCounterIsMax := false}
  else if decide (n = 1) || r.stableCounterIsMax then ⟨0,false,din⟩
  else {r with
    stableCounter := r.stableCounter + 1
    stableCounterIsMax := r.stableCounter == stableCountPreMax n}

def edge (r : Regs n) (i : Inputs) : Regs n := if i.rst then reset else r.sample i.din

end Regs

def machine (n : Nat) : Machine (Regs n) Inputs Bool where
  output r _ := r.dout
  next := Regs.edge

variable {n : Nat}

structure Agrees (n : Nat) (xs : List Bool) (r : Regs n) : Prop where
  dout : r.dout = true ↔ Settled n xs
  short : streak (· == !r.dout) xs < n
  counter : r.stableCounter.toNat = streak (· == !r.dout) xs
  isMax : r.stableCounterIsMax = true ↔ streak (· == !r.dout) xs + 1 = n ∧ n ≠ 1

theorem idleMax : ¬ (0 + 1 = n ∧ n ≠ 1) := fun both => both.2 both.1.symm

theorem agreesReset (positive : 0 < n) : Agrees n [] Regs.reset where
  dout := iff_of_false Bool.false_ne_true (settledNil positive)
  short := (streakNil _).symm ▸ positive
  counter := by rw [streakNil]; exact BitVec.toNat_zero
  isMax := iff_of_false Bool.false_ne_true ((streakNil _).symm ▸ idleMax)

theorem agreesSame {xs : List Bool} {r : Regs n} (agrees : Agrees n xs r) :
    Agrees n (xs ++ [r.dout]) (r.sample r.dout) := by
  have sampled : r.sample r.dout = {r with stableCounter := 0,stableCounterIsMax := false} := if_pos (beq_self_eq_true _)
  have zero : streak (· == !r.dout) (xs ++ [r.dout]) = 0 := streakNo (by simp) xs
  have positive := Nat.lt_of_le_of_lt (Nat.zero_le _) agrees.short
  rw [sampled]
  refine ⟨?_,zero.symm ▸ positive,zero.symm ▸ BitVec.toNat_zero,iff_of_false Bool.false_ne_true (zero.symm ▸ idleMax)⟩
  by_cases long : List.replicate n r.dout <:+ xs ++ [r.dout]
  · exact (settledLong positive long).symm
  · exact agrees.dout.trans (settledStays positive long).symm

theorem agreesOther {xs : List Bool} {r : Regs n} (agrees : Agrees n xs r) :
    Agrees n (xs ++ [!r.dout]) (r.sample (!r.dout)) := by
  have positive := Nat.lt_of_le_of_lt (Nat.zero_le _) agrees.short
  have differs : ((!r.dout) == r.dout) = false := by cases r.dout <;> rfl
  have one : streak (· == !r.dout) (xs ++ [!r.dout]) = streak (· == !r.dout) xs + 1 := streakYes (by simp) xs
  by_cases last : streak (· == !r.dout) xs + 1 = n
  · have sampled : r.sample (!r.dout) = ⟨0,false,!r.dout⟩ := by
      rw [Regs.sample,differs,if_neg (by decide),if_pos]
      rw [Bool.or_eq_true,agrees.isMax,decide_eq_true_eq]
      exact (em (n = 1)).imp_right fun more => ⟨last,more⟩
    have long : List.replicate n (!r.dout) <:+ xs ++ [!r.dout] := streakReplicate.mp (one.trans last).ge
    have zero : streak (· == !!r.dout) (xs ++ [!r.dout]) = 0 := streakNo (by cases r.dout <;> rfl) xs
    rw [sampled]
    exact ⟨(settledLong positive long).symm,zero.symm ▸ positive,zero.symm ▸ BitVec.toNat_zero,
      iff_of_false Bool.false_ne_true (zero.symm ▸ idleMax)⟩
  · have more : n ≠ 1 := fun single => last (by have := agrees.short; omega)
    have idle : r.stableCounterIsMax = false := by
      rw [← Bool.not_eq_true,agrees.isMax]
      exact fun max => last max.1
    have sampled : r.sample (!r.dout) = {r with
        stableCounter := r.stableCounter + 1, stableCounterIsMax := r.stableCounter == stableCountPreMax n} := by
      rw [Regs.sample,differs,idle,if_neg (by decide),if_neg (by simp [more])]
    have room : streak (· == !r.dout) xs + 1 < n := Nat.lt_of_le_of_ne agrees.short last
    have fits := counterFits n
    rw [sampled]
    refine ⟨?_,one.symm ▸ room,?_,?_⟩
    · refine agrees.dout.trans (settledStays positive fun long => ?_).symm
      exact absurd (streakReplicate.mpr long) (Nat.not_le_of_lt (one.symm ▸ room))
    · show (r.stableCounter + 1).toNat = streak (· == !r.dout) _
      have unit : (1 : BitVec (counterWidth n)).toNat = 1 :=
        (BitVec.toNat_ofNat 1 _).trans (Nat.mod_eq_of_lt (Nat.lt_of_lt_of_le (by omega : 1 < n) fits))
      have sum : r.stableCounter.toNat + (1 : BitVec (counterWidth n)).toNat < 2 ^ counterWidth n := by
        rw [agrees.counter,unit]
        omega
      rw [one,BitVec.toNat_add_of_lt sum,agrees.counter,unit]
    · show (r.stableCounter == stableCountPreMax n) = true ↔ streak (· == !r.dout) _ + 1 = n ∧ n ≠ 1
      rw [one,beq_iff_eq,← BitVec.toNat_inj,agrees.counter,stableCountPreMax,if_neg (by omega),BitVec.toNat_ofNat,
        Nat.mod_eq_of_lt (by omega)]
      omega

theorem agreesSample {xs : List Bool} {r : Regs n} (agrees : Agrees n xs r) (din : Bool) :
    Agrees n (xs ++ [din]) (r.sample din) := by
  obtain rfl | rfl : din = r.dout ∨ din = !r.dout := by cases din <;> cases r.dout <;> decide
  · exact agreesSame agrees
  · exact agreesOther agrees

def sinceReset (inputs : List Inputs) : List Bool := (inputs.rtakeWhile fun i => !i.rst).map Inputs.din

theorem agreesRun (positive : 0 < n) (r : Regs n) {inputs : List Inputs} (started : ∃ i ∈ inputs, i.rst = true) :
    Agrees n (sinceReset inputs) ((machine n).final r inputs) := by
  induction inputs using List.reverseRecOn with
  | nil => simp at started
  | append_singleton inputs i ih =>
    rw [finalAppend]
    show Agrees n _ (Regs.edge _ i)
    cases here : i.rst with
    | true =>
      rw [sinceReset,List.rtakeWhile_concat_neg _ _ _ (by simp [here]),Regs.edge,if_pos here]
      exact agreesReset positive
    | false =>
      obtain ⟨j,mem,rst⟩ := started
      have before : j ∈ inputs := by
        obtain before | rfl := List.mem_append.mp mem |>.imp_right List.mem_singleton.mp
        · exact before
        · exact absurd rst (by simp [here])
      rw [sinceReset,List.rtakeWhile_concat_pos _ _ _ (by simp [here]),List.map_append,Regs.edge,here,if_neg (by decide)]
      exact agreesSample (ih ⟨j,before,rst⟩) i.din

theorem stableCyclesTime (clkFreqHz stableTimeUs : BitVec 32) :
    clkFreqHz.toNat * stableTimeUs.toNat ≤ (stableCycles clkFreqHz stableTimeUs).toNat * 1000000 ∧
    (stableCycles clkFreqHz stableTimeUs).toNat * 1000000 < clkFreqHz.toNat * stableTimeUs.toNat + 1000000 := by
  have most : clkFreqHz.toNat * stableTimeUs.toNat ≤ (2 ^ 32 - 1) * (2 ^ 32 - 1) :=
    Nat.mul_le_mul (Nat.le_sub_one_of_lt clkFreqHz.isLt) (Nat.le_sub_one_of_lt stableTimeUs.isLt)
  have product : (stableCycles clkFreqHz stableTimeUs).toNat = (clkFreqHz.toNat * stableTimeUs.toNat + 999999) / 1000000 := by
    rw [stableCycles,BitVec.toNat_udiv,BitVec.toNat_add,BitVec.toNat_mul,BitVec.toNat_setWidth_of_le (by decide),
      BitVec.toNat_setWidth_of_le (by decide)]
    rw [Nat.mod_eq_of_lt (a := clkFreqHz.toNat * stableTimeUs.toNat) (by omega)]
    rw [Nat.mod_eq_of_lt]
    · rfl
    · show _ + 999999 < _
      omega
  rw [product]
  omega

theorem stableCyclesPositive {clkFreqHz stableTimeUs : BitVec 32} (clk : 0 < clkFreqHz.toNat) (time : 0 < stableTimeUs.toNat) :
    0 < (stableCycles clkFreqHz stableTimeUs).toNat := by
  have long := (stableCyclesTime clkFreqHz stableTimeUs).1
  have present := Nat.mul_pos clk time
  omega

/- After any run with a reset the output is high exactly when, since that reset, the input was high for the stable time
and was not low for as long since. -/
theorem debounced {clkFreqHz stableTimeUs : BitVec 32} (clk : 0 < clkFreqHz.toNat) (time : 0 < stableTimeUs.toNat)
    (r : Regs (stableCycles clkFreqHz stableTimeUs).toNat) {inputs : List Inputs} (started : ∃ i ∈ inputs, i.rst = true) :
    let n := (stableCycles clkFreqHz stableTimeUs).toNat
    (((machine n).final r inputs).dout = true ↔ Settled n (sinceReset inputs)) ∧
    clkFreqHz.toNat * stableTimeUs.toNat ≤ n * 1000000 ∧ n * 1000000 < clkFreqHz.toNat * stableTimeUs.toNat + 1000000 :=
  ⟨(agreesRun (stableCyclesPositive clk time) r started).dout,stableCyclesTime clkFreqHz stableTimeUs⟩

theorem debouncedWrapper :
    ((machine (stableCycles 1000000 3).toNat).final Regs.reset
      [⟨true,false⟩,⟨false,false⟩,⟨false,true⟩,⟨false,true⟩,⟨false,true⟩,⟨false,false⟩,⟨false,false⟩]).dout = true :=
  (@debounced 1000000 3 (by decide) (by decide) Regs.reset _ ⟨⟨true,false⟩,by simp,rfl⟩).1.mpr
    ⟨[false],[false,false],by decide,by decide⟩

end RiscvSoc.Debouncer
