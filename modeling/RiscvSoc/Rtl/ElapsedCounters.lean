import Mathlib.Algebra.Group.Nat.Defs
import Mathlib.Data.List.Induction
import Mathlib.Data.Nat.Log
import RiscvSoc.Lib.BitNumbers
import RiscvSoc.Lib.Window
import RiscvSoc.Rtl.SystemController

/-! The elapsed-time counters of `system_controller_peripheral.sv` at the widths of their registers. The controller's own
model has the prescalers as numbers. -/
namespace RiscvSoc.SystemController
open Mealy Window BitNumbers

/- `CYCLES_PER_US` and `CYCLE_COUNTER_WIDTH`. -/
def cyclesPerUs (clkFreqHz : Nat) : Nat := if clkFreqHz ≥ 1000000 then clkFreqHz / 1000000 else 1

def cycleCounterWidth (cycles : Nat) : Nat := if cycles > 1 then Nat.clog 2 cycles else 1

theorem cyclesPositive (clkFreqHz : Nat) : 0 < cyclesPerUs clkFreqHz := by
  unfold cyclesPerUs
  split
  · exact Nat.div_pos (by assumption) (by decide)
  · exact Nat.one_pos

theorem cyclesFit (cycles : Nat) : cycles ≤ 2 ^ cycleCounterWidth cycles := by
  unfold cycleCounterWidth
  split
  · exact Nat.le_pow_clog (by decide) cycles
  · omega

structure ElapsedRegs (cycles : Nat) where
  cycleCounter : BitVec (cycleCounterWidth cycles)
  usSubCounter : BitVec 10
  msSubCounter : BitVec 10
  elapsedUs : BitVec 32
  elapsedMs : BitVec 32
  elapsedS : BitVec 32
  deriving DecidableEq, Repr

namespace ElapsedRegs
variable {cycles : Nat} (r : ElapsedRegs cycles)

def reset : ElapsedRegs cycles := ⟨0,0,0,0,0,0⟩

def microsecondElapsed : Bool := if cycles = 1 then true else decide (r.cycleCounter ≥ BitVec.ofNat _ (cycles - 1))
def millisecondElapsed : Bool := r.microsecondElapsed && decide (r.usSubCounter ≥ 999)
def secondElapsed : Bool := r.millisecondElapsed && decide (r.msSubCounter ≥ 999)

def next : ElapsedRegs cycles where
  cycleCounter :=
    if cycles = 1 then 0
    else if r.cycleCounter ≥ BitVec.ofNat _ (cycles - 1) then 0 else r.cycleCounter + 1
  usSubCounter :=
    if r.microsecondElapsed then if r.usSubCounter ≥ 999 then 0 else r.usSubCounter + 1 else r.usSubCounter
  msSubCounter :=
    if r.millisecondElapsed then if r.msSubCounter ≥ 999 then 0 else r.msSubCounter + 1 else r.msSubCounter
  elapsedUs := if r.microsecondElapsed then r.elapsedUs + 1 else r.elapsedUs
  elapsedMs := if r.millisecondElapsed then r.elapsedMs + 1 else r.elapsedMs
  elapsedS := if r.secondElapsed then r.elapsedS + 1 else r.elapsedS

def elapsed : Elapsed :=
  ⟨r.cycleCounter.toNat,r.usSubCounter.toNat,r.msSubCounter.toNat,r.elapsedUs,r.elapsedMs,r.elapsedS⟩

theorem subNext (x : BitVec 10) : (if x ≥ 999 then 0 else x + 1 : BitVec 10).toNat =
    if x.toNat ≥ 999 then 0 else x.toNat + 1 := by
  have compare : x ≥ 999 ↔ x.toNat ≥ 999 := BitVec.le_def
  by_cases last : x.toNat ≥ 999
  · rw [if_pos (compare.mpr last),if_pos last]
    rfl
  · rw [if_neg (mt compare.mp last),if_neg last]
    exact countNext (k := 999) (by decide) (Nat.lt_of_not_le last)

theorem microsecondIs : r.microsecondElapsed = decide (r.cycleCounter.toNat ≥ cycles - 1) := by
  have fits := cyclesFit cycles
  have present := Nat.two_pow_pos (cycleCounterWidth cycles)
  unfold microsecondElapsed
  by_cases single : cycles = 1
  · rw [if_pos single,decide_eq_true (by omega)]
  · rw [if_neg single,decide_eq_decide,ge_iff_le,BitVec.le_def,BitVec.toNat_ofNat,Nat.mod_eq_of_lt (by omega)]

theorem cycleNext : r.next.cycleCounter.toNat = if r.microsecondElapsed then 0 else r.cycleCounter.toNat + 1 := by
  have fits := cyclesFit cycles
  have present := Nat.two_pow_pos (cycleCounterWidth cycles)
  have compare : r.cycleCounter ≥ BitVec.ofNat _ (cycles - 1) ↔ r.cycleCounter.toNat ≥ cycles - 1 := by
    rw [ge_iff_le,BitVec.le_def,BitVec.toNat_ofNat,Nat.mod_eq_of_lt (by omega)]
  rw [microsecondIs]
  change (if cycles = 1 then 0 else if r.cycleCounter ≥ _ then 0 else r.cycleCounter + 1 : BitVec _).toNat = _
  by_cases last : r.cycleCounter.toNat ≥ cycles - 1
  · rw [if_pos (compare.mpr last),ite_self,if_pos (decide_eq_true last)]
    rfl
  · rw [if_neg (by omega),if_neg (mt compare.mp last),if_neg (by simpa using last)]
    exact countNext (k := cycles - 1) (by omega) (Nat.lt_of_not_le last)

theorem millisecondIs : r.millisecondElapsed = (r.microsecondElapsed && decide (r.usSubCounter.toNat ≥ 999)) := rfl

theorem secondIs : r.secondElapsed = (r.millisecondElapsed && decide (r.msSubCounter.toNat ≥ 999)) := rfl

theorem prescalerNext (x : BitVec 10) (below : Bool) :
    (if below then if x ≥ 999 then 0 else x + 1 else x : BitVec 10).toNat =
      if below && decide (x.toNat ≥ 999) then 0 else if below then x.toNat + 1 else x.toNat := by
  cases below with
  | false => rfl
  | true =>
    rw [if_pos rfl,subNext,Bool.true_and,if_pos rfl]
    simp only [decide_eq_true_eq]

theorem nextElapsed : r.next.elapsed = r.elapsed.next cycles := by
  have micro := r.microsecondIs
  have milli := r.millisecondIs
  have second := r.secondIs
  unfold elapsed Elapsed.next
  simp only
  rw [← micro,← milli,← second,Elapsed.mk.injEq]
  exact ⟨r.cycleNext,prescalerNext r.usSubCounter _,prescalerNext r.msSubCounter _,rfl,rfl,rfl⟩

end ElapsedRegs

def ElapsedRegs.after (cycles : Nat) : Nat → ElapsedRegs cycles
  | 0 => reset
  | n + 1 => (after cycles n).next

theorem controllerElapsed (cycles : Nat) (s : Regs) (inputs : List Inputs) :
    ((machine cycles).final (reset s) inputs).elapsed = (ElapsedRegs.after cycles inputs.length).elapsed := by
  induction inputs using List.reverseRecOn with
  | nil => rfl
  | append_singleton inputs i ih =>
    rw [Machine.finalAppend,Machine.finalCons,Machine.finalNil,List.length_append]
    change Elapsed.next cycles _ = (ElapsedRegs.after cycles inputs.length).next.elapsed
    rw [ih,ElapsedRegs.nextElapsed]

theorem afterElapsed {cycles : Nat} (positive : 0 < cycles) (n : Nat) : (ElapsedRegs.after cycles n).elapsed =
    ⟨n % cycles,n / cycles % 1000,n / cycles / 1000 % 1000,BitVec.ofNat 32 (n / cycles),BitVec.ofNat 32 (n / cycles / 1000),
      BitVec.ofNat 32 (n / cycles / 1000 / 1000)⟩ := by
  induction n with
  | zero => simp [ElapsedRegs.after,ElapsedRegs.reset,ElapsedRegs.elapsed]
  | succ n ih =>
    obtain ⟨cycle,us⟩ := carry positive n
    obtain ⟨usSub,ms⟩ := carry (show 0 < 1000 by decide) (n / cycles)
    obtain ⟨msSub,s⟩ := carry (show 0 < 1000 by decide) (n / cycles / 1000)
    have inside := Nat.mod_lt n positive
    have insideUs := Nat.mod_lt (n / cycles) (show 0 < 1000 by decide)
    have insideMs := Nat.mod_lt (n / cycles / 1000) (show 0 < 1000 by decide)
    rw [ElapsedRegs.after,ElapsedRegs.nextElapsed,ih,cycle,us]
    unfold Elapsed.next
    simp only
    by_cases micro : n % cycles = cycles - 1
    · rw [if_pos micro,if_pos micro,usSub,ms]
      by_cases milli : n / cycles % 1000 = 1000 - 1
      · rw [if_pos milli,if_pos milli,msSub,s]
        by_cases second : n / cycles / 1000 % 1000 = 1000 - 1
        · simp [micro,milli,second,BitVec.ofNat_add]
        · have early : ¬ n / cycles / 1000 % 1000 ≥ 999 := by omega
          simp [micro,milli,second,early,BitVec.ofNat_add]
      · have early : ¬ n / cycles % 1000 ≥ 999 := by omega
        simp [micro,milli,early,BitVec.ofNat_add]
    · have early : ¬ n % cycles ≥ cycles - 1 := by omega
      simp [micro,early]

theorem elapsedCounts (clkFreqHz : Nat) (s : Regs) (inputs : List Inputs) :
    let c := cyclesPerUs clkFreqHz
    let r := ElapsedRegs.after c inputs.length
    r.elapsedUs.toNat = inputs.length / c % 2 ^ 32 ∧
    r.elapsedMs.toNat = inputs.length / (1000 * c) % 2 ^ 32 ∧
    r.elapsedS.toNat = inputs.length / (1000000 * c) % 2 ^ 32 ∧
    ((machine c).final (reset s) inputs).elapsed = r.elapsed := by
  have counts := afterElapsed (cyclesPositive clkFreqHz) inputs.length
  unfold ElapsedRegs.elapsed at counts
  rw [Elapsed.mk.injEq] at counts
  obtain ⟨_,_,_,us,ms,s'⟩ := counts
  refine ⟨?_,?_,?_,controllerElapsed _ _ _⟩
  · rw [us,BitVec.toNat_ofNat]
  · rw [ms,BitVec.toNat_ofNat,Nat.div_div_eq_div_mul,Nat.mul_comm]
  · rw [s',BitVec.toNat_ofNat,Nat.div_div_eq_div_mul,Nat.div_div_eq_div_mul,Nat.mul_comm (cyclesPerUs clkFreqHz)]

end RiscvSoc.SystemController
