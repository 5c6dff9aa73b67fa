import RiscvSoc.Rtl.BusCdcReset
import RiscvSoc.Rtl.Debouncer

/-! The path from a board's reset button to the reset of the system: `ff_sync.sv` at its default depth, `debouncer.sv`,
and the `reset_controller.sv` of `top.sv`, as the Icepi Zero and the Tang Primer 25K wire them. -/
namespace RiscvSoc.ResetButton
open Mealy Machine Streak
open ClockCrossing (shift)
open CdcHandshake (dout)

structure Wiring where
  debouncerRst : Bool → Bool
  rst : Bool → Bool

def icepiZero : Wiring := ⟨fun rstNBtnSync2 => !rstNBtnSync2,fun rstNBtnDebounced => !rstNBtnDebounced⟩
def tangPrimer25k : Wiring := ⟨fun rstBtnSync2 => rstBtnSync2,fun rstBtnDebounced => rstBtnDebounced⟩

structure Board (n : Nat) where
  sync : List Bool
  debouncer : Debouncer.Regs n
  resetCtrl : ResetController
  deriving DecidableEq, Repr

structure Inputs where
  button : Bool
  sysctrlSysRst : Bool
  deriving DecidableEq, Repr

namespace Board
variable {n : Nat} (wiring : Wiring) (resetCycles : Nat) (b : Board n) (i : Inputs)

def debouncerInputs : Debouncer.Inputs := ⟨wiring.debouncerRst (dout b.sync),dout b.sync⟩

def rstIn : Bool := wiring.rst b.debouncer.dout || i.sysctrlSysRst

def edge : Board n where
  sync := shift i.button b.sync
  debouncer := b.debouncer.edge (b.debouncerInputs wiring)
  resetCtrl := b.resetCtrl.edge resetCycles (b.rstIn wiring i)

end Board

/- `rst_internal`, the registered reset of the system. -/
def machine (n : Nat) (wiring : Wiring) (resetCycles : Nat) : Machine (Board n) Inputs Bool where
  output b _ := b.resetCtrl.rstOut
  next := Board.edge wiring resetCycles

def controller (resetCycles : Nat) : Machine ResetController Bool Bool where
  output s _ := s.rstOut
  next := ResetController.edge resetCycles

variable {n : Nat} {wiring : Wiring} {resetCycles : Nat}

theorem controllerRun (s : ResetController) {rstIns : List Bool} (requested : true ∈ rstIns) :
    ((controller resetCycles).final s rstIns).counter = min (streak (!·) rstIns) resetCycles ∧
    (((controller resetCycles).final s rstIns).rstOut = false ↔ resetCycles + 1 ≤ streak (!·) rstIns) := by
  induction rstIns using List.reverseRecOn with
  | nil => simp at requested
  | append_singleton rstIns rstIn ih =>
    rw [finalAppend]
    show (ResetController.edge _ _ rstIn).counter = _ ∧ ((ResetController.edge _ _ rstIn).rstOut = false ↔ _)
    cases rstIn with
    | true =>
      rw [streakNo (by rfl)]
      exact ⟨(Nat.zero_min _).symm,iff_of_false Bool.noConfusion (Nat.not_succ_le_zero _)⟩
    | false =>
      obtain ⟨counter,-⟩ := ih (by simpa using requested)
      rw [streakYes (by rfl),ResetController.edge,if_neg (by decide),ResetController.complete,counter]
      by_cases done : resetCycles ≤ min (streak (!·) rstIns) resetCycles
      · rw [decide_eq_true done]
        refine ⟨?_,iff_of_true rfl (by omega)⟩
        show min (streak (!·) rstIns) resetCycles = _
        omega
      · rw [decide_eq_false done]
        refine ⟨?_,iff_of_false Bool.noConfusion (by omega)⟩
        show min (streak (!·) rstIns) resetCycles + 1 = _
        omega

def levels (b : Board n) (_ : Inputs) : List Bool := [dout b.sync]

theorem levelsLength (b : Board n) (inputs : List Inputs) :
    ((machine n wiring resetCycles).history levels b inputs).length = inputs.length := by
  rw [show levels = fun (b : Board n) (_ : Inputs) => [dout b.sync] from rfl,historyTrace,List.length_map,traceLength]

theorem synchronised {b : Board n} (three : b.sync.length = 3) (inputs : List Inputs) :
    ((machine n wiring resetCycles).final b inputs).sync.length = 3 ∧
    b.sync.reverse ++ inputs.map Inputs.button = (machine n wiring resetCycles).history levels b inputs ++
      ((machine n wiring resetCycles).final b inputs).sync.reverse := by
  rw [← historyInputs (m := machine n wiring resetCycles) Inputs.button b inputs]
  refine @conserved _ _ _ (machine n wiring resetCycles) _ (fun b => b.sync.length = 3) (fun b => b.sync.reverse) _ _
    (fun b i three => ?_) _ three inputs
  obtain ⟨x,y,z,same⟩ := List.length_eq_three.mp three
  show (shift i.button b.sync).length = 3 ∧ b.sync.reverse ++ [i.button] = [dout b.sync] ++ (shift i.button b.sync).reverse
  rw [same]
  exact ⟨rfl,rfl⟩

theorem debouncedRun (positive : 0 < n) {b : Board n} {inputs : List Inputs}
    (pressed : false ∈ (machine n icepiZero resetCycles).history levels b inputs) :
    ((machine n icepiZero resetCycles).final b inputs).debouncer.dout = true ↔
      n ≤ streak id ((machine n icepiZero resetCycles).history levels b inputs) := by
  let wired (level : Bool) : Debouncer.Inputs := ⟨!level,level⟩
  have part := (component (machine n icepiZero resetCycles) (Debouncer.machine n) Board.debouncer
    (fun b _ => b.debouncerInputs icepiZero) (fun _ _ => rfl) b inputs).1
  have feed : (machine n icepiZero resetCycles).history (fun b _ => [b.debouncerInputs icepiZero]) b inputs =
      ((machine n icepiZero resetCycles).history levels b inputs).map wired := by
    rw [historyMap]
    rfl
  have started : ∃ i ∈ ((machine n icepiZero resetCycles).history levels b inputs).map wired, i.rst = true :=
    ⟨wired false,List.mem_map_of_mem pressed,rfl⟩
  have since : Debouncer.sinceReset (((machine n icepiZero resetCycles).history levels b inputs).map wired) =
      List.replicate (streak id ((machine n icepiZero resetCycles).history levels b inputs)) true := by
    rw [Debouncer.sinceReset,rtakeWhileMap,List.map_map,← highsReplicate]
    simp only [wired,Bool.not_not]
    exact List.map_id _
  rw [← part,feed,(Debouncer.agreesRun positive _ started).dout,since,settledSteady positive]

def up (c : Board n × Inputs) : Bool := c.1.debouncer.dout

theorem debouncedStreak (positive : 0 < n) {b : Board n} {inputs : List Inputs} (i : Inputs)
    (pressed : false ∈ (machine n icepiZero resetCycles).history levels b inputs) :
    streak up ((machine n icepiZero resetCycles).trace b (inputs ++ [i])) =
      streak id ((machine n icepiZero resetCycles).history levels b inputs) + 1 - n := by
  induction inputs using List.reverseRecOn generalizing i with
  | nil => simp at pressed
  | append_singleton inputs j ih =>
    have here := debouncedRun positive pressed
    rw [traceAppend,traceCons,traceNil]
    cases high : up ((machine n icepiZero resetCycles).final b (inputs ++ [j]),i) with
    | false =>
      have short := mt here.mpr (ne_true_of_eq_false high)
      rw [streakNo high]
      omega
    | true =>
      have long := here.mp high
      rw [streakYes high]
      rw [historyAppend,historyCons,historyNil,List.append_nil,levels] at long pressed ⊢
      cases last : dout ((machine n icepiZero resetCycles).final b inputs).sync with
      | false =>
        rw [last,streakNo rfl] at long
        omega
      | true =>
        rw [last] at long pressed
        rw [streakYes rfl] at long ⊢
        rw [ih j (by simpa using pressed)]
        omega

theorem requestStreak (b : Board n) (inputs : List Inputs) :
    streak (!·) ((machine n icepiZero resetCycles).history (fun b i => [b.rstIn icepiZero i]) b inputs) =
      min (streak up ((machine n icepiZero resetCycles).trace b inputs)) (streak (!·) (inputs.map Inputs.sysctrlSysRst)) := by
  rw [← historyInputs (m := machine n icepiZero resetCycles) Inputs.sysctrlSysRst b inputs,historyTrace,historyTrace,
    streakMap,streakMap,← streakBoth]
  congr 1
  funext c
  show (!(!c.1.debouncer.dout || c.2.sysctrlSysRst)) = _
  rw [Bool.not_or,Bool.not_not,up]

/- Once the button was pressed, the system leaves reset exactly when the button has been up for `STABLE_CYCLES` and
`RESET_CYCLES` edges, four edges ago, and the system controller has asked for no reset on the last `RESET_CYCLES` and one. -/
theorem released {clkFreqHz stableTimeUs : BitVec 32} (clk : 0 < clkFreqHz.toNat) (time : 0 < stableTimeUs.toNat)
    (resetCycles : Nat) (b : Board (Debouncer.stableCycles clkFreqHz stableTimeUs).toNat) (three : b.sync.length = 3)
    {inputs : List Inputs} (pressed : false ∈ (b.sync.reverse ++ inputs.map Inputs.button).rdrop 4) :
    let n := (Debouncer.stableCycles clkFreqHz stableTimeUs).toNat
    ((machine n icepiZero resetCycles).final b inputs).resetCtrl.rstOut = false ↔
      List.replicate (n + resetCycles) true <:+ (b.sync.reverse ++ inputs.map Inputs.button).rdrop 4 ∧
        List.replicate (resetCycles + 1) false <:+ inputs.map Inputs.sysctrlSysRst := by
  intro n
  have positive : 0 < n := Debouncer.stableCyclesPositive clk time
  obtain rfl | ⟨before,i,rfl⟩ := List.eq_nil_or_concat' inputs
  · rw [List.map_nil,List.append_nil,List.rdrop,List.length_reverse,three] at pressed
    simp at pressed
  · obtain ⟨kept,same⟩ := @synchronised _ icepiZero resetCycles _ three (before ++ [i])
    have seen : (b.sync.reverse ++ (before ++ [i]).map Inputs.button).rdrop 4 =
        (machine n icepiZero resetCycles).history levels b before := by
      rw [same,historyAppend,historyCons,historyNil,List.append_nil,levels,List.append_assoc]
      have four : ([dout ((machine n icepiZero resetCycles).final b before).sync] ++
          ((machine n icepiZero resetCycles).final b (before ++ [i])).sync.reverse).length = 4 := by
        rw [List.length_append,List.length_reverse,kept,List.length_singleton]
      exact four ▸ List.rdrop_append_length
    rw [seen] at pressed ⊢
    have part := (component (machine n icepiZero resetCycles) (controller resetCycles) Board.resetCtrl
      (Board.rstIn icepiZero) (fun _ _ => rfl) b (before ++ [i])).1
    have ups := @debouncedStreak _ resetCycles positive _ _ i pressed
    have requests := @requestStreak _ resetCycles b (before ++ [i])
    have requested : true ∈ (machine n icepiZero resetCycles).history (fun b j => [b.rstIn icepiZero j]) b (before ++ [i]) := by
      by_contra absent
      have all := @streakAll _ (!·) ((machine n icepiZero resetCycles).history
        (fun b j => [b.rstIn icepiZero j]) b (before ++ [i])) fun x mem => by
          cases x with
          | false => rfl
          | true => exact absurd mem absent
      have most := streakLength (p := id) ((machine n icepiZero resetCycles).history levels b before)
      rw [requests,ups,historyTrace,List.length_map,traceLength,List.length_append,List.length_singleton] at all
      rw [levelsLength] at most
      omega
    rw [← part,(controllerRun _ requested).2,requests,ups,Nat.le_min]
    refine and_congr ?_ streakLow
    rw [← streakHigh]
    omega

theorem releasedWrapper :
    ((machine (Debouncer.stableCycles 1000000 3).toNat icepiZero 2).final
      ⟨[false,false,false],Debouncer.Regs.reset,⟨0,true⟩⟩ (List.replicate 9 ⟨true,false⟩)).resetCtrl.rstOut = false :=
  (@released 1000000 3 (by decide) (by decide) 2
    ⟨[false,false,false],Debouncer.Regs.reset,⟨0,true⟩⟩ rfl _ (by decide)).mpr (by decide)

theorem tangLow {r : Debouncer.Regs n} (low : r.dout = false) (level : Bool) :
    (r.edge ⟨tangPrimer25k.debouncerRst level,level⟩).dout = false := by
  cases level with
  | true => rfl
  | false =>
    have sampled : r.sample false = {r with stableCounter := 0,stableCounterIsMax := false} := if_pos (by rw [low]; rfl)
    show (r.sample false).dout = false
    rw [sampled]
    exact low

/- Its reset is what the system controller's requests alone make of it, whatever the button does. -/
theorem buttonIgnored {b : Board n} (low : b.debouncer.dout = false) (resetCycles : Nat) (inputs : List Inputs) :
    (machine n tangPrimer25k resetCycles).Steps (fun b _ => b.debouncer.dout = false) b inputs ∧
    (machine n tangPrimer25k resetCycles).outputs b inputs =
      (controller resetCycles).outputs b.resetCtrl (inputs.map Inputs.sysctrlSysRst) := by
  have steps : (machine n tangPrimer25k resetCycles).Steps (fun b _ => b.debouncer.dout = false) b inputs :=
    @stepsAll _ _ _ _ (fun b : Board n => b.debouncer.dout = false) (fun _ _ => True) _
      (fun b _ low _ => ⟨tangLow low _,low⟩) _ low _ fun _ _ => trivial
  refine ⟨steps,?_⟩
  have requests : (machine n tangPrimer25k resetCycles).history (fun b i => [b.rstIn tangPrimer25k i]) b inputs =
      inputs.map Inputs.sysctrlSysRst := by
    rw [← historyInputs (m := machine n tangPrimer25k resetCycles) Inputs.sysctrlSysRst b inputs]
    refine historySame fun c mem => ?_
    show [c.1.debouncer.dout || c.2.sysctrlSysRst] = [c.2.sysctrlSysRst]
    rw [steps c mem,Bool.false_or]
  rw [outputsHistory,outputsHistory,← requests]
  exact ((component (machine n tangPrimer25k resetCycles) (controller resetCycles) Board.resetCtrl
    (Board.rstIn tangPrimer25k) (fun _ _ => rfl) b inputs).2 fun s _ => [s.rstOut]).symm

theorem buttonHeld : ((machine 3 tangPrimer25k 2).outputs
      ⟨[false,false,false],Debouncer.Regs.reset,⟨2,false⟩⟩ (List.replicate 12 ⟨true,false⟩)) = List.replicate 12 false :=
  (buttonIgnored (b := ⟨[false,false,false],Debouncer.Regs.reset,⟨2,false⟩⟩) rfl 2 _).2.trans (by decide)

end RiscvSoc.ResetButton
