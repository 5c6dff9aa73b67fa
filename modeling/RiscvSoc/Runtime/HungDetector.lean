import Mathlib.Data.List.Induction
import RiscvSoc.Lib.DropOldest
import RiscvSoc.Lib.Streak

/-! `hung_detector.rs` and the calls of `sim_core.rs`: what the detector reports of a cycle is a function of the cycles since
the last reset, the run of one PC at the end of the completed instructions and the cycle that the current one began in. -/
namespace RiscvSoc.HungDetector
open Mealy Machine Streak

abbrev Word := BitVec 32

structure Config where
  pcHistorySize : Nat
  pcStuckThreshold : Nat
  maxCyclesPerInstruction : Nat
  enablePcLoopDetection : Bool
  enableLongInstructionDetection : Bool
  deriving DecidableEq, Repr

def Config.default : Config := ⟨100,50,10000,true,true⟩

inductive HungStateError where
  | pcStuck (pc instruction : Word) (count : Nat) (history : List Word)
  | longInstruction (pc instruction : Word) (cycleCount : Nat) (fsmState : BitVec 8)
  deriving DecidableEq, Repr

structure Cycle where
  cycleCount : Nat
  pc : Word
  instruction : Word
  fsmState : BitVec 8
  instructionComplete : Bool
  deriving DecidableEq, Repr

/- `pc_stuck_count` is below `pc_stuck_threshold` wherever it is counted up, so it is a number. -/
structure Detector where
  config : Config
  pcHistory : List Word
  lastPc : Option Word
  pcStuckCount : Nat
  currentInstructionPc : Option Word
  currentInstructionWord : Word
  currentInstructionStartCycle : Nat
  deriving DecidableEq, Repr

namespace Detector

def new (config : Config) : Detector := ⟨config,[],none,0,none,0,0⟩

def pushHistory (d : Detector) (pc : Word) : List Word :=
  let pcHistory := d.pcHistory ++ [pc]
  if pcHistory.length > d.config.pcHistorySize then pcHistory.tail else pcHistory

/- Nothing after the error is done: `last_pc` already is this PC. -/
def checkPcLoop (d : Detector) (pc instruction : Word) : Option HungStateError × Detector :=
  let d := {d with pcHistory := d.pushHistory pc}
  match d.lastPc with
  | some last =>
    if last = pc then
      let d := {d with pcStuckCount := d.pcStuckCount + 1}
      if d.pcStuckCount ≥ d.config.pcStuckThreshold then (some (.pcStuck pc instruction d.pcStuckCount d.pcHistory),d)
      else (none,{d with lastPc := some pc})
    else (none,{d with pcStuckCount := 1,lastPc := some pc})
  | none => (none,{d with pcStuckCount := 1,lastPc := some pc})

def checkLong (d : Detector) (c : Cycle) : Option HungStateError × Detector :=
  if d.config.enableLongInstructionDetection then
    match d.currentInstructionPc with
    | some instrPc =>
      let cycles := c.cycleCount - d.currentInstructionStartCycle
      if cycles > d.config.maxCyclesPerInstruction then
        (some (.longInstruction instrPc d.currentInstructionWord cycles c.fsmState),d)
      else (none,d)
    | none => (none,{d with
        currentInstructionPc := some c.pc
        currentInstructionWord := c.instruction
        currentInstructionStartCycle := c.cycleCount})
  else (none,d)

def checkCycle (d : Detector) (c : Cycle) : Option HungStateError × Detector :=
  if c.instructionComplete then
    let d := {d with currentInstructionPc := none,currentInstructionStartCycle := c.cycleCount}
    if d.config.enablePcLoopDetection then
      match d.checkPcLoop c.pc c.instruction with
      | (some error,d) => (some error,d)
      | (none,d) => d.checkLong c
    else d.checkLong c
  else d.checkLong c

def reset (d : Detector) : Detector :=
  {d with
    pcHistory := []
    lastPc := none
    pcStuckCount := 0
    currentInstructionPc := none
    currentInstructionWord := 0
    currentInstructionStartCycle := 0}

end Detector

/- What `Simulator` does with its detector: `step_cycle` leaves it out while the CPU boots or has halted. -/
inductive Op where
  | stepCycle (cpuBooting halted : Bool) (c : Cycle)
  | reset
  deriving DecidableEq, Repr

def machine : Machine Detector Op (Option HungStateError) where
  output d op := match op with
    | .stepCycle cpuBooting halted c => if cpuBooting || halted then none else (d.checkCycle c).1
    | .reset => none
  next d op := match op with
    | .stepCycle cpuBooting halted c => if cpuBooting || halted then d else (d.checkCycle c).2
    | .reset => d.reset

def Op.checked : Op → Option Cycle
  | .stepCycle cpuBooting halted c => if cpuBooting || halted then none else some c
  | .reset => none

/- The cycles that the detector has seen since the last reset. -/
def seen (ops : List Op) : List Cycle := (ops.rtakeWhile (· ≠ .reset)).filterMap Op.checked

def completed (cycles : List Cycle) : List Word := (cycles.filter Cycle.instructionComplete).map Cycle.pc

def began (cycles : List Cycle) : Option Cycle := (cycles.reverse.find? Cycle.instructionComplete).or cycles.head?

def stuckAt (config : Config) (pcs : List Word) (pc : Word) : Prop :=
  max 2 config.pcStuckThreshold ≤ streak (· == pc) (pcs ++ [pc])

instance (config : Config) (pcs : List Word) (pc : Word) : Decidable (stuckAt config pcs pc) :=
  inferInstanceAs (Decidable (_ ≤ _))

def stuckError (config : Config) (pcs : List Word) (pc instruction : Word) : HungStateError :=
  .pcStuck pc instruction (max 2 config.pcStuckThreshold) ((pcs ++ [pc]).rtake config.pcHistorySize)

def longError (config : Config) (first c : Cycle) : Option HungStateError :=
  if c.cycleCount - first.cycleCount > config.maxCyclesPerInstruction then
    some (.longInstruction first.pc first.instruction (c.cycleCount - first.cycleCount) c.fsmState)
  else none

/- What is wrong with a cycle, as the cycles before it tell. -/
def verdict (config : Config) (past : List Cycle) (c : Cycle) : Option HungStateError :=
  if c.instructionComplete then
    if config.enablePcLoopDetection = true ∧ stuckAt config (completed past) c.pc then
      some (stuckError config (completed past) c.pc c.instruction)
    else none
  else if config.enableLongInstructionDetection then (began past).bind (longError config · c)
  else none

structure Counts (config : Config) (pcs : List Word) (d : Detector) : Prop where
  history : d.pcHistory = pcs.rtake config.pcHistorySize
  last : d.lastPc = pcs.getLast?
  count : ∀ pc, d.lastPc = some pc → d.pcStuckCount = streak (· == pc) pcs
  below : d.pcStuckCount < max 2 config.pcStuckThreshold

structure Tracks (first : Option Cycle) (d : Detector) : Prop where
  pc : d.currentInstructionPc = first.map Cycle.pc
  rest : ∀ c ∈ first, d.currentInstructionWord = c.instruction ∧ d.currentInstructionStartCycle = c.cycleCount

structure Apart (d d' : Detector) : Prop where
  config : d'.config = d.config
  pc : d'.currentInstructionPc = d.currentInstructionPc
  word : d'.currentInstructionWord = d.currentInstructionWord
  start : d'.currentInstructionStartCycle = d.currentInstructionStartCycle

theorem historyPushed {d : Detector} {pcs : List Word} (history : d.pcHistory = pcs.rtake d.config.pcHistorySize) (pc : Word) :
    d.pushHistory pc = (pcs ++ [pc]).rtake d.config.pcHistorySize := by
  have short : (pcs.rtake d.config.pcHistorySize).length ≤ d.config.pcHistorySize := by
    rw [List.rtake,List.length_drop]
    omega
  rw [← DropOldest.rtakeRtake,← history,Detector.pushHistory]
  rw [← history] at short
  split
  · rename_i longer
    have one : (d.pcHistory ++ [pc]).length - d.config.pcHistorySize = 1 := by
      rw [List.length_append,List.length_singleton] at longer ⊢
      omega
    rw [List.rtake,one,List.drop_one]
  · rename_i room
    exact (DropOldest.rtakeShort (Nat.le_of_not_lt room)).symm

theorem firstOfRun {pcs : List Word} {d : Detector} (counts : Counts d.config pcs d) {pc : Word}
    (one : streak (· == pc) (pcs ++ [pc]) = 1) :
    ¬ stuckAt d.config pcs pc ∧
      Counts d.config (pcs ++ [pc]) {d with pcHistory := d.pushHistory pc,pcStuckCount := 1,lastPc := some pc} := by
  refine ⟨fun stuck => ?_,historyPushed counts.history pc,List.getLast?_concat.symm,fun _ is => ?_,?_⟩
  · rw [stuckAt,one] at stuck
    omega
  · exact Option.some.inj is ▸ one.symm
  · exact Nat.lt_of_lt_of_le Nat.one_lt_two (Nat.le_max_left _ _)

theorem pcLoopApart (d : Detector) (pc instruction : Word) : Apart d (d.checkPcLoop pc instruction).2 := by
  simp only [Detector.checkPcLoop]
  split
  · split
    · split <;> exact ⟨rfl,rfl,rfl,rfl⟩
    · exact ⟨rfl,rfl,rfl,rfl⟩
  · exact ⟨rfl,rfl,rfl,rfl⟩

theorem pcLoopSpec {pcs : List Word} {d : Detector} (counts : Counts d.config pcs d) (pc instruction : Word) :
    if stuckAt d.config pcs pc then (d.checkPcLoop pc instruction).1 = some (stuckError d.config pcs pc instruction)
    else (d.checkPcLoop pc instruction).1 = none ∧ Counts d.config (pcs ++ [pc]) (d.checkPcLoop pc instruction).2 := by
  rcases List.eq_nil_or_concat' pcs with rfl | ⟨before,last,rfl⟩
  · have absent : d.lastPc = none := counts.last
    obtain ⟨calm,after⟩ := firstOfRun counts ((streakAgain pc []).trans (by rw [streakNil]))
    rw [if_neg calm]
    simp only [Detector.checkPcLoop,absent]
    exact ⟨trivial,after⟩
  · have present : d.lastPc = some last := counts.last.trans List.getLast?_concat
    by_cases again : last = pc
    · subst again
      have count := counts.count last present
      have below := counts.below
      have run : streak (· == last) (before ++ [last]) = streak (· == last) before + 1 := streakAgain last before
      have more : streak (· == last) (before ++ [last] ++ [last]) = d.pcStuckCount + 1 := by rw [streakAgain,count]
      simp only [Detector.checkPcLoop,present,if_true,stuckAt,more]
      by_cases reached : max 2 d.config.pcStuckThreshold ≤ d.pcStuckCount + 1
      · have precise : max 2 d.config.pcStuckThreshold = d.pcStuckCount + 1 := by omega
        rw [if_pos reached,if_pos (by omega),stuckError,precise,historyPushed counts.history]
      · rw [if_neg reached,if_neg (by omega)]
        refine ⟨rfl,historyPushed counts.history last,List.getLast?_concat.symm,fun _ is => ?_,Nat.lt_of_not_le reached⟩
        exact Option.some.inj is ▸ more.symm
    · obtain ⟨calm,after⟩ := firstOfRun counts (by rw [streakAgain,streakChanged again] : streak (· == pc) _ = 1)
      simp only [Detector.checkPcLoop,present]
      rw [if_neg calm,if_neg again]
      exact ⟨rfl,after⟩

theorem beganNext (past : List Cycle) (c : Cycle) :
    began (past ++ [c]) = if c.instructionComplete then some c else some ((began past).getD c) := by
  rw [began,List.reverse_append,List.reverse_singleton,List.singleton_append,List.find?_cons,List.head?_append,began]
  cases c.instructionComplete with
  | true => rfl
  | false =>
    cases past.reverse.find? Cycle.instructionComplete with
    | some first => rfl
    | none => cases past <;> rfl

theorem completedNext (past : List Cycle) (c : Cycle) :
    completed (past ++ [c]) = if c.instructionComplete then completed past ++ [c.pc] else completed past := by
  rw [completed,List.filter_append,List.map_append,← completed,List.filter_singleton]
  cases c.instructionComplete with
  | true => rfl
  | false => exact List.append_nil _

theorem longSpec {first : Option Cycle} {d : Detector} (enabled : d.config.enableLongInstructionDetection = true)
    (tracks : Tracks first d) (c : Cycle) :
    (d.checkLong c).1 = first.bind (longError d.config · c) ∧ Tracks (some (first.getD c)) (d.checkLong c).2 := by
  cases first with
  | none =>
    have absent : d.currentInstructionPc = none := tracks.pc
    simp only [Detector.checkLong,enabled,absent,if_true]
    exact ⟨rfl,rfl,fun _ is => Option.some.inj is ▸ ⟨rfl,rfl⟩⟩
  | some first =>
    have present : d.currentInstructionPc = some first.pc := tracks.pc
    obtain ⟨word,start⟩ := tracks.rest first rfl
    simp only [Detector.checkLong,enabled,present,if_true,word,start,Option.bind_some,longError]
    split
    · exact ⟨rfl,tracks⟩
    · exact ⟨rfl,tracks⟩

structure Agrees (config : Config) (past : List Cycle) (d : Detector) : Prop where
  config : d.config = config
  counts : d.config.enablePcLoopDetection = true → Counts d.config (completed past) d
  tracks : d.config.enableLongInstructionDetection = true → Tracks (began past) d

theorem agreesReset (d : Detector) : Agrees d.config [] d.reset where
  config := rfl
  counts _ := ⟨(List.rtake_nil _).symm,rfl,nofun,Nat.lt_of_lt_of_le Nat.two_pos (Nat.le_max_left _ _)⟩
  tracks _ := ⟨rfl,nofun⟩

theorem longApart (d : Detector) (c : Cycle) :
    (d.checkLong c).2.config = d.config ∧ ∀ {config pcs}, Counts config pcs d → Counts config pcs (d.checkLong c).2 := by
  unfold Detector.checkLong
  split
  · split
    · simp only
      split <;> exact ⟨rfl,id⟩
    · exact ⟨rfl,fun counts => ⟨counts.history,counts.last,counts.count,counts.below⟩⟩
  · exact ⟨rfl,id⟩

theorem completedStep {past : List Cycle} {c : Cycle} {d : Detector} (complete : c.instructionComplete = true)
    (counts : d.config.enablePcLoopDetection = true → Counts d.config (completed past ++ [c.pc]) d)
    (idle : d.currentInstructionPc = none) : (d.checkLong c).1 = none ∧ Agrees d.config (past ++ [c]) (d.checkLong c).2 := by
  obtain ⟨config,kept⟩ := longApart d c
  have absent : d.config.enableLongInstructionDetection = true → Tracks none d := fun _ => ⟨idle,nofun⟩
  refine ⟨?_,config,fun enabled => ?_,fun enabled => ?_⟩
  · by_cases enabled : d.config.enableLongInstructionDetection = true
    · exact (longSpec enabled (absent enabled) c).1
    · rw [Detector.checkLong,if_neg enabled]
  · rw [config,completedNext,if_pos complete]
    exact kept (counts (config ▸ enabled))
  · rw [beganNext,if_pos complete]
    exact (longSpec (config ▸ enabled) (absent (config ▸ enabled)) c).2

theorem checkCycleSpec {past : List Cycle} {d : Detector} (agrees : Agrees d.config past d) (c : Cycle) :
    (d.checkCycle c).1 = verdict d.config past c ∧
      (verdict d.config past c = none → Agrees d.config (past ++ [c]) (d.checkCycle c).2) := by
  cases complete : c.instructionComplete with
  | false =>
    obtain ⟨config,kept⟩ := longApart d c
    have same : d.checkCycle c = d.checkLong c := by rw [Detector.checkCycle,complete,if_neg Bool.false_ne_true]
    rw [same,verdict,complete,if_neg Bool.false_ne_true]
    refine ⟨?_,fun _ => ⟨config,fun enabled => ?_,fun enabled => ?_⟩⟩
    · split
      · rename_i enabled
        exact (longSpec enabled (agrees.tracks enabled) c).1
      · rename_i disabled
        rw [Detector.checkLong,if_neg disabled]
    · rw [completedNext,complete,if_neg Bool.false_ne_true,config]
      exact kept (agrees.counts (config ▸ enabled))
    · rw [beganNext,complete,if_neg Bool.false_ne_true]
      exact (longSpec (config ▸ enabled) (agrees.tracks (config ▸ enabled)) c).2
  | true =>
    let idle : Detector := {d with currentInstructionPc := none,currentInstructionStartCycle := c.cycleCount}
    rw [Detector.checkCycle,if_pos complete,verdict,if_pos complete]
    by_cases enabled : d.config.enablePcLoopDetection = true
    · have counts : Counts idle.config (completed past) idle :=
        have old := agrees.counts enabled
        ⟨old.history,old.last,old.count,old.below⟩
      have apart := pcLoopApart idle c.pc c.instruction
      have spec := pcLoopSpec counts c.pc c.instruction
      simp only [enabled,true_and]
      change (match idle.checkPcLoop c.pc c.instruction with
        | (some error,d) => (some error,d)
        | (none,d) => d.checkLong c).1 = _ ∧ (_ → Agrees _ _ (match idle.checkPcLoop c.pc c.instruction with
        | (some error,d) => (some error,d)
        | (none,d) => d.checkLong c).2)
      generalize idle.checkPcLoop c.pc c.instruction = checked at apart spec
      obtain ⟨error,after⟩ := checked
      split at spec
      · rename_i stuck
        obtain rfl : error = _ := spec
        rw [if_pos stuck]
        exact ⟨rfl,nofun⟩
      · rename_i calm
        obtain ⟨absent,counted⟩ := spec
        obtain rfl : error = none := absent
        have config : after.config = d.config := apart.config
        obtain ⟨quiet,agreed⟩ := completedStep complete (fun _ => config ▸ counted) apart.pc
        rw [if_neg calm]
        exact ⟨quiet,fun _ => config ▸ agreed⟩
    · simp only [enabled]
      obtain ⟨quiet,agreed⟩ := @completedStep past _ idle complete (fun on => absurd on enabled) rfl
      exact ⟨quiet,fun _ => agreed⟩

def Quiet (config : Config) (cycles : List Cycle) : Prop :=
  ∀ k, (within : k < cycles.length) → verdict config (cycles.take k) (cycles.get ⟨k,within⟩) = none

instance (config : Config) (cycles : List Cycle) : Decidable (Quiet config cycles) :=
  inferInstanceAs (Decidable (∀ k, (_ : k < _) → _))

theorem quietBefore {config : Config} {cycles : List Cycle} {c : Cycle} (quiet : Quiet config (cycles ++ [c])) :
    Quiet config cycles ∧ verdict config cycles c = none := by
  have length : (cycles ++ [c]).length = cycles.length + 1 := List.length_append
  constructor
  · intro k within
    have here := quiet k (by omega)
    rw [List.take_append_of_le_length (Nat.le_of_lt within)] at here
    simpa [List.getElem_append_left within] using here
  · have here := quiet cycles.length (by omega)
    simpa using here

theorem seenReset (ops : List Op) : seen (ops ++ [.reset]) = [] := by
  rw [seen,List.rtakeWhile_concat_neg _ _ _ (by decide),List.filterMap_nil]

theorem seenCycle (ops : List Op) (cpuBooting halted : Bool) (c : Cycle) : seen (ops ++ [.stepCycle cpuBooting halted c]) =
    if cpuBooting || halted then seen ops else seen ops ++ [c] := by
  rw [seen,List.rtakeWhile_concat_pos _ _ _ (by simp),List.filterMap_append,← seen,List.filterMap_cons,Op.checked]
  cases cpuBooting || halted with
  | true => exact List.append_nil _
  | false => rfl

theorem checkCycleConfig (d : Detector) (c : Cycle) : (d.checkCycle c).2.config = d.config := by
  unfold Detector.checkCycle
  split
  · simp only
    split
    · have apart := pcLoopApart {d with currentInstructionPc := none,currentInstructionStartCycle := c.cycleCount} c.pc c.instruction
      generalize Detector.checkPcLoop _ _ _ = checked at apart ⊢
      obtain ⟨error,after⟩ := checked
      cases error with
      | some error => exact apart.config
      | none => exact (longApart after c).1.trans apart.config
    · exact (longApart _ c).1
  · exact (longApart d c).1

theorem nextConfig (d : Detector) (op : Op) : (machine.next d op).config = d.config := by
  cases op with
  | reset => rfl
  | stepCycle cpuBooting halted c =>
    show (if cpuBooting || halted then d else (d.checkCycle c).2).config = _
    split
    · rfl
    · exact checkCycleConfig d c

theorem configKept (d : Detector) (ops : List Op) : (machine.final d ops).config = d.config :=
  @invariant _ _ _ machine (fun d' => d'.config = d.config) (fun d' op same => (nextConfig d' op).trans same) _ rfl ops

theorem agreesRun (config : Config) {ops : List Op} (quiet : Quiet config (seen ops)) :
    Agrees config (seen ops) (machine.final (.new config) ops) := by
  induction ops using List.reverseRecOn with
  | nil => exact agreesReset (.new config)
  | append_singleton ops op ih =>
    have same : (machine.final (.new config) ops).config = config := configKept _ ops
    rw [finalAppend]
    cases op with
    | reset =>
      rw [seenReset]
      have reset := agreesReset (machine.final (.new config) ops)
      rw [same] at reset
      exact reset
    | stepCycle cpuBooting halted c =>
      rw [seenCycle] at quiet ⊢
      show Agrees _ _ (if cpuBooting || halted then _ else (Detector.checkCycle _ c).2)
      split at quiet
      · rename_i off
        rw [if_pos off,if_pos off]
        exact ih quiet
      · rename_i on
        rw [if_neg on,if_neg on]
        obtain ⟨before,calm⟩ := quietBefore quiet
        have step := (@checkCycleSpec (seen ops) (machine.final (.new config) ops) (by rw [same]; exact ih before) c).2
        rw [same] at step
        exact step calm

/- As long as no cycle since the last reset was reported, the report of the next is what the cycles before it tell: a PC that
has completed `pc_stuck_threshold` times in a row, or an instruction that has taken too many cycles since it began. -/
theorem reported (config : Config) {ops : List Op} (quiet : Quiet config (seen ops)) (c : Cycle) :
    machine.output (machine.final (.new config) ops) (.stepCycle false false c) = verdict config (seen ops) c := by
  have same : (machine.final (.new config) ops).config = config := configKept _ ops
  have spec := (@checkCycleSpec (seen ops) (machine.final (.new config) ops)
    (by rw [same]; exact agreesRun config quiet) c).1
  rw [same] at spec
  exact spec

/- The fourth completion of one PC, and the fifth cycle after it. -/
theorem reportedLoop :
    let here (pc : Word) (complete : Bool) (cycleCount : Nat) : Cycle := ⟨cycleCount,pc,0x6f,2,complete⟩
    let ops : List Op := [.stepCycle true false (here 0 true 0),.stepCycle false false (here 4 true 1),
      .stepCycle false false (here 8 true 2),.stepCycle false false (here 8 true 3),.stepCycle false false (here 8 true 4)]
    machine.output (machine.final (.new ⟨3,4,4,true,true⟩) ops) (.stepCycle false false (here 8 true 5)) =
        some (.pcStuck 8 0x6f 4 [8,8,8]) ∧
      machine.output (machine.final (.new ⟨3,4,4,true,true⟩) ops) (.stepCycle false false (here 9 false 9)) =
        some (.longInstruction 8 0x6f 5 2) :=
  ⟨(reported ⟨3,4,4,true,true⟩ (by decide) _).trans (by decide),(reported ⟨3,4,4,true,true⟩ (by decide) _).trans (by decide)⟩

end RiscvSoc.HungDetector
