import RiscvSoc.Rtl.Cpu.Execution
import RiscvSoc.Rtl.Fpu.DivisionFlags

/-! The CPU with its FPU and its FP registers. The FPU has the operands of the instruction in progress,
and it divides only while the instruction waits for it. -/
namespace RiscvSoc.Fpu

def operation (code : BitVec 5) : FpuOp :=
  if code = Decoder.fpuAdd then .add
  else if code = Decoder.fpuSub then .sub
  else if code = Decoder.fpuMul then .mul
  else if code = Decoder.fpuDiv then .div
  else if code = Decoder.fpuSqrt then .sqrt
  else if code = Decoder.fpuMin then .min
  else if code = Decoder.fpuMax then .max
  else if code = Decoder.fpuMadd then .madd
  else if code = Decoder.fpuMsub then .msub
  else if code = Decoder.fpuNmsub then .nmsub
  else if code = Decoder.fpuNmadd then .nmadd
  else if code = Decoder.fpuSgnj then .sgnj
  else if code = Decoder.fpuSgnjn then .sgnjn
  else if code = Decoder.fpuSgnjx then .sgnjx
  else if code = Decoder.fpuCvtws then .cvtws
  else if code = Decoder.fpuCvtwus then .cvtwus
  else if code = Decoder.fpuCvtsw then .cvtsw
  else if code = Decoder.fpuCvtswu then .cvtswu
  else if code = Decoder.fpuFeq then .feq
  else if code = Decoder.fpuFlt then .flt
  else if code = Decoder.fpuFle then .fle
  else if code = Decoder.fpuFclass then .fclass
  else if code = Decoder.fpuMvxw then .mvxw
  else if code = Decoder.fpuMvwx then .mvwx
  else .reserved

theorem operationDiv : ∀ code, operation code = .div → code = Decoder.fpuDiv := by decide

end RiscvSoc.Fpu

namespace RiscvSoc.Decoder

def isDivision (instruction : BitVec 32) : Bool := opcode instruction == opFp && funct7 instruction == 0b0001100

structure FloatingUse (w : BitVec 32) (enableF : Bool) (c : Control) : Prop where
  enabled : c.fpRegWrite = true ∨ c.fpToInt = true → enableF = true
  load : c.isFpLoad = true → opcode w = opLoadFp ∧ c.fpuOp = fpuAdd
  result : c.fpRegWrite = true ∨ c.fpToInt = true → c.isFpLoad = true ∨
    opcode w ∈ [opFp,opFmadd,opFmsub,opFnmsub,opFnmadd]
  divides : c.fpuOp = fpuDiv → isDivision w = true ∧ enableF = true ∧ c = fpResult fpuDiv

section FloatingUse
variable {w : BitVec 32} {enableM enableF : Bool} {c : Control}

theorem useIf {p : Prop} [Decidable p] {a b : Control} (yes : p → FloatingUse w enableF a)
    (no : ¬ p → FloatingUse w enableF b) : FloatingUse w enableF (if p then a else b) := by
  split
  · exact yes (by assumption)
  · exact no (by assumption)

structure Integral (c : Control) : Prop where
  results : c.fpRegWrite = false ∧ c.fpToInt = false
  load : c.isFpLoad = false
  fpuOp : c.fpuOp = fpuAdd

theorem Integral.use (integral : Integral c) : FloatingUse w enableF c where
  enabled h := by simp [integral.results] at h
  load h := by simp [integral.load] at h
  result h := by simp [integral.results] at h
  divides h := by
    rw [integral.fpuOp] at h
    exact absurd h (by decide)

theorem integralIf {p : Prop} [Decidable p] {a b : Control} (yes : Integral a) (no : Integral b) :
    Integral (if p then a else b) := by
  split
  · exact yes
  · exact no

structure Undivided (c : Control) : Prop where
  load : c.isFpLoad = false
  fpuOp : c.fpuOp ≠ fpuDiv

theorem Undivided.use (undivided : Undivided c) (op : opcode w ∈ [opFp,opFmadd,opFmsub,opFnmsub,opFnmadd]) :
    FloatingUse w true c where
  enabled _ := rfl
  load h := by simp [undivided.load] at h
  result _ := .inr op
  divides h := absurd h undivided.fpuOp

theorem floatingUse (op : opcode w = opFp) : FloatingUse w true (floating w) := by
  have among : opcode w ∈ [opFp,opFmadd,opFmsub,opFnmsub,opFnmadd] := by rw [op]; decide
  unfold floating
  iterate 3
    refine useIf (fun _ => Undivided.use ⟨rfl,by decide⟩ among) fun _ => ?_
  refine useIf (fun divides => ⟨fun _ => rfl,fun h => by simp [fpResult,Control.defaults] at h,fun _ => .inr among,
    fun _ => ⟨by simp [isDivision,op,divides],rfl,rfl⟩⟩) fun _ => ?_
  iterate 8
    refine useIf (fun _ => Undivided.use ⟨rfl,?_⟩ among) fun _ => ?_
    · simp only [fpResult,intResult]
      repeat' split
      all_goals decide
  exact Integral.use ⟨⟨rfl,rfl⟩,rfl,rfl⟩

theorem controlUse (w : BitVec 32) (enableM enableF : Bool) : FloatingUse w enableF (control w enableM enableF) := by
  have defaults : Integral Control.defaults := ⟨⟨rfl,rfl⟩,rfl,rfl⟩
  have registers : Integral (register w enableM) := by
    unfold register
    repeat' refine integralIf ?_ ?_
    all_goals exact ⟨⟨rfl,rfl⟩,rfl,rfl⟩
  have systems : Integral (system w) := by
    simp only [system]
    repeat' refine integralIf ?_ ?_
    all_goals exact ⟨⟨rfl,rfl⟩,rfl,rfl⟩
  have atomics : Integral (atomic w) := by
    refine integralIf ⟨⟨rfl,rfl⟩,rfl,rfl⟩ (integralIf ⟨⟨rfl,rfl⟩,rfl,rfl⟩ ?_)
    cases amoOp w <;> exact ⟨⟨rfl,rfl⟩,rfl,rfl⟩
  have fused {op : BitVec 5} (other : op ≠ fpuDiv) (among : opcode w ∈ [opFp,opFmadd,opFmsub,opFnmsub,opFnmadd]) :
      FloatingUse w enableF (if enableF then fpResult op else Control.defaults) := by
    cases enableF
    · exact defaults.use
    · exact Undivided.use ⟨rfl,other⟩ among
  simp only [control]
  refine useIf (fun _ => Integral.use ⟨⟨rfl,rfl⟩,rfl,rfl⟩) fun _ => ?_
  refine useIf (fun _ => registers.use) fun _ => ?_
  refine useIf (fun _ => Integral.use ⟨⟨rfl,rfl⟩,rfl,rfl⟩) fun _ => ?_
  refine useIf (fun load => ?_) fun _ => ?_
  · cases enableF
    · exact defaults.use
    · exact ⟨fun _ => rfl,fun _ => ⟨load,rfl⟩,fun _ => .inl rfl,fun h => absurd h (by decide)⟩
  refine useIf (fun _ => Integral.use ⟨⟨rfl,rfl⟩,rfl,rfl⟩) fun _ => ?_
  refine useIf (fun _ => (integralIf ⟨⟨rfl,rfl⟩,rfl,rfl⟩ defaults).use) fun _ => ?_
  iterate 6
    refine useIf (fun _ => Integral.use ⟨⟨rfl,rfl⟩,rfl,rfl⟩) fun _ => ?_
  refine useIf (fun _ => systems.use) fun _ => ?_
  refine useIf (fun _ => atomics.use) fun _ => ?_
  refine useIf (fun op => ?_) fun _ => ?_
  · cases enableF
    · exact defaults.use
    · exact floatingUse op
  refine useIf (fun op => fused (by decide) (by rw [op]; decide)) fun _ => ?_
  refine useIf (fun op => fused (by decide) (by rw [op]; decide)) fun _ => ?_
  refine useIf (fun op => fused (by decide) (by rw [op]; decide)) fun _ => ?_
  refine useIf (fun op => fused (by decide) (by rw [op]; decide)) fun _ => ?_
  exact Integral.use ⟨⟨rfl,rfl⟩,rfl,rfl⟩

theorem divisionControl (enableM : Bool) (division : isDivision w = true) : control w enableM true = fpResult fpuDiv := by
  simp only [isDivision,Bool.and_eq_true,beq_iff_eq] at division
  have floats : control w enableM true = floating w := by
    simp only [control,division.1]
    rfl
  rw [floats,floating,division.2]
  rfl

end FloatingUse

end RiscvSoc.Decoder

namespace RiscvSoc.Core
open Mealy Machine

structure Floating where
  core : Regs
  fpu : Fpu.Regs
  fpRegisters : BitVec 5 → BitVec 32
  faReg : BitVec 32
  fbReg : BitVec 32
  fcReg : BitVec 32

namespace Floating

def reset (h : Floating) : Floating := ⟨Core.reset h.core,Fpu.reset,fun _ => 0,0,0,0⟩

def fpuInputs (h : Floating) : Fpu.Inputs where
  fpuStart := h.core.fpuStart
  fs1 := if h.core.dec.intToFp then h.core.aReg else h.faReg
  fs2 := h.fbReg
  fs3 := h.fcReg
  intSrc := h.core.aReg
  fpuOp := Fpu.operation h.core.dec.fpuOp

/- The inputs of the CPU, with what the FPU and the FP registers answer; without the F extension they
are tied off. -/
def given (cfg : Config) (h : Floating) (i : Inputs) : Inputs :=
  {i with
    fpuFpResult := if cfg.enableF then Fpu.fpResult h.fpu h.fpuInputs else 0
    fpuIntResult := if cfg.enableF then Fpu.intResult h.fpuInputs else 0
    fpuFflags := if cfg.enableF then Fpu.fflags h.fpu h.fpuInputs else 0
    fpuReady := if cfg.enableF then Fpu.fpuReady h.fpu h.fpuInputs else true
    fs2Data := if cfg.enableF then h.fpRegisters h.core.dec.rs2 else 0}

def fdData (h : Floating) : BitVec 32 :=
  if h.core.dec.fpToInt then 0
  else if h.core.dec.isFpLoad then h.core.mdr
  else if h.core.dec.fpRegWrite then h.core.fpuOutReg
  else 0

def reads (h : Floating) : Bool := h.core.currentState == .regReadWait &&
  (h.core.dec.fpRegWrite || h.core.dec.fpToInt || h.core.dec.intToFp || h.core.dec.isFpStore)

def next (cfg : Config) (h : Floating) (i : Inputs) : Floating where
  core := h.core.next cfg (h.given cfg i)
  fpu := if cfg.enableF then Fpu.step h.fpu h.fpuInputs else h.fpu
  fpRegisters :=
    if cfg.enableF && h.core.currentState == .writeback && h.core.dec.fpRegWrite then
      Function.update h.fpRegisters h.core.dec.rd h.fdData
    else h.fpRegisters
  faReg := if cfg.enableF && h.reads then h.fpRegisters h.core.dec.rs1 else h.faReg
  fbReg := if cfg.enableF && h.reads then h.fpRegisters h.core.dec.rs2 else h.fbReg
  fcReg := if cfg.enableF && h.reads then h.fpRegisters (h.core.irReg.extractLsb' 27 5) else h.fcReg

end Floating

def floating (cfg : Config) : Machine Floating Inputs Outputs :=
  ⟨fun h i => h.core.outputs (h.given cfg i),Floating.next cfg⟩

/- The FPU is at rest unless the instruction in progress waits for a division, and its operands are those
of the instruction. -/
structure Floats (cfg : Config) (h : Floating) : Prop extends Supplied cfg h.core where
  executing : h.core.currentState = .execute → h.core.dec.isFpLoad = false
  accessing : h.core.currentState.accesses = true → h.core.fpResult = true → h.core.dec.isFpLoad = true
  sources : h.core.currentState.going = true → cfg.enableF = true → h.core.fpResult = true →
    h.faReg = h.fpRegisters h.core.dec.rs1 ∧ h.fbReg = h.fpRegisters h.core.dec.rs2
  resting : h.core.currentState = .execute ∧ h.core.fpuStartSent = true ∨ Fpu.Quiet h.fpu
  dividing : h.core.currentState = .execute → h.core.fpuStartSent = true →
    Fpu.Dividing h.fpuInputs.hold h.fpu ∧ Fpu.divStart h.fpuInputs.begin = true

variable {cfg : Config} {s : Regs} {h : Floating} {i : Inputs}

theorem Reached.floats (r : Reached cfg s) (decoded : s.currentState.decoded = true) :
    Decoder.FloatingUse s.irReg cfg.enableF s.dec.toControl ∧ s.dec.opcode = Decoder.opcode s.irReg := by
  rw [r.decoded decoded]
  exact ⟨Decoder.controlUse s.irReg cfg.enableM cfg.enableF,rfl⟩

theorem resetFloats (h : Floating) : Floats cfg h.reset where
  toSupplied := resetSupplied h.core
  executing state := by simp [Floating.reset,reset] at state
  accessing state := by simp [Floating.reset,reset,State.accesses] at state
  sources state := by simp [Floating.reset,reset,State.going] at state
  resting := .inr Fpu.quietReset
  dividing state := by simp [Floating.reset,reset] at state

theorem floatDispatch (use : Decoder.FloatingUse s.irReg cfg.enableF s.dec.toControl)
    (opcode : s.dec.opcode = Decoder.opcode s.irReg) :
    (s.dispatch = .execute → s.dec.isFpLoad = false) ∧
      (s.dispatch ≠ .execute → s.fpResult = true → s.dec.isFpLoad = true) := by
  constructor
  · intro executes
    rcases Bool.eq_false_or_eq_true s.dec.isFpLoad with load | other
    · rw [Regs.dispatch,opcode,(use.load load).1] at executes
      contradiction
    · exact other
  · intro other result
    rcases use.result (by simpa [Regs.fpResult] using result) with load | computes
    · exact load
    · refine absurd ?_ other
      rw [← opcode] at computes
      exact if_pos (List.mem_append_right [Decoder.opReg,Decoder.opImm,Decoder.opLui,Decoder.opAuipc,Decoder.opJal,
        Decoder.opJalr] computes)

theorem fpuWaits (i : Inputs) (state : s.currentState = .execute) (load : s.dec.isFpLoad = false)
    (branch : s.dec.branch = false) (result : s.fpResult = true) :
    s.nextState i = if i.fpuReady then .writeback else .execute := by
  simp only [Regs.nextState,state,branch,result,load]
  rfl

theorem executesNext (next : s.nextState i = .execute) :
    s.currentState = .execute ∨ s.currentState = .regReadWait ∧ s.nextState i = s.dispatch := by
  rcases goingNext (s := s) (i := i) (by rw [next]; rfl) with before | ⟨state,_,goes⟩
  · left
    cases state : s.currentState with
    | execute => rfl
    | writeback | branch | csr => simp [Regs.nextState,state] at next
    | memAddr | memRead | memWrite | atomicRmw =>
      simp only [Regs.nextState,state] at next
      repeat' split at next
      all_goals contradiction
    | boot | fetch | decode | decodeWait | regRead | regReadWait | halt => simp [state,State.going] at before
  · exact .inr ⟨state,goes⟩

theorem sourcesNext (f : Floats cfg h) (going : (h.next cfg i).core.currentState.going = true)
    (enabled : cfg.enableF = true) (result : (h.next cfg i).core.fpResult = true) :
    (h.next cfg i).faReg = (h.next cfg i).fpRegisters (h.next cfg i).core.dec.rs1 ∧
      (h.next cfg i).fbReg = (h.next cfg i).fpRegisters (h.next cfg i).core.dec.rs2 := by
  have other : h.core.currentState ≠ .writeback := by
    intro state
    simp [Floating.next,Regs.nextState,state,State.going] at going
  have registers : (h.next cfg i).fpRegisters = h.fpRegisters := by simp [Floating.next,other]
  rcases goingNext going with before | ⟨state,_⟩
  · have others : h.core.currentState ≠ .decode ∧ h.core.currentState ≠ .regReadWait := by
      refine ⟨?_,?_⟩ <;> intro state <;> rw [state] at before <;> contradiction
    have dec : (h.next cfg i).core.dec = h.core.dec := decKept others.1
    have kept : (h.next cfg i).faReg = h.faReg ∧ (h.next cfg i).fbReg = h.fbReg := by
      simp [Floating.next,Floating.reads,others.2]
    rw [Regs.fpResult,dec] at result
    rw [registers,dec,kept.1,kept.2]
    exact f.sources before enabled result
  · have dec : (h.next cfg i).core.dec = h.core.dec := decKept (by simp [state])
    rw [Regs.fpResult,dec] at result
    have reads : h.reads = true := by
      simp only [Floating.reads,state,result,Bool.true_or]
      rfl
    rw [registers,dec]
    simp [Floating.next,enabled,reads]

theorem readyGiven (enabled : cfg.enableF = true) : (h.given cfg i).fpuReady = Fpu.fpuReady h.fpu h.fpuInputs := by
  simp [Floating.given,enabled]

theorem fpuNext (enabled : cfg.enableF = true) : (h.next cfg i).fpu = Fpu.step h.fpu h.fpuInputs := by
  simp [Floating.next,enabled]

theorem inputsHeld (state : h.core.currentState = .execute) :
    (h.next cfg i).fpuInputs.hold = h.fpuInputs.hold := by
  have dec : (h.next cfg i).core.dec = h.core.dec := decKept (by simp [state])
  have a : (h.next cfg i).core.aReg = h.core.aReg := (operandsKept (by simp [state])).1
  have kept : (h.next cfg i).faReg = h.faReg ∧ (h.next cfg i).fbReg = h.fbReg ∧ (h.next cfg i).fcReg = h.fcReg := by
    simp [Floating.next,Floating.reads,state]
  simp only [Floating.fpuInputs,Fpu.Inputs.hold,dec,a,kept]

theorem Floats.divides (f : Floats cfg h) (state : h.core.currentState = .execute)
    (start : Fpu.divStart h.fpuInputs.begin = true) : cfg.enableF = true ∧
      Decoder.isDivision h.core.irReg = true ∧ h.core.dec.toControl = Decoder.fpResult Decoder.fpuDiv := by
  have use := (f.floats (by rw [state]; rfl)).1
  have op := Fpu.operationDiv _ (Fpu.startParts start).1
  obtain ⟨division,enabled,control⟩ := use.divides op
  exact ⟨enabled,division,control⟩

theorem fpuStarts (start : s.fpuStart = true) : s.currentState = .execute ∧ s.dec.branch = false ∧ s.fpResult = true ∧
    s.fpuStartSent = false := by
  simp only [Regs.fpuStart,Bool.and_eq_true,beq_iff_eq,Bool.not_eq_true'] at start
  exact ⟨start.1.1.1,start.1.1.2,start.1.2,start.2⟩

inductive FpuStep (cfg : Config) (h : Floating) (i : Inputs) : Prop where
  | rests (before : Fpu.Quiet h.fpu) (after : Fpu.Quiet (h.next cfg i).fpu)
      (leaves : (h.next cfg i).core.currentState = .execute → (h.next cfg i).core.fpuStartSent = false)
  | starts (before : Fpu.Quiet h.fpu) (state : h.core.currentState = .execute) (stays : h.core.nextState (h.given cfg i) = .execute)
      (sent : (h.next cfg i).core.fpuStartSent = true) (start : Fpu.divStart h.fpuInputs.begin = true)
      (dividing : Fpu.Dividing h.fpuInputs.hold (h.next cfg i).fpu)
  | divides (state : h.core.currentState = .execute) (stays : h.core.nextState (h.given cfg i) = .execute)
      (sent : (h.next cfg i).core.fpuStartSent = true) (start : Fpu.divStart h.fpuInputs.begin = true)
      (dividing : Fpu.Dividing h.fpuInputs.hold (h.next cfg i).fpu)
  | ends (state : h.core.currentState = .execute) (leaves : h.core.nextState (h.given cfg i) = .writeback)
      (start : Fpu.divStart h.fpuInputs.begin = true) (after : Fpu.Quiet (h.next cfg i).fpu)
      (flags : (h.given cfg i).fpuFflags = (Fpu.divAssemble h.fpuInputs.fs1 h.fpuInputs.fs2
        (Fpu.mantQuotient h.fpuInputs.fs1 h.fpuInputs.fs2)).flags)

theorem fpuSteps (f : Floats cfg h) (i : Inputs) : FpuStep cfg h i := by
  by_cases waits : h.core.currentState = .execute ∧ h.core.fpuStartSent = true
  · obtain ⟨state,sent⟩ := waits
    obtain ⟨dividing,start⟩ := f.dividing state sent
    obtain ⟨enabled,_,control⟩ := f.divides state start
    have low : h.fpuInputs.hold = h.fpuInputs := by
      simp [Floating.fpuInputs,Fpu.Inputs.hold,Regs.fpuStart,sent]
    have field {α : Type} (get : Decoder.Control → α) : get h.core.dec.toControl = get (Decoder.fpResult Decoder.fpuDiv) := by
      rw [control]
    have goes := fpuWaits (h.given cfg i) state (field (·.isFpLoad)) (field (·.branch))
      (by rw [Regs.fpResult,field (·.fpRegWrite)]; rfl)
    rw [readyGiven enabled] at goes
    rcases Bool.eq_false_or_eq_true (Fpu.fpuReady h.fpu h.fpuInputs) with ready | waits
    · rw [← low] at ready
      obtain ⟨quiet,flags⟩ := Fpu.dividingEnds dividing ready (Fpu.startParts start).1
      rw [low] at quiet flags ready
      refine .ends state (by rw [goes,if_pos ready]) start (by rw [fpuNext enabled]; exact quiet) ?_
      rw [← flags,Floating.given]
      simp only [enabled,if_true]
    · have dividing' : Fpu.Dividing h.fpuInputs.hold (h.next cfg i).fpu := by
        have on := Fpu.dividingNext dividing (by rw [low]; exact waits)
        rwa [show Fpu.step h.fpu h.fpuInputs.hold = (h.next cfg i).fpu by rw [fpuNext enabled,low]] at on
      exact .divides state (by rw [goes,if_neg (by simp [waits])]) (by simp [Floating.next,Regs.next,state,sent]) start dividing'
  · have quiet : Fpu.Quiet h.fpu := f.resting.resolve_left waits
    rcases Bool.eq_false_or_eq_true cfg.enableF with enabled | disabled
    · rcases Bool.eq_false_or_eq_true (Fpu.divStart h.fpuInputs) with start | other
      · have asked : h.core.fpuStart = true := by
          simp only [Fpu.divStart,Bool.and_eq_true] at start
          exact start.1.1
        obtain ⟨state,branch,result,_⟩ := fpuStarts asked
        have goes := fpuWaits (h.given cfg i) state (f.executing state) branch result
        rw [readyGiven enabled,Fpu.startBusy quiet start] at goes
        have begun : h.fpuInputs.begin = h.fpuInputs := by simp [Floating.fpuInputs,Fpu.Inputs.begin,asked]
        refine .starts quiet state goes ?_ (by rw [begun]; exact start) ?_
        · simp [Floating.next,Regs.next,state,asked]
        · rw [fpuNext enabled]
          exact Fpu.dividingFirst quiet start
      · refine .rests quiet (by rw [fpuNext enabled]; exact Fpu.quietStep quiet other) fun stays => ?_
        rcases Bool.eq_false_or_eq_true h.core.fpuStart with asked | silent
        · obtain ⟨state,branch,result,_⟩ := fpuStarts asked
          have goes := fpuWaits (h.given cfg i) state (f.executing state) branch result
          rw [readyGiven enabled,Fpu.otherReady quiet other,if_pos rfl] at goes
          rw [show (h.next cfg i).core.currentState = h.core.nextState (h.given cfg i) from rfl,goes] at stays
          contradiction
        · have sent : (h.next cfg i).core.fpuStartSent = (h.core.currentState == .execute &&
              (h.core.fpuStartSent || h.core.fpuStart)) := rfl
          rw [sent,silent,Bool.or_false]
          rcases Bool.eq_false_or_eq_true h.core.fpuStartSent with before | before
          · have other : h.core.currentState ≠ .execute := fun state => waits ⟨state,before⟩
            simp [other]
          · simp [before]
    · have same : (h.next cfg i).fpu = h.fpu := by simp [Floating.next,disabled]
      refine .rests quiet (by rw [same]; exact quiet) fun _ => ?_
      have sent : (h.next cfg i).core.fpuStartSent = (h.core.currentState == .execute &&
          (h.core.fpuStartSent || h.core.fpuStart)) := rfl
      rw [sent]
      by_cases state : h.core.currentState = .execute
      · have use := (f.floats (by rw [state]; rfl)).1
        have plain : h.core.fpResult = false := by
          rcases Bool.eq_false_or_eq_true h.core.fpResult with result | plain
          · have enabled := use.enabled (by simpa [Regs.fpResult] using result)
            rw [disabled] at enabled
            contradiction
          · exact plain
        have before : h.core.fpuStartSent = false := by
          rcases Bool.eq_false_or_eq_true h.core.fpuStartSent with before | before
          · exact absurd ⟨state,before⟩ waits
          · exact before
        simp [before,Regs.fpuStart,plain]
      · simp [state]

theorem floatsNext (f : Floats cfg h) (i : Inputs) : Floats cfg (h.next cfg i) where
  toSupplied := suppliedNext f.toSupplied (h.given cfg i)
  executing state := by
    rcases executesNext state with before | ⟨waits,goes⟩
    · rw [show (h.next cfg i).core.dec = h.core.dec from decKept (by simp [before])]
      exact f.executing before
    · obtain ⟨use,opcode⟩ := f.floats (by rw [waits]; rfl)
      rw [show (h.next cfg i).core.dec = h.core.dec from decKept (by simp [waits])]
      exact (floatDispatch use opcode).1 (goes.symm.trans state)
  accessing state result := by
    rcases accessesNext state with before | ⟨waits,goes⟩
    · have other : h.core.currentState ≠ .decode := by
        intro same
        rw [same] at before
        contradiction
      rw [Regs.fpResult,show (h.next cfg i).core.dec = h.core.dec from decKept other] at result
      rw [show (h.next cfg i).core.dec = h.core.dec from decKept other]
      exact f.accessing before result
    · obtain ⟨use,opcode⟩ := f.floats (by rw [waits]; rfl)
      have dec : (h.next cfg i).core.dec = h.core.dec := decKept (by simp [waits])
      rw [Regs.fpResult,dec] at result
      rw [dec]
      refine (floatDispatch use opcode).2 (fun executes => ?_) result
      rw [show (h.next cfg i).core.currentState = h.core.nextState (h.given cfg i) from rfl,goes,executes] at state
      contradiction
  sources going enabled result := sourcesNext f going enabled result
  resting := by
    cases fpuSteps f i with
    | rests _ after _ => exact .inr after
    | starts _ _ stays sent _ _ => exact .inl ⟨stays,sent⟩
    | divides _ stays sent _ _ => exact .inl ⟨stays,sent⟩
    | ends _ _ _ after _ => exact .inr after
  dividing state sent := by
    cases fpuSteps f i with
    | rests _ _ leaves =>
      rw [leaves state] at sent
      contradiction
    | starts _ before _ _ start dividing | divides before _ _ start dividing =>
      have held : (h.next cfg i).fpuInputs.hold = h.fpuInputs.hold := inputsHeld before
      refine ⟨by rw [held]; exact dividing,?_⟩
      rw [show (h.next cfg i).fpuInputs.begin = (h.next cfg i).fpuInputs.hold.begin from rfl,held]
      exact start
    | ends _ leaves _ _ _ =>
      rw [show (h.next cfg i).core.currentState = h.core.nextState (h.given cfg i) from rfl,leaves] at state
      contradiction

end RiscvSoc.Core
