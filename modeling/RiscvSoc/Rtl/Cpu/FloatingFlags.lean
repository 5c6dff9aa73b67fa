import RiscvSoc.Rtl.Cpu.Floating

/-! The accrued exception flags. They are sampled in the writeback, a cycle after the result; the flags
of a division are gone from the FPU by then. -/
namespace RiscvSoc.Core
open Mealy Machine

/- The flags that the FPU shows with a result, and those that `fcsr` takes. -/
inductive Flagged where
  | captured (flags : BitVec 5)
  | accrued (flags : BitVec 5)
  deriving DecidableEq, Repr

def Flagged.raised : Flagged → BitVec 5
  | .captured flags => flags
  | .accrued _ => 0
def Flagged.added : Flagged → BitVec 5
  | .captured _ => 0
  | .accrued flags => flags

def flagged (cfg : Config) (h : Floating) (i : Inputs) : List Flagged :=
  (if h.core.fpuOutWrite (h.given cfg i) then [.captured (h.given cfg i).fpuFflags] else []) ++
    if (h.core.csrInputs (h.given cfg i)).fpFflagsWe && cfg.enableF then [.accrued (h.given cfg i).fpuFflags] else []

def merged (flags : List (BitVec 5)) : BitVec 5 := flags.foldl (· ||| ·) 0

/- The flags of an execution: those added are those that the results of the instruction raised, and they
are all that changes `fcsr` outside a CSR instruction. -/
structure Accrues (cfg : Config) (h : Floating) (during : List Inputs) : Prop where
  added : merged (((floating cfg).history (flagged cfg) h during).map Flagged.added) =
    merged (((floating cfg).history (flagged cfg) h during).map Flagged.raised)
  fcsr : (floating cfg).Steps (fun t i => t.core.currentState ≠ .csr → (t.next cfg i).core.csr.fcsr =
    t.core.csr.fcsr.extractLsb' 5 27 ++
      (t.core.csr.fcsr.extractLsb' 0 5 ||| merged ((flagged cfg t i).map Flagged.added))) h during

def dividesNow (cfg : Config) (h : Floating) : Bool :=
  cfg.enableF && h.core.isInstructionValidReg && Decoder.isDivision h.core.irReg

/- Its operands go to the divider, and their quotient overflows. -/
def overflowing (cfg : Config) (h : Floating) : Bool :=
  let a := h.fpRegisters (Decoder.rs1 h.core.irReg)
  let b := h.fpRegisters (Decoder.rs2 h.core.irReg)
  dividesNow cfg h && (Fpu.divSetup a b).needsDiv && Fpu.divOverflows a b

theorem fcsrNext (cfg : Config) (s : Regs) (i : Inputs) (other : s.currentState ≠ .csr) :
    (s.next cfg i).csr.fcsr = if (s.csrInputs i).fpFflagsWe && cfg.enableF then
      s.csr.fcsr.extractLsb' 5 27 ++ (s.csr.fcsr.extractLsb' 0 5 ||| i.fpuFflags) else s.csr.fcsr := by
  have plain : (s.csrInputs i).isCsr = false := by simp [Regs.csrInputs,other]
  rw [csrNext]
  rcases Bool.eq_false_or_eq_true (s.csrTrapEntry i) with entry | entry
  · have early : s.currentState ≠ .writeback := by
      intro state
      simp [Regs.csrTrapEntry,state] at entry
    have entry' : (s.csrInputs i).trapEntry = true := entry
    have quiet : (s.csrInputs i).fpFflagsWe = false := by simp [Regs.csrInputs,early]
    simp [CsrFile.Regs.next,entry',quiet]
  · have entry' : (s.csrInputs i).trapEntry = false := entry
    rcases Bool.eq_false_or_eq_true s.csrTrapReturn with returns | returns
    · have early : s.currentState ≠ .writeback := by
        intro state
        simp [Regs.csrTrapReturn,state] at returns
      have trapReturn : (s.csrInputs i).trapReturn = true := returns
      have quiet : (s.csrInputs i).fpFflagsWe = false := by simp [Regs.csrInputs,early]
      simp [CsrFile.Regs.next,entry',trapReturn,quiet]
    · have trapReturn : (s.csrInputs i).trapReturn = false := returns
      rcases Bool.eq_false_or_eq_true ((s.csrInputs i).fpFflagsWe && cfg.enableF) with flags | quiet
      · simp only [CsrFile.Regs.next,entry',trapReturn,flags,Bool.false_eq_true,if_false,if_true]
        rfl
      · simp only [CsrFile.Regs.next,entry',trapReturn,quiet,plain,Bool.false_and,Bool.false_eq_true,if_false]

theorem flagsKept (fcsr : BitVec 32) : fcsr = fcsr.extractLsb' 5 27 ++ (fcsr.extractLsb' 0 5 ||| 0) := by
  apply BitVec.eq_of_getLsbD_eq
  intro k bound
  refine Eq.trans ?_ (BitVec.getLsbD_append (x := fcsr.extractLsb' 5 27) (y := fcsr.extractLsb' 0 5 ||| 0) (i := k)).symm
  by_cases low : k < 5
  · simp [low]
  · have same : 5 + (k - 5) = k := by omega
    have inside : k - 5 < 27 := by omega
    simp [low,same,inside]

variable {cfg : Config} {s h : Floating} {i : Inputs}

theorem fcsrAdds (other : h.core.currentState ≠ .csr) : (h.next cfg i).core.csr.fcsr =
    h.core.csr.fcsr.extractLsb' 5 27 ++
      (h.core.csr.fcsr.extractLsb' 0 5 ||| merged ((flagged cfg h i).map Flagged.added)) := by
  have after := fcsrNext cfg h.core (h.given cfg i) other
  rw [show (h.next cfg i).core = h.core.next cfg (h.given cfg i) from rfl,after]
  have captured : merged ((flagged cfg h i).map Flagged.added) =
      if (h.core.csrInputs (h.given cfg i)).fpFflagsWe && cfg.enableF then (h.given cfg i).fpuFflags else 0 := by
    simp only [flagged,List.map_append]
    split <;> split <;> simp [merged,Flagged.added]
  rw [captured]
  split
  · rfl
  · exact flagsKept _

/- The instruction that `s` begins to decode, before its writeback. -/
structure Underway (cfg : Config) (s h : Floating) : Prop extends Floats cfg h where
  ir : h.core.irReg = s.core.irReg
  fpRegisters : h.fpRegisters = s.fpRegisters
  validSince : h.core.isInstructionValidReg = true → s.core.isInstructionValidReg = true
  goes : h.core.currentState.going = true → h.core.isInstructionValidReg = true

inductive Accounts (cfg : Config) (s : Floating) : List Flagged → Floating → Prop where
  | underway {h : Floating} (u : Underway cfg s h) (busy : h.core.currentState.busy = true) (other : h.core.currentState ≠ .writeback)
      (divides : dividesNow cfg s = true → h.core.isInstructionValidReg = true ∧
        (h.core.currentState.prepares = true ∨ h.core.currentState = .execute)) : Accounts cfg s [] h
  | finishes {h : Floating} (f : Floats cfg h) (state : h.core.currentState = .writeback)
      (loads : h.core.fpResult = true → h.core.dec.isFpLoad = true) (divides : dividesNow cfg s = false) : Accounts cfg s [] h
  | captured {h : Floating} {raised shown : BitVec 5} (f : Floats cfg h) (state : h.core.currentState = .writeback)
      (result : h.core.fpResult = true) (now : ∀ i, (h.given cfg i).fpuFflags = shown)
      (same : shown = raised ↔ overflowing cfg s = false) : Accounts cfg s [.captured raised] h
  | ended {h : Floating} {log : List Flagged} (idle : h.core.currentState.busy = false)
      (same : merged (log.map Flagged.added) = merged (log.map Flagged.raised) ↔ overflowing cfg s = false) :
      Accounts cfg s log h

theorem notDividing (divides : dividesNow cfg s = false) : overflowing cfg s = false := by
  simp [overflowing,divides]

theorem dividesControl (f : Floats cfg h) (ir : h.core.irReg = s.core.irReg) (decoded : h.core.currentState.decoded = true)
    (divides : dividesNow cfg s = true) : cfg.enableF = true ∧ h.core.dec.opcode = Decoder.opFp ∧
      h.core.dec.toControl = Decoder.fpResult Decoder.fpuDiv := by
  simp only [dividesNow,Bool.and_eq_true] at divides
  have op : Decoder.opcode s.core.irReg = Decoder.opFp := by
    have division := divides.2
    simp only [Decoder.isDivision,Bool.and_eq_true,beq_iff_eq] at division
    exact division.1
  rw [f.decoded decoded,ir,divides.1.1]
  exact ⟨rfl,op,Decoder.divisionControl cfg.enableM divides.2⟩

theorem Underway.keeps (u : Underway cfg s h) (busy : h.core.currentState.busy = true)
    (other : h.core.currentState ≠ .writeback) (i : Inputs) :
    Underway cfg s (h.next cfg i) := by
  have fetches : h.core.currentState ≠ .fetch := by
    intro state
    rw [state] at busy
    contradiction
  have kept := irKept (i := h.given cfg i) fetches
  have valid : (h.next cfg i).core.isInstructionValidReg = if h.core.currentState = .decodeWait then
      h.core.isInstructionValidReg && h.core.dec.instructionValid else h.core.isInstructionValidReg := by
    simp [Floating.next,Regs.next,kept]
  refine ⟨floatsNext u.toFloats i,?_,by simp [Floating.next,other,u.fpRegisters],fun later => u.validSince ?_,fun going => ?_⟩
  · rw [← u.ir]
    simp [Floating.next,kept]
  · rw [valid] at later
    split at later
    · simp only [Bool.and_eq_true] at later
      exact later.1
    · exact later
  · rcases goingNext going with before | ⟨state,goes,_⟩
    · have early : h.core.currentState ≠ .decodeWait := by
        intro state
        rw [state] at before
        contradiction
      rw [valid,if_neg early]
      exact u.goes before
    · rw [valid,if_neg (by simp [state])]
      exact (noTrap goes).1

theorem flagsGiven (enabled : cfg.enableF = true) : (h.given cfg i).fpuFflags = Fpu.fflags h.fpu h.fpuInputs := by
  simp [Floating.given,enabled]

theorem Underway.operandsOf (u : Underway cfg s h) (state : h.core.currentState = .execute) (divides : dividesNow cfg s = true) :
    h.fpuInputs.fpuOp = .div ∧ h.fpuInputs.fs1 = s.fpRegisters (Decoder.rs1 s.core.irReg) ∧
      h.fpuInputs.fs2 = s.fpRegisters (Decoder.rs2 s.core.irReg) := by
  obtain ⟨enabled,_,control⟩ := dividesControl u.toFloats u.ir (by rw [state]; rfl) divides
  have field {α : Type} (get : Decoder.Control → α) : get h.core.dec.toControl = get (Decoder.fpResult Decoder.fpuDiv) := by
    rw [control]
  have result : h.core.fpResult = true := by
    rw [Regs.fpResult,field (·.fpRegWrite)]
    rfl
  obtain ⟨first,second⟩ := u.sources (by rw [state]; rfl) enabled result
  have registers : h.core.dec.rs1 = Decoder.rs1 s.core.irReg ∧ h.core.dec.rs2 = Decoder.rs2 s.core.irReg := by
    rw [u.decoded (by rw [state]; rfl),u.ir]
    exact ⟨rfl,rfl⟩
  have plain : h.core.dec.intToFp = false := field (·.intToFp)
  refine ⟨?_,?_,?_⟩
  · rw [Floating.fpuInputs,show h.core.dec.fpuOp = _ from field (·.fpuOp)]
    exact show Fpu.operation Decoder.fpuDiv = .div by decide
  · rw [Floating.fpuInputs,plain,if_neg Bool.false_ne_true,first,u.fpRegisters,registers.1]
  · rw [Floating.fpuInputs,second,u.fpRegisters,registers.2]

theorem overflows (divides : dividesNow cfg s = true) : overflowing cfg s =
    ((Fpu.divSetup (s.fpRegisters (Decoder.rs1 s.core.irReg)) (s.fpRegisters (Decoder.rs2 s.core.irReg))).needsDiv &&
      Fpu.divOverflows (s.fpRegisters (Decoder.rs1 s.core.irReg)) (s.fpRegisters (Decoder.rs2 s.core.irReg))) := by
  rw [overflowing,divides]
  rfl

theorem restsAnswered (u : Underway cfg s h) (state : h.core.currentState = .execute) (branch : h.core.dec.branch = false)
    (result : h.core.fpResult = true) (ready : Fpu.fpuReady h.fpu h.fpuInputs = true) (quiet : Fpu.Quiet h.fpu) :
    overflowing cfg s = false := by
  rcases Bool.eq_false_or_eq_true (dividesNow cfg s) with divides | absent
  · obtain ⟨op,first,second⟩ := u.operandsOf state divides
    rcases Bool.eq_false_or_eq_true h.core.fpuStartSent with sent | unsent
    · have busy := (u.dividing state sent).1.busy
      rw [quiet.free] at busy
      contradiction
    · have asked : h.fpuInputs.fpuStart = true := by
        simp [Floating.fpuInputs,Regs.fpuStart,state,branch,result,unsent]
      rcases Bool.eq_false_or_eq_true (Fpu.divStart h.fpuInputs) with start | other
      · rw [Fpu.startBusy quiet start] at ready
        contradiction
      · rw [Fpu.divStart,asked,op,first,second] at other
        rw [overflows divides,show (Fpu.divSetup _ _).needsDiv = false from other,Bool.false_and]
  · exact notDividing absent

theorem endsAnswered (u : Underway cfg s h) (state : h.core.currentState = .execute)
    (start : Fpu.divStart h.fpuInputs.begin = true) :
    Fpu.fflags Fpu.reset h.fpuInputs.hold = (Fpu.divAssemble h.fpuInputs.fs1 h.fpuInputs.fs2
      (Fpu.mantQuotient h.fpuInputs.fs1 h.fpuInputs.fs2)).flags ↔ overflowing cfg s = false := by
  obtain ⟨enabled,division,_⟩ := u.divides state start
  have divides : dividesNow cfg s = true := by
    rw [u.ir] at division
    simp [dividesNow,enabled,division,u.validSince (u.goes (by rw [state]; rfl))]
  obtain ⟨op,first,second⟩ := u.operandsOf state divides
  have needs : (Fpu.divSetup h.fpuInputs.fs1 h.fpuInputs.fs2).needsDiv = true := (Fpu.startParts start).2
  have setup : Fpu.fflags Fpu.reset h.fpuInputs.hold = 0 := by
    have flags : Fpu.fflags Fpu.reset h.fpuInputs.hold = (Fpu.divSetup h.fpuInputs.fs1 h.fpuInputs.fs2).flags := by
      rw [Fpu.fflags,show h.fpuInputs.hold.fpuOp = .div from op]
      rfl
    rw [flags,Fpu.setupNeeds needs]
  rw [setup,Fpu.assembledFlags needs,overflows divides,← first,← second,needs,Bool.true_and]
  cases Fpu.divOverflows h.fpuInputs.fs1 h.fpuInputs.fs2 <;> decide

theorem capturesOn (u : Underway cfg s h) (i : Inputs) (writes : h.core.fpuOutWrite (h.given cfg i) = true) :
    Accounts cfg s [.captured (h.given cfg i).fpuFflags] (h.next cfg i) := by
  simp only [Regs.fpuOutWrite,Bool.and_eq_true,beq_iff_eq,Bool.not_eq_true'] at writes
  obtain ⟨⟨⟨state,branch⟩,result⟩,ready⟩ := writes
  have enabled : cfg.enableF = true :=
    (u.floats (by rw [state]; rfl)).1.enabled (by simpa [Regs.fpResult] using result)
  have ends := fpuWaits (h.given cfg i) state (u.executing state) branch result
  rw [ready,if_pos rfl] at ends
  have dec : (h.next cfg i).core.dec = h.core.dec := decKept (by simp [state])
  have floats := floatsNext u.toFloats i
  have quiet : Fpu.Quiet (h.next cfg i).fpu := floats.resting.resolve_left fun waits => by
    rw [show (h.next cfg i).core.currentState = h.core.nextState (h.given cfg i) from rfl,ends] at waits
    exact absurd waits.1 (by decide)
  have shown (j : Inputs) : ((h.next cfg i).given cfg j).fpuFflags = Fpu.fflags Fpu.reset h.fpuInputs.hold := by
    rw [flagsGiven enabled,Fpu.fflagsFree quiet.free,inputsHeld state]
  refine .captured floats ends (by rw [Regs.fpResult,dec]; exact result) shown ?_
  rw [readyGiven enabled] at ready
  cases fpuSteps u.toFloats i with
  | rests before _ _ =>
    rw [flagsGiven enabled,Fpu.fflagsFree before.free]
    exact iff_of_true rfl (restsAnswered u state branch result ready before)
  | starts _ _ stays _ _ _ | divides _ stays _ _ _ =>
    rw [stays] at ends
    contradiction
  | ends _ _ start _ flags =>
    rw [flags]
    exact endsAnswered u state start

theorem silentFlags (other : h.core.currentState ≠ .writeback) (absent : h.core.fpuOutWrite (h.given cfg i) = false) :
    flagged cfg h i = [] := by
  have quiet : (h.core.csrInputs (h.given cfg i)).fpFflagsWe = false := by simp [Regs.csrInputs,other]
  simp [flagged,absent,quiet]

theorem dividesOn (u : Underway cfg s h) (divides : dividesNow cfg s = true) (valid : h.core.isInstructionValidReg = true)
    (place : h.core.currentState.prepares = true ∨ h.core.currentState = .execute) (i : Inputs)
    (absent : h.core.fpuOutWrite (h.given cfg i) = false) :
    (h.next cfg i).core.isInstructionValidReg = true ∧
      ((h.core.nextState (h.given cfg i)).prepares = true ∨ h.core.nextState (h.given cfg i) = .execute) := by
  have kept : h.core.irWrite (h.given cfg i) = false := by
    refine irKept fun state => ?_
    rw [state] at place
    rcases place with early | here <;> contradiction
  have control (decoded : h.core.currentState.decoded = true) := dividesControl u.toFloats u.ir decoded divides
  have legal : h.core.currentState = .decodeWait → h.core.dec.instructionValid = true := by
    intro state
    rw [(control (by rw [state]; rfl)).2.2]
    rfl
  have valid' : (h.next cfg i).core.isInstructionValidReg = true := by
    by_cases state : h.core.currentState = .decodeWait
    · simp [Floating.next,Regs.next,kept,state,valid,legal state]
    · simp [Floating.next,Regs.next,kept,state,valid]
  refine ⟨valid',?_⟩
  cases state : h.core.currentState with
  | decode | decodeWait | regRead =>
    left
    simp [Regs.nextState,state,State.prepares]
  | regReadWait =>
    right
    obtain ⟨_,op,plain⟩ := control (by rw [state]; rfl)
    have goes : h.core.syncTrapPending = false := by
      rw [Regs.syncTrapPending,valid,plain]
      rfl
    rw [Regs.nextState,state]
    simp only [goes,Bool.false_eq_true,if_false]
    rw [Regs.dispatch,op]
    rfl
  | execute =>
    right
    obtain ⟨_,_,plain⟩ := control (by rw [state]; rfl)
    have result : h.core.fpResult = true := by
      rw [Regs.fpResult,plain]
      rfl
    have branch : h.core.dec.branch = false := by
      rw [plain]
      rfl
    have waits : (h.given cfg i).fpuReady = false := by
      simpa [Regs.fpuOutWrite,state,result,branch] using absent
    rw [fpuWaits (h.given cfg i) state (u.executing state) branch result,waits]
    rfl
  | _ =>
    rw [state] at place
    rcases place with early | here <;> contradiction

theorem underwayOn (u : Underway cfg s h) (busy : h.core.currentState.busy = true) (other : h.core.currentState ≠ .writeback)
    (divides : dividesNow cfg s = true → h.core.isInstructionValidReg = true ∧
      (h.core.currentState.prepares = true ∨ h.core.currentState = .execute)) (i : Inputs)
    (absent : h.core.fpuOutWrite (h.given cfg i) = false) : Accounts cfg s [] (h.next cfg i) := by
  have on (divides' : dividesNow cfg s = true) := dividesOn u divides' (divides divides').1 (divides divides').2 i absent
  have state' : (h.next cfg i).core.currentState = h.core.nextState (h.given cfg i) := rfl
  by_cases ends : h.core.nextState (h.given cfg i) = .writeback
  · have undivided : dividesNow cfg s = false := by
      rcases Bool.eq_false_or_eq_true (dividesNow cfg s) with divides' | undivided
      · have later := (on divides').2
        rw [ends] at later
        rcases later with early | here <;> contradiction
      · exact undivided
    refine .finishes (floatsNext u.toFloats i) ends (fun result => ?_) undivided
    rcases writesNext ends with accesses | ⟨state,branch⟩
    · have dec : (h.next cfg i).core.dec = h.core.dec := decKept fun state => by
        rw [state] at accesses
        contradiction
      rw [Regs.fpResult,dec] at result
      rw [dec]
      exact u.accessing accesses result
    · have dec : (h.next cfg i).core.dec = h.core.dec := decKept (by simp [state])
      rw [Regs.fpResult,dec] at result
      have goes := fpuWaits (h.given cfg i) state (u.executing state) branch result
      have waits : (h.given cfg i).fpuReady = false := by
        simpa [Regs.fpuOutWrite,state,branch,show h.core.fpResult = true from result] using absent
      rw [waits,ends] at goes
      contradiction
  · rcases Bool.eq_false_or_eq_true (h.core.nextState (h.given cfg i)).busy with still | idle
    · exact .underway (u.keeps busy other i) still ends on
    · refine .ended idle (iff_of_true rfl ?_)
      rcases Bool.eq_false_or_eq_true (dividesNow cfg s) with divides' | undivided
      · have later := (on divides').2
        revert idle later
        cases h.core.nextState (h.given cfg i) <;> simp [State.prepares,State.busy]
      · exact notDividing undivided

theorem writebackFlags (f : Floats cfg h) (state : h.core.currentState = .writeback) (i : Inputs) :
    flagged cfg h i = (if h.core.fpResult then [.accrued (h.given cfg i).fpuFflags] else []) ∧
      (h.next cfg i).core.currentState = .fetch := by
  have absent : h.core.fpuOutWrite (h.given cfg i) = false := by simp [Regs.fpuOutWrite,state]
  have we : (h.core.csrInputs (h.given cfg i)).fpFflagsWe = h.core.fpResult := by simp [Regs.csrInputs,state]
  refine ⟨?_,by simp [Floating.next,Regs.nextState,state]⟩
  rcases Bool.eq_false_or_eq_true h.core.fpResult with result | plain
  · have enabled : cfg.enableF = true :=
      (f.floats (by rw [state]; rfl)).1.enabled (by simpa [Regs.fpResult] using result)
    simp [flagged,absent,we,result,enabled]
  · simp [flagged,absent,we,plain]

theorem loadFlags (f : Floats cfg h) (state : h.core.currentState = .writeback) (load : h.core.dec.isFpLoad = true)
    (i : Inputs) : (h.given cfg i).fpuFflags = 0 := by
  have op := ((f.floats (by rw [state]; rfl)).1.load load).2
  have adds : h.fpuInputs.fpuOp = .add := by
    rw [Floating.fpuInputs,op]
    exact show Fpu.operation Decoder.fpuAdd = .add by decide
  rw [Floating.given]
  simp only [Fpu.fflags,adds]
  split <;> rfl

theorem accountsOn {log : List Flagged} (accounts : Accounts cfg s log h) (i : Inputs)
    (busy : h.core.currentState.busy = true) : Accounts cfg s (log ++ flagged cfg h i) (h.next cfg i) := by
  cases accounts with
  | underway u _ other divides =>
    rcases Bool.eq_false_or_eq_true (h.core.fpuOutWrite (h.given cfg i)) with writes | absent
    · have shown : flagged cfg h i = [.captured (h.given cfg i).fpuFflags] := by
        have quiet : (h.core.csrInputs (h.given cfg i)).fpFflagsWe = false := by simp [Regs.csrInputs,other]
        simp [flagged,writes,quiet]
      rw [shown]
      exact capturesOn u i writes
    · rw [silentFlags other absent]
      exact underwayOn u busy other divides i absent
  | finishes f state loads divides =>
    obtain ⟨shown,ends⟩ := writebackFlags f state i
    refine .ended (by rw [ends]; rfl) (iff_of_true ?_ (notDividing divides))
    rw [shown]
    split
    · rename_i result
      rw [loadFlags f state (loads result) i]
      rfl
    · rfl
  | captured f state result now same =>
    obtain ⟨shown,ends⟩ := writebackFlags f state i
    refine .ended (by rw [ends]; rfl) (Iff.trans ?_ same)
    rw [shown,if_pos result,now]
    simp [merged,Flagged.added,Flagged.raised]
  | ended idle _ =>
    rw [idle] at busy
    contradiction

theorem floatsRun (cfg : Config) (h₀ : Floating) (before : List Inputs) : Floats cfg ((floating cfg).final h₀.reset before) :=
  @Machine.invariant Floating Inputs Outputs (floating cfg) (Floats cfg) (fun _ i f => floatsNext f i) _ (resetFloats h₀) before

theorem underwayFirst (f : Floats cfg h) (state : h.core.currentState = .decode) : Underway cfg h h :=
  ⟨f,rfl,rfl,fun valid => valid,fun going => by simp [state,State.going] at going⟩

theorem accountsFirst (f : Floats cfg h) (state : h.core.currentState = .decode) : Accounts cfg h [] h := by
  refine .underway (underwayFirst f state) (by rw [state]; rfl) (by simp [state]) fun divides => ⟨?_,.inl (by rw [state]; rfl)⟩
  simp only [dividesNow,Bool.and_eq_true] at divides
  exact divides.1.2

/- In every run from reset the flags that an instruction adds are those of its result, unless it is an FDIV
whose quotient overflows. -/
theorem flagsAccrued (cfg : Config) (h₀ : Floating) (before during : List Inputs)
    (state : ((floating cfg).final h₀.reset before).core.currentState = .decode)
    (executes : (floating cfg).Passes (fun t => t.core.currentState.busy) ((floating cfg).final h₀.reset before) during) :
    Accrues cfg ((floating cfg).final h₀.reset before) during ↔
      overflowing cfg ((floating cfg).final h₀.reset before) = false := by
  have floats := floatsRun cfg h₀ before
  generalize (floating cfg).final h₀.reset before = h at state executes floats ⊢
  have step (log : List Flagged) (t : Floating) (i : Inputs) (accounts : Accounts cfg h log t)
      (busy : t.core.currentState.busy = true) : Accounts cfg h (log ++ flagged cfg t i) (t.next cfg i) :=
    accountsOn accounts i busy
  have last := historyInvariant (m := floating cfg) step (accountsFirst floats state) executes.1
  have fcsr : (floating cfg).Steps (fun t i => t.core.currentState ≠ .csr → (t.next cfg i).core.csr.fcsr =
      t.core.csr.fcsr.extractLsb' 5 27 ++ (t.core.csr.fcsr.extractLsb' 0 5 |||
        merged ((flagged cfg t i).map Flagged.added))) h during := fun _ _ other => fcsrAdds other
  rw [List.nil_append] at last
  generalize flags : (floating cfg).history (flagged cfg) h during = log at last
  have ended : ((floating cfg).final h during).core.currentState.busy = false := executes.2
  have same : merged (log.map Flagged.added) = merged (log.map Flagged.raised) ↔ overflowing cfg h = false := by
    cases last with
    | underway _ busy _ _ =>
      rw [ended] at busy
      contradiction
    | finishes _ state _ _ | captured _ state _ _ _ =>
      rw [state] at ended
      contradiction
    | ended _ same => exact same
  rw [← same,← flags]
  exact ⟨fun accrues => accrues.added,fun added => ⟨added,fcsr⟩⟩

def Floating.drive (cfg : Config) (code : Code) : Nat → Floating → List Inputs
  | 0, _ => []
  | n + 1, h => respond code h.core :: Floating.drive cfg code n (h.next cfg (respond code h.core))

def scales : Floating :=
  ⟨{ (default : Regs) with bankA := ⟨fun r => if r = 1 then 0x7F000000 else 0x00800000,0,0⟩ },Fpu.reset,fun _ => 0,0,0,0⟩

/- `fdiv.s` of 0 by 0. -/
theorem invalidAccrued :
    let h := (floating ⟨true,true⟩).final scales.reset (Floating.drive ⟨true,true⟩ (program [0x180001D3]) 4 scales.reset)
    Accrues ⟨true,true⟩ h (Floating.drive ⟨true,true⟩ (program [0x180001D3]) 6 h) ↔ overflowing ⟨true,true⟩ h = false :=
  flagsAccrued ⟨true,true⟩ scales _ _ (by decide +kernel) (by decide +kernel)

theorem notAccrued {during : List Inputs} (lost : merged (((floating cfg).history (flagged cfg) h during).map Flagged.added) ≠
    merged (((floating cfg).history (flagged cfg) h during).map Flagged.raised)) : ¬ Accrues cfg h during :=
  fun accrues => lost accrues.added

/- `fmv.w.x` twice and `fdiv.s` of 2^127 by 2^-126: the result is infinite and no flag is set. -/
theorem overflowLost :
    let code := program [0xF00080D3,0xF0010153,0x182081D3]
    let h := (floating ⟨true,true⟩).final scales.reset (Floating.drive ⟨true,true⟩ code 22 scales.reset)
    let during := Floating.drive ⟨true,true⟩ code 57 h
    h.core.currentState = .decode ∧ (floating ⟨true,true⟩).Passes (fun t => t.core.currentState.busy) h during ∧
      ¬ Accrues ⟨true,true⟩ h during :=
  ⟨by decide +kernel,by decide +kernel,notAccrued (by decide +kernel)⟩

end RiscvSoc.Core
