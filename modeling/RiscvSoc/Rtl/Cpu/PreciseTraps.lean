import RiscvSoc.Rtl.Cpu.ControlFlow
import RiscvSoc.Rtl.Cpu.Reservation

/-! Traps and interrupts. An instruction completes or traps, in program order; an interrupt comes
between two instructions, and mepc is the address at which the program goes on. -/
namespace RiscvSoc.CsrFile

def aligned (a : BitVec 32) : Prop := a.getLsbD 0 = false

instance (a : BitVec 32) : Decidable (aligned a) := inferInstanceAs (Decidable (_ = _))

theorem alignedZero : aligned 0 := by decide

theorem alignedMask (a : BitVec 32) : aligned (a &&& ~~~1) := by simp [aligned]

theorem alignedMtvec (a : BitVec 32) : aligned (sanitizeMtvec a) := by
  rw [aligned,sanitizeMtvec,BitVec.getLsbD_append]
  rfl

theorem alignedAdd {a b : BitVec 32} (left : aligned a) (right : aligned b) : aligned (a + b) := by
  unfold aligned at left right ⊢
  rw [BitVec.getLsbD_add (by decide),left,right]
  simp

theorem sanitizeAligned {a : BitVec 32} (even : aligned a) : sanitizeMepc a = a := by
  apply BitVec.eq_of_getLsbD_eq
  intro k inside
  rw [sanitizeMepc,BitVec.getLsbD_and,BitVec.getLsbD_not,show (1 : BitVec 32) = 1#32 from rfl,BitVec.getLsbD_one]
  cases k with
  | zero => simpa using even.symm
  | succ k => simp [inside]

theorem withBitSame (value : BitVec 32) {k : Nat} (b : Bool) (inside : k < 32) : (withBit value k b).getLsbD k = b := by
  cases b <;> simp [withBit,inside]

theorem withBitOther (value : BitVec 32) {k j : Nat} (b : Bool) (other : j ≠ k) :
    (withBit value k b).getLsbD j = value.getLsbD j := by
  have bit : (1#32 <<< k).getLsbD j = false := by
    rw [BitVec.getLsbD_shiftLeft,BitVec.getLsbD_one]
    by_cases before : j < k
    · simp [before]
    · have after : j - k ≠ 0 := by omega
      simp [after]
  by_cases inside : j < 32
  · cases b
    · rw [withBit,if_neg Bool.false_ne_true,BitVec.getLsbD_and,BitVec.getLsbD_not,bit]
      simp [inside]
    · rw [withBit,if_pos rfl,BitVec.getLsbD_or,bit,Bool.or_false]
  · rw [BitVec.getLsbD_of_ge _ _ (by omega),BitVec.getLsbD_of_ge _ _ (by omega)]

namespace Regs
variable {s : Regs} {enableM enableF : Bool} {i : Inputs}

theorem enters (entry : i.trapEntry = true) : (s.next enableM enableF i).mepc = sanitizeMepc i.trapMepcIn ∧
    (s.next enableM enableF i).mpieBit = s.mieBit ∧ (s.next enableM enableF i).mieBit = false := by
  simp only [next,entry,if_true,mpieBit,mieBit]
  refine ⟨trivial,?_,withBitSame _ _ (by decide)⟩
  rw [withBitOther _ _ (by decide)]
  exact withBitSame _ _ (by decide)

theorem returns (entry : i.trapEntry = false) (returning : i.trapReturn = true) :
    (s.next enableM enableF i).mieBit = s.mpieBit := by
  simp only [next,entry,returning,Bool.false_eq_true,if_false,if_true,mpieBit,mieBit]
  rw [withBitOther _ _ (by decide)]
  exact withBitSame _ _ (by decide)

structure Aligned (s : Regs) : Prop where
  mtvec : aligned s.mtvec
  mepc : aligned s.mepc

theorem alignedIf {p : Prop} [Decidable p] {a b : Regs} (yes : Aligned a) (no : Aligned b) : Aligned (if p then a else b) := by
  split
  · exact yes
  · exact no

theorem writtenAligned (h : Aligned s) : Aligned (s.written enableF i) := by
  obtain ⟨mtvec,mepc⟩ := h
  simp only [written]
  repeat' refine alignedIf ?_ ?_
  all_goals first
    | exact ⟨mtvec,mepc⟩
    | exact ⟨alignedMtvec _,mepc⟩
    | exact ⟨mtvec,alignedMask _⟩

theorem Aligned.next (h : Aligned s) : Aligned (s.next enableM enableF i) := by
  obtain ⟨mtvec,mepc⟩ := h
  have written := @writtenAligned _ enableF i ⟨mtvec,mepc⟩
  exact alignedIf ⟨mtvec,alignedMask _⟩ (alignedIf ⟨mtvec,mepc⟩ (alignedIf ⟨mtvec,mepc⟩
    (alignedIf ⟨written.mtvec,written.mepc⟩ ⟨mtvec,mepc⟩)))

end Regs
end RiscvSoc.CsrFile

namespace RiscvSoc.Core
open Mealy Machine CsrFile

def State.prepares : State → Bool
  | .decode | .decodeWait | .regRead | .regReadWait => true
  | _ => false

namespace Regs

def issues (s : Regs) (i : Inputs) : Bool := s.currentState == .fetch && s.nextState i == .decode

def traps (s : Regs) : Bool := s.currentState == .regReadWait && s.syncTrapPending

def writes (s : Regs) (i : Inputs) : Bool :=
  s.regWe || s.currentState == .writeback && s.dec.fpRegWrite || (s.csrInputs i).isCsr || (s.csrInputs i).fpFflagsWe ||
    s.memAHandshake i && (s.access i).we

end Regs

/- The CPU, the address of the next instruction of the program, and whether the instruction in
progress has written anything. -/
structure Tracing where
  core : Regs
  upcoming : BitVec 32
  wrote : Bool

def upcomingNext (s : Regs) (i : Inputs) (upcoming : BitVec 32) : BitVec 32 :=
  if s.currentState = .boot then if i.boot && !i.reqHalt then i.bootAddr else upcoming
  else if s.csrTrapEntry i then s.csr.mtvec
  else if s.instrCompleteInternal i then s.successor
  else upcoming

def Tracing.next (cfg : Config) (h : Tracing) (i : Inputs) : Tracing where
  core := h.core.next cfg i
  upcoming := upcomingNext h.core i h.upcoming
  wrote := !h.core.issues i && (h.wrote || h.core.writes i)

def tracing (cfg : Config) : Machine Tracing Inputs Outputs := ⟨fun h i => h.core.outputs i,Tracing.next cfg⟩

inductive Outcome where
  | completed
  | trapped
  deriving DecidableEq, Repr

/- The instructions that begin, those that end, and the one in progress, by their addresses. -/
def issued (h : Tracing) (i : Inputs) : List (BitVec 32) := if h.core.issues i then [h.core.pc] else []
def ended (h : Tracing) (i : Inputs) : List (BitVec 32 × Outcome) :=
  (if h.core.instrCompleteInternal i then [(h.core.instrPcReg,.completed)] else []) ++
    if h.core.traps then [(h.core.instrPcReg,.trapped)] else []
def inProgress (h : Tracing) : List (BitVec 32) := if h.core.currentState.busy then [h.core.instrPcReg] else []

/- No SC.W has its access answered, and the CPU boots from an even address. -/
def Single (h : Tracing) (i : Inputs) : Prop :=
  (h.core.currentState = .memWrite → h.core.dmemReady i = true → h.core.dec.isSc = false) ∧
    (h.core.currentState = .boot → i.boot = true → aligned i.bootAddr)

instance (h : Tracing) (i : Inputs) : Decidable (Single h i) :=
  inferInstanceAs (Decidable ((_ = _ → _ = _ → _ = _) ∧ (_ = _ → _ = _ → aligned _)))

structure Tracked (cfg : Config) (h : Tracing) : Prop extends Sequenced cfg h.core where
  upcoming : h.core.pc = h.upcoming
  silent : h.core.currentState.prepares = true → h.wrote = false
  pc : aligned h.core.pc
  instrPc : aligned h.core.instrPcReg
  instrPcNext : aligned h.core.instrPcNextReg
  target : aligned h.core.controlTargetReg
  csr : h.core.csr.Aligned

variable {cfg : Config} {s : Regs} {i : Inputs} {h : Tracing}

theorem pcWrites (booted : s.currentState ≠ .boot) : s.pcWrite i = (s.csrTrapEntry i || s.instrCompleteInternal i) := by
  cases state : s.currentState with
  | boot => exact absurd state booted
  | _ => simp [Regs.pcWrite,Regs.csrTrapEntry,Regs.instrCompleteInternal,state]

theorem upcomingStep (q : Sequenced cfg s) (upcoming : BitVec 32) (same : s.pc = upcoming) :
    (s.next cfg i).pc = upcomingNext s i upcoming := by
  by_cases boot : s.currentState = .boot
  · rw [pcNext,upcomingNext,if_pos boot]
    simp [Regs.pcWrite,Regs.nextPcValue,boot,same]
  · rw [upcomingNext,if_neg boot]
    rcases Bool.eq_false_or_eq_true (s.csrTrapEntry i) with entry | absent
    · rw [pcNext,pcWrites boot,entry]
      simp [Regs.nextPcValue,boot,entry]
    · rw [absent,if_neg Bool.false_ne_true]
      rcases Bool.eq_false_or_eq_true (s.instrCompleteInternal i) with completes | goesOn
      · rw [completes,if_pos rfl]
        exact completed q completes
      · rw [goesOn,if_neg Bool.false_ne_true,pcNext,pcWrites boot,absent,goesOn]
        exact same

theorem issuesLatched (begins : s.issues i = true) : s.irWrite i = true := by
  simp only [Regs.issues,Bool.and_eq_true,beq_iff_eq] at begins
  obtain ⟨state,next⟩ := begins
  simp only [Regs.nextState,state] at next
  have quiet : ¬ (s.interruptTaken i || s.wfiActive) = true := fun waits => by
    rw [if_pos waits] at next
    split at next <;> contradiction
  have staged : s.imemReady = true := by
    rcases Bool.eq_false_or_eq_true s.imemReady with staged | absent
    · exact staged
    · rw [if_neg quiet,absent] at next
      split at next <;> contradiction
  simp only [Bool.not_eq_true,Bool.or_eq_false_iff] at quiet
  simp [Regs.irWrite,state,quiet,staged]

theorem endsBusy (ends : s.instrCompleteInternal i = true ∨ s.traps = true) : s.currentState.busy = true := by
  cases state : s.currentState with
  | boot | fetch | halt => simp [Regs.instrCompleteInternal,Regs.traps,state] at ends
  | _ => rfl

theorem endsEither (completes : s.instrCompleteInternal i = true) : s.traps = false := by
  cases state : s.currentState with
  | regReadWait =>
    simp only [Regs.instrCompleteInternal,Regs.completesEarly,state,Bool.and_eq_true,Bool.not_eq_true'] at completes
    simp [Regs.traps,state,completes.1]
  | _ => simp [Regs.traps,state]

theorem busyStep (r : Reached cfg s) (plain : s.currentState = .memWrite → s.dmemReady i = true → s.dec.isSc = false) :
    (s.nextState i).busy = true ↔
      s.issues i = true ∨ s.currentState.busy = true ∧ s.instrCompleteInternal i = false ∧ s.traps = false := by
  cases state : s.currentState with
  | boot | halt | memAddr | memRead | execute | atomicRmw =>
    simp only [Regs.issues,Regs.instrCompleteInternal,Regs.traps,Regs.nextState,state]
    repeat' split
    all_goals simp [State.busy]
  | fetch =>
    simp only [Regs.issues,Regs.nextState,state]
    repeat' split
    all_goals simp [State.busy]
  | decode | decodeWait | regRead | csr | writeback | branch =>
    simp [Regs.issues,Regs.instrCompleteInternal,Regs.traps,Regs.nextState,state,State.busy]
  | memWrite =>
    simp only [Regs.issues,Regs.instrCompleteInternal,Regs.traps,Regs.nextState,state]
    rcases Bool.eq_false_or_eq_true (s.dmemReady i) with ready | waits
    · simp [ready,plain state ready,State.busy]
    · simp [waits,State.busy]
  | regReadWait =>
    simp only [Regs.issues,Regs.instrCompleteInternal,Regs.traps,Regs.nextState,state]
    rcases Bool.eq_false_or_eq_true s.syncTrapPending with trap | goes
    · simp [trap,State.busy]
    · obtain ⟨on,early⟩ := dispatched r state goes
      have there : s.dispatch.busy = true ↔ s.completesEarly = false := by
        rw [Bool.eq_false_iff,ne_eq,← early]
        have left : s.dispatch ≠ .boot := by
          simp only [Regs.dispatch]
          repeat' split
          all_goals simp
        cases goal : s.dispatch with
        | boot => exact absurd goal left
        | halt => exact absurd goal on
        | _ => simp [State.busy]
      simp [goes,there,show State.regReadWait.busy = true from rfl]

theorem endsOnce (r : Reached cfg h.core)
    (plain : h.core.currentState = .memWrite → h.core.dmemReady i = true → h.core.dec.isSc = false) :
    inProgress h ++ issued h i = (ended h i).map Prod.fst ++ inProgress (h.next cfg i) := by
  have step := busyStep (i := i) r plain
  have kept (busy : h.core.currentState.busy = true) :
      (h.core.next cfg i).instrPcReg = h.core.instrPcReg ∧ h.core.issues i = false := by
    have other : h.core.currentState ≠ .fetch := fun state => by
      rw [state] at busy
      contradiction
    refine ⟨by rw [instrPcNext,irKept other,if_neg Bool.false_ne_true],?_⟩
    simp [Regs.issues,other]
  simp only [inProgress,issued,ended,Tracing.next,stateNext]
  rcases Bool.eq_false_or_eq_true h.core.currentState.busy with busy | idle
  · obtain ⟨same,quiet⟩ := kept busy
    rw [same,quiet,busy]
    rcases Bool.eq_false_or_eq_true (h.core.instrCompleteInternal i) with completes | goesOn
    · have alone := endsEither completes
      simp [completes,alone,step,quiet]
    · rcases Bool.eq_false_or_eq_true h.core.traps with traps | stays
      · simp [goesOn,traps,step,quiet]
      · simp [goesOn,stays,step,busy]
  · have absent : h.core.instrCompleteInternal i = false ∧ h.core.traps = false := by
      refine ⟨Bool.eq_false_iff.mpr fun ends => ?_,Bool.eq_false_iff.mpr fun ends => ?_⟩
      · simp [endsBusy (.inl ends)] at idle
      · simp [endsBusy (i := i) (.inr ends)] at idle
    rcases Bool.eq_false_or_eq_true (h.core.issues i) with begins | quiet
    · simp [absent,idle,begins,step,issuesLatched begins]
    · simp [absent,idle,quiet,step]

theorem csrNext (cfg : Config) (s : Regs) (i : Inputs) : (s.next cfg i).csr = s.csr.next cfg.enableM cfg.enableF (s.csrInputs i) := rfl

theorem preparesNext (next : (s.nextState i).prepares = true) : s.issues i = true ∨ s.currentState.prepares = true := by
  cases state : s.currentState with
  | fetch =>
    left
    simp only [Regs.issues,Regs.nextState,state] at next ⊢
    repeat' split at next
    all_goals simp_all [State.prepares]
  | decode | decodeWait | regRead | regReadWait => exact .inr rfl
  | boot | execute | memAddr | memRead | memWrite | atomicRmw =>
    simp only [Regs.nextState,state] at next
    repeat' split at next
    all_goals contradiction
  | writeback | branch | csr | halt => simp [Regs.nextState,state,State.prepares] at next

theorem preparesSilent (prepares : s.currentState.prepares = true) : s.writes i = false := by
  have quiet : s.memAHandshake i = false := by
    rcases Bool.eq_false_or_eq_true (s.memAHandshake i) with shakes | quiet
    · rcases (handshaken shakes).2 with fetches | ⟨_,accesses⟩
      · rw [(fetchAsked fetches).1] at prepares
        contradiction
      · rcases dataAsked accesses with state | state | state <;> rw [state] at prepares <;> contradiction
    · exact quiet
  have others : s.currentState ≠ .writeback ∧ s.currentState ≠ .csr := by
    refine ⟨?_,?_⟩ <;> intro state <;> rw [state] at prepares <;> contradiction
  simp [Regs.writes,Regs.regWe,Regs.csrInputs,quiet,others]

theorem pcAligned (t : Tracked cfg h) (ok : Single h i) : aligned (h.core.next cfg i).pc := by
  rw [pcNext]
  split
  · rename_i writes
    rw [Regs.nextPcValue]
    split
    · rename_i boot
      simp only [Regs.pcWrite,boot,Bool.and_eq_true] at writes
      exact ok.2 boot writes.1
    · split
      · exact t.csr.mtvec
      · split
        · exact t.csr.mepc
        · split
          · exact t.target
          · exact t.instrPcNext
  · exact t.pc

theorem incrementAligned : aligned s.pcIncrement := by
  rw [Regs.pcIncrement]
  split <;> decide

theorem targetAligned (even : aligned s.controlTargetReg) : aligned (s.next cfg i).controlTargetReg := by
  have register : (s.next cfg i).controlTargetReg = if s.controlTargetWrite then s.controlTargetNext else s.controlTargetReg := rfl
  rw [register,Regs.controlTargetNext]
  repeat' split
  all_goals first
    | exact even
    | exact alignedMask _

theorem resetTracked (s : Regs) : Tracked cfg ⟨reset s,0,false⟩ where
  toSequenced := resetSequenced s
  upcoming := rfl
  silent _ := rfl
  pc := alignedZero
  instrPc := alignedZero
  instrPcNext := alignedZero
  target := alignedZero
  csr := ⟨alignedZero,alignedZero⟩

theorem trackedNext (t : Tracked cfg h) (ok : Single h i) : Tracked cfg (h.next cfg i) where
  toSequenced := sequencedNext t.toSequenced i
  upcoming := upcomingStep t.toSequenced h.upcoming t.upcoming
  silent prepares := by
    rcases preparesNext prepares with begins | before
    · simp [Tracing.next,begins]
    · simp [Tracing.next,t.silent before,preparesSilent before]
  pc := pcAligned t ok
  instrPc := by
    simp only [Tracing.next,instrPcNext]
    split
    · exact t.pc
    · exact t.instrPc
  instrPcNext := by
    have register : (h.core.next cfg i).instrPcNextReg = if !h.core.irWrite i && h.core.currentState == .decodeWait
      then h.core.instrPcReg + h.core.pcIncrement else h.core.instrPcNextReg := rfl
    rw [Tracing.next,register]
    split
    · exact alignedAdd t.instrPc incrementAligned
    · exact t.instrPcNext
  target := targetAligned t.target
  csr := t.csr.next

/- What one cycle shows of traps and interrupts. -/
structure Precise (cfg : Config) (h : Tracing) (i : Inputs) : Prop where
  begins : h.core.issues i = true → (h.core.next cfg i).instrPcReg = h.upcoming
  between : h.core.csrTrapEntry i = true → h.core.traps = true ∨
    inProgress h = [] ∧ (h.core.next cfg i).csr.mepc = h.upcoming
  trapping : h.core.traps = true → h.wrote = false ∧ h.core.writes i = false ∧
    (h.core.next cfg i).csr.mepc = h.core.instrPcReg
  enters : h.core.csrTrapEntry i = true → (h.core.next cfg i).csr.mpieBit = h.core.csr.mieBit ∧
    (h.core.next cfg i).csr.mieBit = false ∧ (h.core.next cfg i).pc = h.core.csr.mtvec
  returned : h.core.instrCompleteInternal i = true → h.core.dec.isMret = true →
    (h.core.next cfg i).csr.mieBit = h.core.csr.mpieBit ∧ (h.core.next cfg i).pc = h.core.csr.mepc

theorem trackedShows (t : Tracked cfg h) (i : Inputs) : Precise cfg h i where
  begins issues := by
    rw [instrPcNext,if_pos (issuesLatched issues)]
    exact t.upcoming
  between entry := by
    cases state : h.core.currentState with
    | fetch =>
      refine .inr ⟨by simp [inProgress,state,State.busy],?_⟩
      rw [csrNext,(CsrFile.Regs.enters entry).1]
      simp only [Regs.csrInputs,Regs.csrTrapMepc,state,if_true]
      rw [sanitizeAligned t.pc]
      exact t.upcoming
    | regReadWait =>
      left
      simpa [Regs.csrTrapEntry,Regs.traps,state] using entry
    | _ => simp [Regs.csrTrapEntry,state] at entry
  trapping traps := by
    have state : h.core.currentState = .regReadWait ∧ h.core.syncTrapPending = true := by
      simpa [Regs.traps] using traps
    have prepares : h.core.currentState.prepares = true := by
      rw [state.1]
      rfl
    refine ⟨t.silent prepares,preparesSilent prepares,?_⟩
    have entry : (h.core.csrInputs i).trapEntry = true := by
      simp [Regs.csrInputs,Regs.csrTrapEntry,state]
    rw [csrNext,(CsrFile.Regs.enters entry).1]
    simp only [Regs.csrInputs,Regs.csrTrapMepc,state.1,if_neg (show ¬ State.regReadWait = .fetch by decide)]
    exact sanitizeAligned t.instrPc
  enters entry := by
    obtain ⟨_,mpie,mie⟩ := @CsrFile.Regs.enters h.core.csr cfg.enableM cfg.enableF (h.core.csrInputs i) entry
    have booted : h.core.currentState ≠ .boot := fun boot => by simp [Regs.csrTrapEntry,boot] at entry
    refine ⟨mpie,mie,?_⟩
    rw [pcNext,pcWrites booted,entry]
    simp [Regs.nextPcValue,booted,entry]
  returned completes mret := by
    have state : h.core.currentState = .regReadWait := by
      have going := t.going
      cases state : h.core.currentState with
      | regReadWait => rfl
      | memWrite | writeback | branch => rw [going (by rw [state]; rfl)] at mret; contradiction
      | _ => simp [Regs.instrCompleteInternal,state] at completes
    have goes : h.core.syncTrapPending = false := by
      simp only [Regs.instrCompleteInternal,Regs.completesEarly,state,Bool.and_eq_true,Bool.not_eq_true'] at completes
      exact completes.1
    have flow := (t.flow (by rw [state]; rfl)).returns mret
    have entry : (h.core.csrInputs i).trapEntry = false := by simp [Regs.csrInputs,Regs.csrTrapEntry,state,goes]
    have returns : (h.core.csrInputs i).trapReturn = true := by
      simp [Regs.csrInputs,Regs.csrTrapReturn,state,goes,mret,flow.2.1]
    refine ⟨CsrFile.Regs.returns entry returns,?_⟩
    rw [Core.completed t.toSequenced completes,Regs.successor,if_pos mret]

/- Over every run in which no SC.W is answered and that boots from an even address, traps and
interrupts are precise. -/
theorem preciseTraps (cfg : Config) (s : Regs) (inputs : List Inputs)
    (single : (tracing cfg).Steps Single ⟨reset s,0,false⟩ inputs) :
    (tracing cfg).Steps (Precise cfg) ⟨reset s,0,false⟩ inputs ∧
    (tracing cfg).history issued ⟨reset s,0,false⟩ inputs =
      ((tracing cfg).history ended ⟨reset s,0,false⟩ inputs).map Prod.fst ++
        inProgress ((tracing cfg).final ⟨reset s,0,false⟩ inputs) := by
  refine ⟨stepsAll (fun h i (t : Tracked cfg h) ok => ⟨trackedNext t ok,trackedShows t i⟩) (resetTracked s) single,?_⟩
  have step (h : Tracing) (i : Inputs) (t : Tracked cfg h) (ok : Single h i) : Tracked cfg ((tracing cfg).next h i) ∧
      inProgress h ++ issued h i = (ended h i).map Prod.fst ++ inProgress ((tracing cfg).next h i) :=
    ⟨trackedNext t ok,endsOnce t.toReached ok.1⟩
  have conserved := (stepsConserved step (resetTracked s) single).2
  have ends := historyFilterMap (m := tracing cfg) ended (fun x => some x.1) ⟨reset s,0,false⟩ inputs
  simp only [List.filterMap_eq_map'] at ends
  rw [ends]
  exact conserved

/- `addi`, then `ecall`. -/
theorem ecallPrecise :
    let inputs := drive ⟨true,true⟩ (program [0x00500093,0x00000073]) 40 based
    (tracing ⟨true,true⟩).Steps (Precise ⟨true,true⟩) ⟨based,0,false⟩ inputs ∧
    (tracing ⟨true,true⟩).history issued ⟨based,0,false⟩ inputs =
      ((tracing ⟨true,true⟩).history ended ⟨based,0,false⟩ inputs).map Prod.fst ++
        inProgress ((tracing ⟨true,true⟩).final ⟨based,0,false⟩ inputs) :=
  preciseTraps ⟨true,true⟩ { (default : Regs) with bankA := ⟨fun _ => 0x2000,0,0⟩ } _ (by decide +kernel)

/- `lr.w`, then `sc.w`, which completes twice. -/
theorem storeConditionalTwice :
    let inputs := drive ⟨true,true⟩ (program [0x1000A1AF,0x1820A22F]) 23 based
    (tracing ⟨true,true⟩).history issued ⟨based,0,false⟩ inputs = [0,4] ∧
    (tracing ⟨true,true⟩).history ended ⟨based,0,false⟩ inputs = [(0,.completed),(4,.completed),(4,.completed)] ∧
    inProgress ((tracing ⟨true,true⟩).final ⟨based,0,false⟩ inputs) = [] ∧
    ((tracing ⟨true,true⟩).final ⟨based,0,false⟩ inputs).core.csr.instret = 3 ∧
    ¬ (tracing ⟨true,true⟩).history issued ⟨based,0,false⟩ inputs =
      ((tracing ⟨true,true⟩).history ended ⟨based,0,false⟩ inputs).map Prod.fst ++
        inProgress ((tracing ⟨true,true⟩).final ⟨based,0,false⟩ inputs) := by
  decide +kernel

end RiscvSoc.Core
