import RiscvSoc.Rtl.Cpu.InstructionDelivery

/-! Where an instruction goes on. The target of a branch or jump and the outcome of the comparison
are registers; when they are used they belong to the instruction in progress. -/
namespace RiscvSoc.Decoder

structure Flow (op : BitVec 7) (c : Control) : Prop where
  branches : c.branch = true → op = opBranch ∧ c.jump = false
  jumps : c.jump = true → (op = opJal ∨ op = opJalr) ∧ c.branch = false ∧ c.fpRegWrite = false ∧ c.fpToInt = false
  returns : c.isMret = true → op = opSystem ∧ c.isFence = false ∧ c.jump = false ∧ c.branch = false

structure Straight (c : Control) : Prop where
  branch : c.branch = false
  jump : c.jump = false
  isMret : c.isMret = false

theorem flowIf {op : BitVec 7} {p : Prop} [Decidable p] {a b : Control} (yes : p → Flow op a) (no : ¬ p → Flow op b) :
    Flow op (if p then a else b) := by
  split
  · exact yes (by assumption)
  · exact no (by assumption)

theorem straightIf {p : Prop} [Decidable p] {a b : Control} (yes : Straight a) (no : Straight b) :
    Straight (if p then a else b) := by
  split
  · exact yes
  · exact no

theorem straightFlow {op : BitVec 7} {c : Control} (straight : Straight c) : Flow op c where
  branches h := by simp [straight.branch] at h
  jumps h := by simp [straight.jump] at h
  returns h := by simp [straight.isMret] at h

theorem floatingStraight (instruction : BitVec 32) : Straight (floating instruction) := by
  unfold floating
  repeat' refine straightIf ?_ ?_
  all_goals exact ⟨rfl,rfl,rfl⟩

theorem registerStraight (instruction : BitVec 32) (enableM : Bool) : Straight (register instruction enableM) := by
  unfold register
  repeat' refine straightIf ?_ ?_
  all_goals exact ⟨rfl,rfl,rfl⟩

theorem atomicStraight (instruction : BitVec 32) : Straight (atomic instruction) := by
  refine straightIf ⟨rfl,rfl,rfl⟩ (straightIf ⟨rfl,rfl,rfl⟩ ?_)
  cases amoOp instruction <;> exact ⟨rfl,rfl,rfl⟩

theorem systemFlow (instruction : BitVec 32) : Flow opSystem (system instruction) := by
  have mret : Flow opSystem {Control.defaults with isMret := true} :=
    ⟨fun h => by simp [Control.defaults] at h,fun h => by simp [Control.defaults] at h,fun _ => ⟨rfl,rfl,rfl,rfl⟩⟩
  simp only [system]
  refine flowIf (fun _ => flowIf (fun _ => flowIf (fun _ => ?_) fun _ => flowIf (fun _ => ?_) fun _ =>
    flowIf (fun _ => ?_) fun _ => flowIf (fun _ => mret) fun _ => ?_) fun _ => ?_) fun _ => ?_
  all_goals exact straightFlow ⟨rfl,rfl,rfl⟩

theorem controlFlow (instruction : BitVec 32) (enableM enableF : Bool) :
    Flow (opcode instruction) (control instruction enableM enableF) := by
  have defaults : Straight Control.defaults := ⟨rfl,rfl,rfl⟩
  simp only [control]
  refine flowIf (fun _ => straightFlow ⟨rfl,rfl,rfl⟩) fun _ => ?_
  refine flowIf (fun _ => straightFlow (registerStraight _ _)) fun _ => ?_
  refine flowIf (fun _ => straightFlow ⟨rfl,rfl,rfl⟩) fun _ => ?_
  refine flowIf (fun _ => straightFlow (straightIf ⟨rfl,rfl,rfl⟩ defaults)) fun _ => ?_
  refine flowIf (fun _ => straightFlow ⟨rfl,rfl,rfl⟩) fun _ => ?_
  refine flowIf (fun _ => straightFlow (straightIf ⟨rfl,rfl,rfl⟩ defaults)) fun _ => ?_
  refine flowIf (fun op => ⟨fun _ => ⟨op,rfl⟩,fun h => by simp [Control.defaults] at h,
    fun h => by simp [Control.defaults] at h⟩) fun _ => ?_
  iterate 2
    refine flowIf (fun _ => straightFlow ⟨rfl,rfl,rfl⟩) fun _ => ?_
  refine flowIf (fun op => ⟨fun h => by simp [Control.defaults] at h,fun _ => ⟨.inl op,rfl,rfl,rfl⟩,
    fun h => by simp [Control.defaults] at h⟩) fun _ => ?_
  refine flowIf (fun op => ⟨fun h => by simp [Control.defaults] at h,fun _ => ⟨.inr op,rfl,rfl,rfl⟩,
    fun h => by simp [Control.defaults] at h⟩) fun _ => ?_
  refine flowIf (fun _ => straightFlow ⟨rfl,rfl,rfl⟩) fun _ => ?_
  refine flowIf (fun op => ?_) fun _ => ?_
  · rw [op]
    exact systemFlow instruction
  refine flowIf (fun _ => straightFlow (atomicStraight instruction)) fun _ => ?_
  refine flowIf (fun _ => straightFlow (straightIf (floatingStraight _) defaults)) fun _ => ?_
  iterate 4
    refine flowIf (fun _ => straightFlow (straightIf ⟨rfl,rfl,rfl⟩ defaults)) fun _ => ?_
  exact straightFlow ⟨rfl,rfl,rfl⟩

end RiscvSoc.Decoder

namespace RiscvSoc.Core
open Mealy Machine

def State.going : State → Bool
  | .execute | .memAddr | .memRead | .memWrite | .writeback | .branch | .csr | .atomicRmw => true
  | _ => false
def State.accesses : State → Bool
  | .memAddr | .memRead | .memWrite | .csr | .atomicRmw => true
  | _ => false

namespace Regs

def target (s : Regs) : BitVec 32 :=
  (if s.dec.branch then s.instrPcReg + s.dec.immB
    else if s.dec.aluSrc then s.aReg + s.dec.immI
    else s.instrPcReg + s.dec.immJ) &&& ~~~1

def successor (s : Regs) : BitVec 32 :=
  if s.dec.isMret then s.csr.mepc
  else if s.dec.jump || s.dec.branch && s.takeBranchNext then s.target
  else s.instrPcReg + s.pcIncrement

end Regs

structure Sequenced (cfg : Config) (s : Regs) : Prop extends Reached cfg s where
  going : s.currentState.going = true → s.dec.isMret = false
  accesses : s.currentState.accesses = true → s.dec.jump = false ∧ s.dec.branch = false
  writes : s.currentState = .writeback → s.dec.branch = false
  branches : s.currentState = .branch → s.dec.branch = true ∧ s.takeBranch = s.takeBranchNext
  following : s.currentState.checked = true → s.instrPcNextReg = s.instrPcReg + s.pcIncrement
  direct : s.currentState.checked = true → s.dec.branch = true ∨ s.dec.jump = true ∧ s.dec.aluSrc = false →
    s.controlTargetReg = s.target
  indirect : s.currentState = .writeback → s.dec.jump = true → s.dec.aluSrc = true → s.controlTargetReg = s.target

variable {cfg : Config} {s : Regs} {i : Inputs}

theorem Reached.flow (h : Reached cfg s) (decoded : s.currentState.decoded = true) :
    Decoder.Flow s.dec.opcode s.dec.toControl := by
  rw [h.decoded decoded]
  exact Decoder.controlFlow s.irReg cfg.enableM cfg.enableF

theorem resetSequenced (s : Regs) : Sequenced cfg (reset s) where
  toReached := resetReached s
  going h := by simp [reset,State.going] at h
  accesses h := by simp [reset,State.accesses] at h
  writes h := by simp [reset] at h
  branches h := by simp [reset] at h
  following h := by simp [reset,State.checked] at h
  direct h := by simp [reset,State.checked] at h
  indirect h := by simp [reset] at h

theorem decKept (other : s.currentState ≠ .decode) : (s.next cfg i).dec = s.dec := by
  rw [decNext,if_neg other]

theorem incrementKept (kept : s.irWrite i = false) : (s.next cfg i).pcIncrement = s.pcIncrement := by
  rw [Regs.pcIncrement,Regs.pcIncrement,FetchBuffer.Regs.pcInc2,FetchBuffer.Regs.pcInc2,(bufferKept cfg kept).2.2]

theorem flowsExecute (flow : Decoder.Flow s.dec.opcode s.dec.toControl) (redirects : s.dec.jump = true ∨ s.dec.branch = true) :
    s.dispatch = .execute := by
  have op : s.dec.opcode = Decoder.opJal ∨ s.dec.opcode = Decoder.opJalr ∨ s.dec.opcode = Decoder.opBranch := by
    rcases redirects with jump | branch
    · rcases (flow.jumps jump).1 with op | op
      · exact .inl op
      · exact .inr (.inl op)
    · exact .inr (.inr (flow.branches branch).1)
  rcases op with op | op | op <;> rw [Regs.dispatch,op] <;> rfl

theorem goingNext (next : (s.nextState i).going = true) : s.currentState.going = true ∨
    s.currentState = .regReadWait ∧ s.syncTrapPending = false ∧ s.nextState i = s.dispatch := by
  cases state : s.currentState with
  | boot | fetch =>
    simp only [Regs.nextState,state] at next
    repeat' split at next
    all_goals contradiction
  | halt | decode | decodeWait | regRead => simp [Regs.nextState,state,State.going] at next
  | regReadWait =>
    right
    simp only [Regs.nextState,state] at next ⊢
    split at next
    · contradiction
    · rename_i goes
      exact ⟨trivial,by simpa using goes,if_neg goes⟩
  | execute | memAddr | memRead | memWrite | writeback | branch | csr | atomicRmw => exact .inl rfl

theorem accessesNext (next : (s.nextState i).accesses = true) : s.currentState.accesses = true ∨
    s.currentState = .regReadWait ∧ s.nextState i = s.dispatch := by
  have going : (s.nextState i).going = true := by
    revert next
    cases s.nextState i <;> decide
  rcases goingNext going with before | ⟨state,_,goes⟩
  · left
    cases state : s.currentState with
    | execute =>
      simp only [Regs.nextState,state] at next
      repeat' split at next
      all_goals contradiction
    | writeback | branch => simp [Regs.nextState,state,State.accesses] at next
    | boot | fetch | decode | decodeWait | regRead | regReadWait | halt => simp [state,State.going] at before
    | memAddr | memRead | memWrite | csr | atomicRmw => rfl
  · exact .inr ⟨state,goes⟩

theorem writesNext (next : s.nextState i = .writeback) : s.currentState.accesses = true ∨
    s.currentState = .execute ∧ s.dec.branch = false := by
  cases state : s.currentState with
  | memAddr | memRead | memWrite | csr | atomicRmw => exact .inl rfl
  | execute =>
    simp only [Regs.nextState,state] at next
    split at next
    · contradiction
    · exact .inr ⟨rfl,by simpa using (by assumption : ¬ s.dec.branch = true)⟩
  | decode | decodeWait | regRead | writeback | branch | halt => simp [Regs.nextState,state] at next
  | regReadWait =>
    simp only [Regs.nextState,state,Regs.dispatch] at next
    repeat' split at next
    all_goals contradiction
  | boot | fetch =>
    simp only [Regs.nextState,state] at next
    repeat' split at next
    all_goals contradiction

theorem branchesNext (next : s.nextState i = .branch) : s.currentState = .execute ∧ s.dec.branch = true := by
  cases state : s.currentState with
  | execute =>
    simp only [Regs.nextState,state] at next
    refine ⟨rfl,?_⟩
    split at next
    · assumption
    · repeat' split at next
      all_goals contradiction
  | regReadWait =>
    simp only [Regs.nextState,state,Regs.dispatch] at next
    repeat' split at next
    all_goals contradiction
  | boot | fetch | memAddr | memRead | memWrite | atomicRmw =>
    simp only [Regs.nextState,state] at next
    repeat' split at next
    all_goals contradiction
  | decode | decodeWait | regRead | writeback | branch | csr | halt => simp [Regs.nextState,state] at next

theorem operandsKept (other : s.currentState ≠ .regReadWait) :
    (s.next cfg i).aReg = s.aReg ∧ (s.next cfg i).bReg = s.bReg := by
  simp [Regs.next,other]

theorem followingStep (h : Sequenced cfg s) (checked : (s.nextState i).checked = true) :
    (s.next cfg i).instrPcNextReg = (s.next cfg i).instrPcReg + (s.next cfg i).pcIncrement := by
  have register : (s.next cfg i).instrPcNextReg =
      if !s.irWrite i && s.currentState == .decodeWait then s.instrPcReg + s.pcIncrement else s.instrPcNextReg := rfl
  have kept (other : s.currentState ≠ .fetch) := irKept (i := i) other
  rcases checkedNext checked with state | before
  · have still := kept (by simp [state])
    rw [register,incrementKept still,instrPcNext,still,state]
    rfl
  · have others : s.currentState ≠ .fetch ∧ s.currentState ≠ .decodeWait := by
      refine ⟨?_,?_⟩ <;> intro state <;> rw [state] at before <;> contradiction
    have still := kept others.1
    rw [register,incrementKept still,instrPcNext,still,if_neg (by simp [others.2]),if_neg Bool.false_ne_true]
    exact h.following before

theorem directStep (h : Sequenced cfg s) (checked : (s.nextState i).checked = true)
    (known : s.dec.branch = true ∨ s.dec.jump = true ∧ s.dec.aluSrc = false) :
    (s.next cfg i).controlTargetReg = s.target := by
  have register : (s.next cfg i).controlTargetReg = if s.controlTargetWrite then s.controlTargetNext else s.controlTargetReg := rfl
  rw [register]
  rcases checkedNext checked with state | before
  · have flow := h.flow (by rw [state]; rfl)
    rcases known with branch | ⟨jump,src⟩
    · simp [Regs.controlTargetWrite,Regs.controlTargetNext,Regs.target,state,branch]
    · simp [Regs.controlTargetWrite,Regs.controlTargetNext,Regs.target,state,jump,src,(flow.jumps jump).2.1]
  · have still : s.controlTargetWrite = false := by
      rw [Regs.controlTargetWrite]
      cases state : s.currentState with
      | execute =>
        rcases known with branch | ⟨jump,src⟩
        · simp [branch]
        · simp [src]
      | decodeWait =>
        rw [state] at before
        contradiction
      | _ => rfl
    rw [still,if_neg Bool.false_ne_true]
    exact h.direct before known

theorem indirectStep (h : Sequenced cfg s) (next : s.nextState i = .writeback) (jump : s.dec.jump = true)
    (src : s.dec.aluSrc = true) : (s.next cfg i).controlTargetReg = s.target ∧ s.currentState = .execute := by
  have register : (s.next cfg i).controlTargetReg = if s.controlTargetWrite then s.controlTargetNext else s.controlTargetReg := rfl
  rcases writesNext next with before | ⟨state,plain⟩
  · rw [(h.accesses before).1] at jump
    contradiction
  · have flow := (h.flow (by rw [state]; rfl)).jumps jump
    refine ⟨?_,state⟩
    rw [register]
    simp [Regs.controlTargetWrite,Regs.controlTargetNext,Regs.target,Regs.fpResult,state,jump,src,plain,flow.2.2]

theorem targetKept (kept : s.irWrite i = false) (decoded : s.currentState ≠ .decode)
    (same : s.dec.branch = true ∨ s.dec.aluSrc = false ∨ s.currentState ≠ .regReadWait) :
    (s.next cfg i).target = s.target := by
  simp only [Regs.target,decKept decoded,instrPcNext,kept,Bool.false_eq_true,if_false]
  rcases same with branch | direct | other
  · simp [branch]
  · simp [direct]
  · simp [(operandsKept other).1]

theorem sequencedNext (h : Sequenced cfg s) (i : Inputs) : Sequenced cfg (s.next cfg i) where
  toReached := reachedNext h.toReached i
  going next := by
    rcases goingNext next with before | ⟨state,goes,same⟩
    · rw [decKept (by intro state; rw [state] at before; contradiction)]
      exact h.going before
    · rw [decKept (by simp [state])]
      rcases Bool.eq_false_or_eq_true s.dec.isMret with mret | other
      · have early : s.completesEarly = true := by simp [Regs.completesEarly,goes,mret]
        have fetches := (dispatched h.toReached state goes).2.mpr early
        rw [stateNext,same,fetches] at next
        contradiction
      · exact other
  accesses next := by
    rcases accessesNext next with before | ⟨state,same⟩
    · rw [decKept (by intro state; rw [state] at before; contradiction)]
      exact h.accesses before
    · rw [decKept (by simp [state])]
      have flow := h.flow (by rw [state]; rfl)
      have left : s.dispatch ≠ .execute := fun executes => by
        rw [stateNext,same,executes] at next
        contradiction
      exact ⟨Bool.eq_false_iff.mpr fun jump => left (flowsExecute flow (.inl jump)),
        Bool.eq_false_iff.mpr fun branch => left (flowsExecute flow (.inr branch))⟩
  writes next := by
    rcases writesNext next with before | ⟨state,plain⟩
    · rw [decKept (by intro state; rw [state] at before; contradiction)]
      exact (h.accesses before).2
    · rw [decKept (by simp [state])]
      exact plain
  branches next := by
    obtain ⟨state,branch⟩ := branchesNext next
    have operands : (s.next cfg i).aReg = s.aReg ∧ (s.next cfg i).bReg = s.bReg := operandsKept (by simp [state])
    have dec : (s.next cfg i).dec = s.dec := decKept (by simp [state])
    refine ⟨by rw [dec]; exact branch,?_⟩
    simp only [Regs.takeBranchNext,dec,operands]
    rfl
  following checked := followingStep h checked
  direct checked known := by
    have others : s.currentState ≠ .fetch ∧ s.currentState ≠ .decode := by
      rcases checkedNext checked with state | before
      · simp [state]
      · refine ⟨?_,?_⟩ <;> intro state <;> rw [state] at before <;> contradiction
    rw [decKept others.2] at known
    rw [directStep h checked known,targetKept (irKept others.1) others.2]
    rcases known with branch | ⟨_,direct⟩
    · exact .inl branch
    · exact .inr (.inl direct)
  indirect next jump src := by
    have others : s.currentState ≠ .decode := fun state => by simp [Regs.nextState,state] at next
    rw [decKept others] at jump src
    obtain ⟨target,state⟩ := indirectStep h next jump src
    rw [target,targetKept (irKept (by simp [state])) others (.inr (.inr (by simp [state])))]

theorem completed (h : Sequenced cfg s) (completes : s.instrCompleteInternal i = true) :
    (s.next cfg i).pc = s.successor := by
  have pc : (s.next cfg i).pc = if s.pcWrite i then s.nextPcValue i else s.pc := rfl
  rw [pc]
  cases state : s.currentState with
  | boot | fetch | decode | decodeWait | regRead | execute | memAddr | memRead | csr | atomicRmw | halt =>
    simp [Regs.instrCompleteInternal,state] at completes
  | regReadWait =>
    have early : s.completesEarly = true := by simpa [Regs.instrCompleteInternal,state] using completes
    have goes : s.syncTrapPending = false := by simp [Regs.completesEarly] at early; exact early.1
    have flow := h.flow (by rw [state]; rfl)
    have left : s.dec.jump = false ∧ s.dec.branch = false := by
      have fetches := (dispatched h.toReached state goes).2.mpr early
      have plain : s.dispatch ≠ .execute := by simp [fetches]
      exact ⟨Bool.eq_false_iff.mpr fun jump => plain (flowsExecute flow (.inl jump)),
        Bool.eq_false_iff.mpr fun branch => plain (flowsExecute flow (.inr branch))⟩
    have writes : s.pcWrite i = true := by simp [Regs.pcWrite,state,early]
    rw [if_pos writes]
    have next := h.following (by rw [state]; rfl)
    rcases Bool.eq_false_or_eq_true s.dec.isMret with mret | other
    · simp [Regs.nextPcValue,Regs.csrTrapEntry,Regs.csrTrapReturn,Regs.successor,state,goes,mret,(flow.returns mret).2.1]
    · simp [Regs.nextPcValue,Regs.csrTrapEntry,Regs.csrTrapReturn,Regs.controlFlowRedirect,Regs.successor,state,goes,other,left,
        next]
  | memWrite =>
    have ready : s.dmemReady i = true := by simpa [Regs.instrCompleteInternal,state] using completes
    have going := h.going (by rw [state]; rfl)
    have left := h.accesses (by rw [state]; rfl)
    have next := h.following (by rw [state]; rfl)
    simp [Regs.pcWrite,Regs.nextPcValue,Regs.csrTrapEntry,Regs.csrTrapReturn,Regs.controlFlowRedirect,Regs.successor,state,
      ready,going,left,next]
  | writeback =>
    have going := h.going (by rw [state]; rfl)
    have next := h.following (by rw [state]; rfl)
    have plain := h.writes state
    rcases Bool.eq_false_or_eq_true s.dec.jump with jump | falls
    · have target : s.controlTargetReg = s.target := by
        rcases Bool.eq_false_or_eq_true s.dec.aluSrc with src | direct
        · exact h.indirect state jump src
        · exact h.direct (by rw [state]; rfl) (.inr ⟨jump,direct⟩)
      simp [Regs.pcWrite,Regs.nextPcValue,Regs.csrTrapEntry,Regs.csrTrapReturn,Regs.controlFlowRedirect,Regs.successor,state,
        going,jump,target]
    · simp [Regs.pcWrite,Regs.nextPcValue,Regs.csrTrapEntry,Regs.csrTrapReturn,Regs.controlFlowRedirect,Regs.successor,state,
        going,falls,plain,next]
  | branch =>
    have going := h.going (by rw [state]; rfl)
    have next := h.following (by rw [state]; rfl)
    obtain ⟨branch,taken⟩ := h.branches state
    have target := h.direct (by rw [state]; rfl) (.inl branch)
    have noJump := ((h.flow (by rw [state]; rfl)).branches branch).2
    simp [Regs.pcWrite,Regs.nextPcValue,Regs.csrTrapEntry,Regs.csrTrapReturn,Regs.controlFlowRedirect,Regs.successor,state,
      going,branch,taken,target,next,noJump]

end RiscvSoc.Core
