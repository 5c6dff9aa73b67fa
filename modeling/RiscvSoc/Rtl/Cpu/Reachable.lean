import RiscvSoc.Rtl.Cpu.Core

/-! What holds of the CPU in every reachable state, whatever its memory, its ALU, its FPU and its
interrupt lines do. -/
namespace RiscvSoc.Core
open Mealy Machine

/- An instruction has been latched and has neither completed nor trapped. -/
def State.busy : State → Bool
  | .boot | .fetch | .halt => false
  | _ => true

def State.decoded : State → Bool
  | .boot | .fetch | .halt | .decode => false
  | _ => true

def State.checked : State → Bool
  | .boot | .fetch | .halt | .decode | .decodeWait => false
  | _ => true

section Fields
variable (cfg : Config) (s : Regs) (i : Inputs)

@[simp] theorem stateNext : (s.next cfg i).currentState = s.nextState i := rfl
@[simp] theorem decNext : (s.next cfg i).dec =
    if s.currentState = .decode then Decoder.decode cfg.enableM cfg.enableF s.irReg else s.dec := rfl
@[simp] theorem irNext : (s.next cfg i).irReg =
    if s.irWrite i then (s.fetch.output s.imemDataStagingReg).insn32 else s.irReg := rfl
@[simp] theorem inflightNext : (s.next cfg i).memReqInflight =
    ((s.memReqInflight || s.memAHandshake i) && !s.memDHandshake i) := rfl
@[simp] theorem stagedNext : (s.next cfg i).imemDataStagingValid =
    (s.imemDataStagingWrite i || s.imemDataStagingValid && !(s.irWrite i || s.invalidateFetchBuffer i)) := rfl
@[simp] theorem pcNext : (s.next cfg i).pc = if s.pcWrite i then s.nextPcValue i else s.pc := rfl
@[simp] theorem instrPcNext : (s.next cfg i).instrPcReg = if s.irWrite i then s.pc else s.instrPcReg := rfl

end Fields

structure Reached (cfg : Config) (s : Regs) : Prop where
  decoded : s.currentState.decoded = true → s.dec = Decoder.decode cfg.enableM cfg.enableF s.irReg
  checked : s.currentState.checked = true → s.isInstructionValidReg = true → s.dec.instructionValid = true
  inflight : s.memReqInflight = true → s.currentState = .fetch ∨ s.currentState = .memRead ∨
    s.currentState = .memWrite ∨ s.currentState = .atomicRmw ∨ s.currentState = .halt
  staged : s.imemDataStagingValid = true → s.currentState = .fetch ∧ s.memReqInflight = false ∨ s.currentState = .halt

variable {cfg : Config} {s : Regs}

theorem irWrites {i : Inputs} (h : s.irWrite i = true) :
    s.currentState = .fetch ∧ s.interruptTaken i = false ∧ s.wfiActive = false ∧ s.imemDataStagingValid = true := by
  simp only [Regs.irWrite,Regs.imemReady,Bool.and_eq_true,beq_iff_eq,Bool.not_eq_true'] at h
  exact ⟨h.1.1.1,h.1.1.2,h.1.2,h.2⟩

theorem irKept {i : Inputs} (other : s.currentState ≠ .fetch) : s.irWrite i = false := by
  rcases Bool.eq_false_or_eq_true (s.irWrite i) with writes | stays
  · exact absurd (irWrites writes).1 other
  · exact stays

theorem resetReached (s : Regs) : Reached cfg (reset s) where
  decoded h := by simp [reset,State.decoded] at h
  checked h := by simp [reset,State.checked] at h
  inflight h := by simp [reset] at h
  staged h := by simp [reset] at h

theorem Reached.consistent (h : Reached cfg s) (decoded : s.currentState.decoded = true) :
    Decoder.Consistent s.dec.opcode s.dec.toControl := by
  rw [h.decoded decoded]
  exact Decoder.controlConsistent s.irReg cfg.enableM cfg.enableF

theorem noTrap (goes : s.syncTrapPending = false) :
    s.isInstructionValidReg = true ∧ s.dec.isEcall = false ∧ s.dec.isEbreak = false := by
  simp only [Regs.syncTrapPending,Bool.or_eq_false_iff,Bool.not_eq_false'] at goes
  exact ⟨goes.1.1,goes.1.2,goes.2⟩

/- Every valid instruction has its way after the register read; those that go straight back to
the fetch complete there. -/
theorem dispatched (h : Reached cfg s) (state : s.currentState = .regReadWait) (goes : s.syncTrapPending = false) :
    s.dispatch ≠ .halt ∧ (s.dispatch = .fetch ↔ s.completesEarly = true) := by
  have consistent := h.consistent (by rw [state]; rfl)
  obtain ⟨valid,noEcall,noEbreak⟩ := noTrap goes
  have legal := h.checked (by rw [state]; rfl) valid
  have known := consistent.known legal
  have early : s.completesEarly = true ↔ s.dec.isFence = true ∨ s.dec.isMret = true ∨ s.dec.isWfi = true := by
    simp [Regs.completesEarly,goes,or_assoc]
  rw [early]
  have other (op : s.dec.opcode ≠ Decoder.opFence ∧ s.dec.opcode ≠ Decoder.opSystem) :
      ¬ (s.dec.isFence = true ∨ s.dec.isMret = true ∨ s.dec.isWfi = true) := fun completes => by
    rcases consistent.early completes with fence | ⟨system,_⟩
    · exact op.1 fence
    · exact op.2 system
  rcases known with executes | accesses | branches | system | fence
  · have here : s.dispatch = .execute := by rw [Regs.dispatch,if_pos executes]
    have absent := other ⟨fun op => by rw [op] at executes; revert executes; decide,
      fun op => by rw [op] at executes; revert executes; decide⟩
    simp only [here,absent,iff_false]
    exact ⟨by simp,by simp⟩
  · have not' : s.dec.opcode ∉ [Decoder.opReg,Decoder.opImm,Decoder.opLui,Decoder.opAuipc,Decoder.opJal,Decoder.opJalr,
        Decoder.opFp,Decoder.opFmadd,Decoder.opFmsub,Decoder.opFnmsub,Decoder.opFnmadd] := by
      simp only [List.mem_cons,List.not_mem_nil,or_false] at accesses
      rcases accesses with op | op | op | op | op <;> rw [op] <;> decide
    have here : s.dispatch = .memAddr := by rw [Regs.dispatch,if_neg not',if_pos accesses]
    have absent := other ⟨fun op => by rw [op] at accesses; revert accesses; decide,
      fun op => by rw [op] at accesses; revert accesses; decide⟩
    simp only [here,absent,iff_false]
    exact ⟨by simp,by simp⟩
  · have here : s.dispatch = .execute := by rw [Regs.dispatch,branches]; rfl
    have absent := other ⟨by rw [branches]; decide,by rw [branches]; decide⟩
    simp only [here,absent,iff_false]
    exact ⟨by simp,by simp⟩
  · have here : s.dispatch = if s.dec.isCsr then .csr else .fetch := by rw [Regs.dispatch,system]; rfl
    rw [here]
    rcases Bool.eq_false_or_eq_true s.dec.isCsr with csr | plain
    · rw [csr,if_pos rfl]
      refine ⟨by simp,by simp,fun completes => ?_⟩
      rcases consistent.early completes with fence | ⟨_,plain⟩
      · rw [system] at fence
        exact absurd fence (by decide)
      · rw [csr] at plain
        contradiction
    · rw [plain,if_neg Bool.false_ne_true]
      refine ⟨by simp,fun _ => ?_,fun _ => rfl⟩
      have kind := consistent.system system legal plain
      simp only [noEcall,noEbreak,Bool.false_eq_true,false_or] at kind
      exact .inr kind
  · have here : s.dispatch = .fetch := by rw [Regs.dispatch,fence]; rfl
    rw [here]
    exact ⟨by simp,fun _ => .inl (consistent.fence fence),fun _ => rfl⟩

theorem decodedNext {i : Inputs} (h : (s.nextState i).decoded = true) :
    s.currentState = .decode ∨ s.currentState.decoded = true := by
  cases state : s.currentState with
  | boot | fetch =>
    simp only [Regs.nextState,state] at h
    repeat' split at h
    all_goals contradiction
  | halt => simp [Regs.nextState,state,State.decoded] at h
  | decode => exact .inl rfl
  | decodeWait | regRead | regReadWait | execute | memAddr | memRead | memWrite | writeback | branch | csr | atomicRmw =>
    exact .inr rfl

theorem checkedNext {i : Inputs} (h : (s.nextState i).checked = true) :
    s.currentState = .decodeWait ∨ s.currentState.checked = true := by
  cases state : s.currentState with
  | boot | fetch =>
    simp only [Regs.nextState,state] at h
    repeat' split at h
    all_goals contradiction
  | halt | decode => simp [Regs.nextState,state,State.checked] at h
  | decodeWait => exact .inl rfl
  | regRead | regReadWait | execute | memAddr | memRead | memWrite | writeback | branch | csr | atomicRmw => exact .inr rfl

theorem handshaken {i : Inputs} (h : s.memAHandshake i = true) : s.memReqInflight = false ∧
    (s.imemReq i = true ∨ s.imemReq i = false ∧ s.dmemReq i = true) := by
  simp only [Regs.memAHandshake,Regs.access,Bool.and_eq_true] at h
  have valid := h.1
  rcases Bool.eq_false_or_eq_true (s.imemReq i) with fetches | absent
  · rw [if_pos fetches] at valid
    exact ⟨by simpa using valid,.inl fetches⟩
  · rw [if_neg (by simp [absent])] at valid
    split at valid
    · exact ⟨by simpa using valid,.inr ⟨absent,by assumption⟩⟩
    · contradiction

theorem fetchAsked {i : Inputs} (h : s.imemReq i = true) : s.currentState = .fetch ∧ s.interruptTaken i = false ∧
    s.wfiActive = false ∧ i.reqHalt = false ∧ s.imemDataStagingValid = false := by
  simp only [Regs.imemReq,Bool.and_eq_true,beq_iff_eq,Bool.not_eq_true'] at h
  exact ⟨h.1.1.1.1,h.1.1.1.2,h.1.1.2,h.1.2,h.2⟩

theorem dataAsked {i : Inputs} (h : s.dmemReq i = true) :
    s.currentState = .memRead ∨ s.currentState = .memWrite ∨ s.currentState = .atomicRmw := by
  cases state : s.currentState <;> simp [Regs.dmemReq,state] at h ⊢

theorem askedStays {i : Inputs} (state : s.currentState = .memRead ∨ s.currentState = .memWrite ∨ s.currentState = .atomicRmw)
    (waits : s.memDHandshake i = false) : s.nextState i = s.currentState := by
  rcases state with state | state | state <;> simp [Regs.nextState,state,Regs.dmemReady,waits]

theorem inflightStep (h : Reached cfg s) {i : Inputs} (asked : (s.next cfg i).memReqInflight = true) :
    s.nextState i = .fetch ∨ s.nextState i = .memRead ∨ s.nextState i = .memWrite ∨ s.nextState i = .atomicRmw ∨
      s.nextState i = .halt := by
  simp only [inflightNext,Bool.and_eq_true,Bool.or_eq_true,Bool.not_eq_true'] at asked
  obtain ⟨asks,waits⟩ := asked
  have data (state : s.currentState = .memRead ∨ s.currentState = .memWrite ∨ s.currentState = .atomicRmw) :
      s.nextState i = .memRead ∨ s.nextState i = .memWrite ∨ s.nextState i = .atomicRmw := by
    rw [askedStays state waits]
    exact state
  rcases asks with before | now
  · rcases h.inflight before with fetch | read | write | rmw | halt
    · have unstaged : s.imemDataStagingValid = false := by
        rcases Bool.eq_false_or_eq_true s.imemDataStagingValid with staged | absent
        · rcases h.staged staged with ⟨_,quiet⟩ | halt
          · rw [before] at quiet
            contradiction
          · rw [fetch] at halt
            contradiction
        · exact absent
      simp only [Regs.nextState,fetch,Regs.imemReady,unstaged]
      split
      · simp
      · split <;> simp
    · rcases data (.inl read) with next | next | next <;> simp [next]
    · rcases data (.inr (.inl write)) with next | next | next <;> simp [next]
    · rcases data (.inr (.inr rmw)) with next | next | next <;> simp [next]
    · simp [Regs.nextState,halt]
  · rcases (handshaken now).2 with fetches | ⟨_,accesses⟩
    · obtain ⟨state,quiet,awake,runs,unstaged⟩ := fetchAsked fetches
      simp [Regs.nextState,state,quiet,awake,runs,Regs.imemReady,unstaged]
    · rcases data (dataAsked accesses) with next | next | next <;> simp [next]

theorem stagedStep (h : Reached cfg s) {i : Inputs} (staged : (s.next cfg i).imemDataStagingValid = true) :
    s.nextState i = .fetch ∧ (s.next cfg i).memReqInflight = false ∨ s.nextState i = .halt := by
  simp only [stagedNext,Bool.or_eq_true,Bool.and_eq_true,Bool.not_eq_true',Bool.or_eq_false_iff] at staged
  rcases staged with arrives | ⟨before,kept,whole⟩
  · simp only [Regs.imemDataStagingWrite,Bool.and_eq_true,beq_iff_eq] at arrives
    obtain ⟨state,response⟩ := arrives
    have asked : s.memReqInflight = true := by
      simp only [Regs.memDHandshake,Bool.and_eq_true] at response
      exact response.2
    have unstaged : s.imemDataStagingValid = false := by
      rcases Bool.eq_false_or_eq_true s.imemDataStagingValid with staged | absent
      · rcases h.staged staged with ⟨_,quiet⟩ | halt
        · rw [asked] at quiet
          contradiction
        · rw [state] at halt
          contradiction
      · exact absent
    simp only [inflightNext,response,Bool.not_true,Bool.and_false,and_true]
    simp only [Regs.nextState,state,Regs.imemReady,unstaged]
    split
    · exact .inr rfl
    · split <;> exact .inl rfl
  · rcases h.staged before with ⟨state,quiet⟩ | halt
    · have asks : s.memAHandshake i = false := by
        rcases Bool.eq_false_or_eq_true (s.memAHandshake i) with shakes | absent
        · rcases (handshaken shakes).2 with fetches | ⟨_,accesses⟩
          · have unstaged := (fetchAsked fetches).2.2.2.2
            rw [before] at unstaged
            contradiction
          · rcases dataAsked accesses with other | other | other <;> rw [state] at other <;> contradiction
        · exact absent
      have still : (s.next cfg i).memReqInflight = false := by simp [quiet,asks]
      have interrupt : s.interruptTaken i = false := by
        rcases Bool.eq_false_or_eq_true (s.interruptTaken i) with taken | absent
        · simp [Regs.invalidateFetchBuffer,Regs.pcWrite,Regs.controlFlowRedirect,Regs.csrTrapEntry,state,taken] at whole
        · exact absent
      have sleeps : s.wfiActive = true := by
        rcases Bool.eq_false_or_eq_true s.wfiActive with sleeps | awake
        · exact sleeps
        · simp [Regs.irWrite,state,interrupt,awake,Regs.imemReady,before] at kept
      rw [still]
      simp only [Regs.nextState,state,sleeps,Bool.or_true,if_true,and_true]
      split
      · exact .inr rfl
      · exact .inl rfl
    · exact .inr (by simp [Regs.nextState,halt])

theorem reachedNext (h : Reached cfg s) (i : Inputs) : Reached cfg (s.next cfg i) where
  decoded next := by
    rcases decodedNext next with state | before
    · have kept := irKept (i := i) (show s.currentState ≠ .fetch by simp [state])
      simp [state,kept]
    · have kept := irKept (i := i) (show s.currentState ≠ .fetch by intro state; rw [state] at before; contradiction)
      have other : s.currentState ≠ .decode := by intro state; rw [state] at before; contradiction
      simp [other,kept,h.decoded before]
  checked next valid := by
    have kept (other : s.currentState ≠ .fetch) := irKept (i := i) other
    rcases checkedNext next with state | before
    · have valid' : (s.next cfg i).isInstructionValidReg = (s.isInstructionValidReg && s.dec.instructionValid) := by
        simp [Regs.next,kept (by simp [state]),state]
      rw [valid',Bool.and_eq_true] at valid
      simpa [state] using valid.2
    · have others : s.currentState ≠ .fetch ∧ s.currentState ≠ .decode ∧ s.currentState ≠ .decodeWait := by
        refine ⟨?_,?_,?_⟩ <;> intro state <;> rw [state] at before <;> contradiction
      have valid' : (s.next cfg i).isInstructionValidReg = s.isInstructionValidReg := by
        simp [Regs.next,kept others.1,others.2.2]
      rw [valid'] at valid
      simpa [others.2.1] using h.checked before valid
  inflight asked := inflightStep h asked
  staged staged := stagedStep h staged

end RiscvSoc.Core
