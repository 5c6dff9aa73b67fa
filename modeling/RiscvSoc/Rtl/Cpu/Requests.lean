import RiscvSoc.Rtl.Cpu.Reachable
import RiscvSoc.Rtl.MemInterface

/-! In every run the core drives on its address channel the request that `MemInterface` gives for the instruction in `ir_reg`,
the state and the registers, and the instruction is one that can make a request there. -/
namespace RiscvSoc.Decoder

/- What the requests of an instruction depend on. -/
def Control.memory (c : Control) : Cpu.Decoded := ⟨c.memRead,c.memWrite,c.isFpStore,c.isSc,c.isAmo⟩

theorem quietIf {p : Prop} [Decidable p] {a b : Control} (yes : p → a.memory = .none) (no : ¬ p → b.memory = .none) :
    (if p then a else b).memory = .none := by
  split
  · exact yes (by assumption)
  · exact no (by assumption)

theorem atomicMemory (instruction : BitVec 32) : (atomic instruction).memory = Cpu.decodeAmo (funct5 instruction) := by
  unfold atomic amoOp
  generalize funct5 instruction = f
  revert f
  decide

theorem controlMemory (instruction : BitVec 32) (enableM enableF : Bool) :
    (control instruction enableM enableF).memory = Cpu.decode enableF instruction := by
  have same : Cpu.opcode instruction = opcode instruction := rfl
  rw [Cpu.decode,same]
  by_cases load : opcode instruction = opLoad
  · rw [control,load]
    rfl
  by_cases loadFp : opcode instruction = opLoadFp
  · rw [control,loadFp]
    cases enableF <;> rfl
  by_cases store : opcode instruction = opStore
  · rw [control,store]
    rfl
  by_cases storeFp : opcode instruction = opStoreFp
  · rw [control,storeFp]
    cases enableF <;> rfl
  by_cases amo : opcode instruction = opAmo
  · rw [control,amo]
    exact atomicMemory instruction
  have silent : (control instruction enableM enableF).memory = .none := by
    unfold control
    simp only [if_neg load,if_neg loadFp,if_neg store,if_neg storeFp,if_neg amo]
    repeat' refine quietIf (fun _ => ?_) fun _ => ?_
    all_goals rfl
  rw [silent]
  exact ((if_neg load).trans ((if_neg loadFp).trans ((if_neg store).trans ((if_neg storeFp).trans (if_neg amo))))).symm

end RiscvSoc.Decoder

namespace RiscvSoc.Core
open Mealy Machine

def State.request : State → Option Cpu.State
  | .fetch => some .fetch
  | .memRead => some .memRead
  | .memWrite => some .memWrite
  | .atomicRmw => some .atomicRmw
  | _ => none

namespace Regs

def request (cfg : Config) (s : Regs) (i : Inputs) (state : Cpu.State) : Cpu.Request :=
  ⟨cfg.enableF,s.irReg,state,s.pc,s.aluOutReg,s.bReg,i.fs2Data,s.amoWriteData i,s.scSuccess⟩

end Regs

def accessStates : List State := [.memAddr,.memRead,.memWrite,.atomicRmw]

structure Addressing (cfg : Config) (s : Regs) : Prop extends Reached cfg s where
  dispatched : s.currentState ∈ accessStates →
    s.dec.opcode ∈ [Decoder.opLoad,Decoder.opLoadFp,Decoder.opStore,Decoder.opStoreFp,Decoder.opAmo]
  reads : s.currentState = .memRead → s.dec.memRead = true
  writes : s.currentState = .memWrite → s.dec.memRead = false
  computes : s.currentState = .atomicRmw → s.dec.isAmo = true

variable {cfg : Config} {s : Regs} {i : Inputs}

theorem resetAddressing (s : Regs) : Addressing cfg (reset s) where
  toReached := resetReached s
  dispatched h := absurd (show State.boot ∈ accessStates from h) (by decide)
  reads h := by simp [reset] at h
  writes h := by simp [reset] at h
  computes h := by simp [reset] at h

theorem dispatchAddress (goes : s.dispatch ∈ accessStates) : s.dispatch = .memAddr ∧
    s.dec.opcode ∈ [Decoder.opLoad,Decoder.opLoadFp,Decoder.opStore,Decoder.opStoreFp,Decoder.opAmo] := by
  unfold Regs.dispatch at goes ⊢
  simp only at goes ⊢
  split at goes
  · exact absurd goes (by decide)
  rename_i other
  rw [if_neg other]
  split at goes
  · rename_i accesses
    exact ⟨if_pos accesses,accesses⟩
  · repeat' split at goes
    all_goals exact absurd goes (by decide)

theorem accessNext (next : s.nextState i ∈ accessStates) : s.currentState ∈ accessStates ∨
    s.currentState = .regReadWait ∧ s.nextState i = s.dispatch := by
  cases state : s.currentState with
  | memAddr | memRead | memWrite | atomicRmw => exact .inl (by decide)
  | regReadWait =>
    right
    simp only [Regs.nextState,state] at next ⊢
    split at next
    · exact absurd next (by decide)
    · rename_i goes
      exact ⟨trivial,if_neg goes⟩
  | boot | fetch | execute =>
    simp only [Regs.nextState,state] at next
    repeat' split at next
    all_goals exact absurd next (by decide)
  | decode | decodeWait | regRead | writeback | branch | csr | halt =>
    simp only [Regs.nextState,state] at next
    exact absurd next (by decide)

theorem accessMoves (next : s.nextState i ∈ accessStates) (beyond : s.nextState i ≠ .memAddr) :
    s.currentState ≠ .decode ∧
      (s.currentState = .memAddr ∧ s.nextState i = (if s.dec.memRead then .memRead else .memWrite) ∨
        s.nextState i = s.currentState ∨ s.dec.isAmo = true ∧ s.nextState i = .atomicRmw) := by
  rcases accessNext next with before | ⟨_,goes⟩
  · simp only [accessStates,List.mem_cons,List.not_mem_nil,or_false] at before
    rcases before with state | state | state | state <;> simp only [Regs.nextState,state] at next beyond ⊢
    · exact ⟨by decide,.inl ⟨trivial,trivial⟩⟩
    all_goals
      refine ⟨by decide,.inr ?_⟩
      repeat' split at next
      all_goals simp_all [accessStates]
  · rw [goes] at next beyond
    exact absurd (dispatchAddress next).1 beyond

theorem addressingNext (h : Addressing cfg s) (i : Inputs) : Addressing cfg (s.next cfg i) where
  toReached := reachedNext h.toReached i
  dispatched next := by
    rcases accessNext next with before | ⟨state,goes⟩
    · have other : s.currentState ≠ .decode := by intro state; rw [state] at before; exact absurd before (by decide)
      rw [decNext,if_neg other]
      exact h.dispatched before
    · rw [decNext,if_neg (by rw [state]; decide)]
      rw [stateNext,goes] at next
      exact (dispatchAddress next).2
  reads next := by
    rw [stateNext] at next
    obtain ⟨other,⟨_,way⟩ | stays | ⟨_,computes⟩⟩ := accessMoves (by rw [next]; decide) (by rw [next]; decide)
    · rw [decNext,if_neg other]
      exact Decidable.by_contra fun absent => by simp [next,absent] at way
    · rw [decNext,if_neg other]
      exact h.reads (stays.symm.trans next)
    · exact absurd (next.symm.trans computes) (by decide)
  writes next := by
    rw [stateNext] at next
    obtain ⟨other,⟨_,way⟩ | stays | ⟨_,computes⟩⟩ := accessMoves (by rw [next]; decide) (by rw [next]; decide)
    · rw [decNext,if_neg other]
      exact Bool.eq_false_iff.mpr fun present => by simp [next,present] at way
    · rw [decNext,if_neg other]
      exact h.writes (stays.symm.trans next)
    · exact absurd (next.symm.trans computes) (by decide)
  computes next := by
    rw [stateNext] at next
    obtain ⟨other,⟨_,way⟩ | stays | ⟨amo,_⟩⟩ := accessMoves (by rw [next]; decide) (by rw [next]; decide)
    · rw [next] at way
      split at way <;> contradiction
    · rw [decNext,if_neg other]
      exact h.computes (stays.symm.trans next)
    · rw [decNext,if_neg other]
      exact amo

def Requested (cfg : Config) (s : Regs) (i : Inputs) : Prop :=
  (s.access i).valid = true → ∃ state, s.currentState.request = some state ∧
    (s.request cfg i state).reachable = true ∧
    (let a := s.access i; (⟨a.addr,a.wdata,a.we,a.size⟩ : Cpu.Access)) = (s.request cfg i state).access

theorem decodedMemory (h : Reached cfg s) (decoded : s.currentState.decoded = true) :
    s.dec.memory = Cpu.decode cfg.enableF s.irReg ∧ s.dec.opcode = Cpu.opcode s.irReg ∧
      s.dec.funct3 = Cpu.funct3 s.irReg := by
  rw [h.decoded decoded]
  exact ⟨Decoder.controlMemory s.irReg cfg.enableM cfg.enableF,rfl,rfl⟩

theorem dataRequest (h : Addressing cfg s) {state : Cpu.State} (here : s.currentState.request = some state)
    (data : state ≠ .fetch) : (s.request cfg i state).reachable = true ∧
      (s.request cfg i state).access = ⟨s.aluOutReg,s.dmemWdata i,s.dmemWe,s.dec.funct3.extractLsb' 0 2⟩ := by
  have member : s.currentState ∈ accessStates ∧ s.currentState.decoded = true := by
    revert here data
    cases s.currentState <;> cases state <;> decide
  obtain ⟨memory,opcode,funct3⟩ := decodedMemory h.toReached member.2
  have accesses : Cpu.accessesMemory s.irReg = true := by
    have known := h.dispatched member.1
    rw [opcode] at known
    simp only [List.mem_cons,List.not_mem_nil,or_false] at known
    rw [Cpu.accessesMemory]
    rcases known with op | op | op | op | op <;> rw [op] <;> rfl
  have given : s.currentState = .memRead ∧ state = .memRead ∨ s.currentState = .memWrite ∧ state = .memWrite ∨
      s.currentState = .atomicRmw ∧ state = .atomicRmw := by
    revert here data
    cases s.currentState <;> cases state <;> decide
  simp only [Cpu.Request.reachable,Cpu.Request.access,Cpu.memInterface,Regs.request,← memory,← funct3,accesses,
    Regs.dmemWdata,Regs.dmemWe]
  rcases given with ⟨core,rfl⟩ | ⟨core,rfl⟩ | ⟨core,rfl⟩
  · exact ⟨h.reads core,by rw [core]; rfl⟩
  · exact ⟨congrArg (true && !·) (h.writes core),by rw [core]; rfl⟩
  · exact ⟨h.computes core,by rw [core]; rfl⟩

theorem requested (h : Addressing cfg s) (i : Inputs) : Requested cfg s i := by
  intro asks
  by_cases fetches : s.imemReq i = true
  · have state := (fetchAsked fetches).1
    refine ⟨.fetch,by rw [state]; rfl,rfl,?_⟩
    rw [Regs.access,if_pos fetches]
    rfl
  · rw [Regs.access,if_neg fetches] at asks ⊢
    split at asks
    · rename_i data
      rw [if_pos data]
      obtain ⟨state,here,other⟩ : ∃ state, s.currentState.request = some state ∧ state ≠ .fetch := by
        rcases dataAsked data with state | state | state <;> rw [state] <;> exact ⟨_,rfl,by decide⟩
      obtain ⟨reachable,access⟩ := dataRequest h here other
      exact ⟨state,here,reachable,access.symm⟩
    · contradiction

/- In every run from a reset, whatever memory, ALU, FPU and interrupts do. -/
theorem requestsMade (cfg : Config) (s : Regs) (inputs : List Inputs) :
    (machine cfg).Steps (Requested cfg) (reset s) inputs := by
  have step (t : Regs) (i : Inputs) (h : Addressing cfg t) (_ : True) : Addressing cfg (t.next cfg i) ∧ Requested cfg t i :=
    ⟨addressingNext h i,requested h i⟩
  exact stepsAll step (resetAddressing s) fun _ _ => trivial

end RiscvSoc.Core
