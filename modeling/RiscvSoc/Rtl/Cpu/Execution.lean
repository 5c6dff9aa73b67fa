import RiscvSoc.Lib.Passage
import RiscvSoc.Rtl.Cpu.PreciseTraps

/-! An instruction in progress. Its operands are what the registers hold, and nothing that the
program sees changes before the cycle that writes it. -/
namespace RiscvSoc.CsrFile.Regs

def uncounted (s : Regs) : Regs := {s with rdata := 0, cycle := 0, instret := 0}

variable {s : Regs} {enableM enableF : Bool} {i : Inputs}

theorem unwritten (entry : i.trapEntry = false) (noReturn : i.trapReturn = false) (flags : (i.fpFflagsWe && enableF) = false)
    (csr : i.isCsr = false) : (s.next enableM enableF i).uncounted = s.uncounted := by
  simp [next,uncounted,entry,noReturn,flags,csr]

theorem rdataAfter (s : Regs) (enableM enableF : Bool) (i : Inputs) :
    (s.next enableM enableF i).rdata = s.rdataNext enableM enableF i := by
  simp only [next]
  repeat' split
  all_goals rfl

end RiscvSoc.CsrFile.Regs

namespace RiscvSoc.Decoder

theorem controlSystem {w : BitVec 32} (enableM enableF : Bool) (op : opcode w = opSystem) :
    control w enableM enableF = system w := by
  simp only [control,op]
  rfl

end RiscvSoc.Decoder

namespace RiscvSoc.Core
open Mealy Machine

def operand (bank : SyncDpram 32 8) (r : BitVec 5) : BitVec 32 := if r = 0 then 0 else bank.mem (0#3 ++ r)

theorem operandSame {bank bank' : SyncDpram 32 8} (same : bank.mem = bank'.mem) (r : BitVec 5) :
    operand bank r = operand bank' r := by rw [operand,operand,same]

structure Supplied (cfg : Config) (s : Regs) : Prop extends Sequenced cfg s where
  flags : s.currentState.checked = true →
    s.rdIsX0 = (s.dec.rd == 0) ∧ s.rs1IsX0 = (s.dec.rs1 == 0) ∧ s.rs2IsX0 = (s.dec.rs2 == 0)
  asked : s.currentState = .regRead →
    s.bankA.rdataPipe = s.bankA.mem (0#3 ++ s.dec.rs1) ∧ s.bankB.rdataPipe = s.bankB.mem (0#3 ++ s.dec.rs2)
  read : s.currentState = .regReadWait →
    s.bankA.rdata = s.bankA.mem (0#3 ++ s.dec.rs1) ∧ s.bankB.rdata = s.bankB.mem (0#3 ++ s.dec.rs2)
  operands : s.currentState.going = true → s.aReg = operand s.bankA s.dec.rs1 ∧ s.bReg = operand s.bankB s.dec.rs2

variable {cfg : Config} {s t : Regs} {i : Inputs}

theorem banksNext (cfg : Config) (s : Regs) (i : Inputs) : (s.next cfg i).bankA = s.bankStep s.bankA s.dec.rs1 ∧
    (s.next cfg i).bankB = s.bankStep s.bankB s.dec.rs2 := ⟨rfl,rfl⟩

theorem banksKept (cfg : Config) (i : Inputs) (quiet : s.regWe = false) :
    (s.next cfg i).bankA.mem = s.bankA.mem ∧ (s.next cfg i).bankB.mem = s.bankB.mem := by
  simp [banksNext,Regs.bankStep,SyncDpram.writeEdge,SyncDpram.readEdge,quiet]

theorem regWeIn (other : s.currentState ≠ .writeback) : s.regWe = false := by simp [Regs.regWe,other]

theorem registerInj {r q : BitVec 5} (same : 0#3 ++ r = 0#3 ++ q) : r = q := by
  have low := congrArg (BitVec.extractLsb' 0 5) same
  rwa [BitVec.extractLsb'_append_eq_right,BitVec.extractLsb'_append_eq_right] at low

theorem operandWritten (bank : SyncDpram 32 8) (word : BitVec 32) (we : Bool) (rd r : BitVec 5) (value : BitVec 32)
    (other : we = true → rd ≠ 0) : operand ((bank.readEdge word).writeEdge we (0#3 ++ rd) value) r =
      if we = true ∧ r = rd then value else operand bank r := by
  rcases Bool.eq_false_or_eq_true we with writes | quiet
  · by_cases same : r = rd
    · have named := other writes
      rw [operand,if_neg (by rw [same]; exact named),if_pos ⟨writes,same⟩,same]
      simp [SyncDpram.writeEdge,writes]
    · have apart : 0#3 ++ r ≠ 0#3 ++ rd := fun equal => same (registerInj equal)
      simp [operand,SyncDpram.writeEdge,SyncDpram.readEdge,writes,same,Function.update_of_ne apart]
  · simp [operand,SyncDpram.writeEdge,SyncDpram.readEdge,quiet]

theorem writtenBack (cfg : Config) (i : Inputs) (state : s.currentState = .writeback) (flag : s.rdIsX0 = (s.dec.rd == 0))
    (r : BitVec 5) :
    operand (s.next cfg i).bankA r =
      (if s.dec.regWrite = true ∧ r ≠ 0 ∧ r = s.dec.rd then s.rdData else operand s.bankA r) ∧
    operand (s.next cfg i).bankB r =
      if s.dec.regWrite = true ∧ r ≠ 0 ∧ r = s.dec.rd then s.rdData else operand s.bankB r := by
  have we : s.regWe = (s.dec.regWrite && !(s.dec.rd == 0)) := by simp [Regs.regWe,state,flag]
  have named : s.regWe = true → s.dec.rd ≠ 0 := by simp [we]
  have same : (s.regWe = true ∧ r = s.dec.rd) ↔ s.dec.regWrite = true ∧ r ≠ 0 ∧ r = s.dec.rd := by
    rw [we]
    simp only [Bool.and_eq_true,Bool.not_eq_true',beq_eq_false_iff_ne,ne_eq]
    exact ⟨fun h => ⟨h.1.1,by rw [h.2]; exact h.1.2,h.2⟩,fun h => ⟨⟨h.1,by rw [← h.2.2]; exact h.2.1⟩,h.2.2⟩⟩
  rw [(banksNext cfg s i).1,(banksNext cfg s i).2,Regs.bankStep,Regs.bankStep,operandWritten _ _ _ _ _ _ named,
    operandWritten _ _ _ _ _ _ named]
  simp only [same,and_self]

theorem resetSupplied (s : Regs) : Supplied cfg (reset s) where
  toSequenced := resetSequenced s
  flags h := by simp [reset,State.checked] at h
  asked h := by simp [reset] at h
  read h := by simp [reset] at h
  operands h := by simp [reset,State.going] at h

theorem regReadNext (next : s.nextState i = .regRead) : s.currentState = .decodeWait := by
  cases state : s.currentState with
  | decodeWait => rfl
  | decode | regRead | writeback | branch | csr | halt => simp [Regs.nextState,state] at next
  | regReadWait =>
    simp only [Regs.nextState,state,Regs.dispatch] at next
    repeat' split at next
    all_goals contradiction
  | boot | fetch | execute | memAddr | memRead | memWrite | atomicRmw =>
    simp only [Regs.nextState,state] at next
    repeat' split at next
    all_goals contradiction

theorem regReadWaitNext (next : s.nextState i = .regReadWait) : s.currentState = .regRead := by
  cases state : s.currentState with
  | regRead => rfl
  | decode | decodeWait | writeback | branch | csr | halt => simp [Regs.nextState,state] at next
  | regReadWait =>
    simp only [Regs.nextState,state,Regs.dispatch] at next
    repeat' split at next
    all_goals contradiction
  | boot | fetch | execute | memAddr | memRead | memWrite | atomicRmw =>
    simp only [Regs.nextState,state] at next
    repeat' split at next
    all_goals contradiction

theorem operandsNext (h : Supplied cfg s) (going : (s.nextState i).going = true) :
    (s.next cfg i).aReg = operand (s.next cfg i).bankA (s.next cfg i).dec.rs1 ∧
      (s.next cfg i).bReg = operand (s.next cfg i).bankB (s.next cfg i).dec.rs2 := by
  have other : s.currentState ≠ .writeback := fun state => by simp [Regs.nextState,state,State.going] at going
  obtain ⟨bankA,bankB⟩ := banksKept cfg i (regWeIn other)
  rcases goingNext going with before | ⟨state,_⟩
  · have left : s.currentState ≠ .regReadWait ∧ s.currentState ≠ .decode := by
      refine ⟨?_,?_⟩ <;> intro state <;> rw [state] at before <;> contradiction
    rw [(operandsKept left.1).1,(operandsKept left.1).2,decKept left.2,operand,operand,bankA,bankB]
    exact h.operands before
  · obtain ⟨_,rs1,rs2⟩ := h.flags (by rw [state]; rfl)
    obtain ⟨readA,readB⟩ := h.read state
    have a : (s.next cfg i).aReg = if s.rs1IsX0 then 0 else s.bankA.rdata := by simp [Regs.next,state]
    have b : (s.next cfg i).bReg = if s.rs2IsX0 then 0 else s.bankB.rdata := by simp [Regs.next,state]
    rw [a,b,decKept (by simp [state]),operand,operand,bankA,bankB,rs1,rs2,readA,readB]
    simp

theorem suppliedNext (h : Supplied cfg s) (i : Inputs) : Supplied cfg (s.next cfg i) where
  toSequenced := sequencedNext h.toSequenced i
  flags checked := by
    rcases checkedNext checked with state | before
    · have kept := irKept (i := i) (show s.currentState ≠ .fetch by simp [state])
      rw [decKept (by simp [state])]
      simp [Regs.next,kept,state]
    · have others : s.currentState ≠ .fetch ∧ s.currentState ≠ .decode ∧ s.currentState ≠ .decodeWait := by
        refine ⟨?_,?_,?_⟩ <;> intro state <;> rw [state] at before <;> contradiction
      rw [decKept others.2.1]
      simpa [Regs.next,others.2.2] using h.flags before
  asked next := by
    have state := regReadNext next
    have banks := banksKept cfg i (regWeIn (s := s) (by simp [state]))
    rw [decKept (by simp [state]),banks.1,banks.2]
    exact ⟨rfl,rfl⟩
  read next := by
    have state := regReadWaitNext next
    have banks := banksKept cfg i (regWeIn (s := s) (by simp [state]))
    rw [decKept (by simp [state]),banks.1,banks.2]
    exact h.asked state
  operands going := operandsNext h going

/- The states in which nothing that the program sees is written. -/
def State.quiet : State → Bool
  | .decode | .decodeWait | .regRead | .regReadWait | .execute | .memAddr | .memRead | .memWrite | .branch | .atomicRmw => true
  | _ => false

def Regs.proceeds (s : Regs) : Bool :=
  s.currentState != .regReadWait || !s.syncTrapPending && !s.dec.isMret

structure Kept (s t : Regs) : Prop where
  ir : t.irReg = s.irReg
  instrPc : t.instrPcReg = s.instrPcReg
  increment : t.pcIncrement = s.pcIncrement
  bankA : t.bankA.mem = s.bankA.mem
  bankB : t.bankB.mem = s.bankB.mem
  csr : t.csr.uncounted = s.csr.uncounted

theorem keptRefl (s : Regs) : Kept s s := ⟨rfl,rfl,rfl,rfl,rfl,rfl⟩

theorem Kept.trans {u : Regs} (first : Kept s t) (second : Kept t u) : Kept s u where
  ir := second.ir.trans first.ir
  instrPc := second.instrPc.trans first.instrPc
  increment := second.increment.trans first.increment
  bankA := second.bankA.trans first.bankA
  bankB := second.bankB.trans first.bankB
  csr := second.csr.trans first.csr

theorem csrsKept (cfg : Config) (i : Inputs) (entry : s.csrTrapEntry i = false) (noReturn : s.csrTrapReturn = false)
    (flags : ((s.csrInputs i).fpFflagsWe && cfg.enableF) = false) (csr : (s.csrInputs i).isCsr = false) :
    (s.next cfg i).csr.uncounted = s.csr.uncounted := by
  rw [csrNext]
  exact CsrFile.Regs.unwritten entry noReturn flags csr

theorem quietKeeps (cfg : Config) (i : Inputs) (quiet : s.currentState.quiet = true) (proceeds : s.proceeds = true) :
    Kept s (s.next cfg i) := by
  have others : s.currentState ≠ .fetch ∧ s.currentState ≠ .writeback ∧ s.currentState ≠ .csr := by
    refine ⟨?_,?_,?_⟩ <;> intro state <;> rw [state] at quiet <;> contradiction
  have kept := irKept (i := i) others.1
  have banks := banksKept cfg i (regWeIn others.2.1)
  have traps : s.csrTrapEntry i = false ∧ s.csrTrapReturn = false := by
    by_cases state : s.currentState = .regReadWait
    · simp only [Regs.proceeds,state,bne_self_eq_false,Bool.false_or,Bool.and_eq_true,Bool.not_eq_true'] at proceeds
      simp [Regs.csrTrapEntry,Regs.csrTrapReturn,state,proceeds]
    · refine ⟨?_,by simp [Regs.csrTrapReturn,state]⟩
      cases place : s.currentState with
      | fetch => exact absurd place others.1
      | regReadWait => exact absurd place state
      | _ => simp [Regs.csrTrapEntry,place]
  have csr := csrsKept cfg i traps.1 traps.2 (by simp [Regs.csrInputs,others]) (by simp [Regs.csrInputs,others])
  refine ⟨?_,?_,incrementKept kept,banks.1,banks.2,csr⟩
  · rw [irNext,kept,if_neg Bool.false_ne_true]
  · rw [instrPcNext,kept,if_neg Bool.false_ne_true]

theorem reservationKept (cfg : Config) (i : Inputs) (lr : s.dec.isLr = false ∨ s.currentState ≠ .memRead)
    (sc : s.dec.isSc = false ∨ s.currentState ≠ .memWrite)
    (stores : s.dec.memWrite = false ∨ s.currentState ≠ .memWrite ∧ s.currentState ≠ .atomicRmw) :
    (s.next cfg i).reservationValid = s.reservationValid ∧ (s.next cfg i).reservationAddr = s.reservationAddr := by
  have noLr : (s.dec.isLr && s.currentState == .memRead && s.dmemReady i) = false := by
    rcases lr with absent | other
    · simp [absent]
    · simp [beq_eq_false_iff_ne.mpr other]
  have noSc : (s.dec.isSc && s.currentState == .memWrite && s.dmemReady i) = false := by
    rcases sc with absent | other
    · simp [absent]
    · simp [beq_eq_false_iff_ne.mpr other]
  have noStore : s.dmemWe = false := by
    rcases stores with absent | others
    · simp [Regs.dmemWe,absent]
    · simp [Regs.dmemWe,beq_eq_false_iff_ne.mpr others.1,beq_eq_false_iff_ne.mpr others.2]
  simp only [Regs.next,noLr,noSc,noStore]
  simp

/- The cycles of an instruction from its decoding to its end. -/
def Executes (cfg : Config) (s : Regs) (during : List Inputs) : Prop :=
  (machine cfg).Passes (fun t => t.currentState.busy) s during

instance (cfg : Config) (s : Regs) (during : List Inputs) : Decidable (Executes cfg s during) :=
  inferInstanceAs (Decidable ((machine cfg).Passes _ _ _))

theorem executesOn {during : List Inputs} (busy : s.currentState.busy = true) (executes : Executes cfg s during) :
    ∃ i rest, during = i :: rest ∧ Executes cfg (s.next cfg i) rest := passesOn busy executes

structure Proceeds (c : Decoder.Control) : Prop where
  valid : c.instructionValid = true
  isEcall : c.isEcall = false
  isEbreak : c.isEbreak = false
  isMret : c.isMret = false

/- The instruction that `s` begins to decode, at a later state of its preparation. -/
structure Prepared (cfg : Config) (s t : Regs) (state : State) : Prop extends Supplied cfg t, Kept s t where
  state : t.currentState = state
  latched : t.isInstructionValidReg = true
  reservation : t.reservationValid = s.reservationValid ∧ t.reservationAddr = s.reservationAddr

structure Dispatched (cfg : Config) (s t : Regs) : Prop extends Prepared cfg s t t.dispatch where
  dec : t.dec = Decoder.decode cfg.enableM cfg.enableF s.irReg
  idle : t.memReqInflight = false
  unsent : t.aluReqSent = false ∧ t.aluReqSentRmw = false ∧ t.fpuStartSent = false

theorem Prepared.dec {state : State} (p : Prepared cfg s t state) (decoded : state.decoded = true) :
    t.dec = Decoder.decode cfg.enableM cfg.enableF s.irReg := by
  rw [p.decoded (by rw [p.state]; exact decoded),p.ir]

theorem Prepared.step {state : State} (p : Prepared cfg s t state) (i : Inputs) (prepares : state.prepares = true)
    (proceeds : t.proceeds = true) : Supplied cfg (t.next cfg i) ∧ Kept s (t.next cfg i) ∧
      (t.next cfg i).reservationValid = s.reservationValid ∧ (t.next cfg i).reservationAddr = s.reservationAddr := by
  have quiet : t.currentState.quiet = true := by
    rw [p.state]
    revert prepares
    cases state <;> decide
  have others : t.currentState ≠ .memRead ∧ t.currentState ≠ .memWrite ∧ t.currentState ≠ .atomicRmw := by
    rw [p.state]
    refine ⟨?_,?_,?_⟩ <;> intro same <;> rw [same] at prepares <;> contradiction
  have reservation := reservationKept cfg i (.inr others.1) (.inr others.2.1) (.inr others.2)
  rw [p.reservation.1,p.reservation.2] at reservation
  exact ⟨suppliedNext p.toSupplied i,p.toKept.trans (quietKeeps cfg i quiet proceeds),reservation⟩

theorem silent (fetches : s.currentState ≠ .fetch) (accesses : s.dmemReq i = false) :
    s.imemReq i = false ∧ (s.access i).valid = false ∧ s.memAHandshake i = false := by
  have absent : s.imemReq i = false := by simp [Regs.imemReq,fetches]
  exact ⟨absent,by simp [Regs.access,absent,accesses],by simp [Regs.memAHandshake,Regs.access,absent,accesses]⟩

section Steps
variable (proceeds : Proceeds (Decoder.control s.irReg cfg.enableM cfg.enableF))

theorem preparedFirst (h : Supplied cfg s) (state : s.currentState = .decode) (latched : s.isInstructionValidReg = true) :
    Prepared cfg s s .decode := ⟨h,keptRefl s,state,latched,rfl,rfl⟩

theorem Prepared.decodes (p : Prepared cfg s t .decode) (i : Inputs) : Prepared cfg s (t.next cfg i) .decodeWait := by
  have kept := irKept (i := i) (show t.currentState ≠ .fetch by simp [p.state])
  have stepped := p.step i rfl (by simp [Regs.proceeds,p.state])
  exact ⟨stepped.1,stepped.2.1,by simp [Regs.nextState,p.state],by simp [Regs.next,kept,p.state,p.latched],stepped.2.2⟩

include proceeds in
theorem Prepared.waits (p : Prepared cfg s t .decodeWait) (i : Inputs) : Prepared cfg s (t.next cfg i) .regRead := by
  have kept := irKept (i := i) (show t.currentState ≠ .fetch by simp [p.state])
  have stepped := p.step i rfl (by simp [Regs.proceeds,p.state])
  refine ⟨stepped.1,stepped.2.1,by simp [Regs.nextState,p.state],?_,stepped.2.2⟩
  have known : t.dec.instructionValid = true := by
    rw [p.dec rfl]
    exact proceeds.valid
  simp [Regs.next,kept,p.state,p.latched,known]

theorem Prepared.reads (p : Prepared cfg s t .regRead) (i : Inputs) : Prepared cfg s (t.next cfg i) .regReadWait := by
  have kept := irKept (i := i) (show t.currentState ≠ .fetch by simp [p.state])
  have stepped := p.step i rfl (by simp [Regs.proceeds,p.state])
  exact ⟨stepped.1,stepped.2.1,by simp [Regs.nextState,p.state],by simp [Regs.next,kept,p.state,p.latched],stepped.2.2⟩

include proceeds in
theorem Prepared.goes (p : Prepared cfg s t .regReadWait) : t.syncTrapPending = false ∧ t.proceeds = true := by
  have control := p.dec rfl
  have goes : t.syncTrapPending = false := by
    rw [Regs.syncTrapPending,p.latched,control]
    simp [Decoder.decode,proceeds.isEcall,proceeds.isEbreak]
  refine ⟨goes,?_⟩
  rw [Regs.proceeds,goes,control]
  simp [Decoder.decode,proceeds.isMret]

include proceeds in
theorem Prepared.dispatches (p : Prepared cfg s t .regReadWait) (i : Inputs) : Dispatched cfg s (t.next cfg i) := by
  have kept := irKept (i := i) (show t.currentState ≠ .fetch by simp [p.state])
  obtain ⟨goes,on⟩ := p.goes proceeds
  have stepped := p.step i rfl on
  have dec : (t.next cfg i).dec = t.dec := decKept (by simp [p.state])
  have still : t.memReqInflight = false := by
    rcases Bool.eq_false_or_eq_true t.memReqInflight with asked | still
    · have place := p.inflight asked
      simp [p.state] at place
    · exact still
  have absent := silent (i := i) (show t.currentState ≠ .fetch by simp [p.state]) (by simp [Regs.dmemReq,p.state])
  refine ⟨⟨stepped.1,stepped.2.1,?_,by simp [Regs.next,kept,p.state,p.latched],stepped.2.2⟩,dec.trans (p.dec rfl),
    by simp [still,absent.2.2],?_⟩
  · have same : (t.next cfg i).dispatch = t.dispatch := by rw [Regs.dispatch,Regs.dispatch,dec]
    rw [stateNext,same,Regs.nextState,p.state]
    simp [goes]
  · simp [Regs.next,p.state]

theorem Prepared.silent {state : State} (p : Prepared cfg s t state) (prepares : state.prepares = true) (i : Inputs) :
    (t.access i).valid = false ∧ t.memAHandshake i = false ∧ t.currentState ≠ .writeback := by
  have others : t.currentState ≠ .fetch ∧ t.currentState ≠ .writeback ∧ t.dmemReq i = false := by
    rw [p.state,Regs.dmemReq,p.state]
    revert prepares
    cases state <;> simp [State.prepares]
  have quiet := Core.silent (i := i) others.1 others.2.2
  exact ⟨quiet.2.1,quiet.2.2,others.2.1⟩

include proceeds in
theorem executesPrepared (h : Supplied cfg s) (state : s.currentState = .decode) (latched : s.isInstructionValidReg = true)
    {during : List Inputs} (executes : Executes cfg s during) : ∃ i j k l rest, during = i :: j :: k :: l :: rest ∧
      Prepared cfg s (s.next cfg i) .decodeWait ∧ Prepared cfg s ((s.next cfg i).next cfg j) .regRead ∧
      Prepared cfg s (((s.next cfg i).next cfg j).next cfg k) .regReadWait ∧
      Dispatched cfg s ((((s.next cfg i).next cfg j).next cfg k).next cfg l) ∧
      Executes cfg ((((s.next cfg i).next cfg j).next cfg k).next cfg l) rest := by
  obtain ⟨i,_,rfl,after₁⟩ := executesOn (by rw [state]; rfl) executes
  have first := (preparedFirst h state latched).decodes i
  obtain ⟨j,_,rfl,after₂⟩ := executesOn (by rw [first.state]; rfl) after₁
  have second := first.waits proceeds j
  obtain ⟨k,_,rfl,after₃⟩ := executesOn (by rw [second.state]; rfl) after₂
  have third := second.reads k
  obtain ⟨l,rest,rfl,after₄⟩ := executesOn (by rw [third.state]; rfl) after₃
  exact ⟨i,j,k,l,rest,rfl,first,second,third,third.dispatches proceeds l,after₄⟩

end Steps

end RiscvSoc.Core
