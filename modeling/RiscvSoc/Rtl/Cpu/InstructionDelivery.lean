import RiscvSoc.Rtl.Cpu.Reachable

/-! The instruction that the fetch buffer assembles is the one in memory at the program counter.
The half-word left over from a fetch belongs to the sequential successor, and every redirect
drops it. -/
namespace RiscvSoc.Core
open Mealy Machine

abbrev Code := BitVec 32 → BitVec 8

/- Two and four bytes from an address on. -/
def halfword (code : Code) (a : BitVec 32) : BitVec 16 := code (a + 1) ++ code a
def word (code : Code) (a : BitVec 32) : BitVec 32 := halfword code (a + 2) ++ halfword code a

def isShort (code : Code) (a : BitVec 32) : Bool := Decompress.isCompressed (halfword code a)
def instructionLength (code : Code) (a : BitVec 32) : BitVec 32 := if isShort code a then 2 else 4

def instructionAt (code : Code) (a : BitVec 32) : Decompress.Outputs :=
  Decompress.decompress (halfword code a) (word code a)

/- An address request on the bus, and whether the CPU made it for an instruction. -/
structure Request where
  fetches : Bool
  access : Access

structure OnBus where
  core : Regs
  asked : Option Request

def OnBus.next (cfg : Config) (h : OnBus) (i : Inputs) : OnBus where
  core := h.core.next cfg i
  asked :=
    if h.core.memAHandshake i then some ⟨h.core.imemReq i,h.core.access i⟩
    else if h.core.memDHandshake i then none
    else h.asked

def onBus (cfg : Config) : Machine OnBus Inputs Outputs := ⟨fun h i => h.core.outputs i,OnBus.next cfg⟩

/- The response to a fetch is the word at its address, after any number of cycles. -/
def Answered (code : Code) (h : OnBus) (i : Inputs) : Prop :=
  ∀ r ∈ h.asked, r.fetches = true → h.core.memDHandshake i = true → i.memDRdata = word code r.access.addr

instance (code : Code) (h : OnBus) (i : Inputs) : Decidable (Answered code h i) :=
  inferInstanceAs (Decidable (∀ _ ∈ h.asked, _ = _ → _ = _ → _ = _))

def bufferedFor (code : Code) (s : Regs) : Option (BitVec 32) :=
  if s.currentState = .fetch then some s.pc
  else if s.currentState.busy then some (s.instrPcReg + instructionLength code s.instrPcReg)
  else none

structure Delivering (cfg : Config) (code : Code) (h : OnBus) : Prop extends Reached cfg h.core where
  asked : h.core.memReqInflight = true → h.core.currentState = .fetch →
    ∃ r, h.asked = some r ∧ r.fetches = true ∧ r.access.addr = h.core.pc
  stagedWord : h.core.imemDataStagingValid = true → h.core.currentState = .fetch →
    h.core.imemDataStagingReg = word code h.core.pc
  booting : h.core.currentState = .boot → h.core.fetch.bufferValid = false
  current : h.core.currentState.busy = true → h.core.irReg = (instructionAt code h.core.instrPcReg).insn32 ∧
    h.core.fetch.currentInsnCompressed = isShort code h.core.instrPcReg
  following : h.core.currentState.checked = true →
    h.core.instrPcNextReg = h.core.instrPcReg + instructionLength code h.core.instrPcReg
  buffered : h.core.fetch.bufferValid = true → ∀ a ∈ bufferedFor code h.core, h.core.fetch.bufferedHalf = halfword code a

variable {cfg : Config} {code : Code} {s : Regs}

theorem assembled {f : FetchBuffer.Regs} {a : BitVec 32} (half : f.bufferValid = true → f.bufferedHalf = halfword code a) :
    f.output (word code a) = instructionAt code a ∧ f.currentHalf (word code a) = halfword code a := by
  have low : (word code a).extractLsb' 0 16 = halfword code a := BitVec.extractLsb'_append_eq_right
  have high : (word code a).extractLsb' 16 16 = halfword code (a + 2) := BitVec.extractLsb'_append_eq_left
  have here : f.currentHalf (word code a) = halfword code a := by
    rw [FetchBuffer.Regs.currentHalf]
    split
    · exact half (by assumption)
    · exact low
  refine ⟨?_,here⟩
  rw [FetchBuffer.Regs.output,FetchBuffer.Regs.assembledInsn,here,instructionAt]
  by_cases short : Decompress.isCompressed (halfword code a) = true
  · rw [if_pos short,BitVec.extractLsb'_append_eq_right,Decompress.decompress,Decompress.decompress,if_pos short,if_pos short]
  · rw [if_neg short]
    split
    · rename_i valid
      rw [half valid,high,BitVec.extractLsb'_append_eq_right]
      rfl
    · rw [low]

theorem leftOver {f : FetchBuffer.Regs} {i : FetchBuffer.Inputs} {a : BitVec 32} (data : i.imemData = word code a)
    (half : f.bufferValid = true → f.bufferedHalf = halfword code a) (more : (f.consumed i).bufferValid = true) :
    (f.consumed i).bufferedHalf = halfword code (a + instructionLength code a) := by
  have here := (assembled half).2
  simp only [FetchBuffer.Regs.consumed,data,here] at more ⊢
  by_cases short : Decompress.isCompressed (halfword code a) = true
  · rw [if_pos short] at more ⊢
    split
    · rw [instructionLength,isShort,if_pos short]
      exact BitVec.extractLsb'_append_eq_left
    · rename_i absent
      rw [if_neg absent] at more
      contradiction
  · rw [if_neg short] at more
    contradiction

theorem resetDelivering (s : Regs) : Delivering cfg code ⟨reset s,none⟩ where
  toReached := resetReached s
  asked h := by simp [reset] at h
  stagedWord h := by simp [reset] at h
  booting _ := rfl
  current h := by simp [reset,State.busy] at h
  following h := by simp [reset,State.checked] at h
  buffered h := by simp [reset,FetchBuffer.reset] at h

theorem returns (h : Reached cfg s) {i : Inputs} (busy : s.currentState.busy = true) (next : s.nextState i = .fetch) :
    s.currentState.checked = true ∧ s.pcWrite i = true := by
  cases state : s.currentState with
  | boot | fetch | halt => simp [state,State.busy] at busy
  | decode | decodeWait | regRead | csr => simp [Regs.nextState,state] at next
  | execute | memAddr | memRead | atomicRmw =>
    simp only [Regs.nextState,state] at next
    repeat' split at next
    all_goals contradiction
  | regReadWait =>
    refine ⟨rfl,?_⟩
    simp only [Regs.nextState,state] at next
    simp only [Regs.pcWrite,state,Bool.or_eq_true]
    split at next
    · exact .inl (by assumption)
    · rename_i goes
      exact .inr ((dispatched h state (by simpa using goes)).2.mp next)
  | memWrite =>
    refine ⟨rfl,?_⟩
    simp only [Regs.nextState,state] at next
    split at next
    · simp only [Regs.pcWrite,state]
      assumption
    · contradiction
  | writeback | branch => exact ⟨rfl,by simp [Regs.pcWrite,state]⟩

theorem busyNext {i : Inputs} (busy : (s.nextState i).busy = true) :
    s.irWrite i = true ∨ s.currentState.busy = true := by
  cases state : s.currentState with
  | boot =>
    simp only [Regs.nextState,state] at busy
    repeat' split at busy
    all_goals contradiction
  | halt => simp [Regs.nextState,state,State.busy] at busy
  | fetch =>
    left
    simp only [Regs.nextState,state] at busy
    split at busy
    · contradiction
    · split at busy
      · contradiction
      · rename_i quiet
        split at busy
        · simp only [Bool.or_eq_true,not_or,Bool.not_eq_true] at quiet
          rename_i staged
          simp [Regs.irWrite,state,quiet,staged]
        · contradiction
  | decode | decodeWait | regRead | regReadWait | execute | memAddr | memRead | memWrite | writeback | branch | csr
  | atomicRmw => exact .inr rfl

theorem sequential {i : Inputs} (plain : s.controlFlowRedirect i = false) (booted : s.currentState ≠ .boot) :
    s.nextPcValue i = s.instrPcNextReg := by
  have absent : s.csrTrapEntry i = false ∧ s.csrTrapReturn = false := by
    simp only [Regs.controlFlowRedirect,Bool.or_eq_false_iff] at plain
    exact ⟨plain.1.2,plain.2⟩
  simp [Regs.nextPcValue,booted,absent,plain]

theorem bufferNext {i : Inputs} : (s.next cfg i).fetch = s.fetch.next (s.fetchInputs i) := rfl

theorem bufferKept (cfg : Config) {i : Inputs} (kept : s.irWrite i = false) :
    (s.next cfg i).fetch.bufferedHalf = s.fetch.bufferedHalf ∧
    (s.next cfg i).fetch.bufferValid = (s.fetch.bufferValid && !s.invalidateFetchBuffer i) ∧
    (s.next cfg i).fetch.currentInsnCompressed = s.fetch.currentInsnCompressed := by
  simp [bufferNext,FetchBuffer.Regs.next,Regs.fetchInputs,kept]

variable {h : OnBus} {i : Inputs}

theorem fetchKeepsPc (state : s.currentState = .fetch) (quiet : s.interruptTaken i = false) : (s.next cfg i).pc = s.pc := by
  simp [Regs.pcWrite,state,quiet]

theorem inflightQuiet (asked : s.memReqInflight = true) : s.interruptTaken i = false := by
  simp [Regs.interruptTaken,asked]

theorem latched (d : Delivering cfg code h) (writes : h.core.irWrite i = true) :
    h.core.fetch.output h.core.imemDataStagingReg = instructionAt code h.core.pc ∧
      h.core.imemDataStagingReg = word code h.core.pc := by
  obtain ⟨state,_,_,staged⟩ := irWrites writes
  have data := d.stagedWord staged state
  rw [data]
  exact ⟨(assembled fun valid => d.buffered valid h.core.pc (by simp [bufferedFor,state])).1,rfl⟩

theorem askedNext (d : Delivering cfg code h) (asked : (h.core.next cfg i).memReqInflight = true)
    (fetches : h.core.nextState i = .fetch) :
    ∃ r, (h.next cfg i).asked = some r ∧ r.fetches = true ∧ r.access.addr = (h.core.next cfg i).pc := by
  rw [inflightNext,Bool.and_eq_true,Bool.or_eq_true,Bool.not_eq_true'] at asked
  obtain ⟨asks,waits⟩ := asked
  have data (state : h.core.currentState = .memRead ∨ h.core.currentState = .memWrite ∨ h.core.currentState = .atomicRmw) :
      False := by
    rw [askedStays state waits] at fetches
    rw [fetches] at state
    simp at state
  rcases Bool.eq_false_or_eq_true (h.core.memAHandshake i) with now | absent
  · rcases (handshaken now).2 with request | ⟨_,accesses⟩
    · obtain ⟨state,quiet,_⟩ := fetchAsked request
      refine ⟨⟨h.core.imemReq i,h.core.access i⟩,by simp [OnBus.next,now],request,?_⟩
      rw [fetchKeepsPc state quiet]
      simp [Regs.access,request]
    · exact (data (dataAsked accesses)).elim
  · have before := asks.resolve_right (by simp [absent])
    rcases d.inflight before with state | read | write | rmw | halt
    · obtain ⟨r,same,kind,address⟩ := d.asked before state
      refine ⟨r,by simp [OnBus.next,absent,waits,same],kind,?_⟩
      rw [fetchKeepsPc state (inflightQuiet before)]
      exact address
    · exact (data (.inl read)).elim
    · exact (data (.inr (.inl write))).elim
    · exact (data (.inr (.inr rmw))).elim
    · simp [Regs.nextState,halt] at fetches

theorem stagedWordNext (d : Delivering cfg code h) (answered : Answered code h i)
    (staged : (h.core.next cfg i).imemDataStagingValid = true) (fetches : h.core.nextState i = .fetch) :
    (h.core.next cfg i).imemDataStagingReg = word code (h.core.next cfg i).pc := by
  have register : (h.core.next cfg i).imemDataStagingReg =
      if h.core.imemDataStagingWrite i then i.memDRdata else h.core.imemDataStagingReg := rfl
  rcases Bool.eq_false_or_eq_true (h.core.imemDataStagingWrite i) with arrives | absent
  · rw [register,if_pos arrives]
    simp only [Regs.imemDataStagingWrite,Bool.and_eq_true,beq_iff_eq] at arrives
    obtain ⟨state,response⟩ := arrives
    have asked : h.core.memReqInflight = true := by
      simp only [Regs.memDHandshake,Bool.and_eq_true] at response
      exact response.2
    obtain ⟨r,same,kind,address⟩ := d.asked asked state
    rw [answered r same kind response,address,fetchKeepsPc state (inflightQuiet asked)]
  · rw [register,if_neg (by simp [absent])]
    rw [stagedNext,absent,Bool.false_or,Bool.and_eq_true] at staged
    obtain ⟨before,kept⟩ := staged
    rw [Bool.not_eq_true',Bool.or_eq_false_iff] at kept
    rcases d.staged before with ⟨state,_⟩ | halt
    · have quiet : h.core.interruptTaken i = false := by
        rcases Bool.eq_false_or_eq_true (h.core.interruptTaken i) with taken | quiet
        · have drops := kept.2
          simp [Regs.invalidateFetchBuffer,Regs.pcWrite,Regs.controlFlowRedirect,Regs.csrTrapEntry,state,taken] at drops
        · exact quiet
      rw [fetchKeepsPc state quiet]
      exact d.stagedWord before state
    · simp [Regs.nextState,halt] at fetches

theorem bufferedNext (d : Delivering cfg code h) (valid : (h.core.next cfg i).fetch.bufferValid = true) :
    ∀ a ∈ bufferedFor code (h.core.next cfg i), (h.core.next cfg i).fetch.bufferedHalf = halfword code a := by
  intro a used
  rcases Bool.eq_false_or_eq_true (h.core.irWrite i) with writes | kept
  · obtain ⟨state,quiet,_⟩ := irWrites writes
    have address : a = h.core.pc + instructionLength code h.core.pc := by
      rw [bufferedFor,stateNext] at used
      have left : h.core.nextState i ≠ .fetch := by
        obtain ⟨_,_,awake,staged⟩ := irWrites writes
        simp only [Regs.nextState,state,quiet,awake,Regs.imemReady,staged]
        split <;> simp
      rw [if_neg left,instrPcNext,if_pos writes] at used
      split at used
      · exact (Option.some.inj used).symm
      · contradiction
    have consumed : (h.core.next cfg i).fetch.bufferedHalf = (h.core.fetch.consumed (h.core.fetchInputs i)).bufferedHalf ∧
        (h.core.fetch.consumed (h.core.fetchInputs i)).bufferValid = true := by
      obtain ⟨_,_,_,staged⟩ := irWrites writes
      have taken : (h.core.fetchInputs i).irWrite && (h.core.fetchInputs i).imemReady := by
        simp [Regs.fetchInputs,writes,Regs.imemReady,staged]
      simp only [bufferNext,FetchBuffer.Regs.next,taken,if_true,Bool.and_eq_true] at valid ⊢
      exact ⟨trivial,valid.1⟩
    rw [consumed.1,address]
    exact leftOver (latched d writes).2 (fun v => d.buffered v h.core.pc (by simp [bufferedFor,state])) consumed.2
  · obtain ⟨half,flag,_⟩ := bufferKept cfg kept
    rw [flag,Bool.and_eq_true,Bool.not_eq_true'] at valid
    obtain ⟨before,whole⟩ := valid
    rw [half]
    refine d.buffered before a ?_
    rw [bufferedFor,stateNext,pcNext,instrPcNext,if_neg (by simp [kept] : ¬ h.core.irWrite i = true)] at used
    by_cases fetches : h.core.nextState i = .fetch
    · rw [if_pos fetches] at used
      by_cases state : h.core.currentState = .fetch
      · have absent : h.core.pcWrite i = false := by
          rcases Bool.eq_false_or_eq_true (h.core.pcWrite i) with writes | absent
          · have taken : h.core.interruptTaken i = true := by simpa [Regs.pcWrite,state] using writes
            simp [Regs.invalidateFetchBuffer,writes,Regs.controlFlowRedirect,Regs.csrTrapEntry,state,taken] at whole
          · exact absent
        rw [absent,if_neg Bool.false_ne_true] at used
        rw [bufferedFor,if_pos state]
        exact used
      · by_cases busy : h.core.currentState.busy = true
        · obtain ⟨checked,writes⟩ := returns d.toReached busy fetches
          have plain : h.core.controlFlowRedirect i = false := by
            rwa [Regs.invalidateFetchBuffer,writes,Bool.true_and] at whole
          have booted : h.core.currentState ≠ .boot := fun boot => by
            rw [boot] at busy
            contradiction
          rw [if_pos writes,sequential plain booted,d.following checked] at used
          rw [bufferedFor,if_neg state,if_pos busy]
          exact used
        · cases state' : h.core.currentState with
          | boot =>
            rw [d.booting state'] at before
            contradiction
          | halt => simp [Regs.nextState,state'] at fetches
          | fetch => exact absurd state' state
          | decode | decodeWait | regRead | regReadWait | execute | memAddr | memRead | memWrite | writeback | branch | csr
          | atomicRmw => simp [state',State.busy] at busy
    · rw [if_neg fetches] at used
      split at used
      · rename_i busy
        have was := (busyNext busy).resolve_left (by simp [kept])
        have state : h.core.currentState ≠ .fetch := fun state => by
          rw [state] at was
          contradiction
        rw [bufferedFor,if_neg state,if_pos was]
        exact used
      · contradiction

theorem bootsFrom (boots : s.nextState i = .boot) : s.currentState = .boot := by
  cases state : s.currentState with
  | boot => rfl
  | regReadWait =>
    simp only [Regs.nextState,state,Regs.dispatch] at boots
    repeat' split at boots
    all_goals contradiction
  | decode | decodeWait | regRead | memAddr | writeback | branch | csr | halt | fetch | execute | memRead | memWrite
  | atomicRmw =>
    simp only [Regs.nextState,state] at boots
    repeat' split at boots
    all_goals contradiction

theorem currentNext (d : Delivering cfg code h) (busy : (h.core.nextState i).busy = true) :
    (h.core.next cfg i).irReg = (instructionAt code (h.core.next cfg i).instrPcReg).insn32 ∧
      (h.core.next cfg i).fetch.currentInsnCompressed = isShort code (h.core.next cfg i).instrPcReg := by
  rcases Bool.eq_false_or_eq_true (h.core.irWrite i) with writes | kept
  · have given := (latched d writes).1
    have flag : (h.core.next cfg i).fetch.currentInsnCompressed =
        (h.core.fetch.output h.core.imemDataStagingReg).isCompressed := by
      simp [bufferNext,FetchBuffer.Regs.next,Regs.fetchInputs,writes]
    rw [flag,given,irNext,instrPcNext,if_pos writes,if_pos writes,given]
    refine ⟨rfl,?_⟩
    rw [instructionAt,Decompress.decompress,isShort]
    split
    · exact (by assumption : _ = true).symm
    · exact (by simpa using (by assumption : ¬ _ = true) : _ = false).symm
  · have was := (busyNext busy).resolve_left (by simp [kept])
    have flag := (bufferKept cfg kept).2.2
    rw [flag,irNext,instrPcNext,kept,if_neg Bool.false_ne_true,if_neg Bool.false_ne_true]
    exact d.current was

theorem followingNext (d : Delivering cfg code h) (checked : (h.core.nextState i).checked = true) :
    (h.core.next cfg i).instrPcNextReg =
      (h.core.next cfg i).instrPcReg + instructionLength code (h.core.next cfg i).instrPcReg := by
  have register : (h.core.next cfg i).instrPcNextReg =
      if !h.core.irWrite i && h.core.currentState == .decodeWait then h.core.instrPcReg + h.core.pcIncrement
      else h.core.instrPcNextReg := rfl
  rcases checkedNext checked with state | before
  · have kept := irKept (i := i) (show h.core.currentState ≠ .fetch by simp [state])
    have short := (d.current (by rw [state]; rfl)).2
    rw [register,instrPcNext,kept,state,if_pos (show (!false && State.decodeWait == .decodeWait) = true from rfl),
      if_neg Bool.false_ne_true,Regs.pcIncrement,FetchBuffer.Regs.pcInc2,short,
      instructionLength]
  · have others : h.core.currentState ≠ .fetch ∧ h.core.currentState ≠ .decodeWait := by
      refine ⟨?_,?_⟩ <;> intro state <;> rw [state] at before <;> contradiction
    have kept := irKept (i := i) others.1
    rw [register,instrPcNext,kept,if_neg (by simp [others.2]),if_neg Bool.false_ne_true]
    exact d.following before

theorem deliveringNext (d : Delivering cfg code h) (answered : Answered code h i) : Delivering cfg code (h.next cfg i) where
  toReached := reachedNext d.toReached i
  asked inflight fetches := askedNext d inflight fetches
  stagedWord staged fetches := stagedWordNext d answered staged fetches
  booting boots := by
    have state := bootsFrom boots
    have kept := irKept (i := i) (show h.core.currentState ≠ .fetch by simp [state])
    have flag := (bufferKept cfg kept).2.1
    rw [d.booting state,Bool.false_and] at flag
    exact flag
  current busy := currentNext d busy
  following checked := followingNext d checked
  buffered valid := bufferedNext d valid

/- What one cycle shows of the delivery of instructions. -/
structure Delivered (cfg : Config) (code : Code) (h : OnBus) (i : Inputs) : Prop where
  latched : h.core.irWrite i = true →
    (h.core.next cfg i).irReg = (instructionAt code h.core.pc).insn32 ∧
    (h.core.next cfg i).isInstructionValidReg = (instructionAt code h.core.pc).isValid ∧
    (h.core.next cfg i).instrPcReg = h.core.pc
  sequential : h.core.currentState ≠ .boot → h.core.pcWrite i = true → h.core.controlFlowRedirect i = false →
    h.core.irReg = (instructionAt code h.core.instrPcReg).insn32 ∧
    (h.core.next cfg i).pc = h.core.instrPcReg + instructionLength code h.core.instrPcReg
  buffered : h.core.fetch.bufferValid = true → ∀ a ∈ bufferedFor code h.core,
    h.core.fetch.bufferedHalf = halfword code a

theorem deliveringShows (d : Delivering cfg code h) (i : Inputs) : Delivered cfg code h i where
  latched writes := by
    have given := (latched d writes).1
    have valid : (h.core.next cfg i).isInstructionValidReg = (h.core.fetch.output h.core.imemDataStagingReg).isValid := by
      simp [Regs.next,writes]
    rw [valid,given,irNext,instrPcNext,if_pos writes,if_pos writes,given]
    exact ⟨rfl,rfl,rfl⟩
  sequential booted writes plain := by
    have checked : h.core.currentState.checked = true := by
      have absent : h.core.csrTrapEntry i = false := by
        simp only [Regs.controlFlowRedirect,Bool.or_eq_false_iff] at plain
        exact plain.1.2
      cases state : h.core.currentState with
      | fetch =>
        simp only [Regs.pcWrite,state] at writes
        simp [Regs.csrTrapEntry,state,writes] at absent
      | boot => exact absurd state booted
      | decode | decodeWait | halt => simp [Regs.pcWrite,state] at writes
      | regRead | regReadWait | execute | memAddr | memRead | memWrite | writeback | branch | csr | atomicRmw => rfl
    have busy : h.core.currentState.busy = true := by
      revert checked
      cases h.core.currentState <;> decide
    refine ⟨(d.current busy).1,?_⟩
    rw [pcNext,if_pos writes,Core.sequential plain booted]
    exact d.following checked
  buffered := d.buffered

/- In every run from reset the CPU executes the instructions of the code. -/
theorem instructionsDelivered (cfg : Config) (code : Code) (s : Regs) (inputs : List Inputs)
    (answered : (onBus cfg).Steps (Answered code) ⟨reset s,none⟩ inputs) :
    (onBus cfg).Steps (Delivered cfg code) ⟨reset s,none⟩ inputs :=
  stepsAll (fun h i (d : Delivering cfg code h) ok => ⟨deliveringNext d ok,deliveringShows d i⟩) (resetDelivering s) answered

/- A memory that answers at once, and an ALU that does. -/
def respond (code : Code) (s : Regs) : Inputs where
  boot := true
  reqHalt := false
  bootAddr := 0
  msip := false
  mtip := false
  meip := false
  memAReady := true
  memDRdata := word code s.pc
  memDValid := true
  aluInReady := true
  aluData := 0
  aluOutValid := true
  fpuFpResult := 0
  fpuIntResult := 0
  fpuFflags := 0
  fpuReady := true
  fs2Data := 0

def drive (cfg : Config) (code : Code) : Nat → Regs → List Inputs
  | 0, _ => []
  | n + 1, s => respond code s :: drive cfg code n (s.next cfg (respond code s))

instance : Inhabited Regs := ⟨⟨.boot,0,0,0,0,true,false,false,false,0,0,0,0,0,0,0,false,false,false,false,false,0,false,
  false,0,false,false,false,default,default,default,⟨fun _ => 0,0,0⟩,⟨fun _ => 0,0,0⟩⟩⟩

/- C.NOP, then ADDI across the word boundary. -/
def straddling (a : BitVec 32) : BitVec 8 :=
  if a = 0 then 0x01 else if a = 2 then 0x13 else if a = 3 then 0x05 else if a = 4 then 0x10 else 0

theorem straddlingDelivered : (onBus ⟨true,true⟩).Steps (Delivered ⟨true,true⟩ straddling) ⟨reset default,none⟩
    (drive ⟨true,true⟩ straddling 30 (reset default)) :=
  instructionsDelivered ⟨true,true⟩ straddling default _ (by decide +kernel)

end RiscvSoc.Core
