import RiscvSoc.Lib.Following
import RiscvSoc.Rtl.Cpu.MemoryBus

/-! Programs on the CPU. Over a memory that answers in its own time the CPU goes through the states that the ISA gives a
program of integer instructions, one instruction after another. -/
namespace RiscvSoc.Core
open Mealy Machine
open ByteMemory
open Isa (Instr Hart Computer)

variable {cfg : Config} {text : BitVec 32 → Prop} {code : Code} {s : Regs} {h : Computing} {p : Platform} {c : Computer}
  {instr : Instr} {log : List Event} {asked asked' : Option Request} {i : Inputs}

structure Tells (c : Computer) (log : List Event) (b : MemoryBus) : Prop where
  honest : memoryBus.Steps MemoryBus.Honest ⟨c.memory,none⟩ log
  bus : memoryBus.final ⟨c.memory,none⟩ log = b

theorem Tells.goOn (tells : Tells c log p.bus) (serves : memoryBus.Steps MemoryBus.Honest p.bus (events p.cpu i)) :
    Tells c (log ++ events p.cpu i) (p.next cfg i).bus where
  honest := stepsAppend.mpr ⟨tells.honest,tells.bus ▸ serves⟩
  bus := by rw [finalAppend,tells.bus]; rfl

theorem countSize (addr wdata : BitVec 32) (we valid : Bool) (width : Isa.Width) :
    (⟨addr,wdata,we,width.size,valid⟩ : Access).count = width.count := by
  cases width <;> rfl

theorem performed {next : BitVec 32} {after : Hart} {b : MemoryBus} (shown : Shows (instr.execute c.hart next) log after)
    (tells : Tells c log b) : (instr.execute c.hart next).perform c.memory = ⟨after,b.memory⟩ := by
  obtain ⟨honest,rfl⟩ := tells
  cases instr with
  | load kind rd rs1 imm =>
    rw [Isa.Instr.execute] at shown ⊢
    cases shown with
    | load wdata data =>
      have answer := (stepsCons.mp (stepsCons.mp honest).2).1 _ rfl rfl
      rw [countSize] at answer
      have value := @Isa.Load.takes kind data c.memory _ answer
      rw [Isa.Outcome.perform,← value]
      rfl
  | store width rs1 rs2 imm =>
    rw [Isa.Instr.execute] at shown ⊢
    cases shown with
    | store last =>
      have bytes : (⟨c.hart.x rs1 + Isa.signed imm,c.hart.x rs2,true,width.size,true⟩ : Access).stored =
          width.stored (c.hart.x rs2) := by
        rw [Access.stored,countSize]
        rfl
      rw [Isa.Outcome.perform,← bytes]
      rfl
  | _ =>
    rw [Isa.Instr.execute] at shown ⊢
    cases shown
    rfl

/- The instruction that `s` begins to decode is the next one of the program. -/
structure Begun (cfg : Config) (text : BitVec 32 → Prop) (s : Regs) (c : Computer) (instr : Instr) : Prop where
  begins : c.Begins cfg.enableM text instr
  word : s.irReg = instr.encode
  hart : hart s s.instrPcReg = c.hart
  increment : s.pcIncrement = instructionLength c.memory c.hart.pc
  csr : s.csr.uncounted = CsrFile.reset

theorem Begun.latched (b : Begun cfg text s c instr) : Latched cfg s instr := ⟨b.word,b.begins.there⟩

theorem Begun.outcomeIs (b : Begun cfg text s c instr) :
    outcome s instr = instr.execute c.hart (c.hart.pc + instructionLength c.memory c.hart.pc) := by
  rw [outcome,b.hart,b.increment,← b.hart]
  rfl

theorem Begun.after (b : Begun cfg text s c instr) {after : Hart} {bus : MemoryBus} (shown : Shows (outcome s instr) log after)
    (tells : Tells c log bus) : c.after instr = ⟨after,bus.memory⟩ := by
  rw [b.outcomeIs] at shown
  exact performed shown tells

theorem Begun.memory (b : Begun cfg text s c instr) {bus : MemoryBus} (runs : Runs cfg s instr log h) (tells : Tells c log bus) :
    bus.memory = c.memory ∨ bus.memory = (c.after instr).memory := by
  have unseen {bus : MemoryBus} (tells : Tells c [] bus) : bus.memory = c.memory := by rw [← tells.bus]; rfl
  have x (r : BitVec 5) : operand s.bankA r = c.hart.x r := by rw [← b.hart]; rfl
  cases runs with
  | prepares | launches | works | answers | compares | branches | addresses => exact .inl (unseen tells)
  | reads =>
    split at tells
    · rw [← tells.bus]
      exact .inl rfl
    · exact .inl (unseen tells)
  | @writes _ _ _ width rs1 rs2 imm store =>
    split at tells
    · subst store
      right
      rw [← tells.bus,Computer.after,Isa.Instr.execute,Isa.Outcome.perform]
      change ByteMemory.store c.memory (operand s.bankA rs1 + Isa.signed imm) (storeAccess s width rs1 rs2 imm).stored = _
      rw [Access.stored,storeAccess,countSize,x,x]
      rfl
    · exact .inl (unseen tells)
  | writesBack _ _ shown | ended _ shown =>
    right
    rw [b.after shown tells]

structure Plain (s : Regs) : Prop where
  trap : s.currentState = .regReadWait → s.syncTrapPending = false
  wfi : s.currentState = .regReadWait → s.dec.isWfi = false
  sc : s.currentState = .memWrite → s.dec.isSc = false

theorem plainRuns (l : Latched cfg s instr) (runs : Runs cfg s instr log h) : Plain h.core := by
  have elsewhere {state : State} (place : h.core.currentState = state) (others : state ≠ .regReadWait ∧ state ≠ .memWrite) :
      Plain h.core :=
    ⟨fun same => absurd (place.symm.trans same) others.1,fun same => absurd (place.symm.trans same) others.1,
      fun same => absurd (place.symm.trans same) others.2⟩
  cases runs with
  | launches _ state | works _ state | answers _ state | compares _ state | branches _ state | addresses _ _ state
  | reads _ state | writesBack _ state | ended state => exact elsewhere state (by decide)
  | @prepares _ state _ prepared early =>
    have place := prepared.state
    cases state with
    | regReadWait =>
      have dec : h.core.dec = decodes instr := (prepared.dec rfl).trans l.decoded
      have wfi : h.core.dec.isWfi = false := by
        rw [dec]
        cases instr <;> rfl
      exact ⟨fun _ => (prepared.goes l.proceeds).1,fun _ => wfi,fun same => absurd (place.symm.trans same) (by decide)⟩
    | decode | decodeWait | regRead => exact elsewhere place (by decide)
    | _ => contradiction
  | writes progress state store =>
    have sc : h.core.dec.isSc = false := by
      rw [progress.known l,store]
      rfl
    exact ⟨fun same => absurd (state.symm.trans same) (by decide),fun same => absurd (state.symm.trans same) (by decide),
      fun _ => sc⟩

theorem completesLast (r : Reached cfg s) (plain : Plain s) (busy : s.currentState.busy = true) (i : Inputs) :
    s.instrCompleteInternal i = !(s.nextState i).busy := by
  cases state : s.currentState with
  | boot | fetch | halt => simp [state,State.busy] at busy
  | decode | decodeWait | regRead | writeback | branch | csr => simp [Regs.instrCompleteInternal,Regs.nextState,state,State.busy]
  | regReadWait =>
    have goes := plain.trap state
    obtain ⟨halts,early⟩ := dispatched r state goes
    have boots : s.dispatch ≠ .boot := by
      simp only [Regs.dispatch]
      repeat' split
      all_goals decide
    simp only [Regs.instrCompleteInternal,Regs.nextState,state,goes,Bool.false_eq_true,if_false]
    cases ends : s.completesEarly with
    | true =>
      rw [early.mpr ends]
      rfl
    | false =>
      have on : s.dispatch ≠ .fetch := fun fetch => absurd ((early.mp fetch).symm.trans ends) (by decide)
      revert halts boots on
      cases s.dispatch <;> decide
  | execute | memAddr | memRead | atomicRmw =>
    simp only [Regs.instrCompleteInternal,Regs.nextState,state]
    repeat' split
    all_goals rfl
  | memWrite =>
    simp only [Regs.instrCompleteInternal,Regs.nextState,state,plain.sc state]
    cases s.dmemReady i <;> rfl

theorem effortSome (runs : Runs cfg s instr log h) (busy : h.core.currentState.busy = true) : 0 < effort h := by
  cases runs with
  | @prepares _ state _ prepared early =>
    cases state <;> first | (rw [effortPlain prepared.state rfl]; decide) | contradiction
  | launches _ state | works _ state | answers _ state | compares _ state =>
    rw [effortExecute state]
    repeat' split
    all_goals omega
  | branches _ state | addresses _ _ state | writesBack _ state =>
    rw [effortPlain state rfl]
    decide
  | reads _ state =>
    rw [effortAccess (.inl state)]
    split <;> decide
  | writes _ state =>
    rw [effortAccess (.inr state)]
    split <;> decide
  | ended state =>
    rw [state] at busy
    contradiction

theorem endsFetch (runs : Runs cfg s instr log h) (ended : h.core.currentState.busy = false) : h.core.currentState = .fetch := by
  cases runs with
  | ended state => exact state
  | @prepares _ state _ prepared early =>
    rw [prepared.state] at ended
    cases state <;> contradiction
  | launches _ state | works _ state | answers _ state | compares _ state | branches _ state | addresses _ _ state
  | reads _ state | writes _ state | writesBack _ state =>
    rw [state] at ended
    contradiction

theorem keptRuns (runs : Runs cfg s instr log h) (busy : h.core.currentState.busy = true) :
    h.core.irReg = s.irReg ∧ h.core.instrPcReg = s.instrPcReg := by
  cases runs with
  | prepares _ kept | launches kept | works kept | answers kept | compares kept | branches kept | addresses kept | reads kept
  | writes kept | writesBack kept => exact ⟨kept.ir,kept.instrPc⟩
  | ended state =>
    rw [state] at busy
    contradiction

structure Shared (p : Platform) (c : Computer) : Prop where
  registers : operand p.cpu.core.bankA = c.hart.x
  memory : p.bus.memory = c.memory

structure Rests (cfg : Config) (text : BitVec 32 → Prop) (code : Code) (p : Platform) (c : Computer) (asked : Option Request) :
    Prop extends Linked cfg code p asked, Shared p c where
  agrees : ∀ a, text a → c.memory a = code a
  fresh : p.cpu.core.imemDataStagingValid = true → code = c.memory
  csr : p.cpu.core.csr.uncounted = CsrFile.reset

inductive Works (cfg : Config) (text : BitVec 32 → Prop) (entry : BitVec 32) (p : Platform) (c : Computer) : Prop where
  | boots {asked : Option Request} (rests : Rests cfg text c.memory p c asked) (state : p.cpu.core.currentState = .boot)
      (pc : entry = c.hart.pc) : Works cfg text entry p c
  | fetches {code : Code} {asked : Option Request} (rests : Rests cfg text code p c asked)
      (state : p.cpu.core.currentState = .fetch) (pc : p.cpu.core.pc = c.hart.pc) : Works cfg text entry p c
  | halts (shared : Shared p c) (state : p.cpu.core.currentState = .halt) : Works cfg text entry p c
  | executes {asked : Option Request} {s : Regs} {instr : Instr} {log : List Event} (linked : Linked cfg c.memory p asked)
      (begun : Begun cfg text s c instr) (runs : Runs cfg s instr log p.cpu) (tells : Tells c log p.bus)
      (busy : p.cpu.core.currentState.busy = true) : Works cfg text entry p c

def completes (p : Platform) (i : Inputs) : Bool := p.cpu.core.instrCompleteInternal (p.cpu.given i)

def work (p : Platform) : Nat := match p.cpu.core.currentState with
  | .boot => 44
  | .fetch => if p.cpu.core.imemDataStagingValid then 42 else if p.cpu.core.memReqInflight then 43 else 44
  | .halt => 0
  | _ => effort p.cpu

/- The CPU is not booted, or it is halted, or the bus makes it wait. -/
def stalls (p : Platform) (i : Inputs) : Bool := match p.cpu.core.currentState with
  | .boot | .halt => true
  | .fetch => if p.cpu.core.memReqInflight then !i.memDValid else !p.cpu.core.imemDataStagingValid && !i.memAReady
  | _ => waitsForBus p.cpu i

theorem workBusy (busy : p.cpu.core.currentState.busy = true) : work p = effort p.cpu ∧ stalls p i = waitsForBus p.cpu i := by
  revert busy
  unfold work stalls
  cases p.cpu.core.currentState <;> simp [State.busy]

theorem completesBusy (idle : p.cpu.core.currentState.busy = false) (i : Inputs) : completes p i = false := by
  rw [completes,Regs.instrCompleteInternal]
  revert idle
  cases p.cpu.core.currentState <;> simp [State.busy]

theorem noInterrupt (csr : s.csr.uncounted = CsrFile.reset) (i : Inputs) : s.interruptTaken i = false := by
  have mstatus : s.csr.mstatus = 0 := congrArg CsrFile.Regs.mstatus csr
  simp [Regs.interruptTaken,CsrFile.Regs.mieBit,mstatus]

theorem idleCsrs (csr : s.csr.uncounted = CsrFile.reset) (idle : s.currentState.busy = false) :
    (s.next cfg i).csr.uncounted = CsrFile.reset := by
  have entry : s.csrTrapEntry i = false := by
    rw [Regs.csrTrapEntry,noInterrupt csr]
    revert idle
    cases s.currentState <;> simp [State.busy]
  have others : s.currentState ≠ .regReadWait ∧ s.currentState ≠ .writeback ∧ s.currentState ≠ .csr := by
    revert idle
    cases s.currentState <;> simp [State.busy]
  exact (csrsKept cfg i entry (by simp [Regs.csrTrapReturn,others]) (by simp [Regs.csrInputs,others])
    (by simp [Regs.csrInputs,others])).trans csr

theorem Shared.idles (shared : Shared p c) (idle : p.cpu.core.currentState.busy = false) (i : Inputs) :
    Shared (p.next cfg i) c where
  registers := by
    have other : p.cpu.core.currentState ≠ .writeback := fun state => by simp [state,State.busy] at idle
    rw [← shared.registers]
    exact funext (operandSame (banksKept cfg (p.cpu.given i) (regWeIn other)).1)
  memory := by
    rw [← shared.memory,Platform.next]
    cases busCycle p.cpu i with
    | asks shakes _ _ shown =>
      rw [shown]
      rcases (handshaken shakes).2 with fetches | ⟨_,accesses⟩
      · simp [memoryBus,MemoryBus.next,Regs.access,fetches]
      · rcases dataAsked accesses with state | state | state <;> simp [state,State.busy] at idle
    | hears _ _ _ shown => rw [shown]; rfl
    | silent _ _ shown => rw [shown]; rfl

theorem Rests.idles (rests : Rests cfg text c.memory p c asked) (idle : p.cpu.core.currentState.busy = false)
    (answered : Answered c.memory ⟨p.cpu.core,asked⟩ (p.cpu.given i)) :
    Rests cfg text c.memory (p.next cfg i) c (askedAfter cfg p asked i) where
  toLinked := linkedNext rests.toLinked answered fun state => by simp [state,State.busy] at idle
  toShared := rests.toShared.idles idle i
  agrees _ _ := rfl
  fresh _ := rfl
  csr := idleCsrs rests.csr idle

theorem Rests.renewed (rests : Rests cfg text code p c asked) (state : p.cpu.core.currentState = .fetch)
    (pc : p.cpu.core.pc = c.hart.pc) (begins : c.Begins cfg.enableM text instr) : Rests cfg text c.memory p c asked where
  toShared := rests.toShared
  agrees _ _ := rfl
  fresh _ := rfl
  csr := rests.csr
  toLinked := {
    equipped := rests.equipped
    pending := rests.pending
    inflight := rests.inflight
    fetches := rests.fetches
    awake := rests.awake
    delivering := {
      toReached := rests.delivering.toReached
      asked := rests.delivering.asked
      stagedWord := fun staged fetch => rests.fresh staged ▸ rests.delivering.stagedWord staged fetch
      booting := rests.delivering.booting
      current := fun busy => by simp [state,State.busy] at busy
      following := fun checked => by simp [state,State.checked] at checked
      buffered := fun valid a here => by
        rw [bufferedFor,if_pos state] at here
        obtain rfl : a = c.hart.pc := (Option.some.inj here).symm.trans pc
        rw [rests.delivering.buffered valid c.hart.pc (by rw [bufferedFor,if_pos state]; exact here)]
        have inside (k : Nat) (low : k < 2) : c.memory (c.hart.pc + BitVec.ofNat 32 k) = code (c.hart.pc + BitVec.ofNat 32 k) := by
          refine rests.agrees _ (begins.fetched k (Nat.lt_of_lt_of_le low ?_))
          rw [instructionLength]
          split <;> decide
        have first : c.memory c.hart.pc = code c.hart.pc := by simpa using inside 0 (by decide)
        rw [halfword,halfword,first]
        exact congrArg (· ++ code c.hart.pc) (inside 1 (by decide)).symm } }

theorem Rests.begins (rests : Rests cfg text c.memory p c asked) (pc : p.cpu.core.pc = c.hart.pc)
    (begins : c.Begins cfg.enableM text instr)
    (writes : p.cpu.core.irWrite (p.cpu.given i) = true) (decodes : (p.next cfg i).cpu.core.currentState = .decode)
    (next : Rests cfg text c.memory (p.next cfg i) c asked') : Begun cfg text (p.next cfg i).cpu.core c instr ∧
      (p.next cfg i).cpu.core.isInstructionValidReg = true := by
  obtain ⟨ir,valid,instrPc⟩ := (deliveringShows rests.delivering (p.cpu.given i)).latched writes
  rw [pc] at ir valid instrPc
  have pcIs : (p.next cfg i).cpu.core.instrPcReg = c.hart.pc := instrPc
  have short := (next.delivering.current (by rw [decodes]; rfl)).2
  refine ⟨⟨begins,ir.trans begins.word,?_,?_,next.csr⟩,valid.trans begins.valid⟩
  · rw [pcIs]
    exact Hart.ext next.registers rfl
  · rw [instructionLength,Regs.pcIncrement,FetchBuffer.Regs.pcInc2,short,pcIs]

variable {entry : BitVec 32}

theorem Rests.latches (rests : Rests cfg text c.memory p c asked) (pc : p.cpu.core.pc = c.hart.pc)
    (begins : c.Begins cfg.enableM text instr)
    (writes : p.cpu.core.irWrite (p.cpu.given i) = true) (decodes : (p.next cfg i).cpu.core.currentState = .decode)
    (next : Rests cfg text c.memory (p.next cfg i) c asked') :
    Works cfg text entry (p.next cfg i) c ∧ work (p.next cfg i) = 41 := by
  obtain ⟨begun,valid⟩ := rests.begins pc begins writes decodes next
  have busy : (p.next cfg i).cpu.core.currentState.busy = true := by rw [decodes]; rfl
  have free := freeUnless next.equipped.toReached (by rw [decodes]; decide)
  have told : Tells c [] (p.next cfg i).bus := by
    refine ⟨by simp [Machine.Steps],?_⟩
    have pending := next.pending
    have absent : asked' = none := by simpa [next.inflight] using free
    rw [absent] at pending
    rw [finalNil,← next.memory]
    exact congrArg (MemoryBus.mk _) pending.symm
  have first := preparedFirst next.equipped.toSupplied decodes valid
  refine ⟨.executes next.toLinked begun (.prepares next.equipped first rfl) told busy,?_⟩
  rw [(workBusy (i := i) busy).1]
  exact effortPlain decodes rfl

abbrev Follows (cfg : Config) (text : BitVec 32 → Prop) (entry : BitVec 32) (p : Platform) (i : Inputs) (c : Computer) : Prop :=
  CarriesOn (platform cfg) (Computer.Steps cfg.enableM text) (Works cfg text entry) completes stalls work 44 p i c

theorem bootsCycle (rests : Rests cfg text c.memory p c asked) (state : p.cpu.core.currentState = .boot) (pc : entry = c.hart.pc)
    (supports : Supports entry p i) : Follows cfg text entry p i c := by
  have idle : p.cpu.core.currentState.busy = false := by rw [state]; rfl
  have next := rests.idles idle (answeredData rests.toLinked (by simp [state]) (p.cpu.given i))
  have before : work p = 44 := by rw [work,state]
  have stalled : stalls p i = true := by rw [stalls,state]
  have stays (works : Works cfg text entry (p.next cfg i) c) (atMost : work (p.next cfg i) ≤ 44) :
      Follows cfg text entry p i c :=
    .stays (completesBusy idle i) works (by rw [before]; exact atMost) fun absent => absurd (stalled.symm.trans absent) (by decide)
  have goes : (p.next cfg i).cpu.core.currentState = if i.reqHalt then .halt else if i.boot then .fetch else .boot := by
    change p.cpu.core.nextState (p.cpu.given i) = _
    rw [Regs.nextState,state]
    rfl
  split at goes
  · exact stays (.halts next.toShared goes) (by rw [work,goes]; exact Nat.zero_le 44)
  · rename_i runs
    split at goes
    · rename_i boots
      have start : (p.next cfg i).cpu.core.pc = i.bootAddr := by
        have same : (p.next cfg i).cpu.core.pc = if p.cpu.core.pcWrite (p.cpu.given i) then p.cpu.core.nextPcValue (p.cpu.given i)
          else p.cpu.core.pc := rfl
        have writes : p.cpu.core.pcWrite (p.cpu.given i) = true := by
          simp only [Regs.pcWrite,state,Computing.given,boots,runs]
          rfl
        rw [same,if_pos writes,Regs.nextPcValue,if_pos state]
        rfl
      refine stays (.fetches next goes (by rw [start,supports.boots boots,pc])) ?_
      rw [work,goes]
      dsimp only
      repeat' split
      all_goals decide
    · exact stays (.boots next goes pc) (by rw [work,goes])

theorem workFetch (state : p.cpu.core.currentState = .fetch) :
    work p = if p.cpu.core.imemDataStagingValid then 42 else if p.cpu.core.memReqInflight then 43 else 44 := by
  rw [work,state]

theorem stallsFetch (state : p.cpu.core.currentState = .fetch) : stalls p i =
    if p.cpu.core.memReqInflight then !i.memDValid else !p.cpu.core.imemDataStagingValid && !i.memAReady := by
  rw [stalls,state]

theorem fetchNearer (state : p.cpu.core.currentState = .fetch) (quiet : p.cpu.core.interruptTaken (p.cpu.given i) = false)
    (awake : p.cpu.core.wfiActive = false) (unstaged : p.cpu.core.imemDataStagingValid = false) (runs : i.reqHalt = false)
    (goes : (p.next cfg i).cpu.core.currentState = .fetch) :
    work (p.next cfg i) ≤ work p ∧ (stalls p i = false → work (p.next cfg i) < work p) := by
  have given : (p.cpu.given i).memDValid = i.memDValid ∧ (p.cpu.given i).memAReady = i.memAReady ∧
      (p.cpu.given i).reqHalt = false := ⟨rfl,rfl,runs⟩
  have staged : (p.next cfg i).cpu.core.imemDataStagingValid = (i.memDValid && p.cpu.core.memReqInflight) := by
    change (p.cpu.core.next cfg (p.cpu.given i)).imemDataStagingValid = _
    simp [Regs.imemDataStagingWrite,Regs.memDHandshake,state,unstaged,given]
  have asks : p.cpu.core.memAHandshake (p.cpu.given i) = (!p.cpu.core.memReqInflight && i.memAReady) := by
    simp [Regs.memAHandshake,Regs.access,Regs.imemReq,state,quiet,awake,unstaged,given]
  have inflight : (p.next cfg i).cpu.core.memReqInflight = (p.cpu.core.memReqInflight && !i.memDValid ||
      !p.cpu.core.memReqInflight && i.memAReady) := by
    change (p.cpu.core.next cfg (p.cpu.given i)).memReqInflight = _
    rw [inflightNext,asks,Regs.memDHandshake,given.1]
    cases p.cpu.core.memReqInflight <;> cases i.memDValid <;> cases i.memAReady <;> rfl
  rw [workFetch state,workFetch goes,stallsFetch state,staged,inflight,unstaged]
  cases p.cpu.core.memReqInflight <;> cases i.memDValid <;> cases i.memAReady <;> decide

theorem fetchesCycle (rests : Rests cfg text code p c asked) (state : p.cpu.core.currentState = .fetch)
    (pc : p.cpu.core.pc = c.hart.pc) (begins : c.Begins cfg.enableM text instr) (supports : Supports entry p i) :
    Follows cfg text entry p i c := by
  have idle : p.cpu.core.currentState.busy = false := by rw [state]; rfl
  have rests := rests.renewed state pc begins
  have next := rests.idles idle (answeredFetch rests.toLinked state (by rw [rests.memory]) supports.serves)
  have quiet := noInterrupt rests.csr (p.cpu.given i)
  have goes : (p.next cfg i).cpu.core.currentState =
      if i.reqHalt then .halt else if p.cpu.core.imemDataStagingValid then .decode else .fetch := by
    change p.cpu.core.nextState (p.cpu.given i) = _
    simp only [Regs.nextState,state,quiet,rests.awake,Regs.imemReady]
    rfl
  have stays (works : Works cfg text entry (p.next cfg i) c) (atMost : work (p.next cfg i) ≤ work p)
      (fewer : stalls p i = false → work (p.next cfg i) < work p) : Follows cfg text entry p i c :=
    .stays (completesBusy idle i) works atMost fewer
  have here := workFetch state
  split at goes
  · have zero : work (p.next cfg i) = 0 := by rw [work,goes]
    have positive : 0 < work p := by
      rw [here]
      repeat' split
      all_goals decide
    exact stays (.halts next.toShared goes) (by omega) fun _ => by omega
  · rename_i runs
    cases staged : p.cpu.core.imemDataStagingValid with
    | true =>
      rw [staged,if_pos rfl] at goes here
      have writes : p.cpu.core.irWrite (p.cpu.given i) = true := by
        simp [Regs.irWrite,state,quiet,rests.awake,Regs.imemReady,staged]
      have latched : Works cfg text entry (p.next cfg i) c ∧ work (p.next cfg i) = 41 :=
        rests.latches pc begins writes goes next
      obtain ⟨works,after⟩ := latched
      exact stays works (by omega) fun _ => by omega
    | false =>
      rw [staged,if_neg Bool.false_ne_true] at goes here
      have pc' : (p.next cfg i).cpu.core.pc = c.hart.pc := (fetchKeepsPc state quiet).trans pc
      obtain ⟨atMost,fewer⟩ := fetchNearer state quiet rests.awake staged (Bool.eq_false_iff.mpr runs) goes
      exact stays (.fetches next goes pc') atMost fewer

theorem busyUnstaged (r : Reached cfg s) (busy : s.currentState.busy = true) {i : Inputs} :
    (s.next cfg i).imemDataStagingValid = false := by
  have others : s.currentState ≠ .fetch ∧ s.currentState ≠ .halt := by
    revert busy
    cases s.currentState <;> decide
  have unstaged : s.imemDataStagingValid = false := by
    by_contra staged
    rcases r.staged (by simpa using staged) with ⟨fetch,_⟩ | halt
    · exact others.1 fetch
    · exact others.2 halt
  simp [Regs.imemDataStagingWrite,unstaged,others.1]

theorem executesCycle (linked : Linked cfg c.memory p asked) (begun : Begun cfg text s c instr) (runs : Runs cfg s instr log p.cpu) (tells : Tells c log p.bus)
    (busy : p.cpu.core.currentState.busy = true) (supports : Supports entry p i) : Follows cfg text entry p i c := by
  have plain := plainRuns begun.latched runs
  have others : p.cpu.core.currentState ≠ .fetch ∧ p.cpu.core.currentState ≠ .halt := by
    revert busy
    cases p.cpu.core.currentState <;> decide
  have next := linkedNext linked (answeredData linked others (p.cpu.given i)) plain.wfi
  obtain ⟨runs',atMost,fewer⟩ := runsStep begun.latched runs busy i
  have tells' : Tells c (log ++ events p.cpu i) (p.next cfg i).bus := tells.goOn supports.serves
  have last : completes p i = !(p.next cfg i).cpu.core.currentState.busy :=
    completesLast linked.equipped.toReached plain busy (p.cpu.given i)
  obtain ⟨here,waits⟩ := workBusy (i := i) busy
  cases busy' : (p.next cfg i).cpu.core.currentState.busy with
  | true =>
    obtain ⟨there,_⟩ := workBusy (i := i) busy'
    refine .stays (by rw [last,busy']; rfl) (.executes next begun runs' tells' busy') ?_ ?_
    · change work (p.next cfg i) ≤ work p
      rw [here,there]
      exact atMost
    · change stalls p i = false → work (p.next cfg i) < work p
      rw [here,there,waits]
      exact fewer
  | false =>
    have executed := runs'.executed busy'
    have after : c.after instr = ⟨hart (p.next cfg i).cpu.core (p.next cfg i).cpu.core.pc,(p.next cfg i).bus.memory⟩ :=
      begun.after executed.1 tells'
    have state : (p.next cfg i).cpu.core.currentState = .fetch := endsFetch runs' busy'
    have rests : Rests cfg text c.memory (p.next cfg i) (c.after instr) (askedAfter cfg p asked i) := by
      refine ⟨next,⟨by rw [after]; rfl,by rw [after]⟩,begun.begins.kept,fun staged => ?_,executed.2.trans begun.csr⟩
      exact absurd (staged.symm.trans (busyUnstaged linked.equipped.toReached busy)) (by decide)
    refine .ended (by rw [last,busy']; rfl) (.instruction begun.begins) (.fetches rests state (by rw [after]; rfl)) ?_ ?_
    · rw [here]
      exact effortSome runs busy
    · change work (p.next cfg i) ≤ 44
      rw [workFetch state]
      repeat' split
      all_goals decide

theorem worksCycle (works : Works cfg text entry p c) (supports : Supports entry p i) {d : Computer}
    (goes : c.Steps cfg.enableM text d) : Follows cfg text entry p i c := by
  cases works with
  | boots rests state pc => exact bootsCycle rests state pc supports
  | fetches rests state pc =>
    cases goes with
    | instruction begins => exact fetchesCycle rests state pc begins supports
  | halts shared state =>
    have idle : p.cpu.core.currentState.busy = false := by rw [state]; rfl
    have goes : (p.next cfg i).cpu.core.currentState = .halt := by
      change p.cpu.core.nextState (p.cpu.given i) = _
      rw [Regs.nextState,state]
    have zero : work (p.next cfg i) = 0 := by rw [work,goes]
    have stalled : stalls p i = true := by rw [stalls,state]
    refine .stays (completesBusy idle i) (.halts (shared.idles idle i) goes) ?_ fun working => ?_
    · exact zero.le.trans (Nat.zero_le _)
    · exact absurd (stalled.symm.trans working) (by decide)
  | executes linked begun runs tells busy => exact executesCycle linked begun runs tells busy supports

/- What the state of a program shows in the CPU and in the memory: all of it between two instructions, and within one the
memory before or after its store. -/
structure Reflects (cfg : Config) (text : BitVec 32 → Prop) (p : Platform) (c : Computer) : Prop where
  shared : p.cpu.core.currentState.busy = false → Shared p c
  pc : p.cpu.core.currentState = .fetch → p.cpu.core.pc = c.hart.pc
  executing : p.cpu.core.currentState.busy = true → ∃ instr, c.Begins cfg.enableM text instr ∧ p.cpu.core.irReg = instr.encode ∧
    p.cpu.core.instrPcReg = c.hart.pc ∧ (p.bus.memory = c.memory ∨ p.bus.memory = (c.after instr).memory)

theorem Works.reflects (works : Works cfg text entry p c) : Reflects cfg text p c := by
  cases works with
  | boots rests state _ =>
    refine ⟨fun _ => rests.toShared,fun other => absurd (state.symm.trans other) (by decide),fun busy => ?_⟩
    rw [state] at busy
    contradiction
  | fetches rests state pc =>
    refine ⟨fun _ => rests.toShared,fun _ => pc,fun busy => ?_⟩
    rw [state] at busy
    contradiction
  | halts shared state =>
    refine ⟨fun _ => shared,fun other => absurd (state.symm.trans other) (by decide),fun busy => ?_⟩
    rw [state] at busy
    contradiction
  | @executes _ _ instr _ linked begun runs tells busy =>
    refine ⟨fun idle => absurd (busy.symm.trans idle) (by decide),fun state => ?_,
      fun _ => ⟨instr,begun.begins,?_,?_,begun.memory runs tells⟩⟩
    · rw [state] at busy
      contradiction
    · exact (keptRuns runs busy).1.trans begun.word
    · rw [(keptRuns runs busy).2,← begun.hart]
      rfl

theorem programWorks (cfg : Config) (h₀ : Computing) (banks : h₀.core.bankA.mem = h₀.core.bankB.mem) (entry : BitVec 32)
    (memory : Memory 32) (text : BitVec 32 → Prop) (inputs : List Inputs)
    (supports : (platform cfg).Steps (Supports entry) ⟨h₀.reset,memory,none⟩ inputs) :
    ∃ before after c, inputs = before ++ after ∧
      Reaches (Computer.Steps cfg.enableM text) ⟨hart h₀.core entry,memory⟩
        (((platform cfg).history (fun p i => [completes p i]) ⟨h₀.reset,memory,none⟩ before).count true) c ∧
      Works cfg text entry ((platform cfg).final ⟨h₀.reset,memory,none⟩ before) c ∧
      ((platform cfg).history (fun p i => [stalls p i]) ⟨h₀.reset,memory,none⟩ before).count false ≤
        44 * (((platform cfg).history (fun p i => [completes p i]) ⟨h₀.reset,memory,none⟩ before).count true + 1) ∧
      (after = [] ∨ ¬ ∃ d, c.Steps cfg.enableM text d) := by
  have rests : Rests cfg text memory ⟨h₀.reset,memory,none⟩ ⟨hart h₀.core entry,memory⟩ none :=
    ⟨resetLinked h₀ banks memory,⟨rfl,rfl⟩,fun _ _ => rfl,fun _ => rfl,rfl⟩
  have start : Works cfg text entry ⟨h₀.reset,memory,none⟩ ⟨hart h₀.core entry,memory⟩ := .boots rests rfl rfl
  obtain ⟨before,after,c,split,reaches,works,spent,stops⟩ := follows (m := platform cfg)
    (fun p i c d works supports goes => worksCycle works supports goes) start inputs supports
  have first : work ⟨h₀.reset,memory,none⟩ = 44 := rfl
  exact ⟨before,after,c,split,reaches,works,by omega,stops⟩

/- In every run from reset over a memory that answers truly, however long it takes, the CPU goes through the states of the
program that the memory holds, completing an instruction in at most 44 cycles besides those in which it waits; this goes on
to the end of the run, or to an instruction that is not one of these or that changes the bytes the program is fetched from. -/
theorem programExecuted (cfg : Config) (h₀ : Computing) (banks : h₀.core.bankA.mem = h₀.core.bankB.mem) (entry : BitVec 32)
    (memory : Memory 32) (text : BitVec 32 → Prop) (inputs : List Inputs)
    (supports : (platform cfg).Steps (Supports entry) ⟨h₀.reset,memory,none⟩ inputs) :
    ∃ before after c, inputs = before ++ after ∧
      Reaches (Computer.Steps cfg.enableM text) ⟨hart h₀.core entry,memory⟩
        (((platform cfg).history (fun p i => [completes p i]) ⟨h₀.reset,memory,none⟩ before).count true) c ∧
      Reflects cfg text ((platform cfg).final ⟨h₀.reset,memory,none⟩ before) c ∧
      ((platform cfg).history (fun p i => [stalls p i]) ⟨h₀.reset,memory,none⟩ before).count false ≤
        44 * (((platform cfg).history (fun p i => [completes p i]) ⟨h₀.reset,memory,none⟩ before).count true + 1) ∧
      (after = [] ∨ ¬ ∃ d, c.Steps cfg.enableM text d) := by
  obtain ⟨before,after,c,split,reaches,works,spent,stops⟩ := programWorks cfg h₀ banks entry memory text inputs supports
  exact ⟨before,after,c,split,reaches,works.reflects,spent,stops⟩

/- A memory that answers in the next cycle. -/
def Platform.answer (p : Platform) : Inputs :=
  {respond p.bus.memory p.cpu.core with memDRdata := (p.bus.pending.map fun a => word p.bus.memory a.addr).getD 0}

def Platform.drive (cfg : Config) : Nat → Platform → List Inputs
  | 0, _ => []
  | n + 1, p => p.answer :: Platform.drive cfg n (p.next cfg p.answer)

theorem answerSupports (p : Platform) : Supports 0 p p.answer := by
  refine ⟨fun _ => rfl,?_⟩
  cases busCycle p.cpu p.answer with
  | asks _ _ _ shown =>
    rw [shown,stepsCons]
    exact ⟨trivial,by simp [Machine.Steps]⟩
  | hears _ _ _ shown =>
    rw [shown,stepsCons]
    refine ⟨fun a pending _ => ?_,by simp [Machine.Steps]⟩
    have data : p.answer.memDRdata = word p.bus.memory a.addr := by
      simp [Platform.answer,Option.mem_def.mp pending]
    have few : a.count ≤ 4 := by
      unfold Access.count
      split
      · decide
      · split
        all_goals decide
    rw [data]
    exact wordAnswered p.bus.memory a.addr few
  | silent _ _ shown =>
    rw [shown]
    simp [Machine.Steps]

theorem driveSupports (cfg : Config) (n : Nat) (p : Platform) :
    (platform cfg).Steps (Supports 0) p (Platform.drive cfg n p) := by
  induction n generalizing p with
  | zero => simp [Platform.drive,Machine.Steps]
  | succ n ih =>
    rw [Platform.drive,stepsCons]
    exact ⟨answerSupports p,ih _⟩

def storeLoop : Memory 32 := program (List.map Instr.encode
  [.immediate .addi 1 1 7,.store .half 0 1 0x42,.load .lh 2 0 0x42,.jal 0 (-6)])
def settled : Computing :=
  ⟨{ (default : Regs) with bankA := ⟨fun _ => 0x2001,0,0⟩, bankB := ⟨fun _ => 0x2001,0,0⟩ },default⟩

theorem storeLoopExecuted :
    let start : Platform := ⟨settled.reset,storeLoop,none⟩
    ∃ before after c, Platform.drive ⟨true,true⟩ 80 start = before ++ after ∧
      Reaches (Computer.Steps true (·.toNat < 20)) ⟨hart settled.core 0,storeLoop⟩
        (((platform ⟨true,true⟩).history (fun p i => [completes p i]) start before).count true) c ∧
      Reflects ⟨true,true⟩ (·.toNat < 20) ((platform ⟨true,true⟩).final start before) c ∧
      ((platform ⟨true,true⟩).history (fun p i => [stalls p i]) start before).count false ≤
        44 * (((platform ⟨true,true⟩).history (fun p i => [completes p i]) start before).count true + 1) ∧
      (after = [] ∨ ¬ ∃ d, c.Steps true (·.toNat < 20) d) :=
  programExecuted ⟨true,true⟩ settled rfl 0 storeLoop _ _ (driveSupports ⟨true,true⟩ 80 _)

end RiscvSoc.Core
