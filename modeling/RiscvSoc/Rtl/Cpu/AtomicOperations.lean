import RiscvSoc.Rtl.Cpu.Alu
import RiscvSoc.Rtl.Cpu.Execution

/-! The atomic read-modify-writes, with the ALU that the CPU has for them. Whatever the bus makes it
wait, an instruction reads its address once and then writes it once. -/
namespace RiscvSoc.Decoder

/- What the decoder takes for a read-modify-write; it does not look at `funct3`. -/
def isReadModifyWrite (instruction : BitVec 32) : Bool := opcode instruction == opAmo && (amoOp instruction).isSome

def readModifyWrite (funct5 : BitVec 5) (old x : BitVec 32) : BitVec 32 :=
  if funct5 = 0b00001 then x
  else if funct5 = 0b00000 then old + x
  else if funct5 = 0b00100 then old ^^^ x
  else if funct5 = 0b01100 then old &&& x
  else if funct5 = 0b01000 then old ||| x
  else if funct5 = 0b10000 then if old.slt x then old else x
  else if funct5 = 0b10100 then if old.slt x then x else old
  else if funct5 = 0b11000 then if old.ult x then old else x
  else if old.ult x then x else old

theorem amoControl {w : BitVec 32} {op : BitVec 5} (enableM enableF : Bool) (amo : opcode w = opAmo)
    (known : amoOp w = some op) : control w enableM enableF =
      {Control.defaults with regWrite := true, memRead := true, isAmo := true, memWrite := true, aluOp := op} := by
  have atomic' : control w enableM enableF = atomic w := by
    simp only [control,amo]
    rfl
  have others : funct5 w ≠ 0b00010 ∧ funct5 w ≠ 0b00011 := by
    refine ⟨?_,?_⟩ <;> intro same <;> simp [amoOp,same] at known
  rw [atomic',atomic,if_neg others.1,if_neg others.2,known]

theorem amoComputes {w : BitVec 32} {op : BitVec 5} (known : amoOp w = some op) (old x : BitVec 32) :
    Alu.isAtomicOp op = true ∧
      readModifyWrite (funct5 w) old x = if funct5 w = 0b00001 then x else Alu.atomicResult op old x := by
  simp only [amoOp] at known
  simp only [readModifyWrite]
  generalize funct5 w = f at known ⊢
  repeat' split at known
  all_goals first
    | contradiction
    | (cases known; simp_all [Alu.isAtomicOp,Alu.atomicResult,Alu.lessThan,aluAdd,aluXor,aluAnd,aluOr,aluMin,aluMax,aluMinu,aluMaxu])

end RiscvSoc.Decoder

namespace RiscvSoc.Core
open Mealy Machine

namespace Regs

def aluInputs (s : Regs) : Alu.Inputs where
  a :=
    if s.currentState = .atomicRmw then s.mdr
    else if s.currentState = .execute ∧ s.dec.isAuipc then s.instrPcReg
    else s.aReg
  b :=
    if s.currentState = .memAddr ∧ (s.dec.isAmo || s.dec.isLr || s.dec.isSc) then 0
    else if s.currentState = .execute ∧ s.dec.isAuipc then s.dec.immU
    else if s.currentState = .atomicRmw then s.bReg
    else if s.dec.aluSrc then if s.dec.memWrite || s.dec.isFpStore then s.dec.immS else s.dec.immI
    else s.bReg
  aluOp := if s.currentState = .memAddr then Decoder.aluAdd else s.dec.aluOp
  inValid := s.aluInValid

end Regs

structure Computing where
  core : Regs
  alu : Alu.Regs

namespace Computing

def reset (h : Computing) : Computing := ⟨Core.reset h.core,Alu.reset h.alu⟩

def given (h : Computing) (i : Inputs) : Inputs :=
  {i with aluInReady := h.alu.inReady, aluData := h.alu.outData, aluOutValid := h.alu.outValid}

def next (cfg : Config) (h : Computing) (i : Inputs) : Computing :=
  ⟨h.core.next cfg (h.given i),h.alu.next cfg.enableM h.core.aluInputs⟩

end Computing

def computing (cfg : Config) : Machine Computing Inputs Outputs := ⟨fun h i => h.core.outputs (h.given i),Computing.next cfg⟩

inductive Event where
  | asked (access : Access)
  | answered (data : BitVec 32)
  deriving DecidableEq, Repr

def events (h : Computing) (i : Inputs) : List Event :=
  (if h.core.memAHandshake (h.given i) then [.asked (h.core.access (h.given i))] else []) ++
    if h.core.memDHandshake (h.given i) then [.answered i.memDRdata] else []

/- The ALU works on nothing but the request of the instruction in progress. -/
structure Matched (cfg : Config) (h : Computing) : Prop extends Supplied cfg h.core where
  pending : h.alu.pendingOperationReg = true → h.alu.outValid = false ∧
    (h.core.currentState = .execute ∧ h.core.aluReqSent = true ∧ h.core.dec.branch = false ∧ h.core.fpResult = false ∨
      h.core.currentState = .atomicRmw ∧ h.core.aluReqSentRmw = true)

variable {cfg : Config} {s : Regs} {h : Computing} {i : Inputs}

theorem resetMatched (h : Computing) : Matched cfg h.reset :=
  ⟨resetSupplied h.core,fun pending => by simp [Computing.reset,Alu.reset] at pending⟩

theorem launchesIn (cfg : Config) (launched : s.aluInValid = true) (ready : i.aluInReady = true) :
    s.currentState = .execute ∧ s.dec.branch = false ∧ s.fpResult = false ∧ s.nextState i = .execute ∧
        (s.next cfg i).aluReqSent = true ∨
      s.currentState = .atomicRmw ∧ s.nextState i = .atomicRmw ∧ (s.next cfg i).aluReqSentRmw = true := by
  cases state : s.currentState with
  | execute =>
    left
    have valid := launched
    simp only [Regs.aluInValid,state,Bool.and_eq_true,Bool.not_eq_true'] at valid
    refine ⟨rfl,valid.1.1,valid.1.2,by simp [Regs.nextState,state,valid],?_⟩
    simp [Regs.next,state,launched,ready]
  | atomicRmw =>
    right
    have valid := launched
    simp only [Regs.aluInValid,state,Bool.not_eq_true'] at valid
    refine ⟨rfl,by simp [Regs.nextState,state,valid],?_⟩
    simp [Regs.next,state,launched,ready]
  | _ => simp [Regs.aluInValid,state] at launched

theorem matchedNext (m : Matched cfg h) (i : Inputs) : Matched cfg (h.next cfg i) := by
  refine ⟨suppliedNext m.toSupplied (h.given i),fun pending => ?_⟩
  rcases Alu.pendingFrom pending with ⟨launched,invalid⟩ | ⟨before,same⟩
  · refine ⟨invalid,?_⟩
    simp only [Alu.Regs.launchOp,Bool.and_eq_true] at launched
    rcases launchesIn cfg (s := h.core) (i := h.given i) launched.1 launched.2 with
      ⟨state,branch,plain,stays,sent⟩ | ⟨state,stays,sent⟩
    · left
      have dec : (h.core.next cfg (h.given i)).dec = h.core.dec := decKept (by simp [state])
      exact ⟨stays,sent,by rw [show (h.next cfg i).core.dec = _ from dec]; exact branch,
        by rw [Regs.fpResult,show (h.next cfg i).core.dec = _ from dec]; exact plain⟩
    · exact .inr ⟨stays,sent⟩
  · obtain ⟨invalid,place⟩ := m.pending before
    refine ⟨same.trans invalid,?_⟩
    have waits : (h.given i).aluOutValid = false := invalid
    rcases place with ⟨state,sent,branch,plain⟩ | ⟨state,sent⟩
    · left
      have dec : (h.core.next cfg (h.given i)).dec = h.core.dec := decKept (by simp [state])
      refine ⟨by simp [Computing.next,Regs.nextState,state,branch,plain,waits],?_,
        by rw [show (h.next cfg i).core.dec = _ from dec]; exact branch,
        by rw [Regs.fpResult,show (h.next cfg i).core.dec = _ from dec]; exact plain⟩
      simp [Computing.next,Regs.next,state,sent]
    · right
      exact ⟨by simp [Computing.next,Regs.nextState,state,waits],by simp [Computing.next,Regs.next,state,sent]⟩

/- The word, or the part of it that `funct3` asks for, of the bus. -/
def loaded (funct3 : BitVec 3) (data : BitVec 32) : BitVec 32 :=
  if funct3 = 0b000 then (data.extractLsb' 0 8).signExtend 32
  else if funct3 = 0b001 then (data.extractLsb' 0 16).signExtend 32
  else if funct3 = 0b100 then (data.extractLsb' 0 8).setWidth 32
  else if funct3 = 0b101 then (data.extractLsb' 0 16).setWidth 32
  else data

/- The read and the write of the instruction that `s` begins to decode. -/
def readAccess (s : Regs) : Access where
  addr := operand s.bankA (Decoder.rs1 s.irReg)
  wdata := operand s.bankB (Decoder.rs2 s.irReg)
  we := false
  size := (Decoder.funct3 s.irReg).extractLsb' 0 2
  valid := true
def writeAccess (s : Regs) (data : BitVec 32) : Access where
  addr := operand s.bankA (Decoder.rs1 s.irReg)
  wdata := Decoder.readModifyWrite (Decoder.funct5 s.irReg) (loaded (Decoder.funct3 s.irReg) data)
    (operand s.bankB (Decoder.rs2 s.irReg))
  we := true
  size := (Decoder.funct3 s.irReg).extractLsb' 0 2
  valid := true

structure Progressing (cfg : Config) (s : Regs) (h : Computing) : Prop extends Matched cfg h, Kept s h.core where
  dec : h.core.dec = Decoder.decode cfg.enableM cfg.enableF s.irReg

inductive Modifies (op : BitVec 5) (old x : BitVec 32) (h : Computing) : Prop where
  | unsent (sent : h.core.aluReqSentRmw = false) (inflight : h.core.memReqInflight = false)
  | works (sent : h.core.aluReqSentRmw = true) (works : Alu.Works op old x h.alu) (inflight : h.core.memReqInflight = false)
  | holds (sent : h.core.aluReqSentRmw = true) (holds : Alu.Holds (Alu.atomicResult op old x) h.alu)

inductive Performs (cfg : Config) (s : Regs) (op : BitVec 5) : List Event → Computing → Prop where
  | prepares {h : Computing} {state : State} (matched : Matched cfg h) (prepared : Prepared cfg s h.core state) (early : state.prepares = true) :
      Performs cfg s op [] h
  | addresses {h : Computing} (matched : Matched cfg h) (dispatched : Dispatched cfg s h.core) (state : h.core.currentState = .memAddr) :
      Performs cfg s op [] h
  | reads {h : Computing} (progress : Progressing cfg s h) (state : h.core.currentState = .memRead)
      (address : h.core.aluOutReg = operand s.bankA (Decoder.rs1 s.irReg)) :
      Performs cfg s op (if h.core.memReqInflight then [.asked (readAccess s)] else []) h
  | modifies {h : Computing} {data : BitVec 32} (progress : Progressing cfg s h) (state : h.core.currentState = .atomicRmw)
      (address : h.core.aluOutReg = operand s.bankA (Decoder.rs1 s.irReg))
      (old : h.core.mdr = loaded (Decoder.funct3 s.irReg) data)
      (step : Modifies op (loaded (Decoder.funct3 s.irReg) data) (operand s.bankB (Decoder.rs2 s.irReg)) h) :
      Performs cfg s op ([.asked (readAccess s),.answered data] ++
        if h.core.memReqInflight then [.asked (writeAccess s data)] else []) h
  | writesBack {h : Computing} {data last : BitVec 32} (progress : Progressing cfg s h) (state : h.core.currentState = .writeback)
      (old : h.core.mdr = loaded (Decoder.funct3 s.irReg) data) :
      Performs cfg s op [.asked (readAccess s),.answered data,.asked (writeAccess s data),.answered last] h
  | ended {h : Computing} {data last : BitVec 32} (state : h.core.currentState = .fetch)
      (registers : ∀ r, operand h.core.bankA r = (if r ≠ 0 ∧ r = Decoder.rd s.irReg then
          loaded (Decoder.funct3 s.irReg) data else operand s.bankA r) ∧
        operand h.core.bankB r = if r ≠ 0 ∧ r = Decoder.rd s.irReg then
          loaded (Decoder.funct3 s.irReg) data else operand s.bankB r) :
      Performs cfg s op [.asked (readAccess s),.answered data,.asked (writeAccess s data),.answered last] h

def rank (h : Computing) : Nat := match h.core.currentState with
  | .decode => 17
  | .decodeWait => 16
  | .regRead => 15
  | .regReadWait => 14
  | .memAddr => 13
  | .memRead => if h.core.memReqInflight then 11 else 12
  | .atomicRmw =>
    if !h.core.aluReqSentRmw then 10
    else if h.alu.pendingOperationReg then 4 + Alu.remaining h.alu
    else if h.core.memReqInflight then 2 else 3
  | .writeback => 1
  | _ => 0

def waitsForBus (h : Computing) (i : Inputs) : Bool :=
  if h.core.memReqInflight then !i.memDValid else h.core.dmemReq (h.given i) && !i.memAReady

def Advances (cfg : Config) (s : Regs) (op : BitVec 5) (log : List Event) (h : Computing) (i : Inputs) : Prop :=
  Performs cfg s op (log ++ events h i) (h.next cfg i) ∧ rank (h.next cfg i) ≤ rank h ∧
    (waitsForBus h i = false → rank (h.next cfg i) < rank h)

section Steps
variable {op : BitVec 5} (amo : Decoder.opcode s.irReg = Decoder.opAmo) (known : Decoder.amoOp s.irReg = some op)

/- What a cycle brings in a state that asks the bus for `access`. -/
inductive BusStep (cfg : Config) (access : Access) (h : Computing) (i : Inputs) : Prop where
  | taken (before : h.core.memReqInflight = false) (after : (h.next cfg i).core.memReqInflight = true)
      (shown : events h i = [.asked access]) (ready : h.core.dmemReady (h.given i) = false)
  | refused (before : h.core.memReqInflight = false) (after : (h.next cfg i).core.memReqInflight = false)
      (shown : events h i = []) (ready : h.core.dmemReady (h.given i) = false) (waits : waitsForBus h i = true)
  | answered (before : h.core.memReqInflight = true) (after : (h.next cfg i).core.memReqInflight = false)
      (shown : events h i = [.answered i.memDRdata]) (ready : h.core.dmemReady (h.given i) = true)
  | silent (before : h.core.memReqInflight = true) (after : (h.next cfg i).core.memReqInflight = true)
      (shown : events h i = []) (ready : h.core.dmemReady (h.given i) = false) (waits : waitsForBus h i = true)

theorem busSteps (cfg : Config) {access : Access} (other : h.core.currentState ≠ .fetch)
    (asks : h.core.dmemReq (h.given i) = true)
    (request : h.core.memReqInflight = false → (⟨h.core.aluOutReg,h.core.dmemWdata (h.given i),h.core.dmemWe,
      h.core.dec.funct3.extractLsb' 0 2,true⟩ : Access) = access) : BusStep cfg access h i := by
  have absent : h.core.imemReq (h.given i) = false := by simp [Regs.imemReq,other]
  have drives : h.core.access (h.given i) = ⟨h.core.aluOutReg,h.core.dmemWdata (h.given i),h.core.dmemWe,
      h.core.dec.funct3.extractLsb' 0 2,!h.core.memReqInflight⟩ := by simp [Regs.access,absent,asks]
  have ready : (h.given i).memAReady = i.memAReady ∧ (h.given i).memDValid = i.memDValid := ⟨rfl,rfl⟩
  rcases Bool.eq_false_or_eq_true h.core.memReqInflight with before | before
  · have quiet : h.core.memAHandshake (h.given i) = false := by simp [Regs.memAHandshake,drives,before]
    rcases Bool.eq_false_or_eq_true i.memDValid with valid | waits
    · have answers : h.core.memDHandshake (h.given i) = true := by simp [Regs.memDHandshake,before,ready,valid]
      exact .answered before (by simp [Computing.next,answers]) (by simp [events,quiet,answers]) answers
    · have answers : h.core.memDHandshake (h.given i) = false := by simp [Regs.memDHandshake,ready,waits]
      exact .silent before (by simp [Computing.next,answers,before]) (by simp [events,quiet,answers]) answers
        (by simp [waitsForBus,before,waits])
  · have answers : h.core.memDHandshake (h.given i) = false := by simp [Regs.memDHandshake,before]
    have given := request before
    rw [before,Bool.not_false,given] at drives
    have valid : access.valid = true := by rw [← given]
    rcases Bool.eq_false_or_eq_true i.memAReady with free | waits
    · have shakes : h.core.memAHandshake (h.given i) = true := by simp [Regs.memAHandshake,drives,valid,ready,free]
      exact .taken before (by simp [Computing.next,shakes,answers]) (by simp [events,shakes,answers,drives]) answers
    · have shakes : h.core.memAHandshake (h.given i) = false := by simp [Regs.memAHandshake,ready,waits]
      exact .refused before (by simp [Computing.next,shakes,before]) (by simp [events,shakes,answers]) answers
        (by simp [waitsForBus,before,asks,waits])

theorem noEvents (asks : h.core.memAHandshake (h.given i) = false) (answers : h.core.memDHandshake (h.given i) = false) :
    events h i = [] := by
  simp [events,asks,answers]

theorem quietBus (cfg : Config) (free : h.core.memReqInflight = false) (other : h.core.currentState ≠ .fetch)
    (asks : h.core.dmemReq (h.given i) = false) : events h i = [] ∧ waitsForBus h i = false ∧
      (h.next cfg i).core.memReqInflight = false := by
  have quiet := silent (i := h.given i) other asks
  refine ⟨noEvents quiet.2.2 (by simp [Regs.memDHandshake,free]),by simp [waitsForBus,free,asks],?_⟩
  simp [Computing.next,free,quiet.2.2]

theorem freeUnless (r : Reached cfg h.core) (others : h.core.currentState ≠ .fetch ∧ h.core.currentState ≠ .memRead ∧
    h.core.currentState ≠ .memWrite ∧ h.core.currentState ≠ .atomicRmw ∧ h.core.currentState ≠ .halt) :
    h.core.memReqInflight = false := by
  rcases Bool.eq_false_or_eq_true h.core.memReqInflight with asked | free
  · rcases r.inflight asked with state | state | state | state | state <;> simp [state] at others
  · exact free

include amo known in
theorem amoProceeds : Proceeds (Decoder.control s.irReg cfg.enableM cfg.enableF) := by
  rw [Decoder.amoControl cfg.enableM cfg.enableF amo known]
  exact ⟨rfl,rfl,rfl,rfl⟩

def plainRank : State → Nat
  | .decode => 17
  | .decodeWait => 16
  | .regRead => 15
  | .regReadWait => 14
  | .memAddr => 13
  | .writeback => 1
  | _ => 0

theorem rankPlain {state : State} (place : h.core.currentState = state) (plain : state ≠ .memRead ∧ state ≠ .atomicRmw) :
    rank h = plainRank state := by
  unfold rank
  rw [place]
  cases state <;> first | rfl | (simp at plain)

include amo known in
theorem preparesOn {state : State} (m : Matched cfg h) (p : Prepared cfg s h.core state) (early : state.prepares = true)
    (i : Inputs) : Advances cfg s op [] h i := by
  have proceeds : Proceeds (Decoder.control s.irReg cfg.enableM cfg.enableF) := amoProceeds amo known
  have matched := matchedNext m i
  have idle := p.silent early (h.given i)
  have others : h.core.currentState ≠ .fetch ∧ h.core.currentState ≠ .memRead ∧ h.core.currentState ≠ .memWrite ∧
      h.core.currentState ≠ .atomicRmw ∧ h.core.currentState ≠ .halt := by
    rw [p.state]
    revert early
    cases state <;> simp [State.prepares]
  have absent := noEvents idle.2.1 (by simp [Regs.memDHandshake,freeUnless m.toReached others])
  have next {after : State} (q : Prepared cfg s (h.next cfg i).core after) (early : after.prepares = true)
      (here : rank h = plainRank state) (fewer : plainRank after < plainRank state) : Advances cfg s op [] h i := by
    have there := rankPlain q.state (by refine ⟨?_,?_⟩ <;> intro same <;> rw [same] at early <;> contradiction)
    refine ⟨?_,by omega,fun _ => by omega⟩
    rw [absent]
    exact .prepares matched q early
  cases state with
  | decode => exact next (p.decodes (h.given i)) rfl (rankPlain p.state (by decide)) (by decide)
  | decodeWait => exact next (p.waits proceeds (h.given i)) rfl (rankPlain p.state (by decide)) (by decide)
  | regRead => exact next (p.reads (h.given i)) rfl (rankPlain p.state (by decide)) (by decide)
  | regReadWait =>
    have dispatched : Dispatched cfg s (h.next cfg i).core := p.dispatches proceeds (h.given i)
    have state : (h.next cfg i).core.currentState = .memAddr := by
      rw [dispatched.state,Regs.dispatch,dispatched.dec,show (Decoder.decode cfg.enableM cfg.enableF s.irReg).opcode =
        Decoder.opcode s.irReg from rfl,amo]
      rfl
    have here := rankPlain p.state (by decide)
    have there := rankPlain state (by decide)
    simp only [plainRank] at here there
    refine ⟨?_,by omega,fun _ => by omega⟩
    rw [absent]
    exact .addresses matched dispatched state
  | _ => contradiction

structure AmoFields (op : BitVec 5) (instruction : BitVec 32) (d : Decoder.Regs) : Prop where
  kind : d.isAmo = true ∧ d.isLr = false ∧ d.isSc = false
  memory : d.memRead = true ∧ d.memWrite = true ∧ d.isFpStore = false
  result : d.regWrite = true ∧ d.fpToInt = false ∧ d.fpRegWrite = false
  aluOp : d.aluOp = op
  registers : d.rd = Decoder.rd instruction ∧ d.rs1 = Decoder.rs1 instruction ∧ d.rs2 = Decoder.rs2 instruction
  functs : d.funct3 = Decoder.funct3 instruction ∧ d.funct5 = Decoder.funct5 instruction

include amo known in
theorem amoFields {t : Regs} (dec : t.dec = Decoder.decode cfg.enableM cfg.enableF s.irReg) : AmoFields op s.irReg t.dec := by
  rw [dec,Decoder.decode,Decoder.amoControl cfg.enableM cfg.enableF amo known]
  exact ⟨⟨rfl,rfl,rfl⟩,⟨rfl,rfl,rfl⟩,⟨rfl,rfl,rfl⟩,rfl,⟨rfl,rfl,rfl⟩,⟨rfl,rfl⟩⟩

theorem Progressing.keeps (p : Progressing cfg s h) (quiet : h.core.currentState.quiet = true)
    (others : h.core.currentState ≠ .decode ∧ h.core.currentState ≠ .regReadWait) (i : Inputs) :
    Progressing cfg s (h.next cfg i) :=
  ⟨matchedNext p.toMatched i,p.toKept.trans (quietKeeps cfg (h.given i) quiet (by simp [Regs.proceeds,others.2])),
    (decKept others.1).trans p.dec⟩

theorem Progressing.sources (p : Progressing cfg s h) (going : h.core.currentState.going = true) :
    h.core.aReg = operand s.bankA (Decoder.rs1 s.irReg) ∧ h.core.bReg = operand s.bankB (Decoder.rs2 s.irReg) := by
  obtain ⟨a,b⟩ := p.operands going
  rw [a,b,operandSame p.bankA,operandSame p.bankB,p.dec]
  exact ⟨rfl,rfl⟩

include amo known in
theorem addressesOn (m : Matched cfg h) (d : Dispatched cfg s h.core) (state : h.core.currentState = .memAddr) (i : Inputs) :
    Advances cfg s op [] h i := by
  have p : Progressing cfg s h := ⟨m,d.toKept,d.dec⟩
  have fields := amoFields amo known (t := h.core) d.dec
  have next := p.keeps (by rw [state]; rfl) (by simp [state]) i
  obtain ⟨absent,_,free⟩ := quietBus cfg (i := i) d.idle (by simp [state]) (by simp [Regs.dmemReq,state])
  have reads : (h.next cfg i).core.currentState = .memRead := by
    simp [Computing.next,Regs.nextState,state,fields.memory.1]
  have address : (h.next cfg i).core.aluOutReg = operand s.bankA (Decoder.rs1 s.irReg) := by
    rw [← (p.sources (by rw [state]; rfl)).1]
    simp [Computing.next,Regs.next,Regs.aluOutWrite,Regs.memAddress,state,fields.kind.1]
  have here := rankPlain state (by decide)
  have there : rank (h.next cfg i) = 12 := by
    unfold rank
    rw [reads,free]
    rfl
  simp only [plainRank] at here
  refine ⟨?_,by omega,fun _ => by omega⟩
  have performs : Performs cfg s op _ _ := .reads next reads address
  rw [free] at performs
  rw [absent]
  exact performs

include amo known in
theorem readsOn (p : Progressing cfg s h) (state : h.core.currentState = .memRead)
    (address : h.core.aluOutReg = operand s.bankA (Decoder.rs1 s.irReg)) (i : Inputs) :
    Advances cfg s op (if h.core.memReqInflight then [.asked (readAccess s)] else []) h i := by
  have fields := amoFields amo known (t := h.core) p.dec
  have next := p.keeps (by rw [state]; rfl) (by simp [state]) i
  have address' : (h.next cfg i).core.aluOutReg = operand s.bankA (Decoder.rs1 s.irReg) := by
    rw [← address]
    simp [Computing.next,Regs.next,Regs.aluOutWrite,state]
  have stays (waits : h.core.dmemReady (h.given i) = false) : (h.next cfg i).core.currentState = .memRead := by
    simp [Computing.next,Regs.nextState,state,waits]
  have ranks {h : Computing} (state : h.core.currentState = .memRead) :
      rank h = if h.core.memReqInflight then 11 else 12 := by
    unfold rank
    rw [state]
  have here := ranks state
  have bus : BusStep cfg (readAccess s) h i := by
    refine busSteps cfg (by simp [state]) (by simp [Regs.dmemReq,state]) fun _ => ?_
    rw [address,Regs.dmemWdata,if_neg (by simp [state]),fields.memory.2.2,if_neg Bool.false_ne_true,
      (p.sources (by rw [state]; rfl)).2,Regs.dmemWe,state,fields.functs.1]
    simp [readAccess]
  cases bus with
  | taken before after shown ready | refused before after shown ready _ | silent before after shown ready _ =>
    have there := ranks (stays ready)
    have performs : Performs cfg s op _ _ := .reads next (stays ready) address'
    rw [before] at here ⊢
    rw [after] at there performs
    rw [Advances,shown]
    refine ⟨performs,by simp_all,fun works => ?_⟩
    simp_all
  | answered before after shown ready =>
    have modifies : (h.next cfg i).core.currentState = .atomicRmw := by
      simp [Computing.next,Regs.nextState,state,ready,fields.kind]
    have old : (h.next cfg i).core.mdr = loaded (Decoder.funct3 s.irReg) i.memDRdata := by
      rw [show (h.next cfg i).core.mdr = if h.core.currentState = .memRead ∧ h.core.dmemReady (h.given i) then
        h.core.formattedLoadData (h.given i) else h.core.mdr from rfl,if_pos ⟨state,ready⟩,Regs.formattedLoadData,
        fields.functs.1]
      rfl
    have unsent : (h.next cfg i).core.aluReqSentRmw = false := by simp [Computing.next,Regs.next,state]
    have there : rank (h.next cfg i) = 10 := by
      unfold rank
      rw [modifies,unsent]
      rfl
    have performs : Performs cfg s op _ _ := .modifies next modifies address' old (.unsent unsent after)
    rw [after] at performs
    rw [before] at here ⊢
    rw [Advances,shown]
    exact ⟨performs,by simp_all,fun _ => by simp_all⟩

theorem rankRmw (state : h.core.currentState = .atomicRmw) : rank h =
    if !h.core.aluReqSentRmw then 10
    else if h.alu.pendingOperationReg then 4 + Alu.remaining h.alu
    else if h.core.memReqInflight then 2 else 3 := by
  unfold rank
  rw [state]

theorem rmwKept (cfg : Config) (state : h.core.currentState = .atomicRmw)
    (waits : h.core.aluReqSentRmw = false ∨ h.alu.outValid = false ∨ h.core.dmemReady (h.given i) = false) :
    (h.next cfg i).core.currentState = .atomicRmw ∧ (h.next cfg i).core.aluOutReg = h.core.aluOutReg ∧
      (h.next cfg i).core.mdr = h.core.mdr := by
  have still : (h.core.aluReqSentRmw && h.alu.outValid && h.core.dmemReady (h.given i)) = false := by
    rcases waits with h | h | h <;> simp [h]
  have valid : (h.given i).aluOutValid = h.alu.outValid := rfl
  refine ⟨?_,?_,?_⟩
  · rw [Computing.next,stateNext,Regs.nextState,state,valid,still]
    rfl
  · simp [Computing.next,Regs.next,Regs.aluOutWrite,state,valid,still]
  · simp [Computing.next,Regs.next,state]

include amo known in
theorem launchesOn {data : BitVec 32} (p : Progressing cfg s h) (state : h.core.currentState = .atomicRmw)
    (address : h.core.aluOutReg = operand s.bankA (Decoder.rs1 s.irReg))
    (old : h.core.mdr = loaded (Decoder.funct3 s.irReg) data) (sent : h.core.aluReqSentRmw = false)
    (idle : h.core.memReqInflight = false) (i : Inputs) :
    Advances cfg s op ([.asked (readAccess s),.answered data]) h i := by
  have fields := amoFields amo known (t := h.core) p.dec
  have next := p.keeps (by rw [state]; rfl) (by simp [state]) i
  obtain ⟨stays,address',old'⟩ := rmwKept cfg (i := i) state (.inl sent)
  obtain ⟨absent,_,idle'⟩ := quietBus cfg (i := i) idle (by simp [state]) (by simp [Regs.dmemReq,state,sent])
  have free : h.alu.pendingOperationReg = false := by
    rcases Bool.eq_false_or_eq_true h.alu.pendingOperationReg with pending | free
    · rcases (p.pending pending).2 with ⟨other,_⟩ | ⟨_,was⟩
      · rw [state] at other
        contradiction
      · rw [sent] at was
        contradiction
    · exact free
  have inputs : h.core.aluInputs.a = loaded (Decoder.funct3 s.irReg) data ∧
      h.core.aluInputs.b = operand s.bankB (Decoder.rs2 s.irReg) ∧ h.core.aluInputs.aluOp = op ∧
      h.core.aluInputs.inValid = true := by
    rw [← old,← (p.sources (by rw [state]; rfl)).2,← fields.aluOp]
    simp [Regs.aluInputs,Regs.aluInValid,state,sent]
  have works : Alu.Works op (loaded (Decoder.funct3 s.irReg) data) (operand s.bankB (Decoder.rs2 s.irReg))
      (h.next cfg i).alu := by
    have atomic := (Decoder.amoComputes known 0 0).1
    have launched := Alu.launches cfg.enableM free inputs.2.2.2 (by rw [inputs.2.2.1]; exact atomic)
    rw [inputs.1,inputs.2.1,inputs.2.2.1] at launched
    exact launched
  have sent' : (h.next cfg i).core.aluReqSentRmw = true := by
    simp [Computing.next,Computing.given,Regs.next,Regs.aluInValid,Alu.Regs.inReady,state,sent,free]
  have here := rankRmw state
  have there := rankRmw stays
  have bounds := Alu.remainingBounds (h.next cfg i).alu
  rw [sent] at here
  rw [sent',works.pending] at there
  simp only [Bool.not_true,Bool.not_false,Bool.false_eq_true,if_true,if_false] at here there
  have performs : Performs cfg s op _ _ := .modifies next stays (address'.trans address) (old'.trans old) (.works sent' works idle')
  rw [idle',if_neg Bool.false_ne_true,List.append_nil] at performs
  rw [Advances,absent,List.append_nil]
  exact ⟨performs,by omega,fun _ => by omega⟩

include known in
theorem computesOn {data : BitVec 32} (p : Progressing cfg s h) (state : h.core.currentState = .atomicRmw)
    (address : h.core.aluOutReg = operand s.bankA (Decoder.rs1 s.irReg))
    (old : h.core.mdr = loaded (Decoder.funct3 s.irReg) data) (sent : h.core.aluReqSentRmw = true)
    (works : Alu.Works op (loaded (Decoder.funct3 s.irReg) data) (operand s.bankB (Decoder.rs2 s.irReg)) h.alu)
    (idle : h.core.memReqInflight = false) (i : Inputs) :
    Advances cfg s op ([.asked (readAccess s),.answered data]) h i := by
  have next := p.keeps (by rw [state]; rfl) (by simp [state]) i
  obtain ⟨stays,address',old'⟩ := rmwKept cfg (i := i) state (.inr (.inl works.invalid))
  obtain ⟨absent,_,idle'⟩ := quietBus cfg (i := i) idle (by simp [state])
    (by simp [Regs.dmemReq,state,Computing.given,works.invalid])
  have sent' : (h.next cfg i).core.aluReqSentRmw = true := by simp [Computing.next,Regs.next,state,sent]
  have here := rankRmw state
  have there := rankRmw stays
  rw [sent,works.pending] at here
  rw [sent'] at there
  simp only [Bool.not_true,Bool.false_eq_true,if_true,if_false,idle'] at here there
  rw [Advances,absent,List.append_nil]
  rcases Alu.worksOn cfg.enableM h.core.aluInputs works (Decoder.amoComputes known 0 0).1 with
    ⟨works',fewer⟩ | holds
  · have performs : Performs cfg s op _ _ := .modifies next stays (address'.trans address) (old'.trans old)
      (.works sent' works' idle')
    rw [idle',if_neg Bool.false_ne_true,List.append_nil] at performs
    have pending : (h.next cfg i).alu.pendingOperationReg = true := works'.pending
    have fewer' : Alu.remaining (h.next cfg i).alu < Alu.remaining h.alu := fewer
    rw [pending,if_pos rfl] at there
    exact ⟨performs,by omega,fun _ => by omega⟩
  · have performs : Performs cfg s op _ _ := .modifies next stays (address'.trans address) (old'.trans old) (.holds sent' holds)
    rw [idle',if_neg Bool.false_ne_true,List.append_nil] at performs
    have done : (h.next cfg i).alu.pendingOperationReg = false := holds.idle
    rw [done,if_neg Bool.false_ne_true] at there
    exact ⟨performs,by omega,fun _ => by omega⟩

include amo known in
theorem modifiesOn {data : BitVec 32} (p : Progressing cfg s h) (state : h.core.currentState = .atomicRmw)
    (address : h.core.aluOutReg = operand s.bankA (Decoder.rs1 s.irReg))
    (old : h.core.mdr = loaded (Decoder.funct3 s.irReg) data) (sent : h.core.aluReqSentRmw = true)
    (holds : Alu.Holds (Alu.atomicResult op (loaded (Decoder.funct3 s.irReg) data)
      (operand s.bankB (Decoder.rs2 s.irReg))) h.alu) (i : Inputs) :
    Advances cfg s op ([.asked (readAccess s),.answered data] ++
      if h.core.memReqInflight then [.asked (writeAccess s data)] else []) h i := by
  have fields := amoFields amo known (t := h.core) p.dec
  have next := p.keeps (by rw [state]; rfl) (by simp [state]) i
  have writes : h.core.dmemWdata (h.given i) = (writeAccess s data).wdata := by
    rw [Regs.dmemWdata,if_pos state,Regs.amoWriteData,fields.functs.2,(p.sources (by rw [state]; rfl)).2,writeAccess,
      (Decoder.amoComputes known _ _).2,show (h.given i).aluData = h.alu.outData from rfl,holds.data]
  have bus : BusStep cfg (writeAccess s data) h i := by
    refine busSteps cfg (by simp [state]) (by simp [Regs.dmemReq,state,sent,Computing.given,holds.valid]) fun _ => ?_
    rw [address,writes,Regs.dmemWe,state,fields.functs.1,fields.memory.2.1,fields.kind.2.2]
    rfl
  have here := rankRmw state
  rw [sent,holds.idle] at here
  simp only [Bool.not_true,Bool.false_eq_true,if_false] at here
  have unlaunched : h.core.aluInputs.inValid = false := by simp [Regs.aluInputs,Regs.aluInValid,state,sent]
  have holds' : Alu.Holds _ (h.next cfg i).alu := Alu.holdsOn cfg.enableM holds unlaunched
  have sent' : (h.next cfg i).core.aluReqSentRmw = true := by simp [Computing.next,Regs.next,state,sent]
  cases bus with
  | taken before after shown ready | refused before after shown ready _ | silent before after shown ready _ =>
    obtain ⟨stays,address',old'⟩ := rmwKept cfg (i := i) state (.inr (.inr ready))
    have there := rankRmw stays
    rw [sent',holds'.idle] at there
    simp only [Bool.not_true,Bool.false_eq_true,if_false] at there
    have performs : Performs cfg s op _ _ := .modifies next stays (address'.trans address) (old'.trans old) (.holds sent' holds')
    rw [before] at here ⊢
    rw [after] at there performs
    rw [Advances,shown]
    refine ⟨by simpa using performs,by simp_all,fun works => ?_⟩
    simp_all
  | answered before after shown ready =>
    have ends : (h.next cfg i).core.currentState = .writeback := by
      rw [Computing.next,stateNext,Regs.nextState,state,ready,sent,show (h.given i).aluOutValid = h.alu.outValid from rfl,
        holds.valid]
      rfl
    have kept : (h.next cfg i).core.mdr = h.core.mdr := by simp [Computing.next,Regs.next,state]
    have there := rankPlain ends (by decide)
    have performs : Performs cfg s op [.asked (readAccess s),.answered data,.asked (writeAccess s data),.answered i.memDRdata]
        (h.next cfg i) := .writesBack next ends (kept.trans old)
    rw [before] at here ⊢
    rw [Advances,shown]
    simp only [plainRank,if_true] at here there
    exact ⟨performs,by omega,fun _ => by omega⟩

include amo known in
theorem writesBackOn {data last : BitVec 32} (p : Progressing cfg s h) (state : h.core.currentState = .writeback)
    (old : h.core.mdr = loaded (Decoder.funct3 s.irReg) data) (i : Inputs) :
    Advances cfg s op [.asked (readAccess s),.answered data,.asked (writeAccess s data),.answered last] h i := by
  have fields := amoFields amo known (t := h.core) p.dec
  have idle := freeUnless p.toReached (by simp [state])
  obtain ⟨absent,_,_⟩ := quietBus cfg (i := i) idle (by simp [state]) (by simp [Regs.dmemReq,state])
  have ends : (h.next cfg i).core.currentState = .fetch := by
    rw [Computing.next,stateNext,Regs.nextState,state]
  have value : h.core.rdData = loaded (Decoder.funct3 s.irReg) data := by
    rw [Regs.rdData,fields.result.2.1,fields.kind.1,old]
    rfl
  have here := rankPlain state (by decide)
  have there := rankPlain ends (by decide)
  simp only [plainRank] at here there
  rw [Advances,absent,List.append_nil]
  refine ⟨.ended ends fun r => ?_,by omega,fun _ => by omega⟩
  have written := writtenBack cfg (h.given i) state (p.flags (by rw [state]; rfl)).1 r
  rw [fields.result.1,fields.registers.1,value] at written
  simp only [true_and,operandSame p.bankA,operandSame p.bankB] at written
  exact written

include amo known in
theorem performsOn {log : List Event} (performs : Performs cfg s op log h) (busy : h.core.currentState.busy = true)
    (i : Inputs) : Advances cfg s op log h i := by
  cases performs with
  | prepares matched prepared early => exact preparesOn amo known matched prepared early i
  | addresses matched dispatched state => exact addressesOn amo known matched dispatched state i
  | reads progress state address => exact readsOn amo known progress state address i
  | modifies progress state address old step =>
    cases step with
    | unsent sent idle =>
      rw [idle,if_neg Bool.false_ne_true,List.append_nil]
      exact launchesOn amo known progress state address old sent idle i
    | works sent works idle =>
      rw [idle,if_neg Bool.false_ne_true,List.append_nil]
      exact computesOn known progress state address old sent works idle i
    | holds sent holds => exact modifiesOn amo known progress state address old sent holds i
  | writesBack progress state old => exact writesBackOn amo known progress state old i
  | ended state _ =>
    rw [state] at busy
    contradiction

end Steps

/- What a read-modify-write that began in `s` has done: the bus has seen its read and its write of the
result, and `rd` has the old value. -/
def Performed (s t : Regs) (seen : List Event) : Prop :=
  ∃ data last, seen = [.asked (readAccess s),.answered data,.asked (writeAccess s data),.answered last] ∧
    ∀ r, operand t.bankA r = (if r ≠ 0 ∧ r = Decoder.rd s.irReg then loaded (Decoder.funct3 s.irReg) data
        else operand s.bankA r) ∧
      operand t.bankB r = if r ≠ 0 ∧ r = Decoder.rd s.irReg then loaded (Decoder.funct3 s.irReg) data
        else operand s.bankB r

/- The cycles of an instruction with the ALU, to its end. -/
def Computes (cfg : Config) (h : Computing) (during : List Inputs) : Prop :=
  (computing cfg).Passes (fun t => t.core.currentState.busy) h during

instance (cfg : Config) (h : Computing) (during : List Inputs) : Decidable (Computes cfg h during) :=
  inferInstanceAs (Decidable ((computing cfg).Passes _ _ _))

theorem matchedRun (cfg : Config) (h₀ : Computing) (before : List Inputs) :
    Matched cfg ((computing cfg).final h₀.reset before) :=
  @Machine.invariant Computing Inputs Outputs (computing cfg) (Matched cfg) (fun _ i m => matchedNext m i) _
    (resetMatched h₀) before

theorem performsFirst (m : Matched cfg h) (op : BitVec 5) (state : h.core.currentState = .decode)
    (latched : h.core.isInstructionValidReg = true) : Performs cfg h.core op [] h :=
  .prepares m (preparedFirst m.toSupplied state latched) rfl

theorem Performs.performed {op : BitVec 5} {log : List Event} (performs : Performs cfg s op log h)
    (ended : h.core.currentState.busy = false) : Performed s h.core log := by
  cases performs with
  | @ended _ data last _ registers => exact ⟨data,last,rfl,registers⟩
  | @prepares _ state _ prepared early =>
    rw [prepared.state] at ended
    cases state <;> contradiction
  | addresses _ _ state | reads _ state _ | modifies _ state _ _ _ | writesBack _ state _ =>
    rw [state] at ended
    contradiction

/- In every run from reset a read-modify-write takes at most seventeen cycles besides those in which the
bus makes it wait, and then it has read once and written once. -/
theorem atomicPerformed (cfg : Config) (h₀ : Computing) (before during : List Inputs)
    (state : ((computing cfg).final h₀.reset before).core.currentState = .decode)
    (latched : ((computing cfg).final h₀.reset before).core.isInstructionValidReg = true)
    (amo : Decoder.isReadModifyWrite ((computing cfg).final h₀.reset before).core.irReg = true)
    (busy : (computing cfg).Steps (fun t _ => t.core.currentState.busy = true)
      ((computing cfg).final h₀.reset before) during) :
    ((computing cfg).history (fun t i => [waitsForBus t i]) ((computing cfg).final h₀.reset before) during).count false ≤ 17 ∧
      (Computes cfg ((computing cfg).final h₀.reset before) during →
        Performed ((computing cfg).final h₀.reset before).core
          ((computing cfg).final ((computing cfg).final h₀.reset before) during).core
          ((computing cfg).history events ((computing cfg).final h₀.reset before) during)) := by
  have matched := matchedRun cfg h₀ before
  generalize (computing cfg).final h₀.reset before = h at state latched amo busy matched ⊢
  simp only [Decoder.isReadModifyWrite,Bool.and_eq_true,beq_iff_eq,Option.isSome_iff_exists] at amo
  obtain ⟨op,known⟩ := amo.2
  have first := performsFirst matched op state latched
  constructor
  · have step (t : Computing) (i : Inputs) (inv : ∃ log, Performs cfg h.core op log t)
        (busy : t.core.currentState.busy = true) : (∃ log, Performs cfg h.core op log (t.next cfg i)) ∧
          rank (t.next cfg i) ≤ rank t ∧ (waitsForBus t i = false → rank (t.next cfg i) < rank t) := by
      obtain ⟨log,performs⟩ := inv
      have advances := performsOn amo.1 known performs busy i
      exact ⟨⟨_,advances.1⟩,advances.2⟩
    have bounded := boundedWork (m := computing cfg) step ⟨[],first⟩ busy
    have most := rankPlain state (by decide)
    simp only [plainRank] at most
    omega
  · intro computes
    have step (log : List Event) (t : Computing) (i : Inputs) (performs : Performs cfg h.core op log t)
        (busy : t.core.currentState.busy = true) : Performs cfg h.core op (log ++ events t i) (t.next cfg i) :=
      (performsOn amo.1 known performs busy i).1
    have ended := historyInvariant (m := computing cfg) step first busy
    exact ended.performed computes.2

instance : Inhabited Alu.Regs := ⟨⟨false,0,0,0,false,false,false,false,false,false,false,false,false,false,false,0,0,.idle,
  false,false,.mul,0,false,MulUnit.reset,DivUnit.reset⟩⟩

def Computing.drive (cfg : Config) (code : Code) : Nat → Computing → List Inputs
  | 0, _ => []
  | n + 1, h => respond code h.core :: Computing.drive cfg code n (h.next cfg (respond code h.core))

def computingBased : Computing := Computing.reset ⟨{ (default : Regs) with bankA := ⟨fun _ => 0x2000,0,0⟩ },default⟩

/- `amoadd.w`. -/
theorem wordModified :
    let h := (computing ⟨true,true⟩).final computingBased
      (Computing.drive ⟨true,true⟩ (program [0x0020A1AF]) 4 computingBased)
    let during := Computing.drive ⟨true,true⟩ (program [0x0020A1AF]) 12 h
    ((computing ⟨true,true⟩).history (fun t i => [waitsForBus t i]) h during).count false ≤ 17 ∧
      (Computes ⟨true,true⟩ h during → Performed h.core ((computing ⟨true,true⟩).final h during).core
        ((computing ⟨true,true⟩).history events h during)) :=
  atomicPerformed ⟨true,true⟩ ⟨{ (default : Regs) with bankA := ⟨fun _ => 0x2000,0,0⟩ },default⟩ _ _ (by decide +kernel)
    (by decide +kernel) (by decide +kernel) (by decide +kernel)

/- `amoadd` with `funct3 = 000`: what is read and written is a byte. -/
theorem byteModified :
    let h := (computing ⟨true,true⟩).final computingBased
      (Computing.drive ⟨true,true⟩ (program [0x002081AF]) 4 computingBased)
    let during := Computing.drive ⟨true,true⟩ (program [0x002081AF]) 12 h
    h.core.currentState = .decode ∧ h.core.isInstructionValidReg = true ∧ Decoder.isReadModifyWrite h.core.irReg = true ∧
      Computes ⟨true,true⟩ h during ∧ (computing ⟨true,true⟩).history events h during =
        [.asked ⟨0x2000,0,false,0b00,true⟩,.answered 0x002081AF,.asked ⟨0x2000,0xFFFFFFAF,true,0b00,true⟩,
          .answered 0x002081AF] :=
  ⟨by decide +kernel,by decide +kernel,by decide +kernel,by decide +kernel,by decide +kernel⟩

end RiscvSoc.Core
