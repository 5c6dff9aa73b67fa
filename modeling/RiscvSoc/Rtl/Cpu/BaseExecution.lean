import RiscvSoc.Isa.BaseDecoding
import RiscvSoc.Rtl.Cpu.AluOperations
import RiscvSoc.Rtl.Cpu.AtomicOperations

/-! The integer instructions in the CPU with its ALU. Whatever the bus makes it wait, an instruction that
the assembler encoded leaves the registers and the program counter that the ISA gives, and asks the bus for
the load or the store that it is and for nothing else. -/
namespace RiscvSoc.Isa
open Instruction (Word)

theorem shamtLow (b : Word) : (b.extractLsb' 0 5).toNat = b.toNat % 32 := by
  rw [BitVec.extractLsb'_toNat]
  rfl

theorem lowerProduct (p : Int) : MulUnit.lower (BitVec.ofInt (32 + 32) p) = BitVec.ofInt 32 p := by
  apply BitVec.eq_of_toNat_eq
  rw [MulUnit.lower,BitVec.extractLsb'_toNat,BitVec.toNat_ofInt,BitVec.toNat_ofInt,Nat.shiftRight_zero]
  omega

theorem upperProduct (p : Int) : DivUnit.upper (BitVec.ofInt (32 + 32) p) = BitVec.ofInt 32 (p / 2 ^ 32) := by
  apply BitVec.eq_of_toNat_eq
  rw [DivUnit.upper,BitVec.extractLsb'_toNat,BitVec.toNat_ofInt,BitVec.toNat_ofInt,Nat.shiftRight_eq_div_pow]
  omega

theorem Operation.answered (op : Operation) (a b : Word) : Alu.answer op.aluOp a b = op.result a b := by
  cases op with
  | mul =>
    have same : BitVec.ofInt 32 (a.toInt * b.toInt) = a * b := by
      rw [BitVec.ofInt_mul,BitVec.ofInt_toInt,BitVec.ofInt_toInt]
    exact (lowerProduct _).trans same
  | mulh => exact upperProduct (a.toInt * b.toInt)
  | mulhsu => exact upperProduct (a.toInt * b.toNat)
  | mulhu =>
    have high := upperProduct (a.toNat * b.toNat)
    rw [← Int.natCast_mul] at high
    exact high.trans (BitVec.ofInt_natCast ..)
  | sll =>
    show a <<< (b.extractLsb' 0 5).toNat = a <<< (b.toNat % 32)
    rw [shamtLow]
  | srl =>
    show a >>> (b.extractLsb' 0 5).toNat = a >>> (b.toNat % 32)
    rw [shamtLow]
  | sra =>
    show a.sshiftRight (b.extractLsb' 0 5).toNat = a.sshiftRight (b.toNat % 32)
    rw [shamtLow]
  | _ => rfl

theorem ShiftOp.low (op : ShiftOp) (a : Word) {b : Word} {shamt : BitVec 5} (low : b.extractLsb' 0 5 = shamt) :
    op.operation.result a b = op.operation.result a (shamt.setWidth 32) := by
  have same : b.toNat % 32 = (shamt.setWidth 32).toNat % 32 := by
    have inside := shamt.isLt
    rw [← shamtLow,low,BitVec.toNat_setWidth]
    omega
  cases op <;> simp only [operation,Operation.result,same]

theorem Load.size (kind : Load) : kind.funct3.extractLsb' 0 2 = kind.width.size := by cases kind <;> decide

end RiscvSoc.Isa

namespace RiscvSoc.Core
open Mealy Machine
open Isa (Instr Hart)

def hart (s : Regs) (pc : BitVec 32) : Hart := ⟨operand s.bankA,pc,if_pos rfl⟩

def outcome (s : Regs) (instr : Instr) : Isa.Outcome := instr.execute (hart s s.instrPcReg) (s.instrPcReg + s.pcIncrement)

/- What the bus sees of an outcome, and the hart that it leaves. What stands on the data lines of a read is of no account. -/
inductive Shows : Isa.Outcome → List Event → Hart → Prop where
  | done {after : Hart} : Shows (.done after) [] after
  | load {addr : BitVec 32} {width : Isa.Width} {after : BitVec 32 → Hart} (wdata data : BitVec 32) :
      Shows (.load addr width after) [.asked ⟨addr,wdata,false,width.size,true⟩,.answered data] (after data)
  | store {addr data : BitVec 32} {width : Isa.Width} {after : Hart} (last : BitVec 32) :
      Shows (.store addr width data after) [.asked ⟨addr,data,true,width.size,true⟩,.answered last] after

structure Equipped (cfg : Config) (h : Computing) : Prop extends Matched cfg h where
  free : Alu.Free cfg.enableM h.alu
  banks : h.core.bankA.mem = h.core.bankB.mem

structure InProgress (cfg : Config) (s : Regs) (h : Computing) : Prop extends Progressing cfg s h, Equipped cfg h

def aluRequest (cfg : Config) (s : Regs) : Alu.Inputs :=
  let d := Decoder.decode cfg.enableM cfg.enableF s.irReg
  { a := if d.isAuipc then s.instrPcReg else operand s.bankA d.rs1
    b := if d.isAuipc then d.immU
      else if d.aluSrc then if d.memWrite || d.isFpStore then d.immS else d.immI
      else operand s.bankB d.rs2
    aluOp := d.aluOp
    inValid := true }

def aluAnswer (cfg : Config) (s : Regs) : BitVec 32 :=
  Alu.answer (aluRequest cfg s).aluOp (aluRequest cfg s).a (aluRequest cfg s).b

variable {cfg : Config} {s : Regs} {h : Computing} {i : Inputs} {instr : Instr}

theorem banksNextSame (cfg : Config) (s : Regs) (i : Inputs) (same : s.bankA.mem = s.bankB.mem) :
    (s.next cfg i).bankA.mem = (s.next cfg i).bankB.mem := by
  rw [(banksNext cfg s i).1,(banksNext cfg s i).2]
  simp only [Regs.bankStep,SyncDpram.writeEdge,SyncDpram.readEdge,same]

theorem equippedNext (e : Equipped cfg h) (i : Inputs) : Equipped cfg (h.next cfg i) :=
  ⟨matchedNext e.toMatched i,Alu.freeNext e.free h.core.aluInputs,banksNextSame cfg h.core (h.given i) e.banks⟩

theorem equippedReset (h : Computing) (banks : h.core.bankA.mem = h.core.bankB.mem) : Equipped cfg h.reset :=
  ⟨resetMatched h,Alu.freeReset h.alu,banks⟩

theorem InProgress.keeps (p : InProgress cfg s h) (quiet : h.core.currentState.quiet = true)
    (others : h.core.currentState ≠ .decode ∧ h.core.currentState ≠ .regReadWait) (i : Inputs) :
    InProgress cfg s (h.next cfg i) :=
  ⟨p.toProgressing.keeps quiet others i,(equippedNext p.toEquipped i).free,(equippedNext p.toEquipped i).banks⟩

def decodes (instr : Instr) : Decoder.Regs :=
  {instr.control with
    opcode := instr.opcode
    rd := Decoder.rd instr.encode
    rs1 := Decoder.rs1 instr.encode
    rs2 := Decoder.rs2 instr.encode
    funct3 := Decoder.funct3 instr.encode
    funct5 := Decoder.funct5 instr.encode
    immI := Decoder.immI instr.encode
    immS := Decoder.immS instr.encode
    immB := Decoder.immB instr.encode
    immU := Decoder.immU instr.encode
    immJ := Decoder.immJ instr.encode}

structure Latched (cfg : Config) (s : Regs) (instr : Instr) : Prop where
  word : s.irReg = instr.encode
  there : instr.multiplies = true → cfg.enableM = true

theorem Latched.decoded (l : Latched cfg s instr) : Decoder.decode cfg.enableM cfg.enableF s.irReg = decodes instr := by
  obtain ⟨opcode,control,_⟩ := Isa.decoded instr cfg.enableM cfg.enableF l.there
  rw [l.word,Decoder.decode,opcode,control]
  rfl

theorem Latched.fields (l : Latched cfg s instr) : instr.Fields instr.encode :=
  (Isa.decoded instr cfg.enableM cfg.enableF l.there).2.2

theorem Latched.proceeds (l : Latched cfg s instr) : Proceeds (Decoder.control s.irReg cfg.enableM cfg.enableF) := by
  rw [l.word,(Isa.decoded instr cfg.enableM cfg.enableF l.there).2.1]
  cases instr <;> exact ⟨rfl,rfl,rfl,rfl⟩

theorem InProgress.known (p : InProgress cfg s h) (l : Latched cfg s instr) : h.core.dec = decodes instr :=
  p.dec.trans l.decoded

def computes : Instr → Bool
  | .register .. | .immediate .. | .shift .. | .lui .. | .auipc .. | .jal .. | .jalr .. => true
  | _ => false

theorem InProgress.values (p : InProgress cfg s h) (l : Latched cfg s instr) (going : h.core.currentState.going = true) :
    h.core.aReg = operand s.bankA (Decoder.rs1 instr.encode) ∧ h.core.bReg = operand s.bankA (Decoder.rs2 instr.encode) := by
  obtain ⟨a,b⟩ := p.sources going
  rw [l.word] at a b
  have same : s.bankB.mem = s.bankA.mem := p.bankB.symm.trans (p.banks.symm.trans p.bankA)
  exact ⟨a,b.trans (operandSame same _)⟩

def goesOn (s : Regs) : Instr → BitVec 32
  | .jal _ offset => Isa.target (s.instrPcReg + Isa.halves offset)
  | .jalr _ rs1 imm => Isa.target (operand s.bankA rs1 + Isa.signed imm)
  | .branch c rs1 rs2 offset =>
    if c.holds (operand s.bankA rs1) (operand s.bankA rs2) then Isa.target (s.instrPcReg + Isa.halves offset)
    else s.instrPcReg + s.pcIncrement
  | _ => s.instrPcReg + s.pcIncrement

theorem comparisonIs {c : Isa.Comparison} {rs1 rs2 : BitVec 5} {offset : BitVec 12} {t : Regs}
    (l : Latched cfg s (.branch c rs1 rs2 offset)) (dec : t.dec = decodes (.branch c rs1 rs2 offset)) :
    t.takeBranchNext = c.holds t.aReg t.bReg := by
  obtain ⟨_,_,f3,_⟩ := l.fields
  have same : t.dec.branch = true ∧ t.dec.funct3 = c.funct3 := by
    rw [dec]
    exact ⟨rfl,f3⟩
  rw [Regs.takeBranchNext,same.1,same.2]
  cases c <;> rfl

theorem successorIs (l : Latched cfg s instr) {t : Regs} (dec : t.dec = decodes instr) (kept : Kept s t)
    (a : t.aReg = operand s.bankA (Decoder.rs1 instr.encode)) (b : t.bReg = operand s.bankA (Decoder.rs2 instr.encode)) :
    t.successor = goesOn s instr := by
  have fields := l.fields
  cases instr with
  | branch c rs1 rs2 offset =>
    obtain ⟨hrs1,hrs2,_,imm⟩ := fields
    rw [Regs.successor,comparisonIs l dec,Regs.target,dec,kept.instrPc,kept.increment,a,b,hrs1,hrs2]
    simp only [decodes,imm]
    rfl
  | jal rd offset =>
    obtain ⟨_,imm⟩ := fields
    rw [Regs.successor,Regs.target,dec,kept.instrPc]
    simp only [decodes,imm]
    rfl
  | jalr rd rs1 imm =>
    obtain ⟨_,hrs1,himm⟩ := fields
    rw [Regs.successor,Regs.target,dec,a,hrs1]
    simp only [decodes,himm]
    rfl
  | _ =>
    rw [Regs.successor,dec,kept.instrPc,kept.increment]
    rfl

/- The instruction that `s` begins to decode, with its operands in the registers of the CPU. -/
structure Supplies (cfg : Config) (s : Regs) (instr : Instr) (t : Regs) : Prop extends Kept s t where
  dec : t.dec = decodes instr
  a : t.aReg = operand s.bankA (Decoder.rs1 instr.encode)
  b : t.bReg = operand s.bankA (Decoder.rs2 instr.encode)
  following : t.instrPcNextReg = s.instrPcReg + s.pcIncrement
  same : s.bankB.mem = s.bankA.mem

theorem InProgress.supplies (p : InProgress cfg s h) (l : Latched cfg s instr) (going : h.core.currentState.going = true) :
    Supplies cfg s instr h.core := by
  obtain ⟨a,b⟩ := p.values l going
  have following := p.following (by revert going; cases h.core.currentState <;> decide)
  rw [p.instrPc,p.increment] at following
  exact ⟨p.toKept,p.known l,a,b,following,p.bankB.symm.trans (p.banks.symm.trans p.bankA)⟩

theorem answeredAs (l : Latched cfg s instr) {op : BitVec 5} {a b : BitVec 32} (aluOp : (decodes instr).aluOp = op)
    (first : (if (decodes instr).isAuipc then s.instrPcReg else operand s.bankA (decodes instr).rs1) = a)
    (second : (if (decodes instr).isAuipc then (decodes instr).immU
      else if (decodes instr).aluSrc then
        if (decodes instr).memWrite || (decodes instr).isFpStore then (decodes instr).immS else (decodes instr).immI
      else operand s.bankB (decodes instr).rs2) = b) : aluAnswer cfg s = Alu.answer op a b := by
  rw [aluAnswer,aluRequest,l.decoded,← aluOp,← first,← second]

theorem rdAlu {t : Regs} (dec : t.dec = decodes instr) (plain : instr.control.jump = false ∧ instr.control.memToReg = false)
    (through : computes instr = true) (other : instr.opcode ≠ Decoder.opLui) : t.rdData = t.aluOutReg := by
  rw [Regs.rdData,dec]
  cases instr with
  | register | immediate | shift | auipc => rfl
  | lui => exact absurd rfl other
  | jal | jalr => exact absurd plain.1 Bool.true_eq_false.mp
  | branch | load | store | fence => contradiction

theorem computedValue (l : Latched cfg s instr) {t : Regs} (supplies : Supplies cfg s instr t) (through : computes instr = true)
    (alu : t.aluOutReg = aluAnswer cfg s) :
    outcome s instr = .done (((hart s s.instrPcReg).write t.dec.rd t.rdData).goto (goesOn s instr)) := by
  have fields := l.fields
  have dec := supplies.dec
  have written {value : BitVec 32} {rd : BitVec 5} (hrd : Decoder.rd instr.encode = rd) (same : t.rdData = value) :
      Isa.Outcome.done (((hart s s.instrPcReg).write rd value).goto (goesOn s instr)) =
        .done (((hart s s.instrPcReg).write t.dec.rd t.rdData).goto (goesOn s instr)) := by
    rw [dec,← hrd,← same]
    rfl
  cases instr with
  | register op rd rs1 rs2 =>
    obtain ⟨hrd,hrs1,hrs2⟩ := fields
    have answer : aluAnswer cfg s = Alu.answer op.aluOp (operand s.bankA rs1) (operand s.bankA rs2) :=
      answeredAs l rfl (congrArg (operand s.bankA) hrs1)
        ((operandSame supplies.same _).trans (congrArg (operand s.bankA) hrs2))
    exact written hrd ((rdAlu dec ⟨rfl,rfl⟩ rfl (show Decoder.opReg ≠ Decoder.opLui by decide)).trans (alu.trans (answer.trans (op.answered _ _))))
  | immediate op rd rs1 imm =>
    obtain ⟨hrd,hrs1,himm⟩ := fields
    have answer : aluAnswer cfg s = Alu.answer op.operation.aluOp (operand s.bankA rs1) (Isa.signed imm) :=
      answeredAs l rfl (congrArg (operand s.bankA) hrs1) himm
    exact written hrd ((rdAlu dec ⟨rfl,rfl⟩ rfl (show Decoder.opImm ≠ Decoder.opLui by decide)).trans (alu.trans (answer.trans (op.operation.answered _ _))))
  | shift op rd rs1 shamt =>
    obtain ⟨hrd,hrs1,low⟩ := fields
    have answer : aluAnswer cfg s = Alu.answer op.operation.aluOp (operand s.bankA rs1)
        (Decoder.immI (Instr.shift op rd rs1 shamt).encode) := answeredAs l rfl (congrArg (operand s.bankA) hrs1) rfl
    exact written hrd ((rdAlu dec ⟨rfl,rfl⟩ rfl (show Decoder.opImm ≠ Decoder.opLui by decide)).trans
      (alu.trans (answer.trans ((op.operation.answered _ _).trans (op.low _ low)))))
  | lui rd imm =>
    obtain ⟨hrd,himm⟩ := fields
    refine written hrd ?_
    rw [Regs.rdData,dec]
    exact himm
  | auipc rd imm =>
    obtain ⟨hrd,himm⟩ := fields
    have answer : aluAnswer cfg s = Alu.answer Decoder.aluAdd s.instrPcReg (Isa.upper imm) := answeredAs l rfl rfl himm
    exact written hrd ((rdAlu dec ⟨rfl,rfl⟩ rfl (show Decoder.opAuipc ≠ Decoder.opLui by decide)).trans (alu.trans answer))
  | jal rd _ | jalr rd _ _ =>
    refine written fields.1 ?_
    rw [← supplies.following,Regs.rdData,dec]
    rfl
  | branch | load | store | fence => contradiction

def loadAccess (s : Regs) (kind : Isa.Load) (rs1 : BitVec 5) (imm : BitVec 12) : Access :=
  ⟨operand s.bankA rs1 + Isa.signed imm,operand s.bankA (Decoder.rs2 s.irReg),false,kind.width.size,true⟩
def storeAccess (s : Regs) (width : Isa.Width) (rs1 rs2 : BitVec 5) (imm : BitVec 12) : Access :=
  ⟨operand s.bankA rs1 + Isa.signed imm,operand s.bankA rs2,true,width.size,true⟩

def dispatchOf : Instr → State
  | .load .. | .store .. => .memAddr
  | .fence => .fetch
  | _ => .execute

inductive Runs (cfg : Config) (s : Regs) (instr : Instr) : List Event → Computing → Prop where
  | prepares {h : Computing} {state : State} (equipped : Equipped cfg h) (prepared : Prepared cfg s h.core state)
      (early : state.prepares = true) : Runs cfg s instr [] h
  | launches {h : Computing} (p : InProgress cfg s h) (state : h.core.currentState = .execute)
      (through : computes instr = true) (unsent : h.core.aluReqSent = false) : Runs cfg s instr [] h
  | works {h : Computing} (p : InProgress cfg s h) (state : h.core.currentState = .execute)
      (through : computes instr = true) (sent : h.core.aluReqSent = true)
      (working : Alu.Working cfg.enableM (aluRequest cfg s).aluOp (aluRequest cfg s).a (aluRequest cfg s).b h.alu) :
      Runs cfg s instr [] h
  | answers {h : Computing} (p : InProgress cfg s h) (state : h.core.currentState = .execute)
      (through : computes instr = true) (sent : h.core.aluReqSent = true) (holds : Alu.Holds (aluAnswer cfg s) h.alu) :
      Runs cfg s instr [] h
  | compares {h : Computing} (p : InProgress cfg s h) (state : h.core.currentState = .execute)
      {c : Isa.Comparison} {rs1 rs2 : BitVec 5} {offset : BitVec 12} (branch : instr = .branch c rs1 rs2 offset) :
      Runs cfg s instr [] h
  | branches {h : Computing} (p : InProgress cfg s h) (state : h.core.currentState = .branch)
      {c : Isa.Comparison} {rs1 rs2 : BitVec 5} {offset : BitVec 12} (branch : instr = .branch c rs1 rs2 offset) :
      Runs cfg s instr [] h
  | addresses {h : Computing} (p : InProgress cfg s h) (idle : h.core.memReqInflight = false)
      (state : h.core.currentState = .memAddr) (accesses : dispatchOf instr = .memAddr) : Runs cfg s instr [] h
  | reads {h : Computing} (p : InProgress cfg s h) (state : h.core.currentState = .memRead)
      {kind : Isa.Load} {rd rs1 : BitVec 5} {imm : BitVec 12} (load : instr = .load kind rd rs1 imm)
      (address : h.core.aluOutReg = operand s.bankA rs1 + Isa.signed imm) :
      Runs cfg s instr (if h.core.memReqInflight then [.asked (loadAccess s kind rs1 imm)] else []) h
  | writes {h : Computing} (p : InProgress cfg s h) (state : h.core.currentState = .memWrite)
      {width : Isa.Width} {rs1 rs2 : BitVec 5} {imm : BitVec 12} (store : instr = .store width rs1 rs2 imm)
      (address : h.core.aluOutReg = operand s.bankA rs1 + Isa.signed imm) :
      Runs cfg s instr (if h.core.memReqInflight then [.asked (storeAccess s width rs1 rs2 imm)] else []) h
  | writesBack {h : Computing} {log : List Event} {after : Hart} (p : InProgress cfg s h)
      (state : h.core.currentState = .writeback) (shown : Shows (outcome s instr) log after)
      (value : after = ((hart s s.instrPcReg).write h.core.dec.rd h.core.rdData).goto (goesOn s instr))
      (written : h.core.dec.regWrite = true) : Runs cfg s instr log h
  | ended {h : Computing} {log : List Event} {after : Hart} (state : h.core.currentState = .fetch)
      (shown : Shows (outcome s instr) log after) (left : hart h.core h.core.pc = after)
      (csr : h.core.csr.uncounted = s.csr.uncounted) : Runs cfg s instr log h

def effort (h : Computing) : Nat := match h.core.currentState with
  | .decode => 41
  | .decodeWait => 40
  | .regRead => 39
  | .regReadWait => 38
  | .execute => if !h.core.aluReqSent then 37 else if h.alu.pendingOperationReg then 2 + Alu.left h.alu else 2
  | .memAddr => 4
  | .memRead | .memWrite => if h.core.memReqInflight then 2 else 3
  | .branch | .writeback => 1
  | _ => 0

def Carries (cfg : Config) (s : Regs) (instr : Instr) (log : List Event) (h : Computing) (i : Inputs) : Prop :=
  Runs cfg s instr (log ++ events h i) (h.next cfg i) ∧ effort (h.next cfg i) ≤ effort h ∧
    (waitsForBus h i = false → effort (h.next cfg i) < effort h)

theorem carriesQuietly {log : List Event} (free : h.core.memReqInflight = false) (other : h.core.currentState ≠ .fetch)
    (asks : h.core.dmemReq (h.given i) = false) (runs : Runs cfg s instr log (h.next cfg i))
    (fewer : effort (h.next cfg i) < effort h) : Carries cfg s instr log h i := by
  obtain ⟨absent,_,_⟩ := quietBus cfg (i := i) free other asks
  rw [Carries,absent,List.append_nil]
  exact ⟨runs,Nat.le_of_lt fewer,fun _ => fewer⟩

theorem dispatchIs {t : Regs} (dec : t.dec = decodes instr) : t.dispatch = dispatchOf instr := by
  rw [Regs.dispatch,dec]
  cases instr <;> rfl

theorem endsUnwritten {log : List Event} {after : Hart} (l : Latched cfg s instr) (p : InProgress cfg s h)
    (going : h.core.currentState.going = true) (quiet : h.core.currentState.quiet = true)
    (ends : h.core.nextState (h.given i) = .fetch) (completes : h.core.instrCompleteInternal (h.given i) = true)
    (shown : Shows (outcome s instr) log after) (same : after = (hart s s.instrPcReg).goto (goesOn s instr)) :
    Runs cfg s instr log (h.next cfg i) := by
  have others : h.core.currentState ≠ .decode ∧ h.core.currentState ≠ .regReadWait := by
    revert going
    cases h.core.currentState <;> decide
  have next := p.keeps quiet others i
  have supplies := p.supplies l going
  have pc : (h.next cfg i).core.pc = goesOn s instr :=
    (completed p.toSequenced completes).trans (successorIs l supplies.dec p.toKept supplies.a supplies.b)
  refine .ended ends shown ?_ next.csr
  rw [same,pc]
  exact Hart.ext (funext fun r => operandSame next.bankA r) rfl

def plainEffort : State → Option Nat
  | .decode => some 41
  | .decodeWait => some 40
  | .regRead => some 39
  | .regReadWait => some 38
  | .memAddr => some 4
  | .branch | .writeback => some 1
  | .execute | .memRead | .memWrite => none
  | _ => some 0

theorem effortPlain {state : State} {n : Nat} (place : h.core.currentState = state) (plain : plainEffort state = some n) :
    effort h = n := by
  rw [effort,place]
  cases state <;> first | exact Option.some.inj plain | contradiction

theorem effortExecute (state : h.core.currentState = .execute) : effort h =
    if !h.core.aluReqSent then 37 else if h.alu.pendingOperationReg then 2 + Alu.left h.alu else 2 := by
  rw [effort,state]

theorem effortAccess (state : h.core.currentState = .memRead ∨ h.core.currentState = .memWrite) :
    effort h = if h.core.memReqInflight then 2 else 3 := by
  rcases state with state | state <;> rw [effort,state]

section Steps
variable (l : Latched cfg s instr)

include l in
theorem dispatchesTo (e : Equipped cfg h) (p : Prepared cfg s h.core .regReadWait) (i : Inputs) :
    Runs cfg s instr [] (h.next cfg i) ∧ effort (h.next cfg i) < 38 := by
  have d : Dispatched cfg s (h.next cfg i).core := p.dispatches l.proceeds (h.given i)
  have e' := equippedNext e i
  have progress : InProgress cfg s (h.next cfg i) := ⟨⟨e'.toMatched,d.toKept,d.dec⟩,e'.free,e'.banks⟩
  have state : (h.next cfg i).core.currentState = dispatchOf instr := d.state.trans (dispatchIs (progress.known l))
  have executing (state : (h.next cfg i).core.currentState = .execute) : effort (h.next cfg i) < 38 := by
    rw [effortExecute state,d.unsent.1]
    exact Nat.lt_succ_self 37
  have addressing (state : (h.next cfg i).core.currentState = .memAddr) : effort (h.next cfg i) < 38 := by
    rw [effortPlain state rfl]
    decide
  cases instr with
  | register | immediate | shift | lui | auipc | jal | jalr =>
    exact ⟨.launches progress state rfl d.unsent.1,executing state⟩
  | branch => exact ⟨.compares progress state rfl,executing state⟩
  | load | store => exact ⟨.addresses progress d.idle state rfl,addressing state⟩
  | fence =>
    have dec : h.core.dec = decodes .fence := (p.dec rfl).trans l.decoded
    have early : h.core.completesEarly = true := by
      rw [Regs.completesEarly,(p.goes l.proceeds).1,dec]
      rfl
    have pc : (h.next cfg i).core.pc = s.instrPcReg + s.pcIncrement := by
      have done := completed (i := h.given i) p.toSequenced (by rw [Regs.instrCompleteInternal,p.state]; exact early)
      rw [Regs.successor,dec,p.instrPc,p.increment] at done
      exact done
    refine ⟨.ended state .done ?_ d.csr,by rw [effortPlain state rfl]; decide⟩
    rw [pc]
    exact Hart.ext (funext fun r => operandSame d.bankA r) rfl

include l in
theorem preparesStep {state : State} (e : Equipped cfg h) (p : Prepared cfg s h.core state) (early : state.prepares = true)
    (i : Inputs) : Carries cfg s instr [] h i := by
  have others : h.core.currentState ≠ .fetch ∧ h.core.currentState ≠ .memRead ∧ h.core.currentState ≠ .memWrite ∧
      h.core.currentState ≠ .atomicRmw ∧ h.core.currentState ≠ .halt := by
    rw [p.state]
    revert early
    cases state <;> simp [State.prepares]
  have asks : h.core.dmemReq (h.given i) = false := by
    rw [Regs.dmemReq,p.state]
    revert early
    cases state <;> simp [State.prepares]
  have e' := equippedNext e i
  have next {after : State} (q : Prepared cfg s (h.next cfg i).core after) (early' : after.prepares = true)
      (fewer : effort (h.next cfg i) < effort h) : Carries cfg s instr [] h i :=
    carriesQuietly (freeUnless e.toReached others) others.1 asks (.prepares e' q early') fewer
  cases state with
  | decode =>
    have q : Prepared cfg s (h.next cfg i).core .decodeWait := p.decodes (h.given i)
    exact next q rfl (by rw [effortPlain p.state rfl,effortPlain q.state rfl]; decide)
  | decodeWait =>
    have q : Prepared cfg s (h.next cfg i).core .regRead := p.waits l.proceeds (h.given i)
    exact next q rfl (by rw [effortPlain p.state rfl,effortPlain q.state rfl]; decide)
  | regRead =>
    have q : Prepared cfg s (h.next cfg i).core .regReadWait := p.reads (h.given i)
    exact next q rfl (by rw [effortPlain p.state rfl,effortPlain q.state rfl]; decide)
  | regReadWait =>
    obtain ⟨runs,fewer⟩ := dispatchesTo l e p i
    exact carriesQuietly (freeUnless e.toReached others) others.1 asks runs (by rw [effortPlain p.state rfl]; exact fewer)
  | _ => contradiction

theorem executeIdle (p : InProgress cfg s h) (state : h.core.currentState = .execute) :
    h.core.memReqInflight = false ∧ h.core.dmemReq (h.given i) = false :=
  ⟨freeUnless p.toReached (by simp [state]),by simp [Regs.dmemReq,state]⟩

include l in
theorem requestAnswers (through : computes instr = true) : Alu.Answers cfg.enableM (aluRequest cfg s).aluOp := by
  rw [aluRequest,l.decoded]
  have there := l.there
  cases instr with
  | register op =>
    cases op with
    | mul | mulh | mulhsu | mulhu => exact .inr ⟨rfl,there rfl⟩
    | _ => exact .inl rfl
  | immediate op => cases op <;> exact .inl rfl
  | shift op => cases op <;> exact .inl rfl
  | lui | auipc | jal | jalr => exact .inl rfl
  | branch | load | store | fence => contradiction

include l in
theorem throughAlu (p : InProgress cfg s h) (through : computes instr = true) :
    h.core.dec.branch = false ∧ h.core.fpResult = false := by
  rw [Regs.fpResult,p.known l]
  cases instr with
  | branch | load | store | fence => contradiction
  | _ => exact ⟨rfl,rfl⟩

theorem aluInputsAre (p : InProgress cfg s h) (state : h.core.currentState = .execute) :
    h.core.aluInputs.a = (aluRequest cfg s).a ∧ h.core.aluInputs.b = (aluRequest cfg s).b ∧
      h.core.aluInputs.aluOp = (aluRequest cfg s).aluOp := by
  obtain ⟨a,b⟩ := p.sources (by rw [state]; rfl)
  rcases Bool.eq_false_or_eq_true (Decoder.decode cfg.enableM cfg.enableF s.irReg).isAuipc with auipc | plain
  · simp [Regs.aluInputs,aluRequest,state,p.dec,p.instrPc,auipc]
  · simp [Regs.aluInputs,aluRequest,state,p.dec,plain,a,b]
    simp [Decoder.decode]

include l in
theorem launchesStep (p : InProgress cfg s h) (state : h.core.currentState = .execute) (through : computes instr = true)
    (unsent : h.core.aluReqSent = false) (i : Inputs) : Carries cfg s instr [] h i := by
  obtain ⟨idle,asks⟩ := executeIdle (i := i) p state
  obtain ⟨branch,plain⟩ := throughAlu l p through
  have free : h.alu.pendingOperationReg = false := by
    rcases Bool.eq_false_or_eq_true h.alu.pendingOperationReg with pending | free
    · rcases (p.pending pending).2 with ⟨_,sent,_⟩ | ⟨other,_⟩
      · exact absurd (unsent.symm.trans sent) Bool.false_ne_true
      · exact absurd (state.symm.trans other) (by decide)
    · exact free
  have valid : h.core.aluInValid = true := by simp [Regs.aluInValid,state,branch,plain,unsent]
  obtain ⟨a,b,op⟩ := aluInputsAre p state
  have working : Alu.Working cfg.enableM (aluRequest cfg s).aluOp (aluRequest cfg s).a (aluRequest cfg s).b
      (h.next cfg i).alu := by
    have launched := Alu.launched (x := h.alu) (i := h.core.aluInputs) (op ▸ requestAnswers l through) p.free free valid
    rw [a,b,op] at launched
    exact launched
  have next := p.keeps (by rw [state]; rfl) (by simp [state]) i
  have stays : (h.next cfg i).core.currentState = .execute := by
    simp [Computing.next,Regs.nextState,state,branch,plain,unsent]
  have sent : (h.next cfg i).core.aluReqSent = true := by
    simp [Computing.next,Computing.given,Regs.next,Alu.Regs.inReady,state,valid,free]
  refine carriesQuietly idle (by simp [state]) asks (.works next stays through sent working) ?_
  have most := Alu.leftMost (h.next cfg i).alu
  rw [effortExecute state,effortExecute stays,unsent,sent,working.pending]
  simp only [Bool.not_true,Bool.not_false,Bool.false_eq_true,if_true,if_false]
  omega

include l in
theorem worksStep (p : InProgress cfg s h) (state : h.core.currentState = .execute) (through : computes instr = true)
    (sent : h.core.aluReqSent = true)
    (working : Alu.Working cfg.enableM (aluRequest cfg s).aluOp (aluRequest cfg s).a (aluRequest cfg s).b h.alu)
    (i : Inputs) : Carries cfg s instr [] h i := by
  obtain ⟨idle,asks⟩ := executeIdle (i := i) p state
  obtain ⟨branch,plain⟩ := throughAlu l p through
  have next := p.keeps (by rw [state]; rfl) (by simp [state]) i
  have waits : (h.given i).aluOutValid = false := working.invalid
  have stays : (h.next cfg i).core.currentState = .execute := by
    simp [Computing.next,Regs.nextState,state,branch,plain,waits]
  have sent' : (h.next cfg i).core.aluReqSent = true := by simp [Computing.next,Regs.next,state,sent]
  have present := Alu.leftWorking working
  have here := effortExecute state
  have there := effortExecute stays
  rw [sent,working.pending] at here
  rw [sent'] at there
  simp only [Bool.not_true,Bool.false_eq_true,if_true,if_false] at here there
  rcases Alu.workingOn h.core.aluInputs working with ⟨working',fewer⟩ | holds
  · have pending : (h.next cfg i).alu.pendingOperationReg = true := working'.pending
    have fewer' : Alu.left (h.next cfg i).alu < Alu.left h.alu := fewer
    rw [pending,if_pos rfl] at there
    exact carriesQuietly idle (by simp [state]) asks (.works next stays through sent' working') (by omega)
  · have done : (h.next cfg i).alu.pendingOperationReg = false := holds.idle
    rw [done,if_neg Bool.false_ne_true] at there
    exact carriesQuietly idle (by simp [state]) asks (.answers next stays through sent' holds) (by omega)

include l in
theorem answersStep (p : InProgress cfg s h) (state : h.core.currentState = .execute) (through : computes instr = true)
    (sent : h.core.aluReqSent = true) (holds : Alu.Holds (aluAnswer cfg s) h.alu) (i : Inputs) :
    Carries cfg s instr [] h i := by
  obtain ⟨idle,asks⟩ := executeIdle (i := i) p state
  obtain ⟨branch,plain⟩ := throughAlu l p through
  have next := p.keeps (by rw [state]; rfl) (by simp [state]) i
  have valid : (h.given i).aluOutValid = true := holds.valid
  have writes : (h.next cfg i).core.currentState = .writeback := by
    simp [Computing.next,Regs.nextState,state,branch,plain,sent,valid]
  have result : (h.next cfg i).core.aluOutReg = aluAnswer cfg s := by
    have data : (h.given i).aluData = aluAnswer cfg s := holds.data
    simp [Computing.next,Regs.next,Regs.aluOutWrite,state,branch,plain,sent,valid,data]
  have supplies := next.supplies l (by rw [writes]; rfl)
  have regWrite : (h.next cfg i).core.dec.regWrite = true := by
    rw [next.known l]
    cases instr with
    | branch | load | store | fence => contradiction
    | _ => rfl
  have value := computedValue l supplies through result
  refine carriesQuietly idle (by simp [state]) asks
    (.writesBack next writes (by rw [value]; exact .done) rfl regWrite) ?_
  rw [effortExecute state,effortPlain writes rfl,sent,holds.idle]
  exact Nat.one_lt_two

include l in
theorem comparesStep (p : InProgress cfg s h) (state : h.core.currentState = .execute)
    {c : Isa.Comparison} {rs1 rs2 : BitVec 5} {offset : BitVec 12} (branch : instr = .branch c rs1 rs2 offset) (i : Inputs) :
    Carries cfg s instr [] h i := by
  obtain ⟨idle,asks⟩ := executeIdle (i := i) p state
  have branches : h.core.dec.branch = true := by
    rw [p.known l,branch]
    rfl
  have next := p.keeps (by rw [state]; rfl) (by simp [state]) i
  have goes : (h.next cfg i).core.currentState = .branch := by
    simp [Computing.next,Regs.nextState,state,branches]
  refine carriesQuietly idle (by simp [state]) asks (.branches next goes branch) ?_
  rw [effortExecute state,effortPlain goes rfl]
  repeat' split
  all_goals omega

include l in
theorem branchesStep (p : InProgress cfg s h) (state : h.core.currentState = .branch)
    {c : Isa.Comparison} {rs1 rs2 : BitVec 5} {offset : BitVec 12} (branch : instr = .branch c rs1 rs2 offset) (i : Inputs) :
    Carries cfg s instr [] h i := by
  subst branch
  have idle := freeUnless p.toReached (by simp [state])
  have ends : h.core.nextState (h.given i) = .fetch := by simp [Regs.nextState,state]
  have runs : Runs cfg s (.branch c rs1 rs2 offset) [] (h.next cfg i) :=
    endsUnwritten l p (by rw [state]; rfl) (by rw [state]; rfl) ends (by simp [Regs.instrCompleteInternal,state]) .done rfl
  refine carriesQuietly idle (by simp [state]) (by simp [Regs.dmemReq,state]) runs ?_
  rw [effortPlain state rfl,effortPlain ends rfl]
  decide

include l in
theorem addressesStep (p : InProgress cfg s h) (idle : h.core.memReqInflight = false)
    (state : h.core.currentState = .memAddr) (accesses : dispatchOf instr = .memAddr) (i : Inputs) :
    Carries cfg s instr [] h i := by
  have supplies := p.supplies l (by rw [state]; rfl)
  have next := p.keeps (by rw [state]; rfl) (by simp [state]) i
  obtain ⟨_,_,free⟩ := quietBus cfg (i := i) idle (by simp [state]) (by simp [Regs.dmemReq,state])
  have address : (h.next cfg i).core.aluOutReg = h.core.memAddress := by
    simp [Computing.next,Regs.next,Regs.aluOutWrite,state]
  have fewer (place : (h.next cfg i).core.currentState = .memRead ∨ (h.next cfg i).core.currentState = .memWrite) :
      effort (h.next cfg i) < effort h := by
    rw [effortAccess place,effortPlain state rfl,free]
    decide
  rw [Regs.memAddress,supplies.a,supplies.dec] at address
  have fields := l.fields
  cases instr with
  | load kind rd rs1 imm =>
    obtain ⟨_,hrs1,_,himm⟩ := fields
    have reads : (h.next cfg i).core.currentState = .memRead := by
      simp [Computing.next,Regs.nextState,state,supplies.dec,decodes,Instr.control]
    have runs : Runs cfg s (.load kind rd rs1 imm) _ (h.next cfg i) := .reads next reads rfl
      (address.trans (congr (congrArg (· + ·) (congrArg (operand s.bankA) hrs1)) himm))
    rw [free] at runs
    exact carriesQuietly idle (by simp [state]) (by simp [Regs.dmemReq,state]) runs (fewer (.inl reads))
  | store width rs1 rs2 imm =>
    obtain ⟨hrs1,_,_,himm⟩ := fields
    have writes : (h.next cfg i).core.currentState = .memWrite := by
      simp [Computing.next,Regs.nextState,state,supplies.dec,decodes,Instr.control,Decoder.Control.defaults]
    have runs : Runs cfg s (.store width rs1 rs2 imm) _ (h.next cfg i) := .writes next writes rfl
      (address.trans (congr (congrArg (· + ·) (congrArg (operand s.bankA) hrs1)) himm))
    rw [free] at runs
    exact carriesQuietly idle (by simp [state]) (by simp [Regs.dmemReq,state]) runs (fewer (.inr writes))
  | _ => contradiction

include l in
theorem readsStep (p : InProgress cfg s h) (state : h.core.currentState = .memRead)
    {kind : Isa.Load} {rd rs1 : BitVec 5} {imm : BitVec 12} (load : instr = .load kind rd rs1 imm)
    (address : h.core.aluOutReg = operand s.bankA rs1 + Isa.signed imm) (i : Inputs) :
    Carries cfg s instr (if h.core.memReqInflight then [.asked (loadAccess s kind rs1 imm)] else []) h i := by
  subst load
  obtain ⟨hrd,_,f3,_⟩ := l.fields
  have supplies := p.supplies l (by rw [state]; rfl)
  have dec := supplies.dec
  have next := p.keeps (by rw [state]; rfl) (by simp [state]) i
  have address' : (h.next cfg i).core.aluOutReg = operand s.bankA rs1 + Isa.signed imm := by
    rw [← address]
    simp [Computing.next,Regs.next,Regs.aluOutWrite,state]
  have here := effortAccess (.inl state)
  have bus : BusStep cfg (loadAccess s kind rs1 imm) h i := by
    refine busSteps cfg (by simp [state]) (by simp [Regs.dmemReq,state]) fun _ => ?_
    have data : h.core.dmemWdata (h.given i) = operand s.bankA (Decoder.rs2 s.irReg) := by
      rw [Regs.dmemWdata,if_neg (by simp [state]),dec,supplies.b,l.word]
      rfl
    have we : h.core.dmemWe = false := by
      rw [Regs.dmemWe,dec]
      rfl
    have size : h.core.dec.funct3.extractLsb' 0 2 = kind.width.size := by
      rw [dec,decodes,f3]
      exact kind.size
    rw [address,data,we,size]
    rfl
  cases bus with
  | taken before after shown ready | refused before after shown ready _ | silent before after shown ready _ =>
    have stays : (h.next cfg i).core.currentState = .memRead := by
      simp [Computing.next,Regs.nextState,state,ready]
    have there := effortAccess (.inl stays)
    have runs : Runs cfg s (.load kind rd rs1 imm) _ (h.next cfg i) := .reads next stays rfl address'
    rw [before] at here ⊢
    rw [after] at there runs
    rw [Carries,shown]
    refine ⟨runs,by simp_all,fun works => ?_⟩
    simp_all
  | answered before after shown ready =>
    have writes : (h.next cfg i).core.currentState = .writeback := by
      simp [Computing.next,Regs.nextState,state,ready,dec,decodes,Instr.control,Decoder.Control.defaults]
    have mdr : (h.next cfg i).core.mdr = kind.extend i.memDRdata := by
      rw [show (h.next cfg i).core.mdr = if h.core.currentState = .memRead ∧ h.core.dmemReady (h.given i) then
        h.core.formattedLoadData (h.given i) else h.core.mdr from rfl,if_pos ⟨state,ready⟩,Regs.formattedLoadData,dec,
        decodes,f3]
      cases kind <;> rfl
    have dec' := next.known l
    have value : (h.next cfg i).core.rdData = kind.extend i.memDRdata := by
      rw [Regs.rdData,dec',← mdr]
      rfl
    have runs : Runs cfg s (.load kind rd rs1 imm) [.asked (loadAccess s kind rs1 imm),.answered i.memDRdata]
        (h.next cfg i) := by
      refine .writesBack next writes (.load _ i.memDRdata) ?_ (by rw [dec']; rfl)
      rw [value,dec',decodes,hrd]
      rfl
    have there := effortPlain writes rfl
    rw [before] at here ⊢
    rw [Carries,shown]
    exact ⟨runs,by simp_all,fun _ => by simp_all⟩

include l in
theorem writesStep (p : InProgress cfg s h) (state : h.core.currentState = .memWrite)
    {width : Isa.Width} {rs1 rs2 : BitVec 5} {imm : BitVec 12} (store : instr = .store width rs1 rs2 imm)
    (address : h.core.aluOutReg = operand s.bankA rs1 + Isa.signed imm) (i : Inputs) :
    Carries cfg s instr (if h.core.memReqInflight then [.asked (storeAccess s width rs1 rs2 imm)] else []) h i := by
  subst store
  obtain ⟨_,hrs2,f3,_⟩ := l.fields
  have supplies := p.supplies l (by rw [state]; rfl)
  have dec := supplies.dec
  have next := p.keeps (by rw [state]; rfl) (by simp [state]) i
  have address' : (h.next cfg i).core.aluOutReg = operand s.bankA rs1 + Isa.signed imm := by
    rw [← address]
    simp [Computing.next,Regs.next,Regs.aluOutWrite,state]
  have here := effortAccess (.inr state)
  have bus : BusStep cfg (storeAccess s width rs1 rs2 imm) h i := by
    refine busSteps cfg (by simp [state]) (by simp [Regs.dmemReq,state]) fun _ => ?_
    have data : h.core.dmemWdata (h.given i) = operand s.bankA rs2 := by
      rw [Regs.dmemWdata,if_neg (by simp [state]),dec,supplies.b,hrs2]
      rfl
    have we : h.core.dmemWe = true := by
      rw [Regs.dmemWe,dec,state]
      rfl
    have size : h.core.dec.funct3.extractLsb' 0 2 = width.size := by
      rw [dec,decodes,f3]
      exact BitVec.extractLsb'_append_eq_right
    rw [address,data,we,size]
    rfl
  cases bus with
  | taken before after shown ready | refused before after shown ready _ | silent before after shown ready _ =>
    have stays : (h.next cfg i).core.currentState = .memWrite := by
      simp [Computing.next,Regs.nextState,state,ready]
    have there := effortAccess (.inr stays)
    have runs : Runs cfg s (.store width rs1 rs2 imm) _ (h.next cfg i) := .writes next stays rfl address'
    rw [before] at here ⊢
    rw [after] at there runs
    rw [Carries,shown]
    refine ⟨runs,by simp_all,fun works => ?_⟩
    simp_all
  | answered before after shown ready =>
    have ends : h.core.nextState (h.given i) = .fetch := by
      simp [Regs.nextState,state,ready,dec,decodes,Instr.control,Decoder.Control.defaults]
    have runs : Runs cfg s (.store width rs1 rs2 imm) [.asked (storeAccess s width rs1 rs2 imm),.answered i.memDRdata]
        (h.next cfg i) :=
      endsUnwritten l p (by rw [state]; rfl) (by rw [state]; rfl) ends (by simp [Regs.instrCompleteInternal,state,ready])
        (.store i.memDRdata) rfl
    have there : effort (h.next cfg i) = 0 := effortPlain ends rfl
    rw [before] at here ⊢
    rw [Carries,shown]
    exact ⟨runs,by simp_all,fun _ => by simp_all⟩

include l in
theorem writesBackStep {log : List Event} {after : Hart} (p : InProgress cfg s h) (state : h.core.currentState = .writeback)
    (shown : Shows (outcome s instr) log after)
    (value : after = ((hart s s.instrPcReg).write h.core.dec.rd h.core.rdData).goto (goesOn s instr))
    (written : h.core.dec.regWrite = true) (i : Inputs) : Carries cfg s instr log h i := by
  have idle := freeUnless p.toReached (by simp [state])
  have supplies := p.supplies l (by rw [state]; rfl)
  have ends : (h.next cfg i).core.currentState = .fetch := by simp [Computing.next,Regs.nextState,state]
  have pc : (h.next cfg i).core.pc = goesOn s instr :=
    (completed (i := h.given i) p.toSequenced (by simp [Regs.instrCompleteInternal,state])).trans
      (successorIs l supplies.dec p.toKept supplies.a supplies.b)
  have plain : h.core.fpResult = false := by
    rw [Regs.fpResult,supplies.dec]
    cases instr <;> rfl
  have csr : (h.next cfg i).core.csr.uncounted = s.csr.uncounted :=
    (csrsKept cfg (h.given i) (by simp [Regs.csrTrapEntry,state]) (by simp [Regs.csrTrapReturn,state])
      (by simp [Regs.csrInputs,plain]) (by simp [Regs.csrInputs,state])).trans p.csr
  have registers (r : BitVec 5) : operand (h.next cfg i).core.bankA r =
      if r ≠ 0 ∧ r = h.core.dec.rd then h.core.rdData else operand s.bankA r := by
    have after := (writtenBack cfg (h.given i) state (p.flags (by rw [state]; rfl)).1 r).1
    simp only [written,true_and,operandSame p.bankA] at after
    exact after
  have runs : Runs cfg s instr log (h.next cfg i) := by
    refine .ended ends shown ?_ csr
    rw [value,pc]
    exact Hart.ext (funext registers) rfl
  refine carriesQuietly idle (by simp [state]) (by simp [Regs.dmemReq,state]) runs ?_
  rw [effortPlain state rfl,effortPlain ends rfl]
  decide

include l in
theorem runsStep {log : List Event} (runs : Runs cfg s instr log h) (busy : h.core.currentState.busy = true) (i : Inputs) :
    Carries cfg s instr log h i := by
  cases runs with
  | prepares e p early => exact preparesStep l e p early i
  | launches p state through unsent => exact launchesStep l p state through unsent i
  | works p state through sent working => exact worksStep l p state through sent working i
  | answers p state through sent holds => exact answersStep l p state through sent holds i
  | compares p state branch => exact comparesStep l p state branch i
  | branches p state branch => exact branchesStep l p state branch i
  | addresses p idle state accesses => exact addressesStep l p idle state accesses i
  | reads p state load address => exact readsStep l p state load address i
  | writes p state store address => exact writesStep l p state store address i
  | writesBack p state shown value written => exact writesBackStep l p state shown value written i
  | ended state =>
    rw [state] at busy
    contradiction

end Steps

/- What an instruction that began in `s` has done by the time that `t` is back at the fetch. -/
def Executed (s t : Regs) (instr : Instr) (seen : List Event) : Prop :=
  Shows (outcome s instr) seen (hart t t.pc) ∧ t.csr.uncounted = s.csr.uncounted

theorem Runs.executed {log : List Event} (runs : Runs cfg s instr log h) (ended : h.core.currentState.busy = false) :
    Executed s h.core instr log := by
  cases runs with
  | ended _ shown left csr => exact ⟨left ▸ shown,csr⟩
  | @prepares _ state _ prepared early =>
    rw [prepared.state] at ended
    cases state <;> contradiction
  | launches _ state | works _ state | answers _ state | compares _ state | branches _ state | addresses _ _ state
  | reads _ state | writes _ state | writesBack _ state =>
    rw [state] at ended
    contradiction

theorem equippedRun (cfg : Config) (h₀ : Computing) (banks : h₀.core.bankA.mem = h₀.core.bankB.mem) (before : List Inputs) :
    Equipped cfg ((computing cfg).final h₀.reset before) :=
  @Machine.invariant Computing Inputs Outputs (computing cfg) (Equipped cfg) (fun _ i e => equippedNext e i) _
    (equippedReset h₀ banks) before

/- In every run from reset, with the two banks alike at its start, an instruction that the assembler encoded takes at
most 41 cycles besides those in which the bus makes it wait, and it does what the ISA says. -/
theorem baseExecuted (cfg : Config) (h₀ : Computing) (banks : h₀.core.bankA.mem = h₀.core.bankB.mem)
    (before during : List Inputs) (state : ((computing cfg).final h₀.reset before).core.currentState = .decode)
    (latched : ((computing cfg).final h₀.reset before).core.isInstructionValidReg = true) (instr : Instr)
    (word : ((computing cfg).final h₀.reset before).core.irReg = instr.encode)
    (there : instr.multiplies = true → cfg.enableM = true)
    (busy : (computing cfg).Steps (fun t _ => t.core.currentState.busy = true)
      ((computing cfg).final h₀.reset before) during) :
    ((computing cfg).history (fun t i => [waitsForBus t i]) ((computing cfg).final h₀.reset before) during).count false ≤ 41 ∧
      (Computes cfg ((computing cfg).final h₀.reset before) during →
        Executed ((computing cfg).final h₀.reset before).core
          ((computing cfg).final ((computing cfg).final h₀.reset before) during).core instr
          ((computing cfg).history events ((computing cfg).final h₀.reset before) during)) := by
  have equipped := equippedRun cfg h₀ banks before
  generalize (computing cfg).final h₀.reset before = h at state latched word busy equipped ⊢
  have l : Latched cfg h.core instr := ⟨word,there⟩
  have first : Runs cfg h.core instr [] h := .prepares equipped (preparedFirst equipped.toSupplied state latched) rfl
  constructor
  · have step (t : Computing) (i : Inputs) (inv : ∃ log, Runs cfg h.core instr log t)
        (busy : t.core.currentState.busy = true) : (∃ log, Runs cfg h.core instr log (t.next cfg i)) ∧
          effort (t.next cfg i) ≤ effort t ∧ (waitsForBus t i = false → effort (t.next cfg i) < effort t) := by
      obtain ⟨log,runs⟩ := inv
      have carries := runsStep l runs busy i
      exact ⟨⟨_,carries.1⟩,carries.2⟩
    have bounded := boundedWork (m := computing cfg) step ⟨[],first⟩ busy
    have most := effortPlain state rfl
    omega
  · intro computes
    have step (log : List Event) (t : Computing) (i : Inputs) (runs : Runs cfg h.core instr log t)
        (busy : t.core.currentState.busy = true) : Runs cfg h.core instr (log ++ events t i) (t.next cfg i) :=
      (runsStep l runs busy i).1
    have ended := historyInvariant (m := computing cfg) step first busy
    exact ended.executed computes.2

def computingBoth : Computing :=
  Computing.reset ⟨{ (default : Regs) with bankA := ⟨fun _ => 0x2001,0,0⟩, bankB := ⟨fun _ => 0x2001,0,0⟩ },default⟩

/- `mulh x3,x1,x2`. -/
theorem baseExecutedProduct :
    let h := (computing ⟨true,true⟩).final computingBoth
      (Computing.drive ⟨true,true⟩ (program [(Instr.register .mulh 3 1 2).encode]) 4 computingBoth)
    let during := Computing.drive ⟨true,true⟩ (program [(Instr.register .mulh 3 1 2).encode]) 41 h
    ((computing ⟨true,true⟩).history (fun t i => [waitsForBus t i]) h during).count false ≤ 41 ∧
      (Computes ⟨true,true⟩ h during → Executed h.core ((computing ⟨true,true⟩).final h during).core
        (.register .mulh 3 1 2) ((computing ⟨true,true⟩).history events h during)) :=
  baseExecuted ⟨true,true⟩
    ⟨{ (default : Regs) with bankA := ⟨fun _ => 0x2001,0,0⟩, bankB := ⟨fun _ => 0x2001,0,0⟩ },default⟩ rfl _ _
    (by decide +kernel) (by decide +kernel) _ (by decide +kernel) (fun _ => rfl) (by decide +kernel)

end RiscvSoc.Core
