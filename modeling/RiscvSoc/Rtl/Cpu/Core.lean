import RiscvSoc.Rtl.Cpu.CsrFile
import RiscvSoc.Rtl.Cpu.Decoder
import RiscvSoc.Rtl.Cpu.FetchBuffer
import RiscvSoc.Rtl.SyncFifo

/-! `cpu.sv`. What the ALU, the FPU and the FP register file answer in a cycle is an input; the
registers that only trace the last instruction are left out. -/
namespace RiscvSoc.Core
open Mealy

structure Config where
  enableM : Bool
  enableF : Bool
  deriving DecidableEq, Repr

inductive State where
  | boot
  | fetch
  | decode
  | decodeWait
  | regRead
  | regReadWait
  | execute
  | memAddr
  | memRead
  | memWrite
  | writeback
  | branch
  | csr
  | halt
  | atomicRmw
  deriving DecidableEq, Repr, Inhabited

def trapCauseIllegalInstr : BitVec 32 := 2
def trapCauseBreakpoint : BitVec 32 := 3
def trapCauseEcallMmode : BitVec 32 := 11
def trapCauseMsi : BitVec 32 := 0x80000003
def trapCauseMti : BitVec 32 := 0x80000007
def trapCauseMei : BitVec 32 := 0x8000000B

structure Inputs where
  boot : Bool
  reqHalt : Bool
  bootAddr : BitVec 32
  msip : Bool
  mtip : Bool
  meip : Bool
  memAReady : Bool
  memDRdata : BitVec 32
  memDValid : Bool
  aluInReady : Bool
  aluData : BitVec 32
  aluOutValid : Bool
  fpuFpResult : BitVec 32
  fpuIntResult : BitVec 32
  fpuFflags : BitVec 5
  fpuReady : Bool
  fs2Data : BitVec 32
  deriving DecidableEq, Repr

structure Regs where
  currentState : State
  pc : BitVec 32
  irReg : BitVec 32
  instrPcReg : BitVec 32
  instrPcNextReg : BitVec 32
  isInstructionValidReg : Bool
  rdIsX0 : Bool
  rs1IsX0 : Bool
  rs2IsX0 : Bool
  aReg : BitVec 32
  bReg : BitVec 32
  aluOutReg : BitVec 32
  fpuOutReg : BitVec 32
  mdr : BitVec 32
  csrRdataReg : BitVec 32
  controlTargetReg : BitVec 32
  takeBranch : Bool
  aluReqSent : Bool
  aluReqSentRmw : Bool
  fpuStartSent : Bool
  reservationValid : Bool
  reservationAddr : BitVec 32
  scSuccessReg : Bool
  memReqInflight : Bool
  imemDataStagingReg : BitVec 32
  imemDataStagingValid : Bool
  wfiActive : Bool
  instrComplete : Bool
  dec : Decoder.Regs
  fetch : FetchBuffer.Regs
  csr : CsrFile.Regs
  bankA : SyncDpram 32 8
  bankB : SyncDpram 32 8

structure Access where
  addr : BitVec 32
  wdata : BitVec 32
  we : Bool
  size : BitVec 2
  valid : Bool
  deriving DecidableEq, Repr

/- `rst`; the staged fetch, the buffered half-word and the register banks keep what they have. -/
def reset (s : Regs) : Regs where
  currentState := .boot
  pc := 0
  irReg := 0
  instrPcReg := 0
  instrPcNextReg := 0
  isInstructionValidReg := true
  rdIsX0 := false
  rs1IsX0 := false
  rs2IsX0 := false
  aReg := 0
  bReg := 0
  aluOutReg := 0
  fpuOutReg := 0
  mdr := 0
  csrRdataReg := 0
  controlTargetReg := 0
  takeBranch := false
  aluReqSent := false
  aluReqSentRmw := false
  fpuStartSent := false
  reservationValid := false
  reservationAddr := 0
  scSuccessReg := false
  memReqInflight := false
  imemDataStagingReg := s.imemDataStagingReg
  imemDataStagingValid := false
  wfiActive := false
  instrComplete := false
  dec := Decoder.reset
  fetch := FetchBuffer.reset s.fetch
  csr := CsrFile.reset
  bankA := s.bankA
  bankB := s.bankB

namespace Regs

def memDHandshake (s : Regs) (i : Inputs) : Bool := i.memDValid && s.memReqInflight
def dmemReady (s : Regs) (i : Inputs) : Bool := s.memDHandshake i
def imemReady (s : Regs) : Bool := s.imemDataStagingValid
def imemDataStagingWrite (s : Regs) (i : Inputs) : Bool := s.currentState == .fetch && s.memDHandshake i

def syncTrapPending (s : Regs) : Bool := !s.isInstructionValidReg || s.dec.isEcall || s.dec.isEbreak
def syncTrapCause (s : Regs) : BitVec 32 :=
  if !s.isInstructionValidReg then trapCauseIllegalInstr
  else if s.dec.isEbreak then trapCauseBreakpoint
  else trapCauseEcallMmode
def syncTrapMtval (s : Regs) : BitVec 32 := if !s.isInstructionValidReg then s.irReg else 0

def enabledPendingInterrupts (s : Regs) (i : Inputs) : BitVec 32 := s.csr.mie &&& CsrFile.mip i.msip i.mtip i.meip
def interruptTaken (s : Regs) (i : Inputs) : Bool :=
  s.csr.mieBit && s.enabledPendingInterrupts i != 0 && !s.memReqInflight && !i.reqHalt
def interruptCause (s : Regs) (i : Inputs) : BitVec 32 :=
  if (s.enabledPendingInterrupts i).getLsbD 11 then trapCauseMei
  else if (s.enabledPendingInterrupts i).getLsbD 3 then trapCauseMsi
  else if (s.enabledPendingInterrupts i).getLsbD 7 then trapCauseMti
  else 0

/- An FP operation that is not a load. -/
def fpResult (s : Regs) : Bool := s.dec.fpRegWrite || s.dec.fpToInt

def dispatch (s : Regs) : State :=
  let op := s.dec.opcode
  if op ∈ [Decoder.opReg,Decoder.opImm,Decoder.opLui,Decoder.opAuipc,Decoder.opJal,Decoder.opJalr,Decoder.opFp,
      Decoder.opFmadd,Decoder.opFmsub,Decoder.opFnmsub,Decoder.opFnmadd] then .execute
  else if op ∈ [Decoder.opLoad,Decoder.opLoadFp,Decoder.opStore,Decoder.opStoreFp,Decoder.opAmo] then .memAddr
  else if op = Decoder.opBranch then .execute
  else if op = Decoder.opSystem then if s.dec.isCsr then .csr else .fetch
  else if op = Decoder.opFence then .fetch
  else .halt

def nextState (s : Regs) (i : Inputs) : State := match s.currentState with
  | .boot => if i.reqHalt then .halt else if i.boot then .fetch else .boot
  | .fetch =>
    if i.reqHalt then .halt
    else if s.interruptTaken i || s.wfiActive then .fetch
    else if s.imemReady then .decode
    else .fetch
  | .decode => .decodeWait
  | .decodeWait => .regRead
  | .regRead => .regReadWait
  | .regReadWait => if s.syncTrapPending then .fetch else s.dispatch
  | .execute =>
    if s.dec.branch then .branch
    else if s.fpResult && !s.dec.isFpLoad then if i.fpuReady then .writeback else .execute
    else if s.aluReqSent && i.aluOutValid then .writeback
    else .execute
  | .memAddr => if s.dec.memRead then .memRead else .memWrite
  | .memRead => if s.dmemReady i then if s.dec.isAmo then .atomicRmw else .writeback else .memRead
  | .memWrite => if s.dmemReady i then if s.dec.isSc then .writeback else .fetch else .memWrite
  | .writeback => .fetch
  | .branch => .fetch
  | .csr => .writeback
  | .atomicRmw => if s.aluReqSentRmw && i.aluOutValid && s.dmemReady i then .writeback else .atomicRmw
  | .halt => .halt

def irWrite (s : Regs) (i : Inputs) : Bool :=
  s.currentState == .fetch && !s.interruptTaken i && !s.wfiActive && s.imemReady

/- FENCE, MRET and WFI complete with the register read. -/
def completesEarly (s : Regs) : Bool := !s.syncTrapPending && (s.dec.isFence || s.dec.isMret || s.dec.isWfi)

def pcWrite (s : Regs) (i : Inputs) : Bool := match s.currentState with
  | .boot => i.boot && !i.reqHalt
  | .fetch => s.interruptTaken i
  | .regReadWait => s.syncTrapPending || s.completesEarly
  | .memWrite => s.dmemReady i
  | .writeback | .branch => true
  | _ => false

def instrCompleteInternal (s : Regs) (i : Inputs) : Bool := match s.currentState with
  | .regReadWait => s.completesEarly
  | .memWrite => s.dmemReady i
  | .writeback | .branch => true
  | _ => false

def csrTrapEntry (s : Regs) (i : Inputs) : Bool := match s.currentState with
  | .fetch => s.interruptTaken i
  | .regReadWait => s.syncTrapPending
  | _ => false
def csrTrapMepc (s : Regs) : BitVec 32 := if s.currentState = .fetch then s.pc else s.instrPcReg
def csrTrapMcause (s : Regs) (i : Inputs) : BitVec 32 :=
  if s.currentState = .fetch then s.interruptCause i else s.syncTrapCause
def csrTrapMtval (s : Regs) : BitVec 32 := if s.currentState = .fetch then 0 else s.syncTrapMtval
def csrTrapReturn (s : Regs) : Bool :=
  s.currentState == .regReadWait && !s.syncTrapPending && !s.dec.isFence && s.dec.isMret

def controlFlowRedirect (s : Regs) (i : Inputs) : Bool :=
  (s.currentState == .branch && s.takeBranch) || (s.currentState == .writeback && s.dec.jump) || s.csrTrapEntry i ||
    s.csrTrapReturn
def invalidateFetchBuffer (s : Regs) (i : Inputs) : Bool := s.pcWrite i && s.controlFlowRedirect i

def nextPcValue (s : Regs) (i : Inputs) : BitVec 32 :=
  if s.currentState = .boot then i.bootAddr
  else if s.csrTrapEntry i then s.csr.mtvec
  else if s.csrTrapReturn then s.csr.mepc
  else if s.controlFlowRedirect i then s.controlTargetReg
  else s.instrPcNextReg

def pcIncrement (s : Regs) : BitVec 32 := if s.fetch.pcInc2 then 2 else 4

def controlTargetWrite (s : Regs) : Bool := match s.currentState with
  | .decodeWait => s.dec.branch || s.dec.jump && !s.dec.aluSrc
  | .execute => !s.dec.branch && !s.fpResult && s.dec.jump && s.dec.aluSrc
  | _ => false
def controlTargetNext (s : Regs) : BitVec 32 :=
  if s.currentState = .decodeWait then
    if s.dec.branch then (s.instrPcReg + s.dec.immB) &&& ~~~1
    else if s.dec.jump && !s.dec.aluSrc then (s.instrPcReg + s.dec.immJ) &&& ~~~1
    else s.controlTargetReg
  else if s.currentState = .execute ∧ s.dec.jump ∧ s.dec.aluSrc then (s.aReg + s.dec.immI) &&& ~~~1
  else s.controlTargetReg

def takeBranchNext (s : Regs) : Bool :=
  s.dec.branch &&
    if s.dec.funct3 = 0b000 then s.aReg == s.bReg
    else if s.dec.funct3 = 0b001 then s.aReg != s.bReg
    else if s.dec.funct3 = 0b100 then s.aReg.slt s.bReg
    else if s.dec.funct3 = 0b101 then !s.aReg.slt s.bReg
    else if s.dec.funct3 = 0b110 then s.aReg.ult s.bReg
    else if s.dec.funct3 = 0b111 then !s.aReg.ult s.bReg
    else false

/- Atomic accesses have no offset. -/
def memAddress (s : Regs) : BitVec 32 :=
  s.aReg +
    if s.dec.isAmo || s.dec.isLr || s.dec.isSc then 0
    else if s.dec.aluSrc then if s.dec.memWrite || s.dec.isFpStore then s.dec.immS else s.dec.immI
    else s.bReg

def aluInValid (s : Regs) : Bool := match s.currentState with
  | .execute => !s.dec.branch && !s.fpResult && !s.aluReqSent
  | .atomicRmw => !s.aluReqSentRmw
  | _ => false
def aluOutWrite (s : Regs) (i : Inputs) : Bool := match s.currentState with
  | .execute => !s.dec.branch && !s.fpResult && s.aluReqSent && i.aluOutValid
  | .memAddr => true
  | .atomicRmw => s.aluReqSentRmw && i.aluOutValid && s.dmemReady i
  | _ => false
def fpuStart (s : Regs) : Bool := s.currentState == .execute && !s.dec.branch && s.fpResult && !s.fpuStartSent
def fpuOutWrite (s : Regs) (i : Inputs) : Bool := s.currentState == .execute && !s.dec.branch && s.fpResult && i.fpuReady

def imemReq (s : Regs) (i : Inputs) : Bool :=
  s.currentState == .fetch && !s.interruptTaken i && !s.wfiActive && !i.reqHalt && !s.imemDataStagingValid
def dmemReq (s : Regs) (i : Inputs) : Bool := match s.currentState with
  | .memRead | .memWrite => true
  | .atomicRmw => s.aluReqSentRmw && i.aluOutValid
  | _ => false

def scSuccess (s : Regs) : Bool := s.reservationValid && s.reservationAddr == s.aluOutReg
def amoWriteData (s : Regs) (i : Inputs) : BitVec 32 := if s.dec.funct5 = 0b00001 then s.bReg else i.aluData

def dmemWe (s : Regs) : Bool :=
  s.dec.memWrite && (s.currentState == .memWrite || s.currentState == .atomicRmw) && (!s.dec.isSc || s.scSuccess)
def dmemWdata (s : Regs) (i : Inputs) : BitVec 32 :=
  if s.currentState = .atomicRmw then s.amoWriteData i
  else if s.dec.isFpStore then i.fs2Data
  else s.bReg
def formattedLoadData (s : Regs) (i : Inputs) : BitVec 32 :=
  if s.dec.funct3 = 0b000 then (i.memDRdata.extractLsb' 0 8).signExtend 32
  else if s.dec.funct3 = 0b001 then (i.memDRdata.extractLsb' 0 16).signExtend 32
  else if s.dec.funct3 = 0b100 then (i.memDRdata.extractLsb' 0 8).setWidth 32
  else if s.dec.funct3 = 0b101 then (i.memDRdata.extractLsb' 0 16).setWidth 32
  else i.memDRdata

def access (s : Regs) (i : Inputs) : Access :=
  if s.imemReq i then ⟨s.pc,0,false,0b10,!s.memReqInflight⟩
  else if s.dmemReq i then
    ⟨s.aluOutReg,s.dmemWdata i,s.dmemWe,s.dec.funct3.extractLsb' 0 2,!s.memReqInflight⟩
  else ⟨0,0,false,0b00,false⟩
def memAHandshake (s : Regs) (i : Inputs) : Bool := (s.access i).valid && i.memAReady

def rdData (s : Regs) : BitVec 32 :=
  if s.dec.fpToInt then s.fpuOutReg
  else if s.dec.isAmo then s.mdr
  else if s.dec.isSc then if s.scSuccessReg then 0 else 1
  else if s.dec.opcode = Decoder.opLui then s.dec.immU
  else if s.dec.opcode = Decoder.opAuipc then s.aluOutReg
  else if s.dec.jump then s.instrPcNextReg
  else if s.dec.isCsr then s.csrRdataReg
  else if s.dec.memToReg || s.dec.isLr then s.mdr
  else s.aluOutReg

def regWe (s : Regs) : Bool := s.currentState == .writeback && s.dec.regWrite && !s.rdIsX0

/- Both banks are written alike; each has the read port of one operand. -/
def bankStep (s : Regs) (bank : SyncDpram 32 8) (address : BitVec 5) : SyncDpram 32 8 :=
  (bank.readEdge (bank.mem (0#3 ++ address))).writeEdge s.regWe (0#3 ++ s.dec.rd) s.rdData

def fetchInputs (s : Regs) (i : Inputs) : FetchBuffer.Inputs where
  imemData := s.imemDataStagingReg
  imemReady := s.imemReady
  pc := s.pc
  irWrite := s.irWrite i
  invalidateBuffer := s.invalidateFetchBuffer i

def csrInputs (s : Regs) (i : Inputs) : CsrFile.Inputs where
  isCsr := s.dec.isCsr && s.currentState == .csr
  instrComplete := s.instrCompleteInternal i
  funct3 := s.dec.funct3
  rs1 := s.dec.rs1
  csrAddr := s.dec.immI.extractLsb' 0 12
  rs1Data := s.aReg
  trapEntry := s.csrTrapEntry i
  trapMepcIn := s.csrTrapMepc
  trapMcauseIn := s.csrTrapMcause i
  trapMtvalIn := s.csrTrapMtval
  trapReturn := s.csrTrapReturn
  msip := i.msip
  mtip := i.mtip
  meip := i.meip
  fpFflagsIn := i.fpuFflags
  fpFflagsWe := s.currentState == .writeback && s.fpResult

def next (cfg : Config) (s : Regs) (i : Inputs) : Regs :=
  let fetched := s.fetch.output s.imemDataStagingReg
  let decodeWait := !s.irWrite i && s.currentState == .decodeWait
  let lrDone := s.dec.isLr && s.currentState == .memRead && s.dmemReady i
  let scDone := s.dec.isSc && s.currentState == .memWrite && s.dmemReady i
  let storeHits := s.dmemWe && s.reservationValid && s.aluOutReg == s.reservationAddr && !s.dec.isSc
  { currentState := s.nextState i
    pc := if s.pcWrite i then s.nextPcValue i else s.pc
    irReg := if s.irWrite i then fetched.insn32 else s.irReg
    instrPcReg := if s.irWrite i then s.pc else s.instrPcReg
    instrPcNextReg := if decodeWait then s.instrPcReg + s.pcIncrement else s.instrPcNextReg
    isInstructionValidReg :=
      if s.irWrite i then fetched.isValid
      else if decodeWait then s.isInstructionValidReg && s.dec.instructionValid
      else s.isInstructionValidReg
    rdIsX0 := if decodeWait then s.dec.rd == 0 else s.rdIsX0
    rs1IsX0 := if decodeWait then s.dec.rs1 == 0 else s.rs1IsX0
    rs2IsX0 := if decodeWait then s.dec.rs2 == 0 else s.rs2IsX0
    aReg := if s.currentState = .regReadWait then if s.rs1IsX0 then 0 else s.bankA.rdata else s.aReg
    bReg := if s.currentState = .regReadWait then if s.rs2IsX0 then 0 else s.bankB.rdata else s.bReg
    aluOutReg :=
      if s.aluOutWrite i then if s.currentState = .memAddr then s.memAddress else i.aluData else s.aluOutReg
    fpuOutReg :=
      if s.fpuOutWrite i then
        if cfg.enableF then if s.dec.fpToInt then i.fpuIntResult else i.fpuFpResult else 0
      else s.fpuOutReg
    mdr := if s.currentState = .memRead ∧ s.dmemReady i then s.formattedLoadData i else s.mdr
    csrRdataReg := if s.currentState = .regRead ∧ s.dec.isCsr then s.csr.rdata else s.csrRdataReg
    controlTargetReg := if s.controlTargetWrite then s.controlTargetNext else s.controlTargetReg
    takeBranch := s.takeBranchNext
    aluReqSent := s.currentState == .execute && (s.aluReqSent || s.aluInValid && i.aluInReady)
    aluReqSentRmw := s.currentState == .atomicRmw && (s.aluReqSentRmw || s.aluInValid && i.aluInReady)
    fpuStartSent := s.currentState == .execute && (s.fpuStartSent || s.fpuStart)
    reservationValid := lrDone || s.reservationValid && !scDone && !storeHits
    reservationAddr := if lrDone then s.aluOutReg else s.reservationAddr
    scSuccessReg := if !lrDone && scDone then s.scSuccess else s.scSuccessReg
    memReqInflight := (s.memReqInflight || s.memAHandshake i) && !s.memDHandshake i
    imemDataStagingReg := if s.imemDataStagingWrite i then i.memDRdata else s.imemDataStagingReg
    imemDataStagingValid :=
      s.imemDataStagingWrite i || s.imemDataStagingValid && !(s.irWrite i || s.invalidateFetchBuffer i)
    wfiActive :=
      !(s.interruptTaken i || i.reqHalt) &&
        (s.wfiActive || s.currentState == .regReadWait && s.dec.isWfi && !s.syncTrapPending)
    instrComplete := s.instrCompleteInternal i
    dec := if s.currentState = .decode then Decoder.decode cfg.enableM cfg.enableF s.irReg else s.dec
    fetch := s.fetch.next (s.fetchInputs i)
    csr := s.csr.next cfg.enableM cfg.enableF (s.csrInputs i)
    bankA := s.bankStep s.bankA s.dec.rs1
    bankB := s.bankStep s.bankB s.dec.rs2 }

end Regs

structure Outputs where
  access : Access
  memDReady : Bool
  halted : Bool
  instrComplete : Bool
  isBooting : Bool
  deriving DecidableEq, Repr

def Regs.outputs (s : Regs) (i : Inputs) : Outputs :=
  ⟨s.access i,s.memReqInflight,s.currentState == .halt,s.instrComplete,s.currentState == .boot⟩

def machine (cfg : Config) : Machine Regs Inputs Outputs := ⟨Regs.outputs,Regs.next cfg⟩

end RiscvSoc.Core
