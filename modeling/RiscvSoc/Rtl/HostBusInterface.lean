import RiscvSoc.Rtl.HostBusRx
import RiscvSoc.Rtl.HostBusTx

/-! `host_bus_interface.sv`: executes the host's packets on the bus, one transaction for each
beat, and forwards the CPU's requests to the host. -/
namespace RiscvSoc.HostBus.Interface
open LittleEndian (Byte)
open Mealy

inductive HostState where
  | idle
  | writeA
  | writeD
  | writeWait
  | writeResp
  | readA
  | readD
  | readTx
  deriving DecidableEq, Repr

structure Engine where
  state : HostState
  info : Meta
  currAddr : BitVec 32
  nextAddr : BitVec 32
  stride : BitVec 3
  beatsRemaining : BitVec 17
  writeData : BitVec 32
  readFirstBeat : Bool
  addrFixed : Bool
  deriving DecidableEq, Repr

structure Cpu where
  capAddr : BitVec 32
  capWdata : BitVec 32
  capWe : Bool
  capSize : BitVec 2
  reqPending : Bool
  waitResp : Bool
  respData : BitVec 32
  respValid : Bool
  deriving DecidableEq, Repr

structure Regs where
  rx : Rx.Regs
  tx : Tx.Regs
  sliceValid : Bool
  slice : Beat
  cpu : Cpu
  host : Engine
  deriving DecidableEq, Repr

structure Inputs where
  memAAddr : BitVec 32
  memAWdata : BitVec 32
  memAWe : Bool
  memASize : BitVec 2
  memAValid : Bool
  memDReady : Bool
  hostMemAReady : Bool
  hostMemDRdata : BitVec 32
  hostMemDValid : Bool
  txReady : Bool
  rxData : Byte
  rxValid : Bool
  deriving DecidableEq, Repr

structure Outputs where
  memAReady : Bool
  memDRdata : BitVec 32
  memDValid : Bool
  hostMemAAddr : BitVec 32
  hostMemAWdata : BitVec 32
  hostMemAWe : Bool
  hostMemASize : BitVec 2
  hostMemAValid : Bool
  hostMemDReady : Bool
  txData : Byte
  txValid : Bool
  rxReady : Bool
  deriving DecidableEq, Repr

def reset (s : Regs) : Regs :=
  {s with
    rx := Rx.reset s.rx
    tx := Tx.reset s.tx
    sliceValid := false
    cpu := {s.cpu with reqPending := false, waitResp := false, respValid := false}
    host := {s.host with state := .idle, beatsRemaining := 0, readFirstBeat := false, addrFixed := false}}

def stride (size : BitVec 2) : BitVec 3 := if size = 0b00 then 1 else if size = 0b01 then 2 else 4

/- `rx_pkt_addr_fixed`: writes keep the destination, reads the source. -/
def addrFixed (info : Meta) : Bool := if info.we then info.dstFixed else info.srcFixed

def memAPhase (s : Regs) : Bool := s.host.state == .writeA || s.host.state == .readA
def memDPhase (s : Regs) : Bool := s.host.state == .writeD || s.host.state == .readD
def lastBeat (e : Engine) : Bool := e.beatsRemaining == 1#17

def acceptCpuResp (s : Regs) : Bool := s.cpu.waitResp && s.rx.outValid && !s.rx.packet.req
def acceptHostReqStart (s : Regs) : Bool :=
  s.host.state == .idle && s.rx.outValid && s.rx.packet.req && s.rx.packet.start
def acceptHostWritePayload (s : Regs) : Bool :=
  s.host.state == .writeWait && s.rx.outValid && s.rx.packet.req && !s.rx.packet.start

def rxPktReady (s : Regs) : Bool := acceptCpuResp s || acceptHostReqStart s || acceptHostWritePayload s

def ackBeat (info : Meta) : Beat := ⟨true,true,false,{info with we := true},0⟩

def cpuBeat (c : Cpu) : Beat := ⟨true,true,true,⟨c.capWe,c.capSize,false,false,0,c.capAddr⟩,c.capWdata⟩

/- TX arbitration: host responses have priority over CPU requests. -/
def txIssue (s : Regs) : Option Beat :=
  if s.host.state = .writeResp then some (ackBeat s.host.info)
  else if s.cpu.reqPending then some (cpuBeat s.cpu)
  else none

def txPkt (s : Regs) : Option Beat := if s.sliceValid then some s.slice else txIssue s

def txPktStart (s : Regs) : Bool := (txPkt s).any (·.start)
def txPktReady (s : Regs) : Bool := Tx.packetReady s.tx (txPktStart s)
def txOutputHandshake (s : Regs) : Bool := (txPkt s).isSome && txPktReady s

def txBeat (s : Regs) : List Beat := if txPktReady s then (txPkt s).toList else []

/- Only host responses are staged while TX is busy. -/
def txStageCapture (s : Regs) : Option Beat :=
  if !s.sliceValid && !txPktReady s then (txIssue s).filter (!·.req) else none

def readBeat (e : Engine) (rdata : BitVec 32) : Beat :=
  ⟨e.readFirstBeat,lastBeat e,false,{e.info with we := false},rdata⟩

def hostDHandshake (s : Regs) (i : Inputs) : Bool := memDPhase s && i.hostMemDValid
def hostAHandshake (s : Regs) (i : Inputs) : Bool := memAPhase s && i.hostMemAReady

def sliceNext (s : Regs) (i : Inputs) : Bool × Beat :=
  if s.host.state = .readD ∧ hostDHandshake s i then (true,readBeat s.host i.hostMemDRdata)
  else match txStageCapture s with
    | some beat => (true,beat)
    | none => if s.sliceValid && txPktReady s then (false,s.slice) else (s.sliceValid,s.slice)

def memAReady (s : Regs) : Bool := !s.cpu.reqPending && !s.cpu.waitResp && !s.cpu.respValid

def cpuNext (s : Regs) (i : Inputs) : Cpu :=
  let c := if i.memAValid && memAReady s then {s.cpu with
      capAddr := i.memAAddr
      capWdata := i.memAWdata
      capWe := i.memAWe
      capSize := i.memASize
      reqPending := true}
    else s.cpu
  let c := if s.cpu.reqPending && txOutputHandshake s && (txPkt s).any (·.req) then
      {c with reqPending := false, waitResp := true}
    else c
  let c := if s.cpu.respValid && i.memDReady then {c with respValid := false} else c
  if acceptCpuResp s then {c with waitResp := false, respData := s.rx.packet.data, respValid := true} else c

/- A request packet's first beat in HOST_IDLE. -/
def startRequest (e : Engine) (packet : Beat) : Engine :=
  let step := stride packet.info.size
  let fixed := addrFixed packet.info
  let next := if fixed then packet.info.baseAddr else packet.info.baseAddr + step.setWidth 32
  let e := {e with
    info := packet.info
    currAddr := packet.info.baseAddr
    addrFixed := fixed
    beatsRemaining := burstLen packet.info.burstLenM1
    stride := step
    nextAddr := next}
  if packet.info.we then {e with writeData := packet.data, state := .writeA}
  else {e with readFirstBeat := true, state := .readA}

def advance (e : Engine) : Engine :=
  let e := {e with beatsRemaining := e.beatsRemaining - 1#17}
  if e.addrFixed then e
  else {e with currAddr := e.nextAddr, nextAddr := e.nextAddr + e.stride.setWidth 32}

def hostNext (s : Regs) (i : Inputs) : Engine :=
  let e := s.host
  match e.state with
  | .idle => if acceptHostReqStart s then startRequest e s.rx.packet else e
  | .writeA => if hostAHandshake s i then {e with state := .writeD} else e
  | .writeD =>
    if hostDHandshake s i then
      if lastBeat e then {e with state := .writeResp} else {advance e with state := .writeWait}
    else e
  | .writeWait =>
    if acceptHostWritePayload s then {e with writeData := s.rx.packet.data, state := .writeA} else e
  | .writeResp => if txOutputHandshake s then {e with state := .idle} else e
  | .readA => if hostAHandshake s i then {e with state := .readD} else e
  | .readD => if hostDHandshake s i then {e with state := .readTx} else e
  | .readTx =>
    if txOutputHandshake s then
      let e := {e with readFirstBeat := false}
      if lastBeat e then {e with state := .idle} else {advance e with state := .readA}
    else e

def rxInputs (s : Regs) (i : Inputs) : Rx.Inputs := ⟨i.rxData,i.rxValid,rxPktReady s⟩

def noBeat : Beat := ⟨false,false,false,⟨false,0,false,false,0,0⟩,0⟩

def Regs.powerOn : Regs where
  rx := .powerOn
  tx := .powerOn
  sliceValid := false
  slice := noBeat
  cpu := ⟨0,0,false,0,false,false,0,false⟩
  host := ⟨.idle,⟨false,0,false,false,0,0⟩,0,0,1,0,0,false,false⟩

def txInputs (s : Regs) (i : Inputs) : Tx.Inputs := ⟨(txPkt s).isSome,(txPkt s).getD noBeat,i.txReady⟩

def step (s : Regs) (i : Inputs) : Regs where
  rx := Rx.step s.rx (rxInputs s i)
  tx := Tx.step s.tx (txInputs s i)
  sliceValid := (sliceNext s i).1
  slice := (sliceNext s i).2
  cpu := cpuNext s i
  host := hostNext s i

def machine : Machine Regs Inputs Outputs where
  output s _ := {
    memAReady := memAReady s
    memDRdata := s.cpu.respData
    memDValid := s.cpu.respValid
    hostMemAAddr := s.host.currAddr
    hostMemAWdata := s.host.writeData
    hostMemAWe := s.host.info.we
    hostMemASize := s.host.info.size
    hostMemAValid := memAPhase s
    hostMemDReady := memDPhase s
    txData := Tx.txByte s.tx
    txValid := Tx.txValid s.tx
    rxReady := !s.rx.outValid}
  next := step

/- What crosses the interfaces in one cycle: transactions of the host on the bus, their
answers, and host responses accepted by TX. -/
inductive HostEvent where
  | issue (addr : BitVec 32) (size : BitVec 2) (wdata : Option (BitVec 32))
  | answer (rdata : BitVec 32)
  | respond (beat : Beat)
  deriving DecidableEq, Repr

def issued (s : Regs) (i : Inputs) : List HostEvent :=
  if hostAHandshake s i then
    [.issue s.host.currAddr s.host.info.size (if s.host.info.we then some s.host.writeData else none)]
  else []

def answered (s : Regs) (i : Inputs) : List (BitVec 32) :=
  if hostDHandshake s i then [i.hostMemDRdata] else []

def events (s : Regs) (i : Inputs) : List HostEvent :=
  issued s i ++ (answered s i).map .answer ++ ((txBeat s).filter (!·.req)).map .respond

end RiscvSoc.HostBus.Interface
