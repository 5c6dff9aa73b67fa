import RiscvSoc.Host.Handler
import RiscvSoc.Rtl.MemInterface
import RiscvSoc.Rtl.SystemReset

/-! `Simulator` in `sim_core.rs`: the RTL and `HostBusHandler` in one process, a byte each way in a
cycle. The system bus is any value with the operations below. -/
namespace RiscvSoc.Sim
open LittleEndian (Byte)
open Mealy
open RiscvSoc.HostBus
open RiscvSoc.Host (AccessSize BusRequest BusResponse Handler HandlerError Word)

/- `SystemBus` as the simulator uses it. -/
structure Bus (β : Type) where
  read : β → Word → AccessSize → Word × β
  write : β → Word → Word → AccessSize → β
  clockCycleAllDevices : β → β

inductive Panic where
  | protocolViolation (e : HandlerError)
  | completeRequest (e : HandlerError)
  deriving DecidableEq, Repr

structure PendingResponse where
  response : BusResponse
  acceptedCycle : Nat
  deriving DecidableEq, Repr

/- `hostRxValid` and `hostRxData` are the inputs of the RTL that the simulator drives. -/
structure State (β : Type) where
  rtl : Interface.Regs
  reset : SystemReset.Regs
  handler : Handler
  hostRxValid : Bool
  hostRxData : Byte
  pendingResponse : Option PendingResponse
  directResponse : Option BusResponse
  cycleCount : Nat
  bus : β
  panicked : Option Panic

/- What the rest of the design does in a cycle: the CPU's request, the bus that serves the host's
transactions, and the write that the system controller accepts. -/
structure Env where
  request : Option Cpu.Request
  memDReady : Bool
  hostMemAReady : Bool
  hostMemDRdata : Word
  hostMemDValid : Bool
  sysctrlWrite : Option SystemReset.Write
  deriving DecidableEq, Repr

def Env.captured (e : Env) : Option Cpu.Request := e.request.filter fun r => r.reachable && r.toHost

def writeAck (size : AccessSize) : BusResponse := ⟨0,size,true,0,1,false,false,[]⟩

def readData (data : Word) (size : AccessSize) : BusResponse :=
  ⟨data,size,false,0,1,false,false,LittleEndian.bytes size.byteCount data.toNat⟩

variable {β : Type} (ops : Bus β) (latency resetCycles : Nat)

/- `perform_read` and `perform_write`: a read gives the bytes of its size, a write takes them. -/
def perform (b : β) (request : BusRequest) : BusResponse × β :=
  if request.we then (writeAck request.size,ops.write b request.addr request.wdata request.size)
  else ((readData (ops.read b request.addr request.size).1 request.size),(ops.read b request.addr request.size).2)

def passTxByte (s : State β) : State β :=
  if Tx.txValid s.rtl.tx then
    match s.handler.transferRxByte (Tx.txByte s.rtl.tx) with
    | (.ok _,h) => {s with handler := h}
    | (.error e,h) => {s with handler := h, panicked := some (.protocolViolation e)}
  else s

def offerRxByte (s : State β) : State β :=
  if s.rtl.rx.outValid then {s with hostRxValid := false}
  else match s.handler.transferTxByte with
    | (some byte,h) => {s with handler := h, hostRxData := byte, hostRxValid := true}
    | (none,h) => {s with handler := h, hostRxValid := false}

def complete (s : State β) (response : BusResponse) : State β :=
  match s.handler.completeRequest response with
  | (.ok _,h) => {s with handler := h}
  | (.error e,h) => {s with handler := h, panicked := some (.completeRequest e)}

def completePending (s : State β) : State β :=
  match s.pendingResponse with
  | none => s
  | some pending =>
    if s.cycleCount ≥ pending.acceptedCycle + latency then
      {complete s pending.response with pendingResponse := none}
    else s

def acceptIncoming (s : State β) : State β :=
  if s.pendingResponse.isSome then s
  else match s.handler.acceptRequest with
    | (.error _,h) => {s with handler := h}
    | (.ok request,h) =>
      let (response,bus) := perform ops s.bus request
      let s := {s with handler := h, bus := bus}
      if latency > 0 then {s with pendingResponse := some ⟨response,s.cycleCount⟩}
      else complete s response

/- A panic unwinds past the steps that are left. -/
def unlessPanicked (f : State β → State β) (s : State β) : State β := if s.panicked.isSome then s else f s

def handleHostBusInterface (s : State β) : State β :=
  unlessPanicked (acceptIncoming ops latency) (unlessPanicked (completePending latency)
    (unlessPanicked offerRxByte (unlessPanicked passTxByte s)))

def noAccess : Cpu.Access := ⟨0,0,false,0⟩

/- `host_tx_ready` is always 1. -/
def inputs (s : State β) (e : Env) : Interface.Inputs :=
  let access := (e.captured.map (·.access)).getD noAccess
  { memAAddr := access.addr
    memAWdata := access.wdata
    memAWe := access.we
    memASize := access.size
    memAValid := e.captured.isSome
    memDReady := e.memDReady
    hostMemAReady := e.hostMemAReady
    hostMemDRdata := e.hostMemDRdata
    hostMemDValid := e.hostMemDValid
    txReady := true
    rxData := s.hostRxData
    rxValid := s.hostRxValid }

def clockEdge (e : Env) (s : State β) : State β :=
  {s with
    rtl := if s.reset.rstOut then Interface.reset s.rtl else Interface.step s.rtl (inputs s e)
    reset := SystemReset.step resetCycles s.reset e.sysctrlWrite
    cycleCount := s.cycleCount + 1
    bus := ops.clockCycleAllDevices s.bus}

def stepCycle (e : Env) (s : State β) : State β :=
  unlessPanicked (clockEdge ops resetCycles e) (handleHostBusInterface ops latency s)

def beatWord (request : BusRequest) (i : Nat) : Word :=
  let n := request.size.byteCount
  if request.data.length ≥ i * n + n then LittleEndian.word 32 ((request.data.drop (i * n)).take n)
  else if i = 0 then request.wdata
  else 0

def beatAddr (request : BusRequest) (i : Nat) : Word :=
  if (if request.we then request.dstFixed else request.srcFixed) then request.addr
  else request.addr + BitVec.ofNat 32 (i * request.size.byteCount)

def directWrite (b : β) (request : BusRequest) (beats : Nat) : β :=
  (List.range beats).foldl (fun b i => ops.write b (beatAddr request i) (beatWord request i) request.size) b

def directRead (b : β) (request : BusRequest) (beats : Nat) : List Byte × β :=
  (List.range beats).foldl (fun (data,b) i =>
    let (rdata,b) := ops.read b (beatAddr request i) request.size
    (data ++ LittleEndian.bytes request.size.byteCount rdata.toNat,b)) ([],b)

def direct (b : β) (request : BusRequest) : BusResponse × β :=
  let beats := max request.burstLen.toNat 1
  if request.we then
    ({writeAck request.size with
      addr := request.addr
      burstLen := request.burstLen
      srcFixed := request.srcFixed
      dstFixed := request.dstFixed},directWrite ops b request beats)
  else
    let (data,b) := directRead ops b request beats
    ({rdata := Host.Handler.extractFirstWord (data.take request.size.byteCount)
      size := request.size
      we := false
      addr := request.addr
      burstLen := request.burstLen
      srcFixed := request.srcFixed
      dstFixed := request.dstFixed
      data := data},b)

def sendBusRequest (s : State β) (request : BusRequest) : Except HandlerError Unit × State β :=
  if (Host.requestEndAddr request).isNone then (.error .invalidAddressRange,s)
  else if s.handler.hasPendingOutgoingRequest || s.directResponse.isSome then (.error .requestPending,s)
  else match Host.classifyRequestRegion request with
    | .rtlPeripheral =>
      match s.handler.sendRequest request with
      | (result,h) => (result,{s with handler := h})
    | .nonRtl =>
      let (response,bus) := direct ops s.bus request
      (.ok (),{s with directResponse := some response, bus := bus})
    | .spansRtlBoundary => (.error .invalidAddressRange,s)

def receiveBusResponse (s : State β) : Option BusResponse × State β :=
  match s.directResponse with
  | some response => (some response,{s with directResponse := none})
  | none =>
    match s.handler.receiveResponse with
    | (response,h) => (response,{s with handler := h})

inductive Action where
  | cycle (env : Env)
  | send (request : BusRequest)
  | receive
  deriving DecidableEq, Repr

inductive Outcome where
  | done
  | sent (result : Except HandlerError Unit)
  | received (response : Option BusResponse)

def next (s : State β) : Action → State β
  | .cycle e => stepCycle ops latency resetCycles e s
  | .send request => (sendBusRequest ops s request).2
  | .receive => (receiveBusResponse s).2

def machine : Machine (State β) Action Outcome where
  output s
    | .cycle _ => .done
    | .send request => .sent (sendBusRequest ops s request).1
    | .receive => .received (receiveBusResponse s).1
  next := next ops latency resetCycles

/- After the reset, with the RTL registers that have no reset in any state. -/
def start (registers : Interface.Regs) (bus : β) : State β where
  rtl := Interface.reset registers
  reset := .running resetCycles
  handler := .new
  hostRxValid := false
  hostRxData := 0
  pendingResponse := none
  directResponse := none
  cycleCount := 0
  bus := bus
  panicked := none

end RiscvSoc.Sim
