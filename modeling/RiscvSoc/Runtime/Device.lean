import RiscvSoc.Host.HandlerInvariant

/-! What the simulator runtime and the FPGA runtime share: the route of a host request, the events
and errors, the pending slot, and the responses and beats of the requests to the system bus. -/
namespace RiscvSoc.Runtime
open LittleEndian (Byte)
open Host

inductive HostRequestRoute where
  | hostBusHandler
  | systemBus
  | invalidSpanningRegion
  deriving DecidableEq, Repr

def classifyHostRequestRoute (request : BusRequest) : HostRequestRoute :=
  if (requestEndAddr request).isNone then .invalidSpanningRegion
  else match classifyRequestRegion request with
    | .rtlPeripheral => .hostBusHandler
    | .nonRtl => .systemBus
    | .spansRtlBoundary => .invalidSpanningRegion

inductive ErrorKind where
  | brokenPipe
  | connectionReset
  | connectionAborted
  | notConnected
  | permissionDenied
  | invalidInput
  | invalidData
  | timedOut
  | other
  deriving DecidableEq, Repr

inductive DeviceError where
  | ioError (kind : ErrorKind) (message : String)
  | handlerError (e : HandlerError)
  deriving DecidableEq, Repr

namespace DeviceError

def isFatal : DeviceError → Bool
  | .ioError kind _ => kind ∈ [.brokenPipe,.connectionReset,.connectionAborted,.notConnected,.permissionDenied]
  | .handlerError _ => false

end DeviceError

inductive BusEvent where
  | read (addr : Word) (size : Byte) (data : Word) (isDram : Bool)
  | write (addr : Word) (size : Byte) (data : Word) (isDram : Bool)
  | hostReadResponse (addr data : Word) (size : AccessSize) (burstData : List Byte)
  | hostWriteResponse (addr wdata : Word) (size : AccessSize)
  | hostRequestTimeout (addr : Word) (timeout : Nat)
  | tohostTermination (value : Word)
  deriving DecidableEq, Repr

/- `NonFatalError` is sent by the FPGA runtime only. -/
inductive RuntimeEvent where
  | bus (event : BusEvent)
  | fatalError (message : String)
  | nonFatalError (message : String)
  deriving DecidableEq, Repr

/- `PendingHostRequest`; instants and durations are in milliseconds. -/
structure Pending where
  number : Nat
  addr : Word
  wdata : Word
  sentAt : Nat
  timeout : Nat
  deriving DecidableEq, Repr

def responseEvent (p : Pending) (response : BusResponse) : RuntimeEvent :=
  .bus (if response.we then .hostWriteResponse p.addr p.wdata response.size
    else .hostReadResponse p.addr response.rdata response.size response.data)

def writeAck (size : AccessSize) : BusResponse := ⟨0,size,true,0,1,false,false,[]⟩

def readData (data : Word) (size : AccessSize) : BusResponse :=
  ⟨data,size,false,0,1,false,false,(LittleEndian.bytes 4 data.toNat).take size.byteCount⟩

def burstReadData (addr : Word) (size : AccessSize) (burstLen : Word) (srcFixed dstFixed : Bool)
    (data : List Byte) : BusResponse :=
  let first := if size.byteCount ≤ data.length then data.take size.byteCount else []
  ⟨LittleEndian.word 32 first,size,false,addr,burstLen,srcFixed,dstFixed,data⟩

/- The devices behind a `SystemBus`, as far as the runtimes use them. -/
structure Bus (β : Type) where
  read : β → Word → AccessSize → Word × β
  write : β → Word → AccessSize → Word → β
  clockCycleAllDevices : β → β
  resetAllDevices : β → β
  acknowledgeTermination : β → Option Word × β

section SystemBus
variable {β : Type} (devices : Bus β)

def beatAddr (addr : Word) (fixed : Bool) (size : AccessSize) (beatIdx : Nat) : Word :=
  if fixed then addr else addr + BitVec.ofNat 32 (beatIdx * size.byteCount)

/- The word a beat of a host write stores: its bytes, else `wdata` for the first beat. -/
def beatWdata (request : BusRequest) (beatIdx : Nat) : Word :=
  let byteOffset := beatIdx * request.size.byteCount
  if request.data.length ≥ byteOffset + request.size.byteCount then
    BitVec.ofNat 32 (LittleEndian.value ((request.data.drop byteOffset).take request.size.byteCount))
  else if beatIdx = 0 then request.wdata
  else 0

def beats (request : BusRequest) : Nat := max request.burstLen.toNat 1

def writeBeats (request : BusRequest) (bus : β) : β :=
  (List.range (beats request)).foldl (fun bus beatIdx =>
    devices.write bus (beatAddr request.addr request.dstFixed request.size beatIdx) request.size
      (beatWdata request beatIdx)) bus

def readBeats (request : BusRequest) (bus : β) : List Byte × β :=
  (List.range (beats request)).foldl (fun (data,bus) beatIdx =>
    let (rdata,bus) := devices.read bus (beatAddr request.addr request.srcFixed request.size beatIdx) request.size
    (data ++ (LittleEndian.bytes 4 rdata.toNat).take request.size.byteCount,bus)) ([],bus)

def serveCpu (request : BusRequest) (bus : β) : BusResponse × Word × β :=
  if request.we then
    (writeAck request.size,request.wdata,devices.write bus request.addr request.size request.wdata)
  else
    let (rdata,bus) := devices.read bus request.addr request.size
    (readData rdata request.size,rdata,bus)

end SystemBus

end RiscvSoc.Runtime
