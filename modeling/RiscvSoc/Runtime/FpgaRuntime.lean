import RiscvSoc.Devices.SystemContext
import RiscvSoc.Runtime.DirectRequests
import RiscvSoc.Runtime.FpgaBuffers

/-! The background thread of `fpga.rs`: `poll_once`, the commands and the two resets. Instants and durations are in
milliseconds; between the steps the caller may fill the pending slot. -/
namespace RiscvSoc.Runtime
open LittleEndian (Byte)
open Host
open Mealy Machine

def HandlerError.debug : HandlerError → String
  | .bufferFull => "BufferFull"
  | .requestPending => "RequestPending"
  | .noDataAvailable => "NoDataAvailable"
  | .noRequestAvailable => "NoRequestAvailable"
  | .noOutstandingRequest => "NoOutstandingRequest"
  | .invalidAddressRange => "InvalidAddressRange"
  | .invalidBurstConfig => "InvalidBurstConfig"

def DeviceError.display : DeviceError → String
  | .ioError _ message => "I/O error: " ++ message
  | .handlerError e => "Handler error: " ++ HandlerError.debug e

namespace Fpga

structure PendingHostRequest where
  addr : Word
  wdata : Word
  sentAt : Nat
  timeout : Nat
  deriving DecidableEq, Repr

/- `resetting` says that the loop of a CPU reset runs, `ended` that the thread has left its loop. -/
structure State (β : Type) where
  serial : Serial
  pending : Option PendingHostRequest
  bus : β
  events : List RuntimeEvent
  resetting : Bool
  ended : Bool

/- One call of `poll_once`: when it looks at the clock, what its drain loop gets when a request has timed out, and
what the port does otherwise. -/
structure Poll where
  now : Nat
  drained : List Byte
  read : Read
  written : Written
  deriving DecidableEq, Repr

def sysctrlResetAddr : Word := 0x20000000 + 0x04
def sysctrlResetSystem : Word := 0
def sysctrlResetCpu : Word := 1

def resetRequest (resetValue : Word) : BusRequest := .write sysctrlResetAddr resetValue .word

def Serial.discard (s : Serial) (drained : List Byte) : Serial where
  port := {s.port with received := s.port.received ++ drained}
  handler := .new
  rxBuffer := {s.rxBuffer with len := 0}
  txBuffer := {s.txBuffer with len := 0}

def PendingHostRequest.event (p : PendingHostRequest) (response : BusResponse) : BusEvent :=
  if response.we then .hostWriteResponse p.addr p.wdata response.size
  else .hostReadResponse p.addr response.rdata response.size response.data

def cpuEvent (request : BusRequest) (data : Word) : BusEvent :=
  let isDram := Devices.isValidDramRange request.addr (BitVec.ofNat 32 request.size.byteCount)
  if request.we then .write request.addr request.size.toSizeCode data isDram
  else .read request.addr request.size.toSizeCode data isDram

namespace State
variable {β : Type} (devices : Bus β) (s : State β)

def expired (now : Nat) : Option PendingHostRequest := s.pending.filter fun p => now - p.sentAt > p.timeout

def withHandler (h : Handler) : State β := {s with serial := {s.serial with handler := h}}

def tick (event : Option BusEvent) : Option BusEvent × State β :=
  let (value,bus) := devices.acknowledgeTermination (devices.clockCycleAllDevices s.bus)
  match value with
  | some value => (some (.tohostTermination value),{s with bus := bus})
  | none => (event,{s with bus := bus})

/- A request of the CPU, when one is there and can be accepted. -/
def serve : Option BusEvent × State β :=
  if s.serial.handler.hasIncomingRequest then
    match s.serial.handler.acceptRequest with
    | (.ok request,h) =>
      let (response,data,bus) := serveCpu devices request s.bus
      {s.withHandler (h.completeRequest response).2 with bus := bus}.tick devices (some (cpuEvent request data))
    | (.error _,h) => (s.withHandler h).tick devices none
  else s.tick devices none

/- After the transfer: the response to the pending request, else a request of the CPU. -/
def complete : Option BusEvent × State β :=
  match s.pending with
  | none => s.serve devices
  | some p => match s.serial.handler.receiveResponse with
    | (some response,h) => (some (p.event response),{s.withHandler h with pending := none})
    | (none,h) => (s.withHandler h).serve devices

def pollOnce (i : Poll) : Except DeviceError (Option BusEvent) × State β :=
  match s.expired i.now with
  | some p => (.ok (some (.hostRequestTimeout p.addr p.timeout)),{s with serial := s.serial.discard i.drained, pending := none})
  | none => match s.serial.transfer i.read i.written with
    | (.error e,serial) => (.error e,{s with serial := serial})
    | (.ok _,serial) =>
      let (event,s) := {s with serial := serial}.complete devices
      (.ok event,s)

def send (event : RuntimeEvent) : State β := {s with events := s.events ++ [event]}

def report : Except DeviceError (Option BusEvent) → State β
  | .ok none => s
  | .ok (some event) => s.send (.bus event)
  | .error e =>
    if e.isFatal then {s.send (.fatalError e.display) with ended := true} else s.send (.nonFatalError e.display)

def perform (request : BusRequest) : State β :=
  match classifyHostRequestRoute request with
  | .hostBusHandler => match s.serial.handler.sendRequest request with
    | (.ok _,h) => s.withHandler h
    | (.error e,h) => ({s.withHandler h with pending := none}).send (.nonFatalError (DeviceError.handlerError e).display)
  | .systemBus => match processSystemBusRequest devices request s.bus with
    | .error _ => {s with ended := true}
    | .ok (event,bus) =>
      if s.pending.isSome then ({s with bus := bus, pending := none}).send (.bus event) else {s with bus := bus}
  | .invalidSpanningRegion =>
    ({s with pending := none}).send (.nonFatalError "Invalid host request spanning RTL and non-RTL regions")

def handleResetCpu (sentAt timeout : Nat) : Except DeviceError Unit × State β :=
  let request := resetRequest sysctrlResetCpu
  match s.serial.handler.sendRequest request with
  | (.error e,h) => (.error (.handlerError e),{s.withHandler h with pending := none})
  | (.ok _,h) =>
    (.ok (),{s.withHandler h with pending := some ⟨request.addr,request.wdata,sentAt,timeout⟩, resetting := true})

def resetTurn : Except DeviceError (Option BusEvent) → State β
  | .error _ => {s with resetting := false}
  | .ok none => s
  | .ok (some event) => match event with
    | .hostWriteResponse addr _ _ | .hostRequestTimeout addr _ =>
      if addr = sysctrlResetAddr then {s with resetting := false} else s.send (.bus event)
    | _ => s.send (.bus event)

/- `handle_reset_command` for the system: `drained` is what the port still gives at its end. -/
def handleResetSystem (i : Poll) (drained : List Byte) : Except DeviceError Unit × State β :=
  match s.serial.handler.sendRequest (resetRequest sysctrlResetSystem) with
  | (.error e,h) => (.error (.handlerError e),s.withHandler h)
  | (.ok _,h) => match (s.withHandler h).pollOnce devices i with
    | (.error e,s) => (.error e,s)
    | (.ok event,s) =>
      let s := match event with
        | some event => s.send (.bus event)
        | none => s
      (.ok (),{s with
        serial := s.serial.discard drained
        pending := none
        bus := devices.resetAllDevices s.bus})

end State

/- What the thread does next, or the caller with the pending slot. -/
inductive Step where
  | claim (p : PendingHostRequest)
  | command (request : BusRequest)
  | poll (i : Poll)
  | resetCpu (sentAt timeout : Nat)
  | resetSystem (i : Poll) (drained : List Byte)
  | shutdown
  deriving DecidableEq, Repr

variable {β : Type} (devices : Bus β)

def State.next (s : State β) : Step → State β
  | .claim p => if s.pending.isSome then s else {s with pending := some p}
  | .command request => if s.ended || s.resetting then s else s.perform devices request
  | .poll i =>
    if s.ended then s
    else
      let (result,t) := s.pollOnce devices i
      if s.resetting then t.resetTurn result else t.report result
  | .resetCpu sentAt timeout => if s.ended || s.resetting then s else (s.handleResetCpu sentAt timeout).2
  | .resetSystem i drained => if s.ended || s.resetting then s else (s.handleResetSystem devices i drained).2
  | .shutdown => if s.resetting then s else {s with ended := true}

def machine : Machine (State β) Step Unit := ⟨fun _ _ => (),State.next devices⟩

def State.new (bus : β) : State β :=
  ⟨⟨⟨[],[]⟩,.new,.new,.new⟩,none,devices.resetAllDevices bus,[],false,false⟩

end Fpga
end RiscvSoc.Runtime
