import RiscvSoc.Lib.Mealy
import RiscvSoc.Host.Request

/-! `HostBusHandler`: the byte-at-a-time packet parser, the packet encoder and the slots
between them. A method that returns an error still returns the handler it leaves behind. -/
namespace RiscvSoc.Host
open LittleEndian (Byte)
open Mealy

inductive RxState where
  | idle
  | ctrl1
  | len0
  | len1
  | addr (byteIdx : Nat)
  | payload (remaining : Nat)
  deriving DecidableEq, Repr

structure IncomingRequest where
  valid : Bool
  request : Option BusRequest
  deriving DecidableEq, Repr

structure IncomingResponse where
  valid : Bool
  response : Option BusResponse
  deriving DecidableEq, Repr

structure Handler where
  rxState : RxState
  rxPacketType : Byte
  rxTempWe : Bool
  rxTempSize : Byte
  rxTempSrcFixed : Bool
  rxTempDstFixed : Bool
  rxTempBurstLen : Word
  rxAddrAccumulator : Word
  rxPayload : List Byte
  outgoingResponse : IncomingResponse
  incomingRequest : IncomingRequest
  acceptedRequest : Option BusRequest
  txBuffer : List Byte
  txIndex : Nat
  outgoingRequest : Option BusRequest
  outgoingRequestTxStarted : Bool
  pendingResponse : Option BusResponse
  deriving DecidableEq, Repr

namespace Handler

/- `new`, which is also what `reset` leaves. -/
def new : Handler where
  rxState := .idle
  rxPacketType := 0
  rxTempWe := false
  rxTempSize := 0
  rxTempSrcFixed := false
  rxTempDstFixed := false
  rxTempBurstLen := 1
  rxAddrAccumulator := 0
  rxPayload := []
  outgoingResponse := ⟨false,none⟩
  incomingRequest := ⟨false,none⟩
  acceptedRequest := none
  txBuffer := []
  txIndex := 0
  outgoingRequest := none
  outgoingRequestTxStarted := false
  pendingResponse := none

def canAcceptRx (h : Handler) : Bool :=
  if h.rxState ≠ .idle then true
  else !h.outgoingResponse.valid || !h.incomingRequest.valid

def bytesForSize (size : Byte) : Nat :=
  if size = 0 then 1 else if size = 1 then 2 else 4

/- Types 0 and 2 are requests, 1 and 3 responses. -/
def isRequestType (packetType : Byte) : Bool := packetType == 0x00 || packetType == 0x02
def isResponseType (packetType : Byte) : Bool := packetType == 0x01 || packetType == 0x03

def expectedPayloadLen (packetType : Byte) (we : Bool) (size : Byte) (burstLen : Word) : Nat :=
  let bytes := bytesForSize size * burstLen.toNat
  if isRequestType packetType && we then bytes
  else if isResponseType packetType && !we then bytes
  else 0

/- A short payload is padded with zero bytes, which add nothing to the value. -/
def extractFirstWord (payload : List Byte) : Word :=
  BitVec.ofNat 32 (LittleEndian.value (payload.take 4))

def rxSize (h : Handler) : AccessSize := (AccessSize.fromU8 h.rxTempSize).getD .byte

/- The request and the response `finalize_rx_packet` builds from what was parsed. -/
def rxRequest (h : Handler) : BusRequest where
  addr := h.rxAddrAccumulator
  wdata := extractFirstWord h.rxPayload
  we := h.rxTempWe
  size := h.rxSize
  burstLen := h.rxTempBurstLen
  srcFixed := h.rxTempSrcFixed
  dstFixed := h.rxTempDstFixed
  data := h.rxPayload

def rxResponse (h : Handler) : BusResponse where
  rdata := if h.rxTempWe then 0 else extractFirstWord h.rxPayload
  size := h.rxSize
  we := h.rxTempWe
  addr := h.rxAddrAccumulator
  burstLen := h.rxTempBurstLen
  srcFixed := h.rxTempSrcFixed
  dstFixed := h.rxTempDstFixed
  data := if h.rxTempWe then [] else h.rxPayload

def metadataMatches (h : Handler) (request : BusRequest) : Bool :=
  request.we == h.rxTempWe && request.size == h.rxSize && request.addr == h.rxAddrAccumulator &&
    request.burstLen == h.rxTempBurstLen && request.srcFixed == h.rxTempSrcFixed &&
    request.dstFixed == h.rxTempDstFixed

def finalizeRxPacket (h : Handler) : Except HandlerError Unit × Handler :=
  if isRequestType h.rxPacketType then
    if h.incomingRequest.valid then (.error .bufferFull,h)
    else (.ok (),{h with incomingRequest := ⟨true,some h.rxRequest⟩, rxPayload := []})
  else if isResponseType h.rxPacketType then
    if h.outgoingResponse.valid then (.error .bufferFull,h)
    else if h.rxPacketType == 0x03 && h.outgoingRequest.any (fun r => !h.metadataMatches r) then
      (.ok (),{h with rxPayload := []})
    else (.ok (),{h with outgoingResponse := ⟨true,some h.rxResponse⟩, rxPayload := []})
  else (.ok (),{h with rxPayload := []})

/- What `finalize_rx_packet` can do with the packet just parsed. -/
inductive Finalize (h : Handler) : Except HandlerError Unit → Handler → Prop where
  | requestFull (kind : isRequestType h.rxPacketType = true) (full : h.incomingRequest.valid = true) :
      Finalize h (.error .bufferFull) h
  | request (kind : isRequestType h.rxPacketType = true) (room : h.incomingRequest.valid = false) :
      Finalize h (.ok ()) {h with incomingRequest := ⟨true,some h.rxRequest⟩, rxPayload := []}
  | responseFull (other : isRequestType h.rxPacketType = false)
      (kind : isResponseType h.rxPacketType = true) (full : h.outgoingResponse.valid = true) :
      Finalize h (.error .bufferFull) h
  | mismatched {request} (type : h.rxPacketType = 0x03) (room : h.outgoingResponse.valid = false)
      (out : h.outgoingRequest = some request) (differs : h.metadataMatches request = false) :
      Finalize h (.ok ()) {h with rxPayload := []}
  | response (other : isRequestType h.rxPacketType = false)
      (kind : isResponseType h.rxPacketType = true) (room : h.outgoingResponse.valid = false)
      (answers : h.rxPacketType = 0x03 →
        ∀ request, h.outgoingRequest = some request → h.metadataMatches request = true) :
      Finalize h (.ok ()) {h with outgoingResponse := ⟨true,some h.rxResponse⟩, rxPayload := []}
  | unknown (other : isRequestType h.rxPacketType = false)
      (unknown : isResponseType h.rxPacketType = false) : Finalize h (.ok ()) {h with rxPayload := []}

theorem finalizeSpec (h : Handler) : ∃ result t, h.finalizeRxPacket = (result,t) ∧ Finalize h result t := by
  refine ⟨_,_,rfl,?_⟩
  simp only
  cases request : isRequestType h.rxPacketType with
  | true =>
    cases room : h.incomingRequest.valid with
    | true => exact .requestFull request room
    | false => exact .request request room
  | false =>
    cases response : isResponseType h.rxPacketType with
    | false => exact .unknown request response
    | true =>
      cases room : h.outgoingResponse.valid with
      | true => exact .responseFull request response room
      | false =>
        simp only [Bool.false_eq_true,if_false,if_true]
        split
        · rename_i mismatch
          simp only [Bool.and_eq_true,beq_iff_eq,Option.any_eq_true,Bool.not_eq_true'] at mismatch
          obtain ⟨type,out,sent,differs⟩ := mismatch
          exact .mismatched type room sent differs
        · rename_i matching
          refine .response request response room fun type out sent => ?_
          cases same : h.metadataMatches out with
          | true => rfl
          | false => exact absurd (by simp [type,sent,same]) matching

/- `self.finalize_rx_packet()?; self.rx_state = RxState::Idle`. -/
def finishPacket (h : Handler) : Except HandlerError Unit × Handler :=
  match h.finalizeRxPacket with
  | (.error e,h) => (.error e,h)
  | (.ok _,h) => (.ok (),{h with rxState := .idle})

def saturatingSucc (x : Word) : Word := if x = BitVec.allOnes 32 then x else x + 1

def takeCtrl0 (h : Handler) (byte : Byte) : Handler :=
  let packetType := (byte >>> 4) &&& 0x0F
  let size := (byte >>> 2) &&& 0x03
  if packetType > 0x03 ∨ size = 0x03 then h
  else {h with
    rxPacketType := packetType
    rxTempSize := size
    rxTempSrcFixed := (byte >>> 1) &&& 0x01 != 0
    rxTempDstFixed := byte &&& 0x01 != 0
    rxState := .ctrl1}

def takeCtrl1 (h : Handler) (byte : Byte) : Handler :=
  if byte &&& 0xFE ≠ 0 then {h with rxState := .idle}
  else {h with rxTempWe := byte &&& 0x01 != 0, rxState := .len0}

def takeLen1 (h : Handler) (byte : Byte) : Handler :=
  let burstLen := saturatingSucc (h.rxTempBurstLen ||| byte.setWidth 32 <<< 8)
  if burstLen = 0 then {h with rxTempBurstLen := burstLen, rxState := .idle}
  else {h with rxTempBurstLen := burstLen, rxAddrAccumulator := 0, rxState := .addr 0}

def accumulate (h : Handler) (byteIdx : Nat) (byte : Byte) : Handler :=
  {h with rxAddrAccumulator := h.rxAddrAccumulator ||| byte.setWidth 32 <<< (byteIdx * 8)}

def takeAddr (h : Handler) (byteIdx : Nat) (byte : Byte) : Except HandlerError Unit × Handler :=
  let h := h.accumulate byteIdx byte
  if byteIdx = 3 then
    let payloadLen := expectedPayloadLen h.rxPacketType h.rxTempWe h.rxTempSize h.rxTempBurstLen
    if payloadLen = 0 then h.finishPacket
    else (.ok (),{h with rxPayload := [], rxState := .payload payloadLen})
  else (.ok (),{h with rxState := .addr (byteIdx + 1)})

def push (h : Handler) (byte : Byte) : Handler := {h with rxPayload := h.rxPayload ++ [byte]}

def takePayload (h : Handler) (remaining : Nat) (byte : Byte) : Except HandlerError Unit × Handler :=
  let h := h.push byte
  if remaining = 1 then h.finishPacket
  else (.ok (),{h with rxState := .payload (remaining - 1)})

def transferRxByte (h : Handler) (byte : Byte) : Except HandlerError Unit × Handler :=
  if !h.canAcceptRx then (.error .bufferFull,h)
  else match h.rxState with
    | .idle => (.ok (),h.takeCtrl0 byte)
    | .ctrl1 => (.ok (),h.takeCtrl1 byte)
    | .len0 => (.ok (),{h with rxTempBurstLen := byte.setWidth 32, rxState := .len1})
    | .len1 => (.ok (),h.takeLen1 byte)
    | .addr byteIdx => h.takeAddr byteIdx byte
    | .payload remaining => h.takePayload remaining byte

def encodePacket (packetType : Byte) (size : AccessSize) (we srcFixed dstFixed : Bool)
    (burstLen addr : Word) (payload : List Byte) : List Byte :=
  let ctrl0 := ((packetType &&& 0x0F) <<< 4) ||| ((size.toSizeCode &&& 0x03) <<< 2) |||
    ((BitVec.ofBool srcFixed).setWidth 8 <<< 1) ||| (BitVec.ofBool dstFixed).setWidth 8
  let lenM1 := if burstLen = 0 then 0 else burstLen - 1
  ctrl0 :: (BitVec.ofBool we).setWidth 8 ::
    (LittleEndian.bytes 2 lenM1.toNat ++ LittleEndian.bytes 4 addr.toNat ++ payload)

def responsePacket (r : BusResponse) : List Byte :=
  encodePacket 0x01 r.size r.we r.srcFixed r.dstFixed r.burstLen r.addr r.data

def requestPacket (r : BusRequest) : List Byte :=
  encodePacket 0x02 r.size r.we r.srcFixed r.dstFixed r.burstLen r.addr r.data

def startTxPacket (h : Handler) : Option Handler :=
  match h.acceptedRequest, h.pendingResponse with
  | some _, some response => some {h with
      pendingResponse := none
      txBuffer := responsePacket response
      acceptedRequest := none}
  | _, _ =>
    match h.outgoingRequest with
    | some request =>
      if h.outgoingRequestTxStarted then none
      else some {h with txBuffer := requestPacket request, outgoingRequestTxStarted := true}
    | none => none

def takeTxByte (h : Handler) : Option Byte × Handler :=
  match h.txBuffer[h.txIndex]? with
  | none => (none,h)
  | some byte =>
    if h.txIndex + 1 ≥ h.txBuffer.length then (some byte,{h with txBuffer := [], txIndex := 0})
    else (some byte,{h with txIndex := h.txIndex + 1})

def transferTxByte (h : Handler) : Option Byte × Handler :=
  if h.txIndex ≥ h.txBuffer.length then
    let cleared := {h with txBuffer := [], txIndex := 0}
    match cleared.startTxPacket with
    | none => (none,cleared)
    | some started => started.takeTxByte
  else h.takeTxByte

def pendingTx (h : Handler) : List Byte := h.txBuffer.drop h.txIndex

inductive Transmit (h : Handler) : Option Byte → Handler → Prop where
  | idle (sent : h.pendingTx = [])
      (nothing : ({h with txBuffer := [], txIndex := 0} : Handler).startTxPacket = none) :
      Transmit h none {h with txBuffer := [], txIndex := 0}
  | next {byte rest buffer index} (current : h.pendingTx = byte :: rest)
      (left : buffer.drop index = rest) :
      Transmit h (some byte) {h with txBuffer := buffer, txIndex := index}
  | response {accepted response byte rest buffer index} (sent : h.pendingTx = [])
      (taken : h.acceptedRequest = some accepted) (queued : h.pendingResponse = some response)
      (packet : responsePacket response = byte :: rest) (left : buffer.drop index = rest) :
      Transmit h (some byte) {h with
        acceptedRequest := none
        pendingResponse := none
        txBuffer := buffer
        txIndex := index}
  | request {request byte rest buffer index} (sent : h.pendingTx = [])
      (unqueued : h.acceptedRequest = none ∨ h.pendingResponse = none)
      (out : h.outgoingRequest = some request) (fresh : h.outgoingRequestTxStarted = false)
      (packet : requestPacket request = byte :: rest) (left : buffer.drop index = rest) :
      Transmit h (some byte) {h with
        outgoingRequestTxStarted := true
        txBuffer := buffer
        txIndex := index}

theorem takeSpec {h : Handler} {byte rest} (current : h.pendingTx = byte :: rest) :
    ∃ buffer index, h.takeTxByte = (some byte,{h with txBuffer := buffer, txIndex := index}) ∧
      buffer.drop index = rest := by
  have found : h.txBuffer[h.txIndex]? = some byte := by
    have head := congrArg List.head? current
    simpa [pendingTx,List.head?_drop] using head
  have tail : h.txBuffer.drop (h.txIndex + 1) = rest := by
    have tail := congrArg List.tail current
    simpa [pendingTx,List.tail_drop] using tail
  simp only [takeTxByte,found]
  split
  · rename_i last
    refine ⟨[],0,rfl,?_⟩
    rw [← tail,List.drop_eq_nil_of_le last]
    rfl
  · exact ⟨h.txBuffer,h.txIndex + 1,rfl,tail⟩

theorem packetNonempty (packetType size we srcFixed dstFixed burstLen addr payload) :
    ∃ byte rest, encodePacket packetType size we srcFixed dstFixed burstLen addr payload = byte :: rest :=
  ⟨_,_,rfl⟩

theorem startSpec {h t : Handler} (sent : h.pendingTx = [])
    (started : ({h with txBuffer := [], txIndex := 0} : Handler).startTxPacket = some t) :
    ∃ out u, t.takeTxByte = (out,u) ∧ Transmit h out u := by
  simp only [startTxPacket] at started
  split at started
  · rename_i accepted response taken queued
    cases Option.some.inj started
    obtain ⟨byte,rest,packet⟩ : ∃ byte rest, responsePacket response = byte :: rest :=
      packetNonempty ..
    obtain ⟨buffer,index,same,left⟩ := takeSpec (h := {h with
      pendingResponse := none, txBuffer := responsePacket response, txIndex := 0,
      acceptedRequest := none}) packet
    exact ⟨_,_,same,.response sent taken queued packet left⟩
  · rename_i unqueued
    split at started
    · rename_i request out
      split at started
      · contradiction
      · rename_i fresh
        cases Option.some.inj started
        obtain ⟨byte,rest,packet⟩ : ∃ byte rest, requestPacket request = byte :: rest :=
          packetNonempty ..
        obtain ⟨buffer,index,same,left⟩ := takeSpec (h := {h with
          txBuffer := requestPacket request, txIndex := 0, outgoingRequestTxStarted := true}) packet
        refine ⟨_,_,same,.request sent ?_ out (by simpa using fresh) packet left⟩
        cases taken : h.acceptedRequest with
        | none => exact .inl rfl
        | some accepted =>
          cases queued : h.pendingResponse with
          | none => exact .inr rfl
          | some response => exact (unqueued accepted response taken queued).elim
    · contradiction

theorem transmitSpec (h : Handler) : ∃ out t, h.transferTxByte = (out,t) ∧ Transmit h out t := by
  by_cases empty : h.txIndex ≥ h.txBuffer.length
  · have sent : h.pendingTx = [] := List.drop_eq_nil_of_le empty
    cases started : ({h with txBuffer := [], txIndex := 0} : Handler).startTxPacket with
    | none => exact ⟨_,_,by simp only [transferTxByte,if_pos empty,started],.idle sent started⟩
    | some t =>
      obtain ⟨out,u,same,spec⟩ := startSpec sent started
      exact ⟨out,u,by simp only [transferTxByte,if_pos empty,started,same],spec⟩
  · have inside : h.txIndex < h.txBuffer.length := by omega
    have current : h.pendingTx = h.txBuffer[h.txIndex] :: h.txBuffer.drop (h.txIndex + 1) :=
      List.drop_eq_getElem_cons inside
    obtain ⟨buffer,index,same,left⟩ := takeSpec current
    exact ⟨_,_,by simp only [transferTxByte,if_neg empty,same],.next current left⟩

def hasTxData (h : Handler) : Bool :=
  h.txIndex < h.txBuffer.length || (h.acceptedRequest.isSome && h.pendingResponse.isSome) ||
    (h.outgoingRequest.isSome && !h.outgoingRequestTxStarted)

/- The checks of `send_request` after the pending one, in its order. -/
def requestFault (request : BusRequest) : Option HandlerError :=
  if request.burstLen = 0 ∨ request.burstLen.toNat > maxBurstBeats then some .invalidBurstConfig
  else if request.we ∧ request.data.length ≠ request.size.byteCount * request.burstLen.toNat then
    some .invalidBurstConfig
  else if ¬ request.we ∧ request.data ≠ [] then some .invalidBurstConfig
  else if classifyRequestRegion request ≠ .rtlPeripheral then some .invalidAddressRange
  else none

def sendRequest (h : Handler) (request : BusRequest) : Except HandlerError Unit × Handler :=
  if h.outgoingRequest.isSome then (.error .requestPending,h)
  else match requestFault request with
    | some e => (.error e,h)
    | none => (.ok (),{h with outgoingRequest := some request})

def receiveResponse (h : Handler) : Option BusResponse × Handler :=
  if !h.outgoingResponse.valid then (none,h)
  else if h.outgoingRequest.isNone ∧ h.acceptedRequest.isNone then (none,h)
  else (h.outgoingResponse.response,{h with
    outgoingRequest := none
    outgoingRequestTxStarted := false
    outgoingResponse := ⟨false,none⟩})

def acceptRequest (h : Handler) : Except HandlerError BusRequest × Handler :=
  if !h.incomingRequest.valid || h.acceptedRequest.isSome then (.error .noRequestAvailable,h)
  else match h.incomingRequest.request with
    | none => (.error .noRequestAvailable,h)
    | some request => (.ok request,{h with
        acceptedRequest := some request
        incomingRequest := ⟨false,none⟩})

/- A response with address 0 takes the metadata of the accepted request. -/
def fillMetadata (response : BusResponse) (accepted : BusRequest) : BusResponse :=
  if response.addr = 0 then {response with
    addr := accepted.addr
    burstLen := accepted.burstLen
    srcFixed := accepted.srcFixed
    dstFixed := accepted.dstFixed}
  else response

def echoes (response : BusResponse) (accepted : BusRequest) : Bool :=
  response.we == accepted.we && response.size == accepted.size && response.addr == accepted.addr &&
    response.burstLen == accepted.burstLen && response.srcFixed == accepted.srcFixed &&
    response.dstFixed == accepted.dstFixed

def completionFault (response : BusResponse) (accepted : BusRequest) : Option HandlerError :=
  let expectedDataLen := if accepted.we then 0 else accepted.size.byteCount * accepted.burstLen.toNat
  if !echoes response accepted then some .invalidBurstConfig
  else if response.data.length ≠ expectedDataLen then some .invalidBurstConfig
  else none

def completeRequest (h : Handler) (response : BusResponse) : Except HandlerError Unit × Handler :=
  match h.acceptedRequest with
  | none => (.error .noOutstandingRequest,h)
  | some accepted =>
    match completionFault (fillMetadata response accepted) accepted with
    | some e => (.error e,h)
    | none => (.ok (),{h with pendingResponse := some (fillMetadata response accepted)})

def hasPendingOutgoingRequest (h : Handler) : Bool := h.outgoingRequest.isSome
def hasIncomingRequest (h : Handler) : Bool := h.incomingRequest.valid && h.acceptedRequest.isNone
def isWaitingForCompletion (h : Handler) : Bool :=
  h.acceptedRequest.isSome && h.pendingResponse.isNone

/- The public methods as the inputs of one machine. -/
inductive Op where
  | rx (byte : Byte)
  | tx
  | send (request : BusRequest)
  | receive
  | accept
  | complete (response : BusResponse)
  | query
  deriving DecidableEq, Repr

inductive Outcome where
  | done
  | failed (e : HandlerError)
  | sent (byte : Option Byte)
  | response (response : Option BusResponse)
  | accepted (request : BusRequest)
  | status (canAcceptRx hasTxData hasPendingOutgoingRequest hasIncomingRequest
      isWaitingForCompletion : Bool)
  deriving DecidableEq, Repr

def Outcome.ofResult {α : Type} (ok : α → Outcome) : Except HandlerError α → Outcome
  | .ok a => ok a
  | .error e => .failed e

def apply (h : Handler) : Op → Outcome × Handler
  | .rx byte => (h.transferRxByte byte).map (.ofResult fun _ => .done) id
  | .tx => h.transferTxByte.map .sent id
  | .send request => (h.sendRequest request).map (.ofResult fun _ => .done) id
  | .receive => h.receiveResponse.map .response id
  | .accept => h.acceptRequest.map (.ofResult .accepted) id
  | .complete response => (h.completeRequest response).map (.ofResult fun _ => .done) id
  | .query => (.status h.canAcceptRx h.hasTxData h.hasPendingOutgoingRequest h.hasIncomingRequest
      h.isWaitingForCompletion,h)

def machine : Machine Handler Op Outcome where
  output h op := (h.apply op).1
  next h op := (h.apply op).2

def Reachable (h : Handler) : Prop := ∃ ops, h = machine.final new ops

end Handler
end RiscvSoc.Host
