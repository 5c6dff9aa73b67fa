import RiscvSoc.Host.TransmitStream
import RiscvSoc.Host.ReceiveFrame
import RiscvSoc.Rtl.HostBusRxStream
import RiscvSoc.Rtl.HostBusTxStream

/-! The Rust handler and the RTL agree about the wire format in both directions. -/
namespace RiscvSoc.Link
open LittleEndian (Byte byteAt word chunks chunksFlatten chunksWidth chunksLength bytesAt)
open RiscvSoc.HostBus (Meta Beat header frame dataBeats)
open RiscvSoc.Host (AccessSize BusRequest BusResponse Word Handler)
open RiscvSoc.Host.Handler (Packet)
open Mealy Machine

def metaOf (we : Bool) (size : AccessSize) (srcFixed dstFixed : Bool) (burstLen addr : Word) : Meta where
  we := we
  size := size.toSizeCode.setWidth 2
  srcFixed := srcFixed
  dstFixed := dstFixed
  burstLenM1 := (burstLen - 1).setWidth 16
  baseAddr := addr

def info : Packet → Meta
  | .request r => metaOf r.we r.size r.srcFixed r.dstFixed r.burstLen r.addr
  | .response r => metaOf r.we r.size r.srcFixed r.dstFixed r.burstLen r.addr

def wireType : Packet → BitVec 4
  | .request _ => 0b0010
  | .response _ => 0b0001

def payloadChunks : Packet → List (List Byte)
  | .request r => if r.we then chunks r.size.byteCount r.burstLen.toNat r.data else []
  | .response r => if r.we then [] else chunks r.size.byteCount r.burstLen.toNat r.data

def onWire (p : Packet) : HostBus.Rx.Packet := ⟨wireType p,info p,payloadChunks p⟩

def beats (p : Packet) : List Beat := (onWire p).beats

theorem ctrl0Packed : ∀ (size : AccessSize) (src dst : Bool) (packetType : BitVec 4),
    packetType = 0b0010 ∨ packetType = 0b0001 →
    (((packetType.setWidth 8 : Byte) &&& 0x0F) <<< 4) ||| ((size.toSizeCode &&& 0x03) <<< 2) |||
      ((BitVec.ofBool src).setWidth 8 <<< 1) ||| (BitVec.ofBool dst).setWidth 8 =
    packetType ++ (size.toSizeCode.setWidth 2 : BitVec 2) ++ BitVec.ofBool src ++ BitVec.ofBool dst := by
  intro size src dst packetType known
  rcases known with rfl | rfl <;> cases size <;> revert src dst <;> decide

theorem lenM1Bytes {burstLen : Word} (range : Host.Handler.BurstInRange burstLen) :
    LittleEndian.bytes 2 (if burstLen = 0 then 0 else burstLen - 1).toNat =
      [byteAt ((burstLen - 1).setWidth 16) 0,byteAt ((burstLen - 1).setWidth 16) 1] ∧
    ((burstLen - 1).setWidth 16).toNat + 1 = burstLen.toNat := by
  obtain ⟨positive,small⟩ := range
  have nonzero : burstLen ≠ 0 := by
    rintro rfl
    exact absurd positive (by decide)
  have less : (burstLen - 1).toNat = burstLen.toNat - 1 := by
    rw [BitVec.toNat_sub]
    simp only [BitVec.reduceToNat]
    omega
  have narrow : ((burstLen - 1).setWidth 16).toNat = burstLen.toNat - 1 := by
    rw [BitVec.toNat_setWidth,less]
    simp only [Host.maxBurstBeats] at small
    omega
  refine ⟨?_,by omega⟩
  rw [if_neg nonzero,less,← narrow,bytesAt]
  rfl

theorem encoded (size we src dst addr data) {burstLen} (range : Host.Handler.BurstInRange burstLen)
    (packetType : BitVec 4) (known : packetType = 0b0010 ∨ packetType = 0b0001) :
    Host.Handler.encodePacket (packetType.setWidth 8) size we src dst burstLen addr data =
      frame packetType (metaOf we size src dst burstLen addr) data := by
  have addrBytes : LittleEndian.bytes 4 addr.toNat =
      [byteAt addr 0,byteAt addr 1,byteAt addr 2,byteAt addr 3] := by
    rw [bytesAt]
    rfl
  simp only [Host.Handler.encodePacket,ctrl0Packed size src dst packetType known,(lenM1Bytes range).1,
    addrBytes]
  rfl

theorem sizeBytes (size : AccessSize) :
    (HostBus.beatBytes (size.toSizeCode.setWidth 2)).toNat = size.byteCount := by
  cases size <;> rfl

theorem chunked {carries size burstLen data} (sized : Packet.Sized carries size burstLen data)
    (carried : carries = true) (we src dst addr) :
    HostBus.Rx.Chunked (metaOf we size src dst burstLen addr) (chunks size.byteCount burstLen.toNat data) ∧
      (chunks size.byteCount burstLen.toNat data).flatten = data := by
  have length := sized.length
  rw [carried,if_pos rfl] at length
  refine ⟨⟨?_,?_⟩,chunksFlatten length⟩
  · rw [chunksLength]
    exact (lenM1Bytes sized.burst).2.symm
  · intro chunk mem
    exact (chunksWidth length chunk mem).trans (sizeBytes size).symm

theorem packetFrame {p : Packet} (fits : p.Fits) :
    p.bytes = (onWire p).bytes ∧
      if HostBus.Rx.carries (wireType p) (info p).we then HostBus.Rx.Chunked (info p) (payloadChunks p)
      else payloadChunks p = [] := by
  cases p with
  | request r =>
    have bytes := encoded r.size r.we r.srcFixed r.dstFixed r.addr r.data fits.burst 0b0010 (.inl rfl)
    cases write : r.we with
    | false =>
      have empty : r.data = [] := List.length_eq_zero_iff.mp (by simpa [write] using fits.length)
      refine ⟨bytes.trans ?_,?_⟩ <;> simp [onWire,HostBus.Rx.Packet.bytes,wireType,info,payloadChunks,metaOf,write,empty,
          HostBus.Rx.carries]
    | true =>
      obtain ⟨whole,flat⟩ := chunked fits write r.we r.srcFixed r.dstFixed r.addr
      refine ⟨bytes.trans ?_,?_⟩
      · simp [onWire,HostBus.Rx.Packet.bytes,wireType,info,payloadChunks,write,flat]
      · simpa [wireType,info,payloadChunks,write,HostBus.Rx.carries,metaOf] using whole
  | response r =>
    have bytes := encoded r.size r.we r.srcFixed r.dstFixed r.addr r.data fits.burst 0b0001 (.inr rfl)
    cases write : r.we with
    | true =>
      have empty : r.data = [] := List.length_eq_zero_iff.mp (by simpa [write] using fits.length)
      refine ⟨bytes.trans ?_,?_⟩ <;> simp [onWire,HostBus.Rx.Packet.bytes,wireType,info,payloadChunks,metaOf,write,empty,
          HostBus.Rx.carries]
    | false =>
      obtain ⟨whole,flat⟩ := chunked fits (by simp [write]) r.we r.srcFixed r.dstFixed r.addr
      refine ⟨bytes.trans ?_,?_⟩
      · simp [onWire,HostBus.Rx.Packet.bytes,wireType,info,payloadChunks,write,flat]
      · simpa [wireType,info,payloadChunks,write,HostBus.Rx.carries,metaOf] using whole

theorem sizeKnown (size : AccessSize) : (size.toSizeCode.setWidth 2 : BitVec 2) ≠ 0b11 := by
  cases size <;> decide

theorem packetKind (p : Packet) :
    (wireType p = 0b0001 ∨ wireType p = 0b0010) ∧ (info p).size ≠ 0b11 := by
  cases p with
  | request r => exact ⟨.inr rfl,sizeKnown r.size⟩
  | response r => exact ⟨.inl rfl,sizeKnown r.size⟩

theorem packetValid {p : Packet} (fits : p.Fits) : (onWire p).Valid :=
  ⟨(packetKind p).1,(packetKind p).2,(packetFrame fits).2⟩

theorem packetsBytes {packets : List Packet} (fits : ∀ p ∈ packets, p.Fits) :
    packets.flatMap Packet.bytes = (packets.map onWire).flatMap HostBus.Rx.Packet.bytes := by
  induction packets with
  | nil => rfl
  | cons p rest ih =>
    rw [List.flatMap_cons,List.map_cons,List.flatMap_cons,(packetFrame (fits p (by simp))).1,
      ih fun q mem => fits q (List.mem_cons_of_mem _ mem)]

def accessSize (size : BitVec 2) : AccessSize := if size = 0 then .byte else if size = 1 then .halfword else .word

def requestOf (info : Meta) (payload : List Byte) : BusRequest where
  addr := info.baseAddr
  wdata := Host.Handler.extractFirstWord payload
  we := info.we
  size := accessSize info.size
  burstLen := info.burstLenM1.setWidth 32 + 1
  srcFixed := info.srcFixed
  dstFixed := info.dstFixed
  data := payload

def responseOf (info : Meta) (payload : List Byte) : BusResponse where
  rdata := if info.we then 0 else Host.Handler.extractFirstWord payload
  size := accessSize info.size
  we := info.we
  addr := info.baseAddr
  burstLen := info.burstLenM1.setWidth 32 + 1
  srcFixed := info.srcFixed
  dstFixed := info.dstFixed
  data := payload

def answersMeta (request : BusRequest) (info : Meta) : Bool :=
  request.we == info.we && request.size == accessSize info.size && request.addr == info.baseAddr &&
    request.burstLen == info.burstLenM1.setWidth 32 + 1 && request.srcFixed == info.srcFixed &&
    request.dstFixed == info.dstFixed

theorem accessSizeCode : ∀ size : BitVec 2, size ≠ 0b11 →
    (AccessSize.fromU8 (size.setWidth 8)).getD .byte = accessSize size ∧
    Host.Handler.bytesForSize (size.setWidth 8) = (HostBus.beatBytes size).toNat := by decide

theorem burstLenNat (burstLenM1 : BitVec 16) :
    (burstLenM1.setWidth 32 + 1 : Word).toNat = burstLenM1.toNat + 1 := by
  have bound := burstLenM1.isLt
  rw [BitVec.toNat_add,BitVec.toNat_setWidth]
  simp only [BitVec.reduceToNat]
  omega

def payloadOf (req : Bool) (info : Meta) (words : List (BitVec 32)) : List Byte :=
  if req = info.we then words.flatMap (HostBus.Tx.beatWord (HostBus.beatBytes info.size).toNat) else []

theorem wordsLength (n : Nat) (words : List (BitVec 32)) :
    (words.flatMap (HostBus.Tx.beatWord n)).length = n * words.length := by
  induction words with
  | nil => rfl
  | cons word rest ih =>
    simp only [List.flatMap_cons,List.length_append,ih,HostBus.Tx.beatWord,List.length_map,
      List.length_range,List.length_cons,Nat.mul_succ]
    omega

theorem payloadExpected {req info words} (size : info.size ≠ 0b11)
    (count : words.length = if req = info.we then info.burstLenM1.toNat + 1 else 1) :
    (payloadOf req info words).length =
      Host.Handler.expectedPayloadLen ((HostBus.Tx.typeOf req).setWidth 8) info.we (info.size.setWidth 8)
        (info.burstLenM1.setWidth 32 + 1) := by
  have width := (accessSizeCode info.size size).2
  have length := wordsLength (HostBus.beatBytes info.size).toNat words
  simp only [Host.Handler.expectedPayloadLen,width,burstLenNat]
  cases req <;> cases we : info.we <;>
    simp_all [payloadOf,HostBus.Tx.typeOf,Host.Handler.isRequestType,Host.Handler.isResponseType]

/- RTL to host: the frame of a packet is parsed whole and fills the slot of its type, unless it
answers another request than the outstanding one. -/
structure Stored (h t : Handler) (req : Bool) (info : Meta) (payload : List Byte) : Prop where
  idle : t.rxState = .idle
  parsed : t.rxPacketType = (HostBus.Tx.typeOf req).setWidth 8 ∧ t.rxTempWe = info.we ∧
    t.rxTempSize = info.size.setWidth 8 ∧ t.rxTempSrcFixed = info.srcFixed ∧
    t.rxTempDstFixed = info.dstFixed ∧ t.rxTempBurstLen = info.burstLenM1.setWidth 32 + 1 ∧
    t.rxAddrAccumulator = info.baseAddr
  request : t.incomingRequest = if req then ⟨true,some (requestOf info payload)⟩ else h.incomingRequest
  response : t.outgoingResponse =
    if req || h.outgoingRequest.any (fun request => !answersMeta request info) then h.outgoingResponse
    else ⟨true,some (responseOf info payload)⟩

theorem frameStored {h : Handler} (reachable : Host.Handler.Reachable h) (idle : h.rxState = .idle)
    (request : h.incomingRequest.valid = false) (response : h.outgoingResponse.valid = false)
    {req info words} (size : info.size ≠ 0b11)
    (count : words.length = if req = info.we then info.burstLenM1.toNat + 1 else 1) :
    ∃ t, Host.Handler.Takes h (frame (HostBus.Tx.typeOf req) info (payloadOf req info words)) t ∧
      Stored h t req info (payloadOf req info words) := by
  have empty := (Host.Handler.reachableWellFormed reachable).boundary (by simp [idle])
  have known : HostBus.Tx.typeOf req = 0b0000 ∨ HostBus.Tx.typeOf req = 0b0011 := by
    cases req
    · exact .inr rfl
    · exact .inl rfl
  refine ⟨_,Host.Handler.takesFrame idle empty request response known size (payloadExpected size count),
    rfl,⟨rfl,rfl,rfl,rfl,rfl,rfl,rfl⟩,?_,?_⟩
  · have same : ({h.headed (HostBus.Tx.typeOf req) info with
        rxPayload := payloadOf req info words} : Handler).rxRequest = requestOf info (payloadOf req info words) := by
      simp [Host.Handler.rxRequest,Host.Handler.rxSize,Host.Handler.headed,requestOf,
        (accessSizeCode info.size size).1]
    simp only [Host.Handler.stored,same]
    cases req <;> rfl
  · cases req with
    | true => rfl
    | false =>
      have same : ({h.headed (HostBus.Tx.typeOf false) info with
          rxPayload := payloadOf false info words} : Handler).rxResponse =
            responseOf info (payloadOf false info words) := by
        simp only [Host.Handler.rxResponse,Host.Handler.rxSize,Host.Handler.headed,responseOf,
          (accessSizeCode info.size size).1]
        congr 1
        rcases Bool.eq_false_or_eq_true info.we with write | read
        · exact (if_pos write).trans (by simp [payloadOf,write])
        · exact if_neg (by simp [read])
      have answers : ({h.headed (HostBus.Tx.typeOf false) info with
          rxPayload := payloadOf false info words} : Handler).dropped =
            h.outgoingRequest.any fun request => !answersMeta request info := by
        simp only [Host.Handler.dropped,Host.Handler.metadataMatches,Host.Handler.rxSize,
          Host.Handler.headed,(accessSizeCode info.size size).1]
        rfl
      simp only [Host.Handler.stored,same,answers]
      cases h.outgoingRequest.any fun request => !answersMeta request info <;> rfl

/- Every packet a handler accepts reaches `host_bus_rx` as its beats, and every packet given to
`host_bus_tx` reaches a handler with free slots as that packet. -/
theorem wireFormatAgrees :
    (∀ ops : List Host.Handler.Op,
      let packets := Host.Handler.machine.history Host.Handler.startedPackets .new ops
      (∀ p ∈ packets, p ∈ Host.Handler.machine.history Host.Handler.acceptedPackets .new ops) ∧
      ∀ (s : HostBus.Rx.Regs) (inputs : List HostBus.Rx.Inputs) (rest : List Byte),
        HostBus.Rx.machine.history HostBus.Rx.taken (HostBus.Rx.reset s) inputs ++ rest =
          Host.Handler.machine.history Host.Handler.emitted .new ops ++
            (Host.Handler.machine.final .new ops).pendingTx →
        ∃ later, HostBus.Rx.machine.history HostBus.Rx.delivered (HostBus.Rx.reset s) inputs ++
            (HostBus.Rx.machine.final (HostBus.Rx.reset s) inputs).waiting ++ later =
              packets.flatMap beats ∧
          (rest = [] → later = [] ∧
            (HostBus.Rx.machine.final (HostBus.Rx.reset s) inputs).state = .idle)) ∧
    (∀ (ops : List Host.Handler.Op) (op : Host.Handler.Op) (n : Nat),
      let t := Host.Handler.machine.final .new (ops ++ [op])
      t.toTransmit.length ≤ n →
      (∀ p ∈ (Host.Handler.machine.final .new ops).acceptedPackets op,
        p ∈ Host.Handler.machine.history Host.Handler.startedPackets t (List.replicate n .tx)) ∧
      (Host.Handler.machine.final t (List.replicate n .tx)).pendingTx = []) ∧
    ∀ (s : HostBus.Tx.Regs) (before inputs : List HostBus.Tx.Inputs) (req : Bool) (info : Meta)
      (words : List (BitVec 32)) (h : Handler),
      let start := HostBus.Tx.machine.final (HostBus.Tx.reset s) before
      start.state = .idle → info.size ≠ 0b11 →
      words.length = (if req = info.we then info.burstLenM1.toNat + 1 else 1) →
      HostBus.Tx.machine.history HostBus.Tx.accepted start inputs = dataBeats req info true words →
      HostBus.Tx.txValid (HostBus.Tx.machine.final start inputs) = false →
      Host.Handler.Reachable h → h.rxState = .idle → h.incomingRequest.valid = false →
      h.outgoingResponse.valid = false →
      let bytes := HostBus.Tx.machine.history HostBus.Tx.emitted start inputs
      (∀ out ∈ Host.Handler.machine.outputs h (bytes.map .rx), out = .done) ∧
      Stored h (Host.Handler.machine.final h (bytes.map .rx)) req info (payloadOf req info words) := by
  refine ⟨?_,?_,?_⟩
  · intro ops packets
    have started := Host.Handler.startedFits ops
    refine ⟨fun p mem => (started p mem).1,?_⟩
    intro s inputs rest bytes
    have stream := Host.Handler.transmitStream .new ops
    have empty : (Handler.new).pendingTx = [] := rfl
    rw [empty,List.nil_append] at stream
    rw [stream,packetsBytes fun p mem => (started p mem).2] at bytes
    have delivered := HostBus.Rx.packetsDelivered _ (by
      intro q mem
      obtain ⟨p,sent,rfl⟩ := List.mem_map.mp mem
      exact packetValid (started p sent).2) s inputs rest bytes
    rwa [List.flatMap_map] at delivered
  · intro ops op n t enough
    obtain ⟨starts,drained⟩ := Host.Handler.transmitDrains n enough
    refine ⟨?_,drained⟩
    intro p mem
    rw [starts]
    have ok := @invariant _ _ _ Host.Handler.machine Host.Handler.QueueOk
      (fun _ op ok => Host.Handler.applyQueueOk ok op) _ Host.Handler.newQueueOk ops
    have same : t = ((Host.Handler.machine.final .new ops).apply op).2 := finalAppend ..
    rw [same]
    refine (Host.Handler.applyQueue ok ?_).2.2 p mem
    rintro rfl
    simp [Host.Handler.acceptedPackets] at mem
  · intro s before inputs req info words h start idle size count packet quiet reachable idle' request response
    have ok := (HostBus.Tx.stream (HostBus.Tx.resetConsistent s) before).2.2
    obtain ⟨emitted,_⟩ := HostBus.Tx.packetEmitted ok idle packet count quiet
    obtain ⟨t,takes,stored⟩ := frameStored reachable idle' request response size count
    obtain ⟨final,done⟩ := Host.Handler.takesRun takes
    simp only
    rw [emitted]
    exact ⟨done,final.symm ▸ stored⟩

def writeTwo : BusRequest := ⟨0x1000,0,true,.halfword,2,false,false,[0x34,0x12,0x78,0x56]⟩
def writeTwoOps : List Host.Handler.Op := .send writeTwo :: List.replicate 12 .tx
def writeTwoInputs : List HostBus.Rx.Inputs :=
  (Host.Handler.requestPacket writeTwo).flatMap fun byte => [⟨byte,true,true⟩,⟨byte,false,true⟩]

def readAnswer : Beat := ⟨true,true,false,⟨false,2,false,false,0,0x1000⟩,0xDEADBEEF⟩
def readAnswerInputs : List HostBus.Tx.Inputs := ⟨true,readAnswer,true⟩ :: List.replicate 12 ⟨false,readAnswer,true⟩

/- A write burst to the RTL and a read response from it. -/
theorem wireFormatExchanged :
    HostBus.Rx.machine.history HostBus.Rx.delivered (HostBus.Rx.reset .powerOn) writeTwoInputs =
      dataBeats true ⟨true,1,false,false,1,0x1000⟩ true [0x1234,0x5678] ∧
    writeTwo ∈ (Host.Handler.machine.history Host.Handler.startedPackets
      (Host.Handler.machine.final .new [.send writeTwo]) (List.replicate 12 .tx)).filterMap
        (fun p => match p with
          | .request r => some r
          | .response _ => none) ∧
    Stored .new (Host.Handler.machine.final .new
      ((HostBus.Tx.machine.history HostBus.Tx.emitted (HostBus.Tx.reset .powerOn) readAnswerInputs).map .rx))
      false readAnswer.info [0xEF,0xBE,0xAD,0xDE] := by
  obtain ⟨toRtl,queued,toHost⟩ := wireFormatAgrees
  refine ⟨?_,?_,?_⟩
  · obtain ⟨later,all,done⟩ := (toRtl writeTwoOps).2 .powerOn writeTwoInputs [] (by decide +kernel)
    have waiting : (HostBus.Rx.machine.final (HostBus.Rx.reset .powerOn) writeTwoInputs).waiting = [] := by
      decide +kernel
    rw [(done rfl).1,waiting,List.append_nil,List.append_nil] at all
    exact all.trans (by decide +kernel)
  · obtain ⟨starts,_⟩ := queued [] (.send writeTwo) 12 (by decide +kernel)
    have started := starts (.request writeTwo) (by decide +kernel)
    exact List.mem_filterMap.mpr ⟨_,started,rfl⟩
  · exact (toHost .powerOn [] readAnswerInputs false readAnswer.info [0xDEADBEEF] .new rfl (by decide) rfl
      (by decide +kernel) (by decide +kernel) ⟨[],rfl⟩ rfl rfl rfl).2

end RiscvSoc.Link
