import RiscvSoc.Host.HandlerInvariant

/-! A byte refused with BufferFull and offered again. What a refused offer leaves behind
is compared with the handler that never saw it, over every continuation in which that
byte is the next one offered. -/
namespace RiscvSoc.Host.Handler
open LittleEndian (Byte)
open Mealy Machine

/- The fields only the parser reads and writes, `can_accept_rx` apart. -/
structure Parser where
  state : RxState
  packetType : Byte
  we : Bool
  size : Byte
  srcFixed : Bool
  dstFixed : Bool
  burstLen : Word
  acc : Word
  payload : List Byte

def parser (h : Handler) : Parser where
  state := h.rxState
  packetType := h.rxPacketType
  we := h.rxTempWe
  size := h.rxTempSize
  srcFixed := h.rxTempSrcFixed
  dstFixed := h.rxTempDstFixed
  burstLen := h.rxTempBurstLen
  acc := h.rxAddrAccumulator
  payload := h.rxPayload

def withParser (h : Handler) (p : Parser) : Handler :=
  {h with
    rxState := p.state
    rxPacketType := p.packetType
    rxTempWe := p.we
    rxTempSize := p.size
    rxTempSrcFixed := p.srcFixed
    rxTempDstFixed := p.dstFixed
    rxTempBurstLen := p.burstLen
    rxAddrAccumulator := p.acc
    rxPayload := p.payload}

theorem startHidden (h : Handler) (p : Parser) :
    (h.withParser p).startTxPacket = h.startTxPacket.map (·.withParser p) := by
  cases taken : h.acceptedRequest <;> cases ready : h.pendingResponse <;>
    cases out : h.outgoingRequest <;> cases started : h.outgoingRequestTxStarted <;>
    simp [startTxPacket,withParser,taken,ready,out,started]

theorem takeHidden (h : Handler) (p : Parser) :
    (h.withParser p).takeTxByte = (h.takeTxByte.1,h.takeTxByte.2.withParser p) := by
  cases here : h.txBuffer[h.txIndex]? with
  | none => simp [takeTxByte,withParser,here]
  | some byte =>
    by_cases last : h.txIndex + 1 ≥ h.txBuffer.length <;>
      simp [takeTxByte,withParser,here,last]

theorem transmitHidden (h : Handler) (p : Parser) :
    (h.withParser p).transferTxByte =
      (h.transferTxByte.1,h.transferTxByte.2.withParser p) := by
  by_cases empty : h.txIndex ≥ h.txBuffer.length
  · have started := startHidden {h with txBuffer := [], txIndex := 0} p
    simp only [withParser] at started
    cases next : ({h with txBuffer := [], txIndex := 0} : Handler).startTxPacket with
    | none =>
      rw [next] at started
      simp [transferTxByte,withParser,empty,next,started]
    | some t =>
      rw [next] at started
      simpa [transferTxByte,withParser,empty,next,started] using takeHidden t p
  · simpa [transferTxByte,withParser,empty] using takeHidden h p

theorem sendHidden (h : Handler) (p : Parser) (request : BusRequest) :
    (h.withParser p).sendRequest request =
      ((h.sendRequest request).1,(h.sendRequest request).2.withParser p) := by
  cases out : h.outgoingRequest <;> cases fault : requestFault request <;>
    simp [sendRequest,withParser,out,fault]

theorem receiveHidden (h : Handler) (p : Parser) :
    (h.withParser p).receiveResponse =
      (h.receiveResponse.1,h.receiveResponse.2.withParser p) := by
  cases stored : h.outgoingResponse.valid <;> cases out : h.outgoingRequest <;>
    cases taken : h.acceptedRequest <;> simp [receiveResponse,withParser,stored,out,taken]

theorem acceptHidden (h : Handler) (p : Parser) :
    (h.withParser p).acceptRequest =
      (h.acceptRequest.1,h.acceptRequest.2.withParser p) := by
  cases stored : h.incomingRequest.valid <;> cases taken : h.acceptedRequest <;>
    cases request : h.incomingRequest.request <;>
    simp [acceptRequest,withParser,stored,taken,request]

theorem completeHidden (h : Handler) (p : Parser) (response : BusResponse) :
    (h.withParser p).completeRequest response =
      ((h.completeRequest response).1,(h.completeRequest response).2.withParser p) := by
  cases taken : h.acceptedRequest with
  | none => simp [completeRequest,withParser,taken]
  | some request =>
    cases fault : completionFault (fillMetadata response request) request <;>
      simp [completeRequest,withParser,taken,fault]

def Quiet : Op → Prop
  | .rx _ | .query => False
  | _ => True

theorem parserHidden (h : Handler) (p : Parser) {op} (quiet : Quiet op) :
    (h.withParser p).apply op = ((h.apply op).1,(h.apply op).2.withParser p) := by
  cases op with
  | rx byte => exact quiet.elim
  | query => exact quiet.elim
  | tx => simp [apply,transmitHidden]
  | send request => simp [apply,sendHidden]
  | receive => simp [apply,receiveHidden]
  | accept => simp [apply,acceptHidden]
  | complete response => simp [apply,completeHidden]

theorem parserKept (h : Handler) {op} (quiet : Quiet op) : (h.apply op).2.parser = h.parser := by
  have same : (h.apply op).2 = (h.apply op).2.withParser h.parser :=
    congrArg Prod.snd (parserHidden h h.parser quiet)
  rw [same]
  rfl

theorem accumulateTwice (h : Handler) (i : Nat) (byte : Byte) :
    (h.accumulate i byte).accumulate i byte = h.accumulate i byte := by
  simp [accumulate,BitVec.or_assoc]

def reoffers (byte : Byte) : List Op → Prop
  | [] => True
  | .rx next :: _ => next = byte
  | _ :: rest => reoffers byte rest

def Unseen (h : Handler) (byte : Byte) : Prop :=
  ∀ ops, reoffers byte ops →
    machine.outputs (h.transferRxByte byte).2 ops = machine.outputs h ops

def InPayload (h : Handler) : Prop := ∃ n, h.rxState = .payload n

theorem finishRefused {h : Handler} {e} (full : h.finishPacket.1 = .error e) :
    h.finishPacket = (.error .bufferFull,h) ∧
    (isRequestType h.rxPacketType = true → h.incomingRequest.valid = true) ∧
    (isRequestType h.rxPacketType = false → h.outgoingResponse.valid = true) := by
  obtain ⟨result,t,same,spec⟩ := finalizeSpec h
  simp only [finishPacket,same] at full ⊢
  cases spec with
  | requestFull kind stored => exact ⟨rfl,fun _ => stored,by simp [kind]⟩
  | responseFull other kind stored => exact ⟨rfl,by simp [other],fun _ => stored⟩
  | request | mismatched | response | unknown => simp at full

/- A refused byte: at a packet boundary nothing happens; as the last header byte it is
accumulated; as the last payload byte it has been pushed. -/
theorem refusedCases {h : Handler} {byte} (full : (h.transferRxByte byte).1 = .error .bufferFull) :
    (h.rxState = .idle ∧ (h.transferRxByte byte).2 = h) ∨
    (h.rxState = .addr 3 ∧ (h.transferRxByte byte).2 = h.accumulate 3 byte) ∨
    (h.rxState = .payload 1 ∧ (h.transferRxByte byte).2 = h.push byte) := by
  by_cases room : h.canAcceptRx = true
  · cases state : h.rxState with
    | idle | ctrl1 | len0 | len1 => simp [transferRxByte,room,state] at full
    | addr i =>
      right
      left
      simp only [transferRxByte,room,state,takeAddr,Bool.not_true,Bool.false_eq_true,if_false] at full ⊢
      by_cases last : i = 3
      · subst last
        simp only [if_true] at full ⊢
        split at full
        · rename_i short
          simp [short,(finishRefused full).1]
        · contradiction
      · simp [last] at full
    | payload n =>
      right
      right
      simp only [transferRxByte,room,state,takePayload,Bool.not_true,Bool.false_eq_true,if_false] at full ⊢
      by_cases last : n = 1
      · subst last
        simp only [if_true] at full ⊢
        simp [(finishRefused full).1]
      · simp [last] at full
  · left
    have boundary : h.rxState = .idle := by
      by_cases idle : h.rxState = .idle
      · exact idle
      · simp [canAcceptRx,idle] at room
    exact ⟨boundary,by simp [transferRxByte,room]⟩

def Agree (byte : Byte) (h t : Handler) : Prop :=
  t = h ∨ (h.rxState = .addr 3 ∧ t = h.accumulate 3 byte)

theorem agreeQuiet {byte} {h t : Handler} (agree : Agree byte h t) {op} (quiet : Quiet op) :
    (t.apply op).1 = (h.apply op).1 ∧ Agree byte (h.apply op).2 (t.apply op).2 := by
  rcases agree with rfl | ⟨last,rfl⟩
  · exact ⟨rfl,.inl rfl⟩
  · have kept := parserKept h quiet
    have hidden := parserHidden h (h.accumulate 3 byte).parser quiet
    have same : h.withParser (h.accumulate 3 byte).parser = h.accumulate 3 byte := rfl
    rw [same] at hidden
    rw [hidden]
    refine ⟨rfl,.inr ⟨(congrArg Parser.state kept).trans last,?_⟩⟩
    have acc : (h.apply op).2.rxAddrAccumulator = h.rxAddrAccumulator := congrArg Parser.acc kept
    have parsers : (h.accumulate 3 byte).parser = ((h.apply op).2.accumulate 3 byte).parser := by
      change {h.parser with acc := h.rxAddrAccumulator ||| byte.setWidth 32 <<< (3 * 8)} =
        {(h.apply op).2.parser with
          acc := (h.apply op).2.rxAddrAccumulator ||| byte.setWidth 32 <<< (3 * 8)}
      rw [kept,acc]
    rw [parsers]
    rfl

theorem agreeReoffered {byte} {h t : Handler} (agree : Agree byte h t) :
    t.transferRxByte byte = h.transferRxByte byte := by
  rcases agree with rfl | ⟨last,rfl⟩
  · rfl
  · have before : h.canAcceptRx = true := by simp [canAcceptRx,last]
    have after : (h.accumulate 3 byte).canAcceptRx = true := by simp [canAcceptRx,accumulate,last]
    have same : (h.accumulate 3 byte).rxState = .addr 3 := last
    simp [transferRxByte,before,after,last,same,takeAddr,accumulateTwice]

theorem agreeQuery {byte} {h t : Handler} (agree : Agree byte h t) :
    (t.apply .query).1 = (h.apply .query).1 := by
  rcases agree with rfl | ⟨last,rfl⟩ <;> rfl

theorem opKinds (op : Op) : Quiet op ∨ op = .query ∨ ∃ byte, op = .rx byte := by
  cases op <;> simp [Quiet]

theorem reoffersQuiet {byte op rest} (quiet : Quiet op) :
    reoffers byte (op :: rest) = reoffers byte rest := by
  cases op <;> first | rfl | exact quiet.elim

theorem agreeOutputs {byte} {h t : Handler} (agree : Agree byte h t) {ops}
    (next : reoffers byte ops) : machine.outputs t ops = machine.outputs h ops := by
  induction ops generalizing h t with
  | nil => rfl
  | cons op rest ih =>
    change (t.apply op).1 :: machine.outputs (t.apply op).2 rest =
      (h.apply op).1 :: machine.outputs (h.apply op).2 rest
    rcases opKinds op with quiet | rfl | ⟨other,rfl⟩
    · obtain ⟨same,later⟩ := agreeQuiet agree quiet
      rw [reoffersQuiet quiet] at next
      rw [same,ih later next]
    · rw [agreeQuery agree]
      exact congrArg _ (ih agree next)
    · obtain rfl : other = byte := next
      simp only [apply,agreeReoffered agree]

theorem unseenOutsidePayload {h : Handler} {byte}
    (full : (h.transferRxByte byte).1 = .error .bufferFull) (outside : ¬ InPayload h) :
    Unseen h byte := by
  intro ops next
  refine agreeOutputs ?_ next
  rcases refusedCases full with ⟨_,same⟩ | last | ⟨payload,_⟩
  · exact .inl same
  · exact .inr last
  · exact absurd ⟨1,payload⟩ outside

theorem transmitStaysFree {h : Handler} (free : h.acceptedRequest = none) :
    h.transferTxByte.2.acceptedRequest = none := by
  obtain ⟨out,t,same,spec⟩ := transmitSpec h
  rw [same]
  cases spec <;> first | exact free | rfl

theorem transmitProgress {h : Handler} (queued : h.pendingResponse.isSome = true) :
    h.transferTxByte.2.acceptedRequest = none ∨
      (h.transferTxByte.2.pendingResponse.isSome = true ∧
        h.transferTxByte.2.pendingTx.length + 1 = h.pendingTx.length) := by
  cases taken : h.acceptedRequest with
  | none => exact .inl (transmitStaysFree taken)
  | some accepted =>
    obtain ⟨out,t,same,spec⟩ := transmitSpec h
    rw [same]
    cases spec with
    | idle sent nothing =>
      obtain ⟨response,ready⟩ := Option.isSome_iff_exists.mp queued
      simp [startTxPacket,taken,ready] at nothing
    | @next byte rest buffer index current left =>
      refine .inr ⟨queued,?_⟩
      change (buffer.drop index).length + 1 = h.pendingTx.length
      rw [left,current,List.length_cons]
    | response => exact .inl rfl
    | request sent unqueued =>
      rcases unqueued with free | empty
      · simp [taken] at free
      · simp [empty] at queued

theorem transmitsStayFree (n : Nat) {h : Handler} (free : h.acceptedRequest = none) :
    (machine.final h (List.replicate n .tx)).acceptedRequest = none := by
  induction n generalizing h with
  | zero => exact free
  | succ n ih => exact ih (transmitStaysFree free)

theorem transmitsFree (n : Nat) {h : Handler} (short : h.pendingTx.length ≤ n)
    (queued : h.pendingResponse.isSome = true) :
    (machine.final h (List.replicate (n+1) .tx)).acceptedRequest = none := by
  induction n generalizing h with
  | zero =>
    rcases transmitProgress queued with free | ⟨_,longer⟩
    · exact free
    · omega
  | succ n ih =>
    rcases transmitProgress queued with free | ⟨ready,longer⟩
    · exact transmitsStayFree (n+1) free
    · exact ih (h := h.transferTxByte.2) (by omega) ready

def probe : BusRequest := .read 0 .word

theorem probeSendable : requestFault probe = none := by decide

def answerTo (request : BusRequest) : BusResponse where
  rdata := 0
  size := request.size
  we := request.we
  addr := request.addr
  burstLen := request.burstLen
  srcFixed := request.srcFixed
  dstFixed := request.dstFixed
  data := if request.we then [] else
    List.replicate (request.size.byteCount * request.burstLen.toNat) 0

theorem answerAccepted (request : BusRequest) :
    completionFault (fillMetadata (answerTo request) request) request = none := by
  have filled : fillMetadata (answerTo request) request = answerTo request := by
    simp only [fillMetadata]
    split <;> rfl
  rw [filled]
  cases we : request.we <;> simp [completionFault,echoes,answerTo,we]

def release (h : Handler) : List Op :=
  .complete (answerTo (h.acceptedRequest.getD probe)) ::
    List.replicate (h.pendingTx.length + 1) .tx

theorem releaseFrees (h : Handler) : (machine.final h (release h)).acceptedRequest = none := by
  simp only [release,finalCons]
  change (machine.final (h.completeRequest _).2 _).acceptedRequest = none
  cases taken : h.acceptedRequest with
  | none =>
    simp only [completeRequest,taken]
    exact transmitsStayFree _ taken
  | some request =>
    simp only [completeRequest,taken,Option.getD_some,answerAccepted]
    exact transmitsFree _ (Nat.le_refl _) rfl

theorem quietRelease (h : Handler) : ∀ op ∈ release h, Quiet op := by
  intro op mem
  simp only [release,List.mem_cons,List.mem_replicate] at mem
  rcases mem with rfl | ⟨_,rfl⟩ <;> trivial

theorem transmitsKeepRequest (n : Nat) (h : Handler) :
    (machine.final h (List.replicate n .tx)).incomingRequest = h.incomingRequest := by
  induction n generalizing h with
  | zero => rfl
  | succ n ih =>
    obtain ⟨_,_,_,_,_,same,_⟩ := transmitFrame h
    exact (ih h.transferTxByte.2).trans (by rw [same])

theorem releaseKeepsRequest (h : Handler) :
    (machine.final h (release h)).incomingRequest = h.incomingRequest := by
  obtain ⟨_,same⟩ := completeFrame h (answerTo (h.acceptedRequest.getD probe))
  refine (transmitsKeepRequest _ _).trans ?_
  change (h.completeRequest _).2.incomingRequest = h.incomingRequest
  rw [same]

def takeRequest (h : Handler) : List Op := release h ++ [.accept]

theorem requestTaken {h : Handler} {request} (stored : h.incomingRequest = ⟨true,some request⟩) :
    (machine.outputs h (takeRequest h)).getLast? = some (.accepted request) ∧
    (machine.final h (takeRequest h)).incomingRequest.valid = false := by
  have free := releaseFrees h
  have kept := (releaseKeepsRequest h).trans stored
  have taken : (machine.final h (release h)).acceptRequest =
      (.ok request,{machine.final h (release h) with
        acceptedRequest := some request
        incomingRequest := ⟨false,none⟩}) := by
    simp [acceptRequest,free,kept]
  constructor
  · rw [takeRequest,outputsAppend,outputsCons,outputsNil,List.getLast?_concat]
    exact congrArg (fun r => some (Outcome.ofResult .accepted r.1)) taken
  · rw [takeRequest,finalAppend]
    exact congrArg (fun r => r.2.incomingRequest.valid) taken

def takeResponse : List Op := [.send probe,.receive]

theorem responseTaken {h : Handler} {response}
    (stored : h.outgoingResponse = ⟨true,some response⟩) :
    (machine.outputs h takeResponse).getLast? = some (.response (some response)) ∧
    (machine.final h takeResponse).outgoingResponse.valid = false ∧
    (machine.final h takeResponse).outgoingRequest = none := by
  have pending : (h.sendRequest probe).2.outgoingRequest.isSome = true := by
    cases out : h.outgoingRequest <;> simp [sendRequest,out,probeSendable]
  obtain ⟨out,same⟩ := sendFrame h probe
  have kept : (h.sendRequest probe).2.outgoingResponse = ⟨true,some response⟩ := by
    rw [same]
    exact stored
  have taken : (h.sendRequest probe).2.receiveResponse =
      (some response,{(h.sendRequest probe).2 with
        outgoingRequest := none
        outgoingRequestTxStarted := false
        outgoingResponse := ⟨false,none⟩}) := by
    obtain ⟨request,occupied⟩ := Option.isSome_iff_exists.mp pending
    simp [receiveResponse,kept,occupied]
  refine ⟨?_,?_,?_⟩
  · exact congrArg (fun r => some (Outcome.response r.1)) taken
  · exact congrArg (fun r => r.2.outgoingResponse.valid) taken
  · exact congrArg (fun r => r.2.outgoingRequest) taken

theorem hiddenRun (h : Handler) (p : Parser) {ops} (quiet : ∀ op ∈ ops, Quiet op) :
    machine.final (h.withParser p) ops = (machine.final h ops).withParser p := by
  induction ops generalizing h with
  | nil => rfl
  | cons op rest ih =>
    obtain ⟨first,others⟩ := List.forall_mem_cons.mp quiet
    have step := congrArg Prod.snd (parserHidden h p first)
    change machine.final ((h.withParser p).apply op).2 rest = _
    rw [step]
    exact ih _ others

theorem keptRun (h : Handler) {ops} (quiet : ∀ op ∈ ops, Quiet op) :
    (machine.final h ops).parser = h.parser := by
  have same := hiddenRun h h.parser quiet
  change machine.final h ops = _ at same
  rw [same]
  rfl

theorem payloadRequest {h : Handler} (byte) (last : h.rxState = .payload 1)
    (kind : isRequestType h.rxPacketType = true) (room : h.incomingRequest.valid = false) :
    (h.transferRxByte byte).2 = {h with
      incomingRequest := ⟨true,some (rxRequest (h.push byte))⟩
      rxPayload := []
      rxState := .idle} := by
  simp [transferRxByte,canAcceptRx,last,takePayload,push,finishPacket,finalizeRxPacket,kind,room]

theorem payloadResponse {h : Handler} (byte) (last : h.rxState = .payload 1)
    (other : isRequestType h.rxPacketType = false) (kind : isResponseType h.rxPacketType = true)
    (room : h.outgoingResponse.valid = false) (free : h.outgoingRequest = none) :
    (h.transferRxByte byte).2 = {h with
      outgoingResponse := ⟨true,some (rxResponse (h.push byte))⟩
      rxPayload := []
      rxState := .idle} := by
  simp [transferRxByte,canAcceptRx,last,takePayload,push,finishPacket,finalizeRxPacket,other,kind,room,free]

theorem lastOutput {h : Handler} {before after op out}
    (last : (machine.outputs (machine.final h (before ++ [op])) after).getLast? = some out) :
    (machine.outputs h (before ++ op :: after)).getLast? = some out := by
  have split : before ++ op :: after = (before ++ [op]) ++ after := by simp
  rw [split,outputsAppend,List.getLast?_append,last]
  rfl

theorem reoffersRun {byte ops after} (quiet : ∀ op ∈ ops, Quiet op) :
    reoffers byte (ops ++ .rx byte :: after) := by
  induction ops with
  | nil => rfl
  | cons op rest ih =>
    obtain ⟨first,others⟩ := List.forall_mem_cons.mp quiet
    rw [List.cons_append,reoffersQuiet first]
    exact ih others

theorem quietTakeRequest (h : Handler) : ∀ op ∈ takeRequest h, Quiet op := by
  intro op mem
  rcases List.mem_append.mp mem with inside | last
  · exact quietRelease h op inside
  · cases List.mem_singleton.mp last
    trivial

theorem quietTakeResponse : ∀ op ∈ takeResponse, Quiet op := by
  intro op mem
  simp only [takeResponse,List.mem_cons,List.not_mem_nil,or_false] at mem
  rcases mem with rfl | rfl <;> trivial

theorem seenByRun {h : Handler} {byte p x y} (drain after : List Op) (quiet : ∀ op ∈ drain, Quiet op)
    (pushed : (h.transferRxByte byte).2 = h.withParser p)
    (once : (machine.outputs ((machine.final h drain).transferRxByte byte).2 after).getLast? = some x)
    (twice : (machine.outputs
      (((machine.final h drain).withParser p).transferRxByte byte).2 after).getLast? = some y)
    (differ : x ≠ y) : ¬ Unseen h byte := by
  intro unseen
  have same := unseen (drain ++ .rx byte :: after) (reoffersRun quiet)
  rw [pushed] at same
  have left : (machine.outputs h (drain ++ .rx byte :: after)).getLast? = some x := by
    apply lastOutput
    rw [finalAppend]
    exact once
  have right : (machine.outputs (h.withParser p) (drain ++ .rx byte :: after)).getLast? = some y := by
    apply lastOutput
    rw [finalAppend,hiddenRun h p quiet]
    exact twice
  rw [same,left] at right
  exact differ (Option.some.inj right)

theorem payloadRefused {h : Handler} {byte} (last : h.rxState = .payload 1)
    (full : (h.transferRxByte byte).1 = .error .bufferFull) :
    (isRequestType h.rxPacketType = true → h.incomingRequest.valid = true) ∧
    (isRequestType h.rxPacketType = false → h.outgoingResponse.valid = true) := by
  have refused : (h.push byte).finishPacket.1 = .error .bufferFull := by
    simpa [transferRxByte,canAcceptRx,last,takePayload] using full
  exact (finishRefused refused).2

theorem requestByteTwice {h : Handler} {byte} (ok : WellFormed h) (last : h.rxState = .payload 1)
    (kind : isRequestType h.rxPacketType = true)
    (full : (h.transferRxByte byte).1 = .error .bufferFull)
    (pushed : (h.transferRxByte byte).2 = h.push byte) :
    ¬ Unseen h byte := by
  have valid := (payloadRefused last full).1 kind
  obtain ⟨request,same⟩ := Option.isSome_iff_exists.mp (ok.request valid)
  have stored : h.incomingRequest = ⟨true,some request⟩ := by rw [← valid,← same]
  have kept := keptRun h (quietTakeRequest h)
  have room := (requestTaken stored).2
  generalize drained' : machine.final h (takeRequest h) = drained at kept room
  have payload : drained.rxPayload = h.rxPayload := congrArg Parser.payload kept
  have once := payloadRequest byte ((congrArg Parser.state kept).trans last)
    ((congrArg (fun p => isRequestType p.packetType) kept).trans kind) room
  have twice := payloadRequest byte
    (h := drained.withParser (h.push byte).parser) last kind room
  have alike : takeRequest (drained.transferRxByte byte).2 = takeRequest
      ((drained.withParser (h.push byte).parser).transferRxByte byte).2 := by
    rw [once,twice]
    rfl
  refine seenByRun (takeRequest h) (takeRequest (drained.transferRxByte byte).2)
    (quietTakeRequest h) (p := (h.push byte).parser) pushed
    (x := .accepted (rxRequest (drained.push byte)))
    (y := .accepted (rxRequest ((drained.withParser (h.push byte).parser).push byte))) ?_ ?_ ?_
  · rw [drained']
    exact (requestTaken (by rw [once])).1
  · rw [drained',alike]
    exact (requestTaken (by rw [twice])).1
  · intro same
    injection same with same
    have lengths := congrArg (fun r => r.data.length) same
    simp [rxRequest,push,payload,withParser,parser] at lengths

theorem responseByteTwice {h : Handler} {byte} (ok : WellFormed h) (last : h.rxState = .payload 1)
    (other : isRequestType h.rxPacketType = false) (kind : isResponseType h.rxPacketType = true)
    (reads : h.rxTempWe = false) (full : (h.transferRxByte byte).1 = .error .bufferFull)
    (pushed : (h.transferRxByte byte).2 = h.push byte) :
    ¬ Unseen h byte := by
  have valid := (payloadRefused last full).2 other
  obtain ⟨response,same⟩ := Option.isSome_iff_exists.mp (ok.response valid)
  have stored : h.outgoingResponse = ⟨true,some response⟩ := by rw [← valid,← same]
  have kept := keptRun h quietTakeResponse
  obtain ⟨_,room,free⟩ := responseTaken stored
  generalize drained' : machine.final h takeResponse = drained at kept room free
  have payload : drained.rxPayload = h.rxPayload := congrArg Parser.payload kept
  have we : drained.rxTempWe = false := (congrArg Parser.we kept).trans reads
  have once := payloadResponse byte ((congrArg Parser.state kept).trans last)
    ((congrArg (fun p => isRequestType p.packetType) kept).trans other)
    ((congrArg (fun p => isResponseType p.packetType) kept).trans kind) room free
  have twice := payloadResponse byte
    (h := drained.withParser (h.push byte).parser) last other kind room free
  refine seenByRun takeResponse takeResponse quietTakeResponse (p := (h.push byte).parser) pushed
    (x := .response (some (rxResponse (drained.push byte))))
    (y := .response (some (rxResponse ((drained.withParser (h.push byte).parser).push byte)))) ?_ ?_ ?_
  · rw [drained']
    exact (responseTaken (by rw [once])).1
  · rw [drained']
    exact (responseTaken (by rw [twice])).1
  · intro same
    injection same with same
    injection same with same
    have lengths := congrArg (fun r => r.data.length) same
    simp [rxResponse,push,payload,we,reads,withParser,parser] at lengths

theorem seenInPayload {h : Handler} {byte} (ok : WellFormed h)
    (full : (h.transferRxByte byte).1 = .error .bufferFull) (inside : InPayload h) :
    ¬ Unseen h byte := by
  obtain ⟨n,state⟩ := inside
  rcases refusedCases full with ⟨idle,_⟩ | ⟨header,_⟩ | ⟨last,pushed⟩
  · simp [state] at idle
  · simp [state] at header
  · have kind := ok.payload n state
    cases request : isRequestType h.rxPacketType with
    | true => exact requestByteTwice ok last request full pushed
    | false =>
      simp only [request,Bool.false_and,Bool.false_or,Bool.and_eq_true,Bool.not_eq_true'] at kind
      exact responseByteTwice ok last request kind.1 kind.2 full pushed

/- A refused byte leaves no trace exactly outside the payload. -/
theorem refusedByteUnseen {h : Handler} {byte} (reachable : Reachable h)
    (full : (h.transferRxByte byte).1 = .error .bufferFull) : Unseen h byte ↔ ¬ InPayload h := by
  constructor
  · intro unseen inside
    exact seenInPayload (reachableWellFormed reachable) full inside unseen
  · exact unseenOutsidePayload full

theorem refusedOutput {h : Handler} {byte} (refused : machine.output h (.rx byte) = .failed .bufferFull) :
    (h.transferRxByte byte).1 = .error .bufferFull := by
  change Outcome.ofResult (fun _ => .done) (h.transferRxByte byte).1 = _ at refused
  cases result : (h.transferRxByte byte).1 with
  | ok => simp [result,Outcome.ofResult] at refused
  | error e => simpa [result,Outcome.ofResult] using refused

/- A CPU read request whose last header byte finds the request slot taken. -/
theorem refusedHeaderUnseen : Unseen (machine.final new
    ([0x00,0,0,0,0x10,0,0,0,0x00,0,0,0,0x20,0,0].map .rx)) 0 := by
  refine (refusedByteUnseen ⟨_,rfl⟩ (refusedOutput (by decide +kernel))).mpr ?_
  rintro ⟨n,inside⟩
  have state : (machine.final new
      ([0x00,0,0,0,0x10,0,0,0,0x00,0,0,0,0x20,0,0].map .rx)).rxState = .addr 3 := rfl
  rw [state] at inside
  contradiction

/- A CPU byte write of 0xAB that finds the request slot taken is handed out later as a
write of two bytes. -/
theorem refusedPayloadSeen : ∃ h, Reachable h ∧
    (h.transferRxByte 0xAB).1 = .error .bufferFull ∧ ¬ Unseen h 0xAB := by
  refine ⟨machine.final new
    ([0x00,1,0,0,0x10,0,0,0,0x55,0x00,1,0,0,0x10,0,0,0].map .rx),⟨_,rfl⟩,
    refusedOutput (by decide +kernel),?_⟩
  intro unseen
  have runs := unseen ([.accept,.rx 0xAB,.complete ⟨0,.byte,true,0,1,false,false,[]⟩] ++
    List.replicate 9 .tx ++ [.accept]) (by simp [reoffers])
  exact absurd (congrArg List.getLast? runs) (by decide +kernel)

end RiscvSoc.Host.Handler
