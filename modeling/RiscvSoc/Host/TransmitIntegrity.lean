import RiscvSoc.Host.TransmitStream

/-! Which accepted packets `HostBusHandler` transmits. A second `complete_request` replaces the
response that waits, and `receive_response` clears a request that has not been sent. -/
namespace RiscvSoc.Host.Handler
open LittleEndian (Byte)
open Mealy Machine

def Packet.isRequest : Packet → Bool
  | .request _ => true
  | .response _ => false

def droppedPackets (h : Handler) : Op → List Packet
  | .complete response => match (h.completeRequest response).1 with
    | .ok _ => h.queuedResponse
    | .error _ => []
  | .receive => if h.outgoingResponse.valid then h.queuedRequest else []
  | _ => []

/- A response is completed once, and a request is sent before a response is received. -/
def Undisturbed (h : Handler) : Op → Prop
  | .complete response => ∀ accepted ∈ h.acceptedRequest,
      completionFault (fillMetadata response accepted) accepted = none → h.pendingResponse = none
  | .receive => h.outgoingResponse.valid = true → h.outgoingRequest.isSome = true →
      h.outgoingRequestTxStarted = true
  | _ => True
instance (h op) : Decidable (Undisturbed h op) := match op with
  | .complete response => inferInstanceAs (Decidable (∀ accepted ∈ h.acceptedRequest,
      completionFault (fillMetadata response accepted) accepted = none → h.pendingResponse = none))
  | .receive => inferInstanceAs (Decidable (h.outgoingResponse.valid = true → h.outgoingRequest.isSome = true →
      h.outgoingRequestTxStarted = true))
  | .rx _ | .tx | .send _ | .accept | .query => .isTrue trivial

theorem queuedResponseKind (h : Handler) : h.queuedResponse.filter (·.isRequest) = [] ∧
    h.queuedResponse.filter (!·.isRequest) = h.queuedResponse := by
  simp only [queuedResponse]
  split <;> exact ⟨rfl,rfl⟩

theorem queuedRequestKind (h : Handler) : h.queuedRequest.filter (·.isRequest) = h.queuedRequest ∧
    h.queuedRequest.filter (!·.isRequest) = [] := by
  simp only [queuedRequest]
  split
  · split <;> exact ⟨rfl,rfl⟩
  · exact ⟨rfl,rfl⟩

theorem queuedKinds (h : Handler) : h.queued.filter (·.isRequest) = h.queuedRequest ∧
    h.queued.filter (!·.isRequest) = h.queuedResponse := by
  obtain ⟨noRequest,responses⟩ := queuedResponseKind h
  obtain ⟨requests,noResponse⟩ := queuedRequestKind h
  exact ⟨by rw [queued,List.filter_append,noRequest,requests,List.nil_append],
    by rw [queued,List.filter_append,noResponse,responses,List.append_nil]⟩

theorem undisturbedDrops {h : Handler} (op : Op) : Undisturbed h op ↔ h.droppedPackets op = [] := by
  cases op with
  | complete response =>
    simp only [Undisturbed,droppedPackets,completeRequest]
    cases taken : h.acceptedRequest with
    | none => simp
    | some accepted =>
      cases fault : completionFault (fillMetadata response accepted) accepted with
      | some e => simp [fault]
      | none =>
        cases pending : h.pendingResponse <;> simp [fault,queuedResponse,taken,pending]
  | receive =>
    simp only [Undisturbed,droppedPackets,queuedRequest]
    cases h.outgoingResponse.valid <;> cases h.outgoingRequest <;> cases h.outgoingRequestTxStarted <;> simp
  | rx | tx | send | accept | query => simp [Undisturbed,droppedPackets]

structure Conserves (h : Handler) (op : Op) : Prop where
  responses : h.queuedResponse ++ (h.acceptedPackets op).filter (!·.isRequest) =
    (h.startedPackets op ++ h.droppedPackets op).filter (!·.isRequest) ++ (h.apply op).2.queuedResponse
  requests : h.queuedRequest ++ (h.acceptedPackets op).filter (·.isRequest) =
    (h.startedPackets op ++ h.droppedPackets op).filter (·.isRequest) ++ (h.apply op).2.queuedRequest

theorem startsConserves {h t : Handler} {started} (starts : Starts h started t) :
    h.queuedResponse = started.filter (!·.isRequest) ++ t.queuedResponse ∧
    h.queuedRequest = started.filter (·.isRequest) ++ t.queuedRequest := by
  cases starts with
  | nothing => exact ⟨rfl,rfl⟩
  | response taken ready => exact ⟨by simp [queuedResponse,taken,ready,Packet.isRequest],rfl⟩
  | request out fresh => exact ⟨rfl,by simp [queuedRequest,out,fresh,Packet.isRequest]⟩

theorem sendConserves {h : Handler} (ok : QueueOk h) (request) : Conserves h (.send request) := by
  obtain ⟨out,same⟩ := sendFrame h request
  have after : (h.apply (.send request)).2 = (h.sendRequest request).2 := rfl
  have responses : (h.sendRequest request).2.queuedResponse = h.queuedResponse := by rw [same]; rfl
  refine ⟨?_,?_⟩ <;> rw [after]
  · rw [responses]
    simp only [acceptedPackets,startedPackets,droppedPackets]
    split <;> simp [Packet.isRequest]
  · simp only [acceptedPackets,startedPackets,droppedPackets,sendRequest]
    cases out : h.outgoingRequest with
    | some waiting => simp
    | none =>
      have started := ok.fresh out
      cases requestFault request with
      | some e => simp
      | none => simp [queuedRequest,out,started,Packet.isRequest]

theorem receiveConserves (h : Handler) : Conserves h .receive := by
  have after : (h.apply .receive).2 = h.receiveResponse.2 := rfl
  obtain ⟨requests,responses⟩ := queuedRequestKind h
  refine ⟨?_,?_⟩ <;> rw [after] <;> simp only [acceptedPackets,startedPackets,droppedPackets,receiveResponse]
  · cases valid : h.outgoingResponse.valid with
    | false => simp
    | true =>
      simp only [Bool.not_true,Bool.false_eq_true,if_false,if_true,List.nil_append,responses]
      split <;> simp [queuedResponse]
  · cases valid : h.outgoingResponse.valid with
    | false => simp
    | true =>
      simp only [Bool.not_true,Bool.false_eq_true,if_false,if_true,List.nil_append,requests]
      split
      · rename_i idle
        have absent : h.outgoingRequest = none := by simpa using idle.1
        simp [queuedRequest,absent]
      · simp [queuedRequest]

theorem acceptConserves {h : Handler} (ok : QueueOk h) : Conserves h .accept := by
  have after : (h.apply .accept).2 = h.acceptRequest.2 := rfl
  have responses : h.acceptRequest.2.queuedResponse = h.queuedResponse := by
    simp only [acceptRequest]
    split
    · rfl
    · rename_i free
      split
      · rfl
      · have absent : h.pendingResponse = none := ok.answers (by simp_all)
        simp [queuedResponse,absent]
  have requests : h.acceptRequest.2.queuedRequest = h.queuedRequest := by
    simp only [acceptRequest]
    split
    · rfl
    · split <;> rfl
  refine ⟨?_,?_⟩ <;> simp [acceptedPackets,startedPackets,droppedPackets,after,responses,requests]

theorem completeConserves (h : Handler) (response) : Conserves h (.complete response) := by
  have after : (h.apply (.complete response)).2 = (h.completeRequest response).2 := rfl
  obtain ⟨pending,same⟩ := completeFrame h response
  have requests : (h.completeRequest response).2.queuedRequest = h.queuedRequest := by rw [same]; rfl
  obtain ⟨absent,responses⟩ := queuedResponseKind h
  refine ⟨?_,?_⟩ <;> rw [after]
  · simp only [acceptedPackets,startedPackets,droppedPackets,completeRequest]
    cases taken : h.acceptedRequest with
    | none => simp
    | some accepted =>
      cases fault : completionFault (fillMetadata response accepted) accepted with
      | some e => simp [fault]
      | none =>
        simp only [fault,List.nil_append,responses]
        simp [queuedResponse,taken,Packet.isRequest]
  · rw [requests]
    simp only [acceptedPackets,startedPackets,droppedPackets,List.nil_append]
    cases (h.completeRequest response).1 with
    | error e => simp
    | ok u =>
      cases h.acceptedRequest with
      | none => simp [absent]
      | some accepted =>
        change h.queuedRequest ++ [] = h.queuedResponse.filter (·.isRequest) ++ h.queuedRequest
        rw [absent,List.append_nil,List.nil_append]

theorem applyConserves {h : Handler} (ok : QueueOk h) (op : Op) : Conserves h op := by
  cases op with
  | tx =>
    obtain ⟨responses,requests⟩ := startsConserves (startsSpec h)
    refine ⟨?_,?_⟩ <;> simp only [acceptedPackets,droppedPackets,List.append_nil,List.filter_nil]
    · exact responses
    · exact requests
  | query => exact ⟨by simp [acceptedPackets,startedPackets,droppedPackets,apply],by simp [acceptedPackets,startedPackets,droppedPackets,apply]⟩
  | rx byte =>
    have frame := receiveByteFrame h byte
    have responses : (h.apply (.rx byte)).2.queuedResponse = h.queuedResponse := by
      change (h.transferRxByte byte).2.queuedResponse = _
      simp only [queuedResponse,frame.accepted,frame.response]
    have requests : (h.apply (.rx byte)).2.queuedRequest = h.queuedRequest := by
      change (h.transferRxByte byte).2.queuedRequest = _
      simp only [queuedRequest,frame.request,frame.started]
    constructor <;> simp [acceptedPackets,startedPackets,droppedPackets,responses,requests]
  | send request => exact sendConserves ok request
  | receive => exact receiveConserves h
  | accept => exact acceptConserves ok
  | complete response => exact completeConserves h response

def removedPackets (h : Handler) (op : Op) : List Packet := h.startedPackets op ++ h.droppedPackets op

/- Over a run the accepted packets of either kind have left the queue or wait in it, in their
order. -/
theorem responsesConserved (ops : List Op) : (machine.history acceptedPackets new ops).filter (!·.isRequest) =
    (machine.history removedPackets new ops).filter (!·.isRequest) ++ (machine.final new ops).queuedResponse := by
  rw [historyFilter,historyFilter]
  exact (@conserved _ _ _ machine _ QueueOk queuedResponse (fun h op => (h.acceptedPackets op).filter (!·.isRequest))
    (fun h op => (h.removedPackets op).filter (!·.isRequest))
    (fun h op ok => ⟨applyQueueOk ok op,(applyConserves ok op).responses⟩) new newQueueOk ops).2

theorem requestsConserved (ops : List Op) : (machine.history acceptedPackets new ops).filter (·.isRequest) =
    (machine.history removedPackets new ops).filter (·.isRequest) ++ (machine.final new ops).queuedRequest := by
  rw [historyFilter,historyFilter]
  exact (@conserved _ _ _ machine _ QueueOk queuedRequest (fun h op => (h.acceptedPackets op).filter (·.isRequest))
    (fun h op => (h.removedPackets op).filter (·.isRequest))
    (fun h op ok => ⟨applyQueueOk ok op,(applyConserves ok op).requests⟩) new newQueueOk ops).2

def wireLength (packets : List Packet) : Nat := (packets.flatMap Packet.bytes).length

theorem wireLengthAppend (xs ys : List Packet) : wireLength (xs ++ ys) = wireLength xs + wireLength ys := by
  rw [wireLength,List.flatMap_append,List.length_append]
  rfl

theorem wireLengthKinds (packets : List Packet) : wireLength packets =
    wireLength (packets.filter (·.isRequest)) + wireLength (packets.filter (!·.isRequest)) := by
  induction packets with
  | nil => rfl
  | cons p rest ih =>
    have head (xs) : wireLength (p :: xs) = wireLength [p] + wireLength xs := wireLengthAppend [p] xs
    have whole := head rest
    cases kind : p.isRequest with
    | true =>
      have part := head (rest.filter (·.isRequest))
      have kept : (p :: rest).filter (·.isRequest) = p :: rest.filter (·.isRequest) := List.filter_cons_of_pos kind
      rw [kept,List.filter_cons_of_neg (by simp [kind])]
      omega
    | false =>
      have part := head (rest.filter (!·.isRequest))
      rw [List.filter_cons_of_neg (by simp [kind]),List.filter_cons_of_pos (by simp [kind])]
      omega

theorem wireLengthZero {packets : List Packet} (zero : wireLength packets = 0) : packets = [] := by
  cases packets with
  | nil => rfl
  | cons p rest =>
    cases p <;> simp [wireLength,Packet.bytes,requestPacket,responsePacket,encodePacket] at zero

theorem wireLengthRemoved (h : Handler) (ops : List Op) : wireLength (machine.history removedPackets h ops) =
    wireLength (machine.history startedPackets h ops) + wireLength (machine.history droppedPackets h ops) := by
  induction ops generalizing h with
  | nil => rfl
  | cons op rest ih =>
    simp only [historyCons,wireLengthAppend,removedPackets]
    have later := ih (machine.next h op)
    omega

/- What the transmit side shows after a run: whole packets, each accepted packet once and those of
either kind in order, and `has_tx_data` telling whether a byte comes. -/
structure Transmits (ops : List Op) : Prop where
  framed : ∃ packets : List Packet, machine.history emitted new ops ++ (machine.final new ops).pendingTx =
    packets.flatMap Packet.bytes
  drained : ∀ n, (machine.final new ops).toTransmit.length ≤ n → ∃ packets : List Packet,
    machine.history emitted new (ops ++ List.replicate n .tx) = packets.flatMap Packet.bytes ∧
    packets.filter (·.isRequest) = (machine.history acceptedPackets new ops).filter (·.isRequest) ∧
    packets.filter (!·.isRequest) = (machine.history acceptedPackets new ops).filter (!·.isRequest)
  ready : (machine.final new ops).hasTxData = (machine.final new ops).transferTxByte.1.isSome

theorem transmitsNothing (h : Handler) : h.transferTxByte.1 = none ↔ h.pendingTx = [] ∧ h.queued = [] := by
  obtain ⟨bytes,_,stops⟩ := transmitQueue h
  refine ⟨stops,fun ⟨sent,empty⟩ => ?_⟩
  have silent : h.transferTxByte.1.toList = [] := by
    have nothing : h.startedPackets .tx = [] := by simp [startedPackets,empty]
    rw [sent,nothing] at bytes
    exact (List.append_eq_nil_iff.mp bytes).1
  cases out : h.transferTxByte.1 with
  | none => rfl
  | some byte => simp [out] at silent

theorem hasTxDataExact (h : Handler) : h.hasTxData = h.transferTxByte.1.isSome := by
  have unsent : h.pendingTx = [] ↔ ¬ h.txIndex < h.txBuffer.length := by simp [pendingTx]
  have responses : h.queuedResponse = [] ↔ ¬ (h.acceptedRequest.isSome && h.pendingResponse.isSome) = true := by
    cases taken : h.acceptedRequest <;> cases ready : h.pendingResponse <;> simp [queuedResponse,taken,ready]
  have requests : h.queuedRequest = [] ↔ ¬ (h.outgoingRequest.isSome && !h.outgoingRequestTxStarted) = true := by
    cases out : h.outgoingRequest <;> cases started : h.outgoingRequestTxStarted <;> simp [queuedRequest,out,started]
  have nothing := transmitsNothing h
  rw [queued,List.append_eq_nil_iff,unsent,responses,requests] at nothing
  have quiet : h.hasTxData = false ↔ h.transferTxByte.1 = none := by
    rw [nothing,hasTxData]
    simp only [Bool.or_eq_false_iff,decide_eq_false_iff_not,Bool.not_eq_true,and_assoc]
  cases out : h.transferTxByte.1 with
  | none => exact quiet.mpr out
  | some byte =>
    rcases Bool.eq_false_or_eq_true h.hasTxData with ready | idle
    · exact ready
    · simp [quiet.mp idle] at out

theorem emittedDrained (ops : List Op) {n : Nat} (enough : (machine.final new ops).toTransmit.length ≤ n) :
    machine.history emitted new (ops ++ List.replicate n .tx) =
      (machine.history startedPackets new ops ++ (machine.final new ops).queued).flatMap Packet.bytes := by
  obtain ⟨starts,sent⟩ := transmitDrains n enough
  have stream := transmitStream new (ops ++ List.replicate n .tx)
  rw [finalAppend,sent,List.append_nil,historyAppend machine startedPackets,starts] at stream
  exact stream

theorem transmitsUndropped {ops : List Op} (intact : Transmits ops) :
    machine.history droppedPackets new ops = [] := by
  have responses := responsesConserved ops
  have requests := requestsConserved ops
  obtain ⟨packets,bytes,allRequests,allResponses⟩ := intact.drained _ (Nat.le_refl _)
  rw [emittedDrained ops (Nat.le_refl _)] at bytes
  have total : wireLength (machine.history startedPackets new ops) + wireLength (machine.final new ops).queued =
      wireLength packets := by
    rw [← wireLengthAppend]
    exact congrArg List.length bytes
  have accepted := wireLengthKinds packets
  rw [allRequests,allResponses,requests,responses,wireLengthAppend,wireLengthAppend] at accepted
  have waiting := wireLengthKinds (machine.final new ops).queued
  rw [(queuedKinds _).1,(queuedKinds _).2] at waiting
  have removed := wireLengthKinds (machine.history removedPackets new ops)
  have parts := wireLengthRemoved new ops
  exact wireLengthZero (by omega)

theorem undroppedTransmits {ops : List Op} (nothing : machine.history droppedPackets new ops = []) :
    Transmits ops := by
  have responses := responsesConserved ops
  have requests := requestsConserved ops
  have same : machine.history removedPackets new ops = machine.history startedPackets new ops := by
    refine historySame fun c mem => ?_
    have empty := historyEmpty.mp nothing c mem
    change startedPackets c.1 c.2 ++ droppedPackets c.1 c.2 = _
    rw [empty,List.append_nil]
  rw [same] at responses requests
  refine ⟨⟨_,transmitStream new ops⟩,fun n enough => ⟨_,emittedDrained ops enough,?_,?_⟩,hasTxDataExact _⟩
  · rw [List.filter_append,(queuedKinds _).1,requests]
  · rw [List.filter_append,(queuedKinds _).2,responses]

theorem undisturbedRun (ops : List Op) :
    machine.Steps Undisturbed new ops ↔ machine.history droppedPackets new ops = [] := by
  rw [historyEmpty]
  exact forall₂_congr fun c _ => undisturbedDrops c.2

/- Packets are transmitted intact in just the runs that neither complete a response twice nor
receive one before the request is sent. -/
theorem transmitsIntact (ops : List Op) : Transmits ops ↔ machine.Steps Undisturbed new ops := by
  rw [undisturbedRun]
  exact ⟨transmitsUndropped,undroppedTransmits⟩

/- A read request accepted and completed twice, with different data, before it is answered: one
response leaves. -/
def completeTwice : List Op :=
  [0x20,0x00,0x00,0x00,0x04,0x10,0x00,0x00].map Op.rx ++ [.accept,
    .complete ⟨0x11,.byte,false,0,1,false,false,[0x11]⟩,.complete ⟨0x22,.byte,false,0,1,false,false,[0x22]⟩]

theorem completeTwiceDrops : machine.history acceptedPackets new completeTwice =
      [.response ⟨0x11,.byte,false,0x1004,1,false,false,[0x11]⟩,.response ⟨0x22,.byte,false,0x1004,1,false,false,[0x22]⟩] ∧
    machine.history emitted new (completeTwice ++ List.replicate 40 .tx) =
      [0x10,0x00,0x00,0x00,0x04,0x10,0x00,0x00,0x22] ∧ ¬ Transmits completeTwice := by
  refine ⟨by decide +kernel,by decide +kernel,fun intact => ?_⟩
  have dropped := transmitsUndropped intact
  revert dropped
  decide +kernel

end RiscvSoc.Host.Handler
