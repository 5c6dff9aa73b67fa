import RiscvSoc.Host.HandlerInvariant

/-! What `HostBusHandler` transmits over a run: whole packets, each of them a request or a
response that it accepted. -/
namespace RiscvSoc.Host.Handler
open LittleEndian (Byte)
open Mealy Machine

inductive Packet where
  | request (request : BusRequest)
  | response (response : BusResponse)
  deriving DecidableEq, Repr

def Packet.bytes : Packet → List Byte
  | .request r => requestPacket r
  | .response r => responsePacket r

def queuedResponse (h : Handler) : List Packet := match h.acceptedRequest, h.pendingResponse with
  | some _, some response => [.response response]
  | _, _ => []

def queuedRequest (h : Handler) : List Packet := match h.outgoingRequest with
  | some request => if h.outgoingRequestTxStarted then [] else [.request request]
  | none => []

def queued (h : Handler) : List Packet := h.queuedResponse ++ h.queuedRequest

/- What one method call adds to the histories of packets accepted, packets started and
bytes emitted. -/
def acceptedPackets (h : Handler) : Op → List Packet
  | .send request => match (h.sendRequest request).1 with
    | .ok _ => [.request request]
    | .error _ => []
  | .complete response => match (h.completeRequest response).1,h.acceptedRequest with
    | .ok _, some request => [.response (fillMetadata response request)]
    | _, _ => []
  | _ => []

def startedPackets (h : Handler) : Op → List Packet
  | .tx => if h.pendingTx = [] then h.queued.take 1 else []
  | _ => []

def emitted (h : Handler) : Op → List Byte
  | .tx => h.transferTxByte.1.toList
  | _ => []

/- One call of `transfer_tx_byte` sends the next byte of the packet in transmission or
starts the first packet of the queue. -/
theorem transmitQueue (h : Handler) :
    h.transferTxByte.1.toList ++ h.transferTxByte.2.pendingTx =
      h.pendingTx ++ (h.startedPackets .tx).flatMap Packet.bytes ∧
    h.transferTxByte.2.queued = h.queued.drop (h.startedPackets .tx).length ∧
    (h.transferTxByte.1 = none → h.pendingTx = [] ∧ h.queued = []) := by
  obtain ⟨out,t,same,spec⟩ := transmitSpec h
  rw [same]
  cases spec with
  | idle sent nothing =>
    have empty : h.queued = [] := by
      simp only [startTxPacket] at nothing
      split at nothing
      · contradiction
      · rename_i unqueued
        have noResponse : h.queuedResponse = [] := by simp only [queuedResponse]
        have noRequest : h.queuedRequest = [] := by
          split at nothing
          · rename_i request out
            split at nothing
            · rename_i started
              simp [queuedRequest,out,started]
            · contradiction
          · rename_i absent
            simp [queuedRequest,absent]
        simp only [queued,noResponse,noRequest,List.nil_append]
    refine ⟨?_,?_,fun _ => ⟨sent,empty⟩⟩
    · change [] ++ [] = _
      simp [startedPackets,sent,empty]
    · simp only [startedPackets,sent,empty,if_true]
      exact empty
  | @next byte rest buffer index current left =>
    refine ⟨?_,?_,by simp⟩
    · change [byte] ++ buffer.drop index = _
      simp [startedPackets,current,left]
    · simp only [startedPackets,current]
      rfl
  | @response accepted response byte rest buffer index sent taken ready packet left =>
    have first : h.queued = .response response :: h.queuedRequest := by
      simp [queued,queuedResponse,taken,ready]
    refine ⟨?_,?_,by simp⟩
    · change [byte] ++ buffer.drop index = _
      simp [startedPackets,sent,first,Packet.bytes,packet,left]
    · simp only [startedPackets,sent,first,if_true]
      rfl
  | @request request byte rest buffer index sent unqueued out fresh packet left =>
    have noResponse : h.queuedResponse = [] := by
      rcases unqueued with free | missing <;> simp only [queuedResponse]
      · simp [free]
      · simp [missing]
    have first : h.queued = [.request request] := by
      simp [queued,noResponse,queuedRequest,out,fresh]
    refine ⟨?_,?_,by simp⟩
    · change [byte] ++ buffer.drop index = _
      simp [startedPackets,sent,first,Packet.bytes,packet,left]
    · simp only [startedPackets,sent,first,if_true]
      change h.queuedResponse ++ _ = _
      simp [noResponse,queuedRequest,out]

inductive Starts (h : Handler) : List Packet → Handler → Prop where
  | nothing {buffer index} : Starts h [] {h with txBuffer := buffer, txIndex := index}
  | response {accepted response buffer index} (taken : h.acceptedRequest = some accepted)
      (ready : h.pendingResponse = some response) : Starts h [.response response] {h with
        acceptedRequest := none
        pendingResponse := none
        txBuffer := buffer
        txIndex := index}
  | request {request buffer index} (out : h.outgoingRequest = some request)
      (fresh : h.outgoingRequestTxStarted = false) : Starts h [.request request] {h with
        outgoingRequestTxStarted := true
        txBuffer := buffer
        txIndex := index}

theorem startsSpec (h : Handler) : Starts h (h.startedPackets .tx) h.transferTxByte.2 := by
  have empty := (transmitQueue h).2.2
  obtain ⟨out,t,same,spec⟩ := transmitSpec h
  rw [same] at empty ⊢
  cases spec with
  | idle sent =>
    have nothing : h.startedPackets .tx = [] := by simp [startedPackets,(empty rfl).2]
    rw [nothing]
    exact .nothing
  | next current =>
    have nothing : h.startedPackets .tx = [] := by simp [startedPackets,current]
    rw [nothing]
    exact .nothing
  | @response a response byte rest buffer index sent taken ready =>
    have started : h.startedPackets .tx = [.response response] := by
      simp [startedPackets,sent,queued,queuedResponse,taken,ready]
    rw [started]
    exact .response taken ready
  | @request r byte rest buffer index sent unqueued out fresh =>
    have nothing : h.queuedResponse = [] := by
      simp only [queuedResponse]
      rcases unqueued with nothing | nothing <;> simp [nothing]
    have started : h.startedPackets .tx = [.request r] := by
      simp [startedPackets,sent,queued,nothing,queuedRequest,out,fresh]
    rw [started]
    exact .request out fresh

theorem applyKeepsPending (h : Handler) {op} (other : op ≠ .tx) :
    (h.apply op).2.pendingTx = h.pendingTx ∧ h.emitted op = [] ∧ h.startedPackets op = [] := by
  cases op with
  | tx => exact absurd rfl other
  | rx byte => 
    have frame := receiveByteFrame h byte
    change (h.transferRxByte byte).2.pendingTx = _ ∧ _
    simp only [pendingTx,frame.buffer,frame.index]
    exact ⟨trivial,rfl,rfl⟩
  | send request =>
    obtain ⟨_,same⟩ := sendFrame h request
    change (h.sendRequest request).2.pendingTx = _ ∧ _
    rw [same]
    exact ⟨rfl,rfl,rfl⟩
  | receive =>
    change h.receiveResponse.2.pendingTx = _ ∧ _
    simp only [receiveResponse]
    split
    · exact ⟨rfl,rfl,rfl⟩
    · split <;> exact ⟨rfl,rfl,rfl⟩
  | accept =>
    change h.acceptRequest.2.pendingTx = _ ∧ _
    simp only [acceptRequest]
    split
    · exact ⟨rfl,rfl,rfl⟩
    · split <;> exact ⟨rfl,rfl,rfl⟩
  | complete response =>
    obtain ⟨_,same⟩ := completeFrame h response
    change (h.completeRequest response).2.pendingTx = _ ∧ _
    rw [same]
    exact ⟨rfl,rfl,rfl⟩
  | query => exact ⟨rfl,rfl,rfl⟩

structure QueueOk (h : Handler) : Prop where
  fresh : h.outgoingRequest = none → h.outgoingRequestTxStarted = false
  answers : h.acceptedRequest = none → h.pendingResponse = none

theorem applyQueue {h : Handler} (ok : QueueOk h) {op} (other : op ≠ .tx) :
    QueueOk (h.apply op).2 ∧
    (∀ p ∈ (h.apply op).2.queued, p ∈ h.queued ∨ p ∈ h.acceptedPackets op) ∧
    ∀ p ∈ h.acceptedPackets op, p ∈ (h.apply op).2.queued := by
  cases op with
  | tx => exact absurd rfl other
  | query => exact ⟨ok,fun p mem => .inl mem,by simp [acceptedPackets]⟩
  | rx byte =>
    have frame := receiveByteFrame h byte
    change QueueOk (h.transferRxByte byte).2 ∧ (∀ p ∈ (h.transferRxByte byte).2.queued,_) ∧ _
    have same : (h.transferRxByte byte).2.queued = h.queued := by
      simp only [queued,queuedResponse,queuedRequest,frame.accepted,frame.request,frame.started,
        frame.response]
    rw [same]
    refine ⟨⟨?_,?_⟩,fun p mem => .inl mem,by simp [acceptedPackets]⟩
    · rw [frame.request,frame.started]
      exact ok.fresh
    · rw [frame.accepted,frame.response]
      exact ok.answers
  | send request =>
    change QueueOk (h.sendRequest request).2 ∧ (∀ p ∈ (h.sendRequest request).2.queued,_) ∧
      (∀ p ∈ _,p ∈ (h.sendRequest request).2.queued)
    simp only [acceptedPackets,sendRequest]
    split
    · exact ⟨ok,fun p mem => .inl mem,by simp⟩
    · rename_i free
      have absent : h.outgoingRequest = none := by simpa using free
      have started := ok.fresh absent
      split
      · exact ⟨ok,fun p mem => .inl mem,by simp⟩
      · have queue : ({h with outgoingRequest := some request} : Handler).queued =
            h.queuedResponse ++ [.request request] := by
          change h.queuedResponse ++ _ = _
          simp [queuedRequest,started]
        rw [queue]
        refine ⟨⟨by simp,ok.answers⟩,?_,by simp⟩
        intro p mem
        rcases List.mem_append.mp mem with before | new
        · exact .inl (List.mem_append_left _ before)
        · exact .inr new
  | receive =>
    change QueueOk h.receiveResponse.2 ∧ (∀ p ∈ h.receiveResponse.2.queued,_) ∧ _
    simp only [receiveResponse]
    split
    · exact ⟨ok,fun p mem => .inl mem,by simp [acceptedPackets]⟩
    · split
      · exact ⟨ok,fun p mem => .inl mem,by simp [acceptedPackets]⟩
      · refine ⟨⟨by simp,ok.answers⟩,?_,by simp [acceptedPackets]⟩
        intro p mem
        change p ∈ h.queuedResponse ++ [] at mem
        rw [List.append_nil] at mem
        exact .inl (List.mem_append_left _ mem)
  | accept =>
    change QueueOk h.acceptRequest.2 ∧ (∀ p ∈ h.acceptRequest.2.queued,_) ∧ _
    simp only [acceptRequest]
    split
    · exact ⟨ok,fun p mem => .inl mem,by simp [acceptedPackets]⟩
    · rename_i free
      split
      · exact ⟨ok,fun p mem => .inl mem,by simp [acceptedPackets]⟩
      · have absent : h.pendingResponse = none := ok.answers (by simp_all)
        refine ⟨⟨ok.fresh,by simp⟩,?_,by simp [acceptedPackets]⟩
        intro p mem
        refine .inl (List.mem_append_right _ ?_)
        change p ∈ queuedResponse _ ++ h.queuedRequest at mem
        simpa [queuedResponse,absent] using mem
  | complete response =>
    change QueueOk (h.completeRequest response).2 ∧ (∀ p ∈ (h.completeRequest response).2.queued,_) ∧
      (∀ p ∈ _,p ∈ (h.completeRequest response).2.queued)
    cases taken : h.acceptedRequest with
    | none =>
      have same : h.completeRequest response = (.error .noOutstandingRequest,h) := by
        simp [completeRequest,taken]
      simp only [acceptedPackets,same]
      exact ⟨ok,fun p mem => .inl mem,by simp⟩
    | some request =>
      cases fault : completionFault (fillMetadata response request) request with
      | some e =>
        have same : h.completeRequest response = (.error e,h) := by simp [completeRequest,taken,fault]
        simp only [acceptedPackets,same]
        exact ⟨ok,fun p mem => .inl mem,by simp⟩
      | none =>
        have same : h.completeRequest response =
            (.ok (),{h with pendingResponse := some (fillMetadata response request)}) := by
          simp [completeRequest,taken,fault]
        have queue : ({h with pendingResponse := some (fillMetadata response request)} :
            Handler).queued = .response (fillMetadata response request) :: h.queuedRequest := by
          simp [queued,queuedResponse,queuedRequest,taken]
        rw [same]
        simp only [acceptedPackets,same,queue]
        rw [taken]
        refine ⟨⟨ok.fresh,by simp⟩,?_,by simp⟩
        intro p mem
        rcases List.mem_cons.mp mem with rfl | later
        · exact .inr (by simp)
        · exact .inl (List.mem_append_right _ later)

theorem transmitQueueOk {h : Handler} (ok : QueueOk h) : QueueOk h.transferTxByte.2 := by
  obtain ⟨out,t,same,spec⟩ := transmitSpec h
  rw [same]
  cases spec with
  | idle | next => exact ⟨ok.fresh,ok.answers⟩
  | response => exact ⟨ok.fresh,fun _ => rfl⟩
  | request _ _ out => exact ⟨by simp [out],ok.answers⟩

theorem applyQueueOk {h : Handler} (ok : QueueOk h) (op) : QueueOk (h.apply op).2 := by
  by_cases tx : op = .tx
  · subst tx
    exact transmitQueueOk ok
  · exact (applyQueue ok tx).1

/- Over a run the bytes emitted and the rest of the packet in transmission are the packets
started, and every packet started was accepted. -/
theorem transmitStream (h : Handler) (ops : List Op) :
    machine.history emitted h ops ++ (machine.final h ops).pendingTx =
      h.pendingTx ++ (machine.history startedPackets h ops).flatMap Packet.bytes := by
  induction ops generalizing h with
  | nil => exact (List.append_nil _).symm
  | cons op rest ih =>
    change (h.emitted op ++ machine.history emitted (h.apply op).2 rest) ++
        (machine.final (h.apply op).2 rest).pendingTx =
      h.pendingTx ++ (h.startedPackets op ++ machine.history startedPackets (h.apply op).2 rest).flatMap
        Packet.bytes
    rw [List.append_assoc,ih,List.flatMap_append,← List.append_assoc,← List.append_assoc]
    congr 1
    by_cases tx : op = .tx
    · subst tx
      exact (transmitQueue h).1
    · obtain ⟨pending,silent,absent⟩ := applyKeepsPending h tx
      simp [pending,silent,absent]

theorem startedAccepted {h : Handler} (ok : QueueOk h) (ops : List Op) :
    ∀ p ∈ machine.history startedPackets h ops,
      p ∈ h.queued ∨ p ∈ machine.history acceptedPackets h ops := by
  induction ops generalizing h with
  | nil => simp
  | cons op rest ih =>
    intro p mem
    have later := ih (applyQueueOk ok op) p
    change p ∈ h.startedPackets op ++ machine.history startedPackets (h.apply op).2 rest at mem
    change _ ∨ p ∈ h.acceptedPackets op ++ machine.history acceptedPackets (h.apply op).2 rest
    by_cases tx : op = .tx
    · subst tx
      rcases List.mem_append.mp mem with now | after
      · refine .inl ?_
        simp only [startedPackets] at now
        split at now
        · exact List.mem_of_mem_take now
        · simp at now
      · rcases later after with waiting | accepted
        · refine .inl ?_
          change p ∈ h.transferTxByte.2.queued at waiting
          rw [(transmitQueue h).2.1] at waiting
          exact List.mem_of_mem_drop waiting
        · exact .inr (List.mem_append_right _ accepted)
    · obtain ⟨_,_,absent⟩ := applyKeepsPending h tx
      rw [absent,List.nil_append] at mem
      rcases later mem with waiting | accepted
      · rcases (applyQueue ok tx).2.1 p waiting with before | now
        · exact .inl before
        · exact .inr (List.mem_append_left _ now)
      · exact .inr (List.mem_append_right _ accepted)

def toTransmit (h : Handler) : List Byte := h.pendingTx ++ h.queued.flatMap Packet.bytes

theorem transmitNext (h : Handler) :
    h.transferTxByte.1.toList ++ h.transferTxByte.2.toTransmit = h.toTransmit := by
  obtain ⟨bytes,queue,_⟩ := transmitQueue h
  have split : h.queued = h.startedPackets .tx ++ h.queued.drop (h.startedPackets .tx).length := by
    simp only [startedPackets]
    split
    · cases h.queued <;> simp
    · simp
  rw [toTransmit,queue,← List.append_assoc,bytes,toTransmit,List.append_assoc,← List.flatMap_append,
    ← split]

theorem transmitDrains (n : Nat) {h : Handler} (enough : h.toTransmit.length ≤ n) :
    machine.history startedPackets h (List.replicate n .tx) = h.queued ∧
    (machine.final h (List.replicate n .tx)).pendingTx = [] := by
  induction n generalizing h with
  | zero =>
    have empty : h.toTransmit = [] := List.length_eq_zero_iff.mp (by omega)
    simp only [toTransmit,List.append_eq_nil_iff,List.flatMap_eq_nil_iff] at empty
    refine ⟨?_,empty.1⟩
    cases queue : h.queued with
    | nil => rfl
    | cons p rest =>
      have nonempty := empty.2 p (by simp [queue])
      cases p <;> simp [Packet.bytes,requestPacket,responsePacket,encodePacket] at nonempty
  | succ n ih =>
    obtain ⟨_,queue,stops⟩ := transmitQueue h
    have next := congrArg List.length (transmitNext h)
    rw [List.length_append] at next
    have fewer : h.transferTxByte.2.toTransmit.length ≤ n := by
      cases out : h.transferTxByte.1 with
      | some byte =>
        simp only [out,Option.toList_some,List.length_cons,List.length_nil] at next
        omega
      | none =>
        obtain ⟨sent,empty⟩ := stops out
        have nothing : h.toTransmit = [] := by simp [toTransmit,sent,empty]
        rw [nothing] at next
        simp only [List.length_nil] at next
        omega
    obtain ⟨starts,drained⟩ := ih (h := h.transferTxByte.2) fewer
    refine ⟨?_,drained⟩
    change h.startedPackets .tx ++ machine.history startedPackets h.transferTxByte.2 _ = _
    rw [starts,queue]
    simp only [startedPackets]
    split
    · cases h.queued <;> simp
    · simp

/- The checks of `send_request` and `complete_request` leave packets whose header and
payload fit each other. -/
structure Packet.Sized (carries : Bool) (size : AccessSize) (burstLen : Word) (data : List Byte) :
    Prop where
  burst : BurstInRange burstLen
  length : data.length = if carries then size.byteCount * burstLen.toNat else 0

def Packet.Fits : Packet → Prop
  | .request r => Sized r.we r.size r.burstLen r.data
  | .response r => Sized (!r.we) r.size r.burstLen r.data

theorem requestFits {request} (checked : requestFault request = none) : Packet.Fits (.request request) := by
  simp only [requestFault] at checked
  split at checked
  · contradiction
  · rename_i burst
    split at checked
    · contradiction
    · rename_i write
      split at checked
      · contradiction
      · rename_i read
        refine ⟨?_,?_⟩
        · have zero : request.burstLen.toNat ≠ 0 := fun zero => burst (.inl (BitVec.eq_of_toNat_eq zero))
          have small : ¬ request.burstLen.toNat > maxBurstBeats := fun large => burst (.inr large)
          simp only [BurstInRange]
          omega
        · cases we : request.we <;> simp_all

theorem responseFits {response request} (checked : completionFault response request = none)
    (burst : BurstInRange request.burstLen) : Packet.Fits (.response response) := by
  simp only [completionFault] at checked
  split at checked
  · contradiction
  · rename_i echoed
    have length : response.data.length =
        if request.we then 0 else request.size.byteCount * request.burstLen.toNat := by
      split at checked <;> simp_all
    simp only [Bool.not_eq_true,Bool.not_eq_false',echoes,Bool.and_eq_true,beq_iff_eq] at echoed
    obtain ⟨⟨⟨⟨⟨we,size⟩,_⟩,len⟩,_⟩,_⟩ := echoed
    refine ⟨len ▸ burst,?_⟩
    rw [length,we,size,len]
    cases request.we <;> rfl

theorem acceptedFits {h : Handler} (ok : WellFormed h) (op) : ∀ p ∈ h.acceptedPackets op, p.Fits := by
  intro p mem
  cases op with
  | send request =>
    simp only [acceptedPackets,sendRequest] at mem
    split at mem
    · rename_i accepted
      split at accepted
      · contradiction
      · split at accepted
        · contradiction
        · rename_i checked
          cases List.mem_singleton.mp mem
          exact requestFits checked
    · simp at mem
  | complete response =>
    simp only [acceptedPackets,completeRequest] at mem
    split at mem
    · rename_i request accepted taken
      simp only [taken] at accepted
      split at accepted
      · contradiction
      · rename_i checked
        cases List.mem_singleton.mp mem
        exact responseFits checked (ok.acceptedBurst request taken)
    · simp at mem
  | rx | tx | receive | accept | query => simp [acceptedPackets] at mem

theorem newQueueOk : QueueOk new := ⟨by simp [new],by simp [new]⟩

theorem startedFits (ops : List Op) : ∀ p ∈ machine.history startedPackets new ops,
    p ∈ machine.history acceptedPackets new ops ∧ p.Fits := by
  intro p mem
  have fits := @historyAll _ _ _ machine _ WellFormed acceptedPackets Packet.Fits
    (fun _ op ok => applyWellFormed ok op) (fun _ op ok => acceptedFits ok op) _ newWellFormed ops
  rcases startedAccepted newQueueOk ops p mem with before | accepted
  · simp [queued,queuedResponse,queuedRequest,new] at before
  · exact ⟨accepted,fits p accepted⟩

end RiscvSoc.Host.Handler
