import RiscvSoc.Link.Downstream
import RiscvSoc.Link.Upstream
import RiscvSoc.Rtl.HostBusProgress

/-! The RTL and the handler joined by the bytes under way between them. Whatever is in flight
belongs to the one CPU request or the one host request that waits for its answer. -/
namespace RiscvSoc.Link
open LittleEndian (Byte)
open RiscvSoc.HostBus (Beat)
open RiscvSoc.HostBus.Tx (beatsLeft)
open RiscvSoc.HostBus.Interface (Engine Live Reading rxOwed)
open RiscvSoc.Host (Handler BusRequest BusResponse)
open RiscvSoc.Host.Handler (Packet WellFormed QueueOk BurstInRange echoes)

def requestsIn (packets : List Packet) : List BusRequest := packets.filterMap fun p => match p with
  | .request r => some r
  | .response _ => none

def responsesIn (packets : List Packet) : List BusResponse := packets.filterMap fun p => match p with
  | .request _ => none
  | .response r => some r

def arriving (h : Handler) (down : List Byte) : List Packet := (h.parser.run down).1

def held (h : Handler) : List BusRequest := if h.incomingRequest.valid then h.incomingRequest.request.toList else []

/- CPU requests on their way to `accept_request`, oldest first, and all that wait for `start_tx_packet`
to send their response. -/
def offered (h : Handler) (down : List Byte) : List BusRequest := held h ++ requestsIn (arriving h down)
def waitingCpu (h : Handler) (down : List Byte) : List BusRequest := h.acceptedRequest.toList ++ offered h down

def orders (rx : HostBus.Rx.Regs) (up : List Byte) : List Beat := (inbound rx up).filter (·.req)
def answers (rx : HostBus.Rx.Regs) (up : List Byte) : List Beat := (inbound rx up).filter (!·.req)

structure Sound (h : Handler) : Prop where
  formed : WellFormed h
  queue : QueueOk h
  request : ∀ r, h.outgoingRequest = some r → (Packet.request r).Fits
  response : ∀ r, h.pendingResponse = some r → (Packet.response r).Fits

/- Where the outstanding host request is once its packet was begun, with the orders and the
responses under way for it. -/
inductive Stage (rtl : HostBus.Interface.Regs) (r : BusRequest) : List Beat → List BusResponse → Prop where
  | queued (idle : rtl.host.state = .idle) : Stage rtl r (beats (.request r)) []
  | writing {rest} (state : rtl.host.state = .writeA ∨ rtl.host.state = .writeD ∨ rtl.host.state = .writeWait)
      (info : rtl.host.info = info (.request r)) (left : rest.length = rxOwed rtl.host) : Stage rtl r rest []
  | acking (state : rtl.host.state = .writeResp) (info : rtl.host.info = info (.request r)) : Stage rtl r [] []
  | reading (state : Reading rtl.host) (info : rtl.host.info = info (.request r))
      (inside : beatsLeft rtl.tx ≠ 0 → rtl.tx.info = rtl.host.info) : Stage rtl r [] []
  | answered {response} (idle : rtl.host.state = .idle) (own : echoes response r = true) : Stage rtl r [] [response]

def Answered (h : Handler) : Prop := ∃ r response, h.outgoingRequest = some r ∧ h.outgoingRequestTxStarted = true ∧
  h.outgoingResponse.response = some response ∧ echoes response r = true

/- `lost` says that the packet of a host request may have been cut. -/
inductive HostSide (lost : Prop) (rtl : HostBus.Interface.Regs) (h : Handler) : List Beat → List BusResponse → Prop where
  | quiet (idle : rtl.host.state = .idle) (stored : h.outgoingResponse.valid = true → Answered h)
      (kept : h.outgoingRequestTxStarted = true → h.outgoingResponse.valid = true ∨ lost) : HostSide lost rtl h [] []
  | busy {r orders responses} (out : h.outgoingRequest = some r) (started : h.outgoingRequestTxStarted = true)
      (room : h.outgoingResponse.valid = false) (stage : Stage rtl r orders responses) : HostSide lost rtl h orders responses

/- `stale` responses come too late for the request they were made for. -/
structure Joined (lost : Prop) (stale : Nat) (rtl : HostBus.Interface.Regs) (h : Handler) (down up : List Byte) : Prop where
  live : Live rtl
  sound : Sound h
  sized : rtl.cpu.reqPending = true → rtl.cpu.capSize ≠ 0b11
  single : (∀ r ∈ waitingCpu h down, r.burstLen = 1) ∧ ∀ r, h.pendingResponse = some r → r.burstLen = 1
  awaits : ∃ words, Awaits rtl.tx words (h.parser.run down).2
  solid : ∀ xs byte, down = xs ++ [byte] → beatsLeft rtl.tx ≠ 0 ∨ ((h.parser.run xs).2.feed byte).1 ≠ []
  whole : Whole rtl.rx up
  closed : ¬(rtl.cpu.reqPending = true ∧ rtl.cpu.waitResp = true)
  room : (offered h down).length ≤ 1
  count : (waitingCpu h down).length + (answers rtl.rx up).length = rtl.cpu.waitResp.toNat + stale
  host : HostSide lost rtl h (orders rtl.rx up) (responsesIn (arriving h down))

structure Carried (stale : Nat) (rtl : HostBus.Interface.Regs) (h : Handler) (down up : List Byte) : Prop where
  live : Live rtl
  sound : Sound h
  sized : rtl.cpu.reqPending = true → rtl.cpu.capSize ≠ 0b11
  single : (∀ r ∈ waitingCpu h down, r.burstLen = 1) ∧ ∀ r, h.pendingResponse = some r → r.burstLen = 1
  awaits : ∃ words, Awaits rtl.tx words (h.parser.run down).2
  whole : Whole rtl.rx up
  closed : ¬(rtl.cpu.reqPending = true ∧ rtl.cpu.waitResp = true)
  room : (offered h down).length ≤ 1
  count : (waitingCpu h down).length + (answers rtl.rx up).length = rtl.cpu.waitResp.toNat + stale

variable {lost : Prop} {stale : Nat} {rtl : HostBus.Interface.Regs} {h : Handler} {down up : List Byte}

theorem Joined.carried (j : Joined lost stale rtl h down up) : Carried stale rtl h down up :=
  ⟨j.live,j.sound,j.sized,j.single,j.awaits,j.whole,j.closed,j.room,j.count⟩

theorem Carried.joined (c : Carried stale rtl h down up)
    (solid : ∀ xs byte, down = xs ++ [byte] → beatsLeft rtl.tx ≠ 0 ∨ ((h.parser.run xs).2.feed byte).1 ≠ [])
    (host : HostSide lost rtl h (orders rtl.rx up) (responsesIn (arriving h down))) : Joined lost stale rtl h down up :=
  ⟨c.live,c.sound,c.sized,c.single,c.awaits,solid,c.whole,c.closed,c.room,c.count,host⟩

theorem sendCases (h : Handler) (r : BusRequest) : (h.sendRequest r).2 = h ∨
    h.outgoingRequest = none ∧ Host.Handler.requestFault r = none ∧
      h.sendRequest r = (.ok (),{h with outgoingRequest := some r}) := by
  simp only [Host.Handler.sendRequest]
  split
  · exact .inl rfl
  · rename_i free
    split
    · exact .inl rfl
    · rename_i checked
      exact .inr ⟨by simpa using free,checked,rfl⟩

theorem receiveCases (h : Handler) : (h.receiveResponse.2 = h) ∨ h.outgoingResponse.valid = true ∧
    h.receiveResponse = (h.outgoingResponse.response,{h with
      outgoingRequest := none
      outgoingRequestTxStarted := false
      outgoingResponse := ⟨false,none⟩}) := by
  simp only [Host.Handler.receiveResponse]
  split
  · exact .inl rfl
  · rename_i valid
    split
    · exact .inl rfl
    · exact .inr ⟨by simpa using valid,rfl⟩

theorem acceptCases (h : Handler) : (∃ e, h.acceptRequest = (.error e,h)) ∨ ∃ r, h.incomingRequest = ⟨true,some r⟩ ∧
    h.acceptedRequest = none ∧
    h.acceptRequest = (.ok r,{h with acceptedRequest := some r, incomingRequest := ⟨false,none⟩}) := by
  simp only [Host.Handler.acceptRequest]
  split
  · exact .inl ⟨_,rfl⟩
  · rename_i free
    simp only [Bool.or_eq_true,Bool.not_eq_true',not_or,Bool.not_eq_false,Bool.not_eq_true] at free
    split
    · exact .inl ⟨_,rfl⟩
    · rename_i r stored
      refine .inr ⟨r,?_,by simpa using free.2,rfl⟩
      cases slot : h.incomingRequest
      simp_all

theorem completeCases (h : Handler) (r : BusResponse) : (h.completeRequest r).2 = h ∨ ∃ a, h.acceptedRequest = some a ∧
    Host.Handler.completionFault (Host.Handler.fillMetadata r a) a = none ∧
    h.completeRequest r = (.ok (),{h with pendingResponse := some (Host.Handler.fillMetadata r a)}) := by
  simp only [Host.Handler.completeRequest]
  split
  · exact .inl rfl
  · rename_i a taken
    split
    · exact .inl rfl
    · rename_i checked
      exact .inr ⟨a,taken,checked,rfl⟩

theorem soundStep (sound : Sound h) (op : Handler.Op) : Sound (h.apply op).2 := by
  refine ⟨Host.Handler.applyWellFormed sound.formed op,Host.Handler.applyQueueOk sound.queue op,?_,?_⟩
  · intro r out
    cases op with
    | rx byte =>
      change (h.transferRxByte byte).2.outgoingRequest = some r at out
      rw [(Host.Handler.receiveByteFrame h byte).request] at out
      exact sound.request r out
    | tx =>
      obtain ⟨_,_,_,_,_,same,_⟩ := Host.Handler.transmitFrame h
      change h.transferTxByte.2.outgoingRequest = some r at out
      rw [same] at out
      exact sound.request r out
    | send request =>
      change (h.sendRequest request).2.outgoingRequest = some r at out
      rcases sendCases h request with same | ⟨_,checked,same⟩
      · rw [same] at out
        exact sound.request r out
      · rw [same] at out
        cases Option.some.inj out
        exact Host.Handler.requestFits checked
    | receive =>
      change h.receiveResponse.2.outgoingRequest = some r at out
      rcases receiveCases h with same | ⟨_,same⟩
      · rw [same] at out
        exact sound.request r out
      · simp [same] at out
    | accept =>
      change h.acceptRequest.2.outgoingRequest = some r at out
      rcases acceptCases h with ⟨_,same⟩ | ⟨_,_,_,same⟩ <;> rw [same] at out <;> exact sound.request r out
    | complete response =>
      change (h.completeRequest response).2.outgoingRequest = some r at out
      rcases completeCases h response with same | ⟨_,_,_,same⟩ <;> rw [same] at out <;> exact sound.request r out
    | query => exact sound.request r out
  · intro r queued
    cases op with
    | rx byte =>
      change (h.transferRxByte byte).2.pendingResponse = some r at queued
      rw [(Host.Handler.receiveByteFrame h byte).response] at queued
      exact sound.response r queued
    | tx =>
      obtain ⟨_,t,same,spec⟩ := Host.Handler.transmitSpec h
      change h.transferTxByte.2.pendingResponse = some r at queued
      rw [same] at queued
      cases spec with
      | idle | next | request => exact sound.response r queued
      | response => simp at queued
    | send request =>
      change (h.sendRequest request).2.pendingResponse = some r at queued
      rcases sendCases h request with same | ⟨_,_,same⟩ <;> rw [same] at queued <;> exact sound.response r queued
    | receive =>
      change h.receiveResponse.2.pendingResponse = some r at queued
      rcases receiveCases h with same | ⟨_,same⟩ <;> rw [same] at queued <;> exact sound.response r queued
    | accept =>
      change h.acceptRequest.2.pendingResponse = some r at queued
      rcases acceptCases h with ⟨_,same⟩ | ⟨_,_,_,same⟩ <;> rw [same] at queued <;> exact sound.response r queued
    | complete response =>
      change (h.completeRequest response).2.pendingResponse = some r at queued
      rcases completeCases h response with same | ⟨a,taken,checked,same⟩
      · rw [same] at queued
        exact sound.response r queued
      · rw [same] at queued
        cases Option.some.inj queued
        exact Host.Handler.responseFits checked (sound.formed.acceptedBurst a taken)
    | query => exact sound.response r queued

theorem hostCases {beats : List Beat} {responses : List BusResponse} {goal : Prop} (host : HostSide lost rtl h beats responses)
    (quiet : beats = [] → responses = [] → rtl.host.state = .idle → (h.outgoingResponse.valid = true → Answered h) →
      (h.outgoingRequestTxStarted = true → h.outgoingResponse.valid = true ∨ lost) → goal)
    (busy : ∀ r, h.outgoingRequest = some r → h.outgoingRequestTxStarted = true → h.outgoingResponse.valid = false →
      Stage rtl r beats responses → goal) : goal := by
  cases host with
  | quiet idle stored kept => exact quiet rfl rfl idle stored kept
  | busy out started room stage => exact busy _ out started room stage

theorem sendCarried (c : Carried stale rtl h down up) (r : BusRequest) : Carried stale rtl (h.sendRequest r).2 down up := by
  have sound : Sound (h.sendRequest r).2 := soundStep c.sound (.send r)
  rcases sendCases h r with same | ⟨_,_,same⟩
  · rwa [same]
  · rw [same] at sound ⊢
    exact {c with sound := sound}

theorem receiveCarried (c : Carried stale rtl h down up) : Carried stale rtl h.receiveResponse.2 down up := by
  have sound : Sound h.receiveResponse.2 := soundStep c.sound .receive
  rcases receiveCases h with same | ⟨_,same⟩
  · rwa [same]
  · rw [same] at sound ⊢
    exact {c with sound := sound}

theorem sendJoined (j : Joined lost stale rtl h down up) (r : BusRequest) : Joined lost stale rtl (h.sendRequest r).2 down up := by
  have carried := sendCarried j.carried r
  rcases sendCases h r with same | ⟨free,_,same⟩
  · rwa [same]
  · rw [same] at carried ⊢
    have fresh := j.sound.queue.fresh free
    have host : HostSide lost rtl {h with outgoingRequest := some r} (orders rtl.rx up)
        (responsesIn (arriving h down)) := hostCases j.host
      (fun absent empty idle stored _ => by
        rw [absent,empty]
        refine .quiet idle (fun valid => ?_) (by simp [fresh])
        obtain ⟨_,_,out,_⟩ := stored valid
        simp [free] at out)
      (fun _ out => by simp [free] at out)
    exact carried.joined j.solid host

theorem receiveJoined (j : Joined lost stale rtl h down up) : Joined lost stale rtl h.receiveResponse.2 down up := by
  have carried := receiveCarried j.carried
  rcases receiveCases h with same | ⟨valid,same⟩
  · rwa [same]
  · rw [same] at carried ⊢
    have host : HostSide lost rtl {h with
        outgoingRequest := none
        outgoingRequestTxStarted := false
        outgoingResponse := ⟨false,none⟩} (orders rtl.rx up) (responsesIn (arriving h down)) := hostCases j.host
      (fun absent empty idle _ _ => by
        rw [absent,empty]
        exact .quiet idle (by simp) (by simp))
      (fun _ _ _ room => by simp [valid] at room)
    exact carried.joined j.solid host

theorem hostSame {t : Handler} {beats : List Beat} {responses : List BusResponse} (host : HostSide lost rtl h beats responses)
    (out : t.outgoingRequest = h.outgoingRequest) (started : t.outgoingRequestTxStarted = h.outgoingRequestTxStarted)
    (slot : t.outgoingResponse = h.outgoingResponse) : HostSide lost rtl t beats responses := by
  refine hostCases host (fun absent empty idle stored kept => ?_) (fun r out' started' room stage => ?_)
  · rw [absent,empty]
    refine .quiet idle (fun valid => ?_) (by rw [started,slot]; exact kept)
    rw [slot] at valid
    have answered := stored valid
    simpa only [Answered,out,started,slot] using answered
  · exact .busy (out.trans out') (started.trans started') (by rw [slot]; exact room) stage

theorem acceptCarried (c : Carried stale rtl h down up) : Carried stale rtl h.acceptRequest.2 down up ∧
    waitingCpu h.acceptRequest.2 down = waitingCpu h down ∧
    ∀ r, h.acceptRequest.1 = .ok r → offered h down = r :: offered h.acceptRequest.2 down := by
  have sound : Sound h.acceptRequest.2 := soundStep c.sound .accept
  rcases acceptCases h with ⟨_,same⟩ | ⟨r,slot,free,same⟩
  · rw [same]
    exact ⟨c,rfl,by simp⟩
  · rw [same] at sound ⊢
    have first : offered h down = r :: requestsIn (arriving h down) := by simp [offered,held,slot]
    have moved : waitingCpu {h with acceptedRequest := some r, incomingRequest := ⟨false,none⟩} down = waitingCpu h down := by
      rw [waitingCpu,waitingCpu,first,free]
      rfl
    have left : offered {h with acceptedRequest := some r, incomingRequest := ⟨false,none⟩} down =
      requestsIn (arriving h down) := rfl
    have room := c.room
    rw [first,List.length_cons] at room
    refine ⟨{c with
      sound := sound
      single := ⟨by rw [moved]; exact c.single.1,c.single.2⟩
      room := by
        change (offered {h with acceptedRequest := some r, incomingRequest := ⟨false,none⟩} down).length ≤ 1
        rw [left]
        omega
      count := by
        change (waitingCpu {h with acceptedRequest := some r, incomingRequest := ⟨false,none⟩} down).length + _ = _
        rw [moved]
        exact c.count},moved,?_⟩
    intro r' ok
    cases ok
    exact first

theorem acceptJoined (j : Joined lost stale rtl h down up) : Joined lost stale rtl h.acceptRequest.2 down up ∧
    waitingCpu h.acceptRequest.2 down = waitingCpu h down ∧
    ∀ r, h.acceptRequest.1 = .ok r → offered h down = r :: offered h.acceptRequest.2 down := by
  obtain ⟨carried,moved,first⟩ := acceptCarried j.carried
  refine ⟨?_,moved,first⟩
  rcases acceptCases h with ⟨_,same⟩ | ⟨r,_,_,same⟩
  · rwa [same]
  · rw [same] at carried ⊢
    exact carried.joined j.solid (hostSame j.host rfl rfl rfl)

theorem completeCarried (c : Carried stale rtl h down up) (response : BusResponse) :
    Carried stale rtl (h.completeRequest response).2 down up := by
  have sound : Sound (h.completeRequest response).2 := soundStep c.sound (.complete response)
  rcases completeCases h response with same | ⟨a,taken,checked,same⟩
  · rwa [same]
  · rw [same] at sound ⊢
    have one : a.burstLen = 1 := c.single.1 a (by simp [waitingCpu,taken])
    refine {c with sound := sound, single := ⟨c.single.1,?_⟩}
    intro r queued
    cases Option.some.inj queued
    simp only [Host.Handler.completionFault] at checked
    split at checked
    · contradiction
    · rename_i echoed
      simp only [Bool.not_eq_true,Bool.not_eq_false',echoes,Bool.and_eq_true,beq_iff_eq] at echoed
      exact echoed.1.1.2.trans one

theorem completeJoined (j : Joined lost stale rtl h down up) (response : BusResponse) :
    Joined lost stale rtl (h.completeRequest response).2 down up := by
  have carried := completeCarried j.carried response
  rcases completeCases h response with same | ⟨_,_,_,same⟩
  · rwa [same]
  · rw [same] at carried ⊢
    exact carried.joined j.solid (hostSame j.host rfl rfl rfl)

theorem beatsKind (p : Packet) : ∀ b ∈ beats p, b.req = (wireType p == 0b0010) := by
  intro b mem
  simp only [beats,HostBus.Rx.Packet.beats,HostBus.Rx.frameBeats] at mem
  rcases Bool.eq_false_or_eq_true (HostBus.Rx.carries (wireType p) (info p).we) with carried | bare
  · rw [show HostBus.Rx.carries (onWire p).packetType (onWire p).info.we = true from carried,if_pos rfl] at mem
    exact HostBus.Interface.dataBeatsReq _ _ _ _ b mem
  · rw [show HostBus.Rx.carries (onWire p).packetType (onWire p).info.we = false from bare] at mem
    rw [List.mem_singleton.mp mem]
    rfl

theorem requestBeats (r : BusRequest) : (beats (.request r)).filter (·.req) = beats (.request r) ∧
    (beats (.request r)).filter (!·.req) = [] := by
  have kind := beatsKind (.request r)
  exact ⟨List.filter_eq_self.mpr fun b mem => kind b mem,
    List.filter_eq_nil_iff.mpr fun b mem => by simp [kind b mem,wireType]⟩

theorem beatsSome {p : Packet} (fits : p.Fits) : beats p ≠ [] := by
  have payload := (packetFrame fits).2
  simp only [beats,HostBus.Rx.Packet.beats,HostBus.Rx.frameBeats]
  change (if HostBus.Rx.carries (wireType p) (info p).we then _ else _) ≠ []
  split
  · rename_i carried
    rw [if_pos carried] at payload
    have count := payload.count
    change HostBus.dataBeats _ _ _ ((payloadChunks p).map _) ≠ []
    generalize payloadChunks p = chunks at count
    cases chunks with
    | nil => simp at count
    | cons chunk rest => exact List.cons_ne_nil _ _
  · exact List.cons_ne_nil _ _

theorem answerBeat {r : BusResponse} (fits : (Packet.response r).Fits) (one : r.burstLen = 1) :
    ∃ b : Beat, b.req = false ∧ beats (.response r) = [b] := by
  have kind := beatsKind (.response r)
  have payload := (packetFrame fits).2
  obtain ⟨b,same⟩ : ∃ b, beats (.response r) = [b] := by
    simp only [beats,HostBus.Rx.Packet.beats,HostBus.Rx.frameBeats]
    change ∃ b, (if HostBus.Rx.carries (wireType (.response r)) (info (.response r)).we then _ else _) = [b]
    split
    · rename_i carried
      rw [if_pos carried] at payload
      have count : (payloadChunks (.response r)).length = 1 := by
        have len : (info (.response r)).burstLenM1 = 0 := by simp [info,metaOf,one]
        rw [payload.count,len]
        rfl
      obtain ⟨chunk,only⟩ := List.length_eq_one_iff.mp count
      simp [onWire,only,HostBus.dataBeats]
    · exact ⟨_,rfl⟩
  exact ⟨b,kind b (by simp [same]),same⟩

def answerBeats (responses : List BusResponse) : List Beat := responses.flatMap fun r => beats (.response r)

theorem answersAppend (xs ys : List BusResponse) : answerBeats (xs ++ ys) = answerBeats xs ++ answerBeats ys :=
  List.flatMap_append

theorem requestUp (whole : Whole rtl.rx up) {r : BusRequest} (fits : (Packet.request r).Fits) :
    orders rtl.rx (up ++ (Packet.request r).bytes) = orders rtl.rx up ++ beats (.request r) ∧
    answers rtl.rx (up ++ (Packet.request r).bytes) = answers rtl.rx up ∧
    Whole rtl.rx (up ++ (Packet.request r).bytes) := by
  obtain ⟨inbound',whole'⟩ := inboundAppend whole fits
  obtain ⟨all,others⟩ := requestBeats r
  exact ⟨by simp only [orders,inbound',List.filter_append,all],
    by simp only [answers,inbound',List.filter_append,others,List.append_nil],whole'⟩

theorem responseUp (whole : Whole rtl.rx up) {r : BusResponse} (fits : (Packet.response r).Fits) (one : r.burstLen = 1) :
    orders rtl.rx (up ++ (Packet.response r).bytes) = orders rtl.rx up ∧
    (∃ b : Beat, answerBeats [r] = [b]) ∧
    answers rtl.rx (up ++ (Packet.response r).bytes) = answers rtl.rx up ++ answerBeats [r] ∧
    Whole rtl.rx (up ++ (Packet.response r).bytes) := by
  obtain ⟨inbound',whole'⟩ := inboundAppend whole fits
  obtain ⟨b,kind,single⟩ := answerBeat fits one
  have beat : answerBeats [r] = [b] := by simp [answerBeats,single]
  exact ⟨by simp [orders,inbound',single,kind],⟨b,beat⟩,by simp [answers,inbound',single,kind,beat],whole'⟩

/- `transfer_tx_byte` sends on, or starts the response of the accepted request or the host's
request. -/
theorem transmitCarried (c : Carried stale rtl h down up) :
    Carried stale rtl h.transferTxByte.2 down (up ++ (h.startedPackets .tx).flatMap Packet.bytes) ∧
    offered h.transferTxByte.2 down = offered h down := by
  have sound : Sound h.transferTxByte.2 := soundStep c.sound .tx
  have spec := Host.Handler.startsSpec h
  generalize h.startedPackets .tx = started at spec ⊢
  generalize h.transferTxByte.2 = t at spec sound ⊢
  cases spec with
  | nothing =>
    rw [List.flatMap_nil,List.append_nil]
    exact ⟨{c with sound := sound},rfl⟩
  | @response a response buffer index taken ready =>
    obtain ⟨_,⟨b,beat⟩,answers',whole⟩ := responseUp c.whole (c.sound.response response ready) (c.single.2 response ready)
    have count := c.count
    have before : waitingCpu h down = a :: offered h down := by simp [waitingCpu,taken]
    let t : Handler := {h with acceptedRequest := none, pendingResponse := none, txBuffer := buffer, txIndex := index}
    have after : waitingCpu t down = offered h down := rfl
    rw [List.flatMap_cons,List.flatMap_nil,List.append_nil]
    refine ⟨{c with
      sound := sound
      single := ⟨?_,by simp⟩
      whole := whole
      count := ?_},rfl⟩
    · change ∀ r ∈ waitingCpu t down, r.burstLen = 1
      intro r mem
      rw [after] at mem
      exact c.single.1 r (by rw [before]; exact List.mem_cons_of_mem _ mem)
    · change (waitingCpu t down).length + _ = _
      rw [after,answers',beat,List.length_append,List.length_singleton]
      rw [before,List.length_cons] at count
      omega
  | @request r buffer index out fresh =>
    obtain ⟨_,answers',whole⟩ := requestUp c.whole (c.sound.request r out)
    rw [List.flatMap_cons,List.flatMap_nil,List.append_nil]
    refine ⟨{c with
      sound := sound
      whole := whole
      count := ?_},rfl⟩
    rw [answers']
    exact c.count

theorem transmitJoined (j : Joined lost stale rtl h down up) :
    Joined lost stale rtl h.transferTxByte.2 down (up ++ (h.startedPackets .tx).flatMap Packet.bytes) ∧
    offered h.transferTxByte.2 down = offered h down := by
  obtain ⟨carried,same⟩ := transmitCarried j.carried
  have spec := Host.Handler.startsSpec h
  generalize h.startedPackets .tx = started at spec carried ⊢
  generalize h.transferTxByte.2 = t at spec carried same ⊢
  cases spec with
  | nothing =>
    rw [List.flatMap_nil,List.append_nil] at carried ⊢
    exact ⟨carried.joined j.solid (hostSame j.host rfl rfl rfl),same⟩
  | response taken ready =>
    rw [List.flatMap_cons,List.flatMap_nil,List.append_nil] at carried ⊢
    have orders' := (responseUp j.whole (j.sound.response _ ready) (j.single.2 _ ready)).1
    exact ⟨carried.joined j.solid (by rw [orders']; exact hostSame j.host rfl rfl rfl),same⟩
  | request out fresh =>
    rw [List.flatMap_cons,List.flatMap_nil,List.append_nil] at carried ⊢
    have orders' := (requestUp j.whole (j.sound.request _ out)).1
    refine ⟨carried.joined j.solid ?_,same⟩
    rw [orders']
    refine hostCases j.host (fun absent empty idle stored _ => ?_) (fun _ _ started => by simp [fresh] at started)
    have room : h.outgoingResponse.valid = false := by
      cases valid : h.outgoingResponse.valid with
      | false => rfl
      | true =>
        obtain ⟨_,_,_,started,_⟩ := stored valid
        simp [fresh] at started
    change HostSide lost rtl _ _ (responsesIn (arriving h down))
    rw [absent,empty]
    exact .busy out rfl room (.queued idle)

theorem transmitAnswers (c : Carried stale rtl h down up) :
    answers rtl.rx (up ++ (h.startedPackets .tx).flatMap Packet.bytes) ++ answerBeats h.transferTxByte.2.pendingResponse.toList =
      answers rtl.rx up ++ answerBeats h.pendingResponse.toList := by
  have spec := Host.Handler.startsSpec h
  generalize h.startedPackets .tx = started at spec ⊢
  generalize h.transferTxByte.2 = t at spec ⊢
  cases spec with
  | nothing => simp
  | response taken ready =>
    have answers' := (responseUp c.whole (c.sound.response _ ready) (c.single.2 _ ready)).2.2.1
    rw [List.flatMap_cons,List.flatMap_nil,List.append_nil,answers',ready]
    exact List.append_nil _
  | request out fresh =>
    rw [List.flatMap_cons,List.flatMap_nil,List.append_nil,(requestUp c.whole (c.sound.request _ out)).2.1]

theorem transmitOrders (c : Carried stale rtl h down up) :
    orders rtl.rx (up ++ (h.startedPackets .tx).flatMap Packet.bytes) = orders rtl.rx up ∨
    ∃ r, h.outgoingRequest = some r ∧ h.outgoingRequestTxStarted = false ∧
      orders rtl.rx (up ++ (h.startedPackets .tx).flatMap Packet.bytes) = orders rtl.rx up ++ beats (.request r) := by
  have spec := Host.Handler.startsSpec h
  generalize h.startedPackets .tx = started at spec ⊢
  generalize h.transferTxByte.2 = t at spec ⊢
  cases spec with
  | nothing => simp
  | response taken ready =>
    rw [List.flatMap_cons,List.flatMap_nil,List.append_nil]
    exact .inl (responseUp c.whole (c.sound.response _ ready) (c.single.2 _ ready)).1
  | @request r buffer index out fresh =>
    rw [List.flatMap_cons,List.flatMap_nil,List.append_nil]
    exact .inr ⟨r,out,fresh,(requestUp c.whole (c.sound.request r out)).1⟩

theorem requestsAppend (xs ys : List Packet) : requestsIn (xs ++ ys) = requestsIn xs ++ requestsIn ys := List.filterMap_append
theorem responsesAppend (xs ys : List Packet) : responsesIn (xs ++ ys) = responsesIn xs ++ responsesIn ys := List.filterMap_append

theorem nothingIn {packets : List Packet} (requests : requestsIn packets = []) (responses : responsesIn packets = []) :
    packets = [] := by
  cases packets with
  | nil => rfl
  | cons p rest => cases p <;> simp [requestsIn,responsesIn] at requests responses

theorem heldSlot (sound : Sound h) (valid : h.incomingRequest.valid = true) : ∃ r, held h = [r] := by
  obtain ⟨r,stored⟩ := Option.isSome_iff_exists.mp (sound.formed.request valid)
  exact ⟨r,by simp [held,valid,stored]⟩

theorem slotFree (sound : Sound h) (empty : held h = []) : h.incomingRequest.valid = false := by
  cases valid : h.incomingRequest.valid with
  | false => rfl
  | true =>
    obtain ⟨r,one⟩ := heldSlot sound valid
    simp [empty] at one

theorem arrivingCons (h : Handler) (byte : Byte) (down : List Byte) : arriving h (byte :: down) =
    (h.parser.feed byte).1 ++ ((h.parser.feed byte).2.run down).1 := rfl

theorem takesOpen {byte : Byte} (j : Joined lost stale rtl h (byte :: down) up) : h.canAcceptRx = true := by
  rw [Host.Handler.canAcceptRx]
  split
  · rfl
  · cases stored : h.outgoingResponse.valid with
    | false => rfl
    | true =>
      cases request : h.incomingRequest.valid with
      | false => rfl
      | true =>
        refine hostCases j.host (fun _ empty idle _ _ => ?_) (fun _ _ _ room => by simp [stored] at room)
        obtain ⟨r,one⟩ := heldSlot j.sound request
        have room := j.room
        rw [offered,one,List.length_append,List.length_singleton] at room
        have absent := nothingIn (List.length_eq_zero_iff.mp (by omega)) empty
        obtain ⟨xs,last,split⟩ : ∃ xs last, byte :: down = xs ++ [last] :=
          ⟨_,_,(List.dropLast_concat_getLast (List.cons_ne_nil byte down)).symm⟩
        rcases j.solid xs last split with more | ends
        · rw [j.live.left] at more
          simp [HostBus.Interface.txOwed,idle] at more
        · rw [split,arriving,Host.Handler.Parser.runAppend] at absent
          have tail := (List.append_eq_nil_iff.mp absent).2
          exact absurd (List.append_eq_nil_iff.mp tail).1 ends

theorem takenCarried {t : Handler} {byte : Byte} (c : Carried stale rtl h (byte :: down) up) (sound : Sound t)
    (parser : t.parser = (h.parser.feed byte).2) (accepted : t.acceptedRequest = h.acceptedRequest)
    (pending : t.pendingResponse = h.pendingResponse) (same : offered t down = offered h (byte :: down)) :
    Carried stale rtl t down up := by
  have waiting : waitingCpu t down = waitingCpu h (byte :: down) := by rw [waitingCpu,waitingCpu,accepted,same]
  exact {c with
    sound := sound
    single := ⟨by rw [waiting]; exact c.single.1,by rw [pending]; exact c.single.2⟩
    awaits := by rw [parser]; exact c.awaits
    room := by rw [same]; exact c.room
    count := by rw [waiting]; exact c.count}

theorem fedOffered {t : Handler} {byte : Byte} {packets : List Packet} {p : Host.Handler.Parser}
    (result : h.parser.feed byte = (packets,p)) (parser : t.parser = p) (slots : held t = held h ++ requestsIn packets) :
    offered t down = offered h (byte :: down) := by
  rw [offered,offered,arrivingCons,result,requestsAppend,slots,List.append_assoc,arriving,parser]

theorem slotOpen {byte : Byte} {r : BusRequest} {p : Host.Handler.Parser} (c : Carried stale rtl h (byte :: down) up)
    (result : h.parser.feed byte = ([.request r],p)) : h.incomingRequest.valid = false := by
  have room := c.room
  rw [offered,arrivingCons,result,requestsAppend] at room
  simp only [requestsIn,List.filterMap_cons,List.filterMap_nil,List.length_append,List.length_cons] at room
  exact slotFree c.sound (List.length_eq_zero_iff.mp (by omega))

theorem takeJoined {byte : Byte} (j : Joined lost stale rtl h (byte :: down) up) :
    ∃ t, h.transferRxByte byte = (.ok (),t) ∧ Joined lost stale rtl t down up ∧
      t.acceptedRequest = h.acceptedRequest ∧ t.pendingResponse = h.pendingResponse ∧
      held t = held h ++ requestsIn (h.parser.feed byte).1 ∧ t.parser = (h.parser.feed byte).2 := by
  have fed := Host.Handler.feedSpec (takesOpen j) byte
  have sound : Sound (h.transferRxByte byte).2 := soundStep j.sound (.rx byte)
  have split := arrivingCons h byte down
  have host := j.host
  have solid : ∀ xs last, down = xs ++ [last] → beatsLeft rtl.tx ≠ 0 ∨
      (((h.parser.feed byte).2.run xs).2.feed last).1 ≠ [] := fun xs last split =>
    j.solid (byte :: xs) last (congrArg (byte :: ·) split)
  rw [split,responsesAppend] at host
  generalize result : h.parser.feed byte = next at fed host solid
  cases fed with
  | inside p taken =>
    have same : offered (h.withParser p) down = offered h (byte :: down) := fedOffered result rfl (List.append_nil _).symm
    rw [taken] at sound ⊢
    have carried := takenCarried j.carried sound (by rw [result]; rfl) rfl rfl same
    exact ⟨_,rfl,carried.joined solid (hostSame host rfl rfl rfl),rfl,rfl,(List.append_nil _).symm,rfl⟩
  | request p r taken =>
    have free := slotOpen j.carried result
    have slots : held {h.withParser p with incomingRequest := ⟨true,some r⟩} = held h ++ requestsIn [.request r] := by
      simp [held,free,requestsIn]
    have same : offered {h.withParser p with incomingRequest := ⟨true,some r⟩} down = offered h (byte :: down) :=
      fedOffered result rfl slots
    rw [taken free] at sound ⊢
    have carried := takenCarried j.carried sound (by rw [result]; rfl) rfl rfl same
    exact ⟨_,rfl,carried.joined solid (hostSame host rfl rfl rfl),rfl,rfl,slots,rfl⟩
  | response p response taken =>
    refine hostCases host (fun _ empty => by simp [responsesIn] at empty) (fun r out started room stage => ?_)
    change Stage rtl r (orders rtl.rx up) ([response] ++ responsesIn (p.run down).1) at stage
    generalize under : orders rtl.rx up = beats at stage
    generalize later : responsesIn (p.run down).1 = rest at stage
    cases stage with
    | answered idle own =>
      rw [taken room (fun request same => by cases Option.some.inj (out.symm.trans same); exact own)] at sound ⊢
      have same : offered {h.withParser p with outgoingResponse := ⟨true,some response⟩} down = offered h (byte :: down) :=
        fedOffered result rfl (List.append_nil _).symm
      have carried := takenCarried j.carried sound (by rw [result]; rfl) rfl rfl same
      refine ⟨_,rfl,carried.joined solid ?_,rfl,rfl,(List.append_nil _).symm,rfl⟩
      change HostSide lost rtl _ (orders rtl.rx up) (responsesIn (p.run down).1)
      rw [under,later]
      exact .quiet idle (fun _ => ⟨r,response,out,started,rfl,own⟩) (fun _ => .inl rfl)

end RiscvSoc.Link
