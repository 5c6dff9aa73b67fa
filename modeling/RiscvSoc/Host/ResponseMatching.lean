import RiscvSoc.Host.HandlerInvariant

/-! Responses handed to the caller against the requests the caller sent. A log beside
the handler keeps what passed its interface: requests accepted, whole packets sent since
the last of them, responses stored and responses returned. -/
namespace RiscvSoc.Host.Handler
open LittleEndian (Byte)
open Mealy Machine

/- A response packet that reached its slot, with the request that was then sent in full
and unanswered. -/
structure Arrival where
  packetType : Byte
  response : BusResponse
  request : Option BusRequest
  deriving DecidableEq, Repr

structure Log where
  sent : List BusRequest
  answered : List BusResponse
  packets : List (List Byte)
  current : List Byte
  arrivals : List Arrival
  deriving DecidableEq, Repr

namespace Log

def empty : Log := ⟨[],[],[],[],[]⟩

def outstanding (l : Log) : Option BusRequest :=
  if l.answered.length < l.sent.length then l.sent.getLast? else none

def awaiting (l : Log) : Option BusRequest :=
  l.outstanding.filter fun request => l.packets.contains (requestPacket request)

def emit (l : Log) (byte : Byte) (whole : Bool) : Log :=
  if whole then {l with packets := l.packets ++ [l.current ++ [byte]], current := []}
  else {l with current := l.current ++ [byte]}

def arrive (l : Log) (packetType : Byte) (before after : IncomingResponse) : Log :=
  match before.valid, after with
  | false, ⟨true,some response⟩ =>
    {l with arrivals := l.arrivals ++ [⟨packetType,response,l.awaiting⟩]}
  | _, _ => l

def record (l : Log) (h : Handler) (op : Op) : Log :=
  let (out,t) := h.apply op
  match op, out with
  | .send request, .done => {l with sent := l.sent ++ [request], packets := []}
  | .tx, .sent (some byte) => l.emit byte t.pendingTx.isEmpty
  | .receive, .response (some response) => {l with answered := l.answered ++ [response]}
  | .rx _, _ => l.arrive h.rxPacketType h.outgoingResponse t.outgoingResponse
  | _, _ => l

end Log

def logged : Machine (Handler × Log) Op Outcome where
  output s op := (s.1.apply op).1
  next s op := ((s.1.apply op).2,s.2.record s.1 op)

def answers (request : BusRequest) (response : BusResponse) : Bool :=
  response.we == request.we && response.size == request.size && response.addr == request.addr &&
    response.burstLen == request.burstLen && response.srcFixed == request.srcFixed &&
    response.dstFixed == request.dstFixed

def completesResponse (h : Handler) : Bool :=
  isResponseType h.rxPacketType &&
    (h.rxState == .payload 1 || (h.rxState == .addr 3 &&
      expectedPayloadLen h.rxPacketType h.rxTempWe h.rxTempSize h.rxTempBurstLen == 0))

def finished (h : Handler) (byte : Byte) : Handler := match h.rxState with
  | .addr byteIdx => h.accumulate byteIdx byte
  | .payload _ => h.push byte
  | .idle | .ctrl1 | .len0 | .len1 => h

/- The byte completes a response packet for which the slot is free and that `finalize_rx_packet` does not drop: it compares
the metadata of type 3 only, and only while a request is outstanding. -/
def storesResponse (h : Handler) (byte : Byte) : Bool :=
  h.completesResponse && !h.outgoingResponse.valid &&
    (h.rxPacketType != 0x03 || h.outgoingRequest.all (h.finished byte).metadataMatches)

/- What is stored answers the request sent last, which has been transmitted in full. -/
def Solicited (s : Handler × Log) (op : Op) : Prop := match op with
  | .rx byte => s.1.storesResponse byte = true → s.2.awaiting.any (s.1.finished byte).metadataMatches = true
  | _ => True
instance (s op) : Decidable (Solicited s op) := match op with
  | .rx byte => inferInstanceAs (Decidable (s.1.storesResponse byte = true →
      s.2.awaiting.any (s.1.finished byte).metadataMatches = true))
  | .tx | .send _ | .receive | .accept | .complete _ | .query => .isTrue trivial

/- The response is the content of the last packet stored, and that packet came when `request` was unanswered and its packet
sent in full. -/
def Matched (l : Log) (request : BusRequest) (response : BusResponse) : Prop :=
  l.awaiting = some request ∧ answers request response = true ∧
    ∃ packetType, l.arrivals.getLast? = some ⟨packetType,response,some request⟩

theorem finishStores (h : Handler) :
    h.finishPacket.2.outgoingRequest = h.outgoingRequest ∧
    (h.finishPacket.2.outgoingResponse = h.outgoingResponse ∨
      (isResponseType h.rxPacketType = true ∧ h.outgoingResponse.valid = false ∧
        h.finishPacket.2.outgoingResponse = ⟨true,some h.rxResponse⟩ ∧
        (h.rxPacketType != 0x03 || h.outgoingRequest.all h.metadataMatches) = true)) := by
  obtain ⟨result,t,same,spec⟩ := finalizeSpec h
  simp only [finishPacket,same]
  cases spec with
  | requestFull | request | responseFull | mismatched | unknown => exact ⟨rfl,.inl rfl⟩
  | response other kind room answers =>
    refine ⟨rfl,.inr ⟨kind,room,rfl,?_⟩⟩
    rcases Decidable.em (h.rxPacketType = 0x03) with type | differs
    · rw [(Option.all_eq_true _ _).mpr (answers type),Bool.or_true]
    · rw [bne_iff_ne.mpr differs,Bool.true_or]

theorem matchingAnswers {h : Handler} {request} (same : h.metadataMatches request = true) :
    answers request h.rxResponse = true := by
  simp only [metadataMatches,Bool.and_eq_true,beq_iff_eq] at same
  obtain ⟨⟨⟨⟨⟨we,size⟩,addr⟩,burstLen⟩,srcFixed⟩,dstFixed⟩ := same
  simp [answers,rxResponse,we,size,addr,burstLen,srcFixed,dstFixed]

theorem receiveByteStores (h : Handler) (byte) :
    (h.transferRxByte byte).2.outgoingRequest = h.outgoingRequest ∧
    ((h.transferRxByte byte).2.outgoingResponse = h.outgoingResponse ∨
      (h.storesResponse byte = true ∧ h.outgoingResponse.valid = false ∧
        (h.transferRxByte byte).2.outgoingResponse = ⟨true,some (h.finished byte).rxResponse⟩)) := by
  simp only [transferRxByte]
  split
  · exact ⟨rfl,.inl rfl⟩
  · split
    · simp only [takeCtrl0]
      split <;> exact ⟨rfl,.inl rfl⟩
    · simp only [takeCtrl1]
      split <;> exact ⟨rfl,.inl rfl⟩
    · exact ⟨rfl,.inl rfl⟩
    · simp only [takeLen1]
      split <;> exact ⟨rfl,.inl rfl⟩
    · rename_i i state
      have last : h.finished byte = h.accumulate i byte := by rw [finished,state]
      simp only [takeAddr]
      split
      · rename_i final
        split
        · rename_i short
          obtain ⟨out,kept | ⟨kind,room,stored,checked⟩⟩ := finishStores (h.accumulate i byte)
          · exact ⟨out,.inl kept⟩
          · subst final
            have type : isResponseType h.rxPacketType = true := kind
            have empty : expectedPayloadLen h.rxPacketType h.rxTempWe h.rxTempSize h.rxTempBurstLen = 0 := short
            have completes : h.completesResponse = true := by simp [completesResponse,type,state,empty]
            have free : h.outgoingResponse.valid = false := room
            refine ⟨out,.inr ⟨?_,room,last ▸ stored⟩⟩
            rw [storesResponse,completes,free,last]
            exact checked
        · exact ⟨rfl,.inl rfl⟩
      · exact ⟨rfl,.inl rfl⟩
    · rename_i n state
      have last : h.finished byte = h.push byte := by rw [finished,state]
      simp only [takePayload]
      split
      · rename_i final
        obtain ⟨out,kept | ⟨kind,room,stored,checked⟩⟩ := finishStores (h.push byte)
        · exact ⟨out,.inl kept⟩
        · subst final
          have type : isResponseType h.rxPacketType = true := kind
          have completes : h.completesResponse = true := by simp [completesResponse,type,state]
          have free : h.outgoingResponse.valid = false := room
          refine ⟨out,.inr ⟨?_,room,last ▸ stored⟩⟩
          rw [storesResponse,completes,free,last]
          exact checked
      · exact ⟨rfl,.inl rfl⟩

structure Paired (h : Handler) (l : Log) : Prop where
  bounds : l.answered.length ≤ l.sent.length ∧ l.sent.length ≤ l.answered.length + 1
  outstanding : l.outstanding = h.outgoingRequest
  stored : h.outgoingResponse.valid = true → ∃ request response,
    h.outgoingResponse.response = some response ∧ Matched l request response
  pairs : ∀ (i : Nat) request response, l.sent[i]? = some request → l.answered[i]? = some response →
    answers request response = true

theorem outstandingOf {l : Log} {request} (h : l.outstanding = some request) :
    l.answered.length < l.sent.length ∧ l.sent.getLast? = some request := by
  simp only [Log.outstanding] at h
  split at h
  · rename_i more
    exact ⟨more,h⟩
  · contradiction

theorem nothingOutstanding {l : Log} (bounds : l.answered.length ≤ l.sent.length)
    (h : l.outstanding = none) : l.answered.length = l.sent.length := by
  simp only [Log.outstanding] at h
  split at h
  · rename_i more
    have empty := List.getLast?_eq_none_iff.mp h
    simp [empty] at more
  · omega

theorem awaitingOf {l : Log} {request} (h : l.awaiting = some request) :
    l.outstanding = some request ∧ requestPacket request ∈ l.packets := by
  simpa [Log.awaiting,Option.filter_eq_some_iff] using h

/- Handler steps that touch neither the host request nor the stored response, and log
entries that only add packets. -/
theorem pairedFrame {h t : Handler} {l k : Log} (ok : Paired h l)
    (out : t.outgoingRequest = h.outgoingRequest) (slot : t.outgoingResponse = h.outgoingResponse)
    (sent : k.sent = l.sent) (answered : k.answered = l.answered) (arrivals : k.arrivals = l.arrivals)
    (packets : ∀ packet ∈ l.packets, packet ∈ k.packets) : Paired t k := by
  have same : k.outstanding = l.outstanding := by simp [Log.outstanding,sent,answered]
  refine ⟨by rw [sent,answered]; exact ok.bounds,by rw [same,out]; exact ok.outstanding,?_,?_⟩
  · intro valid
    rw [slot] at valid ⊢
    obtain ⟨request,response,content,awaiting,matching,last⟩ := ok.stored valid
    obtain ⟨pending,whole⟩ := awaitingOf awaiting
    refine ⟨request,response,content,?_,matching,by rw [arrivals]; exact last⟩
    simp [Log.awaiting,same,pending,packets _ whole]
  · rw [sent,answered]
    exact ok.pairs

theorem pairedSend {h : Handler} {l : Log} (ok : Paired h l) (request) :
    Paired (h.apply (.send request)).2 (l.record h (.send request)) := by
  cases out : h.outgoingRequest with
  | some pending => simpa [apply,sendRequest,out,Log.record,Outcome.ofResult] using ok
  | none =>
    cases fault : requestFault request with
    | some e => simpa [apply,sendRequest,out,fault,Log.record,Outcome.ofResult] using ok
    | none =>
      have free : l.outstanding = none := ok.outstanding.trans out
      have even := nothingOutstanding ok.bounds.1 free
      simp only [apply,sendRequest,out,fault,Log.record,Outcome.ofResult,Prod.map,Option.isSome_none,
        Bool.false_eq_true,if_false]
      refine ⟨?_,?_,?_,?_⟩
      · simp [even]
      · simp [Log.outstanding,even]
      · intro valid
        obtain ⟨_,_,_,awaiting,_⟩ := ok.stored valid
        rw [(awaitingOf awaiting).1] at free
        contradiction
      · intro i q r asked answered
        have inside : i < l.sent.length := by
          have := (List.getElem?_eq_some_iff.mp answered).1
          simp only at this
          omega
        rw [List.getElem?_append_left inside] at asked
        exact ok.pairs i q r asked answered

theorem pairedReceive {h : Handler} {l : Log} (ok : Paired h l) :
    Paired (h.apply .receive).2 (l.record h .receive) := by
  cases valid : h.outgoingResponse.valid with
  | false => simpa [apply,receiveResponse,valid,Log.record] using ok
  | true =>
    obtain ⟨request,response,content,awaiting,matching,_⟩ := ok.stored valid
    have pending := (awaitingOf awaiting).1
    have out : h.outgoingRequest = some request := ok.outstanding.symm.trans pending
    obtain ⟨more,last⟩ := outstandingOf pending
    have bounds := ok.bounds
    simp only [apply,receiveResponse,valid,out,content,Log.record,Prod.map,Option.isNone_some,
      Bool.not_true,Bool.false_eq_true,false_and,if_false]
    refine ⟨?_,?_,?_,?_⟩
    · simp only [List.length_append,List.length_cons,List.length_nil]
      omega
    · have settled : ¬ l.answered.length + 1 < l.sent.length := by omega
      simp [Log.outstanding,settled]
    · simp
    · intro i q r asked answered
      rcases Nat.lt_or_ge i l.answered.length with before | after
      · rw [List.getElem?_append_left before] at answered
        exact ok.pairs i q r asked answered
      · have inside := (List.getElem?_eq_some_iff.mp answered).1
        simp only [List.length_append,List.length_cons,List.length_nil] at inside
        have final : i = l.answered.length := by omega
        subst final
        rw [List.getLast?_eq_getElem?,show l.sent.length - 1 = l.answered.length by omega,asked] at last
        cases Option.some.inj last
        simp only [List.getElem?_concat_length,Option.some.injEq] at answered
        exact answered ▸ matching

theorem pairedByte {h : Handler} {l : Log} (ok : Paired h l) (byte)
    (solicited : Solicited (h,l) (.rx byte)) :
    Paired (h.apply (.rx byte)).2 (l.record h (.rx byte)) := by
  obtain ⟨out,kept | ⟨stores,room,stored⟩⟩ := receiveByteStores h byte
  · have quiet : l.record h (.rx byte) = l := by
      change l.arrive h.rxPacketType h.outgoingResponse (h.transferRxByte byte).2.outgoingResponse = l
      rw [kept]
      cases h.outgoingResponse with
      | mk valid response => cases valid <;> rfl
    rw [quiet]
    exact pairedFrame ok out kept rfl rfl rfl fun _ mem => mem
  · obtain ⟨request,awaiting,same⟩ := (Option.any_eq_true _ _).mp (solicited stores)
    have entry : l.record h (.rx byte) =
        {l with arrivals := l.arrivals ++ [⟨h.rxPacketType,(h.finished byte).rxResponse,some request⟩]} := by
      change l.arrive h.rxPacketType h.outgoingResponse (h.transferRxByte byte).2.outgoingResponse = _
      rw [stored,← awaiting]
      simp [Log.arrive,room]
    rw [entry]
    refine ⟨ok.bounds,ok.outstanding.trans out.symm,?_,ok.pairs⟩
    intro _
    refine ⟨request,_,congrArg IncomingResponse.response stored,awaiting,matchingAnswers same,h.rxPacketType,?_⟩
    simp

theorem pairedStep {h : Handler} {l : Log} (ok : Paired h l) (op) (solicited : Solicited (h,l) op) :
    Paired (h.apply op).2 (l.record h op) := by
  cases op with
  | rx byte => exact pairedByte ok byte solicited
  | send request => exact pairedSend ok request
  | receive => exact pairedReceive ok
  | query => exact ok
  | accept =>
    have frame : h.acceptRequest.2.outgoingRequest = h.outgoingRequest ∧
        h.acceptRequest.2.outgoingResponse = h.outgoingResponse := by
      simp only [acceptRequest]
      split
      · exact ⟨rfl,rfl⟩
      · split <;> exact ⟨rfl,rfl⟩
    exact pairedFrame ok frame.1 frame.2 rfl rfl rfl fun _ mem => mem
  | complete response =>
    obtain ⟨_,same⟩ := completeFrame h response
    refine pairedFrame (t := (h.completeRequest response).2) ok ?_ ?_ rfl rfl rfl fun _ mem => mem <;>
      rw [same]
  | tx =>
    obtain ⟨_,_,_,_,_,same,_⟩ := transmitFrame h
    obtain ⟨out,t,sent,_⟩ := transmitSpec h
    have entry : l.record h .tx = l ∨ ∃ byte whole, l.record h .tx = l.emit byte whole := by
      simp only [Log.record,apply,sent,Prod.map]
      cases out with
      | none => exact .inl rfl
      | some byte => exact .inr ⟨byte,_,rfl⟩
    rcases entry with entry | ⟨byte,whole,entry⟩
    · rw [entry]
      refine pairedFrame (t := h.transferTxByte.2) ok ?_ ?_ rfl rfl rfl fun _ mem => mem <;> rw [same]
    · rw [entry]
      have packets : ∀ packet ∈ l.packets, packet ∈ (l.emit byte whole).packets := by
        intro packet mem
        cases whole <;> simp [Log.emit,mem]
      refine pairedFrame (t := h.transferTxByte.2) ok ?_ ?_ ?_ ?_ ?_ packets
      · rw [same]
      · rw [same]
      all_goals cases whole <;> rfl

theorem pairedNew : Paired new .empty := by
  refine ⟨by decide,rfl,by simp [new],?_⟩
  intro i request response asked
  simp [Log.empty] at asked

/- In a run where every response that is stored is solicited, a response is returned only for the
request sent last, which is unanswered and was sent in full before the packet came; the
`i`-th response answers the `i`-th request and no request has two. -/
theorem responsesMatched {ops} (solicited : logged.Steps Solicited (new,.empty) ops) :
    let s := logged.final (new,.empty) ops
    (∀ response, (s.1.apply .receive).1 = .response (some response) →
      ∃ request, Matched s.2 request response) ∧
    s.2.answered.length ≤ s.2.sent.length ∧
    ∀ (i : Nat) request response, s.2.sent[i]? = some request → s.2.answered[i]? = some response →
      answers request response = true := by
  intro s
  have ok := @stepsInvariant _ _ _ logged (fun s => Paired s.1 s.2) Solicited
    (fun s op ok step => pairedStep ok op step) _ pairedNew _ solicited
  refine ⟨?_,ok.bounds.1,ok.pairs⟩
  intro response returned
  cases valid : s.1.outgoingResponse.valid with
  | false => simp [apply,receiveResponse,valid] at returned
  | true =>
    obtain ⟨request,content,same,matching⟩ := ok.stored valid
    refine ⟨request,?_⟩
    simp only [apply,receiveResponse,valid,Bool.not_true,Bool.false_eq_true,if_false,Prod.map] at returned
    split at returned
    · simp at returned
    · have content' : s.1.outgoingResponse.response = some response := by
        simpa only [Outcome.response.injEq] using returned
      cases Option.some.inj (same.symm.trans content')
      exact matching

/- A read of the word at 0x10, an answer for another address that is dropped, and the FPGA's answer. -/
def readRun : List Op :=
  .send (.read 0x10 .word) :: [0x38,0,0,0,0x14,0,0,0,5,6,7,8].map .rx ++ List.replicate 8 .tx ++
    [0x38,0,0,0,0x10,0,0,0,1,2,3,4].map .rx

theorem readMatched : ∃ request, Matched (logged.final (new,.empty) readRun).2 request
    ⟨0x04030201,.word,false,0x10,1,false,false,[1,2,3,4]⟩ := by
  have solicited : logged.Steps Solicited (new,.empty) readRun := by
    unfold Steps
    decide +kernel
  exact (responsesMatched solicited).1 _ (by decide +kernel)

/- A write acknowledge of type 1 that nobody asked for is returned for a read sent later,
of which not one byte has been transmitted. -/
theorem unsolicitedReturned :
    let s := logged.final (new,.empty)
      ([0x10,1,0,0,0x20,0,0,0].map .rx ++ [.send (.read 0x10 .word)])
    (s.1.apply .receive).1 = .response (some ⟨0,.byte,true,0x20,1,false,false,[]⟩) ∧
    s.2.sent = [.read 0x10 .word] ∧ s.2.packets = [] ∧
    ¬ ∃ request, Matched s.2 request ⟨0,.byte,true,0x20,1,false,false,[]⟩ := by
  refine ⟨by decide +kernel,by decide +kernel,by decide +kernel,?_⟩
  rintro ⟨request,awaiting,_⟩
  have nothing : (logged.final (new,.empty)
      ([0x10,1,0,0,0x20,0,0,0].map .rx ++ [.send (.read 0x10 .word)])).2.awaiting = none := by
    decide +kernel
  rw [nothing] at awaiting
  contradiction

end RiscvSoc.Host.Handler
