import RiscvSoc.Host.Handler

/-! Invariants of `HostBusHandler` over every run of its methods. -/
namespace RiscvSoc.Host.Handler
open LittleEndian (Byte)
open Mealy Machine

def BurstInRange (burstLen : Word) : Prop := 0 < burstLen.toNat ∧ burstLen.toNat ≤ maxBurstBeats

structure ParserOk (h : Handler) : Prop where
  payload : ∀ n, h.rxState = .payload n →
    (isRequestType h.rxPacketType && h.rxTempWe || isResponseType h.rxPacketType && !h.rxTempWe) = true
  boundary : (∀ n, h.rxState ≠ .payload n) → h.rxPayload = []
  low : h.rxState = .len1 → h.rxTempBurstLen.toNat < 256
  addrBurst : ∀ i, h.rxState = .addr i → BurstInRange h.rxTempBurstLen
  payloadBurst : ∀ n, h.rxState = .payload n → BurstInRange h.rxTempBurstLen

structure SlotsOk (h : Handler) : Prop where
  request : h.incomingRequest.valid = true → h.incomingRequest.request.isSome = true
  response : h.outgoingResponse.valid = true → h.outgoingResponse.response.isSome = true
  requestBurst : ∀ request, h.incomingRequest.request = some request → BurstInRange request.burstLen
  acceptedBurst : ∀ request, h.acceptedRequest = some request → BurstInRange request.burstLen

structure WellFormed (h : Handler) : Prop extends ParserOk h, SlotsOk h

theorem newWellFormed : WellFormed new where
  payload := by simp [new]
  boundary := by simp [new]
  low := by simp [new]
  addrBurst := by simp [new]
  payloadBurst := by simp [new]
  request := by simp [new]
  response := by simp [new]
  requestBurst := by simp [new]
  acceptedBurst := by simp [new]

theorem transmitFrame (h : Handler) : ∃ buffer index accepted started pending,
    h.transferTxByte.2 = {h with
      txBuffer := buffer
      txIndex := index
      acceptedRequest := accepted
      outgoingRequestTxStarted := started
      pendingResponse := pending} ∧
    (accepted = h.acceptedRequest ∨ accepted = none) := by
  obtain ⟨out,t,same,spec⟩ := transmitSpec h
  rw [same]
  cases spec with
  | response => exact ⟨_,_,_,_,_,rfl,.inr rfl⟩
  | idle | next | request => exact ⟨_,_,_,_,_,rfl,.inl rfl⟩

theorem sendFrame (h : Handler) (request) : ∃ out,
    (h.sendRequest request).2 = {h with outgoingRequest := out} := by
  simp only [sendRequest]
  split
  · exact ⟨_,rfl⟩
  · split <;> exact ⟨_,rfl⟩

theorem completeFrame (h : Handler) (response) : ∃ pending,
    (h.completeRequest response).2 = {h with pendingResponse := pending} := by
  simp only [completeRequest]
  split
  · exact ⟨_,rfl⟩
  · split <;> exact ⟨_,rfl⟩

structure SameTransmit (h t : Handler) : Prop where
  buffer : t.txBuffer = h.txBuffer
  index : t.txIndex = h.txIndex
  accepted : t.acceptedRequest = h.acceptedRequest
  request : t.outgoingRequest = h.outgoingRequest
  started : t.outgoingRequestTxStarted = h.outgoingRequestTxStarted
  response : t.pendingResponse = h.pendingResponse

theorem finishFrame (h : Handler) : SameTransmit h h.finishPacket.2 := by
  obtain ⟨result,t,same,spec⟩ := finalizeSpec h
  simp only [finishPacket,same]
  cases spec <;> exact ⟨rfl,rfl,rfl,rfl,rfl,rfl⟩

theorem receiveByteFrame (h : Handler) (byte) : SameTransmit h (h.transferRxByte byte).2 := by
  simp only [transferRxByte]
  split
  · exact ⟨rfl,rfl,rfl,rfl,rfl,rfl⟩
  · split
    · simp only [takeCtrl0]
      split <;> exact ⟨rfl,rfl,rfl,rfl,rfl,rfl⟩
    · simp only [takeCtrl1]
      split <;> exact ⟨rfl,rfl,rfl,rfl,rfl,rfl⟩
    · exact ⟨rfl,rfl,rfl,rfl,rfl,rfl⟩
    · simp only [takeLen1]
      split <;> exact ⟨rfl,rfl,rfl,rfl,rfl,rfl⟩
    · rename_i i state
      have frame := finishFrame (h.accumulate i byte)
      simp only [takeAddr]
      split
      · split
        · exact ⟨frame.buffer,frame.index,frame.accepted,frame.request,frame.started,frame.response⟩
        · exact ⟨rfl,rfl,rfl,rfl,rfl,rfl⟩
      · exact ⟨rfl,rfl,rfl,rfl,rfl,rfl⟩
    · rename_i n state
      have frame := finishFrame (h.push byte)
      simp only [takePayload]
      split
      · exact ⟨frame.buffer,frame.index,frame.accepted,frame.request,frame.started,frame.response⟩
      · exact ⟨rfl,rfl,rfl,rfl,rfl,rfl⟩

theorem headerOk {h : Handler} (header : h.rxState = .idle ∨ h.rxState = .ctrl1 ∨ h.rxState = .len0)
    (empty : h.rxPayload = []) : ParserOk h := by
  rcases header with state | state | state <;>
    exact ⟨by simp [state],fun _ => empty,by simp [state],by simp [state],by simp [state]⟩

/- The parser part for methods that leave the parser alone, and the slots for those that leave the
slots alone. -/
theorem parserFrame {h t : Handler} (ok : ParserOk h) (state : t.rxState = h.rxState)
    (type : t.rxPacketType = h.rxPacketType) (we : t.rxTempWe = h.rxTempWe)
    (burst : t.rxTempBurstLen = h.rxTempBurstLen) (payload : t.rxPayload = h.rxPayload) : ParserOk t := by
  constructor <;> rw [state] <;> simp only [type,we,burst,payload]
  · exact ok.payload
  · exact ok.boundary
  · exact ok.low
  · exact ok.addrBurst
  · exact ok.payloadBurst

theorem slotsFrame {h t : Handler} (ok : SlotsOk h) (incoming : t.incomingRequest = h.incomingRequest)
    (outgoing : t.outgoingResponse = h.outgoingResponse)
    (accepted : t.acceptedRequest = h.acceptedRequest) : SlotsOk t := by
  constructor <;> simp only [incoming,outgoing,accepted]
  · exact ok.request
  · exact ok.response
  · exact ok.requestBurst
  · exact ok.acceptedBurst

theorem finishWellFormed {h : Handler} (ok : WellFormed h) (burst : BurstInRange h.rxTempBurstLen) :
    WellFormed h.finishPacket.2 := by
  obtain ⟨result,t,same,spec⟩ := finalizeSpec h
  simp only [finishPacket,same]
  cases spec with
  | requestFull | responseFull => exact ok
  | request =>
    refine ⟨headerOk (.inl rfl) rfl,fun _ => rfl,ok.response,?_,ok.acceptedBurst⟩
    intro request stored
    cases Option.some.inj stored
    exact burst
  | response => exact ⟨headerOk (.inl rfl) rfl,ok.request,fun _ => rfl,ok.requestBurst,ok.acceptedBurst⟩
  | mismatched | unknown => exact ⟨headerOk (.inl rfl) rfl,slotsFrame ok.toSlotsOk rfl rfl rfl⟩

theorem expectedPayload {packetType we size burstLen}
    (nonzero : expectedPayloadLen packetType we size burstLen ≠ 0) :
    (isRequestType packetType && we || isResponseType packetType && !we) = true := by
  simp only [expectedPayloadLen] at nonzero
  split at nonzero
  · simp_all
  · split at nonzero <;> simp_all

theorem lowByte (byte : Byte) : (byte.setWidth 32).toNat < 256 := by
  have bound := byte.isLt
  rw [BitVec.toNat_setWidth]
  omega

theorem burstLenOk {low : Word} (small : low.toNat < 256) (byte : Byte) :
    BurstInRange (saturatingSucc (low ||| byte.setWidth 32 <<< 8)) := by
  have bound := byte.isLt
  have high : (byte.setWidth 32 <<< 8).toNat = 2 ^ 8 * byte.toNat := by
    rw [BitVec.toNat_shiftLeft,BitVec.toNat_setWidth,Nat.shiftLeft_eq]
    omega
  have sum : (low ||| byte.setWidth 32 <<< 8).toNat = 2 ^ 8 * byte.toNat + low.toNat := by
    rw [BitVec.toNat_or,high,Nat.or_comm,Nat.two_pow_add_eq_or_of_lt small]
  have less : low ||| byte.setWidth 32 <<< 8 ≠ BitVec.allOnes 32 := by
    intro all
    rw [all] at sum
    simp only [BitVec.toNat_allOnes] at sum
    omega
  simp only [BurstInRange,saturatingSucc,less,if_false,BitVec.toNat_add,sum,maxBurstBeats]
  simp only [BitVec.reduceToNat]
  omega

theorem receiveByteWellFormed {h : Handler} (ok : WellFormed h) (byte) :
    WellFormed (h.transferRxByte byte).2 := by
  have empty := ok.boundary
  simp only [transferRxByte]
  split
  · exact ok
  · split
    · rename_i state
      simp only [takeCtrl0]
      split
      · exact ok
      · exact ⟨headerOk (.inr (.inl rfl)) (empty (by simp [state])),slotsFrame ok.toSlotsOk rfl rfl rfl⟩
    · rename_i state
      simp only [takeCtrl1]
      split
      · exact ⟨headerOk (.inl rfl) (empty (by simp [state])),slotsFrame ok.toSlotsOk rfl rfl rfl⟩
      · exact ⟨headerOk (.inr (.inr rfl)) (empty (by simp [state])),slotsFrame ok.toSlotsOk rfl rfl rfl⟩
    · rename_i state
      exact ⟨⟨by simp,fun _ => empty (by simp [state]),fun _ => lowByte byte,by simp,by simp⟩,slotsFrame ok.toSlotsOk rfl rfl rfl⟩
    · rename_i state
      have burst := burstLenOk (ok.low state) byte
      simp only [takeLen1]
      split
      · exact ⟨headerOk (.inl rfl) (empty (by simp [state])),slotsFrame ok.toSlotsOk rfl rfl rfl⟩
      · exact ⟨⟨by simp,fun _ => empty (by simp [state]),by simp,fun _ _ => burst,by simp⟩,slotsFrame ok.toSlotsOk rfl rfl rfl⟩
    · rename_i i state
      have burst := ok.addrBurst i state
      have absent := empty (by simp [state])
      have accumulated : WellFormed (h.accumulate i byte) :=
        ⟨⟨ok.payload,ok.boundary,ok.low,ok.addrBurst,ok.payloadBurst⟩,slotsFrame ok.toSlotsOk rfl rfl rfl⟩
      simp only [takeAddr]
      split
      · split
        · exact finishWellFormed accumulated burst
        · rename_i present
          exact ⟨⟨fun n _ => expectedPayload present,fun _ => rfl,by simp,by simp,fun _ _ => burst⟩,
            slotsFrame ok.toSlotsOk rfl rfl rfl⟩
      · exact ⟨⟨by simp,fun _ => absent,by simp,fun _ _ => burst,by simp⟩,slotsFrame ok.toSlotsOk rfl rfl rfl⟩
    · rename_i n state
      have burst := ok.payloadBurst n state
      have pushed : WellFormed (h.push byte) :=
        ⟨⟨ok.payload,fun out => absurd state (out n),ok.low,ok.addrBurst,ok.payloadBurst⟩,slotsFrame ok.toSlotsOk rfl rfl rfl⟩
      simp only [takePayload]
      split
      · exact finishWellFormed pushed burst
      · exact ⟨⟨fun _ _ => ok.payload n state,fun out => absurd rfl (out _),by simp,by simp,
          fun _ _ => burst⟩,slotsFrame ok.toSlotsOk rfl rfl rfl⟩

theorem applyWellFormed {h : Handler} (ok : WellFormed h) (op) : WellFormed (h.apply op).2 := by
  have parser (t : Handler) := parserFrame (t := t) ok.toParserOk
  cases op with
  | rx byte => exact receiveByteWellFormed ok byte
  | tx =>
    obtain ⟨_,_,accepted,_,_,same,freed⟩ := transmitFrame h
    change WellFormed h.transferTxByte.2
    rw [same]
    refine ⟨parser _ rfl rfl rfl rfl rfl,ok.request,ok.response,ok.requestBurst,?_⟩
    intro request taken
    rcases freed with kept | free
    · exact ok.acceptedBurst request (kept.symm.trans taken)
    · simp [free] at taken
  | send request =>
    obtain ⟨_,same⟩ := sendFrame h request
    change WellFormed (h.sendRequest request).2
    rw [same]
    exact ⟨parser _ rfl rfl rfl rfl rfl,ok.request,ok.response,ok.requestBurst,ok.acceptedBurst⟩
  | receive =>
    change WellFormed h.receiveResponse.2
    simp only [receiveResponse]
    split
    · exact ok
    · split
      · exact ok
      · exact ⟨parser _ rfl rfl rfl rfl rfl,ok.request,by simp,ok.requestBurst,ok.acceptedBurst⟩
  | accept =>
    change WellFormed h.acceptRequest.2
    simp only [acceptRequest]
    split
    · exact ok
    · split
      · exact ok
      · rename_i request stored
        refine ⟨parser _ rfl rfl rfl rfl rfl,by simp,ok.response,by simp,?_⟩
        intro taken same
        cases Option.some.inj same
        exact ok.requestBurst request stored
  | complete response =>
    obtain ⟨_,same⟩ := completeFrame h response
    change WellFormed (h.completeRequest response).2
    rw [same]
    exact ⟨parser _ rfl rfl rfl rfl rfl,ok.request,ok.response,ok.requestBurst,ok.acceptedBurst⟩
  | query => exact ok

theorem reachableWellFormed {h : Handler} (reachable : Reachable h) : WellFormed h := by
  obtain ⟨ops,rfl⟩ := reachable
  exact @invariant _ _ _ machine WellFormed (fun _ op ok => applyWellFormed ok op) _ newWellFormed ops

end RiscvSoc.Host.Handler
