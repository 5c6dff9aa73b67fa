import RiscvSoc.Host.HandlerInvariant
import RiscvSoc.Rtl.HostBusBeat

/-! `transfer_rx_byte` takes the frame of a packet from the link, stores the packet and is
ready for the next one. -/
namespace RiscvSoc.Host.Handler
open LittleEndian (Byte byteAt word orByteWord wordBytes bytesAt)
open RiscvSoc.HostBus (Meta header frame)
open Mealy Machine

def Takes : Handler → List Byte → Handler → Prop
  | h, [], t => h = t
  | h, byte :: rest, t => ∃ u, h.transferRxByte byte = (.ok (),u) ∧ Takes u rest t

theorem takesAppend {h u t : Handler} {xs ys} (first : Takes h xs u) (second : Takes u ys t) :
    Takes h (xs ++ ys) t := by
  induction xs generalizing h with
  | nil =>
    cases first
    exact second
  | cons byte rest ih =>
    obtain ⟨v,now,later⟩ := first
    exact ⟨v,now,ih later⟩

theorem takesRun {h t : Handler} {bytes} (takes : Takes h bytes t) :
    machine.final h (bytes.map .rx) = t ∧ ∀ out ∈ machine.outputs h (bytes.map .rx), out = .done := by
  induction bytes generalizing h with
  | nil => exact ⟨takes,by simp⟩
  | cons byte rest ih =>
    obtain ⟨u,now,later⟩ := takes
    obtain ⟨final,done⟩ := ih later
    have output : machine.output h (.rx byte) = .done := by simp [machine,apply,now,Outcome.ofResult]
    have next : machine.next h (.rx byte) = u := by simp [machine,apply,now]
    simp only [List.map_cons,finalCons,outputsCons,next,output,List.mem_cons]
    exact ⟨final,fun out mem => mem.elim id (done out)⟩

def headed (h : Handler) (packetType : BitVec 4) (info : Meta) : Handler :=
  {h with
    rxPacketType := packetType.setWidth 8
    rxTempWe := info.we
    rxTempSize := info.size.setWidth 8
    rxTempSrcFixed := info.srcFixed
    rxTempDstFixed := info.dstFixed
    rxTempBurstLen := info.burstLenM1.setWidth 32 + 1
    rxAddrAccumulator := info.baseAddr}

theorem ctrl0Fields : ∀ (packetType : BitVec 4) (size : BitVec 2) (src dst : Bool),
    let byte := packetType ++ size ++ BitVec.ofBool src ++ BitVec.ofBool dst
    (byte >>> 4) &&& 0x0F = packetType.setWidth 8 ∧ (byte >>> 2) &&& 0x03 = size.setWidth 8 ∧
      ((byte >>> 1) &&& 0x01 != 0) = src ∧ (byte &&& 0x01 != 0) = dst := by decide +kernel

theorem ctrl0InRange : ∀ (packetType : BitVec 4) (size : BitVec 2),
    packetType = 0b0000 ∨ packetType = 0b0011 → size ≠ 0b11 →
    ¬ (packetType.setWidth 8 > (0x03 : Byte) ∨ size.setWidth 8 = (0x03 : Byte)) := by decide +kernel

theorem ctrl1Fields : ∀ we : Bool, ((BitVec.ofBool we).setWidth 8 : Byte) &&& 0xFE = 0 ∧
    (((BitVec.ofBool we).setWidth 8 : Byte) &&& 0x01 != 0) = we := by decide

theorem takesByte {h t : Handler} {byte} (opened : h.canAcceptRx = true)
    (next : (match h.rxState with
      | .idle => (.ok (),h.takeCtrl0 byte)
      | .ctrl1 => (.ok (),h.takeCtrl1 byte)
      | .len0 => (.ok (),{h with rxTempBurstLen := byte.setWidth 32, rxState := .len1})
      | .len1 => (.ok (),h.takeLen1 byte)
      | .addr byteIdx => h.takeAddr byteIdx byte
      | .payload remaining => h.takePayload remaining byte) = ((.ok (),t) : Except HandlerError Unit × _)) :
    Takes h [byte] t := by
  refine ⟨t,?_,rfl⟩
  simp only [transferRxByte,opened,Bool.not_true,Bool.false_eq_true,if_false]
  exact next

theorem openInPacket {h : Handler} (busy : h.rxState ≠ .idle) : h.canAcceptRx = true := by
  simp [canAcceptRx,busy]

theorem burstLenWord (x : BitVec 16) :
    saturatingSucc ((byteAt x 0).setWidth 32 ||| (byteAt x 1).setWidth 32 <<< 8) = x.setWidth 32 + 1 ∧
      x.setWidth 32 + 1 ≠ (0 : Word) := by
  have low : word 32 [byteAt x 0] = (byteAt x 0).setWidth 32 := by
    apply BitVec.eq_of_toNat_eq
    simp [word,LittleEndian.value]
  have both := orByteWord (n := 32) [byteAt x 0] (byteAt x 1)
  have same : [byteAt x 0] ++ [byteAt x 1] = LittleEndian.bytes 2 x.toNat := by rw [bytesAt]; rfl
  have bound := x.isLt
  have whole : word 32 (LittleEndian.bytes 2 x.toNat) = x.setWidth 32 := by
    apply BitVec.eq_of_toNat_eq
    simp only [word,LittleEndian.valueBytes,BitVec.toNat_ofNat,BitVec.toNat_setWidth]
    omega
  rw [low,same,whole] at both
  have small : x.setWidth 32 ≠ BitVec.allOnes 32 := by
    intro all
    have ones := congrArg BitVec.toNat all
    simp only [BitVec.toNat_allOnes,BitVec.toNat_setWidth] at ones
    omega
  refine ⟨?_,?_⟩
  · simp only [List.length_singleton] at both
    rw [both,saturatingSucc,if_neg small]
  · intro zero
    have absent := congrArg BitVec.toNat zero
    simp only [BitVec.toNat_add,BitVec.toNat_setWidth] at absent
    simp only [BitVec.reduceToNat] at absent
    omega

theorem accumulateWord {h : Handler} {bs : List Byte} (accum : h.rxAddrAccumulator = word 32 bs) (b : Byte) :
    h.accumulate bs.length b = {h with rxAddrAccumulator := word 32 (bs ++ [b])} := by
  simp only [accumulate,accum,Nat.mul_comm bs.length 8,orByteWord]

theorem takesAddr {h : Handler} (bs : List Byte) (state : h.rxState = .addr bs.length) (more : bs.length ≠ 3)
    (accum : h.rxAddrAccumulator = word 32 bs) (b : Byte) :
    Takes h [b] {h with
      rxAddrAccumulator := word 32 (bs ++ [b])
      rxState := .addr (bs ++ [b]).length} := by
  refine takesByte (openInPacket (by simp [state])) ?_
  simp only [state,takeAddr,if_neg more,accumulateWord accum,List.length_append,List.length_singleton]

theorem addrWord (x : Word) : word 32 [byteAt x 0,byteAt x 1,byteAt x 2,byteAt x 3] = x := by
  have same : LittleEndian.bytes 4 x.toNat = [byteAt x 0,byteAt x 1,byteAt x 2,byteAt x 3] := by
    rw [bytesAt]
    rfl
  rw [← same]
  exact wordBytes (m := 4) x

theorem takesCtrl0 {h : Handler} (idle : h.rxState = .idle) (opened : h.canAcceptRx = true)
    {packetType : BitVec 4} {info : Meta} (known : packetType = 0b0000 ∨ packetType = 0b0011)
    (size : info.size ≠ 0b11) :
    Takes h [packetType ++ info.size ++ BitVec.ofBool info.srcFixed ++ BitVec.ofBool info.dstFixed] {h with
      rxPacketType := packetType.setWidth 8
      rxTempSize := info.size.setWidth 8
      rxTempSrcFixed := info.srcFixed
      rxTempDstFixed := info.dstFixed
      rxState := .ctrl1} := by
  obtain ⟨type,sizeField,src,dst⟩ := ctrl0Fields packetType info.size info.srcFixed info.dstFixed
  refine takesByte opened ?_
  simp only [idle,takeCtrl0,type,sizeField,src,dst,if_neg (ctrl0InRange packetType info.size known size)]

theorem takesCtrl1 {h : Handler} (state : h.rxState = .ctrl1) (we : Bool) :
    Takes h [(BitVec.ofBool we).setWidth 8] {h with rxTempWe := we, rxState := .len0} := by
  obtain ⟨reserved,bit⟩ := ctrl1Fields we
  refine takesByte (openInPacket (by simp [state])) ?_
  simp only [state,takeCtrl1,reserved,bit,ne_eq,not_true_eq_false,if_false]

theorem takesLen {h : Handler} (state : h.rxState = .len0) (x : BitVec 16) :
    Takes h [byteAt x 0,byteAt x 1] {h with
      rxTempBurstLen := x.setWidth 32 + 1
      rxAddrAccumulator := 0
      rxState := .addr 0} := by
  obtain ⟨burst,present⟩ := burstLenWord x
  have low : Takes h [byteAt x 0]
      {h with rxTempBurstLen := (byteAt x 0).setWidth 32, rxState := .len1} :=
    takesByte (openInPacket (by simp [state])) (by simp only [state])
  refine takesAppend low (takesByte rfl ?_)
  simp only [takeLen1,burst]
  rw [if_neg present]

theorem takesHeader {h : Handler} (idle : h.rxState = .idle) (opened : h.canAcceptRx = true)
    {packetType : BitVec 4} {info : Meta} (known : packetType = 0b0000 ∨ packetType = 0b0011)
    (size : info.size ≠ 0b11) :
    Takes h ((header packetType info).take 7) {h.headed packetType info with
      rxAddrAccumulator := word 32 [byteAt info.baseAddr 0,byteAt info.baseAddr 1,byteAt info.baseAddr 2]
      rxState := .addr 3} := by
  have ctrl0 := takesCtrl0 idle opened known size
  have ctrl1 (t : Handler) (state : t.rxState = .ctrl1) := takesCtrl1 state info.we
  have len (t : Handler) (state : t.rxState = .len0) := takesLen state info.burstLenM1
  have addr0 (t : Handler) (state : t.rxState = .addr 0) (accum : t.rxAddrAccumulator = 0) :=
    takesAddr [] state (by decide) accum (byteAt info.baseAddr 0)
  have addr1 (t : Handler) (state : t.rxState = .addr 1) (accum) :=
    takesAddr (h := t) [byteAt info.baseAddr 0] state (by simp) accum (byteAt info.baseAddr 1)
  have addr2 (t : Handler) (state : t.rxState = .addr 2) (accum) :=
    takesAddr (h := t) [byteAt info.baseAddr 0,byteAt info.baseAddr 1] state (by simp) accum
      (byteAt info.baseAddr 2)
  exact takesAppend ctrl0 (takesAppend (ctrl1 _ rfl) (takesAppend (len _ rfl)
    (takesAppend (addr0 _ rfl rfl) (takesAppend (addr1 _ rfl rfl) (addr2 _ rfl rfl)))))

/- A packet that finds its slot free ends up there, except for a response of type 3 to a
request other than the outstanding one. -/
def dropped (h : Handler) : Bool :=
  h.rxPacketType == 0x03 && h.outgoingRequest.any fun request => !h.metadataMatches request

def stored (h : Handler) : Handler :=
  {h with
    incomingRequest := if isRequestType h.rxPacketType then ⟨true,some h.rxRequest⟩ else h.incomingRequest
    outgoingResponse :=
      if isResponseType h.rxPacketType && !h.dropped then ⟨true,some h.rxResponse⟩ else h.outgoingResponse
    rxPayload := []
    rxState := .idle}

theorem finishStored {h : Handler} (request : h.incomingRequest.valid = false)
    (response : h.outgoingResponse.valid = false) : h.finishPacket = (.ok (),h.stored) := by
  obtain ⟨result,t,same,spec⟩ := finalizeSpec h
  simp only [finishPacket,same]
  cases spec with
  | requestFull _ full => simp [full] at request
  | responseFull _ _ full => simp [full] at response
  | request kind =>
    have notResponse : isResponseType h.rxPacketType = false := by
      simp only [isRequestType,Bool.or_eq_true,beq_iff_eq] at kind
      rcases kind with type | type <;> simp [isResponseType,type]
    simp [stored,kind,notResponse]
  | mismatched type _ out differs =>
    simp [stored,dropped,type,out,differs,isRequestType,isResponseType]
  | response other kind _ answers =>
    have kept : h.dropped = false := by
      by_cases type : h.rxPacketType = 0x03
      · cases out : h.outgoingRequest with
        | none => simp [dropped,out]
        | some request => simp [dropped,out,answers type request out]
      · rw [dropped,beq_eq_false_iff_ne.mpr type,Bool.false_and]
    simp [stored,other,kind,kept]
  | unknown other unknown => simp [stored,other,unknown]

theorem takesPayload {h : Handler} (data : List Byte) (state : h.rxState = .payload data.length)
    (nonempty : data ≠ []) (request : h.incomingRequest.valid = false)
    (response : h.outgoingResponse.valid = false) :
    Takes h data ({h with rxPayload := h.rxPayload ++ data} : Handler).stored := by
  induction data generalizing h with
  | nil => exact absurd rfl nonempty
  | cons byte rest ih =>
    cases rest with
    | nil =>
      refine takesByte (openInPacket (by simp [state])) ?_
      simp only [state,takePayload,List.length_singleton,if_true]
      exact finishStored (h := h.push byte) request response
    | cons next rest =>
      have now : Takes h [byte] {h.push byte with rxState := .payload (next :: rest).length} := by
        refine takesByte (openInPacket (by simp [state])) ?_
        simp [state,takePayload]
      have later := ih (h := {h.push byte with rxState := .payload (next :: rest).length}) rfl (by simp)
        request response
      simp only [push,List.append_assoc,List.singleton_append] at later
      exact takesAppend now later

theorem takesFrame {h : Handler} (idle : h.rxState = .idle) (empty : h.rxPayload = [])
    (request : h.incomingRequest.valid = false) (response : h.outgoingResponse.valid = false)
    {packetType : BitVec 4} {info : Meta} {payload : List Byte}
    (known : packetType = 0b0000 ∨ packetType = 0b0011) (size : info.size ≠ 0b11)
    (length : payload.length = expectedPayloadLen (packetType.setWidth 8) info.we (info.size.setWidth 8)
      (info.burstLenM1.setWidth 32 + 1)) :
    Takes h (frame packetType info payload)
      ({h.headed packetType info with rxPayload := payload} : Handler).stored := by
  have opened : h.canAcceptRx = true := by simp [canAcceptRx,idle,request]
  have head := takesHeader idle opened known size
  have addr : ({h.headed packetType info with
      rxAddrAccumulator := word 32 [byteAt info.baseAddr 0,byteAt info.baseAddr 1,byteAt info.baseAddr 2]
      rxState := .addr 3} : Handler).accumulate 3 (byteAt info.baseAddr 3) =
        {h.headed packetType info with rxState := .addr 3} := by
    have last := accumulateWord (h := {h.headed packetType info with
      rxAddrAccumulator := word 32 [byteAt info.baseAddr 0,byteAt info.baseAddr 1,byteAt info.baseAddr 2]
      rxState := .addr 3}) rfl (byteAt info.baseAddr 3)
    rw [List.cons_append,List.cons_append,List.cons_append,List.nil_append,addrWord] at last
    exact last
  have whole : frame packetType info payload =
      (header packetType info).take 7 ++ ([byteAt info.baseAddr 3] ++ payload) := rfl
  rw [whole]
  refine takesAppend head ?_
  by_cases nothing : payload = []
  · subst nothing
    rw [List.append_nil]
    refine takesByte rfl ?_
    simp only [takeAddr,addr,if_true]
    rw [if_pos (by exact length.symm)]
    have finish := finishStored (h := {h.headed packetType info with rxState := .addr 3}) request response
    rw [finish]
    simp [stored,dropped,headed,empty,rxRequest,rxResponse,rxSize,metadataMatches]
  · refine takesAppend (u := {h.headed packetType info with
      rxPayload := [], rxState := .payload payload.length}) (takesByte rfl ?_) ?_
    · simp only [takeAddr,addr,if_true]
      have nonzero : payload.length ≠ 0 := fun zero => nothing (List.length_eq_zero_iff.mp zero)
      rw [if_neg (by rw [length] at nonzero; exact nonzero),length]
      rfl
    · have data := takesPayload (h := {h.headed packetType info with
        rxPayload := [], rxState := .payload payload.length}) payload rfl nothing request response
      exact data

end RiscvSoc.Host.Handler
