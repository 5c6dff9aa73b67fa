import RiscvSoc.Host.HandlerInvariant

/-! The scalar field of the requests and responses that `HostBusHandler` hands out, beside their
data. `extract_first_word` reads four bytes whatever the access size, the burst constructors one
beat. -/
namespace RiscvSoc.Host.Handler
open LittleEndian (Byte)
open Mealy Machine

def firstBeat (size : AccessSize) (data : List Byte) : Word := LittleEndian.word 32 (data.take size.byteCount)

def FirstBeatAlone (size : AccessSize) (data : List Byte) : Prop :=
  ∀ b ∈ (data.take 4).drop size.byteCount, b = 0
instance (size data) : Decidable (FirstBeatAlone size data) := by unfold FirstBeatAlone; infer_instance

theorem firstWordValue (size : AccessSize) (data : List Byte) :
    LittleEndian.value (data.take 4) = LittleEndian.value (data.take size.byteCount) +
      256 ^ (data.take size.byteCount).length * LittleEndian.value ((data.take 4).drop size.byteCount) := by
  have small : size.byteCount ≤ 4 := by cases size <;> decide
  have split := List.take_append_drop size.byteCount (data.take 4)
  rw [List.take_take,Nat.min_eq_left small] at split
  rw [← LittleEndian.valueAppend,split]

theorem wordBound {data : List Byte} (short : data.length ≤ 4) : LittleEndian.value data < 2 ^ 32 := by
  have power : 256 ^ data.length ≤ 256 ^ 4 := Nat.pow_le_pow_right (by decide) short
  exact Nat.lt_of_lt_of_le (LittleEndian.valueBound data) power

theorem firstWordExact (size : AccessSize) (data : List Byte) :
    extractFirstWord data = firstBeat size data ↔ FirstBeatAlone size data := by
  have four : (data.take 4).length ≤ 4 := List.length_take_le 4 data
  have small : size.byteCount ≤ 4 := by cases size <;> decide
  have beat : (data.take size.byteCount).length ≤ 4 := Nat.le_trans (List.length_take_le _ _) small
  have whole := wordBound four
  have first := wordBound beat
  rw [extractFirstWord,firstBeat,LittleEndian.word,← BitVec.toNat_inj,BitVec.toNat_ofNat,BitVec.toNat_ofNat,
    Nat.mod_eq_of_lt whole,Nat.mod_eq_of_lt first,firstWordValue size data,FirstBeatAlone,
    ← LittleEndian.valueZero]
  have positive : 256 ^ (data.take size.byteCount).length ≠ 0 := Nat.pos_iff_ne_zero.mp (Nat.pow_pos (by decide))
  rw [Nat.add_eq_left,Nat.mul_eq_zero]
  exact or_iff_right positive

structure Views where
  scalar : Word
  size : AccessSize
  data : List Byte
  deriving DecidableEq, Repr

def Views.Mirrored (v : Views) : Prop := v.scalar = firstBeat v.size v.data
instance (v : Views) : Decidable v.Mirrored := by unfold Views.Mirrored; infer_instance

def requestViews (r : BusRequest) : Views := ⟨r.wdata,r.size,r.data⟩
def responseViews (r : BusResponse) : Views := ⟨r.rdata,r.size,r.data⟩

/- The requests and responses one method call hands out. -/
def handedOut (h : Handler) : Op → List Views
  | .accept => match h.acceptRequest.1 with
    | .ok request => [requestViews request]
    | .error _ => []
  | .receive => match h.receiveResponse.1 with
    | some response => [responseViews response]
    | none => []
  | _ => []

def Buffers (h : Handler) : Prop :=
  if isRequestType h.rxPacketType then h.incomingRequest.valid = false
  else isResponseType h.rxPacketType = true ∧ h.outgoingResponse.valid = false ∧
    (h.rxPacketType = 0x03 → ∀ request ∈ h.outgoingRequest, h.metadataMatches request = true)
instance (h) : Decidable (Buffers h) := by unfold Buffers; infer_instance

/- A packet that goes into a slot with this byte, its last, carries nothing between its first
beat and the end of its first word. -/
def ArrivesAlone (h : Handler) : Op → Prop
  | .rx byte => h.rxState = .payload 1 → Buffers h → FirstBeatAlone h.rxSize (h.rxPayload ++ [byte])
  | _ => True
instance (h op) : Decidable (ArrivesAlone h op) := by unfold ArrivesAlone; split <;> infer_instance

structure SlotsMirrored (h : Handler) : Prop where
  request : ∀ request, h.incomingRequest.request = some request → (requestViews request).Mirrored
  response : ∀ response, h.outgoingResponse.response = some response → (responseViews response).Mirrored

theorem firstBeatNil (size : AccessSize) : firstBeat size [] = 0 := by simp [firstBeat,LittleEndian.word,LittleEndian.value]

theorem finishMirrored {h : Handler} (ok : SlotsMirrored h)
    (alone : Buffers h → FirstBeatAlone h.rxSize h.rxPayload) : SlotsMirrored h.finishPacket.2 := by
  have scalar (buffers : Buffers h) := (firstWordExact h.rxSize h.rxPayload).mpr (alone buffers)
  obtain ⟨result,t,same,spec⟩ := finalizeSpec h
  simp only [finishPacket,same]
  cases spec with
  | requestFull | responseFull | mismatched | unknown => exact ⟨ok.request,ok.response⟩
  | request kind room =>
    have buffers : Buffers h := by rwa [Buffers,if_pos kind]
    refine ⟨?_,ok.response⟩
    intro request stored
    cases Option.some.inj stored
    exact scalar buffers
  | response other kind room answers =>
    have buffers : Buffers h := by
      rw [Buffers,if_neg (by simp [other])]
      exact ⟨kind,room,answers⟩
    refine ⟨ok.request,?_⟩
    intro response stored
    cases Option.some.inj stored
    simp only [Views.Mirrored,responseViews,rxResponse]
    cases h.rxTempWe with
    | true => exact (firstBeatNil _).symm
    | false => exact scalar buffers

theorem receiveByteMirrored {h : Handler} (parser : ParserOk h) (ok : SlotsMirrored h) (byte : Byte)
    (alone : ArrivesAlone h (.rx byte)) : SlotsMirrored (h.transferRxByte byte).2 := by
  simp only [transferRxByte]
  split
  · exact ok
  · split
    · simp only [takeCtrl0]
      split <;> exact ⟨ok.request,ok.response⟩
    · simp only [takeCtrl1]
      split <;> exact ⟨ok.request,ok.response⟩
    · exact ⟨ok.request,ok.response⟩
    · simp only [takeLen1]
      split <;> exact ⟨ok.request,ok.response⟩
    · rename_i i state
      -- A packet without payload: the parser holds no bytes.
      have empty : h.rxPayload = [] := parser.boundary (by simp [state])
      have kept : SlotsMirrored (h.accumulate i byte) := ⟨ok.request,ok.response⟩
      simp only [takeAddr]
      split
      · split
        · refine finishMirrored kept fun _ => ?_
          change FirstBeatAlone h.rxSize h.rxPayload
          simp [empty,FirstBeatAlone]
        · exact ⟨ok.request,ok.response⟩
      · exact ⟨ok.request,ok.response⟩
    · rename_i n state
      have pushed : SlotsMirrored (h.push byte) := ⟨ok.request,ok.response⟩
      simp only [takePayload]
      split
      · rename_i last
        exact finishMirrored pushed (alone (last ▸ state))
      · exact ⟨ok.request,ok.response⟩

theorem applyMirrored {h : Handler} (parser : ParserOk h) (ok : SlotsMirrored h) (op : Op)
    (alone : ArrivesAlone h op) : SlotsMirrored (h.apply op).2 := by
  cases op with
  | rx byte => exact receiveByteMirrored parser ok byte alone
  | tx =>
    obtain ⟨_,_,_,_,_,same,_⟩ := transmitFrame h
    change SlotsMirrored h.transferTxByte.2
    rw [same]
    exact ⟨ok.request,ok.response⟩
  | send request =>
    obtain ⟨_,same⟩ := sendFrame h request
    change SlotsMirrored (h.sendRequest request).2
    rw [same]
    exact ⟨ok.request,ok.response⟩
  | receive =>
    change SlotsMirrored h.receiveResponse.2
    simp only [receiveResponse]
    split
    · exact ok
    · split
      · exact ok
      · exact ⟨ok.request,by simp⟩
  | accept =>
    change SlotsMirrored h.acceptRequest.2
    simp only [acceptRequest]
    split
    · exact ok
    · split
      · exact ok
      · exact ⟨by simp,ok.response⟩
  | complete response =>
    obtain ⟨_,same⟩ := completeFrame h response
    change SlotsMirrored (h.completeRequest response).2
    rw [same]
    exact ⟨ok.request,ok.response⟩
  | query => exact ok

theorem handedOutMirrored {h : Handler} (ok : SlotsMirrored h) (op : Op) :
    ∀ v ∈ h.handedOut op, v.Mirrored := by
  intro v mem
  cases op with
  | accept =>
    simp only [handedOut,acceptRequest] at mem
    split at mem
    · rename_i request out
      split at out
      · contradiction
      · split at out
        · contradiction
        · rename_i stored
          cases out
          cases List.mem_singleton.mp mem
          exact ok.request _ stored
    · simp at mem
  | receive =>
    simp only [handedOut,receiveResponse] at mem
    split at mem
    · rename_i response out
      split at out
      · contradiction
      · split at out
        · contradiction
        · cases List.mem_singleton.mp mem
          exact ok.response _ out
    · simp at mem
  | rx | tx | send | complete | query => simp [handedOut] at mem

theorem newMirrored : SlotsMirrored new := ⟨by simp [new],by simp [new]⟩

/- Over a run what the handler hands out shows one first beat. -/
theorem firstWordMirrors (ops : List Op) (alone : machine.Steps ArrivesAlone new ops) :
    machine.Steps (fun h op => ∀ v ∈ h.handedOut op, v.Mirrored) new ops := by
  have both : ∀ h op, WellFormed h ∧ SlotsMirrored h → ArrivesAlone h op →
      (WellFormed (h.apply op).2 ∧ SlotsMirrored (h.apply op).2) ∧ ∀ v ∈ h.handedOut op, v.Mirrored :=
    fun h op ok arrives => ⟨⟨applyWellFormed ok.1 op,applyMirrored ok.1.toParserOk ok.2 op arrives⟩,
      handedOutMirrored ok.2 op⟩
  exact stepsAll both ⟨newWellFormed,newMirrored⟩ alone

/- A write request of beats of the size that `ctrl0` gives, and the call that hands it out. -/
def writeOf (ctrl0 : Byte) (beats : Nat) (data : List Byte) : List Op :=
  ([ctrl0,0x01,BitVec.ofNat 8 (beats - 1),0x00,0x00,0x10,0x00,0x00] ++ data).map Op.rx ++ [.accept]
def byteWrite (data : List Byte) : List Op := writeOf 0x20 data.length data

theorem firstWordMirrorsBurst : let burst := writeOf 0x28 2 [0x11,0x22,0x33,0x44,0x55,0x66,0x77,0x88]
    machine.history handedOut new burst = [⟨0x44332211,.word,[0x11,0x22,0x33,0x44,0x55,0x66,0x77,0x88]⟩] ∧
    machine.Steps (fun h op => ∀ v ∈ h.handedOut op, v.Mirrored) new burst :=
  ⟨by decide +kernel,firstWordMirrors _ (by decide +kernel)⟩

/- Two byte beats: the scalar holds both. -/
theorem firstWordDiffers : machine.history handedOut new (byteWrite [0x11,0x22]) =
      [⟨0x2211,.byte,[0x11,0x22]⟩] ∧
    ¬ machine.Steps (fun h op => ∀ v ∈ h.handedOut op, v.Mirrored) new (byteWrite [0x11,0x22]) := by
  decide +kernel

end RiscvSoc.Host.Handler
