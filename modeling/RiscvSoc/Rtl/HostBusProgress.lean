import RiscvSoc.Lib.Progress
import RiscvSoc.Rtl.HostBusExecution

/-! A packet that `host_bus_interface` has begun is finished when the bus, the link and the
host go on, whatever stalls lie between. -/
namespace RiscvSoc.HostBus.Interface
open LittleEndian (Byte)
open Mealy Machine

structure RxOk (r : Rx.Regs) : Prop where
  counted : r.state = .payload → r.burstLen.toNat = length r.info ∧
    1 ≤ r.beatsRemaining.toNat ∧ r.beatsRemaining.toNat ≤ r.burstLen.toNat
  width : r.state = .payload → r.beatByteIdx.toNat < r.beatBytes.toNat ∧ r.beatBytes.toNat ≤ 4
  enabled : r.state = .payload → r.payloadEnabled = true
  started : r.outValid = true → r.outStart = true → r.payloadEnabled = true →
    (length r.info = 1 ∧ r.state ≠ .payload) ∨
      (r.state = .payload ∧ r.beatsRemaining.toNat + 1 = r.burstLen.toNat)

theorem rxResetOk (r : Rx.Regs) : RxOk (Rx.reset r) := by
  constructor <;> simp [Rx.reset]

theorem headerRxOk {t : Rx.Regs} (free : t.outValid = false) (state : t.state ≠ .payload) : RxOk t :=
  ⟨fun h => absurd h state,fun h => absurd h state,fun h => absurd h state,by simp [free]⟩

theorem takePayloadCases {r : Rx.Regs} (ok : RxOk r) (payload : r.state = .payload) (byte : Byte) :
    (r.beatByteIdx.toNat + 1 < r.beatBytes.toNat ∧
      r.takePayload byte = {r with
        beatAccum := r.beatWordWithByte byte
        beatByteIdx := r.beatByteIdx + 1} ∧
      (r.beatByteIdx + 1).toNat = r.beatByteIdx.toNat + 1) ∨
    (r.beatByteIdx.toNat + 1 = r.beatBytes.toNat ∧
      r.takePayload byte = {r with
        outValid := true
        outStart := r.beatsRemaining = r.burstLen
        outLast := r.beatsRemaining = 1
        outData := r.beatWordWithByte byte
        beatsRemaining := r.beatsRemaining - 1
        beatByteIdx := 0
        beatAccum := 0
        state := if r.beatsRemaining = 1 then .idle else .payload} ∧
      (r.beatsRemaining - 1).toNat = r.beatsRemaining.toNat - 1) := by
  obtain ⟨below,width⟩ := ok.width payload
  obtain ⟨_,positive,_⟩ := ok.counted payload
  have small := r.beatsRemaining.isLt
  have index := r.beatByteIdx.isLt
  have done : (r.beatByteIdx.setWidth 3 = r.beatBytes - 1) ↔ r.beatByteIdx.toNat + 1 = r.beatBytes.toNat := by
    have bytes := r.beatBytes.isLt
    rw [← BitVec.toNat_inj,BitVec.toNat_setWidth,BitVec.toNat_sub]
    simp only [BitVec.reduceToNat]
    omega
  have less : (r.beatsRemaining - 1).toNat = r.beatsRemaining.toNat - 1 := by
    rw [BitVec.toNat_sub]
    simp only [BitVec.reduceToNat]
    omega
  by_cases last : r.beatByteIdx.toNat + 1 = r.beatBytes.toNat
  · exact .inr ⟨last,by simp only [Rx.Regs.takePayload,if_pos (done.mpr last)],less⟩
  · refine .inl ⟨by omega,?_,?_⟩
    · simp only [Rx.Regs.takePayload]
      rw [if_neg fun h => last (done.mp h)]
    · rw [BitVec.toNat_add]
      simp only [BitVec.reduceToNat]
      omega

theorem takeRxOk {r : Rx.Regs} (ok : RxOk r) (free : r.outValid = false) (byte : Byte) : RxOk (r.take byte) := by
  simp only [Rx.Regs.take]
  split
  · refine headerRxOk (by exact free) ?_
    simp only [Rx.Regs.takeCtrl0]
    split <;> simp
  · simp only [Rx.Regs.takeCtrl1]
    split <;> exact headerRxOk (by exact free) (by simp [Rx.Regs.setMeta])
  · exact headerRxOk (by exact free) (by simp [Rx.Regs.setMeta])
  · exact headerRxOk (by exact free) (by simp [Rx.Regs.setMeta])
  · exact headerRxOk (by exact free) (by simp [Rx.Regs.setMeta])
  · exact headerRxOk (by exact free) (by simp [Rx.Regs.setMeta])
  · exact headerRxOk (by exact free) (by simp [Rx.Regs.setMeta])
  · simp only [Rx.Regs.takeAddr3]
    have len := burstLenToNat r.info.burstLenM1
    have range := Rx.beatBytesRange r.info.size
    split
    · rename_i enabled
      refine ⟨?_,?_,fun _ => enabled,?_⟩
      · intro _
        change (burstLen r.info.burstLenM1).toNat = r.info.burstLenM1.toNat + 1 ∧
          1 ≤ (burstLen r.info.burstLenM1).toNat ∧ _
        exact ⟨len,by omega,Nat.le_refl _⟩
      · exact fun _ => range
      · intro valid
        simp [free] at valid
    · rename_i disabled
      refine ⟨by simp,by simp,by simp,?_⟩
      intro _ _ enabled
      exact absurd enabled disabled
  · rename_i payload
    obtain ⟨len,positive,bound⟩ := ok.counted payload
    obtain ⟨below,width⟩ := ok.width payload
    have enabled := ok.enabled payload
    rcases takePayloadCases ok payload byte with ⟨more,same,index⟩ | ⟨last,same,less⟩
    · rw [same]
      refine ⟨fun _ => ok.counted payload,?_,fun _ => enabled,?_⟩
      · intro _
        simp only [index]
        omega
      · intro valid
        simp [free] at valid
    · rw [same]
      by_cases one : r.beatsRemaining = 1
      · simp only [one,if_true]
        refine ⟨by simp,by simp,by simp,?_⟩
        intro _ start _
        have all : r.burstLen = 1 := by simpa [one,eq_comm] using start
        exact .inl ⟨by rw [← len,all]; rfl,by simp⟩
      · have more : r.beatsRemaining.toNat ≠ 1 := fun h => one (BitVec.eq_of_toNat_eq h)
        simp only [one,if_false]
        refine ⟨?_,?_,fun _ => enabled,?_⟩
        · intro _
          simp only [less]
          exact ⟨len,by omega,by omega⟩
        · intro _
          exact ⟨by simp only [BitVec.reduceToNat]; omega,width⟩
        · intro _ start _
          have first : r.beatsRemaining = r.burstLen := by simpa using start
          refine .inr ⟨rfl,?_⟩
          simp only [less,← first]
          omega

theorem stepRxOk {r : Rx.Regs} (ok : RxOk r) (i : Rx.Inputs) : RxOk (Rx.step r i) := by
  simp only [Rx.step]
  split
  · split
    · exact ⟨ok.counted,ok.width,ok.enabled,by simp⟩
    · exact ok
  · rename_i free
    split
    · exact takeRxOk ok (by simpa using free) _
    · exact ok

/- The beats of the write packet in progress that `host_bus_rx` still has to deliver; with none
owed the next request beat opens a packet. -/
def Owes (r : Rx.Regs) : Nat → Prop
  | 0 => (r.outValid = true → r.packetType = 0b0010 → r.outStart = true) ∧
    (r.state = .payload → r.packetType = 0b0010 → r.outValid = false → r.beatsRemaining = r.burstLen)
  | left+1 => r.packetType = 0b0010 ∧ left + 1 < r.burstLen.toNat ∧
    if r.outValid then r.outStart = false ∧
      if left = 0 then r.state ≠ .payload else r.state = .payload ∧ r.beatsRemaining.toNat = left
    else r.state = .payload ∧ r.beatsRemaining.toNat = left + 1

theorem takeOwes {r : Rx.Regs} (ok : RxOk r) {left} (owes : Owes r left) (free : r.outValid = false)
    (byte : Byte) : Owes (r.take byte) left := by
  by_cases payload : r.state = .payload
  · have take : r.take byte = r.takePayload byte := by simp only [Rx.Regs.take,payload]
    have positive := (ok.counted payload).2.1
    rw [take]
    rcases takePayloadCases ok payload byte with ⟨_,same,_⟩ | ⟨_,same,less⟩
    · rw [same]
      cases left with
      | zero => exact owes
      | succ left => exact owes
    · rw [same]
      cases left with
      | zero =>
        refine ⟨fun _ type => ?_,by simp⟩
        simpa using owes.2 payload type free
      | succ left =>
        obtain ⟨type,below,rest⟩ := owes
        rw [free] at rest
        obtain ⟨_,count⟩ := rest
        refine ⟨type,below,?_⟩
        have later : ¬ r.beatsRemaining = r.burstLen := by
          intro first
          rw [first] at count
          omega
        simp only [if_true,later,decide_false,true_and]
        by_cases last : left = 0
        · have one : r.beatsRemaining = 1 := BitVec.eq_of_toNat_eq (by simp [count,last])
          simp [last,one]
        · have more : ¬ r.beatsRemaining = 1 := by
            intro one
            simp only [one,BitVec.reduceToNat] at count
            omega
          simp only [last,if_false,more,less,count]
          exact ⟨trivial,rfl⟩
  · cases left with
    | succ left =>
      obtain ⟨_,_,rest⟩ := owes
      rw [free] at rest
      exact absurd rest.1 payload
    | zero =>
      simp only [Rx.Regs.take]
      split
      · simp only [Rx.Regs.takeCtrl0]
        refine ⟨by simp [free],?_⟩
        split <;> simp
      · simp only [Rx.Regs.takeCtrl1]
        split <;> exact ⟨by simp [Rx.Regs.setMeta,free],by simp [Rx.Regs.setMeta]⟩
      · exact ⟨by simp [Rx.Regs.setMeta,free],by simp [Rx.Regs.setMeta]⟩
      · exact ⟨by simp [Rx.Regs.setMeta,free],by simp [Rx.Regs.setMeta]⟩
      · exact ⟨by simp [Rx.Regs.setMeta,free],by simp [Rx.Regs.setMeta]⟩
      · exact ⟨by simp [Rx.Regs.setMeta,free],by simp [Rx.Regs.setMeta]⟩
      · exact ⟨by simp [Rx.Regs.setMeta,free],by simp [Rx.Regs.setMeta]⟩
      · simp only [Rx.Regs.takeAddr3]
        split
        · exact ⟨by simp [free],fun _ _ _ => rfl⟩
        · exact ⟨fun _ _ => rfl,by simp⟩
      · contradiction

theorem waitOwes {r : Rx.Regs} (ok : RxOk r) {left} (owes : Owes r left) (i : Rx.Inputs)
    (kept : r.outValid = true → i.packetReady = false) : Owes (Rx.step r i) left := by
  simp only [Rx.step]
  split
  · rename_i valid
    rw [kept valid]
    exact owes
  · rename_i free
    split
    · exact takeOwes ok owes (by simpa using free) _
    · exact owes

theorem nextOwes {r : Rx.Regs} {left} (owes : Owes r (left+1)) (valid : r.outValid = true) :
    Owes {r with outValid := false} left := by
  obtain ⟨type,below,rest⟩ := owes
  rw [valid,if_pos rfl] at rest
  obtain ⟨_,count⟩ := rest
  cases left with
  | zero =>
    simp only [if_true] at count
    exact ⟨by simp,fun payload => absurd payload count⟩
  | succ left =>
    simp only [Nat.succ_ne_zero,if_false] at count
    refine ⟨type,?_,by simpa using count⟩
    change left + 1 < r.burstLen.toNat
    omega

theorem firstOwes {r : Rx.Regs} (ok : RxOk r) (valid : r.outValid = true) (start : r.outStart = true)
    (type : r.packetType = 0b0010) (we : r.info.we = true) :
    Owes {r with outValid := false} (length r.info - 1) := by
  have enabled : r.payloadEnabled = true := by simp [Rx.Regs.payloadEnabled,type,we]
  rcases ok.started valid start enabled with ⟨one,idle⟩ | ⟨payload,count⟩
  · rw [one]
    exact ⟨by simp,fun payload => absurd payload idle⟩
  · obtain ⟨len,positive,_⟩ := ok.counted payload
    obtain ⟨left,same⟩ : ∃ left, length r.info = left + 2 := ⟨length r.info - 2,by omega⟩
    rw [same]
    refine ⟨type,?_,by simp only [Bool.false_eq_true,if_false]; exact ⟨payload,by omega⟩⟩
    change left + 1 < r.burstLen.toNat
    omega

theorem otherOwes {r : Rx.Regs} (other : r.packetType ≠ 0b0010 ∨ r.state ≠ .payload) : Owes {r with outValid := false} 0 := by
  refine ⟨by simp,fun payload type => ?_⟩
  rcases other with h | h
  · exact absurd type h
  · exact absurd payload h

def rxOwed (e : Engine) : Nat := match e.state with
  | .writeA | .writeD => e.beatsRemaining.toNat - 1
  | .writeWait => e.beatsRemaining.toNat
  | _ => 0

def txOwed (e : Engine) : Nat := match e.state with
  | .readA | .readD | .readTx => if index e = 0 then 0 else e.beatsRemaining.toNat
  | _ => 0

structure Live (s : Regs) : Prop where
  ok : Ok s
  rx : RxOk s.rx
  owes : Owes s.rx (rxOwed s.host)
  tx : Tx.Consistent s.tx
  left : Tx.beatsLeft s.tx = txOwed s.host

theorem resetLive (s : Regs) : Live (reset s) :=
  ⟨resetOk s,rxResetOk s.rx,⟨by simp [reset,Rx.reset],by simp [reset,Rx.reset]⟩,
    Tx.resetConsistent s.tx,rfl⟩

theorem quietOwes {s : Regs} (ok : RxOk s.rx) {left} (owes : Owes s.rx left) (i : Inputs)
    (quiet : hostBeats s = []) : Owes (step s i).rx left := by
  have host : (acceptHostReqStart s || acceptHostWritePayload s) = false := by
    simp only [hostBeats] at quiet
    split at quiet
    · simp at quiet
    · simp_all
  cases cpu : acceptCpuResp s with
  | false =>
    have kept : rxPktReady s = false := by
      simp only [Bool.or_eq_false_iff] at host
      simp [rxPktReady,cpu,host]
    exact waitOwes ok owes (rxInputs s i) fun _ => kept
  | true =>
    have ready : rxPktReady s = true := by simp [rxPktReady,cpu]
    simp only [acceptCpuResp,Bool.and_eq_true,Bool.not_eq_true'] at cpu
    obtain ⟨⟨_,valid⟩,kind⟩ := cpu
    have other : s.rx.packetType ≠ 0b0010 := by
      intro type
      simp [Rx.Regs.packet,type] at kind
    cases left with
    | succ left => exact absurd owes.1 other
    | zero =>
      have same : (step s i).rx = {s.rx with outValid := false} := by
        simp [step,Rx.step,rxInputs,valid,ready]
      rw [same]
      exact otherOwes (.inl other)

theorem takenRx {s : Regs} (i : Inputs) (valid : s.rx.outValid = true)
    (taken : (acceptHostReqStart s || acceptHostWritePayload s) = true) :
    (step s i).rx = {s.rx with outValid := false} := by
  have ready : rxPktReady s = true := by
    simp only [Bool.or_eq_true] at taken
    rcases taken with h | h <;> simp [rxPktReady,h]
  simp [step,Rx.step,rxInputs,valid,ready]

theorem owesStep {s : Regs} (live : Live s) (i : Inputs) : Owes (step s i).rx (rxOwed (step s i).host) := by
  have owes := live.owes
  have quiet (h : hostBeats s = []) {left} (o : Owes s.rx left) := quietOwes live.rx o i h
  cases state : s.host.state with
  | idle =>
    cases takes : acceptHostReqStart s with
    | false =>
      have host' : (step s i).host = s.host := by simp [step,hostNext,state,takes]
      rw [host']
      exact quiet (by simp [hostBeats,takes,acceptHostWritePayload,state]) owes
    | true =>
      have host' : (step s i).host = startRequest s.host s.rx.packet := by
        simp [step,hostNext,state,takes]
      have left := (startPlaced s.host s.rx.packet).2.2.2
      have accepted := takes
      simp only [acceptHostReqStart,Bool.and_eq_true,beq_iff_eq] at takes
      obtain ⟨⟨⟨_,valid⟩,kind⟩,start⟩ := takes
      have type : s.rx.packetType = 0b0010 := by simpa [Rx.Regs.packet] using kind
      rw [takenRx i valid (by simp [accepted]),host']
      rcases Bool.eq_false_or_eq_true s.rx.packet.info.we with we | we
      · have state' : (startRequest s.host s.rx.packet).state = .writeA := by simp [startRequest,we]
        simp only [rxOwed,state',left]
        exact firstOwes live.rx valid start type we
      · have state' : (startRequest s.host s.rx.packet).state = .readA := by simp [startRequest,we]
        simp only [rxOwed,state']
        refine otherOwes (.inr fun payload => ?_)
        have enabled := live.rx.enabled payload
        have read : s.rx.info.we = false := we
        simp [Rx.Regs.payloadEnabled,type,read] at enabled
  | writeA =>
    have same : rxOwed (step s i).host = rxOwed s.host := by
      simp only [step,hostNext,state]
      split <;> simp [rxOwed,state]
    rw [same]
    exact quiet (noTakes (by simp [state]) (by simp [state])) owes
  | writeD =>
    have placed := live.ok.placed (by simp [state])
    have same : rxOwed (step s i).host = rxOwed s.host := by
      simp only [step,hostNext,state]
      split
      · split
        · rename_i last
          have one : s.host.beatsRemaining = 1#17 := by simpa [lastBeat] using last
          simp [rxOwed,state,one]
        · rename_i more
          have left := (advancePlaced placed (by simpa using more)).2.2.2
          simp [rxOwed,state,left]
      · simp [rxOwed,state]
    rw [same]
    exact quiet (noTakes (by simp [state]) (by simp [state])) owes
  | writeWait =>
    cases takes : acceptHostWritePayload s with
    | false =>
      have host' : (step s i).host = s.host := by simp [step,hostNext,state,takes]
      rw [host']
      exact quiet (by simp [hostBeats,takes,acceptHostReqStart,state]) owes
    | true =>
      have host' : (step s i).host = {s.host with writeData := s.rx.packet.data, state := .writeA} := by
        simp [step,hostNext,state,takes]
      have accepted := takes
      simp only [acceptHostWritePayload,Bool.and_eq_true,beq_iff_eq] at takes
      obtain ⟨⟨⟨_,valid⟩,_⟩,_⟩ := takes
      rw [takenRx i valid (by simp [accepted]),host']
      simp only [rxOwed,state] at owes ⊢
      have positive := (live.ok.placed (by simp [state])).positive
      obtain ⟨left,count⟩ : ∃ left, s.host.beatsRemaining.toNat = left + 1 :=
        ⟨_,(Nat.sub_add_cancel positive).symm⟩
      rw [count] at owes ⊢
      exact nextOwes owes valid
  | writeResp =>
    have same : rxOwed (step s i).host = rxOwed s.host := by
      simp only [step,hostNext,state]
      split <;> simp [rxOwed,state]
    rw [same]
    exact quiet (noTakes (by simp [state]) (by simp [state])) owes
  | readA | readD =>
    have same : rxOwed (step s i).host = rxOwed s.host := by
      simp only [step,hostNext,state]
      split <;> simp [rxOwed,state]
    rw [same]
    exact quiet (noTakes (by simp [state]) (by simp [state])) owes
  | readTx =>
    have same : rxOwed (step s i).host = rxOwed s.host := by
      simp only [step,hostNext,state]
      split
      · split <;> simp [rxOwed,state]
      · simp [rxOwed,state]
    rw [same]
    exact quiet (noTakes (by simp [state]) (by simp [state])) owes

theorem txStep {s : Regs} (tx : Tx.Consistent s.tx) (i : Inputs) :
    Tx.Consistent (step s i).tx ∧
    (txBeat s = [] → Tx.beatsLeft (step s i).tx = Tx.beatsLeft s.tx ∧
      Tx.emitted s.tx (txInputs s i) ++ Tx.toSend (step s i).tx = Tx.toSend s.tx) ∧
    (∀ packet, txBeat s = [packet] → (packet.start = true ↔ Tx.beatsLeft s.tx = 0) ∧
      Tx.beatsLeft (step s i).tx = Tx.owed (Tx.beatsLeft s.tx) packet) := by
  obtain ⟨bytes,framed,consistent⟩ := Tx.stream tx [txInputs s i]
  change Tx.emitted s.tx (txInputs s i) ++ [] ++ Tx.toSend (step s i).tx = Tx.toSend s.tx ++
    Tx.serial _ (Tx.accepted s.tx (txInputs s i) ++ []) at bytes
  change Tx.Framed (Tx.beatsLeft s.tx) (Tx.accepted s.tx (txInputs s i) ++ []) (Tx.beatsLeft (step s i).tx)
    at framed
  rw [txBeatAccepted,List.append_nil] at framed
  rw [txBeatAccepted,List.append_nil,List.append_nil] at bytes
  refine ⟨consistent,?_,?_⟩
  · intro absent
    rw [absent] at framed bytes
    exact ⟨framed.symm,by simpa [Tx.serial] using bytes⟩
  · intro packet one
    rw [one] at framed
    exact ⟨framed.1,framed.2.symm⟩

theorem txBeatCases (s : Regs) : (txBeat s = [] ∧ txOutputHandshake s = false) ∨
    ∃ packet, txPkt s = some packet ∧ txBeat s = [packet] ∧ txOutputHandshake s = true := by
  cases ready : txPktReady s with
  | false => exact .inl ⟨by simp [txBeat,ready],by simp [txOutputHandshake,ready]⟩
  | true =>
    rcases Option.eq_none_or_eq_some (txPkt s) with pkt | ⟨packet,pkt⟩
    · exact .inl ⟨by simp [txBeat,pkt],by simp [txOutputHandshake,pkt]⟩
    · exact .inr ⟨packet,pkt,by simp [txBeat,ready,pkt],by simp [txOutputHandshake,ready,pkt]⟩

theorem cpuBeatLeft {s : Regs} (live : Live s) (i : Inputs) (resp : s.host.state ≠ .writeResp)
    (read : s.host.state ≠ .readTx) : Tx.beatsLeft (step s i).tx = Tx.beatsLeft s.tx := by
  obtain ⟨_,silent,opens⟩ := txStep live.tx i
  rcases txBeatCases s with ⟨absent,_⟩ | ⟨packet,pkt,one,_⟩
  · exact (silent absent).1
  · have cpu : packet = cpuBeat s.cpu := by
      have free := (txQuiet live.ok resp read).2.1
      simp only [txPkt,free,txIssue,resp,Bool.false_eq_true,if_false] at pkt
      split at pkt
      · exact (Option.some.inj pkt).symm
      · contradiction
    obtain ⟨start,left⟩ := opens packet one
    rw [left,cpu,start.mp (by rw [cpu]; rfl)]
    simp [Tx.owed,cpuBeat]

theorem leftStep {s : Regs} (live : Live s) (i : Inputs) :
    Tx.beatsLeft (step s i).tx = txOwed (step s i).host := by
  have left := live.left
  obtain ⟨_,silent,opens⟩ := txStep live.tx i
  cases state : s.host.state with
  | idle =>
    rw [cpuBeatLeft live i (by simp [state]) (by simp [state]),left]
    simp only [step,hostNext,state]
    split
    · have place := (startPlaced s.host s.rx.packet).2.2.1
      simp only [txOwed,state,place]
      split <;> rfl
    · rfl
  | writeA | writeWait =>
    rw [cpuBeatLeft live i (by simp [state]) (by simp [state]),left]
    simp only [step,hostNext,state]
    split <;> simp [txOwed,state]
  | writeD =>
    rw [cpuBeatLeft live i (by simp [state]) (by simp [state]),left]
    simp only [step,hostNext,state]
    split
    · split <;> simp [txOwed,state]
    · rfl
  | readA | readD =>
    rw [cpuBeatLeft live i (by simp [state]) (by simp [state]),left]
    simp only [step,hostNext,state]
    split
    · simp only [txOwed,state]
      rfl
    · rfl
  | writeResp =>
    rcases txBeatCases s with ⟨absent,quiet⟩ | ⟨packet,pkt,one,shake⟩
    · have host' : (step s i).host = s.host := by simp [step,hostNext,state,quiet]
      rw [(silent absent).1,left,host']
    · have host' : (step s i).host = {s.host with state := .idle} := by simp [step,hostNext,state,shake]
      have ack := Option.some.inj (pkt.symm.trans (txAck live.ok state))
      have we := live.ok.write (.inr (.inr (.inr state)))
      rw [(opens packet one).2,left,host',ack]
      simp [Tx.owed,Tx.payloadOf,ackOf,we,txOwed]
  | readTx =>
    rcases txBeatCases s with ⟨absent,quiet⟩ | ⟨packet,pkt,one,shake⟩
    · have host' : (step s i).host = s.host := by simp [step,hostNext,state,quiet]
      rw [(silent absent).1,left,host']
    · obtain ⟨present,rdata,answer⟩ := txRead live.ok state
      have beat : packet = answerOf s.host.info (index s.host) rdata :=
        (Option.some.inj (pkt.symm.trans present)).trans answer
      obtain ⟨we,_⟩ := live.ok.read (.inr (.inr state))
      have placed := live.ok.placed (by simp [state])
      have bound := placed.bound
      have positive := placed.positive
      have owed : Tx.owed (Tx.beatsLeft s.tx) packet = s.host.beatsRemaining.toNat - 1 := by
        rw [beat,left]
        by_cases first : index s.host = 0
        · have whole : length s.host.info = s.host.info.burstLenM1.toNat + 1 := rfl
          simp only [index] at first
          simp only [Tx.owed,answerOf,index,first,Tx.payloadOf,we]
          simp
          omega
        · simp [Tx.owed,answerOf,first,txOwed,state]
      rw [(opens packet one).2,owed]
      cases last : lastBeat s.host with
      | true =>
        have count : s.host.beatsRemaining = 1#17 := by simpa [lastBeat] using last
        have host' : (step s i).host.state = .idle := by
          simp [step,hostNext,state,shake,lastBeat,count]
        simp [txOwed,host',count]
      | false =>
        have more : ¬ s.host.beatsRemaining = 1#17 := by simpa [lastBeat] using last
        have host' : (step s i).host =
            {advance {s.host with readFirstBeat := false} with state := .readA} := by
          simp [step,hostNext,state,shake,lastBeat,more]
        obtain ⟨_,_,place,less⟩ := advancePlaced
          (placedFrame (t := {s.host with readFirstBeat := false}) placed rfl rfl rfl rfl rfl rfl) last
        have moved : index (step s i).host = index s.host + 1 := by
          rw [host']
          exact place
        have left' : (step s i).host.beatsRemaining.toNat = s.host.beatsRemaining.toNat - 1 := by
          rw [host']
          exact less
        have state' : (step s i).host.state = .readA := by rw [host']
        simp [txOwed,state',moved,left']

theorem liveStep {s : Regs} (live : Live s) (i : Inputs) : Live (step s i) :=
  ⟨(advances live.ok i).1,stepRxOk live.rx _,owesStep live i,(txStep live.tx i).1,leftStep live i⟩

/- What the packet in progress waits for in its state is there: the bus takes the request or answers it, the host sends a
byte of the next beat, the link takes one. -/
def served (s : Regs) (i : Inputs) : Bool := match s.host.state with
  | .idle => true
  | .writeA | .readA => i.hostMemAReady
  | .writeD | .readD => i.hostMemDValid
  | .writeWait => i.rxValid || s.rx.outValid
  | .writeResp | .readTx => i.txReady

def work (s : Regs) : Nat :=
  let left := 64 * s.host.beatsRemaining.toNat
  match s.host.state with
  | .idle => 0
  | .writeA | .readA => left + 30
  | .writeD | .readD => left + 29
  | .writeWait => left + 31 + if s.rx.outValid then 0 else s.rx.beatBytes.toNat - s.rx.beatByteIdx.toNat
  | .writeResp => (Tx.toSend s.tx).length + 1
  | .readTx => left - 32 + (Tx.toSend s.tx).length

theorem toSendShort {t : Tx.Regs} (ok : Tx.Consistent t) : (Tx.toSend t).length ≤ 12 := by
  have width : t.beatBytes.toNat ≤ 4 := by rcases ok.width with h | h | h <;> simp [h]
  have data : (Tx.beatWord t.beatBytes.toNat t.beatData).length ≤ 4 := by simpa [Tx.beatWord] using width
  have first : (if t.payloadEnabled then Tx.beatWord t.beatBytes.toNat t.beatData else []).length ≤ 4 := by
    split
    · exact data
    · simp
  cases state : t.state <;>
    simp only [Tx.toSend,state,header,List.length_append,List.length_drop,List.length_cons,List.length_nil] <;>
    omega

theorem sentOut {t : Tx.Regs} (ok : Tx.Consistent t) (empty : Tx.toSend t = []) :
    t.state = .idle ∨ t.state = .waitBeat := by
  have second := ok.second
  have third := ok.third
  rcases ok.width with width | width | width <;> cases state : t.state <;>
    simp_all [Tx.toSend,header,Tx.beatWord1,Tx.beatWord2,Tx.beatWord4]

theorem sentReady {t : Tx.Regs} (ok : Tx.Consistent t) (empty : Tx.toSend t = []) {start : Bool}
    (boundary : start = true ↔ Tx.beatsLeft t = 0) : Tx.packetReady t start = true := by
  rcases sentOut ok empty with state | state
  · have opens : start = true := boundary.mpr (by simp [Tx.beatsLeft,state])
    simp [Tx.packetReady,state,opens]
  · have positive := ok.counted (by simp [state])
    have closed : ¬ start = true := fun h => by
      have zero := boundary.mp h
      simp only [Tx.beatsLeft,state] at zero
      omega
    simp [Tx.packetReady,state,closed]

theorem txWaits {s : Regs} (live : Live s) (i : Inputs) {packet : Beat} (pkt : txPkt s = some packet)
    (boundary : packet.start = true ↔ Tx.beatsLeft s.tx = 0) (blocked : txOutputHandshake s = false) :
    (Tx.toSend (step s i).tx).length ≤ (Tx.toSend s.tx).length ∧
      (i.txReady = true → (Tx.toSend (step s i).tx).length < (Tx.toSend s.tx).length) := by
  have notReady : txPktReady s = false := by simpa [txOutputHandshake,pkt] using blocked
  have empty : txBeat s = [] := by simp [txBeat,notReady]
  have bytes := congrArg List.length ((txStep live.tx i).2.1 empty).2
  rw [List.length_append] at bytes
  refine ⟨by omega,fun ready => ?_⟩
  have busy : Tx.toSend s.tx ≠ [] := by
    intro sent
    have accepts := sentReady live.tx sent boundary
    simp [txPktReady,txPktStart,pkt,accepts] at notReady
  have valid : Tx.txValid s.tx = true := by
    have states : s.tx.state ≠ .idle ∧ s.tx.state ≠ .waitBeat := by
      constructor <;> intro state <;> simp [Tx.toSend,state] at busy
    simp [Tx.txValid,states]
  have one : (Tx.emitted s.tx (txInputs s i)).length = 1 := by simp [Tx.emitted,valid,txInputs,ready]
  omega

theorem workServed {s : Regs} (live : Live s) (i : Inputs) (busy : s.host.state ≠ .idle) :
    (step s i).host.state = .idle ∨
      (work (step s i) ≤ work s ∧ (served s i = true → work (step s i) < work s)) := by
  have next := liveStep live i
  have placed := live.ok.placed busy
  have positive := placed.positive
  have short := toSendShort next.tx
  cases state : s.host.state with
  | idle => contradiction
  | writeA | readA =>
    refine .inr ?_
    cases shake : i.hostMemAReady with
    | false =>
      have host' : (step s i).host = s.host := by
        simp [step,hostNext,state,hostAHandshake,shake]
      simp [work,host',state,served,shake]
    | true =>
      have host' : (step s i).host.beatsRemaining = s.host.beatsRemaining ∧
          ((step s i).host.state = .writeD ∨ (step s i).host.state = .readD) := by
        simp [step,hostNext,state,hostAHandshake,memAPhase,shake]
      obtain ⟨left,write | read⟩ := host'
      · simp only [work,left,write,state]
        omega
      · simp only [work,left,read,state]
        omega
  | writeD =>
    refine .inr ?_
    cases shake : i.hostMemDValid with
    | false =>
      have host' : (step s i).host = s.host := by
        simp [step,hostNext,state,hostDHandshake,shake]
      simp [work,host',state,served,shake]
    | true =>
      cases last : lastBeat s.host with
      | true =>
        have state' : (step s i).host.state = .writeResp := by
          simp [step,hostNext,state,hostDHandshake,memDPhase,shake,last]
        simp only [work,state',state]
        omega
      | false =>
        have host' : (step s i).host = {advance s.host with state := .writeWait} := by
          simp [step,hostNext,state,hostDHandshake,memDPhase,shake,last]
        have less : (step s i).host.beatsRemaining.toNat = s.host.beatsRemaining.toNat - 1 := by
          rw [host']
          exact (advancePlaced placed last).2.2.2
        have state' : (step s i).host.state = .writeWait := by rw [host']
        have owes := next.owes
        obtain ⟨left,count⟩ : ∃ left, (step s i).host.beatsRemaining.toNat = left + 1 :=
          ⟨_,(Nat.sub_add_cancel (next.ok.placed (by simp [state'])).positive).symm⟩
        simp only [rxOwed,state',count] at owes
        have payload : (step s i).rx.outValid = false → (step s i).rx.state = .payload := by
          intro free
          have rest := owes.2.2
          rw [free] at rest
          exact rest.1
        have wait : (if (step s i).rx.outValid then 0
            else (step s i).rx.beatBytes.toNat - (step s i).rx.beatByteIdx.toNat) ≤ 4 := by
          split
          · omega
          · rename_i free
            have width := (next.rx.width (payload (by simpa using free))).2
            omega
        simp only [work,state',state,less]
        omega
  | writeWait =>
    refine .inr ?_
    have owes := live.owes
    obtain ⟨left,count⟩ : ∃ left, s.host.beatsRemaining.toNat = left + 1 :=
      ⟨_,(Nat.sub_add_cancel positive).symm⟩
    simp only [rxOwed,state,count] at owes
    obtain ⟨type,below,rest⟩ := owes
    cases valid : s.rx.outValid with
    | true =>
      rw [valid,if_pos rfl] at rest
      have takes : acceptHostWritePayload s = true := by
        simp [acceptHostWritePayload,state,valid,Rx.Regs.packet,type,rest.1]
      have host' : (step s i).host = {s.host with writeData := s.rx.packet.data, state := .writeA} := by
        simp [step,hostNext,state,takes]
      simp only [work,host',state]
      omega
    | false =>
      rw [valid] at rest
      obtain ⟨payload,beats⟩ := rest
      have takes : acceptHostWritePayload s = false := by simp [acceptHostWritePayload,valid]
      have host' : (step s i).host = s.host := by simp [step,hostNext,state,takes]
      cases arrives : i.rxValid with
      | false =>
        have rx' : (step s i).rx = s.rx := by simp [step,Rx.step,rxInputs,valid,arrives]
        simp [work,host',state,rx',served,arrives,valid]
      | true =>
        have rx' : (step s i).rx = s.rx.takePayload i.rxData := by
          simp [step,Rx.step,rxInputs,valid,arrives,Rx.Regs.take,payload]
        have width := live.rx.width payload
        rcases takePayloadCases live.rx payload i.rxData with ⟨more,same,index⟩ | ⟨last,same,_⟩
        · have rx'' := rx'.trans same
          simp only [work,host',state,rx'',valid,index]
          simp
          omega
        · have rx'' := rx'.trans same
          simp only [work,host',state,rx'',valid]
          simp
          omega
  | writeResp =>
    cases shake : txOutputHandshake s with
    | true => exact .inl (by simp [step,hostNext,state,shake])
    | false =>
      refine .inr ?_
      have host' : (step s i).host = s.host := by simp [step,hostNext,state,shake]
      have boundary : (ackOf s.host.info).start = true ↔ Tx.beatsLeft s.tx = 0 := by
        rw [live.left]
        simp [ackOf,txOwed,state]
      obtain ⟨atMost,fewer⟩ := txWaits live i (txAck live.ok state) boundary shake
      simp only [work,host',state]
      refine ⟨by omega,fun serves => ?_⟩
      have := fewer (by simpa [served,state] using serves)
      omega
  | readD =>
    refine .inr ?_
    cases shake : i.hostMemDValid with
    | false =>
      have host' : (step s i).host = s.host := by
        simp [step,hostNext,state,hostDHandshake,shake]
      simp [work,host',state,served,shake]
    | true =>
      have host' : (step s i).host = {s.host with state := .readTx} := by
        simp [step,hostNext,state,hostDHandshake,memDPhase,shake]
      simp only [work,host',state]
      omega
  | readTx =>
    cases shake : txOutputHandshake s with
    | true =>
      cases last : lastBeat s.host with
      | true =>
        have one : s.host.beatsRemaining = 1#17 := by simpa [lastBeat] using last
        exact .inl (by simp [step,hostNext,state,shake,lastBeat,one])
      | false =>
        refine .inr ?_
        have more : ¬ s.host.beatsRemaining = 1#17 := by simpa [lastBeat] using last
        have host' : (step s i).host =
            {advance {s.host with readFirstBeat := false} with state := .readA} := by
          simp [step,hostNext,state,shake,lastBeat,more]
        have less : (step s i).host.beatsRemaining.toNat = s.host.beatsRemaining.toNat - 1 := by
          rw [host']
          exact (advancePlaced
            (placedFrame (t := {s.host with readFirstBeat := false}) placed rfl rfl rfl rfl rfl rfl) last).2.2.2
        have state' : (step s i).host.state = .readA := by rw [host']
        have notOne : s.host.beatsRemaining.toNat ≠ 1 := fun h => more (BitVec.eq_of_toNat_eq h)
        simp only [work,state',state,less]
        omega
    | false =>
      refine .inr ?_
      have host' : (step s i).host = s.host := by simp [step,hostNext,state,shake]
      obtain ⟨pkt,rdata,answer⟩ := txRead live.ok state
      have boundary : s.slice.start = true ↔ Tx.beatsLeft s.tx = 0 := by
        have nonzero : s.host.beatsRemaining.toNat ≠ 0 := by omega
        rw [live.left,answer]
        simp [answerOf,txOwed,state,nonzero]
      obtain ⟨atMost,fewer⟩ := txWaits live i pkt boundary shake
      simp only [work,host',state]
      refine ⟨by omega,fun serves => ?_⟩
      have := fewer (by simpa [served,state] using serves)
      omega

theorem workBound {s : Regs} (live : Live s) (busy : s.host.state ≠ .idle) :
    work s ≤ 64 * (s.host.beatsRemaining.toNat + 1) := by
  have short := toSendShort live.tx
  have positive := (live.ok.placed busy).positive
  cases state : s.host.state with
  | writeWait =>
    obtain ⟨left,count⟩ : ∃ left, s.host.beatsRemaining.toNat = left + 1 :=
      ⟨_,(Nat.sub_add_cancel positive).symm⟩
    have owes := live.owes
    simp only [rxOwed,state,count] at owes
    simp only [work,state]
    split
    · omega
    · rename_i free
      have rest := owes.2.2
      rw [if_neg free] at rest
      have width := live.rx.width rest.1
      omega
  | _ =>
    simp only [work,state]
    omega

theorem finishes {s : Regs} (live : Live s) (inputs : List Inputs)
    (enough : work s < (machine.trace s inputs).countP fun c => served c.1 c.2) :
    ∃ n, (machine.final s (inputs.take n)).host.state = .idle := by
  have always : machine.Steps (fun _ _ => True) s inputs := fun _ _ => trivial
  have step (s : Regs) (i : Inputs) (live : Live s) (_ : True) (busy : ¬s.host.state = .idle) :
      (step s i).host.state = .idle ∨ Live (step s i) ∧ work (step s i) ≤ work s ∧
        (served s i = true → work (step s i) < work s) := by
    rcases workServed live i busy with done | less
    · exact .inl done
    · exact .inr ⟨liveStep live i,less⟩
  exact @reaches _ _ _ machine Live (fun s => s.host.state = .idle) _ work served step inputs s live always enough

end RiscvSoc.HostBus.Interface
