import RiscvSoc.Rtl.HostBusBursts
import RiscvSoc.Link.WireFormat

/-! The range check of `send_request` against the address stepping of the engine: what a
request is checked for is what its transactions touch. -/
namespace RiscvSoc.Link
open LittleEndian (Byte)
open Host (BusRequest AccessSize Word)
open Host (Handler)
open Host.Handler (Packet requestFault BurstInRange)
open HostBus (Meta)
open HostBus.Interface (HostEvent addrAt addrFixed stride length packetEvents)

/- The bytes of a transaction, as addresses that do not wrap. -/
def touches : HostEvent → List Nat
  | .issue addr size _ => (List.range (stride size).toNat).map (addr.toNat + ·)
  | _ => []

def InRtl (byte : Nat) : Prop := byte < 2 ^ 32 ∧ Host.isRtlPeripheralAddr (BitVec.ofNat 32 byte) = true

theorem inRtlBelow (byte : Nat) : InRtl byte ↔ byte < 2 ^ 31 := by
  rw [InRtl,Host.rtlHalf,decide_eq_true_eq,BitVec.toNat_ofNat]
  omega

theorem stridePositive (size : BitVec 2) : 0 < (stride size).toNat := by
  revert size
  decide

theorem touchesInRtl (addr : Word) (size : BitVec 2) (wdata) :
    (∀ b ∈ touches (.issue addr size wdata), InRtl b) ↔ addr.toNat + (stride size).toNat ≤ 2 ^ 31 := by
  have positive := stridePositive size
  simp only [touches,List.mem_map,List.mem_range,inRtlBelow]
  constructor
  · intro all
    have last := all _ ⟨(stride size).toNat - 1,by omega,rfl⟩
    omega
  · rintro fits b ⟨k,within,rfl⟩
    omega

theorem readIssues (info : Meta) (count : Nat) (answers : List Word) : ∀ i,
    (HostBus.Interface.readEvents info i count answers).flatMap touches =
      (List.range' i count).flatMap fun j => touches (.issue (addrAt info j) info.size none) := by
  induction count generalizing answers with
  | zero => intro i; rfl
  | succ count ih =>
    intro i
    rw [List.range'_succ,List.flatMap_cons,← ih answers.tail]
    simp [HostBus.Interface.readEvents,touches]

theorem writeIssues (info : Meta) (words answers : List Word) : ∀ i,
    (HostBus.Interface.writeEvents info i words answers).flatMap touches =
      (List.range' i words.length).flatMap fun j => touches (.issue (addrAt info j) info.size none) := by
  induction words generalizing answers with
  | nil => intro i; rfl
  | cons data rest ih =>
    intro i
    rw [List.length_cons,List.range'_succ,List.flatMap_cons,← ih answers.tail]
    simp [HostBus.Interface.writeEvents,touches]

theorem packetTouches {p : HostBus.Rx.Packet} (valid : p.Valid) (request : p.packetType = 0b0010) (answers : List Word) :
    (packetEvents p answers).flatMap touches =
      (List.range' 0 (length p.info)).flatMap fun j => touches (.issue (addrAt p.info j) p.info.size none) := by
  have payload := valid.payload
  have carries : HostBus.Rx.carries p.packetType p.info.we = p.info.we := by simp [HostBus.Rx.carries,request]
  rw [carries] at payload
  rw [packetEvents]
  rcases Bool.eq_false_or_eq_true p.info.we with write | read
  · rw [if_pos write] at payload ⊢
    have count : (p.chunks.map (LittleEndian.word 32)).length = length p.info := by
      rw [List.length_map]
      exact payload.count
    rw [writeIssues,count]
  · rw [if_neg (by simp [read]),readIssues]

def span (info : Meta) : Nat := (if addrFixed info then 1 else length info) * (stride info.size).toNat

theorem addrWithin {info : Meta} (below : info.baseAddr.toNat < 2 ^ 31) {i : Nat} (within : i < length info) :
    (addrAt info i).toNat = info.baseAddr.toNat + (if addrFixed info then 0 else i * (stride info.size).toNat) := by
  rw [addrAt]
  split
  · rfl
  · have few : length info ≤ 2 ^ 16 := by
      have bound := info.burstLenM1.isLt
      simp only [length]
      omega
    have narrow : (stride info.size).toNat < 2 ^ 3 := (stride info.size).isLt
    have scaled : i * (stride info.size).toNat ≤ 2 ^ 16 * 2 ^ 3 := Nat.mul_le_mul (by omega) (by omega)
    rw [BitVec.toNat_add,BitVec.toNat_ofNat,Nat.add_mod_mod,Nat.mod_eq_of_lt (by omega)]

theorem burstInRtl (info : Meta) :
    (∀ b ∈ (List.range' 0 (length info)).flatMap fun j => touches (.issue (addrAt info j) info.size none), InRtl b) ↔
      info.baseAddr.toNat + span info ≤ 2 ^ 31 := by
  have positive := stridePositive info.size
  have nonzero : 0 < length info := Nat.succ_pos _
  simp only [List.forall_mem_flatMap,touchesInRtl,List.mem_range'_1,Nat.zero_le,true_and,Nat.zero_add]
  rw [span]
  constructor
  · intro all
    have first := all 0 nonzero
    rw [HostBus.Interface.addrFirst] at first
    have below : info.baseAddr.toNat < 2 ^ 31 := by omega
    have last := all (length info - 1) (by omega)
    rw [addrWithin below (by omega)] at last
    rcases Bool.eq_false_or_eq_true (addrFixed info) with fixed | moves
    · simpa [fixed] using last
    · have whole := Nat.succ_mul (length info - 1) (stride info.size).toNat
      rw [Nat.succ_eq_add_one,Nat.sub_add_cancel nonzero] at whole
      rw [moves,if_neg Bool.false_ne_true] at last ⊢
      omega
  · intro fits i within
    have below : info.baseAddr.toNat < 2 ^ 31 := by
      have once : (stride info.size).toNat ≤ (if addrFixed info then 1 else length info) * (stride info.size).toNat := by
        apply Nat.le_mul_of_pos_left
        split <;> omega
      omega
    rw [addrWithin below within]
    rcases Bool.eq_false_or_eq_true (addrFixed info) with fixed | moves
    · simpa [fixed] using fits
    · rw [moves,if_neg Bool.false_ne_true] at fits ⊢
      have upTo := Nat.mul_le_mul_right (stride info.size).toNat (Nat.succ_le_of_lt within)
      rw [Nat.succ_mul] at upTo
      omega

theorem checkedSome {total : Word} (positive : 0 < total.toNat) (addr : Word) :
    ((Host.checkedSub total 1).bind (Host.checkedAdd addr)) =
      if addr.toNat + total.toNat - 1 < 2 ^ 32 then some (addr + (total - 1)) else none := by
  have one : (1 : Word).toNat = 1 := rfl
  have less : (total - 1).toNat = total.toNat - 1 := by
    rw [BitVec.toNat_sub_of_le (by rw [BitVec.le_def,one]; omega),one]
  rw [Host.checkedSub,one,if_pos (Nat.succ_le_of_lt positive),Option.bind_some,Host.checkedAdd,less,Nat.add_sub_assoc positive]

def fixedAddr (r : BusRequest) : Bool := (r.we && r.dstFixed) || (!r.we && r.srcFixed)

theorem infoFixed (r : BusRequest) : addrFixed (info (.request r)) = fixedAddr r := by
  rw [addrFixed,info,metaOf,fixedAddr]
  rcases Bool.eq_false_or_eq_true r.we with write | read
  · rw [write,if_pos rfl]
    simp
  · rw [read,if_neg Bool.false_ne_true]
    simp

theorem infoStride (r : BusRequest) : (stride (info (.request r)).size).toNat = r.size.byteCount := by
  cases size : r.size <;> simp [info,metaOf,size] <;> rfl

theorem infoLength {r : BusRequest} (burst : BurstInRange r.burstLen) : length (info (.request r)) = r.burstLen.toNat :=
  (lenM1Bytes burst).2

def spanBeats (r : BusRequest) : Word :=
  if fixedAddr r then 1 else r.burstLen

structure SpanOk (r : BusRequest) (total : Word) : Prop where
  product : Host.checkedMul (spanBeats r) (BitVec.ofNat 32 r.size.byteCount) = some total
  span : total.toNat = span (info (.request r))
  positive : 0 < total.toNat
  small : total.toNat ≤ 2 ^ 18

theorem spanOk {r : BusRequest} (burst : BurstInRange r.burstLen) : ∃ total, SpanOk r total := by
  obtain ⟨positive,small⟩ := burst
  simp only [Host.maxBurstBeats] at small
  have width : r.size.byteCount = 1 ∨ r.size.byteCount = 2 ∨ r.size.byteCount = 4 := by
    cases r.size <;> simp [AccessSize.byteCount]
  have fixed : (spanBeats r).toNat = if fixedAddr r then 1 else r.burstLen.toNat := by
    rw [spanBeats]
    split <;> rfl
  have few : 0 < (spanBeats r).toNat ∧ (spanBeats r).toNat ≤ 65536 := by
    rw [fixed]
    split <;> omega
  have size : (BitVec.ofNat 32 r.size.byteCount).toNat = r.size.byteCount := Nat.mod_eq_of_lt (by omega)
  have most : (spanBeats r).toNat * r.size.byteCount ≤ 65536 * 4 := Nat.mul_le_mul few.2 (by omega)
  have least : 0 < (spanBeats r).toNat * r.size.byteCount := Nat.mul_pos few.1 (by omega)
  have total : (spanBeats r * BitVec.ofNat 32 r.size.byteCount).toNat = (spanBeats r).toNat * r.size.byteCount := by
    rw [BitVec.toNat_mul,size,Nat.mod_eq_of_lt (by omega)]
  refine ⟨_,if_pos (by rw [size]; omega),?_,by rw [total]; omega,by rw [total]; omega⟩
  rw [total,span,fixed,infoFixed,infoLength ⟨positive,small⟩,infoStride]

theorem spanChecked {r : BusRequest} (burst : BurstInRange r.burstLen) :
    Host.classifyRequestRegion r = .rtlPeripheral ↔ r.addr.toNat + span (info (.request r)) ≤ 2 ^ 31 := by
  obtain ⟨total,product,same,positive,small⟩ := spanOk burst
  have bound := r.addr.isLt
  have endAddr : Host.requestEndAddr r =
      if r.addr.toNat + total.toNat - 1 < 2 ^ 32 then some (r.addr + (total - 1)) else none := by
    rw [← checkedSome positive]
    exact (congrArg (fun x => x.bind fun t => (Host.checkedSub t 1).bind (Host.checkedAdd r.addr)) product).trans rfl
  rw [← same,Host.classifyRequestRegion,endAddr]
  by_cases fits : r.addr.toNat + total.toNat - 1 < 2 ^ 32
  · have last : (r.addr + (total - 1)).toNat = r.addr.toNat + (total.toNat - 1) := by
      bv_omega
    rw [if_pos fits]
    simp only [Host.rtlHalf,last]
    by_cases low : r.addr.toNat + total.toNat ≤ 2 ^ 31
    · have start : r.addr.toNat < 2 ^ 31 := by omega
      have stop : r.addr.toNat + (total.toNat - 1) < 2 ^ 31 := by omega
      simp only [decide_eq_true start,decide_eq_true stop]
      exact iff_of_true trivial low
    · have stop : ¬ r.addr.toNat + (total.toNat - 1) < 2 ^ 31 := by omega
      rw [decide_eq_false stop]
      refine iff_of_false ?_ low
      cases decide (r.addr.toNat < 2 ^ 31) <;> simp
  · rw [if_neg fits]
    exact iff_of_false (by simp) (by omega)

def eventsOf (r : BusRequest) (answers : List Word) : List HostEvent := packetEvents (onWire (.request r)) answers

theorem requestInRtl {r : BusRequest} (fits : Packet.Fits (.request r)) (answers : List Word) :
    (∀ e ∈ eventsOf r answers, ∀ b ∈ touches e, InRtl b) ↔ Host.classifyRequestRegion r = .rtlPeripheral := by
  rw [spanChecked fits.burst,← List.forall_mem_flatMap,eventsOf,packetTouches (packetValid fits) rfl]
  exact burstInRtl (info (.request r))

theorem faultRegion {r : BusRequest} (fits : Packet.Fits (.request r)) :
    requestFault r = none ↔ Host.classifyRequestRegion r = .rtlPeripheral := by
  have burst : ¬ (r.burstLen = 0 ∨ r.burstLen.toNat > Host.maxBurstBeats) := by
    rintro (zero | large)
    · have positive := fits.burst.1
      rw [zero] at positive
      exact absurd positive (by decide)
    · exact absurd fits.burst.2 (Nat.not_le.mpr large)
  have length := fits.length
  have write : ¬ (r.we = true ∧ r.data.length ≠ r.size.byteCount * r.burstLen.toNat) := by
    rintro ⟨we,wrong⟩
    exact wrong (by simpa [we] using length)
  have read : ¬ (¬ r.we = true ∧ r.data ≠ []) := by
    rintro ⟨we,wrong⟩
    exact wrong (List.length_eq_zero_iff.mp (by simpa [we] using length))
  rw [requestFault,if_neg burst,if_neg write,if_neg read]
  split <;> simp_all

theorem sendChecked {h : Handler} {r} (sent : (h.sendRequest r).1 = .ok ()) : requestFault r = none := by
  rw [Host.Handler.sendRequest] at sent
  split at sent
  · contradiction
  · split at sent
    · contradiction
    · assumption

theorem acceptedChecked (h : Handler) (op) : ∀ p ∈ h.acceptedPackets op, ∀ r, p = .request r → requestFault r = none := by
  intro p mem r same
  subst same
  cases op with
  | send request =>
    rw [Host.Handler.acceptedPackets] at mem
    split at mem
    · rename_i sent
      cases List.mem_singleton.mp mem
      exact sendChecked sent
    · simp at mem
  | complete response =>
    rw [Host.Handler.acceptedPackets] at mem
    split at mem <;> simp at mem
  | rx | tx | receive | accept | query => simp [Host.Handler.acceptedPackets] at mem

theorem executedFrom {packets : List HostBus.Rx.Packet} {answers : List Word} {e : HostEvent}
    (mem : e ∈ HostBus.Interface.executed packets answers) : ∃ p ∈ packets, ∃ answers, e ∈ packetEvents p answers := by
  induction packets generalizing answers with
  | nil => simp [HostBus.Interface.executed] at mem
  | cons p rest ih =>
    rcases List.mem_append.mp mem with now | later
    · exact ⟨p,by simp,answers,now⟩
    · obtain ⟨q,inside,found⟩ := ih later
      exact ⟨q,List.mem_cons_of_mem _ inside,found⟩

theorem engineInRtl (ops : List Host.Handler.Op) (s : HostBus.Interface.Regs) (inputs : List HostBus.Interface.Inputs)
    (rest : List Byte)
    (bytes : HostBus.Interface.machine.history HostBus.Interface.rxTaken (HostBus.Interface.reset s) inputs ++ rest =
      Host.Handler.machine.history Host.Handler.emitted .new ops) :
    ∀ e ∈ HostBus.Interface.machine.history HostBus.Interface.events (HostBus.Interface.reset s) inputs,
      ∀ b ∈ touches e, InRtl b := by
  have started := Host.Handler.startedFits ops
  have stream := Host.Handler.transmitStream .new ops
  have empty : (Handler.new).pendingTx = [] := rfl
  rw [empty,List.nil_append,← bytes,List.append_assoc,packetsBytes fun p mem => (started p mem).2] at stream
  obtain ⟨later,all,_⟩ := HostBus.Interface.transactions s inputs _ (by
    intro q mem
    obtain ⟨p,sent,rfl⟩ := List.mem_map.mp mem
    exact packetValid (started p sent).2) _ stream
  intro e mem
  obtain ⟨q,inside,answers,found⟩ := executedFrom (all ▸ List.mem_append_left later mem)
  obtain ⟨listed,request⟩ := List.mem_filter.mp inside
  obtain ⟨p,sent,rfl⟩ := List.mem_map.mp listed
  obtain ⟨accepted,fits⟩ := started p sent
  cases p with
  | response r => simp [HostBus.Interface.isRequest,onWire,wireType] at request
  | request r =>
    have checked := @Mealy.Machine.historyAll _ _ _ Host.Handler.machine _ (fun _ => True) Host.Handler.acceptedPackets
      (fun p => ∀ r, p = .request r → requestFault r = none) (fun _ _ _ => trivial)
      (fun h op _ => acceptedChecked h op) _ trivial ops _ accepted r rfl
    exact (requestInRtl fits answers).mpr ((faultRegion fits).mp checked) e found

/- What the engine issues for requests that `send_request` took is in the RTL half, stepped
without a wrap, and a well-formed request with a byte outside is refused. -/
theorem hostStaysInRtl :
    (∀ (ops : List Host.Handler.Op) (s : HostBus.Interface.Regs) (inputs : List HostBus.Interface.Inputs) (rest : List Byte),
      HostBus.Interface.machine.history HostBus.Interface.rxTaken (HostBus.Interface.reset s) inputs ++ rest =
        Host.Handler.machine.history Host.Handler.emitted .new ops →
      ∀ e ∈ HostBus.Interface.machine.history HostBus.Interface.events (HostBus.Interface.reset s) inputs,
        ∀ b ∈ touches e, InRtl b) ∧
    (∀ (h : Handler) (r : BusRequest), (h.sendRequest r).1 = .ok () →
      (∀ answers, ∀ e ∈ eventsOf r answers, ∀ b ∈ touches e, InRtl b) ∧
      ∀ i, i < r.burstLen.toNat → (addrAt (info (.request r)) i).toNat = r.addr.toNat +
        if fixedAddr r then 0 else i * r.size.byteCount) ∧
    ∀ (h : Handler) (r : BusRequest) (answers : List Word), Packet.Fits (.request r) →
      (∃ e ∈ eventsOf r answers, ∃ b ∈ touches e, ¬ InRtl b) → ∃ fault, h.sendRequest r = (.error fault,h) := by
  refine ⟨engineInRtl,?_,?_⟩
  · intro h r sent
    have fits := Host.Handler.requestFits (sendChecked sent)
    have region := (faultRegion fits).mp (sendChecked sent)
    refine ⟨fun answers => (requestInRtl fits answers).mpr region,fun i within => ?_⟩
    have inside := (spanChecked fits.burst).mp region
    have positive : 0 < span (info (.request r)) := by
      refine Nat.mul_pos ?_ (stridePositive _)
      split
      · decide
      · exact Nat.succ_pos _
    have below : (info (.request r)).baseAddr.toNat < 2 ^ 31 := by
      change r.addr.toNat < 2 ^ 31
      omega
    rw [addrWithin below (by rw [infoLength fits.burst]; exact within),infoFixed,infoStride]
    rfl
  · intro h r answers fits outside
    have fault : ¬ requestFault r = none := by
      intro absent
      obtain ⟨e,issued,b,touched,out⟩ := outside
      exact out ((requestInRtl fits answers).mpr ((faultRegion fits).mp absent) e issued b touched)
    rw [Host.Handler.sendRequest]
    split
    · exact ⟨_,rfl⟩
    · split
      · exact ⟨_,rfl⟩
      · contradiction

/- The last two halfwords of the RTL half, and a word that begins in the last of them. -/
def lastHalfwords : BusRequest := ⟨0x7FFFFFFC,0,true,.halfword,2,false,false,[0x34,0x12,0x78,0x56]⟩
def acrossWord : BusRequest := ⟨0x7FFFFFFE,0,false,.word,1,false,false,[]⟩

def lastOps : List Host.Handler.Op := .send lastHalfwords :: List.replicate 12 .tx

def lastInputs : List HostBus.Interface.Inputs :=
  ((Host.Handler.requestPacket lastHalfwords).flatMap fun byte =>
    [⟨0,0,false,0,false,true,true,0,true,true,byte,true⟩,⟨0,0,false,0,false,true,true,0,true,true,byte,false⟩]) ++
  List.replicate 16 ⟨0,0,false,0,false,true,true,0,true,true,0,false⟩

theorem lastHalfwordsWritten :
    ((HostBus.Interface.machine.history HostBus.Interface.events (HostBus.Interface.reset .powerOn) lastInputs).flatMap
      touches).all (· < 2 ^ 31) = true ∧
    (addrAt (info (.request lastHalfwords)) 1).toNat = 0x7FFFFFFE ∧
    ∃ fault, Handler.new.sendRequest acrossWord = (.error fault,.new) := by
  obtain ⟨engine,accepted,refused⟩ := hostStaysInRtl
  refine ⟨?_,?_,?_⟩
  · have inside := engine lastOps .powerOn lastInputs [] (by decide +kernel)
    rw [← List.forall_mem_flatMap] at inside
    rw [List.all_eq_true]
    intro b mem
    exact decide_eq_true ((inRtlBelow b).mp (inside b mem))
  · exact ((accepted .new lastHalfwords (by rfl)).2 1 (by decide)).trans (by decide)
  · refine refused .new acrossWord [] ⟨⟨by decide,by decide⟩,by decide⟩ ⟨.issue 0x7FFFFFFE 2 none,by decide,0x80000000,by decide,?_⟩
    rw [inRtlBelow]
    decide

end RiscvSoc.Link
