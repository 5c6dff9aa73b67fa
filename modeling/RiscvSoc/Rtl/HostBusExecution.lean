import RiscvSoc.Rtl.HostBusInterface
import RiscvSoc.Rtl.HostBusRxStream
import RiscvSoc.Rtl.HostBusTxStream

/-! What `host_bus_interface` does for the host is determined by the beats it takes and the
answers of the bus: the transactions of every packet in order, then its response. -/
namespace RiscvSoc.HostBus.Interface
open LittleEndian (Byte word)
open Mealy Machine

abbrev Word := BitVec 32

def length (info : Meta) : Nat := info.burstLenM1.toNat + 1

/- The address of the `i`-th transaction. -/
def addrAt (info : Meta) (i : Nat) : Word :=
  if addrFixed info then info.baseAddr
  else info.baseAddr + BitVec.ofNat 32 (i * (stride info.size).toNat)

def ackOf (info : Meta) : Beat := ⟨true,true,false,info,0⟩
def answerOf (info : Meta) (i : Nat) (rdata : Word) : Beat :=
  ⟨decide (i = 0),decide (i + 1 = length info),false,info,rdata⟩

def readEvents (info : Meta) : Nat → Nat → List Word → List HostEvent
  | _, 0, _ => []
  | i, count+1, answers =>
    .issue (addrAt info i) info.size none :: .answer (answers.headD 0) ::
      .respond (answerOf info i (answers.headD 0)) :: readEvents info (i+1) count answers.tail

def writeEvents (info : Meta) : Nat → List Word → List Word → List HostEvent
  | _, [], _ => [.respond (ackOf info)]
  | i, data :: rest, answers =>
    .issue (addrAt info i) info.size (some data) :: .answer (answers.headD 0) ::
      writeEvents info (i+1) rest answers.tail

def afterWrite (info : Meta) (i : Nat) (answers : List Word)
    (later : Option (Meta × Nat) → List Word → List HostEvent) : List HostEvent :=
  if i + 1 = length info then .respond (ackOf info) :: later none answers
  else later (some (info,i+1)) answers

/- What the beats still to be taken call for, where a write burst may be open at its `i`-th
beat. -/
def plan : Option (Meta × Nat) → List Beat → List Word → List HostEvent
  | _, [], _ => []
  | none, packet :: rest, answers =>
    if packet.info.we then
      .issue (addrAt packet.info 0) packet.info.size (some packet.data) :: .answer (answers.headD 0) ::
        afterWrite packet.info 0 answers.tail fun burst answers => plan burst rest answers
    else readEvents packet.info 0 (length packet.info) answers ++
      plan none rest (answers.drop (length packet.info))
  | some (info,i), packet :: rest, answers =>
    .issue (addrAt info i) info.size (some packet.data) :: .answer (answers.headD 0) ::
      afterWrite info i answers.tail fun burst answers => plan burst rest answers

def index (e : Engine) : Nat := length e.info - e.beatsRemaining.toNat

def todo (s : Regs) (beats : List Beat) (answers : List Word) : List HostEvent :=
  let info := s.host.info
  let i := index s.host
  let left := s.host.beatsRemaining.toNat
  let write := afterWrite info i answers.tail fun burst answers => plan burst beats answers
  match s.host.state with
  | .idle => plan none beats answers
  | .writeA =>
    .issue (addrAt info i) info.size (some s.host.writeData) :: .answer (answers.headD 0) :: write
  | .writeD => .answer (answers.headD 0) :: write
  | .writeWait => plan (some (info,i)) beats answers
  | .writeResp => .respond (ackOf info) :: plan none beats answers
  | .readA => readEvents info i left answers ++ plan none beats (answers.drop left)
  | .readD =>
    .answer (answers.headD 0) :: .respond (answerOf info i (answers.headD 0)) ::
      (readEvents info (i+1) (left-1) answers.tail ++ plan none beats (answers.tail.drop (left-1)))
  | .readTx =>
    .respond s.slice ::
      (readEvents info (i+1) (left-1) answers ++ plan none beats (answers.drop (left-1)))

def Writing (e : Engine) : Prop :=
  e.state = .writeA ∨ e.state = .writeD ∨ e.state = .writeWait ∨ e.state = .writeResp
def Reading (e : Engine) : Prop := e.state = .readA ∨ e.state = .readD ∨ e.state = .readTx

structure Placed (e : Engine) : Prop where
  positive : 1 ≤ e.beatsRemaining.toNat
  bound : e.beatsRemaining.toNat ≤ length e.info
  addr : e.currAddr = addrAt e.info (index e)
  next : e.nextAddr = addrAt e.info (index e + 1)
  fixed : e.addrFixed = addrFixed e.info
  stride : e.stride = stride e.info.size

structure Ok (s : Regs) : Prop where
  placed : s.host.state ≠ .idle → Placed s.host
  write : Writing s.host → s.host.info.we = true
  read : Reading s.host → s.host.info.we = false ∧ s.host.readFirstBeat = decide (index s.host = 0)
  staged : s.sliceValid = true →
    (s.host.state = .writeResp ∧ s.slice = ackOf s.host.info) ∨
      (s.host.state = .readTx ∧ ∃ rdata, s.slice = answerOf s.host.info (index s.host) rdata)
  filled : s.host.state = .readTx → s.sliceValid = true

theorem resetOk (s : Regs) : Ok (reset s) := by
  constructor <;> simp [reset,Writing,Reading]

theorem addrNext (info : Meta) (i : Nat) (moves : addrFixed info = false) :
    addrAt info (i+1) = addrAt info i + (stride info.size).setWidth 32 := by
  have step : BitVec.ofNat 32 (stride info.size).toNat = (stride info.size).setWidth 32 := by
    apply BitVec.eq_of_toNat_eq
    simp
  simp only [addrAt,moves,Bool.false_eq_true,if_false,Nat.succ_mul,BitVec.ofNat_add,step,BitVec.add_assoc]

theorem addrFirst (info : Meta) : addrAt info 0 = info.baseAddr := by
  simp [addrAt]

theorem addrStays {info : Meta} (stays : addrFixed info = true) (i : Nat) : addrAt info i = info.baseAddr := by
  simp [addrAt,stays]

theorem placedFrame {e t : Engine} (ok : Placed e) (info : t.info = e.info)
    (left : t.beatsRemaining = e.beatsRemaining) (addr : t.currAddr = e.currAddr)
    (next : t.nextAddr = e.nextAddr) (fixed : t.addrFixed = e.addrFixed) (step : t.stride = e.stride) :
    Placed t := by
  constructor <;> simp only [index,info,left,addr,next,fixed,step]
  · exact ok.positive
  · exact ok.bound
  · exact ok.addr
  · exact ok.next
  · exact ok.fixed
  · exact ok.stride

theorem advancePlaced {e : Engine} (ok : Placed e) (more : lastBeat e = false) :
    Placed (advance e) ∧ (advance e).info = e.info ∧ index (advance e) = index e + 1 ∧
      (advance e).beatsRemaining.toNat = e.beatsRemaining.toNat - 1 := by
  have positive := ok.positive
  have bound := ok.bound
  have notOne : e.beatsRemaining.toNat ≠ 1 := by
    intro one
    have last : e.beatsRemaining = 1#17 := BitVec.eq_of_toNat_eq one
    simp [lastBeat,last] at more
  have less : (e.beatsRemaining - 1#17).toNat = e.beatsRemaining.toNat - 1 := by
    have small := e.beatsRemaining.isLt
    rw [BitVec.toNat_sub]
    simp only [BitVec.reduceToNat]
    omega
  have info : (advance e).info = e.info := by
    simp only [advance]
    split <;> rfl
  have left : (advance e).beatsRemaining = e.beatsRemaining - 1#17 := by
    simp only [advance]
    split <;> rfl
  have place : index (advance e) = index e + 1 := by
    simp only [index,info,left,less]
    omega
  refine ⟨⟨?_,?_,?_,?_,?_,?_⟩,info,place,by rw [left,less]⟩
  · rw [left,less]
    omega
  · rw [left,less,info]
    omega
  · rw [info,place]
    simp only [advance]
    split
    · rename_i stays
      have stays' : addrFixed e.info = true := ok.fixed ▸ stays
      rw [addrStays stays']
      exact ok.addr.trans (addrStays stays' _)
    · exact ok.next
  · rw [info,place]
    simp only [advance]
    split
    · rename_i stays
      have stays' : addrFixed e.info = true := ok.fixed ▸ stays
      rw [addrStays stays']
      exact ok.next.trans (addrStays stays' _)
    · rename_i moves
      have moves' : addrFixed e.info = false := by simpa [ok.fixed] using moves
      rw [addrNext _ _ moves',← ok.stride,← ok.next]
  · rw [info]
    simp only [advance]
    split <;> exact ok.fixed
  · rw [info]
    simp only [advance]
    split <;> exact ok.stride

theorem startPlaced (e : Engine) (packet : Beat) :
    Placed (startRequest e packet) ∧ (startRequest e packet).info = packet.info ∧
      index (startRequest e packet) = 0 ∧
      (startRequest e packet).beatsRemaining.toNat = length packet.info := by
  have len := burstLenToNat packet.info.burstLenM1
  have info : (startRequest e packet).info = packet.info := by
    simp only [startRequest]
    split <;> rfl
  have left : (startRequest e packet).beatsRemaining = burstLen packet.info.burstLenM1 := by
    simp only [startRequest]
    split <;> rfl
  have place : index (startRequest e packet) = 0 := by
    simp only [index,info,left,len,length]
    omega
  have next : (if addrFixed packet.info then packet.info.baseAddr
      else packet.info.baseAddr + (stride packet.info.size).setWidth 32) = addrAt packet.info 1 := by
    split
    · rename_i stays
      exact (addrStays stays 1).symm
    · rename_i moves
      rw [addrNext _ 0 (by simpa using moves),addrFirst]
  refine ⟨⟨?_,?_,?_,?_,?_,?_⟩,info,place,by rw [left,len,length]⟩
  · rw [left,len]
    omega
  · exact Nat.le_of_eq (by rw [left,len,info,length])
  · rw [info,place,addrFirst]
    simp only [startRequest]
    split <;> rfl
  · rw [info,place,← next]
    simp only [startRequest]
    cases packet.info.we <;> rfl
  · rw [info]
    simp only [startRequest]
    split <;> rfl
  · rw [info]
    simp only [startRequest]
    split <;> rfl

theorem indexLast {e : Engine} (ok : Placed e) : (index e + 1 = length e.info) ↔ lastBeat e = true := by
  have positive := ok.positive
  have bound := ok.bound
  have one : lastBeat e = true ↔ e.beatsRemaining.toNat = 1 := by
    simp only [lastBeat,beq_iff_eq]
    exact ⟨fun h => by simp [h],fun h => BitVec.eq_of_toNat_eq h⟩
  rw [one,index]
  omega

def hostBeats (s : Regs) : List Beat :=
  if acceptHostReqStart s || acceptHostWritePayload s then [s.rx.packet] else []

theorem cpuBeatReq (c : Cpu) : (cpuBeat c).req = true := rfl

theorem txQuiet {s : Regs} (ok : Ok s) (resp : s.host.state ≠ .writeResp) (read : s.host.state ≠ .readTx) :
    (txBeat s).filter (!·.req) = [] ∧ s.sliceValid = false ∧ txStageCapture s = none := by
  have free : s.sliceValid = false := by
    cases valid : s.sliceValid with
    | false => rfl
    | true => rcases ok.staged valid with ⟨state,_⟩ | ⟨state,_⟩ <;> contradiction
  have issue : txIssue s = if s.cpu.reqPending then some (cpuBeat s.cpu) else none := by
    simp [txIssue,resp]
  have pkt : txPkt s = if s.cpu.reqPending then some (cpuBeat s.cpu) else none := by
    simp [txPkt,free,issue]
  refine ⟨?_,free,?_⟩
  · simp only [txBeat,pkt]
    cases txPktReady s <;> cases s.cpu.reqPending <;> simp [cpuBeatReq]
  · simp only [txStageCapture,issue]
    cases s.cpu.reqPending <;> simp [cpuBeatReq,Option.filter]

theorem txAck {s : Regs} (ok : Ok s) (resp : s.host.state = .writeResp) :
    txPkt s = some (ackOf s.host.info) := by
  have we := ok.write (.inr (.inr (.inr resp)))
  have ack : ackBeat s.host.info = ackOf s.host.info := by
    simp only [ackBeat,ackOf]
    congr 1
    cases h : s.host.info
    simp_all
  cases valid : s.sliceValid with
  | false => simp [txPkt,valid,txIssue,resp,ack]
  | true =>
    rcases ok.staged valid with ⟨_,slice⟩ | ⟨state,_⟩
    · simp [txPkt,valid,slice]
    · simp [resp] at state

theorem txRead {s : Regs} (ok : Ok s) (read : s.host.state = .readTx) :
    txPkt s = some s.slice ∧ ∃ rdata, s.slice = answerOf s.host.info (index s.host) rdata := by
  have valid := ok.filled read
  refine ⟨by simp [txPkt,valid],?_⟩
  rcases ok.staged valid with ⟨state,_⟩ | ⟨_,answer⟩
  · simp [read] at state
  · exact answer

/- One cycle does the first part of what the registers, the beat taken and the answer received
call for. -/
def Advances (s : Regs) (i : Inputs) : Prop :=
  Ok (step s i) ∧ ∀ beats answers, events s i ++ todo (step s i) beats answers =
    todo s (hostBeats s ++ beats) (answered s i ++ answers)

theorem holds {s : Regs} (ok : Ok s) (i : Inputs) (host : hostNext s i = s.host)
    (slice : sliceNext s i = (s.sliceValid,s.slice)) (silent : events s i = [])
    (takes : hostBeats s = []) (empty : answered s i = []) : Advances s i := by
  have host' : (step s i).host = s.host := host
  have valid' : (step s i).sliceValid = s.sliceValid := congrArg Prod.fst slice
  have slice' : (step s i).slice = s.slice := congrArg Prod.snd slice
  refine ⟨⟨?_,?_,?_,?_,?_⟩,?_⟩
  · rw [host']
    exact ok.placed
  · rw [host']
    exact ok.write
  · rw [host']
    exact ok.read
  · rw [host',valid',slice']
    exact ok.staged
  · rw [host',valid']
    exact ok.filled
  · intro beats answers
    simp only [silent,takes,empty,List.nil_append,todo,host',slice']

theorem sliceQuiet {s : Regs} (ok : Ok s) {i} (resp : s.host.state ≠ .writeResp) (read : s.host.state ≠ .readTx)
    (other : ¬ (s.host.state = .readD ∧ hostDHandshake s i = true)) :
    sliceNext s i = (s.sliceValid,s.slice) ∧ s.sliceValid = false ∧ (txBeat s).filter (!·.req) = [] := by
  obtain ⟨quiet,free,stages⟩ := txQuiet ok resp read
  refine ⟨?_,free,quiet⟩
  simp [sliceNext,other,stages,free]

theorem okOf {t : Regs} (placed : t.host.state ≠ .idle → Placed t.host)
    (write : Writing t.host → t.host.info.we = true)
    (read : Reading t.host → t.host.info.we = false ∧ t.host.readFirstBeat = decide (index t.host = 0))
    (free : t.sliceValid = false) (elsewhere : t.host.state ≠ .readTx) : Ok t :=
  ⟨placed,write,read,by simp [free],fun state => absurd state elsewhere⟩

theorem idleAdvances {s : Regs} (ok : Ok s) (i : Inputs) (idle : s.host.state = .idle) : Advances s i := by
  obtain ⟨slice,free,quiet⟩ := sliceQuiet ok (i := i) (by simp [idle]) (by simp [idle]) (by simp [idle])
  have noA : hostAHandshake s i = false := by simp [hostAHandshake,memAPhase,idle]
  have noD : hostDHandshake s i = false := by simp [hostDHandshake,memDPhase,idle]
  have silent : events s i = [] := by simp [events,issued,answered,noA,noD,quiet]
  have empty : answered s i = [] := by simp [answered,noD]
  have noWrite : acceptHostWritePayload s = false := by simp [acceptHostWritePayload,idle]
  cases takes : acceptHostReqStart s with
  | false =>
    refine holds ok i ?_ slice silent ?_ empty
    · simp [hostNext,idle,takes]
    · simp [hostBeats,takes,noWrite]
  | true =>
    have host' : (step s i).host = startRequest s.host s.rx.packet := by
      simp [step,hostNext,idle,takes]
    have free' : (step s i).sliceValid = false := (congrArg Prod.fst slice).trans free
    have beats' : hostBeats s = [s.rx.packet] := by simp [hostBeats,takes]
    obtain ⟨placed,info,place,left⟩ := startPlaced s.host s.rx.packet
    cases we : s.rx.packet.info.we with
    | true =>
      have state' : (startRequest s.host s.rx.packet).state = .writeA := by simp [startRequest,we]
      have data' : (startRequest s.host s.rx.packet).writeData = s.rx.packet.data := by
        simp [startRequest,we]
      refine ⟨okOf ?_ ?_ ?_ free' (by simp [host',state']),?_⟩
      · exact fun _ => host' ▸ placed
      · intro _
        rw [host',info,we]
      · simp [Reading,host',state']
      · intro beats answers
        simp only [silent,empty,beats',List.nil_append,List.singleton_append,todo,host',state',idle,
          info,place,data',plan,we,if_true]
    | false =>
      have state' : (startRequest s.host s.rx.packet).state = .readA := by simp [startRequest,we]
      have first : (startRequest s.host s.rx.packet).readFirstBeat = true := by simp [startRequest,we]
      refine ⟨okOf ?_ ?_ ?_ free' (by simp [host',state']),?_⟩
      · exact fun _ => host' ▸ placed
      · simp [Writing,host',state']
      · intro _
        rw [host',info,we,first,place]
        exact ⟨rfl,rfl⟩
      · intro beats answers
        simp [silent,empty,beats',todo,host',state',idle,info,place,left,plan,we]

theorem noTakes {s : Regs} (idle : s.host.state ≠ .idle) (wait : s.host.state ≠ .writeWait) :
    hostBeats s = [] := by
  simp [hostBeats,acceptHostReqStart,acceptHostWritePayload,idle,wait]

theorem issueAdvances {s : Regs} (ok : Ok s) (i : Inputs)
    (issue : s.host.state = .writeA ∨ s.host.state = .readA) : Advances s i := by
  have idle : s.host.state ≠ .idle := by rcases issue with h | h <;> simp [h]
  obtain ⟨slice,free,quiet⟩ := sliceQuiet ok (i := i) (by rcases issue with h | h <;> simp [h])
    (by rcases issue with h | h <;> simp [h]) (by rcases issue with h | h <;> simp [h])
  have noD : hostDHandshake s i = false := by
    rcases issue with h | h <;> simp [hostDHandshake,memDPhase,h]
  have empty : answered s i = [] := by simp [answered,noD]
  have takes := noTakes idle (by rcases issue with h | h <;> simp [h])
  have placed := ok.placed idle
  have free' : (step s i).sliceValid = false := (congrArg Prod.fst slice).trans free
  cases shake : hostAHandshake s i with
  | false =>
    refine holds ok i ?_ slice (by simp [events,issued,shake,empty,quiet]) takes empty
    rcases issue with h | h <;> simp [hostNext,h,shake]
  | true =>
    have sent : events s i = [.issue s.host.currAddr s.host.info.size
        (if s.host.info.we then some s.host.writeData else none)] := by
      simp [events,issued,shake,empty,quiet]
    rcases issue with write | read
    · have host' : (step s i).host = {s.host with state := .writeD} := by
        simp [step,hostNext,write,shake]
      have we := ok.write (.inl write)
      refine ⟨okOf ?_ ?_ ?_ free' (by simp [host']),?_⟩
      · rw [host']
        exact fun _ => placedFrame placed rfl rfl rfl rfl rfl rfl
      · rw [host']
        exact fun _ => we
      · simp [Reading,host']
      · intro beats answers
        simp [sent,empty,takes,todo,host',write,we,placed.addr,index]
    · have host' : (step s i).host = {s.host with state := .readD} := by
        simp [step,hostNext,read,shake]
      obtain ⟨we,first⟩ := ok.read (.inl read)
      refine ⟨okOf ?_ ?_ ?_ free' (by simp [host']),?_⟩
      · rw [host']
        exact fun _ => placedFrame placed rfl rfl rfl rfl rfl rfl
      · simp [Writing,host']
      · rw [host']
        exact fun _ => ⟨we,first⟩
      · intro beats answers
        obtain ⟨left,count⟩ : ∃ left, s.host.beatsRemaining.toNat = left + 1 :=
          ⟨_,(Nat.sub_add_cancel placed.positive).symm⟩
        have state' : (step s i).host.state = .readD := by rw [host']
        have info' : (step s i).host.info = s.host.info := by rw [host']
        have left' : (step s i).host.beatsRemaining = s.host.beatsRemaining := by rw [host']
        have place' : index (step s i).host = index s.host := by
          rw [host']
          rfl
        simp [sent,empty,takes,todo,state',info',left',place',read,we,placed.addr,count,readEvents]

theorem writeDAdvances {s : Regs} (ok : Ok s) (i : Inputs) (state : s.host.state = .writeD) : Advances s i := by
  have idle : s.host.state ≠ .idle := by simp [state]
  obtain ⟨slice,free,quiet⟩ := sliceQuiet ok (i := i) (by simp [state]) (by simp [state]) (by simp [state])
  have noA : hostAHandshake s i = false := by simp [hostAHandshake,memAPhase,state]
  have takes := noTakes idle (by simp [state])
  have placed := ok.placed idle
  have we := ok.write (.inr (.inl state))
  have free' : (step s i).sliceValid = false := (congrArg Prod.fst slice).trans free
  cases shake : hostDHandshake s i with
  | false =>
    refine holds ok i (by simp [hostNext,state,shake]) slice ?_ takes (by simp [answered,shake])
    simp [events,issued,answered,noA,shake,quiet]
  | true =>
    have got : answered s i = [i.hostMemDRdata] := by simp [answered,shake]
    have sent : events s i = [.answer i.hostMemDRdata] := by simp [events,issued,noA,got,quiet]
    cases last : lastBeat s.host with
    | true =>
      have host' : (step s i).host = {s.host with state := .writeResp} := by
        simp [step,hostNext,state,shake,last]
      refine ⟨okOf ?_ ?_ ?_ free' (by simp [host']),?_⟩
      · rw [host']
        exact fun _ => placedFrame placed rfl rfl rfl rfl rfl rfl
      · rw [host']
        exact fun _ => we
      · simp [Reading,host']
      · intro beats answers
        have ending := (indexLast placed).mpr last
        simp [sent,got,takes,todo,host',state,afterWrite,ending]
    | false =>
      have host' : (step s i).host = {advance s.host with state := .writeWait} := by
        simp [step,hostNext,state,shake,last]
      obtain ⟨placed',info,place,_⟩ := advancePlaced placed last
      refine ⟨okOf ?_ ?_ ?_ free' (by simp [host']),?_⟩
      · rw [host']
        exact fun _ => placedFrame placed' rfl rfl rfl rfl rfl rfl
      · rw [host']
        exact fun _ => info ▸ we
      · simp [Reading,host']
      · intro beats answers
        have more : ¬ index s.host + 1 = length s.host.info := fun ending => by
          simp [(indexLast placed).mp ending] at last
        have state' : (step s i).host.state = .writeWait := by rw [host']
        have info' : (step s i).host.info = s.host.info := by
          rw [host']
          exact info
        have place' : index (step s i).host = index s.host + 1 := by
          rw [host']
          exact place
        simp [sent,got,takes,todo,state',info',place',state,afterWrite,more]

theorem writeWaitAdvances {s : Regs} (ok : Ok s) (i : Inputs) (state : s.host.state = .writeWait) :
    Advances s i := by
  have idle : s.host.state ≠ .idle := by simp [state]
  obtain ⟨slice,free,quiet⟩ := sliceQuiet ok (i := i) (by simp [state]) (by simp [state]) (by simp [state])
  have noA : hostAHandshake s i = false := by simp [hostAHandshake,memAPhase,state]
  have noD : hostDHandshake s i = false := by simp [hostDHandshake,memDPhase,state]
  have empty : answered s i = [] := by simp [answered,noD]
  have silent : events s i = [] := by simp [events,issued,noA,empty,quiet]
  have noStart : acceptHostReqStart s = false := by simp [acceptHostReqStart,state]
  have placed := ok.placed idle
  have we := ok.write (.inr (.inr (.inl state)))
  have free' : (step s i).sliceValid = false := (congrArg Prod.fst slice).trans free
  cases takes : acceptHostWritePayload s with
  | false =>
    exact holds ok i (by simp [hostNext,state,takes]) slice silent (by simp [hostBeats,noStart,takes]) empty
  | true =>
    have host' : (step s i).host = {s.host with writeData := s.rx.packet.data, state := .writeA} := by
      simp [step,hostNext,state,takes]
    have beats' : hostBeats s = [s.rx.packet] := by simp [hostBeats,takes]
    refine ⟨okOf ?_ ?_ ?_ free' (by simp [host']),?_⟩
    · rw [host']
      exact fun _ => placedFrame placed rfl rfl rfl rfl rfl rfl
    · rw [host']
      exact fun _ => we
    · simp [Reading,host']
    · intro beats answers
      simp [silent,empty,beats',todo,host',state,plan,index]

theorem readDAdvances {s : Regs} (ok : Ok s) (i : Inputs) (state : s.host.state = .readD) : Advances s i := by
  have idle : s.host.state ≠ .idle := by simp [state]
  obtain ⟨quiet,free,stages⟩ := txQuiet ok (by simp [state]) (by simp [state])
  have noA : hostAHandshake s i = false := by simp [hostAHandshake,memAPhase,state]
  have takes := noTakes idle (by simp [state])
  have placed := ok.placed idle
  obtain ⟨we,first⟩ := ok.read (.inr (.inl state))
  cases shake : hostDHandshake s i with
  | false =>
    have slice := (sliceQuiet ok (i := i) (by simp [state]) (by simp [state]) (by simp [shake])).1
    refine holds ok i (by simp [hostNext,state,shake]) slice ?_ takes (by simp [answered,shake])
    simp [events,issued,answered,noA,shake,quiet]
  | true =>
    have got : answered s i = [i.hostMemDRdata] := by simp [answered,shake]
    have sent : events s i = [.answer i.hostMemDRdata] := by simp [events,issued,noA,got,quiet]
    have host' : (step s i).host = {s.host with state := .readTx} := by
      simp [step,hostNext,state,shake]
    have slice : sliceNext s i = (true,readBeat s.host i.hostMemDRdata) := by
      simp [sliceNext,state,shake]
    have beat : readBeat s.host i.hostMemDRdata = answerOf s.host.info (index s.host) i.hostMemDRdata := by
      have last : lastBeat s.host = decide (index s.host + 1 = length s.host.info) := by
        rw [Bool.eq_iff_iff,decide_eq_true_iff]
        exact (indexLast placed).symm
      have info : ({s.host.info with we := false} : Meta) = s.host.info := by
        cases h : s.host.info
        simp_all
      simp only [readBeat,answerOf,first,last,info]
    have valid' : (step s i).sliceValid = true := congrArg Prod.fst slice
    have slice' : (step s i).slice = readBeat s.host i.hostMemDRdata := congrArg Prod.snd slice
    refine ⟨⟨?_,?_,?_,?_,?_⟩,?_⟩
    · rw [host']
      exact fun _ => placedFrame placed rfl rfl rfl rfl rfl rfl
    · simp [Writing,host']
    · rw [host']
      exact fun _ => ⟨we,first⟩
    · intro _
      rw [host',slice']
      exact .inr ⟨rfl,_,beat⟩
    · exact fun _ => valid'
    · intro beats answers
      have place : index {s.host with state := .readTx} = index s.host := rfl
      simp [sent,got,takes,todo,host',slice',state,place,beat]

theorem respAdvances {s : Regs} (ok : Ok s) (i : Inputs) (state : s.host.state = .writeResp) : Advances s i := by
  have idle : s.host.state ≠ .idle := by simp [state]
  have pkt := txAck ok state
  have noA : hostAHandshake s i = false := by simp [hostAHandshake,memAPhase,state]
  have noD : hostDHandshake s i = false := by simp [hostDHandshake,memDPhase,state]
  have empty : answered s i = [] := by simp [answered,noD]
  have takes := noTakes idle (by simp [state])
  have placed := ok.placed idle
  have we := ok.write (.inr (.inr (.inr state)))
  cases ready : txPktReady s with
  | false =>
    have issue : txIssue s = some (ackBeat s.host.info) := by simp [txIssue,state]
    have silent : events s i = [] := by simp [events,issued,noA,empty,txBeat,ready]
    have host' : (step s i).host = s.host := by
      simp [step,hostNext,state,txOutputHandshake,ready]
    have slice' : sliceNext s i = (true,ackOf s.host.info) := by
      cases valid : s.sliceValid with
      | false =>
        have ack : txIssue s = some (ackOf s.host.info) := by
          rw [← pkt]
          simp [txPkt,valid]
        simp [sliceNext,state,txStageCapture,valid,ready,ack,ackOf,Option.filter]
      | true =>
        have held : s.slice = ackOf s.host.info := by simpa [txPkt,valid] using pkt
        simp [sliceNext,state,txStageCapture,valid,ready,held]
    refine ⟨⟨?_,?_,?_,?_,?_⟩,?_⟩
    · rw [host']
      exact ok.placed
    · rw [host']
      exact ok.write
    · rw [host']
      exact ok.read
    · intro _
      rw [host']
      exact .inl ⟨state,congrArg Prod.snd slice'⟩
    · simp [host',state]
    · intro beats answers
      simp [silent,empty,takes,todo,host',state]
  | true =>
    have sent : events s i = [.respond (ackOf s.host.info)] := by
      simp [events,issued,noA,empty,txBeat,ready,pkt,ackOf]
    have host' : (step s i).host = {s.host with state := .idle} := by
      simp [step,hostNext,state,txOutputHandshake,ready,pkt]
    have free' : (step s i).sliceValid = false := by
      cases valid : s.sliceValid <;> simp [step,sliceNext,state,txStageCapture,ready,valid]
    refine ⟨okOf (by simp [host']) (by simp [Writing,host']) (by simp [Reading,host']) free'
      (by simp [host']),?_⟩
    intro beats answers
    simp [sent,empty,takes,todo,host',state]

theorem readTxAdvances {s : Regs} (ok : Ok s) (i : Inputs) (state : s.host.state = .readTx) : Advances s i := by
  have idle : s.host.state ≠ .idle := by simp [state]
  obtain ⟨pkt,rdata,slice⟩ := txRead ok state
  have other : s.slice.req = false := by rw [slice]; rfl
  have valid := ok.filled state
  have noA : hostAHandshake s i = false := by simp [hostAHandshake,memAPhase,state]
  have noD : hostDHandshake s i = false := by simp [hostDHandshake,memDPhase,state]
  have empty : answered s i = [] := by simp [answered,noD]
  have takes := noTakes idle (by simp [state])
  have placed := ok.placed idle
  obtain ⟨we,first⟩ := ok.read (.inr (.inr state))
  cases ready : txPktReady s with
  | false =>
    refine holds ok i ?_ ?_ (by simp [events,issued,noA,empty,txBeat,ready]) takes empty
    · simp [hostNext,state,txOutputHandshake,ready]
    · simp [sliceNext,state,txStageCapture,valid,ready]
  | true =>
    have sent : events s i = [.respond s.slice] := by
      simp [events,issued,noA,empty,txBeat,ready,pkt,other]
    have free' : (step s i).sliceValid = false := by
      simp [step,sliceNext,state,txStageCapture,valid,ready]
    cases last : lastBeat s.host with
    | true =>
      have one : s.host.beatsRemaining = 1#17 := by simpa [lastBeat] using last
      have host' : (step s i).host = {s.host with readFirstBeat := false, state := .idle} := by
        simp [step,hostNext,state,txOutputHandshake,ready,pkt,lastBeat,one]
      refine ⟨okOf (by simp [host']) (by simp [Writing,host']) (by simp [Reading,host']) free'
        (by simp [host']),?_⟩
      intro beats answers
      simp [sent,empty,takes,todo,host',state,one,readEvents]
    | false =>
      have more : ¬ s.host.beatsRemaining = 1#17 := by simpa [lastBeat] using last
      have host' : (step s i).host =
          {advance {s.host with readFirstBeat := false} with state := .readA} := by
        simp [step,hostNext,state,txOutputHandshake,ready,pkt,lastBeat,more]
      obtain ⟨placed',info,place,left⟩ := advancePlaced
        (placedFrame (t := {s.host with readFirstBeat := false}) placed rfl rfl rfl rfl rfl rfl) last
      have later : (advance {s.host with readFirstBeat := false}).readFirstBeat = false := by
        simp only [advance]
        split <;> rfl
      refine ⟨okOf ?_ ?_ ?_ free' (by simp [host']),?_⟩
      · rw [host']
        exact fun _ => placedFrame placed' rfl rfl rfl rfl rfl rfl
      · simp [Writing,host']
      · rw [host']
        intro _
        refine ⟨info ▸ we,later.trans ?_⟩
        have moved : index {advance {s.host with readFirstBeat := false} with state := .readA} =
            index s.host + 1 := place
        simp [moved]
      · intro beats answers
        have state' : (step s i).host.state = .readA := by rw [host']
        have info' : (step s i).host.info = s.host.info := by
          rw [host']
          exact info
        have place' : index (step s i).host = index s.host + 1 := by
          rw [host']
          exact place
        have left' : (step s i).host.beatsRemaining.toNat = s.host.beatsRemaining.toNat - 1 := by
          rw [host']
          exact left
        simp [sent,empty,takes,todo,state',info',place',left',state]

theorem advances {s : Regs} (ok : Ok s) (i : Inputs) : Advances s i := by
  cases state : s.host.state with
  | idle => exact idleAdvances ok i state
  | writeA => exact issueAdvances ok i (.inl state)
  | writeD => exact writeDAdvances ok i state
  | writeWait => exact writeWaitAdvances ok i state
  | writeResp => exact respAdvances ok i state
  | readA => exact issueAdvances ok i (.inr state)
  | readD => exact readDAdvances ok i state
  | readTx => exact readTxAdvances ok i state

theorem executes {s : Regs} (ok : Ok s) (inputs : List Inputs) :
    Ok (machine.final s inputs) ∧ ∀ beats answers,
      machine.history events s inputs ++ todo (machine.final s inputs) beats answers =
        todo s (machine.history (fun s _ => hostBeats s) s inputs ++ beats)
          (machine.history answered s inputs ++ answers) := by
  induction inputs generalizing s with
  | nil => exact ⟨ok,fun _ _ => rfl⟩
  | cons i rest ih =>
    obtain ⟨next,now⟩ := advances ok i
    obtain ⟨final,later⟩ := ih next
    refine ⟨final,fun beats answers => ?_⟩
    change (events s i ++ machine.history events (step s i) rest) ++ todo (machine.final (step s i) rest) _ _ =
      todo s ((hostBeats s ++ machine.history (fun s _ => hostBeats s) (step s i) rest) ++ beats)
        ((answered s i ++ machine.history answered (step s i) rest) ++ answers)
    rw [List.append_assoc,List.append_assoc,List.append_assoc,later,now]

theorem rxFollows (s : Regs) (i : Inputs) :
    (machine.next s i).rx = Rx.machine.next s.rx (rxInputs s i) := rfl
theorem txFollows (s : Regs) (i : Inputs) :
    (machine.next s i).tx = Tx.machine.next s.tx (txInputs s i) := rfl

theorem hostBeatsDelivered (s : Regs) (i : Inputs) :
    (Rx.delivered s.rx (rxInputs s i)).filter (·.req) = hostBeats s := by
  rcases Bool.eq_false_or_eq_true s.rx.packet.req with req | req
  · have other : acceptCpuResp s = false := by simp [acceptCpuResp,req]
    rcases Bool.eq_false_or_eq_true s.rx.outValid with valid | valid
    · simp only [Rx.delivered,rxInputs,rxPktReady,hostBeats,other,Bool.false_or,valid,Bool.true_and]
      split <;> simp [req]
    · simp [Rx.delivered,hostBeats,acceptHostReqStart,acceptHostWritePayload,valid]
  · have absent : (acceptHostReqStart s || acceptHostWritePayload s) = false := by
      simp [acceptHostReqStart,acceptHostWritePayload,req]
    simp only [Rx.delivered,hostBeats,absent]
    split <;> simp [req]

theorem txBeatAccepted (s : Regs) (i : Inputs) : Tx.accepted s.tx (txInputs s i) = txBeat s := by
  rcases Option.eq_none_or_eq_some (txPkt s) with pkt | ⟨beat,pkt⟩ <;>
    simp [Tx.accepted,txInputs,txBeat,txPktReady,txPktStart,pkt]

def packetEvents (p : Rx.Packet) (answers : List Word) : List HostEvent :=
  if p.info.we then writeEvents p.info 0 (p.chunks.map (word 32)) answers
  else readEvents p.info 0 (length p.info) answers

def executed : List Rx.Packet → List Word → List HostEvent
  | [], _ => []
  | p :: rest, answers => packetEvents p answers ++ executed rest (answers.drop (length p.info))

def isRequest (p : Rx.Packet) : Bool := p.packetType == 0b0010

theorem planOpen (info i packet rest answers) : plan (some (info,i)) (packet :: rest) answers =
    .issue (addrAt info i) info.size (some packet.data) :: .answer (answers.headD 0) ::
      afterWrite info i answers.tail fun burst answers => plan burst rest answers := rfl

theorem planWrite {info i words} (nonempty : words ≠ []) (total : i + words.length = length info) (rest answers) :
    plan (some (info,i)) (dataBeats true info false words ++ rest) answers =
      writeEvents info i words answers ++ plan none rest (answers.drop words.length) := by
  induction words generalizing i answers with
  | nil => exact absurd rfl nonempty
  | cons data more ih =>
    simp only [List.length_cons] at total
    rw [dataBeats,List.cons_append,planOpen,afterWrite,writeEvents]
    cases more with
    | nil =>
      simp only [List.length_nil] at total
      simp [dataBeats,writeEvents,total]
    | cons next more =>
      simp only [List.length_cons] at total
      rw [if_neg (by omega),ih (by simp) (by simp only [List.length_cons]; omega)]
      simp

theorem planPacket {p : Rx.Packet} (valid : p.Valid) (request : p.packetType = 0b0010) (rest answers) :
    plan none (p.beats ++ rest) answers =
      packetEvents p answers ++ plan none rest (answers.drop (length p.info)) := by
  have payload := valid.payload
  have carries : Rx.carries p.packetType p.info.we = p.info.we := by simp [Rx.carries,request]
  simp only [Rx.Packet.beats,Rx.frameBeats,carries,packetEvents] at payload ⊢
  have req : (p.packetType == 0b0010) = true := by simp [request]
  cases we : p.info.we with
  | false => simp [plan,we]
  | true =>
    rw [we,if_pos rfl] at payload
    have count := payload.count
    rw [if_pos rfl,if_pos rfl,req]
    cases chunks : p.chunks with
    | nil => simp [chunks] at count
    | cons chunk more =>
      simp only [chunks,List.length_cons] at count
      have first : plan none (dataBeats true p.info true ((chunk :: more).map (word 32)) ++ rest) answers =
          .issue (addrAt p.info 0) p.info.size (some (word 32 chunk)) :: .answer (answers.headD 0) ::
            afterWrite p.info 0 answers.tail fun burst answers =>
              plan burst (dataBeats true p.info false (more.map (word 32)) ++ rest) answers := by
        simp [dataBeats,plan,we]
      rw [first,afterWrite,List.map_cons,writeEvents]
      cases more with
      | nil =>
        simp only [List.length_nil] at count
        have one : length p.info = 1 := by simp only [length]; omega
        simp [dataBeats,writeEvents,one]
      | cons next more =>
        simp only [List.length_cons] at count
        have total : length p.info = more.length + 2 := by simp only [length]; omega
        rw [if_neg (by omega),planWrite (by simp) (by simp only [List.length_map,List.length_cons]; omega)]
        simp [total]

theorem planPackets (packets : List Rx.Packet) (valid : ∀ p ∈ packets, p.Valid)
    (requests : ∀ p ∈ packets, p.packetType = 0b0010) (answers) :
    plan none (packets.flatMap Rx.Packet.beats) answers = executed packets answers := by
  induction packets generalizing answers with
  | nil => rfl
  | cons p rest ih =>
    rw [List.flatMap_cons,planPacket (valid p (by simp)) (requests p (by simp)),
      ih (fun q mem => valid q (List.mem_cons_of_mem _ mem)) (fun q mem => requests q (List.mem_cons_of_mem _ mem))]
    rfl

theorem dataBeatsReq (req info start words) : ∀ b ∈ dataBeats req info start words, b.req = req := by
  induction words generalizing start with
  | nil => simp [dataBeats]
  | cons data rest ih =>
    intro b mem
    rcases List.mem_cons.mp mem with rfl | later
    · rfl
    · exact ih _ b later

theorem requestBeats (packets : List Rx.Packet) :
    (packets.flatMap Rx.Packet.beats).filter (·.req) = (packets.filter isRequest).flatMap Rx.Packet.beats := by
  have kind (p : Rx.Packet) : ∀ b ∈ p.beats, b.req = isRequest p := by
    simp only [Rx.Packet.beats,Rx.frameBeats]
    split
    · exact dataBeatsReq _ _ _ _
    · simp [isRequest]
  induction packets with
  | nil => rfl
  | cons p rest ih =>
    rw [List.flatMap_cons,List.filter_append,ih]
    cases request : isRequest p with
    | true =>
      have all : p.beats.filter (·.req) = p.beats :=
        List.filter_eq_self.mpr fun b mem => (kind p b mem).trans request
      simp [all,request]
    | false =>
      have empty : p.beats.filter (·.req) = [] :=
        List.filter_eq_nil_iff.mpr fun b mem => by simp [kind p b mem,request]
      simp [empty,request]

end RiscvSoc.HostBus.Interface
