import RiscvSoc.Rtl.HostBusProgress

/-! Every packet of the host is executed as its burst and answered by one packet, which stays
whole on TX between the CPU's requests. -/
namespace RiscvSoc.HostBus.Interface
open LittleEndian (Byte)
open Mealy Machine

def rxTaken (s : Regs) (i : Inputs) : List Byte := Rx.taken s.rx (rxInputs s i)

/- What has been done is the beginning of what the packets call for, and all of it once the
packets are taken and the engine is idle. -/
theorem transactions (s : Regs) (inputs : List Inputs) (packets : List Rx.Packet)
    (valid : ∀ p ∈ packets, p.Valid) (rest : List Byte)
    (bytes : machine.history rxTaken (reset s) inputs ++ rest = packets.flatMap Rx.Packet.bytes) :
    ∃ later, machine.history events (reset s) inputs ++ later =
        executed (packets.filter isRequest) (machine.history answered (reset s) inputs) ∧
      (rest = [] → (machine.final (reset s) inputs).host.state = .idle →
        (machine.final (reset s) inputs).rx.outValid = false → later = []) := by
  obtain ⟨final,parts⟩ := component machine Rx.machine (fun s => s.rx) rxInputs rxFollows (reset s) inputs
  have taken : Rx.machine.history Rx.taken (Rx.reset s.rx) (machine.history (fun s i => [rxInputs s i]) _ _) ++
      rest = _ := (congrArg (· ++ rest) (parts Rx.taken)).trans bytes
  obtain ⟨beats,all,done⟩ := Rx.packetsDelivered packets valid s.rx _ rest taken
  have filtered := congrArg (List.filter (·.req)) all
  have delivered : Rx.machine.history Rx.delivered (Rx.reset s.rx) _ = _ := parts Rx.delivered
  rw [delivered,requestBeats,List.filter_append,List.filter_append,historyFilter] at filtered
  simp only [hostBeatsDelivered] at filtered
  have final' : Rx.machine.final (Rx.reset s.rx) _ = (machine.final (reset s) inputs).rx := final
  rw [final'] at filtered
  have plan' := (executes (resetOk s) inputs).2
    ((machine.final (reset s) inputs).rx.waiting.filter (·.req) ++ beats.filter (·.req)) []
  rw [← List.append_assoc,filtered,List.append_nil] at plan'
  refine ⟨_,plan'.trans ?_,?_⟩
  · refine planPackets _ (fun p mem => valid p (List.mem_filter.mp mem).1) (fun p mem => ?_) _
    simpa [isRequest] using (List.mem_filter.mp mem).2
  · intro empty idle free
    have waiting : (machine.final (reset s) inputs).rx.waiting = [] := by simp [Rx.Regs.waiting,free]
    rw [waiting,(done empty).1]
    simp [todo,idle,plan]

def respondOf : HostEvent → Option Beat
  | .respond beat => some beat
  | _ => none

@[simp] theorem respondIssue (addr size wdata) (later : List HostEvent) :
    (.issue addr size wdata :: later).filterMap respondOf = later.filterMap respondOf := rfl
@[simp] theorem respondAnswer (rdata) (later : List HostEvent) :
    (.answer rdata :: later).filterMap respondOf = later.filterMap respondOf := rfl
@[simp] theorem respondRespond (beat) (later : List HostEvent) :
    (.respond beat :: later).filterMap respondOf = beat :: later.filterMap respondOf := rfl

def responses : List Rx.Packet → List Word → List (List Beat)
  | [], _ => []
  | p :: rest, answers =>
    (packetEvents p answers).filterMap respondOf :: responses rest (answers.drop (length p.info))

theorem executedResponses (packets : List Rx.Packet) (answers : List Word) :
    (executed packets answers).filterMap respondOf = (responses packets answers).flatten := by
  induction packets generalizing answers with
  | nil => rfl
  | cons p rest ih => rw [executed,List.filterMap_append,ih,responses,List.flatten_cons]

theorem eventsResponses (s : Regs) (i : Inputs) :
    (events s i).filterMap respondOf = (txBeat s).filter (!·.req) := by
  have issues : (issued s i).filterMap respondOf = [] := by
    simp only [issued]
    split <;> simp
  have answers : ((answered s i).map HostEvent.answer).filterMap respondOf = [] := by
    simp [List.filterMap_map,respondOf,Function.comp_def]
  have beats (xs : List Beat) : (xs.map HostEvent.respond).filterMap respondOf = xs := by
    simp [List.filterMap_map,respondOf,Function.comp_def]
  rw [events,List.filterMap_append,List.filterMap_append,issues,answers,beats]
  rfl

/- A packet that TX takes without a break: it is over after its last beat and not before. -/
def Whole (beats : List Beat) : Prop :=
  beats ≠ [] ∧ beats.foldl Tx.owed 0 = 0 ∧
    ∀ n, 0 < n → n < beats.length → (beats.take n).foldl Tx.owed 0 ≠ 0

theorem writeResponse (info : Meta) (i : Nat) (words answers : List Word) :
    (writeEvents info i words answers).filterMap respondOf = [ackOf info] := by
  induction words generalizing i answers with
  | nil => rfl
  | cons data rest ih => simp [writeEvents,ih]

theorem readResponse (info : Meta) (count : Nat) (answers : List Word) (left : Nat) :
    ∀ i, 0 < i →
      ((readEvents info i count answers).filterMap respondOf).length = count ∧
      ∀ n, n ≤ count → (((readEvents info i count answers).filterMap respondOf).take n).foldl Tx.owed left =
        left - n := by
  induction count generalizing answers left with
  | zero =>
    intro i _
    refine ⟨rfl,fun n le => ?_⟩
    have zero : n = 0 := by omega
    simp [zero,readEvents]
  | succ count ih =>
    intro i positive
    obtain ⟨len,_⟩ := ih answers.tail left (i+1) (by omega)
    refine ⟨by simp [readEvents,len],fun n le => ?_⟩
    cases n with
    | zero => simp
    | succ n =>
      have later := (ih answers.tail (left-1) (i+1) (by omega)).2 n (by omega)
      have notFirst : ¬ i = 0 := by omega
      simp only [readEvents,respondIssue,respondAnswer,respondRespond,List.take_succ_cons,List.foldl_cons]
      have one : Tx.owed left (answerOf info i (answers.headD 0)) = left - 1 := by
        simp [Tx.owed,answerOf,notFirst]
      rw [one,later]
      omega

theorem packetWhole (p : Rx.Packet) (answers : List Word) :
    Whole ((packetEvents p answers).filterMap respondOf) := by
  cases we : p.info.we with
  | true =>
    have ack : (packetEvents p answers).filterMap respondOf = [ackOf p.info] := by
      simp [packetEvents,we,writeResponse]
    rw [ack]
    refine ⟨by simp,by simp [Tx.owed,ackOf,Tx.payloadOf,we],fun n positive less => ?_⟩
    simp only [List.length_singleton] at less
    omega
  | false =>
    have first : (packetEvents p answers).filterMap respondOf =
        answerOf p.info 0 (answers.headD 0) ::
          (readEvents p.info 1 p.info.burstLenM1.toNat answers.tail).filterMap respondOf := by
      simp [packetEvents,we,length,readEvents]
    obtain ⟨len,left⟩ := readResponse p.info p.info.burstLenM1.toNat answers.tail p.info.burstLenM1.toNat 1 (by omega)
    have opened : Tx.owed 0 (answerOf p.info 0 (answers.headD 0)) = p.info.burstLenM1.toNat := by
      simp [Tx.owed,answerOf,Tx.payloadOf,we]
    rw [first]
    refine ⟨by simp,?_,fun n positive less => ?_⟩
    · have all := left p.info.burstLenM1.toNat (Nat.le_refl _)
      rw [List.take_of_length_le (by omega)] at all
      rw [List.foldl_cons,opened,all]
      omega
    · rw [List.length_cons,len] at less
      obtain ⟨m,rfl⟩ : ∃ m, n = m + 1 := ⟨n-1,by omega⟩
      rw [List.take_succ_cons,List.foldl_cons,opened,left m (by omega)]
      omega

theorem responsesWhole (packets : List Rx.Packet) (answers : List Word) :
    ∀ r ∈ responses packets answers, Whole r := by
  induction packets generalizing answers with
  | nil => simp [responses]
  | cons p rest ih =>
    intro r mem
    rcases List.mem_cons.mp mem with rfl | later
    · exact packetWhole p answers
    · exact ih _ r later

theorem wholePrefix {rs : List (List Beat)} (whole : ∀ r ∈ rs, Whole r) {xs ys : List Beat}
    (all : xs ++ ys = rs.flatten) (boundary : xs.foldl Tx.owed 0 = 0) :
    ∃ n, xs = (rs.take n).flatten := by
  induction rs generalizing xs with
  | nil =>
    simp only [List.flatten_nil,List.append_eq_nil_iff] at all
    exact ⟨0,by simpa using all.1⟩
  | cons r rest ih =>
    obtain ⟨present,whole',opened⟩ := whole r (by simp)
    rw [List.flatten_cons] at all
    by_cases inside : xs.length < r.length
    · have start : xs = r.take xs.length := by
        have taken := congrArg (List.take xs.length) all
        rw [List.take_left,List.take_append_of_le_length (by omega)] at taken
        exact taken
      by_cases empty : xs = []
      · exact ⟨0,by simpa using empty⟩
      · have positive : 0 < xs.length := List.length_pos_iff.mpr empty
        rw [start] at boundary
        exact absurd boundary (opened xs.length positive inside)
    · obtain ⟨zs,rfl⟩ : ∃ zs, xs = r ++ zs := by
        refine ⟨xs.drop r.length,?_⟩
        have taken := congrArg (List.take r.length) all
        rw [List.take_left,List.take_append_of_le_length (by omega)] at taken
        conv => lhs; rw [← List.take_append_drop r.length xs,taken]
      rw [List.append_assoc,List.append_cancel_left_eq] at all
      rw [List.foldl_append,whole'] at boundary
      obtain ⟨n,same⟩ := ih (fun q mem => whole q (List.mem_cons_of_mem _ mem)) all boundary
      exact ⟨n+1,by simp [same]⟩

theorem framedOwed {left xs final} (framed : Tx.Framed left xs final) : xs.foldl Tx.owed left = final := by
  induction xs generalizing left with
  | nil => exact framed
  | cons packet rest ih => exact ih framed.2

theorem framedSplit {left xs ys final} (framed : Tx.Framed left (xs ++ ys) final) :
    ∃ mid, Tx.Framed left xs mid ∧ Tx.Framed mid ys final := by
  induction xs generalizing left with
  | nil => exact ⟨left,rfl,framed⟩
  | cons packet rest ih =>
    obtain ⟨mid,before,after⟩ := ih framed.2
    exact ⟨mid,⟨framed.1,before⟩,after⟩

def Single (packet : Beat) : Prop := packet.req = true → packet.start = true ∧ packet.info.burstLenM1 = 0

theorem framedResponses {left xs final} (single : ∀ b ∈ xs, Single b) (framed : Tx.Framed left xs final) :
    Tx.Framed left (xs.filter (!·.req)) final := by
  induction xs generalizing left with
  | nil => exact framed
  | cons packet rest ih =>
    have later := ih (fun b mem => single b (List.mem_cons_of_mem _ mem)) framed.2
    rcases Bool.eq_false_or_eq_true packet.req with cpu | host
    · obtain ⟨start,one⟩ := single packet (by simp) cpu
      have zero : left = 0 := framed.1.mp start
      have owed : Tx.owed left packet = 0 := by simp [Tx.owed,start,one]
      rw [owed] at later
      simpa [cpu,zero] using later
    · simp only [host,Bool.not_false,List.filter_cons_of_pos]
      exact ⟨framed.1,later⟩

theorem txSingle {s : Regs} (ok : Ok s) : ∀ b ∈ txBeat s, Single b := by
  intro packet mem cpu
  have sent : txPkt s = some packet := by
    simp only [txBeat] at mem
    split at mem
    · simpa using mem
    · simp at mem
  by_cases resp : s.host.state = .writeResp
  · have ack := Option.some.inj (sent.symm.trans (txAck ok resp))
    simp [ack,ackOf] at cpu
  · by_cases read : s.host.state = .readTx
    · obtain ⟨slice,rdata,answer⟩ := txRead ok read
      have same := Option.some.inj (sent.symm.trans slice)
      simp [same,answer,answerOf] at cpu
    · have free := (txQuiet ok resp read).2.1
      simp only [txPkt,free,txIssue,resp,Bool.false_eq_true,if_false] at sent
      split at sent
      · cases Option.some.inj sent
        exact ⟨rfl,rfl⟩
      · contradiction

def sentBeats (s : Regs) (_ : Inputs) : List Beat := txBeat s

theorem sentFramed {s : Regs} (ok : Ok s) (tx : Tx.Consistent s.tx) (inputs : List Inputs) :
    Tx.Framed (Tx.beatsLeft s.tx) (machine.history sentBeats s inputs)
      (Tx.beatsLeft (machine.final s inputs).tx) ∧
    ∀ b ∈ machine.history sentBeats s inputs, Single b := by
  obtain ⟨final,parts⟩ := component machine Tx.machine (fun s => s.tx) txInputs txFollows s inputs
  have framed := (Tx.stream tx (machine.history (fun s i => [txInputs s i]) s inputs)).2.1
  rw [final,parts Tx.accepted] at framed
  simp only [txBeatAccepted] at framed
  refine ⟨framed,?_⟩
  exact @historyAll _ _ _ machine _ Ok sentBeats Single (fun s i ok => (advances ok i).1)
    (fun s _ ok => txSingle ok) _ ok inputs

theorem cpuBetween (s : Regs) (inputs : List Inputs) (packets : List Rx.Packet)
    (valid : ∀ p ∈ packets, p.Valid) (rest : List Byte)
    (bytes : machine.history rxTaken (reset s) inputs ++ rest = packets.flatMap Rx.Packet.bytes)
    {before packet after} (sent : machine.history sentBeats (reset s) inputs = before ++ packet :: after)
    (cpu : packet.req = true) : ∃ n, before.filter (!·.req) =
      ((responses (packets.filter isRequest) (machine.history answered (reset s) inputs)).take n).flatten := by
  obtain ⟨later,all,_⟩ := transactions s inputs packets valid rest bytes
  have beats := congrArg (List.filterMap respondOf) all
  rw [List.filterMap_append,executedResponses,historyFilterMap] at beats
  simp only [eventsResponses] at beats
  have filtered := historyFilter (m := machine) sentBeats (!·.req) (reset s) inputs
  simp only [sentBeats] at filtered
  rw [← filtered] at beats
  rw [sent,List.filter_append,List.append_assoc] at beats
  obtain ⟨framed,single⟩ := sentFramed (resetOk s) (Tx.resetConsistent s.tx) inputs
  rw [sent] at framed single
  obtain ⟨mid,first,second⟩ := framedSplit framed
  have start := (single packet (by simp) cpu).1
  have boundary : mid = 0 := second.1.mp start
  subst boundary
  have first' := framedOwed (framedResponses (fun b mem => single b (List.mem_append_left _ mem)) first)
  have idle : Tx.beatsLeft (reset s).tx = 0 := rfl
  rw [idle] at first'
  exact wholePrefix (responsesWhole _ _) beats first'

theorem reachableLive (s : Regs) (inputs : List Inputs) : Live (machine.final (reset s) inputs) :=
  @invariant _ _ _ machine Live (fun _ i live => liveStep live i) _ (resetLive s) inputs

theorem begins {s : Regs} (live : Live s) (i : Inputs) (idle : s.host.state = .idle)
    (waiting : s.rx.outValid = true) (request : s.rx.packet.req = true) :
    (step s i).host.state ≠ .idle := by
  have type : s.rx.packetType = 0b0010 := by simpa [Rx.Regs.packet] using request
  have owes := live.owes
  simp only [rxOwed,idle] at owes
  have start : s.rx.packet.start = true := owes.1 waiting type
  have takes : acceptHostReqStart s = true := by simp [acceptHostReqStart,idle,waiting,request,start]
  simp only [step,hostNext,idle,takes,if_true,startRequest]
  split <;> simp

/- Bursts of the host, under any stalls and any requests of the CPU: the transactions and
responses that the packets call for and no others, whole responses between the CPU's requests,
and an end for every packet. -/
theorem burstsExecuted (s : Regs) (inputs : List Inputs) (packets : List Rx.Packet)
    (valid : ∀ p ∈ packets, p.Valid) (rest : List Byte)
    (bytes : machine.history rxTaken (reset s) inputs ++ rest = packets.flatMap Rx.Packet.bytes) :
    let requests := packets.filter isRequest
    let answers := machine.history answered (reset s) inputs
    let t := machine.final (reset s) inputs
    (∃ later, machine.history events (reset s) inputs ++ later = executed requests answers ∧
      (rest = [] → t.host.state = .idle → t.rx.outValid = false → later = [])) ∧
    (∀ before packet after, machine.history sentBeats (reset s) inputs = before ++ packet :: after →
      packet.req = true → ∃ n, before.filter (!·.req) = ((responses requests answers).take n).flatten) ∧
    (∀ i, t.host.state = .idle → t.rx.outValid = true → t.rx.packet.req = true →
      (step t i).host.state ≠ .idle) ∧
    (t.host.state ≠ .idle → ∀ more : List Inputs,
      64 * (t.host.beatsRemaining.toNat + 1) < ((machine.trace t more).countP fun c => served c.1 c.2) →
      ∃ n, (machine.final t (more.take n)).host.state = .idle) := by
  have live := reachableLive s inputs
  refine ⟨transactions s inputs packets valid rest bytes,?_,?_,?_⟩
  · intro before packet after sent cpu
    exact cpuBetween s inputs packets valid rest bytes sent cpu
  · exact fun i => begins live i
  · intro busy more enough
    have bound := workBound live busy
    exact finishes live more (by omega)

/- A write burst over the end of the address space beside a CPU read, on a bus that takes a request in one cycle and answers
in the next. -/
def wrapped : Rx.Packet := ⟨0b0010,⟨true,1,false,false,1,0xFFFFFFFE⟩,[[0x34,0x12],[0x78,0x56]]⟩

def wrappedInputs : List Inputs :=
  (wrapped.bytes.flatMap fun byte =>
    [⟨0x40000000,0,false,2,true,true,true,0,false,true,byte,true⟩,
      ⟨0x40000000,0,false,2,true,true,false,0,true,true,byte,false⟩]) ++
  (List.replicate 8 [⟨0,0,false,0,false,true,true,0,false,true,0,false⟩,
    ⟨0,0,false,0,false,true,false,0,true,true,0,false⟩]).flatten

theorem wrappedExecuted : machine.history events (reset .powerOn) wrappedInputs =
    [.issue 0xFFFFFFFE 1 (some 0x1234),.answer 0,.issue 0 1 (some 0x5678),.answer 0,
      .respond ⟨true,true,false,⟨true,1,false,false,1,0xFFFFFFFE⟩,0⟩] := by
  have valid : ∀ p ∈ [wrapped], p.Valid := by
    intro p mem
    cases List.mem_singleton.mp mem
    exact ⟨.inr rfl,by decide,rfl,by decide⟩
  obtain ⟨⟨later,all,done⟩,_⟩ :=
    burstsExecuted .powerOn wrappedInputs [wrapped] valid [] (by decide +kernel)
  rw [done rfl (by decide +kernel) (by decide +kernel),List.append_nil] at all
  exact all.trans (by decide +kernel)

end RiscvSoc.HostBus.Interface
