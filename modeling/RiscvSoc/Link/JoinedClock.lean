import RiscvSoc.Link.Joined

/-! A clock cycle of the RTL between the two ends. -/
namespace RiscvSoc.Link
open LittleEndian (Byte)
open RiscvSoc.HostBus (Beat Meta)
open RiscvSoc.HostBus.Tx (beatsLeft toSend typeOf)
open RiscvSoc.HostBus.Interface
open RiscvSoc.Host (Handler BusRequest BusResponse)
open RiscvSoc.Host.Handler (Packet Parser BurstInRange echoes)

def added (s : Regs) : List Byte := (txBeat s).flatMap fun b => toSend (HostBus.Tx.accept s.tx b)

def cpuRequest (c : Cpu) : BusRequest := requestOf (cpuBeat c).info (payloadOf true (cpuBeat c).info [c.capWdata])

def sentRequests (s : Regs) : List BusRequest := ((txBeat s).filter (·.req)).map fun _ => cpuRequest s.cpu

variable {s : Regs}

theorem sentKeeps (t : HostBus.Tx.Regs) : (HostBus.Tx.sent t).info = t.info ∧ (HostBus.Tx.sent t).beatBytes = t.beatBytes := by
  rw [HostBus.Tx.sent]
  split
  case h_9 | h_10 => split <;> exact ⟨rfl,rfl⟩
  all_goals exact ⟨rfl,rfl⟩

theorem txKeeps (i : Inputs) (empty : txBeat s = []) :
    (step s i).tx.info = s.tx.info ∧ (step s i).tx.beatBytes = s.tx.beatBytes := by
  rw [← txBeatAccepted s i] at empty
  have refused : ¬((txInputs s i).packetValid && HostBus.Tx.packetReady s.tx (txInputs s i).packet.start) = true := by
    intro taken
    simp [HostBus.Tx.accepted,taken] at empty
  change (HostBus.Tx.step s.tx (txInputs s i)).info = _ ∧ (HostBus.Tx.step s.tx (txInputs s i)).beatBytes = _
  rw [HostBus.Tx.step,if_neg refused]
  split
  · exact sentKeeps s.tx
  · exact ⟨rfl,rfl⟩

theorem txTakes (i : Inputs) {b : Beat} (one : txBeat s = [b]) : (step s i).tx = HostBus.Tx.accept s.tx b := by
  rw [← txBeatAccepted s i,HostBus.Tx.accepted] at one
  split at one
  · rename_i taken
    change HostBus.Tx.step s.tx (txInputs s i) = _
    rw [HostBus.Tx.step,if_pos taken,List.singleton_inj.mp one]
  · contradiction

theorem offeredBeat (live : Live s) {b : Beat} (pkt : txPkt s = some b) :
    (s.cpu.reqPending = true ∧ b = cpuBeat s.cpu ∧ s.host.state ≠ .writeResp ∧ s.host.state ≠ .readTx) ∨
    (s.host.state = .writeResp ∧ b = ackOf s.host.info) ∨
    (s.host.state = .readTx ∧ ∃ rdata, b = answerOf s.host.info (index s.host) rdata) := by
  by_cases resp : s.host.state = .writeResp
  · exact .inr (.inl ⟨resp,Option.some.inj (pkt.symm.trans (txAck live.ok resp))⟩)
  · by_cases read : s.host.state = .readTx
    · obtain ⟨slice,rdata,answer⟩ := txRead live.ok read
      exact .inr (.inr ⟨read,rdata,(Option.some.inj (pkt.symm.trans slice)).trans answer⟩)
    · have free := (txQuiet live.ok resp read).2.1
      simp only [txPkt,free,txIssue,resp,Bool.false_eq_true,if_false] at pkt
      split at pkt
      · rename_i pending
        exact .inl ⟨pending,(Option.some.inj pkt).symm,resp,read⟩
      · contradiction

theorem busyKept (i : Inputs) (busy : s.host.state ≠ .idle)
    (other : txOutputHandshake s = false ∨ (s.host.state ≠ .writeResp ∧ s.host.state ≠ .readTx)) :
    (step s i).host.state ≠ .idle := by
  change (hostNext s i).state ≠ .idle
  cases state : s.host.state with
  | idle => exact absurd state busy
  | writeResp | readTx =>
    have quiet : txOutputHandshake s = false := by
      rcases other with quiet | ⟨resp,read⟩
      · exact quiet
      · simp [state] at resp read
    simp [hostNext,state,quiet]
  | writeA | writeWait | readA | readD =>
    simp only [hostNext,state]
    split <;> simp [state]
  | writeD =>
    simp only [hostNext,state]
    split
    · split <;> simp
    · simp [state]

theorem lastLeft (live : Live s) (i : Inputs) (resp : s.host.state = .writeResp ∨ s.host.state = .readTx)
    (shake : txOutputHandshake s = true) : beatsLeft (step s i).tx = 0 ↔ (step s i).host.state = .idle := by
  have left := (liveStep live i).left
  rcases resp with state | state
  · have idle : (step s i).host.state = .idle := by simp [step,hostNext,state,shake]
    simp [left,txOwed,idle]
  · have placed := live.ok.placed (by simp [state])
    cases last : lastBeat s.host with
    | true =>
      have one : s.host.beatsRemaining = 1#17 := by simpa [lastBeat] using last
      have idle : (step s i).host.state = .idle := by simp [step,hostNext,state,shake,lastBeat,one]
      simp [left,txOwed,idle]
    | false =>
      have more : ¬s.host.beatsRemaining = 1#17 := by simpa [lastBeat] using last
      have host' : (step s i).host = {advance {s.host with readFirstBeat := false} with state := .readA} := by
        simp [step,hostNext,state,shake,lastBeat,more]
      obtain ⟨placed',_,place,less⟩ := advancePlaced
        (placedFrame (t := {s.host with readFirstBeat := false}) placed rfl rfl rfl rfl rfl rfl) last
      have positive : 1 ≤ (step s i).host.beatsRemaining.toNat := by
        rw [host']
        exact placed'.positive
      have moved : index (step s i).host = index s.host + 1 := by
        rw [host']
        exact place
      have state' : (step s i).host.state = .readA := by rw [host']
      simp only [left,txOwed,state',moved]
      simp
      omega

/- What a cycle adds to the packets under way: the request of the CPU that TX takes, or the response
that the engine ends with this beat. -/
structure SentDown (s t : Regs) (p : Parser) : Prop where
  awaits : ∃ words, Awaits t.tx words (p.run (added s)).2
  requests : requestsIn (p.run (added s)).1 = sentRequests s
  silent : ¬(s.host.state ≠ .idle ∧ t.host.state = .idle) → responsesIn (p.run (added s)).1 = []
  ended : s.host.state ≠ .idle ∧ t.host.state = .idle →
    ∃ payload, responsesIn (p.run (added s)).1 = [responseOf s.host.info payload]
  solid : ∀ xs last, added s = xs ++ [last] → beatsLeft t.tx ≠ 0 ∨ ((p.run xs).2.feed last).1 ≠ []
  inside : s.host.state ≠ .idle → beatsLeft t.tx ≠ 0 → t.tx.info = s.host.info

theorem lastCompletes {p : Parser} {xs : List Byte} {last : Byte} (before : (p.run xs).1 = [])
    (nonempty : (p.run (xs ++ [last])).1 ≠ []) : ((p.run xs).2.feed last).1 ≠ [] := by
  rw [Host.Handler.Parser.runAppend,before] at nonempty
  simpa [Host.Handler.Parser.run] using nonempty

theorem responseDown {t : Regs} {p : Parser} {words : List (BitVec 32)} (busy : s.host.state ≠ .idle)
    (sent : sentRequests s = []) (last : beatsLeft t.tx = 0 ↔ t.host.state = .idle) (info : t.tx.info = s.host.info)
    (inside : ∀ xs last, added s = xs ++ [last] → (p.run xs).1 = [])
    (outcome : if beatsLeft t.tx = 0 then
        (p.run (added s)).1 = [parsedOf false s.host.info words] ∧ (p.run (added s)).2.idle
      else (p.run (added s)).1 = [] ∧ Inside t.tx words (p.run (added s)).2) : SentDown s t p := by
  by_cases ends : beatsLeft t.tx = 0
  · rw [if_pos ends] at outcome
    obtain ⟨packet,idle⟩ := outcome
    refine ⟨⟨words,?_⟩,?_,?_,?_,fun xs byte split => .inr (lastCompletes (inside xs byte split) ?_),fun _ _ => info⟩
    · rwa [Awaits,if_pos ends]
    · rw [packet,sent]
      rfl
    · exact fun not => absurd ⟨busy,last.mp ends⟩ not
    · rw [packet]
      exact fun _ => ⟨_,rfl⟩
    · rw [← split,packet]
      exact List.cons_ne_nil _ _
  · rw [if_neg ends] at outcome
    obtain ⟨nothing,inside⟩ := outcome
    refine ⟨⟨words,?_⟩,?_,?_,?_,fun _ _ _ => .inl ends,fun _ _ => info⟩
    · rwa [Awaits,if_neg ends]
    · rw [nothing,sent]
      rfl
    · rw [nothing]
      exact fun _ => rfl
    · exact fun done => absurd (last.mpr done.2) ends

theorem startIdle {b : Beat} (pkt : txPkt s = some b) (shake : txOutputHandshake s = true) (start : b.start = true) :
    s.tx.state = .idle := by
  simp only [txOutputHandshake,txPktReady,txPktStart,pkt,Option.any_some,start,HostBus.Tx.packetReady] at shake
  simpa using shake

theorem moreWait {b : Beat} (pkt : txPkt s = some b) (shake : txOutputHandshake s = true) (more : b.start = false) :
    s.tx.state = .waitBeat := by
  simp only [txOutputHandshake,txPktReady,txPktStart,pkt,Option.any_some,more,HostBus.Tx.packetReady] at shake
  simpa using shake

theorem acceptInfo {tx : HostBus.Tx.Regs} (b : Beat) (idle : tx.state = .idle) : (HostBus.Tx.accept tx b).info = b.info := by
  rw [HostBus.Tx.accept,if_pos idle]

theorem sentDown (live : Live s) (sized : s.cpu.reqPending = true → s.cpu.capSize ≠ 0b11)
    (known : s.host.state ≠ .idle → s.host.info.size ≠ 0b11) {words} {p : Parser} (awaits : Awaits s.tx words p)
    (inside : beatsLeft s.tx ≠ 0 → s.tx.info = s.host.info) (i : Inputs) : SentDown s (step s i) p := by
  obtain ⟨_,silent,opens⟩ := txStep live.tx i
  rcases txBeatCases s with ⟨zero,quiet⟩ | ⟨b,pkt,one,shake⟩
  · obtain ⟨left,_⟩ := silent zero
    obtain ⟨info,width⟩ := txKeeps i zero
    have nothing : added s = [] := by simp [added,zero]
    have sent : sentRequests s = [] := by simp [sentRequests,zero]
    refine ⟨⟨words,?_⟩,?_,?_,?_,fun xs last split => ?_,fun _ more => ?_⟩
    · rw [nothing]
      exact awaitsKept awaits left info width
    · rw [nothing,sent]
      rfl
    · rw [nothing]
      exact fun _ => rfl
    · exact fun ⟨busy,idle⟩ => absurd idle (busyKept i busy (.inl quiet))
    · rw [nothing] at split
      simp at split
    · rw [left] at more
      rw [info,inside more]
  · have bytes : added s = toSend (HostBus.Tx.accept s.tx b) := by simp [added,one]
    have takes := txTakes i one
    have rest (idle : s.tx.state = .idle) : p.idle := by
      have zero : beatsLeft s.tx = 0 := by simp [beatsLeft,idle]
      rwa [Awaits,if_pos zero] at awaits
    rcases offeredBeat live pkt with ⟨pending,rfl,resp,read⟩ | ⟨resp,rfl⟩ | ⟨read,rdata,rfl⟩
    · have idle := startIdle pkt shake rfl
      have outcome := startAccepted (b := cpuBeat s.cpu) idle (rest idle) (sized pending) fun _ => rfl
      have ends : beatsLeft (HostBus.Tx.accept s.tx (cpuBeat s.cpu)) = 0 := by
        refine Decidable.byContradiction fun more => ?_
        rw [if_neg more] at outcome
        exact absurd outcome.1 (by simp [cpuBeat])
      rw [if_pos ends,← bytes] at outcome
      obtain ⟨packet,idle'⟩ := outcome
      have request : (p.run (added s)).1 = [.request (cpuRequest s.cpu)] := packet
      have ends' : beatsLeft (step s i).tx = 0 := by rw [takes,ends]
      have before (xs last) (split : added s = xs ++ [last]) : (p.run xs).1 = [] :=
        startInside (b := cpuBeat s.cpu) idle (rest idle) (sized pending) (fun _ => rfl) (bytes ▸ split)
      refine ⟨⟨[],?_⟩,?_,?_,?_,fun xs last split => .inr (lastCompletes (before xs last split) ?_),
        fun _ more => absurd ends' more⟩
      · rwa [Awaits,if_pos ends']
      · rw [request,sentRequests,one]
        rfl
      · rw [request]
        exact fun _ => rfl
      · exact fun ⟨busy,done⟩ => absurd done (busyKept i busy (.inr ⟨resp,read⟩))
      · rw [← split,request]
        exact List.cons_ne_nil _ _
    · have busy : s.host.state ≠ .idle := by simp [resp]
      have idle := startIdle pkt shake rfl
      have outcome := startAccepted (b := ackOf s.host.info) idle (rest idle) (known busy) (by simp [ackOf])
      have last := lastLeft live i (.inl resp) shake
      have ends : beatsLeft (step s i).tx = 0 := last.mpr (by simp [step,hostNext,resp,shake])
      rw [takes] at ends
      rw [if_pos ends,← bytes] at outcome
      refine @responseDown s (step s i) p [0] busy (by simp [sentRequests,one,ackOf]) last ?_ ?_ ?_
      · rw [takes,acceptInfo _ idle]
        rfl
      · intro xs byte split
        exact startInside (b := ackOf s.host.info) idle (rest idle) (known busy) (by simp [ackOf]) (bytes ▸ split)
      · rw [takes,if_pos ends]
        exact outcome
    · have busy : s.host.state ≠ .idle := by simp [read]
      have last := lastLeft live i (.inr read) shake
      have sent : sentRequests s = [] := by simp [sentRequests,one,answerOf]
      cases start : decide (index s.host = 0) with
      | true =>
        have idle := startIdle pkt shake start
        have outcome := startAccepted (b := answerOf s.host.info (index s.host) rdata) idle (rest idle) (known busy)
          (by simp [answerOf])
        rw [← bytes] at outcome
        refine @responseDown s (step s i) p [rdata] busy sent last ?_ ?_ ?_
        · rw [takes,acceptInfo _ idle]
          rfl
        · intro xs byte split
          exact startInside (b := answerOf s.host.info (index s.host) rdata) idle (rest idle) (known busy)
            (by simp [answerOf]) (bytes ▸ split)
        · rw [takes]
          split
          · rename_i ends
            rw [if_pos ends] at outcome
            exact outcome
          · rename_i more
            rw [if_neg more] at outcome
            exact outcome.2
      | false =>
        have wait := moreWait pkt shake start
        have nonzero : beatsLeft s.tx ≠ 0 := by
          intro zero
          have opens' := (opens _ one).1.mpr zero
          simp [answerOf,decide_eq_false_iff_not.mp start] at opens'
        rw [Awaits,if_neg nonzero] at awaits
        have outcome := moreAccepted (b := answerOf s.host.info (index s.host) rdata) wait
          (Nat.pos_of_ne_zero nonzero) awaits
        have same : s.tx.info = s.host.info := inside nonzero
        rw [← bytes,same] at outcome
        refine @responseDown s (step s i) p (words ++ [rdata]) busy sent last ?_ ?_ ?_
        · rw [takes,HostBus.Tx.accept,if_neg (by rw [wait]; decide)]
          exact same
        · intro xs byte split
          exact moreInside (b := answerOf s.host.info (index s.host) rdata) wait (Nat.pos_of_ne_zero nonzero) awaits
            (bytes ▸ split)
        · rw [takes]
          exact outcome

theorem infoKept (i : Inputs) (busy : s.host.state ≠ .idle) : (step s i).host.info = s.host.info := by
  have moved (e : Engine) : (advance e).info = e.info := by
    simp only [advance]
    split <;> rfl
  change (hostNext s i).info = s.host.info
  cases state : s.host.state with
  | idle => exact absurd state busy
  | writeA | writeWait | writeResp | readA | readD =>
    simp only [hostNext,state]
    split <;> rfl
  | writeD =>
    simp only [hostNext,state]
    split
    · split
      · rfl
      · exact moved s.host
    · rfl
  | readTx =>
    simp only [hostNext,state]
    split
    · split
      · rfl
      · exact moved _
    · rfl

theorem readingKept (i : Inputs) (reading : Reading s.host) (busy : (step s i).host.state ≠ .idle) :
    Reading (step s i).host := by
  change (hostNext s i).state ≠ .idle at busy
  change Reading (hostNext s i)
  rcases reading with state | state | state <;> simp only [hostNext,state] at busy ⊢
  · split
    · exact .inr (.inl rfl)
    · exact .inl state
  · split
    · exact .inr (.inr rfl)
    · exact .inr (.inl state)
  · split
    · rename_i shake
      rw [if_pos shake] at busy
      split
      · rename_i last
        rw [if_pos last] at busy
        exact absurd rfl busy
      · exact .inl rfl
    · exact .inr (.inr state)

theorem ownResponse {r : BusRequest} (burst : BurstInRange r.burstLen) (payload : List Byte) :
    echoes (responseOf (info (.request r)) payload) r = true := by
  have len : (((r.burstLen - 1).setWidth 16).setWidth 32 + 1 : BitVec 32) = r.burstLen := by
    have narrow := (lenM1Bytes burst).2
    apply BitVec.eq_of_toNat_eq
    rw [burstLenNat]
    exact narrow
  have size : accessSize (r.size.toSizeCode.setWidth 2) = r.size := by cases r.size <;> rfl
  simp only [echoes,responseOf,info,metaOf]
  rw [len,size]
  simp

theorem firstOrder {r : BusRequest} (fits : (Packet.request r).Fits) {b : Beat} {rest : List Beat}
    (first : beats (.request r) = b :: rest) : b.info = info (.request r) ∧
    rest.length = if r.we then (info (.request r)).burstLenM1.toNat else 0 := by
  have payload := (packetFrame fits).2
  have carries : HostBus.Rx.carries (wireType (.request r)) (info (.request r)).we = r.we := by
    simp [HostBus.Rx.carries,wireType,info,metaOf]
  simp only [beats,HostBus.Rx.Packet.beats,HostBus.Rx.frameBeats] at first
  change (if HostBus.Rx.carries (wireType (.request r)) (info (.request r)).we then _ else _) = _ at first
  rw [carries] at first payload
  cases write : r.we with
  | false =>
    rw [write] at first
    injection first with head tail
    rw [← head,← tail]
    exact ⟨rfl,rfl⟩
  | true =>
    rw [write,if_pos rfl] at first payload
    have count := payload.count
    change HostBus.dataBeats _ (info (.request r)) true ((payloadChunks (.request r)).map (LittleEndian.word 32)) = _ at first
    cases chunks : payloadChunks (.request r) with
    | nil => simp [chunks] at count
    | cons chunk more =>
      rw [chunks,List.map_cons,HostBus.dataBeats] at first
      injection first with head tail
      rw [chunks,List.length_cons] at count
      refine ⟨by rw [← head],?_⟩
      rw [← tail,HostBus.dataBeatsLength,List.length_map]
      simp
      omega

theorem idleTakes (i : Inputs) (idle : s.host.state = .idle) :
    (hostBeats s = [] ∧ (step s i).host = s.host) ∨
    (hostBeats s = [s.rx.packet] ∧ (step s i).host = startRequest s.host s.rx.packet) := by
  have other : acceptHostWritePayload s = false := by simp [acceptHostWritePayload,idle]
  cases takes : acceptHostReqStart s with
  | false => exact .inl ⟨by simp [hostBeats,takes,other],by simp [step,hostNext,idle,takes]⟩
  | true => exact .inr ⟨by simp [hostBeats,takes],by simp [step,hostNext,idle,takes]⟩

theorem writingStep (live : Live s) (i : Inputs)
    (writing : s.host.state = .writeA ∨ s.host.state = .writeD ∨ s.host.state = .writeWait) {rest : List Beat}
    (length : (hostBeats s ++ rest).length = rxOwed s.host) :
    (((step s i).host.state = .writeA ∨ (step s i).host.state = .writeD ∨ (step s i).host.state = .writeWait) ∧
      rest.length = rxOwed (step s i).host) ∨ ((step s i).host.state = .writeResp ∧ rest = []) := by
  change (((hostNext s i).state = .writeA ∨ (hostNext s i).state = .writeD ∨ (hostNext s i).state = .writeWait) ∧
    rest.length = rxOwed (hostNext s i)) ∨ ((hostNext s i).state = .writeResp ∧ rest = [])
  rcases writing with state | state | state
  · rw [noTakes (by simp [state]) (by simp [state]),List.nil_append] at length
    simp only [hostNext,state]
    split
    · exact .inl ⟨.inr (.inl rfl),by rw [length]; simp [rxOwed,state]⟩
    · exact .inl ⟨.inl state,length⟩
  · rw [noTakes (by simp [state]) (by simp [state]),List.nil_append] at length
    simp only [rxOwed,state] at length
    have placed := live.ok.placed (by simp [state])
    simp only [hostNext,state]
    split
    · cases last : lastBeat s.host with
      | true =>
        have one : s.host.beatsRemaining = 1#17 := by simpa [lastBeat] using last
        rw [one] at length
        exact .inr ⟨rfl,List.length_eq_zero_iff.mp length⟩
      | false =>
        have less := (advancePlaced placed last).2.2.2
        refine .inl ⟨.inr (.inr rfl),?_⟩
        rw [length,← less]
        rfl
    · exact .inl ⟨.inr (.inl state),by rw [length]; simp [rxOwed,state]⟩
  · simp only [rxOwed,state] at length
    have other : acceptHostReqStart s = false := by simp [acceptHostReqStart,state]
    simp only [hostNext,state]
    cases takes : acceptHostWritePayload s with
    | true =>
      simp only [hostBeats,takes,other,Bool.false_or,if_true,List.length_append,List.length_singleton] at length
      refine .inl ⟨.inl rfl,?_⟩
      simp only [if_true,rxOwed]
      omega
    | false =>
      simp only [hostBeats,takes,other,Bool.or_self,Bool.false_eq_true,if_false,List.nil_append] at length
      refine .inl ⟨.inr (.inr state),?_⟩
      simp only [Bool.false_eq_true,if_false,rxOwed,state]
      exact length

theorem stageStep (live : Live s) {r : BusRequest} (fits : (Packet.request r).Fits) {rest : List Beat}
    {responses : List BusResponse} (stage : Stage s r (hostBeats s ++ rest) responses) (i : Inputs) {p : Parser}
    (down : SentDown s (step s i) p) : Stage (step s i) r rest (responses ++ responsesIn (p.run (added s)).1) := by
  have left := (liveStep live i).left
  generalize under : hostBeats s ++ rest = beats at stage
  cases stage with
  | queued idle =>
    have absent := down.silent fun ends => ends.1 idle
    rw [absent,List.append_nil]
    rcases idleTakes i idle with ⟨takes,same⟩ | ⟨takes,same⟩
    · rw [takes,List.nil_append] at under
      rw [under]
      exact .queued (by rw [same]; exact idle)
    · rw [takes,List.singleton_append] at under
      obtain ⟨info',length⟩ := firstOrder fits under.symm
      obtain ⟨_,kept,place,count⟩ := startPlaced s.host s.rx.packet
      rw [info'] at kept count
      rw [← same] at kept count place
      have we : s.rx.packet.info.we = r.we := by rw [info']; rfl
      cases write : r.we with
      | true =>
        have state : (step s i).host.state = .writeA := by rw [same]; simp [startRequest,we,write]
        refine .writing (.inl state) kept ?_
        rw [length,if_pos write]
        simp only [rxOwed,state,count]
        rfl
      | false =>
        have state : (step s i).host.state = .readA := by rw [same]; simp [startRequest,we,write]
        rw [if_neg (by simp [write])] at length
        rw [List.length_eq_zero_iff.mp length]
        refine .reading (.inl state) kept fun more => ?_
        rw [left,txOwed,state,place] at more
        simp at more
  | writing state info' length =>
    have busy : s.host.state ≠ .idle := by rcases state with h | h | h <;> simp [h]
    have info'' := (infoKept i busy).trans info'
    rw [← under] at length
    rcases writingStep live i state length with ⟨state',length'⟩ | ⟨state',rfl⟩
    · have absent := down.silent fun ends => by rcases state' with h | h | h <;> simp [h] at ends
      rw [absent]
      exact .writing state' info'' length'
    · have absent := down.silent fun ends => by simp [state'] at ends
      rw [absent]
      exact .acking state' info''
  | acking state info' =>
    obtain ⟨takes,rfl⟩ := List.append_eq_nil_iff.mp under
    have busy : s.host.state ≠ .idle := by simp [state]
    by_cases ends : (step s i).host.state = .idle
    · obtain ⟨payload,response⟩ := down.ended ⟨busy,ends⟩
      rw [response]
      exact .answered ends (by rw [info']; exact ownResponse fits.burst payload)
    · rw [down.silent fun done => ends done.2]
      have stays : (step s i).host.state = .writeResp := by
        have kept : (hostNext s i).state ≠ .idle := ends
        change (hostNext s i).state = .writeResp
        simp only [hostNext,state] at kept ⊢
        split
        · rename_i shake
          exact absurd (by rw [if_pos shake]) kept
        · exact state
      exact .acking stays ((infoKept i busy).trans info')
  | reading state info' inside =>
    obtain ⟨takes,rfl⟩ := List.append_eq_nil_iff.mp under
    have busy : s.host.state ≠ .idle := by rcases state with h | h | h <;> simp [h]
    by_cases ends : (step s i).host.state = .idle
    · obtain ⟨payload,response⟩ := down.ended ⟨busy,ends⟩
      rw [response]
      exact .answered ends (by rw [info']; exact ownResponse fits.burst payload)
    · rw [down.silent fun done => ends done.2]
      refine .reading (readingKept i state ends) ((infoKept i busy).trans info') fun more => ?_
      rw [down.inside busy more,infoKept i busy]
  | answered idle own =>
    obtain ⟨takes,rfl⟩ := List.append_eq_nil_iff.mp under
    rw [down.silent fun ends => ends.1 idle]
    rcases idleTakes i idle with ⟨_,same⟩ | ⟨taken,_⟩
    · exact .answered (by rw [same]; exact idle) own
    · simp [takes] at taken

def tookCpu (s : Regs) : Bool := s.cpu.reqPending && txOutputHandshake s && (txPkt s).any (·.req)
def captures (s : Regs) (i : Inputs) : Bool := i.memAValid && memAReady s

theorem sentLength (live : Live s) : (sentRequests s).length = (tookCpu s).toNat := by
  rcases txBeatCases s with ⟨absent,quiet⟩ | ⟨b,pkt,one,shake⟩
  · simp [sentRequests,absent,tookCpu,quiet]
  · rcases offeredBeat live pkt with ⟨pending,rfl,_,_⟩ | ⟨_,rfl⟩ | ⟨_,_,rfl⟩
    · simp [sentRequests,one,tookCpu,pending,shake,pkt,cpuBeat]
    · simp [sentRequests,one,tookCpu,pkt,ackOf]
    · simp [sentRequests,one,tookCpu,pkt,answerOf]

theorem cpuStep (i : Inputs) (closed : ¬(s.cpu.reqPending = true ∧ s.cpu.waitResp = true)) :
    ¬((step s i).cpu.reqPending = true ∧ (step s i).cpu.waitResp = true) ∧
    (step s i).cpu.waitResp.toNat + (acceptCpuResp s).toNat = s.cpu.waitResp.toNat + (tookCpu s).toNat ∧
    ((step s i).cpu.reqPending = true → captures s i = true ∧ (step s i).cpu.capSize = i.memASize ∨
      s.cpu.reqPending = true ∧ (step s i).cpu.capSize = s.cpu.capSize) := by
  have waits : acceptCpuResp s = true → s.cpu.waitResp = true := fun taken => by
    simp only [acceptCpuResp,Bool.and_eq_true] at taken
    exact taken.1.1
  have room : captures s i = true → s.cpu.reqPending = false ∧ s.cpu.waitResp = false := fun taken => by
    simp only [captures,memAReady,Bool.and_eq_true,Bool.not_eq_true'] at taken
    exact taken.2.1
  have sends : tookCpu s = true → s.cpu.reqPending = true := fun took => by
    simp only [tookCpu,Bool.and_eq_true] at took
    exact took.1.1
  change ¬((cpuNext s i).reqPending = true ∧ (cpuNext s i).waitResp = true) ∧
    (cpuNext s i).waitResp.toNat + _ = _ ∧ ((cpuNext s i).reqPending = true →
      captures s i = true ∧ (cpuNext s i).capSize = i.memASize ∨ s.cpu.reqPending = true ∧ (cpuNext s i).capSize = s.cpu.capSize)
  have fields : (cpuNext s i).reqPending = (if tookCpu s then false else s.cpu.reqPending || captures s i) ∧
      (cpuNext s i).waitResp = (if acceptCpuResp s then false else s.cpu.waitResp || tookCpu s) ∧
      (cpuNext s i).capSize = (if captures s i then i.memASize else s.cpu.capSize) := by
    have capture : (i.memAValid && memAReady s) = captures s i := rfl
    have took' : (s.cpu.reqPending && txOutputHandshake s && (txPkt s).any (·.req)) = tookCpu s := rfl
    simp only [cpuNext,capture,took']
    cases taken : acceptCpuResp s <;> cases took : tookCpu s <;> cases cap : captures s i <;>
      cases ended : s.cpu.respValid && i.memDReady <;> simp_all
  obtain ⟨pending,wait,size⟩ := fields
  rw [pending,wait,size]
  cases taken : acceptCpuResp s <;> cases took : tookCpu s <;> cases cap : captures s i <;>
    simp_all

def takenAnswer (s : Regs) : List Beat := if acceptCpuResp s then [s.rx.packet] else []

theorem answerDelivered (s : Regs) (i : Inputs) :
    (HostBus.Rx.delivered s.rx (rxInputs s i)).filter (!·.req) = takenAnswer s := by
  rcases Bool.eq_false_or_eq_true s.rx.packet.req with req | req
  · have other : acceptCpuResp s = false := by simp [acceptCpuResp,req]
    simp only [HostBus.Rx.delivered,takenAnswer,other]
    split <;> simp [req]
  · have absent : (acceptHostReqStart s || acceptHostWritePayload s) = false := by
      simp [acceptHostReqStart,acceptHostWritePayload,req]
    simp only [Bool.or_eq_false_iff] at absent
    rcases Bool.eq_false_or_eq_true s.rx.outValid with valid | valid
    · simp only [HostBus.Rx.delivered,rxInputs,rxPktReady,absent,Bool.or_false,valid,Bool.true_and,takenAnswer]
      split <;> simp [req]
    · simp [HostBus.Rx.delivered,takenAnswer,acceptCpuResp,valid]

theorem clockUp {up : List Byte} (i : Inputs) (first : HostBus.Rx.taken s.rx (rxInputs s i) <+: up) :
    orders s.rx up = hostBeats s ++ orders (step s i).rx (untaken s.rx (rxInputs s i) up) ∧
    answers s.rx up = takenAnswer s ++ answers (step s i).rx (untaken s.rx (rxInputs s i) up) := by
  have beats := (inboundStep first).1
  refine ⟨?_,?_⟩
  · rw [orders,beats,List.filter_append,hostBeatsDelivered]
    rfl
  · rw [answers,beats,List.filter_append,answerDelivered]
    rfl

variable {lost : Prop} {stale : Nat} {h : Handler} {down up : List Byte}

theorem engineInfo (j : Joined lost stale s h down up) :
    (s.host.state ≠ .idle → s.host.info.size ≠ 0b11) ∧ (beatsLeft s.tx ≠ 0 → s.tx.info = s.host.info) := by
  have left := j.live.left
  have absent (state : ¬Reading s.host) : beatsLeft s.tx = 0 := by
    rw [left,txOwed]
    simp only [Reading,not_or] at state
    split <;> simp_all
  refine hostCases j.host (fun _ _ idle _ _ => ⟨fun busy => absurd idle busy,fun more => absurd (absent ?_) more⟩)
    (fun r out _ _ stage => ?_)
  · simp [Reading,idle]
  · have size := sizeKnown r.size
    generalize orders s.rx up = beats at stage
    generalize responsesIn (arriving h down) = responses at stage
    cases stage with
    | queued idle | answered idle =>
      exact ⟨fun busy => absurd idle busy,fun more => absurd (absent (by simp [Reading,idle])) more⟩
    | writing state info' =>
      exact ⟨fun _ => by rw [info']; exact size,fun more => absurd (absent (by
        rcases state with state | state | state <;> simp [Reading,state])) more⟩
    | acking state info' =>
      exact ⟨fun _ => by rw [info']; exact size,fun more => absurd (absent (by simp [Reading,state])) more⟩
    | reading state info' inside => exact ⟨fun _ => by rw [info']; exact size,inside⟩

theorem addedNothing (live : Live s) (nothing : added s = []) : txBeat s = [] := by
  rcases txBeatCases s with ⟨absent,_⟩ | ⟨b,pkt,one,shake⟩
  · exact absent
  · have bytes : toSend (HostBus.Tx.accept s.tx b) = [] := by simpa [added,one] using nothing
    cases start : b.start with
    | true =>
      rw [(startBytes b (startIdle pkt shake start)).1] at bytes
      simp [HostBus.frame,HostBus.header] at bytes
    | false =>
      have wait := moreWait pkt shake start
      rw [HostBus.Tx.accept,if_neg (by rw [wait]; decide)] at bytes
      have width := live.tx.width
      rcases width with width | width | width <;> simp [toSend,HostBus.Tx.beatWord,width,List.range_succ] at bytes

/- A clock cycle takes bytes from the front of those under way to the RTL and adds those of the
beat that TX takes. -/
theorem clockCarried (c : Carried stale s h down up) (i : Inputs) (first : HostBus.Rx.taken s.rx (rxInputs s i) <+: up)
    (sized : captures s i = true → i.memASize ≠ 0b11) (free : tookCpu s = true → offered h down = [])
    (sent : SentDown s (step s i) (h.parser.run down).2) :
    Carried stale (step s i) h (down ++ added s) (untaken s.rx (rxInputs s i) up) ∧
    offered h (down ++ added s) = offered h down ++ sentRequests s ∧
    arriving h (down ++ added s) = arriving h down ++ ((h.parser.run down).2.run (added s)).1 := by
  obtain ⟨_,answers'⟩ := clockUp i first
  obtain ⟨closed,wait,size⟩ := cpuStep i c.closed
  have length := sentLength c.live
  have arrives : arriving h (down ++ added s) =
      arriving h down ++ ((h.parser.run down).2.run (added s)).1 := by
    rw [arriving,Host.Handler.Parser.runAppend]
    rfl
  have offers : offered h (down ++ added s) = offered h down ++ sentRequests s := by
    rw [offered,offered,arrives,requestsAppend,sent.requests,List.append_assoc]
  have waits : waitingCpu h (down ++ added s) = waitingCpu h down ++ sentRequests s := by
    rw [waitingCpu,waitingCpu,offers,List.append_assoc]
  have taken : (takenAnswer s).length = (acceptCpuResp s).toNat := by
    rw [takenAnswer]
    cases acceptCpuResp s <;> rfl
  refine ⟨{
    live := liveStep c.live i
    sound := c.sound
    sized := ?_
    single := ⟨?_,c.single.2⟩
    awaits := ?_
    whole := wholeStep first c.whole
    closed := closed
    room := ?_
    count := ?_},offers,arrives⟩
  · intro pending
    rcases size pending with ⟨capture,same⟩ | ⟨before,same⟩
    · rw [same]
      exact sized capture
    · rw [same]
      exact c.sized before
  · intro r mem
    rw [waits] at mem
    rcases List.mem_append.mp mem with before | new
    · exact c.single.1 r before
    · obtain ⟨_,_,rfl⟩ := List.mem_map.mp new
      rfl
  · rw [Host.Handler.Parser.runAppend]
    exact sent.awaits
  · rw [offers,List.length_append,length]
    cases took : tookCpu s with
    | true => rw [free took]; decide
    | false => exact c.room
  · have count := c.count
    rw [answers',List.length_append,taken] at count
    rw [waits,List.length_append,length]
    omega

theorem clockJoined (j : Joined lost stale s h down up) (i : Inputs)
    (first : HostBus.Rx.taken s.rx (rxInputs s i) <+: up) (sized : captures s i = true → i.memASize ≠ 0b11)
    (free : tookCpu s = true → offered h down = []) :
    Joined lost stale (step s i) h (down ++ added s) (untaken s.rx (rxInputs s i) up) ∧
    offered h (down ++ added s) = offered h down ++ sentRequests s := by
  obtain ⟨words,awaits⟩ := j.awaits
  obtain ⟨known,inside⟩ := engineInfo j
  have sent := sentDown j.live j.sized known awaits inside i
  obtain ⟨orders',_⟩ := clockUp i first
  obtain ⟨carried,offers,arrives⟩ := clockCarried j.carried i first sized free sent
  refine ⟨carried.joined ?_ ?_,offers⟩
  · intro xs last split
    rcases List.eq_nil_or_concat (added s) with nothing | ⟨ys,ending,present⟩
    · rw [nothing,List.append_nil] at split
      rw [((txStep j.live.tx i).2.1 (addedNothing j.live nothing)).1]
      exact j.solid xs last split
    · rw [List.concat_eq_append] at present
      rw [present,← List.append_assoc] at split
      obtain ⟨same,one⟩ := List.append_inj' split rfl
      rw [← same,← List.singleton_inj.mp one,Host.Handler.Parser.runAppend]
      exact sent.solid ys ending present
  · rw [arrives,responsesAppend]
    refine hostCases j.host (fun absent empty idle stored kept => ?_) (fun r out started room stage => ?_)
    · rw [orders'] at absent
      obtain ⟨takes,later⟩ := List.append_eq_nil_iff.mp absent
      rw [later,empty,sent.silent fun ends => ends.1 idle]
      rcases idleTakes i idle with ⟨_,same⟩ | ⟨taken,_⟩
      · exact .quiet (by rw [same]; exact idle) stored kept
      · simp [takes] at taken
    · rw [orders'] at stage
      exact .busy out started room (stageStep j.live (j.sound.request r out) stage i sent)

/- A reset with nothing under way to the handler. Requests that the handler still has are stale,
and a host request whose packet was begun is lost. -/
theorem resetJoined {lost' : Prop} (j : Joined lost stale s h [] up) (whole : beatsLeft s.tx = 0)
    (begun : h.outgoingRequestTxStarted = true → h.outgoingResponse.valid = true ∨ lost') :
    Joined lost' (waitingCpu h []).length (reset s) h [] [] := by
  obtain ⟨words,awaits⟩ := j.awaits
  have idle : h.parser.idle := by rwa [Awaits,if_pos whole] at awaits
  have stored : h.outgoingResponse.valid = true → Answered h :=
    hostCases j.host (fun _ _ _ stored _ => stored) (fun _ _ _ room _ valid => by simp [room] at valid)
  exact {
    live := resetLive s
    sound := j.sound
    sized := by simp [reset]
    single := j.single
    awaits := ⟨[],idle⟩
    solid := by simp
    whole := ⟨rfl,by simp⟩
    closed := by simp [reset]
    room := j.room
    count := (Nat.zero_add _).symm
    host := .quiet rfl stored begun}

theorem startJoined (s : Regs) : Joined False 0 (reset s) .new [] [] := by
  have sound : Sound .new := ⟨Host.Handler.newWellFormed,Host.Handler.newQueueOk,by simp [Handler.new],by simp [Handler.new]⟩
  exact {
    live := resetLive s
    sound := sound
    sized := by simp [reset]
    single := ⟨by simp [waitingCpu,offered,held,requestsIn,arriving,Host.Handler.Parser.run,Handler.new],by simp [Handler.new]⟩
    awaits := ⟨[],rfl,rfl⟩
    solid := by simp
    whole := ⟨rfl,by simp⟩
    closed := by simp [reset]
    room := Nat.zero_le _
    count := rfl
    host := .quiet rfl (by simp [Handler.new]) (by simp [Handler.new])}

end RiscvSoc.Link
