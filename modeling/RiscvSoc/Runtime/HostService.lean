import RiscvSoc.Runtime.CpuAnswers
import RiscvSoc.Rtl.HostBusBursts

/-! The host's requests: in an orderly run each gets its response, within a number of cycles that its stage gives, besides
those in which the bus makes its engine wait. -/
namespace RiscvSoc.Sim
open LittleEndian (Byte)
open Mealy Machine
open RiscvSoc.HostBus
open RiscvSoc.HostBus.Interface (Live memAReady work served)
open RiscvSoc.Host (AccessSize BusRequest BusResponse Handler Word)
open RiscvSoc.Host.Handler (fillMetadata completionFault echoes Packet)
open RiscvSoc.Link

variable {β : Type} {ops : Bus β} {latency resetCycles : Nat}

/- A cycle in which the system bus does not keep the engine waiting: it takes the request that the engine makes, or it
answers the one that the engine has made. -/
def serves (s : State β) : Action → Bool
  | .cycle e => match s.rtl.host.state with
    | .writeA | .readA => e.hostMemAReady
    | .writeD | .readD => e.hostMemDValid
    | .idle | .writeWait | .writeResp | .readTx => true
  | .send _ | .receive => false

def upLeft (s : State β) : Nat := 2 * s.handler.pendingTx.length + s.rtl.rx.outValid.toNat

def engineTime (r : BusRequest) : Nat := 17 + 64 * (Interface.length (Link.info (.request r)) + 1)

/- A bound on those cycles to the response of the request, by its stage: in the engine, on its way back, on its way to the
engine, behind a response to the CPU. -/
def cyclesLeft (r : BusRequest) (s : State β) : Nat :=
  if s.rtl.host.state ≠ .idle then 16 + work s.rtl
  else if s.handler.outgoingRequestTxStarted then
    if orders s.rtl.rx s.handler.pendingTx = [] then (Tx.toSend s.rtl.tx).length else engineTime r + upLeft s
  else engineTime r + 2 * (Packet.request r).bytes.length + upLeft s +
    if s.handler.acceptedRequest.isSome && s.handler.pendingResponse.isSome then 28 else 1

variable {s t : State β} {r : BusRequest}

structure Open (r : BusRequest) (s : State β) : Prop where
  linked : Linked False 0 s
  outgoing : s.handler.outgoingRequest = some r
  unanswered : s.handler.outgoingResponse.valid = false

theorem Open.stage (o : Open r s) (started : s.handler.outgoingRequestTxStarted = true) :
    Stage s.rtl r (orders s.rtl.rx s.handler.pendingTx) (responsesIn (arriving s.handler (Tx.toSend s.rtl.tx))) := by
  refine hostCases o.linked.within.joined.host (fun _ _ _ _ kept => ?_) (fun r' out _ _ stage => ?_)
  · rcases kept started with valid | lost
    · simp [o.unanswered] at valid
    · exact lost.elim
  · cases Option.some.inj (o.outgoing.symm.trans out)
    exact stage

theorem Open.unsent (o : Open r s) (fresh : s.handler.outgoingRequestTxStarted = false) :
    s.rtl.host.state = .idle ∧ orders s.rtl.rx s.handler.pendingTx = [] := by
  refine hostCases o.linked.within.joined.host (fun absent _ idle _ _ => ⟨idle,absent⟩) (fun _ _ started => ?_)
  simp [fresh] at started

theorem Open.busy (o : Open r s) (busy : s.rtl.host.state ≠ .idle) :
    16 + work s.rtl < engineTime r := by
  have started : s.handler.outgoingRequestTxStarted = true := by
    cases fresh : s.handler.outgoingRequestTxStarted with
    | true => rfl
    | false => exact absurd (o.unsent fresh).1 busy
  have info : s.rtl.host.info = Link.info (.request r) := by
    have stage := o.stage started
    generalize orders s.rtl.rx s.handler.pendingTx = beats at stage
    generalize responsesIn (arriving s.handler (Tx.toSend s.rtl.tx)) = responses at stage
    cases stage with
    | queued idle | answered idle => exact absurd idle busy
    | writing _ same | acking _ same | reading _ same => exact same
  have live := o.linked.within.joined.live
  have bound := Interface.workBound live busy
  have within := (live.ok.placed busy).bound
  rw [info] at within
  simp only [engineTime]
  omega

theorem offerInside (busy : s.rtl.rx.outValid = true ∨ s.handler.pendingTx ≠ []) :
    offeredByte (offerRxByte s) ++ (offerRxByte s).handler.pendingTx = s.handler.pendingTx ∧
    (∃ buffer index, (offerRxByte s).handler = {s.handler with txBuffer := buffer, txIndex := index}) ∧
    (s.rtl.rx.outValid = false → offeredByte (offerRxByte s) ≠ []) := by
  rw [offerRxByte]
  rcases Bool.eq_false_or_eq_true s.rtl.rx.outValid with waits | room
  · rw [if_pos waits]
    exact ⟨rfl,⟨_,_,rfl⟩,by simp [waits]⟩
  · have more := busy.resolve_left (by simp [room])
    obtain ⟨out,t,same,spec⟩ := Host.Handler.transmitSpec s.handler
    rw [if_neg (by simp [room]),same]
    cases spec with
    | @next byte rest buffer index current left =>
      refine ⟨?_,⟨_,_,rfl⟩,fun _ => by simp [offeredByte]⟩
      rw [current]
      exact congrArg (byte :: ·) left
    | idle sent | response sent | request sent => exact absurd sent more

theorem handledInside (w : Handled False 0 s t) (l : Linked False 0 s)
    (busy : s.rtl.rx.outValid = true ∨ s.handler.pendingTx ≠ []) :
    offeredByte t ++ t.handler.pendingTx = s.handler.pendingTx ∧
    (s.rtl.rx.outValid = false → offeredByte t ≠ []) ∧
    t.handler.outgoingRequestTxStarted = s.handler.outgoingRequestTxStarted := by
  obtain ⟨_,rtl,_,pendingTx⟩ := passWithin l.within
  have inside := offerInside (s := passTxByte s) (by rw [rtl,pendingTx]; exact busy)
  obtain ⟨bytes,⟨buffer,index,frame⟩,present⟩ := inside
  rw [rtl] at present
  refine ⟨?_,?_,?_⟩
  · rw [w.kept.offered,w.kept.pendingTx,bytes,pendingTx]
  · rw [w.kept.offered]
    exact present
  · rw [w.kept.started,frame]
    exact (passFrame s).started

/- With a beat or a byte for the RTL and an idle engine, a cycle begins a packet or brings the rest
nearer. -/
theorem upMoves (o : Open r s) (w : Handled False 0 s t) (e : Env) (on : s.reset.rstOut = false)
    (idle : s.rtl.host.state = .idle) (nonempty : inbound s.rtl.rx s.handler.pendingTx ≠ []) :
    (clockEdge ops resetCycles e t).rtl.host.state ≠ .idle ∨
      upLeft (clockEdge ops resetCycles e t) < upLeft s := by
  have live := o.linked.within.joined.live
  have rtl : (clockEdge ops resetCycles e t).rtl = Interface.step s.rtl (inputs t e) := by
    simp [clockEdge,w.reset,on,w.rtl]
  have left : upLeft (clockEdge ops resetCycles e t) =
      2 * t.handler.pendingTx.length + (Interface.step s.rtl (inputs t e)).rx.outValid.toNat := by
    rw [upLeft,rtl]
    rfl
  rw [rtl,left,upLeft]
  rcases Bool.eq_false_or_eq_true s.rtl.rx.outValid with waits | room
  · obtain ⟨bytes,_,_⟩ := handledInside w o.linked (.inl waits)
    rcases Bool.eq_false_or_eq_true s.rtl.rx.packet.req with request | answer
    · exact .inl (Interface.begins live _ idle waits request)
    · have takes : Interface.acceptCpuResp s.rtl = true := by
        simp [Interface.acceptCpuResp,waits,answer,neverBlocked o.linked waits answer]
      have gone : (Interface.step s.rtl (inputs t e)).rx.outValid = false := by
        simp [Interface.step,Rx.step,Interface.rxInputs,waits,Interface.rxPktReady,takes]
      have length := congrArg List.length bytes
      rw [List.length_append] at length
      rw [gone,waits]
      simp only [Bool.toNat_false,Bool.toNat_true]
      exact .inr (by omega)
  · have more : s.handler.pendingTx ≠ [] := by
      intro empty
      rw [empty] at nonempty
      simp [inbound,Rx.Regs.waiting,Rx.parse,room] at nonempty
    obtain ⟨bytes,offers,_⟩ := handledInside w o.linked (.inr more)
    have length := congrArg List.length bytes
    rw [List.length_append] at length
    have one := List.length_pos_iff.mpr (offers room)
    have bit : (Interface.step s.rtl (inputs t e)).rx.outValid.toNat ≤ 1 := Bool.toNat_le _
    rw [room]
    exact .inr (by omega)

theorem passOutgoing (s : State β) : (offerRxByte (passTxByte s)).handler.outgoingRequest = s.handler.outgoingRequest ∧
    (s.handler.outgoingRequestTxStarted = true →
      (offerRxByte (passTxByte s)).handler.outgoingRequestTxStarted = true) := by
  have frame := passFrame s
  generalize passTxByte s = u at frame
  obtain ⟨out,h,same,spec⟩ := Host.Handler.transmitSpec u.handler
  have kept : h.outgoingRequest = s.handler.outgoingRequest ∧
      (s.handler.outgoingRequestTxStarted = true → h.outgoingRequestTxStarted = true) := by
    rw [← frame.request,← frame.started]
    cases spec with
    | idle | next | response => exact ⟨rfl,id⟩
    | request => exact ⟨rfl,fun _ => rfl⟩
  rw [offerRxByte,same]
  split
  · rw [← frame.request,← frame.started]
    exact ⟨rfl,id⟩
  · cases out <;> exact kept

theorem Open.resets (o : Open r s) (e : Env) (orderly : Orderly s (.cycle e)) (again : s.reset.rstOut = true) :
    (stepCycle ops latency resetCycles e s).handler.outgoingRequest = some r ∧
      (stepCycle ops latency resetCycles e s).handler.outgoingResponse.valid = true := by
  have rest : AtRest s := by simpa only [Orderly,again,if_true] using orderly
  have valid : (passTxByte s).handler.outgoingResponse.valid = true :=
    rest.2.2.2.2.resolve_left (by simp [o.outgoing])
  generalize same : handleHostBusInterface ops latency s = t
  have w : Handled False 0 s t := same ▸ handled o.linked
  obtain ⟨_,_,frame,_⟩ := restHandled o.linked rest same
  rw [@stepAlive β ops latency resetCycles s t e same w.within.alive]
  change t.handler.outgoingRequest = some r ∧ t.handler.outgoingResponse.valid = true
  rw [frame]
  exact ⟨(passFrame s).request.trans o.outgoing,valid⟩

theorem Open.kept (o : Open r s) (e : Env) (orderly : Orderly s (.cycle e)) :
    ∃ t, handleHostBusInterface ops latency s = t ∧ stepCycle ops latency resetCycles e s = clockEdge ops resetCycles e t ∧
      Handled False 0 s t ∧ Linked False 0 (clockEdge ops resetCycles e t) ∧
      t.handler.outgoingRequest = some r ∧
      (s.handler.outgoingRequestTxStarted = true → t.handler.outgoingRequestTxStarted = true) := by
  generalize same : handleHostBusInterface ops latency s = t
  have w : Handled False 0 s t := same ▸ handled o.linked
  have edge := @stepAlive β ops latency resetCycles s t e same w.within.alive
  obtain ⟨outgoing,started⟩ := passOutgoing s
  refine ⟨t,rfl,edge,w,?_,?_,fun begun => ?_⟩
  · have later := (@cpuCycle β ops latency resetCycles s e o.linked orderly).1
    rw [edge] at later
    exact later
  · rw [w.kept.outgoing,outgoing]
    exact o.outgoing
  · rw [w.kept.started]
    exact started begun

theorem ordersKept (o : Open r s) (w : Handled False 0 s t) (started : s.handler.outgoingRequestTxStarted = true) :
    orders s.rtl.rx (offeredByte t ++ t.handler.pendingTx) = orders s.rtl.rx s.handler.pendingTx := by
  obtain ⟨passed,rtl,_,pendingTx⟩ := passWithin o.linked.within
  have frame := passFrame s
  rw [w.kept.offered,w.kept.pendingTx]
  generalize passTxByte s = u at passed rtl pendingTx frame
  rw [offerRxByte]
  rcases Bool.eq_false_or_eq_true u.rtl.rx.outValid with waits | room
  · rw [if_pos waits,← pendingTx]
    rfl
  · have kept := (transmitOrders passed.joined.carried).resolve_right fun sent => by
      obtain ⟨_,_,fresh,_⟩ := sent
      simp [frame.started,started] at fresh
    have bytes := (Host.Handler.transmitQueue u.handler).1
    rw [← pendingTx,← bytes,rtl] at kept
    rw [if_neg (by simp [room]),← pendingTx,← kept]
    generalize u.handler.transferTxByte = result
    obtain ⟨out,h⟩ := result
    cases out <;> rfl

theorem sentShorter {r : Interface.Regs} (live : Live r) (i : Interface.Inputs) (ready : i.txReady = true)
    (busy : Tx.toSend r.tx ≠ []) : (Tx.toSend (Interface.step r i).tx).length < (Tx.toSend r.tx).length := by
  rcases Interface.txBeatCases r with ⟨absent,_⟩ | ⟨b,_,_,shake⟩
  · have bytes := sentTail live i ready
    have nothing : added r = [] := by simp [added,absent]
    rw [nothing,List.append_nil] at bytes
    rw [← bytes,List.length_tail]
    have present := List.length_pos_iff.mpr busy
    omega
  · exact absurd (shakeEmpty shake) busy

theorem cyclesStarted (o : Open r s) (started : s.handler.outgoingRequestTxStarted = true) :
    cyclesLeft r s ≤ engineTime r + upLeft s := by
  rw [cyclesLeft]
  by_cases idle : s.rtl.host.state = .idle
  · rw [if_neg (by simp [idle]),if_pos started]
    split
    · have short := Interface.toSendShort o.linked.within.joined.live.tx
      simp only [engineTime]
      omega
    · omega
  · rw [if_pos idle]
    have busy := o.busy idle
    omega

theorem cyclesUnsent (o : Open r s) (fresh : s.handler.outgoingRequestTxStarted = false)
    (accepted : s.handler.acceptedRequest = none) :
    cyclesLeft r s = engineTime r + 2 * (Packet.request r).bytes.length + upLeft s + 1 := by
  rw [cyclesLeft,if_neg (by simp [(o.unsent fresh).1]),if_neg (by simp [fresh]),accepted]
  rfl

structure Passed (ops : Bus β) (resetCycles : Nat) (r : BusRequest) (e : Env) (s t : State β) : Prop where
  before : Open r s
  handled : Handled False 0 s t
  on : s.reset.rstOut = false
  started : s.handler.outgoingRequestTxStarted = true → t.handler.outgoingRequestTxStarted = true
  after : Open r (clockEdge ops resetCycles e t)

theorem Passed.rtl {e : Env} (p : Passed ops resetCycles r e s t) :
    (clockEdge ops resetCycles e t).rtl = Interface.step s.rtl (inputs t e) := by
  simp [clockEdge,p.handled.reset,p.on,p.handled.rtl]

theorem Passed.ordersLeft {e : Env} (p : Passed ops resetCycles r e s t)
    (started : s.handler.outgoingRequestTxStarted = true) :
    orders s.rtl.rx s.handler.pendingTx = Interface.hostBeats s.rtl ++
      orders (clockEdge ops resetCycles e t).rtl.rx (clockEdge ops resetCycles e t).handler.pendingTx := by
  obtain ⟨taken,left⟩ := edgeTakes e p.handled
  have beats := (@clockUp t.rtl (offeredByte t ++ t.handler.pendingTx) (inputs t e)
    (by rw [taken]; exact List.prefix_append ..)).1
  rw [left,p.handled.rtl,ordersKept p.before p.handled started] at beats
  rw [p.rtl]
  exact beats

theorem Passed.engine {e : Env} (p : Passed ops resetCycles r e s t) (busy : s.rtl.host.state ≠ .idle) :
    cyclesLeft r (clockEdge ops resetCycles e t) ≤ cyclesLeft r s ∧
    (serves s (.cycle e) = true → cyclesLeft r (clockEdge ops resetCycles e t) < cyclesLeft r s) := by
  have live := p.before.linked.within.joined.live
  have started : s.handler.outgoingRequestTxStarted = true := by
    cases fresh : s.handler.outgoingRequestTxStarted with
    | true => rfl
    | false => exact absurd (p.before.unsent fresh).1 busy
  have stage := p.before.stage started
  have before : cyclesLeft r s = 16 + work s.rtl := if_pos busy
  -- A write waits for a beat only while its bytes are on the way.
  have drives : serves s (.cycle e) = true → served s.rtl (inputs t e) = true := by
    intro now
    cases state : s.rtl.host.state with
    | idle => exact absurd state busy
    | writeA | readA | writeD | readD => simpa [serves,served,state,inputs] using now
    | writeResp | readTx => simp [served,state,inputs]
    | writeWait =>
      rcases Bool.eq_false_or_eq_true s.rtl.rx.outValid with waits | room
      · simp [served,state,waits]
      · have more : s.handler.pendingTx ≠ [] := by
          intro empty
          have nothing : orders s.rtl.rx s.handler.pendingTx = [] := by
            rw [empty]
            simp [orders,inbound,Rx.Regs.waiting,Rx.parse,room]
          generalize responsesIn (arriving s.handler (Tx.toSend s.rtl.tx)) = responses at stage
          generalize orders s.rtl.rx s.handler.pendingTx = beats at stage nothing
          cases stage with
          | queued idle | answered idle => exact busy idle
          | acking other => simp [state] at other
          | reading other => simp [Interface.Reading,state] at other
          | writing _ _ owed =>
            have positive := (live.ok.placed busy).positive
            simp only [nothing,List.length_nil,Interface.rxOwed,state] at owed
            omega
        have offers := (handledInside p.handled p.before.linked (.inr more)).2.1 room
        have valid : t.hostRxValid = true := by
          cases valid : t.hostRxValid with
          | true => rfl
          | false => simp [offeredByte,valid] at offers
        simp [served,state,inputs,valid]
  have rtl := p.rtl
  by_cases idle : (clockEdge ops resetCycles e t).rtl.host.state = .idle
  · have done : (Interface.step s.rtl (inputs t e)).host.state = .idle := by rw [← rtl]; exact idle
    have nothing : orders s.rtl.rx s.handler.pendingTx = [] := by
      generalize responsesIn (arriving s.handler (Tx.toSend s.rtl.tx)) = responses at stage
      generalize orders s.rtl.rx s.handler.pendingTx = beats at stage
      cases stage with
      | queued idle | answered idle => exact absurd idle busy
      | acking | reading => rfl
      | writing state =>
        refine absurd done (busyKept (inputs t e) busy (.inr ?_))
        rcases state with state | state | state <;> simp [state]
    have later := p.ordersLeft started
    rw [nothing] at later
    have begun : (clockEdge ops resetCycles e t).handler.outgoingRequestTxStarted = true := p.started started
    have short := Interface.toSendShort p.after.linked.within.joined.live.tx
    have after : cyclesLeft r (clockEdge ops resetCycles e t) = (Tx.toSend (clockEdge ops resetCycles e t).rtl.tx).length := by
      rw [cyclesLeft,if_neg (by simp [idle]),if_pos begun,if_pos (List.append_eq_nil_iff.mp later.symm).2]
    rw [after,before]
    exact ⟨by omega,fun _ => by omega⟩
  · have after : cyclesLeft r (clockEdge ops resetCycles e t) = 16 + work (Interface.step s.rtl (inputs t e)) := by
      rw [cyclesLeft,if_pos idle,rtl]
    rcases Interface.workServed live (inputs t e) busy with done | ⟨atMost,fewer⟩
    · exact absurd (rtl ▸ done) idle
    · rw [after,before]
      exact ⟨by omega,fun now => by have := fewer (drives now); omega⟩

theorem Passed.returns {e : Env} (p : Passed ops resetCycles r e s t) (idle : s.rtl.host.state = .idle)
    (started : s.handler.outgoingRequestTxStarted = true) (nothing : orders s.rtl.rx s.handler.pendingTx = []) :
    cyclesLeft r (clockEdge ops resetCycles e t) < cyclesLeft r s := by
  have stage := p.before.stage started
  have busy : Tx.toSend s.rtl.tx ≠ [] := by
    intro empty
    rw [nothing,empty] at stage
    have quiet : responsesIn (arriving s.handler []) = [] := rfl
    rw [quiet] at stage
    generalize under : ([] : List Beat) = beats at stage
    generalize silent : ([] : List BusResponse) = responses at stage
    cases stage with
    | queued => exact absurd under.symm (beatsSome (p.before.linked.within.joined.sound.request r p.before.outgoing))
    | answered => simp at silent
    | writing state => rcases state with state | state | state <;> simp [idle] at state
    | acking state => simp [idle] at state
    | reading state => simp [idle,Interface.Reading] at state
  have later := p.ordersLeft started
  rw [nothing] at later
  obtain ⟨takes,left⟩ := List.append_eq_nil_iff.mp later.symm
  have stays : (clockEdge ops resetCycles e t).rtl.host.state = .idle := by
    rw [p.rtl]
    rcases idleTakes (s := s.rtl) (inputs t e) idle with ⟨_,same⟩ | ⟨taken,_⟩
    · rw [same]
      exact idle
    · simp [takes] at taken
  have begun : (clockEdge ops resetCycles e t).handler.outgoingRequestTxStarted = true := p.started started
  have shorter := sentShorter p.before.linked.within.joined.live (inputs t e) rfl busy
  rw [cyclesLeft,cyclesLeft,if_neg (by simp [stays]),if_pos begun,if_pos left,if_neg (by simp [idle]),if_pos started,
    if_pos nothing,p.rtl]
  exact shorter

theorem Passed.goes {e : Env} (p : Passed ops resetCycles r e s t) (idle : s.rtl.host.state = .idle)
    (started : s.handler.outgoingRequestTxStarted = true) (nonempty : orders s.rtl.rx s.handler.pendingTx ≠ []) :
    cyclesLeft r (clockEdge ops resetCycles e t) < cyclesLeft r s := by
  have inside : inbound s.rtl.rx s.handler.pendingTx ≠ [] := fun empty => nonempty (by simp [orders,empty])
  have before : cyclesLeft r s = engineTime r + upLeft s := by
    rw [cyclesLeft,if_neg (by simp [idle]),if_pos started,if_neg nonempty]
  rw [before]
  rcases upMoves p.before p.handled e p.on idle inside with busy | fewer
  · have short := p.after.busy busy
    rw [cyclesLeft,if_pos busy]
    omega
  · have bound := cyclesStarted p.after (p.started started)
    omega

theorem Passed.unqueued {e : Env} (p : Passed ops resetCycles r e s t) (fresh : t.handler.outgoingRequestTxStarted = false)
    (nonempty : inbound s.rtl.rx (offeredByte t ++ t.handler.pendingTx) ≠ []) : t.handler.acceptedRequest = none := by
  have joined := p.handled.within.joined
  rw [p.handled.rtl] at joined
  have empty : orders s.rtl.rx (offeredByte t ++ t.handler.pendingTx) = [] := by
    refine hostCases joined.host (fun empty _ _ _ _ => empty) (fun _ _ started => ?_)
    simp [fresh] at started
  have first : 1 ≤ (answers s.rtl.rx (offeredByte t ++ t.handler.pendingTx)).length := by
    obtain ⟨b,mem⟩ := List.exists_mem_of_ne_nil _ nonempty
    have kind : b.req = false := by
      cases req : b.req with
      | false => rfl
      | true => exact absurd (List.mem_filter.mpr ⟨mem,req⟩) (by rw [← orders,empty]; simp)
    exact List.length_pos_iff.mpr (List.ne_nil_of_mem (List.mem_filter.mpr ⟨mem,by simp [kind]⟩))
  have count := joined.count
  rw [waitingCpu,List.length_append] at count
  have bit := Bool.toNat_le s.rtl.cpu.waitResp
  exact Option.toList_eq_nil_iff.mp (List.length_eq_zero_iff.mp (by omega))

theorem answerShort {response : BusResponse} (fits : (Packet.response response).Fits) (one : response.burstLen = 1) :
    (Host.Handler.responsePacket response).length ≤ 12 := by
  have length : response.data.length ≤ 4 := by
    rw [fits.length,one]
    cases response.we <;> cases response.size <;> decide
  simp only [Host.Handler.responsePacket,Host.Handler.encodePacket,List.length_cons,List.length_append,
    LittleEndian.bytesLength]
  omega

theorem Passed.begins {e : Env} (p : Passed ops resetCycles r e s t) (fresh : s.handler.outgoingRequestTxStarted = false)
    (room : s.rtl.rx.outValid = false) (empty : s.handler.pendingTx = []) :
    (t.handler.outgoingRequestTxStarted = true ∧ t.handler.pendingTx.length < (Packet.request r).bytes.length) ∨
    (t.handler.outgoingRequestTxStarted = false ∧ t.handler.pendingTx.length ≤ 11 ∧ offeredByte t ≠ [] ∧
      s.handler.acceptedRequest.isSome = true ∧ s.handler.pendingResponse.isSome = true) := by
  have w := p.handled
  obtain ⟨passed,rtl,_,pendingTx⟩ := passWithin p.before.linked.within
  have frame := passFrame s
  have kept := w.kept
  generalize passTxByte s = u at passed rtl pendingTx frame kept
  have out : u.handler.outgoingRequest = some r := frame.request.trans p.before.outgoing
  have unsent : u.handler.outgoingRequestTxStarted = false := frame.started.trans fresh
  have nothing : u.handler.pendingTx = [] := pendingTx.trans empty
  have queue := (Host.Handler.transmitQueue u.handler).2.2
  obtain ⟨_,h,same,spec⟩ := Host.Handler.transmitSpec u.handler
  have offers {byte : Byte} {h : Handler} (same : u.handler.transferTxByte = (some byte,h)) :
      offerRxByte u = {u with handler := h, hostRxData := byte, hostRxValid := true} := by
    rw [offerRxByte,if_neg (by simp [rtl,room]),same]
  rw [same] at queue
  cases spec with
  | idle =>
    have waits := (queue rfl).2
    simp only [Handler.queued,List.append_eq_nil_iff,Handler.queuedRequest,out,unsent] at waits
    simp at waits
  | next current => simp [nothing] at current
  | @response a response byte rest buffer index _ taken queued packet left =>
    have joined := passed.joined
    have short := answerShort (joined.sound.response response queued) (joined.single.2 response queued)
    rw [packet,List.length_cons] at short
    rw [offers same] at kept
    have bytes : t.handler.pendingTx = rest := kept.pendingTx.trans left
    refine .inr ⟨kept.started.trans unsent,by rw [bytes]; omega,?_,?_,?_⟩
    · rw [kept.offered]
      simp [offeredByte]
    · rw [← frame.accepted,taken]
      rfl
    · rw [← frame.response,queued]
      rfl
  | @request request byte rest buffer index _ _ out' _ packet left =>
    cases Option.some.inj (out.symm.trans out')
    rw [offers same] at kept
    have bytes : t.handler.pendingTx = rest := kept.pendingTx.trans left
    have whole : (Packet.request r).bytes = byte :: rest := packet
    refine .inl ⟨kept.started,?_⟩
    rw [bytes,whole,List.length_cons]
    omega

theorem Passed.unsent {e : Env} (p : Passed ops resetCycles r e s t) (fresh : s.handler.outgoingRequestTxStarted = false) :
    cyclesLeft r (clockEdge ops resetCycles e t) < cyclesLeft r s := by
  obtain ⟨idle,absent⟩ := p.before.unsent fresh
  have atLeast : engineTime r + 2 * (Packet.request r).bytes.length + upLeft s + 1 ≤ cyclesLeft r s := by
    rw [cyclesLeft,if_neg (by simp [idle]),if_neg (by simp [fresh])]
    split <;> omega
  by_cases inside : inbound s.rtl.rx s.handler.pendingTx = []
  · obtain ⟨room,empty⟩ := wholeEmpty p.before.linked.within.joined.whole inside
    have bit := Bool.toNat_le (clockEdge ops resetCycles e t).rtl.rx.outValid
    have after : upLeft (clockEdge ops resetCycles e t) =
        2 * t.handler.pendingTx.length + (clockEdge ops resetCycles e t).rtl.rx.outValid.toNat := rfl
    rcases p.begins fresh room empty with ⟨started,fewer⟩ | ⟨later,short,offers,accepted,queued⟩
    · have bound := cyclesStarted p.after started
      omega
    · have bytes : inbound s.rtl.rx (offeredByte t ++ t.handler.pendingTx) ≠ [] := by
        intro silent
        have whole := p.handled.within.joined.whole
        rw [p.handled.rtl] at whole
        exact offers (List.append_eq_nil_iff.mp (wholeEmpty whole silent).2).1
      have before : cyclesLeft r s = engineTime r + 2 * (Packet.request r).bytes.length + upLeft s + 28 := by
        rw [cyclesLeft,if_neg (by simp [idle]),if_neg (by simp [fresh]),if_pos (by simp [accepted,queued])]
      rw [cyclesUnsent p.after later (p.unqueued later bytes)]
      omega
  · have busy : s.rtl.rx.outValid = true ∨ s.handler.pendingTx ≠ [] := by
      rcases Bool.eq_false_or_eq_true s.rtl.rx.outValid with waits | room
      · exact .inl waits
      · refine .inr fun empty => inside ?_
        rw [empty]
        simp [inbound,Rx.Regs.waiting,Rx.parse,room]
    obtain ⟨bytes,_,started⟩ := handledInside p.handled p.before.linked busy
    have later : t.handler.outgoingRequestTxStarted = false := started.trans fresh
    have accepted := p.unqueued later (by rw [bytes]; exact inside)
    rcases upMoves p.before p.handled e p.on idle inside with engine | fewer
    · have short := p.after.busy engine
      rw [cyclesLeft,if_pos engine]
      omega
    · rw [cyclesUnsent p.after later accepted]
      omega

theorem Open.nearer (o : Open r s) (a : Action) (orderly : Orderly s a) :
    ((next ops latency resetCycles s a).handler.outgoingRequest = some r ∧
      (next ops latency resetCycles s a).handler.outgoingResponse.valid = true) ∨
    Open r (next ops latency resetCycles s a) ∧ cyclesLeft r (next ops latency resetCycles s a) ≤ cyclesLeft r s ∧
      (serves s a = true → cyclesLeft r (next ops latency resetCycles s a) < cyclesLeft r s) := by
  cases a with
  | cycle e =>
    rcases Bool.eq_false_or_eq_true s.reset.rstOut with again | on
    · exact .inl (@Open.resets β ops latency resetCycles s r o e orderly again)
    obtain ⟨t,_,edge,w,later,outgoing,started⟩ := @Open.kept β ops latency resetCycles s r o e orderly
    change ((stepCycle ops latency resetCycles e s).handler.outgoingRequest = some r ∧
        (stepCycle ops latency resetCycles e s).handler.outgoingResponse.valid = true) ∨
      Open r (stepCycle ops latency resetCycles e s) ∧ cyclesLeft r (stepCycle ops latency resetCycles e s) ≤ cyclesLeft r s ∧
        (serves s (.cycle e) = true → cyclesLeft r (stepCycle ops latency resetCycles e s) < cyclesLeft r s)
    rw [edge]
    rcases Bool.eq_false_or_eq_true t.handler.outgoingResponse.valid with valid | waits
    · exact .inl ⟨outgoing,valid⟩
    · have p : Passed ops resetCycles r e s t := ⟨o,w,on,started,later,outgoing,waits⟩
      refine .inr ⟨p.after,?_⟩
      by_cases busy : s.rtl.host.state = .idle
      · have less : cyclesLeft r (clockEdge ops resetCycles e t) < cyclesLeft r s := by
          rcases Bool.eq_false_or_eq_true s.handler.outgoingRequestTxStarted with begun | fresh
          · by_cases empty : orders s.rtl.rx s.handler.pendingTx = []
            · exact p.returns busy begun empty
            · exact p.goes busy begun empty
          · exact p.unsent fresh
        exact ⟨Nat.le_of_lt less,fun _ => less⟩
      · exact p.engine busy
  | send request =>
    have same : (sendBusRequest ops s request).2 = s := by
      simp only [sendBusRequest,Handler.hasPendingOutgoingRequest,o.outgoing]
      split <;> rfl
    refine .inr ?_
    change Open r (sendBusRequest ops s request).2 ∧ cyclesLeft r (sendBusRequest ops s request).2 ≤ _ ∧ _
    rw [same]
    exact ⟨o,Nat.le_refl _,by simp [serves]⟩
  | receive =>
    have same : (receiveBusResponse s).2.rtl = s.rtl ∧ (receiveBusResponse s).2.handler = s.handler := by
      simp only [receiveBusResponse,Handler.receiveResponse,o.unanswered]
      split <;> exact ⟨rfl,rfl⟩
    refine .inr ⟨⟨receiveAside.linked o.linked,?_,?_⟩,?_⟩
    · exact (congrArg (·.outgoingRequest) same.2).trans o.outgoing
    · exact (congrArg (·.outgoingResponse.valid) same.2).trans o.unanswered
    · change cyclesLeft r (receiveBusResponse s).2 ≤ _ ∧ _
      rw [cyclesLeft,same.1,same.2,upLeft,same.1,same.2]
      exact ⟨Nat.le_refl _,by simp [serves]⟩

end RiscvSoc.Sim
