import RiscvSoc.Link.JoinedClock
import RiscvSoc.Runtime.SimCore

/-! The simulator keeps the RTL and the handler in step: every CPU request reaches the handler as
it was sent, and no `expect` fails, as long as no access has a reserved size and no reset cuts a
packet. -/
namespace RiscvSoc.Sim
open LittleEndian (Byte)
open Mealy Machine
open RiscvSoc.HostBus
open RiscvSoc.HostBus.Interface (Live memAReady)
open RiscvSoc.Host (AccessSize BusRequest BusResponse Handler Word)
open RiscvSoc.Host.Handler (Packet completionFault fillMetadata)
open RiscvSoc.Link

variable {β : Type} {ops : Bus β} {latency resetCycles : Nat}

/- TX is idle, or hands over the last byte of a packet. -/
def Uncut (t : Tx.Regs) : Prop := Tx.beatsLeft t = 0 ∧ (Tx.toSend t).length ≤ 1

/- A cycle of reset cuts no packet, and leaves no request behind for `accept_request`. -/
def Calm (s : State β) : Prop :=
  Uncut s.rtl.tx ∧ s.handler.pendingTx = [] ∧ (s.rtl.rx.outValid = true ∨ s.handler.hasTxData = false) ∧
    (s.handler.acceptedRequest = none ∨ (passTxByte s).handler.incomingRequest.valid = false)

/- The CPU gets no access with a reserved size through to the host interface, and resets find the
link calm. -/
def Tame (s : State β) : Action → Prop
  | .cycle e => if s.reset.rstOut then Calm s
    else (memAReady s.rtl && e.captured.any (·.reserved)) = false
  | _ => True

instance (t : Tx.Regs) : Decidable (Uncut t) := inferInstanceAs (Decidable (_ ∧ _))

instance (s : State β) : Decidable (Calm s) := inferInstanceAs (Decidable (_ ∧ _ ∧ _ ∧ _))

instance (s : State β) (a : Action) : Decidable (Tame s a) := match a with
  | .cycle e => inferInstanceAs (Decidable (if s.reset.rstOut = true then Calm s
    else (memAReady s.rtl && e.captured.any (·.reserved)) = false))
  | .send _ | .receive => inferInstanceAs (Decidable True)

/- A response that waits for its latency is one that `complete_request` will take. -/
def Timely (s : State β) : Prop := ∀ p, s.pendingResponse = some p → ∃ a, s.handler.acceptedRequest = some a ∧
  s.handler.pendingResponse = none ∧ completionFault (fillMetadata p.response a) a = none

/- Between two steps of `handle_host_bus_interface`. -/
structure Within (lost : Prop) (stale : Nat) (s : State β) (down up : List Byte) : Prop where
  alive : s.panicked = none
  joined : Joined lost stale s.rtl s.handler down up
  timely : Timely s

structure Linked (lost : Prop) (stale : Nat) (s : State β) : Prop where
  within : Within lost stale s (Tx.toSend s.rtl.tx) s.handler.pendingTx
  taken : s.handler.incomingRequest.valid = true → s.handler.acceptedRequest.isSome = true

variable {lost : Prop} {stale : Nat} {s : State β} {down up : List Byte}

theorem toSendValid {r : Interface.Regs} (live : Live r) (valid : Tx.txValid r.tx = true) :
    Tx.toSend r.tx = Tx.txByte r.tx :: (Tx.toSend r.tx).tail := by
  rw [(Tx.sentByte live.tx valid).1]
  rfl

theorem toSendQuiet (t : Tx.Regs) (quiet : Tx.txValid t = false) : Tx.toSend t = [] := by
  simp only [Tx.txValid,decide_eq_false_iff_not] at quiet
  cases state : t.state <;> simp_all [Tx.toSend]

theorem timelySame {t : State β} (timely : Timely s) (pending : t.pendingResponse = s.pendingResponse)
    (accepted : t.handler.acceptedRequest = s.handler.acceptedRequest)
    (response : t.handler.pendingResponse = s.handler.pendingResponse) : Timely t := by
  intro p waits
  rw [accepted,response]
  exact timely p (pending.symm.trans waits)

theorem passWithin (w : Within lost stale s (Tx.toSend s.rtl.tx) up) :
    Within lost stale (passTxByte s) (Tx.toSend s.rtl.tx).tail up ∧ (passTxByte s).rtl = s.rtl ∧
    (passTxByte s).reset = s.reset ∧ (passTxByte s).handler.pendingTx = s.handler.pendingTx := by
  rw [passTxByte]
  cases valid : Tx.txValid s.rtl.tx with
  | false =>
    have absent := toSendQuiet s.rtl.tx valid
    simp only [Bool.false_eq_true,if_false]
    refine ⟨?_,trivial,trivial,trivial⟩
    rw [absent] at w ⊢
    exact w
  | true =>
    have joined := w.joined
    rw [toSendValid joined.live valid] at joined
    obtain ⟨t,taken,later,accepted,pending,_⟩ := takeJoined joined
    have frame := (@Host.Handler.applyKeepsPending s.handler (.rx (Tx.txByte s.rtl.tx)) (by simp)).1
    change (s.handler.transferRxByte _).2.pendingTx = _ at frame
    rw [taken] at frame
    simp only [if_true,taken]
    exact ⟨⟨w.alive,later,timelySame w.timely rfl accepted pending⟩,trivial,trivial,frame⟩

theorem passFrame (s : State β) : Host.Handler.SameTransmit s.handler (passTxByte s).handler := by
  have frame := Host.Handler.receiveByteFrame s.handler (Tx.txByte s.rtl.tx)
  rw [passTxByte]
  split
  · generalize s.handler.transferRxByte (Tx.txByte s.rtl.tx) = result at frame
    obtain ⟨answer,h⟩ := result
    cases answer with
    | ok => exact frame
    | error => exact frame
  · exact ⟨rfl,rfl,rfl,rfl,rfl,rfl⟩

def offeredByte (s : State β) : List Byte := if s.hostRxValid then [s.hostRxData] else []

theorem offerWithin (w : Within lost stale s down s.handler.pendingTx) :
    Within lost stale (offerRxByte s) down (offeredByte (offerRxByte s) ++ (offerRxByte s).handler.pendingTx) ∧
    (offerRxByte s).rtl = s.rtl ∧ (offerRxByte s).reset = s.reset ∧
    (offeredByte (offerRxByte s) ≠ [] → s.rtl.rx.outValid = false) ∧
    (offerRxByte s).handler.parser = s.handler.parser := by
  rw [offerRxByte]
  cases busy : s.rtl.rx.outValid with
  | true =>
    simp only [if_true]
    exact ⟨⟨w.alive,w.joined,w.timely⟩,trivial,trivial,by simp [offeredByte],trivial⟩
  | false =>
    have joined := (transmitJoined w.joined).1
    have bytes := (Host.Handler.transmitQueue s.handler).1
    have parser : s.handler.transferTxByte.2.parser = s.handler.parser := @Host.Handler.parserKept s.handler .tx trivial
    rw [← bytes] at joined
    have timely : ∀ p, s.pendingResponse = some p → ∃ a, s.handler.transferTxByte.2.acceptedRequest = some a ∧
        s.handler.transferTxByte.2.pendingResponse = none ∧ completionFault (fillMetadata p.response a) a = none := by
      intro p waits
      obtain ⟨a,accepted,free,checked⟩ := w.timely p waits
      obtain ⟨_,t,same,spec⟩ := Host.Handler.transmitSpec s.handler
      rw [same]
      cases spec with
      | idle | next | request => exact ⟨a,accepted,free,checked⟩
      | response _ _ queued => simp [free] at queued
    simp only [Bool.false_eq_true,if_false]
    generalize result : s.handler.transferTxByte = next at joined parser timely
    obtain ⟨out,t⟩ := next
    cases out with
    | none => exact ⟨⟨w.alive,joined,timely⟩,rfl,rfl,fun _ => trivial,parser⟩
    | some byte => exact ⟨⟨w.alive,joined,timely⟩,rfl,rfl,fun _ => trivial,parser⟩

structure Keeps (s t : State β) : Prop where
  rtl : t.rtl = s.rtl
  reset : t.reset = s.reset
  offered : offeredByte t = offeredByte s
  pendingTx : t.handler.pendingTx = s.handler.pendingTx
  parser : t.handler.parser = s.handler.parser
  outgoing : t.handler.outgoingRequest = s.handler.outgoingRequest
  started : t.handler.outgoingRequestTxStarted = s.handler.outgoingRequestTxStarted
  incoming : s.handler.incomingRequest.valid = false → t.handler.incomingRequest.valid = false

theorem Keeps.trans {s t u : State β} (first : Keeps s t) (second : Keeps t u) : Keeps s u :=
  ⟨second.rtl.trans first.rtl,second.reset.trans first.reset,second.offered.trans first.offered,
    second.pendingTx.trans first.pendingTx,second.parser.trans first.parser,
    second.outgoing.trans first.outgoing,second.started.trans first.started,second.incoming ∘ first.incoming⟩

theorem completeWithin {a : BusRequest} {response : BusResponse} (w : Within lost stale s down up)
    (accepted : s.handler.acceptedRequest = some a) (checked : completionFault (fillMetadata response a) a = none) :
    (complete s response).panicked = none ∧ Joined lost stale s.rtl (complete s response).handler down up ∧
    Keeps s (complete s response) ∧ (complete s response).pendingResponse = s.pendingResponse ∧
    (complete s response).handler.acceptedRequest = some a := by
  have joined := completeJoined w.joined response
  have same : s.handler.completeRequest response =
      (.ok (),{s.handler with pendingResponse := some (fillMetadata response a)}) := by
    simp only [Host.Handler.completeRequest,accepted,checked]
  rw [same] at joined
  simp only [complete,same]
  exact ⟨w.alive,joined,⟨rfl,rfl,rfl,rfl,rfl,rfl,rfl,id⟩,trivial,accepted⟩

theorem pendingWithin (w : Within lost stale s down up) : Within lost stale (completePending latency s) down up ∧
    Keeps s (completePending latency s) := by
  rw [completePending]
  cases waits : s.pendingResponse with
  | none => exact ⟨w,⟨rfl,rfl,rfl,rfl,rfl,rfl,rfl,id⟩⟩
  | some pending =>
    obtain ⟨a,accepted,_,checked⟩ := w.timely pending waits
    obtain ⟨alive,joined,kept,_⟩ := completeWithin w accepted checked
    simp only
    split
    · refine ⟨⟨alive,?_,fun p absent => by simp at absent⟩,⟨kept.rtl,kept.reset,kept.offered,kept.pendingTx,kept.parser,kept.outgoing,
        kept.started,kept.incoming⟩⟩
      change Joined lost stale (complete s pending.response).rtl _ down up
      rw [kept.rtl]
      exact joined
    · exact ⟨w,⟨rfl,rfl,rfl,rfl,rfl,rfl,rfl,id⟩⟩

theorem performFits (b : β) {r : BusRequest} (one : r.burstLen = 1) :
    completionFault (fillMetadata (perform ops b r).1 r) r = none := by
  have length (value : Nat) : (LittleEndian.bytes r.size.byteCount value).length = r.size.byteCount :=
    LittleEndian.bytesLength ..
  cases write : r.we <;>
    simp [perform,write,fillMetadata,writeAck,readData,completionFault,Host.Handler.echoes,one,length]

theorem acceptRefused (sound : Sound s.handler) {e} (refused : s.handler.acceptRequest = (.error e,s.handler))
    (valid : s.handler.incomingRequest.valid = true) : s.handler.acceptedRequest.isSome = true := by
  obtain ⟨r,stored⟩ := Option.isSome_iff_exists.mp (sound.formed.request valid)
  cases accepted : s.handler.acceptedRequest with
  | some a => rfl
  | none => simp [Host.Handler.acceptRequest,valid,accepted,stored] at refused

theorem acceptWithin (w : Within lost stale s down up) : Within lost stale (acceptIncoming ops latency s) down up ∧
    Keeps s (acceptIncoming ops latency s) ∧
    ((acceptIncoming ops latency s).handler.incomingRequest.valid = true →
      (acceptIncoming ops latency s).handler.acceptedRequest.isSome = true) ∧
    (s.handler.acceptedRequest = none → (acceptIncoming ops latency s).handler.incomingRequest.valid = false) := by
  rw [acceptIncoming]
  rcases Option.eq_none_or_eq_some s.pendingResponse with waits | ⟨pending,waits⟩
  · obtain ⟨joined,_,first⟩ := acceptJoined w.joined
    rw [if_neg (by simp [waits])]
    rcases acceptCases s.handler with ⟨e,same⟩ | ⟨r,slot,free,same⟩
    · rw [same]
      refine ⟨w,⟨rfl,rfl,rfl,rfl,rfl,rfl,rfl,id⟩,acceptRefused w.joined.sound same,fun free => ?_⟩
      refine Bool.eq_false_iff.mpr fun valid => ?_
      have accepted := acceptRefused w.joined.sound same valid
      simp [free] at accepted
    · rw [same] at joined first ⊢
      have one : r.burstLen = 1 := w.joined.single.1 r (by
        rw [waitingCpu,first r rfl]
        simp)
      have checked := @performFits β ops s.bus r one
      simp only
      split
      · refine ⟨⟨w.alive,joined,?_⟩,⟨rfl,rfl,rfl,rfl,rfl,rfl,rfl,fun _ => rfl⟩,by simp,fun _ => rfl⟩
        intro p later
        cases Option.some.inj later
        exact ⟨r,rfl,w.joined.sound.queue.answers free,checked⟩
      · let t : State β := {s with
          handler := {s.handler with acceptedRequest := some r, incomingRequest := ⟨false,none⟩}
          bus := (perform ops s.bus r).2}
        have within : Within lost stale t down up := ⟨w.alive,joined,fun p later => by
          simp [t,waits] at later⟩
        obtain ⟨alive,joined',kept,pending,accepted⟩ := completeWithin within rfl checked
        refine ⟨⟨alive,?_,?_⟩,⟨kept.rtl,kept.reset,kept.offered,kept.pendingTx,kept.parser,kept.outgoing,
          kept.started,fun _ => kept.incoming rfl⟩,fun _ => ?_,fun _ => kept.incoming rfl⟩
        · change Joined lost stale (complete t (perform ops s.bus r).1).rtl _ down up
          rw [kept.rtl]
          exact joined'
        · intro p later
          exact absurd (later.symm.trans (pending.trans waits)) (by simp)
        · change (complete t (perform ops s.bus r).1).handler.acceptedRequest.isSome = true
          rw [accepted]
          rfl
  · obtain ⟨a,accepted,_⟩ := w.timely pending waits
    rw [if_pos (by simp [waits])]
    exact ⟨w,⟨rfl,rfl,rfl,rfl,rfl,rfl,rfl,id⟩,fun _ => by simp [accepted],fun free => by simp [accepted] at free⟩

theorem unlessAlive (f : State β → State β) (alive : s.panicked = none) : unlessPanicked f s = f s := by
  simp [unlessPanicked,alive]

structure Handled (lost : Prop) (stale : Nat) (s t : State β) : Prop where
  within : Within lost stale t (Tx.toSend s.rtl.tx).tail (offeredByte t ++ t.handler.pendingTx)
  taken : t.handler.incomingRequest.valid = true → t.handler.acceptedRequest.isSome = true
  rtl : t.rtl = s.rtl
  reset : t.reset = s.reset
  free : offeredByte t ≠ [] → s.rtl.rx.outValid = false
  parser : t.handler.parser = (passTxByte s).handler.parser
  kept : Keeps (offerRxByte (passTxByte s)) t
  accepts : (offerRxByte (passTxByte s)).handler.acceptedRequest = none → t.handler.incomingRequest.valid = false

theorem handled (l : Linked lost stale s) : Handled lost stale s (handleHostBusInterface ops latency s) := by
  obtain ⟨passed,rtl,reset,pendingTx⟩ := passWithin l.within
  have start : Within lost stale (passTxByte s) (Tx.toSend s.rtl.tx).tail (passTxByte s).handler.pendingTx := by
    rw [pendingTx]
    exact passed
  obtain ⟨offered,rtl',reset',free,parser⟩ := offerWithin start
  have waited : Within lost stale (completePending latency (offerRxByte (passTxByte s))) _ _ ∧ _ := pendingWithin offered
  obtain ⟨completed,kept⟩ := waited
  have last : Within lost stale (acceptIncoming ops latency _) _ _ ∧ _ := acceptWithin completed
  obtain ⟨accepted,kept',taken,takes⟩ := last
  have all := kept.trans kept'
  have quiet : (offerRxByte (passTxByte s)).handler.acceptedRequest = none →
      completePending latency (offerRxByte (passTxByte s)) = offerRxByte (passTxByte s) := by
    intro free
    have absent : (offerRxByte (passTxByte s)).pendingResponse = none := by
      rcases Option.eq_none_or_eq_some (offerRxByte (passTxByte s)).pendingResponse with waits | ⟨p,waits⟩
      · exact waits
      · obtain ⟨a,accepted,_⟩ := offered.timely p waits
        simp [free] at accepted
    simp [completePending,absent]
  have same : handleHostBusInterface ops latency s =
      acceptIncoming ops latency (completePending latency (offerRxByte (passTxByte s))) := by
    rw [handleHostBusInterface,unlessAlive passTxByte l.within.alive,unlessAlive _ passed.alive,
      unlessAlive _ offered.alive,unlessAlive _ completed.alive]
  rw [same]
  refine ⟨?_,taken,all.rtl.trans (rtl'.trans rtl),all.reset.trans (reset'.trans reset),?_,all.parser.trans parser,all,
    fun free => takes (by rw [quiet free]; exact free)⟩
  · rw [all.offered,all.pendingTx]
    exact accepted
  · rw [all.offered,← rtl]
    exact free

theorem stepAlive {t : State β} (e : Env) (same : handleHostBusInterface ops latency s = t) (alive : t.panicked = none) :
    stepCycle ops latency resetCycles e s = clockEdge ops resetCycles e t := by
  rw [stepCycle,same,unlessAlive _ alive]

theorem shakeEmpty {r : Interface.Regs} (shake : Interface.txOutputHandshake r = true) : Tx.toSend r.tx = [] := by
  rcases Interface.txBeatCases r with ⟨_,quiet⟩ | ⟨b,pkt,_,_⟩
  · simp [quiet] at shake
  · cases start : b.start with
    | true => simp [Tx.toSend,startIdle pkt shake start]
    | false => simp [Tx.toSend,moreWait pkt shake start]

theorem sentTail {r : Interface.Regs} (live : Live r) (i : Interface.Inputs) (ready : i.txReady = true) :
    (Tx.toSend r.tx).tail ++ added r = Tx.toSend (Interface.step r i).tx := by
  rcases Interface.txBeatCases r with ⟨absent,_⟩ | ⟨b,_,one,shake⟩
  · have bytes := ((Interface.txStep live.tx i).2.1 absent).2
    have nothing : added r = [] := by simp [added,absent]
    rw [nothing,List.append_nil]
    cases valid : Tx.txValid r.tx with
    | true =>
      rw [toSendValid live valid] at bytes
      simp only [Tx.emitted,valid,Interface.txInputs,ready,Bool.and_self,if_true,List.singleton_append,List.cons.injEq,true_and] at bytes
      exact bytes.symm
    | false =>
      rw [toSendQuiet r.tx valid] at bytes ⊢
      exact (List.append_eq_nil_iff.mp bytes).2.symm
  · rw [shakeEmpty shake,txTakes i one]
    simp [added,one]

theorem edgeTakes {t : State β} (e : Env) (w : Handled lost stale s t) :
    Rx.taken t.rtl.rx (Interface.rxInputs t.rtl (inputs t e)) = offeredByte t ∧
    untaken t.rtl.rx (Interface.rxInputs t.rtl (inputs t e)) (offeredByte t ++ t.handler.pendingTx) = t.handler.pendingTx := by
  have taken : Rx.taken t.rtl.rx (Interface.rxInputs t.rtl (inputs t e)) = offeredByte t := by
    simp only [Rx.taken,Interface.rxInputs,inputs,offeredByte]
    rcases Bool.eq_false_or_eq_true t.hostRxValid with valid | valid
    · have free := w.free (by simp [offeredByte,valid])
      simp [w.rtl,free]
    · simp [valid]
  exact ⟨taken,by rw [untaken,taken,List.drop_left]⟩

theorem clockLinked {t : State β} {e : Env} (few : stale ≤ 1) (w : Handled lost stale s t)
    (running : s.reset.rstOut = false) (tame : Tame s (.cycle e)) :
    Linked lost stale (clockEdge ops resetCycles e t) ∧
    offered t.handler (Tx.toSend (Interface.step t.rtl (inputs t e)).tx) =
      offered t.handler (Tx.toSend s.rtl.tx).tail ++ sentRequests s.rtl := by
  have joined := w.within.joined
  obtain ⟨taken,left⟩ := edgeTakes e w
  have sized : captures t.rtl (inputs t e) = true → (inputs t e).memASize ≠ 0b11 := by
    intro capture size
    simp only [captures,Bool.and_eq_true,w.rtl] at capture
    obtain ⟨r,captured⟩ := Option.isSome_iff_exists.mp (show e.captured.isSome = true from capture.1)
    have same : (inputs t e).memASize = r.access.size := by simp [inputs,captured]
    have reserved := (Cpu.reservedSize r).mp (same.symm.trans size)
    simp [Tame,running,capture.2,captured,reserved] at tame
  have free : tookCpu t.rtl = true → offered t.handler (Tx.toSend s.rtl.tx).tail = [] := by
    intro took
    simp only [tookCpu,Bool.and_eq_true] at took
    have empty : Tx.toSend s.rtl.tx = [] := by rw [← w.rtl]; exact shakeEmpty took.1.2
    have idle : t.rtl.cpu.waitResp = false := Bool.eq_false_iff.mpr fun waits => joined.closed ⟨took.1.1,waits⟩
    have count := joined.count
    rw [idle,waitingCpu] at count
    rw [empty] at count ⊢
    have same : offered t.handler [] = held t.handler := List.append_nil _
    rw [List.tail_nil,same] at count ⊢
    cases valid : t.handler.incomingRequest.valid with
    | false => simp [held,valid]
    | true =>
      obtain ⟨r,one⟩ := heldSlot joined.sound valid
      obtain ⟨a,accepted⟩ := Option.isSome_iff_exists.mp (w.taken valid)
      simp only [one,accepted,Option.toList_some,List.singleton_append,List.length_cons,List.length_nil,Bool.toNat_false] at count
      omega
  obtain ⟨later,moved⟩ := clockJoined joined (inputs t e) (by rw [taken]; exact List.prefix_append ..) sized free
  have bytes := sentTail joined.live (inputs t e) rfl
  rw [left,← w.rtl,bytes] at later
  rw [← w.rtl,bytes] at moved
  have edge : (clockEdge ops resetCycles e t).rtl = Interface.step t.rtl (inputs t e) := by
    simp [clockEdge,w.reset,running]
  refine ⟨⟨⟨w.within.alive,?_,timelySame w.within.timely rfl rfl rfl⟩,w.taken⟩,?_⟩
  · rw [edge]
    exact later
  · rw [← w.rtl]
    exact moved

theorem quietTransmit {h : Handler} (quiet : h.hasTxData = false) :
    h.transferTxByte = (none,{h with txBuffer := [], txIndex := 0}) := by
  obtain ⟨_,t,same,spec⟩ := Host.Handler.transmitSpec h
  simp only [Handler.hasTxData,Bool.or_eq_false_iff,decide_eq_false_iff_not] at quiet
  obtain ⟨⟨sent,queued⟩,fresh⟩ := quiet
  cases spec with
  | idle => exact same
  | next current =>
    have length := congrArg List.length current
    simp only [Handler.pendingTx,List.length_drop,List.length_cons] at length
    omega
  | response _ accepted waits => simp [accepted,waits] at queued
  | request _ _ out started => simp [out,started] at fresh

theorem calmOffer (calm : Calm s) : offeredByte (offerRxByte (passTxByte s)) = [] ∧
    (offerRxByte (passTxByte s)).handler.pendingTx = [] ∧ ∃ buffer index, (offerRxByte (passTxByte s)).handler =
      {(passTxByte s).handler with txBuffer := buffer, txIndex := index} := by
  obtain ⟨_,sent,quiet,_⟩ := calm
  have frame := passFrame s
  have rtl : (passTxByte s).rtl = s.rtl := by
    rw [passTxByte]
    split
    · split <;> rfl
    · rfl
  have bytes : (passTxByte s).handler.pendingTx = [] := by rw [Handler.pendingTx,frame.buffer,frame.index]; exact sent
  rw [offerRxByte,rtl]
  rcases Bool.eq_false_or_eq_true s.rtl.rx.outValid with busy | room
  · rw [if_pos busy]
    exact ⟨rfl,bytes,_,_,rfl⟩
  · have silent : (passTxByte s).handler.hasTxData = false := by
      have same : (passTxByte s).handler.hasTxData = s.handler.hasTxData := by
        simp only [Handler.hasTxData,frame.buffer,frame.index,frame.accepted,frame.response,frame.request,frame.started]
      exact same.trans (quiet.resolve_left (by simp [room]))
    rw [if_neg (by simp [room]),quietTransmit silent]
    exact ⟨rfl,rfl,_,_,rfl⟩

theorem calmTail (calm : Calm s) : (Tx.toSend s.rtl.tx).tail = [] :=
  List.eq_nil_of_length_eq_zero (by
    have one := calm.1.2
    rw [List.length_tail]
    omega)

theorem resetLinked {t : State β} {e : Env} {lost' : Prop} (w : Handled lost stale s t) (inReset : s.reset.rstOut = true)
    (calm : Calm s) (begun : t.handler.outgoingRequestTxStarted = true → t.handler.outgoingResponse.valid = true ∨ lost') :
    Linked lost' t.handler.acceptedRequest.toList.length (clockEdge ops resetCycles e t) := by
  obtain ⟨_,empty,buffer,index,frame⟩ := calmOffer calm
  have sent : t.handler.pendingTx = [] := by rw [w.kept.pendingTx,empty]
  have slot : t.handler.incomingRequest.valid = false := by
    rcases calm.2.2.2 with free | quiet
    · exact w.accepts (by rw [frame]; exact (passFrame s).accepted.trans free)
    · exact w.kept.incoming (by rw [frame]; exact quiet)
  have joined := w.within.joined
  rw [calmTail calm] at joined
  have later := resetJoined joined (by rw [w.rtl]; exact calm.1.1) begun
  have waiting : waitingCpu t.handler [] = t.handler.acceptedRequest.toList := by
    simp [waitingCpu,offered,held,slot,arriving,requestsIn,Host.Handler.Parser.run]
  rw [waiting] at later
  have edge : (clockEdge ops resetCycles e t).rtl = Interface.reset t.rtl := by
    simp [clockEdge,w.reset,inReset]
  have quiet : Tx.toSend (Interface.reset t.rtl).tx = [] := rfl
  refine ⟨⟨w.within.alive,?_,timelySame w.within.timely rfl rfl rfl⟩,w.taken⟩
  rw [edge,quiet]
  change Joined _ _ _ t.handler [] t.handler.pendingTx
  rw [sent]
  exact later

end RiscvSoc.Sim
