import RiscvSoc.Runtime.GuestRequests

/-! The requests of the CPU and their answers since the last reset, when every reset finds the link at
rest. -/
namespace RiscvSoc.Sim
open LittleEndian (Byte)
open Mealy Machine
open RiscvSoc.HostBus
open RiscvSoc.HostBus.Interface (Live memAReady)
open RiscvSoc.Host (AccessSize BusRequest BusResponse Handler Word)
open RiscvSoc.Host.Handler (fillMetadata completionFault)
open RiscvSoc.Link

variable {β : Type} {ops : Bus β} {latency resetCycles : Nat}

def AtRest (s : State β) : Prop :=
  Uncut s.rtl.tx ∧ s.handler.pendingTx = [] ∧ s.handler.acceptedRequest = none ∧
    (passTxByte s).handler.incomingRequest.valid = false ∧
    (s.handler.outgoingRequest = none ∨ (passTxByte s).handler.outgoingResponse.valid = true)

/- As `Tame`, with resets that find the link at rest. -/
def Orderly (s : State β) : Action → Prop
  | .cycle e => if s.reset.rstOut then AtRest s else (memAReady s.rtl && e.captured.any (·.reserved)) = false
  | _ => True

instance (s : State β) : Decidable (AtRest s) := inferInstanceAs (Decidable (_ ∧ _ ∧ _ ∧ _ ∧ _))

instance (s : State β) (a : Action) : Decidable (Orderly s a) := match a with
  | .cycle e => inferInstanceAs (Decidable (if s.reset.rstOut = true then AtRest s
    else (memAReady s.rtl && e.captured.any (·.reserved)) = false))
  | .send _ | .receive => inferInstanceAs (Decidable True)

def inReset (s : State β) : Action → Bool
  | .cycle _ => s.reset.rstOut
  | _ => false

def beforeAccept (latency : Nat) (s : State β) : State β :=
  unlessPanicked (completePending latency) (unlessPanicked offerRxByte (unlessPanicked passTxByte s))

def performed (ops : Bus β) (s : State β) : List (BusRequest × BusResponse) :=
  if s.panicked.isSome || s.pendingResponse.isSome then []
  else s.handler.acceptRequest.1.toOption.toList.map fun r => (r,fillMetadata (perform ops s.bus r).1 r)

def performedNow (ops : Bus β) (latency : Nat) (s : State β) : Action → List (BusRequest × BusResponse)
  | .cycle _ => performed ops (beforeAccept latency s)
  | _ => []

/- The answer that the CPU takes, with the request that it takes it for. -/
def takenNow (s : State β) : Action → List (BusRequest × Beat)
  | .cycle _ => if s.reset.rstOut then [] else (takenAnswer s.rtl).map fun b => (cpuRequest s.rtl.cpu,b)
  | _ => []

def waitsFor (s : State β) : List BusRequest := if s.rtl.cpu.waitResp then [cpuRequest s.rtl.cpu] else []

def toPerform (s : State β) : List BusRequest := offered s.handler (Tx.toSend s.rtl.tx)

def responsesHeld (s : State β) : List BusResponse := s.handler.pendingResponse.toList ++
  (s.pendingResponse.bind fun p => s.handler.acceptedRequest.map (fillMetadata p.response)).toList

def toTake (s : State β) : List Beat := answers s.rtl.rx s.handler.pendingTx ++ answerBeats (responsesHeld s)

variable {s : State β} {lost : Prop} {stale : Nat} {down up : List Byte}

theorem restCalm (l : Linked False 0 s) (rest : AtRest s) : Calm s ∧
    (s.handler.outgoingRequestTxStarted = true → (passTxByte s).handler.outgoingResponse.valid = true) := by
  obtain ⟨uncut,sent,accepted,free,out⟩ := rest
  have length : ¬s.handler.txIndex < s.handler.txBuffer.length := by
    have bytes := congrArg List.length sent
    simp only [Handler.pendingTx,List.length_drop,List.length_nil] at bytes
    omega
  rcases out with absent | valid
  · have fresh := l.within.joined.sound.queue.fresh absent
    exact ⟨⟨uncut,sent,.inr (by simp [Handler.hasTxData,length,accepted,absent]),.inl accepted⟩,by simp [fresh]⟩
  · have passed := (passWithin l.within).1.joined.host
    have started : s.handler.outgoingRequestTxStarted = true := (passFrame s).started.symm.trans
      (hostCases passed (fun _ _ _ stored _ => (stored valid).elim fun _ h => h.elim fun _ h => h.2.1)
        (fun _ _ _ room => by simp [valid] at room))
    exact ⟨⟨uncut,sent,.inr (by simp [Handler.hasTxData,length,accepted,started]),.inl accepted⟩,fun _ => valid⟩

theorem orderlyTame (l : Linked False 0 s) {a : Action} (orderly : Orderly s a) : Tame s a := by
  cases a with
  | cycle e =>
    simp only [Orderly,Tame] at orderly ⊢
    rcases Bool.eq_false_or_eq_true s.reset.rstOut with again | on
    · rw [if_pos again] at orderly ⊢
      exact (restCalm l orderly).1
    · rw [if_neg (by simp [on])] at orderly ⊢
      exact orderly
  | send | receive => trivial

theorem passHolds (w : Within lost stale s (Tx.toSend s.rtl.tx) up) :
    offered (passTxByte s).handler (Tx.toSend s.rtl.tx).tail = toPerform s ∧
    responsesHeld (passTxByte s) = responsesHeld s ∧ (passTxByte s).bus = s.bus ∧
    (passTxByte s).handler.acceptedRequest = s.handler.acceptedRequest := by
  rw [passTxByte,toPerform]
  rcases Bool.eq_false_or_eq_true (Tx.txValid s.rtl.tx) with valid | valid
  · have joined := w.joined
    rw [toSendValid joined.live valid] at joined ⊢
    obtain ⟨t,taken,_,accepted,pending,now,parser⟩ := takeJoined joined
    rw [if_pos valid,taken]
    refine ⟨?_,by simp only [responsesHeld,accepted,pending],rfl,accepted⟩
    rw [offered,offered,now,arrivingCons,requestsAppend,List.append_assoc]
    simp only [arriving,parser,List.tail_cons]
  · rw [toSendQuiet s.rtl.tx valid]
    simp [valid]

theorem offerHolds (w : Within lost stale s down s.handler.pendingTx) :
    offered (offerRxByte s).handler down = offered s.handler down ∧
    answers s.rtl.rx (offeredByte (offerRxByte s) ++ (offerRxByte s).handler.pendingTx) ++ answerBeats (responsesHeld (offerRxByte s)) =
      answers s.rtl.rx s.handler.pendingTx ++ answerBeats (responsesHeld s) := by
  rw [offerRxByte]
  rcases Bool.eq_false_or_eq_true s.rtl.rx.outValid with busy | room
  · rw [if_pos busy]
    exact ⟨rfl,rfl⟩
  · have held' := transmitAnswers w.joined.carried
    have same := (transmitJoined w.joined).2
    have bytes := (Host.Handler.transmitQueue s.handler).1
    rw [← bytes] at held'
    have late : ∀ p, s.pendingResponse = some p → s.handler.transferTxByte.2.acceptedRequest = s.handler.acceptedRequest := by
      intro p waits
      obtain ⟨a,accepted,free,_⟩ := w.timely p waits
      obtain ⟨_,t,result,spec⟩ := Host.Handler.transmitSpec s.handler
      rw [result]
      cases spec with
      | idle | next | request => rfl
      | response _ _ queued => simp [free] at queued
    have kept : (s.pendingResponse.bind fun p => s.handler.transferTxByte.2.acceptedRequest.map (fillMetadata p.response)) =
        s.pendingResponse.bind fun p => s.handler.acceptedRequest.map (fillMetadata p.response) := by
      rcases Option.eq_none_or_eq_some s.pendingResponse with waits | ⟨p,waits⟩
      · simp [waits]
      · rw [late p waits]
    rw [if_neg (by simp [room])]
    have all : ∀ out t, s.handler.transferTxByte = (out,t) → answers s.rtl.rx (out.toList ++ t.pendingTx) ++
        answerBeats (t.pendingResponse.toList ++ (s.pendingResponse.bind fun p =>
          t.acceptedRequest.map (fillMetadata p.response)).toList) =
        answers s.rtl.rx s.handler.pendingTx ++ answerBeats (responsesHeld s) := by
      intro out t result
      rw [result] at held' kept
      rw [kept,answersAppend,← List.append_assoc,held',responsesHeld,answersAppend,List.append_assoc]
    generalize result : s.handler.transferTxByte = next at same all
    obtain ⟨out,t⟩ := next
    cases out with
    | none => exact ⟨same,all none t rfl⟩
    | some byte => exact ⟨same,all (some byte) t rfl⟩

theorem completeHolds {a : BusRequest} {response : BusResponse} (accepted : s.handler.acceptedRequest = some a)
    (checked : completionFault (fillMetadata response a) a = none) :
    complete s response = {s with handler := {s.handler with pendingResponse := some (fillMetadata response a)}} := by
  simp only [complete,Handler.completeRequest,accepted,checked]

theorem pendingHolds (w : Within lost stale s down up) : (completePending latency s).bus = s.bus ∧
    offered (completePending latency s).handler down = offered s.handler down ∧
    responsesHeld (completePending latency s) = responsesHeld s := by
  rw [completePending]
  rcases Option.eq_none_or_eq_some s.pendingResponse with waits | ⟨p,waits⟩
  · simp [waits]
  · obtain ⟨a,accepted,free,checked⟩ := w.timely p waits
    simp only [waits]
    split
    · rw [completeHolds accepted checked]
      exact ⟨rfl,rfl,by simp [responsesHeld,waits,accepted,free]⟩
    · exact ⟨rfl,rfl,rfl⟩

theorem acceptHolds (w : Within lost stale s down up) :
    offered s.handler down = (performed ops s).map (·.1) ++ offered (acceptIncoming ops latency s).handler down ∧
    responsesHeld (acceptIncoming ops latency s) = responsesHeld s ++ (performed ops s).map (·.2) := by
  rw [acceptIncoming]
  rcases Option.eq_none_or_eq_some s.pendingResponse with waits | ⟨p,waits⟩
  · rw [if_neg (by simp [waits])]
    rcases acceptCases s.handler with ⟨e,same⟩ | ⟨r,slot,free,same⟩
    · have nothing : performed ops s = [] := by simp [performed,same,Except.toOption]
      rw [same,nothing]
      exact ⟨rfl,by simp⟩
    · have first := (acceptJoined w.joined).2.2 r (by rw [same])
      have one : r.burstLen = 1 := w.joined.single.1 r (by
        rw [waitingCpu,first]
        simp)
      have checked := @performFits β ops s.bus r one
      have now : performed ops s = [(r,fillMetadata (perform ops s.bus r).1 r)] := by
        simp [performed,same,waits,w.alive,Except.toOption]
      have empty : responsesHeld s = [] := by simp [responsesHeld,waits,w.joined.sound.queue.answers free]
      rw [same] at first ⊢
      rw [now,empty]
      simp only
      split
      · exact ⟨first,by simp [responsesHeld,w.joined.sound.queue.answers free]⟩
      · let t : State β := {s with
          handler := {s.handler with acceptedRequest := some r, incomingRequest := ⟨false,none⟩}
          bus := (perform ops s.bus r).2}
        have done : complete t (perform ops s.bus r).1 =
            {t with handler := {t.handler with pendingResponse := some (fillMetadata (perform ops s.bus r).1 r)}} :=
          completeHolds rfl checked
        rw [done]
        exact ⟨first,by simp [responsesHeld,t,waits]⟩
  · have nothing : performed ops s = [] := by simp [performed,waits]
    rw [if_pos (by simp [waits]),nothing]
    exact ⟨rfl,by simp⟩

theorem handledHolds {t : State β} (l : Linked lost stale s) (same : handleHostBusInterface ops latency s = t) :
    toPerform s = (performed ops (beforeAccept latency s)).map (·.1) ++ offered t.handler (Tx.toSend s.rtl.tx).tail ∧
    toTake s ++ answerBeats ((performed ops (beforeAccept latency s)).map (·.2)) =
      answers s.rtl.rx (offeredByte t ++ t.handler.pendingTx) ++ answerBeats (responsesHeld t) := by
  obtain ⟨passed,rtl,reset,pendingTx⟩ := passWithin l.within
  have start : Within lost stale (passTxByte s) (Tx.toSend s.rtl.tx).tail (passTxByte s).handler.pendingTx := by
    rw [pendingTx]
    exact passed
  obtain ⟨offered',_⟩ := offerWithin start
  have waited : Within lost stale (completePending latency (offerRxByte (passTxByte s))) _ _ ∧ _ := pendingWithin offered'
  obtain ⟨completed,kept⟩ := waited
  have last : Within lost stale (acceptIncoming ops latency _) _ _ ∧ _ := acceptWithin completed
  obtain ⟨_,kept',_⟩ := last
  have before : beforeAccept latency s = completePending latency (offerRxByte (passTxByte s)) := by
    rw [beforeAccept,unlessAlive passTxByte l.within.alive,unlessAlive _ passed.alive,unlessAlive _ offered'.alive]
  have after : t = acceptIncoming ops latency (beforeAccept latency s) := by
    rw [← same,before]
    change unlessPanicked _ (beforeAccept latency s) = _
    rw [before,unlessAlive _ completed.alive]
  have passes := passHolds l.within
  have offers := offerHolds start
  have waits : (completePending latency (offerRxByte (passTxByte s))).bus = _ ∧ _ := pendingHolds offered'
  have accepts : offered _ _ = (performed ops _).map (·.1) ++ offered (acceptIncoming ops latency _).handler _ ∧ _ :=
    acceptHolds completed
  have all := kept.trans kept'
  rw [after,before,all.offered,all.pendingTx]
  refine ⟨?_,?_⟩
  · rw [← accepts.1,waits.2.1,offers.1,passes.1]
  · have bytes := offers.2
    rw [rtl,pendingTx,passes.2.1] at bytes
    rw [accepts.2,waits.2.2,toTake,answersAppend,← List.append_assoc]
    exact congrArg (· ++ _) bytes.symm

theorem restHandled {t : State β} (l : Linked False 0 s) (rest : AtRest s) (same : handleHostBusInterface ops latency s = t) :
    ∃ buffer index, t.handler = {(passTxByte s).handler with txBuffer := buffer, txIndex := index} ∧
      t.pendingResponse = none := by
  obtain ⟨_,_,buffer,index,frame⟩ := calmOffer (restCalm l rest).1
  obtain ⟨passed,_⟩ := passWithin l.within
  have free := rest.2.2.2.1
  have accepted : (passTxByte s).handler.acceptedRequest = none := (passFrame s).accepted.trans rest.2.2.1
  have alive := unlessAlive passTxByte l.within.alive
  generalize passTxByte s = u at frame passed free accepted alive
  have absent : u.pendingResponse = none := by
    rcases Option.eq_none_or_eq_some u.pendingResponse with waits | ⟨p,waits⟩
    · exact waits
    · obtain ⟨a,present,_⟩ := passed.timely p waits
      simp [accepted] at present
  have waits : (offerRxByte u).pendingResponse = none ∧ (offerRxByte u).panicked = none := by
    rw [offerRxByte]
    split
    · exact ⟨absent,passed.alive⟩
    · split <;> exact ⟨absent,passed.alive⟩
  have completes : completePending latency (offerRxByte u) = offerRxByte u := by simp [completePending,waits.1]
  have refused : (offerRxByte u).handler.acceptRequest = (.error .noRequestAvailable,(offerRxByte u).handler) := by
    rw [frame]
    simp [Handler.acceptRequest,free]
  have accepts : acceptIncoming ops latency (offerRxByte u) = offerRxByte u := by
    rw [acceptIncoming,if_neg (by simp [waits.1]),refused]
  have all : t = offerRxByte u := by
    rw [← same,handleHostBusInterface,alive,unlessAlive _ passed.alive,unlessAlive _ waits.2,completes,
      unlessAlive _ waits.2,accepts]
  rw [all]
  exact ⟨buffer,index,frame,waits.1⟩

theorem cpuCycle (e : Env) (l : Linked False 0 s) (orderly : Orderly s (.cycle e)) :
    Linked False 0 (stepCycle ops latency resetCycles e s) ∧
    (s.reset.rstOut = true → toPerform (stepCycle ops latency resetCycles e s) = [] ∧
      toTake (stepCycle ops latency resetCycles e s) = []) ∧
    (s.reset.rstOut = false →
      toPerform s ++ sentNow s (.cycle e) = (performedNow ops latency s (.cycle e)).map (·.1) ++
        toPerform (stepCycle ops latency resetCycles e s) ∧
      toTake s ++ answerBeats ((performedNow ops latency s (.cycle e)).map (·.2)) = (takenNow s (.cycle e)).map (·.2) ++
        toTake (stepCycle ops latency resetCycles e s)) := by
  generalize same : handleHostBusInterface ops latency s = t
  have w : Handled False 0 s t := same ▸ handled l
  have edge := @stepAlive β ops latency resetCycles s t e same w.within.alive
  obtain ⟨performs,takes⟩ := handledHolds l same
  rw [edge]
  rcases Bool.eq_false_or_eq_true s.reset.rstOut with again | on
  · have rest : AtRest s := by simpa only [Orderly,again,if_true] using orderly
    obtain ⟨calm,begun⟩ := restCalm l rest
    obtain ⟨buffer,index,frame,waits⟩ := restHandled l rest same
    have accepted : t.handler.acceptedRequest = none := by
      rw [frame]
      exact (passFrame s).accepted.trans rest.2.2.1
    have later := @resetLinked β ops resetCycles False 0 s t e False w again calm (by
      rw [frame]
      exact fun started => .inl (begun ((passFrame s).started.symm.trans started)))
    have slot : t.handler.incomingRequest.valid = false := by rw [frame]; exact rest.2.2.2.1
    have queue : t.handler.pendingResponse = none := w.within.joined.sound.queue.answers accepted
    have sent : t.handler.pendingTx = [] := w.kept.pendingTx.trans (calmOffer calm).2.1
    rw [accepted] at later
    have rtl : (clockEdge ops resetCycles e t).rtl = Interface.reset t.rtl := by simp [clockEdge,w.reset,again]
    refine ⟨later,fun _ => ⟨?_,?_⟩,fun quiet => by simp [again] at quiet⟩
    · rw [toPerform,rtl]
      change offered t.handler [] = []
      simp [offered,held,slot,arriving,requestsIn,Host.Handler.Parser.run]
    · rw [toTake,rtl]
      change answers _ t.handler.pendingTx ++ answerBeats (t.handler.pendingResponse.toList ++ (t.pendingResponse.bind fun p =>
        t.handler.acceptedRequest.map (fillMetadata p.response)).toList) = []
      rw [sent,queue,waits]
      rfl
  · have tame := orderlyTame l orderly
    obtain ⟨later,moved⟩ := @clockLinked β ops resetCycles False 0 s t e (Nat.zero_le _) w on tame
    obtain ⟨taken,left⟩ := edgeTakes e w
    have rtl : (clockEdge ops resetCycles e t).rtl = Interface.step t.rtl (inputs t e) := by simp [clockEdge,w.reset,on]
    refine ⟨later,fun again => by simp [on] at again,fun _ => ⟨?_,?_⟩⟩
    · have next : toPerform (clockEdge ops resetCycles e t) =
          offered t.handler (Tx.toSend (Interface.step t.rtl (inputs t e)).tx) := by rw [toPerform,rtl]; rfl
      have sends : sentNow s (.cycle e) = sentRequests s.rtl := by simp [sentNow,on]
      rw [next,moved,performs,sends,List.append_assoc]
      rfl
    · obtain ⟨_,beats⟩ := @clockUp t.rtl (offeredByte t ++ t.handler.pendingTx) (inputs t e)
        (by rw [taken]; exact List.prefix_append ..)
      rw [left,w.rtl] at beats
      have next : toTake (clockEdge ops resetCycles e t) =
          answers (Interface.step s.rtl (inputs t e)).rx t.handler.pendingTx ++ answerBeats (responsesHeld t) := by
        rw [toTake,rtl,w.rtl]
        rfl
      have now : (takenNow s (.cycle e)).map (·.2) = takenAnswer s.rtl := by simp [takenNow,on,Function.comp_def]
      rw [next,now,← List.append_assoc,← beats]
      exact takes

theorem orderlyStep (a : Action) (l : Linked False 0 s) (orderly : Orderly s a) :
    Linked False 0 (next ops latency resetCycles s a) ∧
    (inReset s a = true → toPerform (next ops latency resetCycles s a) = [] ∧
      toTake (next ops latency resetCycles s a) = []) ∧
    (inReset s a = false →
      toPerform s ++ sentNow s a = (performedNow ops latency s a).map (·.1) ++
        toPerform (next ops latency resetCycles s a) ∧
      toTake s ++ answerBeats ((performedNow ops latency s a).map (·.2)) = (takenNow s a).map (·.2) ++
        toTake (next ops latency resetCycles s a)) := by
  have aside {t : State β} (same : Aside s t) : Linked False 0 t ∧ (false = true → toPerform t = [] ∧ toTake t = []) ∧
      (false = false → toPerform s ++ [] = [] ++ toPerform t ∧ toTake s ++ [] = [] ++ toTake t) := by
    refine ⟨same.linked l,by simp,fun _ => ⟨?_,?_⟩⟩
    · rw [List.append_nil,List.nil_append,toPerform,toPerform,offered,offered,held,held,arriving,arriving,same.rtl,
        same.parser,same.incoming]
    · rw [List.append_nil,List.nil_append,toTake,toTake,responsesHeld,responsesHeld,same.rtl,same.pendingTx,same.pending,
        same.waits,same.accepted]
  cases a with
  | cycle e => exact cpuCycle e l orderly
  | send request => exact aside (sendAside request)
  | receive => exact aside receiveAside

theorem waitedStep {r : Interface.Regs} (i : Interface.Inputs) (closed : ¬(r.cpu.reqPending = true ∧ r.cpu.waitResp = true)) :
    (if r.cpu.waitResp then [cpuRequest r.cpu] else []) ++ (if tookCpu r then [cpuRequest r.cpu] else []) =
      (takenAnswer r).map (fun _ => cpuRequest r.cpu) ++
        if (Interface.step r i).cpu.waitResp then [cpuRequest (Interface.step r i).cpu] else [] := by
  have waits : Interface.acceptCpuResp r = true → r.cpu.waitResp = true := fun taken => by
    simp only [Interface.acceptCpuResp,Bool.and_eq_true] at taken
    exact taken.1.1
  have sends : tookCpu r = true → r.cpu.reqPending = true := fun took => by
    simp only [tookCpu,Bool.and_eq_true] at took
    exact took.1.1
  have room : captures r i = true → r.cpu.reqPending = false ∧ r.cpu.waitResp = false := fun taken => by
    simp only [captures,memAReady,Bool.and_eq_true,Bool.not_eq_true'] at taken
    exact taken.2.1
  have capture : (i.memAValid && memAReady r) = captures r i := rfl
  have took' : (r.cpu.reqPending && Interface.txOutputHandshake r && (Interface.txPkt r).any (·.req)) = tookCpu r := rfl
  have step : (Interface.step r i).cpu = Interface.cpuNext r i := rfl
  rw [step,takenAnswer]
  simp only [Interface.cpuNext,capture,took']
  cases taken : Interface.acceptCpuResp r <;> cases took : tookCpu r <;> cases cap : captures r i <;>
    cases ended : r.cpu.respValid && i.memDReady <;> simp_all [cpuRequest,Interface.cpuBeat]

theorem waitedNow (a : Action) (l : Linked False 0 s) :
    (inReset s a = true → waitsFor (next ops latency resetCycles s a) = []) ∧
    (inReset s a = false → waitsFor s ++ sentNow s a =
      (takenNow s a).map (·.1) ++ waitsFor (next ops latency resetCycles s a)) := by
  have aside {t : State β} (same : Aside s t) : (false = true → waitsFor t = []) ∧
      (false = false → waitsFor s ++ [] = [] ++ waitsFor t) := by
    refine ⟨by simp,fun _ => ?_⟩
    rw [List.append_nil,List.nil_append,waitsFor,waitsFor,same.rtl]
  cases a with
  | cycle e =>
    generalize same : handleHostBusInterface ops latency s = t
    have w : Handled False 0 s t := same ▸ handled l
    have edge := @stepAlive β ops latency resetCycles s t e same w.within.alive
    change (s.reset.rstOut = true → waitsFor (stepCycle ops latency resetCycles e s) = []) ∧
      (s.reset.rstOut = false → waitsFor s ++ sentNow s (.cycle e) =
        (takenNow s (.cycle e)).map (·.1) ++ waitsFor (stepCycle ops latency resetCycles e s))
    rw [edge]
    refine ⟨fun again => by simp [waitsFor,clockEdge,w.reset,again,Interface.reset],fun on => ?_⟩
    have rtl : (clockEdge ops resetCycles e t).rtl = Interface.step s.rtl (inputs t e) := by
      simp [clockEdge,w.reset,on,w.rtl]
    have waited := waitedStep (inputs t e) l.within.joined.closed
    have pairs : (takenNow s (.cycle e)).map (·.1) = (takenAnswer s.rtl).map fun _ => cpuRequest s.rtl.cpu := by
      simp [takenNow,on]
    have sends : sentNow s (.cycle e) = if tookCpu s.rtl then [cpuRequest s.rtl.cpu] else [] := by
      simp only [sentNow,on,Bool.false_eq_true,if_false]
      exact sentTook l.within.joined.live
    rw [pairs,sends,waitsFor,waitsFor,rtl]
    exact waited
  | send request => exact aside (sendAside request)
  | receive => exact aside receiveAside

theorem neverBlocked (l : Linked False 0 s) (valid : s.rtl.rx.outValid = true) (answer : s.rtl.rx.packet.req = false) :
    s.rtl.cpu.waitResp = true := by
  have count := l.within.joined.count
  have first : 1 ≤ (answers s.rtl.rx s.handler.pendingTx).length := by
    simp [answers,inbound,Rx.Regs.waiting,valid,answer]
  cases waits : s.rtl.cpu.waitResp with
  | true => rfl
  | false =>
    rw [waits,Bool.toNat_false] at count
    omega

end RiscvSoc.Sim
