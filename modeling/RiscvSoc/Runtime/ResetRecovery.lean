import RiscvSoc.Runtime.HostService

/-! A system reset that finds the link at rest leaves a link that works: answers go to the requests
they were made for, RX is never blocked, and the host's requests are accepted and served. -/
namespace RiscvSoc.Sim
open LittleEndian (Byte)
open Mealy Machine
open RiscvSoc.HostBus
open RiscvSoc.Host (AccessSize BusRequest BusResponse Handler Word requestEndAddr classifyRequestRegion)
open RiscvSoc.Host.Handler (echoes requestFault)
open RiscvSoc.Link

variable {β : Type} {ops : Bus β} {latency resetCycles : Nat} {s : State β}

def sentCalls (ops : Bus β) (s : State β) : Action → List BusRequest
  | .send request =>
    if classifyRequestRegion request = .rtlPeripheral ∧ (sendBusRequest ops s request).1.toOption.isSome then [request] else []
  | _ => []

def answeredCalls (s : State β) : Action → List (BusRequest × BusResponse)
  | .receive => if s.directResponse.isSome then [] else s.handler.outgoingRequest.toList.zip (receiveBusResponse s).1.toList
  | _ => []

structure HostIdle (s : State β) : Prop where
  linked : Linked False 0 s
  alone : s.handler.outgoingRequest.isSome = true → s.directResponse = none

theorem handledDirect (s : State β) : (handleHostBusInterface ops latency s).directResponse = s.directResponse := by
  have quiet (f : State β → State β) (same : ∀ u, (f u).directResponse = u.directResponse) (u : State β) :
      (unlessPanicked f u).directResponse = u.directResponse := by
    rw [unlessPanicked]
    split
    · rfl
    · exact same u
  have passes (u : State β) : (passTxByte u).directResponse = u.directResponse := by
    rw [passTxByte]
    split
    · split <;> rfl
    · rfl
  have offers (u : State β) : (offerRxByte u).directResponse = u.directResponse := by
    rw [offerRxByte]
    split
    · rfl
    · split <;> rfl
  have completes (u : State β) (r : BusResponse) : (complete u r).directResponse = u.directResponse := by
    rw [complete]
    split <;> rfl
  have waits (u : State β) : (completePending latency u).directResponse = u.directResponse := by
    rw [completePending]
    split
    · rfl
    · split
      · exact completes ..
      · rfl
  have accepts (u : State β) : (acceptIncoming ops latency u).directResponse = u.directResponse := by
    rw [acceptIncoming]
    split
    · rfl
    · split
      · rfl
      · simp only
        split
        · rfl
        · exact completes ..
  rw [handleHostBusInterface,quiet _ accepts,quiet _ waits,quiet _ offers,quiet _ passes]

theorem cycleHost (e : Env) (l : Linked False 0 s) :
    (stepCycle ops latency resetCycles e s).handler.outgoingRequest = s.handler.outgoingRequest ∧
    (stepCycle ops latency resetCycles e s).directResponse = s.directResponse := by
  have direct := @handledDirect β ops latency s
  generalize same : handleHostBusInterface ops latency s = t at direct
  have w : Handled False 0 s t := same ▸ handled l
  rw [@stepAlive β ops latency resetCycles s t e same w.within.alive]
  exact ⟨w.kept.outgoing.trans (passOutgoing s).1,direct⟩

theorem storedOwn (h : HostIdle s) (valid : s.handler.outgoingResponse.valid = true) : Answered s.handler :=
  hostCases h.linked.within.joined.host (fun _ _ _ stored _ => stored valid) (fun _ _ _ room => by simp [valid] at room)

theorem sendCall (s : State β) (request : BusRequest) :
    ((sendBusRequest ops s request).2.handler.outgoingRequest = s.handler.outgoingRequest ∧
      sentCalls ops s (.send request) = [] ∧
      ((sendBusRequest ops s request).2.directResponse = s.directResponse ∨ s.handler.outgoingRequest = none)) ∨
    (s.handler.outgoingRequest = none ∧ sentCalls ops s (.send request) = [request] ∧
      (sendBusRequest ops s request).2.handler.outgoingRequest = some request ∧
      (sendBusRequest ops s request).2.directResponse = none) := by
  simp only [sentCalls,sendBusRequest]
  split
  · exact .inl ⟨rfl,by simp [Except.toOption],.inl rfl⟩
  · split
    · exact .inl ⟨rfl,by simp [Except.toOption],.inl rfl⟩
    · rename_i free
      simp only [Handler.hasPendingOutgoingRequest,Bool.or_eq_true,not_or,Bool.not_eq_true,Option.isSome_eq_false_iff,
        Option.isNone_iff_eq_none] at free
      split
      · rename_i region
        rcases sendCases s.handler request with same | ⟨_,_,same⟩
        · cases result : s.handler.sendRequest request with
          | mk answer h =>
            rw [result] at same
            cases answer with
            | error => exact .inl ⟨congrArg (·.outgoingRequest) same,by simp [Except.toOption],.inl rfl⟩
            | ok =>
              have taken : h.outgoingRequest = some request := by
                simp only [Handler.sendRequest] at result
                split at result
                · simp at result
                · split at result
                  · simp at result
                  · exact (congrArg (·.2.outgoingRequest) result).symm
              subst same
              simp [free.1] at taken
        · rw [same]
          exact .inr ⟨free.1,by simp [Except.toOption,region],rfl,free.2⟩
      · rename_i region
        exact .inl ⟨rfl,by simp [region],.inr free.1⟩
      · exact .inl ⟨rfl,by simp [Except.toOption],.inl rfl⟩

theorem receiveCall (h : HostIdle s) :
    (receiveBusResponse s).2.directResponse = none ∧
    s.handler.outgoingRequest.toList = (answeredCalls s .receive).map (·.1) ++
      (receiveBusResponse s).2.handler.outgoingRequest.toList ∧
    ∀ p ∈ answeredCalls s .receive, echoes p.2 p.1 = true := by
  simp only [answeredCalls]
  rcases Option.eq_none_or_eq_some s.directResponse with absent | ⟨d,present⟩
  · simp only [receiveBusResponse,absent,Option.isSome_none,Bool.false_eq_true,if_false]
    rcases Bool.eq_false_or_eq_true s.handler.outgoingResponse.valid with valid | waits
    · obtain ⟨r,response,out,_,present,own⟩ := storedOwn h valid
      have same : s.handler.receiveResponse = (some response,{s.handler with
          outgoingRequest := none
          outgoingRequestTxStarted := false
          outgoingResponse := ⟨false,none⟩}) := by
        simp [Handler.receiveResponse,valid,out,present]
      rw [same]
      simp [out,own]
    · have same : s.handler.receiveResponse = (none,s.handler) := by simp [Handler.receiveResponse,waits]
      rw [same]
      simp
  · have alone : s.handler.outgoingRequest = none := by
      rcases Option.eq_none_or_eq_some s.handler.outgoingRequest with absent | ⟨r,out⟩
      · exact absent
      · have := h.alone (by simp [out])
        simp [present] at this
    simp [receiveBusResponse,present,alone]

theorem hostStep (h : HostIdle s) (a : Action) (orderly : Orderly s a) : HostIdle (next ops latency resetCycles s a) ∧
    s.handler.outgoingRequest.toList ++ sentCalls ops s a =
      (answeredCalls s a).map (·.1) ++ (next ops latency resetCycles s a).handler.outgoingRequest.toList := by
  have linked := (@orderlyStep β ops latency resetCycles s a h.linked orderly).1
  cases a with
  | cycle e =>
    obtain ⟨outgoing,direct⟩ := @cycleHost β ops latency resetCycles s e h.linked
    refine ⟨⟨linked,?_⟩,?_⟩
    · change (stepCycle ops latency resetCycles e s).handler.outgoingRequest.isSome = true → _
      rw [outgoing]
      exact fun present => direct.trans (h.alone present)
    · change _ ++ [] = [] ++ (stepCycle ops latency resetCycles e s).handler.outgoingRequest.toList
      rw [outgoing,List.append_nil,List.nil_append]
  | send request =>
    rcases @sendCall β ops s request with ⟨outgoing,absent,direct⟩ | ⟨free,now,outgoing,direct⟩
    · refine ⟨⟨linked,?_⟩,?_⟩
      · change (sendBusRequest ops s request).2.handler.outgoingRequest.isSome = true → _
        rw [outgoing]
        intro present
        rcases direct with same | free
        · exact same.trans (h.alone present)
        · simp [free] at present
      · change _ = [] ++ (sendBusRequest ops s request).2.handler.outgoingRequest.toList
        rw [absent,outgoing,List.append_nil,List.nil_append]
    · refine ⟨⟨linked,fun _ => direct⟩,?_⟩
      change _ = [] ++ (sendBusRequest ops s request).2.handler.outgoingRequest.toList
      rw [now,outgoing,free]
      rfl
  | receive =>
    obtain ⟨direct,moved,_⟩ := receiveCall h
    exact ⟨⟨linked,fun _ => direct⟩,(List.append_nil _).trans moved⟩

theorem startHostIdle (registers : Interface.Regs) (bus : β) : HostIdle (start resetCycles registers bus) := by
  refine ⟨⟨⟨rfl,?_,fun p absent => by simp [start] at absent⟩,by simp [start,Handler.new]⟩,fun _ => rfl⟩
  exact startJoined registers

theorem callAccepted (r : BusRequest) (checked : requestFault r = none) (free : s.handler.outgoingRequest = none)
    (direct : s.directResponse = none) : sentCalls ops s (.send r) = [r] := by
  have region : classifyRequestRegion r = .rtlPeripheral := by
    refine Decidable.byContradiction fun other => ?_
    simp only [requestFault,if_pos other] at checked
    split at checked
    · contradiction
    · split at checked
      · contradiction
      · split at checked <;> contradiction
  have ends : (requestEndAddr r).isNone = false := by
    rcases Option.eq_none_or_eq_some (requestEndAddr r) with absent | ⟨last,present⟩
    · simp [classifyRequestRegion,absent] at region
    · simp [present]
  simp [sentCalls,sendBusRequest,ends,region,Handler.hasPendingOutgoingRequest,free,direct,Handler.sendRequest,checked,
    Except.toOption]

theorem answeredOwn (h : HostIdle s) {actions : List Action} (orderly : (machine ops latency resetCycles).Steps Orderly s actions) :
    ∀ p ∈ (machine ops latency resetCycles).history answeredCalls s actions, echoes p.2 p.1 = true := by
  induction actions generalizing s with
  | nil => simp
  | cons a rest ih =>
    obtain ⟨now,later⟩ := stepsCons.mp orderly
    intro p mem
    rcases List.mem_append.mp mem with here | after
    · cases a with
      | cycle | send => simp [answeredCalls] at here
      | receive => exact (receiveCall h).2.2 p here
    · exact ih (hostStep h a now).1 later p after

theorem callsConserved (h : HostIdle s) {actions : List Action}
    (orderly : (machine ops latency resetCycles).Steps Orderly s actions) :
    HostIdle ((machine ops latency resetCycles).final s actions) ∧
    s.handler.outgoingRequest.toList ++ (machine ops latency resetCycles).history (sentCalls ops) s actions =
      ((machine ops latency resetCycles).history answeredCalls s actions).map (·.1) ++
        ((machine ops latency resetCycles).final s actions).handler.outgoingRequest.toList := by
  have all := @stepsConserved _ _ _ (machine ops latency resetCycles) BusRequest HostIdle Orderly
    (fun s => s.handler.outgoingRequest.toList) (sentCalls ops) (fun s a => (answeredCalls s a).map Prod.fst)
    (fun s a h orderly => hostStep h a orderly) s h actions orderly
  refine ⟨all.1,all.2.trans (congrArg (· ++ _) ?_)⟩
  clear all h orderly
  induction actions generalizing s with
  | nil => rfl
  | cons a rest ih => simp [ih]

section
variable {actions : List Action} (l : Linked False 0 s) (orderly : (machine ops latency resetCycles).Steps Orderly s actions)
include l orderly

theorem waitedSince (quiet : waitsFor s = []) :
    (machine ops latency resetCycles).since inReset sentNow [] s actions =
      ((machine ops latency resetCycles).since inReset takenNow [] s actions).map (·.1) ++
        waitsFor ((machine ops latency resetCycles).final s actions) := by
  have all := @sinceConserved _ _ _ (machine ops latency resetCycles) BusRequest (Linked False 0) Orderly waitsFor sentNow
    (fun s a => (takenNow s a).map Prod.fst) inReset
    (fun s a l orderly => ⟨(@orderlyStep β ops latency resetCycles s a l orderly).1,@waitedNow β ops latency resetCycles s a l⟩)
    s l actions orderly [] [] quiet.symm
  rw [all,sinceMap inReset takenNow (List.map Prod.fst) rfl (by simp)]
  rfl

theorem performedSince (quiet : toPerform s = []) :
    (machine ops latency resetCycles).since inReset sentNow [] s actions =
      ((machine ops latency resetCycles).since inReset (performedNow ops latency) [] s actions).map (·.1) ++
        toPerform ((machine ops latency resetCycles).final s actions) := by
  have all := @sinceConserved _ _ _ (machine ops latency resetCycles) BusRequest (Linked False 0) Orderly toPerform sentNow
    (fun s a => (performedNow ops latency s a).map Prod.fst) inReset
    (fun s a l orderly => by
      obtain ⟨next,cleared,moved⟩ := @orderlyStep β ops latency resetCycles s a l orderly
      exact ⟨next,fun again => (cleared again).1,fun on => (moved on).1⟩)
    s l actions orderly [] [] quiet.symm
  rw [all,sinceMap inReset (performedNow ops latency) (List.map Prod.fst) rfl (by simp)]
  rfl

theorem takenSince (quiet : toTake s = []) :
    answerBeats (((machine ops latency resetCycles).since inReset (performedNow ops latency) [] s actions).map (·.2)) =
      ((machine ops latency resetCycles).since inReset takenNow [] s actions).map (·.2) ++
        toTake ((machine ops latency resetCycles).final s actions) := by
  have all := @sinceConserved _ _ _ (machine ops latency resetCycles) Beat (Linked False 0) Orderly toTake
    (fun s a => answerBeats ((performedNow ops latency s a).map Prod.snd)) (fun s a => (takenNow s a).map Prod.snd) inReset
    (fun s a l orderly => by
      obtain ⟨next,cleared,moved⟩ := @orderlyStep β ops latency resetCycles s a l orderly
      exact ⟨next,fun again => (cleared again).2,fun on => (moved on).2⟩)
    s l actions orderly [] [] quiet.symm
  rw [sinceMap inReset takenNow (List.map Prod.snd) rfl (by simp),
    sinceMap inReset (performedNow ops latency) (fun xs => answerBeats (xs.map Prod.snd)) rfl (by simp [answersAppend])]
  exact all

end

theorem responseServed (h : HostIdle s) {r : BusRequest} (out : s.handler.outgoingRequest = some r) {more : List Action}
    (orderly : (machine ops latency resetCycles).Steps Orderly s more)
    (enough : cyclesLeft r s < ((machine ops latency resetCycles).trace s more).countP fun c => serves c.1 c.2) :
    ∃ n response, (receiveBusResponse ((machine ops latency resetCycles).final s (more.take n))).1 = some response ∧
      echoes response r = true := by
  have stored {s : State β} (h : HostIdle s) (out : s.handler.outgoingRequest = some r)
      (valid : s.handler.outgoingResponse.valid = true) :
      ∃ response, (receiveBusResponse s).1 = some response ∧ echoes response r = true := by
    obtain ⟨r',response,out',_,present,own⟩ := storedOwn h valid
    cases Option.some.inj (out.symm.trans out')
    refine ⟨response,?_,own⟩
    simp [receiveBusResponse,h.alone (by simp [out]),Handler.receiveResponse,valid,out,present]
  have step (s : State β) (a : Action) (before : HostIdle s ∧ Open r s) (orderly : Orderly s a)
      (_ : ¬∃ response, (receiveBusResponse s).1 = some response ∧ echoes response r = true) :
      (∃ response, (receiveBusResponse (next ops latency resetCycles s a)).1 = some response ∧ echoes response r = true) ∨
      (HostIdle (next ops latency resetCycles s a) ∧ Open r (next ops latency resetCycles s a)) ∧
        cyclesLeft r (next ops latency resetCycles s a) ≤ cyclesLeft r s ∧
        (serves s a = true → cyclesLeft r (next ops latency resetCycles s a) < cyclesLeft r s) := by
    have idle := (@hostStep β ops latency resetCycles s before.1 a orderly).1
    rcases @Open.nearer β ops latency resetCycles s r before.2 a orderly with ⟨out,valid⟩ | ⟨later,less⟩
    · exact .inl (stored idle out valid)
    · exact .inr ⟨⟨idle,later⟩,less⟩
  rcases Bool.eq_false_or_eq_true s.handler.outgoingResponse.valid with valid | waits
  · obtain ⟨response,now,own⟩ := stored h out valid
    exact ⟨0,response,now,own⟩
  · exact @reaches _ _ _ (machine ops latency resetCycles) (fun s => HostIdle s ∧ Open r s)
      (fun s => ∃ response, (receiveBusResponse s).1 = some response ∧ echoes response r = true) Orderly (cyclesLeft r)
      serves step more s ⟨h,h.linked,out,waits⟩ orderly enough

/- In a run of orderly steps: since the last reset the CPU took the answers made for the requests it
sent, in order; RX holds no answer that is not taken at once; and each request of the host is taken
over when none is outstanding, is answered by a response of its own, and has it within
`cyclesLeft` cycles in which the bus takes what its engine asks for, or answers it. -/
theorem resetsResynchronise (registers : Interface.Regs) (bus : β) (actions : List Action)
    (orderly : (machine ops latency resetCycles).Steps Orderly (start resetCycles registers bus) actions) :
    let m := machine ops latency resetCycles
    let s := start resetCycles registers bus
    let t := m.final s actions
    (m.since inReset sentNow [] s actions = (m.since inReset takenNow [] s actions).map (·.1) ++ waitsFor t ∧
      m.since inReset sentNow [] s actions =
        (m.since inReset (performedNow ops latency) [] s actions).map (·.1) ++ toPerform t ∧
      answerBeats ((m.since inReset (performedNow ops latency) [] s actions).map (·.2)) =
        (m.since inReset takenNow [] s actions).map (·.2) ++ toTake t) ∧
    (t.rtl.rx.outValid = true → t.rtl.rx.packet.req = false → Interface.acceptCpuResp t.rtl = true) ∧
    (m.history (sentCalls ops) s actions =
        (m.history answeredCalls s actions).map (·.1) ++ t.handler.outgoingRequest.toList ∧
      ∀ p ∈ m.history answeredCalls s actions, echoes p.2 p.1 = true) ∧
    (∀ r, requestFault r = none → t.handler.outgoingRequest = none → t.directResponse = none →
      sentCalls ops t (.send r) = [r]) ∧
    (∀ r, t.handler.outgoingRequest = some r → ∀ more : List Action, m.Steps Orderly t more →
      cyclesLeft r t < ((m.trace t more).countP fun c => serves c.1 c.2) →
      ∃ n response, (receiveBusResponse (m.final t (more.take n))).1 = some response ∧ echoes response r = true) := by
  intro m s t
  have initial : HostIdle s := startHostIdle registers bus
  obtain ⟨idle,calls⟩ := callsConserved initial orderly
  have linked : Linked False 0 t := idle.linked
  refine ⟨⟨waitedSince initial.linked orderly rfl,performedSince initial.linked orderly rfl,
    takenSince initial.linked orderly rfl⟩,fun valid answer => ?_,⟨calls,answeredOwn initial orderly⟩,
    fun r checked free direct => callAccepted r checked free direct,fun r out more later enough => ?_⟩
  · simp [Interface.acceptCpuResp,valid,answer,neverBlocked linked valid answer]
  · exact responseServed idle out later enough

/- Every read answers with its address. -/
def echoBus : Bus Unit := ⟨fun b addr _ => (addr,b),fun b _ _ _ => b,id⟩

def acceptCycle : Env := {quietCycle with hostMemAReady := true, hostMemDValid := false}
def answerCycle : Env := {quietCycle with hostMemAReady := false, hostMemDValid := true}
def busCycles (n : Nat) : List Action := (List.replicate n [.cycle acceptCycle,.cycle answerCycle]).flatten
def loadCycle (addr : Word) : Env := {acceptCycle with request := some ⟨true,0x00002003,.memRead,0,addr,0,0,0,false⟩}
def resetCycle : Env := {acceptCycle with sysctrlWrite := some ⟨0x20000004,0⟩}

def resetWrite : BusRequest := ⟨0x20000004,0,true,.word,1,false,false,[0,0,0,0]⟩
def ledRead : BusRequest := ⟨0x20000014,0,false,.word,1,false,false,[]⟩

/- The CPU resets the system with nothing under way, and then loads a word while the host reads one. -/
def restRun : List Action :=
  .cycle resetCycle :: busCycles 4 ++ [.cycle (loadCycle 0x80000010),.send ledRead] ++ busCycles 25 ++ [.receive]

theorem restRunServed :
    (machine echoBus 0 3).since inReset sentNow [] (start 3 .powerOn ()) restRun =
      ((machine echoBus 0 3).since inReset takenNow [] (start 3 .powerOn ()) restRun).map (·.1) ∧
    ((machine echoBus 0 3).history answeredCalls (start 3 .powerOn ()) restRun).map (·.1) = [ledRead] := by
  obtain ⟨⟨waited,_⟩,_,⟨calls,_⟩,_⟩ := @resetsResynchronise _ echoBus 0 3 .powerOn () restRun (by decide +kernel)
  refine ⟨waited.trans ?_,?_⟩
  · have quiet : waitsFor ((machine echoBus 0 3).final (start 3 .powerOn ()) restRun) = [] := by decide +kernel
    rw [quiet,List.append_nil]
  · have free : ((machine echoBus 0 3).final (start 3 .powerOn ()) restRun).handler.outgoingRequest = none := by
      decide +kernel
    rw [free,Option.toList_none,List.append_nil] at calls
    exact calls.symm.trans (by decide +kernel)

/- The host resets the system while the CPU waits for a load, and the CPU loads from elsewhere when
the late response has come. -/
def lateRun : List Action :=
  .cycle (loadCycle 0x80000010) :: busCycles 6 ++ [.send resetWrite] ++ busCycles 7 ++ [.cycle resetCycle] ++
    busCycles 30 ++ [.cycle (loadCycle 0x80000020)] ++ busCycles 6

theorem lateAnswerTaken :
    (((machine echoBus 60 3).history takenNow (start 3 .powerOn ()) lateRun).map fun p => (p.1.addr,p.2.data)) =
      [(0x80000020,0x80000010)] ∧
    ((machine echoBus 60 3).final (start 3 .powerOn ()) (lateRun.take 88)).rtl.rx.outValid = true ∧
    ((machine echoBus 60 3).final (start 3 .powerOn ()) (lateRun.take 88)).rtl.cpu.waitResp = false ∧
    ((machine echoBus 60 3).final (start 3 .powerOn ()) lateRun).handler.outgoingRequest = some resetWrite ∧
    ((machine echoBus 60 3).final (start 3 .powerOn ()) lateRun).rtl.host.state = .idle ∧
    (sendBusRequest echoBus ((machine echoBus 60 3).final (start 3 .powerOn ()) lateRun) ledRead).1.toOption = none := by
  decide +kernel

end RiscvSoc.Sim
