import RiscvSoc.Runtime.SimHostLink

/-! The CPU's requests on the way from the CPU to the handler, over whole runs of the simulator. -/
namespace RiscvSoc.Sim
open LittleEndian (Byte)
open Mealy Machine
open RiscvSoc.HostBus
open RiscvSoc.HostBus.Interface (Live memAReady)
open RiscvSoc.Host (AccessSize BusRequest BusResponse Handler Word)
open RiscvSoc.Link

variable {β : Type} {ops : Bus β} {latency resetCycles : Nat}

def accessRequest (a : Cpu.Access) : BusRequest :=
  let info : Meta := ⟨a.we,a.size,false,false,0,a.addr⟩
  requestOf info (payloadOf true info [a.wdata])

/- The requests that the host interface captures from the CPU, those whose packet the RTL begins to
send, and those that a byte completes in the handler. -/
def madeNow (s : State β) : Action → List BusRequest
  | .cycle e => if s.reset.rstOut || !memAReady s.rtl then [] else e.captured.toList.map fun r => accessRequest r.access
  | _ => []

def sentNow (s : State β) : Action → List BusRequest
  | .cycle _ => if s.reset.rstOut then [] else sentRequests s.rtl
  | _ => []

def parsedNow (s : State β) : Action → List BusRequest
  | .cycle _ =>
    if Tx.txValid s.rtl.tx && !s.handler.incomingRequest.valid then
      held (s.handler.transferRxByte (Tx.txByte s.rtl.tx)).2
    else []
  | _ => []

/- Requests whose packet is under way, and the one that waits for TX. -/
def underWay (s : State β) : List BusRequest := requestsIn (arriving s.handler (Tx.toSend s.rtl.tx))
def waitsForTx (s : State β) : List BusRequest := if s.rtl.cpu.reqPending then [cpuRequest s.rtl.cpu] else []

variable {lost : Prop} {stale : Nat} {s : State β}

theorem passParsed (e : Env) (l : Linked lost stale s) : underWay s = parsedNow s (.cycle e) ++
    requestsIn (arriving (passTxByte s).handler (Tx.toSend s.rtl.tx).tail) := by
  rw [underWay,parsedNow,passTxByte]
  rcases Bool.eq_false_or_eq_true (Tx.txValid s.rtl.tx) with valid | valid
  · have joined := l.within.joined
    rw [toSendValid joined.live valid] at joined ⊢
    obtain ⟨t,taken,_,_,_,now,parser⟩ := takeJoined joined
    have room := joined.room
    rw [offered,arrivingCons,requestsAppend] at room
    rw [if_pos valid,taken,valid,arrivingCons,requestsAppend]
    simp only [Bool.true_and,List.tail_cons,arriving,parser]
    congr 1
    rcases Bool.eq_false_or_eq_true s.handler.incomingRequest.valid with full | free
    · obtain ⟨r,one⟩ := heldSlot joined.sound full
      rw [one] at room
      simp only [List.length_append,List.length_cons,List.length_nil] at room
      rw [if_neg (by simp [full])]
      exact List.length_eq_zero_iff.mp (by omega)
    · rw [if_pos (by simp [free]),now]
      simp [held,free]
  · rw [toSendQuiet s.rtl.tx valid]
    simp [valid]

def Healthy (s : State β) : Prop := ∃ lost : Prop, ∃ stale, stale ≤ 1 ∧ Linked lost stale s

theorem cycleParsed (e : Env) (healthy : Healthy s) (tame : Tame s (.cycle e)) :
    Healthy (stepCycle ops latency resetCycles e s) ∧ underWay s ++ sentNow s (.cycle e) =
      parsedNow s (.cycle e) ++ underWay (stepCycle ops latency resetCycles e s) := by
  obtain ⟨lost,stale,few,l⟩ := healthy
  generalize handled' : handleHostBusInterface ops latency s = t
  have w : Handled lost stale s t := handled' ▸ handled l
  have edge := @stepAlive β ops latency resetCycles s t e handled' w.within.alive
  have parser (down : List Byte) : arriving (passTxByte s).handler down = arriving t.handler down := by
    rw [arriving,arriving,w.parser]
  rw [edge,passParsed e l,List.append_assoc,parser]
  rcases Bool.eq_false_or_eq_true s.reset.rstOut with inReset | running
  · have calm : Calm s := by simpa only [Tame,inReset,if_true] using tame
    have later := @resetLinked β ops resetCycles lost stale s t e True w inReset calm fun _ => .inr trivial
    refine ⟨⟨True,_,?_,later⟩,?_⟩
    · cases t.handler.acceptedRequest <;> simp
    have quiet : underWay (clockEdge ops resetCycles e t) = requestsIn (arriving t.handler []) := by
      simp [underWay,clockEdge,w.reset,inReset,Interface.reset,Tx.toSend,Tx.reset]
    rw [quiet]
    simp [sentNow,inReset,calmTail calm]
  · obtain ⟨later,moved⟩ := @clockLinked β ops resetCycles lost stale s t e few w running tame
    refine ⟨⟨lost,stale,few,later⟩,?_⟩
    rw [offered,offered,List.append_assoc] at moved
    have moved' := List.append_cancel_left moved
    simp only [underWay,clockEdge,w.reset,running,sentNow,Bool.false_eq_true,if_false]
    rw [moved']

structure Aside (s t : State β) : Prop where
  rtl : t.rtl = s.rtl
  parser : t.handler.parser = s.handler.parser
  pendingTx : t.handler.pendingTx = s.handler.pendingTx
  accepted : t.handler.acceptedRequest = s.handler.acceptedRequest
  pending : t.handler.pendingResponse = s.handler.pendingResponse
  incoming : t.handler.incomingRequest = s.handler.incomingRequest
  waits : t.pendingResponse = s.pendingResponse
  linked : ∀ {lost : Prop} {stale : Nat}, Linked lost stale s → Linked lost stale t

theorem Aside.refl (s : State β) : Aside s s := ⟨rfl,rfl,rfl,rfl,rfl,rfl,rfl,id⟩

theorem Aside.direct (s : State β) (direct : Option BusResponse) (bus : β) :
    Aside s {s with directResponse := direct, bus := bus} :=
  ⟨rfl,rfl,rfl,rfl,rfl,rfl,rfl,fun l =>
    ⟨⟨l.within.alive,l.within.joined,timelySame l.within.timely rfl rfl rfl⟩,l.taken⟩⟩

theorem Aside.handler {h : Handler} (parser : h.parser = s.handler.parser) (bytes : h.pendingTx = s.handler.pendingTx)
    (accepted : h.acceptedRequest = s.handler.acceptedRequest) (pending : h.pendingResponse = s.handler.pendingResponse)
    (incoming : h.incomingRequest = s.handler.incomingRequest)
    (joined : ∀ {lost : Prop} {stale : Nat} {down up}, Joined lost stale s.rtl s.handler down up →
      Joined lost stale s.rtl h down up) : Aside s {s with handler := h} := by
  refine ⟨rfl,parser,bytes,accepted,pending,incoming,rfl,fun l => ⟨⟨l.within.alive,?_,timelySame l.within.timely rfl accepted pending⟩,?_⟩⟩
  · rw [bytes]
    exact joined l.within.joined
  · simp only [accepted,incoming]
    exact l.taken

theorem sendAside (request : BusRequest) : Aside s (sendBusRequest ops s request).2 := by
  simp only [sendBusRequest]
  split
  · exact .refl s
  · split
    · exact .refl s
    · split
      · have joined {lost : Prop} {stale : Nat} {down up} (j : Joined lost stale s.rtl s.handler down up) := sendJoined j request
        rcases sendCases s.handler request with same' | ⟨_,_,same'⟩ <;> rw [same'] at joined ⊢ <;>
          exact .handler rfl rfl rfl rfl rfl joined
      · exact .direct ..
      · exact .refl s

theorem receiveAside : Aside s (receiveBusResponse s).2 := by
  simp only [receiveBusResponse]
  split
  · exact .direct ..
  · have joined {lost : Prop} {stale : Nat} {down up} (j : Joined lost stale s.rtl s.handler down up) := receiveJoined j
    rcases receiveCases s.handler with same | ⟨_,same⟩ <;> rw [same] at joined ⊢ <;>
      exact .handler rfl rfl rfl rfl rfl joined

theorem nextParsed (a : Action) (healthy : Healthy s) (tame : Tame s a) :
    Healthy (next ops latency resetCycles s a) ∧
    underWay s ++ sentNow s a = parsedNow s a ++ underWay (next ops latency resetCycles s a) := by
  have aside {t : State β} (same : Aside s t) : Healthy t ∧ underWay s ++ [] = [] ++ underWay t := by
    obtain ⟨lost,stale,few,l⟩ := healthy
    refine ⟨⟨lost,stale,few,same.linked l⟩,?_⟩
    rw [List.append_nil,List.nil_append,underWay,underWay,arriving,arriving,same.rtl,same.parser]
  cases a with
  | cycle e => exact cycleParsed e healthy tame
  | send request => exact aside (sendAside request)
  | receive => exact aside receiveAside

theorem startHealthy (registers : Interface.Regs) (bus : β) : Healthy (start resetCycles registers bus) := by
  refine ⟨False,0,Nat.zero_le _,⟨⟨rfl,?_,fun p absent => by simp [start] at absent⟩,by simp [start,Handler.new]⟩⟩
  exact startJoined registers

theorem idleParsed (healthy : Healthy s) (idle : s.rtl.tx.state = .idle) :
    s.handler.rxState = .idle ∧ underWay s = [] := by
  obtain ⟨_,_,_,l⟩ := healthy
  obtain ⟨words,awaits⟩ := l.within.joined.awaits
  have bytes : Tx.toSend s.rtl.tx = [] := by simp [Tx.toSend,idle]
  have ended : Tx.beatsLeft s.rtl.tx = 0 := by simp [Tx.beatsLeft,idle]
  rw [Awaits,if_pos ended,bytes] at awaits
  refine ⟨awaits.1,?_⟩
  rw [underWay,bytes]
  rfl

theorem sentTook {r : Interface.Regs} (live : Live r) :
    sentRequests r = if tookCpu r then [cpuRequest r.cpu] else [] := by
  have length := sentLength live
  have all : ∀ x ∈ sentRequests r, x = cpuRequest r.cpu := by
    intro x mem
    obtain ⟨_,_,rfl⟩ := List.mem_map.mp mem
    rfl
  rcases Bool.eq_false_or_eq_true (tookCpu r) with took | quiet
  · rw [took] at length
    obtain ⟨x,one⟩ := List.length_eq_one_iff.mp length
    rw [if_pos took,one,all x (by simp [one])]
  · rw [quiet] at length
    rw [List.length_eq_zero_iff.mp length]
    simp [quiet]

theorem waitsStep {r : Interface.Regs} (i : Interface.Inputs) :
    (if tookCpu r then [cpuRequest r.cpu] else []) ++ (if (Interface.step r i).cpu.reqPending then
      [cpuRequest (Interface.step r i).cpu] else []) =
    (if r.cpu.reqPending then [cpuRequest r.cpu] else []) ++
      if captures r i then [accessRequest ⟨i.memAAddr,i.memAWdata,i.memAWe,i.memASize⟩] else [] := by
  have sends : tookCpu r = true → r.cpu.reqPending = true := fun took => by
    simp only [tookCpu,Bool.and_eq_true] at took
    exact took.1.1
  have room : captures r i = true → r.cpu.reqPending = false := fun taken => by
    simp only [captures,memAReady,Bool.and_eq_true,Bool.not_eq_true'] at taken
    exact taken.2.1.1
  have capture : (i.memAValid && memAReady r) = captures r i := rfl
  have took' : (r.cpu.reqPending && Interface.txOutputHandshake r && (Interface.txPkt r).any (·.req)) = tookCpu r := rfl
  have step : (Interface.step r i).cpu = Interface.cpuNext r i := rfl
  rw [step]
  simp only [Interface.cpuNext,capture,took']
  cases taken : Interface.acceptCpuResp r <;> cases took : tookCpu r <;> cases cap : captures r i <;>
    cases ended : r.cpu.respValid && i.memDReady <;> simp_all [cpuRequest,Interface.cpuBeat,accessRequest]

theorem cycleMade (e : Env) (healthy : Healthy s) :
    (sentNow s (.cycle e) ++ waitsForTx (stepCycle ops latency resetCycles e s)).Sublist
      (waitsForTx s ++ madeNow s (.cycle e)) := by
  obtain ⟨lost,stale,few,l⟩ := healthy
  generalize handled' : handleHostBusInterface ops latency s = t
  have w : Handled lost stale s t := handled' ▸ handled l
  have edge := @stepAlive β ops latency resetCycles s t e handled' w.within.alive
  rw [edge]
  rcases Bool.eq_false_or_eq_true s.reset.rstOut with inReset | running
  · have empty : waitsForTx (clockEdge ops resetCycles e t) = [] := by
      simp [waitsForTx,clockEdge,w.reset,inReset,Interface.reset]
    rw [empty]
    simp [sentNow,inReset]
  · have live : Live s.rtl := l.within.joined.live
    have step := @waitsStep s.rtl (inputs t e)
    rw [← sentTook live] at step
    have made : (if captures s.rtl (inputs t e) then [accessRequest
        ⟨(inputs t e).memAAddr,(inputs t e).memAWdata,(inputs t e).memAWe,(inputs t e).memASize⟩] else []) =
        madeNow s (.cycle e) := by
      simp only [captures,inputs,madeNow,running,Bool.false_or]
      rcases Option.eq_none_or_eq_some e.captured with captured | ⟨r,captured⟩ <;>
        rcases Bool.eq_false_or_eq_true (memAReady s.rtl) with ready | ready <;> simp [captured,ready]
    have same : (clockEdge ops resetCycles e t).rtl = Interface.step s.rtl (inputs t e) := by
      simp [clockEdge,w.reset,running,w.rtl]
    rw [made] at step
    have all : sentNow s (.cycle e) ++ waitsForTx (clockEdge ops resetCycles e t) = waitsForTx s ++ madeNow s (.cycle e) := by
      simp only [waitsForTx,same,sentNow,running,Bool.false_eq_true,if_false]
      exact step
    exact all ▸ List.Sublist.refl _

theorem nextMade (a : Action) (healthy : Healthy s) :
    (sentNow s a ++ waitsForTx (next ops latency resetCycles s a)).Sublist (waitsForTx s ++ madeNow s a) := by
  have aside {t : State β} (same : Aside s t) : ([] ++ waitsForTx t).Sublist (waitsForTx s ++ []) := by
    have kept : waitsForTx t = waitsForTx s := by rw [waitsForTx,waitsForTx,same.rtl]
    simp [kept]
  cases a with
  | cycle e => exact cycleMade e healthy
  | send request => exact aside (sendAside request)
  | receive => exact aside receiveAside

/- No `expect` fails, every request whose packet the RTL begins to send is parsed as it was sent, in
order, and the parser is idle when TX is. What is sent is what the CPU asked for. -/
theorem guestRequestsParsed (registers : Interface.Regs) (bus : β) (actions : List Action)
    (tame : (machine ops latency resetCycles).Steps Tame (start resetCycles registers bus) actions) :
    ((machine ops latency resetCycles).final (start resetCycles registers bus) actions).panicked = none ∧
    (machine ops latency resetCycles).history sentNow (start resetCycles registers bus) actions =
      (machine ops latency resetCycles).history parsedNow (start resetCycles registers bus) actions ++
        underWay ((machine ops latency resetCycles).final (start resetCycles registers bus) actions) ∧
    (((machine ops latency resetCycles).final (start resetCycles registers bus) actions).rtl.tx.state = .idle →
      ((machine ops latency resetCycles).final (start resetCycles registers bus) actions).handler.rxState = .idle ∧
      underWay ((machine ops latency resetCycles).final (start resetCycles registers bus) actions) = []) ∧
    ((machine ops latency resetCycles).history sentNow (start resetCycles registers bus) actions).Sublist
      ((machine ops latency resetCycles).history madeNow (start resetCycles registers bus) actions) := by
  have initial := @startHealthy β resetCycles registers bus
  obtain ⟨healthy,parsed⟩ := stepsConserved (m := machine ops latency resetCycles)
    (fun _ a healthy tame => nextParsed a healthy tame) initial tame
  have made := stepsThinned (m := machine ops latency resetCycles)
    (fun _ a healthy tame => ⟨(nextParsed a healthy tame).1,nextMade a healthy⟩) initial tame
  obtain ⟨lost,stale,few,l⟩ := id healthy
  refine ⟨l.within.alive,parsed,idleParsed healthy,?_⟩
  exact (List.sublist_append_left ..).trans made

def noBus : Bus Unit := ⟨fun b _ _ => (0,b),fun b _ _ _ => b,id⟩

def quietCycle : Env := ⟨none,true,true,0,false,none⟩

/- A load at an address of the host, and cycles in which nothing else happens. -/
def loadRun (instruction : Word) (rest : Nat) : List Action :=
  .cycle {quietCycle with request := some ⟨true,instruction,.memRead,0,0x80000010,0,0,0,false⟩} ::
    List.replicate rest (.cycle quietCycle)

theorem loadWordParsed :
    (machine noBus 0 3).history parsedNow (start 3 .powerOn ()) (loadRun 0x00002003 9) =
      [⟨0x80000010,0,false,.word,1,false,false,[]⟩] ∧
    ((machine noBus 0 3).final (start 3 .powerOn ()) (loadRun 0x00002003 9)).handler.rxState = .idle ∧
    ((machine noBus 0 3).final (start 3 .powerOn ()) (loadRun 0x00002003 9)).panicked = none := by
  obtain ⟨alive,parsed,boundary,_⟩ := @guestRequestsParsed _ noBus 0 3 .powerOn () (loadRun 0x00002003 9) (by decide +kernel)
  obtain ⟨idle,nothing⟩ := boundary (by decide +kernel)
  rw [nothing,List.append_nil] at parsed
  exact ⟨parsed.symm.trans (by decide +kernel),idle,alive⟩

/- A load of the reserved width: the handler drops the first byte of its packet. -/
theorem loadDoubleLost :
    ((machine noBus 0 3).history sentNow (start 3 .powerOn ()) (loadRun 0x00003003 9)).length = 1 ∧
    (machine noBus 0 3).history parsedNow (start 3 .powerOn ()) (loadRun 0x00003003 9) = [] ∧
    ((machine noBus 0 3).final (start 3 .powerOn ()) (loadRun 0x00003003 9)).rtl.tx.state = .idle ∧
    ((machine noBus 0 3).final (start 3 .powerOn ()) (loadRun 0x00003003 9)).handler.rxState = .addr 3 := by
  decide +kernel

end RiscvSoc.Sim
