import RiscvSoc.Runtime.FpgaRuntime

/-! The two byte streams of the background thread, in terms of the calls that it makes to the handler. -/
namespace RiscvSoc.Runtime.Fpga
open LittleEndian (Byte)
open Host
open Mealy Machine
variable {β : Type} (devices : Bus β) (s : State β)

def serveCalls (h : Handler) (bus : β) : List Handler.Op :=
  if h.hasIncomingRequest then
    match h.acceptRequest with
    | (.ok request,_) => [.accept,.complete (serveCpu devices request bus).1]
    | (.error _,_) => [.accept]
  else []

def completeCalls : List Handler.Op :=
  match s.pending with
  | none => serveCalls devices s.serial.handler s.bus
  | some _ => match s.serial.handler.receiveResponse with
    | (some _,_) => [.receive]
    | (none,h) => .receive :: serveCalls devices h s.bus

def pollCalls (i : Poll) : List Handler.Op :=
  match s.expired i.now with
  | some _ => []
  | none => s.serial.transferCalls i.read ++ match s.serial.transfer i.read i.written with
    | (.error _,_) => []
    | (.ok _,serial) => completeCalls devices {s with serial := serial}

def handlerCalls : Step → List Handler.Op
  | .claim _ | .shutdown => []
  | .command request =>
    if s.ended || s.resetting then []
    else if classifyHostRequestRoute request = .hostBusHandler then [.send request] else []
  | .poll i => if s.ended then [] else pollCalls devices s i
  | .resetCpu _ _ => if s.ended || s.resetting then [] else [.send (resetRequest sysctrlResetCpu)]
  | .resetSystem i _ =>
    if s.ended || s.resetting then []
    else .send (resetRequest sysctrlResetSystem) :: match s.serial.handler.sendRequest (resetRequest sysctrlResetSystem) with
      | (.error _,_) => []
      | (.ok _,h) => pollCalls devices (s.withHandler h) i

def Undisturbed : Step → Prop
  | .poll i => s.ended = false → s.expired i.now = none
  | .resetSystem _ _ => s.ended = true ∨ s.resetting = true
  | _ => True

def silent : Handler.Op → Bool
  | .rx _ | .tx => false
  | _ => true

theorem silentHistory (h : Handler) {ops : List Handler.Op} (quiet : ∀ op ∈ ops, silent op = true) :
    Handler.machine.history acceptedByte h ops = [] ∧ Handler.machine.history Handler.emitted h ops = [] := by
  induction ops generalizing h with
  | nil => exact ⟨rfl,rfl⟩
  | cons op rest ih =>
    have now : acceptedByte h op = [] ∧ Handler.emitted h op = [] := by
      have here := quiet op List.mem_cons_self
      cases op with
      | rx | tx => simp [silent] at here
      | send | receive | accept | complete | query => exact ⟨rfl,rfl⟩
    obtain ⟨accepted,emitted⟩ := ih (Handler.machine.next h op) fun op mem => quiet op (List.mem_cons_of_mem _ mem)
    rw [historyCons,historyCons,now.1,now.2,accepted,emitted]
    exact ⟨rfl,rfl⟩

theorem silentStreams {start s : Serial} {calls ops : List Handler.Op} (h : Streams start calls s)
    (quiet : ∀ op ∈ ops, silent op = true) :
    Streams start (calls ++ ops) {s with handler := Handler.machine.final s.handler ops} := by
  obtain ⟨accepted,emitted⟩ := silentHistory (Handler.machine.final start.handler calls) quiet
  refine ⟨h.rx,h.tx,?_,?_,?_⟩
  · rw [finalAppend,← h.handler]
  · rw [historyAppend,accepted,List.append_nil]
    exact h.received
  · rw [historyAppend,emitted,List.append_nil]
    exact h.sent

theorem tickSerial (event : Option BusEvent) : (s.tick devices event).2.serial = s.serial := by
  rw [State.tick]
  obtain ⟨value,bus⟩ := devices.acknowledgeTermination (devices.clockCycleAllDevices s.bus)
  cases value <;> rfl

theorem serveSerial : (s.serve devices).2.serial =
    {s.serial with handler := Handler.machine.final s.serial.handler (serveCalls devices s.serial.handler s.bus)} := by
  rw [State.serve,serveCalls]
  split
  · cases accepted : s.serial.handler.acceptRequest with
    | mk result h =>
      have next : Handler.machine.next s.serial.handler .accept = h := congrArg Prod.snd accepted
      cases result with
      | ok request =>
        simp only
        rw [tickSerial,finalCons,next]
        rfl
      | error e =>
        simp only
        rw [tickSerial,finalCons,next]
        rfl
  · rw [tickSerial]
    rfl

theorem completeSerial : (s.complete devices).2.serial =
    {s.serial with handler := Handler.machine.final s.serial.handler (completeCalls devices s)} := by
  unfold State.complete completeCalls
  cases s.pending with
  | none => exact serveSerial devices s
  | some p =>
    cases received : s.serial.handler.receiveResponse with
    | mk answer h =>
      have next : Handler.machine.next s.serial.handler .receive = h := congrArg Prod.snd received
      cases answer with
      | some response =>
        simp only
        rw [finalCons,next]
        rfl
      | none =>
        simp only
        rw [finalCons,next]
        exact serveSerial devices (s.withHandler h)

theorem serveSilent (h : Handler) (bus : β) : ∀ op ∈ serveCalls devices h bus, silent op = true := by
  rw [serveCalls]
  split
  · split <;> simp [silent]
  · simp

theorem completeSilent : ∀ op ∈ completeCalls devices s, silent op = true := by
  rw [completeCalls]
  split
  · exact serveSilent devices _ _
  · split
    · simp [silent]
    · rename_i h nothing
      have later := serveSilent devices h s.bus
      intro op mem
      rcases List.mem_cons.mp mem with rfl | mem
      · rfl
      · exact later op mem

theorem reportSerial (result : Except DeviceError (Option BusEvent)) : (s.report result).serial = s.serial := by
  unfold State.report
  split
  · rfl
  · rfl
  · split <;> rfl

theorem turnSerial (result : Except DeviceError (Option BusEvent)) : (s.resetTurn result).serial = s.serial := by
  unfold State.resetTurn
  split
  · rfl
  · rfl
  · split
    · split <;> rfl
    · split <;> rfl
    · rfl

theorem streamsBegin {s : Serial} (rx : s.rxBuffer.len = 0) (tx : s.txBuffer.len = 0) : Streams s [] s := by
  have rxHeld : s.rxBuffer.held = [] := by rw [Buffer.held,rx,List.take_zero]
  have txHeld : s.txBuffer.held = [] := by rw [Buffer.held,tx,List.take_zero]
  refine ⟨?_,?_,rfl,?_,?_⟩
  · rw [Buffer.Within,rx]
    exact Nat.zero_le _
  · rw [Buffer.Within,tx]
    exact Nat.zero_le _
  · rw [rxHeld,historyNil,List.append_nil,List.append_nil]
  · rw [txHeld,historyNil]

section streams
variable {s} {start : Serial} {calls : List Handler.Op} (h : Streams start calls s.serial)
include h

theorem pollStreams {i : Poll} (inTime : s.expired i.now = none) :
    Streams start (calls ++ pollCalls devices s i) (s.pollOnce devices i).2.serial := by
  have moved := transferStreams h i.read i.written
  unfold pollCalls State.pollOnce
  rw [inTime]
  simp only
  rw [← List.append_assoc]
  generalize s.serial.transfer i.read i.written = transferred at moved ⊢
  obtain ⟨result,serial⟩ := transferred
  cases result with
  | error e =>
    rw [List.append_nil]
    exact moved
  | ok done =>
    change Streams start _ (State.complete devices {s with serial := serial}).2.serial
    rw [completeSerial]
    exact silentStreams moved (completeSilent devices _)

theorem stepStreams {step : Step} (undisturbed : Undisturbed s step) :
    Streams start (calls ++ handlerCalls devices s step) (s.next devices step).serial := by
  have sends (request : BusRequest) : Streams start (calls ++ [.send request])
      {s.serial with handler := (s.serial.handler.sendRequest request).2} := by
    have quiet : ∀ op ∈ [Handler.Op.send request], silent op = true := by simp [silent]
    exact silentStreams h quiet
  cases step with
  | claim p =>
    rw [handlerCalls,List.append_nil,State.next]
    split <;> exact h
  | command request =>
    rw [handlerCalls,State.next]
    split
    · rw [List.append_nil]
      exact h
    · unfold State.perform
      cases classifyHostRequestRoute request with
      | hostBusHandler =>
        have sent := sends request
        rw [if_pos rfl]
        generalize s.serial.handler.sendRequest request = sending at sent ⊢
        obtain ⟨result,t⟩ := sending
        cases result <;> exact sent
      | systemBus =>
        rw [if_neg (by decide),List.append_nil]
        simp only
        cases processSystemBusRequest devices request s.bus with
        | error => exact h
        | ok served =>
          simp only
          split <;> exact h
      | invalidSpanningRegion =>
        rw [if_neg (by decide),List.append_nil]
        exact h
  | poll i =>
    rw [handlerCalls,State.next]
    split
    · rw [List.append_nil]
      exact h
    · rename_i runs
      have moved := pollStreams devices h (undisturbed (by simpa using runs))
      generalize s.pollOnce devices i = polled at moved ⊢
      obtain ⟨result,t⟩ := polled
      simp only
      split
      · rw [turnSerial]
        exact moved
      · rw [reportSerial]
        exact moved
  | resetCpu sentAt timeout =>
    rw [handlerCalls,State.next]
    split
    · rw [List.append_nil]
      exact h
    · have sent := sends (resetRequest sysctrlResetCpu)
      unfold State.handleResetCpu
      simp only
      generalize s.serial.handler.sendRequest (resetRequest sysctrlResetCpu) = sending at sent ⊢
      obtain ⟨result,t⟩ := sending
      cases result <;> exact sent
  | resetSystem i drained =>
    have idle : (s.ended || s.resetting) = true := by simpa [Undisturbed] using undisturbed
    rw [handlerCalls,State.next,if_pos idle,if_pos idle,List.append_nil]
    exact h
  | shutdown =>
    rw [handlerCalls,List.append_nil,State.next]
    split <;> exact h

theorem runStreams {steps : List Step} (undisturbed : (machine devices).Steps Undisturbed s steps) :
    Streams start (calls ++ (machine devices).history (handlerCalls devices) s steps) ((machine devices).final s steps).serial := by
  induction steps generalizing s calls with
  | nil =>
    rw [historyNil,List.append_nil]
    exact h
  | cons step rest ih =>
    obtain ⟨now,later⟩ := stepsCons.mp undisturbed
    rw [historyCons,← List.append_assoc]
    exact ih (stepStreams devices h now) later

end streams

/- From any state in which the buffers are empty, over every run without a time-out and without a system reset. -/
theorem streamsPreserved (start : State β) (empty : start.serial.rxBuffer.len = 0 ∧ start.serial.txBuffer.len = 0)
    (steps : List Step) (undisturbed : (machine devices).Steps Undisturbed start steps) :
    let s := ((machine devices).final start steps).serial
    let calls := (machine devices).history (handlerCalls devices) start steps
    s.handler = Handler.machine.final start.serial.handler calls ∧
    start.serial.port.received ++ Handler.machine.history acceptedByte start.serial.handler calls ++ s.rxBuffer.held =
      s.port.received ∧
    s.port.sent ++ s.txBuffer.held =
      start.serial.port.sent ++ Handler.machine.history Handler.emitted start.serial.handler calls ∧
    s.rxBuffer.len ≤ bufferSize ∧ s.txBuffer.len ≤ bufferSize := by
  intro s calls
  have ran := runStreams devices (streamsBegin empty.1 empty.2) undisturbed
  exact ⟨ran.handler,ran.received,ran.sent,ran.rx,ran.tx⟩

def idleDevices : Bus Unit where
  read _ _ _ := (0,())
  write _ _ _ _ := ()
  clockCycleAllDevices _ := ()
  resetAllDevices _ := ()
  acknowledgeTermination _ := (none,())

def bootRequest : BusRequest := .write 0x20000008 0x80000000 .word

/- A packet of twelve bytes that the port takes in two parts. -/
theorem shortWritePreserved :
    let steps : List Step := [.command bootRequest,.poll ⟨0,[],.moved [0x31,0x01],.moved 5⟩,.poll ⟨1,[],.timedOut,.moved 9⟩]
    let s := ((machine idleDevices).final (.new idleDevices ()) steps).serial
    s.port.sent = Handler.requestPacket bootRequest ∧ s.txBuffer.held = [] ∧
      s.port.sent = Handler.machine.history Handler.emitted .new
        ((machine idleDevices).history (handlerCalls idleDevices) (.new idleDevices ()) steps) := by
  intro steps s
  have undisturbed : (machine idleDevices).Steps Undisturbed (.new idleDevices ()) steps :=
    stepsCons.mpr ⟨trivial,stepsCons.mpr ⟨fun _ => by decide +kernel,stepsCons.mpr ⟨fun _ => by decide +kernel,by simp [Steps]⟩⟩⟩
  have preserved : s.port.sent ++ s.txBuffer.held = [] ++ Handler.machine.history Handler.emitted .new
      ((machine idleDevices).history (handlerCalls idleDevices) (.new idleDevices ()) steps) :=
    (streamsPreserved idleDevices (.new idleDevices ()) ⟨rfl,rfl⟩ steps undisturbed).2.2.1
  have sent : s.port.sent = Handler.requestPacket bootRequest := by decide +kernel
  have held : s.txBuffer.held = [] := by decide +kernel
  rw [held,List.append_nil,List.nil_append] at preserved
  exact ⟨sent,held,preserved⟩

end RiscvSoc.Runtime.Fpga
