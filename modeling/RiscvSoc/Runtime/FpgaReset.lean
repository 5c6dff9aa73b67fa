import RiscvSoc.Runtime.FpgaStreams

/-! What a system reset hands to the serial port before it discards everything. -/
namespace RiscvSoc.Runtime.Fpga
open LittleEndian (Byte)
open Host
open Mealy Machine
variable {β : Type} (devices : Bus β)

def Running (s : Serial) : Prop := ∃ start calls, start.handler = .new ∧ Streams start calls s

theorem discardRunning (s : Serial) (drained : List Byte) : Running (s.discard drained) :=
  ⟨s.discard drained,[],rfl,streamsBegin rfl rfl⟩

theorem pollRunning {s : State β} (h : Running s.serial) (i : Poll) : Running (s.pollOnce devices i).2.serial := by
  cases inTime : s.expired i.now with
  | none =>
    obtain ⟨start,calls,new,streams⟩ := h
    exact ⟨start,_,new,pollStreams devices streams inTime⟩
  | some p =>
    have late : (s.pollOnce devices i).2.serial = s.serial.discard i.drained := by
      unfold State.pollOnce
      rw [inTime]
    rw [late]
    exact discardRunning s.serial i.drained

theorem sendRunning {s : State β} (h : Running s.serial) (request : BusRequest) :
    Running (s.withHandler (s.serial.handler.sendRequest request).2).serial := by
  obtain ⟨start,calls,new,streams⟩ := h
  have quiet : ∀ op ∈ [Handler.Op.send request], silent op = true := by simp [silent]
  exact ⟨start,_,new,silentStreams streams quiet⟩

theorem stepRunning {s : State β} (h : Running s.serial) (step : Step) : Running (s.next devices step).serial := by
  have undisturbed (calm : Undisturbed s step) : Running (s.next devices step).serial := by
    obtain ⟨start,calls,new,streams⟩ := h
    exact ⟨start,_,new,stepStreams devices streams calm⟩
  cases step with
  | claim | command | resetCpu | shutdown => exact undisturbed trivial
  | poll i =>
    rw [State.next]
    split
    · exact h
    · have polled := pollRunning devices h i
      generalize s.pollOnce devices i = outcome at polled ⊢
      obtain ⟨result,t⟩ := outcome
      simp only
      split
      · rw [turnSerial]
        exact polled
      · rw [reportSerial]
        exact polled
  | resetSystem i drained =>
    rw [State.next]
    split
    · exact h
    · have sent := sendRunning h (resetRequest sysctrlResetSystem)
      unfold State.handleResetSystem
      generalize s.serial.handler.sendRequest (resetRequest sysctrlResetSystem) = sending at sent ⊢
      obtain ⟨result,t⟩ := sending
      cases result with
      | error e => exact sent
      | ok =>
        have polled := pollRunning devices sent i
        simp only at polled ⊢
        generalize (s.withHandler t).pollOnce devices i = outcome at polled ⊢
        obtain ⟨result,u⟩ := outcome
        cases result with
        | error e => exact polled
        | ok event => exact discardRunning _ drained

theorem runRunning (bus : β) (steps : List Step) : Running ((machine devices).final (.new devices bus) steps).serial := by
  have begun : Running (State.new devices bus).serial := ⟨_,[],rfl,streamsBegin rfl rfl⟩
  exact invariant (fun (s : State β) step (h : Running s.serial) => stepRunning devices h step) begun steps

theorem runningQueue {s : Serial} (h : Running s) : Handler.QueueOk s.handler := by
  obtain ⟨start,calls,new,streams⟩ := h
  rw [streams.handler,new]
  exact invariant (fun t op (ok : Handler.QueueOk t) => Handler.applyQueueOk ok op) Handler.newQueueOk calls

theorem feedKeeps (h : Handler) (bytes : List Byte) : (feed h bytes).1.toTransmit = h.toTransmit := by
  have one (h : Handler) (byte : Byte) : (h.transferRxByte byte).2.toTransmit = h.toTransmit := by
    have frame := Handler.receiveByteFrame h byte
    simp only [Handler.toTransmit,Handler.pendingTx,Handler.queued,Handler.queuedResponse,Handler.queuedRequest,
      frame.buffer,frame.index,frame.accepted,frame.request,frame.started,frame.response]
  induction bytes generalizing h with
  | nil => rfl
  | cons byte rest ih =>
    have here := one h byte
    rw [feed]
    split
    · rfl
    · generalize h.transferRxByte byte = taken at here ⊢
      obtain ⟨result,t⟩ := taken
      cases result with
      | error e => exact here
      | ok => exact (ih t).trans here

theorem fetchTakes (h : Handler) (buffer : Buffer) (room : Nat) (fits : buffer.len + room ≤ bufferSize) :
    (fetch h buffer room).2.held = buffer.held ++ h.toTransmit.take room := by
  induction room generalizing h buffer with
  | zero => rw [List.take_zero,List.append_nil,fetch]
  | succ room ih =>
    have left := Handler.transmitNext h
    have stops := (Handler.transmitQueue h).2.2
    rw [fetch]
    generalize h.transferTxByte = sent at left stops ⊢
    obtain ⟨out,t⟩ := sent
    cases out with
    | none =>
      obtain ⟨idle,empty⟩ := stops rfl
      simp [Handler.toTransmit,idle,empty]
    | some byte =>
      have one : buffer.len + [byte].length ≤ bufferSize := by simp only [List.length_singleton]; omega
      have later := ih t (buffer.append [byte]) (by
        change buffer.len + 1 + room ≤ bufferSize
        omega)
      simp only
      rw [later,(Buffer.appendSpec one).1,← left,List.append_assoc]
      rfl

def Read.Fails : Read → Prop
  | .failed _ _ => True
  | _ => False

def Written.Fails : Written → Prop
  | .failed _ _ => True
  | _ => False

theorem fillSpec (s : Serial) (r : Read) :
    ((s.fillRxBuffer r).1 = .ok () ↔ ¬ (r.Fails ∧ s.rxBuffer.len < bufferSize)) ∧
    (s.fillRxBuffer r).2.txBuffer = s.txBuffer ∧ (s.fillRxBuffer r).2.handler = s.handler ∧
    (s.fillRxBuffer r).2.port.sent = s.port.sent := by
  rw [Serial.fillRxBuffer]
  split
  · rename_i full
    have no : ¬ s.rxBuffer.len < bufferSize := by omega
    simp [no]
  · rename_i room
    have present : s.rxBuffer.len < bufferSize := by omega
    cases r <;> simp [Port.read,Read.Fails,present]

theorem transferOffers {s : Serial} (within : s.txBuffer.Within) {r : Read} {w : Written}
    (reads : ¬ (r.Fails ∧ s.rxBuffer.len < bufferSize)) : ∃ t : Serial, s.transfer r w = t.drainTxBuffer w ∧
      t.port.sent = s.port.sent ∧ t.txBuffer.Within ∧
      t.txBuffer.held = (s.txBuffer.held ++ s.handler.toTransmit).take bufferSize := by
  obtain ⟨passes,tx,handler,sent⟩ := fillSpec s r
  have result := passes.mpr reads
  unfold Serial.transfer
  generalize s.fillRxBuffer r = filled at result tx handler sent ⊢
  obtain ⟨outcome,t⟩ := filled
  simp only at result tx handler sent
  subst result
  have fits : s.txBuffer.len ≤ bufferSize := within
  have room : t.drainRxBufferToHandler.txBuffer.len + (bufferSize - t.drainRxBufferToHandler.txBuffer.len) ≤ bufferSize := by
    change t.txBuffer.len + (bufferSize - t.txBuffer.len) ≤ bufferSize
    rw [tx]
    omega
  refine ⟨t.drainRxBufferToHandler.fillTxBufferFromHandler,rfl,sent,?_,?_⟩
  · exact (fetchSpec _ _ _ room).2.2.2
  · refine (fetchTakes _ _ _ room).trans ?_
    have same : t.drainRxBufferToHandler.handler.toTransmit = s.handler.toTransmit := by
      rw [← handler]
      exact feedKeeps t.handler t.rxBuffer.held
    have whole : s.txBuffer.held.take bufferSize = s.txBuffer.held :=
      List.take_of_length_le (by rwa [Buffer.heldLength within])
    rw [same]
    change t.txBuffer.held ++ s.handler.toTransmit.take (bufferSize - t.txBuffer.len) = _
    rw [tx,List.take_append,Buffer.heldLength within,whole]

theorem writeSpec {s : Serial} (within : s.txBuffer.Within) (nonempty : s.txBuffer.held ≠ []) (w : Written) :
    ((s.drainTxBuffer w).1 = .ok () ↔ ¬ w.Fails) ∧
    (s.drainTxBuffer w).2.port.sent = s.port.sent ++ match w with
      | .moved n => s.txBuffer.held.take n
      | _ => [] := by
  have nonzero : s.txBuffer.len ≠ 0 := fun zero => nonempty (List.length_eq_zero_iff.mp ((Buffer.heldLength within).trans zero))
  rw [Serial.drainTxBuffer,if_neg nonzero]
  cases w <;> simp [Port.write,Written.Fails]

theorem sendQueues {h : Handler} (ok : Handler.QueueOk h) (free : h.outgoingRequest = none) :
    ∃ t, h.sendRequest (resetRequest sysctrlResetSystem) = (.ok (),t) ∧
      t.toTransmit = h.toTransmit ++ Handler.requestPacket (resetRequest sysctrlResetSystem) := by
  have checked : Handler.requestFault (resetRequest sysctrlResetSystem) = none := by decide
  have fresh := ok.fresh free
  refine ⟨{h with outgoingRequest := some (resetRequest sysctrlResetSystem)},?_,?_⟩
  · simp [Handler.sendRequest,free,checked]
  · have before : h.queued = h.queuedResponse := by simp [Handler.queued,Handler.queuedRequest,free]
    have after : ({h with outgoingRequest := some (resetRequest sysctrlResetSystem)} : Handler).queued =
        h.queuedResponse ++ [.request (resetRequest sysctrlResetSystem)] := by
      change h.queuedResponse ++ _ = _
      simp [Handler.queuedRequest,fresh]
    rw [Handler.toTransmit,after,Handler.toTransmit,before,List.flatMap_append,← List.append_assoc]
    simp [Handler.pendingTx,Handler.Packet.bytes]

def resetPackets (s : State β) : List Byte :=
  s.serial.txBuffer.held ++ s.serial.handler.toTransmit ++ Handler.requestPacket (resetRequest sysctrlResetSystem)

def ResetDelivered (s : State β) (i : Poll) (drained : List Byte) : Prop :=
  (s.handleResetSystem devices i drained).1 = .ok () →
    (s.handleResetSystem devices i drained).2.serial.port.sent = s.serial.port.sent ++ resetPackets s

/- The reset is refused, the port fails, or one buffer holds everything and one write takes it. -/
def ResetFits (s : State β) (i : Poll) : Prop :=
  s.serial.handler.outgoingRequest.isSome = true ∨
  s.expired i.now = none ∧
    (i.read.Fails ∧ s.serial.rxBuffer.len < bufferSize ∨ i.written.Fails ∨
      (resetPackets s).length ≤ bufferSize ∧ ∃ n, i.written = .moved n ∧ (resetPackets s).length ≤ n)

theorem resetPolls {s : State β} (h : Running s.serial) (free : s.serial.handler.outgoingRequest = none) (i : Poll)
    (drained : List Byte) : ∃ t : State β, Running t.serial ∧ t.serial.txBuffer = s.serial.txBuffer ∧
      t.serial.rxBuffer = s.serial.rxBuffer ∧ t.serial.port = s.serial.port ∧ t.expired i.now = s.expired i.now ∧
      t.serial.txBuffer.held ++ t.serial.handler.toTransmit = resetPackets s ∧
      ((s.handleResetSystem devices i drained).1 = .ok () ↔ ∃ event, (t.pollOnce devices i).1 = .ok event) ∧
      (s.handleResetSystem devices i drained).2.serial.port.sent = (t.pollOnce devices i).2.serial.port.sent := by
  obtain ⟨u,sends,queue⟩ := sendQueues (runningQueue h) free
  have running := sendRunning h (resetRequest sysctrlResetSystem)
  rw [sends] at running
  refine ⟨s.withHandler u,running,rfl,rfl,rfl,rfl,?_,?_⟩
  · change s.serial.txBuffer.held ++ u.toTransmit = _
    rw [queue,resetPackets,List.append_assoc]
  · unfold State.handleResetSystem
    rw [sends]
    simp only
    generalize (s.withHandler u).pollOnce devices i = polled
    obtain ⟨result,v⟩ := polled
    cases result with
    | error e => simp
    | ok event => cases event <;> simp [Serial.discard,State.send]

theorem pollTransfers {s : State β} {i : Poll} (inTime : s.expired i.now = none) :
    ((∃ event, (s.pollOnce devices i).1 = .ok event) ↔ (s.serial.transfer i.read i.written).1 = .ok ()) ∧
    (s.pollOnce devices i).2.serial.port = (s.serial.transfer i.read i.written).2.port := by
  unfold State.pollOnce
  rw [inTime]
  simp only
  generalize s.serial.transfer i.read i.written = transferred
  obtain ⟨result,serial⟩ := transferred
  cases result with
  | error e => simp
  | ok done =>
    have port := congrArg Serial.port (completeSerial devices {s with serial := serial})
    exact ⟨by simp,port⟩

theorem transferFails (s : Serial) {r : Read} (fails : r.Fails ∧ s.rxBuffer.len < bufferSize) (w : Written) :
    (s.transfer r w).1 ≠ .ok () := by
  have refused := mt (fillSpec s r).1.mp (not_not_intro fails)
  unfold Serial.transfer
  generalize s.fillRxBuffer r = filled at refused ⊢
  obtain ⟨outcome,t⟩ := filled
  cases outcome with
  | error e => simp
  | ok done => exact absurd rfl refused

theorem takesAll {xs : List Byte} {n : Nat} : (xs.take bufferSize).take n = xs ↔ xs.length ≤ bufferSize ∧ xs.length ≤ n := by
  constructor
  · intro same
    have lengths := congrArg List.length same
    rw [List.length_take,List.length_take] at lengths
    omega
  · intro ⟨fits,enough⟩
    rw [List.take_of_length_le fits,List.take_of_length_le enough]

/- A system reset of any state that the thread reaches. -/
theorem resetDelivered (bus : β) (steps : List Step) (i : Poll) (drained : List Byte) :
    let s := (machine devices).final (.new devices bus) steps
    ResetDelivered devices s i drained ↔ ResetFits s i := by
  intro s
  have running : Running s.serial := runRunning devices bus steps
  unfold ResetDelivered ResetFits
  cases out : s.serial.handler.outgoingRequest with
  | some request =>
    have refused : (s.handleResetSystem devices i drained).1 ≠ .ok () := by
      simp [State.handleResetSystem,Handler.sendRequest,out]
    exact iff_of_true (fun done => absurd done refused) (.inl rfl)
  | none =>
    obtain ⟨t,⟨_,_,_,streams⟩,tx,rx,port,clock,whole,result,sent⟩ := resetPolls devices running out i drained
    have nonempty : resetPackets s ≠ [] := by
      simp [resetPackets,Handler.requestPacket,Handler.encodePacket]
    rw [result,sent,← rx,← clock,← port]
    cases inTime : t.expired i.now with
    | some p =>
      -- the poll gives up on another request and resets the handler
      have late : t.pollOnce devices i = (.ok (some (.hostRequestTimeout p.addr p.timeout)),
          {t with serial := t.serial.discard i.drained, pending := none}) := by
        unfold State.pollOnce
        rw [inTime]
      rw [late]
      simp [Serial.discard,nonempty]
    | none =>
      obtain ⟨passes,moved⟩ := pollTransfers devices inTime
      rw [passes,moved]
      by_cases reads : i.read.Fails ∧ t.serial.rxBuffer.len < bufferSize
      · have failed := transferFails t.serial reads i.written
        exact iff_of_true (fun done => absurd done failed) (.inr ⟨rfl,.inl reads⟩)
      · obtain ⟨u,writes,before,within,held⟩ := transferOffers streams.tx (w := i.written) reads
        rw [whole] at held
        have offered : u.txBuffer.held ≠ [] := by
          rw [held]
          simp [nonempty,bufferSize]
        obtain ⟨done,after⟩ := writeSpec within offered i.written
        rw [writes,done,after,before,held]
        simp only [reads,false_or,true_and,Option.isSome_none,Bool.false_eq_true]
        cases i.written with
        | failed => simp [Written.Fails]
        | timedOut => simp [Written.Fails,nonempty]
        | moved n => simp [Written.Fails,takesAll]

/- The port takes five of the twelve bytes; the reset is reported as done and the rest is thrown away. -/
theorem resetCutShort :
    let s : State Unit := .new idleDevices ()
    let i : Poll := ⟨0,[],.timedOut,.moved 5⟩
    (s.handleResetSystem idleDevices i []).1 = .ok () ∧
    (s.handleResetSystem idleDevices i []).2.serial.port.sent = (resetPackets s).take 5 ∧
    (s.handleResetSystem idleDevices i []).2.serial.txBuffer.held = [] ∧
    ¬ ResetDelivered idleDevices s i [] := by
  intro s i
  have done : (s.handleResetSystem idleDevices i []).1 = .ok () := rfl
  have sent : (s.handleResetSystem idleDevices i []).2.serial.port.sent = (resetPackets s).take 5 := by decide +kernel
  refine ⟨done,sent,by decide +kernel,fun delivered => ?_⟩
  have whole := delivered done
  rw [sent] at whole
  exact absurd whole (by decide +kernel)

end RiscvSoc.Runtime.Fpga
