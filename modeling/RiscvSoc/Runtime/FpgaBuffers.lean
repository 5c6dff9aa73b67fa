import RiscvSoc.Host.TransmitStream
import RiscvSoc.Runtime.Device

/-! The serial port of `fpga.rs` and the two buffers between it and the handler. The port is an input: what each
read gives and each write takes is any behaviour it may show, and the port keeps what has passed through it. -/
namespace RiscvSoc.Runtime.Fpga
open LittleEndian (Byte)
open Host
open Mealy Machine

def bufferSize : Nat := 64

/- `rx_buffer` with `rx_buffer_len`, or `tx_buffer` with `tx_buffer_len`. -/
structure Buffer where
  bytes : Vector Byte bufferSize
  len : Nat
  deriving DecidableEq, Repr

namespace Buffer

def new : Buffer := ⟨Vector.replicate bufferSize 0,0⟩

def held (b : Buffer) : List Byte := b.bytes.toList.take b.len

def append (b : Buffer) (added : List Byte) : Buffer where
  bytes := Vector.ofFn fun j => if b.len ≤ j.val then (added[j.val - b.len]?).getD b.bytes[j.val] else b.bytes[j.val]
  len := b.len + added.length

/- `copy_within(consumed..len, 0)` when anything is left to move; the bytes from there on stay. -/
def remove (b : Buffer) (consumed : Nat) : Buffer where
  bytes :=
    if 0 < consumed ∧ consumed < b.len then
      Vector.ofFn fun j => if j.val + consumed < b.len then (b.bytes[j.val + consumed]?).getD 0 else b.bytes[j.val]
    else b.bytes
  len := b.len - consumed

def Within (b : Buffer) : Prop := b.len ≤ bufferSize

variable {b : Buffer}

theorem heldLength (within : b.Within) : b.held.length = b.len := by
  have fits : b.len ≤ bufferSize := within
  simp [held,Nat.min_eq_left fits]

theorem heldGet (j : Nat) : b.held[j]? = if j < b.len then b.bytes[j]? else none := by
  rw [held,List.getElem?_take]
  simp

theorem appendSpec {added : List Byte} (room : b.len + added.length ≤ bufferSize) :
    (b.append added).held = b.held ++ added ∧ (b.append added).Within := by
  have within : b.Within := Nat.le_trans (Nat.le_add_right _ _) room
  refine ⟨?_,room⟩
  apply List.ext_getElem?
  intro j
  rw [heldGet,List.getElem?_append,heldLength within,heldGet]
  by_cases before : j < b.len
  · have inside : j < bufferSize := Nat.lt_of_lt_of_le before within
    have low : ¬ b.len ≤ j := by omega
    have here : j < b.len + added.length := by omega
    simp [append,before,inside,low,here]
  · by_cases here : j < b.len + added.length
    · have inside : j < bufferSize := by omega
      have index : j - b.len < added.length := by omega
      have low : b.len ≤ j := by omega
      simp [append,before,here,inside,index,low]
    · have outside : added.length ≤ j - b.len := by omega
      simp [append,before,here,outside]

theorem removeSpec (within : b.Within) {consumed : Nat} (present : consumed ≤ b.len) :
    (b.remove consumed).held = b.held.drop consumed ∧ (b.remove consumed).Within := by
  have fits : b.len ≤ bufferSize := within
  refine ⟨?_,Nat.le_trans (Nat.sub_le _ _) within⟩
  apply List.ext_getElem?
  intro j
  rw [heldGet,List.getElem?_drop,heldGet]
  change (if j < b.len - consumed then _ else none) = _
  by_cases left : j < b.len - consumed
  · have source : consumed + j < b.len := by omega
    have shifted : j + consumed < b.len := by omega
    have inside : j < bufferSize := by omega
    have inside' : j + consumed < bufferSize := by omega
    by_cases zero : consumed = 0
    · subst zero
      simp [remove]
    · have moves : 0 < consumed ∧ consumed < b.len := by omega
      simp [remove,left,moves,inside,shifted,inside',Nat.add_comm consumed j]
  · have source : ¬ consumed + j < b.len := by omega
    simp [left,source]

end Buffer

/- What one read comes to; `timedOut` stands for `WouldBlock` as well. -/
inductive Read where
  | moved (bytes : List Byte)
  | timedOut
  | failed (kind : ErrorKind) (message : String)
  deriving DecidableEq, Repr

inductive Written where
  | moved (n : Nat)
  | timedOut
  | failed (kind : ErrorKind) (message : String)
  deriving DecidableEq, Repr

structure Port where
  received : List Byte
  sent : List Byte
  deriving DecidableEq, Repr

namespace Port

/- A read gives no more than there is room for, a write takes no more than it is offered. -/
def read (p : Port) (room : Nat) : Read → Read × Port
  | .moved bytes => (.moved (bytes.take room),{p with received := p.received ++ bytes.take room})
  | .timedOut => (.timedOut,p)
  | .failed kind message => (.failed kind message,p)

def write (p : Port) (offered : List Byte) : Written → Written × Port
  | .moved n => (.moved (min n offered.length),{p with sent := p.sent ++ offered.take n})
  | .timedOut => (.timedOut,p)
  | .failed kind message => (.failed kind message,p)

end Port

structure Serial where
  port : Port
  handler : Handler
  rxBuffer : Buffer
  txBuffer : Buffer
  deriving DecidableEq, Repr

/- The loop of `drain_rx_buffer_to_handler`: how many bytes the handler takes. -/
def feed (h : Handler) : List Byte → Handler × Nat
  | [] => (h,0)
  | byte :: rest =>
    if !h.canAcceptRx then (h,0)
    else match h.transferRxByte byte with
      | (.error _,h) => (h,0)
      | (.ok _,h) => ((feed h rest).1,(feed h rest).2 + 1)

/- The loop of `fill_tx_buffer_from_handler`; `room` is what is left of the buffer. -/
def fetch (h : Handler) (buffer : Buffer) : Nat → Handler × Buffer
  | 0 => (h,buffer)
  | room + 1 => match h.transferTxByte with
    | (some byte,h) => fetch h (buffer.append [byte]) room
    | (none,h) => (h,buffer)

namespace Serial
variable (s : Serial)

def fillRxBuffer (r : Read) : Except DeviceError Unit × Serial :=
  let availableSpace := bufferSize - s.rxBuffer.len
  if availableSpace = 0 then (.ok (),s)
  else match s.port.read availableSpace r with
    | (.moved bytes,port) => (.ok (),{s with port := port, rxBuffer := s.rxBuffer.append bytes})
    | (.timedOut,port) => (.ok (),{s with port := port})
    | (.failed kind message,port) => (.error (.ioError kind message),{s with port := port})

def drainRxBufferToHandler : Serial :=
  {s with
    handler := (feed s.handler s.rxBuffer.held).1
    rxBuffer := s.rxBuffer.remove (feed s.handler s.rxBuffer.held).2}

def fillTxBufferFromHandler : Serial :=
  let filled := fetch s.handler s.txBuffer (bufferSize - s.txBuffer.len)
  {s with handler := filled.1, txBuffer := filled.2}

def drainTxBuffer (w : Written) : Except DeviceError Unit × Serial :=
  if s.txBuffer.len = 0 then (.ok (),s)
  else match s.port.write s.txBuffer.held w with
    | (.moved n,port) => (.ok (),{s with port := port, txBuffer := s.txBuffer.remove n})
    | (.timedOut,port) => (.ok (),{s with port := port})
    | (.failed kind message,port) => (.error (.ioError kind message),{s with port := port})

def transfer (r : Read) (w : Written) : Except DeviceError Unit × Serial :=
  match s.fillRxBuffer r with
  | (.error e,s) => (.error e,s)
  | (.ok _,s) => s.drainRxBufferToHandler.fillTxBufferFromHandler.drainTxBuffer w

end Serial

def feedCalls (h : Handler) : List Byte → List Handler.Op
  | [] => []
  | byte :: rest =>
    if !h.canAcceptRx then []
    else match h.transferRxByte byte with
      | (.error _,_) => [.rx byte]
      | (.ok _,h) => .rx byte :: feedCalls h rest

def fetchCalls (h : Handler) : Nat → List Handler.Op
  | 0 => []
  | room + 1 => match h.transferTxByte with
    | (some _,h) => .tx :: fetchCalls h room
    | (none,_) => [.tx]

def Serial.transferCalls (s : Serial) (r : Read) : List Handler.Op :=
  match s.fillRxBuffer r with
  | (.error _,_) => []
  | (.ok _,s) =>
    feedCalls s.handler s.rxBuffer.held ++
      fetchCalls s.drainRxBufferToHandler.handler (bufferSize - s.txBuffer.len)

def acceptedByte (h : Handler) : Handler.Op → List Byte
  | .rx byte => match (h.transferRxByte byte).1 with
    | .ok _ => [byte]
    | .error _ => []
  | _ => []

theorem feedSpec (h : Handler) (bytes : List Byte) :
    (feed h bytes).1 = Handler.machine.final h (feedCalls h bytes) ∧
    Handler.machine.history acceptedByte h (feedCalls h bytes) = bytes.take (feed h bytes).2 ∧
    Handler.machine.history Handler.emitted h (feedCalls h bytes) = [] ∧ (feed h bytes).2 ≤ bytes.length := by
  induction bytes generalizing h with
  | nil => exact ⟨rfl,rfl,rfl,Nat.le_refl 0⟩
  | cons byte rest ih =>
    rw [feed,feedCalls]
    split
    · exact ⟨rfl,rfl,rfl,Nat.zero_le _⟩
    · split
      · rename_i e t rejected
        have next : Handler.machine.next h (.rx byte) = t := congrArg Prod.snd rejected
        have kept : acceptedByte h (.rx byte) = [] := by simp only [acceptedByte,rejected]
        rw [finalCons,next,historyCons,kept]
        exact ⟨rfl,rfl,rfl,Nat.zero_le _⟩
      · rename_i t taken
        have next : Handler.machine.next h (.rx byte) = t := congrArg Prod.snd taken
        have took : acceptedByte h (.rx byte) = [byte] := by simp only [acceptedByte,taken]
        obtain ⟨final,accepted,silent,most⟩ := ih t
        rw [finalCons,next,historyCons,historyCons,took,next,accepted,silent]
        exact ⟨final,rfl,rfl,Nat.succ_le_succ most⟩

theorem fetchSpec (h : Handler) (buffer : Buffer) (room : Nat) (fits : buffer.len + room ≤ bufferSize) :
    (fetch h buffer room).1 = Handler.machine.final h (fetchCalls h room) ∧
    (fetch h buffer room).2.held = buffer.held ++ Handler.machine.history Handler.emitted h (fetchCalls h room) ∧
    Handler.machine.history acceptedByte h (fetchCalls h room) = [] ∧ (fetch h buffer room).2.Within := by
  induction room generalizing h buffer with
  | zero => exact ⟨rfl,(List.append_nil _).symm,rfl,fits⟩
  | succ room ih =>
    rw [fetch,fetchCalls]
    split
    · rename_i byte t sent
      have next : Handler.machine.next h .tx = t := congrArg Prod.snd sent
      have gives : Handler.emitted h .tx = [byte] := by simp only [Handler.emitted,sent,Option.toList_some]
      have one : buffer.len + [byte].length ≤ bufferSize := by simp only [List.length_singleton]; omega
      obtain ⟨held,_⟩ := Buffer.appendSpec one
      obtain ⟨final,filled,silent,within⟩ := ih t (buffer.append [byte]) (by
        change buffer.len + 1 + room ≤ bufferSize
        omega)
      rw [finalCons,historyCons,historyCons,next,gives,filled,held,List.append_assoc]
      exact ⟨final,rfl,silent,within⟩
    · rename_i t idle
      have next : Handler.machine.next h .tx = t := congrArg Prod.snd idle
      have gives : Handler.emitted h .tx = [] := by simp only [Handler.emitted,idle,Option.toList_none]
      rw [finalCons,historyCons,historyCons,next,gives]
      exact ⟨rfl,(List.append_nil _).symm,rfl,Nat.le_trans (Nat.le_add_right _ _) fits⟩

/- What has passed through since `start`, in terms of the calls of the handler since then. -/
structure Streams (start : Serial) (calls : List Handler.Op) (s : Serial) : Prop where
  rx : s.rxBuffer.Within
  tx : s.txBuffer.Within
  handler : s.handler = Handler.machine.final start.handler calls
  received : start.port.received ++ Handler.machine.history acceptedByte start.handler calls ++ s.rxBuffer.held =
    s.port.received
  sent : s.port.sent ++ s.txBuffer.held =
    start.port.sent ++ Handler.machine.history Handler.emitted start.handler calls

section streams
variable {start s : Serial} {calls : List Handler.Op} (h : Streams start calls s)
include h

theorem fillStreams (r : Read) : Streams start calls (s.fillRxBuffer r).2 := by
  have within : s.rxBuffer.len ≤ bufferSize := h.rx
  rw [Serial.fillRxBuffer]
  split
  · exact h
  · cases r with
    | timedOut => exact ⟨h.rx,h.tx,h.handler,h.received,h.sent⟩
    | failed => exact ⟨h.rx,h.tx,h.handler,h.received,h.sent⟩
    | moved bytes =>
      have room : s.rxBuffer.len + (bytes.take (bufferSize - s.rxBuffer.len)).length ≤ bufferSize := by
        rw [List.length_take]
        omega
      obtain ⟨held,fits⟩ := Buffer.appendSpec room
      refine ⟨fits,h.tx,h.handler,?_,h.sent⟩
      change _ ++ (s.rxBuffer.append _).held = s.port.received ++ _
      rw [held,← List.append_assoc,h.received]

theorem drainStreams : Streams start (calls ++ feedCalls s.handler s.rxBuffer.held) s.drainRxBufferToHandler := by
  obtain ⟨final,accepted,silent,most⟩ := feedSpec s.handler s.rxBuffer.held
  rw [Buffer.heldLength h.rx] at most
  obtain ⟨held,within⟩ := Buffer.removeSpec h.rx most
  refine ⟨within,h.tx,?_,?_,?_⟩
  · rw [finalAppend,← h.handler]
    exact final
  · change _ ++ (s.rxBuffer.remove _).held = s.port.received
    rw [historyAppend,← h.handler,accepted,held,List.append_assoc,List.append_assoc,List.take_append_drop,
      ← List.append_assoc,h.received]
  · rw [historyAppend,← h.handler,silent,List.append_nil]
    exact h.sent

theorem fetchStreams : Streams start (calls ++ fetchCalls s.handler (bufferSize - s.txBuffer.len))
    s.fillTxBufferFromHandler := by
  have fits : s.txBuffer.len ≤ bufferSize := h.tx
  obtain ⟨final,filled,silent,within⟩ := fetchSpec s.handler s.txBuffer (bufferSize - s.txBuffer.len) (by omega)
  refine ⟨h.rx,within,?_,?_,?_⟩
  · rw [finalAppend,← h.handler]
    exact final
  · rw [historyAppend,← h.handler,silent,List.append_nil]
    exact h.received
  · change s.port.sent ++ (fetch _ _ _).2.held = _
    rw [filled,← List.append_assoc,h.sent,historyAppend,← h.handler,List.append_assoc]

theorem writeStreams (w : Written) : Streams start calls (s.drainTxBuffer w).2 := by
  rw [Serial.drainTxBuffer]
  split
  · exact h
  · cases w with
    | timedOut => exact ⟨h.rx,h.tx,h.handler,h.received,h.sent⟩
    | failed => exact ⟨h.rx,h.tx,h.handler,h.received,h.sent⟩
    | moved n =>
      have most : min n s.txBuffer.held.length ≤ s.txBuffer.len := by
        rw [Buffer.heldLength h.tx]
        exact Nat.min_le_right _ _
      obtain ⟨held,within⟩ := Buffer.removeSpec h.tx most
      refine ⟨h.rx,within,h.handler,h.received,?_⟩
      change s.port.sent ++ s.txBuffer.held.take n ++ (s.txBuffer.remove (min n s.txBuffer.held.length)).held = _
      have taken : s.txBuffer.held.take n = s.txBuffer.held.take (min n s.txBuffer.held.length) := List.take_eq_take_min
      rw [held,taken,List.append_assoc,List.take_append_drop]
      exact h.sent

theorem transferStreams (r : Read) (w : Written) :
    Streams start (calls ++ s.transferCalls r) (s.transfer r w).2 := by
  have filled := fillStreams h r
  rw [Serial.transferCalls,Serial.transfer]
  split
  · rename_i e t failed
    rw [failed] at filled
    rw [List.append_nil]
    exact filled
  · rename_i t done
    rw [done] at filled
    have drained := drainStreams filled
    have fetched := fetchStreams drained
    rw [← List.append_assoc]
    exact writeStreams fetched w

end streams
end RiscvSoc.Runtime.Fpga
