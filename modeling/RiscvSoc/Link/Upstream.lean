import RiscvSoc.Link.WireFormat

/-! From the host to the RTL: the bytes that `host_bus_rx` still has to take, and the beats of
the packets in them. -/
namespace RiscvSoc.Link
open LittleEndian (Byte)
open RiscvSoc.HostBus (Beat)
open RiscvSoc.HostBus.Rx (Regs Inputs Closes parse parsed delivered taken parseAppend parsedAppend)
open RiscvSoc.Host.Handler (Packet)

def inbound (rx : Regs) (bytes : List Byte) : List Beat := rx.waiting ++ parse rx.released bytes

/- The bytes end with a packet, whose last byte brings a beat. -/
structure Whole (rx : Regs) (bytes : List Byte) : Prop where
  idle : (parsed rx.released bytes).state = .idle
  closes : bytes ≠ [] → Closes rx.released bytes

theorem releasedFree {rx : Regs} (free : rx.outValid = false) : rx.released = rx := by
  cases rx
  simp_all [Regs.released]

def untaken (rx : Regs) (i : Inputs) (bytes : List Byte) : List Byte := bytes.drop (taken rx i).length

theorem inboundStep {rx : Regs} {i : Inputs} {bytes : List Byte} (first : taken rx i <+: bytes) :
    inbound rx bytes = delivered rx i ++ inbound (HostBus.Rx.step rx i) (untaken rx i bytes) ∧
    parsed rx.released bytes = parsed (HostBus.Rx.step rx i).released (untaken rx i bytes) := by
  cases valid : rx.outValid with
  | true =>
    have empty : taken rx i = [] := by simp [taken,valid]
    have left : untaken rx i bytes = bytes := by simp [untaken,empty]
    rw [left]
    cases ready : i.packetReady with
    | true =>
      have next : HostBus.Rx.step rx i = rx.released := by simp [HostBus.Rx.step,valid,ready,Regs.released]
      have waits : rx.released.waiting = [] := rfl
      rw [next,inbound,inbound,waits]
      exact ⟨by simp [delivered,Regs.waiting,valid,ready,Regs.released],rfl⟩
    | false =>
      have next : HostBus.Rx.step rx i = rx := by simp [HostBus.Rx.step,valid,ready]
      rw [next]
      exact ⟨by simp [delivered,ready],rfl⟩
  | false =>
    have empty : delivered rx i = [] := by simp [delivered,valid]
    have waits : rx.waiting = [] := by simp [Regs.waiting,valid]
    rw [empty,List.nil_append]
    cases arrives : i.rxValid with
    | false =>
      have next : HostBus.Rx.step rx i = rx := by simp [HostBus.Rx.step,valid,arrives]
      have left : untaken rx i bytes = bytes := by simp [untaken,taken,arrives]
      rw [next,left]
      exact ⟨rfl,rfl⟩
    | true =>
      have one : taken rx i = [i.rxData] := by simp [taken,valid,arrives]
      have next : HostBus.Rx.step rx i = rx.take i.rxData := by simp [HostBus.Rx.step,valid,arrives]
      obtain ⟨rest,rfl⟩ := first
      have left : untaken rx i (taken rx i ++ rest) = rest := by simp [untaken]
      rw [left,next,one,inbound,waits,List.nil_append,releasedFree valid]
      exact ⟨rfl,rfl⟩

theorem parsedFree {rx : Regs} (bytes : List Byte) (free : rx.outValid = false) :
    (parsed rx bytes).outValid = false := by
  induction bytes generalizing rx with
  | nil => exact free
  | cons byte rest ih => exact ih rfl

theorem wholeStep {rx : Regs} {i : Inputs} {bytes : List Byte} (first : taken rx i <+: bytes) (whole : Whole rx bytes) :
    Whole (HostBus.Rx.step rx i) (untaken rx i bytes) := by
  refine ⟨(congrArg (·.state) (inboundStep first).2).symm.trans whole.idle,fun more => ?_⟩
  rcases Bool.eq_false_or_eq_true rx.outValid with valid | free
  · have left : untaken rx i bytes = bytes := by simp [untaken,taken,valid]
    have same : (HostBus.Rx.step rx i).released = rx.released := by
      simp only [HostBus.Rx.step,valid,if_true]
      split <;> rfl
    rw [left] at more ⊢
    rw [same]
    exact whole.closes more
  · rcases Bool.eq_false_or_eq_true i.rxValid with arrives | absent
    · have one : taken rx i = [i.rxData] := by simp [taken,free,arrives]
      obtain ⟨rest,rfl⟩ := first
      have left : untaken rx i (taken rx i ++ rest) = rest := by simp [untaken]
      have next : HostBus.Rx.step rx i = rx.take i.rxData := by simp [HostBus.Rx.step,free,arrives]
      have closes := whole.closes (by simp [one])
      rw [left] at more ⊢
      rw [next]
      rw [one,releasedFree free] at closes
      exact closes.rest more
    · have left : untaken rx i bytes = bytes := by simp [untaken,taken,absent]
      have same : HostBus.Rx.step rx i = rx := by simp [HostBus.Rx.step,free,absent]
      rw [left] at more ⊢
      rw [same]
      exact whole.closes more

theorem wholeEmpty {rx : Regs} {bytes : List Byte} (whole : Whole rx bytes) (empty : inbound rx bytes = []) :
    rx.outValid = false ∧ bytes = [] := by
  obtain ⟨waiting,silent⟩ := List.append_eq_nil_iff.mp empty
  have free : rx.outValid = false := by
    cases valid : rx.outValid with
    | false => rfl
    | true => simp [Regs.waiting,valid] at waiting
  exact ⟨free,Decidable.byContradiction fun more => (whole.closes more).some silent⟩

theorem inboundAppend {rx : Regs} {bytes : List Byte} (whole : Whole rx bytes) {p : Packet} (fits : p.Fits) :
    inbound rx (bytes ++ p.bytes) = inbound rx bytes ++ beats p ∧ Whole rx (bytes ++ p.bytes) := by
  obtain ⟨known,size,payload⟩ := packetValid fits
  obtain ⟨t,idle,_,closes,parses⟩ := HostBus.Rx.frameParsed whole.idle (parsedFree bytes rfl) known size payload
  have here := parses []
  rw [List.append_nil] at here
  have frame : p.bytes = HostBus.frame (onWire p).packetType (onWire p).info (onWire p).chunks.flatten :=
    (packetFrame fits).1
  refine ⟨?_,?_⟩
  · rw [inbound,inbound,parseAppend,List.append_assoc,frame,here.1.trans (List.append_nil _)]
    rfl
  · refine ⟨?_,fun _ => ?_⟩
    · rw [parsedAppend,frame,here.2]
      exact idle
    · have before : HostBus.Rx.Parses rx.released bytes (parse rx.released bytes) (parsed rx.released bytes) :=
        fun rest => ⟨parseAppend ..,parsedAppend ..⟩
      rw [frame]
      exact closes.after before

end RiscvSoc.Link
