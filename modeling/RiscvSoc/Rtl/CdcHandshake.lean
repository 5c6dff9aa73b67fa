import RiscvSoc.Lib.ClockCrossing

/-! `ff_sync.sv` and `cdc_handshake.sv`, for every payload and every `SYNC_STAGES`. -/
namespace RiscvSoc.CdcHandshake
open Mealy
open ClockCrossing
variable {α : Type}

/- The registers in `src_clk` and those in `dst_clk`, each with its synchroniser. -/
structure Src (α : Type) where
  reqToggle : Bool
  pending : Bool
  ready : Bool
  dataHold : α
  ackSync : List Bool
  deriving DecidableEq, Repr

structure Dst (α : Type) where
  valid : Bool
  data : α
  ackToggle : Bool
  reqTogglePrev : Bool
  reqSync : List Bool
  deriving DecidableEq, Repr

structure Regs (α : Type) where
  src : Src α
  dst : Dst α
  deriving DecidableEq, Repr

/- The inputs of a source edge; `new` decides how a toggle that changes at this moment is seen. -/
structure Offer (α : Type) where
  valid : Bool
  data : α
  new : Bool
  deriving DecidableEq, Repr

/- The inputs of a destination edge; `mixed` is what a bus that changes at this moment shows. -/
structure Demand (α : Type) where
  ready : Bool
  new : Bool
  mixed : α
  deriving DecidableEq, Repr

def dout (stages : List Bool) : Bool := stages.getLastD false

namespace Src

def reset (s : Src α) : Src α :=
  {s with reqToggle := false, pending := false, ready := true, ackSync := clear false s.ackSync}

def fire (s : Src α) (valid : Bool) : Bool := valid && s.ready

def edge (s : Src α) (rst valid : Bool) (data : α) (ack : Bool) : Src α :=
  if rst then s.reset
  else
    let s' := {s with ackSync := shift ack s.ackSync}
    if s.fire valid then {s' with dataHold := data, reqToggle := !s.reqToggle, pending := true, ready := false}
    else if s.pending && dout s.ackSync == s.reqToggle then {s' with pending := false, ready := true}
    else s'

/- The toggle after an edge does not depend on what the edge samples. -/
def nextReq (s : Src α) (rst valid : Bool) : Bool :=
  if rst then false else if s.fire valid then !s.reqToggle else s.reqToggle

end Src

namespace Dst

def reset (s : Dst α) : Dst α :=
  {s with valid := false, ackToggle := false, reqTogglePrev := false, reqSync := clear false s.reqSync}

def fire (s : Dst α) (ready : Bool) : Bool := s.valid && ready
def reqSeen (s : Dst α) : Bool := dout s.reqSync != s.reqTogglePrev

def edge (s : Dst α) (rst ready req : Bool) (hold : α) : Dst α :=
  if rst then s.reset
  else
    let s' := {s with
      reqSync := shift req s.reqSync
      reqTogglePrev := dout s.reqSync
      ackToggle := if s.fire ready then !s.ackToggle else s.ackToggle}
    if s.reqSeen then {s' with data := hold, valid := true}
    else if s.fire ready then {s' with valid := false}
    else s'

def nextAck (s : Dst α) (rst ready : Bool) : Bool :=
  if rst then false else if s.fire ready then !s.ackToggle else s.ackToggle

end Dst

variable (l : Lines) (s : Regs α) (e : Edges (Offer α) (Demand α))

/- The source accepts a word; until then it holds the last one. -/
def accepted : List α := match e.src with
  | some i => if !l.src && s.src.fire i.valid then [i.data] else []
  | none => []

def taken : List α := match e.dst with
  | some i => if !l.dst && s.dst.fire i.ready then [s.dst.data] else []
  | none => []

def nextReq : Bool := match e.src with
  | some i => s.src.nextReq l.src i.valid
  | none => s.src.reqToggle

def nextAck : Bool := match e.dst with
  | some i => s.dst.nextAck l.dst i.ready
  | none => s.dst.ackToggle

def nextSrc : Src α := match e.src with
  | some i => s.src.edge l.src i.valid i.data (if i.new then nextAck l s e else s.dst.ackToggle)
  | none => s.src

def nextDst : Dst α := match e.dst with
  | some i => s.dst.edge l.dst i.ready (if i.new then nextReq l s e else s.src.reqToggle)
      (if (accepted l s e).isEmpty then s.src.dataHold else i.mixed)
  | none => s.dst

def step : Regs α := ⟨nextSrc l s e,nextDst l s e⟩

def reset (s : Regs α) : Regs α := ⟨s.src.reset,s.dst.reset⟩

def Stages (n : Nat) (s : Regs α) : Prop := s.src.ackSync.length = n ∧ s.dst.reqSync.length = n
instance (n : Nat) (s : Regs α) : Decidable (Stages n s) := inferInstanceAs (Decidable (_ ∧ _))

/- The crossing with its reset lines, from reset on. -/
def machine : Machine (Started (Regs α)) (Moment (Offer α) (Demand α)) Unit := started step

def acceptedAt (s : Started (Regs α)) (m : Moment (Offer α) (Demand α)) : List α := accepted s.lines s.regs m.toEdges
def takenAt (s : Started (Regs α)) (m : Moment (Offer α) (Demand α)) : List α := taken s.lines s.regs m.toEdges

end RiscvSoc.CdcHandshake
