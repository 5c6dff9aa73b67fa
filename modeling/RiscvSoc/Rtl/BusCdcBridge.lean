import RiscvSoc.Rtl.CdcHandshake

/-! `bus_cdc_bridge.sv`: two handshake crossings in opposite directions. Either direction has a
slot for the word it takes in, a crossing and a slot for the word it gives out. -/
namespace RiscvSoc.BusCdc
open Mealy
open ClockCrossing
open CdcHandshake (Offer Demand)
variable {α : Type}

/- `*_src_valid`, `*_src_payload` and the ready that goes with them, then the output channel. -/
structure Channel (α : Type) where
  srcReady : Bool
  srcValid : Bool
  srcPayload : α
  cdc : CdcHandshake.Regs α
  dstValid : Bool
  dstPayload : α
  deriving DecidableEq, Repr

namespace Channel

def enqueue (s : Channel α) (valid : Bool) : Bool := valid && s.srcReady
def dequeue (s : Channel α) : Bool := s.srcValid && s.cdc.src.ready
def srcNextValid (s : Channel α) (valid : Bool) : Bool :=
  if s.enqueue valid then true else if s.dequeue then false else s.srcValid

def cdcDstReady (s : Channel α) (ready : Bool) : Bool := !s.dstValid || ready

variable (l : Lines) (s : Channel α) (e : Edges (Offer α) (Demand α))

def crossing : Edges (Offer α) (Demand α) where
  src := e.src.map fun i => ⟨s.srcValid,s.srcPayload,i.new⟩
  dst := e.dst.map fun i => ⟨s.cdcDstReady i.ready,i.new,i.mixed⟩

def srcEdge (i : Offer α) : Channel α :=
  if l.src then {s with srcValid := false, srcReady := true}
  else {s with
    srcPayload := if s.enqueue i.valid then i.data else s.srcPayload
    srcValid := s.srcNextValid i.valid
    srcReady := !s.srcNextValid i.valid}

def dstEdge (i : Demand α) : Channel α :=
  if l.dst then {s with dstValid := false}
  else if s.cdc.dst.valid && s.cdcDstReady i.ready then {s with dstPayload := s.cdc.dst.data, dstValid := true}
  else if s.dstValid && i.ready then {s with dstValid := false}
  else s

def step : Channel α :=
  let src := match e.src with | some i => srcEdge l s i | none => s
  let dst := match e.dst with | some i => dstEdge l s i | none => s
  {src with
    dstValid := dst.dstValid
    dstPayload := dst.dstPayload
    cdc := CdcHandshake.step l s.cdc (crossing s e)}

def accepted : List α := match e.src with
  | some i => if !l.src && s.enqueue i.valid then [i.data] else []
  | none => []

def delivered : List α := match e.dst with
  | some i => if !l.dst && s.dstValid && i.ready then [s.dstPayload] else []
  | none => []

def reset (s : Channel α) : Channel α :=
  {s with srcValid := false, srcReady := true, dstValid := false, cdc := CdcHandshake.reset s.cdc}

end Channel

/- The A channel, packed for the crossing. -/
structure Request (addrWidth dataWidth sizeWidth : Nat) where
  addr : BitVec addrWidth
  wdata : BitVec dataWidth
  we : Bool
  size : BitVec sizeWidth
  deriving DecidableEq, Repr

section
variable {aw dw sw : Nat}

abbrev Payload (aw dw sw : Nat) := BitVec (aw + dw + 1 + sw)

def pack (r : Request aw dw sw) : Payload aw dw sw := r.addr ++ r.wdata ++ BitVec.ofBool r.we ++ r.size

def unpack (p : Payload aw dw sw) : Request aw dw sw where
  addr := p.extractLsb' (dw + 1 + sw) aw
  wdata := p.extractLsb' (1 + sw) dw
  we := p.getLsbD sw
  size := p.extractLsb' 0 sw

structure Regs (aw dw sw : Nat) where
  a : Channel (Payload aw dw sw)
  d : Channel (BitVec dw)

/- A system edge offers a request and may take an answer; the oracles are those of the two crossings. -/
structure SysInputs (aw dw sw : Nat) where
  memA : Request aw dw sw
  memAValid : Bool
  memDReady : Bool
  ackNew : Bool
  reqNew : Bool
  mixed : BitVec dw

structure PeriphInputs (aw dw sw : Nat) where
  memAReady : Bool
  memDRdata : BitVec dw
  memDValid : Bool
  ackNew : Bool
  reqNew : Bool
  mixed : Payload aw dw sw

variable (l : Lines) (s : Regs aw dw sw) (e : Edges (SysInputs aw dw sw) (PeriphInputs aw dw sw))

def edgesA (e : Edges (SysInputs aw dw sw) (PeriphInputs aw dw sw)) :
    Edges (Offer (Payload aw dw sw)) (Demand (Payload aw dw sw)) where
  src := e.src.map fun i => ⟨i.memAValid,pack i.memA,i.ackNew⟩
  dst := e.dst.map fun i => ⟨i.memAReady,i.reqNew,i.mixed⟩

def edgesD (e : Edges (SysInputs aw dw sw) (PeriphInputs aw dw sw)) :
    Edges (Offer (BitVec dw)) (Demand (BitVec dw)) where
  src := e.dst.map fun i => ⟨i.memDValid,i.memDRdata,i.ackNew⟩
  dst := e.src.map fun i => ⟨i.memDReady,i.reqNew,i.mixed⟩

/- `sys_rst` and `periph_rst`, seen from the side the answers come from. -/
def turned (l : Lines) : Lines := ⟨l.dst,l.src⟩

def step : Regs aw dw sw := ⟨s.a.step l (edgesA e),s.d.step (turned l) (edgesD e)⟩

def reset (s : Regs aw dw sw) : Regs aw dw sw := ⟨s.a.reset,s.d.reset⟩

structure Outputs (aw dw sw : Nat) where
  sysMemAReady : Bool
  sysMemDRdata : BitVec dw
  sysMemDValid : Bool
  periphMemA : Request aw dw sw
  periphMemAValid : Bool
  periphMemDReady : Bool

def outputs : Outputs aw dw sw :=
  ⟨s.a.srcReady,s.d.dstPayload,s.d.dstValid,unpack s.a.dstPayload,s.a.dstValid,s.d.srcReady⟩

def sysA : List (Request aw dw sw) := match e.src with
  | some i => if !l.src && (i.memAValid && (outputs s).sysMemAReady) then [i.memA] else []
  | none => []

def periphA : List (Request aw dw sw) := match e.dst with
  | some i => if !l.dst && (outputs s).periphMemAValid && i.memAReady then [(outputs s).periphMemA] else []
  | none => []

def periphD : List (BitVec dw) := match e.dst with
  | some i => if !l.dst && (i.memDValid && (outputs s).periphMemDReady) then [i.memDRdata] else []
  | none => []

def sysD : List (BitVec dw) := match e.src with
  | some i => if !l.src && (outputs s).sysMemDValid && i.memDReady then [(outputs s).sysMemDRdata] else []
  | none => []

end
end RiscvSoc.BusCdc
