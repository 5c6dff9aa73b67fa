import RiscvSoc.Lib.Mealy

/-! `host_bus_mux.sv` carries one access of the CPU at a time, from its request to the bus that the
top address bit names and back with the response. -/
namespace RiscvSoc.HostBusMux
open Mealy

structure Request where
  addr : BitVec 32
  wdata : BitVec 32
  we : Bool
  size : BitVec 2
  deriving DecidableEq, Repr, Inhabited

structure Regs where
  pendingReq : Request
  pendingReqValid : Bool
  pendingRouteHost : Bool
  waitingForResp : Bool
  pendingRespRdata : BitVec 32
  pendingRespValid : Bool
  deriving DecidableEq, Repr, Inhabited

/- The CPU side and the two sides the access may be routed to. -/
structure Inputs where
  cpuMemA : Request
  cpuMemAValid : Bool
  cpuMemDReady : Bool
  sysMemAReady : Bool
  sysMemDRdata : BitVec 32
  sysMemDValid : Bool
  hostMemAReady : Bool
  hostMemDRdata : BitVec 32
  hostMemDValid : Bool
  deriving DecidableEq, Repr, Inhabited

structure Outputs where
  cpuMemAReady : Bool
  cpuMemDRdata : BitVec 32
  cpuMemDValid : Bool
  memA : Request
  sysMemAValid : Bool
  sysMemDReady : Bool
  hostMemAValid : Bool
  hostMemDReady : Bool
  deriving DecidableEq, Repr

/- `rst`; the buffered request and response keep what they have. -/
def reset (s : Regs) : Regs :=
  {s with pendingReqValid := false, pendingRouteHost := false, waitingForResp := false, pendingRespValid := false}

namespace Regs
variable (s : Regs) (i : Inputs)

def cpuMemAReady : Bool := !s.pendingReqValid && !s.waitingForResp && !s.pendingRespValid

def sysMemAValid : Bool := s.pendingReqValid && !s.pendingReq.addr.getLsbD 31
def hostMemAValid : Bool := s.pendingReqValid && s.pendingReq.addr.getLsbD 31
def sysMemDReady : Bool := s.waitingForResp && !s.pendingRespValid && !s.pendingRouteHost
def hostMemDReady : Bool := s.waitingForResp && !s.pendingRespValid && s.pendingRouteHost

def cpuAHandshake : Bool := i.cpuMemAValid && s.cpuMemAReady
def cpuDHandshake : Bool := s.pendingRespValid && i.cpuMemDReady
def sysAHandshake : Bool := s.sysMemAValid && i.sysMemAReady
def hostAHandshake : Bool := s.hostMemAValid && i.hostMemAReady
def sysDHandshake : Bool := s.waitingForResp && !s.pendingRouteHost && i.sysMemDValid && s.sysMemDReady
def hostDHandshake : Bool := s.waitingForResp && s.pendingRouteHost && i.hostMemDValid && s.hostMemDReady

def next : Regs where
  pendingReq := if s.cpuAHandshake i then i.cpuMemA else s.pendingReq
  pendingReqValid :=
    if s.sysAHandshake i || s.hostAHandshake i then false else if s.cpuAHandshake i then true else s.pendingReqValid
  pendingRouteHost :=
    if s.sysAHandshake i then false else if s.hostAHandshake i then true else s.pendingRouteHost
  waitingForResp :=
    if s.sysDHandshake i || s.hostDHandshake i then false
    else if s.sysAHandshake i || s.hostAHandshake i then true else s.waitingForResp
  pendingRespRdata :=
    if s.sysDHandshake i then i.sysMemDRdata else if s.hostDHandshake i then i.hostMemDRdata else s.pendingRespRdata
  pendingRespValid :=
    if s.cpuDHandshake i then false
    else if s.sysDHandshake i || s.hostDHandshake i then true else s.pendingRespValid

def outputs : Outputs :=
  ⟨s.cpuMemAReady,s.pendingRespRdata,s.pendingRespValid,s.pendingReq,s.sysMemAValid,s.sysMemDReady,s.hostMemAValid,
    s.hostMemDReady⟩

/- The requests and responses in the mux. -/
def held : Nat := s.pendingReqValid.toNat + s.waitingForResp.toNat + s.pendingRespValid.toNat

end Regs

def machine : Machine Regs Inputs Outputs := ⟨fun s _ => s.outputs,Regs.next⟩

variable {s : Regs} {i : Inputs}

theorem readyEmpty : s.cpuMemAReady = true ↔ s.held = 0 := by
  simp only [Regs.cpuMemAReady,Regs.held]
  cases s.pendingReqValid <;> cases s.waitingForResp <;> cases s.pendingRespValid <;> decide

theorem reqLeaves (leaves : (s.sysAHandshake i || s.hostAHandshake i) = true) : s.pendingReqValid = true := by
  simp only [Regs.sysAHandshake,Regs.hostAHandshake,Regs.sysMemAValid,Regs.hostMemAValid,Bool.or_eq_true,
    Bool.and_eq_true] at leaves
  exact leaves.elim (·.1.1) (·.1.1)

theorem respArrives (arrives : (s.sysDHandshake i || s.hostDHandshake i) = true) : s.waitingForResp = true := by
  simp only [Regs.sysDHandshake,Regs.hostDHandshake,Bool.or_eq_true,Bool.and_eq_true] at arrives
  exact arrives.elim (·.1.1.1) (·.1.1.1)

theorem heldNext (one : s.held ≤ 1) :
    (s.next i).held + (s.cpuDHandshake i).toNat = s.held + (s.cpuAHandshake i).toNat := by
  have leaves := reqLeaves (s := s) (i := i)
  have arrives := respArrives (s := s) (i := i)
  have accepts : s.cpuAHandshake i = true → s.held = 0 := fun accepted => by
    simp only [Regs.cpuAHandshake,Bool.and_eq_true] at accepted
    exact readyEmpty.mp accepted.2
  have gives : s.cpuDHandshake i = true → s.pendingRespValid = true := fun given => by
    simp only [Regs.cpuDHandshake,Bool.and_eq_true] at given
    exact given.1
  simp only [Regs.held,Regs.next] at *
  generalize (s.sysAHandshake i || s.hostAHandshake i) = left at *
  generalize (s.sysDHandshake i || s.hostDHandshake i) = arrived at *
  generalize s.cpuAHandshake i = accepted at *
  generalize s.cpuDHandshake i = given at *
  generalize s.pendingReqValid = req at *
  generalize s.waitingForResp = waiting at *
  generalize s.pendingRespValid = resp at *
  revert left arrived accepted given req waiting resp
  decide

end RiscvSoc.HostBusMux
