import RiscvSoc.Rtl.Cpu.Reservation
import RiscvSoc.Rtl.SystemController

/-! The CPU, the system controller and the bus between them. The bus takes any time for the accesses
and for the responses, and it carries the accesses of the host. -/
namespace RiscvSoc.ResetWait
open Mealy Machine

inductive Requester where
  | host
  | cpu
  deriving DecidableEq, Repr

inductive Stage where
  | travelling
  | taken
  | answered (data : BitVec 32)
  deriving DecidableEq, Repr

/- What the bus puts on the address channel of the system controller. -/
inductive Offer where
  | nothing
  | host (access : Core.Access)
  | cpu
  deriving DecidableEq, Repr

/- `flight` is the access whose response the CPU waits for; an access that it no longer waits for is
one of the host's. `stale`: the CPU has been reset, and responses to what it asked before may still
come. `cause` has made the last write that asked for a CPU reset. -/
structure Soc where
  core : Core.Regs
  controller : SystemController.Regs
  flight : Option (Core.Access × Stage)
  stale : Bool
  cause : Option Requester

/- `cpu` holds what the rest of the system drives; what comes from the controller or by the bus is
taken from the state. -/
structure Inputs where
  rst : Bool
  cpu : Core.Inputs
  offer : Offer
  memDReady : Bool
  returns : Bool
  returnsStale : Bool
  extCpuBoot : Bool
  extCpuBootAddr : BitVec 32
  deriving DecidableEq, Repr

def reset (h : Soc) : Soc := ⟨Core.reset h.core,SystemController.reset h.controller,none,false,none⟩

namespace Soc
variable (h : Soc) (i : Inputs)

/- The access that is offered to the controller, and its requester. -/
def offered : Option (Requester × Core.Access) :=
  match i.offer with
  | .nothing => none
  | .host access => some (.host,access)
  | .cpu => match h.flight with
    | some (access,.travelling) => some (.cpu,access)
    | _ => none

def controllerInputs : SystemController.Inputs where
  memAAddr := (h.offered i).elim 0 (·.2.addr)
  memAWdata := (h.offered i).elim 0 (·.2.wdata)
  memAWe := (h.offered i).elim false (·.2.we)
  memASize := (h.offered i).elim 0 (·.2.size)
  memAValid := (h.offered i).isSome
  memDReady := i.memDReady
  extCpuBoot := i.extCpuBoot
  extCpuBootAddr := i.extCpuBootAddr
  cpuHalted := h.core.currentState == .halt
  cpuBooting := h.core.currentState == .boot
  cpuPc := if h.core.currentState = .boot ∨ h.core.currentState = .fetch ∨ h.core.currentState = .decode then h.core.pc
    else h.core.instrPcReg
  cpuInstr := h.core.irReg

def takes : Bool := (h.offered i).any (·.1 == .cpu) && h.controller.memAHandshake (h.controllerInputs i)

/- The response for the CPU. An access that has not come to the controller may be answered elsewhere. -/
def returned : Option (BitVec 32) :=
  if h.stale && i.returnsStale then some i.cpu.memDRdata
  else match h.flight with
    | some (_,.travelling) => if i.returns && !h.takes i then some i.cpu.memDRdata else none
    | some (_,.answered data) => if i.returns then some data else none
    | _ => none

def coreInputs : Core.Inputs :=
  {i.cpu with
    boot := h.controller.cpuBoot
    reqHalt := h.controller.reqCpuHalt
    bootAddr := h.controller.cpuBootAddr (h.controllerInputs i)
    memDRdata := (h.returned i).getD i.cpu.memDRdata
    memDValid := (h.returned i).isSome}

def stageNext : Stage → Stage
  | .travelling => if h.takes i then .taken else .travelling
  | .taken => if h.controller.memDHandshake (h.controllerInputs i) then .answered h.controller.responseData else .taken
  | .answered data => .answered data

def flightNext : Option (Core.Access × Stage) :=
  if h.controller.cpuRst || h.core.memDHandshake (h.coreInputs i) then none
  else if h.core.memAHandshake (h.coreInputs i) then some (h.core.access (h.coreInputs i),.travelling)
  else h.flight.map fun (access,stage) => (access,h.stageNext i stage)

def next (cfg : Core.Config) (cyclesPerUs : Nat) : Soc :=
  if i.rst then reset h
  else
    { core := if h.controller.cpuRst then Core.reset h.core else h.core.next cfg (h.coreInputs i)
      controller := h.controller.next (h.controllerInputs i) cyclesPerUs
      flight := h.flightNext i
      stale := h.stale || h.controller.cpuRst
      cause :=
        if h.controller.cpuResetWritten (h.controllerInputs i) then (h.offered i).map (·.1) else h.cause }

end Soc

def soc (cfg : Core.Config) (cyclesPerUs : Nat) : Machine Soc Inputs Core.Outputs :=
  ⟨fun h i => h.core.outputs (h.coreInputs i),fun h i => h.next i cfg cyclesPerUs⟩

/- The controller waits for the CPU to halt, and the CPU for the response to the write that made it
wait. -/
structure Circular (h : Soc) : Prop where
  waitsForHalt : h.controller.cpuResetState = .waitHalt
  waitsForResponse : h.core.memReqInflight = true
  own : ∃ access, h.flight = some (access,.taken)
  cause : h.cause = some .cpu

/- The controller takes a write to RESET with bit 0 set from the CPU, which goes on waiting. -/
def Soc.asksOwn (h : Soc) (i : Inputs) : Bool :=
  !i.rst && h.takes i && h.controller.cpuResetWritten (h.controllerInputs i) && !(h.stale && i.returnsStale)

variable {cfg : Core.Config} {cyclesPerUs : Nat} {h : Soc} {i : Inputs}

structure Placed (cfg : Core.Config) (h : Soc) : Prop where
  waits : ∀ x, h.flight = some x → h.core.memReqInflight = true
  resets : h.controller.cpuRst = true → h.controller.cpuResetState = .waitBoot
  quiet : h.controller.cpuResetState = .waitHalt → h.controller.responsePending = false
  writes : ∀ access stage, h.flight = some (access,stage) → access.we = true →
    h.core.currentState = .memWrite ∨ h.core.currentState = .atomicRmw
  asked : Circular h → ∀ access stage, h.flight = some (access,stage) → access.we = true

theorem resetPlaced (h : Soc) : Placed cfg (reset h) where
  waits x flies := by simp [reset] at flies
  resets rst := by simp [reset,SystemController.reset] at rst
  quiet waits := by simp [reset,SystemController.reset] at waits
  writes access stage flies := by simp [reset] at flies
  asked circular := by
    have waits := circular.waitsForHalt
    simp [reset,SystemController.reset] at waits

theorem taken (takes : h.takes i = true) : ∃ access, h.flight = some (access,.travelling) ∧
    h.offered i = some (.cpu,access) ∧ h.controller.memAHandshake (h.controllerInputs i) = true := by
  simp only [Soc.takes,Bool.and_eq_true] at takes
  obtain ⟨own,shakes⟩ := takes
  have offer := own
  rw [Soc.offered] at offer ⊢
  split at offer
  · simp at offer
  · simp at offer
  · split at offer
    · rename_i access flies
      exact ⟨access,flies,rfl,shakes⟩
    · simp at offer

theorem flies {access : Core.Access} {stage : Stage} (flight : h.flightNext i = some (access,stage)) :
    h.controller.cpuRst = false ∧ h.core.memDHandshake (h.coreInputs i) = false ∧
      (h.core.memAHandshake (h.coreInputs i) = true ∧ access = h.core.access (h.coreInputs i) ∧ stage = .travelling ∨
        ∃ before, h.flight = some (access,before) ∧ h.stageNext i before = stage) := by
  rw [Soc.flightNext] at flight
  split at flight
  · contradiction
  · rename_i still
    simp only [Bool.or_eq_true,not_or,Bool.not_eq_true] at still
    refine ⟨still.1,still.2,?_⟩
    split at flight
    · rename_i asks
      have same := Option.some.inj flight
      rw [Prod.mk.injEq] at same
      exact .inl ⟨asks,same.1.symm,same.2.symm⟩
    · rw [Option.map_eq_some_iff] at flight
      obtain ⟨⟨before,stage'⟩,flies,same⟩ := flight
      rw [Prod.mk.injEq] at same
      rw [same.1] at flies
      exact .inr ⟨stage',flies,same.2⟩

theorem runs (on : i.rst = false) : h.next i cfg cyclesPerUs =
    { core := if h.controller.cpuRst then Core.reset h.core else h.core.next cfg (h.coreInputs i)
      controller := h.controller.next (h.controllerInputs i) cyclesPerUs
      flight := h.flightNext i
      stale := h.stale || h.controller.cpuRst
      cause := if h.controller.cpuResetWritten (h.controllerInputs i) then (h.offered i).map (·.1) else h.cause } := by
  rw [Soc.next,on,if_neg Bool.false_ne_true]

theorem writtenIdle {c : SystemController.Regs} {j : SystemController.Inputs} (written : c.cpuResetWritten j = true) :
    c.cpuResetState = .idle ∧ c.memAHandshake j = true ∧ j.memAWe = true := by
  simp only [SystemController.Regs.cpuResetWritten,SystemController.Regs.written,Bool.and_eq_true] at written
  have shakes := written.1.1.1
  simp only [SystemController.Regs.memAHandshake,SystemController.Regs.memAReady,Bool.and_eq_true,beq_iff_eq] at shakes
  exact ⟨shakes.2.2,written.1.1.1,written.1.1.2⟩

theorem asksCircular (p : Placed cfg h) (asks : h.asksOwn i = true) : Circular (h.next i cfg cyclesPerUs) := by
  simp only [Soc.asksOwn,Bool.and_eq_true,Bool.not_eq_true'] at asks
  obtain ⟨⟨⟨on,takes⟩,written⟩,fresh⟩ := asks
  obtain ⟨access,flight,offer,_⟩ := taken takes
  obtain ⟨idle,_,_⟩ := writtenIdle written
  have waits := p.waits _ flight
  have still : h.controller.cpuRst = false := by
    rcases Bool.eq_false_or_eq_true h.controller.cpuRst with rst | still
    · have waitBoot := p.resets rst
      rw [idle] at waitBoot
      contradiction
    · exact still
  have absent : h.core.memDHandshake (h.coreInputs i) = false := by
    simp [Core.Regs.memDHandshake,Soc.coreInputs,Soc.returned,fresh,flight,takes]
  have quiet : h.core.memAHandshake (h.coreInputs i) = false := by
    rcases Bool.eq_false_or_eq_true (h.core.memAHandshake (h.coreInputs i)) with shakes | quiet
    · rw [(Core.handshaken shakes).1] at waits
      contradiction
    · exact quiet
  rw [runs on]
  refine ⟨?_,?_,⟨access,?_⟩,?_⟩
  · simp [SystemController.Regs.next,idle,written]
  · simp [still,waits,absent]
  · simp [Soc.flightNext,still,absent,quiet,flight,Soc.stageNext,takes]
  · simp [written,offer]

theorem circularFrom (p : Placed cfg h) (circular : Circular (h.next i cfg cyclesPerUs)) : h.asksOwn i = true ∨ Circular h := by
  rcases Bool.eq_false_or_eq_true i.rst with again | on
  · have waits := circular.waitsForHalt
    simp [Soc.next,again,reset,SystemController.reset] at waits
  obtain ⟨halts,_,⟨access,flight⟩,cause⟩ := circular
  rw [runs on] at halts flight cause
  obtain ⟨still,absent,new | ⟨before,flight',stage⟩⟩ := flies flight
  · simp at new
  have waits := p.waits _ flight'
  rcases Bool.eq_false_or_eq_true (h.controller.cpuResetWritten (h.controllerInputs i)) with written | other
  · left
    simp only [written,if_true] at cause
    have takes : h.takes i = true := by
      rw [Option.map_eq_some_iff] at cause
      obtain ⟨x,offer,cpu⟩ := cause
      simp [Soc.takes,offer,cpu,(writtenIdle written).2.1]
    have fresh : (h.stale && i.returnsStale) = false := by
      rcases Bool.eq_false_or_eq_true (h.stale && i.returnsStale) with comes | fresh
      · simp [Core.Regs.memDHandshake,Soc.coreInputs,Soc.returned,comes,waits] at absent
      · exact fresh
    rw [Soc.asksOwn,on,takes,written,fresh]
    rfl
  · right
    rw [other,if_neg Bool.false_ne_true] at cause
    have waitHalt : h.controller.cpuResetState = .waitHalt := by
      cases state : h.controller.cpuResetState with
      | waitHalt => rfl
      | idle => simp [SystemController.Regs.next,state,other] at halts
      | pulse => simp [SystemController.Regs.next,state] at halts
      | waitBoot =>
        simp only [SystemController.Regs.next,state] at halts
        split at halts <;> contradiction
    have untaken : h.takes i = false := by
      simp [Soc.takes,SystemController.Regs.memAHandshake,SystemController.Regs.memAReady,waitHalt]
    refine ⟨waitHalt,waits,⟨access,?_⟩,cause⟩
    cases before with
    | travelling => simp [Soc.stageNext,untaken] at stage
    | taken => exact flight'
    | answered data => simp [Soc.stageNext] at stage

theorem stillHalting (p : Placed cfg h) (waits : h.controller.cpuResetState = .waitHalt) : h.controller.cpuRst = false := by
  rcases Bool.eq_false_or_eq_true h.controller.cpuRst with rst | still
  · have waitBoot := p.resets rst
    rw [waits] at waitBoot
    contradiction
  · exact still

theorem circularStays (p : Placed cfg h) (circular : Circular h) (on : i.rst = false)
    (fresh : (h.stale && i.returnsStale) = false) : Circular (h.next i cfg cyclesPerUs) := by
  have asked := p.asked circular
  obtain ⟨halts,waits,⟨access,flight⟩,cause⟩ := circular
  have state := p.writes _ _ flight (asked _ _ flight)
  have runsOn : h.core.currentState ≠ .halt := by rcases state with state | state <;> simp [state]
  have still := stillHalting p halts
  have untaken : h.controller.memAHandshake (h.controllerInputs i) = false := by
    simp [SystemController.Regs.memAHandshake,SystemController.Regs.memAReady,halts]
  have absent : h.core.memDHandshake (h.coreInputs i) = false := by
    simp [Core.Regs.memDHandshake,Soc.coreInputs,Soc.returned,fresh,flight]
  have quiet : h.core.memAHandshake (h.coreInputs i) = false := by
    rcases Bool.eq_false_or_eq_true (h.core.memAHandshake (h.coreInputs i)) with shakes | quiet
    · rw [(Core.handshaken shakes).1] at waits
      contradiction
    · exact quiet
  rw [runs on]
  refine ⟨?_,?_,⟨access,?_⟩,?_⟩
  · simp [SystemController.Regs.next,halts,Soc.controllerInputs,runsOn]
  · simp [still,waits,absent]
  · simp [Soc.flightNext,still,absent,quiet,flight,Soc.stageNext,SystemController.Regs.memDHandshake,p.quiet halts]
  · simp [SystemController.Regs.cpuResetWritten,SystemController.Regs.written,untaken,cause]

theorem quietNext (p : Placed cfg h) (j : SystemController.Inputs)
    (halts : (h.controller.next j cyclesPerUs).cpuResetState = .waitHalt) :
    (h.controller.next j cyclesPerUs).responsePending = false := by
  cases state : h.controller.cpuResetState with
  | idle =>
    have written : h.controller.cpuResetWritten j = true := by
      simp only [SystemController.Regs.next,state] at halts
      split at halts
      · assumption
      · contradiction
    have shakes := (writtenIdle written).2.1
    have empty : h.controller.responsePending = false := by
      simp only [SystemController.Regs.memAHandshake,SystemController.Regs.memAReady,Bool.and_eq_true,Bool.not_eq_true'] at shakes
      exact shakes.2.1
    simp [SystemController.Regs.next,state,written,empty]
  | waitHalt =>
    simp [SystemController.Regs.next,SystemController.Regs.memAHandshake,SystemController.Regs.memAReady,state,p.quiet state]
  | pulse => simp [SystemController.Regs.next,state] at halts
  | waitBoot =>
    simp only [SystemController.Regs.next,state] at halts
    split at halts <;> contradiction

theorem writesNext (p : Placed cfg h) {access : Core.Access} {stage : Stage} (flight : h.flightNext i = some (access,stage))
    (we : access.we = true) :
    (h.core.next cfg (h.coreInputs i)).currentState = .memWrite ∨ (h.core.next cfg (h.coreInputs i)).currentState = .atomicRmw := by
  obtain ⟨_,absent,new⟩ := flies flight
  have here : h.core.currentState = .memWrite ∨ h.core.currentState = .atomicRmw := by
    rcases new with ⟨shakes,same,_⟩ | ⟨before,flight',_⟩
    · rw [same,Core.Regs.access] at we
      rcases (Core.handshaken shakes).2 with fetches | ⟨data,asks⟩
      · simp [fetches] at we
      · rw [data,asks] at we
        simp only [Bool.false_eq_true,if_false,if_true,Core.Regs.dmemWe,Bool.and_eq_true,Bool.or_eq_true,beq_iff_eq] at we
        exact we.1.2
    · exact p.writes _ _ flight' we
  have same := Core.askedStays (i := h.coreInputs i) (.inr here) absent
  rw [Core.stateNext,same]
  exact here

theorem placedNext (p : Placed cfg h) (i : Inputs) : Placed cfg (h.next i cfg cyclesPerUs) := by
  rcases Bool.eq_false_or_eq_true i.rst with again | on
  · rw [Soc.next,if_pos again]
    exact resetPlaced h
  have circularBefore : Circular (h.next i cfg cyclesPerUs) → h.asksOwn i = true ∨ Circular h := circularFrom p
  rw [runs on] at circularBefore ⊢
  constructor
  · intro x flight
    obtain ⟨access,stage⟩ := x
    obtain ⟨still,absent,new⟩ := flies flight
    have asked : h.core.memReqInflight = true ∨ h.core.memAHandshake (h.coreInputs i) = true := by
      rcases new with ⟨shakes,_⟩ | ⟨_,flight',_⟩
      · exact .inr shakes
      · exact .inl (p.waits _ flight')
    rw [still,if_neg Bool.false_ne_true,Core.inflightNext,absent]
    simpa using asked
  · intro rst
    have state : h.controller.cpuResetState = .pulse := by simpa [SystemController.Regs.next] using rst
    simp [SystemController.Regs.next,state]
  · exact quietNext p _
  · intro access stage flight we
    rw [(flies flight).1,if_neg Bool.false_ne_true]
    exact writesNext p flight we
  · intro circular access stage flight
    obtain ⟨_,_,new⟩ := flies flight
    rcases circularBefore circular with asks | before
    · simp only [Soc.asksOwn,Bool.and_eq_true,Bool.not_eq_true'] at asks
      obtain ⟨own,flight',offer,_⟩ := taken asks.1.1.2
      have we := (writtenIdle asks.1.2).2.2
      rcases new with ⟨shakes,_⟩ | ⟨_,here,_⟩
      · have waits := p.waits _ flight'
        rw [(Core.handshaken shakes).1] at waits
        contradiction
      · rw [flight'] at here
        have same := (Prod.mk.injEq .. ▸ Option.some.inj here).1
        rw [← same]
        simpa [Soc.controllerInputs,offer] using we
    · obtain ⟨own,flight'⟩ := before.own
      rcases new with ⟨shakes,_⟩ | ⟨_,here,_⟩
      · have waits := before.waitsForResponse
        rw [(Core.handshaken shakes).1] at waits
        contradiction
      · exact p.asked before _ _ here

/- In no state of a run do the controller and the CPU wait for each other if and only if the
controller takes no such write from a waiting CPU. After one they wait for ever. -/
theorem resetWaits (cfg : Core.Config) (cyclesPerUs : Nat) (h : Soc) (inputs : List Inputs) :
    ((soc cfg cyclesPerUs).Steps (fun h i => ¬ Circular (h.next i cfg cyclesPerUs)) (reset h) inputs ↔
      (soc cfg cyclesPerUs).Steps (fun h i => h.asksOwn i = false) (reset h) inputs) ∧
    (soc cfg cyclesPerUs).Steps (fun h i => Circular h → i.rst = false → (h.stale && i.returnsStale) = false →
      Circular (h.next i cfg cyclesPerUs)) (reset h) inputs := by
  refine ⟨⟨?_,?_⟩,?_⟩
  · refine stepsAll (fun s i (p : Placed cfg s) free => ⟨placedNext p i,?_⟩) (resetPlaced h)
    exact Bool.eq_false_iff.mpr fun asks => free (asksCircular p asks)
  · have start : Placed cfg (reset h) ∧ ¬ Circular (reset h) := by
      refine ⟨resetPlaced h,fun circular => ?_⟩
      have waits := circular.waitsForHalt
      simp [reset,SystemController.reset] at waits
    refine stepsAll (fun s i (p : Placed cfg s ∧ ¬ Circular s) quiet => ?_) start
    have free : ¬ Circular (s.next i cfg cyclesPerUs) := fun circular => by
      rcases circularFrom p.1 circular with asks | before
      · rw [quiet] at asks
        contradiction
      · exact p.2 before
    exact ⟨⟨placedNext p.1 i,free⟩,free⟩
  · have always : (soc cfg cyclesPerUs).Steps (fun _ _ => True) (reset h) inputs := fun _ _ => trivial
    exact stepsAll (fun s i (p : Placed cfg s) _ => ⟨placedNext p i,fun circular on fresh => circularStays p circular on fresh⟩)
      (resetPlaced h) always

def forward (code : Core.Code) (h : Soc) : Inputs where
  rst := false
  cpu := Core.respond code h.core
  offer := if h.core.currentState = .memWrite then .cpu else .nothing
  memDReady := true
  returns := true
  returnsStale := false
  extCpuBoot := true
  extCpuBootAddr := 0

def forwards (cfg : Core.Config) (code : Core.Code) : Nat → Soc → List Inputs
  | 0, _ => []
  | n + 1, h => forward code h :: forwards cfg code n (h.next (forward code h) cfg 1)

def selfReset : Soc :=
  reset ⟨{(default : Core.Regs) with bankA := ⟨fun _ => 0x20000004,0,0⟩, bankB := ⟨fun _ => 1,0,0⟩},default,none,false,none⟩

theorem selfResetWaits :
    let inputs := forwards ⟨true,true⟩ (Core.program [0x0020A023]) 40 selfReset
    Circular ((soc ⟨true,true⟩ 1).final selfReset (inputs.take 12)) ∧ Circular ((soc ⟨true,true⟩ 1).final selfReset inputs) ∧
      ¬ (soc ⟨true,true⟩ 1).Steps (fun h i => h.asksOwn i = false) selfReset inputs :=
  ⟨⟨by decide +kernel,by decide +kernel,⟨⟨0x20000004,1,true,0b10,true⟩,by decide +kernel⟩,by decide +kernel⟩,
    ⟨by decide +kernel,by decide +kernel,⟨⟨0x20000004,1,true,0b10,true⟩,by decide +kernel⟩,by decide +kernel⟩,
    by decide +kernel⟩

end RiscvSoc.ResetWait
