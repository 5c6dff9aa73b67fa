import RiscvSoc.Rtl.CpuResetWait
import RiscvSoc.Rtl.HostBusMux

/-! The CPU, its bus mux and the system controller, which resets the CPU without the mux. What the
mux carries the accesses to is free, and so is what reaches the controller. -/
namespace RiscvSoc.BusPairing
open Mealy Machine

/- `old`: the mux holds what the CPU asked before its last reset. -/
structure Soc where
  core : Core.Regs
  controller : SystemController.Regs
  mux : HostBusMux.Regs
  old : Bool

/- What the parts drive for one another is taken from the state. -/
structure Inputs where
  rst : Bool
  cpu : Core.Inputs
  controller : SystemController.Inputs
  bus : HostBusMux.Inputs
  deriving DecidableEq, Repr

def reset (h : Soc) : Soc :=
  ⟨Core.reset h.core,SystemController.reset h.controller,HostBusMux.reset h.mux,false⟩

namespace Soc
variable (h : Soc) (i : Inputs)

def controllerInputs : SystemController.Inputs :=
  {i.controller with
    cpuHalted := h.core.currentState == .halt
    cpuBooting := h.core.currentState == .boot}

def coreInputs : Core.Inputs :=
  {i.cpu with
    boot := h.controller.cpuBoot
    reqHalt := h.controller.reqCpuHalt
    bootAddr := h.controller.cpuBootAddr (h.controllerInputs i)
    memAReady := h.mux.cpuMemAReady
    memDRdata := h.mux.pendingRespRdata
    memDValid := h.mux.pendingRespValid}

def muxInputs : HostBusMux.Inputs :=
  let access := h.core.access (h.coreInputs i)
  {i.bus with
    cpuMemA := ⟨access.addr,access.wdata,access.we,access.size⟩
    cpuMemAValid := access.valid
    cpuMemDReady := h.core.memReqInflight}

def next (cfg : Core.Config) (cyclesPerUs : Nat) : Soc :=
  if i.rst then reset h
  else
    { core := if h.controller.cpuRst then Core.reset h.core else h.core.next cfg (h.coreInputs i)
      controller := h.controller.next (h.controllerInputs i) cyclesPerUs
      mux := h.mux.next (h.muxInputs i)
      old := (h.old || h.controller.cpuRst) && (h.mux.next (h.muxInputs i)).held != 0 }

end Soc

def soc (cfg : Core.Config) (cyclesPerUs : Nat) : Machine Soc Inputs Core.Outputs :=
  ⟨fun h i => h.core.outputs (h.coreInputs i),fun h i => h.next i cfg cyclesPerUs⟩

/- The mux holds one request or response when the CPU waits for a response, and nothing when it does
not; it takes the next request, and what it hands over was asked since the last reset. -/
structure Paired (h : Soc) : Prop where
  one : h.mux.held = if h.core.memReqInflight then 1 else 0
  accepts : h.core.memReqInflight = false → h.mux.cpuMemAReady = true
  fresh : h.old = false

/- The CPU is not reset while a response that it waits for has still to come. -/
def Soc.settled (h : Soc) (i : Inputs) : Bool :=
  i.rst || !h.controller.cpuRst || !h.core.memReqInflight || h.mux.pendingRespValid

/- The mux holds an access that the CPU does not know of. -/
structure Orphaned (h : Soc) : Prop where
  held : h.mux.held = 1
  unknown : h.core.memReqInflight = false

variable {cfg : Core.Config} {cyclesPerUs : Nat} {h : Soc} {i : Inputs}

structure Halted (h : Soc) : Prop where
  pulse : h.controller.cpuResetState = .pulse → h.core.currentState = .halt
  rst : h.controller.cpuRst = true → h.core.currentState = .halt
  once : h.controller.cpuRst = true → h.controller.cpuResetState = .waitBoot

theorem resetHalted (h : Soc) : Halted (reset h) where
  pulse state := by simp [reset,SystemController.reset] at state
  rst on := by simp [reset,SystemController.reset] at on
  once on := by simp [reset,SystemController.reset] at on

theorem runs (on : i.rst = false) : h.next i cfg cyclesPerUs =
    { core := if h.controller.cpuRst then Core.reset h.core else h.core.next cfg (h.coreInputs i)
      controller := h.controller.next (h.controllerInputs i) cyclesPerUs
      mux := h.mux.next (h.muxInputs i)
      old := (h.old || h.controller.cpuRst) && (h.mux.next (h.muxInputs i)).held != 0 } := by
  rw [Soc.next,on,if_neg Bool.false_ne_true]

theorem haltStays (state : h.core.currentState = .halt) : (h.core.next cfg (h.coreInputs i)).currentState = .halt := by
  simp [Core.Regs.nextState,state]

theorem haltedNext (halted : Halted h) (i : Inputs) : Halted (h.next i cfg cyclesPerUs) := by
  rcases Bool.eq_false_or_eq_true i.rst with again | on
  · rw [Soc.next,if_pos again]
    exact resetHalted h
  rw [runs on]
  have pulsed : (h.controller.next (h.controllerInputs i) cyclesPerUs).cpuRst = true →
      h.controller.cpuResetState = .pulse := fun rst => by simpa [SystemController.Regs.next] using rst
  have unreset : h.controller.cpuResetState ≠ .waitBoot → h.controller.cpuRst = false := fun other =>
    Bool.eq_false_iff.mpr fun rst => other (halted.once rst)
  refine ⟨fun state => ?_,fun rst => ?_,fun rst => ?_⟩
  · have waits : h.controller.cpuResetState = .waitHalt ∧ h.core.currentState = .halt := by
      cases before : h.controller.cpuResetState with
      | waitHalt => simpa [SystemController.Regs.next,before,Soc.controllerInputs] using state
      | idle =>
        simp only [SystemController.Regs.next,before] at state
        split at state <;> contradiction
      | pulse => simp [SystemController.Regs.next,before] at state
      | waitBoot =>
        simp only [SystemController.Regs.next,before] at state
        split at state <;> contradiction
    rw [unreset (by simp [waits.1]),if_neg Bool.false_ne_true]
    exact haltStays waits.2
  · have state := pulsed rst
    rw [unreset (by simp [state]),if_neg Bool.false_ne_true]
    exact haltStays (halted.pulse state)
  · have state := pulsed rst
    simp [SystemController.Regs.next,state]

theorem accepted (h : Soc) (i : Inputs) :
    h.mux.cpuAHandshake (h.muxInputs i) = h.core.memAHandshake (h.coreInputs i) := rfl

theorem given (h : Soc) (i : Inputs) : h.mux.cpuDHandshake (h.muxInputs i) = h.core.memDHandshake (h.coreInputs i) := rfl

theorem haltedAsks (state : h.core.currentState = .halt) : h.core.memAHandshake (h.coreInputs i) = false := by
  simp [Core.Regs.memAHandshake,Core.Regs.access,Core.Regs.imemReq,Core.Regs.dmemReq,state]

theorem resetPaired (h : Soc) : Paired (reset h) := ⟨rfl,fun _ => rfl,rfl⟩

theorem balance (paired : Paired h) (i : Inputs) :
    (h.mux.next (h.muxInputs i)).held + (h.core.memDHandshake (h.coreInputs i)).toNat =
      (if h.core.memReqInflight then 1 else 0) + (h.core.memAHandshake (h.coreInputs i)).toNat := by
  have one : h.mux.held ≤ 1 := by
    rw [paired.one]
    split <;> decide
  have kept := HostBusMux.heldNext (i := h.muxInputs i) one
  rwa [accepted,given,paired.one] at kept

theorem pairedFrom {h : Soc} (one : h.mux.held = if h.core.memReqInflight then 1 else 0) (fresh : h.old = false) : Paired h where
  one := one
  accepts idle := HostBusMux.readyEmpty.mpr (by rw [one,idle]; rfl)
  fresh := fresh

theorem idleUnanswered (idle : h.core.memReqInflight = false) : h.core.memDHandshake (h.coreInputs i) = false := by
  simp [Core.Regs.memDHandshake,idle]

theorem waitingAsks (waits : h.core.memReqInflight = true) : h.core.memAHandshake (h.coreInputs i) = false :=
  Bool.eq_false_iff.mpr fun shakes => by
    rw [(Core.handshaken shakes).1] at waits
    contradiction

theorem oneNext (paired : Paired h) (i : Inputs) : (h.mux.next (h.muxInputs i)).held =
    if (h.core.next cfg (h.coreInputs i)).memReqInflight then 1 else 0 := by
  have kept := balance paired i
  rw [Core.inflightNext]
  cases waits : h.core.memReqInflight with
  | true =>
    rw [waits,waitingAsks waits] at kept
    cases answered : h.core.memDHandshake (h.coreInputs i) <;> simp_all
  | false =>
    rw [waits,idleUnanswered waits] at kept
    rw [idleUnanswered waits]
    cases asks : h.core.memAHandshake (h.coreInputs i) <;> simp_all

theorem resetHeld (halted : Halted h) (paired : Paired h) (on : i.rst = false) (rst : h.controller.cpuRst = true) :
    (h.mux.next (h.muxInputs i)).held = if h.settled i then 0 else 1 := by
  have kept := balance paired i
  rw [haltedAsks (halted.rst rst)] at kept
  rw [Soc.settled,on,rst]
  cases waits : h.core.memReqInflight with
  | false =>
    rw [waits,idleUnanswered waits] at kept
    simpa using kept
  | true =>
    have answered : h.core.memDHandshake (h.coreInputs i) = h.mux.pendingRespValid := by
      simp [Core.Regs.memDHandshake,Soc.coreInputs,waits]
    rw [waits,answered] at kept
    cases here : h.mux.pendingRespValid <;> simp_all

theorem pairedNext (halted : Halted h) (paired : Paired h) (settled : h.settled i = true) :
    Paired (h.next i cfg cyclesPerUs) := by
  rcases Bool.eq_false_or_eq_true i.rst with again | on
  · rw [Soc.next,if_pos again]
    exact resetPaired h
  rw [runs on]
  cases rst : h.controller.cpuRst with
  | true =>
    have empty := resetHeld halted paired on rst
    rw [settled,if_pos rfl] at empty
    apply pairedFrom
    · exact empty
    · simp [empty]
  | false =>
    apply pairedFrom
    · exact oneNext paired i
    · simp [paired.fresh]

theorem orphanedNext (halted : Halted h) (paired : Paired h) (unsettled : h.settled i = false) :
    Orphaned (h.next i cfg cyclesPerUs) := by
  simp only [Soc.settled,Bool.or_eq_false_iff,Bool.not_eq_false'] at unsettled
  obtain ⟨⟨⟨on,rst⟩,waits⟩,absent⟩ := unsettled
  have left := resetHeld halted paired on rst
  rw [Soc.settled,on,rst,waits,absent] at left
  rw [runs on]
  refine ⟨left,?_⟩
  simp [rst,Core.reset]

theorem orphanUnpaired (orphaned : Orphaned h) : ¬ Paired h := fun paired => by
  have one := paired.one
  rw [orphaned.held,orphaned.unknown] at one
  contradiction

theorem orphanStays (orphaned : Orphaned h) (on : i.rst = false) : Orphaned (h.next i cfg cyclesPerUs) := by
  have full : h.mux.cpuMemAReady = false := Bool.eq_false_iff.mpr fun ready => by
    rw [HostBusMux.readyEmpty,orphaned.held] at ready
    contradiction
  have asks : h.core.memAHandshake (h.coreInputs i) = false := by
    simp [Core.Regs.memAHandshake,Soc.coreInputs,full]
  have kept := HostBusMux.heldNext (i := h.muxInputs i) (Nat.le_of_eq orphaned.held)
  rw [accepted,given,asks,idleUnanswered orphaned.unknown,orphaned.held] at kept
  rw [runs on]
  refine ⟨kept,?_⟩
  cases h.controller.cpuRst with
  | true => rfl
  | false =>
    have idle := orphaned.unknown
    simp [idle,asks]

/- In every state of a run the CPU and the mux agree if and only if the CPU is never reset while a
response has still to come. After such a reset the mux holds its access until it is reset itself. -/
theorem pairingSurvives (cfg : Core.Config) (cyclesPerUs : Nat) (h : Soc) (inputs : List Inputs) :
    Paired (reset h) ∧
    ((soc cfg cyclesPerUs).Steps (fun h i => Paired (h.next i cfg cyclesPerUs)) (reset h) inputs ↔
      (soc cfg cyclesPerUs).Steps (fun h i => h.settled i = true) (reset h) inputs) ∧
    (soc cfg cyclesPerUs).Steps (fun h i => Orphaned h → i.rst = false → Orphaned (h.next i cfg cyclesPerUs)) (reset h)
      inputs := by
  refine ⟨resetPaired h,⟨?_,?_⟩,?_⟩
  · refine stepsAll (fun s i (p : Halted s ∧ Paired s) later => ⟨⟨haltedNext p.1 i,later⟩,?_⟩) ⟨resetHalted h,resetPaired h⟩
    by_contra unsettled
    exact orphanUnpaired (orphanedNext p.1 p.2 (Bool.eq_false_iff.mpr unsettled)) later
  · refine stepsAll (fun s i (p : Halted s ∧ Paired s) settled => ?_) ⟨resetHalted h,resetPaired h⟩
    have next : Paired (s.next i cfg cyclesPerUs) := pairedNext p.1 p.2 settled
    exact ⟨⟨haltedNext p.1 i,next⟩,next⟩
  · have always : (soc cfg cyclesPerUs).Steps (fun _ _ => True) (reset h) inputs := fun _ _ => trivial
    exact stepsAll (fun s i (_ : True) _ => ⟨trivial,fun orphaned on => orphanStays orphaned on⟩) trivial always

/- The host boots the CPU and asks for a reset of it, and the external memory has not answered yet. -/
def hurried : Inputs where
  rst := false
  cpu := Core.respond (Core.program []) default
  controller := {(default : SystemController.Inputs) with
    memAAddr := 0x20000004
    memAWdata := 1
    memAWe := true
    memASize := 0b10
    memAValid := true
    memDReady := true
    extCpuBoot := true
    extCpuBootAddr := 0x80000000}
  bus := {(default : HostBusMux.Inputs) with hostMemAReady := true}

def unbooted : Soc := reset ⟨default,default,default,false⟩

/- The fetch that the reset CPU has forgotten blocks the mux. -/
theorem fetchOrphaned :
    Orphaned ((soc ⟨true,true⟩ 1).final unbooted (List.replicate 20 hurried)) ∧
    ¬ (soc ⟨true,true⟩ 1).Steps (fun h i => Paired (h.next i ⟨true,true⟩ 1)) unbooted (List.replicate 20 hurried) := by
  have orphaned : Orphaned ((soc ⟨true,true⟩ 1).final unbooted (List.replicate 20 hurried)) :=
    ⟨by decide +kernel,by decide +kernel⟩
  refine ⟨orphaned,fun steps => ?_⟩
  exact orphanUnpaired orphaned (stepsInvariant (fun s i (_ : Paired s) next => next) (resetPaired _) steps)

end RiscvSoc.BusPairing
