import RiscvSoc.Rtl.BusCdcTransactions
import RiscvSoc.Rtl.SystemReset

/-! The synchroniser that carries the output of the reset controller into the peripheral clock, and
the bridge both halves of which are reset by the two. -/
namespace RiscvSoc.BusCdc
open Mealy Machine
open ClockCrossing

/- The peripheral edge also samples the reset line, which may be changing. -/
structure PeriphEdge (aw dw sw : Nat) extends PeriphInputs aw dw sw where
  rstNew : Bool

namespace Resettable
variable {aw dw sw : Nat}

structure System (aw dw sw : Nat) where
  controller : ResetController
  resetSync : List Bool
  bridge : Regs aw dw sw

abbrev Inputs (aw dw sw : Nat) := Edges (SysInputs aw dw sw) (PeriphEdge aw dw sw)

variable (cycles : Nat) (rstIn : Bool) (s : System aw dw sw) (e : Inputs aw dw sw)

/- `sys_rst` is `rst_out`; `periph_rst` is low once the synchroniser shows it low. -/
def lines : Lines := ⟨s.controller.rstOut,!CdcHandshake.dout s.resetSync⟩

def nextController : ResetController := match e.src with
  | some _ => s.controller.edge cycles rstIn
  | none => s.controller

def nextSync : List Bool := match e.dst with
  | some i => shift (if i.rstNew then !(nextController cycles rstIn s e).rstOut else !s.controller.rstOut) s.resetSync
  | none => s.resetSync

def bridgeEdges (e : Inputs aw dw sw) : Edges (SysInputs aw dw sw) (PeriphInputs aw dw sw) where
  src := e.src
  dst := e.dst.map PeriphEdge.toPeriphInputs

def step : System aw dw sw where
  controller := nextController cycles rstIn s e
  resetSync := nextSync cycles rstIn s e
  bridge := BusCdc.step (lines s) s.bridge (bridgeEdges e)

/- The system while the reset request is low. -/
def machine : Machine (System aw dw sw) (Inputs aw dw sw) Unit where
  output _ _ := ()
  next s e := step cycles false s e

def sysAAt := sysA (lines s) s.bridge (bridgeEdges e)
def periphAAt := periphA (lines s) s.bridge (bridgeEdges e)
def periphDAt := periphD (lines s) s.bridge (bridgeEdges e)
def sysDAt := sysD (lines s) s.bridge (bridgeEdges e)

/- The moments of a reset pulse: `rst_out` is high at each of them, and low after the last. -/
def Pulse (inputs : List (Inputs aw dw sw)) : Prop :=
  (machine cycles).Steps (fun s _ => s.controller.rstOut = true) s inputs ∧
    ((machine cycles).final s inputs).controller.rstOut = false

instance (inputs : List (Inputs aw dw sw)) : Decidable (Pulse cycles s inputs) := inferInstanceAs (Decidable (_ ∧ _))

def sysEdges (inputs : List (Inputs aw dw sw)) : Nat := inputs.countP fun e => e.src.isSome
def periphEdges (inputs : List (Inputs aw dw sw)) : Nat := inputs.countP fun e => e.dst.isSome

def Built (n : Nat) : Prop :=
  s.resetSync.length = n ∧ CdcHandshake.Stages n s.bridge.a.cdc ∧ CdcHandshake.Stages n s.bridge.d.cdc

instance (n : Nat) : Decidable (Built s n) := inferInstanceAs (Decidable (_ ∧ _))

end Resettable
end RiscvSoc.BusCdc
