/-! `reset_controller.sv`, and the RESET register of `system_controller_peripheral.sv` in front of it. -/
namespace RiscvSoc

/- `reset_complete` stops the counter, so it never leaves its width. -/
structure ResetController where
  counter : Nat
  rstOut : Bool
  deriving DecidableEq, Repr

def ResetController.complete (cycles : Nat) (s : ResetController) : Bool := decide (cycles ≤ s.counter)

def ResetController.edge (cycles : Nat) (s : ResetController) (rstIn : Bool) : ResetController :=
  if rstIn then ⟨0,true⟩
  else ⟨if s.complete cycles then s.counter else s.counter + 1,!s.complete cycles⟩

namespace SystemReset

/- The external reset stays low while the system runs. -/
structure Regs extends ResetController where
  sysResetPending : Bool
  sysRst : Bool
  deriving DecidableEq, Repr

structure Write where
  addr : BitVec 32
  wdata : BitVec 32
  deriving DecidableEq, Repr

def regReset : BitVec 6 := 0x04

/- Bit 0 set asks for a reset of the CPU alone. -/
def Write.resets (w : Write) : Bool := w.addr.extractLsb' 0 6 == regReset && !w.wdata.getLsbD 0

def Regs.running (resetCycles : Nat) : Regs := ⟨⟨resetCycles,false⟩,false,false⟩

def step (resetCycles : Nat) (s : Regs) (write : Option Write) : Regs where
  toResetController := s.toResetController.edge resetCycles s.sysRst
  sysResetPending := if s.rstOut then false else write.any Write.resets
  sysRst := if s.rstOut then false else s.sysResetPending

end SystemReset
end RiscvSoc
