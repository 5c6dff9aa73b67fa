import RiscvSoc.Lib.Mealy
import RiscvSoc.Rtl.SystemReset

/-! `system_controller_peripheral.sv`. `CYCLES_PER_US` is `cyclesPerUs`. -/
namespace RiscvSoc.SystemController
open Mealy

abbrev Offset := BitVec 6

def regStatus : Offset := 0x00
def regReset : Offset := 0x04
def regBoot : Offset := 0x08
def regHalt : Offset := 0x0C
def regLedOut : Offset := 0x10
def regElapsedUs : Offset := 0x14
def regElapsedMs : Offset := 0x18
def regElapsedS : Offset := 0x1C
def regCpuPc : Offset := 0x20
def regCpuInstr : Offset := 0x24

inductive CpuReset where
  | idle
  | waitHalt
  | pulse
  | waitBoot
  deriving DecidableEq, Repr, Inhabited

structure Elapsed where
  cycleCounter : Nat
  usSubCounter : Nat
  msSubCounter : Nat
  us : BitVec 32
  ms : BitVec 32
  s : BitVec 32
  deriving DecidableEq, Repr, Inhabited

structure Regs where
  sysRst : Bool
  cpuRst : Bool
  cpuBoot : Bool
  bootAddrReg : BitVec 32
  haltReg : BitVec 32
  haltRequestPending : Bool
  ledOutReg : BitVec 8
  reqCpuHalt : Bool
  sysResetPending : Bool
  responseData : BitVec 32
  responsePending : Bool
  cpuResetState : CpuReset
  elapsed : Elapsed
  deriving DecidableEq, Repr, Inhabited

structure Inputs where
  memAAddr : BitVec 32
  memAWdata : BitVec 32
  memAWe : Bool
  memASize : BitVec 2
  memAValid : Bool
  memDReady : Bool
  extCpuBoot : Bool
  extCpuBootAddr : BitVec 32
  cpuHalted : Bool
  cpuBooting : Bool
  cpuPc : BitVec 32
  cpuInstr : BitVec 32
  deriving DecidableEq, Repr, Inhabited

/- The response data keep what they have. -/
def reset (s : Regs) : Regs where
  sysRst := false
  cpuRst := false
  cpuBoot := false
  bootAddrReg := 0
  haltReg := 0
  haltRequestPending := false
  ledOutReg := 0
  reqCpuHalt := false
  sysResetPending := false
  responseData := s.responseData
  responsePending := false
  cpuResetState := .idle
  elapsed := ⟨0,0,0,0,0,0⟩

def Elapsed.next (cyclesPerUs : Nat) (e : Elapsed) : Elapsed :=
  let microsecond := decide (e.cycleCounter ≥ cyclesPerUs - 1)
  let millisecond := microsecond && decide (e.usSubCounter ≥ 999)
  let second := millisecond && decide (e.msSubCounter ≥ 999)
  { cycleCounter := if microsecond then 0 else e.cycleCounter + 1
    usSubCounter := if millisecond then 0 else if microsecond then e.usSubCounter + 1 else e.usSubCounter
    msSubCounter := if second then 0 else if millisecond then e.msSubCounter + 1 else e.msSubCounter
    us := if microsecond then e.us + 1 else e.us
    ms := if millisecond then e.ms + 1 else e.ms
    s := if second then e.s + 1 else e.s }

def Inputs.offset (i : Inputs) : Offset := i.memAAddr.extractLsb' 0 6

namespace Regs
variable (s : Regs) (i : Inputs)

def memAReady : Bool := !s.responsePending && s.cpuResetState == .idle
def memAHandshake : Bool := i.memAValid && s.memAReady
def memDHandshake : Bool := s.responsePending && i.memDReady

/- A write to the register at `offset` is accepted. -/
def written (offset : Offset) : Bool := s.memAHandshake i && i.memAWe && i.offset == offset

/- A write to RESET with bit 0 set asks for a reset of the CPU alone. -/
def cpuResetWritten : Bool := s.written i regReset && i.memAWdata.getLsbD 0

def cpuBootAddr : BitVec 32 :=
  if s.written i regBoot then i.memAWdata else if i.extCpuBoot then i.extCpuBootAddr else s.bootAddrReg

def readData : BitVec 32 :=
  if i.offset = regStatus then 0#30 ++ BitVec.ofBool i.cpuHalted ++ BitVec.ofBool i.cpuBooting
  else if i.offset = regHalt then s.haltReg
  else if i.offset = regLedOut then s.ledOutReg.setWidth 32
  else if i.offset = regElapsedUs then s.elapsed.us
  else if i.offset = regElapsedMs then s.elapsed.ms
  else if i.offset = regElapsedS then s.elapsed.s
  else if i.offset = regCpuPc then i.cpuPc
  else if i.offset = regCpuInstr then i.cpuInstr
  else 0

/- Bytes and half-words are taken at offset 0, words at any. -/
def ledOutNext : BitVec 8 :=
  if s.written i regLedOut && (i.memASize == 0b10 || i.memASize != 0b11 && i.memAAddr.extractLsb' 0 2 == 0)
  then i.memAWdata.extractLsb' 0 8 else s.ledOutReg

/- The write that asks for a CPU reset is answered when the CPU boots again, every other access at once. -/
def next (cyclesPerUs : Nat) : Regs where
  sysRst := s.sysResetPending
  cpuRst := s.cpuResetState == .pulse
  cpuBoot := s.written i regBoot || i.extCpuBoot
  bootAddrReg := if s.written i regBoot then i.memAWdata else s.bootAddrReg
  haltReg := if s.written i regHalt then i.memAWdata else s.haltReg
  haltRequestPending := s.written i regHalt || s.haltRequestPending && !i.cpuHalted
  ledOutReg := s.ledOutNext i
  reqCpuHalt := s.haltRequestPending || s.cpuResetWritten i || s.cpuResetState == .waitHalt
  sysResetPending := s.written i regReset && !i.memAWdata.getLsbD 0
  responseData :=
    if s.memAHandshake i then if i.memAWe then 0 else s.readData i
    else if s.cpuResetState = .waitBoot ∧ i.cpuBooting then 0
    else s.responseData
  responsePending := s.memAHandshake i && !s.cpuResetWritten i || s.cpuResetState == .waitBoot && i.cpuBooting ||
    s.responsePending && !s.memDHandshake i
  cpuResetState := match s.cpuResetState with
    | .idle => if s.cpuResetWritten i then .waitHalt else .idle
    | .waitHalt => if i.cpuHalted then .pulse else .waitHalt
    | .pulse => .waitBoot
    | .waitBoot => if i.cpuBooting then .idle else .waitBoot
  elapsed := s.elapsed.next cyclesPerUs

end Regs

structure Outputs where
  memAReady : Bool
  memDRdata : BitVec 32
  memDValid : Bool
  sysRst : Bool
  cpuRst : Bool
  cpuBootAddr : BitVec 32
  cpuBoot : Bool
  reqCpuHalt : Bool
  haltedValue : BitVec 32
  ledOut : BitVec 8
  deriving DecidableEq, Repr

def Regs.outputs (s : Regs) (i : Inputs) : Outputs :=
  ⟨s.memAReady,s.responseData,s.responsePending,s.sysRst,s.cpuRst,s.cpuBootAddr i,s.cpuBoot,s.reqCpuHalt,s.haltReg,s.ledOutReg⟩

def machine (cyclesPerUs : Nat) : Machine Regs Inputs Outputs := ⟨Regs.outputs,fun s i => s.next i cyclesPerUs⟩

/- The reset registers that `SystemReset` steps alone are those of the peripheral. -/
theorem systemReset (resetCycles cyclesPerUs : Nat) (s : Regs) (i : Inputs) (r : SystemReset.Regs) (runs : r.rstOut = false)
    (same : r.sysResetPending = s.sysResetPending ∧ r.sysRst = s.sysRst) :
    let write := if s.memAHandshake i && i.memAWe then some ⟨i.memAAddr,i.memAWdata⟩ else none
    (SystemReset.step resetCycles r write).sysResetPending = (s.next i cyclesPerUs).sysResetPending ∧
      (SystemReset.step resetCycles r write).sysRst = (s.next i cyclesPerUs).sysRst := by
  refine ⟨?_,?_⟩
  · simp only [SystemReset.step,runs,Bool.false_eq_true,if_false,Regs.next,Regs.written]
    split <;> rename_i accepted
    · simp [accepted,SystemReset.Write.resets,Inputs.offset,regReset,SystemReset.regReset]
    · simp [accepted]
  · simp [SystemReset.step,runs,Regs.next,same.1]

end RiscvSoc.SystemController
