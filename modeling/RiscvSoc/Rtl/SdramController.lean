import Mathlib.Algebra.Group.Nat.Defs
import Mathlib.Data.Nat.Log
import RiscvSoc.Lib.SdramDevice

/-! `sdram_controller.sv` on its controller clock. The sample clock domain is the halfword
`phy_dq_captured` that each edge finds. -/
namespace RiscvSoc.SdramController
open Mealy Sdram

structure Params where
  controllerClkFreqHz : BitVec 32
  casLatency : BitVec 32
  extraReadLatencyCycles : BitVec 32
  initDelayUs : BitVec 32
  deriving DecidableEq, Repr

def u32 (n : Nat) : Nat := n % 2 ^ 32

/- `ns_to_cycles_ceil` and `us_to_cycles_ceil`, with a 64-bit numerator. -/
def cyclesCeil (perSecond : Nat) (p : Params) (amount : Nat) : Nat :=
  u32 ((p.controllerClkFreqHz.toNat * amount + perSecond - 1) % 2 ^ 64 / perSecond)
def nsToCyclesCeil (p : Params) (ns : Nat) : Nat := cyclesCeil 1000000000 p ns
def usToCyclesCeil (p : Params) (us : Nat) : Nat := cyclesCeil 1000000 p us
def nsToCyclesFloor (p : Params) (ns : Nat) : Nat :=
  u32 (p.controllerClkFreqHz.toNat * ns % 2 ^ 64 / 1000000000)

def casModeBits (cas : Nat) : BitVec 3 := if cas = 2 then 0b010 else 0b011

structure Cycles where
  readCompletionStages : Nat
  trp : Nat
  trcd : Nat
  trfc : Nat
  tmrd : Nat
  twr : Nat
  readRecovery : Nat
  writeRecovery : Nat
  initDelay : Nat
  refreshMax : Nat
  refreshSlip : Nat
  refreshInterval : Nat
  timerWidth : Nat
  modeReg : BitVec 13
  deriving DecidableEq, Repr

namespace Params

def readCompletionStages (p : Params) : Nat :=
  u32 (max 2 (u32 (p.casLatency.toNat + 4)) + p.extraReadLatencyCycles.toNat)
def trp (p : Params) : Nat := max 2 (nsToCyclesCeil p 18)
def trcd (p : Params) : Nat := max 2 (nsToCyclesCeil p 18)
def trfc (p : Params) : Nat := max 2 (nsToCyclesCeil p 80)
def twr (p : Params) : Nat := max 2 (nsToCyclesCeil p 15)
def readRecovery (p : Params) : Nat := max 2 (u32 (p.trp + 1))
def writeRecovery (p : Params) : Nat := max 4 (u32 (p.twr + p.trp + 1))
def initDelay (p : Params) : Nat := max 2 (usToCyclesCeil p p.initDelayUs.toNat)
def refreshMax (p : Params) : Nat := max 2 (nsToCyclesFloor p 7813)
def refreshSlip (p : Params) : Nat :=
  max (u32 (p.trcd + p.readCompletionStages + p.readRecovery + 2)) (u32 (p.trcd + p.writeRecovery + 3))
def refreshInterval (p : Params) : Nat := max 2 (u32 (p.refreshMax + (2 ^ 32 - p.refreshSlip)))
def timerMax (p : Params) : Nat :=
  max (max p.initDelay p.trfc) (max p.writeRecovery p.refreshInterval)
def timerWidth (p : Params) : Nat := if p.timerMax ≤ 1 then 1 else Nat.clog 2 p.timerMax

def cycles (p : Params) : Cycles where
  readCompletionStages := p.readCompletionStages
  trp := p.trp
  trcd := p.trcd
  trfc := p.trfc
  tmrd := 2
  twr := p.twr
  readRecovery := p.readRecovery
  writeRecovery := p.writeRecovery
  initDelay := p.initDelay
  refreshMax := p.refreshMax
  refreshSlip := p.refreshSlip
  refreshInterval := p.refreshInterval
  timerWidth := p.timerWidth
  modeReg := 0b000000#6 ++ casModeBits p.casLatency.toNat ++ 0b0000#4

end Params

def extModeReg : BitVec 13 := 0b0000001000000

inductive State where
  | reset
  | initWait
  | initCke
  | initPrechargeWait
  | initRefresh0
  | initRefresh0Wait
  | initRefresh1
  | initRefresh1Wait
  | initMr
  | initMrWait
  | initEmr
  | initEmrWait
  | idle
  | refresh
  | refreshWait
  | activate
  | activateWait
  | readCmd0
  | readCmd1
  | readWait
  | readRecovery
  | writeCmd0
  | writeCmd1
  | writeRecovery
  deriving DecidableEq, Repr, Inhabited

def cmdNop : BitVec 3 := 0b111
def cmdAct : BitVec 3 := 0b011
def cmdRead : BitVec 3 := 0b101
def cmdWrite : BitVec 3 := 0b100
def cmdPrechg : BitVec 3 := 0b010
def cmdAutoref : BitVec 3 := 0b001
def cmdLmr : BitVec 3 := 0b000

structure Inputs where
  wordRd : Bool
  wordWr : Bool
  wordAddr : BitVec 24
  wordData : BitVec 32
  phyDqCaptured : BitVec 16
  deriving DecidableEq, Repr

/- `reqBank`, `reqRow` and `reqCol` are the fields of `req_word_addr`. -/
structure Regs (c : Cycles) where
  state : State
  waitCounter : BitVec c.timerWidth
  refreshCounter : BitVec c.timerWidth
  refreshPending : Bool
  reqIsWrite : Bool
  reqWordAddr : BitVec 24
  reqWordData : BitVec 32
  reqPending : Bool
  readCaptureValidPipe : BitVec c.readCompletionStages
  readCaptureLowPipe : BitVec c.readCompletionStages
  readCaptureLastPipe : BitVec c.readCompletionStages
  readHighPending : BitVec 16
  phyCmd : BitVec 3
  phyCke : Bool
  phyBa : BitVec 2
  phyA : BitVec 13
  phyDqm : BitVec 2
  phyDqOe : Bool
  phyDqOut : BitVec 16
  phyDqSync : BitVec 16
  wordQ : BitVec 32
  wordBusy : Bool
  deriving DecidableEq, Repr, Inhabited

structure Outputs where
  phyCke : Bool
  phyCmd : BitVec 3
  phyBa : BitVec 2
  phyA : BitVec 13
  phyDq : Option (BitVec 16)
  phyDqm : BitVec 2
  wordQ : BitVec 32
  wordBusy : Bool
  deriving DecidableEq, Repr

variable {c : Cycles}

/- `phy_dq_sync` has no reset. -/
def reset (s : Regs c) : Regs c where
  state := .reset
  waitCounter := 0
  refreshCounter := 0
  refreshPending := false
  reqIsWrite := false
  reqWordAddr := 0
  reqWordData := 0
  reqPending := false
  readCaptureValidPipe := 0
  readCaptureLowPipe := 0
  readCaptureLastPipe := 0
  readHighPending := 0
  phyCmd := cmdNop
  phyCke := false
  phyBa := 0
  phyA := 0
  phyDqm := 0
  phyDqOe := false
  phyDqOut := 0
  phyDqSync := s.phyDqSync
  wordQ := 0
  wordBusy := true

namespace Regs

def reqBank (s : Regs c) : BitVec 2 := s.reqWordAddr.extractLsb' 22 2
def reqRow (s : Regs c) : BitVec 13 := s.reqWordAddr.extractLsb' 9 13
def reqColHalfword (s : Regs c) : BitVec 10 := s.reqWordAddr.extractLsb' 0 9 ++ 0b0#1
def reqColHalfwordNext (s : Regs c) : BitVec 10 := s.reqColHalfword + 1

def timer (c : Cycles) (n : Nat) : BitVec c.timerWidth := BitVec.ofNat c.timerWidth (n - 1)

def refreshDue (s : Regs c) : Bool := s.refreshCounter == timer c c.refreshInterval

/- A request is captured whenever none is pending, whatever the state. -/
def captures (s : Regs c) (i : Inputs) : Bool := !s.reqPending && (i.wordRd || i.wordWr)

def base (s : Regs c) (i : Inputs) : Regs c :=
  {s with
    phyDqSync := i.phyDqCaptured
    phyCmd := cmdNop
    phyDqOe := false
    phyDqm := 0
    readCaptureValidPipe := s.readCaptureValidPipe.shiftConcat false
    readCaptureLowPipe := s.readCaptureLowPipe.shiftConcat false
    readCaptureLastPipe := s.readCaptureLastPipe.shiftConcat false
    refreshCounter := if s.refreshDue then 0 else s.refreshCounter + 1
    refreshPending := s.refreshDue || s.refreshPending
    reqIsWrite := if s.captures i then i.wordWr else s.reqIsWrite
    reqWordAddr := if s.captures i then i.wordAddr else s.reqWordAddr
    reqWordData := if s.captures i then i.wordData else s.reqWordData
    reqPending := s.captures i || s.reqPending}

def countDown (s b : Regs c) (arrived : Regs c) : Regs c :=
  if s.waitCounter = 0 then arrived else {b with waitCounter := s.waitCounter - 1}

def autoRefresh (b : Regs c) (next : State) : Regs c :=
  {b with phyCmd := cmdAutoref, waitCounter := timer c c.trfc, state := next}

def access (s b : Regs c) (cmd : BitVec 3) (second : Bool) : Regs c :=
  {b with
    wordBusy := true
    phyCmd := cmd
    phyBa := s.reqBank
    phyA := 0b00#2 ++ BitVec.ofBool second ++ (if second then s.reqColHalfwordNext else s.reqColHalfword)}

def capture (s b : Regs c) (second : Bool) : Regs c :=
  {b with
    readCaptureValidPipe := s.readCaptureValidPipe.shiftConcat true
    readCaptureLowPipe := s.readCaptureLowPipe.shiftConcat second
    readCaptureLastPipe := s.readCaptureLastPipe.shiftConcat second}

def idle (s b : Regs c) : Regs c :=
  if s.refreshPending then {b with wordBusy := true, state := .refresh}
  else if s.reqPending then {b with reqPending := false, wordBusy := true, state := .activate}
  else {b with wordBusy := s.reqPending}

def readWait (s b : Regs c) : Regs c :=
  if s.readCaptureValidPipe.msb then
    let b := {b with
      wordBusy := true
      readHighPending := if s.readCaptureLowPipe.msb then b.readHighPending else s.phyDqSync}
    if s.readCaptureLastPipe.msb then
      {b with
        wordQ := s.readHighPending ++ s.phyDqSync
        waitCounter := timer c c.readRecovery
        state := .readRecovery}
    else b
  else {b with wordBusy := true}

def next (s : Regs c) (i : Inputs) : Regs c :=
  let b := s.base i
  let busy := {b with wordBusy := true}
  match s.state with
  | .reset => {busy with phyCke := false, waitCounter := timer c c.initDelay, state := .initWait}
  | .initWait => s.countDown busy {busy with phyCke := true, waitCounter := 0, state := .initCke}
  | .initCke => s.countDown busy
      {busy with phyCmd := cmdPrechg, phyA := 0b0010000000000, waitCounter := timer c c.trp, state := .initPrechargeWait}
  | .initPrechargeWait => s.countDown busy {busy with state := .initRefresh0}
  | .initRefresh0 => busy.autoRefresh .initRefresh0Wait
  | .initRefresh0Wait => s.countDown busy {busy with state := .initRefresh1}
  | .initRefresh1 => busy.autoRefresh .initRefresh1Wait
  | .initRefresh1Wait => s.countDown busy {busy with state := .initMr}
  | .initMr =>
    {busy with phyCmd := cmdLmr, phyBa := 0b00, phyA := c.modeReg, waitCounter := timer c c.tmrd, state := .initMrWait}
  | .initMrWait => s.countDown busy {busy with state := .initEmr}
  | .initEmr =>
    {busy with phyCmd := cmdLmr, phyBa := 0b10, phyA := extModeReg, waitCounter := timer c c.tmrd, state := .initEmrWait}
  | .initEmrWait => s.countDown busy {b with refreshPending := false, wordBusy := false, state := .idle}
  | .idle => s.idle b
  | .refresh => {b.autoRefresh .refreshWait with refreshPending := false}
  | .refreshWait | .readRecovery | .writeRecovery => s.countDown busy {b with wordBusy := false, state := .idle}
  | .activate =>
    {b with phyCmd := cmdAct, phyBa := s.reqBank, phyA := s.reqRow, waitCounter := timer c c.trcd, state := .activateWait}
  | .activateWait => s.countDown busy {busy with state := if s.reqIsWrite then .writeCmd0 else .readCmd0}
  | .readCmd0 => s.capture {s.access b cmdRead false with state := .readCmd1} false
  | .readCmd1 => s.capture {s.access b cmdRead true with state := .readWait} true
  | .readWait => s.readWait b
  | .writeCmd0 =>
    {s.access b cmdWrite false with phyDqOe := true, phyDqOut := s.reqWordData.extractLsb' 16 16, state := .writeCmd1}
  | .writeCmd1 =>
    {s.access b cmdWrite true with
      phyDqOe := true
      phyDqOut := s.reqWordData.extractLsb' 0 16
      waitCounter := timer c c.writeRecovery
      state := .writeRecovery}

def outputs (s : Regs c) : Outputs where
  phyCke := s.phyCke
  phyCmd := s.phyCmd
  phyBa := s.phyBa
  phyA := s.phyA
  phyDq := if s.phyDqOe then some s.phyDqOut else none
  phyDqm := s.phyDqm
  wordQ := s.wordQ
  wordBusy := s.wordBusy

end Regs

def machine (c : Cycles) : Machine (Regs c) Inputs Outputs := ⟨fun s _ => s.outputs,Regs.next⟩

/- The pins as the device reads them; A10 selects auto-precharge, and all banks for a
precharge. -/
def command (o : Outputs) : Command (BitVec 2) (BitVec 13) (BitVec 10) :=
  let column := o.phyA.extractLsb' 0 10
  let a10 := o.phyA.getLsbD 10
  if o.phyCmd = cmdAct then .active o.phyBa o.phyA
  else if o.phyCmd = cmdRead then .read o.phyBa column a10
  else if o.phyCmd = cmdWrite then .write o.phyBa column a10
  else if o.phyCmd = cmdPrechg then if a10 then .prechargeAll else .precharge o.phyBa
  else if o.phyCmd = cmdAutoref then .autoRefresh
  else if o.phyCmd = cmdLmr then .loadMode
  else .nop

/- The module is elaborated only where its pipes and their slices exist. -/
def Params.Accepted (p : Params) : Prop := 2 ≤ p.readCompletionStages

instance (p : Params) : Decidable p.Accepted := inferInstanceAs (Decidable (_ ≤ _))

/- The instance of `core_top.v`. -/
def sdramInst : Params := ⟨133000000,3,0,200⟩

example : sdramInst.Accepted := by decide

end RiscvSoc.SdramController
