import RiscvSoc.Lib.ClockCrossing
import RiscvSoc.Rtl.PhaseAccumulator

/-! `uart.sv`. The transmitter and the receiver are driven by one accumulator of 32 bits; the input is synchronised by an
`ff_sync` of three stages. -/
namespace RiscvSoc.Uart
open ClockCrossing

/- `CLK_FREQ_HZ` and `BAUD_RATE`, with what the modules' own checks ask of them. -/
structure Params where
  clkFreqHz : Nat
  baudRate : Nat
  int : clkFreqHz < 2 ^ 31
  oversampled : 16 ≤ clkFreqHz / baudRate
  tickPositive : 0 < baudRate * 16
  tickSlower : baudRate * 16 < clkFreqHz
  resolved : phaseIncrement 32 clkFreqHz (baudRate * 16) ≠ 0

def Params.increment (p : Params) : Nat := phaseIncrement 32 p.clkFreqHz (p.baudRate * 16)

abbrev Accumulator := PhaseAccumulator 32

inductive Phase
  | idle
  | startBit
  | dataBits
  | stopBit
  deriving DecidableEq, Repr

structure Tx where
  state : Phase
  out : Bool
  shiftReg : BitVec 8
  bitIndex : BitVec 3
  tickCounter : BitVec 4
  deriving DecidableEq, Repr

namespace Tx
variable (s : Tx) (tick : Bool)

def baudTick : Bool := tick && s.tickCounter == 15

def ready : Bool := s.state == .idle || (s.state == .stopBit && s.baudTick tick)

def reset : Tx := ⟨.idle,true,0,0,0⟩

def latch (s : Tx) (data : BitVec 8) : Tx := {s with shiftReg := data, state := .startBit, tickCounter := 0}

def next (rst valid : Bool) (data : BitVec 8) : Tx :=
  if rst then reset
  else match s.state with
    | .idle =>
      let s' := {s with out := true}
      if valid then s'.latch data else s'
    | .startBit =>
      let s' := {s with out := false}
      if s.baudTick tick then {s' with tickCounter := 0, state := .dataBits, bitIndex := 0}
      else if tick then {s' with tickCounter := s.tickCounter + 1}
      else s'
    | .dataBits =>
      let s' := {s with out := s.shiftReg.getLsbD 0}
      if s.baudTick tick then
        let s' := {s' with shiftReg := s.shiftReg >>> 1, tickCounter := 0}
        if s.bitIndex = 7 then {s' with state := .stopBit} else {s' with bitIndex := s.bitIndex + 1}
      else if tick then {s' with tickCounter := s.tickCounter + 1}
      else s'
    | .stopBit =>
      let s' := {s with out := true}
      if s.baudTick tick then
        if valid then s'.latch data else {s' with state := .idle}
      else if tick then {s' with tickCounter := s.tickCounter + 1}
      else s'

def accepted (valid : Bool) (data : BitVec 8) : List (BitVec 8) := if valid && s.ready tick then [data] else []

end Tx

structure Rx where
  sync : List Bool
  syncPrev : Bool
  vote0 : Bool
  vote1 : Bool
  state : Phase
  shiftReg : BitVec 8
  bitIndex : BitVec 3
  tickCounter : BitVec 4
  data : BitVec 8
  valid : Bool
  error : Bool
  deriving DecidableEq, Repr

namespace Rx
variable (s : Rx) (tick : Bool)

def line : Bool := s.sync.getLastD false

def voteResult : Bool := (s.vote0 && s.vote1) || (s.vote1 && s.line) || (s.vote0 && s.line)

/- The middle of the stop bit, where a byte completes. -/
def completes : Bool := s.state == .stopBit && tick && s.tickCounter == 7

def errorSet (ready : Bool) : Bool :=
  s.completes tick && (if s.voteResult then s.valid && !ready else true)

def reset : Rx := ⟨clear true s.sync,true,false,false,.idle,0,0,0,0,false,false⟩

def sample (s' : Rx) : Rx :=
  {s' with
    vote0 := if s.tickCounter = 5 then s.line else s'.vote0
    vote1 := if s.tickCounter = 6 then s.line else s'.vote1}

/- The `case` of the state machine; `s'` has what every state does. -/
def step (ready : Bool) (s' : Rx) : Rx :=
  match s.state with
  | .idle =>
    let s' := {s' with tickCounter := 0}
    if s.syncPrev && !s.line then {s' with state := .startBit} else s'
  | .startBit =>
    if tick then
      let s' := s.sample s'
      let s' := if s.tickCounter = 7 ∧ s.voteResult = true then {s' with state := .idle} else s'
      if s.tickCounter = 15 then {s' with state := .dataBits, tickCounter := 0, bitIndex := 0}
      else {s' with tickCounter := s.tickCounter + 1}
    else s'
  | .dataBits =>
    if tick then
      let s' := s.sample s'
      let s' := if s.tickCounter = 7 then
          {s' with shiftReg := BitVec.ofBool s.voteResult ++ s.shiftReg.extractLsb' 1 7} else s'
      if s.tickCounter = 15 then
        let s' := {s' with tickCounter := 0}
        if s.bitIndex = 7 then {s' with state := .stopBit} else {s' with bitIndex := s.bitIndex + 1}
      else {s' with tickCounter := s.tickCounter + 1}
    else s'
  | .stopBit =>
    if tick then
      let s' := s.sample s'
      if s.tickCounter = 7 then
        let s' :=
          if s.voteResult then
            if s.valid && !ready then {s' with error := true}
            else {s' with data := s.shiftReg, valid := true}
          else {s' with error := true}
        {s' with state := .idle, tickCounter := 0}
      else {s' with tickCounter := s.tickCounter + 1}
    else s'

def next (rst rxIn ready errorClr : Bool) : Rx :=
  if rst then s.reset
  else
    let s' := s.step tick ready {s with sync := shift rxIn s.sync, syncPrev := s.line, valid := s.valid && !ready}
    if errorClr && !s.errorSet tick ready then {s' with error := false} else s'

/- The byte latched into `rx_data` at this edge, the byte taken by the consumer, and the byte that waits. -/
def latched (ready : Bool) : List (BitVec 8) :=
  if s.completes tick && s.voteResult && !(s.valid && !ready) then [s.shiftReg] else []

def taken (ready : Bool) : List (BitVec 8) := if s.valid && ready then [s.data] else []

def held : List (BitVec 8) := if s.valid then [s.data] else []

end Rx

structure Inputs where
  rst : Bool
  txData : BitVec 8
  txValid : Bool
  rxReady : Bool
  rxErrorClr : Bool
  rxIn : Bool
  deriving DecidableEq, Repr

structure State where
  acc : Accumulator
  tx : Tx
  rx : Rx
  deriving DecidableEq, Repr

def State.next (p : Params) (s : State) (i : Inputs) : State where
  acc := s.acc.next p.increment i.rst
  tx := s.tx.next s.acc.tick i.rst i.txValid i.txData
  rx := s.rx.next s.acc.tick i.rst i.rxIn i.rxReady i.rxErrorClr

end RiscvSoc.Uart
