import RiscvSoc.Lib.Mealy
import RiscvSoc.Rtl.HostBusBeat

/-! `host_bus_tx.sv`: packet beats become bytes to the host. -/
namespace RiscvSoc.HostBus.Tx
open LittleEndian (Byte byteAt)
open Mealy

inductive State where
  | idle
  | ctrl0
  | ctrl1
  | len0
  | len1
  | addr0
  | addr1
  | addr2
  | addr3
  | waitBeat
  | data0
  | data1
  | data2
  | data3
  deriving DecidableEq, Repr

structure Regs where
  state : State
  packetType : BitVec 4
  info : Meta
  payloadEnabled : Bool
  beatBytes : BitVec 3
  beatsRemaining : BitVec 17
  beatData : BitVec 32
  deriving DecidableEq, Repr

def Regs.powerOn : Regs := ⟨.idle,0,⟨false,0,false,false,0,0⟩,false,1,0,0⟩

structure Inputs where
  packetValid : Bool
  packet : Beat
  txReady : Bool
  deriving DecidableEq, Repr

structure Outputs where
  txData : Byte
  txValid : Bool
  packetReady : Bool
  deriving DecidableEq, Repr

/- The packet registers and the beat data have no reset. -/
def reset (s : Regs) : Regs :=
  {s with state := .idle, payloadEnabled := false, beatBytes := 1, beatsRemaining := 0}

def packetReady (s : Regs) (start : Bool) : Bool :=
  (s.state == .idle && start) || (s.state == .waitBeat && !start)

def txValid (s : Regs) : Bool := s.state ≠ .idle ∧ s.state ≠ .waitBeat

def txByte (s : Regs) : Byte := match s.state with
  | .ctrl0 => s.packetType ++ s.info.size ++ BitVec.ofBool s.info.srcFixed ++ BitVec.ofBool s.info.dstFixed
  | .ctrl1 => (BitVec.ofBool s.info.we).setWidth 8
  | .len0 => byteAt s.info.burstLenM1 0
  | .len1 => byteAt s.info.burstLenM1 1
  | .addr0 => byteAt s.info.baseAddr 0
  | .addr1 => byteAt s.info.baseAddr 1
  | .addr2 => byteAt s.info.baseAddr 2
  | .addr3 => byteAt s.info.baseAddr 3
  | .data0 => byteAt s.beatData 0
  | .data1 => byteAt s.beatData 1
  | .data2 => byteAt s.beatData 2
  | .data3 => byteAt s.beatData 3
  | .idle | .waitBeat => 0

def beatSent (s : Regs) : Regs :=
  {s with
    state := if s.beatsRemaining = 1#17 then .idle else .waitBeat
    beatsRemaining := if s.beatsRemaining ≠ 0#17 then s.beatsRemaining - 1#17 else s.beatsRemaining}

/- `next_state` and the beat counter on a transmit handshake. -/
def sent (s : Regs) : Regs :=
  match s.state with
  | .ctrl0 => {s with state := .ctrl1}
  | .ctrl1 => {s with state := .len0}
  | .len0 => {s with state := .len1}
  | .len1 => {s with state := .addr0}
  | .addr0 => {s with state := .addr1}
  | .addr1 => {s with state := .addr2}
  | .addr2 => {s with state := .addr3}
  | .addr3 => {s with state := if s.payloadEnabled then .data0 else .idle}
  | .data0 => if s.beatBytes = 1#3 then beatSent s else {s with state := .data1}
  | .data1 => if s.beatBytes = 2#3 then beatSent s else {s with state := .data2}
  | .data2 => {s with state := .data3}
  | .data3 => beatSent s
  | .idle | .waitBeat => s

def payloadOf (packet : Beat) : Bool :=
  (packet.req && packet.info.we) || (!packet.req && !packet.info.we)

def accept (s : Regs) (packet : Beat) : Regs :=
  if s.state = .idle then {s with
    state := .ctrl0
    packetType := if packet.req then 0b0000 else 0b0011
    info := packet.info
    payloadEnabled := payloadOf packet
    beatBytes := HostBus.beatBytes packet.info.size
    beatsRemaining := burstLen packet.info.burstLenM1
    beatData := packet.data}
  else {s with state := .data0, beatData := packet.data}

def step (s : Regs) (i : Inputs) : Regs :=
  if i.packetValid && packetReady s i.packet.start then accept s i.packet
  else if txValid s && i.txReady then sent s
  else s

def machine : Machine Regs Inputs Outputs where
  output s i := ⟨txByte s,txValid s,packetReady s i.packet.start⟩
  next := step

/- What crosses the two interfaces in one cycle. -/
def accepted (s : Regs) (i : Inputs) : List Beat :=
  if i.packetValid && packetReady s i.packet.start then [i.packet] else []
def emitted (s : Regs) (i : Inputs) : List Byte := if txValid s && i.txReady then [txByte s] else []

end RiscvSoc.HostBus.Tx
