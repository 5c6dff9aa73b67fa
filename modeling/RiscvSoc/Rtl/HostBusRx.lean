import RiscvSoc.Lib.Mealy
import RiscvSoc.Rtl.HostBusBeat

/-! `host_bus_rx.sv`: bytes from the host become packet beats. While a beat waits for
`packet_ready` no byte is taken. -/
namespace RiscvSoc.HostBus.Rx
open LittleEndian (Byte setByte)
open Mealy

inductive State where
  | idle
  | ctrl1
  | len0
  | len1
  | addr0
  | addr1
  | addr2
  | addr3
  | payload
  deriving DecidableEq, Repr

structure Regs where
  state : State
  packetType : BitVec 4
  info : Meta
  beatBytes : BitVec 3
  burstLen : BitVec 17
  beatsRemaining : BitVec 17
  beatByteIdx : BitVec 2
  beatAccum : BitVec 32
  outValid : Bool
  outStart : Bool
  outLast : Bool
  outData : BitVec 32
  deriving DecidableEq, Repr

def Regs.powerOn : Regs := ⟨.idle,0,⟨false,0,false,false,0,0⟩,1,0,0,0,0,false,false,false,0⟩

structure Inputs where
  rxData : Byte
  rxValid : Bool
  packetReady : Bool
  deriving DecidableEq, Repr

structure Outputs where
  rxReady : Bool
  packetValid : Bool
  packet : Beat
  deriving DecidableEq, Repr

/- The packet and output data registers have no reset. -/
def reset (s : Regs) : Regs :=
  {s with
    state := .idle
    beatBytes := 1
    burstLen := 0
    beatsRemaining := 0
    beatByteIdx := 0
    beatAccum := 0
    outValid := false
    outStart := false
    outLast := false}

def Regs.payloadEnabled (s : Regs) : Bool :=
  (s.packetType == 0b0010 && s.info.we) || (s.packetType == 0b0001 && !s.info.we)

def Regs.beatWordWithByte (s : Regs) (byte : Byte) : BitVec 32 := setByte s.beatAccum s.beatByteIdx.toNat byte

def Regs.setMeta (s : Regs) (info : Meta) (state : State) : Regs := {s with info := info, state := state}

def Regs.takeCtrl0 (s : Regs) (byte : Byte) : Regs :=
  let packetType := byte.extractLsb' 4 4
  let size := byte.extractLsb' 2 2
  {s with
    packetType := packetType
    info := {s.info with
      size := size
      srcFixed := byte.getLsbD 1
      dstFixed := byte.getLsbD 0}
    state := if (packetType = 0b0001 ∨ packetType = 0b0010) ∧ size ≠ 0b11 then .ctrl1 else .idle}

def Regs.takeCtrl1 (s : Regs) (byte : Byte) : Regs :=
  if byte.extractLsb' 1 7 ≠ 0 then {s with state := .idle}
  else s.setMeta {s.info with we := byte.getLsbD 0} .len0

def Regs.takeAddr3 (s : Regs) (byte : Byte) : Regs :=
  let s := {s with
    info := {s.info with baseAddr := setByte s.info.baseAddr 3 byte}
    beatBytes := HostBus.beatBytes s.info.size
    burstLen := HostBus.burstLen s.info.burstLenM1
    beatsRemaining := HostBus.burstLen s.info.burstLenM1
    beatByteIdx := 0
    beatAccum := 0}
  if s.payloadEnabled then {s with state := .payload}
  else {s with outValid := true, outStart := true, outLast := true, outData := 0, state := .idle}

def Regs.takePayload (s : Regs) (byte : Byte) : Regs :=
  let beatDone := s.beatByteIdx.setWidth 3 = s.beatBytes - 1
  let isLastBeat := s.beatsRemaining = 1
  if beatDone then {s with
    outValid := true
    outStart := s.beatsRemaining = s.burstLen
    outLast := isLastBeat
    outData := s.beatWordWithByte byte
    beatsRemaining := s.beatsRemaining - 1
    beatByteIdx := 0
    beatAccum := 0
    state := if isLastBeat then .idle else .payload}
  else {s with beatAccum := s.beatWordWithByte byte, beatByteIdx := s.beatByteIdx + 1}

/- One byte taken, which needs `out_valid_reg` low. -/
def Regs.take (s : Regs) (byte : Byte) : Regs := match s.state with
  | .idle => s.takeCtrl0 byte
  | .ctrl1 => s.takeCtrl1 byte
  | .len0 => s.setMeta {s.info with burstLenM1 := setByte s.info.burstLenM1 0 byte} .len1
  | .len1 => s.setMeta {s.info with burstLenM1 := setByte s.info.burstLenM1 1 byte} .addr0
  | .addr0 => s.setMeta {s.info with baseAddr := setByte s.info.baseAddr 0 byte} .addr1
  | .addr1 => s.setMeta {s.info with baseAddr := setByte s.info.baseAddr 1 byte} .addr2
  | .addr2 => s.setMeta {s.info with baseAddr := setByte s.info.baseAddr 2 byte} .addr3
  | .addr3 => s.takeAddr3 byte
  | .payload => s.takePayload byte

def Regs.packet (s : Regs) : Beat :=
  ⟨s.outStart,s.outLast,s.packetType == 0b0010,s.info,s.outData⟩

def step (s : Regs) (i : Inputs) : Regs :=
  if s.outValid then (if i.packetReady then {s with outValid := false} else s)
  else if i.rxValid then s.take i.rxData
  else s

def machine : Machine Regs Inputs Outputs where
  output s _ := ⟨!s.outValid,s.outValid,s.packet⟩
  next := step

/- What crosses the two interfaces in one cycle. -/
def taken (s : Regs) (i : Inputs) : List Byte := if !s.outValid && i.rxValid then [i.rxData] else []
def delivered (s : Regs) (i : Inputs) : List Beat := if s.outValid && i.packetReady then [s.packet] else []

/- A beat that waits for `packet_ready`. -/
def Regs.waiting (s : Regs) : List Beat := if s.outValid then [s.packet] else []

def Regs.released (s : Regs) : Regs := {s with outValid := false}

def parse : Regs → List Byte → List Beat
  | _, [] => []
  | s, byte :: rest => (s.take byte).waiting ++ parse (s.take byte).released rest

def parsed : Regs → List Byte → Regs
  | s, [] => s
  | s, byte :: rest => parsed (s.take byte).released rest

end RiscvSoc.HostBus.Rx
