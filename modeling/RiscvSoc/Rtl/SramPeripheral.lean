import RiscvSoc.Lib.LittleEndian
import RiscvSoc.Lib.Mealy

/-! `sram.sv` and `sram_peripheral.sv`. -/
namespace RiscvSoc.Sram
open LittleEndian (Byte byteAt)
open Mealy

abbrev Word := BitVec 32

/- `ADDR_WIDTH` and `DEPTH_WORDS`; entries past the depth are what a read out of bounds finds. -/
abbrev WordAddr := BitVec 12
def depthWords : Nat := 3072

/- The array `{mem3, mem2, mem1, mem0}` and the two registers of its read port. -/
structure Ram where
  mem : WordAddr → Word
  readDataPipe : Word
  rdata : Word

def merge (wmask : BitVec 4) (old new : Word) : Word :=
  let lane (k : Nat) : Byte := if wmask.getLsbD k then byteAt new k else byteAt old k
  lane 3 ++ lane 2 ++ lane 1 ++ lane 0

structure Port where
  we : Bool
  wmask : BitVec 4
  waddr : WordAddr
  wdata : Word
  raddr : WordAddr

def Ram.step (s : Ram) (p : Port) : Ram where
  mem a := if p.we ∧ p.waddr.toNat < depthWords ∧ a = p.waddr then merge p.wmask (s.mem a) p.wdata else s.mem a
  readDataPipe := s.mem p.raddr
  rdata := s.readDataPipe

inductive State where
  | idle
  | writeResp
  | writeSplitSecond
  | readWait
  | readResp
  | readSplitSecond
  | readSplitCapture
  | readSplitResp
  deriving DecidableEq, Repr

structure Request where
  addr : Word
  wdata : Word
  we : Bool
  size : BitVec 2
  deriving DecidableEq, Repr

structure Inputs where
  memA : Request
  memAValid : Bool
  memDReady : Bool
  deriving DecidableEq, Repr

structure Regs where
  state : State
  reqWordAddr : WordAddr
  reqSize : BitVec 2
  reqOffset : BitVec 2
  reqWdata : Word
  splitFirstRdata : Word
  memDRdata : Word
  memDValid : Bool
  ram : Ram

structure Outputs where
  memAReady : Bool
  memDRdata : Word
  memDValid : Bool
  deriving DecidableEq, Repr

def reset (s : Regs) : Regs := {s with state := .idle, memDValid := false}

/- An array of zeros, before the first request. -/
def idleRegs : Regs := ⟨.idle,0,0,0,0,0,0,false,⟨fun _ => 0,0,0⟩⟩

namespace Request

def wordAddr (r : Request) : WordAddr := r.addr.extractLsb' 2 12
def offset (r : Request) : BitVec 2 := r.addr.extractLsb' 0 2

def unaligned (r : Request) : Bool :=
  (r.size = 1 ∧ r.offset = 3) ∨ (r.size = 2 ∧ r.offset ≠ 0)

def alignedWdata (r : Request) : Word :=
  if r.size = 0 then (r.wdata.extractLsb' 0 8).setWidth 32 <<< (8 * r.offset.toNat)
  else if r.size = 1 ∨ r.size = 2 then r.wdata <<< (8 * r.offset.toNat)
  else 0

def wmask (r : Request) : BitVec 4 :=
  if r.size = 0 then 0b0001#4 <<< r.offset.toNat
  else if r.size = 1 then 0b0011#4 <<< r.offset.toNat
  else if r.size = 2 then 0b1111#4 <<< r.offset.toNat
  else 0

end Request

def splitSecondWmask (s : Regs) : BitVec 4 :=
  if s.reqSize = 1 then 0b0001
  else if s.reqSize = 2 then
    if s.reqOffset = 1 then 0b0001 else if s.reqOffset = 2 then 0b0011
    else if s.reqOffset = 3 then 0b0111 else 0
  else 0

def splitSecondWdata (s : Regs) : Word :=
  if s.reqSize = 1 then (s.reqWdata.extractLsb' 8 8).setWidth 32
  else if s.reqSize = 2 then
    if s.reqOffset = 1 then (s.reqWdata.extractLsb' 24 8).setWidth 32
    else if s.reqOffset = 2 then (s.reqWdata.extractLsb' 16 16).setWidth 32
    else if s.reqOffset = 3 then (s.reqWdata.extractLsb' 8 24).setWidth 32 else 0
  else 0

def memAHandshake (s : Regs) (i : Inputs) : Bool := i.memAValid && s.state = .idle
def memDHandshake (s : Regs) (i : Inputs) : Bool := s.memDValid && i.memDReady

/- What the peripheral drives into the array. -/
def port (s : Regs) (i : Inputs) : Port := match s.state with
  | .idle =>
    if memAHandshake s i && i.memA.we then
      ⟨true,i.memA.wmask,i.memA.wordAddr,i.memA.alignedWdata,i.memA.wordAddr⟩
    else ⟨false,0,s.reqWordAddr,0,i.memA.wordAddr⟩
  | .writeSplitSecond =>
    ⟨true,splitSecondWmask s,s.reqWordAddr + 1,splitSecondWdata s,s.reqWordAddr⟩
  | .readSplitSecond | .readSplitCapture | .readSplitResp =>
    ⟨false,0,s.reqWordAddr,0,s.reqWordAddr + 1⟩
  | .writeResp | .readWait | .readResp => ⟨false,0,s.reqWordAddr,0,s.reqWordAddr⟩

def extractedRdata (s : Regs) : Word :=
  if s.reqSize = 0 then (s.ram.rdata.extractLsb' (8 * s.reqOffset.toNat) 8).setWidth 32
  else if s.reqSize = 1 then ((s.ram.rdata >>> (8 * s.reqOffset.toNat)).extractLsb' 0 16).setWidth 32
  else if s.reqSize = 2 then s.ram.rdata
  else 0

def splitExtractedRdata (s : Regs) : Word :=
  let shifted := (s.ram.rdata ++ s.splitFirstRdata) >>> (8 * s.reqOffset.toNat)
  if s.reqSize = 1 then (shifted.extractLsb' 0 16).setWidth 32
  else if s.reqSize = 2 then shifted.extractLsb' 0 32
  else 0

def accept (s : Regs) (r : Request) : Regs :=
  let latched := {s with
    reqWordAddr := r.wordAddr
    reqSize := r.size
    reqOffset := r.offset
    reqWdata := r.wdata}
  if r.we then
    if r.unaligned then {latched with state := .writeSplitSecond}
    else {latched with state := .writeResp, memDRdata := 0, memDValid := true}
  else if r.unaligned then {latched with state := .readSplitSecond}
  else {latched with state := .readWait}

/- The registered D channel: latched once, then held until it is taken. -/
def respond (s : Regs) (i : Inputs) (rdata : Word) : Regs :=
  if !s.memDValid then {s with memDRdata := rdata, memDValid := true}
  else if memDHandshake s i then {s with memDValid := false, state := .idle}
  else s

def control (s : Regs) (i : Inputs) : Regs := match s.state with
  | .writeSplitSecond => {s with state := .writeResp, memDRdata := 0, memDValid := true}
  | .readWait => {s with state := .readResp}
  | .readSplitSecond => {s with state := .readSplitCapture}
  | .readSplitCapture => {s with splitFirstRdata := s.ram.rdata, state := .readSplitResp}
  | .writeResp => if memDHandshake s i then {s with memDValid := false, state := .idle} else s
  | .readResp => respond s i (extractedRdata s)
  | .readSplitResp => respond s i (splitExtractedRdata s)
  | .idle => if memAHandshake s i then accept s i.memA else s

def step (s : Regs) (i : Inputs) : Regs := {control s i with ram := s.ram.step (port s i)}

def machine : Machine Regs Inputs Outputs where
  output s _ := ⟨s.state = .idle,s.memDRdata,s.memDValid⟩
  next := step

def accepted (s : Regs) (i : Inputs) : List Request := if memAHandshake s i then [i.memA] else []
def returned (s : Regs) (i : Inputs) : List Word := if memDHandshake s i then [s.memDRdata] else []

/- The word indices on the ports of the array in one cycle. -/
def presented (s : Regs) (i : Inputs) : List WordAddr :=
  (port s i).raddr :: if (port s i).we then [(port s i).waddr] else []

/- A request and the cycles that serve it: from its acceptance until the unit is idle again. -/
def service (s : Regs) (i : Inputs) (rest : List Inputs) : List (Regs × Inputs) :=
  (s,i) :: (machine.trace (step s i) rest).takeWhile fun c => c.1.state ≠ .idle

end RiscvSoc.Sram
