import RiscvSoc.Lib.Mealy
import RiscvSoc.Lib.Ring

/-! `sync_dpram.sv` and `sync_fifo.sv`, for every `WIDTH` and every `DEPTH = 2 ^ PTR_WIDTH`. -/
namespace RiscvSoc
open Mealy

structure SyncDpram (dataWidth addrWidth : Nat) where
  mem : BitVec addrWidth → BitVec dataWidth
  rdataPipe : BitVec dataWidth
  rdata : BitVec dataWidth

namespace SyncDpram
variable {dataWidth addrWidth : Nat}

def writeEdge (s : SyncDpram dataWidth addrWidth) (we : Bool) (waddr : BitVec addrWidth)
    (wdata : BitVec dataWidth) : SyncDpram dataWidth addrWidth :=
  {s with mem := if we then Function.update s.mem waddr wdata else s.mem}

/- `word` is what the array gives at the address of the read port. -/
def readEdge (s : SyncDpram dataWidth addrWidth) (word : BitVec dataWidth) : SyncDpram dataWidth addrWidth :=
  {s with rdataPipe := word, rdata := s.rdataPipe}

end SyncDpram

namespace SyncFifo
variable {width ptrWidth : Nat}

structure Inputs (width : Nat) where
  wrValid : Bool
  wdata : BitVec width
  rdReady : Bool
  deriving DecidableEq, Repr

structure Outputs (width ptrWidth : Nat) where
  wrReady : Bool
  rdValid : Bool
  rdata : BitVec width
  count : BitVec (ptrWidth + 1)
  deriving DecidableEq, Repr

structure Regs (width ptrWidth : Nat) where
  wrPtr : BitVec ptrWidth
  rdPtr : BitVec ptrWidth
  outData : BitVec width
  outValid : Bool
  loadPendingStage1 : Bool
  loadPendingStage2 : Bool
  count : BitVec (ptrWidth + 1)
  ram : SyncDpram width ptrWidth

def reset (s : Regs width ptrWidth) : Regs width ptrWidth :=
  {s with
    wrPtr := 0
    rdPtr := 0
    outValid := false
    loadPendingStage1 := false
    loadPendingStage2 := false
    count := 0}

def depth (ptrWidth : Nat) : Nat := 2 ^ ptrWidth

def rdFire (s : Regs width ptrWidth) (i : Inputs width) : Bool := s.outValid && i.rdReady
def wrReady (s : Regs width ptrWidth) (i : Inputs width) : Bool :=
  decide (s.count < BitVec.ofNat (ptrWidth + 1) (depth ptrWidth)) || rdFire s i
def wrFire (s : Regs width ptrWidth) (i : Inputs width) : Bool := i.wrValid && wrReady s i

/- The bypass into the output register, when the queue is empty but for a word being read. -/
def directWrite (s : Regs width ptrWidth) (i : Inputs width) : Bool :=
  wrFire s i && ((s.count = 0 && !rdFire s i) || (s.count = 1 && rdFire s i))

def ramWrite (s : Regs width ptrWidth) (i : Inputs width) : Bool := wrFire s i && !directWrite s i
def startLoad (s : Regs width ptrWidth) (i : Inputs width) : Bool := rdFire s i && decide (1 < s.count)

def stage (s : Regs width ptrWidth) (i : Inputs width) : Regs width ptrWidth :=
  let captured := if s.loadPendingStage2 then {s with outData := s.ram.rdata, outValid := true} else s
  let shifted := {captured with loadPendingStage2 := s.loadPendingStage1, loadPendingStage1 := false}
  if rdFire s i then
    if directWrite s i then
      {shifted with outData := i.wdata, outValid := true, loadPendingStage1 := false, loadPendingStage2 := false}
    else if startLoad s i then
      {shifted with outValid := false, loadPendingStage1 := true, loadPendingStage2 := false}
    else {shifted with outValid := false, loadPendingStage1 := false, loadPendingStage2 := false}
  else if directWrite s i then
    {shifted with outData := i.wdata, outValid := true, loadPendingStage1 := false, loadPendingStage2 := false}
  else shifted

def step (s : Regs width ptrWidth) (i : Inputs width) : Regs width ptrWidth :=
  {stage s i with
    wrPtr := if ramWrite s i then s.wrPtr + 1 else s.wrPtr
    rdPtr := if startLoad s i then s.rdPtr + 1 else s.rdPtr
    count := s.count + BitVec.ofNat _ (wrFire s i).toNat - BitVec.ofNat _ (rdFire s i).toNat
    ram := (s.ram.readEdge (s.ram.mem s.rdPtr)).writeEdge (ramWrite s i) s.wrPtr i.wdata}

def machine : Machine (Regs width ptrWidth) (Inputs width) (Outputs width ptrWidth) where
  output s i := ⟨wrReady s i,s.outValid,s.outData,s.count⟩
  next := step

def accepted (s : Regs width ptrWidth) (i : Inputs width) : List (BitVec width) :=
  if wrFire s i then [i.wdata] else []

def taken (s : Regs width ptrWidth) (i : Inputs width) : List (BitVec width) :=
  if rdFire s i then [s.outData] else []

def staged (s : Regs width ptrWidth) : List (BitVec width) :=
  if s.outValid then [s.outData]
  else if s.loadPendingStage2 then [s.ram.rdata]
  else if s.loadPendingStage1 then [s.ram.rdataPipe]
  else []

def queued (s : Regs width ptrWidth) : Nat := s.count.toNat - 1

def contents (s : Regs width ptrWidth) : List (BitVec width) :=
  staged s ++ Ring.entries s.ram.mem s.rdPtr (queued s)

end SyncFifo
end RiscvSoc
