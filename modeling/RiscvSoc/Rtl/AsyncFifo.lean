import RiscvSoc.Lib.ClockCrossing
import RiscvSoc.Lib.Gray
import RiscvSoc.Rtl.SyncFifo

/-! `async_fifo.sv`, for every `WIDTH`, every `DEPTH = 2 ^ ADDR_WIDTH` and every `SYNC_STAGES`. -/
namespace RiscvSoc.AsyncFifo
open Mealy
open ClockCrossing
variable {width addrWidth : Nat}

/- `PTR_WIDTH` is one more than `ADDR_WIDTH`. -/
abbrev Ptr (addrWidth : Nat) := BitVec (addrWidth + 1)

/- The registers in `wr_clk`, with the synchroniser of the read pointer. -/
structure Wr (addrWidth : Nat) where
  ptrBin : Ptr addrWidth
  ptrGray : Ptr addrWidth
  full : Bool
  rdSync : List (Ptr addrWidth)
  deriving DecidableEq, Repr

/- The registers in `rd_clk`, with the synchroniser of the write pointer. -/
structure Rd (width addrWidth : Nat) where
  ptrBin : Ptr addrWidth
  ptrGray : Ptr addrWidth
  outData : BitVec width
  outValid : Bool
  loadPendingStage1 : Bool
  loadPendingStage2 : Bool
  wrSync : List (Ptr addrWidth)
  deriving DecidableEq, Repr

structure Regs (width addrWidth : Nat) where
  wr : Wr addrWidth
  rd : Rd width addrWidth
  ram : SyncDpram width addrWidth

/- The inputs of a write edge; `rdNew` says which bits of a changing pointer are seen new. -/
structure WrInputs (width addrWidth : Nat) where
  wrValid : Bool
  wdata : BitVec width
  rdNew : Ptr addrWidth
  deriving DecidableEq, Repr

/- The inputs of a read edge; `collided` is what the array gives at an address being written. -/
structure RdInputs (width addrWidth : Nat) where
  rdReady : Bool
  wrNew : Ptr addrWidth
  collided : BitVec width
  deriving DecidableEq, Repr

abbrev Inputs (width addrWidth : Nat) := Edges (WrInputs width addrWidth) (RdInputs width addrWidth)

/- The last stage; both synchronisers reset to zero. -/
def dout (stages : List (Ptr addrWidth)) : Ptr addrWidth := stages.getLastD 0

def addr (p : Ptr addrWidth) : BitVec addrWidth := p.setWidth addrWidth

def binToGray (bin : Ptr addrWidth) : Ptr addrWidth := Gray.encode bin
def grayToBin (gray : Ptr addrWidth) : Ptr addrWidth := Gray.decode gray
def fullCompareGray (gray : Ptr addrWidth) : Ptr addrWidth := Gray.oppose gray

namespace Wr
variable (s : Wr addrWidth)

def doWrite (valid : Bool) : Bool := valid && !s.full
def ptrBinNext (valid : Bool) : Ptr addrWidth := s.ptrBin + BitVec.ofNat _ (s.doWrite valid).toNat
def ptrGrayNext (valid : Bool) : Ptr addrWidth := binToGray (s.ptrBinNext valid)
def fullNext (valid : Bool) : Bool := s.ptrGrayNext valid == fullCompareGray (dout s.rdSync)

/- `count`, the number of entries the write side can tell. -/
def count : Ptr addrWidth := s.ptrBin - grayToBin (dout s.rdSync)

def edge (valid : Bool) (rdGray : Ptr addrWidth) : Wr addrWidth where
  ptrBin := s.ptrBinNext valid
  ptrGray := s.ptrGrayNext valid
  full := s.fullNext valid
  rdSync := shift rdGray s.rdSync

end Wr

namespace Rd
variable (s : Rd width addrWidth)

def fire (ready : Bool) : Bool := s.outValid && ready
def ptrBinNext (ready : Bool) : Ptr addrWidth := s.ptrBin + BitVec.ofNat _ (s.fire ready).toNat
def itemsAvailable : Ptr addrWidth := grayToBin (dout s.wrSync) - s.ptrBin
def loadPending : Bool := s.loadPendingStage1 || s.loadPendingStage2

def startLoad (ready : Bool) : Bool :=
  !s.loadPending && ((!s.outValid && s.itemsAvailable != 0) || (s.fire ready && decide (1 < s.itemsAvailable)))

def raddr : BitVec addrWidth := if s.outValid then addr s.ptrBin + 1 else addr s.ptrBin

def edge (ready : Bool) (wrGray : Ptr addrWidth) (ramRdata : BitVec width) : Rd width addrWidth :=
  let captured := if s.loadPendingStage2 then {s with outData := ramRdata, outValid := true} else s
  let moved := {captured with
    loadPendingStage2 := s.loadPendingStage1
    loadPendingStage1 := false
    ptrBin := s.ptrBinNext ready
    ptrGray := binToGray (s.ptrBinNext ready)
    wrSync := shift wrGray s.wrSync}
  if s.fire ready then
    {moved with outValid := false, loadPendingStage1 := s.startLoad ready, loadPendingStage2 := false}
  else if s.startLoad ready then {moved with loadPendingStage1 := true}
  else moved

end Rd

variable (s : Regs width addrWidth) (e : Inputs width addrWidth)

def accepted : List (BitVec width) := match e.src with
  | some i => if s.wr.doWrite i.wrValid then [i.wdata] else []
  | none => []

def taken : List (BitVec width) := match e.dst with
  | some i => if s.rd.fire i.rdReady then [s.rd.outData] else []
  | none => []

def wrGrayNext : Ptr addrWidth := match e.src with
  | some i => s.wr.ptrGrayNext i.wrValid
  | none => s.wr.ptrGray

def rdGrayNext : Ptr addrWidth := match e.dst with
  | some i => binToGray (s.rd.ptrBinNext i.rdReady)
  | none => s.rd.ptrGray

def nextWr : Wr addrWidth := match e.src with
  | some i => s.wr.edge i.wrValid (Gray.mix i.rdNew s.rd.ptrGray (rdGrayNext s e))
  | none => s.wr

def nextRd : Rd width addrWidth := match e.dst with
  | some i => s.rd.edge i.rdReady (Gray.mix i.wrNew s.wr.ptrGray (wrGrayNext s e)) s.ram.rdata
  | none => s.rd

/- The array is read before it is written, but where both meet the word read is any word. -/
def nextRam : SyncDpram width addrWidth :=
  let read := match e.dst with
    | some i =>
      let collides := !(accepted s e).isEmpty && s.rd.raddr == addr s.wr.ptrBin
      s.ram.readEdge (if collides then i.collided else s.ram.mem s.rd.raddr)
    | none => s.ram
  match e.src with
  | some i => read.writeEdge (s.wr.doWrite i.wrValid) (addr s.wr.ptrBin) i.wdata
  | none => read

def step : Regs width addrWidth := ⟨nextWr s e,nextRd s e,nextRam s e⟩

def machine : Machine (Regs width addrWidth) (Inputs width addrWidth) Unit where
  output _ _ := ()
  next := step

def reset (s : Regs width addrWidth) : Regs width addrWidth where
  wr := ⟨0,0,false,clear 0 s.wr.rdSync⟩
  rd := {s.rd with
    ptrBin := 0
    ptrGray := 0
    outValid := false
    loadPendingStage1 := false
    loadPendingStage2 := false
    wrSync := clear 0 s.rd.wrSync}
  ram := s.ram

end RiscvSoc.AsyncFifo
