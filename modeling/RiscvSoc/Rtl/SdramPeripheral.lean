import RiscvSoc.Lib.LittleEndian
import RiscvSoc.Rtl.BusCdcBridge

/-! `sdram_peripheral.sv` on its SDRAM clock: what the bridge hands over, the accesses to words that serve it, and the bytes that
are taken out of the words or put into them. -/
namespace RiscvSoc.SdramPeripheral
open LittleEndian (Byte byteAt)

abbrev Word := BitVec 32

/- `periph_mem_a_*`, as the bridge hands it over. -/
abbrev Request := BusCdc.Request 32 32 2

def decodeLimitBytes : Word := 0x10000000
def interfaceLimitBytes (w : Nat) : Word := (1#64 <<< (w + 2)).setWidth 32

/- The parameters that pass the checks; `w` is `WORD_ADDR_WIDTH`. -/
structure Params (w : Nat) where
  baseAddr : Word
  addrSize : Word
  shiftable : w ≤ 61
  baseAligned : baseAddr.extractLsb' 0 2 = 0
  nonZero : addrSize ≠ 0
  sizeAligned : addrSize.extractLsb' 0 2 = 0
  decoded : addrSize ≤ decodeLimitBytes
  addressed : addrSize ≤ interfaceLimitBytes w
  window : baseAddr.extractLsb' 28 4 = (baseAddr + addrSize - 1).extractLsb' 28 4

inductive State where
  | idle
  | readCmd
  | readWaitBusy
  | readWaitDone
  | readProcess
  | writeCmd
  | writeWaitBusy
  | writeWaitDone
  | respond
  deriving DecidableEq, Repr

structure Regs (w : Nat) where
  state : State
  reqAddr : Word
  reqWdata : Word
  reqWe : Bool
  reqSize : BitVec 2
  reqSplit : Bool
  reqWordBaseAddr : BitVec w
  readSecondWordPending : Bool
  readWord0 : Word
  readWord1 : Word
  writeWord0 : Word
  writeWord1 : Word
  writeSecondWordPending : Bool
  activeWriteWordIsSecond : Bool
  responseData : Word
  responsePending : Bool
  wordRd : Bool
  wordWr : Bool
  wordAddr : BitVec w
  wordData : Word
  deriving DecidableEq, Repr

structure Inputs where
  memA : Request
  memAValid : Bool
  memDReady : Bool
  wordQ : Word
  wordBusy : Bool
  deriving DecidableEq, Repr

structure Outputs where
  memAReady : Bool
  memDRdata : Word
  memDValid : Bool
  deriving DecidableEq, Repr

def accessByteCount (size : BitVec 2) : BitVec 3 :=
  if size = 0 then 1 else if size = 1 then 2 else if size = 2 then 4 else 0

def accessByteMask (size offset : BitVec 2) : BitVec 8 :=
  let offsetLimit : BitVec 4 := offset.setWidth 4 + (accessByteCount size).setWidth 4
  (List.range 8).foldl (fun byteMask byteIdx =>
    if offset.toNat ≤ byteIdx && byteIdx < offsetLimit.toNat then byteMask ||| 1 <<< byteIdx else byteMask) 0

def expandByteMask (byteMask : BitVec 8) : BitVec 64 :=
  LittleEndian.word 64 ((List.range 8).map fun byteIdx => if byteMask.getLsbD byteIdx then 0xFF else 0)

def extractAccessData (readData : BitVec 64) (size offset : BitVec 2) : Word :=
  let shiftedData := readData >>> (8 * offset.toNat)
  if size = 0 then (shiftedData.setWidth 8).setWidth 32
  else if size = 1 then (shiftedData.setWidth 16).setWidth 32
  else if size = 2 then shiftedData.setWidth 32
  else 0

def mergeAccessData (currentData : BitVec 64) (writeData : Word) (size offset : BitVec 2) : BitVec 64 :=
  let shiftedWriteData := writeData.setWidth 64 <<< (8 * offset.toNat)
  let bitMask := expandByteMask (accessByteMask size offset)
  (currentData &&& ~~~bitMask) ||| (shiftedWriteData &&& bitMask)

variable {w : Nat}

section Incoming
variable (p : Params w) (r : Request)

def incomingAddrGeBase : Bool := p.baseAddr ≤ r.addr
def incomingByteOffset : Word := r.addr - p.baseAddr
def incomingWordByteOffset : Word := (incomingByteOffset p r).extractLsb' 2 30 ++ 0#2
def incomingAccessBytes : BitVec 3 := accessByteCount r.size
def incomingSplit : Bool :=
  4#4 < (r.addr.extractLsb' 0 2).setWidth 4 + (incomingAccessBytes r).setWidth 4
def incomingLastOffsetExt : BitVec 33 := (incomingByteOffset p r).setWidth 33 + (incomingAccessBytes r).setWidth 33 - 1
def incomingInRange : Bool :=
  incomingAccessBytes r ≠ 0 && incomingAddrGeBase p r && incomingLastOffsetExt p r < p.addrSize.setWidth 33
def incomingWordBaseAddr : BitVec w := (incomingWordByteOffset p r).extractLsb' 2 w

end Incoming

namespace Regs
variable (s : Regs w)

def reqOffset : BitVec 2 := s.reqAddr.extractLsb' 0 2
def reqReadConcat : BitVec 64 := s.readWord1 ++ s.readWord0
def reqExtractedRdata : Word := extractAccessData s.reqReadConcat s.reqSize s.reqOffset
def reqMergedWriteConcat : BitVec 64 := mergeAccessData s.reqReadConcat s.reqWdata s.reqSize s.reqOffset
def activeReadWordAddr : BitVec w := s.reqWordBaseAddr + (BitVec.ofBool s.readSecondWordPending).setWidth w
def activeWriteWordAddr : BitVec w := s.reqWordBaseAddr + (BitVec.ofBool s.activeWriteWordIsSecond).setWidth w
def activeWriteWordData : Word := if s.activeWriteWordIsSecond then s.writeWord1 else s.writeWord0

def memAReady : Bool := s.state = .idle && !s.responsePending
def memAHandshake (i : Inputs) : Bool := i.memAValid && s.memAReady
def memDHandshake (i : Inputs) : Bool := s.responsePending && i.memDReady

def reset : Regs w :=
  {s with
    state := .idle
    responsePending := false
    wordRd := false
    wordWr := false
    readSecondWordPending := false
    writeSecondWordPending := false
    activeWriteWordIsSecond := false}

def base (i : Inputs) : Regs w :=
  {s with wordRd := false, wordWr := false, responsePending := s.responsePending && !s.memDHandshake i}

def answer (data : Word) : Regs w := {s with responseData := data, responsePending := true, state := .respond}

def accept (p : Params w) (r : Request) : Regs w :=
  let latched := {s with
    reqAddr := r.addr
    reqWdata := r.wdata
    reqWe := r.we
    reqSize := r.size
    reqSplit := incomingSplit r
    reqWordBaseAddr := incomingWordBaseAddr p r
    readSecondWordPending := false
    writeSecondWordPending := false
    activeWriteWordIsSecond := false}
  if !incomingInRange p r then latched.answer 0
  else if r.we && r.size = 2 && r.addr.extractLsb' 0 2 = 0 then
    {latched with writeWord0 := r.wdata, writeWord1 := 0, state := .writeCmd}
  else {latched with state := .readCmd}

def readDone (b : Regs w) (wordQ : Word) : Regs w :=
  if !s.readSecondWordPending then
    if s.reqSplit then {b with readWord0 := wordQ, readSecondWordPending := true, state := .readCmd}
    else {b with readWord0 := wordQ, readWord1 := 0, state := .readProcess}
  else {b with readWord1 := wordQ, state := .readProcess}

def process (b : Regs w) : Regs w :=
  if s.reqWe then
    {b with
      writeWord0 := s.reqMergedWriteConcat.extractLsb' 0 32
      writeWord1 := s.reqMergedWriteConcat.extractLsb' 32 32
      writeSecondWordPending := s.reqSplit
      activeWriteWordIsSecond := false
      state := .writeCmd}
  else b.answer s.reqExtractedRdata

def writeDone (b : Regs w) : Regs w :=
  if !s.activeWriteWordIsSecond && s.writeSecondWordPending then {b with activeWriteWordIsSecond := true, state := .writeCmd}
  else b.answer 0

def next (p : Params w) (i : Inputs) : Regs w :=
  let b := s.base i
  match s.state with
  | .idle => if s.memAHandshake i then b.accept p i.memA else b
  | .readCmd => if i.wordBusy then b else {b with wordRd := true, wordAddr := s.activeReadWordAddr, state := .readWaitBusy}
  | .readWaitBusy => if i.wordBusy then {b with state := .readWaitDone} else b
  | .readWaitDone => if i.wordBusy then b else s.readDone b i.wordQ
  | .readProcess => s.process b
  | .writeCmd =>
    if i.wordBusy then b
    else {b with
      wordWr := true
      wordAddr := s.activeWriteWordAddr
      wordData := s.activeWriteWordData
      state := .writeWaitBusy}
  | .writeWaitBusy => if i.wordBusy then {b with state := .writeWaitDone} else b
  | .writeWaitDone => if i.wordBusy then b else s.writeDone b
  | .respond => if s.memDHandshake i then {b with state := .idle} else b

def outputs : Outputs := ⟨s.memAReady,s.responseData,s.responsePending⟩

def accepted (i : Inputs) : List Request := if s.memAHandshake i then [i.memA] else []
def returned (i : Inputs) : List Word := if s.memDHandshake i then [s.responseData] else []

end Regs

end RiscvSoc.SdramPeripheral
