import RiscvSoc.Rtl.I2sSerializer
import RiscvSoc.Rtl.SyncFifo

/-! `audiosys_peripheral.sv` on `audio_clk`, behind its bus bridge. What the tone generator
gives in a cycle is an input, so that nothing depends on its table. -/
namespace RiscvSoc.Audiosys
open Mealy

def regMode : BitVec 5 := 0x00
def regTuningWord : BitVec 5 := 0x04
def regFifoSample : BitVec 5 := 0x08
def regFifoSpace : BitVec 5 := 0x0C

def audioModeOff : BitVec 2 := 0
def audioModeTone : BitVec 2 := 1
def audioModeFifo : BitVec 2 := 2

def sanitizeAudioMode (modeValue : BitVec 32) : BitVec 2 :=
  let modeBits := modeValue.extractLsb' 0 2
  if modeBits = audioModeOff ∨ modeBits = audioModeTone ∨ modeBits = audioModeFifo then modeBits else audioModeOff

structure Inputs where
  memAAddr : BitVec 32
  memAWdata : BitVec 32
  memAWe : Bool
  memASize : BitVec 2
  memAValid : Bool
  memDReady : Bool
  toneSample : BitVec 16
  toneZeroCross : Bool
  toneSampleValid : Bool
  deriving DecidableEq, Repr

/- `AUDIO_FIFO_DEPTH` is `2 ^ ptrWidth`, `I2S_OUTPUT_SAMPLE_WIDTH` is `outputWidth`, and
`AUDIO_PHASE_WIDTH` its default. -/
structure Regs (ptrWidth outputWidth : Nat) where
  responseData : BitVec 32
  responsePending : Bool
  tuningWord : BitVec 32
  audioModeReq : BitVec 2
  audioModeActive : BitVec 2
  toneSampleHold : BitVec 16
  toneSampleHoldValid : Bool
  fifoRightHold : BitVec 16
  fifoFrameValid : Bool
  fifo : SyncFifo.Regs 32 ptrWidth
  i2s : I2sSerializer.Regs outputWidth

variable {ptrWidth outputWidth : Nat}

/- `audio_rst`; the held samples and the response data keep what they have. -/
def reset (s : Regs ptrWidth outputWidth) : Regs ptrWidth outputWidth :=
  {s with
    responsePending := false
    tuningWord := 0
    audioModeReq := audioModeOff
    audioModeActive := audioModeOff
    toneSampleHoldValid := false
    fifoFrameValid := false
    fifo := SyncFifo.reset s.fifo
    i2s := I2sSerializer.reset}

namespace Regs

def memAReady (s : Regs ptrWidth outputWidth) : Bool := !s.responsePending
def memAHandshake (s : Regs ptrWidth outputWidth) (i : Inputs) : Bool := i.memAValid && s.memAReady
def memDHandshake (s : Regs ptrWidth outputWidth) (i : Inputs) : Bool := s.responsePending && i.memDReady

def wordAccess (i : Inputs) : Bool := i.memASize == 0b10 && i.memAAddr.extractLsb' 0 2 == 0
def register (i : Inputs) : BitVec 5 := i.memAAddr.extractLsb' 0 5

def i2sSampleReady (s : Regs ptrWidth outputWidth) : Bool := s.i2s.reloadPending
def audioFrameBoundary (s : Regs ptrWidth outputWidth) : Bool := s.i2sSampleReady && s.i2s.lrclk
def toneModeSwitchOk (s : Regs ptrWidth outputWidth) (i : Inputs) : Bool :=
  s.audioFrameBoundary && i.toneZeroCross && i.toneSampleValid

/- A reload with LRCLK high is that of the left channel. -/
def fifoLeftReload (s : Regs ptrWidth outputWidth) : Bool := s.i2s.lrclk

def fifoInputs (s : Regs ptrWidth outputWidth) (i : Inputs) : SyncFifo.Inputs 32 where
  wrValid := s.memAHandshake i && wordAccess i && i.memAWe && register i == regFifoSample && s.audioModeReq == audioModeFifo
  wdata := i.memAWdata
  rdReady := s.audioModeActive == audioModeFifo && s.i2sSampleReady && s.fifoLeftReload

def fifoSpaceCount (s : Regs ptrWidth outputWidth) : BitVec (ptrWidth + 1) :=
  BitVec.ofNat (ptrWidth + 1) (SyncFifo.depth ptrWidth) - s.fifo.count
def fifoLowWater (s : Regs ptrWidth outputWidth) : Bool :=
  s.audioModeActive == audioModeFifo && decide (s.fifo.count < BitVec.ofNat (ptrWidth + 1) (SyncFifo.depth ptrWidth / 2))

def i2sSampleData (s : Regs ptrWidth outputWidth) (i : Inputs) : BitVec 16 :=
  if s.audioModeActive = audioModeTone then
    if s.i2s.lrclk || !s.toneSampleHoldValid then i.toneSample else s.toneSampleHold
  else if s.audioModeActive = audioModeFifo then
    if s.fifoLeftReload then if s.fifo.outValid then s.fifo.outData.extractLsb' 16 16 else 0
    -- no stale right channel before a stereo frame has been popped
    else if s.fifoFrameValid then s.fifoRightHold else 0
  else 0

def i2sInputs (s : Regs ptrWidth outputWidth) (i : Inputs) : I2sSerializer.Inputs 16 where
  sampleData := s.i2sSampleData i
  sampleValid := if s.audioModeActive = audioModeTone then i.toneSampleValid else s.audioModeActive != audioModeOff

/- When the requested mode takes effect: between tone and FIFO at a zero crossing of the tone. -/
def modeSwitches (s : Regs ptrWidth outputWidth) (i : Inputs) : Bool :=
  s.audioModeActive != s.audioModeReq &&
    if s.audioModeActive = audioModeTone ∧ s.audioModeReq = audioModeFifo ∨
      s.audioModeActive = audioModeFifo ∧ s.audioModeReq = audioModeTone then s.toneModeSwitchOk i
    else s.audioFrameBoundary

def readData (s : Regs ptrWidth outputWidth) (i : Inputs) : BitVec 32 :=
  if wordAccess i && !i.memAWe then
    if register i = regMode then s.audioModeReq.setWidth 32
    else if register i = regTuningWord then s.tuningWord
    else if register i = regFifoSpace then s.fifoSpaceCount.setWidth 32
    else 0
  else 0

def writes (s : Regs ptrWidth outputWidth) (i : Inputs) (r : BitVec 5) : Bool :=
  s.memAHandshake i && wordAccess i && i.memAWe && register i == r

def next (s : Regs ptrWidth outputWidth) (i : Inputs) : Regs ptrWidth outputWidth where
  responseData := if s.memAHandshake i then s.readData i else s.responseData
  responsePending := s.memAHandshake i || s.responsePending && !s.memDHandshake i
  tuningWord := if s.writes i regTuningWord then i.memAWdata else s.tuningWord
  audioModeReq := if s.writes i regMode then sanitizeAudioMode i.memAWdata else s.audioModeReq
  audioModeActive := if s.modeSwitches i then s.audioModeReq else s.audioModeActive
  toneSampleHold :=
    if s.i2sSampleReady && (!s.toneSampleHoldValid || s.i2s.lrclk) then i.toneSample else s.toneSampleHold
  toneSampleHoldValid := s.i2sSampleReady || s.toneSampleHoldValid
  fifoRightHold :=
    if s.audioModeActive == audioModeFifo && s.i2sSampleReady && s.fifoLeftReload && s.fifo.outValid then
      s.fifo.outData.extractLsb' 0 16
    else s.fifoRightHold
  fifoFrameValid :=
    if s.audioModeActive ≠ audioModeFifo then false
    else if s.i2sSampleReady && s.fifoLeftReload then s.fifo.outValid
    else s.fifoFrameValid
  fifo := SyncFifo.step s.fifo (s.fifoInputs i)
  i2s := I2sSerializer.next s.i2s (s.i2sInputs i)

end Regs

structure Outputs where
  memAReady : Bool
  memDRdata : BitVec 32
  memDValid : Bool
  audioDac : Bool
  audioLrclk : Bool
  fifoLowWater : Bool
  deriving DecidableEq, Repr

def Regs.outputs (s : Regs ptrWidth outputWidth) : Outputs where
  memAReady := s.memAReady
  memDRdata := s.responseData
  memDValid := s.responsePending
  audioDac := s.i2s.sd
  audioLrclk := s.i2s.lrclk
  fifoLowWater := s.fifoLowWater

def machine : Machine (Regs ptrWidth outputWidth) Inputs Outputs := ⟨fun s _ => s.outputs,Regs.next⟩

end RiscvSoc.Audiosys
