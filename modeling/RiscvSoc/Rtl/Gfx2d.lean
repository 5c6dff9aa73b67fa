import RiscvSoc.Rtl.BitmapTextRenderer
import RiscvSoc.Rtl.SyncFifo
import RiscvSoc.Rtl.VideoSync

/-! `gfx2d_peripheral.sv` in the domain of `video_clk`, behind the reset synchroniser and the bus
crossing. -/
namespace RiscvSoc.Gfx2d
open BitmapTextRenderer (Tiles FontAddr)

/- The windows of the character map and of the font must not overlap. -/
structure Config where
  video : VideoSync.Config
  tiles : Tiles
  mapFits : tiles.columnBits + tiles.rowBits ≤ 12

def regScrollX : BitVec 16 := 0x0000
def regScrollY : BitVec 16 := 0x0004
def regControl : BitVec 16 := 0x0008
def regFrameIndex : BitVec 16 := 0x000C
def charMapBaseOffset : BitVec 16 := 0x1000
def fontBaseOffset : BitVec 16 := 0x2000
def paletteBaseOffset : BitVec 16 := 0x6000

variable (cfg : Config)

def charMapEndOffset : BitVec 16 := charMapBaseOffset + BitVec.ofNat 16 (cfg.tiles.columns * cfg.tiles.rows)
def fontEndOffset : BitVec 16 := fontBaseOffset + BitVec.ofNat 16 (2 ^ 14)
def paletteEndOffset : BitVec 16 := paletteBaseOffset + BitVec.ofNat 16 (2 ^ 8 * 4)

structure Inputs where
  memAAddr : BitVec 32
  memAWdata : BitVec 32
  memAWe : Bool
  memASize : BitVec 2
  memAValid : Bool
  memDReady : Bool
  deriving DecidableEq, Repr, Inhabited

structure Regs where
  sync : VideoSync.Regs cfg.video
  renderer : BitmapTextRenderer.Regs cfg.tiles
  charRam : SyncDpram 8 cfg.tiles.charmapAddrWidth
  fontRam : SyncDpram 8 14
  paletteRam : SyncDpram 24 8
  responseData : BitVec 32
  responsePending : Bool
  scrollXReg : BitVec 32
  scrollYReg : BitVec 32
  videoEnableReg : Bool
  rendererVideoEnable : Bool
  frameIndexReg : BitVec 32
  rendererScrollX : BitVec cfg.tiles.scrollXWidth
  rendererScrollY : BitVec cfg.tiles.scrollYWidth
  videoDePipe : BitVec 8
  videoHsPipe : BitVec 8
  videoVsPipe : BitVec 8
  videoDe : Bool
  videoHs : Bool
  videoVs : Bool
  videoRgb : BitVec 24

variable {cfg}

namespace Inputs
variable (i : Inputs)

def offset : BitVec 16 := i.memAAddr.extractLsb' 0 16
def byteAccess : Bool := i.memASize == 0b00
def wordAccess : Bool := i.memASize == 0b10 && i.memAAddr.extractLsb' 0 2 == 0
def regAccess : Bool := i.wordAccess && i.offset.ult charMapBaseOffset
def charMapAccess (cfg : Config) : Bool :=
  i.byteAccess && !i.offset.ult charMapBaseOffset && i.offset.ult (charMapEndOffset cfg)
def fontAccess : Bool := i.byteAccess && !i.offset.ult fontBaseOffset && i.offset.ult fontEndOffset
def paletteAccess : Bool := i.wordAccess && !i.offset.ult paletteBaseOffset && i.offset.ult paletteEndOffset

end Inputs

namespace Regs
variable (s : Regs cfg) (i : Inputs)

def memAReady : Bool := !s.responsePending
def memAHandshake : Bool := i.memAValid && s.memAReady
def memDHandshake : Bool := s.responsePending && i.memDReady

def charMemAddr : BitVec cfg.tiles.charmapAddrWidth := s.renderer.charMemAddr
def fontMemAddr : FontAddr := s.renderer.fontMemAddr s.charRam.rdata
def paletteMemAddr : BitVec 8 := s.fontRam.rdata

def charRamRead : SyncDpram 8 cfg.tiles.charmapAddrWidth := s.charRam.readEdge (s.charRam.mem s.charMemAddr)
def fontRamRead : SyncDpram 8 14 := s.fontRam.readEdge (s.fontRam.mem s.fontMemAddr)
def paletteRamRead : SyncDpram 24 8 := s.paletteRam.readEdge (s.paletteRam.mem s.paletteMemAddr)

def charRamNext : SyncDpram 8 cfg.tiles.charmapAddrWidth :=
  s.charRamRead.writeEdge (s.memAHandshake i && i.memAWe && i.charMapAccess cfg)
    ((i.offset - charMapBaseOffset).setWidth _) (i.memAWdata.extractLsb' 0 8)
def fontRamNext : SyncDpram 8 14 :=
  s.fontRamRead.writeEdge (s.memAHandshake i && i.memAWe && i.fontAccess)
    ((i.offset - fontBaseOffset).setWidth _) (i.memAWdata.extractLsb' 0 8)
def paletteRamNext : SyncDpram 24 8 :=
  s.paletteRamRead.writeEdge (s.memAHandshake i && i.memAWe && i.paletteAccess)
    (((i.offset - paletteBaseOffset) >>> 2).setWidth _) (i.memAWdata.extractLsb' 0 24)

def rendererInputs : BitmapTextRenderer.Inputs cfg.tiles cfg.video.xBits cfg.video.yBits :=
  ⟨s.sync.activeX,s.sync.activeY,s.rendererScrollX,s.rendererScrollY⟩

def registerWritten (register : BitVec 16) : Bool :=
  s.memAHandshake i && i.regAccess && i.memAWe && i.offset == register

def readData : BitVec 32 :=
  if i.offset = regScrollX then s.scrollXReg
  else if i.offset = regScrollY then s.scrollYReg
  else if i.offset = regControl then 0#31 ++ BitVec.ofBool s.videoEnableReg
  else if i.offset = regFrameIndex then s.frameIndexReg
  else 0

def next : Regs cfg where
  sync := VideoSync.next s.sync
  renderer := s.renderer.next s.rendererInputs
  charRam := s.charRamNext i
  fontRam := s.fontRamNext i
  paletteRam := s.paletteRamNext i
  responseData :=
    if s.memAHandshake i then if i.regAccess && !i.memAWe then s.readData i else 0 else s.responseData
  responsePending := s.memAHandshake i || s.responsePending && !s.memDHandshake i
  scrollXReg := if s.registerWritten i regScrollX then i.memAWdata else s.scrollXReg
  scrollYReg := if s.registerWritten i regScrollY then i.memAWdata else s.scrollYReg
  videoEnableReg := if s.registerWritten i regControl then i.memAWdata.getLsbD 0 else s.videoEnableReg
  rendererVideoEnable := if s.sync.vblankStart then s.videoEnableReg else s.rendererVideoEnable
  frameIndexReg := if s.sync.frameStart then s.frameIndexReg + 1 else s.frameIndexReg
  rendererScrollX := if s.sync.vblankStart then s.scrollXReg.extractLsb' 0 _ else s.rendererScrollX
  rendererScrollY := if s.sync.vblankStart then s.scrollYReg.extractLsb' 0 _ else s.rendererScrollY
  videoDePipe := s.videoDePipe.shiftConcat s.sync.activeVideo
  videoHsPipe := s.videoHsPipe.shiftConcat s.sync.hsync
  videoVsPipe := s.videoVsPipe.shiftConcat s.sync.vsync
  videoDe := s.videoDePipe.getLsbD 7
  videoHs := s.videoHsPipe.getLsbD 7
  videoVs := s.videoVsPipe.getLsbD 7
  videoRgb := if s.rendererVideoEnable && s.videoDePipe.getLsbD 7 then s.paletteRam.rdata else 0

/- An edge under `video_rst`. The memories and the response data have no reset, and nothing is
written. -/
def reset : Regs cfg where
  sync := VideoSync.reset cfg.video
  renderer := BitmapTextRenderer.reset cfg.tiles
  charRam := s.charRamRead
  fontRam := s.fontRamRead
  paletteRam := s.paletteRamRead
  responseData := s.responseData
  responsePending := false
  scrollXReg := 0
  scrollYReg := 0
  videoEnableReg := false
  rendererVideoEnable := false
  frameIndexReg := 0
  rendererScrollX := 0
  rendererScrollY := 0
  videoDePipe := 0
  videoHsPipe := BitVec.fill 8 !cfg.video.hsyncActiveHigh
  videoVsPipe := BitVec.fill 8 !cfg.video.vsyncActiveHigh
  videoDe := false
  videoHs := !cfg.video.hsyncActiveHigh
  videoVs := !cfg.video.vsyncActiveHigh
  videoRgb := 0

end Regs

/- The states after the edges of a run. -/
def run (s : Regs cfg) (inputs : Nat → Inputs) : Nat → Regs cfg
  | 0 => s
  | n + 1 => (run s inputs n).next (inputs n)

end RiscvSoc.Gfx2d
