import RiscvSoc.Rtl.Gfx2d

/-! The pixels of `gfx2d_peripheral.sv`. A pixel leaves nine edges after its position has entered
the renderer, with the signals of that position. -/
namespace RiscvSoc.Gfx2d
open BitNumbers Raster BitmapTextRenderer VideoSync

variable {cfg : Config}

structure Contents (t : Tiles) where
  charMap : BitVec t.charmapAddrWidth → BitVec 8
  font : FontAddr → BitVec 8
  palette : BitVec 8 → BitVec 24

def Contents.colour {t : Tiles} (c : Contents t) (p : Point) : BitVec 24 :=
  c.palette (c.font (glyphAddr (c.charMap (charAddr t p)) p))

/- The contents while the pixel that leaves after edge `k + 9` is looked up. -/
structure LookedUp (r : Nat → Regs cfg) (k : Nat) (c : Contents cfg.tiles) : Prop where
  charMap : (r (k + 2)).charRam.mem = c.charMap
  font : (r (k + 4)).fontRam.mem = c.font
  palette : (r (k + 6)).paletteRam.mem = c.palette

def hsyncOut (s : Regs cfg) : Bool := s.videoHs == cfg.video.hsyncActiveHigh
def vsyncOut (s : Regs cfg) : Bool := s.videoVs == cfg.video.vsyncActiveHigh

/- What a screen that follows the outputs knows before those of edge `n`. -/
def shownOn (r : Nat → Regs cfg) : Nat → Option Screen
  | 0 => none
  | n + 1 => screenNext (shownOn r n) (r n).videoDe (vsyncOut (r n))

structure Effective (cfg : Config) where
  scrollX : BitVec cfg.tiles.scrollXWidth
  scrollY : BitVec cfg.tiles.scrollYWidth
  enable : Bool
  deriving DecidableEq, Repr

def Regs.effective (s : Regs cfg) : Effective cfg := ⟨s.rendererScrollX,s.rendererScrollY,s.rendererVideoEnable⟩

def Regs.requested (s : Regs cfg) : Effective cfg :=
  ⟨s.scrollXReg.extractLsb' 0 _,s.scrollYReg.extractLsb' 0 _,s.videoEnableReg⟩

/- The outputs of edge `k + 9` are the colour of a point of the screen under the scroll. -/
def Emits (r : Nat → Regs cfg) (k : Nat) (p : Screen) : Prop :=
  ∀ c, LookedUp r k c → (r (k + 9)).videoRgb =
    if (r (k + 9)).effective.enable
    then c.colour ⟨p.column + (r (k + 9)).effective.scrollX.toNat,p.line + (r (k + 9)).effective.scrollY.toNat⟩
    else 0

/- What the module shows after a reset. -/
structure Displays (r : Nat → Regs cfg) : Prop where
  signals : ∀ k, (r (k + 10)).videoDe = cfg.video.timing.active (cfg.video.timing.beam (k + 1)) ∧
    hsyncOut (r (k + 10)) = cfg.video.timing.hsync (cfg.video.timing.beam (k + 1)) ∧
    vsyncOut (r (k + 10)) = cfg.video.timing.vsync (cfg.video.timing.beam (k + 1))
  beam : ∀ k, (r (k + 10)).videoDe = true →
    Emits r (k + 1) (cfg.video.timing.screen (cfg.video.timing.beam (k + 1)))
  designated : ∀ n p, shownOn r n = some p → (r n).videoDe = true →
    p.column < cfg.video.timing.hActive ∧ p.line < cfg.video.timing.vActive ∧ ∃ k, n = k + 9 ∧ Emits r k p
  -- a change falls into the dark lines before the next frame
  changes : ∀ n, (r (n + 1)).effective ≠ (r n).effective → (r (n + 1)).effective = (r n).requested ∧
    cfg.video.timing.beam n = ⟨0,cfg.video.timing.vBackPorch + cfg.video.timing.vActive⟩ ∧
    ∀ m, (∀ j, j < m → vsyncOut (r (n + 1 + j)) = false) → (r (n + 1 + m)).videoDe = false

section stages
variable (s : Regs cfg) (inputs : Nat → Inputs) (k : Nat)

theorem charRead : (run s inputs (k + 2)).charRam.rdata =
    (run s inputs k).charRam.mem (run s inputs k).charMemAddr := by
  have second : (run s inputs (k + 2)).charRam.rdata = (run s inputs (k + 1)).charRam.rdataPipe := rfl
  rw [second]
  rfl

theorem fontRead : (run s inputs (k + 2)).fontRam.rdata =
    (run s inputs k).fontRam.mem (run s inputs k).fontMemAddr := by
  have second : (run s inputs (k + 2)).fontRam.rdata = (run s inputs (k + 1)).fontRam.rdataPipe := rfl
  rw [second]
  rfl

theorem paletteRead : (run s inputs (k + 2)).paletteRam.rdata =
    (run s inputs k).paletteRam.mem (run s inputs k).paletteMemAddr := by
  have second : (run s inputs (k + 2)).paletteRam.rdata = (run s inputs (k + 1)).paletteRam.rdataPipe := rfl
  rw [second]
  rfl

theorem glyphRead : (run s inputs (k + 3)).renderer.glyphOffsetD2 = (run s inputs k).renderer.glyphOffset := by
  have third : (run s inputs (k + 3)).renderer.glyphOffsetD2 = (run s inputs (k + 2)).renderer.glyphOffsetD1 := rfl
  have second : (run s inputs (k + 2)).renderer.glyphOffsetD1 = (run s inputs (k + 1)).renderer.glyphOffsetD0 := rfl
  rw [third,second]
  rfl

theorem scrolledNext : Scrolled (run s inputs (k + 1)).renderer
    ⟨(run s inputs k).sync.activeX.toNat + (run s inputs k).effective.scrollX.toNat,
      (run s inputs k).sync.activeY.toNat + (run s inputs k).effective.scrollY.toNat⟩ :=
  nextScrolled (run s inputs k).renderer (run s inputs k).rendererInputs

theorem charLookup {c : Contents cfg.tiles} {p : Point} (looked : LookedUp (run s inputs) k c)
    (scrolled : Scrolled (run s inputs (k + 1)).renderer p) :
    (run s inputs (k + 4)).fontMemAddr = glyphAddr (c.charMap (charAddr cfg.tiles p)) p := by
  have address : (run s inputs (k + 2)).charMemAddr = charAddr cfg.tiles p := charAddrNext cfg.mapFits scrolled
  have char := charRead s inputs (k + 2)
  rw [looked.charMap,address] at char
  have offset := congrArg BitVec.toNat (glyphRead s inputs (k + 1))
  rw [glyphOffsetValue scrolled] at offset
  rw [Regs.fontMemAddr,char,fontAddrValue _ offset]

theorem paletteLookup {c : Contents cfg.tiles} {p : Point} (looked : LookedUp (run s inputs) k c)
    (scrolled : Scrolled (run s inputs (k + 1)).renderer p) :
    (run s inputs (k + 8)).paletteRam.rdata = c.colour p := by
  have glyph := fontRead s inputs (k + 4)
  rw [looked.font,charLookup s inputs k looked scrolled] at glyph
  have colour := paletteRead s inputs (k + 6)
  rw [looked.palette,Regs.paletteMemAddr,glyph] at colour
  exact colour

theorem colourNext (s : Regs cfg) (i : Inputs) : (s.next i).videoRgb =
    if s.effective.enable && s.videoDePipe.getLsbD 7 then s.paletteRam.rdata else 0 := rfl

theorem deShifts (n : Nat) :
    (run s inputs (n + 1)).videoDePipe = (run s inputs n).videoDePipe.shiftConcat (run s inputs n).sync.activeVideo := rfl

theorem vsShifts (n : Nat) :
    (run s inputs (n + 1)).videoVsPipe = (run s inputs n).videoVsPipe.shiftConcat (run s inputs n).sync.vsync := rfl

theorem hsShifts (n : Nat) :
    (run s inputs (n + 1)).videoHsPipe = (run s inputs n).videoHsPipe.shiftConcat (run s inputs n).sync.hsync := rfl

theorem pixelLeaves : (run s inputs (k + 9)).videoDe = (run s inputs k).sync.activeVideo ∧
    (run s inputs (k + 9)).videoHs = (run s inputs k).sync.hsync ∧
    (run s inputs (k + 9)).videoVs = (run s inputs k).sync.vsync ∧
    (run s inputs (k + 9)).videoRgb =
      if (run s inputs (k + 8)).effective.enable && (run s inputs k).sync.activeVideo
      then (run s inputs (k + 8)).paletteRam.rdata else 0 := by
  have de : (run s inputs (k + 8)).videoDePipe.getLsbD 7 = (run s inputs k).sync.activeVideo :=
    @shiftDelays 8 (fun n => (run s inputs n).videoDePipe) (fun n => (run s inputs n).sync.activeVideo)
      (deShifts s inputs) k 7 (by decide)
  have hs : (run s inputs (k + 8)).videoHsPipe.getLsbD 7 = (run s inputs k).sync.hsync :=
    @shiftDelays 8 (fun n => (run s inputs n).videoHsPipe) (fun n => (run s inputs n).sync.hsync)
      (hsShifts s inputs) k 7 (by decide)
  have vs : (run s inputs (k + 8)).videoVsPipe.getLsbD 7 = (run s inputs k).sync.vsync :=
    @shiftDelays 8 (fun n => (run s inputs n).videoVsPipe) (fun n => (run s inputs n).sync.vsync)
      (vsShifts s inputs) k 7 (by decide)
  have rgb : (run s inputs (k + 9)).videoRgb =
      if (run s inputs (k + 8)).effective.enable && (run s inputs (k + 8)).videoDePipe.getLsbD 7
      then (run s inputs (k + 8)).paletteRam.rdata else 0 := colourNext (run s inputs (k + 8)) (inputs (k + 8))
  rw [de] at rgb
  exact ⟨de,hs,vs,rgb⟩

theorem effectiveNext (s : Regs cfg) (i : Inputs) :
    (s.next i).effective = if s.sync.vblankStart then s.requested else s.effective := by
  cases blank : s.sync.vblankStart <;> simp [Regs.effective,Regs.requested,Regs.next,blank]

end stages

section frames
variable (s : Regs cfg) (inputs : Nat → Inputs) (k n : Nat)

theorem syncShows : Shows (run s.reset inputs n).sync (cfg.video.timing.beam n) := by
  induction n with
  | zero => exact ⟨rfl,rfl⟩
  | succ n ih => exact showsNext ih (beamInside n)

theorem syncSignals : Signals (run s.reset inputs (n + 1)).sync (cfg.video.timing.beam (n + 1)) :=
  nextSignals (syncShows s inputs n) (beamInside n)

theorem blankSignal : (run s.reset inputs n).sync.vblankStart =
    decide (cfg.video.timing.beam n = ⟨0,cfg.video.timing.vBackPorch + cfg.video.timing.vActive⟩) := by
  cases n with
  | zero =>
    have lines := cfg.video.timing.someLines
    refine (decide_eq_false ?_).symm
    rw [Timing.beam,Position.mk.injEq]
    omega
  | succ n => exact (syncSignals s inputs n).vblank

theorem effectiveHeld (deep : 8 ≤ cfg.video.timing.hFrontPorch + cfg.video.timing.hSyncWidth)
    (here : cfg.video.timing.active (cfg.video.timing.beam k) = true) (near : n ≤ 9) :
    (run s.reset inputs (k + n)).effective = (run s.reset inputs k).effective := by
  induction n with
  | zero => rfl
  | succ n ih =>
    have away := blankAway (k := n) here (by omega)
    have quiet := (blankSignal s inputs (k + n)).trans (decide_eq_false away)
    have step := effectiveNext (run s.reset inputs (k + n)) (inputs (k + n))
    rw [quiet,if_neg (by decide),ih (by omega)] at step
    exact step

theorem inactiveLevel (high : Bool) : ((!high) == high) = false := by
  cases high <;> rfl

theorem darkStart (early : n ≤ 9) :
    (run s.reset inputs n).videoDe = false ∧ vsyncOut (run s.reset inputs n) = false := by
  by_cases first : n = 0
  · rw [first]
    exact ⟨rfl,inactiveLevel _⟩
  obtain ⟨m,rfl⟩ : ∃ m, n = m + 1 := ⟨n - 1,by omega⟩
  by_cases through : m = 8
  · rw [through]
    obtain ⟨de,-,vs,-⟩ := pixelLeaves s.reset inputs 0
    rw [vsyncOut,de,vs]
    exact ⟨rfl,inactiveLevel _⟩
  · have de : (run s.reset inputs (m + 1)).videoDe = (0#8).getLsbD (7 - m) :=
      @shiftStarts 8 (fun n => (run s.reset inputs n).videoDePipe) (fun n => (run s.reset inputs n).sync.activeVideo)
        (deShifts s.reset inputs) m 7 (by decide) (by omega)
    have vs : (run s.reset inputs (m + 1)).videoVs = (BitVec.fill 8 !cfg.video.vsyncActiveHigh).getLsbD (7 - m) :=
      @shiftStarts 8 (fun n => (run s.reset inputs n).videoVsPipe) (fun n => (run s.reset inputs n).sync.vsync)
        (vsShifts s.reset inputs) m 7 (by decide) (by omega)
    have place : decide (7 - m < 8) = true := decide_eq_true (by omega)
    rw [vsyncOut,de,vs,BitVec.getLsbD_fill,place,Bool.and_true,BitVec.getLsbD_zero]
    exact ⟨rfl,inactiveLevel _⟩

theorem outputSignals : (run s.reset inputs (k + 10)).videoDe = cfg.video.timing.active (cfg.video.timing.beam (k + 1)) ∧
    hsyncOut (run s.reset inputs (k + 10)) = cfg.video.timing.hsync (cfg.video.timing.beam (k + 1)) ∧
    vsyncOut (run s.reset inputs (k + 10)) = cfg.video.timing.vsync (cfg.video.timing.beam (k + 1)) := by
  have signals := syncSignals s inputs k
  obtain ⟨de,hs,vs,-⟩ := pixelLeaves s.reset inputs (k + 1)
  rw [signals.active] at de
  rw [vsyncOut,hsyncOut,vs,hs,signals.hsync,signals.vsync]
  exact ⟨de,rfl,rfl⟩

theorem screenShown {p : Screen} (shown : shownOn (run s.reset inputs) n = some p) :
    ∃ k, n = k + 10 ∧ p = cfg.video.timing.screen (cfg.video.timing.beam (k + 1)) := by
  induction n generalizing p with
  | zero => cases shown
  | succ n ih =>
    rw [shownOn] at shown
    cases before : shownOn (run s.reset inputs) n with
    | none =>
      rw [before,screenNext] at shown
      by_cases early : n ≤ 9
      · rw [(darkStart s inputs n early).2] at shown
        cases shown
      · obtain ⟨k,rfl⟩ : ∃ k, n = k + 10 := ⟨n - 10,by omega⟩
        rw [(outputSignals s inputs k).2.2] at shown
        by_cases syncs : cfg.video.timing.vsync (cfg.video.timing.beam (k + 1)) = true
        · rw [if_pos syncs,Option.some.injEq] at shown
          exact ⟨k + 1,rfl,shown.symm.trans (screenFirst syncs).symm⟩
        · rw [if_neg syncs] at shown
          cases shown
    | some q =>
      obtain ⟨k,rfl,place⟩ := ih before
      obtain ⟨de,-,vs⟩ := outputSignals s inputs k
      rw [before,screenNext,Option.some.injEq,de,vs,place,← screenAdvance (beamInside _)] at shown
      exact ⟨k + 1,rfl,shown.symm⟩

theorem activeEmits (deep : 8 ≤ cfg.video.timing.hFrontPorch + cfg.video.timing.hSyncWidth)
    (here : cfg.video.timing.active (cfg.video.timing.beam (k + 1)) = true) :
    Emits (run s.reset inputs) (k + 1) (cfg.video.timing.screen (cfg.video.timing.beam (k + 1))) := by
  intro c looked
  have signals := syncSignals s inputs k
  have on := signals.active.trans here
  have column := signals.x on
  have line := signals.y on
  have held := effectiveHeld s inputs (k + 1) 9 deep here (by omega)
  have looking := effectiveHeld s inputs (k + 1) 8 deep here (by omega)
  have scrolled : Scrolled (run s.reset inputs (k + 1 + 1)).renderer
      ⟨(run s.reset inputs (k + 1)).sync.activeX.toNat + (run s.reset inputs (k + 1)).effective.scrollX.toNat,
        (run s.reset inputs (k + 1)).sync.activeY.toNat + (run s.reset inputs (k + 1)).effective.scrollY.toNat⟩ :=
    scrolledNext s.reset inputs (k + 1)
  rw [column,line] at scrolled
  obtain ⟨-,-,-,rgb⟩ := pixelLeaves s.reset inputs (k + 1)
  rw [paletteLookup s.reset inputs (k + 1) looked scrolled,on,Bool.and_true,looking] at rgb
  rw [rgb,held,screenActive here]

theorem changesDark (deep : 8 ≤ cfg.video.timing.hFrontPorch + cfg.video.timing.hSyncWidth)
    (blank : cfg.video.timing.beam n = ⟨0,cfg.video.timing.vBackPorch + cfg.video.timing.vActive⟩) (m : Nat)
    (quiet : ∀ j, j < m → vsyncOut (run s.reset inputs (n + 1 + j)) = false) :
    (run s.reset inputs (n + 1 + m)).videoDe = false := by
  have total : cfg.video.timing.hTotal = cfg.video.timing.hActive + cfg.video.timing.hFrontPorch +
    cfg.video.timing.hSyncWidth + cfg.video.timing.hBackPorch := rfl
  have points := cfg.video.timing.somePoints
  have late := blankLate blank
  obtain ⟨k,rfl⟩ : ∃ k, n = k + 9 := ⟨n - 9,by omega⟩
  have passed : cfg.video.timing.passed (cfg.video.timing.beam (k + 1 + m)) := by
    induction m with
    | zero => exact blankPassed (k := 8) blank (by decide) deep
    | succ m ih =>
      have before := (outputSignals s inputs (k + m)).2.2
      rw [show k + m + 10 = k + 9 + 1 + m by omega,quiet m (by omega)] at before
      have on := passedOn (beamInside _) (ih fun j near => quiet j (by omega))
      rw [show k + 1 + m = k + m + 1 by omega] at on
      have next := on before.symm
      rw [show k + 1 + (m + 1) = k + m + 1 + 1 by omega]
      exact next
  have dark := (outputSignals s inputs (k + m)).1
  rw [show k + m + 1 = k + 1 + m by omega,passedDark passed] at dark
  rw [show k + 9 + 1 + m = k + m + 10 by omega]
  exact dark

theorem effectiveChanges (deep : 8 ≤ cfg.video.timing.hFrontPorch + cfg.video.timing.hSyncWidth)
    (change : (run s.reset inputs (n + 1)).effective ≠ (run s.reset inputs n).effective) :
    (run s.reset inputs (n + 1)).effective = (run s.reset inputs n).requested ∧
      cfg.video.timing.beam n = ⟨0,cfg.video.timing.vBackPorch + cfg.video.timing.vActive⟩ ∧
      ∀ m, (∀ j, j < m → vsyncOut (run s.reset inputs (n + 1 + j)) = false) →
        (run s.reset inputs (n + 1 + m)).videoDe = false := by
  have step := effectiveNext (run s.reset inputs n) (inputs n)
  rw [blankSignal] at step
  by_cases blank : cfg.video.timing.beam n = ⟨0,cfg.video.timing.vBackPorch + cfg.video.timing.vActive⟩
  · rw [if_pos (decide_eq_true blank)] at step
    exact ⟨step,blank,changesDark s inputs n deep blank⟩
  · rw [if_neg (by rw [decide_eq_true_eq]; exact blank)] at step
    exact absurd step change

theorem designatedEmits (deep : 8 ≤ cfg.video.timing.hFrontPorch + cfg.video.timing.hSyncWidth) (p : Screen)
    (shown : shownOn (run s.reset inputs) n = some p) (on : (run s.reset inputs n).videoDe = true) :
    p.column < cfg.video.timing.hActive ∧ p.line < cfg.video.timing.vActive ∧
      ∃ k, n = k + 9 ∧ Emits (run s.reset inputs) k p := by
  obtain ⟨k,rfl,rfl⟩ := screenShown s inputs n shown
  have here := (outputSignals s inputs k).1.symm.trans on
  have range := here
  simp only [Timing.active,Bool.and_eq_true,decide_eq_true_eq] at range
  refine ⟨?_,?_,k + 1,rfl,activeEmits s inputs k deep here⟩
  · rw [screenActive here]
    change _ - _ < _
    omega
  · rw [screenActive here]
    change _ - _ < _
    omega

end frames

/- From every state before the reset, under all traffic on the bus. -/
theorem displays (deep : 8 ≤ cfg.video.timing.hFrontPorch + cfg.video.timing.hSyncWidth) (s : Regs cfg)
    (inputs : Nat → Inputs) : Displays (run s.reset inputs) where
  signals := outputSignals s inputs
  beam k on := activeEmits s inputs k deep ((outputSignals s inputs k).1.symm.trans on)
  designated n p shown on := designatedEmits s inputs n deep p shown on
  changes n change := effectiveChanges s inputs n deep change

def defaults : Config where
  video := ⟨⟨256,10,1,133,224,10,1,277,by decide,by decide,by decide,by decide⟩,true,true,by decide,by decide⟩
  tiles := ⟨5,5⟩
  mapFits := by decide

def blank : Regs defaults :=
  ⟨VideoSync.reset _,BitmapTextRenderer.reset _,⟨fun _ => 0,0,0⟩,⟨fun _ => 0,0,0⟩,⟨fun _ => 0,0,0⟩,
    0,false,0,0,false,false,0,0,0,0,0,0,false,false,false,0⟩

theorem defaultsDisplay : Displays (run blank.reset fun _ => ⟨0x8,1,true,0b10,true,true⟩) :=
  displays (by decide) blank fun _ => ⟨0x8,1,true,0b10,true,true⟩

end RiscvSoc.Gfx2d
