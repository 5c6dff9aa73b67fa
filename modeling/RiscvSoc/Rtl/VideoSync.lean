import RiscvSoc.Lib.BitNumbers
import RiscvSoc.Lib.Raster

/-! `video_sync.sv`. The counters run through the positions of the beam, and the registered outputs
are the signals of the position that the counters show. -/
namespace RiscvSoc.VideoSync
open BitNumbers Raster

/- The totals are sums in `int unsigned`. -/
structure Config where
  timing : Timing
  hsyncActiveHigh : Bool
  vsyncActiveHigh : Bool
  hUnwrapped : timing.hTotal < 2 ^ 32
  vUnwrapped : timing.vTotal < 2 ^ 32
  deriving Repr

variable (cfg : Config)

abbrev Config.hBits : Nat := counterWidth cfg.timing.hTotal
abbrev Config.vBits : Nat := counterWidth cfg.timing.vTotal
abbrev Config.xBits : Nat := counterWidth cfg.timing.hActive
abbrev Config.yBits : Nat := counterWidth cfg.timing.vActive

structure Regs where
  hCounter : BitVec cfg.hBits
  vCounter : BitVec cfg.vBits
  hsync : Bool
  vsync : Bool
  activeVideo : Bool
  lineStart : Bool
  frameStart : Bool
  hblankStart : Bool
  vblankStart : Bool
  activeX : BitVec cfg.xBits
  activeY : BitVec cfg.yBits
  deriving DecidableEq, Repr

def reset : Regs cfg :=
  ⟨0,0,!cfg.hsyncActiveHigh,!cfg.vsyncActiveHigh,false,true,true,false,false,0,0⟩

def Config.hActiveStart : BitVec cfg.hBits := BitVec.ofNat _ cfg.timing.hBackPorch
def Config.vActiveStart : BitVec cfg.vBits := BitVec.ofNat _ cfg.timing.vBackPorch
def Config.hSyncStart : BitVec cfg.hBits := BitVec.ofNat _ cfg.timing.hSyncStart
def Config.vSyncStart : BitVec cfg.vBits := BitVec.ofNat _ cfg.timing.vSyncStart

variable {cfg}

def hCounterNext (s : Regs cfg) : BitVec cfg.hBits :=
  if s.hCounter = BitVec.ofNat _ (cfg.timing.hTotal - 1) then 0 else s.hCounter + 1
def vCounterNext (s : Regs cfg) : BitVec cfg.vBits :=
  if s.hCounter = BitVec.ofNat _ (cfg.timing.hTotal - 1) then
    if s.vCounter = BitVec.ofNat _ (cfg.timing.vTotal - 1) then 0 else s.vCounter + 1
  else s.vCounter

def hInActiveRegion (h : BitVec cfg.hBits) : Bool := (h - cfg.hActiveStart).ult (BitVec.ofNat _ cfg.timing.hActive)
def vInActiveRegion (v : BitVec cfg.vBits) : Bool := (v - cfg.vActiveStart).ult (BitVec.ofNat _ cfg.timing.vActive)
def hInSyncRegion (h : BitVec cfg.hBits) : Bool :=
  !h.ult cfg.hSyncStart && (h - cfg.hSyncStart).ult (BitVec.ofNat _ cfg.timing.hSyncWidth)
def vInSyncRegion (v : BitVec cfg.vBits) : Bool :=
  !v.ult cfg.vSyncStart && (v - cfg.vSyncStart).ult (BitVec.ofNat _ cfg.timing.vSyncWidth)

def outputsAt (h : BitVec cfg.hBits) (v : BitVec cfg.vBits) : Regs cfg :=
  let active := hInActiveRegion h && vInActiveRegion v
  { hCounter := h
    vCounter := v
    hsync := if hInSyncRegion h then cfg.hsyncActiveHigh else !cfg.hsyncActiveHigh
    vsync := if vInSyncRegion v then cfg.vsyncActiveHigh else !cfg.vsyncActiveHigh
    activeVideo := active
    lineStart := h == 0
    frameStart := h == 0 && v == 0
    hblankStart := h == cfg.hActiveStart + BitVec.ofNat _ cfg.timing.hActive
    vblankStart := h == 0 && v == cfg.vActiveStart + BitVec.ofNat _ cfg.timing.vActive
    activeX := if active then (h - cfg.hActiveStart).setWidth _ else 0
    activeY := if active then (v - cfg.vActiveStart).setWidth _ else 0 }

def next (s : Regs cfg) : Regs cfg := outputsAt (hCounterNext s) (vCounterNext s)

theorem numberValue {w a : Nat} (bound : a < 2 ^ w) : (BitVec.ofNat w a).toNat = a := by
  rw [BitVec.toNat_ofNat,Nat.mod_eq_of_lt bound]

theorem rangeValue {w a b c : Nat} {x : BitVec w} (total : b + c ≤ 2 ^ w) (start : b < 2 ^ w) (span : c < 2 ^ w)
    (value : x.toNat = a) : (x - BitVec.ofNat w b).ult (BitVec.ofNat w c) = decide (b ≤ a ∧ a < b + c) := by
  have high := x.isLt
  rw [BitVec.ult,BitVec.toNat_sub,numberValue start,numberValue span,value,decide_eq_decide]
  rw [value] at high
  by_cases late : b ≤ a
  · have turn : 2 ^ w - b + a = a - b + 2 ^ w := by omega
    rw [turn,Nat.add_mod_right,Nat.mod_eq_of_lt (by omega)]
    omega
  · rw [Nat.mod_eq_of_lt (by omega)]
    omega

theorem offsetValue {w m a b : Nat} {x : BitVec w} (start : b < 2 ^ w) (value : x.toNat = a) (late : b ≤ a) :
    ((x - BitVec.ofNat w b).setWidth m).toNat = (a - b) % 2 ^ m := by
  have high := x.isLt
  rw [value] at high
  have turn : 2 ^ w - b + a = a - b + 2 ^ w := by omega
  rw [BitVec.toNat_setWidth,BitVec.toNat_sub,numberValue start,value,turn,Nat.add_mod_right,
    Nat.mod_eq_of_lt (by omega : a - b < 2 ^ w)]

theorem counterIs {w a b : Nat} {x : BitVec w} (bound : b < 2 ^ w) (value : x.toNat = a) :
    x = BitVec.ofNat w b ↔ a = b := by
  rw [← BitVec.toNat_inj,numberValue bound,value]

theorem turnNext {w a total : Nat} {x : BitVec w} (fits : total ≤ 2 ^ w) (inside : a < total) (value : x.toNat = a) :
    (if x = BitVec.ofNat w (total - 1) then 0 else x + 1).toNat = if a + 1 = total then 0 else a + 1 := by
  have last := counterIs (b := total - 1) (by omega) value
  by_cases turns : a + 1 = total
  · rw [if_pos (last.mpr (by omega)),if_pos turns]
    rfl
  · rw [if_neg (mt last.mp (by omega)),if_neg turns,countNext (k := total - 1) (by omega) (by omega),value]

section timing
variable (cfg)

theorem hFits : cfg.timing.hTotal ≤ 2 ^ cfg.hBits := counterFits _
theorem vFits : cfg.timing.vTotal ≤ 2 ^ cfg.vBits := counterFits _
theorem xFits : cfg.timing.hActive ≤ 2 ^ cfg.xBits := counterFits _
theorem yFits : cfg.timing.vActive ≤ 2 ^ cfg.yBits := counterFits _

end timing

structure Shows (s : Regs cfg) (p : Position) : Prop where
  column : s.hCounter.toNat = p.column
  line : s.vCounter.toNat = p.line

theorem showsNext {s : Regs cfg} {p : Position} (shows : Shows s p) (inside : cfg.timing.inside p) :
    Shows (next s) (cfg.timing.advance p) := by
  obtain ⟨column,line⟩ := shows
  obtain ⟨columns,lines⟩ := inside
  have h := hFits cfg
  have across := turnNext h columns column
  have down := turnNext (vFits cfg) lines line
  have last := counterIs (b := cfg.timing.hTotal - 1) (by omega) column
  unfold Timing.advance Timing.lineAfter
  constructor
  · change (hCounterNext s).toNat = _
    rw [hCounterNext,across]
    split <;> rfl
  · change (vCounterNext s).toNat = _
    rw [vCounterNext]
    by_cases turns : p.column + 1 = cfg.timing.hTotal
    · rw [if_pos (last.mpr (by omega)),if_pos turns,down]
    · rw [if_neg (mt last.mp (by omega)),if_neg turns,line]

structure Signals (s : Regs cfg) (p : Position) : Prop where
  shows : Shows s p
  active : s.activeVideo = cfg.timing.active p
  vsync : (s.vsync == cfg.vsyncActiveHigh) = cfg.timing.vsync p
  hsync : (s.hsync == cfg.hsyncActiveHigh) = cfg.timing.hsync p
  vblank : s.vblankStart = decide (p = ⟨0,cfg.timing.vBackPorch + cfg.timing.vActive⟩)
  x : s.activeVideo = true → s.activeX.toNat = p.column - cfg.timing.hBackPorch
  y : s.activeVideo = true → s.activeY.toNat = p.line - cfg.timing.vBackPorch

theorem chosenIs (sync high : Bool) : ((if sync then high else !high) == high) = sync := by
  cases sync <;> cases high <;> rfl

theorem outputsSignals {h : BitVec cfg.hBits} {v : BitVec cfg.vBits} {p : Position} (column : h.toNat = p.column)
    (line : v.toNat = p.line) (inside : cfg.timing.inside p) : Signals (outputsAt h v) p := by
  obtain ⟨columns,lines⟩ := inside
  have hf := hFits cfg
  have vf := vFits cfg
  have points := cfg.timing.somePoints
  have rows := cfg.timing.someLines
  have pulse := cfg.timing.hSyncs
  have pulses := cfg.timing.vSyncs
  have across : cfg.timing.hTotal =
      cfg.timing.hActive + cfg.timing.hFrontPorch + cfg.timing.hSyncWidth + cfg.timing.hBackPorch := rfl
  have down : cfg.timing.vTotal =
      cfg.timing.vActive + cfg.timing.vFrontPorch + cfg.timing.vSyncWidth + cfg.timing.vBackPorch := rfl
  have hs : cfg.timing.hSyncStart = cfg.timing.hBackPorch + cfg.timing.hActive + cfg.timing.hFrontPorch := rfl
  have vs : cfg.timing.vSyncStart = cfg.timing.vBackPorch + cfg.timing.vActive + cfg.timing.vFrontPorch := rfl
  have inH : hInActiveRegion h = _ := rangeValue (by omega) (by omega) (by omega) column
  have inV : vInActiveRegion v = _ := rangeValue (by omega) (by omega) (by omega) line
  have active : (outputsAt h v).activeVideo = cfg.timing.active p := by
    change (hInActiveRegion h && vInActiveRegion v) = _
    rw [inH,inV]
    rfl
  refine ⟨⟨column,line⟩,active,?_,?_,?_,?_,?_⟩
  · change ((if vInSyncRegion v then _ else _) == _) = _
    rw [chosenIs,vInSyncRegion,Config.vSyncStart,rangeValue (by omega) (by omega) (by omega) line,BitVec.ult,
      numberValue (by omega),line,Timing.vsync,← decide_not,← Bool.decide_and,decide_eq_decide]
    omega
  · change ((if hInSyncRegion h then _ else _) == _) = _
    rw [chosenIs,hInSyncRegion,Config.hSyncStart,rangeValue (by omega) (by omega) (by omega) column,BitVec.ult,
      numberValue (by omega),column,Timing.hsync,← decide_not,← Bool.decide_and,decide_eq_decide]
    omega
  · change (h == 0 && v == _) = _
    have last : (cfg.vActiveStart + BitVec.ofNat _ cfg.timing.vActive).toNat = cfg.timing.vBackPorch + cfg.timing.vActive := by
      rw [Config.vActiveStart,← BitVec.ofNat_add,numberValue (by omega)]
    rw [Bool.eq_iff_iff,Bool.and_eq_true,beq_iff_eq,beq_iff_eq,decide_eq_true_eq,← BitVec.toNat_inj,← BitVec.toNat_inj,
      column,line,last]
    obtain ⟨a,b⟩ := p
    simp
  · intro on
    have here := active.symm.trans on
    simp only [Timing.active,Bool.and_eq_true,decide_eq_true_eq] at here
    change (if (outputsAt h v).activeVideo then _ else _ : BitVec cfg.xBits).toNat = _
    rw [if_pos on,Config.hActiveStart,offsetValue (by omega) column here.1.1]
    exact Nat.mod_eq_of_lt (by have fits := xFits cfg; omega)
  · intro on
    have here := active.symm.trans on
    simp only [Timing.active,Bool.and_eq_true,decide_eq_true_eq] at here
    change (if (outputsAt h v).activeVideo then _ else _ : BitVec cfg.yBits).toNat = _
    rw [if_pos on,Config.vActiveStart,offsetValue (by omega) line here.2.1]
    exact Nat.mod_eq_of_lt (by have fits := yFits cfg; omega)

theorem nextSignals {s : Regs cfg} {p : Position} (shows : Shows s p) (inside : cfg.timing.inside p) :
    Signals (next s) (cfg.timing.advance p) := by
  have shown := showsNext shows inside
  exact outputsSignals shown.column shown.line (advanceInside inside)

end RiscvSoc.VideoSync
