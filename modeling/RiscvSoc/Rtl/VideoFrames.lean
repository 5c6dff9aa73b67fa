import RiscvSoc.Lib.Window
import RiscvSoc.Rtl.VideoSync

/-! The frames of `video_sync.sv` after a reset, cycle by cycle, for totals that an `int unsigned` holds. -/
namespace RiscvSoc.VideoSync
open Raster Window

section beam
variable (t : Timing)

def frameTotal : Nat := t.vTotal * t.hTotal

theorem totalsPositive : 0 < t.hTotal ∧ 0 < t.vTotal := by
  have sync := @syncInside t
  omega

theorem beamIs (n : Nat) : t.beam n = ⟨n % t.hTotal,n / t.hTotal % t.vTotal⟩ := by
  obtain ⟨columns,lines⟩ := totalsPositive t
  induction n with
  | zero => simp [Timing.beam]
  | succ n ih =>
    obtain ⟨column,row⟩ := carry columns n
    have line := (carry lines (n / t.hTotal)).1
    have inside := Nat.mod_lt n columns
    have below := Nat.mod_lt (n / t.hTotal) lines
    rw [Timing.beam,ih,Timing.advance,column,row]
    by_cases last : n % t.hTotal = t.hTotal - 1
    · rw [if_pos (by simp only; omega),if_pos last,if_pos last,line,Timing.lineAfter]
      by_cases bottom : n / t.hTotal % t.vTotal = t.vTotal - 1
      · rw [if_pos (by simp only; omega),if_pos bottom]
      · rw [if_neg (by simp only; omega),if_neg bottom]
    · rw [if_neg (by simp only; omega),if_neg last,if_neg last]

theorem beamFrame (frame : Nat) {c : Nat} (inside : c < frameTotal t) :
    t.beam (frame * frameTotal t + c) = ⟨c % t.hTotal,c / t.hTotal⟩ := by
  obtain ⟨columns,_⟩ := totalsPositive t
  have below : c / t.hTotal < t.vTotal := (Nat.div_lt_iff_lt_mul columns).mpr inside
  have whole : frame * frameTotal t = t.hTotal * (frame * t.vTotal) := by
    rw [frameTotal,Nat.mul_comm t.hTotal,Nat.mul_assoc]
  rw [beamIs,whole,Nat.mul_add_mod,Nat.mul_add_div columns,Nat.mul_comm frame,Nat.mul_add_mod,Nat.mod_eq_of_lt below]

theorem beamLine {row c : Nat} (columns : c < t.hTotal) (lines : row < t.vTotal) :
    row * t.hTotal + c < frameTotal t ∧ (row * t.hTotal + c) % t.hTotal = c ∧ (row * t.hTotal + c) / t.hTotal = row := by
  have below := Nat.mul_le_mul_right t.hTotal (Nat.succ_le_of_lt lines)
  rw [Nat.succ_mul] at below
  refine ⟨?_,?_,?_⟩
  · unfold frameTotal
    omega
  · rw [Nat.mul_comm,Nat.mul_add_mod,Nat.mod_eq_of_lt columns]
  · rw [Nat.mul_comm,Nat.mul_add_div (by omega),Nat.div_eq_of_lt columns,Nat.add_zero]

end beam

variable (cfg : Config)

/- The registers `n` edges after the reset. -/
def after : Nat → Regs cfg
  | 0 => reset cfg
  | n + 1 => next (after n)

def frame (f : Nat) : List (Regs cfg) :=
  (List.range (frameTotal cfg.timing)).map fun c => after cfg (f * frameTotal cfg.timing + c)

def line (f row : Nat) : List (Regs cfg) :=
  (List.range cfg.timing.hTotal).map fun c => after cfg (f * frameTotal cfg.timing + (row * cfg.timing.hTotal + c))

theorem frameLines (f : Nat) : frame cfg f = (List.range cfg.timing.vTotal).flatMap (line cfg f) := by
  unfold frame line
  rw [frameTotal,rangeRows,List.map_flatMap]
  simp only [List.map_map]
  rfl

theorem afterShows (n : Nat) : Shows (after cfg n) (cfg.timing.beam n) := by
  induction n with
  | zero => exact ⟨BitVec.toNat_ofNat 0 _ ▸ Nat.zero_mod _,BitVec.toNat_ofNat 0 _ ▸ Nat.zero_mod _⟩
  | succ n ih => exact showsNext ih (beamInside n)

theorem afterSignals (n : Nat) : Signals (after cfg (n + 1)) (cfg.timing.beam (n + 1)) :=
  nextSignals (afterShows cfg n) (beamInside n)

structure Marks (s : Regs cfg) (p : Position) : Prop where
  line : s.lineStart = decide (p.column = 0)
  frame : s.frameStart = decide (p.column = 0 ∧ p.line = 0)
  hblank : s.hblankStart = decide (p.column = cfg.timing.hBackPorch + cfg.timing.hActive)
  vblank : s.vblankStart = decide (p.column = 0 ∧ p.line = cfg.timing.vBackPorch + cfg.timing.vActive)

theorem afterMarks (n : Nat) : Marks cfg (after cfg (n + 1)) (cfg.timing.beam (n + 1)) := by
  have shown := afterShows cfg (n + 1)
  have vblank := (afterSignals cfg n).vblank
  have h := hFits cfg
  have v := vFits cfg
  have points := cfg.timing.somePoints
  have pulse := cfg.timing.hSyncs
  have across : cfg.timing.hTotal =
      cfg.timing.hActive + cfg.timing.hFrontPorch + cfg.timing.hSyncWidth + cfg.timing.hBackPorch := rfl
  have column := counterIs (b := 0) (Nat.two_pow_pos _) shown.column
  have row := counterIs (b := 0) (Nat.two_pow_pos _) shown.line
  have active := counterIs (b := cfg.timing.hBackPorch + cfg.timing.hActive) (by omega) shown.column
  refine ⟨?_,?_,?_,?_⟩
  · exact Bool.eq_iff_iff.mpr (beq_iff_eq.trans (column.trans decide_eq_true_iff.symm))
  · refine Bool.eq_iff_iff.mpr ?_
    rw [decide_eq_true_eq]
    exact Bool.and_eq_true_iff.trans (and_congr (beq_iff_eq.trans column) (beq_iff_eq.trans row))
  · refine Bool.eq_iff_iff.mpr ?_
    rw [decide_eq_true_eq,← active,BitVec.ofNat_add]
    exact beq_iff_eq
  · rw [vblank,decide_eq_decide,← Position.mk.injEq]

theorem frameSignals (f : Nat) {c : Nat} (inside : c < frameTotal cfg.timing) :
    Signals (after cfg ((f + 1) * frameTotal cfg.timing + c)) ⟨c % cfg.timing.hTotal,c / cfg.timing.hTotal⟩ ∧
    Marks cfg (after cfg ((f + 1) * frameTotal cfg.timing + c)) ⟨c % cfg.timing.hTotal,c / cfg.timing.hTotal⟩ := by
  have positive : 0 < (f + 1) * frameTotal cfg.timing := Nat.mul_pos (Nat.succ_pos f) (by omega)
  obtain ⟨n,here⟩ : ∃ n, (f + 1) * frameTotal cfg.timing + c = n + 1 :=
    ⟨(f + 1) * frameTotal cfg.timing + c - 1,by omega⟩
  have position := beamFrame cfg.timing (f + 1) inside
  rw [here] at position ⊢
  rw [← position]
  exact ⟨afterSignals cfg n,afterMarks cfg n⟩

theorem lineSignals (f : Nat) {row c : Nat} (columns : c < cfg.timing.hTotal) (lines : row < cfg.timing.vTotal) :
    Signals (after cfg ((f + 1) * frameTotal cfg.timing + (row * cfg.timing.hTotal + c))) ⟨c,row⟩ ∧
    Marks cfg (after cfg ((f + 1) * frameTotal cfg.timing + (row * cfg.timing.hTotal + c))) ⟨c,row⟩ := by
  obtain ⟨inside,column,line⟩ := beamLine cfg.timing columns lines
  have signals := frameSignals cfg f inside
  rw [column,line] at signals
  exact signals

/- The point that the outputs give, when they give one. -/
def point {cfg : Config} (s : Regs cfg) : List (Nat × Nat) := if s.activeVideo then [(s.activeX.toNat,s.activeY.toNat)] else []

theorem linePoints (f : Nat) {row : Nat} (lines : row < cfg.timing.vTotal) : (line cfg (f + 1) row).flatMap point =
    if cfg.timing.vBackPorch ≤ row ∧ row < cfg.timing.vBackPorch + cfg.timing.vActive then
      (List.range cfg.timing.hActive).map fun x => (x,row - cfg.timing.vBackPorch) else [] := by
  have across : cfg.timing.hTotal =
      cfg.timing.hActive + cfg.timing.hFrontPorch + cfg.timing.hSyncWidth + cfg.timing.hBackPorch := rfl
  have dark {c : Nat} (columns : c < cfg.timing.hTotal) (off : cfg.timing.active ⟨c,row⟩ = false) :
      point (after cfg ((f + 1) * frameTotal cfg.timing + (row * cfg.timing.hTotal + c))) = [] := by
    have active := (lineSignals cfg f columns lines).1.active
    unfold point
    rw [active,off]
    rfl
  unfold line
  rw [List.flatMap_map]
  by_cases within : cfg.timing.vBackPorch ≤ row ∧ row < cfg.timing.vBackPorch + cfg.timing.vActive
  · rw [if_pos within,List.map_eq_flatMap]
    refine sweepWindow cfg.timing.hBackPorch (by omega) (fun c columns outside => dark columns ?_)
      (fun c inside => ?_)
    · unfold Timing.active
      rw [decide_eq_false outside,Bool.false_and]
    · obtain ⟨signals,_⟩ := lineSignals cfg f (c := cfg.timing.hBackPorch + c) (by omega) lines
      have on : cfg.timing.active ⟨cfg.timing.hBackPorch + c,row⟩ = true := by
        unfold Timing.active
        rw [decide_eq_true within,decide_eq_true (by simp only; omega)]
        rfl
      have active := signals.active.trans on
      unfold point
      rw [if_pos active,signals.x active,signals.y active,Nat.add_sub_cancel_left]
  · rw [if_neg within,List.flatMap_eq_nil_iff]
    intro c mem
    refine dark (List.mem_range.mp mem) ?_
    unfold Timing.active
    rw [decide_eq_false within,Bool.and_false]

/- The points of the active region, line by line. -/
def raster (t : Timing) : List (Nat × Nat) :=
  (List.range t.vActive).flatMap fun y => (List.range t.hActive).map fun x => (x,y)

theorem framePoints (f : Nat) : (frame cfg (f + 1)).flatMap point = raster cfg.timing := by
  have down : cfg.timing.vTotal =
      cfg.timing.vActive + cfg.timing.vFrontPorch + cfg.timing.vSyncWidth + cfg.timing.vBackPorch := rfl
  rw [frameLines,List.flatMap_assoc,raster]
  refine sweepWindow cfg.timing.vBackPorch (by omega) (fun row lines outside => ?_) (fun y inside => ?_)
  · rw [linePoints cfg f lines,if_neg outside]
  · rw [linePoints cfg f (by omega),if_pos (by omega),Nat.add_sub_cancel_left]

theorem pointsCount {cfg : Config} (states : List (Regs cfg)) :
    (states.flatMap point).length = states.countP (·.activeVideo) := by
  induction states with
  | nil => rfl
  | cons s rest ih =>
    rw [List.flatMap_cons,List.length_append,ih,List.countP_cons,Nat.add_comm]
    unfold point
    split <;> rfl

theorem rasterCount (t : Timing) : (raster t).length = t.hActive * t.vActive := by
  unfold raster
  rw [List.length_flatMap]
  simp [Nat.mul_comm]

theorem linePulses (f : Nat) {row : Nat} (lines : row < cfg.timing.vTotal) :
    (line cfg (f + 1) row).map (fun s => s.hsync == cfg.hsyncActiveHigh) =
      pulse cfg.timing.hSyncStart cfg.timing.hSyncWidth cfg.timing.hTotal ∧
    (line cfg (f + 1) row).map (·.lineStart) = pulse 0 1 cfg.timing.hTotal ∧
    (line cfg (f + 1) row).map (·.hblankStart) =
      pulse (cfg.timing.hBackPorch + cfg.timing.hActive) 1 cfg.timing.hTotal := by
  have pulse := cfg.timing.hSyncs
  have across : cfg.timing.hTotal =
      cfg.timing.hActive + cfg.timing.hFrontPorch + cfg.timing.hSyncWidth + cfg.timing.hBackPorch := rfl
  have sync : cfg.timing.hSyncStart = cfg.timing.hBackPorch + cfg.timing.hActive + cfg.timing.hFrontPorch := rfl
  unfold line
  rw [List.map_map,List.map_map,List.map_map]
  refine ⟨sweepPulse (by omega) ?_,sweepPulse (by omega) ?_,sweepPulse (by omega) ?_⟩
  · intro c columns
    rw [Function.comp_apply,(lineSignals cfg f columns lines).1.hsync]
    unfold Timing.hsync
    rw [decide_eq_true_eq]
    simp only
    omega
  · intro c columns
    rw [Function.comp_apply,(lineSignals cfg f columns lines).2.line,decide_eq_true_eq]
    simp only
    omega
  · intro c columns
    rw [Function.comp_apply,(lineSignals cfg f columns lines).2.hblank,decide_eq_true_eq]
    simp only
    omega

theorem rowStart (t : Timing) (c row : Nat) :
    c % t.hTotal = 0 ∧ c / t.hTotal = row ↔ row * t.hTotal ≤ c ∧ c < row * t.hTotal + 1 := by
  obtain ⟨columns,_⟩ := totalsPositive t
  constructor
  · rintro ⟨column,rfl⟩
    have whole := Nat.div_add_mod c t.hTotal
    rw [column,Nat.mul_comm] at whole
    omega
  · rintro ⟨low,high⟩
    obtain rfl : c = row * t.hTotal := by omega
    exact ⟨Nat.mul_mod_left _ _,Nat.mul_div_cancel _ columns⟩

theorem framePulses (f : Nat) :
    (frame cfg (f + 1)).map (fun s => s.vsync == cfg.vsyncActiveHigh) =
      pulse (cfg.timing.vSyncStart * cfg.timing.hTotal) (cfg.timing.vSyncWidth * cfg.timing.hTotal) (frameTotal cfg.timing) ∧
    (frame cfg (f + 1)).map (·.frameStart) = pulse 0 1 (frameTotal cfg.timing) ∧
    (frame cfg (f + 1)).map (·.vblankStart) =
      pulse ((cfg.timing.vBackPorch + cfg.timing.vActive) * cfg.timing.hTotal) 1 (frameTotal cfg.timing) := by
  obtain ⟨columns,_⟩ := totalsPositive cfg.timing
  have pulse := cfg.timing.vSyncs
  have down : cfg.timing.vSyncStart + cfg.timing.vSyncWidth = cfg.timing.vTotal := by
    unfold Timing.vSyncStart Timing.vTotal
    omega
  have blank : (cfg.timing.vBackPorch + cfg.timing.vActive + 1) * cfg.timing.hTotal ≤ frameTotal cfg.timing := by
    refine Nat.mul_le_mul_right _ ?_
    unfold Timing.vTotal
    omega
  rw [Nat.succ_mul] at blank
  have whole : cfg.timing.vSyncStart * cfg.timing.hTotal + cfg.timing.vSyncWidth * cfg.timing.hTotal =
      frameTotal cfg.timing := by
    rw [← Nat.add_mul,down,frameTotal]
  unfold frame
  rw [List.map_map,List.map_map,List.map_map]
  refine ⟨sweepPulse (Nat.le_of_eq whole) ?_,sweepPulse (by omega) ?_,sweepPulse (by omega) ?_⟩
  · intro c inside
    rw [Function.comp_apply,(frameSignals cfg f inside).1.vsync]
    unfold Timing.vsync
    rw [decide_eq_true_eq,whole]
    simp only
    rw [Nat.le_div_iff_mul_le columns]
    exact (and_iff_left inside).symm
  · intro c inside
    have start := rowStart cfg.timing c 0
    rw [Nat.zero_mul] at start
    rw [Function.comp_apply,(frameSignals cfg f inside).2.frame,decide_eq_true_eq]
    exact start
  · intro c inside
    rw [Function.comp_apply,(frameSignals cfg f inside).2.vblank,decide_eq_true_eq]
    exact rowStart cfg.timing c _

/- Every frame after the first that follows a reset. -/
theorem frameTimed (f : Nat) :
    (frame cfg (f + 1)).countP (·.activeVideo) = cfg.timing.hActive * cfg.timing.vActive ∧
    (frame cfg (f + 1)).flatMap point = raster cfg.timing ∧
    frame cfg (f + 1) = (List.range cfg.timing.vTotal).flatMap (line cfg (f + 1)) ∧
    (∀ row < cfg.timing.vTotal,
      (line cfg (f + 1) row).map (fun s => s.hsync == cfg.hsyncActiveHigh) =
        pulse cfg.timing.hSyncStart cfg.timing.hSyncWidth cfg.timing.hTotal ∧
      (line cfg (f + 1) row).map (·.lineStart) = pulse 0 1 cfg.timing.hTotal ∧
      (line cfg (f + 1) row).map (·.hblankStart) =
        pulse (cfg.timing.hBackPorch + cfg.timing.hActive) 1 cfg.timing.hTotal) ∧
    (frame cfg (f + 1)).map (fun s => s.vsync == cfg.vsyncActiveHigh) =
      pulse (cfg.timing.vSyncStart * cfg.timing.hTotal) (cfg.timing.vSyncWidth * cfg.timing.hTotal) (frameTotal cfg.timing) ∧
    (frame cfg (f + 1)).map (·.frameStart) = pulse 0 1 (frameTotal cfg.timing) ∧
    (frame cfg (f + 1)).map (·.vblankStart) =
      pulse ((cfg.timing.vBackPorch + cfg.timing.vActive) * cfg.timing.hTotal) 1 (frameTotal cfg.timing) := by
  refine ⟨?_,framePoints cfg f,frameLines cfg _,fun row lines => linePulses cfg f lines,framePulses cfg f⟩
  rw [← pointsCount,framePoints,rasterCount]

end RiscvSoc.VideoSync
