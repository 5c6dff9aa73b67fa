/-! Raster scans: the positions in the order of the beam, the signals that go with a position, and a
screen that finds the point and the line from these signals alone. A line is its back porch, its
active points, its front porch and its sync pulse; a frame has its lines in the same order. -/
namespace Raster

structure Timing where
  hActive : Nat
  hFrontPorch : Nat
  hSyncWidth : Nat
  hBackPorch : Nat
  vActive : Nat
  vFrontPorch : Nat
  vSyncWidth : Nat
  vBackPorch : Nat
  somePoints : 0 < hActive
  someLines : 0 < vActive
  hSyncs : 0 < hSyncWidth
  vSyncs : 0 < vSyncWidth
  deriving Repr

structure Position where
  column : Nat
  line : Nat
  deriving DecidableEq, Repr

namespace Timing
variable (t : Timing)

def hTotal : Nat := t.hActive + t.hFrontPorch + t.hSyncWidth + t.hBackPorch
def vTotal : Nat := t.vActive + t.vFrontPorch + t.vSyncWidth + t.vBackPorch
def hSyncStart : Nat := t.hBackPorch + t.hActive + t.hFrontPorch
def vSyncStart : Nat := t.vBackPorch + t.vActive + t.vFrontPorch

def inside (p : Position) : Prop := p.column < t.hTotal ∧ p.line < t.vTotal

def lineAfter (line : Nat) : Nat := if line + 1 = t.vTotal then 0 else line + 1
def advance (p : Position) : Position :=
  if p.column + 1 = t.hTotal then ⟨0,t.lineAfter p.line⟩ else ⟨p.column + 1,p.line⟩

def beam : Nat → Position
  | 0 => ⟨0,0⟩
  | n + 1 => t.advance (beam n)

def active (p : Position) : Bool :=
  decide (t.hBackPorch ≤ p.column ∧ p.column < t.hBackPorch + t.hActive) &&
    decide (t.vBackPorch ≤ p.line ∧ p.line < t.vBackPorch + t.vActive)
def hsync (p : Position) : Bool := decide (t.hSyncStart ≤ p.column)
def vsync (p : Position) : Bool := decide (t.vSyncStart ≤ p.line)

def passed (p : Position) : Prop :=
  t.vBackPorch + t.vActive ≤ p.line ∨
    p.line + 1 = t.vBackPorch + t.vActive ∧ t.hBackPorch + t.hActive ≤ p.column

end Timing

variable {t : Timing} {p : Position}

theorem syncInside : t.hSyncStart < t.hTotal ∧ t.vSyncStart < t.vTotal := by
  have h := t.hSyncs
  have v := t.vSyncs
  simp only [Timing.hSyncStart,Timing.vSyncStart,Timing.hTotal,Timing.vTotal]
  omega

theorem advanceInside (inside : t.inside p) : t.inside (t.advance p) := by
  have sync := @syncInside t
  simp only [Timing.inside,Timing.advance,Timing.lineAfter] at inside ⊢
  split
  · simp only
    split <;> omega
  · simp only
    omega

theorem beamInside (n : Nat) : t.inside (t.beam n) := by
  induction n with
  | zero =>
    have sync := @syncInside t
    simp only [Timing.beam,Timing.inside]
    omega
  | succ n ih => exact advanceInside ih

theorem beamAdd (n k : Nat) (near : k ≤ t.hTotal) : t.beam (n + k) =
    if (t.beam n).column + k < t.hTotal then ⟨(t.beam n).column + k,(t.beam n).line⟩
    else ⟨(t.beam n).column + k - t.hTotal,t.lineAfter (t.beam n).line⟩ := by
  have here := (beamInside (t := t) n).1
  induction k with
  | zero => simp [here]
  | succ k ih =>
    rw [← Nat.add_assoc,Timing.beam,ih (by omega),Timing.advance]
    by_cases same : (t.beam n).column + k < t.hTotal
    · rw [if_pos same]
      by_cases last : (t.beam n).column + k + 1 = t.hTotal
      · rw [if_pos last,if_neg (by omega)]
        congr 1
        omega
      · rw [if_neg last,if_pos (by omega)]
        rfl
    · rw [if_neg same,if_neg (by simp only; omega),if_neg (by omega)]
      simp only [Position.mk.injEq,and_true]
      omega

theorem blankAway {n k : Nat} (here : t.active (t.beam n) = true) (near : k ≤ t.hFrontPorch + t.hSyncWidth) :
    t.beam (n + k) ≠ ⟨0,t.vBackPorch + t.vActive⟩ := by
  have total : t.hTotal = t.hActive + t.hFrontPorch + t.hSyncWidth + t.hBackPorch := rfl
  simp only [Timing.active,Bool.and_eq_true,decide_eq_true_eq] at here
  rw [beamAdd n k (by omega),ne_eq]
  split
  · rw [Position.mk.injEq]
    omega
  · rw [Position.mk.injEq]
    omega

theorem blankPassed {n k : Nat} (blank : t.beam (n + k) = ⟨0,t.vBackPorch + t.vActive⟩) (later : 0 < k)
    (near : k ≤ t.hFrontPorch + t.hSyncWidth) : t.passed (t.beam n) := by
  have total : t.hTotal = t.hActive + t.hFrontPorch + t.hSyncWidth + t.hBackPorch := rfl
  have lines := t.someLines
  rw [beamAdd n k (by omega)] at blank
  split at blank
  · rw [Position.mk.injEq] at blank
    omega
  · rw [Position.mk.injEq,Timing.lineAfter] at blank
    have below : (t.beam n).line + 1 = t.vBackPorch + t.vActive := by
      split at blank <;> omega
    exact .inr ⟨below,by omega⟩

theorem blankLate {n : Nat} (blank : t.beam n = ⟨0,t.vBackPorch + t.vActive⟩) : t.hTotal ≤ n := by
  refine Nat.le_of_not_lt fun early => ?_
  have lines := t.someLines
  have here := beamAdd (t := t) 0 n (by omega)
  simp only [Nat.zero_add,Timing.beam] at here
  rw [if_pos (by omega),blank,Position.mk.injEq] at here
  omega

theorem passedDark (passed : t.passed p) : t.active p = false := by
  simp only [Timing.passed,Timing.active,Bool.and_eq_false_iff,decide_eq_false_iff_not] at passed ⊢
  omega

theorem passedOn (inside : t.inside p) (passed : t.passed p) (before : t.vsync p = false) : t.passed (t.advance p) := by
  have sync := @syncInside t
  simp only [Timing.inside] at inside
  simp only [Timing.vsync,decide_eq_false_iff_not] at before
  simp only [Timing.passed,Timing.advance,Timing.lineAfter] at passed ⊢
  split
  · simp only
    split <;> omega
  · simp only
    omega

structure Screen where
  column : Nat
  line : Nat
  deriving DecidableEq, Repr

/- A line ends with its last active point, a frame with the vertical sync pulse. -/
def Screen.next (s : Screen) (active vsync : Bool) : Screen :=
  if active then ⟨s.column + 1,s.line⟩
  else ⟨0,if vsync then 0 else if s.column = 0 then s.line else s.line + 1⟩

def screenNext (screen : Option Screen) (active vsync : Bool) : Option Screen :=
  match screen with
  | none => if vsync then some ⟨0,0⟩ else none
  | some s => some (s.next active vsync)

def Timing.screen (t : Timing) (p : Position) : Screen where
  column :=
    if t.vBackPorch ≤ p.line ∧ p.line < t.vBackPorch + t.vActive ∧ t.hBackPorch < p.column ∧
      p.column ≤ t.hBackPorch + t.hActive then p.column - t.hBackPorch else 0
  line :=
    if p.line < t.vBackPorch then 0
    else if p.line < t.vBackPorch + t.vActive then
      p.line - t.vBackPorch + if t.hBackPorch + t.hActive < p.column then 1 else 0
    else if p.line < t.vSyncStart ∨ p.line = t.vSyncStart ∧ p.column = 0 then t.vActive
    else 0

theorem screenActive (here : t.active p = true) :
    t.screen p = ⟨p.column - t.hBackPorch,p.line - t.vBackPorch⟩ := by
  simp only [Timing.active,Bool.and_eq_true,decide_eq_true_eq] at here
  simp only [Timing.screen,Screen.mk.injEq]
  refine ⟨?_,?_⟩
  · split <;> omega
  · rw [if_neg (by omega),if_pos (by omega),if_neg (by omega)]
    rfl

theorem screenDark (dark : t.active p = false) (sync : t.vsync p = false) (inside : t.inside p) :
    t.screen (t.advance p) =
      ⟨0,if (t.screen p).column = 0 then (t.screen p).line else (t.screen p).line + 1⟩ := by
  have starts := @syncInside t
  have points := t.somePoints
  obtain ⟨column,line⟩ := p
  simp only [Timing.active,Timing.vsync,Bool.and_eq_false_iff,decide_eq_false_iff_not] at dark sync
  simp only [Timing.inside,Timing.hSyncStart] at inside starts
  have later : t.lineAfter line = line + 1 := by
    rw [Timing.lineAfter,if_neg (by omega)]
  have fits : t.vBackPorch + t.vActive ≤ t.vSyncStart := by
    simp only [Timing.vSyncStart]
    omega
  have column' : (t.screen (t.advance ⟨column,line⟩)).column = 0 := by
    rw [Timing.advance]
    split
    · exact if_neg (by simp only; omega)
    · exact if_neg (by simp only; omega)
  -- the line counts when the screen has shown points of it
  have line' : (t.screen (t.advance ⟨column,line⟩)).line =
      if (t.screen ⟨column,line⟩).column = 0 then (t.screen ⟨column,line⟩).line else (t.screen ⟨column,line⟩).line + 1 := by
    rw [Timing.advance]
    by_cases counted : t.vBackPorch ≤ line ∧ line < t.vBackPorch + t.vActive ∧ t.hBackPorch < column ∧
      column ≤ t.hBackPorch + t.hActive
    · have nonzero : (t.screen ⟨column,line⟩).column ≠ 0 := by
        rw [show (t.screen ⟨column,line⟩).column = column - t.hBackPorch from if_pos counted]
        omega
      rw [if_neg nonzero,later]
      simp only [Timing.screen]
      repeat' split
      all_goals simp only [and_true] at *
      all_goals omega
    · have zero : (t.screen ⟨column,line⟩).column = 0 := if_neg counted
      rw [if_pos zero,later]
      simp only [Timing.screen]
      repeat' split
      all_goals simp only [and_true] at *
      all_goals omega
  rw [← line',← column']

theorem screenFirst (syncs : t.vsync p = true) : t.screen (t.advance p) = ⟨0,0⟩ := by
  have late : t.vSyncStart ≤ p.line := of_decide_eq_true syncs
  have fits : t.vBackPorch + t.vActive ≤ t.vSyncStart := by
    simp only [Timing.vSyncStart]
    omega
  have lines := t.someLines
  simp only [Timing.screen,Timing.advance,Timing.lineAfter,Screen.mk.injEq]
  refine ⟨?_,?_⟩
  · repeat' split
    all_goals first | rfl | (simp only at *; omega)
  · repeat' split
    all_goals first | rfl | (simp only at *; omega)

theorem screenAdvance (inside : t.inside p) : t.screen (t.advance p) = (t.screen p).next (t.active p) (t.vsync p) := by
  cases here : t.active p with
  | true =>
    have range := here
    simp only [Timing.active,Bool.and_eq_true,decide_eq_true_eq] at range
    have starts := @syncInside t
    simp only [Timing.hSyncStart] at starts
    rw [screenActive here,Timing.advance,if_neg (by omega)]
    simp only [Timing.screen,Screen.next,Screen.mk.injEq,if_true]
    refine ⟨by rw [if_pos (by omega)]; omega,?_⟩
    rw [if_neg (by omega),if_pos (by omega),if_neg (by omega)]
    rfl
  | false =>
    cases sync : t.vsync p with
    | true =>
      rw [screenFirst sync]
      rfl
    | false =>
      rw [screenDark here sync inside]
      rfl

end Raster
