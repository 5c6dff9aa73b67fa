import RiscvSoc.Lib.Mealy

/-! A machine along an endless stream of inputs: its state at each moment and what it has recorded until then, for
properties that compare the run at two moments. -/
namespace Mealy.Machine
variable {σ ι ο α : Type} (m : Machine σ ι ο) (s : σ) (inputs : Nat → ι)

def stateAt : Nat → σ
  | 0 => s
  | t + 1 => m.next (stateAt t) (inputs t)

def recorded (part : σ → ι → List α) : Nat → List α
  | 0 => []
  | t + 1 => recorded part t ++ part (m.stateAt s inputs t) (inputs t)

@[simp] theorem stateAtZero : m.stateAt s inputs 0 = s := rfl
@[simp] theorem stateAtSucc (t : Nat) : m.stateAt s inputs (t + 1) = m.next (m.stateAt s inputs t) (inputs t) := rfl

@[simp] theorem recordedZero (part : σ → ι → List α) : m.recorded s inputs part 0 = [] := rfl
@[simp] theorem recordedSucc (part : σ → ι → List α) (t : Nat) :
    m.recorded s inputs part (t + 1) = m.recorded s inputs part t ++ part (m.stateAt s inputs t) (inputs t) := rfl

theorem recordedGrows (part : σ → ι → List α) {t u : Nat} (later : t ≤ u) :
    m.recorded s inputs part t <+: m.recorded s inputs part u := by
  induction later with
  | refl => exact List.prefix_refl _
  | step _ ih => exact ih.trans (List.prefix_append _ _)

theorem stateAlways (inv : σ → Prop) (start : inv s)
    (kept : ∀ t, inv (m.stateAt s inputs t) → inv (m.stateAt s inputs (t + 1))) (t : Nat) : inv (m.stateAt s inputs t) := by
  induction t with
  | zero => exact start
  | succ t ih => exact kept t ih

end Mealy.Machine
