import RiscvSoc.Lib.Mealy

/-! Runs that pass through some states of a machine and end with the step that leaves them: how
they begin, and what an invariant of the steps between says of the end. -/
namespace Mealy.Machine
variable {σ ι ο α : Type} {m : Machine σ ι ο} {busy : σ → Bool}

/- From a state `s` the run stays among the `busy` states until its last step. -/
def Passes (m : Machine σ ι ο) (busy : σ → Bool) (s : σ) (inputs : List ι) : Prop :=
  m.Steps (fun t _ => busy t = true) s inputs ∧ busy (m.final s inputs) = false

instance (s : σ) (inputs : List ι) : Decidable (m.Passes busy s inputs) := inferInstanceAs (Decidable (_ ∧ _))

theorem passesOn {s : σ} {inputs : List ι} (here : busy s = true) (passes : m.Passes busy s inputs) :
    ∃ i rest, inputs = i :: rest ∧ m.Passes busy (m.next s i) rest := by
  cases inputs with
  | nil =>
    have ended := passes.2
    rw [finalNil,here] at ended
    contradiction
  | cons i rest => exact ⟨i,rest,rfl,(stepsCons.mp passes.1).2,passes.2⟩

theorem historyInvariant {part : σ → ι → List α} {inv : List α → σ → Prop} {ok : σ → ι → Prop}
    (step : ∀ log s i, inv log s → ok s i → inv (log ++ part s i) (m.next s i)) {log : List α} {s : σ}
    (start : inv log s) {inputs : List ι} (steps : m.Steps ok s inputs) :
    inv (log ++ m.history part s inputs) (m.final s inputs) := by
  induction inputs generalizing log s with
  | nil => simpa using start
  | cons i rest ih =>
    obtain ⟨here,later⟩ := stepsCons.mp steps
    rw [historyCons,finalCons,← List.append_assoc]
    exact ih (step log s i start here) later

theorem boundedWork {inv : σ → Prop} {ok : σ → ι → Prop} {rank : σ → Nat} {waits : σ → ι → Bool}
    (step : ∀ s i, inv s → ok s i → inv (m.next s i) ∧ rank (m.next s i) ≤ rank s ∧
      (waits s i = false → rank (m.next s i) < rank s)) {s : σ} (start : inv s) {inputs : List ι}
    (steps : m.Steps ok s inputs) :
    (m.history (fun s i => [waits s i]) s inputs).count false + rank (m.final s inputs) ≤ rank s := by
  induction inputs generalizing s with
  | nil => simp
  | cons i rest ih =>
    obtain ⟨here,later⟩ := stepsCons.mp steps
    obtain ⟨next,atMost,fewer⟩ := step s i start here
    have after := ih next later
    rw [historyCons,finalCons,List.singleton_append]
    rcases Bool.eq_false_or_eq_true (waits s i) with waiting | working
    · rw [waiting,List.count_cons_of_ne (by decide)]
      omega
    · have less := fewer working
      rw [working,List.count_cons_self]
      omega

end Mealy.Machine
