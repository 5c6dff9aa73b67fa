import RiscvSoc.Lib.Mealy

/-! How far apart the marked steps of a run are: an invariant that counts the steps since the
last marked one bounds the distance to the next. -/
namespace Mealy.Machine
variable {σ ι ο : Type}

/- `aged s a` speaks of a state `a` steps after a marked one, with no mark between. -/
structure Counted (m : Machine σ ι ο) (ok : σ → ι → Prop) (mark : σ → Prop) (inv : σ → Prop)
    (aged : σ → Nat → Prop) (bound : Nat) : Prop where
  keeps : ∀ s i, inv s → ok s i → inv (m.next s i)
  begins : ∀ s i, inv s → ok s i → mark s → aged (m.next s i) 1
  ages : ∀ s i a, inv s → ok s i → aged s a → ¬ mark s → aged (m.next s i) (a + 1)
  ends : ∀ s a, inv s → aged s a → mark s → a ≤ bound

variable {m : Machine σ ι ο} {ok : σ → ι → Prop} {mark inv : σ → Prop} {aged : σ → Nat → Prop} {bound : Nat}

theorem agedAt (counted : Counted m ok mark inv aged bound) {mid : List (σ × ι)} {y : σ × ι} {after : List (σ × ι)}
    {inputs : List ι} {s : σ} {a : Nat} (start : inv s) (steps : m.Steps ok s inputs) (age : aged s a)
    (split : m.trace s inputs = mid ++ y :: after) (unmarked : ∀ z ∈ mid, ¬ mark z.1) :
    inv y.1 ∧ aged y.1 (a + mid.length) := by
  induction mid generalizing s inputs a with
  | nil =>
    cases inputs with
    | nil => simp at split
    | cons i rest =>
      rw [traceCons,List.nil_append,List.cons.injEq] at split
      rw [← split.1]
      exact ⟨start,age⟩
  | cons z mid ih =>
    cases inputs with
    | nil => simp at split
    | cons i rest =>
      rw [traceCons,List.cons_append,List.cons.injEq] at split
      obtain ⟨here,later⟩ := stepsCons.mp steps
      have first : ¬ mark s := by
        have now := unmarked z (by simp)
        rwa [← split.1] at now
      have found := ih (counted.keeps s i start here) later (counted.ages s i a start here age first) split.2
        (fun w mem => unmarked w (List.mem_cons_of_mem _ mem))
      rw [List.length_cons]
      rwa [Nat.add_right_comm] at found

theorem spaced (counted : Counted m ok mark inv aged bound) {before mid : List (σ × ι)} {x y : σ × ι}
    {after : List (σ × ι)} {inputs : List ι} {s : σ} (start : inv s) (steps : m.Steps ok s inputs)
    (split : m.trace s inputs = before ++ x :: (mid ++ y :: after)) (first : mark x.1) (second : mark y.1)
    (unmarked : ∀ z ∈ mid, ¬ mark z.1) : mid.length + 1 ≤ bound := by
  induction before generalizing s inputs with
  | nil =>
    cases inputs with
    | nil => simp at split
    | cons i rest =>
      rw [traceCons,List.nil_append,List.cons.injEq] at split
      obtain ⟨here,later⟩ := stepsCons.mp steps
      rw [← split.1] at first
      obtain ⟨holds,age⟩ := agedAt counted (counted.keeps s i start here) later (counted.begins s i start here first)
        split.2 unmarked
      have last := counted.ends y.1 _ holds age second
      omega
  | cons z before ih =>
    cases inputs with
    | nil => simp at split
    | cons i rest =>
      rw [traceCons,List.cons_append,List.cons.injEq] at split
      obtain ⟨here,later⟩ := stepsCons.mp steps
      exact ih (counted.keeps s i start here) later split.2

end Mealy.Machine
