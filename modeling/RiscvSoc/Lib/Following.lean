import RiscvSoc.Lib.Mealy

/-! Machines that carry out the steps of a relation one after another, each in a bounded number of cycles besides
those in which the environment makes them wait. -/
namespace Mealy.Machine
variable {σ ι ο α : Type}

inductive Reaches (step : α → α → Prop) (start : α) : Nat → α → Prop where
  | begins : Reaches step start 0 start
  | goes {n : Nat} {p q : α} (there : Reaches step start n p) (next : step p q) : Reaches step start (n + 1) q

theorem Reaches.first {step : α → α → Prop} {p q r : α} {n : Nat} (first : step p q) (reaches : Reaches step q n r) :
    Reaches step p (n + 1) r := by
  induction reaches with
  | begins => exact .goes .begins first
  | goes _ next ih => exact .goes ih next

theorem Reaches.invariant {step : α → α → Prop} {inv : α → Prop} (keeps : ∀ p q, inv p → step p q → inv q) {p q : α} {n : Nat}
    (start : inv p) (reaches : Reaches step p n q) : inv q := by
  induction reaches with
  | begins => exact start
  | goes _ next ih => exact keeps _ _ ih next

theorem Reaches.unique {step : α → α → Prop} (one : ∀ p q r, step p q → step p r → q = r) {p q r : α} {n : Nat}
    (left : Reaches step p n q) (right : Reaches step p n r) : q = r := by
  induction left generalizing r with
  | begins =>
    cases right
    rfl
  | goes _ next ih =>
    cases right with
    | goes there other =>
      obtain rfl := ih there
      exact one _ _ _ next other

theorem stepsAppend {m : Machine σ ι ο} {ok : σ → ι → Prop} {s : σ} {xs ys : List ι} :
    m.Steps ok s (xs ++ ys) ↔ m.Steps ok s xs ∧ m.Steps ok (m.final s xs) ys := by
  rw [Steps,traceAppend,List.forall_mem_append]
  rfl

theorem countHere {m : Machine σ ι ο} {test : σ → ι → Bool} {s : σ} {i : ι} {b : Bool} (same : test s i = b) (rest : List ι) :
    (m.history (fun s i => [test s i]) s (i :: rest)).count b =
      (m.history (fun s i => [test s i]) (m.next s i) rest).count b + 1 := by
  rw [historyCons,same,List.singleton_append,List.count_cons_self]

theorem countOther {m : Machine σ ι ο} {test : σ → ι → Bool} {s : σ} {i : ι} {b : Bool} (other : test s i ≠ b) (rest : List ι) :
    (m.history (fun s i => [test s i]) s (i :: rest)).count b =
      (m.history (fun s i => [test s i]) (m.next s i) rest).count b := by
  rw [historyCons,List.singleton_append,List.count_cons_of_ne other]

theorem countAtMost (m : Machine σ ι ο) (test : σ → ι → Bool) (s : σ) (i : ι) (b : Bool) (rest : List ι) :
    (m.history (fun s i => [test s i]) s (i :: rest)).count b ≤
      (m.history (fun s i => [test s i]) (m.next s i) rest).count b + 1 := by
  by_cases same : test s i = b
  · exact Nat.le_of_eq (countHere same rest)
  · exact Nat.le_succ_of_le (Nat.le_of_eq (countOther same rest))

variable (m : Machine σ ι ο) (step : α → α → Prop) (works : σ → α → Prop) (ends waits : σ → ι → Bool) (rank : σ → Nat)
  (bound : Nat)

/- A cycle of the work on a step from `p`: it comes nearer to the end, or it is the last and the next step begins. -/
inductive CarriesOn (s : σ) (i : ι) (p : α) : Prop where
  | stays (on : ends s i = false) (next : works (m.next s i) p) (atMost : rank (m.next s i) ≤ rank s)
      (fewer : waits s i = false → rank (m.next s i) < rank s) : CarriesOn s i p
  | ended {q : α} (last : ends s i = true) (done : step p q) (next : works (m.next s i) q) (positive : 0 < rank s)
      (atMost : rank (m.next s i) ≤ bound) : CarriesOn s i p

variable {m step works ends waits rank bound}

theorem follows {ok : σ → ι → Prop}
    (cycle : ∀ s i p q, works s p → ok s i → step p q → CarriesOn m step works ends waits rank bound s i p)
    {s : σ} {p : α} (here : works s p) (inputs : List ι) (steps : m.Steps ok s inputs) :
    ∃ before after q, inputs = before ++ after ∧
      Reaches step p ((m.history (fun s i => [ends s i]) s before).count true) q ∧ works (m.final s before) q ∧
      (m.history (fun s i => [waits s i]) s before).count false + rank (m.final s before) ≤
        bound * (m.history (fun s i => [ends s i]) s before).count true + rank s ∧
      (after = [] ∨ ¬ ∃ r, step q r) := by
  induction inputs generalizing s p with
  | nil => exact ⟨[],[],p,rfl,.begins,here,by simp,.inl rfl⟩
  | cons i rest ih =>
    by_cases goes : ∃ q, step p q
    · obtain ⟨q,goes⟩ := goes
      obtain ⟨now,steps⟩ := stepsCons.mp steps
      cases cycle s i p q here now goes with
      | stays on next atMost fewer =>
        obtain ⟨before,after,r,split,reaches,there,spent,stops⟩ := ih next steps
        refine ⟨i :: before,after,r,congrArg (i :: ·) split,?_,there,?_,stops⟩
        · rw [countOther (by simp [on])]
          exact reaches
        · rw [countOther (b := true) (by simp [on]),finalCons]
          rcases Bool.eq_false_or_eq_true (waits s i) with waiting | working
          · rw [countOther (by simp [waiting])]
            omega
          · have less := fewer working
            rw [countHere working]
            omega
      | @ended q last done next present atMost =>
        obtain ⟨before,after,r,split,reaches,there,spent,stops⟩ := ih next steps
        refine ⟨i :: before,after,r,congrArg (i :: ·) split,?_,there,?_,stops⟩
        · rw [countHere last]
          exact reaches.first done
        · have most := countAtMost m waits s i false before
          rw [countHere last,finalCons,Nat.mul_succ]
          omega
    · exact ⟨[],i :: rest,p,rfl,.begins,here,by simp,.inr goes⟩

end Mealy.Machine
