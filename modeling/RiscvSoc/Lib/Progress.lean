import RiscvSoc.Lib.Mealy

/-! Progress of a machine that conserves what passes through it, under an environment that is
fair in rounds: every kind of tick comes at least once a round, in any order and number. -/
namespace Mealy.Machine
variable {σ ι ο α β : Type}

theorem reaches {m : Machine σ ι ο} {inv goal : σ → Prop} {ok : σ → ι → Prop} {rank : σ → Nat} {tick : σ → ι → Bool}
    (step : ∀ s i, inv s → ok s i → ¬goal s → goal (m.next s i) ∨
      inv (m.next s i) ∧ rank (m.next s i) ≤ rank s ∧ (tick s i = true → rank (m.next s i) < rank s))
    (inputs : List ι) {s : σ} (start : inv s) (steps : m.Steps ok s inputs)
    (enough : rank s < (m.trace s inputs).countP fun c => tick c.1 c.2) :
    ∃ n, goal (m.final s (inputs.take n)) := by
  induction inputs generalizing s with
  | nil => simp at enough
  | cons i rest ih =>
    obtain ⟨now,steps⟩ := stepsCons.mp steps
    by_cases there : goal s
    · exact ⟨0,there⟩
    · rcases step s i start now there with done | ⟨next,atMost,fewer⟩
      · exact ⟨1,done⟩
      · have left : rank (m.next s i) < (m.trace (m.next s i) rest).countP fun c => tick c.1 c.2 := by
          rw [traceCons,List.countP_cons] at enough
          rcases Bool.eq_false_or_eq_true (tick s i) with ticks | idle
          · have less := fewer ticks
            rw [if_pos ticks] at enough
            omega
          · rw [if_neg (by simp [idle])] at enough
            omega
        obtain ⟨n,reached⟩ := ih next steps left
        exact ⟨n + 1,reached⟩

/- While it holds something, a step gives some of it out, or brings that nearer, or is not the
tick the machine waits for and changes nothing that matters. -/
structure Ranked (m : Machine σ ι ο) (inv : σ → Prop) (contents : σ → List α) (entering leaving : σ → ι → List α)
    (waits : σ → β) (tick : β → ι → Prop) (rank : σ → Nat) (bound : Nat) : Prop where
  step : ∀ s i, inv s → inv (m.next s i) ∧ contents s ++ entering s i = leaving s i ++ contents (m.next s i)
  bounded : ∀ s, inv s → contents s ≠ [] → rank s ≤ bound
  moves : ∀ s i, inv s → contents s ≠ [] → leaving s i ≠ [] ∨ rank (m.next s i) < rank s ∨
    rank (m.next s i) = rank s ∧ waits (m.next s i) = waits s ∧ ¬tick (waits s) i

def Fair (tick : β → ι → Prop) (round : List ι) : Prop := ∀ b, ∃ i ∈ round, tick b i

variable {m : Machine σ ι ο} {inv : σ → Prop} {contents : σ → List α} {entering leaving : σ → ι → List α}
  {waits : σ → β} {tick : β → ι → Prop} {rank : σ → Nat} {bound : Nat}

theorem Ranked.kept (r : Ranked m inv contents entering leaving waits tick rank bound) {s : σ} {i : ι} (start : inv s)
    (held : contents s ≠ []) (empty : leaving s i = []) : contents (m.next s i) ≠ [] := by
  have moved := (r.step s i start).2
  rw [empty,List.nil_append] at moved
  rw [← moved]
  exact List.append_ne_nil_of_left_ne_nil held _

theorem Ranked.nearer (r : Ranked m inv contents entering leaving waits tick rank bound) (inputs : List ι) {s : σ}
    (start : inv s) (held : contents s ≠ []) :
    m.history leaving s inputs ≠ [] ∨
      contents (m.final s inputs) ≠ [] ∧ rank (m.final s inputs) ≤ rank s ∧
      ((∃ i ∈ inputs, tick (waits s) i) → rank (m.final s inputs) < rank s) := by
  induction inputs generalizing s with
  | nil => exact .inr ⟨held,Nat.le_refl _,by simp⟩
  | cons i rest ih =>
    rw [historyCons,finalCons]
    by_cases nothing : leaving s i = []
    · rcases ih (r.step s i start).1 (r.kept start held nothing) with out | ⟨later,le,ticks⟩
      · exact .inl (List.append_ne_nil_of_right_ne_nil _ out)
      · refine .inr ⟨later,?_⟩
        rcases r.moves s i start held with out | lower | ⟨same,waits',absent⟩
        · exact absurd nothing out
        · exact ⟨by omega,fun _ => by omega⟩
        · refine ⟨by omega,fun ⟨j,mem,ticked⟩ => ?_⟩
          rcases List.mem_cons.mp mem with rfl | tail
          · exact absurd ticked absent
          · have := ticks ⟨j,tail,by rw [waits']; exact ticked⟩
            omega
    · exact .inl (List.append_ne_nil_of_left_ne_nil nothing _)

theorem Ranked.leaves (r : Ranked m inv contents entering leaving waits tick rank bound) (rounds : List (List ι)) {s : σ}
    (start : inv s) (held : contents s ≠ []) (fair : ∀ round ∈ rounds, Fair tick round)
    (enough : rank s < rounds.length) : m.history leaving s rounds.flatten ≠ [] := by
  induction rounds generalizing s with
  | nil => simp at enough
  | cons round rest ih =>
    rw [List.flatten_cons,historyAppend]
    rcases r.nearer round start held with out | ⟨later,_,ticks⟩
    · exact List.append_ne_nil_of_left_ne_nil out _
    · have lower := ticks (fair round (by simp) (waits s))
      refine List.append_ne_nil_of_right_ne_nil _ (ih ?_ later (fun x mem => fair x (by simp [mem])) ?_)
      · exact (conserved r.step start round).1
      · simp only [List.length_cons] at enough
        omega

theorem Ranked.drains (r : Ranked m inv contents entering leaving waits tick rank bound) (k : Nat)
    (rounds : List (List ι)) {s : σ} (start : inv s) (fair : ∀ round ∈ rounds, Fair tick round)
    (held : k ≤ (contents s).length) (enough : k * (bound + 1) ≤ rounds.length) :
    k ≤ (m.history leaving s rounds.flatten).length := by
  induction k using Nat.strongRecOn generalizing rounds s with
  | ind k ih =>
    rcases Nat.eq_zero_or_pos k with rfl | positive
    · exact Nat.zero_le _
    have nonempty : contents s ≠ [] := List.ne_nil_of_length_pos (by omega)
    have split : rounds.flatten = (rounds.take (bound + 1)).flatten ++ (rounds.drop (bound + 1)).flatten := by
      rw [← List.flatten_append,List.take_append_drop]
    have size : bound + 1 ≤ k * (bound + 1) := Nat.le_mul_of_pos_left _ positive
    have low := r.bounded s start nonempty
    have first := r.leaves (rounds.take (bound + 1)) start nonempty (fun x mem => fair x (List.mem_of_mem_take mem))
      (by rw [List.length_take]; omega)
    obtain ⟨last,moved⟩ := conserved r.step start (rounds.take (bound + 1)).flatten
    have lengths := congrArg List.length moved
    simp only [List.length_append] at lengths
    have out := List.length_pos_iff.mpr first
    rw [split,historyAppend,List.length_append]
    generalize (m.history leaving s (rounds.take (bound + 1)).flatten).length = a at *
    have less : (k - a) * (bound + 1) ≤ (k - 1) * (bound + 1) := Nat.mul_le_mul_right _ (by omega)
    have whole : (k - 1) * (bound + 1) + (bound + 1) = k * (bound + 1) := by
      rw [← Nat.succ_mul]
      exact congrArg (· * (bound + 1)) (by omega)
    have later := ih (k - a) (by omega) (rounds.drop (bound + 1)) last
      (fun x mem => fair x (List.mem_of_mem_drop mem)) (by omega) (by rw [List.length_drop]; omega)
    omega

theorem Ranked.settles (r : Ranked m inv contents entering leaving waits tick rank bound) {k : Nat} {s : σ}
    (start : inv s) (short : (contents s).length ≤ k) (rounds : List (List ι))
    (fair : ∀ round ∈ rounds, Fair tick round) (enough : k * (bound + 1) ≤ rounds.length) :
    contents s <+: m.history leaving s rounds.flatten := by
  have less : (contents s).length * (bound + 1) ≤ k * (bound + 1) := Nat.mul_le_mul_right _ short
  have long := r.drains _ rounds start fair (Nat.le_refl _) (by omega)
  obtain ⟨_,moved⟩ := conserved r.step start rounds.flatten
  exact List.prefix_of_prefix_length_le ⟨_,moved⟩ ⟨_,rfl⟩ long

end Mealy.Machine
