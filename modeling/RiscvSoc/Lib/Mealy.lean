/-! Machines that consume one input a step, their traces, and the rules that carry a
fact about one step to every run: an invariant, an invariant under a condition on the
steps, a relation between two machines. -/
namespace Mealy

structure Machine (σ ι ο : Type) where
  output : σ → ι → ο
  next : σ → ι → σ

namespace Machine
variable {σ τ ι ο : Type} (m : Machine σ ι ο) (n : Machine τ ι ο)

def final : σ → List ι → σ := List.foldl m.next

def outputs : σ → List ι → List ο
  | _, [] => []
  | s, i :: rest => m.output s i :: outputs (m.next s i) rest

/- Every step of a run with the state it starts from. -/
def trace : σ → List ι → List (σ × ι)
  | _, [] => []
  | s, i :: rest => (s,i) :: trace (m.next s i) rest

/- What a run adds to a record of which each step contributes a part. -/
def history {α : Type} (part : σ → ι → List α) : σ → List ι → List α
  | _, [] => []
  | s, i :: rest => part s i ++ history part (m.next s i) rest

/- The same record, begun anew at every restart. -/
def since {α : Type} (restart : σ → ι → Bool) (part : σ → ι → List α) : List α → σ → List ι → List α
  | log, _, [] => log
  | log, s, i :: rest => since restart part (if restart s i then [] else log ++ part s i) (m.next s i) rest

def Steps (ok : σ → ι → Prop) (s : σ) (inputs : List ι) : Prop :=
  ∀ c ∈ m.trace s inputs, ok c.1 c.2

instance (ok : σ → ι → Prop) [∀ s i, Decidable (ok s i)] (s : σ) (inputs : List ι) :
    Decidable (m.Steps ok s inputs) := inferInstanceAs (Decidable (∀ _ ∈ _, _))

@[simp] theorem finalNil (s : σ) : m.final s [] = s := rfl
@[simp] theorem finalCons (s : σ) (i : ι) (rest : List ι) :
    m.final s (i :: rest) = m.final (m.next s i) rest := rfl
@[simp] theorem outputsNil (s : σ) : m.outputs s [] = [] := rfl
@[simp] theorem outputsCons (s : σ) (i : ι) (rest : List ι) :
    m.outputs s (i :: rest) = m.output s i :: m.outputs (m.next s i) rest := rfl
@[simp] theorem traceNil (s : σ) : m.trace s [] = [] := rfl
@[simp] theorem traceCons (s : σ) (i : ι) (rest : List ι) :
    m.trace s (i :: rest) = (s,i) :: m.trace (m.next s i) rest := rfl

@[simp] theorem historyNil {α : Type} (part : σ → ι → List α) (s : σ) : m.history part s [] = [] := rfl
@[simp] theorem historyCons {α : Type} (part : σ → ι → List α) (s : σ) (i : ι) (rest : List ι) :
    m.history part s (i :: rest) = part s i ++ m.history part (m.next s i) rest := rfl

@[simp] theorem finalAppend (s : σ) (xs ys : List ι) :
    m.final s (xs ++ ys) = m.final (m.final s xs) ys := List.foldl_append

@[simp] theorem outputsAppend (s : σ) (xs ys : List ι) :
    m.outputs s (xs ++ ys) = m.outputs s xs ++ m.outputs (m.final s xs) ys := by
  induction xs generalizing s with
  | nil => rfl
  | cons i rest ih => simp [ih]

@[simp] theorem historyAppend {α : Type} (part : σ → ι → List α) (s : σ) (xs ys : List ι) :
    m.history part s (xs ++ ys) = m.history part s xs ++ m.history part (m.final s xs) ys := by
  induction xs generalizing s with
  | nil => rfl
  | cons i rest ih => simp [ih]

@[simp] theorem traceAppend (s : σ) (xs ys : List ι) :
    m.trace s (xs ++ ys) = m.trace s xs ++ m.trace (m.final s xs) ys := by
  induction xs generalizing s with
  | nil => rfl
  | cons i rest ih => simp [ih]

theorem historyInputs {α : Type} (f : ι → α) (s : σ) (inputs : List ι) :
    m.history (fun _ i => [f i]) s inputs = inputs.map f := by
  induction inputs generalizing s with
  | nil => rfl
  | cons i rest ih => simp [ih]

theorem historyTrace {α : Type} (f : σ → ι → α) (s : σ) (inputs : List ι) :
    m.history (fun s i => [f s i]) s inputs = (m.trace s inputs).map fun c => f c.1 c.2 := by
  induction inputs generalizing s with
  | nil => rfl
  | cons i rest ih => simp [ih]

theorem historyFilter {α : Type} (part : σ → ι → List α) (keep : α → Bool) (s : σ) (inputs : List ι) :
    (m.history part s inputs).filter keep = m.history (fun s i => (part s i).filter keep) s inputs := by
  induction inputs generalizing s with
  | nil => rfl
  | cons i rest ih => simp [ih]

theorem historyFilterMap {α β : Type} (part : σ → ι → List α) (f : α → Option β) (s : σ) (inputs : List ι) :
    (m.history part s inputs).filterMap f = m.history (fun s i => (part s i).filterMap f) s inputs := by
  induction inputs generalizing s with
  | nil => rfl
  | cons i rest ih => simp [ih]

theorem historyMap {α β : Type} (part : σ → ι → List α) (f : α → β) (s : σ) (inputs : List ι) :
    (m.history part s inputs).map f = m.history (fun s i => (part s i).map f) s inputs := by
  induction inputs generalizing s with
  | nil => rfl
  | cons i rest ih => simp [ih]

theorem outputsHistory (s : σ) (inputs : List ι) : m.outputs s inputs = m.history (fun s i => [m.output s i]) s inputs := by
  induction inputs generalizing s with
  | nil => rfl
  | cons i rest ih => simp [ih]

theorem outputsFlatten {α : Type} (m : Machine σ ι (List α)) (s : σ) (inputs : List ι) :
    (m.outputs s inputs).flatten = m.history m.output s inputs := by
  induction inputs generalizing s with
  | nil => rfl
  | cons i rest ih => simp [ih]

theorem component {κ ο' : Type} (n : Machine τ κ ο') (proj : σ → τ) (feed : σ → ι → κ)
    (follows : ∀ s i, proj (m.next s i) = n.next (proj s) (feed s i)) (s : σ) (inputs : List ι) :
    n.final (proj s) (m.history (fun s i => [feed s i]) s inputs) = proj (m.final s inputs) ∧
    ∀ {α : Type} (part : τ → κ → List α),
      n.history part (proj s) (m.history (fun s i => [feed s i]) s inputs) =
        m.history (fun s i => part (proj s) (feed s i)) s inputs := by
  induction inputs generalizing s with
  | nil => exact ⟨rfl,fun _ => rfl⟩
  | cons i rest ih =>
    obtain ⟨final,parts⟩ := ih (m.next s i)
    rw [follows] at final parts
    refine ⟨final,fun part => ?_⟩
    exact congrArg (part (proj s) (feed s i) ++ ·) (parts part)

variable {m n}

theorem traceLength (s : σ) (inputs : List ι) : (m.trace s inputs).length = inputs.length := by
  induction inputs generalizing s with
  | nil => rfl
  | cons i rest ih => simp [ih]

theorem stepsCons {ok : σ → ι → Prop} {s i rest} :
    m.Steps ok s (i :: rest) ↔ ok s i ∧ m.Steps ok (m.next s i) rest := by
  simp [Steps]

theorem stepsInvariant {inv : σ → Prop} {ok : σ → ι → Prop}
    (step : ∀ s i, inv s → ok s i → inv (m.next s i)) {s} (start : inv s) {inputs}
    (steps : m.Steps ok s inputs) : inv (m.final s inputs) := by
  induction inputs generalizing s with
  | nil => exact start
  | cons i rest ih =>
    obtain ⟨here,later⟩ := stepsCons.mp steps
    exact ih (step s i start here) later

theorem stepsAll {inv : σ → Prop} {ok shows : σ → ι → Prop} (step : ∀ s i, inv s → ok s i → inv (m.next s i) ∧ shows s i)
    {s} (start : inv s) {inputs} (steps : m.Steps ok s inputs) : m.Steps shows s inputs := by
  induction inputs generalizing s with
  | nil => simp [Steps]
  | cons i rest ih =>
    obtain ⟨here,later⟩ := stepsCons.mp steps
    obtain ⟨next,shown⟩ := step s i start here
    exact stepsCons.mpr ⟨shown,ih next later⟩

theorem invariant {inv : σ → Prop} (step : ∀ s i, inv s → inv (m.next s i)) {s} (start : inv s)
    (inputs : List ι) : inv (m.final s inputs) := by
  induction inputs generalizing s with
  | nil => exact start
  | cons i rest ih => exact ih (step s i start)

theorem traceSplit {inv : σ → Prop} (step : ∀ s i, inv s → inv (m.next s i)) {before : List (σ × ι)} {x : σ × ι}
    {after : List (σ × ι)} {inputs : List ι} {s} (start : inv s) (split : m.trace s inputs = before ++ x :: after) :
    inv x.1 ∧ ∃ rest, after = m.trace (m.next x.1 x.2) rest ∧ rest.length = after.length := by
  induction before generalizing s inputs with
  | nil =>
    cases inputs with
    | nil => simp at split
    | cons i rest =>
      rw [traceCons,List.nil_append,List.cons.injEq] at split
      rw [← split.1,← split.2]
      exact ⟨start,rest,rfl,(traceLength _ rest).symm⟩
  | cons y before ih =>
    cases inputs with
    | nil => simp at split
    | cons i rest =>
      rw [traceCons,List.cons_append,List.cons.injEq] at split
      exact ih (step s i start) split.2

theorem historyEmpty {α : Type} {part : σ → ι → List α} {s inputs} :
    m.history part s inputs = [] ↔ m.Steps (fun s i => part s i = []) s inputs := by
  induction inputs generalizing s with
  | nil => simp [Steps]
  | cons i rest ih => rw [historyCons,List.append_eq_nil_iff,ih,stepsCons]

theorem historySame {α : Type} {part part' : σ → ι → List α} {s inputs}
    (same : m.Steps (fun s i => part s i = part' s i) s inputs) :
    m.history part s inputs = m.history part' s inputs := by
  induction inputs generalizing s with
  | nil => rfl
  | cons i rest ih =>
    obtain ⟨here,later⟩ := stepsCons.mp same
    rw [historyCons,historyCons,here,ih later]

theorem historyAll {α : Type} {inv : σ → Prop} {part : σ → ι → List α} {good : α → Prop}
    (step : ∀ s i, inv s → inv (m.next s i)) (here : ∀ s i, inv s → ∀ x ∈ part s i, good x)
    {s} (start : inv s) (inputs : List ι) : ∀ x ∈ m.history part s inputs, good x := by
  induction inputs generalizing s with
  | nil => simp
  | cons i rest ih =>
    intro x mem
    rcases List.mem_append.mp mem with now | later
    · exact here s i start x now
    · exact ih (step s i start) x later

theorem stepsConserved {α : Type} {inv : σ → Prop} {ok : σ → ι → Prop} {contents : σ → List α}
    {entering leaving : σ → ι → List α} (step : ∀ s i, inv s → ok s i → inv (m.next s i) ∧
      contents s ++ entering s i = leaving s i ++ contents (m.next s i)) {s} (start : inv s) {inputs}
    (steps : m.Steps ok s inputs) : inv (m.final s inputs) ∧
      contents s ++ m.history entering s inputs = m.history leaving s inputs ++ contents (m.final s inputs) := by
  induction inputs generalizing s with
  | nil => exact ⟨start,by simp⟩
  | cons i rest ih =>
    obtain ⟨now,steps⟩ := stepsCons.mp steps
    obtain ⟨next,here⟩ := step s i start now
    obtain ⟨last,later⟩ := ih next steps
    refine ⟨last,?_⟩
    rw [historyCons,historyCons,finalCons,← List.append_assoc,here,List.append_assoc,later,List.append_assoc]

theorem sinceConserved {α : Type} {inv : σ → Prop} {ok : σ → ι → Prop} {contents : σ → List α}
    {entering leaving : σ → ι → List α} {restart : σ → ι → Bool} (step : ∀ s i, inv s → ok s i → inv (m.next s i) ∧
      (restart s i = true → contents (m.next s i) = []) ∧
      (restart s i = false → contents s ++ entering s i = leaving s i ++ contents (m.next s i))) {s} (start : inv s)
    {inputs} (steps : m.Steps ok s inputs) {entered left : List α} (before : entered = left ++ contents s) :
    m.since restart entering entered s inputs = m.since restart leaving left s inputs ++ contents (m.final s inputs) := by
  induction inputs generalizing s entered left with
  | nil => exact before
  | cons i rest ih =>
    obtain ⟨now,steps⟩ := stepsCons.mp steps
    obtain ⟨next,cleared,moved⟩ := step s i start now
    refine ih next steps ?_
    rcases Bool.eq_false_or_eq_true (restart s i) with again | on
    · simp [again,cleared again]
    · simp [on,before,moved on]

theorem sinceMap {α β : Type} (restart : σ → ι → Bool) (part : σ → ι → List α) (f : List α → List β)
    (empty : f [] = []) (append : ∀ xs ys, f (xs ++ ys) = f xs ++ f ys) (log : List α) (s : σ) (inputs : List ι) :
    f (m.since restart part log s inputs) = m.since restart (fun s i => f (part s i)) (f log) s inputs := by
  induction inputs generalizing log s with
  | nil => rfl
  | cons i rest ih =>
    rw [since,since,ih]
    rcases Bool.eq_false_or_eq_true (restart s i) with again | on
    · simp [again,empty]
    · simp [on,append]

theorem stepsThinned {α : Type} {inv : σ → Prop} {ok : σ → ι → Prop} {contents : σ → List α}
    {entering leaving : σ → ι → List α} (step : ∀ s i, inv s → ok s i → inv (m.next s i) ∧
      (leaving s i ++ contents (m.next s i)).Sublist (contents s ++ entering s i)) {s} (start : inv s) {inputs}
    (steps : m.Steps ok s inputs) :
    (m.history leaving s inputs ++ contents (m.final s inputs)).Sublist (contents s ++ m.history entering s inputs) := by
  induction inputs generalizing s with
  | nil => simp
  | cons i rest ih =>
    obtain ⟨now,steps⟩ := stepsCons.mp steps
    obtain ⟨next,here⟩ := step s i start now
    have later := ih next steps
    rw [historyCons,historyCons,finalCons,List.append_assoc,← List.append_assoc (contents s)]
    refine (later.append_left (leaving s i)).trans ?_
    rw [← List.append_assoc]
    exact here.append_right _

theorem conserved {α : Type} {inv : σ → Prop} {contents : σ → List α} {entering leaving : σ → ι → List α}
    (step : ∀ s i, inv s → inv (m.next s i) ∧
      contents s ++ entering s i = leaving s i ++ contents (m.next s i)) {s} (start : inv s) (inputs : List ι) :
    inv (m.final s inputs) ∧
      contents s ++ m.history entering s inputs = m.history leaving s inputs ++ contents (m.final s inputs) := by
  have always : m.Steps (fun _ _ => True) s inputs := fun _ _ => trivial
  exact stepsConserved (fun s i inv _ => step s i inv) start always

theorem scripted {α : Type} {view : σ → α} {script : List α} {place : σ → Nat → Prop}
    (shown : ∀ s k, place s k → script[k]? = some (view s))
    (step : ∀ s i k, place s k → k + 1 < script.length → place (m.next s i) (k + 1)) {s} {k : Nat} (start : place s k)
    (inputs : List ι) : ((m.trace s inputs).map (view ·.1)).take (script.length - k) = (script.drop k).take inputs.length := by
  induction inputs generalizing s k with
  | nil => simp
  | cons i rest ih =>
    obtain ⟨inside,here⟩ := List.getElem?_eq_some_iff.mp (shown s k start)
    rw [List.drop_eq_getElem_cons inside,here,traceCons,List.map_cons,
      show script.length - k = (script.length - (k + 1)) + 1 from by omega,List.take_succ_cons,List.length_cons,
      List.take_succ_cons]
    by_cases more : k + 1 < script.length
    · rw [ih (step s i k start more)]
    · have empty : script.drop (k + 1) = [] := List.drop_eq_nil_of_le (by omega)
      have last : script.length - (k + 1) = 0 := by omega
      simp [empty,last]

end Machine
end Mealy
