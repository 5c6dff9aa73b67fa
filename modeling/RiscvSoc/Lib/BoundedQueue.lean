import RiscvSoc.Lib.Mealy

/-! A queue of a fixed capacity between a producer and a consumer that shake hands: it takes a word in any cycle that begins
with a free place and gives its oldest one. -/
namespace BoundedQueue
open Mealy
variable {α : Type}

structure Ports (α : Type) where
  inValid : Bool
  inData : α
  outReady : Bool
  deriving DecidableEq, Repr

structure Offers (α : Type) where
  inReady : Bool
  outData : Option α
  deriving DecidableEq, Repr

def accepted (capacity : Nat) (q : List α) (i : Ports α) : List α :=
  if i.inValid && decide (q.length < capacity) then [i.inData] else []

def delivered (q : List α) (i : Ports α) : List α := if i.outReady then q.head?.toList else []

def queue (capacity : Nat) : Machine (List α) (Ports α) (Offers α) where
  output q _ := ⟨decide (q.length < capacity),q.head?⟩
  next q i := (if i.outReady then q.tail else q) ++ accepted capacity q i

variable {capacity : Nat}

theorem queueConserved (q : List α) (i : Ports α) :
    q ++ accepted capacity q i = delivered q i ++ (queue capacity).next q i := by
  change _ = _ ++ ((if i.outReady then q.tail else q) ++ accepted capacity q i)
  unfold delivered
  cases i.outReady with
  | false => rfl
  | true => cases q <;> rfl

theorem queueBounded {q : List α} (bounded : q.length ≤ capacity) (i : Ports α) :
    ((queue capacity).next q i).length ≤ capacity := by
  change ((if i.outReady then q.tail else q) ++ accepted capacity q i).length ≤ capacity
  have kept : (if i.outReady then q.tail else q).length ≤ q.length := by
    split <;> simp
  have added : q.length + (accepted capacity q i).length ≤ capacity := by
    unfold accepted
    split
    · rename_i taken
      exact of_decide_eq_true (Bool.and_eq_true_iff.mp taken).2
    · exact bounded
  rw [List.length_append]
  omega

theorem runBounded {q : List α} (bounded : q.length ≤ capacity) (inputs : List (Ports α)) :
    ((queue capacity).final q inputs).length ≤ capacity := by
  induction inputs generalizing q with
  | nil => exact bounded
  | cons i rest ih => exact ih (queueBounded bounded i)

theorem queueWaits {q : List α} {x : α} (offered : q.head? = some x) {i : Ports α} (stalled : i.outReady = false) :
    ((queue capacity).next q i).head? = some x := by
  change ((if i.outReady then q.tail else q) ++ accepted capacity q i).head? = some x
  rw [stalled]
  cases q with
  | nil => contradiction
  | cons y rest => exact offered

structure Refines {σ ο : Type} (m : Machine σ (Ports α) ο) (capacity : Nat) (inv : σ → Prop) (contents : σ → List α)
    (view : ο → Offers α) : Prop where
  kept : ∀ s i, inv s → inv (m.next s i)
  moves : ∀ s i, inv s → contents (m.next s i) = (queue capacity).next (contents s) i
  offers : ∀ s i, inv s → view (m.output s i) = (queue capacity).output (contents s) i

variable {σ ο : Type} {m : Machine σ (Ports α) ο} {inv : σ → Prop} {contents : σ → List α} {view : ο → Offers α}

theorem refinesRun (refines : Refines m capacity inv contents view) {s : σ} (start : inv s) (inputs : List (Ports α)) :
    inv (m.final s inputs) ∧ contents (m.final s inputs) = (queue capacity).final (contents s) inputs ∧
      (m.outputs s inputs).map view = (queue capacity).outputs (contents s) inputs := by
  induction inputs generalizing s with
  | nil => exact ⟨start,rfl,rfl⟩
  | cons i rest ih =>
    obtain ⟨last,moved,offered⟩ := ih (refines.kept s i start)
    rw [refines.moves s i start] at moved offered
    exact ⟨last,moved,List.cons_eq_cons.mpr ⟨refines.offers s i start,offered⟩⟩

end BoundedQueue
