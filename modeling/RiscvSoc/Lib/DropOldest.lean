import Mathlib.Data.List.DropRight
import RiscvSoc.Lib.Mealy

/-! A queue of a fixed number of places whose producer never waits: a push into a full queue drops the oldest element. What
was pushed is what was popped or dropped, in this order, and what is still there. -/
namespace DropOldest
open Mealy Machine
variable {α : Type} {capacity : Nat}

def push (capacity : Nat) (q : List α) (x : α) : List α := (if q.length ≥ capacity then q.tail else q) ++ [x]

def dropped (capacity : Nat) (q : List α) : List α := if q.length ≥ capacity then q.head?.toList else []

theorem pushConserved (q : List α) (x : α) : q ++ [x] = dropped capacity q ++ push capacity q x := by
  unfold push dropped
  split
  · cases q <;> rfl
  · rfl

theorem droppedFull {q : List α} {x : α} (mem : x ∈ dropped capacity q) : capacity ≤ q.length ∧ q.head? = some x := by
  unfold dropped at mem
  split at mem
  · rename_i full
    exact ⟨full,Option.mem_toList.mp mem⟩
  · simp at mem

theorem pushBounded (positive : 0 < capacity) {q : List α} (bounded : q.length ≤ capacity) (x : α) :
    (push capacity q x).length ≤ capacity := by
  unfold push
  rw [List.length_append,List.length_singleton]
  split
  · rw [List.length_tail]
    omega
  · omega

theorem rtakeShort {q : List α} (short : q.length ≤ capacity) : q.rtake capacity = q := by
  rw [List.rtake,Nat.sub_eq_zero_of_le short,List.drop_zero]

theorem rtakeRtake (xs ys : List α) : (xs.rtake capacity ++ ys).rtake capacity = (xs ++ ys).rtake capacity := by
  rw [List.rtake,List.rtake,List.rtake,List.length_append,List.length_append,List.length_drop,List.drop_append,
    List.drop_append,List.drop_drop,List.length_drop]
  congr 2 <;> omega

inductive Op (α : Type) where
  | push (x : α)
  | pop
  deriving DecidableEq, Repr

inductive Left where
  | popped
  | dropped
  deriving DecidableEq, Repr

def next (capacity : Nat) (q : List α) : Op α → List α
  | .push x => push capacity q x
  | .pop => q.tail

def machine (capacity : Nat) : Machine (List α) (Op α) (Option α) where
  output q op := match op with
    | .push _ => none
    | .pop => q.head?
  next := next capacity

def entering (_ : List α) : Op α → List α
  | .push x => [x]
  | .pop => []

def leaving (capacity : Nat) (q : List α) : Op α → List (Left × α)
  | .push _ => (dropped capacity q).map (Left.dropped,·)
  | .pop => q.head?.toList.map (Left.popped,·)

theorem stepConserved (q : List α) (op : Op α) :
    q ++ entering q op = (leaving capacity q op).map Prod.snd ++ next capacity q op := by
  cases op with
  | push x =>
    rw [leaving,List.map_map]
    exact (pushConserved q x).trans (congrArg (· ++ _) (List.map_id _).symm)
  | pop => cases q <;> simp [entering,leaving,next]

theorem stepBounded (positive : 0 < capacity) {q : List α} (bounded : q.length ≤ capacity) (op : Op α) :
    (next capacity q op).length ≤ capacity := by
  cases op with
  | push x => exact pushBounded positive bounded x
  | pop =>
    rw [next,List.length_tail]
    omega

/- What was popped of all that has left. -/
def popped : Left × α → Option α
  | (.popped,x) => some x
  | (.dropped,_) => none

theorem poppedStep (q : List α) (op : Op α) :
    (leaving capacity q op).filterMap popped = [(machine capacity).output q op].filterMap id := by
  cases op with
  | push x =>
    rw [leaving,List.filterMap_map]
    exact List.filterMap_eq_nil_iff.mpr fun _ _ => rfl
  | pop => cases q <;> rfl

theorem delivered (positive : 0 < capacity) (ops : List (Op α)) :
    let left := (machine capacity).history (leaving capacity) [] ops
    (machine capacity).history entering [] ops = left.map Prod.snd ++ (machine capacity).final [] ops ∧
      left.filterMap popped = ((machine capacity).outputs [] ops).reduceOption ∧
      ((machine capacity).final [] ops).length ≤ capacity := by
  intro left
  obtain ⟨bounded,same⟩ := @conserved _ _ _ (machine capacity) _ (fun q => q.length ≤ capacity) id entering
    (fun q op => (leaving capacity q op).map Prod.snd)
    (fun q op bounded => ⟨stepBounded positive bounded op,stepConserved q op⟩) [] (Nat.zero_le _) ops
  refine ⟨?_,?_,bounded⟩
  · rw [historyMap]
    exact same
  · change left.filterMap popped = ((machine capacity).outputs [] ops).filterMap id
    rw [historyFilterMap,outputsHistory,historyFilterMap]
    exact historySame fun _ _ => poppedStep _ _

end DropOldest
