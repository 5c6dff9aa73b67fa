import RiscvSoc.Lib.Mealy

/-! Two clock domains whose edges come in any order or together, their reset lines, and the
chain of registers that carries a signal from one to the other. -/
namespace ClockCrossing
open Mealy

structure Edges (ι κ : Type) where
  src : Option ι
  dst : Option κ
  deriving DecidableEq, Repr

structure Lines where
  src : Bool
  dst : Bool
  deriving DecidableEq, Repr

/- A moment after which either line may have fallen; a line that has fallen stays low. -/
structure Moment (ι κ : Type) extends Edges ι κ where
  srcRelease : Bool
  dstRelease : Bool
  deriving DecidableEq, Repr

variable {α σ ι κ : Type}

def Lines.release (l : Lines) (m : Moment ι κ) : Lines := ⟨l.src && !m.srcRelease,l.dst && !m.dstRelease⟩

def Lines.asserted : Lines := ⟨true,true⟩
def Lines.released : Lines := ⟨false,false⟩

@[simp] theorem releaseReleased (m : Moment ι κ) : Lines.released.release m = .released := rfl

/- A circuit of two domains with the lines that reset it. -/
structure Started (σ : Type) where
  lines : Lines
  regs : σ

def started (step : Lines → σ → Edges ι κ → σ) : Machine (Started σ) (Moment ι κ) Unit where
  output _ _ := ()
  next s m := ⟨s.lines.release m,step s.lines s.regs m.toEdges⟩

def shift (din : α) (stages : List α) : List α := (din :: stages).dropLast

def clear (value : α) (stages : List α) : List α := stages.map fun _ => value

/- A chain of `n` stages whose first `i` have seen the new level of a signal. -/
def front (n i : Nat) (level : Bool) : List Bool := List.replicate i level ++ List.replicate (n - i) (!level)

@[simp] theorem shiftLength (din : α) (stages : List α) : (shift din stages).length = stages.length := by
  simp [shift]

@[simp] theorem clearFront (n i : Nat) (level value : Bool) (within : i ≤ n) :
    clear value (front n i level) = List.replicate n value := by
  simp only [clear,front,List.map_append,List.map_replicate,List.replicate_append_replicate]
  rw [Nat.add_sub_cancel' within]

@[simp] theorem frontNone (n : Nat) (level : Bool) : front n 0 level = List.replicate n (!level) := by simp [front]
@[simp] theorem frontAll (n : Nat) (level : Bool) : front n n level = List.replicate n level := by simp [front]

theorem shiftTake {k : Nat} {stages : List α} (din : α) (room : k < stages.length) :
    (shift din stages).take (k + 1) = din :: stages.take k := by
  rw [shift,List.dropLast_eq_take,List.take_take,List.length_cons,Nat.add_sub_cancel,
    Nat.min_eq_left (by omega),List.take_succ_cons]

theorem shiftSteady (n : Nat) (value : α) : shift value (List.replicate n value) = List.replicate n value := by
  rw [shift,← List.replicate_succ,List.dropLast_replicate,Nat.add_sub_cancel]

theorem shiftFront {n i : Nat} (level : Bool) (within : i < n) :
    shift level (front n i level) = front n (i + 1) level := by
  obtain ⟨k,rfl⟩ : ∃ k, n = i + 1 + k := ⟨n - (i + 1),by omega⟩
  have left : i + 1 + k - i = k + 1 := by omega
  have left' : i + 1 + k - (i + 1) = k := by omega
  rw [shift,front,front,left,left',← List.cons_append,← List.replicate_succ,
    List.replicate_succ' (n := k),← List.append_assoc,List.dropLast_concat]

theorem lastFront {n i : Nat} (level : Bool) (within : i ≤ n) (positive : 0 < n) :
    (front n i level).getLastD false = if i = n then level else !level := by
  obtain ⟨k,rfl⟩ : ∃ k, n = i + k := ⟨n - i,by omega⟩
  rw [front,Nat.add_sub_cancel_left]
  cases k with
  | zero =>
    obtain ⟨j,rfl⟩ : ∃ j, i = j + 1 := ⟨i - 1,by omega⟩
    simp [List.replicate_succ']
  | succ k => simp [List.replicate_succ',← List.append_assoc]

/- The moments at which the stages took what they hold, for a signal that is a counter: the
newest stage may be as old as the counter, and no stage is newer than the one before it. -/
def Descending (top : Nat) (times : List Nat) : Prop := (top :: times).Pairwise (· ≥ ·)

theorem descendingShift {top t : Nat} {times : List Nat} (order : Descending t times) (le : t ≤ top) :
    Descending top (shift t times) := by
  have part : (shift t times).Sublist (t :: times) := List.dropLast_sublist _
  refine List.pairwise_cons.mpr ⟨fun x mem => ?_,order.sublist part⟩
  rcases List.mem_cons.mp (part.subset mem) with rfl | old
  · exact le
  · exact Nat.le_trans (List.rel_of_pairwise_cons order old) le

theorem descendingRaise {top top' : Nat} {times : List Nat} (order : Descending top times) (le : top ≤ top') :
    Descending top' times := by
  obtain ⟨first,rest⟩ := List.pairwise_cons.mp order
  exact List.pairwise_cons.mpr ⟨fun x mem => Nat.le_trans (first x mem) le,rest⟩

theorem lastBelow {top : Nat} {times : List Nat} (order : Descending top times) : times.getLastD 0 ≤ top := by
  cases times with
  | nil => exact Nat.zero_le top
  | cons x rest =>
    rw [List.getLastD_cons]
    exact List.rel_of_pairwise_cons order (List.getLastD_mem_cons ..)

theorem lastShift {t : Nat} {times : List Nat} (order : Descending t times) :
    times.getLastD 0 ≤ (shift t times).getLastD 0 := by
  rcases List.eq_nil_or_concat times with rfl | ⟨older,last,rfl⟩
  · exact Nat.le_refl 0
  · rw [List.concat_eq_append] at *
    rw [List.getLastD_concat,shift,← List.cons_append,List.dropLast_concat,List.getLastD_cons]
    rw [Descending,← List.cons_append] at order
    exact (List.pairwise_append.mp order).2.2 _ List.getLastD_mem_cons last (by simp)

theorem shiftMap {β : Type} (f : α → β) (din : α) (stages : List α) :
    shift (f din) (stages.map f) = (shift din stages).map f := by
  rw [shift,shift,← List.map_cons,List.map_dropLast]

end ClockCrossing
