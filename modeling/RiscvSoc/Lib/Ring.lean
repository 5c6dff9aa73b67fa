import Mathlib.Algebra.Group.Nat.Defs
import Mathlib.Logic.Function.Basic

/-! A circular buffer: the entries of an array from an address on, with addresses that wrap. -/
namespace Ring
variable {α : Type} {k : Nat}

def entries (mem : BitVec k → α) (p : BitVec k) : Nat → List α
  | 0 => []
  | n+1 => mem p :: entries mem (p + 1) n

@[simp] theorem entriesZero (mem : BitVec k → α) (p : BitVec k) : entries mem p 0 = [] := rfl

theorem entriesSucc (mem : BitVec k → α) (p : BitVec k) (n : Nat) :
    entries mem p (n + 1) = mem p :: entries mem (p + 1) n := rfl

@[simp] theorem entriesLength (mem : BitVec k → α) (p : BitVec k) (n : Nat) :
    (entries mem p n).length = n := by
  induction n generalizing p with
  | zero => rfl
  | succ n ih => simp [entries,ih]

theorem addressSucc (p : BitVec k) (n : Nat) :
    p + 1 + BitVec.ofNat k n = p + BitVec.ofNat k (n + 1) := by
  rw [Nat.add_comm n,BitVec.ofNat_add,BitVec.add_assoc]
  rfl

theorem addressNe (p : BitVec k) {m n : Nat} (below : m < n) (turn : n - m < 2 ^ k) :
    p + BitVec.ofNat k m ≠ p + BitVec.ofNat k n := by
  intro same
  have equal := congrArg BitVec.toNat ((BitVec.add_right_inj p).mp same)
  simp only [BitVec.toNat_ofNat] at equal
  have congr : (n - m) % 2 ^ k = 0 := Nat.sub_mod_eq_zero_of_mod_eq equal.symm
  rw [Nat.mod_eq_of_lt turn] at congr
  omega

theorem entriesSnoc (mem : BitVec k → α) (p : BitVec k) (n : Nat) :
    entries mem p (n + 1) = entries mem p n ++ [mem (p + BitVec.ofNat k n)] := by
  induction n generalizing p with
  | zero => simp [entries]
  | succ n ih => rw [entriesSucc,ih (p + 1),addressSucc,entriesSucc,List.cons_append]

theorem entriesCongr {mem mem' : BitVec k → α} {p : BitVec k} {n : Nat}
    (same : ∀ m, m < n → mem (p + BitVec.ofNat k m) = mem' (p + BitVec.ofNat k m)) :
    entries mem p n = entries mem' p n := by
  induction n with
  | zero => rfl
  | succ n ih => rw [entriesSnoc,entriesSnoc,ih fun m below => same m (by omega),same n (by omega)]

theorem entriesUpdate (mem : BitVec k → α) (p : BitVec k) {n : Nat} (x : α) (room : n < 2 ^ k) :
    entries (Function.update mem (p + BitVec.ofNat k n) x) p n = entries mem p n :=
  entriesCongr fun _ below => Function.update_of_ne (addressNe p below (by omega)) _ _

theorem entriesPush (mem : BitVec k → α) (p : BitVec k) {n : Nat} (x : α) (room : n < 2 ^ k) :
    entries (Function.update mem (p + BitVec.ofNat k n) x) p (n + 1) = entries mem p n ++ [x] := by
  rw [entriesSnoc,entriesUpdate mem p x room,Function.update_self]

theorem entriesPopPush (mem : BitVec k → α) (p : BitVec k) {n : Nat} (x : α) (room : n < 2 ^ k) :
    mem p :: entries (Function.update mem (p + 1 + BitVec.ofNat k n) x) (p + 1) (n + 1) =
      entries mem p (n + 1) ++ [x] := by
  rw [entriesPush mem (p + 1) x room,entriesSucc,List.cons_append]

end Ring
