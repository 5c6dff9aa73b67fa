import Mathlib.Data.List.DropRight

/-! The run of equal elements at the end of a list, and a bit that takes a value once a run of it has lasted long enough
and keeps it until a run of the other value has. -/
namespace Streak
variable {α : Type} (p : α → Bool)

def streak (xs : List α) : Nat := (xs.rtakeWhile p).length

@[simp] theorem streakNil : streak p [] = 0 := by rw [streak,List.rtakeWhile_nil,List.length_nil]

variable {p}

theorem streakYes {x : α} (yes : p x = true) (xs : List α) : streak p (xs ++ [x]) = streak p xs + 1 := by
  rw [streak,List.rtakeWhile_concat_pos p xs x yes,List.length_append,List.length_singleton,streak]

theorem streakNo {x : α} (no : p x = false) (xs : List α) : streak p (xs ++ [x]) = 0 := by
  rw [streak,List.rtakeWhile_concat_neg p xs x (by simp [no]),List.length_nil]

theorem streakAgain [DecidableEq α] (a : α) (xs : List α) : streak (· == a) (xs ++ [a]) = streak (· == a) xs + 1 :=
  streakYes (p := (· == a)) (beq_self_eq_true a) xs

theorem streakChanged [DecidableEq α] {a b : α} (other : b ≠ a) (xs : List α) : streak (· == a) (xs ++ [b]) = 0 :=
  streakNo (p := (· == a)) (beq_false_of_ne other) xs

theorem streakLength (xs : List α) : streak p xs ≤ xs.length := (List.rtakeWhile_suffix p xs).length_le

theorem streakAll {xs : List α} (all : ∀ x ∈ xs, p x = true) : streak p xs = xs.length := by
  rw [streak,List.rtakeWhile_eq_self_iff.mpr all]

theorem rtakeWhileMap {β : Type} (f : β → α) (xs : List β) :
    (xs.map f).rtakeWhile p = (xs.rtakeWhile fun x => p (f x)).map f := by
  induction xs using List.reverseRecOn with
  | nil => rfl
  | append_singleton xs x ih =>
    rw [List.map_append,List.map_singleton,List.rtakeWhile_concat,List.rtakeWhile_concat,ih]
    split
    · rw [List.map_append,List.map_singleton]
    · rfl

theorem streakMap {β : Type} (f : β → α) (xs : List β) : streak p (xs.map f) = streak (fun x => p (f x)) xs := by
  rw [streak,rtakeWhileMap,List.length_map,streak]

theorem streakBoth (p q : α → Bool) (xs : List α) : streak (fun x => p x && q x) xs = min (streak p xs) (streak q xs) := by
  induction xs using List.reverseRecOn with
  | nil => rw [streakNil,streakNil,Nat.zero_min]
  | append_singleton xs x ih =>
    cases left : p x with
    | false => rw [streakNo left,streakNo (by simp [left]),Nat.zero_min]
    | true =>
      cases right : q x with
      | false => rw [streakNo right,streakNo (by simp [right]),Nat.min_zero]
      | true => rw [streakYes left,streakYes right,streakYes (by simp [left,right]),ih,Nat.add_min_add_right]

theorem streakSuffix {n : Nat} {xs : List α} : n ≤ streak p xs ↔ ∃ zs, zs <:+ xs ∧ zs.length = n ∧ ∀ z ∈ zs, p z = true := by
  induction xs using List.reverseRecOn generalizing n with
  | nil =>
    constructor
    · intro short
      exact ⟨[],List.suffix_refl _,(Nat.le_zero.mp (streakNil p ▸ short)).symm,by simp⟩
    · rintro ⟨zs,suffix,rfl,-⟩
      simp [List.suffix_nil.mp suffix]
  | append_singleton xs x ih =>
    cases here : p x with
    | false =>
      rw [streakNo here]
      constructor
      · intro short
        exact ⟨[],List.nil_suffix,(Nat.le_zero.mp short).symm,by simp⟩
      · rintro ⟨zs,suffix,rfl,all⟩
        obtain rfl | ⟨ws,rfl,-⟩ := List.suffix_concat_iff.mp suffix
        · exact Nat.zero_le _
        · exact absurd (all x (by simp)) (by simp [here])
    | true =>
      rw [streakYes here]
      cases n with
      | zero => exact ⟨fun _ => ⟨[],List.nil_suffix,rfl,by simp⟩,fun _ => Nat.zero_le _⟩
      | succ n =>
        rw [Nat.add_le_add_iff_right,ih]
        constructor
        · rintro ⟨zs,suffix,rfl,all⟩
          refine ⟨zs ++ [x],List.suffix_concat_iff.mpr (.inr ⟨zs,rfl,suffix⟩),by simp,?_⟩
          rintro z mem
          obtain mem | mem := List.mem_append.mp mem
          · exact all z mem
          · exact List.mem_singleton.mp mem ▸ here
        · rintro ⟨zs,suffix,length,all⟩
          obtain rfl | ⟨ws,rfl,suffix⟩ := List.suffix_concat_iff.mp suffix
          · exact absurd length (by simp)
          · rename_i inner
            refine ⟨ws,inner,by simpa using length,fun z mem => all z (List.mem_append.mpr (.inl mem))⟩

theorem streakReplicate [DecidableEq α] {a : α} {n : Nat} {xs : List α} :
    n ≤ streak (· == a) xs ↔ List.replicate n a <:+ xs := by
  rw [streakSuffix]
  constructor
  · rintro ⟨zs,suffix,rfl,all⟩
    rwa [← List.eq_replicate_iff.mpr ⟨rfl,fun z mem => eq_of_beq (all z mem)⟩]
  · intro suffix
    exact ⟨_,suffix,List.length_replicate,fun z mem => beq_iff_eq.mpr (List.eq_of_mem_replicate mem)⟩

theorem streakHigh {n : Nat} {xs : List Bool} : n ≤ streak id xs ↔ List.replicate n true <:+ xs := by
  have same : (id : Bool → Bool) = (· == true) := funext fun x => (beq_true x).symm
  rw [same,streakReplicate]

theorem streakLow {n : Nat} {xs : List Bool} : n ≤ streak (!·) xs ↔ List.replicate n false <:+ xs := by
  have same : (fun x : Bool => !x) = (· == false) := funext fun x => (beq_false x).symm
  rw [same,streakReplicate]

/- High once there were `n` highs in a row, with no `n` lows in a row since. -/
def Settled (n : Nat) (xs : List Bool) : Prop :=
  ∃ ys zs, xs = ys ++ List.replicate n true ++ zs ∧ ¬ List.replicate n false <:+: zs

variable {n : Nat}

theorem settledNil (positive : 0 < n) : ¬ Settled n [] := by
  rintro ⟨ys,zs,empty,-⟩
  have length := congrArg List.length empty
  rw [List.length_append,List.length_append,List.length_replicate,List.length_nil] at length
  omega

theorem settledHigh (positive : 0 < n) {xs : List Bool} (suffix : List.replicate n true <:+ xs) : Settled n xs := by
  obtain ⟨ys,rfl⟩ := suffix
  refine ⟨ys,[],(List.append_nil _).symm,fun low => ?_⟩
  exact absurd (congrArg List.length (List.infix_nil.mp low)) (by simpa using Nat.ne_of_gt positive)

theorem settledLow {xs : List Bool} (suffix : List.replicate n false <:+ xs) : ¬ Settled n xs := by
  rintro ⟨ys,zs,rfl,quiet⟩
  obtain inside | ⟨ws,same⟩ := List.suffix_or_suffix_of_suffix suffix (List.suffix_append _ zs)
  · exact quiet inside.isInfix
  · obtain ⟨vs,longer⟩ : List.replicate n false <:+ List.replicate n true ++ zs :=
      List.suffix_of_suffix_length_le suffix ⟨ys,(List.append_assoc _ _ _).symm⟩ (by simp)
    rw [← same,← List.append_assoc] at longer
    have split := List.append_cancel_right longer
    have lows : ∀ w ∈ ws, w = false := fun w mem =>
      List.eq_of_mem_replicate (same ▸ List.mem_append.mpr (.inl mem) : w ∈ List.replicate n false)
    have highs : ∀ w ∈ ws, w = true := fun w mem =>
      List.eq_of_mem_replicate (split ▸ List.mem_append.mpr (.inr mem) : w ∈ List.replicate n true)
    cases ws with
    | nil => exact quiet (same ▸ List.infix_refl zs)
    | cons w rest => exact absurd ((lows w (by simp)).symm.trans (highs w (by simp))) (by simp)

theorem settledLong (positive : 0 < n) {xs : List Bool} {x : Bool} (long : List.replicate n x <:+ xs) :
    Settled n xs ↔ x = true := by
  cases x with
  | true => exact iff_of_true (settledHigh positive long) rfl
  | false => exact iff_of_false (settledLow long) Bool.false_ne_true

theorem settledSteady (positive : 0 < n) {k : Nat} : Settled n (List.replicate k true) ↔ n ≤ k := by
  constructor
  · rintro ⟨ys,zs,same,-⟩
    have length := congrArg List.length same
    rw [List.length_append,List.length_append,List.length_replicate,List.length_replicate] at length
    omega
  · intro long
    refine settledHigh positive ⟨List.replicate (k - n) true,?_⟩
    rw [List.replicate_append_replicate,Nat.sub_add_cancel long]

theorem highsReplicate (xs : List Bool) : xs.rtakeWhile id = List.replicate (streak id xs) true :=
  List.eq_replicate_iff.mpr ⟨rfl,fun _ mem => List.mem_rtakeWhile_imp mem⟩

theorem settledStays (positive : 0 < n) {xs : List Bool} {x : Bool} (short : ¬ List.replicate n x <:+ xs ++ [x]) :
    Settled n (xs ++ [x]) ↔ Settled n xs := by
  constructor
  · rintro ⟨ys,zs,same,quiet⟩
    obtain rfl | ⟨zs,z,rfl⟩ := List.eq_nil_or_concat' zs
    · obtain ⟨m,rfl⟩ := Nat.exists_eq_succ_of_ne_zero (Nat.ne_of_gt positive)
      rw [List.append_nil,List.replicate_succ',← List.append_assoc] at same
      obtain ⟨-,last⟩ := List.append_inj' same rfl
      rw [List.singleton_inj.mp last] at short same
      exact absurd ⟨ys,by rw [same,List.append_assoc,List.replicate_succ']⟩ short
    · rw [← List.append_assoc] at same
      obtain ⟨before,-⟩ := List.append_inj' same rfl
      exact ⟨ys,zs,before,fun low => quiet (low.trans (List.prefix_append zs [z]).isInfix)⟩
  · rintro ⟨ys,zs,rfl,quiet⟩
    refine ⟨ys,zs ++ [x],List.append_assoc _ _ _,fun low => ?_⟩
    obtain low | low := List.infix_concat_iff.mp low
    · obtain ⟨m,rfl⟩ := Nat.exists_eq_succ_of_ne_zero (Nat.ne_of_gt positive)
      obtain ⟨vs,ends⟩ := low
      have last := ends
      rw [List.replicate_succ',← List.append_assoc] at last
      obtain ⟨-,last⟩ := List.append_inj' last rfl
      rw [← List.singleton_inj.mp last] at ends short
      exact short ⟨ys ++ List.replicate (m + 1) true ++ vs,by simp only [List.append_assoc,ends]⟩
    · exact quiet low

end Streak
