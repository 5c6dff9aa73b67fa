import Mathlib.Data.List.Basic

/-! Windows of a counter: an interval of its values, what a sweep over all of them meets there, and sweeps of rows. -/
namespace Window

theorem carry {m : Nat} (positive : 0 < m) (n : Nat) :
    (n + 1) % m = (if n % m = m - 1 then 0 else n % m + 1) ∧ (n + 1) / m = if n % m = m - 1 then n / m + 1 else n / m := by
  have whole := Nat.div_add_mod n m
  have inside := Nat.mod_lt n positive
  by_cases last : n % m = m - 1
  · have next : n + 1 = m * (n / m + 1) := by
      rw [Nat.mul_add]
      omega
    rw [if_pos last,if_pos last,next,Nat.mul_mod_right,Nat.mul_div_cancel_left _ positive]
    exact ⟨rfl,rfl⟩
  · have next : n + 1 = m * (n / m) + (n % m + 1) := by omega
    have more : n % m + 1 < m := by omega
    rw [if_neg last,if_neg last]
    constructor
    · rw [next,Nat.mul_add_mod,Nat.mod_eq_of_lt more]
    · rw [next,Nat.mul_add_div positive,Nat.div_eq_of_lt more]
      rfl

/- High from `start` for `width` of `total` cycles. -/
def pulse (start width total : Nat) : List Bool :=
  List.replicate start false ++ List.replicate width true ++ List.replicate (total - (start + width)) false

variable {α : Type}

theorem rangeSplit {start width total : Nat} (fits : start + width ≤ total) :
    List.range total = List.range start ++ (List.range width).map (start + ·) ++
      (List.range (total - (start + width))).map (start + width + ·) := by
  rw [← List.range_add,← List.range_add,Nat.add_sub_cancel' fits]

theorem sweepPulse {start width total : Nat} (fits : start + width ≤ total) {f : Nat → Bool}
    (high : ∀ c < total, f c = true ↔ start ≤ c ∧ c < start + width) :
    (List.range total).map f = pulse start width total := by
  have outside {c : Nat} (inside : c < total) (low : ¬ (start ≤ c ∧ c < start + width)) : f c = false :=
    Bool.eq_false_iff.mpr (mt (high c inside).mp low)
  rw [rangeSplit fits,List.map_append,List.map_append,pulse]
  refine congrArg₂ _ (congrArg₂ _ ?_ ?_) ?_
  · refine List.eq_replicate_iff.mpr ⟨by simp,?_⟩
    simp only [List.mem_map,List.mem_range]
    rintro _ ⟨c,before,rfl⟩
    exact outside (by omega) (by omega)
  · refine List.eq_replicate_iff.mpr ⟨by simp,?_⟩
    simp only [List.map_map,List.mem_map,List.mem_range,Function.comp_apply]
    rintro _ ⟨c,within,rfl⟩
    exact (high _ (by omega)).mpr (by omega)
  · refine List.eq_replicate_iff.mpr ⟨by simp,?_⟩
    simp only [List.map_map,List.mem_map,List.mem_range,Function.comp_apply]
    rintro _ ⟨c,after,rfl⟩
    exact outside (by omega) (by omega)

theorem sweepWindow (start : Nat) {width total : Nat} (fits : start + width ≤ total) {f g : Nat → List α}
    (outside : ∀ c < total, ¬ (start ≤ c ∧ c < start + width) → f c = [])
    (within : ∀ c < width, f (start + c) = g c) :
    (List.range total).flatMap f = (List.range width).flatMap g := by
  rw [rangeSplit fits,List.flatMap_append,List.flatMap_append]
  have before : (List.range start).flatMap f = [] := by
    rw [List.flatMap_eq_nil_iff]
    intro c mem
    have inside := List.mem_range.mp mem
    exact outside c (by omega) (by omega)
  have after : ((List.range (total - (start + width))).map (start + width + ·)).flatMap f = [] := by
    rw [List.flatMap_eq_nil_iff]
    intro c mem
    obtain ⟨k,inside,rfl⟩ := List.mem_map.mp mem
    rw [List.mem_range] at inside
    exact outside _ (by omega) (by omega)
  rw [before,after,List.nil_append,List.append_nil,List.flatMap_map]
  exact List.flatMap_congr fun c mem => within c (List.mem_range.mp mem)

theorem rangeRows (rows width : Nat) :
    List.range (rows * width) = (List.range rows).flatMap fun row => (List.range width).map (row * width + ·) := by
  induction rows with
  | zero => simp
  | succ rows ih => rw [Nat.succ_mul,List.range_add,ih,List.range_succ,List.flatMap_append,List.flatMap_singleton]

end Window
