import Mathlib.Data.BitVec
import RiscvSoc.Lib.LittleEndian

/-! Byte-addressable memories over a word of `w` bits, and the loads and stores of byte strings. -/
namespace ByteMemory
open LittleEndian (Byte)

variable {w : Nat}

abbrev Memory (w : Nat) := BitVec w → Byte

def load (memory : Memory w) (addr : BitVec w) (n : Nat) : List Byte :=
  (List.range n).map fun k => memory (addr + BitVec.ofNat w k)

def store (memory : Memory w) (addr : BitVec w) (data : List Byte) : Memory w :=
  fun a => data[(a - addr).toNat]?.getD (memory a)

@[simp] theorem loadLength (memory : Memory w) (addr : BitVec w) (n : Nat) : (load memory addr n).length = n := by
  simp [load]

@[simp] theorem storeNil (memory : Memory w) (addr : BitVec w) : store memory addr [] = memory := by
  funext a
  simp [store]

theorem loadAppend (memory : Memory w) (addr : BitVec w) (n k : Nat) :
    load memory addr (n + k) = load memory addr n ++ load memory (addr + BitVec.ofNat w n) k := by
  simp only [load,List.range_add,List.map_append,List.map_map]
  congr 1
  apply List.map_congr_left
  intro i _
  rw [Function.comp_apply,BitVec.ofNat_add,BitVec.add_assoc]

theorem offsetAfter (a addr : BitVec w) {n : Nat} (fits : n ≤ 2 ^ w) :
    (a - (addr + BitVec.ofNat w n)).toNat =
      if n ≤ (a - addr).toNat then (a - addr).toNat - n else 2 ^ w - n + (a - addr).toNat := by
  have bound := (a - addr).isLt
  rw [sub_add_eq_sub_sub,BitVec.toNat_sub,BitVec.toNat_ofNat]
  generalize (a - addr).toNat = k at bound
  rcases Nat.lt_or_eq_of_le fits with small | rfl
  · rw [Nat.mod_eq_of_lt small]
    split
    · rw [show 2 ^ w - n + k = k - n + 2 ^ w by omega,Nat.add_mod_right,Nat.mod_eq_of_lt (by omega)]
    · rw [Nat.mod_eq_of_lt (by omega)]
  · rw [if_neg (by omega),Nat.mod_self,Nat.sub_zero,Nat.add_mod_left,Nat.mod_eq_of_lt bound]
    omega

theorem storeAppend (memory : Memory w) (addr : BitVec w) {xs ys : List Byte} (fits : xs.length + ys.length ≤ 2 ^ w) :
    store (store memory addr xs) (addr + BitVec.ofNat w xs.length) ys = store memory addr (xs ++ ys) := by
  funext a
  have offset := offsetAfter a addr (show xs.length ≤ 2 ^ w by omega)
  simp only [store,offset]
  split
  · rename_i after
    rw [List.getElem?_append_right after,List.getElem?_eq_none after]
    rfl
  · rename_i before
    rw [List.getElem?_append_left (by omega),List.getElem?_eq_none (by omega)]
    rfl

theorem storeAt (memory : Memory w) (addr : BitVec w) {data : List Byte} {k : Nat} (inside : k < data.length)
    (fits : data.length ≤ 2 ^ w) : store memory addr data (addr + BitVec.ofNat w k) = data[k] := by
  have offset : (addr + BitVec.ofNat w k - addr).toNat = k := by
    rw [add_sub_cancel_left,BitVec.toNat_ofNat,Nat.mod_eq_of_lt (by omega)]
  rw [store,offset,List.getElem?_eq_getElem inside]
  rfl

theorem storeOther (memory : Memory w) (addr a : BitVec w) {data : List Byte} (outside : data.length ≤ (a - addr).toNat) :
    store memory addr data a = memory a := by
  rw [store,List.getElem?_eq_none outside]
  rfl

theorem loadStore (memory : Memory w) (addr : BitVec w) {data : List Byte} (fits : data.length ≤ 2 ^ w) :
    load (store memory addr data) addr data.length = data := by
  apply List.ext_getElem (by simp)
  intro k inside inside'
  simp only [load,List.getElem_map,List.getElem_range]
  exact storeAt memory addr inside' fits

theorem loadApart (memory : Memory w) {addr b : BitVec w} {data : List Byte} {n : Nat} (low : addr.toNat + data.length ≤ 2 ^ w)
    (high : b.toNat + n ≤ 2 ^ w) (apart : addr.toNat + data.length ≤ b.toNat ∨ b.toNat + n ≤ addr.toNat) :
    load (store memory addr data) b n = load memory b n := by
  apply List.map_congr_left
  intro k mem
  have inside : k < n := List.mem_range.mp mem
  have bound := addr.isLt
  have place : (b + BitVec.ofNat w k).toNat = b.toNat + k := by
    rw [BitVec.toNat_add,BitVec.toNat_ofNat,Nat.add_mod_mod,Nat.mod_eq_of_lt (by omega)]
  refine storeOther memory addr _ ?_
  rw [BitVec.toNat_sub,place]
  rcases apart with before | after
  · rw [show 2 ^ w - addr.toNat + (b.toNat + k) = b.toNat + k - addr.toNat + 2 ^ w by omega,Nat.add_mod_right,
      Nat.mod_eq_of_lt (by omega)]
    omega
  · rw [Nat.mod_eq_of_lt (by omega)]
    omega

end ByteMemory
