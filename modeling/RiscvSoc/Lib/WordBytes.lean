import Mathlib.Logic.Function.Basic
import RiscvSoc.Lib.ByteMemory

/-! A byte memory that is kept in words of four bytes, and the accesses to it that lie in one word or go on into the next. -/
namespace WordBytes
open LittleEndian (Byte byteAt)
open ByteMemory

variable {w : Nat}

def wordOf (a : BitVec (w + 2)) : BitVec w := a.extractLsb' 2 w
def lane (a : BitVec (w + 2)) : Nat := a.toNat % 4

def contents (words : BitVec w → BitVec 32) : Memory (w + 2) := fun a => byteAt (words (wordOf a)) (lane a)

def span (words : BitVec w → BitVec 32) (a : BitVec (w + 2)) : BitVec 64 := words (wordOf a + 1) ++ words (wordOf a)

def merged {n : Nat} (old : BitVec n) (o : Nat) (data : List Byte) (k : Nat) : Byte :=
  if o ≤ k then data[k - o]?.getD (byteAt old k) else byteAt old k

theorem wordOfToNat (a : BitVec (w + 2)) : (wordOf a).toNat = a.toNat / 4 := by
  have bound := a.isLt
  rw [wordOf,BitVec.extractLsb'_toNat,Nat.shiftRight_eq_div_pow,Nat.mod_eq_of_lt]
  rw [Nat.pow_add] at bound
  omega

theorem wordOfEq (a b : BitVec (w + 2)) : wordOf a = wordOf b ↔ a.toNat / 4 = b.toNat / 4 := by
  rw [← BitVec.toNat_inj,wordOfToNat,wordOfToNat]

theorem laneSmall (a : BitVec (w + 2)) : lane a < 4 := Nat.mod_lt _ (by decide)

theorem contentsNear (words : BitVec w → BitVec 32) (a : BitVec (w + 2)) {k : Nat} (near : lane a + k < 8) :
    contents words (a + BitVec.ofNat (w + 2) k) = byteAt (span words a) (lane a + k) := by
  have sum : (a + BitVec.ofNat (w + 2) k).toNat = (a.toNat + k) % (2 ^ w * 4) := by
    rw [BitVec.toNat_add,BitVec.toNat_ofNat,Nat.add_mod_mod,Nat.pow_add]
  have index : (wordOf (a + BitVec.ofNat (w + 2) k)).toNat = (a.toNat + k) / 4 % 2 ^ w := by
    rw [wordOfToNat,sum,Nat.mul_comm,Nat.mod_mul_right_div_self]
  have low : lane (a + BitVec.ofNat (w + 2) k) = (lane a + k) % 4 := by
    rw [lane,sum,Nat.mod_mul_left_mod,lane,Nat.mod_add_mod]
  rw [contents,low,span,LittleEndian.byteAtConcat _ _ _ near]
  rw [lane] at near ⊢
  split
  · rename_i first
    have here : wordOf (a + BitVec.ofNat (w + 2) k) = wordOf a := by
      rw [← BitVec.toNat_inj,index,← Nat.mod_eq_of_lt (wordOf a).isLt,wordOfToNat]
      congr 1
      omega
    rw [here,Nat.mod_eq_of_lt first]
  · rename_i second
    have next : wordOf (a + BitVec.ofNat (w + 2) k) = wordOf a + 1 := by
      have one : (1 : BitVec w).toNat = 1 % 2 ^ w := BitVec.toNat_ofNat _ _
      rw [← BitVec.toNat_inj,index,BitVec.toNat_add,one,Nat.add_mod_mod,wordOfToNat]
      congr 1
      omega
    rw [next,show (a.toNat % 4 + k) % 4 = a.toNat % 4 + k - 4 by omega]

theorem loadSpan (words : BitVec w → BitVec 32) (a : BitVec (w + 2)) {n : Nat} (few : n ≤ 4) :
    load (contents words) a n = LittleEndian.bytes n (span words a >>> (8 * lane a)).toNat := by
  have inside := laneSmall a
  rw [LittleEndian.bytesAt,load]
  apply List.map_congr_left
  intro k mem
  rw [contentsNear words a (by have := List.mem_range.mp mem; omega),LittleEndian.byteAtShiftRight]

theorem storeInside {n : Nat} (m : Memory n) (a b : BitVec n) {data : List Byte} (fits : a.toNat + data.length ≤ 2 ^ n) :
    store m a data b = if a.toNat ≤ b.toNat then data[b.toNat - a.toNat]?.getD (m b) else m b := by
  have bound := b.isLt
  rw [store,BitVec.toNat_sub]
  split
  · rename_i origin
    rw [show 2 ^ n - a.toNat + b.toNat = b.toNat - a.toNat + 2 ^ n by omega,Nat.add_mod_right,Nat.mod_eq_of_lt (by omega)]
  · rename_i before
    rw [Nat.mod_eq_of_lt (by omega),List.getElem?_eq_none (by omega)]
    rfl

section Store
variable (words : BitVec w → BitVec 32) (a : BitVec (w + 2)) {data : List Byte} (fits : a.toNat + data.length ≤ 2 ^ (w + 2))
include fits

theorem storeWithin (within : lane a + data.length ≤ 4) {x : BitVec 32}
    (put : ∀ k < 4, byteAt x k = merged (words (wordOf a)) (lane a) data k) :
    contents (Function.update words (wordOf a) x) = store (contents words) a data := by
  funext b
  rw [storeInside _ a b fits,contents]
  rw [lane] at within put
  by_cases here : wordOf b = wordOf a
  · have same := (wordOfEq b a).mp here
    rw [here,Function.update_self,put _ (laneSmall b),merged,contents,here,lane]
    by_cases after : a.toNat % 4 ≤ b.toNat % 4
    · rw [if_pos after,if_pos (by omega),show b.toNat % 4 - a.toNat % 4 = b.toNat - a.toNat by omega]
    · rw [if_neg after,if_neg (by omega)]
  · have other : ¬ b.toNat / 4 = a.toNat / 4 := fun same => here ((wordOfEq b a).mpr same)
    rw [Function.update_of_ne here]
    split
    · rw [List.getElem?_eq_none (by omega)]
      rfl
    · rfl

theorem storeAcross (across : 4 < lane a + data.length) (few : data.length ≤ 4) {x : BitVec 64}
    (put : ∀ k < 8, byteAt x k = merged (span words a) (lane a) data k) :
    contents (Function.update (Function.update words (wordOf a) (x.extractLsb' 0 32)) (wordOf a + 1) (x.extractLsb' 32 32)) =
      store (contents words) a data := by
  have inside := laneSmall a
  have bound := a.isLt
  rw [lane] at inside across put
  rw [Nat.pow_add] at fits
  have next : (wordOf a + 1).toNat = a.toNat / 4 + 1 := by
    have one : (1 : BitVec w).toNat = 1 % 2 ^ w := BitVec.toNat_ofNat _ _
    rw [BitVec.toNat_add,one,Nat.add_mod_mod,wordOfToNat,Nat.mod_eq_of_lt (by omega)]
  have apart : wordOf a ≠ wordOf a + 1 := fun same => by
    have := congrArg BitVec.toNat same
    rw [next,wordOfToNat] at this
    omega
  have low {k : Nat} (small : k < 4) : byteAt (x.extractLsb' 0 32) k = byteAt x k := by
    have := LittleEndian.byteAtExtract (j := 0) (w := 32) (m := 32) x (k := k) (by omega) (by omega)
    rwa [BitVec.setWidth_eq,Nat.zero_add] at this
  have high {k : Nat} (small : k < 4) : byteAt (x.extractLsb' 32 32) k = byteAt x (4 + k) := by
    have := LittleEndian.byteAtExtract (j := 4) (w := 32) (m := 32) x (k := k) (by omega) (by omega)
    rwa [BitVec.setWidth_eq] at this
  funext b
  rw [storeInside _ a b (by rw [Nat.pow_add]; exact fits),contents]
  by_cases here : wordOf b = wordOf a
  · have same := (wordOfEq b a).mp here
    rw [here,Function.update_of_ne apart,Function.update_self,low (laneSmall b),put _ (by have := laneSmall b; omega),merged,
      contents,here,span,LittleEndian.byteAtConcat _ _ _ (by have := laneSmall b; omega),if_pos (laneSmall b),lane]
    by_cases after : a.toNat % 4 ≤ b.toNat % 4
    · rw [if_pos after,if_pos (by omega),show b.toNat % 4 - a.toNat % 4 = b.toNat - a.toNat by omega]
    · rw [if_neg after,if_neg (by omega)]
  · by_cases second : wordOf b = wordOf a + 1
    · have same : b.toNat / 4 = a.toNat / 4 + 1 := by rw [← wordOfToNat,second,next]
      have small : b.toNat % 4 < 4 := laneSmall b
      have upper : byteAt (span words a) (4 + b.toNat % 4) = byteAt (words (wordOf a + 1)) (b.toNat % 4) := by
        rw [span,LittleEndian.byteAtConcat _ _ _ (by omega),if_neg (by omega),Nat.add_sub_cancel_left]
      rw [second,lane,Function.update_self,high small,put _ (by omega),merged,if_pos (by omega),if_pos (by omega),upper,contents,
        second,lane,show 4 + b.toNat % 4 - a.toNat % 4 = b.toNat - a.toNat by omega]
    · have other : ¬ b.toNat / 4 = a.toNat / 4 := fun same => here ((wordOfEq b a).mpr same)
      have beyond : ¬ b.toNat / 4 = a.toNat / 4 + 1 := fun same => second (BitVec.eq_of_toNat_eq (by rw [next,wordOfToNat,same]))
      rw [Function.update_of_ne second,Function.update_of_ne here]
      split
      · rw [List.getElem?_eq_none (by omega)]
        rfl
      · rfl

end Store

end WordBytes
