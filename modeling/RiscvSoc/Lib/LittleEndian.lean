import Mathlib.Algebra.Group.Nat.Defs
/-! Little-endian byte strings and the numbers they write. -/
namespace LittleEndian

abbrev Byte := BitVec 8

def value : List Byte → Nat
  | [] => 0
  | b :: rest => b.toNat + 256 * value rest

def bytes : Nat → Nat → List Byte
  | 0, _ => []
  | n+1, v => BitVec.ofNat 8 v :: bytes n (v / 256)

@[simp] theorem bytesLength (n v : Nat) : (bytes n v).length = n := by
  induction n generalizing v with
  | zero => rfl
  | succ n ih => simp [bytes,ih]

theorem valueBound (bs : List Byte) : value bs < 256 ^ bs.length := by
  induction bs with
  | nil => simp [value]
  | cons b rest ih =>
    have low : b.toNat < 256 := b.isLt
    simp only [value,List.length_cons,Nat.pow_succ]
    omega

theorem bytesTake {n m : Nat} (short : n ≤ m) (v : Nat) : (bytes m v).take n = bytes n v := by
  induction n generalizing m v with
  | zero => rfl
  | succ n ih =>
    obtain ⟨k,rfl⟩ : ∃ k, m = k + 1 := ⟨m - 1,by omega⟩
    rw [bytes,List.take_succ_cons,ih (by omega),bytes]

theorem valueBytes (n v : Nat) : value (bytes n v) = v % 256 ^ n := by
  induction n generalizing v with
  | zero => simp [value,bytes,Nat.mod_one]
  | succ n ih =>
    simp only [value,bytes,ih,BitVec.toNat_ofNat,Nat.pow_succ,Nat.mul_comm (256 ^ n)]
    exact (Nat.mod_mul).symm

theorem bytesValue (bs : List Byte) : bytes bs.length (value bs) = bs := by
  induction bs with
  | nil => rfl
  | cons b rest ih =>
    have low : b.toNat < 256 := b.isLt
    have tail : (b.toNat + 256 * value rest) / 256 = value rest := by omega
    have head : BitVec.ofNat 8 (b.toNat + 256 * value rest) = b := by
      apply BitVec.eq_of_toNat_eq
      rw [BitVec.toNat_ofNat]
      omega
    simp only [bytes,value,List.length_cons,tail,head,ih]

theorem valueAppend (xs ys : List Byte) : value (xs ++ ys) = value xs + 256 ^ xs.length * value ys := by
  induction xs with
  | nil => simp [value]
  | cons x rest ih =>
    have power : 256 ^ (rest.length + 1) * value ys = 256 * (256 ^ rest.length * value ys) := by
      rw [Nat.pow_succ,Nat.mul_comm (256 ^ rest.length),Nat.mul_assoc]
    simp only [List.cons_append,value,ih,List.length_cons,power]
    omega

theorem valueZero (bs : List Byte) : value bs = 0 ↔ ∀ b ∈ bs, b = 0 := by
  induction bs with
  | nil => simp [value]
  | cons b rest ih =>
    have head : b.toNat = 0 ↔ b = 0 := ⟨fun zero => BitVec.eq_of_toNat_eq zero,fun zero => by rw [zero]; rfl⟩
    simp only [value,List.forall_mem_cons,← ih,← head]
    omega

theorem valueBit (bs : List Byte) (i : Nat) :
    (value bs).testBit i = (bs.getD (i / 8) 0).getLsbD (i % 8) := by
  induction bs generalizing i with
  | nil => simp [value]
  | cons b rest ih =>
    have split : value (b :: rest) = 2 ^ 8 * value rest + b.toNat := by simp [value,Nat.add_comm]
    rw [split,Nat.testBit_two_pow_mul_add _ b.isLt]
    split
    · rename_i low
      rw [Nat.div_eq_of_lt low,Nat.mod_eq_of_lt low]
      rfl
    · rename_i high
      have next : i / 8 = (i - 8) / 8 + 1 := by omega
      have same : i % 8 = (i - 8) % 8 := by omega
      rw [ih,next,same]
      rfl

/- The number a byte string writes, as a machine word. -/
def word (n : Nat) (bs : List Byte) : BitVec n := BitVec.ofNat n (value bs)

def byteAt {n : Nat} (x : BitVec n) (k : Nat) : Byte := x.extractLsb' (8 * k) 8

def setByte {n : Nat} (x : BitVec n) (k : Nat) (b : Byte) : BitVec n :=
  (x &&& ~~~((0xFF#8).setWidth n <<< (8 * k))) ||| (b.setWidth n <<< (8 * k))

theorem byteAtBit {n : Nat} (x : BitVec n) (k i : Nat) (low : i < 8) :
    (byteAt x k).getLsbD i = x.getLsbD (8 * k + i) := by
  simp only [byteAt,BitVec.getLsbD_extractLsb',low,decide_true,Bool.true_and]

theorem setByteBit {n : Nat} (x : BitVec n) (k i : Nat) (b : Byte) (inside : i < n) :
    (setByte x k b).getLsbD i =
      if 8 * k ≤ i ∧ i < 8 * k + 8 then b.getLsbD (i - 8 * k) else x.getLsbD i := by
  have ones : (0xFF#8) = BitVec.allOnes 8 := rfl
  simp only [setByte,ones,BitVec.getLsbD_or,BitVec.getLsbD_and,BitVec.getLsbD_not,
    BitVec.getLsbD_shiftLeft,BitVec.getLsbD_setWidth,BitVec.getLsbD_allOnes,inside,decide_true,
    Bool.true_and]
  by_cases below : i < 8 * k
  · simp [below,show ¬ 8 * k ≤ i by omega]
  · by_cases above : i - 8 * k < 8
    · simp [below,above,show 8 * k ≤ i ∧ i < 8 * k + 8 by omega,show i - 8 * k < n by omega]
    · have zero : b.getLsbD (i - 8 * k) = false := BitVec.getLsbD_of_ge _ _ (by omega)
      simp [above,zero,show ¬ (8 * k ≤ i ∧ i < 8 * k + 8) by omega]

theorem byteAtWord {n : Nat} (bs : List Byte) {k : Nat} (inside : 8 * k + 8 ≤ n) :
    byteAt (word n bs) k = bs.getD k 0 := by
  apply BitVec.eq_of_getLsbD_eq
  intro i low
  rw [byteAtBit _ _ _ low,word,BitVec.getLsbD_ofNat,valueBit,
    show (8 * k + i) / 8 = k by omega,show (8 * k + i) % 8 = i by omega,
    decide_eq_true (show 8 * k + i < n by omega),Bool.true_and]

theorem byteAtSetByte {n : Nat} (x : BitVec n) {k j : Nat} (b : Byte) (inside : 8 * j + 8 ≤ n) :
    byteAt (setByte x k b) j = if j = k then b else byteAt x j := by
  apply BitVec.eq_of_getLsbD_eq
  intro i low
  rw [byteAtBit _ _ _ low,setByteBit _ _ _ _ (by omega)]
  by_cases same : j = k
  · subst same
    rw [if_pos (by omega),if_pos rfl,show 8 * j + i - 8 * j = i by omega]
  · rw [if_neg (by omega),if_neg same,byteAtBit _ _ _ low]

theorem eqOfBytes {m : Nat} {x y : BitVec (8 * m)} (same : ∀ k < m, byteAt x k = byteAt y k) :
    x = y := by
  apply BitVec.eq_of_getLsbD_eq
  intro i low
  have inside : i % 8 < 8 := Nat.mod_lt _ (by decide)
  have bytes := congrArg (fun b => b.getLsbD (i % 8)) (same (i / 8) (by omega))
  simp only [byteAtBit _ _ _ inside] at bytes
  rwa [show 8 * (i / 8) + i % 8 = i by omega] at bytes

theorem setByteWord {m : Nat} (bs : List Byte) (b : Byte) :
    setByte (word (8 * m) bs) bs.length b = word (8 * m) (bs ++ [b]) := by
  apply eqOfBytes
  intro k inside
  rw [byteAtSetByte _ _ (by omega),byteAtWord _ (by omega),byteAtWord _ (by omega)]
  by_cases last : k = bs.length
  · subst last
    simp
  · rw [if_neg last]
    by_cases before : k < bs.length
    · simp [List.getD_eq_getElem?_getD,List.getElem?_append_left before]
    · have beyond : (bs ++ [b]).length ≤ k := by simp only [List.length_append,List.length_singleton]; omega
      rw [List.getD_eq_getElem?_getD,List.getD_eq_getElem?_getD,List.getElem?_eq_none (by omega),
        List.getElem?_eq_none beyond]

theorem fillTwo (y x : BitVec 16) : setByte (setByte y 0 (byteAt x 0)) 1 (byteAt x 1) = x := by
  apply eqOfBytes (m := 2)
  intro k inside
  rw [byteAtSetByte _ _ (by omega),byteAtSetByte _ _ (by omega)]
  have cases : k = 0 ∨ k = 1 := by omega
  rcases cases with rfl | rfl <;> simp

theorem fillFour (y x : BitVec 32) :
    setByte (setByte (setByte (setByte y 0 (byteAt x 0)) 1 (byteAt x 1)) 2 (byteAt x 2)) 3
      (byteAt x 3) = x := by
  apply eqOfBytes (m := 4)
  intro k inside
  repeat rw [byteAtSetByte _ _ (by omega)]
  have cases : k = 0 ∨ k = 1 ∨ k = 2 ∨ k = 3 := by omega
  rcases cases with rfl | rfl | rfl | rfl <;> simp

theorem bytesEq (n v : Nat) : bytes n v = (List.range n).map fun k => BitVec.ofNat 8 (v / 256 ^ k) := by
  induction n generalizing v with
  | zero => rfl
  | succ n ih =>
    rw [bytes,ih,List.range_succ_eq_map]
    simp [Nat.div_div_eq_div_mul,Nat.pow_succ,Nat.mul_comm,Function.comp_def]

theorem bytesAt {m : Nat} (n : Nat) (x : BitVec m) :
    bytes n x.toNat = (List.range n).map fun k => byteAt x k := by
  rw [bytesEq]
  apply List.map_congr_left
  intro k _
  have digits : 256 ^ k = 2 ^ (8 * k) := by rw [Nat.pow_mul]
  apply BitVec.eq_of_toNat_eq
  simp [byteAt,Nat.shiftRight_eq_div_pow,digits]

theorem orByteWord {n : Nat} (bs : List Byte) (b : Byte) :
    word n bs ||| b.setWidth n <<< (8 * bs.length) = word n (bs ++ [b]) := by
  apply BitVec.eq_of_getLsbD_eq
  intro i low
  simp only [BitVec.getLsbD_or,BitVec.getLsbD_shiftLeft,BitVec.getLsbD_setWidth,word,
    BitVec.getLsbD_ofNat,valueBit,low,decide_true,Bool.true_and]
  by_cases before : i < 8 * bs.length
  · have index : i / 8 < bs.length := by omega
    simp [before,List.getD_eq_getElem?_getD,List.getElem?_append_left index]
  · have empty : bs.getD (i / 8) 0 = 0 := by
      simp [List.getD_eq_getElem?_getD,show bs.length ≤ i / 8 by omega]
    have room : i - 8 * bs.length < n := by omega
    rw [empty]
    by_cases last : i / 8 = bs.length
    · simp [before,room,last,List.getD_eq_getElem?_getD,show i % 8 = i - 8 * bs.length by omega]
    · have high : b.getLsbD (i - 8 * bs.length) = false := BitVec.getLsbD_of_ge _ _ (by omega)
      have beyond : (bs ++ [b]).length ≤ i / 8 := by simp only [List.length_append,List.length_singleton]; omega
      rw [List.getD_eq_getElem?_getD,List.getElem?_eq_none beyond]
      simp [high]

theorem wordBytes {m : Nat} (x : BitVec (8 * m)) : word (8 * m) (bytes m x.toNat) = x := by
  have digits : 256 ^ m = 2 ^ (8 * m) := by rw [Nat.pow_mul]
  apply BitVec.eq_of_toNat_eq
  rw [word,BitVec.toNat_ofNat,valueBytes,digits,Nat.mod_mod,Nat.mod_eq_of_lt x.isLt]

theorem bytesWord {m : Nat} {bs : List Byte} (fits : bs.length ≤ m) :
    (bytes m (word (8 * m) bs).toNat).take bs.length = bs := by
  have bound : value bs < 2 ^ (8 * m) :=
    Nat.lt_of_lt_of_le (valueBound bs) (by
      rw [show 256 = 2 ^ 8 from rfl,← Nat.pow_mul]
      exact Nat.pow_le_pow_right (by decide) (by omega))
  rw [bytesTake fits,word,BitVec.toNat_ofNat,Nat.mod_eq_of_lt bound,bytesValue]

def chunks (n : Nat) : Nat → List Byte → List (List Byte)
  | 0, _ => []
  | count+1, data => data.take n :: chunks n count (data.drop n)

@[simp] theorem chunksLength (n count : Nat) (data : List Byte) : (chunks n count data).length = count := by
  induction count generalizing data with
  | zero => rfl
  | succ count ih => simp [chunks,ih]

theorem chunksFlatten {n count : Nat} {data : List Byte} (total : data.length = n * count) :
    (chunks n count data).flatten = data := by
  induction count generalizing data with
  | zero => exact (List.length_eq_zero_iff.mp (by simpa using total)).symm
  | succ count ih =>
    rw [Nat.mul_succ] at total
    rw [chunks,List.flatten_cons,ih (by rw [List.length_drop]; omega),List.take_append_drop]

theorem chunksWidth {n count : Nat} {data : List Byte} (total : data.length = n * count) :
    ∀ chunk ∈ chunks n count data, chunk.length = n := by
  induction count generalizing data with
  | zero => simp [chunks]
  | succ count ih =>
    rw [Nat.mul_succ] at total
    intro chunk mem
    rcases List.mem_cons.mp mem with rfl | later
    · rw [List.length_take]
      omega
    · exact ih (by rw [List.length_drop]; omega) chunk later

section Lanes
variable {n : Nat}

theorem byteAtShiftLeft (x : BitVec n) {o k : Nat} (inside : 8 * k + 8 ≤ n) (up : o ≤ k) :
    byteAt (x <<< (8 * o)) k = byteAt x (k - o) := by
  apply BitVec.eq_of_getLsbD_eq
  intro i low
  rw [byteAtBit _ _ _ low,byteAtBit _ _ _ low,BitVec.getLsbD_shiftLeft]
  have bound : 8 * k + i < n := by omega
  have notBelow : ¬ 8 * k + i < 8 * o := by omega
  rw [decide_eq_true bound,decide_eq_false notBelow,show 8 * k + i - 8 * o = 8 * (k - o) + i by omega]
  rfl

theorem byteAtShiftRight (x : BitVec n) (o k : Nat) : byteAt (x >>> (8 * o)) k = byteAt x (o + k) := by
  apply BitVec.eq_of_getLsbD_eq
  intro i low
  rw [byteAtBit _ _ _ low,byteAtBit _ _ _ low,BitVec.getLsbD_ushiftRight,
    show 8 * o + (8 * k + i) = 8 * (o + k) + i by omega]

theorem byteAtExtract (x : BitVec n) {m w j k : Nat} (inside : 8 * k + 8 ≤ w) (fits : 8 * k + 8 ≤ m) :
    byteAt ((x.extractLsb' (8 * j) w).setWidth m) k = byteAt x (j + k) := by
  apply BitVec.eq_of_getLsbD_eq
  intro i low
  have bound : 8 * k + i < w := by omega
  have bound' : 8 * k + i < m := by omega
  rw [byteAtBit _ _ _ low,byteAtBit _ _ _ low,BitVec.getLsbD_setWidth,BitVec.getLsbD_extractLsb',
    decide_eq_true bound,decide_eq_true bound',show 8 * j + (8 * k + i) = 8 * (j + k) + i by omega]
  rfl

theorem byteAtBeyond (x : BitVec n) {m k : Nat} (beyond : n ≤ 8 * k) : byteAt (x.setWidth m) k = 0 := by
  apply BitVec.eq_of_getLsbD_eq
  intro i low
  rw [byteAtBit _ _ _ low,BitVec.getLsbD_setWidth,BitVec.getLsbD_of_ge x _ (by omega),Bool.and_false]
  exact BitVec.getLsbD_zero.symm

theorem byteAtConcat (high low : BitVec 32) (k : Nat) (inside : k < 8) :
    byteAt (high ++ low) k = if k < 4 then byteAt low k else byteAt high (k - 4) := by
  apply BitVec.eq_of_getLsbD_eq
  intro i small
  rw [byteAtBit _ _ _ small,BitVec.getLsbD_append]
  split
  · rename_i first
    rw [if_pos (by omega),byteAtBit _ _ _ small]
  · rename_i second
    rw [if_neg (by omega),byteAtBit _ _ _ small,show 8 * k + i - 32 = 8 * (k - 4) + i by omega]

end Lanes

end LittleEndian
