import RiscvSoc.Rtl.SramPeripheral

/-! The SRAM peripheral as a byte-addressable memory: what a run of requests inside the window
returns and leaves behind. -/
namespace RiscvSoc.Sram
open LittleEndian
open Mealy Machine

abbrev Memory := Nat → Byte

def load (m : Memory) (a n : Nat) : Word := word 32 ((List.range n).map fun k => m (a + k))

def store (m : Memory) (a n : Nat) (x : Word) : Memory := fun b =>
  if a ≤ b ∧ b < a + n then byteAt x (b - a) else m b

def windowBase : Nat := 0x70000000
def windowBytes : Nat := 4 * depthWords

namespace Request

def width (r : Request) : Nat := if r.size = 0 then 1 else if r.size = 1 then 2 else 4
def base (r : Request) : Nat := r.addr.toNat - windowBase

structure InWindow (r : Request) : Prop where
  size : r.size ≠ 3
  low : windowBase ≤ r.addr.toNat
  high : r.addr.toNat + r.width ≤ windowBase + windowBytes

instance (r : Request) : Decidable r.InWindow :=
  decidable_of_iff (r.size ≠ 3 ∧ windowBase ≤ r.addr.toNat ∧ r.addr.toNat + r.width ≤ windowBase + windowBytes)
    ⟨fun h => ⟨h.1,h.2.1,h.2.2⟩,fun h => ⟨h.size,h.low,h.high⟩⟩

end Request

def access (m : Memory) (r : Request) : Word × Memory :=
  if r.we then (0,store m r.base r.width r.wdata) else (load m r.base r.width,m)

def serve : Memory → List Request → List Word × Memory
  | m, [] => ([],m)
  | m, r :: rest =>
    let (d,m) := access m r
    let (ds,m) := serve m rest
    (d :: ds,m)

def contents (mem : WordAddr → Word) : Memory := fun b => byteAt (mem (BitVec.ofNat 12 (b / 4))) (b % 4)

def Holds (mem : WordAddr → Word) (m : Memory) : Prop := ∀ b < windowBytes, contents mem b = m b

theorem byteAtMerge (wmask : BitVec 4) (old new : Word) {k : Nat} (inside : k < 4) :
    byteAt (merge wmask old new) k = if wmask.getLsbD k then byteAt new k else byteAt old k := by
  have lane : byteAt (merge wmask old new) k =
      (fun k => if wmask.getLsbD k then byteAt new k else byteAt old k) k := by
    apply BitVec.eq_of_getLsbD_eq
    intro i low
    have cases : k = 0 ∨ k = 1 ∨ k = 2 ∨ k = 3 := by omega
    simp only [byteAtBit _ _ _ low,merge,BitVec.getLsbD_append]
    rcases cases with rfl | rfl | rfl | rfl
    · rw [if_pos (by omega)]
      simp
    · rw [if_neg (by omega),if_pos (by omega),show 8 * 1 + i - 8 = i by omega]
    · rw [if_neg (by omega),if_neg (by omega),if_pos (by omega),show 8 * 2 + i - 8 - 8 = i by omega]
    · rw [if_neg (by omega),if_neg (by omega),if_neg (by omega),show 8 * 3 + i - 8 - 8 - 8 = i by omega]
  exact lane

theorem splitIff (r : Request) (size : r.size ≠ 3) :
    r.unaligned = true ↔ 4 < r.offset.toNat + r.width := by
  simp only [Request.unaligned,Request.width]
  revert size
  generalize r.size = size
  generalize r.offset = offset
  revert size offset
  decide

theorem firstMask (r : Request) (size : r.size ≠ 3) (k : Fin 4) :
    r.wmask.getLsbD k = decide (r.offset.toNat ≤ k ∧ k < r.offset.toNat + r.width) := by
  have all : ∀ (size offset : BitVec 2) (k : Fin 4), size ≠ 3 →
      (if size = 0 then 0b0001#4 <<< offset.toNat else if size = 1 then 0b0011#4 <<< offset.toNat
        else if size = 2 then 0b1111#4 <<< offset.toNat else 0).getLsbD k =
      decide (offset.toNat ≤ k ∧ k < offset.toNat + if size = 0 then 1 else if size = 1 then 2 else 4) := by
    decide
  exact all r.size r.offset k size

theorem secondMask (s : Regs) (k : Fin 4) (split : s.reqSize = 1 ∧ s.reqOffset = 3 ∨ s.reqSize = 2 ∧ s.reqOffset ≠ 0) :
    (splitSecondWmask s).getLsbD k =
      decide (k + 4 < s.reqOffset.toNat + if s.reqSize = 1 then 2 else 4) := by
  have all : ∀ (size offset : BitVec 2) (k : Fin 4), (size = 1 ∧ offset = 3 ∨ size = 2 ∧ offset ≠ 0) →
      (if size = 1 then (0b0001 : BitVec 4) else if size = 2 then
        if offset = 1 then 0b0001 else if offset = 2 then 0b0011 else if offset = 3 then 0b0111 else 0
        else 0).getLsbD k = decide (k.val + 4 < offset.toNat + if size = 1 then 2 else 4) := by
    decide
  exact all s.reqSize s.reqOffset k split

theorem firstLane (r : Request) (size : r.size ≠ 3) {k : Nat} (low : k < 4) (origin : r.offset.toNat ≤ k)
    (upTo : k < r.offset.toNat + r.width) : byteAt r.alignedWdata k = byteAt r.wdata (k - r.offset.toNat) := by
  simp only [Request.alignedWdata]
  split
  · rename_i byte
    have here : k - r.offset.toNat = 0 := by
      simp only [Request.width,byte,if_true] at upTo
      omega
    rw [byteAtShiftLeft _ (by omega) origin,here]
    exact byteAtExtract (j := 0) r.wdata (by omega) (by omega)
  · rename_i notByte
    have rest : r.size = 1 ∨ r.size = 2 := by
      revert size notByte
      generalize r.size = size
      revert size
      decide
    rw [if_pos rest,byteAtShiftLeft _ (by omega) origin]

theorem secondLane (s : Regs) {k : Nat} (split : s.reqSize = 1 ∧ s.reqOffset = 3 ∨ s.reqSize = 2 ∧ s.reqOffset ≠ 0)
    (upTo : k + 4 < s.reqOffset.toNat + if s.reqSize = 1 then 2 else 4) :
    byteAt (splitSecondWdata s) k = byteAt s.reqWdata (k + 4 - s.reqOffset.toNat) := by
  rcases split with ⟨half,last⟩ | ⟨whole,inside⟩
  · have here : k = 0 := by
      simp only [half,last,if_true] at upTo
      have three : (3 : BitVec 2).toNat = 3 := rfl
      omega
    subst here
    simp only [splitSecondWdata,half,last,if_true]
    exact byteAtExtract (j := 1) s.reqWdata (by omega) (by omega)
  · have cases : s.reqOffset = 1 ∨ s.reqOffset = 2 ∨ s.reqOffset = 3 := by
      revert inside
      generalize s.reqOffset = offset
      revert offset
      decide
    have notHalf : ¬ s.reqSize = 1 := by simp [whole]
    rw [if_neg notHalf] at upTo
    have one : (1 : BitVec 2).toNat = 1 := rfl
    have two : (2 : BitVec 2).toNat = 2 := rfl
    have three : (3 : BitVec 2).toNat = 3 := rfl
    simp only [splitSecondWdata,if_neg notHalf,if_pos whole]
    rcases cases with at1 | at2 | at3
    · rw [at1,one] at upTo
      rw [if_pos at1,at1,one,show k + 4 - 1 = 3 + k by omega]
      exact byteAtExtract (j := 3) s.reqWdata (by omega) (by omega)
    · rw [at2,two] at upTo
      have not1 : ¬ s.reqOffset = 1 := by
        rw [at2]
        decide
      rw [if_neg not1,if_pos at2,at2,two,show k + 4 - 2 = 2 + k by omega]
      exact byteAtExtract (j := 2) s.reqWdata (by omega) (by omega)
    · rw [at3,three] at upTo
      have not1 : ¬ s.reqOffset = 1 := by
        rw [at3]
        decide
      have not2 : ¬ s.reqOffset = 2 := by
        rw [at3]
        decide
      rw [if_neg not1,if_neg not2,if_pos at3,at3,three,show k + 4 - 3 = 1 + k by omega]
      exact byteAtExtract (j := 1) s.reqWdata (by omega) (by omega)

structure Placed (r : Request) : Prop where
  word : r.wordAddr.toNat = r.base / 4
  offset : r.offset.toNat = r.base % 4
  room : r.base + r.width ≤ windowBytes

theorem placed {r : Request} (inside : r.InWindow) : Placed r := by
  have low := inside.low
  have high := inside.high
  simp only [windowBase,windowBytes,depthWords] at low high
  have bound : r.base < 2 ^ 14 ∧ r.addr.toNat = 2 ^ 14 * 114688 + r.base := by
    simp only [Request.base,windowBase]
    have positive : 0 < r.width := by
      simp only [Request.width]
      split <;> (try split) <;> decide
    omega
  refine ⟨?_,?_,?_⟩
  · simp only [Request.wordAddr,BitVec.extractLsb'_toNat,Nat.shiftRight_eq_div_pow]
    omega
  · simp only [Request.offset,BitVec.extractLsb'_toNat,Nat.shiftRight_eq_div_pow]
    omega
  · simp only [Request.base,windowBase,windowBytes,depthWords]
    omega

theorem contentsAt (mem : WordAddr → Word) (w : WordAddr) {k : Nat} (low : k < 4) :
    contents mem (4 * w.toNat + k) = byteAt (mem w) k := by
  rw [contents,show (4 * w.toNat + k) / 4 = w.toNat by omega,show (4 * w.toNat + k) % 4 = k by omega,
    BitVec.ofNat_toNat,BitVec.setWidth_eq]

theorem wordIs {r : Request} (p : Placed r) {b : Nat} (inside : b < windowBytes) :
    BitVec.ofNat 12 (b / 4) = r.wordAddr ↔ b / 4 = r.base / 4 := by
  simp only [windowBytes,depthWords] at inside
  rw [← BitVec.toNat_inj,BitVec.toNat_ofNat,p.word,Nat.mod_eq_of_lt (by omega)]

theorem nextWordIs {r : Request} (p : Placed r) {b : Nat} (inside : b < windowBytes) :
    BitVec.ofNat 12 (b / 4) = r.wordAddr + 1 ↔ b / 4 = r.base / 4 + 1 := by
  have room := p.room
  have one : (1 : WordAddr).toNat = 1 := rfl
  simp only [windowBytes,depthWords] at inside room
  rw [← BitVec.toNat_inj,BitVec.toNat_ofNat,BitVec.toNat_add,p.word,one,Nat.mod_eq_of_lt (by omega),
    Nat.mod_eq_of_lt (by omega)]

theorem widthAtMost (r : Request) : r.width ≤ 4 := by
  simp only [Request.width]
  split <;> (try split) <;> decide

def Request.firstWidth (r : Request) : Nat := min r.width (4 - r.offset.toNat)

def putFirst (mem : WordAddr → Word) (r : Request) : WordAddr → Word := fun a =>
  if a = r.wordAddr then merge r.wmask (mem a) r.alignedWdata else mem a

def putSecond (mem : WordAddr → Word) (s : Regs) : WordAddr → Word := fun a =>
  if a = s.reqWordAddr + 1 then merge (splitSecondWmask s) (mem a) (splitSecondWdata s) else mem a

theorem putFirstHolds {mem : WordAddr → Word} {m : Memory} (holds : Holds mem m) {r : Request}
    (size : r.size ≠ 3) (p : Placed r) : Holds (putFirst mem r) (store m r.base r.firstWidth r.wdata) := by
  intro b inside
  have offset := p.offset
  have old := holds b inside
  simp only [contents] at old
  simp only [contents,putFirst,wordIs p inside]
  by_cases here : b / 4 = r.base / 4
  · have mask := firstMask r size ⟨b % 4,by omega⟩
    simp only at mask
    rw [if_pos here,byteAtMerge _ _ _ (by omega),mask,old]
    by_cases covered : r.offset.toNat ≤ b % 4 ∧ b % 4 < r.offset.toNat + r.width
    · have range : r.base ≤ b ∧ b < r.base + r.firstWidth := by
        simp only [Request.firstWidth]
        omega
      rw [decide_eq_true covered,if_pos rfl,store,if_pos range,
        firstLane r size (by omega) covered.1 covered.2,show b % 4 - r.offset.toNat = b - r.base by omega]
    · have range : ¬ (r.base ≤ b ∧ b < r.base + r.firstWidth) := by
        simp only [Request.firstWidth]
        omega
      rw [decide_eq_false covered,if_neg (by decide),store,if_neg range]
  · have range : ¬ (r.base ≤ b ∧ b < r.base + r.firstWidth) := by
      simp only [Request.firstWidth]
      omega
    rw [if_neg here,store,if_neg range]
    exact old

structure Latched (r : Request) (s : Regs) : Prop where
  word : s.reqWordAddr = r.wordAddr
  size : s.reqSize = r.size
  offset : s.reqOffset = r.offset
  wdata : s.reqWdata = r.wdata

theorem splitKind {r : Request} (split : r.unaligned = true) :
    r.size = 1 ∧ r.offset = 3 ∨ r.size = 2 ∧ r.offset ≠ 0 := by
  simpa [Request.unaligned] using split

theorem splitWidth {r : Request} (split : r.unaligned = true) :
    r.width = if r.size = 1 then 2 else 4 := by
  rcases splitKind split with ⟨half,_⟩ | ⟨whole,_⟩
  · simp [Request.width,half]
  · simp [Request.width,whole]

theorem putSecondHolds {mem : WordAddr → Word} {m : Memory} {r : Request} {s : Regs} (latched : Latched r s)
    (size : r.size ≠ 3) (split : r.unaligned = true) (p : Placed r)
    (holds : Holds mem (store m r.base r.firstWidth r.wdata)) :
    Holds (putSecond mem s) (store m r.base r.width r.wdata) := by
  intro b inside
  have offset := p.offset
  have crosses := (splitIff r size).mp split
  have short := widthAtMost r
  have firstWidth : r.firstWidth = 4 - r.offset.toNat := by
    simp only [Request.firstWidth]
    omega
  have old := holds b inside
  have kind : s.reqSize = 1 ∧ s.reqOffset = 3 ∨ s.reqSize = 2 ∧ s.reqOffset ≠ 0 := by
    rw [latched.size,latched.offset]
    exact splitKind split
  have width : s.reqOffset.toNat + (if s.reqSize = 1 then 2 else 4) = r.offset.toNat + r.width := by
    rw [latched.size,latched.offset,splitWidth split]
  simp only [contents] at old
  simp only [contents,putSecond,latched.word,nextWordIs p inside]
  by_cases here : b / 4 = r.base / 4 + 1
  · have mask := secondMask s ⟨b % 4,by omega⟩ kind
    simp only [width] at mask
    have before : ¬ (r.base ≤ b ∧ b < r.base + r.firstWidth) := by omega
    rw [store,if_neg before] at old
    rw [if_pos here,byteAtMerge _ _ _ (by omega),mask,old]
    by_cases covered : b % 4 + 4 < r.offset.toNat + r.width
    · have range : r.base ≤ b ∧ b < r.base + r.width := by omega
      rw [decide_eq_true covered,if_pos rfl,store,if_pos range,secondLane s kind (by rw [width]; exact covered),
        latched.wdata,latched.offset,show b % 4 + 4 - r.offset.toNat = b - r.base by omega]
    · have range : ¬ (r.base ≤ b ∧ b < r.base + r.width) := by omega
      rw [decide_eq_false covered,if_neg (by decide),store,if_neg range]
  · rw [if_neg here,old]
    by_cases covered : r.base ≤ b ∧ b < r.base + r.firstWidth
    · have range : r.base ≤ b ∧ b < r.base + r.width := by omega
      rw [store,if_pos covered,store,if_pos range]
    · have range : ¬ (r.base ≤ b ∧ b < r.base + r.width) := by omega
      rw [store,if_neg covered,store,if_neg range]

theorem byteOf {mem : WordAddr → Word} {m : Memory} (holds : Holds mem m) {r : Request} (p : Placed r)
    {k : Nat} (covered : k < r.width) : m (r.base + k) =
      if r.offset.toNat + k < 4 then byteAt (mem r.wordAddr) (r.offset.toNat + k)
      else byteAt (mem (r.wordAddr + 1)) (r.offset.toNat + k - 4) := by
  have room := p.room
  have offset := p.offset
  have short := widthAtMost r
  rw [← holds (r.base + k) (by omega)]
  split
  · rename_i first
    rw [show r.base + k = 4 * r.wordAddr.toNat + (r.offset.toNat + k) by rw [p.word]; omega,
      contentsAt mem r.wordAddr first]
  · rename_i second
    have next : (r.wordAddr + 1).toNat = r.base / 4 + 1 := by
      have one : (1 : WordAddr).toNat = 1 := rfl
      simp only [windowBytes,depthWords] at room
      rw [BitVec.toNat_add,p.word,one]
      omega
    rw [show r.base + k = 4 * (r.wordAddr + 1).toNat + (r.offset.toNat + k - 4) by rw [next]; omega,
      contentsAt mem (r.wordAddr + 1) (by omega)]

theorem loadByte (m : Memory) (a n : Nat) {k : Nat} (low : k < 4) :
    byteAt (load m a n) k = if k < n then m (a + k) else 0 := by
  rw [load,byteAtWord _ (by omega)]
  split
  · rename_i inside
    simp [List.getD_eq_getElem?_getD,inside]
  · rename_i beyond
    rw [List.getD_eq_getElem?_getD,List.getElem?_eq_none (by simpa using Nat.le_of_not_lt beyond)]
    rfl

theorem sizeCases {size : BitVec 2} (known : size ≠ 3) : size = 0 ∨ size = 1 ∨ size = 2 := by
  revert size
  decide

theorem extractedLoads {mem : WordAddr → Word} {m : Memory} (holds : Holds mem m) {r : Request} {s : Regs}
    (latched : Latched r s) (size : r.size ≠ 3) (whole : r.unaligned = false) (p : Placed r)
    (read : s.ram.rdata = mem r.wordAddr) : extractedRdata s = load m r.base r.width := by
  have fits : r.offset.toNat + r.width ≤ 4 := by
    have := splitIff r size
    simp only [whole,Bool.false_eq_true,false_iff] at this
    omega
  apply eqOfBytes (m := 4)
  intro k low
  have there (covered : k < r.width) : m (r.base + k) = byteAt (mem r.wordAddr) (r.offset.toNat + k) := by
    rw [byteOf holds p covered,if_pos (by omega)]
  rw [loadByte m r.base r.width low]
  simp only [extractedRdata,latched.size,latched.offset,read]
  rcases sizeCases size with byte | half | word
  · have width : r.width = 1 := by simp [Request.width,byte]
    rw [if_pos byte]
    split
    · rename_i covered
      rw [there covered]
      exact byteAtExtract (w := 8) (mem r.wordAddr) (by omega) (by omega)
    · exact byteAtBeyond _ (by omega)
  · have width : r.width = 2 := by simp [Request.width,half]
    rw [if_neg (by rw [half]; decide),if_pos half]
    split
    · rename_i covered
      rw [there covered,← byteAtShiftRight]
      have extract := byteAtExtract (j := 0) (w := 16) (m := 32) (mem r.wordAddr >>> (8 * r.offset.toNat))
        (k := k) (by omega) (by omega)
      rw [Nat.zero_add] at extract
      exact extract
    · exact byteAtBeyond _ (by omega)
  · have width : r.width = 4 := by simp [Request.width,word]
    have aligned : r.offset.toNat = 0 := by omega
    rw [if_neg (by rw [word]; decide),if_neg (by rw [word]; decide),if_pos word,if_pos (by omega),there (by omega),
      aligned,Nat.zero_add]

theorem splitExtractedLoads {mem : WordAddr → Word} {m : Memory} (holds : Holds mem m) {r : Request} {s : Regs}
    (latched : Latched r s) (parts : r.unaligned = true) (p : Placed r)
    (first : s.splitFirstRdata = mem r.wordAddr) (second : s.ram.rdata = mem (r.wordAddr + 1)) :
    splitExtractedRdata s = load m r.base r.width := by
  have offset := p.offset
  have short := widthAtMost r
  apply eqOfBytes (m := 4)
  intro k low
  have there (covered : k < r.width) : m (r.base + k) =
      byteAt ((mem (r.wordAddr + 1) ++ mem r.wordAddr) >>> (8 * r.offset.toNat)) k := by
    rw [byteOf holds p covered,byteAtShiftRight,byteAtConcat _ _ _ (by omega)]
  rw [loadByte m r.base r.width low]
  simp only [splitExtractedRdata,latched.size,latched.offset,first,second]
  rcases splitKind parts with ⟨half,_⟩ | ⟨word,_⟩
  · have width : r.width = 2 := by simp [Request.width,half]
    rw [if_pos half]
    split
    · rename_i covered
      rw [there covered]
      have extract := byteAtExtract (j := 0) (w := 16) (m := 32)
        ((mem (r.wordAddr + 1) ++ mem r.wordAddr) >>> (8 * r.offset.toNat)) (k := k) (by omega) (by omega)
      rw [Nat.zero_add] at extract
      exact extract
    · exact byteAtBeyond _ (by omega)
  · have width : r.width = 4 := by simp [Request.width,word]
    rw [if_neg (by rw [word]; decide),if_pos word,if_pos (by omega),there (by omega)]
    have extract := byteAtExtract (j := 0) (w := 32) (m := 32)
      ((mem (r.wordAddr + 1) ++ mem r.wordAddr) >>> (8 * r.offset.toNat)) (k := k) (by omega) (by omega)
    rw [Nat.zero_add,BitVec.setWidth_eq] at extract
    exact extract

end RiscvSoc.Sram
