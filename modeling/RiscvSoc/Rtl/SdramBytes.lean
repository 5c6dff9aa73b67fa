import RiscvSoc.Lib.Mealy
import RiscvSoc.Lib.WordBytes
import RiscvSoc.Lib.WordPort
import RiscvSoc.Rtl.SdramPeripheral

/-! The peripheral over any controller that keeps the contract of the word port, as a memory of bytes. -/
namespace RiscvSoc.SdramPeripheral
open LittleEndian (Byte byteAt)
open ByteMemory WordBytes WordPort
open Mealy Machine

variable {w : Nat}

def width (r : Request) : Nat := (accessByteCount r.size).toNat

def InWindow (p : Params w) (r : Request) : Prop :=
  r.size ≠ 3 ∧ p.baseAddr.toNat ≤ r.addr.toNat ∧ r.addr.toNat + width r ≤ p.baseAddr.toNat + p.addrSize.toNat

instance (p : Params w) (r : Request) : Decidable (InWindow p r) := inferInstanceAs (Decidable (_ ∧ _ ∧ _))

def place (p : Params w) (r : Request) : BitVec (w + 2) := (incomingByteOffset p r).setWidth (w + 2)

def access (p : Params w) (m : Memory (w + 2)) (r : Request) : Word × Memory (w + 2) :=
  if InWindow p r then
    if r.we then (0,store m (place p r) (LittleEndian.bytes (width r) r.wdata.toNat))
    else (LittleEndian.word 32 (load m (place p r) (width r)),m)
  else (0,m)

def serve (p : Params w) : Memory (w + 2) → List Request → List Word × Memory (w + 2)
  | m, [] => ([],m)
  | m, r :: rest => ((access p m r).1 :: (serve p (access p m r).2 rest).1,(serve p (access p m r).2 rest).2)

def leaves (p : Params w) (a : BitVec (w + 2)) (r : Request) : Option Byte :=
  if InWindow p r ∧ r.we = true then (LittleEndian.bytes (width r) r.wdata.toNat)[(a - place p r).toNat]? else none

def latest (p : Params w) (m : Memory (w + 2)) (rs : List Request) : Memory (w + 2) := fun a =>
  (rs.reverse.findSome? (leaves p a)).getD (m a)

theorem accessLeaves (p : Params w) (m : Memory (w + 2)) (r : Request) (a : BitVec (w + 2)) :
    (access p m r).2 a = (leaves p a r).getD (m a) := by
  rw [access,leaves]
  by_cases inside : InWindow p r
  · cases writes : r.we with
    | true => simp [inside,store]
    | false => simp [inside]
  · simp [inside]

theorem serveLatest (p : Params w) (m : Memory (w + 2)) (rs : List Request) : (serve p m rs).2 = latest p m rs := by
  induction rs generalizing m with
  | nil => rfl
  | cons r rest ih =>
    funext a
    rw [serve,ih,latest,latest,List.reverse_cons,List.findSome?_append,accessLeaves]
    cases rest.reverse.findSome? (leaves p a) with
    | some byte => rfl
    | none =>
      rw [List.findSome?_singleton]
      rfl

theorem serveLength (p : Params w) (m : Memory (w + 2)) (rs : List Request) : (serve p m rs).1.length = rs.length := by
  induction rs generalizing m with
  | nil => rfl
  | cons r rest ih => rw [serve,List.length_cons,ih,List.length_cons]

theorem serveAnswer (p : Params w) (m : Memory (w + 2)) {rs : List Request} {k : Nat} {r : Request} (here : rs[k]? = some r) :
    (serve p m rs).1[k]? = some (access p (serve p m (rs.take k)).2 r).1 := by
  induction rs generalizing m k with
  | nil => simp at here
  | cons first rest ih =>
    cases k with
    | zero =>
      obtain rfl : first = r := by simpa using here
      rfl
    | succ k =>
      rw [List.getElem?_cons_succ] at here
      rw [serve,List.getElem?_cons_succ,ih _ here]
      rfl

theorem widthCases (size : BitVec 2) : (size = 0 ∧ (accessByteCount size).toNat = 1) ∨
    (size = 1 ∧ (accessByteCount size).toNat = 2) ∨ (size = 2 ∧ (accessByteCount size).toNat = 4) ∨
    (size = 3 ∧ accessByteCount size = 0) := by
  revert size
  decide

theorem widthFew (r : Request) : width r ≤ 4 := by
  rcases widthCases r.size with ⟨-,few⟩ | ⟨-,few⟩ | ⟨-,few⟩ | ⟨-,few⟩ <;> rw [width,few] <;> decide

theorem sizeFits (p : Params w) : w + 2 < 32 ∧ p.addrSize.toNat ≤ 2 ^ (w + 2) := by
  have limit := BitVec.le_def.mp p.addressed
  have shiftable := p.shiftable
  have nonzero : p.addrSize.toNat ≠ 0 := fun zero => p.nonZero (BitVec.eq_of_toNat_eq zero)
  have power : 2 ^ (w + 2) < 2 ^ 64 := Nat.pow_lt_pow_right (by decide) (by omega)
  have plain : (interfaceLimitBytes w).toNat = 2 ^ (w + 2) % 2 ^ 32 := by
    rw [interfaceLimitBytes,BitVec.toNat_setWidth,BitVec.toNat_shiftLeft,Nat.shiftLeft_eq]
    rw [show (1#64).toNat = 1 from rfl,Nat.one_mul,Nat.mod_eq_of_lt power]
  rw [plain] at limit
  by_cases wide : 32 ≤ w + 2
  · have divides : 2 ^ (w + 2) % 2 ^ 32 = 0 := Nat.mod_eq_zero_of_dvd (Nat.pow_dvd_pow 2 wide)
    omega
  · exact ⟨by omega,Nat.le_trans limit (Nat.mod_le _ _)⟩

theorem widthPositive {r : Request} (known : r.size ≠ 3) : accessByteCount r.size ≠ 0 ∧ 0 < width r := by
  have nonzero : ∀ size : BitVec 2, size ≠ 3 → accessByteCount size ≠ 0 ∧ 0 < (accessByteCount size).toNat := by decide
  exact nonzero r.size known

theorem lastOffset (p : Params w) {r : Request} (known : r.size ≠ 3) :
    (incomingLastOffsetExt p r).toNat = (incomingByteOffset p r).toNat + width r - 1 := by
  have offset := (incomingByteOffset p r).isLt
  have few := widthFew r
  have present := (widthPositive known).2
  have one : (1 : BitVec 33).toNat = 1 := rfl
  rw [width] at few present ⊢
  rw [incomingLastOffsetExt,incomingAccessBytes,BitVec.toNat_sub,BitVec.toNat_add,BitVec.toNat_setWidth,BitVec.toNat_setWidth,one]
  omega

theorem byteOffset {p : Params w} {r : Request} (above : p.baseAddr.toNat ≤ r.addr.toNat) :
    (incomingByteOffset p r).toNat = r.addr.toNat - p.baseAddr.toNat :=
  BitVec.toNat_sub_of_le (BitVec.le_def.mpr above)

theorem inRange (p : Params w) (r : Request) : incomingInRange p r = decide (InWindow p r) := by
  by_cases known : r.size = 3
  · rw [decide_eq_false fun inside : InWindow p r => inside.1 known,incomingInRange,incomingAccessBytes,known]
    rfl
  · have size : (p.addrSize.setWidth 33).toNat = p.addrSize.toNat :=
      BitVec.toNat_setWidth_of_le (by decide)
    have last := lastOffset p known
    obtain ⟨counts,present⟩ := widthPositive known
    rw [incomingInRange,incomingAddrGeBase,incomingAccessBytes,Bool.eq_iff_iff,decide_eq_true_eq]
    simp only [Bool.and_eq_true,decide_eq_true_eq,BitVec.le_def,BitVec.lt_def,size,last,InWindow]
    constructor
    · rintro ⟨⟨-,above⟩,below⟩
      rw [byteOffset above] at below
      exact ⟨known,above,by omega⟩
    · rintro ⟨-,above,below⟩
      rw [byteOffset above]
      exact ⟨⟨counts,above⟩,by omega⟩

section Place
variable {p : Params w} {r : Request} (inside : InWindow p r)
include inside

theorem placed : (place p r).toNat = r.addr.toNat - p.baseAddr.toNat ∧
    (place p r).toNat + width r ≤ 2 ^ (w + 2) := by
  obtain ⟨known,above,below⟩ := inside
  obtain ⟨-,room⟩ := sizeFits p
  have present := (widthPositive known).2
  have low : r.addr.toNat - p.baseAddr.toNat < 2 ^ (w + 2) := by omega
  have here : (place p r).toNat = r.addr.toNat - p.baseAddr.toNat := by
    rw [place,BitVec.toNat_setWidth,byteOffset above,Nat.mod_eq_of_lt low]
  exact ⟨here,by omega⟩

theorem placedLane : lane (place p r) = (r.addr.extractLsb' 0 2).toNat := by
  have aligned := congrArg BitVec.toNat p.baseAligned
  rw [lane,(placed inside).1,BitVec.extractLsb'_toNat,Nat.shiftRight_zero]
  rw [BitVec.extractLsb'_toNat,Nat.shiftRight_zero] at aligned
  have above := inside.2.1
  change p.baseAddr.toNat % 4 = 0 at aligned
  omega

omit inside in
theorem placedWord : wordOf (place p r) = incomingWordBaseAddr p r := by
  have narrow := (sizeFits p).1
  apply BitVec.eq_of_getLsbD_eq
  intro k low
  rw [wordOf,place,incomingWordBaseAddr,incomingWordByteOffset]
  simp only [BitVec.getLsbD_extractLsb',BitVec.getLsbD_setWidth,BitVec.getLsbD_append,low,decide_true,Bool.true_and]
  rw [if_neg (by omega),Nat.add_sub_cancel_left]
  have here : 2 + k < w + 2 := by omega
  have there : k < 30 := by omega
  simp [here,there]

theorem splitAcross : incomingSplit r = true ↔ 4 < lane (place p r) + width r := by
  have all : ∀ (size offset : BitVec 2), 4#4 < offset.setWidth 4 + (accessByteCount size).setWidth 4 ↔
      4 < offset.toNat + (accessByteCount size).toNat := by decide
  rw [placedLane inside,incomingSplit,decide_eq_true_eq]
  exact all r.size (r.addr.extractLsb' 0 2)

end Place

theorem extracted (x : BitVec 64) (size offset : BitVec 2) : extractAccessData x size offset =
    LittleEndian.word 32 (LittleEndian.bytes (accessByteCount size).toNat (x >>> (8 * offset.toNat)).toNat) := by
  rw [extractAccessData]
  generalize x >>> (8 * offset.toNat) = y
  apply BitVec.eq_of_toNat_eq
  rw [LittleEndian.word,BitVec.toNat_ofNat,LittleEndian.valueBytes]
  rcases widthCases size with ⟨rfl,count⟩ | ⟨rfl,count⟩ | ⟨rfl,count⟩ | ⟨rfl,count⟩ <;> rw [count]
  · show ((y.setWidth 8).setWidth 32).toNat = _
    rw [BitVec.toNat_setWidth,BitVec.toNat_setWidth]
    rfl
  · show ((y.setWidth 16).setWidth 32).toNat = _
    rw [BitVec.toNat_setWidth,BitVec.toNat_setWidth]
    rfl
  · show (y.setWidth 32).toNat = _
    rw [BitVec.toNat_setWidth]
    exact (Nat.mod_mod _ _).symm
  · rw [show (0 : BitVec 3).toNat = 0 from rfl,Nat.pow_zero,Nat.mod_one]
    rfl

theorem maskByte (size offset : BitVec 2) {k : Nat} (inside : k < 8) : byteAt (expandByteMask (accessByteMask size offset)) k =
    if offset.toNat ≤ k ∧ k < offset.toNat + (accessByteCount size).toNat then 0xFF else 0 := by
  have all : ∀ (size offset : BitVec 2) (k : Fin 8), (accessByteMask size offset).getLsbD k =
      decide (offset.toNat ≤ k ∧ k < offset.toNat + (accessByteCount size).toNat) := by decide
  have bit := all size offset ⟨k,inside⟩
  rw [expandByteMask,LittleEndian.byteAtWord _ (by omega),List.getD_eq_getElem?_getD,List.getElem?_map,List.getElem?_range inside,
    Option.map_some,Option.getD_some,bit]
  simp only [decide_eq_true_eq]

theorem selectByte (x y : Byte) (covered : Prop) [Decidable covered] :
    (x &&& ~~~(if covered then 0xFF else 0)) ||| (y &&& if covered then 0xFF else 0) = if covered then y else x := by
  have all (z : Byte) : z &&& 255#8 = z := BitVec.and_allOnes
  split <;> simp [all]

theorem byteAtSelect (x y mask : BitVec 64) {k : Nat} (inside : k < 8) : byteAt ((x &&& ~~~mask) ||| (y &&& mask)) k =
    (byteAt x k &&& ~~~byteAt mask k) ||| (byteAt y k &&& byteAt mask k) := by
  apply BitVec.eq_of_getLsbD_eq
  intro i low
  have bound : 8 * k + i < 64 := by omega
  simp only [LittleEndian.byteAtBit _ _ _ low,BitVec.getLsbD_or,BitVec.getLsbD_and,BitVec.getLsbD_not,low,bound]

theorem mergedBytes (x : BitVec 64) (data : Word) (size offset : BitVec 2) {k : Nat} (inside : k < 8) :
    byteAt (mergeAccessData x data size offset) k =
      merged x offset.toNat (LittleEndian.bytes (accessByteCount size).toNat data.toNat) k := by
  have few : (accessByteCount size).toNat ≤ 4 := by
    rcases widthCases size with ⟨-,count⟩ | ⟨-,count⟩ | ⟨-,count⟩ | ⟨-,count⟩ <;> rw [count] <;> decide
  rw [mergeAccessData,byteAtSelect _ _ _ inside,maskByte _ _ inside,merged,LittleEndian.bytesAt,selectByte]
  by_cases after : offset.toNat ≤ k
  · by_cases covered : k < offset.toNat + (accessByteCount size).toNat
    · have there : k - offset.toNat < (accessByteCount size).toNat := by omega
      have plain := LittleEndian.byteAtExtract (j := 0) (w := 32) (m := 64) data (k := k - offset.toNat) (by omega) (by omega)
      rw [if_pos after,if_pos ⟨after,covered⟩,LittleEndian.byteAtShiftLeft _ (by omega) after,
        List.getElem?_map,List.getElem?_range there]
      rw [Nat.zero_add,BitVec.extractLsb'_eq_self] at plain
      exact plain
    · rw [if_pos after,if_neg (fun both => covered both.2),List.getElem?_eq_none (by simp; omega)]
      rfl
  · rw [if_neg after,if_neg (fun both => after both.1)]

def fetched (words : Words w) (p : Params w) (r : Request) : BitVec 64 :=
  (if incomingSplit r then words (incomingWordBaseAddr p r + 1) else 0) ++ words (incomingWordBaseAddr p r)

section Words
variable {p : Params w} {r : Request} (inside : InWindow p r) (words : Words w)
include inside

theorem fetchedByte {k : Nat} (within : k < lane (place p r) + width r) :
    byteAt (fetched words p r) k = byteAt (span words (place p r)) k := by
  have few := widthFew r
  have small := laneSmall (place p r)
  rw [fetched,span,placedWord,LittleEndian.byteAtConcat _ _ _ (by omega),LittleEndian.byteAtConcat _ _ _ (by omega)]
  split
  · rfl
  · rw [if_pos ((splitAcross inside).mpr (by omega))]

theorem fetchedLoads : extractAccessData (fetched words p r) r.size (r.addr.extractLsb' 0 2) =
    LittleEndian.word 32 (load (contents words) (place p r) (width r)) := by
  have same : LittleEndian.bytes (width r) (fetched words p r >>> (8 * lane (place p r))).toNat =
      LittleEndian.bytes (width r) (span words (place p r) >>> (8 * lane (place p r))).toNat := by
    rw [LittleEndian.bytesAt,LittleEndian.bytesAt]
    apply List.map_congr_left
    intro k mem
    have low := List.mem_range.mp mem
    rw [LittleEndian.byteAtShiftRight,LittleEndian.byteAtShiftRight,fetchedByte inside words (by omega)]
  rw [extracted,loadSpan words _ (widthFew r),← placedLane inside]
  exact congrArg (LittleEndian.word 32) same

theorem mergedStores :
    let x := mergeAccessData (fetched words p r) r.wdata r.size (r.addr.extractLsb' 0 2)
    let first := Function.update words (incomingWordBaseAddr p r) (x.extractLsb' 0 32)
    contents (if incomingSplit r then Function.update first (incomingWordBaseAddr p r + 1) (x.extractLsb' 32 32) else first) =
      store (contents words) (place p r) (LittleEndian.bytes (width r) r.wdata.toNat) := by
  intro x first
  have few := widthFew r
  have room := (placed inside).2
  have length := LittleEndian.bytesLength (width r) r.wdata.toNat
  have put {k : Nat} (small : k < 8) : byteAt x k =
      merged (fetched words p r) (lane (place p r)) (LittleEndian.bytes (width r) r.wdata.toNat) k := by
    rw [placedLane inside]
    exact mergedBytes _ _ _ _ small
  cases across : incomingSplit r with
  | true =>
    have crosses := (splitAcross inside).mp across
    have both : fetched words p r = span words (place p r) := by rw [fetched,if_pos across,span,placedWord]
    rw [if_pos rfl]
    have stored := storeAcross words (place p r) (by rw [length]; exact room) (by rw [length]; exact crosses)
      (by rw [length]; exact few) (x := x) (fun k small => by rw [put small,both])
    rw [placedWord] at stored
    exact stored
  | false =>
    have stays : ¬ 4 < lane (place p r) + width r := fun crosses => by
      rw [(splitAcross inside).mpr crosses] at across
      contradiction
    rw [if_neg (by decide)]
    have stored := storeWithin words (place p r) (by rw [length]; exact room) (by rw [length]; omega)
      (x := x.extractLsb' 0 32) (fun k small => by
        have low := LittleEndian.byteAtExtract (j := 0) (w := 32) (m := 32) x (k := k) (by omega) (by omega)
        have here : byteAt (fetched words p r) k = byteAt (words (wordOf (place p r))) k := by
          rw [fetched,placedWord,LittleEndian.byteAtConcat _ _ _ (by omega),if_pos small]
        rw [BitVec.setWidth_eq,Nat.zero_add] at low
        rw [low,put (by omega),merged,merged,here])
    rw [placedWord] at stored
    exact stored

theorem wholeStores (size : r.size = 2) (aligned : r.addr.extractLsb' 0 2 = 0) :
    contents (Function.update words (incomingWordBaseAddr p r) r.wdata) =
      store (contents words) (place p r) (LittleEndian.bytes (width r) r.wdata.toNat) := by
  have four : width r = 4 := by rw [width,size]; rfl
  have zero : lane (place p r) = 0 := by rw [placedLane inside,aligned]; rfl
  have length := LittleEndian.bytesLength (width r) r.wdata.toNat
  have stored := @storeWithin _ words (place p r) (LittleEndian.bytes (width r) r.wdata.toNat)
    (by rw [length]; exact (placed inside).2) (by rw [length]; omega) (x := r.wdata) (fun k small => by
      rw [merged,zero,if_pos (Nat.zero_le _),Nat.sub_zero,LittleEndian.bytesAt,List.getElem?_map,
        List.getElem?_range (by omega)]
      rfl)
  rw [placedWord] at stored
  exact stored

end Words

end RiscvSoc.SdramPeripheral
