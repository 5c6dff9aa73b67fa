import RiscvSoc.Host.Request
import RiscvSoc.Lib.ByteMemory

/-! `Memory` and `SystemContext`, the memory as a bus device sees it, and the reads in chunks that the
devices share. -/
namespace RiscvSoc.Devices
open LittleEndian (Byte)
open ByteMemory (Memory)
open Host (Word checkedAdd)

def dramBase : Word := 0x80000000
def dramEnd : Word := 0x8FFFFFFF

def isValidDramRange (addr size : Word) : Bool :=
  if size = 0 then false
  else match checkedAdd addr (size - 1) with
    | none => false
    | some endAddr =>
      (decide (dramBase ≤ addr) && decide (addr ≤ dramEnd)) && (decide (dramBase ≤ endAddr) && decide (endAddr ≤ dramEnd))

inductive BusDeviceError where
  | writeToReadOnly (offset : Word)
  | readFromWriteOnly (offset : Word)
  | invalidAddress (offset : Word)
  deriving DecidableEq, Repr

/- `Memory`: an address that is not in the map reads as 0. -/
namespace Memory

def readByte (m : Memory 32) (addr : Word) : Byte := m addr

def readHalfword (m : Memory 32) (addr : Word) : BitVec 16 :=
  (m addr).setWidth 16 ||| (m (addr + 1)).setWidth 16 <<< 8

def readWord (m : Memory 32) (addr : Word) : Word :=
  (m addr).setWidth 32 ||| (m (addr + 1)).setWidth 32 <<< 8 ||| (m (addr + 2)).setWidth 32 <<< 16 |||
    (m (addr + 3)).setWidth 32 <<< 24

def writeByte (m : Memory 32) (addr : Word) (data : Byte) : Memory 32 := fun a => if a = addr then data else m a

end Memory

namespace SystemContext

def readByte (m : Memory 32) (addr : Word) : Byte :=
  if isValidDramRange addr 1 then Memory.readByte m addr else 0

def readHalfword (m : Memory 32) (addr : Word) : BitVec 16 :=
  if isValidDramRange addr 2 then Memory.readHalfword m addr else 0

def readWord (m : Memory 32) (addr : Word) : Word :=
  if isValidDramRange addr 4 then Memory.readWord m addr else 0

def writeByte (m : Memory 32) (addr : Word) (data : Byte) : Memory 32 :=
  if isValidDramRange addr 1 then Memory.writeByte m addr data else m

end SystemContext

def optimalReadSize (addr bytesRemaining : Word) : Word :=
  let maxSize := if bytesRemaining ≤ 4 then bytesRemaining else 4
  if maxSize ≥ 4 ∧ addr.toNat % 4 = 0 then 4
  else if maxSize ≥ 2 ∧ addr.toNat % 2 = 0 then 2
  else 1

/- The array of four bytes of which the first `readSize` are read. -/
def chunkBytes (m : Memory 32) (addr readSize : Word) : List Byte :=
  if readSize = 4 then LittleEndian.bytes 4 (SystemContext.readWord m addr).toNat
  else if readSize = 2 then LittleEndian.bytes 2 (SystemContext.readHalfword m addr).toNat ++ [0,0]
  else [SystemContext.readByte m addr,0,0,0]

def readMemoryChunk (m : Memory 32) (addr bytesRemaining : Word) : List Byte × Word :=
  let readSize := optimalReadSize addr bytesRemaining
  (chunkBytes m addr readSize,readSize)

def InDram (addr : Word) : Prop := 0x80000000 ≤ addr.toNat ∧ addr.toNat ≤ 0x8FFFFFFF

instance (addr : Word) : Decidable (InDram addr) := inferInstanceAs (Decidable (_ ∧ _))

def visible (m : Memory 32) : Memory 32 := fun addr => if InDram addr then m addr else 0

theorem validIff {addr size : Word} (nonzero : size ≠ 0) :
    isValidDramRange addr size = true ↔ InDram addr ∧ addr.toNat + size.toNat ≤ 0x90000000 := by
  have positive : 0 < size.toNat := Nat.pos_of_ne_zero fun zero => nonzero (BitVec.eq_of_toNat_eq zero)
  have bound := addr.isLt
  have last : (size - 1).toNat = size.toNat - 1 := by
    rw [BitVec.toNat_sub]
    have one : (1 : Word).toNat = 1 := rfl
    omega
  unfold isValidDramRange InDram
  rw [if_neg nonzero]
  unfold checkedAdd
  rw [last]
  split
  · rename_i absent
    split at absent <;> simp at absent
    simp only [Bool.false_eq_true,false_iff]
    omega
  · rename_i endAddr sum
    split at sum <;> simp at sum
    rename_i fits
    have stop : endAddr.toNat = addr.toNat + (size.toNat - 1) := by
      rw [← sum,BitVec.toNat_add]
      change (addr.toNat + (size - 1).toNat) % 2 ^ 32 = _
      omega
    simp only [Bool.and_eq_true,decide_eq_true_eq,BitVec.le_def,stop,dramBase,dramEnd]
    have base : (0x80000000 : Word).toNat = 0x80000000 := rfl
    have top : (0x8FFFFFFF : Word).toNat = 0x8FFFFFFF := rfl
    omega

theorem validAligned {addr size : Word} {k : Nat} (power : size = 1 ∨ size = 2 ∨ size = 4)
    (aligned : addr.toNat % size.toNat = 0) (inside : k < size.toNat) :
    isValidDramRange addr size = true ↔ InDram (addr + BitVec.ofNat 32 k) := by
  have bound := addr.isLt
  have nonzero : size ≠ 0 := by rcases power with rfl | rfl | rfl <;> decide
  have small : size.toNat = 1 ∨ size.toNat = 2 ∨ size.toNat = 4 := by
    rcases power with rfl | rfl | rfl <;> decide
  have room : addr.toNat + k < 2 ^ 32 := by
    rcases small with width | width | width <;> rw [width] at aligned inside <;> omega
  have place : (addr + BitVec.ofNat 32 k).toNat = addr.toNat + k := by
    rw [BitVec.toNat_add,BitVec.toNat_ofNat]
    omega
  rw [validIff nonzero,InDram,InDram,place]
  rcases small with width | width | width <;> rw [width] at aligned inside ⊢ <;> omega

theorem byteVisible (m : Memory 32) (addr : Word) : SystemContext.readByte m addr = visible m addr := by
  have valid : isValidDramRange addr 1 = true ↔ InDram addr := by
    rw [validIff (by decide)]
    have one : (1 : Word).toNat = 1 := rfl
    unfold InDram
    omega
  unfold SystemContext.readByte visible
  by_cases inside : InDram addr
  · rw [if_pos (valid.mpr inside),if_pos inside]
    rfl
  · rw [if_neg (mt valid.mp inside),if_neg inside]

theorem singleWord {n : Nat} (b : Byte) : LittleEndian.word n [b] = b.setWidth n := by
  simp [LittleEndian.word,LittleEndian.value]

theorem halfwordBytes (m : Memory 32) (addr : Word) :
    LittleEndian.bytes 2 (Memory.readHalfword m addr).toNat = ByteMemory.load m addr 2 := by
  have listed : ByteMemory.load m addr 2 = [m addr,m (addr + 1)] := by simp [ByteMemory.load,List.range_succ]
  have second : LittleEndian.word 16 [m addr] ||| (m (addr + 1)).setWidth 16 <<< 8 =
      LittleEndian.word 16 [m addr,m (addr + 1)] := LittleEndian.orByteWord _ _
  rw [listed,Memory.readHalfword,← singleWord,second]
  exact LittleEndian.bytesWord (m := 2) (show [m addr,m (addr + 1)].length ≤ 2 from by simp)

theorem wordBytes (m : Memory 32) (addr : Word) :
    LittleEndian.bytes 4 (Memory.readWord m addr).toNat = ByteMemory.load m addr 4 := by
  have listed : ByteMemory.load m addr 4 = [m addr,m (addr + 1),m (addr + 2),m (addr + 3)] := by
    simp [ByteMemory.load,List.range_succ]
  have second : LittleEndian.word 32 [m addr] ||| (m (addr + 1)).setWidth 32 <<< 8 =
      LittleEndian.word 32 [m addr,m (addr + 1)] := LittleEndian.orByteWord _ _
  have third : LittleEndian.word 32 [m addr,m (addr + 1)] ||| (m (addr + 2)).setWidth 32 <<< 16 =
      LittleEndian.word 32 [m addr,m (addr + 1),m (addr + 2)] := LittleEndian.orByteWord _ _
  have fourth : LittleEndian.word 32 [m addr,m (addr + 1),m (addr + 2)] ||| (m (addr + 3)).setWidth 32 <<< 24 =
      LittleEndian.word 32 [m addr,m (addr + 1),m (addr + 2),m (addr + 3)] := LittleEndian.orByteWord _ _
  rw [listed,Memory.readWord,← singleWord,second,third,fourth]
  exact LittleEndian.bytesWord (m := 4) (show [m addr,m (addr + 1),m (addr + 2),m (addr + 3)].length ≤ 4 from by simp)

theorem loadVisible (m : Memory 32) {addr size : Word} (power : size = 1 ∨ size = 2 ∨ size = 4)
    (aligned : addr.toNat % size.toNat = 0) : ByteMemory.load (visible m) addr size.toNat =
      if isValidDramRange addr size then ByteMemory.load m addr size.toNat else List.replicate size.toNat 0 := by
  split
  · rename_i valid
    apply List.map_congr_left
    intro k mem
    exact if_pos ((validAligned power aligned (List.mem_range.mp mem)).mp valid)
  · rename_i invalid
    rw [List.eq_replicate_iff]
    refine ⟨ByteMemory.loadLength _ _ _,fun b mem => ?_⟩
    obtain ⟨k,inside,rfl⟩ := List.mem_map.mp mem
    exact if_neg (mt (validAligned power aligned (List.mem_range.mp inside)).mpr invalid)

theorem optimalSpec (addr : Word) {bytesRemaining : Word} (nonzero : bytesRemaining ≠ 0) :
    (optimalReadSize addr bytesRemaining = 1 ∨ optimalReadSize addr bytesRemaining = 2 ∨
      optimalReadSize addr bytesRemaining = 4) ∧
    addr.toNat % (optimalReadSize addr bytesRemaining).toNat = 0 ∧
    (optimalReadSize addr bytesRemaining).toNat ≤ bytesRemaining.toNat := by
  have positive : 0 < bytesRemaining.toNat := Nat.pos_of_ne_zero fun zero => nonzero (BitVec.eq_of_toNat_eq zero)
  have capped : (if bytesRemaining ≤ 4 then bytesRemaining else (4 : Word)).toNat = min bytesRemaining.toNat 4 := by
    have four : (4 : Word).toNat = 4 := rfl
    split
    · rename_i low
      rw [BitVec.le_def,four] at low
      omega
    · rename_i high
      rw [BitVec.le_def,four] at high
      omega
  unfold optimalReadSize
  generalize (if bytesRemaining ≤ 4 then bytesRemaining else (4 : Word)) = maxSize at capped
  have four : (4 : Word).toNat = 4 := rfl
  have two : (2 : Word).toNat = 2 := rfl
  have one : (1 : Word).toNat = 1 := rfl
  by_cases whole : maxSize ≥ 4 ∧ addr.toNat % 4 = 0
  · have large := BitVec.le_def.mp whole.1
    rw [if_pos whole,four]
    exact ⟨.inr (.inr rfl),whole.2,by omega⟩
  · rw [if_neg whole]
    by_cases half : maxSize ≥ 2 ∧ addr.toNat % 2 = 0
    · have large := BitVec.le_def.mp half.1
      rw [if_pos half,two]
      exact ⟨.inr (.inl rfl),half.2,by omega⟩
    · rw [if_neg half,one]
      exact ⟨.inl rfl,by omega,by omega⟩

theorem chunkRead (m : Memory 32) {addr size : Word} (power : size = 1 ∨ size = 2 ∨ size = 4)
    (aligned : addr.toNat % size.toNat = 0) :
    (chunkBytes m addr size).take size.toNat = ByteMemory.load (visible m) addr size.toNat := by
  have bytes := loadVisible m power aligned
  rcases power with rfl | rfl | rfl
  · change [SystemContext.readByte m addr] = ByteMemory.load (visible m) addr 1
    simp [byteVisible,ByteMemory.load]
  · rw [bytes]
    change (LittleEndian.bytes 2 (SystemContext.readHalfword m addr).toNat ++ [0,0]).take 2 = _
    rw [List.take_left' (LittleEndian.bytesLength _ _),SystemContext.readHalfword]
    split
    · exact halfwordBytes m addr
    · rfl
  · rw [bytes]
    change (LittleEndian.bytes 4 (SystemContext.readWord m addr).toNat).take 4 = _
    rw [List.take_of_length_le (Nat.le_of_eq (LittleEndian.bytesLength _ _)),SystemContext.readWord]
    split
    · exact wordBytes m addr
    · rfl

end RiscvSoc.Devices
