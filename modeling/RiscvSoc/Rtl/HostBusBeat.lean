import RiscvSoc.Lib.LittleEndian

/-! The beat stream between the host link's byte parser, its byte serializer and the
interface that executes packets: a packet is one beat, or one beat for each data word. -/
namespace RiscvSoc.HostBus
open LittleEndian (Byte byteAt)

structure Meta where
  we : Bool
  size : BitVec 2
  srcFixed : Bool
  dstFixed : Bool
  burstLenM1 : BitVec 16
  baseAddr : BitVec 32
  deriving DecidableEq, Repr

structure Beat where
  start : Bool
  last : Bool
  req : Bool
  info : Meta
  data : BitVec 32
  deriving DecidableEq, Repr

def beatBytes (size : BitVec 2) : BitVec 3 :=
  if size = 0 then 1 else if size = 1 then 2 else 4

def burstLen (burstLenM1 : BitVec 16) : BitVec 17 := burstLenM1.setWidth 17 + 1#17

def header (packetType : BitVec 4) (info : Meta) : List Byte :=
  [packetType ++ info.size ++ BitVec.ofBool info.srcFixed ++ BitVec.ofBool info.dstFixed,
    (BitVec.ofBool info.we).setWidth 8,
    byteAt info.burstLenM1 0,byteAt info.burstLenM1 1,
    byteAt info.baseAddr 0,byteAt info.baseAddr 1,byteAt info.baseAddr 2,byteAt info.baseAddr 3]

def frame (packetType : BitVec 4) (info : Meta) (payload : List Byte) : List Byte :=
  header packetType info ++ payload

/- The beats of a packet with one data word each. -/
def dataBeats (req : Bool) (info : Meta) : Bool → List (BitVec 32) → List Beat
  | _, [] => []
  | start, data :: rest => ⟨start,rest.isEmpty,req,info,data⟩ :: dataBeats req info false rest

theorem burstLenToNat (burstLenM1 : BitVec 16) : (burstLen burstLenM1).toNat = burstLenM1.toNat + 1 := by
  have small := burstLenM1.isLt
  simp only [burstLen,BitVec.toNat_add,BitVec.toNat_setWidth,BitVec.toNat_ofNat]
  omega

theorem dataBeatsLength (req : Bool) (info : Meta) (start : Bool) (words : List (BitVec 32)) :
    (dataBeats req info start words).length = words.length := by
  induction words generalizing start with
  | nil => rfl
  | cons data rest ih => exact congrArg (· + 1) (ih false)

theorem ctrl0Type : ∀ (type : BitVec 4) (size : BitVec 2) (a b : BitVec 1),
    (type ++ size ++ a ++ b).extractLsb' 4 4 = type := by decide
theorem ctrl0Size : ∀ (type : BitVec 4) (size : BitVec 2) (a b : BitVec 1),
    (type ++ size ++ a ++ b).extractLsb' 2 2 = size := by decide
theorem ctrl0Src : ∀ (type : BitVec 4) (size : BitVec 2) (a b : Bool),
    (type ++ size ++ BitVec.ofBool a ++ BitVec.ofBool b).getLsbD 1 = a := by decide
theorem ctrl0Dst : ∀ (type : BitVec 4) (size : BitVec 2) (a b : Bool),
    (type ++ size ++ BitVec.ofBool a ++ BitVec.ofBool b).getLsbD 0 = b := by decide

end RiscvSoc.HostBus
