import RiscvSoc.Lib.LittleEndian

/-! Requests and responses of the host bus protocol, and the region check that guards
host-initiated requests. -/
namespace RiscvSoc.Host
open LittleEndian (Byte)

abbrev Word := BitVec 32

inductive AccessSize where
  | byte
  | halfword
  | word
  deriving DecidableEq, Repr

namespace AccessSize

def byteCount : AccessSize → Nat
  | .byte => 1
  | .halfword => 2
  | .word => 4

def toSizeCode : AccessSize → Byte
  | .byte => 0
  | .halfword => 1
  | .word => 2

def fromU8 (value : Byte) : Option AccessSize :=
  if value = 0 then some .byte
  else if value = 1 then some .halfword
  else if value = 2 then some .word
  else none

@[simp] theorem fromSizeCode (size : AccessSize) : fromU8 size.toSizeCode = some size := by
  cases size <;> rfl

theorem byteCountPositive (size : AccessSize) : 0 < size.byteCount := by
  cases size <;> decide

end AccessSize

def maxBurstBeats : Nat := 65536

structure BusRequest where
  addr : Word
  wdata : Word
  we : Bool
  size : AccessSize
  burstLen : Word
  srcFixed : Bool
  dstFixed : Bool
  data : List Byte
  deriving DecidableEq, Repr

def BusRequest.read (addr : Word) (size : AccessSize) : BusRequest :=
  ⟨addr,0,false,size,1,false,false,[]⟩

def BusRequest.write (addr data : Word) (size : AccessSize) : BusRequest :=
  ⟨addr,data,true,size,1,false,false,(LittleEndian.bytes 4 data.toNat).take size.byteCount⟩

def BusRequest.burstRead (addr : Word) (size : AccessSize) (burstLen : Word) (srcFixed dstFixed : Bool) : BusRequest :=
  ⟨addr,0,false,size,burstLen,srcFixed,dstFixed,[]⟩

def BusRequest.burstWrite (addr : Word) (size : AccessSize) (burstLen : Word) (srcFixed dstFixed : Bool)
    (data : List Byte) : BusRequest :=
  let first := if size.byteCount ≤ data.length then data.take size.byteCount else []
  ⟨addr,LittleEndian.word 32 first,true,size,burstLen,srcFixed,dstFixed,data⟩

structure BusResponse where
  rdata : Word
  size : AccessSize
  we : Bool
  addr : Word
  burstLen : Word
  srcFixed : Bool
  dstFixed : Bool
  data : List Byte
  deriving DecidableEq, Repr

inductive HandlerError where
  | bufferFull
  | requestPending
  | noDataAvailable
  | noRequestAvailable
  | noOutstandingRequest
  | invalidAddressRange
  | invalidBurstConfig
  deriving DecidableEq, Repr

inductive RequestAddressRegion where
  | rtlPeripheral
  | nonRtl
  | spansRtlBoundary
  deriving DecidableEq, Repr

def isRtlPeripheralAddr (addr : Word) : Bool := addr &&& 0x80000000#32 == 0

theorem rtlHalf (addr : Word) : isRtlPeripheralAddr addr = decide (addr.toNat < 2 ^ 31) := by
  have top : (0x80000000#32 : Word) = BitVec.twoPow 32 31 := by decide
  have sign : addr.getLsbD 31 = decide (2 ^ 31 ≤ addr.toNat) :=
    (BitVec.msb_eq_getLsbD_last addr).symm.trans (BitVec.msb_eq_decide addr)
  rw [isRtlPeripheralAddr,top,BitVec.and_twoPow,sign]
  by_cases low : addr.toNat < 2 ^ 31
  · rw [decide_eq_true low,decide_eq_false (Nat.not_le.mpr low)]
    rfl
  · rw [decide_eq_false low,decide_eq_true (Nat.not_lt.mp low)]
    rfl

def checkedAdd (a b : Word) : Option Word := if a.toNat + b.toNat < 2 ^ 32 then some (a + b) else none
def checkedSub (a b : Word) : Option Word := if b.toNat ≤ a.toNat then some (a - b) else none
def checkedMul (a b : Word) : Option Word := if a.toNat * b.toNat < 2 ^ 32 then some (a * b) else none

def requestEndAddr (request : BusRequest) : Option Word := do
  let stride := BitVec.ofNat 32 request.size.byteCount
  let addressSpanBeats :=
    if (request.we && request.dstFixed) || (!request.we && request.srcFixed) then 1
    else request.burstLen
  let totalBytes ← checkedMul addressSpanBeats stride
  let lastByteOffset ← checkedSub totalBytes 1
  checkedAdd request.addr lastByteOffset

def classifyRequestRegion (request : BusRequest) : RequestAddressRegion :=
  match requestEndAddr request with
  | none => .nonRtl
  | some endAddr =>
    match isRtlPeripheralAddr request.addr, isRtlPeripheralAddr endAddr with
    | true, true => .rtlPeripheral
    | false, false => .nonRtl
    | _, _ => .spansRtlBoundary

end RiscvSoc.Host
