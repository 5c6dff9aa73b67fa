import RiscvSoc.Lib.Mealy

/-! `registered_bus.sv`, for any numbers of masters and slaves. -/
namespace RiscvSoc.RegisteredBus
open Mealy

abbrev Word := BitVec 32

structure Request where
  addr : Word
  wdata : Word
  we : Bool
  size : BitVec 2
  deriving DecidableEq, Repr

/- `slave_base_addr` and `slave_addr_size`; a zero size disables an entry. -/
structure MapEntry where
  baseAddr : Word
  addrSize : Word
  deriving DecidableEq, Repr

/- `NUM_MASTERS` is `m`, `NUM_SLAVES` is `n`. -/
structure Regs (m n : Nat) where
  selectedMasterValid : Bool
  selectedMasterIdx : Fin m
  pendingReqValid : Bool
  pendingReqMasterIdx : Fin m
  pendingReq : Request
  decodedReqValid : Bool
  decodedSlaveIdx : Fin n
  decodedSlaveValid : Bool
  slaveResponsePending : Fin n → Bool
  slaveResponseMasterIdx : Fin n → Fin m
  selectedRespSlaveValid : Bool
  selectedRespSlaveIdx : Fin n
  activeSlaveReqIdx : Fin n
  activeMasterRespIdx : Fin m
  masterMemDValid : Fin m → Bool
  masterMemDRdata : Fin m → Word
  slaveMemAValid : Fin n → Bool
  slaveMemA : Fin n → Request

structure Inputs (m n : Nat) where
  masterMemA : Fin m → Request
  masterMemAValid : Fin m → Bool
  masterMemDReady : Fin m → Bool
  slaveMemAReady : Fin n → Bool
  slaveMemDRdata : Fin n → Word
  slaveMemDValid : Fin n → Bool

structure Outputs (m n : Nat) where
  masterMemAReady : Fin m → Bool
  masterMemDRdata : Fin m → Word
  masterMemDValid : Fin m → Bool
  slaveMemA : Fin n → Request
  slaveMemAValid : Fin n → Bool
  slaveMemDReady : Fin n → Bool

variable {m n : Nat} (map : Fin n → MapEntry)

def reset (s : Regs m n) : Regs m n :=
  {s with
    selectedMasterValid := false
    pendingReqValid := false
    decodedReqValid := false
    selectedRespSlaveValid := false
    slaveResponsePending := fun _ => false
    masterMemDValid := fun _ => false
    slaveMemAValid := fun _ => false}

/- Fixed priority: the lowest index wins. -/
def first {k : Nat} (p : Fin k → Bool) : Option (Fin k) := (List.finRange k).find? p

def anyOf {k : Nat} (p : Fin k → Bool) : Bool := (List.finRange k).any p

def set {k : Nat} {α : Type} (f : Fin k → α) (i : Fin k) (a : α) : Fin k → α := fun j => if j = i then a else f j

/- The entry of the address map for an address: `next_decoded_slave_*`. -/
def decode (addr : Word) : Option (Fin n) :=
  first fun i => (map i).addrSize ≠ 0 ∧ addr.extractLsb' 28 4 = (map i).baseAddr.extractLsb' 28 4

def slaveReqOutputActive (s : Regs m n) : Bool := anyOf s.slaveMemAValid
def masterRespOutputActive (s : Regs m n) : Bool := anyOf s.masterMemDValid

def decodeLoad (s : Regs m n) : Bool :=
  s.pendingReqValid && !s.decodedReqValid && !slaveReqOutputActive s

/- `issue_decoded_*`: the decoded slave, if there is one, once the decode is valid. -/
def issueDecoded (s : Regs m n) : Option (Option (Fin n)) :=
  if s.decodedReqValid then some (if s.decodedSlaveValid then some s.decodedSlaveIdx else none)
  else if decodeLoad s then some (decode map s.pendingReq.addr)
  else none

def slaveReqLoad (s : Regs m n) : Option (Fin n) :=
  match issueDecoded map s with
  | some (some x) =>
    if s.pendingReqValid && !slaveReqOutputActive s && !s.slaveResponsePending x then some x else none
  | _ => none

def slaveReqAccept (s : Regs m n) (i : Inputs m n) : Bool :=
  slaveReqOutputActive s && i.slaveMemAReady s.activeSlaveReqIdx

def unmappedReqAccept (s : Regs m n) : Bool :=
  s.pendingReqValid && issueDecoded map s = some none && !masterRespOutputActive s

def nextSelectedResp (s : Regs m n) (i : Inputs m n) : Option (Fin n) :=
  first fun x => s.slaveResponsePending x && i.slaveMemDValid x

def respSelectLoad (s : Regs m n) (i : Inputs m n) : Option (Fin n) :=
  if !s.selectedRespSlaveValid && !masterRespOutputActive s then nextSelectedResp s i else none

def slaveRespAccept (s : Regs m n) (i : Inputs m n) : Bool :=
  s.selectedRespSlaveValid && !masterRespOutputActive s && !unmappedReqAccept map s &&
    i.slaveMemDValid s.selectedRespSlaveIdx

def masterRespAccept (s : Regs m n) (i : Inputs m n) : Bool :=
  masterRespOutputActive s && i.masterMemDReady s.activeMasterRespIdx

def masterSelectLoad (s : Regs m n) (i : Inputs m n) : Option (Fin m) :=
  if !s.selectedMasterValid && !s.pendingReqValid then first i.masterMemAValid else none

def masterReqAccept (s : Regs m n) (i : Inputs m n) : Bool :=
  s.selectedMasterValid && !s.pendingReqValid && i.masterMemAValid s.selectedMasterIdx

def selectedRespMasterIdx (s : Regs m n) : Fin m := s.slaveResponseMasterIdx s.selectedRespSlaveIdx

def masterMemAReady (s : Regs m n) (k : Fin m) : Bool :=
  s.selectedMasterValid && !s.pendingReqValid && k = s.selectedMasterIdx
def slaveMemDReady (s : Regs m n) (x : Fin n) : Bool :=
  s.selectedRespSlaveValid && !masterRespOutputActive s && !unmappedReqAccept map s &&
    x = s.selectedRespSlaveIdx

/- Where two assignments of one cycle meet, the later one of the source wins. -/
def step (s : Regs m n) (i : Inputs m n) : Regs m n where
  selectedMasterValid :=
    if (masterSelectLoad s i).isSome then true
    else if masterReqAccept s i then false else s.selectedMasterValid
  selectedMasterIdx := (masterSelectLoad s i).getD s.selectedMasterIdx
  pendingReqValid :=
    if slaveReqAccept s i || unmappedReqAccept map s then false
    else if masterReqAccept s i then true else s.pendingReqValid
  pendingReqMasterIdx := if masterReqAccept s i then s.selectedMasterIdx else s.pendingReqMasterIdx
  pendingReq := if masterReqAccept s i then i.masterMemA s.selectedMasterIdx else s.pendingReq
  decodedReqValid :=
    if slaveReqAccept s i || unmappedReqAccept map s then false
    else if decodeLoad s then true else s.decodedReqValid
  decodedSlaveIdx :=
    if decodeLoad s then (decode map s.pendingReq.addr).getD s.decodedSlaveIdx else s.decodedSlaveIdx
  decodedSlaveValid :=
    if decodeLoad s then (decode map s.pendingReq.addr).isSome else s.decodedSlaveValid
  slaveResponsePending :=
    let p := if slaveReqAccept s i then set s.slaveResponsePending s.activeSlaveReqIdx true
      else s.slaveResponsePending
    if slaveRespAccept map s i then set p s.selectedRespSlaveIdx false else p
  slaveResponseMasterIdx :=
    if slaveReqAccept s i then set s.slaveResponseMasterIdx s.activeSlaveReqIdx s.pendingReqMasterIdx
    else s.slaveResponseMasterIdx
  selectedRespSlaveValid :=
    if (respSelectLoad s i).isSome then true
    else if slaveRespAccept map s i then false else s.selectedRespSlaveValid
  selectedRespSlaveIdx := (respSelectLoad s i).getD s.selectedRespSlaveIdx
  activeSlaveReqIdx := (slaveReqLoad map s).getD s.activeSlaveReqIdx
  activeMasterRespIdx :=
    if slaveRespAccept map s i then selectedRespMasterIdx s
    else if unmappedReqAccept map s && !slaveReqAccept s i then s.pendingReqMasterIdx
    else s.activeMasterRespIdx
  masterMemDValid :=
    let v := if unmappedReqAccept map s && !slaveReqAccept s i
      then set s.masterMemDValid s.pendingReqMasterIdx true else s.masterMemDValid
    if slaveRespAccept map s i then set v (selectedRespMasterIdx s) true
    else if masterRespAccept s i then set v s.activeMasterRespIdx false
    else v
  masterMemDRdata :=
    let d := if unmappedReqAccept map s && !slaveReqAccept s i
      then set s.masterMemDRdata s.pendingReqMasterIdx 0 else s.masterMemDRdata
    if slaveRespAccept map s i
      then set d (selectedRespMasterIdx s) (i.slaveMemDRdata s.selectedRespSlaveIdx) else d
  slaveMemAValid :=
    let v := match slaveReqLoad map s with
      | some x => set s.slaveMemAValid x true
      | none => s.slaveMemAValid
    if slaveReqAccept s i then set v s.activeSlaveReqIdx false else v
  slaveMemA := match slaveReqLoad map s with
    | some x => set s.slaveMemA x s.pendingReq
    | none => s.slaveMemA

def machine : Machine (Regs m n) (Inputs m n) (Outputs m n) where
  output s _ := {
    masterMemAReady := masterMemAReady s
    masterMemDRdata := s.masterMemDRdata
    masterMemDValid := s.masterMemDValid
    slaveMemA := s.slaveMemA
    slaveMemAValid := s.slaveMemAValid
    slaveMemDReady := slaveMemDReady map s}
  next := step map

def handshakes {k : Nat} {α : Type} (valid ready : Fin k → Bool) (data : Fin k → α) : List (Fin k × α) :=
  ((List.finRange k).filter fun j => valid j && ready j).map fun j => (j,data j)

def accepted (s : Regs m n) (i : Inputs m n) : List (Fin m × Request) :=
  handshakes i.masterMemAValid (masterMemAReady s) i.masterMemA
def delivered (s : Regs m n) (i : Inputs m n) : List (Fin n × Request) :=
  handshakes s.slaveMemAValid i.slaveMemAReady s.slaveMemA
def taken (s : Regs m n) (i : Inputs m n) : List (Fin n × Word) :=
  handshakes i.slaveMemDValid (slaveMemDReady map s) i.slaveMemDRdata
def returned (s : Regs m n) (i : Inputs m n) : List (Fin m × Word) :=
  handshakes s.masterMemDValid i.masterMemDReady s.masterMemDRdata

end RiscvSoc.RegisteredBus
