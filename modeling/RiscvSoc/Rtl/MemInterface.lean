import RiscvSoc.Rtl.HostBusInterface

/-! What the CPU asks of the memory channel for an instruction: the memory part of `decoder.sv`, the
states of `cpu.sv` that hold a request, `mem_interface.sv`, and the routing of `host_bus_mux.sv`. -/
namespace RiscvSoc.Cpu

abbrev Word := BitVec 32

/- The states with a request on the address channel. -/
inductive State where
  | fetch
  | memRead
  | memWrite
  | atomicRmw
  deriving DecidableEq, Repr

structure Access where
  addr : Word
  wdata : Word
  we : Bool
  size : BitVec 2
  deriving DecidableEq, Repr

def opLoad : BitVec 7 := 0b0000011
def opLoadFp : BitVec 7 := 0b0000111
def opStore : BitVec 7 := 0b0100011
def opStoreFp : BitVec 7 := 0b0100111
def opAmo : BitVec 7 := 0b0101111

def opcode (instruction : Word) : BitVec 7 := instruction.extractLsb' 0 7
def funct3 (instruction : Word) : BitVec 3 := instruction.extractLsb' 12 3
def funct5 (instruction : Word) : BitVec 5 := instruction.extractLsb' 27 5

structure Decoded where
  memRead : Bool
  memWrite : Bool
  isFpStore : Bool
  isSc : Bool
  isAmo : Bool
  deriving DecidableEq, Repr

def Decoded.none : Decoded := ⟨false,false,false,false,false⟩

/- Read-modify-write operations by `funct5`; an unknown one is neither. -/
def decodeAmo (f : BitVec 5) : Decoded :=
  if f = 0b00010 then {Decoded.none with memRead := true}
  else if f = 0b00011 then {Decoded.none with isSc := true, memWrite := true}
  else if f = 0b00001 ∨ f = 0b00000 ∨ f = 0b00100 ∨ f = 0b01100 ∨ f = 0b01000 ∨ f = 0b10000 ∨ f = 0b10100 ∨
      f = 0b11000 ∨ f = 0b11100 then {Decoded.none with memRead := true, isAmo := true, memWrite := true}
  else Decoded.none

/- `decoder.sv` looks at neither `funct3` nor a validity bit for these opcodes. -/
def decode (enableF : Bool) (instruction : Word) : Decoded :=
  let op := opcode instruction
  if op = opLoad then {Decoded.none with memRead := true}
  else if op = opLoadFp then {Decoded.none with memRead := enableF}
  else if op = opStore then {Decoded.none with memWrite := true}
  else if op = opStoreFp then {Decoded.none with memWrite := enableF, isFpStore := enableF}
  else if op = opAmo then decodeAmo (funct5 instruction)
  else Decoded.none

/- The opcodes that go to S_MEM_ADDR. -/
def accessesMemory (instruction : Word) : Bool :=
  let op := opcode instruction
  op == opLoad || op == opLoadFp || op == opStore || op == opStoreFp || op == opAmo

/- A request of the CPU: the decompressed instruction in `ir_reg`, the state, and the registers that
the request is made of. -/
structure Request where
  enableF : Bool
  instruction : Word
  state : State
  pc : Word
  aluOut : Word
  rs2 : Word
  fs2 : Word
  amoWriteData : Word
  scSuccess : Bool
  deriving DecidableEq, Repr

/- The states that an instruction's request can be made in. -/
def Request.reachable (r : Request) : Bool :=
  let d := decode r.enableF r.instruction
  match r.state with
  | .fetch => true
  | .memRead => d.memRead
  | .memWrite => accessesMemory r.instruction && !d.memRead
  | .atomicRmw => d.isAmo

def memInterface (r : Request) : Access :=
  let d := decode r.enableF r.instruction
  { addr := r.aluOut
    wdata := if r.state = .atomicRmw then r.amoWriteData else if d.isFpStore then r.fs2 else r.rs2
    we := d.memWrite && (r.state == .memWrite || r.state == .atomicRmw) && (!d.isSc || r.scSuccess)
    size := (funct3 r.instruction).extractLsb' 0 2 }

/- The address channel: instruction fetches are word reads. -/
def Request.access (r : Request) : Access :=
  if r.state = .fetch then ⟨r.pc,0,false,0b10⟩ else memInterface r

/- `host_bus_mux` sends the upper half of the addresses to the host. -/
def Request.toHost (r : Request) : Bool := r.access.addr.getLsbD 31

/- A size that the wire format has no code for comes from `funct3` alone. -/
def Request.reserved (r : Request) : Bool := r.state ≠ .fetch ∧ (funct3 r.instruction).extractLsb' 0 2 = 0b11

theorem reservedSize (r : Request) : r.access.size = 0b11 ↔ r.reserved = true := by
  simp only [Request.access,Request.reserved,decide_eq_true_eq]
  split
  · rename_i fetch
    simp [fetch]
  · rename_i data
    simp [data,memInterface]

end RiscvSoc.Cpu
