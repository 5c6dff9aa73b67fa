/-! `csr_file.sv`. -/
namespace RiscvSoc.CsrFile

abbrev Address := BitVec 12

def csrFflags : Address := 0x001
def csrFrm : Address := 0x002
def csrFcsr : Address := 0x003
def csrCycle : Address := 0xC00
def csrTime : Address := 0xC01
def csrInstret : Address := 0xC02
def csrMstatus : Address := 0x300
def csrMisa : Address := 0x301
def csrMedeleg : Address := 0x302
def csrMideleg : Address := 0x303
def csrMie : Address := 0x304
def csrMtvec : Address := 0x305
def csrMscratch : Address := 0x340
def csrMepc : Address := 0x341
def csrMcause : Address := 0x342
def csrMtval : Address := 0x343
def csrMip : Address := 0x344
def csrMimpid : Address := 0xF13

def mstatusMieBit : Nat := 3
def mstatusMpieBit : Nat := 7
def machineInterruptMask : BitVec 32 := (1#32 <<< 3) ||| (1#32 <<< 7) ||| (1#32 <<< 11)

def csrMisaConst (enableM enableF : Bool) : BitVec 32 :=
  0x40000105 ||| (if enableM then 0x00001000 else 0) ||| (if enableF then 0x00000020 else 0)

structure Regs where
  rdata : BitVec 32
  cycle : BitVec 32
  instret : BitVec 32
  mstatus : BitVec 32
  medeleg : BitVec 32
  mideleg : BitVec 32
  mie : BitVec 32
  mtvec : BitVec 32
  mscratch : BitVec 32
  mepc : BitVec 32
  mcause : BitVec 32
  mtval : BitVec 32
  fcsr : BitVec 32
  deriving DecidableEq, Repr, Inhabited

def reset : Regs := ⟨0,0,0,0,0,0,0,0,0,0,0,0,0⟩

structure Inputs where
  isCsr : Bool
  instrComplete : Bool
  funct3 : BitVec 3
  rs1 : BitVec 5
  csrAddr : Address
  rs1Data : BitVec 32
  trapEntry : Bool
  trapMepcIn : BitVec 32
  trapMcauseIn : BitVec 32
  trapMtvalIn : BitVec 32
  trapReturn : Bool
  msip : Bool
  mtip : Bool
  meip : Bool
  fpFflagsIn : BitVec 5
  fpFflagsWe : Bool
  deriving DecidableEq, Repr

def sanitizeMtvec (value : BitVec 32) : BitVec 32 := value.extractLsb' 2 30 ++ 0b00#2
def sanitizeMepc (value : BitVec 32) : BitVec 32 := value &&& ~~~1
def sanitizeMie (value : BitVec 32) : BitVec 32 := value &&& machineInterruptMask

/- The address is one that software can write. -/
def isSoftwareWritable (a : Address) : Bool :=
  a ∈ [csrFflags,csrFrm,csrFcsr,csrMstatus,csrMedeleg,csrMideleg,csrMie,csrMtvec,csrMscratch,csrMepc,csrMcause,csrMtval]

def mip (msip mtip meip : Bool) : BitVec 32 :=
  0#20 ++ BitVec.ofBool meip ++ 0#3 ++ BitVec.ofBool mtip ++ 0#3 ++ BitVec.ofBool msip ++ 0#3

def withBit (value : BitVec 32) (k : Nat) (b : Bool) : BitVec 32 :=
  if b then value ||| (1#32 <<< k) else value &&& ~~~(1#32 <<< k)

namespace Regs

def rdataNext (s : Regs) (enableM enableF : Bool) (i : Inputs) : BitVec 32 :=
  let a := i.csrAddr
  if a = csrFflags then if enableF then (s.fcsr.extractLsb' 0 5).setWidth 32 else 0
  else if a = csrFrm then if enableF then (s.fcsr.extractLsb' 5 3).setWidth 32 else 0
  else if a = csrFcsr then if enableF then (s.fcsr.extractLsb' 0 8).setWidth 32 else 0
  else if a = csrMstatus then s.mstatus
  else if a = csrMisa then csrMisaConst enableM enableF
  else if a = csrMedeleg then s.medeleg
  else if a = csrMideleg then s.mideleg
  else if a = csrMie then s.mie
  else if a = csrMtvec then s.mtvec
  else if a = csrMscratch then s.mscratch
  else if a = csrMepc then s.mepc
  else if a = csrMcause then s.mcause
  else if a = csrMtval then s.mtval
  else if a = csrMip then mip i.msip i.mtip i.meip
  else if a = csrCycle ∨ a = csrTime then s.cycle
  else if a = csrInstret then s.instret
  else if a = csrMimpid then 0x00010000
  else 0

def wdata (s : Regs) (i : Inputs) : BitVec 32 :=
  if i.funct3 = 0b001 then i.rs1Data
  else if i.funct3 = 0b010 then s.rdata ||| i.rs1Data
  else if i.funct3 = 0b011 then s.rdata &&& ~~~i.rs1Data
  else if i.funct3 = 0b101 then i.rs1.setWidth 32
  else if i.funct3 = 0b110 then s.rdata ||| i.rs1.setWidth 32
  else if i.funct3 = 0b111 then s.rdata &&& ~~~(i.rs1.setWidth 32)
  else 0

def writeEn (i : Inputs) : Bool :=
  if i.funct3 = 0b001 ∨ i.funct3 = 0b101 then true
  else if i.funct3 = 0b010 ∨ i.funct3 = 0b011 ∨ i.funct3 = 0b110 ∨ i.funct3 = 0b111 then i.rs1 != 0
  else false

def written (s : Regs) (enableF : Bool) (i : Inputs) : Regs :=
  let a := i.csrAddr
  let w := s.wdata i
  if a = csrFflags then
    {s with fcsr := if enableF then s.fcsr.extractLsb' 5 27 ++ w.extractLsb' 0 5 else s.fcsr}
  else if a = csrFrm then
    {s with fcsr := if enableF then s.fcsr.extractLsb' 8 24 ++ w.extractLsb' 0 3 ++ s.fcsr.extractLsb' 0 5 else s.fcsr}
  else if a = csrFcsr then {s with fcsr := if enableF then (w.extractLsb' 0 8).setWidth 32 else s.fcsr}
  else if a = csrMstatus then {s with mstatus := w}
  else if a = csrMedeleg then {s with medeleg := w}
  else if a = csrMideleg then {s with mideleg := w}
  else if a = csrMie then {s with mie := sanitizeMie w}
  else if a = csrMtvec then {s with mtvec := sanitizeMtvec w}
  else if a = csrMscratch then {s with mscratch := w}
  else if a = csrMepc then {s with mepc := sanitizeMepc w}
  else if a = csrMcause then {s with mcause := w}
  else if a = csrMtval then {s with mtval := w}
  else s

def mieBit (s : Regs) : Bool := s.mstatus.getLsbD mstatusMieBit
def mpieBit (s : Regs) : Bool := s.mstatus.getLsbD mstatusMpieBit

/- Trap entry and MRET come before the accrued flags, and these before a CSR instruction. -/
def next (s : Regs) (enableM enableF : Bool) (i : Inputs) : Regs :=
  let counted := {s with
    rdata := s.rdataNext enableM enableF i
    cycle := s.cycle + 1
    instret := if i.instrComplete then s.instret + 1 else s.instret}
  if i.trapEntry then
    {counted with
      mepc := sanitizeMepc i.trapMepcIn
      mcause := i.trapMcauseIn
      mtval := i.trapMtvalIn
      mstatus := withBit (withBit s.mstatus mstatusMpieBit s.mieBit) mstatusMieBit false}
  else if i.trapReturn then
    {counted with mstatus := withBit (withBit s.mstatus mstatusMieBit s.mpieBit) mstatusMpieBit true}
  else if i.fpFflagsWe && enableF then
    {counted with fcsr := s.fcsr.extractLsb' 5 27 ++ (s.fcsr.extractLsb' 0 5 ||| i.fpFflagsIn)}
  else if i.isCsr && writeEn i && isSoftwareWritable i.csrAddr then
    {s.written enableF i with rdata := counted.rdata, cycle := counted.cycle, instret := counted.instret}
  else counted

end Regs
end RiscvSoc.CsrFile
