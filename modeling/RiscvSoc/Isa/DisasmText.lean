import RiscvSoc.Isa.DisasmFields

/-! The assembly text of the words that the encoders make, and the disassembler printing it. -/
namespace RiscvSoc.Disasm
open Instruction BitFields

def registerEncoders : List (String × (Word → Word → Word → Word)) :=
  [("add",add),("sub",sub),("and",Instruction.and),("or",Instruction.or),("xor",Instruction.xor),("sll",sll),("srl",srl),
    ("sra",sra),("slt",slt),("sltu",sltu),("mul",mul),("mulh",mulh),("mulhsu",mulhsu),("mulhu",mulhu),("div",div),
    ("divu",divu),("rem",rem),("remu",remu)]

def immediateEncoders : List (String × (Word → Word → Word → Word)) :=
  [("addi",addi),("andi",andi),("ori",ori),("xori",xori),("slti",slti),("sltiu",sltiu)]

def shiftEncoders : List (String × (Word → Word → Word → Word)) := [("slli",slli),("srli",srli),("srai",srai)]

def upperEncoders : List (String × (Word → Word → Word)) := [("lui",lui),("auipc",auipc)]

def branchEncoders : List (String × (Word → Word → Word → Word)) :=
  [("beq",beq),("bne",bne),("blt",blt),("bge",bge),("bltu",bltu),("bgeu",bgeu)]

def loadEncoders : List (String × (Word → Word → Word → Word)) := [("lw",lw),("lh",lh),("lb",lb),("lhu",lhu),("lbu",lbu)]

def storeEncoders : List (String × (Word → Word → Word → Word)) := [("sw",sw),("sh",sh),("sb",sb)]

def csrEncoders : List (String × (Word → Word → Word → Word)) := [("csrrw",csrrw),("csrrs",csrrs),("csrrc",csrrc)]

def csrImmediateEncoders : List (String × (Word → Word → Word → Word)) :=
  [("csrrwi",csrrwi),("csrrsi",csrrsi),("csrrci",csrrci)]

def reservedEncoders : List (String × (Word → Word → Word)) := [("lr.w",lrW),("lr.w.aq",lrWAq)]

def atomicEncoders : List (String × (Word → Word → Word → Word)) :=
  [("sc.w",scW),("sc.w.rl",scWRl),("amoswap.w",amoswapW),("amoadd.w",amoaddW),("amoxor.w",amoxorW),("amoand.w",amoandW),
    ("amoor.w",amoorW),("amomin.w",amominW),("amomax.w",amomaxW),("amominu.w",amominuW),("amomaxu.w",amomaxuW)]

def plainEncoders : List (String × Word) := [("fence",fence),("ecall",ecall),("ebreak",ebreak)]

def floatEncoders : List (String × (Word → Word → Word → Word → Word)) :=
  [("07",fun fd rs1 imm _ => flw fd rs1 imm),("27",fun rs1 fs2 imm _ => fsw rs1 fs2 imm),
    ("43",fmaddS),("47",fmsubS),("4b",fnmsubS),("4f",fnmaddS),
    ("53",fun fd fs1 fs2 _ => faddS fd fs1 fs2),("53",fun fd fs1 fs2 _ => fsubS fd fs1 fs2),
    ("53",fun fd fs1 fs2 _ => fmulS fd fs1 fs2),("53",fun fd fs1 fs2 _ => fdivS fd fs1 fs2),
    ("53",fun fd fs1 _ _ => fsqrtS fd fs1),("53",fun fd fs1 fs2 _ => fminS fd fs1 fs2),
    ("53",fun fd fs1 fs2 _ => fmaxS fd fs1 fs2),("53",fun fd fs1 fs2 _ => fsgnjS fd fs1 fs2),
    ("53",fun fd fs1 fs2 _ => fsgnjnS fd fs1 fs2),("53",fun fd fs1 fs2 _ => fsgnjxS fd fs1 fs2),
    ("53",fun rd fs1 fs2 _ => feqS rd fs1 fs2),("53",fun rd fs1 fs2 _ => fltS rd fs1 fs2),
    ("53",fun rd fs1 fs2 _ => fleS rd fs1 fs2),("53",fun rd fs1 _ _ => fcvtWS rd fs1),
    ("53",fun rd fs1 _ _ => fcvtWuS rd fs1),("53",fun fd rs1 _ _ => fcvtSW fd rs1),
    ("53",fun fd rs1 _ _ => fcvtSWu fd rs1),("53",fun rd fs1 _ _ => fmvXW rd fs1),
    ("53",fun fd rs1 _ _ => fmvWX fd rs1),("53",fun rd fs1 _ _ => fclassS rd fs1)]

def isRegister (r : Word) : Prop := r.toNat < 32

def isImmediate (k : Nat) (imm : Word) : Prop := -(2 : Int) ^ k ≤ imm.toInt ∧ imm.toInt < 2 ^ k

def isOffset (k : Nat) (imm : Word) : Prop := isImmediate k imm ∧ imm.toNat % 2 = 0

def shown (r value : Word) : String := "x" ++ toString r.toNat ++ "=0x" ++ hex value

/- The words of the encoders at valid arguments, and the text of each. -/
inductive Text (v1 v2 vd : Word) : Word → String → Prop
  | register {name encoder} (entry : (name,encoder) ∈ registerEncoders) {rd rs1 rs2}
      (hrd : isRegister rd) (hrs1 : isRegister rs1) (hrs2 : isRegister rs2) :
      Text v1 v2 vd (encoder rd rs1 rs2) (name ++ " " ++ shown rd vd ++ ", " ++ shown rs1 v1 ++ ", " ++ shown rs2 v2)
  | immediate {name encoder} (entry : (name,encoder) ∈ immediateEncoders) {rd rs1 imm}
      (hrd : isRegister rd) (hrs1 : isRegister rs1) (himm : isImmediate 11 imm) :
      Text v1 v2 vd (encoder rd rs1 imm) (name ++ " " ++ shown rd vd ++ ", " ++ shown rs1 v1 ++ ", " ++ toString imm.toInt)
  | shift {name encoder} (entry : (name,encoder) ∈ shiftEncoders) {rd rs1 shamt}
      (hrd : isRegister rd) (hrs1 : isRegister rs1) (hshamt : shamt.toNat < 32) :
      Text v1 v2 vd (encoder rd rs1 shamt) (name ++ " " ++ shown rd vd ++ ", " ++ shown rs1 v1 ++ ", " ++ toString shamt.toNat)
  | upper {name encoder} (entry : (name,encoder) ∈ upperEncoders) {rd imm} (hrd : isRegister rd) :
      Text v1 v2 vd (encoder rd imm) (name ++ " " ++ shown rd vd ++ ", 0x" ++ hex (imm >>> 12))
  | branch {name encoder} (entry : (name,encoder) ∈ branchEncoders) {rs1 rs2 imm}
      (hrs1 : isRegister rs1) (hrs2 : isRegister rs2) (himm : isOffset 12 imm) :
      Text v1 v2 vd (encoder rs1 rs2 imm) (name ++ " " ++ shown rs1 v1 ++ ", " ++ shown rs2 v2 ++ ", " ++ toString imm.toInt)
  | jal {rd imm} (hrd : isRegister rd) (himm : isOffset 20 imm) :
      Text v1 v2 vd (jal rd imm) ("jal " ++ shown rd vd ++ ", " ++ toString imm.toInt)
  | jalr {rd rs1 imm} (hrd : isRegister rd) (hrs1 : isRegister rs1) (himm : isImmediate 11 imm) :
      Text v1 v2 vd (jalr rd rs1 imm) ("jalr " ++ shown rd vd ++ ", " ++ toString imm.toInt ++ "(" ++ shown rs1 v1 ++ ")")
  | load {name encoder} (entry : (name,encoder) ∈ loadEncoders) {rd rs1 imm}
      (hrd : isRegister rd) (hrs1 : isRegister rs1) (himm : isImmediate 11 imm) :
      Text v1 v2 vd (encoder rd rs1 imm)
        (name ++ " " ++ shown rd vd ++ ", " ++ toString imm.toInt ++ "(" ++ shown rs1 v1 ++ ")")
  | store {name encoder} (entry : (name,encoder) ∈ storeEncoders) {rs1 rs2 imm}
      (hrs1 : isRegister rs1) (hrs2 : isRegister rs2) (himm : isImmediate 11 imm) :
      Text v1 v2 vd (encoder rs1 rs2 imm)
        (name ++ " " ++ shown rs2 v2 ++ ", " ++ toString imm.toInt ++ "(" ++ shown rs1 v1 ++ ")")
  | csr {name encoder} (entry : (name,encoder) ∈ csrEncoders) {rd rs1 csr}
      (hrd : isRegister rd) (hrs1 : isRegister rs1) (hcsr : csr.toNat < 4096) :
      Text v1 v2 vd (encoder rd rs1 csr) (name ++ " " ++ shown rd vd ++ ", 0x" ++ hex csr ++ ", " ++ shown rs1 v1)
  | csrImmediate {name encoder} (entry : (name,encoder) ∈ csrImmediateEncoders) {rd zimm csr}
      (hrd : isRegister rd) (hzimm : zimm.toNat < 32) (hcsr : csr.toNat < 4096) :
      Text v1 v2 vd (encoder rd zimm csr) (name ++ " " ++ shown rd vd ++ ", 0x" ++ hex csr ++ ", " ++ toString zimm.toNat)
  | reserved {name encoder} (entry : (name,encoder) ∈ reservedEncoders) {rd rs1}
      (hrd : isRegister rd) (hrs1 : isRegister rs1) :
      Text v1 v2 vd (encoder rd rs1) (name ++ " " ++ shown rd vd ++ ", (" ++ shown rs1 v1 ++ ")")
  | atomic {name encoder} (entry : (name,encoder) ∈ atomicEncoders) {rd rs1 rs2}
      (hrd : isRegister rd) (hrs1 : isRegister rs1) (hrs2 : isRegister rs2) :
      Text v1 v2 vd (encoder rd rs1 rs2) (name ++ " " ++ shown rd vd ++ ", " ++ shown rs2 v2 ++ ", (" ++ shown rs1 v1 ++ ")")
  | plain {name word} (entry : (name,word) ∈ plainEncoders) : Text v1 v2 vd word name
  | float {opcode encoder} (entry : (opcode,encoder) ∈ floatEncoders) (a b c d) :
      Text v1 v2 vd (encoder a b c d) ("unknown opcode 0x" ++ opcode)

theorem registerBits {x : Word} (small : isRegister x) : ∃ r : BitVec 5, x = r.setWidth 32 :=
  ⟨x.extractLsb' 0 5,(narrow small).symm⟩

theorem shownBits (r : BitVec 5) (value : Word) : reg (r.setWidth 8) value = shown (r.setWidth 32) value := by
  have inside := r.isLt
  have same : (r.setWidth 8).toNat = (r.setWidth 32).toNat := by
    rw [BitVec.toNat_setWidth,BitVec.toNat_setWidth]
    omega
  unfold reg shown
  rw [same]

theorem immediateBits {k : Nat} {imm : Word} (fits : k + 1 ≤ 32) (range : isImmediate k imm) :
    signed ((imm.extractLsb' 0 (k + 1)).signExtend 32) = toString imm.toInt := by
  unfold signed
  rw [signNarrow imm fits range.1 range.2]

/- What an entry of a table says of its encoder: the fields it writes, and the mnemonic that the disassembler finds
for them. -/
def RegisterForm (name : String) (encoder : Word → Word → Word → Word) : Prop :=
  ∃ (f3 : BitVec 3) (f7 : BitVec 7),
    (∀ rd rs1 rs2, encoder rd rs1 rs2 =
      encodeRType (BitVec.setWidth 32 0b0110011#7) rd (f3.setWidth 32) rs1 rs2 (f7.setWidth 32)) ∧
    rTypeMnemonic (f3.setWidth 8) (f7.setWidth 8) = some name

theorem registerForms : ∀ entry ∈ registerEncoders, RegisterForm entry.1 entry.2 := by
  simp only [registerEncoders,List.forall_mem_cons]
  exact ⟨⟨0b000,0b0000000,fun _ _ _ => rfl,rfl⟩,⟨0b000,0b0100000,fun _ _ _ => rfl,rfl⟩,⟨0b111,0b0000000,fun _ _ _ => rfl,rfl⟩,
    ⟨0b110,0b0000000,fun _ _ _ => rfl,rfl⟩,⟨0b100,0b0000000,fun _ _ _ => rfl,rfl⟩,⟨0b001,0b0000000,fun _ _ _ => rfl,rfl⟩,
    ⟨0b101,0b0000000,fun _ _ _ => rfl,rfl⟩,⟨0b101,0b0100000,fun _ _ _ => rfl,rfl⟩,⟨0b010,0b0000000,fun _ _ _ => rfl,rfl⟩,
    ⟨0b011,0b0000000,fun _ _ _ => rfl,rfl⟩,⟨0b000,0b0000001,fun _ _ _ => rfl,rfl⟩,⟨0b001,0b0000001,fun _ _ _ => rfl,rfl⟩,
    ⟨0b010,0b0000001,fun _ _ _ => rfl,rfl⟩,⟨0b011,0b0000001,fun _ _ _ => rfl,rfl⟩,⟨0b100,0b0000001,fun _ _ _ => rfl,rfl⟩,
    ⟨0b101,0b0000001,fun _ _ _ => rfl,rfl⟩,⟨0b110,0b0000001,fun _ _ _ => rfl,rfl⟩,⟨0b111,0b0000001,fun _ _ _ => rfl,rfl⟩,
    by simp⟩

def ImmediateForm (name : String) (encoder : Word → Word → Word → Word) : Prop :=
  ∃ f3 : BitVec 3,
    (∀ rd rs1 imm, encoder rd rs1 imm = encodeIType (BitVec.setWidth 32 0b0010011#7) rd (f3.setWidth 32) rs1 imm) ∧
    (∀ f7, iTypeMnemonic (f3.setWidth 8) f7 = some name) ∧ ¬ (f3.setWidth 8 = (0b001 : BitVec 8) ∨ f3.setWidth 8 = (0b101 : BitVec 8))

theorem immediateForms : ∀ entry ∈ immediateEncoders, ImmediateForm entry.1 entry.2 := by
  simp only [immediateEncoders,List.forall_mem_cons]
  exact ⟨⟨0b000,fun _ _ _ => rfl,fun _ => rfl,by decide⟩,⟨0b111,fun _ _ _ => rfl,fun _ => rfl,by decide⟩,
    ⟨0b110,fun _ _ _ => rfl,fun _ => rfl,by decide⟩,⟨0b100,fun _ _ _ => rfl,fun _ => rfl,by decide⟩,
    ⟨0b010,fun _ _ _ => rfl,fun _ => rfl,by decide⟩,⟨0b011,fun _ _ _ => rfl,fun _ => rfl,by decide⟩,by simp⟩

def ShiftForm (name : String) (encoder : Word → Word → Word → Word) : Prop :=
  ∃ (f3 : BitVec 3) (f7 : BitVec 7),
    (∀ rd rs1 shamt, encoder rd rs1 shamt =
      encodeIType (BitVec.setWidth 32 0b0010011#7) rd (f3.setWidth 32) rs1 (f7.setWidth 32 <<< 5 ||| shamt)) ∧
    iTypeMnemonic (f3.setWidth 8) (f7.setWidth 32) = some name ∧
    (f3.setWidth 8 = (0b001 : BitVec 8) ∨ f3.setWidth 8 = (0b101 : BitVec 8))

theorem shiftForms : ∀ entry ∈ shiftEncoders, ShiftForm entry.1 entry.2 := by
  have plain (shamt : Word) : (0#7).setWidth 32 <<< 5 ||| shamt = shamt := by simp
  have arithmetic (shamt : Word) : (0b0100000#7).setWidth 32 <<< 5 ||| shamt = shamt ||| 0x400#32 := BitVec.or_comm _ _
  simp only [shiftEncoders,List.forall_mem_cons]
  refine ⟨⟨0b001,0b0000000,?_,rfl,by decide⟩,⟨0b101,0b0000000,?_,rfl,by decide⟩,
    ⟨0b101,0b0100000,?_,rfl,by decide⟩,by simp⟩
  · intro rd rs1 shamt
    exact congrArg (encodeIType _ rd _ rs1) (plain shamt).symm
  · intro rd rs1 shamt
    exact congrArg (encodeIType _ rd _ rs1) (plain shamt).symm
  · intro rd rs1 shamt
    exact congrArg (encodeIType _ rd _ rs1) (arithmetic shamt).symm

def LoadForm (name : String) (encoder : Word → Word → Word → Word) : Prop :=
  ∃ f3 : BitVec 3,
    (∀ rd rs1 imm, encoder rd rs1 imm = encodeIType (BitVec.setWidth 32 0b0000011#7) rd (f3.setWidth 32) rs1 imm) ∧
    loadMnemonic (f3.setWidth 8) = some name

theorem loadForms : ∀ entry ∈ loadEncoders, LoadForm entry.1 entry.2 := by
  simp only [loadEncoders,List.forall_mem_cons]
  exact ⟨⟨0b010,fun _ _ _ => rfl,rfl⟩,⟨0b001,fun _ _ _ => rfl,rfl⟩,⟨0b000,fun _ _ _ => rfl,rfl⟩,
    ⟨0b101,fun _ _ _ => rfl,rfl⟩,⟨0b100,fun _ _ _ => rfl,rfl⟩,by simp⟩

def StoreForm (name : String) (encoder : Word → Word → Word → Word) : Prop :=
  ∃ f3 : BitVec 3,
    (∀ rs1 rs2 imm, encoder rs1 rs2 imm = encodeSType (BitVec.setWidth 32 0b0100011#7) (f3.setWidth 32) rs1 rs2 imm) ∧
    storeMnemonic (f3.setWidth 8) = some name

theorem storeForms : ∀ entry ∈ storeEncoders, StoreForm entry.1 entry.2 := by
  simp only [storeEncoders,List.forall_mem_cons]
  exact ⟨⟨0b010,fun _ _ _ => rfl,rfl⟩,⟨0b001,fun _ _ _ => rfl,rfl⟩,⟨0b000,fun _ _ _ => rfl,rfl⟩,by simp⟩

def BranchForm (name : String) (encoder : Word → Word → Word → Word) : Prop :=
  ∃ f3 : BitVec 3,
    (∀ rs1 rs2 imm, encoder rs1 rs2 imm = encodeBType (BitVec.setWidth 32 0b1100011#7) (f3.setWidth 32) rs1 rs2 imm) ∧
    branchMnemonic (f3.setWidth 8) = some name

theorem branchForms : ∀ entry ∈ branchEncoders, BranchForm entry.1 entry.2 := by
  simp only [branchEncoders,List.forall_mem_cons]
  exact ⟨⟨0b000,fun _ _ _ => rfl,rfl⟩,⟨0b001,fun _ _ _ => rfl,rfl⟩,⟨0b100,fun _ _ _ => rfl,rfl⟩,
    ⟨0b101,fun _ _ _ => rfl,rfl⟩,⟨0b110,fun _ _ _ => rfl,rfl⟩,⟨0b111,fun _ _ _ => rfl,rfl⟩,by simp⟩

def CsrForm (immediate : Bool) (name : String) (encoder : Word → Word → Word → Word) : Prop :=
  ∃ f3 : BitVec 3,
    (∀ rd rs1 csr, encoder rd rs1 csr = encodeIType (BitVec.setWidth 32 0b1110011#7) rd (f3.setWidth 32) rs1 csr) ∧
    csrMnemonic (f3.setWidth 8) = some name ∧ f3.setWidth 8 ≠ (0b000 : BitVec 8) ∧
    decide (f3.setWidth 8 &&& 0b100#8 ≠ 0) = immediate

theorem csrForms : ∀ entry ∈ csrEncoders, CsrForm false entry.1 entry.2 := by
  simp only [csrEncoders,List.forall_mem_cons]
  exact ⟨⟨0b001,fun _ _ _ => rfl,rfl,by decide,rfl⟩,⟨0b010,fun _ _ _ => rfl,rfl,by decide,rfl⟩,
    ⟨0b011,fun _ _ _ => rfl,rfl,by decide,rfl⟩,by simp⟩

theorem csrImmediateForms : ∀ entry ∈ csrImmediateEncoders, CsrForm true entry.1 entry.2 := by
  simp only [csrImmediateEncoders,List.forall_mem_cons]
  exact ⟨⟨0b101,fun _ _ _ => rfl,rfl,by decide,rfl⟩,⟨0b110,fun _ _ _ => rfl,rfl,by decide,rfl⟩,
    ⟨0b111,fun _ _ _ => rfl,rfl,by decide,rfl⟩,by simp⟩

def AtomicForm (name : String) (encoder : Word → Word → Word → Word) : Prop :=
  ∃ (funct5 : BitVec 5) (rl : Bool) (mnemonic : String),
    (∀ rd rs1 rs2, encoder rd rs1 rs2 = encodeAtomic (funct5.setWidth 32) false rl rd rs1 rs2) ∧
    atomicMnemonic (funct5.setWidth 32) = some mnemonic ∧ funct5.setWidth 32 ≠ 0b00010#32 ∧
    mnemonic ++ ordering 0 ((BitVec.ofBool rl).setWidth 32) = name

theorem atomicForms : ∀ entry ∈ atomicEncoders, AtomicForm entry.1 entry.2 := by
  simp only [atomicEncoders,List.forall_mem_cons]
  exact ⟨⟨0b00011,false,_,fun _ _ _ => rfl,rfl,by decide,rfl⟩,⟨0b00011,true,_,fun _ _ _ => rfl,rfl,by decide,rfl⟩,
    ⟨0b00001,false,_,fun _ _ _ => rfl,rfl,by decide,rfl⟩,⟨0b00000,false,_,fun _ _ _ => rfl,rfl,by decide,rfl⟩,
    ⟨0b00100,false,_,fun _ _ _ => rfl,rfl,by decide,rfl⟩,⟨0b01100,false,_,fun _ _ _ => rfl,rfl,by decide,rfl⟩,
    ⟨0b01000,false,_,fun _ _ _ => rfl,rfl,by decide,rfl⟩,⟨0b10000,false,_,fun _ _ _ => rfl,rfl,by decide,rfl⟩,
    ⟨0b10100,false,_,fun _ _ _ => rfl,rfl,by decide,rfl⟩,⟨0b11000,false,_,fun _ _ _ => rfl,rfl,by decide,rfl⟩,
    ⟨0b11100,false,_,fun _ _ _ => rfl,rfl,by decide,rfl⟩,by simp⟩

section texts
variable (v1 v2 vd : Word) {name : String} {encoder : Word → Word → Word → Word} {rd rs1 rs2 imm : Word}

theorem registerText (form : RegisterForm name encoder) (hrd : isRegister rd) (hrs1 : isRegister rs1) (hrs2 : isRegister rs2) :
    disassembleWithAllValues (encoder rd rs1 rs2) v1 v2 vd =
      name ++ " " ++ shown rd vd ++ ", " ++ shown rs1 v1 ++ ", " ++ shown rs2 v2 := by
  obtain ⟨f3,f7,encodes,known⟩ := form
  obtain ⟨d,rfl⟩ := registerBits hrd
  obtain ⟨a,rfl⟩ := registerBits hrs1
  obtain ⟨b,rfl⟩ := registerBits hrs2
  rw [encodes,rTypeShown v1 v2 vd (rTypeFields 0b0110011#7 d a b f3 f7)]
  simp only [disassembleRType,known,shownBits]

theorem immediateText (form : ImmediateForm name encoder) (hrd : isRegister rd) (hrs1 : isRegister rs1)
    (himm : isImmediate 11 imm) :
    disassembleWithAllValues (encoder rd rs1 imm) v1 v2 vd =
      name ++ " " ++ shown rd vd ++ ", " ++ shown rs1 v1 ++ ", " ++ toString imm.toInt := by
  obtain ⟨f3,encodes,known,plain⟩ := form
  obtain ⟨d,rfl⟩ := registerBits hrd
  obtain ⟨a,rfl⟩ := registerBits hrs1
  have word := iTypeFields 0b0010011#7 d a f3 imm
  obtain ⟨_,_,_,_,field⟩ := iTypeSlices _ d a f3 _ _ word
  rw [encodes,aluShown v1 v2 vd word]
  simp only [disassembleITypeAlu,known,if_neg plain,immI,field,immediateBits (by decide) himm,shownBits]

theorem shiftText (form : ShiftForm name encoder) (hrd : isRegister rd) (hrs1 : isRegister rs1) (small : imm.toNat < 32) :
    disassembleWithAllValues (encoder rd rs1 imm) v1 v2 vd =
      name ++ " " ++ shown rd vd ++ ", " ++ shown rs1 v1 ++ ", " ++ toString imm.toNat := by
  obtain ⟨f3,f7,encodes,known,shift⟩ := form
  obtain ⟨d,rfl⟩ := registerBits hrd
  obtain ⟨a,rfl⟩ := registerBits hrs1
  obtain ⟨b,rfl⟩ := registerBits small
  have word := iTypeFields 0b0010011#7 d a f3 (f7.setWidth 32 <<< 5 ||| b.setWidth 32)
  obtain ⟨_,_,_,_,field⟩ := iTypeSlices _ d a f3 _ _ word
  rw [encodes,aluShown v1 v2 vd word]
  generalize encodeIType _ _ _ _ _ = w at field ⊢
  have whole : w.extractLsb' 20 12 = f7 ++ b := by
    rw [field,← BitVec.setWidth_append_eq_shiftLeft_setWidth_or,BitVec.extractLsb'_setWidth_of_le (by decide)]
    exact BitVec.extractLsb'_eq_self
  have shamt : w >>> 20 &&& 0x1F#32 = b.setWidth 32 := by
    have slice : (w.extractLsb' 20 12).extractLsb' 0 5 = w.extractLsb' 20 5 := sliceSlice w 20 (by decide)
    rw [whole] at slice
    exact (maskField w 20 5).trans (congrArg _ (slice.symm.trans BitVec.extractLsb'_append_eq_right))
  have high : w >>> 25 &&& 0x7F#32 = f7.setWidth 32 := by
    have slice : (w.extractLsb' 20 12).extractLsb' 5 7 = w.extractLsb' 25 7 := sliceSlice w 20 (by decide)
    rw [whole] at slice
    exact (maskField w 25 7).trans (congrArg _ (slice.symm.trans BitVec.extractLsb'_append_eq_left))
  simp only [disassembleITypeAlu,high,known,if_pos shift,shamt,shownBits]

theorem loadText (form : LoadForm name encoder) (hrd : isRegister rd) (hrs1 : isRegister rs1) (himm : isImmediate 11 imm) :
    disassembleWithAllValues (encoder rd rs1 imm) v1 v2 vd =
      name ++ " " ++ shown rd vd ++ ", " ++ toString imm.toInt ++ "(" ++ shown rs1 v1 ++ ")" := by
  obtain ⟨f3,encodes,known⟩ := form
  obtain ⟨d,rfl⟩ := registerBits hrd
  obtain ⟨a,rfl⟩ := registerBits hrs1
  rw [encodes,loadShown v1 v2 vd (iTypeFields 0b0000011#7 d a f3 imm)]
  simp only [disassembleLoad,known,immediateBits (by decide) himm,shownBits]

theorem jalrText (hrd : isRegister rd) (hrs1 : isRegister rs1) (himm : isImmediate 11 imm) :
    disassembleWithAllValues (jalr rd rs1 imm) v1 v2 vd =
      "jalr " ++ shown rd vd ++ ", " ++ toString imm.toInt ++ "(" ++ shown rs1 v1 ++ ")" := by
  obtain ⟨d,rfl⟩ := registerBits hrd
  obtain ⟨a,rfl⟩ := registerBits hrs1
  have text := jalrShown v1 v2 vd (iTypeFields 0b1100111#7 d a 0b000#3 imm)
  rw [immediateBits (by decide) himm,shownBits,shownBits] at text
  exact text

theorem storeText (form : StoreForm name encoder) (hrs1 : isRegister rs1) (hrs2 : isRegister rs2) (himm : isImmediate 11 imm) :
    disassembleWithAllValues (encoder rs1 rs2 imm) v1 v2 vd =
      name ++ " " ++ shown rs2 v2 ++ ", " ++ toString imm.toInt ++ "(" ++ shown rs1 v1 ++ ")" := by
  obtain ⟨f3,encodes,known⟩ := form
  obtain ⟨a,rfl⟩ := registerBits hrs1
  obtain ⟨b,rfl⟩ := registerBits hrs2
  have whole : imm.extractLsb' 5 7 ++ imm.extractLsb' 0 5 = imm.extractLsb' 0 (11 + 1) :=
    BitVec.extractLsb'_append_extractLsb'_eq_extractLsb' rfl
  rw [encodes,storeShown v1 v2 vd (sTypeFields 0b0100011#7 a b f3 imm),whole]
  simp only [disassembleStore,known,immediateBits (by decide) himm,shownBits]

theorem evenBits (imm : Word) (even : imm.toNat % 2 = 0) : 0#1 = imm.extractLsb' 0 1 := by
  apply BitVec.eq_of_toNat_eq
  rw [BitVec.extractLsb'_toNat]
  exact even.symm

theorem branchText (form : BranchForm name encoder) (hrs1 : isRegister rs1) (hrs2 : isRegister rs2) (himm : isOffset 12 imm) :
    disassembleWithAllValues (encoder rs1 rs2 imm) v1 v2 vd =
      name ++ " " ++ shown rs1 v1 ++ ", " ++ shown rs2 v2 ++ ", " ++ toString imm.toInt := by
  obtain ⟨f3,encodes,known⟩ := form
  obtain ⟨a,rfl⟩ := registerBits hrs1
  obtain ⟨b,rfl⟩ := registerBits hrs2
  have whole : imm.extractLsb' 12 1 ++ (imm.extractLsb' 11 1 ++ (imm.extractLsb' 5 6 ++ (imm.extractLsb' 1 4 ++ 0#1))) =
      imm.extractLsb' 0 (12 + 1) := by
    rw [evenBits imm himm.2,BitVec.extractLsb'_append_extractLsb'_eq_extractLsb' (show 1 = 0 + 1 from rfl),
      BitVec.extractLsb'_append_extractLsb'_eq_extractLsb' (show 5 = 0 + (4 + 1) from rfl),
      BitVec.extractLsb'_append_extractLsb'_eq_extractLsb' (show 11 = 0 + (6 + (4 + 1)) from rfl)]
    exact BitVec.extractLsb'_append_extractLsb'_eq_extractLsb' rfl
  rw [encodes,branchShown v1 v2 vd (bTypeFields 0b1100011#7 a b f3 imm),whole]
  simp only [disassembleBranch,known,immediateBits (by decide) himm.1,shownBits]

theorem jalText (hrd : isRegister rd) (himm : isOffset 20 imm) :
    disassembleWithAllValues (jal rd imm) v1 v2 vd = "jal " ++ shown rd vd ++ ", " ++ toString imm.toInt := by
  obtain ⟨d,rfl⟩ := registerBits hrd
  have whole : imm.extractLsb' 20 1 ++ (imm.extractLsb' 12 8 ++ (imm.extractLsb' 11 1 ++ (imm.extractLsb' 1 10 ++ 0#1))) =
      imm.extractLsb' 0 (20 + 1) := by
    rw [evenBits imm himm.2,BitVec.extractLsb'_append_extractLsb'_eq_extractLsb' (show 1 = 0 + 1 from rfl),
      BitVec.extractLsb'_append_extractLsb'_eq_extractLsb' (show 11 = 0 + (10 + 1) from rfl),
      BitVec.extractLsb'_append_extractLsb'_eq_extractLsb' (show 12 = 0 + (1 + (10 + 1)) from rfl)]
    exact BitVec.extractLsb'_append_extractLsb'_eq_extractLsb' rfl
  rw [jalShown v1 v2 vd (jalFields d imm),whole,immediateBits (by decide) himm.1,shownBits]

theorem csrText {immediate : Bool} (form : CsrForm immediate name encoder) (hrd : isRegister rd) (hrs1 : isRegister rs1)
    (small : imm.toNat < 4096) :
    disassembleWithAllValues (encoder rd rs1 imm) v1 v2 vd =
      name ++ " " ++ shown rd vd ++ ", 0x" ++ hex imm ++ ", " ++ (if immediate then toString rs1.toNat else shown rs1 v1) := by
  obtain ⟨f3,encodes,known,operand,kind⟩ := form
  obtain ⟨d,rfl⟩ := registerBits hrd
  obtain ⟨a,rfl⟩ := registerBits hrs1
  have word := iTypeFields 0b1110011#7 d a f3 imm
  obtain ⟨_,_,_,_,field⟩ := iTypeSlices _ d a f3 _ _ word
  rw [encodes,systemShown v1 v2 vd word]
  generalize encodeIType _ _ _ _ _ = w at field ⊢
  have csr : w >>> 20 &&& 0xFFF#32 = imm := by
    rw [← narrow (m := 12) small,← field]
    exact maskField w 20 12
  have same : (a.setWidth 8).toNat = (a.setWidth 32).toNat := by
    have inside := a.isLt
    rw [BitVec.toNat_setWidth,BitVec.toNat_setWidth]
    omega
  subst kind
  simp only [disassembleSystem,known,if_neg operand,csr,shownBits,decide_eq_true_eq,same]
  split <;> rfl

theorem upperText {encode : Word → Word → Word} (entry : (name,encode) ∈ upperEncoders) (hrd : isRegister rd) :
    disassembleWithAllValues (encode rd imm) v1 v2 vd = name ++ " " ++ shown rd vd ++ ", 0x" ++ hex (imm >>> 12) := by
  obtain ⟨d,rfl⟩ := registerBits hrd
  simp only [upperEncoders,List.mem_cons,Prod.mk.injEq,List.not_mem_nil,or_false] at entry
  rcases entry with ⟨rfl,rfl⟩ | ⟨rfl,rfl⟩
  · have text := luiShown v1 v2 vd (uTypeFields 0b0110111#7 d imm)
    rw [shownBits,← topField imm 12 20 rfl] at text
    exact text
  · have text := auipcShown v1 v2 vd (uTypeFields 0b0010111#7 d imm)
    rw [shownBits,← topField imm 12 20 rfl] at text
    exact text

theorem reservedText {encode : Word → Word → Word} (entry : (name,encode) ∈ reservedEncoders)
    (hrd : isRegister rd) (hrs1 : isRegister rs1) :
    disassembleWithAllValues (encode rd rs1) v1 v2 vd = name ++ " " ++ shown rd vd ++ ", (" ++ shown rs1 v1 ++ ")" := by
  obtain ⟨d,rfl⟩ := registerBits hrd
  obtain ⟨a,rfl⟩ := registerBits hrs1
  have text (aq : Bool) := atomicShown v1 v2 vd (atomicFields d a 0 0b00010#5 aq false)
  simp only [shownBits] at text
  simp only [reservedEncoders,List.mem_cons,Prod.mk.injEq,List.not_mem_nil,or_false] at entry
  rcases entry with ⟨rfl,rfl⟩ | ⟨rfl,rfl⟩
  · exact text false
  · exact text true

theorem atomicText (form : AtomicForm name encoder) (hrd : isRegister rd) (hrs1 : isRegister rs1) (hrs2 : isRegister rs2) :
    disassembleWithAllValues (encoder rd rs1 rs2) v1 v2 vd =
      name ++ " " ++ shown rd vd ++ ", " ++ shown rs2 v2 ++ ", (" ++ shown rs1 v1 ++ ")" := by
  obtain ⟨funct5,rl,mnemonic,encodes,known,other,rfl⟩ := form
  obtain ⟨d,rfl⟩ := registerBits hrd
  obtain ⟨a,rfl⟩ := registerBits hrs1
  obtain ⟨b,rfl⟩ := registerBits hrs2
  rw [encodes,atomicShown v1 v2 vd (atomicFields d a b funct5 false rl)]
  simp only [known,if_neg other,shownBits]
  rfl

theorem plainText {word : Word} (entry : (name,word) ∈ plainEncoders) : disassembleWithAllValues word v1 v2 vd = name := by
  simp only [plainEncoders,List.mem_cons,Prod.mk.injEq,List.not_mem_nil,or_false] at entry
  rcases entry with ⟨rfl,rfl⟩ | ⟨rfl,rfl⟩ | ⟨rfl,rfl⟩ <;> rfl
end texts

theorem underOpcode (x y : Word) {k : Nat} (above : 7 ≤ k) : (x <<< k ||| y) &&& 0x7F#32 = y &&& 0x7F#32 := maskBelow x y above

section opcodes
variable (opcode a b c d e f : Word)

theorem iOpcode : encodeIType opcode a b c d &&& 0x7F#32 = opcode &&& 0x7F#32 := by
  unfold encodeIType
  simp only [BitVec.or_assoc]
  rw [underOpcode _ _ (by decide),underOpcode _ _ (by decide),underOpcode _ _ (by decide),
    underOpcode _ _ (by decide)]

theorem sOpcode : encodeSType opcode a b c d &&& 0x7F#32 = opcode &&& 0x7F#32 := by
  unfold encodeSType
  simp only [BitVec.or_assoc]
  rw [underOpcode _ _ (by decide),underOpcode _ _ (by decide),underOpcode _ _ (by decide),
    underOpcode _ _ (by decide),underOpcode _ _ (by decide)]

theorem fpROpcode : encodeFpRType opcode a b c d e &&& 0x7F#32 = opcode &&& 0x7F#32 := by
  unfold encodeFpRType
  simp only [BitVec.or_assoc]
  rw [underOpcode _ _ (by decide),underOpcode _ _ (by decide),underOpcode _ _ (by decide),
    underOpcode _ _ (by decide),underOpcode _ _ (by decide)]

theorem fpR4Opcode : encodeFpR4Type opcode a b c d e f &&& 0x7F#32 = opcode &&& 0x7F#32 := by
  unfold encodeFpR4Type
  simp only [BitVec.or_assoc]
  rw [underOpcode _ _ (by decide),underOpcode _ _ (by decide),underOpcode _ _ (by decide),
    underOpcode _ _ (by decide),underOpcode _ _ (by decide),underOpcode _ _ (by decide)]

end opcodes

def FloatForm (name : String) (encoder : Word → Word → Word → Word → Word) : Prop :=
  ∃ opcode ∈ [0x07#32,0x27#32,0x43#32,0x47#32,0x4B#32,0x4F#32,0x53#32], hex2 opcode = name ∧
    ∀ a b c d, encoder a b c d &&& 0x7F#32 = opcode

theorem floatForms : ∀ entry ∈ floatEncoders, FloatForm entry.1 entry.2 := by
  simp only [floatEncoders,List.forall_mem_cons]
  exact ⟨⟨0x07,by decide,rfl,fun _ _ _ _ => iOpcode _ _ _ _ _⟩,⟨0x27,by decide,rfl,fun _ _ _ _ => sOpcode _ _ _ _ _⟩,
    ⟨0x43,by decide,rfl,fun _ _ _ _ => fpR4Opcode _ _ _ _ _ _ _⟩,
    ⟨0x47,by decide,rfl,fun _ _ _ _ => fpR4Opcode _ _ _ _ _ _ _⟩,
    ⟨0x4B,by decide,rfl,fun _ _ _ _ => fpR4Opcode _ _ _ _ _ _ _⟩,
    ⟨0x4F,by decide,rfl,fun _ _ _ _ => fpR4Opcode _ _ _ _ _ _ _⟩,
    ⟨0x53,by decide,rfl,fun _ _ _ _ => fpROpcode _ _ _ _ _ _⟩,⟨0x53,by decide,rfl,fun _ _ _ _ => fpROpcode _ _ _ _ _ _⟩,
    ⟨0x53,by decide,rfl,fun _ _ _ _ => fpROpcode _ _ _ _ _ _⟩,⟨0x53,by decide,rfl,fun _ _ _ _ => fpROpcode _ _ _ _ _ _⟩,
    ⟨0x53,by decide,rfl,fun _ _ _ _ => fpROpcode _ _ _ _ _ _⟩,⟨0x53,by decide,rfl,fun _ _ _ _ => fpROpcode _ _ _ _ _ _⟩,
    ⟨0x53,by decide,rfl,fun _ _ _ _ => fpROpcode _ _ _ _ _ _⟩,⟨0x53,by decide,rfl,fun _ _ _ _ => fpROpcode _ _ _ _ _ _⟩,
    ⟨0x53,by decide,rfl,fun _ _ _ _ => fpROpcode _ _ _ _ _ _⟩,⟨0x53,by decide,rfl,fun _ _ _ _ => fpROpcode _ _ _ _ _ _⟩,
    ⟨0x53,by decide,rfl,fun _ _ _ _ => fpROpcode _ _ _ _ _ _⟩,⟨0x53,by decide,rfl,fun _ _ _ _ => fpROpcode _ _ _ _ _ _⟩,
    ⟨0x53,by decide,rfl,fun _ _ _ _ => fpROpcode _ _ _ _ _ _⟩,⟨0x53,by decide,rfl,fun _ _ _ _ => fpROpcode _ _ _ _ _ _⟩,
    ⟨0x53,by decide,rfl,fun _ _ _ _ => fpROpcode _ _ _ _ _ _⟩,⟨0x53,by decide,rfl,fun _ _ _ _ => fpROpcode _ _ _ _ _ _⟩,
    ⟨0x53,by decide,rfl,fun _ _ _ _ => fpROpcode _ _ _ _ _ _⟩,⟨0x53,by decide,rfl,fun _ _ _ _ => fpROpcode _ _ _ _ _ _⟩,
    ⟨0x53,by decide,rfl,fun _ _ _ _ => fpROpcode _ _ _ _ _ _⟩,⟨0x53,by decide,rfl,fun _ _ _ _ => fpROpcode _ _ _ _ _ _⟩,
    by simp⟩

/- The disassembler prints each word of an encoder as its text; the floating-point words are outside its table. -/
theorem textPrinted {v1 v2 vd word : Word} {text : String} (encoded : Text v1 v2 vd word text) :
    disassembleWithAllValues word v1 v2 vd = text := by
  cases encoded with
  | register entry hrd hrs1 hrs2 => exact registerText v1 v2 vd (registerForms _ entry) hrd hrs1 hrs2
  | immediate entry hrd hrs1 himm => exact immediateText v1 v2 vd (immediateForms _ entry) hrd hrs1 himm
  | shift entry hrd hrs1 hshamt => exact shiftText v1 v2 vd (shiftForms _ entry) hrd hrs1 hshamt
  | upper entry hrd => exact upperText v1 v2 vd entry hrd
  | branch entry hrs1 hrs2 himm => exact branchText v1 v2 vd (branchForms _ entry) hrs1 hrs2 himm
  | jal hrd himm => exact jalText v1 v2 vd hrd himm
  | jalr hrd hrs1 himm => exact jalrText v1 v2 vd hrd hrs1 himm
  | load entry hrd hrs1 himm => exact loadText v1 v2 vd (loadForms _ entry) hrd hrs1 himm
  | store entry hrs1 hrs2 himm => exact storeText v1 v2 vd (storeForms _ entry) hrs1 hrs2 himm
  | csr entry hrd hrs1 hcsr => exact csrText v1 v2 vd (csrForms _ entry) hrd hrs1 hcsr
  | csrImmediate entry hrd hzimm hcsr => exact csrText v1 v2 vd (csrImmediateForms _ entry) hrd hzimm hcsr
  | reserved entry hrd hrs1 => exact reservedText v1 v2 vd entry hrd hrs1
  | atomic entry hrd hrs1 hrs2 => exact atomicText v1 v2 vd (atomicForms _ entry) hrd hrs1 hrs2
  | plain entry => exact plainText v1 v2 vd entry
  | float entry a b c d =>
    obtain ⟨opcode,unknown,rfl,low⟩ := floatForms _ entry
    exact unknownShown v1 v2 vd (low a b c d) unknown

/- A negative offset and a register's number come back. -/
theorem textPrintedLoad : disassembleWithAllValues (lw 10 2 (-4)) 5 0 7 = "lw x10=0x7, -4(x2=0x5)" :=
  textPrinted (.load (by simp [loadEncoders] : ("lw",lw) ∈ loadEncoders) (by unfold isRegister; decide)
    (by unfold isRegister; decide) (by unfold isImmediate; decide))

/- The single-precision encoders have no mnemonic. -/
theorem floatUnnamed : disassemble (faddS 1 2 3) = "unknown opcode 0x53" ∧
    ∀ operands, disassemble (faddS 1 2 3) ≠ "fadd.s" ++ operands := by
  have printed : disassemble (faddS 1 2 3) = "unknown opcode 0x53" := by decide
  refine ⟨printed,?_⟩
  intro operands same
  rw [printed] at same
  have letters := congrArg String.toList same
  simp at letters

end RiscvSoc.Disasm
