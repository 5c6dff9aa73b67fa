/-! `decoder.sv`: the fields and the control signals of an instruction word. -/
namespace RiscvSoc.Decoder

def opImm : BitVec 7 := 0b0010011
def opReg : BitVec 7 := 0b0110011
def opLoad : BitVec 7 := 0b0000011
def opLoadFp : BitVec 7 := 0b0000111
def opStore : BitVec 7 := 0b0100011
def opStoreFp : BitVec 7 := 0b0100111
def opBranch : BitVec 7 := 0b1100011
def opLui : BitVec 7 := 0b0110111
def opAuipc : BitVec 7 := 0b0010111
def opJal : BitVec 7 := 0b1101111
def opJalr : BitVec 7 := 0b1100111
def opFence : BitVec 7 := 0b0001111
def opSystem : BitVec 7 := 0b1110011
def opAmo : BitVec 7 := 0b0101111
def opFp : BitVec 7 := 0b1010011
def opFmadd : BitVec 7 := 0b1000011
def opFmsub : BitVec 7 := 0b1000111
def opFnmsub : BitVec 7 := 0b1001011
def opFnmadd : BitVec 7 := 0b1001111

def aluAdd : BitVec 5 := 0b00000
def aluSub : BitVec 5 := 0b00001
def aluAnd : BitVec 5 := 0b00010
def aluOr : BitVec 5 := 0b00011
def aluXor : BitVec 5 := 0b00100
def aluSll : BitVec 5 := 0b00101
def aluSrl : BitVec 5 := 0b00110
def aluSra : BitVec 5 := 0b00111
def aluSlt : BitVec 5 := 0b01000
def aluSltu : BitVec 5 := 0b01001
def aluMul : BitVec 5 := 0b01010
def aluMin : BitVec 5 := 0b10010
def aluMax : BitVec 5 := 0b10011
def aluMinu : BitVec 5 := 0b10100
def aluMaxu : BitVec 5 := 0b10101

def fpuAdd : BitVec 5 := 0b00000
def fpuSub : BitVec 5 := 0b00001
def fpuMul : BitVec 5 := 0b00010
def fpuDiv : BitVec 5 := 0b00011
def fpuSqrt : BitVec 5 := 0b00100
def fpuMin : BitVec 5 := 0b00101
def fpuMax : BitVec 5 := 0b00110
def fpuMadd : BitVec 5 := 0b00111
def fpuMsub : BitVec 5 := 0b01000
def fpuNmsub : BitVec 5 := 0b01001
def fpuNmadd : BitVec 5 := 0b01010
def fpuSgnj : BitVec 5 := 0b01011
def fpuSgnjn : BitVec 5 := 0b01100
def fpuSgnjx : BitVec 5 := 0b01101
def fpuCvtws : BitVec 5 := 0b01110
def fpuCvtwus : BitVec 5 := 0b01111
def fpuCvtsw : BitVec 5 := 0b10000
def fpuCvtswu : BitVec 5 := 0b10001
def fpuFeq : BitVec 5 := 0b10010
def fpuFlt : BitVec 5 := 0b10011
def fpuFle : BitVec 5 := 0b10100
def fpuFclass : BitVec 5 := 0b10101
def fpuMvxw : BitVec 5 := 0b10110
def fpuMvwx : BitVec 5 := 0b10111

structure Control where
  aluOp : BitVec 5
  aluSrc : Bool
  regWrite : Bool
  memWrite : Bool
  memRead : Bool
  memToReg : Bool
  branch : Bool
  jump : Bool
  isEcall : Bool
  isEbreak : Bool
  isMret : Bool
  isWfi : Bool
  isFence : Bool
  isCsr : Bool
  isAuipc : Bool
  isLr : Bool
  isSc : Bool
  isAmo : Bool
  fpuOp : BitVec 5
  fpRegWrite : Bool
  fpToInt : Bool
  intToFp : Bool
  isFpLoad : Bool
  isFpStore : Bool
  instructionValid : Bool
  deriving DecidableEq, Repr, Inhabited

def Control.defaults : Control where
  aluOp := aluAdd
  aluSrc := false
  regWrite := false
  memWrite := false
  memRead := false
  memToReg := false
  branch := false
  jump := false
  isEcall := false
  isEbreak := false
  isMret := false
  isWfi := false
  isFence := false
  isCsr := false
  isAuipc := false
  isLr := false
  isSc := false
  isAmo := false
  fpuOp := fpuAdd
  fpRegWrite := false
  fpToInt := false
  intToFp := false
  isFpLoad := false
  isFpStore := false
  instructionValid := true

section Fields
variable (instruction : BitVec 32)

def opcode : BitVec 7 := instruction.extractLsb' 0 7
def rd : BitVec 5 := instruction.extractLsb' 7 5
def rs1 : BitVec 5 := instruction.extractLsb' 15 5
def rs2 : BitVec 5 := instruction.extractLsb' 20 5
def funct3 : BitVec 3 := instruction.extractLsb' 12 3
def funct5 : BitVec 5 := instruction.extractLsb' 27 5
def funct7 : BitVec 7 := instruction.extractLsb' 25 7
def sign : BitVec 1 := instruction.extractLsb' 31 1
def immI : BitVec 32 := (sign instruction).replicate 20 ++ instruction.extractLsb' 20 12
def immS : BitVec 32 := (sign instruction).replicate 20 ++ instruction.extractLsb' 25 7 ++ instruction.extractLsb' 7 5
def immB : BitVec 32 := (sign instruction).replicate 19 ++ sign instruction ++ instruction.extractLsb' 7 1 ++
  instruction.extractLsb' 25 6 ++ instruction.extractLsb' 8 4 ++ 0#1
def immU : BitVec 32 := instruction.extractLsb' 12 20 ++ 0#12
def immJ : BitVec 32 := (sign instruction).replicate 11 ++ sign instruction ++ instruction.extractLsb' 12 8 ++
  instruction.extractLsb' 20 1 ++ instruction.extractLsb' 21 10 ++ 0#1

/- The base operations; SUB and SRA are told apart by bit 5 of `funct7`. -/
def baseOp (subtracts : Bool) : BitVec 5 :=
  let alternate := (funct7 instruction).getLsbD 5
  if funct3 instruction = 0b000 then if subtracts && alternate then aluSub else aluAdd
  else if funct3 instruction = 0b111 then aluAnd
  else if funct3 instruction = 0b110 then aluOr
  else if funct3 instruction = 0b100 then aluXor
  else if funct3 instruction = 0b001 then aluSll
  else if funct3 instruction = 0b101 then if alternate then aluSra else aluSrl
  else if funct3 instruction = 0b010 then aluSlt
  else aluSltu

def register (enableM : Bool) : Control :=
  if funct7 instruction = 0b0000001 then
    if enableM then {Control.defaults with regWrite := true, aluOp := aluMul + (funct3 instruction).setWidth 5}
    else Control.defaults
  else {Control.defaults with regWrite := true, aluOp := baseOp instruction true}

def system : Control :=
  if funct3 instruction = 0b000 then
    if instruction.extractLsb' 7 13 = 0 then
      let funct12 := instruction.extractLsb' 20 12
      if funct12 = 0x000 then {Control.defaults with isEcall := true}
      else if funct12 = 0x001 then {Control.defaults with isEbreak := true}
      else if funct12 = 0x105 then {Control.defaults with isWfi := true}
      else if funct12 = 0x302 then {Control.defaults with isMret := true}
      else {Control.defaults with instructionValid := false}
    else {Control.defaults with instructionValid := false}
  else {Control.defaults with isCsr := true, regWrite := true}

/- The operation of a read-modify-write; an unknown `funct5` has none. -/
def amoOp : Option (BitVec 5) :=
  if funct5 instruction = 0b00001 then some aluAdd
  else if funct5 instruction = 0b00000 then some aluAdd
  else if funct5 instruction = 0b00100 then some aluXor
  else if funct5 instruction = 0b01100 then some aluAnd
  else if funct5 instruction = 0b01000 then some aluOr
  else if funct5 instruction = 0b10000 then some aluMin
  else if funct5 instruction = 0b10100 then some aluMax
  else if funct5 instruction = 0b11000 then some aluMinu
  else if funct5 instruction = 0b11100 then some aluMaxu
  else none

def atomic : Control :=
  if funct5 instruction = 0b00010 then {Control.defaults with regWrite := true, memRead := true, isLr := true}
  else if funct5 instruction = 0b00011 then {Control.defaults with regWrite := true, isSc := true, memWrite := true}
  else match amoOp instruction with
    | some op =>
      {Control.defaults with regWrite := true, memRead := true, isAmo := true, memWrite := true, aluOp := op}
    | none => Control.defaults

/- A result in the FP registers, or in an integer register. -/
def fpResult (op : BitVec 5) : Control := {Control.defaults with fpRegWrite := true, fpuOp := op}
def intResult (op : BitVec 5) : Control := {Control.defaults with regWrite := true, fpToInt := true, fpuOp := op}

def floating : Control :=
  if funct7 instruction = 0b0000000 then fpResult fpuAdd
  else if funct7 instruction = 0b0000100 then fpResult fpuSub
  else if funct7 instruction = 0b0001000 then fpResult fpuMul
  else if funct7 instruction = 0b0001100 then fpResult fpuDiv
  else if funct7 instruction = 0b0101100 then fpResult fpuSqrt
  else if funct7 instruction = 0b0010000 then
    fpResult (if funct3 instruction = 0b001 then fpuSgnjn else if funct3 instruction = 0b010 then fpuSgnjx else fpuSgnj)
  else if funct7 instruction = 0b0010100 then fpResult (if funct3 instruction = 0b000 then fpuMin else fpuMax)
  else if funct7 instruction = 0b1010000 then
    intResult (if funct3 instruction = 0b000 then fpuFle else if funct3 instruction = 0b001 then fpuFlt else fpuFeq)
  else if funct7 instruction = 0b1100000 then intResult (if rs2 instruction = 0 then fpuCvtws else fpuCvtwus)
  else if funct7 instruction = 0b1101000 then
    {fpResult (if rs2 instruction = 0 then fpuCvtsw else fpuCvtswu) with intToFp := true}
  else if funct7 instruction = 0b1110000 then intResult (if funct3 instruction = 0b000 then fpuMvxw else fpuFclass)
  else if funct7 instruction = 0b1111000 then {fpResult fpuMvwx with intToFp := true}
  else Control.defaults

/- Instructions of a disabled F extension are decoded to nothing. -/
def control (enableM enableF : Bool) : Control :=
  let withF (c : Control) : Control := if enableF then c else Control.defaults
  let op := opcode instruction
  if op = opImm then {Control.defaults with aluSrc := true, regWrite := true, aluOp := baseOp instruction false}
  else if op = opReg then register instruction enableM
  else if op = opLoad then {Control.defaults with aluSrc := true, memRead := true, regWrite := true, memToReg := true}
  else if op = opLoadFp then
    withF {Control.defaults with aluSrc := true, memRead := true, isFpLoad := true, fpRegWrite := true}
  else if op = opStore then {Control.defaults with aluSrc := true, memWrite := true}
  else if op = opStoreFp then withF {Control.defaults with aluSrc := true, memWrite := true, isFpStore := true}
  else if op = opBranch then {Control.defaults with aluOp := aluSub, branch := true}
  else if op = opLui then {Control.defaults with aluSrc := true, regWrite := true}
  else if op = opAuipc then {Control.defaults with aluSrc := true, regWrite := true, isAuipc := true}
  else if op = opJal then {Control.defaults with jump := true, regWrite := true}
  else if op = opJalr then {Control.defaults with jump := true, aluSrc := true, regWrite := true}
  else if op = opFence then {Control.defaults with isFence := true}
  else if op = opSystem then system instruction
  else if op = opAmo then atomic instruction
  else if op = opFp then withF (floating instruction)
  else if op = opFmadd then withF (fpResult fpuMadd)
  else if op = opFmsub then withF (fpResult fpuMsub)
  else if op = opFnmsub then withF (fpResult fpuNmsub)
  else if op = opFnmadd then withF (fpResult fpuNmadd)
  else {Control.defaults with instructionValid := false}

end Fields

structure Regs extends Control where
  opcode : BitVec 7
  rd : BitVec 5
  rs1 : BitVec 5
  rs2 : BitVec 5
  funct3 : BitVec 3
  funct5 : BitVec 5
  immI : BitVec 32
  immS : BitVec 32
  immB : BitVec 32
  immU : BitVec 32
  immJ : BitVec 32
  deriving DecidableEq, Repr, Inhabited

def reset : Regs :=
  {Control.defaults with
    instructionValid := false
    opcode := 0, rd := 0, rs1 := 0, rs2 := 0, funct3 := 0, funct5 := 0, immI := 0, immS := 0, immB := 0, immU := 0, immJ := 0}

def decode (enableM enableF : Bool) (instruction : BitVec 32) : Regs :=
  {control instruction enableM enableF with
    opcode := opcode instruction
    rd := rd instruction
    rs1 := rs1 instruction
    rs2 := rs2 instruction
    funct3 := funct3 instruction
    funct5 := funct5 instruction
    immI := immI instruction
    immS := immS instruction
    immB := immB instruction
    immU := immU instruction
    immJ := immJ instruction}

structure Consistent (op : BitVec 7) (c : Control) : Prop where
  fence : op = opFence → c.isFence = true
  system : op = opSystem → c.instructionValid = true → c.isCsr = false →
    c.isEcall = true ∨ c.isEbreak = true ∨ c.isMret = true ∨ c.isWfi = true
  known : c.instructionValid = true → op ∈ [opReg,opImm,opLui,opAuipc,opJal,opJalr,opFp,opFmadd,opFmsub,opFnmsub,opFnmadd] ∨
    op ∈ [opLoad,opLoadFp,opStore,opStoreFp,opAmo] ∨ op = opBranch ∨ op = opSystem ∨ op = opFence
  early : c.isFence = true ∨ c.isMret = true ∨ c.isWfi = true → op = opFence ∨ op = opSystem ∧ c.isCsr = false
  storeConditional : c.isSc = true → op = opAmo ∧ c.regWrite = true ∧ c.memWrite = true ∧ c.memRead = false ∧
    c.jump = false ∧ c.isLr = false ∧ c.isAmo = false ∧ c.isFpStore = false ∧ c.fpToInt = false
  loadReserved : c.isLr = true → c.memRead = true ∧ c.memWrite = false
  readModifyWrite : c.isAmo = true → c.isSc = false

theorem consistentIf {op : BitVec 7} {p : Prop} [Decidable p] {a b : Control} (yes : p → Consistent op a)
    (no : ¬ p → Consistent op b) : Consistent op (if p then a else b) := by
  split
  · exact yes (by assumption)
  · exact no (by assumption)

structure Plain (c : Control) : Prop where
  isFence : c.isFence = false
  isMret : c.isMret = false
  isWfi : c.isWfi = false
  isSc : c.isSc = false
  isLr : c.isLr = false

theorem plainIf {p : Prop} [Decidable p] {a b : Control} (yes : Plain a) (no : Plain b) : Plain (if p then a else b) := by
  split
  · exact yes
  · exact no

theorem plainConsistent {op : BitVec 7} {c : Control} (other : op ≠ opFence ∧ op ≠ opSystem)
    (known : op ∈ [opReg,opImm,opLui,opAuipc,opJal,opJalr,opFp,opFmadd,opFmsub,opFnmsub,opFnmadd] ∨
      op ∈ [opLoad,opLoadFp,opStore,opStoreFp,opAmo] ∨ op = opBranch ∨ op = opSystem ∨ op = opFence)
    (plain : Plain c) : Consistent op c where
  fence h := absurd h other.1
  system h := absurd h other.2
  known _ := known
  early h := by simp [plain.isFence,plain.isMret,plain.isWfi] at h
  storeConditional h := by simp [plain.isSc] at h
  loadReserved h := by simp [plain.isLr] at h
  readModifyWrite _ := plain.isSc

theorem atomicConsistent (instruction : BitVec 32) : Consistent opAmo (atomic instruction) := by
  refine consistentIf (fun _ => ?_) fun _ => consistentIf (fun _ => ?_) fun _ => ?_
  · constructor <;> simp [Control.defaults,opAmo,opFence,opSystem]
  · constructor <;> simp [Control.defaults,opAmo,opFence,opSystem]
  · have plain (op : Option (BitVec 5)) : Plain (match op with
        | some op =>
          {Control.defaults with regWrite := true, memRead := true, isAmo := true, memWrite := true, aluOp := op}
        | none => Control.defaults) := by
      cases op <;> exact ⟨rfl,rfl,rfl,rfl,rfl⟩
    exact plainConsistent (by decide) (by decide) (plain _)

theorem systemConsistent (instruction : BitVec 32) : Consistent opSystem (system instruction) := by
  have legal {c : Control} (known : c.instructionValid = true → c.isCsr = false →
      c.isEcall = true ∨ c.isEbreak = true ∨ c.isMret = true ∨ c.isWfi = true)
      (early : c.isMret = true ∨ c.isWfi = true → c.isCsr = false)
      (plain : c.isFence = false ∧ c.isSc = false ∧ c.isLr = false) : Consistent opSystem c :=
    ⟨fun h => absurd h (by decide),fun _ => known,fun _ => .inr (.inr (.inr (.inl rfl))),
      fun h => .inr ⟨rfl,early (h.resolve_left (by simp [plain.1]))⟩,fun h => by simp [plain.2.1] at h,
      fun h => by simp [plain.2.2] at h,fun _ => plain.2.1⟩
  simp only [system]
  refine consistentIf (fun _ => consistentIf (fun _ => consistentIf (fun _ => ?_) fun _ => consistentIf (fun _ => ?_)
    fun _ => consistentIf (fun _ => ?_) fun _ => consistentIf (fun _ => ?_) fun _ => ?_) fun _ => ?_) fun _ => ?_
  all_goals exact legal (by simp [Control.defaults]) (by simp [Control.defaults]) (by simp [Control.defaults])

theorem floatingPlain (instruction : BitVec 32) : Plain (floating instruction) := by
  unfold floating
  repeat' refine plainIf ?_ ?_
  all_goals exact ⟨rfl,rfl,rfl,rfl,rfl⟩

theorem registerPlain (instruction : BitVec 32) (enableM : Bool) : Plain (register instruction enableM) := by
  unfold register
  repeat' refine plainIf ?_ ?_
  all_goals exact ⟨rfl,rfl,rfl,rfl,rfl⟩

theorem opcodeConsistent {op : BitVec 7} {k : BitVec 7} (h : op = k) (other : k ≠ opFence ∧ k ≠ opSystem)
    (known : k ∈ [opReg,opImm,opLui,opAuipc,opJal,opJalr,opFp,opFmadd,opFmsub,opFnmsub,opFnmadd] ∨
      k ∈ [opLoad,opLoadFp,opStore,opStoreFp,opAmo] ∨ k = opBranch ∨ k = opSystem ∨ k = opFence) {c : Control}
    (plain : Plain c) : Consistent op c := by
  subst h
  exact plainConsistent other known plain

theorem controlConsistent (instruction : BitVec 32) (enableM enableF : Bool) :
    Consistent (opcode instruction) (control instruction enableM enableF) := by
  have defaults : Plain Control.defaults := ⟨rfl,rfl,rfl,rfl,rfl⟩
  simp only [control]
  refine consistentIf (fun h => opcodeConsistent h (by decide) (by decide) ⟨rfl,rfl,rfl,rfl,rfl⟩) fun _ => ?_
  refine consistentIf (fun h => opcodeConsistent h (by decide) (by decide) (registerPlain _ _)) fun _ => ?_
  refine consistentIf (fun h => opcodeConsistent h (by decide) (by decide) ⟨rfl,rfl,rfl,rfl,rfl⟩) fun _ => ?_
  refine consistentIf (fun h => opcodeConsistent h (by decide) (by decide) (plainIf ⟨rfl,rfl,rfl,rfl,rfl⟩ defaults)) fun _ => ?_
  refine consistentIf (fun h => opcodeConsistent h (by decide) (by decide) ⟨rfl,rfl,rfl,rfl,rfl⟩) fun _ => ?_
  refine consistentIf (fun h => opcodeConsistent h (by decide) (by decide) (plainIf ⟨rfl,rfl,rfl,rfl,rfl⟩ defaults)) fun _ => ?_
  iterate 5
    refine consistentIf (fun h => opcodeConsistent h (by decide) (by decide) ⟨rfl,rfl,rfl,rfl,rfl⟩) fun _ => ?_
  refine consistentIf (fun h => ?_) fun other => ?_
  · rw [h]
    constructor <;> simp [Control.defaults,opFence,opSystem]
  refine consistentIf (fun h => ?_) fun other' => ?_
  · rw [h]
    exact systemConsistent instruction
  refine consistentIf (fun h => ?_) fun _ => ?_
  · rw [h]
    exact atomicConsistent instruction
  refine consistentIf (fun h => opcodeConsistent h (by decide) (by decide) (plainIf (floatingPlain _) defaults)) fun _ => ?_
  iterate 4
    refine consistentIf (fun h => opcodeConsistent h (by decide) (by decide) (plainIf ⟨rfl,rfl,rfl,rfl,rfl⟩ defaults)) fun _ => ?_
  -- an unknown opcode is not valid
  exact ⟨fun h => absurd h other,fun h => absurd h other',fun h => by simp at h,
    fun h => by simp [Control.defaults] at h,fun h => by simp [Control.defaults] at h,
    fun h => by simp [Control.defaults] at h,fun _ => rfl⟩

end RiscvSoc.Decoder
