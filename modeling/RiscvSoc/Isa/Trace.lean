import RiscvSoc.Isa.Immediates

/-! `trace.rs`: what the trace of an instruction says, against what the CPU's decoder makes of the same word. -/
namespace RiscvSoc.Trace
open Instruction (Word)
open Disasm (getImmI getImmS getImmB getImmU getImmJ)
open Decoder (Control)

inductive InstructionType where
  | add | sub | sll | slt | sltu | xor | srl | sra | or | and
  | addi | slti | sltiu | xori | ori | andi | slli | srli | srai
  | lw | lh | lb | lhu | lbu
  | sw | sh | sb
  | beq | bne | blt | bge | bltu | bgeu
  | lui | auipc
  | jal | jalr
  | ecall | ebreak | fence
  | csrrw | csrrs | csrrc | csrrwi | csrrsi | csrrci
  | mul | mulh | mulhsu | mulhu | div | divu | rem | remu
  | unknown
  deriving DecidableEq, Repr

structure RegisterOperand where
  reg : BitVec 8
  value : Word
  deriving DecidableEq, Repr

structure InstructionTrace where
  pc : Word
  instruction : Word
  instType : InstructionType
  rd : Option RegisterOperand
  rs1 : Option RegisterOperand
  rs2 : Option RegisterOperand
  immediate : Option Word
  deriving DecidableEq, Repr

def rType (funct3 funct7 : BitVec 8) : InstructionType :=
  match funct3.toNat,funct7.toNat with
  | 0b000,0b0000000 => .add
  | 0b000,0b0100000 => .sub
  | 0b001,0b0000000 => .sll
  | 0b010,0b0000000 => .slt
  | 0b011,0b0000000 => .sltu
  | 0b100,0b0000000 => .xor
  | 0b101,0b0000000 => .srl
  | 0b101,0b0100000 => .sra
  | 0b110,0b0000000 => .or
  | 0b111,0b0000000 => .and
  | 0b000,0b0000001 => .mul
  | 0b001,0b0000001 => .mulh
  | 0b010,0b0000001 => .mulhsu
  | 0b011,0b0000001 => .mulhu
  | 0b100,0b0000001 => .div
  | 0b101,0b0000001 => .divu
  | 0b110,0b0000001 => .rem
  | 0b111,0b0000001 => .remu
  | _,_ => .unknown

def aluType (funct3 : BitVec 8) (funct7 imm shamt : Word) : InstructionType × Word :=
  match funct3.toNat with
  | 0b000 => (.addi,imm)
  | 0b010 => (.slti,imm)
  | 0b011 => (.sltiu,imm)
  | 0b100 => (.xori,imm)
  | 0b110 => (.ori,imm)
  | 0b111 => (.andi,imm)
  | 0b001 => (.slli,shamt)
  | 0b101 => if funct7 = 0b0000000 then (.srli,shamt) else (.srai,shamt)
  | _ => (.unknown,imm)

def loadType (funct3 : BitVec 8) : InstructionType :=
  match funct3.toNat with
  | 0b010 => .lw
  | 0b000 => .lb
  | 0b001 => .lh
  | 0b100 => .lbu
  | 0b101 => .lhu
  | _ => .unknown

def storeType (funct3 : BitVec 8) : InstructionType :=
  match funct3.toNat with
  | 0b010 => .sw
  | 0b000 => .sb
  | 0b001 => .sh
  | _ => .unknown

def branchType (funct3 : BitVec 8) : InstructionType :=
  match funct3.toNat with
  | 0b000 => .beq
  | 0b001 => .bne
  | 0b100 => .blt
  | 0b101 => .bge
  | 0b110 => .bltu
  | 0b111 => .bgeu
  | _ => .unknown

def csrType (funct3 : BitVec 8) : InstructionType :=
  match funct3.toNat with
  | 0b001 => .csrrw
  | 0b010 => .csrrs
  | 0b011 => .csrrc
  | 0b101 => .csrrwi
  | 0b110 => .csrrsi
  | 0b111 => .csrrci
  | _ => .unknown

def fromInstruction (pc instruction rs1Value rs2Value rdValue : Word) : InstructionTrace :=
  let opcode := instruction &&& 0x7F#32
  let rdNum := (instruction >>> 7 &&& 0x1F#32).setWidth 8
  let funct3 := (instruction >>> 12 &&& 0x7#32).setWidth 8
  let rs1Num := (instruction >>> 15 &&& 0x1F#32).setWidth 8
  let rs2Num := (instruction >>> 20 &&& 0x1F#32).setWidth 8
  let funct7 := (instruction >>> 25 &&& 0x7F#32).setWidth 8
  let rd : RegisterOperand := ⟨rdNum,rdValue⟩
  let rs1 : RegisterOperand := ⟨rs1Num,rs1Value⟩
  let rs2 : RegisterOperand := ⟨rs2Num,rs2Value⟩
  if opcode = 0b0110011 then ⟨pc,instruction,rType funct3 funct7,some rd,some rs1,some rs2,none⟩
  else if opcode = 0b0010011 then
    let (instType,immVal) :=
      aluType funct3 (instruction >>> 25 &&& 0x7F#32) (getImmI instruction) (instruction >>> 20 &&& 0x1F#32)
    ⟨pc,instruction,instType,some rd,some rs1,none,some immVal⟩
  else if opcode = 0b0000011 then ⟨pc,instruction,loadType funct3,some rd,some rs1,none,some (getImmI instruction)⟩
  else if opcode = 0b0100011 then ⟨pc,instruction,storeType funct3,none,some rs1,some rs2,some (getImmS instruction)⟩
  else if opcode = 0b1100011 then ⟨pc,instruction,branchType funct3,none,some rs1,some rs2,some (getImmB instruction)⟩
  else if opcode = 0b0110111 then ⟨pc,instruction,.lui,some rd,none,none,some (getImmU instruction >>> 12)⟩
  else if opcode = 0b0010111 then ⟨pc,instruction,.auipc,some rd,none,none,some (getImmU instruction >>> 12)⟩
  else if opcode = 0b1101111 then ⟨pc,instruction,.jal,some rd,none,none,some (getImmJ instruction)⟩
  else if opcode = 0b1100111 then ⟨pc,instruction,.jalr,some rd,some rs1,none,some (getImmI instruction)⟩
  else if opcode = 0b0001111 then ⟨pc,instruction,.fence,none,none,none,none⟩
  else if opcode = 0b1110011 then
    if funct3 = 0b000 then
      ⟨pc,instruction,if getImmI instruction &&& 0x1#32 = 0 then .ecall else .ebreak,none,none,none,none⟩
    else
      -- the rs1 field of an immediate form is the immediate
      let rs1Op : RegisterOperand := if funct3 &&& 0b100#8 ≠ 0 then ⟨rs1Num,rs1Num.setWidth 32⟩ else rs1
      ⟨pc,instruction,csrType funct3,some rd,some rs1Op,none,some (instruction >>> 20 &&& 0xFFF#32)⟩
  else ⟨pc,instruction,.unknown,none,none,none,none⟩

def InstructionTrace.display (t : InstructionTrace) : String :=
  Disasm.disassembleWithAllValues t.instruction ((t.rs1.map RegisterOperand.value).getD 0)
    ((t.rs2.map RegisterOperand.value).getD 0) ((t.rd.map RegisterOperand.value).getD 0)

def shownImmediate (r : Decoder.Regs) : Word :=
  if r.opcode = Decoder.opImm then if r.funct3 = 0b001 ∨ r.funct3 = 0b101 then r.immI &&& 0x1F#32 else r.immI
  else if r.opcode = Decoder.opStore then r.immS
  else if r.opcode = Decoder.opBranch then r.immB
  else if r.opcode = Decoder.opLui ∨ r.opcode = Decoder.opAuipc then r.immU >>> 12
  else if r.opcode = Decoder.opJal then r.immJ
  else if r.opcode = Decoder.opSystem then r.immI &&& 0xFFF#32
  else r.immI

section Form
variable (pc w v1 v2 vd : Word)

def rdOperand : RegisterOperand := ⟨(Decoder.rd w).setWidth 8,vd⟩
def rs1Operand : RegisterOperand := ⟨(Decoder.rs1 w).setWidth 8,v1⟩
def rs2Operand : RegisterOperand := ⟨(Decoder.rs2 w).setWidth 8,v2⟩

def tracedOpcodes : List (BitVec 7) := [Decoder.opReg,Decoder.opImm,Decoder.opLoad,Decoder.opStore,Decoder.opBranch,
  Decoder.opLui,Decoder.opAuipc,Decoder.opJal,Decoder.opJalr,Decoder.opFence,Decoder.opSystem]

inductive Form : InstructionTrace → Prop where
  | register (op : Decoder.opcode w = Decoder.opReg) :
    Form ⟨pc,w,rType ((Decoder.funct3 w).setWidth 8) ((Decoder.funct7 w).setWidth 8),some (rdOperand w vd),
      some (rs1Operand w v1),some (rs2Operand w v2),none⟩
  | alu (op : Decoder.opcode w = Decoder.opImm) {instType : InstructionType} {imm : Word}
    (named : aluType ((Decoder.funct3 w).setWidth 8) ((Decoder.funct7 w).setWidth 32) (Decoder.immI w)
      ((Decoder.rs2 w).setWidth 32) = (instType,imm)) :
    Form ⟨pc,w,instType,some (rdOperand w vd),some (rs1Operand w v1),none,some imm⟩
  | load (op : Decoder.opcode w = Decoder.opLoad) :
    Form ⟨pc,w,loadType ((Decoder.funct3 w).setWidth 8),some (rdOperand w vd),some (rs1Operand w v1),none,
      some (Decoder.immI w)⟩
  | store (op : Decoder.opcode w = Decoder.opStore) :
    Form ⟨pc,w,storeType ((Decoder.funct3 w).setWidth 8),none,some (rs1Operand w v1),some (rs2Operand w v2),
      some (Decoder.immS w)⟩
  | branch (op : Decoder.opcode w = Decoder.opBranch) :
    Form ⟨pc,w,branchType ((Decoder.funct3 w).setWidth 8),none,some (rs1Operand w v1),some (rs2Operand w v2),
      some (Decoder.immB w)⟩
  | lui (op : Decoder.opcode w = Decoder.opLui) :
    Form ⟨pc,w,.lui,some (rdOperand w vd),none,none,some (Decoder.immU w >>> 12)⟩
  | auipc (op : Decoder.opcode w = Decoder.opAuipc) :
    Form ⟨pc,w,.auipc,some (rdOperand w vd),none,none,some (Decoder.immU w >>> 12)⟩
  | jal (op : Decoder.opcode w = Decoder.opJal) :
    Form ⟨pc,w,.jal,some (rdOperand w vd),none,none,some (Decoder.immJ w)⟩
  | jalr (op : Decoder.opcode w = Decoder.opJalr) :
    Form ⟨pc,w,.jalr,some (rdOperand w vd),some (rs1Operand w v1),none,some (Decoder.immI w)⟩
  | fence (op : Decoder.opcode w = Decoder.opFence) : Form ⟨pc,w,.fence,none,none,none,none⟩
  | environment (op : Decoder.opcode w = Decoder.opSystem) (plain : Decoder.funct3 w = 0b000) :
    Form ⟨pc,w,if Decoder.immI w &&& 0x1#32 = 0 then .ecall else .ebreak,none,none,none,none⟩
  | csr (op : Decoder.opcode w = Decoder.opSystem) (other : Decoder.funct3 w ≠ 0b000) :
    Form ⟨pc,w,csrType ((Decoder.funct3 w).setWidth 8),some (rdOperand w vd),
      some (rs1Operand w (if (Decoder.funct3 w).getLsbD 2 then (Decoder.rs1 w).setWidth 32 else v1)),none,
      some ((w.extractLsb' 20 12).setWidth 32)⟩
  | unknown (other : Decoder.opcode w ∉ tracedOpcodes) :
    Form ⟨pc,w,.unknown,none,none,none,none⟩

theorem opcodeIs (k : BitVec 7) : w &&& 0x7F#32 = k.setWidth 32 ↔ Decoder.opcode w = k := by
  rw [Disasm.opcodeField w]
  constructor
  · intro same
    have narrow := congrArg (BitVec.setWidth 7) same
    rwa [BitVec.setWidth_setWidth_of_le _ (by decide),BitVec.setWidth_setWidth_of_le _ (by decide),BitVec.setWidth_eq,
      BitVec.setWidth_eq] at narrow
  · intro same
    exact congrArg (BitVec.setWidth 32) same

theorem csrImmediate : ∀ f3 : BitVec 3, f3.setWidth 8 &&& 0b100#8 ≠ 0 ↔ f3.getLsbD 2 = true := by decide

theorem zeroFunct3 : ∀ f3 : BitVec 3, f3.setWidth 8 = 0b000#8 ↔ f3 = 0b000 := by decide

theorem formIf {pc w v1 v2 vd : Word} {p : Prop} [Decidable p] {a b : InstructionTrace} (yes : p → Form pc w v1 v2 vd a)
    (no : ¬ p → Form pc w v1 v2 vd b) : Form pc w v1 v2 vd (if p then a else b) := by
  split
  · exact yes (by assumption)
  · exact no (by assumption)

theorem form : Form pc w v1 v2 vd (fromInstruction pc w v1 v2 vd) := by
  have f7' : w >>> 25 &&& 0x7F#32 = (Decoder.funct7 w).setWidth 32 := BitFields.maskField w 25 7
  have shamt : w >>> 20 &&& 0x1F#32 = (Decoder.rs2 w).setWidth 32 := BitFields.maskField w 20 5
  have csr : w >>> 20 &&& 0xFFF#32 = (w.extractLsb' 20 12).setWidth 32 := BitFields.maskField w 20 12
  have plain := zeroFunct3 (Decoder.funct3 w)
  have zimm : ((Decoder.rs1 w).setWidth 8).setWidth 32 = (Decoder.rs1 w).setWidth 32 := BitVec.setWidth_setWidth (by decide)
  unfold fromInstruction
  rw [f7',shamt,csr,Decoder.immIDecoded,Decoder.immSDecoded,Decoder.immBDecoded,Decoder.immUDecoded,Decoder.immJDecoded]
  extract_lets opcode rdNum funct3 rs1Num rs2Num funct7 rd rs1 rs2 rs1Op
  have hrd : rdNum = (Decoder.rd w).setWidth 8 := Disasm.rdField w
  have hf3 : funct3 = (Decoder.funct3 w).setWidth 8 := Disasm.funct3Field w
  have hrs1 : rs1Num = (Decoder.rs1 w).setWidth 8 := Disasm.rs1Field w
  have hrs2 : rs2Num = (Decoder.rs2 w).setWidth 8 := BitVec.setWidth_setWidth (by decide)
  have hf7 : funct7 = (Decoder.funct7 w).setWidth 8 := BitVec.setWidth_setWidth (by decide)
  have rdIs : rd = rdOperand w vd := congrArg (RegisterOperand.mk · vd) hrd
  have rs1Is : rs1 = rs1Operand w v1 := congrArg (RegisterOperand.mk · v1) hrs1
  have rs2Is : rs2 = rs2Operand w v2 := congrArg (RegisterOperand.mk · v2) hrs2
  rw [rdIs,rs1Is,rs2Is,hf3,hf7]
  refine formIf (fun h => .register ((opcodeIs w _).mp h)) fun notRegister => ?_
  refine formIf (fun h => .alu ((opcodeIs w _).mp h) rfl) fun notImm => ?_
  refine formIf (fun h => .load ((opcodeIs w _).mp h)) fun notLoad => ?_
  refine formIf (fun h => .store ((opcodeIs w _).mp h)) fun notStore => ?_
  refine formIf (fun h => .branch ((opcodeIs w _).mp h)) fun notBranch => ?_
  refine formIf (fun h => .lui ((opcodeIs w _).mp h)) fun notLui => ?_
  refine formIf (fun h => .auipc ((opcodeIs w _).mp h)) fun notAuipc => ?_
  refine formIf (fun h => .jal ((opcodeIs w _).mp h)) fun notJal => ?_
  refine formIf (fun h => .jalr ((opcodeIs w _).mp h)) fun notJalr => ?_
  refine formIf (fun h => .fence ((opcodeIs w _).mp h)) fun notFence => ?_
  refine formIf (fun system => ?_) fun notSystem => .unknown ?_
  · refine formIf (fun zero => .environment ((opcodeIs w _).mp system) (plain.mp zero)) fun other => ?_
    have form := @Form.csr pc w v1 v2 vd ((opcodeIs w _).mp system) (mt plain.mpr other)
    have operand : rs1Op = if (Decoder.funct3 w).setWidth 8 &&& 0b100#8 ≠ 0 then ⟨rs1Num,rs1Num.setWidth 32⟩
        else rs1Operand w v1 := by
      rw [← hf3,← rs1Is]
    rw [operand]
    by_cases immediate : (Decoder.funct3 w).getLsbD 2 = true
    · rw [if_pos immediate,rs1Operand,← zimm,← hrs1] at form
      rwa [if_pos ((csrImmediate _).mpr immediate)]
    · rw [if_neg immediate] at form
      rwa [if_neg (mt (csrImmediate _).mp immediate)]
  · simp only [tracedOpcodes,List.mem_cons,List.not_mem_nil,or_false,not_or]
    exact ⟨mt (opcodeIs w _).mpr notRegister,mt (opcodeIs w _).mpr notImm,mt (opcodeIs w _).mpr notLoad,
      mt (opcodeIs w _).mpr notStore,mt (opcodeIs w _).mpr notBranch,mt (opcodeIs w _).mpr notLui,
      mt (opcodeIs w _).mpr notAuipc,mt (opcodeIs w _).mpr notJal,mt (opcodeIs w _).mpr notJalr,
      mt (opcodeIs w _).mpr notFence,mt (opcodeIs w _).mpr notSystem⟩

end Form

theorem shamtShown (w : Word) : Decoder.immI w &&& 0x1F#32 = (Decoder.rs2 w).setWidth 32 := by
  have low : (Decoder.immI w).extractLsb' 0 5 = w.extractLsb' 20 5 := by
    rw [Decoder.immI,BitVec.extractLsb'_append_eq_of_add_le (by decide)]
    exact BitFields.sliceSlice w 20 (by decide)
  exact (BitFields.maskLow (Decoder.immI w) 5).trans (congrArg _ low)

theorem csrShown (w : Word) : Decoder.immI w &&& 0xFFF#32 = (w.extractLsb' 20 12).setWidth 32 := by
  have low : (Decoder.immI w).extractLsb' 0 12 = w.extractLsb' 20 12 := by
    rw [Decoder.immI,BitVec.extractLsb'_append_eq_of_add_le (by decide)]
    exact BitVec.extractLsb'_eq_self
  exact (BitFields.maskLow (Decoder.immI w) 12).trans (congrArg _ low)

theorem aluTypeImmediate (f3 : BitVec 3) (f7 : BitVec 7) (imm shamt : Word) :
    aluType (f3.setWidth 8) (f7.setWidth 32) imm shamt =
      ((aluType (f3.setWidth 8) (f7.setWidth 32) 0 0).1,if f3 = 0b001 ∨ f3 = 0b101 then shamt else imm) := by
  obtain rfl | rfl | rfl | rfl | rfl | rfl | rfl | rfl :
      f3 = 0 ∨ f3 = 1 ∨ f3 = 2 ∨ f3 = 3 ∨ f3 = 4 ∨ f3 = 5 ∨ f3 = 6 ∨ f3 = 7 := by
    revert f3
    decide
  all_goals try rfl
  show (if _ then _ else _) = ((if _ then _ else _ : InstructionType × Word).1,_)
  split <;> rfl

theorem formOperands {pc w v1 v2 vd : Word} {t : InstructionTrace} (form : Form pc w v1 v2 vd t) (enableM enableF : Bool) :
    let r := Decoder.decode enableM enableF w
    (t.pc = pc ∧ t.instruction = w) ∧ (∀ o ∈ t.rd, o = ⟨r.rd.setWidth 8,vd⟩) ∧
    (∀ o ∈ t.rs1, o = ⟨r.rs1.setWidth 8,if r.opcode = Decoder.opSystem ∧ r.funct3.getLsbD 2 = true then r.rs1.setWidth 32
      else v1⟩) ∧
    (∀ o ∈ t.rs2, o = ⟨r.rs2.setWidth 8,v2⟩) ∧ ∀ imm ∈ t.immediate, imm = shownImmediate r := by
  intro r
  have opcode : r.opcode = Decoder.opcode w := rfl
  have plain {k : BitVec 7} (op : Decoder.opcode w = k) (other : k ≠ Decoder.opSystem) : rs1Operand w v1 =
      ⟨r.rs1.setWidth 8,if r.opcode = Decoder.opSystem ∧ r.funct3.getLsbD 2 = true then r.rs1.setWidth 32 else v1⟩ := by
    rw [if_neg fun h => other (op.symm.trans h.1)]
    rfl
  have only {α : Type} {a : α} {p : α → Prop} (here : p a) : ∀ o ∈ some a, p o := fun _ is => Option.some.inj is ▸ here
  cases form with
  | register op => exact ⟨⟨rfl,rfl⟩,only rfl,only (plain op (by decide)),only rfl,nofun⟩
  | alu op named =>
    refine ⟨⟨rfl,rfl⟩,only rfl,only (plain op (by decide)),nofun,only ?_⟩
    rw [aluTypeImmediate] at named
    obtain ⟨-,rfl⟩ := Prod.mk.inj named
    rw [shownImmediate,opcode,op,if_pos rfl,← shamtShown]
    rfl
  | load op =>
    refine ⟨⟨rfl,rfl⟩,only rfl,only (plain op (by decide)),nofun,only ?_⟩
    rw [shownImmediate,opcode,op]
    rfl
  | store op =>
    refine ⟨⟨rfl,rfl⟩,nofun,only (plain op (by decide)),only rfl,only ?_⟩
    rw [shownImmediate,opcode,op]
    rfl
  | branch op =>
    refine ⟨⟨rfl,rfl⟩,nofun,only (plain op (by decide)),only rfl,only ?_⟩
    rw [shownImmediate,opcode,op]
    rfl
  | lui op =>
    refine ⟨⟨rfl,rfl⟩,only rfl,nofun,nofun,only ?_⟩
    rw [shownImmediate,opcode,op]
    rfl
  | auipc op =>
    refine ⟨⟨rfl,rfl⟩,only rfl,nofun,nofun,only ?_⟩
    rw [shownImmediate,opcode,op]
    rfl
  | jal op =>
    refine ⟨⟨rfl,rfl⟩,only rfl,nofun,nofun,only ?_⟩
    rw [shownImmediate,opcode,op]
    rfl
  | jalr op =>
    refine ⟨⟨rfl,rfl⟩,only rfl,only (plain op (by decide)),nofun,only ?_⟩
    rw [shownImmediate,opcode,op]
    rfl
  | fence op => exact ⟨⟨rfl,rfl⟩,nofun,nofun,nofun,nofun⟩
  | environment op zero => exact ⟨⟨rfl,rfl⟩,nofun,nofun,nofun,nofun⟩
  | csr op other =>
    refine ⟨⟨rfl,rfl⟩,only rfl,only ?_,nofun,only ?_⟩
    · simp only [opcode,op,true_and]
      rfl
    · rw [shownImmediate,opcode,op,← csrShown]
      rfl
  | unknown other => exact ⟨⟨rfl,rfl⟩,nofun,nofun,nofun,nofun⟩

section Display
variable {w v1 v2 vd : Word}

/- The formats that show the value of `rs1`, of `rs2` and of `rd`. -/
def showRs1 : List (BitVec 7) := [Decoder.opReg,Decoder.opImm,Decoder.opLoad,Decoder.opStore,Decoder.opBranch,Decoder.opJalr,
  Decoder.opSystem,Decoder.opAmo]
def showRs2 : List (BitVec 7) := [Decoder.opReg,Decoder.opStore,Decoder.opBranch,Decoder.opAmo]
def showRd : List (BitVec 7) := [Decoder.opReg,Decoder.opImm,Decoder.opLoad,Decoder.opLui,Decoder.opAuipc,Decoder.opJal,
  Decoder.opJalr,Decoder.opSystem,Decoder.opAmo]

theorem textSame {v1' v2' vd' : Word} (rs1 : Decoder.opcode w ∈ showRs1 → v1' = v1) (rs2 : Decoder.opcode w ∈ showRs2 → v2' = v2)
    (rd : Decoder.opcode w ∈ showRd → vd' = vd) :
    Disasm.disassembleWithAllValues w v1' v2' vd' = Disasm.disassembleWithAllValues w v1 v2 vd := by
  have shown {k : BitVec 7} {shows : List (BitVec 7)} (is : w &&& 0x7F#32 = k.setWidth 32) (known : k ∈ shows) :
      Decoder.opcode w ∈ shows := (opcodeIs w k).mp is ▸ known
  unfold Disasm.disassembleWithAllValues
  refine ite_congr rfl (fun is => ?_) fun _ => ?_
  · rw [rs1 (shown (k := Decoder.opReg) is (by decide)),rs2 (shown (k := Decoder.opReg) is (by decide)),
      rd (shown (k := Decoder.opReg) is (by decide))]
  refine ite_congr rfl (fun is => ?_) fun _ => ?_
  · rw [rs1 (shown (k := Decoder.opImm) is (by decide)),rd (shown (k := Decoder.opImm) is (by decide))]
  refine ite_congr rfl (fun is => ?_) fun _ => ?_
  · rw [rs1 (shown (k := Decoder.opLoad) is (by decide)),rd (shown (k := Decoder.opLoad) is (by decide))]
  refine ite_congr rfl (fun is => ?_) fun _ => ?_
  · rw [rs1 (shown (k := Decoder.opStore) is (by decide)),rs2 (shown (k := Decoder.opStore) is (by decide))]
  refine ite_congr rfl (fun is => ?_) fun _ => ?_
  · rw [rs1 (shown (k := Decoder.opBranch) is (by decide)),rs2 (shown (k := Decoder.opBranch) is (by decide))]
  refine ite_congr rfl (fun is => ?_) fun _ => ?_
  · rw [rd (shown (k := Decoder.opLui) is (by decide))]
  refine ite_congr rfl (fun is => ?_) fun _ => ?_
  · rw [rd (shown (k := Decoder.opAuipc) is (by decide))]
  refine ite_congr rfl (fun is => ?_) fun _ => ?_
  · rw [rd (shown (k := Decoder.opJal) is (by decide))]
  refine ite_congr rfl (fun is => ?_) fun _ => ?_
  · rw [rs1 (shown (k := Decoder.opJalr) is (by decide)),rd (shown (k := Decoder.opJalr) is (by decide))]
  refine ite_congr rfl (fun _ => rfl) fun _ => ?_
  refine ite_congr rfl (fun is => ?_) fun _ => ?_
  · rw [rs1 (shown (k := Decoder.opSystem) is (by decide)),rd (shown (k := Decoder.opSystem) is (by decide))]
  refine ite_congr rfl (fun is => ?_) fun _ => rfl
  rw [rs1 (shown (k := Decoder.opAmo) is (by decide)),rs2 (shown (k := Decoder.opAmo) is (by decide)),
    rd (shown (k := Decoder.opAmo) is (by decide))]

theorem systemSame (op : Decoder.opcode w = Decoder.opSystem) {v1' vd' : Word}
    (register : Decoder.funct3 w ≠ 0b000 → vd' = vd ∧ ((Decoder.funct3 w).getLsbD 2 = false → v1' = v1)) :
    Disasm.disassembleWithAllValues w v1' 0 vd' = Disasm.disassembleWithAllValues w v1 v2 vd := by
  have text (v1 v2 vd : Word) : Disasm.disassembleWithAllValues w v1 v2 vd = Disasm.disassembleSystem w
      ((Decoder.rd w).setWidth 8) ((Decoder.funct3 w).setWidth 8) ((Decoder.rs1 w).setWidth 8) v1 vd := by
    unfold Disasm.disassembleWithAllValues
    rw [(opcodeIs w _).mpr op,Disasm.rdField w,Disasm.funct3Field w,Disasm.rs1Field w]
    rfl
  rw [text,text]
  by_cases zero : Decoder.funct3 w = 0b000
  · rw [zero]
    rfl
  · obtain ⟨rfl,rs1⟩ := register zero
    cases bit : (Decoder.funct3 w).getLsbD 2 with
    | false => rw [rs1 bit]
    | true =>
      have immediate := (csrImmediate _).mpr bit
      simp only [Disasm.disassembleSystem,if_pos immediate]

theorem formDisplay {pc : Word} {t : InstructionTrace} (form : Form pc w v1 v2 vd t) : t.display =
    if Decoder.opcode w = Decoder.opAmo then Disasm.disassemble w else Disasm.disassembleWithAllValues w v1 v2 vd := by
  have other {k : BitVec 7} (op : Decoder.opcode w = k) (differs : k ≠ Decoder.opAmo)
      (same : t.display = Disasm.disassembleWithAllValues w v1 v2 vd) : t.display =
        if Decoder.opcode w = Decoder.opAmo then Disasm.disassemble w else Disasm.disassembleWithAllValues w v1 v2 vd := by
    rw [if_neg fun h => differs (op.symm.trans h),same]
  have hidden {k : BitVec 7} {shows : List (BitVec 7)} {a b : Word} (op : Decoder.opcode w = k) (absent : k ∉ shows) :
      Decoder.opcode w ∈ shows → a = b := fun shown => absurd (op ▸ shown) absent
  cases form with
  | register op => exact other op (by decide) rfl
  | alu op | load op | jalr op =>
    exact other op (by decide) (textSame (fun _ => rfl) (hidden op (by decide)) fun _ => rfl)
  | store op | branch op => exact other op (by decide) (textSame (fun _ => rfl) (fun _ => rfl) (hidden op (by decide)))
  | lui op | auipc op | jal op =>
    exact other op (by decide) (textSame (hidden op (by decide)) (hidden op (by decide)) fun _ => rfl)
  | fence op =>
    exact other op (by decide) (textSame (hidden op (by decide)) (hidden op (by decide)) (hidden op (by decide)))
  | environment op zero => exact other op (by decide) (systemSame op fun plain => absurd zero plain)
  | csr op => exact other op (by decide) (systemSame op fun _ => ⟨rfl,fun register => if_neg (ne_true_of_eq_false register)⟩)
  | unknown untraced =>
    by_cases atomic : Decoder.opcode w = Decoder.opAmo
    · rw [if_pos atomic]
      rfl
    · have absent {shows : List (BitVec 7)} {a b : Word} (few : ∀ k ∈ shows, k ∈ tracedOpcodes ∨ k = Decoder.opAmo)
          (shown : Decoder.opcode w ∈ shows) : a = b :=
        absurd (few _ shown) (not_or_intro untraced atomic)
      rw [if_neg atomic]
      exact textSame (absent (by decide)) (absent (by decide)) (absent (by decide))

end Display

end RiscvSoc.Trace
