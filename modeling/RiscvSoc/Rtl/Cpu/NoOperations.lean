import RiscvSoc.Rtl.Cpu.Execution

/-! Encodings that the decoder turns into nothing. Those that go to the execution change nothing;
those with an opcode of the memory go through the write state and ask the bus for a word. -/
namespace RiscvSoc.Decoder

/- Neither an operation nor an illegal instruction. -/
def isNothing (instruction : BitVec 32) (enableM enableF : Bool) : Bool :=
  control instruction enableM enableF == Control.defaults

/- The opcodes that such an encoding can have. -/
def isMemoryOpcode (op : BitVec 7) : Bool := op == opLoadFp || op == opStoreFp || op == opAmo

theorem systemSomething (instruction : BitVec 32) : system instruction ≠ Control.defaults := by
  intro nothing
  simp only [system] at nothing
  repeat' split at nothing
  all_goals simp [Control.defaults] at nothing

def NothingIn (op : BitVec 7) (c : Control) : Prop :=
  c = Control.defaults → op ∈ [opReg,opFp,opFmadd,opFmsub,opFnmsub,opFnmadd] ∨ isMemoryOpcode op = true

theorem nothingIf {op : BitVec 7} {p : Prop} [Decidable p] {a b : Control} (yes : p → NothingIn op a)
    (no : ¬ p → NothingIn op b) : NothingIn op (if p then a else b) := by
  split
  · exact yes (by assumption)
  · exact no (by assumption)

theorem nothingOpcodes (w : BitVec 32) (enableM enableF : Bool) : NothingIn (opcode w) (control w enableM enableF) := by
  simp only [control]
  have may {k : BitVec 7} {c : Control} (op : opcode w = k)
      (known : k ∈ [opReg,opFp,opFmadd,opFmsub,opFnmsub,opFnmadd] ∨ isMemoryOpcode k = true) : NothingIn (opcode w) c :=
    fun _ => by rw [op]; exact known
  refine nothingIf (fun _ nothing => by simp [Control.defaults] at nothing) fun _ => ?_
  refine nothingIf (fun op => may op (by decide)) fun _ => ?_
  refine nothingIf (fun _ nothing => by simp [Control.defaults] at nothing) fun _ => ?_
  refine nothingIf (fun op => may op (by decide)) fun _ => ?_
  refine nothingIf (fun _ nothing => by simp [Control.defaults] at nothing) fun _ => ?_
  refine nothingIf (fun op => may op (by decide)) fun _ => ?_
  iterate 6
    refine nothingIf (fun _ nothing => by simp [Control.defaults] at nothing) fun _ => ?_
  refine nothingIf (fun _ nothing => absurd nothing (systemSomething w)) fun _ => ?_
  iterate 6
    refine nothingIf (fun op => may op (by decide)) fun _ => ?_
  exact fun nothing => by simp [Control.defaults] at nothing

end RiscvSoc.Decoder

namespace RiscvSoc.Core
open Mealy Machine

/- Nothing but the program counter changes, and nothing is asked of the bus. -/
structure Inert (cfg : Config) (s : Regs) (during : List Inputs) : Prop where
  silent : (machine cfg).Steps (fun t i => (t.access i).valid = false) s during
  floats : (machine cfg).Steps (fun t _ => t.currentState = .writeback → t.dec.fpRegWrite = false) s during
  registers : ∀ r, operand ((machine cfg).final s during).bankA r = operand s.bankA r ∧
    operand ((machine cfg).final s during).bankB r = operand s.bankB r
  csrs : ((machine cfg).final s during).csr.uncounted = s.csr.uncounted
  reservation : ((machine cfg).final s during).reservationValid = s.reservationValid ∧
    ((machine cfg).final s during).reservationAddr = s.reservationAddr
  pc : ((machine cfg).final s during).pc = s.instrPcReg + s.pcIncrement

variable {cfg : Config} {s t : Regs} {i : Inputs}

structure Idles (cfg : Config) (s t : Regs) : Prop extends Supplied cfg t, Kept s t where
  dec : t.dec = Decoder.decode cfg.enableM cfg.enableF s.irReg
  reservation : t.reservationValid = s.reservationValid ∧ t.reservationAddr = s.reservationAddr
  state : t.currentState = .execute ∨ t.currentState = .writeback

structure Idled (s t : Regs) : Prop extends Kept s t where
  reservation : t.reservationValid = s.reservationValid ∧ t.reservationAddr = s.reservationAddr
  state : t.currentState = .fetch
  pc : t.pc = s.instrPcReg + s.pcIncrement

section Nothing
variable (nothing : Decoder.control s.irReg cfg.enableM cfg.enableF = Decoder.Control.defaults)

include nothing in
theorem Idles.signals (h : Idles cfg s t) : t.dec.toControl = Decoder.Control.defaults := by
  rw [h.dec,Decoder.decode,nothing]

include nothing in
theorem Idles.next (h : Idles cfg s t) (i : Inputs) :
    (Idles cfg s (t.next cfg i) ∨ Idled s (t.next cfg i)) ∧ (t.access i).valid = false ∧ t.dec.fpRegWrite = false := by
  have signals := h.signals nothing
  have field {α : Type} (f : Decoder.Control → α) : f t.dec.toControl = f Decoder.Control.defaults := by rw [signals]
  have others : t.currentState ≠ .fetch ∧ t.currentState ≠ .decode ∧ t.dmemReq i = false := by
    rcases h.state with state | state <;> simp [Regs.dmemReq,state]
  have dec : (t.next cfg i).dec = t.dec := decKept others.2.1
  have reservation := reservationKept cfg i (s := t) (.inl (field (·.isLr))) (.inl (field (·.isSc)))
    (.inl (field (·.memWrite)))
  rw [h.reservation.1,h.reservation.2] at reservation
  refine ⟨?_,(silent others.1 others.2.2).2.1,field (·.fpRegWrite)⟩
  rcases h.state with state | state
  · left
    have quiet := quietKeeps cfg i (s := t) (by rw [state]; rfl) (by simp [Regs.proceeds,state])
    refine ⟨suppliedNext h.toSupplied i,h.toKept.trans quiet,dec.trans h.dec,reservation,?_⟩
    have plain : t.dec.branch = false ∧ t.fpResult = false :=
      ⟨field (·.branch),by rw [Regs.fpResult,field (·.fpRegWrite),field (·.fpToInt)]; rfl⟩
    rw [stateNext,Regs.nextState,state]
    rcases Bool.eq_false_or_eq_true (t.aluReqSent && i.aluOutValid) with done | waits
    · simp [plain,done]
    · simp [plain,waits]
  · right
    have kept := irKept (i := i) others.1
    have plain : t.regWe = false ∧ t.fpResult = false :=
      ⟨by rw [Regs.regWe,field (·.regWrite)]; simp [Decoder.Control.defaults],
        by rw [Regs.fpResult,field (·.fpRegWrite),field (·.fpToInt)]; rfl⟩
    have banks := banksKept cfg i plain.1
    have csrs := csrsKept cfg i (s := t) (by simp [Regs.csrTrapEntry,state]) (by simp [Regs.csrTrapReturn,state])
      (by simp [Regs.csrInputs,plain.2]) (by simp [Regs.csrInputs,state])
    have quiet : Kept t (t.next cfg i) := by
      refine ⟨?_,?_,incrementKept kept,banks.1,banks.2,csrs⟩
      · rw [irNext,kept,if_neg Bool.false_ne_true]
      · rw [instrPcNext,kept,if_neg Bool.false_ne_true]
    refine ⟨h.toKept.trans quiet,reservation,by simp [Regs.nextState,state],?_⟩
    rw [completed h.toSequenced (by simp [Regs.instrCompleteInternal,state]),Regs.successor,field (·.isMret),
      field (·.jump),field (·.branch),h.instrPc,h.increment]
    rfl

theorem nothingDispatched (h : Dispatched cfg s t)
    (nothing : Decoder.control s.irReg cfg.enableM cfg.enableF = Decoder.Control.defaults) :
    t.currentState = if Decoder.isMemoryOpcode (Decoder.opcode s.irReg) then .memAddr else .execute := by
  have opcode : t.dec.opcode = Decoder.opcode s.irReg := by
    rw [h.dec]
    rfl
  rw [h.state,Regs.dispatch,opcode]
  rcases Decoder.nothingOpcodes s.irReg cfg.enableM cfg.enableF nothing with executes | memory
  · simp only [List.mem_cons,List.not_mem_nil,or_false] at executes
    rcases executes with op | op | op | op | op | op <;> rw [op] <;> rfl
  · have accesses := memory
    simp only [Decoder.isMemoryOpcode,Bool.or_eq_true,beq_iff_eq] at accesses
    rcases accesses with (op | op) | op <;> rw [op] <;> rfl

theorem nothingProceeds (nothing : Decoder.control s.irReg cfg.enableM cfg.enableF = Decoder.Control.defaults) :
    Proceeds (Decoder.control s.irReg cfg.enableM cfg.enableF) := by
  rw [nothing]
  exact ⟨rfl,rfl,rfl,rfl⟩

include nothing in
theorem idlesThrough (h : Idles cfg s t) {rest : List Inputs} (executes : Executes cfg t rest) :
    (machine cfg).Steps (fun t i => (t.access i).valid = false ∧ t.dec.fpRegWrite = false) t rest ∧
      Idled s ((machine cfg).final t rest) := by
  have step (u : Regs) (i : Inputs) (inv : Idles cfg s u ∨ Idled s u) (busy : u.currentState.busy = true) :
      (Idles cfg s (u.next cfg i) ∨ Idled s (u.next cfg i)) ∧ (u.access i).valid = false ∧ u.dec.fpRegWrite = false := by
    rcases inv with idles | idled
    · exact idles.next nothing i
    · rw [idled.state] at busy
      contradiction
  refine ⟨stepsAll step (.inl h) executes.1,?_⟩
  rcases stepsInvariant (fun u i inv busy => (step u i inv busy).1) (.inl h) executes.1 with idles | idled
  · have ended : ((machine cfg).final t rest).currentState.busy = false := executes.2
    rcases idles.state with state | state <;> rw [state] at ended <;> contradiction
  · exact idled

include nothing in
theorem memoryAsks (h : Dispatched cfg s t) (state : t.currentState = .memAddr) (i j : Inputs) :
    (t.next cfg i).currentState = .memWrite ∧ ((t.next cfg i).access j).valid = true := by
  have reads : t.dec.memRead = false := by
    rw [h.dec,Decoder.decode,nothing]
    rfl
  have next : (t.next cfg i).currentState = .memWrite := by simp [Regs.nextState,state,reads]
  have quiet := silent (i := i) (s := t) (by simp [state]) (by simp [Regs.dmemReq,state])
  have still : (t.next cfg i).memReqInflight = false := by simp [h.idle,quiet.2.2]
  have absent : (t.next cfg i).imemReq j = false := by simp only [Regs.imemReq,next]; rfl
  have asks : (t.next cfg i).dmemReq j = true := by simp only [Regs.dmemReq,next]
  refine ⟨next,?_⟩
  rw [Regs.access,absent,asks,still]
  rfl

include nothing in
theorem inertWhen (h : Supplied cfg s) (state : s.currentState = .decode) (latched : s.isInstructionValidReg = true)
    {during : List Inputs} (executes : Executes cfg s during) :
    Inert cfg s during ↔ Decoder.isMemoryOpcode (Decoder.opcode s.irReg) = false := by
  obtain ⟨i,j,k,l,rest,rfl,first,second,third,last,later⟩ :=
    executesPrepared (nothingProceeds nothing) h state latched executes
  have dispatch := nothingDispatched last nothing
  constructor
  · intro inert
    rcases Bool.eq_false_or_eq_true (Decoder.isMemoryOpcode (Decoder.opcode s.irReg)) with memory | other
    · rw [memory,if_pos rfl] at dispatch
      obtain ⟨m,_,rfl,later'⟩ := executesOn (by rw [dispatch]; rfl) later
      obtain ⟨writes,_⟩ := memoryAsks nothing last dispatch m m
      obtain ⟨n,_,rfl,_⟩ := executesOn (by rw [writes]; rfl) later'
      have asks := (memoryAsks nothing last dispatch m n).2
      have silent := (stepsCons.mp (stepsCons.mp (stepsCons.mp (stepsCons.mp (stepsCons.mp
        (stepsCons.mp inert.silent).2).2).2).2).2).1
      rw [show (machine cfg).next = Regs.next cfg from rfl,asks] at silent
      contradiction
    · exact other
  · intro other
    rw [other,if_neg Bool.false_ne_true] at dispatch
    have idles : Idles cfg s ((((s.next cfg i).next cfg j).next cfg k).next cfg l) :=
      ⟨last.toSupplied,last.toKept,last.dec,last.reservation,.inl dispatch⟩
    obtain ⟨quiet,idled⟩ := idlesThrough nothing idles later
    have decoding := silent (i := i) (s := s) (by simp [state]) (by simp [Regs.dmemReq,state])
    refine ⟨?_,?_,fun r => ?_,idled.csr,idled.reservation,idled.pc⟩
    · exact stepsCons.mpr ⟨decoding.2.1,stepsCons.mpr ⟨(first.silent rfl j).1,stepsCons.mpr ⟨(second.silent rfl k).1,
        stepsCons.mpr ⟨(third.silent rfl l).1,fun c mem => (quiet c mem).1⟩⟩⟩⟩
    · refine stepsCons.mpr ⟨fun writes => ?_,stepsCons.mpr ⟨fun writes => absurd writes (first.silent rfl j).2.2,
        stepsCons.mpr ⟨fun writes => absurd writes (second.silent rfl k).2.2,
          stepsCons.mpr ⟨fun writes => absurd writes (third.silent rfl l).2.2,fun c mem _ => (quiet c mem).2⟩⟩⟩⟩
      rw [state] at writes
      contradiction
    · rw [operand,operand,operand,operand]
      exact ⟨by rw [← idled.bankA]; rfl,by rw [← idled.bankB]; rfl⟩

end Nothing

theorem suppliedRun (cfg : Config) (s₀ : Regs) (before : List Inputs) : Supplied cfg ((machine cfg).final (reset s₀) before) :=
  @Machine.invariant Regs Inputs Outputs (machine cfg) (Supplied cfg) (fun _ i h => suppliedNext h i) _ (resetSupplied s₀) before

/- In every run from reset, an encoding that the decoder turns into nothing is inert exactly when its
opcode is none of the memory's. -/
theorem noOperationsInert (cfg : Config) (s₀ : Regs) (before during : List Inputs)
    (state : ((machine cfg).final (reset s₀) before).currentState = .decode)
    (latched : ((machine cfg).final (reset s₀) before).isInstructionValidReg = true)
    (nothing : Decoder.isNothing ((machine cfg).final (reset s₀) before).irReg cfg.enableM cfg.enableF = true)
    (executes : Executes cfg ((machine cfg).final (reset s₀) before) during) :
    Inert cfg ((machine cfg).final (reset s₀) before) during ↔
      Decoder.isMemoryOpcode (Decoder.opcode ((machine cfg).final (reset s₀) before).irReg) = false :=
  inertWhen (by simpa [Decoder.isNothing] using nothing) (suppliedRun cfg s₀ before) state latched executes

/- `mul` without the M extension. -/
theorem mulIgnored :
    let s := (machine ⟨false,true⟩).final based (drive ⟨false,true⟩ (program [0x023100B3]) 4 based)
    Inert ⟨false,true⟩ s (drive ⟨false,true⟩ (program [0x023100B3]) 7 s) ↔
      Decoder.isMemoryOpcode (Decoder.opcode s.irReg) = false :=
  noOperationsInert ⟨false,true⟩ { (default : Regs) with bankA := ⟨fun _ => 0x2000,0,0⟩ } _ _ (by decide +kernel)
    (by decide +kernel) (by decide +kernel) (by decide +kernel)

theorem asksNotInert {during : List Inputs} (asks : ¬ (machine cfg).Steps (fun t i => (t.access i).valid = false) s during) :
    ¬ Inert cfg s during := fun inert => asks inert.silent

/- `flw` without the F extension asks the bus for a word. -/
theorem flwAsks :
    let s := (machine ⟨true,false⟩).final based (drive ⟨true,false⟩ (program [0x0000A087]) 4 based)
    let during := drive ⟨true,false⟩ (program [0x0000A087]) 7 s
    s.currentState = .decode ∧ s.isInstructionValidReg = true ∧ Decoder.isNothing s.irReg true false = true ∧
      Executes ⟨true,false⟩ s during ∧ ¬ Inert ⟨true,false⟩ s during :=
  ⟨by decide +kernel,by decide +kernel,by decide +kernel,by decide +kernel,asksNotInert (by decide +kernel)⟩

end RiscvSoc.Core
