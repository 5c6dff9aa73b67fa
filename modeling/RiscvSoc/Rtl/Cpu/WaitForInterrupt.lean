import RiscvSoc.Rtl.Cpu.Execution

/-! WFI. The hart sleeps in the fetch until an interrupt that would be taken is pending, or a halt
is requested; the program goes on after the WFI. -/
namespace RiscvSoc.Decompress

def Ordinary (w : BitVec 32) : Prop := Decoder.opcode w ≠ Decoder.opSystem ∨ w = 0x00100073

theorem opcodeNarrowed {n : Nat} (high : BitVec n) (op : BitVec 7) : Decoder.opcode ((high ++ op).setWidth 32) = op := by
  apply BitVec.eq_of_getLsbD_eq
  intro k inside
  have inside' : k < 32 := by omega
  simp [Decoder.opcode,BitVec.getLsbD_append,inside,inside']

theorem opcodeAppend (high : BitVec 25) (op : BitVec 7) : Decoder.opcode (high ++ op) = op :=
  BitVec.extractLsb'_append_eq_right

def AllOrdinary (o : Option (BitVec 32)) : Prop := ∀ w, o = some w → Ordinary w

theorem ordinaryIf {p : Prop} [Decidable p] {a b : Option (BitVec 32)} (yes : AllOrdinary a) (no : AllOrdinary b) :
    AllOrdinary (if p then a else b) := by
  split
  · exact yes
  · exact no

theorem ordinaryNone : AllOrdinary none := fun _ h => by contradiction

theorem ordinarySome {w : BitVec 32} {op : BitVec 7} (low : Decoder.opcode w = op) (other : op ≠ Decoder.opSystem) :
    AllOrdinary (some w) := fun v h => by
  cases h
  exact .inl (by rw [low]; exact other)

theorem quadrant0Ordinary (insn : BitVec 16) : AllOrdinary (quadrant0 insn) := by
  unfold quadrant0
  repeat' refine ordinaryIf ?_ ?_
  all_goals first
    | exact ordinaryNone
    | exact ordinarySome (opcodeAppend _ _) (by decide)
    | exact ordinarySome (opcodeNarrowed _ _) (by decide)

theorem quadrant1Ordinary (insn : BitVec 16) : AllOrdinary (quadrant1 insn) := by
  unfold quadrant1
  repeat' refine ordinaryIf ?_ ?_
  all_goals first
    | exact ordinaryNone
    | exact ordinarySome (opcodeAppend _ _) (by decide)
    | exact ordinarySome (opcodeNarrowed _ _) (by decide)
    | exact ordinarySome (show Decoder.opcode 0x00000013 = Decoder.opImm by decide) (by decide)

theorem quadrant2Ordinary (insn : BitVec 16) : AllOrdinary (quadrant2 insn) := by
  unfold quadrant2 jumpMoveAdd
  repeat' refine ordinaryIf ?_ ?_
  all_goals first
    | exact ordinaryNone
    | exact ordinarySome (opcodeAppend _ _) (by decide)
    | exact fun w h => .inr (Option.some.inj h).symm

theorem expandOrdinary (insn : BitVec 16) : AllOrdinary (expand insn) := by
  unfold expand
  exact ordinaryIf (quadrant0Ordinary insn) (ordinaryIf (quadrant1Ordinary insn) (quadrant2Ordinary insn))

theorem decompressOrdinary {insn16 : BitVec 16} {insn32 : BitVec 32} (short : (decompress insn16 insn32).isCompressed = true) :
    Ordinary (decompress insn16 insn32).insn32 := by
  rw [decompress] at short ⊢
  split at short
  · rename_i compressed
    rw [if_pos compressed]
    cases given : expand insn16 with
    | none => exact .inl (by decide)
    | some w => exact expandOrdinary insn16 w given
  · contradiction

end RiscvSoc.Decompress

namespace RiscvSoc.Decoder

theorem waitsAlone {w : BitVec 32} {enableM enableF : Bool} (wfi : (control w enableM enableF).isWfi = true) :
    opcode w = opSystem ∧ w.extractLsb' 20 12 = 0x105 ∧
      control w enableM enableF = {Control.defaults with isWfi := true} := by
  rcases (controlConsistent w enableM enableF).early (.inr (.inr wfi)) with fence | ⟨op,_⟩
  · have given : control w enableM enableF = {Control.defaults with isFence := true} := by
      simp only [control,fence]
      rfl
    rw [given] at wfi
    contradiction
  · rw [controlSystem enableM enableF op] at wfi ⊢
    refine ⟨op,?_⟩
    simp only [system] at wfi ⊢
    repeat' split at wfi
    all_goals first
      | contradiction
      | simp_all

theorem ordinaryAwake {w : BitVec 32} (enableM enableF : Bool) (ordinary : Decompress.Ordinary w) :
    (control w enableM enableF).isWfi = false := by
  rcases Bool.eq_false_or_eq_true (control w enableM enableF).isWfi with wfi | absent
  · obtain ⟨op,funct12,_⟩ := waitsAlone wfi
    rcases ordinary with other | ebreak
    · exact absurd op other
    · rw [ebreak] at funct12
      exact absurd funct12 (by decide)
  · exact absent

end RiscvSoc.Decoder

namespace RiscvSoc.Core
open Mealy Machine

namespace Regs

def interruptPending (s : Regs) (i : Inputs) : Bool := s.enabledPendingInterrupts i != 0

def waitsNow (s : Regs) : Bool := s.currentState == .regReadWait && s.dec.isWfi && !s.syncTrapPending

end Regs

structure Sleeping (cfg : Config) (s : Regs) : Prop extends Sequenced cfg s where
  short : s.currentState.busy = true → s.fetch.pcInc2 = true → Decompress.Ordinary s.irReg
  sleeps : s.wfiActive = true → s.currentState = .fetch ∧ s.memReqInflight = false ∧ s.dec.isWfi = true ∧
    s.pc = s.instrPcReg + 4

variable {cfg : Config} {s : Regs} {i : Inputs}

theorem wfiNext (cfg : Config) (s : Regs) (i : Inputs) :
    (s.next cfg i).wfiActive = (!(s.interruptTaken i || i.reqHalt) && (s.wfiActive || s.waitsNow)) := rfl

theorem resetSleeping (s : Regs) : Sleeping cfg (reset s) where
  toSequenced := resetSequenced s
  short h := by simp [reset,State.busy] at h
  sleeps h := by simp [reset] at h

theorem requestsNothing (fetches : s.currentState = .fetch → s.wfiActive = true) (accesses : s.dmemReq i = false) :
    s.imemReq i = false ∧ s.memAHandshake i = false := by
  have absent : s.imemReq i = false := by
    rcases Bool.eq_false_or_eq_true (s.imemReq i) with asks | absent
    · obtain ⟨state,_,awake,_⟩ := fetchAsked asks
      rw [fetches state] at awake
      contradiction
    · exact absent
  exact ⟨absent,by simp [Regs.memAHandshake,Regs.access,absent,accesses]⟩

theorem waitsIn (q : Sequenced cfg s) (waits : s.waitsNow = true) : s.currentState = .regReadWait ∧
    s.dec.isWfi = true ∧ s.instrCompleteInternal i = true ∧ s.nextState i = .fetch ∧ s.memReqInflight = false := by
  simp only [Regs.waitsNow,Bool.and_eq_true,beq_iff_eq,Bool.not_eq_true'] at waits
  obtain ⟨⟨state,wfi⟩,goes⟩ := waits
  have early : s.completesEarly = true := by simp [Regs.completesEarly,goes,wfi]
  have fetches := (dispatched q.toReached state goes).2.mpr early
  refine ⟨state,wfi,by simp [Regs.instrCompleteInternal,state,early],by simp [Regs.nextState,state,goes,fetches],?_⟩
  rcases Bool.eq_false_or_eq_true s.memReqInflight with asked | quiet
  · have place := q.inflight asked
    simp [state] at place
  · exact quiet

theorem resumesAfter (h : Sleeping cfg s) (waits : s.waitsNow = true) : (s.next cfg i).pc = s.instrPcReg + 4 := by
  obtain ⟨state,wfi,completes,_⟩ := waitsIn (i := i) h.toSequenced waits
  have decodes := h.decoded (by rw [state]; rfl)
  rw [decodes] at wfi
  have whole : s.fetch.pcInc2 = false := by
    rcases Bool.eq_false_or_eq_true s.fetch.pcInc2 with short | whole
    · have awake := Decoder.ordinaryAwake cfg.enableM cfg.enableF (h.short (by rw [state]; rfl) short)
      rw [show (Decoder.decode cfg.enableM cfg.enableF s.irReg).isWfi =
        (Decoder.control s.irReg cfg.enableM cfg.enableF).isWfi from rfl,awake] at wfi
      contradiction
    · exact whole
  have alone := (Decoder.waitsAlone wfi).2.2
  have control : s.dec.isMret = false ∧ s.dec.jump = false ∧ s.dec.branch = false := by
    rw [decodes,Decoder.decode,alone]
    exact ⟨rfl,rfl,rfl⟩
  rw [completed h.toSequenced completes,Regs.successor]
  simp [control,Regs.pcIncrement,whole]

theorem shortNext (h : Sleeping cfg s) (busy : (s.nextState i).busy = true) (short : (s.next cfg i).fetch.pcInc2 = true) :
    Decompress.Ordinary (s.next cfg i).irReg := by
  rcases Bool.eq_false_or_eq_true (s.irWrite i) with writes | kept
  · have flag : (s.next cfg i).fetch.pcInc2 = (s.fetch.output s.imemDataStagingReg).isCompressed := by
      simp [FetchBuffer.Regs.pcInc2,bufferNext,FetchBuffer.Regs.next,Regs.fetchInputs,writes]
    rw [flag] at short
    rw [irNext,if_pos writes]
    exact Decompress.decompressOrdinary short
  · have was := (busyNext busy).resolve_left (by simp [kept])
    have flag : (s.next cfg i).fetch.pcInc2 = s.fetch.pcInc2 := (bufferKept cfg kept).2.2
    rw [irNext,kept,if_neg Bool.false_ne_true]
    exact h.short was (by rw [← flag]; exact short)

theorem sleepsOn (h : Sleeping cfg s) (sleeps : s.wfiActive = true) (quiet : s.interruptTaken i = false)
    (runs : i.reqHalt = false) : s.nextState i = .fetch ∧ (s.next cfg i).pc = s.pc ∧
      (s.next cfg i).instrPcReg = s.instrPcReg ∧ (s.next cfg i).dec = s.dec ∧ (s.next cfg i).memReqInflight = false ∧
      (s.access i).valid = false := by
  obtain ⟨state,still,_⟩ := h.sleeps sleeps
  have absent := requestsNothing (i := i) (fun _ => sleeps) (by simp [Regs.dmemReq,state])
  have kept : s.irWrite i = false := by simp [Regs.irWrite,sleeps]
  refine ⟨by simp [Regs.nextState,state,runs,sleeps],fetchKeepsPc state quiet,?_,decKept (by simp [state]),
    by simp [still,absent.2],?_⟩
  · rw [instrPcNext,kept,if_neg Bool.false_ne_true]
  · simp [Regs.access,absent.1,Regs.dmemReq,state]

theorem sleepsNext (h : Sleeping cfg s) (sleeps : (s.next cfg i).wfiActive = true) : s.nextState i = .fetch ∧
    (s.next cfg i).memReqInflight = false ∧ (s.next cfg i).dec.isWfi = true ∧
    (s.next cfg i).pc = (s.next cfg i).instrPcReg + 4 := by
  rw [wfiNext,Bool.and_eq_true,Bool.not_eq_true',Bool.or_eq_false_iff,Bool.or_eq_true] at sleeps
  obtain ⟨⟨quiet,runs⟩,before | waits⟩ := sleeps
  · obtain ⟨_,_,wfi,pc⟩ := h.sleeps before
    obtain ⟨fetches,samePc,sameInstr,dec,idle,_⟩ := sleepsOn h before quiet runs
    rw [samePc,sameInstr,dec]
    exact ⟨fetches,idle,wfi,pc⟩
  · obtain ⟨state,wfi,_,fetches,still⟩ := waitsIn (i := i) h.toSequenced waits
    have absent := (requestsNothing (s := s) (i := i) (by simp [state]) (by simp [Regs.dmemReq,state])).2
    rw [resumesAfter h waits,decKept (by simp [state]),instrPcNext,irKept (by simp [state]),if_neg Bool.false_ne_true]
    exact ⟨fetches,by simp [still,absent],wfi,rfl⟩

theorem sleepingNext (h : Sleeping cfg s) (i : Inputs) : Sleeping cfg (s.next cfg i) where
  toSequenced := sequencedNext h.toSequenced i
  short busy := shortNext h busy
  sleeps sleeps := sleepsNext h sleeps

theorem fetchTrapped (cfg : Config) (state : s.currentState = .fetch) (taken : s.interruptTaken i = true) :
    s.csrTrapEntry i = true ∧ s.nextState i = .fetch ∧ (s.next cfg i).pc = s.csr.mtvec ∧
      (s.next cfg i).csr.mepc = CsrFile.sanitizeMepc s.pc := by
  have entry : s.csrTrapEntry i = true := by simp [Regs.csrTrapEntry,state,taken]
  have runs : i.reqHalt = false := by
    simp only [Regs.interruptTaken,Bool.and_eq_true,Bool.not_eq_true'] at taken
    exact taken.2
  refine ⟨entry,by simp [Regs.nextState,state,runs,taken],?_,?_⟩
  · simp [Regs.pcWrite,Regs.nextPcValue,state,taken,entry]
  · rw [csrNext,(CsrFile.Regs.enters entry).1]
    simp [Regs.csrInputs,Regs.csrTrapMepc,state]

structure Waits (cfg : Config) (s : Regs) (i : Inputs) : Prop where
  begins : s.waitsNow = true → (s.next cfg i).currentState = .fetch ∧ (s.next cfg i).pc = s.instrPcReg + 4 ∧
    (s.next cfg i).wfiActive = !(s.csr.mieBit && s.interruptPending i || i.reqHalt) ∧
    ∀ j, (s.next cfg i).csr.mieBit = true → (s.next cfg i).interruptPending j = true → j.reqHalt = false →
      (s.next cfg i).csrTrapEntry j = true ∧
      ((s.next cfg i).next cfg j).csr.mepc = CsrFile.sanitizeMepc (s.instrPcReg + 4)
  wakes : s.csr.mieBit = true → s.interruptPending i = true → (s.next cfg i).wfiActive = false
  halts : i.reqHalt = true → (s.next cfg i).wfiActive = false
  traps : s.wfiActive = true → s.csr.mieBit = true → s.interruptPending i = true → i.reqHalt = false →
    s.dec.isWfi = true ∧ s.csrTrapEntry i = true ∧ (s.next cfg i).pc = s.csr.mtvec ∧
      (s.next cfg i).csr.mepc = CsrFile.sanitizeMepc (s.instrPcReg + 4)
  sleeps : s.wfiActive = true → (s.csr.mieBit && s.interruptPending i) = false → i.reqHalt = false →
    (s.next cfg i).wfiActive = true ∧ (s.next cfg i).pc = s.pc ∧ (s.access i).valid = false ∧ s.csrTrapEntry i = false

theorem takenWhen (quiet : s.memReqInflight = false) (runs : i.reqHalt = false) :
    s.interruptTaken i = (s.csr.mieBit && s.interruptPending i) := by
  simp [Regs.interruptTaken,Regs.interruptPending,quiet,runs]

theorem sleepingShows (h : Sleeping cfg s) (i : Inputs) : Waits cfg s i where
  begins waits := by
    obtain ⟨state,_,_,fetches,still⟩ := waitsIn (i := i) h.toSequenced waits
    have absent := (requestsNothing (s := s) (i := i) (by simp [state]) (by simp [Regs.dmemReq,state])).2
    have idle : (s.next cfg i).memReqInflight = false := by simp [still,absent]
    refine ⟨fetches,resumesAfter h waits,?_,fun j enabled pending runs => ?_⟩
    · rw [wfiNext,waits,Bool.or_true,Bool.and_true]
      rcases Bool.eq_false_or_eq_true i.reqHalt with halt | runs
      · simp [halt]
      · rw [takenWhen still runs]
    · have taken := takenWhen idle runs
      rw [enabled,pending] at taken
      obtain ⟨entry,_,_,mepc⟩ := fetchTrapped cfg (s := s.next cfg i) fetches taken
      rw [resumesAfter h waits] at mepc
      exact ⟨entry,mepc⟩
  wakes enabled pending := by
    rw [wfiNext]
    rcases Bool.eq_false_or_eq_true s.memReqInflight with asked | still
    · have awake : s.wfiActive = false := by
        rcases Bool.eq_false_or_eq_true s.wfiActive with sleeps | awake
        · have still := (h.sleeps sleeps).2.1
          rw [asked] at still
          contradiction
        · exact awake
      have absent : s.waitsNow = false := by
        rcases Bool.eq_false_or_eq_true s.waitsNow with waits | absent
        · have still := (waitsIn (i := i) h.toSequenced waits).2.2.2.2
          rw [asked] at still
          contradiction
        · exact absent
      simp [awake,absent]
    · rcases Bool.eq_false_or_eq_true i.reqHalt with halt | runs
      · simp [halt]
      · simp [takenWhen still runs,enabled,pending]
  halts halt := by simp [wfiNext,halt]
  traps sleeps enabled pending runs := by
    obtain ⟨state,still,wfi,pc⟩ := h.sleeps sleeps
    have taken := takenWhen still runs
    rw [enabled,pending] at taken
    obtain ⟨entry,_,vector,mepc⟩ := fetchTrapped cfg state taken
    rw [pc] at mepc
    exact ⟨wfi,entry,vector,mepc⟩
  sleeps sleeps absent runs := by
    obtain ⟨state,still,_⟩ := h.sleeps sleeps
    have quiet := takenWhen (i := i) still runs
    rw [absent] at quiet
    obtain ⟨_,pc,_,_,_,silent⟩ := sleepsOn h sleeps quiet runs
    exact ⟨by simp [wfiNext,quiet,runs,sleeps],pc,silent,by simp [Regs.csrTrapEntry,state,quiet]⟩

/- In every run from reset a WFI wakes on exactly the interrupts that are taken. -/
theorem wfiWaits (cfg : Config) (s : Regs) (inputs : List Inputs) :
    (machine cfg).Steps (Waits cfg) (reset s) inputs := by
  have always : (machine cfg).Steps (fun _ _ => True) (reset s) inputs := fun _ _ => trivial
  exact stepsAll (fun s i (h : Sleeping cfg s) _ => ⟨sleepingNext h i,sleepingShows h i⟩) (resetSleeping s) always

/- `csrrsi` sets MSIE and `wfi` waits, with the software interrupt pending and MIE clear. -/
def pended : List Inputs :=
  (drive ⟨true,true⟩ (program [0x30446073,0x10500073]) 40 based).map fun i => {i with msip := true}

theorem sleepsWithMieClear :
    let s := (machine ⟨true,true⟩).final based pended
    let i := {respond (program [0x30446073,0x10500073]) s with msip := true}
    s.wfiActive = true ∧ s.interruptPending i = true ∧ i.reqHalt = false ∧ (s.next ⟨true,true⟩ i).wfiActive = true ∧
      (s.next ⟨true,true⟩ i).pc = 8 ∧ s.csrTrapEntry i = false := by
  decide +kernel

end RiscvSoc.Core
