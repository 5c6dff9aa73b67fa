import RiscvSoc.Isa.Sequential
import RiscvSoc.Rtl.Cpu.ProgramExecution

/-! The CPU refines the sequential machine of the ISA: after each instruction that it completes, the program counter, the
registers and the memory are those of that many steps of the machine, whatever the bus makes it wait. -/
namespace RiscvSoc.Core
open Mealy Machine
open ByteMemory
open Isa (Instr Computer Program)

variable {cfg : Config} {text : BitVec 32 → Prop} {entry : BitVec 32} {p : Platform} {c : Computer} {i : Inputs}

structure Agrees (p : Platform) (c : Computer) : Prop where
  state : p.cpu.core.currentState = .fetch
  pc : p.cpu.core.pc = c.hart.pc
  registers : operand p.cpu.core.bankA = c.hart.x ∧ operand p.cpu.core.bankB = c.hart.x
  memory : p.bus.memory = c.memory

structure ReadsZero (s : Regs) : Prop where
  rs1 : s.currentState.going = true → s.dec.rs1 = 0 → s.aReg = 0
  rs2 : s.currentState.going = true → s.dec.rs2 = 0 → s.bReg = 0

theorem Linked.agrees {code : Code} {asked : Option Request} (linked : Linked cfg code p asked) (shared : Shared p c)
    (state : p.cpu.core.currentState = .fetch) (pc : p.cpu.core.pc = c.hart.pc) : Agrees p c where
  state := state
  pc := pc
  registers := ⟨shared.registers,shared.registers ▸ (funext (operandSame linked.equipped.banks)).symm⟩
  memory := shared.memory

theorem Works.retires (works : Works cfg text entry p c) (supports : Supports entry p i) (last : completes p i = true) :
    ∃ d, c.Steps cfg.enableM text d ∧ Agrees (p.next cfg i) d := by
  cases works with
  | boots _ state | fetches _ state | halts _ state =>
    exact absurd (last.symm.trans (completesBusy (by rw [state]; rfl) i)) (by decide)
  | executes linked begun runs tells busy =>
    cases executesCycle linked begun runs tells busy supports with
    | stays on => exact absurd (last.symm.trans on) (by decide)
    | @ended d _ done next =>
      have plain := plainRuns begun.latched runs
      have finished : (p.next cfg i).cpu.core.currentState.busy = false := by
        have same : completes p i = !(p.next cfg i).cpu.core.currentState.busy :=
          completesLast linked.equipped.toReached plain busy (p.cpu.given i)
        simpa [last] using same
      have state := endsFetch (runsStep begun.latched runs busy i).1 finished
      refine ⟨d,done,?_⟩
      cases next with
      | fetches rests _ pc => exact rests.toLinked.agrees rests.toShared state pc
      | boots _ other | halts _ other => exact absurd (state.symm.trans other) (by decide)
      | executes _ _ _ _ busy => exact absurd (busy.symm.trans finished) (by decide)

theorem Works.readsZero (works : Works cfg text entry p c) : ReadsZero p.cpu.core := by
  have idle {state : State} (here : p.cpu.core.currentState = state) (other : state.going = false) : ReadsZero p.cpu.core :=
    ⟨fun going => absurd (going.symm.trans (here ▸ other)) (by decide),
      fun going => absurd (going.symm.trans (here ▸ other)) (by decide)⟩
  cases works with
  | boots _ state | fetches _ state | halts _ state => exact idle state rfl
  | executes linked =>
    have operands := linked.equipped.operands
    refine ⟨fun going zero => ?_,fun going zero => ?_⟩
    · rw [(operands going).1,zero]
      exact if_pos rfl
    · rw [(operands going).2,zero]
      exact if_pos rfl

/- In every run from reset over a memory that answers truly, however long it takes, and for every program of base
instructions, compressed or not, that leaves its own code alone: after each instruction that completes the CPU is where the
sequential machine is after as many steps, `x0` is read as zero all the time, and an instruction takes 44 cycles at most
besides those in which the CPU waits. -/
theorem baseRefined (cfg : Config) (h₀ : Computing) (banks : h₀.core.bankA.mem = h₀.core.bankB.mem) (entry : BitVec 32)
    (memory : Memory 32) (program : Program cfg.enableM ⟨hart h₀.core entry,memory⟩) (inputs : List Inputs) (i : Inputs)
    (supports : (platform cfg).Steps (Supports entry) ⟨h₀.reset,memory,none⟩ (inputs ++ [i])) :
    let m := platform cfg
    let p := m.final ⟨h₀.reset,memory,none⟩ inputs
    let retired := (m.history (fun p i => [completes p i]) ⟨h₀.reset,memory,none⟩ inputs).count true
    (completes p i = true → ∃ c, (∀ d, Reaches (Computer.Step cfg.enableM) ⟨hart h₀.core entry,memory⟩ (retired + 1) d ↔ d = c) ∧
      Agrees (p.next cfg i) c) ∧
    ReadsZero p.cpu.core ∧
    (m.history (fun p i => [stalls p i]) ⟨h₀.reset,memory,none⟩ inputs).count false ≤ 44 * (retired + 1) := by
  intro m p retired
  obtain ⟨ran,next⟩ := stepsAppend.mp supports
  have now : Supports entry p i := (stepsCons.mp next).1
  obtain ⟨before,after,c,split,follows,works,spent,stops⟩ :=
    programWorks cfg h₀ banks entry memory (Program.Text cfg.enableM ⟨hart h₀.core entry,memory⟩) inputs ran
  have reaches := program.reached follows
  -- a program has a next step in every state that it comes to
  obtain rfl : after = [] := stops.resolve_right fun stuck => by
    obtain ⟨d,step⟩ := program.goes reaches
    exact stuck ⟨d,program.steps reaches step⟩
  obtain rfl : inputs = before := by simpa using split
  refine ⟨fun last => ?_,works.readsZero,spent⟩
  obtain ⟨d,step,agrees⟩ := works.retires now last
  have there := Reaches.goes reaches (program.stepOf reaches step)
  refine ⟨d,fun e => ⟨fun other => ?_,?_⟩,agrees⟩
  · exact other.unique (fun c d e (left : c.Step cfg.enableM d) right => left.unique right) there
  · rintro rfl
    exact there

def mixedLoop : Memory 32 :=
  program [(Instr.store .half 0 1 0x42).encode,Compressed.cJ (-6) ++ Compressed.cAddi 1 3]

structure Looping (c : Computer) : Prop where
  pc : c.hart.pc = 0 ∨ c.hart.pc = 4 ∨ c.hart.pc = 6
  code : ∀ a : BitVec 32, a.toNat < 8 → c.memory a = mixedLoop a

theorem Looping.goesOn (loops : Looping c) : ∃ instr length, c.Fetches instr length ∧ instr.multiplies = false ∧
    c.hart.pc.toNat + length.toNat ≤ 8 ∧ Looping (c.executed instr length) := by
  have low (a : BitVec 32) (inside : a.toNat < 8) := loops.code a inside
  rcases loops.pc with pc | pc | pc
  · refine ⟨.store .half 0 1 0x42,4,.whole ?_,rfl,by rw [pc]; decide,.inr (.inl ?_),fun a inside => ?_⟩
    · rw [pc,word,halfword,halfword,low _ (by decide),low _ (by decide),low _ (by decide),low _ (by decide)]
      decide
    · rw [Computer.executed,pc]
      rfl
    · refine (storeOther c.memory _ a ?_).trans (low a inside)
      have address : c.hart.x 0 + Isa.signed 0x42#12 = 66#32 := by rw [c.hart.zero]; decide
      change (Isa.Width.half.stored (c.hart.x 1)).length ≤ (a - (c.hart.x 0 + Isa.signed 0x42#12)).toNat
      rw [address,Isa.Width.stored,List.length_take,BitVec.toNat_sub]
      change min 2 _ ≤ (2 ^ 32 - 66 + a.toNat) % 2 ^ 32
      omega
  · refine ⟨.immediate .addi 1 1 3,2,.compressed ?_,rfl,by rw [pc]; decide,.inr (.inr ?_),loops.code⟩
    · rw [pc,halfword,low _ (by decide),low _ (by decide)]
      exact Compressed.Counterpart.addi 1 3
    · rw [Computer.executed,pc]
      rfl
  · refine ⟨.jal 0 (-3),2,.compressed ?_,rfl,by rw [pc]; decide,.inl ?_,loops.code⟩
    · rw [pc,halfword,low _ (by decide),low _ (by decide)]
      exact Compressed.Counterpart.j (-6)
    · rw [Computer.executed,pc]
      change Isa.target (c.hart.pc + Isa.halves (-3#20)) = 0
      rw [pc]
      decide

def mixedStart : Computer := ⟨hart settled.core 0,mixedLoop⟩

theorem mixedLooping {n : Nat} (reaches : Reaches (Computer.Step true) mixedStart n c) : Looping c := by
  refine reaches.invariant (fun c d (loops : Looping c) step => ?_) ⟨.inl rfl,fun _ _ => rfl⟩
  obtain ⟨instr,length,fetches,plain,_,next⟩ := loops.goesOn
  have one : c.Step true (c.executed instr length) := .instruction fetches fun multiplies => by simp [plain] at multiplies
  rwa [step.unique one]

theorem mixedProgram : Program true mixedStart where
  goes reaches := by
    obtain ⟨instr,length,fetches,plain,_⟩ := (mixedLooping reaches).goesOn
    exact ⟨_,.instruction fetches fun multiplies => by simp [plain] at multiplies⟩
  kept reaches fetches _ _ others k low := by
    obtain ⟨instr,length,same,_,inside,_⟩ := (mixedLooping reaches).goesOn
    have long := same.found.2.2.symm.trans fetches.found.2.2
    rw [long] at inside
    refine (mixedLooping others).code _ ?_
    rw [BitVec.toNat_add,BitVec.toNat_ofNat]
    omega

/- Once around the loop. -/
theorem mixedRefined :
    let m := platform ⟨true,true⟩
    let start : Platform := ⟨settled.reset,mixedLoop,none⟩
    let p := m.final start (Platform.drive ⟨true,true⟩ 32 start)
    ∃ c, (∀ d, Reaches (Computer.Step true) mixedStart 3 d ↔ d = c) ∧ Agrees (p.next ⟨true,true⟩ p.answer) c := by
  intro m start p
  have supports : m.Steps (Supports 0) start (Platform.drive ⟨true,true⟩ 32 start ++ [p.answer]) :=
    stepsAppend.mpr ⟨driveSupports ⟨true,true⟩ 32 start,stepsCons.mpr ⟨answerSupports p,by simp [Machine.Steps]⟩⟩
  have refined := (baseRefined ⟨true,true⟩ settled rfl 0 mixedLoop mixedProgram _ _ supports).1 (by decide +kernel)
  have two : (m.history (fun p i => [completes p i]) start (Platform.drive ⟨true,true⟩ 32 start)).count true = 2 := by
    decide +kernel
  rwa [two] at refined

end RiscvSoc.Core
