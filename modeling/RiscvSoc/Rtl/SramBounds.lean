import RiscvSoc.Rtl.SramPeripheral

/-! The word indices on the ports of the array while a request is served. -/
namespace RiscvSoc.Sram
open Mealy

/- Both words of an access lie inside the array. -/
def InBounds (r : Request) : Prop :=
  r.wordAddr.toNat < depthWords ∧ (r.unaligned = true → r.wordAddr.toNat + 1 ≠ depthWords)

def splits : State → Bool
  | .writeSplitSecond | .readSplitSecond | .readSplitCapture | .readSplitResp => true
  | .idle | .writeResp | .readWait | .readResp => false

/- The unit is busy with this request. -/
structure Serves (r : Request) (s : Regs) : Prop where
  word : s.reqWordAddr = r.wordAddr
  split : splits s.state = true → r.unaligned = true

theorem acceptServes (s : Regs) (i : Inputs) (idle : s.state = .idle) (valid : i.memAValid = true) :
    Serves i.memA (step s i) ∧ (step s i).state ≠ .idle ∧
      (i.memA.unaligned = true → splits (step s i).state = true) := by
  have taken : memAHandshake s i = true := by simp [memAHandshake,valid,idle]
  have next : step s i = {accept s i.memA with ram := s.ram.step (port s i)} := by
    simp only [step,control,idle,if_pos taken]
  rw [next]
  cases write : i.memA.we <;> cases split : i.memA.unaligned <;>
    simp only [accept,write,split,if_true,Bool.false_eq_true,if_false] <;>
    exact ⟨⟨rfl,by simp [splits,split]⟩,by simp,by simp [splits]⟩

theorem servesStep {r : Request} {s : Regs} (serves : Serves r s) (busy : s.state ≠ .idle) (i : Inputs) :
    Serves r (step s i) := by
  have word : (step s i).reqWordAddr = s.reqWordAddr := by
    cases state : s.state <;> simp only [step,control,state,respond]
    case idle => exact absurd state busy
    all_goals (try split) <;> (try split) <;> rfl
  have split : splits (step s i).state = true → splits s.state = true := by
    cases state : s.state <;> simp only [step,control,state,respond]
    case idle => exact absurd state busy
    all_goals (try split) <;> (try split) <;> simp [splits,state]
  exact ⟨word.trans serves.word,fun h => serves.split (split h)⟩

theorem succWord {a : WordAddr} (below : a.toNat < depthWords) : (a + 1).toNat = a.toNat + 1 := by
  have one : (1 : WordAddr).toNat = 1 := rfl
  simp only [depthWords] at below
  rw [BitVec.toNat_add,one]
  omega

theorem nextWord {r : Request} (inside : InBounds r) (split : r.unaligned = true) :
    (r.wordAddr + 1).toNat < depthWords := by
  have first := inside.1
  have second := inside.2 split
  rw [succWord first]
  omega


theorem servesInBounds {r : Request} {s : Regs} (inside : InBounds r) (serves : Serves r s)
    (busy : s.state ≠ .idle) (i : Inputs) : ∀ a ∈ presented s i, a.toNat < depthWords := by
  have first : s.reqWordAddr.toNat < depthWords := serves.word ▸ inside.1
  have second (split : splits s.state = true) : (s.reqWordAddr + 1).toNat < depthWords := by
    rw [serves.word]
    exact nextWord inside (serves.split split)
  cases state : s.state with
  | idle => exact absurd state busy
  | writeResp | readWait | readResp =>
    simpa [presented,port,state] using first
  | writeSplitSecond =>
    have next := second (by simp [splits,state])
    simpa [presented,port,state] using ⟨first,next⟩
  | readSplitSecond | readSplitCapture | readSplitResp =>
    have next := second (by simp [splits,state])
    simpa [presented,port,state] using next

theorem serviceInBounds {r : Request} (inside : InBounds r) (rest : List Inputs) :
    ∀ s, Serves r s → ∀ c ∈ (machine.trace s rest).takeWhile (fun c => c.1.state ≠ .idle),
      ∀ a ∈ presented c.1 c.2, a.toNat < depthWords := by
  induction rest with
  | nil => simp
  | cons i rest ih =>
    intro s serves c mem
    rw [Machine.traceCons,List.takeWhile_cons] at mem
    split at mem
    · rename_i busy
      have busy' : s.state ≠ .idle := by simpa using busy
      rcases List.mem_cons.mp mem with rfl | later
      · exact servesInBounds inside serves busy' i
      · exact ih _ (servesStep serves busy' i) c later
    · simp at mem

/- Every index presented while a request is served lies in the array exactly when both words
of the access do. -/
theorem indicesInBounds (s : Regs) (i : Inputs) (idle : s.state = .idle) (valid : i.memAValid = true) :
    (∀ rest, ∀ c ∈ service s i rest, ∀ a ∈ presented c.1 c.2, a.toNat < depthWords) ↔ InBounds i.memA := by
  obtain ⟨serves,busy,split⟩ := acceptServes s i idle valid
  have firstCycle : ∀ a ∈ presented s i, a = i.memA.wordAddr := by
    simp only [presented,port,idle]
    split <;> simp
  constructor
  · intro below
    have first : i.memA.wordAddr.toNat < depthWords :=
      below [] (s,i) (by simp [service]) _ (by simp only [presented,port,idle]; split <;> simp)
    refine ⟨first,fun crosses last => ?_⟩
    have second : i.memA.wordAddr + 1 ∈ presented (step s i) i := by
      have kind := split crosses
      cases state : (step s i).state with
      | idle | writeResp | readWait | readResp => simp [state,splits] at kind
      | writeSplitSecond | readSplitSecond | readSplitCapture | readSplitResp =>
        simp [presented,port,state,serves.word]
    have reached := below [i] (step s i,i) (by simp [service,busy]) _ second
    rw [succWord first] at reached
    omega
  · intro inside rest c mem
    rcases List.mem_cons.mp mem with rfl | later
    · intro a shown
      rw [firstCycle a shown]
      exact inside.1
    · exact serviceInBounds inside rest _ serves c later

/- A halfword over the end of the second word. -/
def reading (addr : Word) (size : BitVec 2) : Inputs := ⟨⟨addr,0,false,size⟩,true,true⟩

theorem straddleInBounds : ¬∃ c ∈ service idleRegs (reading 0x70000007 1) [reading 0 0],
    ∃ a ∈ presented c.1 c.2, ¬a.toNat < depthWords :=
  fun ⟨c,mem,a,shown,out⟩ => out ((indicesInBounds idleRegs (reading 0x70000007 1) rfl rfl).mpr
    ⟨by decide,by decide⟩ [reading 0 0] c mem a shown)

/- The word after the array, which the bus decodes to this peripheral. -/
theorem pastTheArray : ∃ c ∈ service idleRegs (reading 0x70003000 2) [], ∃ a ∈ presented c.1 c.2,
    ¬ a.toNat < depthWords :=
  ⟨(idleRegs,reading 0x70003000 2),by simp [service],3072,by decide,by decide⟩

end RiscvSoc.Sram
