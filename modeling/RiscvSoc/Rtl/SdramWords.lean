import RiscvSoc.Lib.SdramCells
import RiscvSoc.Lib.WordPort
import RiscvSoc.Rtl.SdramRefresh

/-! The controller with the device on its pins as a memory of words behind the word port, as long as no refresh is pending while
an access is on its way. -/
namespace RiscvSoc.SdramController
open Sdram WordPort

variable {c : Cycles}

abbrev Bits := Cells (BitVec 2) (BitVec 13) (BitVec 10) (BitVec 16)

/- From a READ on the pins to the edge that finds its halfword in `phy_dq_captured`. -/
def Cycles.latency (c : Cycles) : Nat := c.readCompletionStages - 2

structure Memory (c : Cycles) where
  regs : Regs c
  cells : Bits

def inputs (x : Wires 24) (phyDqCaptured : BitVec 16) : Inputs := ⟨x.wordRd,x.wordWr,x.wordAddr,x.wordData,phyDqCaptured⟩

def Memory.next (s : Memory c) (x : Wires 24) (phyDqCaptured : BitVec 16) : Memory c where
  regs := s.regs.next (inputs x phyDqCaptured)
  cells := s.cells.next c.timing c.latency s.regs.command s.regs.outputs.phyDq

def port (c : Cycles) : Controller 24 (Memory c) (BitVec 16) := ⟨fun s => s.regs.wordBusy,fun s => s.regs.wordQ,Memory.next⟩

/- Read data arrives when the capture pipe expects it, and no refresh is pending while an access is about to be issued, on the
wires or not yet begun. -/
structure Calm (s : Memory c) (x : Wires 24) (issues : Bool) (phyDqCaptured : BitVec 16) : Prop where
  arrives : ∀ d ∈ s.cells.shown c.latency s.regs.command, phyDqCaptured = d
  apart : s.regs.refreshPending = true → x.strobe = none ∧ issues = false ∧ s.regs.reqPending = false

def bank (a : BitVec 24) : BitVec 2 := a.extractLsb' 22 2
def row (a : BitVec 24) : BitVec 13 := a.extractLsb' 9 13
def column (a : BitVec 24) (second : Bool) : BitVec 10 := a.extractLsb' 0 9 ++ BitVec.ofBool second

/- The halfwords of a word, the high one first. -/
def half (cell : BitVec 2 × BitVec 13 × BitVec 10 → BitVec 16) (a : BitVec 24) (second : Bool) : BitVec 16 :=
  cell (bank a,row a,column a second)

def words (cell : BitVec 2 × BitVec 13 × BitVec 10 → BitVec 16) : Words 24 := fun a => half cell a false ++ half cell a true

theorem columnNext (a : BitVec 24) : (a.extractLsb' 0 9 ++ 0#1 : BitVec 10) + 1 = column a true := by
  have all : ∀ x : BitVec 9, (x ++ 0#1 : BitVec 10) + 1 = x ++ 1#1 := by decide +kernel
  exact all _

theorem columnLow (a : BitVec 24) (second : Bool) : (column a second).getLsbD 0 = second := by
  rw [column,BitVec.getLsbD_append,if_pos (by decide),BitVec.getLsbD_ofBool]
  simp

theorem columnHigh (a : BitVec 24) (second : Bool) {k : Nat} (low : k < 9) : (column a second).getLsbD (k + 1) = a.getLsbD k := by
  rw [column,BitVec.getLsbD_append,if_neg (by omega),BitVec.getLsbD_extractLsb']
  simp [low]

theorem placeEq {a b : BitVec 24} {second second' : Bool} :
    (bank a,row a,column a second) = (bank b,row b,column b second') ↔ a = b ∧ second = second' := by
  constructor
  · intro same
    rw [Prod.mk.injEq,Prod.mk.injEq] at same
    obtain ⟨banks,rows,columns⟩ := same
    have low : second = second' := by
      rw [← columnLow a second,← columnLow b second',columns]
    refine ⟨?_,low⟩
    apply BitVec.eq_of_getLsbD_eq
    intro k inside
    by_cases first : k < 9
    · rw [← columnHigh a second first,← columnHigh b second' first,columns]
    · by_cases middle : k < 22
      · have bit := congrArg (fun x => x.getLsbD (k - 9)) rows
        simpa [row,show k - 9 < 13 by omega,show 9 + (k - 9) = k by omega] using bit
      · have bit := congrArg (fun x => x.getLsbD (k - 22)) banks
        simpa [bank,show k - 22 < 2 by omega,show 22 + (k - 22) = k by omega] using bit
  · rintro ⟨rfl,rfl⟩
    rfl

theorem wordsUpdate (cell : BitVec 2 × BitVec 13 × BitVec 10 → BitVec 16) (a : BitVec 24) (data : BitVec 32) :
    words (Function.update (Function.update cell (bank a,row a,column a false) (data.extractLsb' 16 16))
      (bank a,row a,column a true) (data.extractLsb' 0 16)) = Function.update (words cell) a data := by
  funext b
  by_cases here : b = a
  · subst here
    have apart : (bank b,row b,column b false) ≠ (bank b,row b,column b true) := fun same => by
      simpa using (placeEq.mp same).2
    rw [Function.update_self,words,half,half,Function.update_self,Function.update_of_ne apart,Function.update_self]
    apply BitVec.eq_of_getLsbD_eq
    intro k inside
    rw [BitVec.getLsbD_append]
    by_cases low : k < 16
    · simp [low]
    · simp [low,show k - 16 < 16 by omega,show 16 + (k - 16) = k by omega]
  · have apart (x y : Bool) : (bank b,row b,column b x) ≠ (bank a,row a,column a y) := fun same => here (placeEq.mp same).1
    rw [Function.update_of_ne here,words,half,half]
    simp only [Function.update_of_ne (apart _ _)]
    rfl

/- The request registers, the halfword last captured and, but in ST_IDLE, whether a request is pending. -/
def Regs.taken (s : Regs c) (idle : Bool) : Access 24 × BitVec 16 × Bool :=
  (⟨s.reqIsWrite,s.reqWordAddr,s.reqWordData⟩,s.phyDqSync,!idle && s.reqPending)

theorem takenNext (s : Regs c) (i : Inputs) :
    (s.next i).taken (s.state = .idle) = (s.base i).taken (s.state = .idle) := by
  cases state : s.state with
  | idle =>
    simp only [Regs.next,state,Regs.idle]
    split
    · rfl
    · split <;> rfl
  | readWait =>
    simp only [Regs.next,state,Regs.readWait]
    split
    · split <;> rfl
    · rfl
  | reset | initRefresh0 | initRefresh1 | initMr | initEmr | refresh | activate | writeCmd0 | writeCmd1 | readCmd0 | readCmd1 =>
    simp only [Regs.next,state]
    rfl
  | initWait | initCke | initPrechargeWait | initRefresh0Wait | initRefresh1Wait | initMrWait | initEmrWait
  | refreshWait | readRecovery | writeRecovery | activateWait =>
    simp only [Regs.next,state,Regs.countDown]
    split <;> rfl

theorem silentNext (s : Regs c) (i : Inputs) (other : s.state ≠ .writeCmd0 ∧ s.state ≠ .writeCmd1) :
    (s.next i).phyCmd ≠ cmdWrite := by
  cases state : s.state with
  | writeCmd0 => exact absurd state other.1
  | writeCmd1 => exact absurd state other.2
  | idle =>
    simp only [Regs.next,state,Regs.idle]
    split
    · exact (by decide : cmdNop ≠ cmdWrite)
    · split <;> exact (by decide : cmdNop ≠ cmdWrite)
  | readWait =>
    simp only [Regs.next,state,Regs.readWait]
    split
    · split <;> exact (by decide : cmdNop ≠ cmdWrite)
    · exact (by decide : cmdNop ≠ cmdWrite)
  | reset =>
    simp only [Regs.next,state]
    exact (by decide : cmdNop ≠ cmdWrite)
  | initRefresh0 | initRefresh1 | refresh =>
    simp only [Regs.next,state]
    exact (by decide : cmdAutoref ≠ cmdWrite)
  | initMr | initEmr =>
    simp only [Regs.next,state]
    exact (by decide : cmdLmr ≠ cmdWrite)
  | activate =>
    simp only [Regs.next,state]
    exact (by decide : cmdAct ≠ cmdWrite)
  | readCmd0 | readCmd1 =>
    simp only [Regs.next,state]
    exact (by decide : cmdRead ≠ cmdWrite)
  | initCke =>
    simp only [Regs.next,state,Regs.countDown]
    split
    · exact (by decide : cmdPrechg ≠ cmdWrite)
    · exact (by decide : cmdNop ≠ cmdWrite)
  | initWait | initPrechargeWait | initRefresh0Wait | initRefresh1Wait | initMrWait | initEmrWait
  | refreshWait | readRecovery | writeRecovery | activateWait =>
    simp only [Regs.next,state,Regs.countDown]
    split <;> exact (by decide : cmdNop ≠ cmdWrite)

theorem commandWrites {o : Outputs} {bank : BitVec 2} {column : BitVec 10} {auto : Bool}
    (h : command o = .write bank column auto) : o.phyCmd = cmdWrite := by
  simp only [command] at h
  repeat' split at h
  all_goals first | assumption | contradiction

theorem cellsKept {s : Memory c} (silent : s.regs.phyCmd ≠ cmdWrite) (x : Wires 24) (d : BitVec 16) :
    (s.next x d).cells.cell = s.cells.cell :=
  Cells.leftQuiet (fun _ _ _ write => silent (commandWrites write)) _

section Quiet
variable {s : Regs c} {x : Wires 24} (absent : x.strobe = none) (d : BitVec 16)
include absent

theorem notCaptured : s.captures (inputs x d) = false := by
  have quiet : (x.wordRd || x.wordWr) = false := by
    cases wires : (x.wordRd || x.wordWr) with
    | false => rfl
    | true =>
      rw [Wires.strobe,wires] at absent
      contradiction
  rw [Regs.captures]
  show (!s.reqPending && (x.wordRd || x.wordWr)) = false
  rw [quiet,Bool.and_false]

theorem takenQuiet : (s.next (inputs x d)).taken (s.state = .idle) =
    (⟨s.reqIsWrite,s.reqWordAddr,s.reqWordData⟩,d,!decide (s.state = .idle) && s.reqPending) := by
  rw [takenNext,Regs.taken,Regs.base,notCaptured absent]
  rfl

end Quiet

def Carried (s : Memory c) (age : Nat) (d : BitVec 16) : Prop :=
  if age ≤ c.latency then (s.cells.underWay s.regs.command)[age]? = some (some d) else s.regs.phyDqSync = d

def State.rests : State → Bool
  | .idle | .refresh | .refreshWait => true
  | s => !s.initialised

structure Rests (ws : Words 24) (s : Memory c) : Prop where
  piped : Piped s.regs
  state : s.regs.state.rests = true
  quiet : s.regs.reqPending = false
  free : s.regs.wordBusy = false → s.regs.state = .idle
  silent : s.regs.phyCmd ≠ cmdWrite
  holds : words s.cells.cell = ws

def Regs.request (s : Regs c) : Access 24 := ⟨s.reqIsWrite,s.reqWordAddr,s.reqWordData⟩

def Memory.opened (s : Memory c) (a : Access 24) : Prop := s.cells.row (bank a.addr) = some (row a.addr)

/- Where the controller is with an access; `ws` are the words before it. -/
inductive Work (ws : Words 24) (a : Access 24) (s : Memory c) : Prop where
  | activate (state : s.regs.state = .activate) (got : s.regs.request = a) (silent : s.regs.phyCmd ≠ cmdWrite)
      (holds : words s.cells.cell = ws)
  | opening (state : s.regs.state = .activateWait) (got : s.regs.request = a) (holds : words s.cells.cell = ws)
      (opens : s.regs.command = .active (bank a.addr) (row a.addr) ∨ s.regs.command = .nop ∧ s.opened a)
  | reads (state : s.regs.state = .readCmd0) (got : s.regs.request = a) (read : a.write = false)
      (holds : words s.cells.cell = ws) (command : s.regs.command = .nop) (opened : s.opened a)
  | readSecond (state : s.regs.state = .readCmd1) (got : s.regs.request = a) (read : a.write = false)
      (holds : words s.cells.cell = ws) (command : s.regs.command = .read (bank a.addr) (column a.addr false) false)
      (opened : s.opened a) (valid : s.regs.readCaptureValidPipe.getLsbD 0 = true)
      (low : s.regs.readCaptureLowPipe.getLsbD 0 = false)
  | captures (state : s.regs.state = .readWait) (read : a.write = false) (silent : s.regs.phyCmd ≠ cmdWrite)
      (holds : words s.cells.cell = ws)
      (valid : s.regs.stage + 1 < c.readCompletionStages → s.regs.readCaptureValidPipe.getLsbD (s.regs.stage + 1) = true)
      (low : s.regs.stage + 1 < c.readCompletionStages → s.regs.readCaptureLowPipe.getLsbD (s.regs.stage + 1) = false)
      (second : Carried s s.regs.stage (half s.cells.cell a.addr true))
      (first : if s.regs.stage + 1 < c.readCompletionStages then Carried s (s.regs.stage + 1) (half s.cells.cell a.addr false)
        else s.regs.readHighPending = half s.cells.cell a.addr false)
  | recovers (state : s.regs.state = .readRecovery) (read : a.write = false) (silent : s.regs.phyCmd ≠ cmdWrite)
      (holds : words s.cells.cell = ws) (found : s.regs.wordQ = ws a.addr)
  | writes (state : s.regs.state = .writeCmd0) (got : s.regs.request = a) (write : a.write = true)
      (holds : words s.cells.cell = ws) (command : s.regs.command = .nop) (opened : s.opened a)
  | writeSecond (state : s.regs.state = .writeCmd1) (got : s.regs.request = a) (write : a.write = true)
      (holds : words s.cells.cell = ws) (command : s.regs.command = .write (bank a.addr) (column a.addr false) false)
      (driven : s.regs.outputs.phyDq = some (a.data.extractLsb' 16 16)) (opened : s.opened a)
  | writeLast (cell : BitVec 2 × BitVec 13 × BitVec 10 → BitVec 16) (state : s.regs.state = .writeRecovery)
      (write : a.write = true) (holds : words cell = ws)
      (half : s.cells.cell = Function.update cell (bank a.addr,row a.addr,column a.addr false) (a.data.extractLsb' 16 16))
      (command : s.regs.command = .write (bank a.addr) (column a.addr true) true)
      (driven : s.regs.outputs.phyDq = some (a.data.extractLsb' 0 16)) (opened : s.opened a)
      (loaded : s.regs.waited + 1 = c.writeRecovery)
  | written (state : s.regs.state = .writeRecovery) (write : a.write = true) (silent : s.regs.phyCmd ≠ cmdWrite)
      (holds : words s.cells.cell = a.apply ws)

/- An access from its strobe to the fall of `word_busy`. -/
inductive Serves (ws : Words 24) (a : Access 24) : Option (Access 24) → Bool → Memory c → Prop where
  | issued {s} (rests : Rests ws s) (free : s.regs.wordBusy = false) : Serves ws a (some a) false s
  | pending {s} (piped : Piped s.regs) (state : s.regs.state = .idle) (asked : s.regs.reqPending = true)
      (got : s.regs.request = a) (free : s.regs.wordBusy = false) (silent : s.regs.phyCmd ≠ cmdWrite)
      (holds : words s.cells.cell = ws) : Serves ws a none false s
  | works {s} (seen : Bool) (piped : Piped s.regs) (quiet : s.regs.reqPending = false) (busy : s.regs.wordBusy = true)
      (work : Work ws a s) : Serves ws a none seen s
  | answered {s} (rests : Rests (a.apply ws) s) (free : s.regs.wordBusy = false)
      (found : a.write = false → s.regs.wordQ = ws a.addr) : Serves ws a none true s

theorem syncNext (s : Regs c) (i : Inputs) : (s.next i).phyDqSync = i.phyDqCaptured :=
  congrArg (fun t => t.2.1) (takenNext s i)

theorem carriedNext {s : Memory c} {age : Nat} {d captured : BitVec 16} (carried : Carried s age d) (early : age ≤ c.latency)
    (arrives : ∀ d ∈ s.cells.shown c.latency s.regs.command, captured = d) (x : Wires 24) :
    Carried (s.next x captured) (age + 1) d := by
  rw [Carried,if_pos early] at carried
  rw [Carried]
  by_cases more : age + 1 ≤ c.latency
  · rw [if_pos more,← carried]
    exact Cells.underWayNext more _
  · have last : age = c.latency := by omega
    rw [if_neg more]
    have shown : s.cells.shown c.latency s.regs.command = some d := by rw [Cells.shown,← last,carried]; rfl
    exact (syncNext s.regs _).trans (arrives d shown)

section Quiet
variable {s : Regs c} {x : Wires 24} (absent : x.strobe = none) (d : BitVec 16)
include absent

theorem requestKept : (s.next (inputs x d)).request = s.request := congrArg Prod.fst (takenQuiet absent d)

theorem pendingKept (state : s.state ≠ .idle) : (s.next (inputs x d)).reqPending = s.reqPending := by
  have taken := congrArg (fun t => t.2.2) (takenQuiet (s := s) absent d)
  simpa [Regs.taken,state] using taken

end Quiet

theorem restsStep (stages : 0 < c.readCompletionStages) {ws : Words 24} {s : Memory c} (h : Rests ws s) {x : Wires 24}
    (absent : x.strobe = none) (d : BitVec 16) : Rests ws (s.next x d) := by
  have piped : Piped (s.next x d).regs := pipedNext stages h.piped _
  have holds : words (s.next x d).cells.cell = ws := by rw [cellsKept h.silent,h.holds]
  have state := h.state
  have quiet := h.quiet
  have still : (s.regs.base (inputs x d)).reqPending = false := by
    rw [Regs.base,notCaptured absent,quiet]
    rfl
  have silent : (s.next x d).regs.phyCmd ≠ cmdWrite := by
    refine silentNext s.regs _ ⟨?_,?_⟩ <;> intro write <;> rw [write] at state <;> contradiction
  suffices facts : (s.regs.next (inputs x d)).state.rests = true ∧ (s.regs.next (inputs x d)).reqPending = false ∧
      ((s.regs.next (inputs x d)).wordBusy = false → (s.regs.next (inputs x d)).state = .idle) from
    ⟨piped,facts.1,facts.2.1,facts.2.2,silent,holds⟩
  cases here : s.regs.state with
  | activate | activateWait | readCmd0 | readCmd1 | readWait | readRecovery | writeCmd0 | writeCmd1 | writeRecovery =>
    rw [here] at state
    contradiction
  | idle =>
    simp only [Regs.next,here,Regs.idle,quiet]
    split
    · exact ⟨rfl,still,fun free => by contradiction⟩
    · exact ⟨by rw [if_neg (by decide)]; simp only [Regs.base,here]; rfl,by rw [if_neg (by decide)]; exact still,
        fun _ => by rw [if_neg (by decide)]; exact here⟩
  | refresh =>
    simp only [Regs.next,here]
    exact ⟨rfl,still,fun free => absurd (h.free free) (by simp [here])⟩
  | reset | initRefresh0 | initRefresh1 | initMr | initEmr =>
    simp only [Regs.next,here]
    exact ⟨rfl,still,fun free => by contradiction⟩
  | initEmrWait | refreshWait =>
    simp only [Regs.next,here,Regs.countDown]
    split
    · exact ⟨rfl,still,fun _ => rfl⟩
    · exact ⟨by simp only [Regs.base,here]; rfl,still,fun free => by contradiction⟩
  | initWait | initCke | initPrechargeWait | initRefresh0Wait | initRefresh1Wait | initMrWait =>
    simp only [Regs.next,here,Regs.countDown]
    split
    · exact ⟨rfl,still,fun free => by contradiction⟩
    · exact ⟨by simp only [Regs.base,here]; rfl,still,fun free => by contradiction⟩

theorem pinsAddress (address : BitVec 10) (second : Bool) :
    (0b00#2 ++ BitVec.ofBool second ++ address : BitVec 13).extractLsb' 0 10 = address := by
  apply BitVec.eq_of_getLsbD_eq
  intro k inside
  rw [BitVec.getLsbD_extractLsb',Nat.zero_add,BitVec.getLsbD_append,if_pos inside]
  simp [inside]

theorem commandReads {n : Regs c} {b : BitVec 2} {address : BitVec 10} {second : Bool} (cmd : n.phyCmd = cmdRead)
    (ba : n.phyBa = b) (pins : n.phyA = 0b00#2 ++ BitVec.ofBool second ++ address) : n.command = .read b address second := by
  rw [Regs.command,command]
  simp only [Regs.outputs,cmd,ba,pins,pinsAddress,accessA10]
  rfl

theorem commandPuts {n : Regs c} {b : BitVec 2} {address : BitVec 10} {second : Bool} (cmd : n.phyCmd = cmdWrite)
    (ba : n.phyBa = b) (pins : n.phyA = 0b00#2 ++ BitVec.ofBool second ++ address) : n.command = .write b address second := by
  rw [Regs.command,command]
  simp only [Regs.outputs,cmd,ba,pins,pinsAddress,accessA10]
  rfl

theorem recoveryNext {s : Memory c} (i : Inputs) (state : s.regs.state = .readRecovery ∨ s.regs.state = .writeRecovery) :
    (s.regs.waited = 0 ∧ s.regs.next i = {s.regs.base i with wordBusy := false, state := .idle}) ∨
    s.regs.next i = {s.regs.base i with wordBusy := true, waitCounter := s.regs.waitCounter - 1} := by
  have step : s.regs.next i = s.regs.countDown {s.regs.base i with wordBusy := true}
      {s.regs.base i with wordBusy := false, state := .idle} := by
    rcases state with state | state <;> simp only [Regs.next,state]
  rcases countedDown s.regs {s.regs.base i with wordBusy := true}
    {s.regs.base i with wordBusy := false, state := .idle} with ⟨zero,goes⟩ | ⟨_,-,waits,-⟩
  · exact .inl ⟨zero,step.trans goes⟩
  · exact .inr (step.trans waits)

section Work
variable (fit : Fit c) (stages : 2 ≤ c.readCompletionStages) {ws : Words 24} {a : Access 24} {s : Memory c}
  (piped : Piped s.regs) (quiet : s.regs.reqPending = false) (busy : s.regs.wordBusy = true)
  {x : Wires 24} (absent : x.strobe = none) {d : BitVec 16}
  (arrives : ∀ e ∈ s.cells.shown c.latency s.regs.command, d = e)

include stages piped quiet absent in
theorem goesOn (state : s.regs.state ≠ .idle) (busy : (s.regs.next (inputs x d)).wordBusy = true) (work : Work ws a (s.next x d)) :
    Serves ws a none true (s.next x d) :=
  .works true (pipedNext (by omega) piped _) ((pendingKept absent d state).trans quiet) busy work

include stages piped quiet absent

include busy in
theorem activateStep (state : s.regs.state = .activate) (got : s.regs.request = a) (silent : s.regs.phyCmd ≠ cmdWrite)
    (holds : words s.cells.cell = ws) : Serves ws a none true (s.next x d) := by
  have next : s.regs.next (inputs x d) = {s.regs.base (inputs x d) with
      phyCmd := cmdAct
      phyBa := s.regs.reqBank
      phyA := s.regs.reqRow
      waitCounter := Regs.timer c c.trcd
      state := .activateWait} := by simp only [Regs.next,state]
  refine goesOn stages piped quiet absent (by simp [state]) (by rw [next]; exact busy) (.opening ?_ ?_ ?_ (.inl ?_))
  · show (s.regs.next (inputs x d)).state = _
    rw [next]
  · exact (requestKept absent d).trans got
  · rw [cellsKept silent,holds]
  · show (s.regs.next (inputs x d)).command = _
    rw [next,commandActive rfl,← got]
    rfl

theorem openingStep (state : s.regs.state = .activateWait) (got : s.regs.request = a) (holds : words s.cells.cell = ws)
    (opens : s.regs.command = .active (bank a.addr) (row a.addr) ∨ s.regs.command = .nop ∧ s.opened a) :
    Serves ws a none true (s.next x d) := by
  have opened : (s.next x d).opened a := by
    rcases opens with isOpen | ⟨nop,opened⟩
    · rw [Memory.opened,Memory.next,isOpen]
      exact Cells.rowOpened _ _ _ _ _
    · rw [Memory.opened,Memory.next,nop]
      exact (Cells.rowKept (.inl rfl) _).trans opened
  have kept := (requestKept absent d).trans got
  have same : words (s.next x d).cells.cell = ws := by
    rcases opens with command | ⟨command,-⟩ <;> rw [Memory.next,command] <;> exact holds
  have step : s.regs.next (inputs x d) = s.regs.countDown {s.regs.base (inputs x d) with wordBusy := true}
      {s.regs.base (inputs x d) with wordBusy := true, state := if s.regs.reqIsWrite then .writeCmd0 else .readCmd0} := by
    simp only [Regs.next,state]
  refine goesOn stages piped quiet absent (by simp [state]) ?_ ?_
  · rw [step,Regs.countDown]
    split <;> rfl
  · have write : s.regs.reqIsWrite = a.write := congrArg Access.write got
    rcases countedDown s.regs {s.regs.base (inputs x d) with wordBusy := true}
      {s.regs.base (inputs x d) with wordBusy := true, state := if s.regs.reqIsWrite then .writeCmd0 else .readCmd0} with
      ⟨-,goes⟩ | ⟨_,-,waits,-⟩
    · rw [goes,write] at step
      have silent' : (s.next x d).regs.command = .nop := by
        show (s.regs.next (inputs x d)).command = _
        rw [step,commandNop rfl]
      cases kind : a.write with
      | true => exact .writes (by show (s.regs.next _).state = _; rw [step,kind]; rfl) kept kind same silent' opened
      | false => exact .reads (by show (s.regs.next _).state = _; rw [step,kind]; rfl) kept kind same silent' opened
    · rw [waits] at step
      refine .opening ?_ kept same (.inr ⟨?_,opened⟩)
      · show (s.regs.next _).state = _
        rw [step]
        exact state
      · show (s.regs.next _).command = _
        rw [step,commandNop rfl]

theorem readsStep (state : s.regs.state = .readCmd0) (got : s.regs.request = a) (read : a.write = false)
    (holds : words s.cells.cell = ws) (command : s.regs.command = .nop) (opened : s.opened a) :
    Serves ws a none true (s.next x d) := by
  have next : s.regs.next (inputs x d) =
      s.regs.capture {s.regs.access (s.regs.base (inputs x d)) cmdRead false with state := .readCmd1} false := by
    simp only [Regs.next,state]
  refine goesOn stages piped quiet absent (by simp [state]) (by rw [next]; rfl)
    (.readSecond ?_ ((requestKept absent d).trans got) read ?_ ?_ ?_ ?_ ?_)
  · show (s.regs.next _).state = _
    rw [next]
    rfl
  · rw [Memory.next,command]
    exact holds
  · show (s.regs.next _).command = _
    rw [next,← got]
    exact commandReads rfl rfl rfl
  · rw [Memory.opened,Memory.next,command]
    exact (Cells.rowKept (.inl rfl) _).trans opened
  · show (s.regs.next _).readCaptureValidPipe.getLsbD 0 = true
    rw [next]
    show (s.regs.readCaptureValidPipe.shiftConcat true).getLsbD 0 = true
    rw [BitVec.getLsbD_shiftConcat]
    simp
    omega
  · show (s.regs.next _).readCaptureLowPipe.getLsbD 0 = false
    rw [next]
    show (s.regs.readCaptureLowPipe.shiftConcat false).getLsbD 0 = false
    rw [BitVec.getLsbD_shiftConcat]
    simp

include arrives in
theorem readSecondStep (fit : Fit c) (state : s.regs.state = .readCmd1) (got : s.regs.request = a) (read : a.write = false)
    (holds : words s.cells.cell = ws) (command : s.regs.command = .read (bank a.addr) (column a.addr false) false)
    (opened : s.opened a) (valid : s.regs.readCaptureValidPipe.getLsbD 0 = true)
    (low : s.regs.readCaptureLowPipe.getLsbD 0 = false) : Serves ws a none true (s.next x d) := by
  have next : s.regs.next (inputs x d) =
      s.regs.capture {s.regs.access (s.regs.base (inputs x d)) cmdRead true with state := .readWait} true := by
    simp only [Regs.next,state]
  have same : (s.next x d).cells.cell = s.cells.cell := by rw [Memory.next,command]; rfl
  have stage : (s.next x d).regs.stage = 0 := by
    cases moveNext fit (by omega) piped (by rw [state]; rfl) (inputs x d) with
    | readLast _ _ stage => exact stage
    | waits other => rcases other with other | other | other | other <;> rw [state] at other <;> contradiction
    | settles other => rcases other with other | other | other <;> rw [state] at other <;> contradiction
    | refreshStarts other | accessStarts other | rests other | refresh other | activate other | writes other | reads other
    | readSecond other | captures other | captured other | writeSecond other | writeLast other =>
      rw [state] at other
      contradiction
  have pins : (s.next x d).regs.command = .read (bank a.addr) (column a.addr true) true := by
    show (s.regs.next _).command = _
    rw [next,← got]
    exact commandReads rfl rfl (by rw [← columnNext]; rfl)
  have isOpen : (s.next x d).opened a := by
    rw [Memory.opened,Memory.next,command]
    exact (Cells.rowKept (.inr (.inl ⟨_,_,rfl⟩)) _).trans opened
  have first : Carried s 0 (half s.cells.cell a.addr false) := by
    rw [Carried,if_pos (Nat.zero_le _),command,Cells.underWay,List.getElem?_cons_zero,Cells.foundOpen opened]
    rfl
  refine goesOn stages piped quiet absent (by simp [state]) (by rw [next]; rfl)
    (.captures ?_ read ?_ (by rw [same,holds]) ?_ ?_ ?_ ?_)
  · show (s.regs.next _).state = _
    rw [next]
    rfl
  · exact silentNext s.regs _ (by simp [state])
  · intro more
    rw [stage]
    show (s.regs.next _).readCaptureValidPipe.getLsbD 1 = true
    rw [next]
    show (s.regs.readCaptureValidPipe.shiftConcat true).getLsbD 1 = true
    rw [BitVec.getLsbD_shiftConcat]
    simp [valid]
    omega
  · intro more
    rw [stage]
    show (s.regs.next _).readCaptureLowPipe.getLsbD 1 = false
    rw [next]
    show (s.regs.readCaptureLowPipe.shiftConcat true).getLsbD 1 = false
    rw [BitVec.getLsbD_shiftConcat]
    simp [low]
  · rw [stage,Carried,if_pos (Nat.zero_le _),pins,Cells.underWay,List.getElem?_cons_zero,Cells.foundOpen isOpen]
    rfl
  · rw [stage,if_pos (by omega),same]
    exact carriedNext first (Nat.zero_le _) arrives x

include arrives in
theorem capturesStep (state : s.regs.state = .readWait) (read : a.write = false) (silent : s.regs.phyCmd ≠ cmdWrite)
    (holds : words s.cells.cell = ws)
    (valid : s.regs.stage + 1 < c.readCompletionStages → s.regs.readCaptureValidPipe.getLsbD (s.regs.stage + 1) = true)
    (low : s.regs.stage + 1 < c.readCompletionStages → s.regs.readCaptureLowPipe.getLsbD (s.regs.stage + 1) = false)
    (second : Carried s s.regs.stage (half s.cells.cell a.addr true))
    (first : if s.regs.stage + 1 < c.readCompletionStages then Carried s (s.regs.stage + 1) (half s.cells.cell a.addr false)
      else s.regs.readHighPending = half s.cells.cell a.addr false) : Serves ws a none true (s.next x d) := by
  have same : (s.next x d).cells.cell = s.cells.cell := cellsKept silent x d
  obtain ⟨stage,inside,mark,here⟩ : ∃ stage, stage < c.readCompletionStages ∧
      s.regs.readCaptureLastPipe.toNat = 2 ^ stage ∧ s.regs.readCaptureValidPipe.getLsbD stage = true := by
    rwa [Piped,if_pos state] at piped
  have place : s.regs.stage = stage := by rw [Regs.stage,mark,Nat.log2_two_pow]
  rw [place] at valid low second first
  have top := markMsb mark inside
  have silent' : (s.next x d).regs.phyCmd ≠ cmdWrite := silentNext s.regs _ (by simp [state])
  have busy' : (s.regs.next (inputs x d)).wordBusy = true := by
    simp only [Regs.next,state,Regs.readWait]
    split
    · split <;> rfl
    · rfl
  refine goesOn stages piped quiet absent (by simp [state]) busy' ?_
  by_cases last : stage + 1 = c.readCompletionStages
  · have arrived : s.regs.readCaptureValidPipe.msb = true := by
      rw [BitVec.msb_eq_getLsbD_last,show c.readCompletionStages - 1 = stage by omega]
      exact here
    have late : ¬ stage ≤ c.latency := by
      rw [Cycles.latency]
      omega
    rw [if_neg (by omega)] at first
    rw [Carried,if_neg late] at second
    rw [decide_eq_true last] at top
    have goes : (s.regs.next (inputs x d)).state = .readRecovery ∧
        (s.regs.next (inputs x d)).wordQ = s.regs.readHighPending ++ s.regs.phyDqSync := by
      simp only [Regs.next,state,Regs.readWait]
      rw [if_pos arrived,if_pos top]
      exact ⟨rfl,rfl⟩
    refine .recovers goes.1 read silent' (by rw [same,holds]) ?_
    show (s.regs.next _).wordQ = _
    rw [goes.2,first,second,← holds]
    rfl
  · have more : stage + 1 < c.readCompletionStages := by omega
    have early : stage ≤ c.latency := by
      rw [Cycles.latency]
      omega
    rw [if_pos more] at first
    rw [decide_eq_false last] at top
    have goes : s.regs.next (inputs x d) = if s.regs.readCaptureValidPipe.msb then {s.regs.base (inputs x d) with
        wordBusy := true
        readHighPending := if s.regs.readCaptureLowPipe.msb then s.regs.readHighPending else s.regs.phyDqSync}
        else {s.regs.base (inputs x d) with wordBusy := true} := by
      simp only [Regs.next,state,Regs.readWait,top,Bool.false_eq_true,if_false]
      rfl
    have pipes : (s.regs.next (inputs x d)).state = .readWait ∧
        (s.regs.next (inputs x d)).readCaptureLastPipe = s.regs.readCaptureLastPipe.shiftConcat false ∧
        (s.regs.next (inputs x d)).readCaptureValidPipe = s.regs.readCaptureValidPipe.shiftConcat false ∧
        (s.regs.next (inputs x d)).readCaptureLowPipe = s.regs.readCaptureLowPipe.shiftConcat false := by
      rw [goes]
      split <;> exact ⟨state,rfl,rfl,rfl⟩
    obtain ⟨state',lasts,valids,lows⟩ := pipes
    have stage' : (s.next x d).regs.stage = stage + 1 := by
      show (s.regs.next (inputs x d)).stage = _
      rw [Regs.stage,lasts,markShifts mark more,Nat.log2_two_pow]
    refine .captures state' read silent' (by rw [same,holds]) ?_ ?_ ?_ ?_ <;> rw [stage']
    · intro further
      show (s.regs.next (inputs x d)).readCaptureValidPipe.getLsbD (stage + 1 + 1) = true
      rw [valids,BitVec.getLsbD_shiftConcat]
      simp [further,valid more]
    · intro further
      show (s.regs.next (inputs x d)).readCaptureLowPipe.getLsbD (stage + 1 + 1) = false
      rw [lows,BitVec.getLsbD_shiftConcat]
      simp [low more]
    · rw [same]
      exact carriedNext second early arrives x
    · split
      · rename_i further
        rw [same]
        exact carriedNext first (by rw [Cycles.latency]; omega) arrives x
      · rename_i ends
        have ending : c.readCompletionStages - 1 = stage + 1 := by omega
        have arrived : s.regs.readCaptureValidPipe.msb = true := by
          rw [BitVec.msb_eq_getLsbD_last,ending]
          exact valid more
        have high : s.regs.readCaptureLowPipe.msb = false := by
          rw [BitVec.msb_eq_getLsbD_last,ending]
          exact low more
        rw [Carried,if_neg (by rw [Cycles.latency]; omega)] at first
        rw [same,← first]
        show (s.regs.next (inputs x d)).readHighPending = _
        rw [goes,if_pos arrived,high,if_neg (by decide)]

theorem answeredStep (state : s.regs.state ≠ .idle)
    (goes : s.regs.next (inputs x d) = {s.regs.base (inputs x d) with wordBusy := false, state := .idle})
    (holds : words (s.next x d).cells.cell = a.apply ws) (found : a.write = false → s.regs.wordQ = ws a.addr) :
    Serves ws a none true (s.next x d) := by
  have next : (s.next x d).regs = {s.regs.base (inputs x d) with wordBusy := false, state := .idle} := goes
  have rests : Rests (a.apply ws) (s.next x d) := by
    refine ⟨pipedNext (by omega) piped _,by rw [next]; rfl,(pendingKept absent d state).trans quiet,fun _ => by rw [next],?_,holds⟩
    rw [next]
    exact (by decide : cmdNop ≠ cmdWrite)
  exact .answered rests (by rw [next]) fun read => by rw [next]; exact found read

theorem recoversStep (state : s.regs.state = .readRecovery) (read : a.write = false) (silent : s.regs.phyCmd ≠ cmdWrite)
    (holds : words s.cells.cell = ws) (found : s.regs.wordQ = ws a.addr) : Serves ws a none true (s.next x d) := by
  have same : words (s.next x d).cells.cell = ws := by rw [cellsKept silent,holds]
  rcases recoveryNext (inputs x d) (.inl state) with ⟨-,goes⟩ | waits
  · refine answeredStep stages piped quiet absent (by simp [state]) goes ?_ fun _ => found
    rw [same,Access.apply,read]
    rfl
  · refine goesOn stages piped quiet absent (by simp [state]) (by rw [waits]) (.recovers ?_ read ?_ same ?_)
    · show (s.regs.next _).state = _
      rw [waits]
      exact state
    · exact silentNext s.regs _ (by simp [state])
    · show (s.regs.next _).wordQ = _
      rw [waits]
      exact found

theorem writesStep (state : s.regs.state = .writeCmd0) (got : s.regs.request = a) (write : a.write = true)
    (holds : words s.cells.cell = ws) (command : s.regs.command = .nop) (opened : s.opened a) :
    Serves ws a none true (s.next x d) := by
  have next : s.regs.next (inputs x d) = {s.regs.access (s.regs.base (inputs x d)) cmdWrite false with
      phyDqOe := true
      phyDqOut := s.regs.reqWordData.extractLsb' 16 16
      state := .writeCmd1} := by simp only [Regs.next,state]
  refine goesOn stages piped quiet absent (by simp [state]) (by rw [next]; rfl)
    (.writeSecond ?_ ((requestKept absent d).trans got) write ?_ ?_ ?_ ?_)
  · show (s.regs.next _).state = _
    rw [next]
  · rw [Memory.next,command]
    exact holds
  · show (s.regs.next _).command = _
    rw [next,← got]
    exact commandPuts rfl rfl rfl
  · show (s.regs.next _).outputs.phyDq = _
    rw [next,← got]
    rfl
  · rw [Memory.opened,Memory.next,command]
    exact (Cells.rowKept (.inl rfl) _).trans opened

theorem writeSecondStep (fit : Fit c) (state : s.regs.state = .writeCmd1) (got : s.regs.request = a) (write : a.write = true)
    (holds : words s.cells.cell = ws) (command : s.regs.command = .write (bank a.addr) (column a.addr false) false)
    (driven : s.regs.outputs.phyDq = some (a.data.extractLsb' 16 16)) (opened : s.opened a) :
    Serves ws a none true (s.next x d) := by
  have next : s.regs.next (inputs x d) = {s.regs.access (s.regs.base (inputs x d)) cmdWrite true with
      phyDqOe := true
      phyDqOut := s.regs.reqWordData.extractLsb' 0 16
      waitCounter := Regs.timer c c.writeRecovery
      state := .writeRecovery} := by simp only [Regs.next,state]
  have isOpen : (s.next x d).opened a := by
    rw [Memory.opened,Memory.next,command]
    exact (Cells.rowKept (.inr (.inr ⟨_,_,rfl⟩)) _).trans opened
  have covers := fit.writeRecovery
  have present := fit.trp
  refine goesOn stages piped quiet absent (by simp [state]) (by rw [next]; rfl)
    (.writeLast s.cells.cell ?_ write holds ?_ ?_ ?_ isOpen ?_)
  · show (s.regs.next _).state = _
    rw [next]
  · rw [Memory.next,command,driven]
    exact Cells.leftOpen opened _ false _
  · show (s.regs.next _).command = _
    rw [next,← got]
    exact commandPuts rfl rfl (by rw [← columnNext]; rfl)
  · show (s.regs.next _).outputs.phyDq = _
    rw [next,← got]
    rfl
  · exact loadedWait ⟨by omega,covers.2⟩ (by show (s.regs.next _).waitCounter = _; rw [next])

theorem writeLastStep (slow : 2 ≤ c.writeRecovery) (cell : BitVec 2 × BitVec 13 × BitVec 10 → BitVec 16)
    (state : s.regs.state = .writeRecovery) (write : a.write = true) (holds : words cell = ws)
    (half : s.cells.cell = Function.update cell (bank a.addr,row a.addr,column a.addr false) (a.data.extractLsb' 16 16))
    (command : s.regs.command = .write (bank a.addr) (column a.addr true) true)
    (driven : s.regs.outputs.phyDq = some (a.data.extractLsb' 0 16)) (opened : s.opened a)
    (loaded : s.regs.waited + 1 = c.writeRecovery) : Serves ws a none true (s.next x d) := by
  have stored : words (s.next x d).cells.cell = a.apply ws := by
    rw [Access.apply,if_pos write,← holds,← wordsUpdate,← half,Memory.next,command,driven]
    exact congrArg words (Cells.leftOpen opened _ true _)
  rcases recoveryNext (inputs x d) (.inr state) with ⟨zero,-⟩ | waits
  · omega
  · refine goesOn stages piped quiet absent (by simp [state]) (by rw [waits]) (.written ?_ write ?_ stored)
    · show (s.regs.next _).state = _
      rw [waits]
      exact state
    · exact silentNext s.regs _ (by simp [state])

theorem writtenStep (state : s.regs.state = .writeRecovery) (write : a.write = true) (silent : s.regs.phyCmd ≠ cmdWrite)
    (holds : words s.cells.cell = a.apply ws) : Serves ws a none true (s.next x d) := by
  have same : words (s.next x d).cells.cell = a.apply ws := by rw [cellsKept silent,holds]
  rcases recoveryNext (inputs x d) (.inr state) with ⟨-,goes⟩ | waits
  · exact answeredStep stages piped quiet absent (by simp [state]) goes same fun read => by
      rw [write] at read
      contradiction
  · refine goesOn stages piped quiet absent (by simp [state]) (by rw [waits]) (.written ?_ write ?_ same)
    · show (s.regs.next _).state = _
      rw [waits]
      exact state
    · exact silentNext s.regs _ (by simp [state])

end Work

section Contract
variable (fit : Fit c) (stages : 2 ≤ c.readCompletionStages) (slow : 2 ≤ c.writeRecovery) {ws : Words 24} {a : Access 24}
  {s : Memory c} {x : Wires 24} {d : BitVec 16}
include stages

theorem issueStep (h : Rests ws s) (free : s.regs.wordBusy = false) (absent : x.strobe = none) (calm : Calm s x true d) :
    Serves ws a (some a) false (s.next x d) := by
  have state := h.free free
  have unpending : s.regs.refreshPending = false := by
    cases pending : s.regs.refreshPending with
    | false => rfl
    | true => exact absurd (calm.apart pending).2.1 (by decide)
  refine .issued (restsStep (by omega) h absent d) ?_
  show (s.regs.next (inputs x d)).wordBusy = false
  simp only [Regs.next,state,Regs.idle,unpending,h.quiet,Bool.false_eq_true,if_false]

theorem issuedStep (h : Rests ws s) (free : s.regs.wordBusy = false) (strobe : x.strobe = some a) (calm : Calm s x false d) :
    Serves ws a none false (s.next x d) := by
  have state := h.free free
  have unpending : s.regs.refreshPending = false := by
    cases pending : s.regs.refreshPending with
    | false => rfl
    | true =>
      have absent := (calm.apart pending).1
      rw [strobe] at absent
      contradiction
  have wires : (x.wordRd || x.wordWr) = true ∧ Access.mk x.wordWr x.wordAddr x.wordData = a := by
    rw [Wires.strobe] at strobe
    split at strobe
    · rename_i wires
      exact ⟨wires,Option.some.inj strobe⟩
    · contradiction
  have captured : s.regs.captures (inputs x d) = true := by
    rw [Regs.captures,h.quiet]
    exact wires.1
  have next : s.regs.next (inputs x d) = {s.regs.base (inputs x d) with wordBusy := false} := by
    simp only [Regs.next,state,Regs.idle,unpending,h.quiet,Bool.false_eq_true,if_false]
  have taken : (s.regs.base (inputs x d)).request = a ∧ (s.regs.base (inputs x d)).reqPending = true := by
    rw [Regs.request,Regs.base,captured]
    exact ⟨wires.2,rfl⟩
  refine .pending (pipedNext (by omega) h.piped _) ?_ ?_ ?_ ?_ (silentNext s.regs _ (by simp [state])) ?_
  · show (s.regs.next _).state = _
    rw [next]
    exact state
  · show (s.regs.next _).reqPending = _
    rw [next]
    exact taken.2
  · show (s.regs.next _).request = _
    rw [next]
    exact taken.1
  · show (s.regs.next _).wordBusy = _
    rw [next]
  · rw [cellsKept h.silent,h.holds]

theorem pendingStep (piped : Piped s.regs) (state : s.regs.state = .idle) (asked : s.regs.reqPending = true)
    (got : s.regs.request = a) (silent : s.regs.phyCmd ≠ cmdWrite) (holds : words s.cells.cell = ws)
    (absent : x.strobe = none) (calm : Calm s x false d) : Serves ws a none false (s.next x d) := by
  have unpending : s.regs.refreshPending = false := by
    cases pending : s.regs.refreshPending with
    | false => rfl
    | true =>
      have quiet := (calm.apart pending).2.2
      rw [asked] at quiet
      contradiction
  have next : s.regs.next (inputs x d) =
      {s.regs.base (inputs x d) with reqPending := false, wordBusy := true, state := .activate} := by
    simp only [Regs.next,state,Regs.idle,unpending,asked,Bool.false_eq_true,if_false,if_true]
  refine .works false (pipedNext (by omega) piped _) ?_ ?_ (.activate ?_ ?_ (silentNext s.regs _ (by simp [state])) ?_)
  · show (s.regs.next _).reqPending = _
    rw [next]
  · show (s.regs.next _).wordBusy = _
    rw [next]
  · show (s.regs.next _).state = _
    rw [next]
  · exact (requestKept absent d).trans got
  · rw [cellsKept silent,holds]

include fit slow

theorem workStep (piped : Piped s.regs) (quiet : s.regs.reqPending = false) (busy : s.regs.wordBusy = true) (work : Work ws a s)
    (absent : x.strobe = none) (arrives : ∀ e ∈ s.cells.shown c.latency s.regs.command, d = e) :
    Serves ws a none true (s.next x d) := by
  cases work with
  | activate state got silent holds => exact activateStep stages piped quiet busy absent state got silent holds
  | opening state got holds opens => exact openingStep stages piped quiet absent state got holds opens
  | reads state got read holds command opened => exact readsStep stages piped quiet absent state got read holds command opened
  | readSecond state got read holds command opened valid low =>
    exact readSecondStep stages piped quiet absent arrives fit state got read holds command opened valid low
  | captures state read silent holds valid low second first =>
    exact capturesStep stages piped quiet absent arrives state read silent holds valid low second first
  | recovers state read silent holds found => exact recoversStep stages piped quiet absent state read silent holds found
  | writes state got write holds command opened => exact writesStep stages piped quiet absent state got write holds command opened
  | writeSecond state got write holds command driven opened =>
    exact writeSecondStep stages piped quiet absent fit state got write holds command driven opened
  | writeLast cell state write holds half command driven opened loaded =>
    exact writeLastStep stages piped quiet absent slow cell state write holds half command driven opened loaded
  | written state write silent holds => exact writtenStep stages piped quiet absent state write silent holds

def contract : Contract (port c) Calm where
  Rests := Rests
  Serves := Serves
  rests h absent _ := restsStep (by omega) h absent _
  issues _ h free absent calm := issueStep stages h free absent calm
  serves {ws a s x d seen} h seenBusy calm := by
    generalize strobe : x.strobe = y at h
    cases h with
    | issued rests free =>
      have line : (port c).wordBusy s = false := free
      rw [line]
      exact issuedStep stages rests free strobe calm
    | pending piped state asked got free silent holds =>
      have line : (port c).wordBusy s = false := free
      rw [line]
      exact pendingStep stages piped state asked got silent holds strobe calm
    | works _ piped quiet busy work =>
      have line : (port c).wordBusy s = true := busy
      rw [line,Bool.or_true]
      exact workStep fit stages slow piped quiet busy work strobe calm.arrives
    | answered rests free =>
      have line : (port c).wordBusy s = true := seenBusy rfl
      exact absurd (line.symm.trans free) (by decide)
  done {ws a strobe s} h free := by
    cases h with
    | works _ _ _ busy => exact absurd (free.symm.trans busy) (by decide)
    | answered rests _ found => exact ⟨rfl,rests,found⟩

end Contract

theorem resetRests (s : Regs c) (cells : Bits) : Rests (words cells.cell) (⟨reset s,cells⟩ : Memory c) where
  piped := rfl
  state := rfl
  quiet := rfl
  free busy := absurd (show (reset s).wordBusy = true from rfl) (by rw [busy]; decide)
  silent := (by decide : cmdNop ≠ cmdWrite)
  holds := rfl

end RiscvSoc.SdramController
