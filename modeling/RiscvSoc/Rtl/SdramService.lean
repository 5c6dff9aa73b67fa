import RiscvSoc.Rtl.SdramBytes

/-! The peripheral over whole runs: one request at a time, answered as the memory of bytes answers it, whatever controller of
words keeps the contract. -/
namespace RiscvSoc.SdramPeripheral
open ByteMemory WordBytes WordPort
open Mealy Machine

variable {w : Nat} {σ ι : Type}

def Regs.wires (s : Regs w) : Wires w := ⟨s.wordRd,s.wordWr,s.wordAddr,s.wordData⟩

def Regs.issues (s : Regs w) (wordBusy : Bool) : Bool := (s.state = .readCmd || s.state = .writeCmd) && !wordBusy

/- The peripheral with what is behind its word port. -/
structure Joint (w : Nat) (σ : Type) where
  periph : Regs w
  port : σ

structure JointInputs (ι : Type) where
  memA : Request
  memAValid : Bool
  memDReady : Bool
  other : ι

namespace Joint
variable (m : Controller w σ ι) (p : Params w) (s : Joint w σ) (i : JointInputs ι)

def inputs : Inputs := ⟨i.memA,i.memAValid,i.memDReady,m.wordQ s.port,m.wordBusy s.port⟩

def next : Joint w σ := ⟨s.periph.next p (s.inputs m i),m.next s.port s.periph.wires i.other⟩

def machine : Machine (Joint w σ) (JointInputs ι) Outputs := ⟨fun s _ => s.periph.outputs,next m p⟩

def accepted : List Request := s.periph.accepted (s.inputs m i)
def returned : List Word := s.periph.returned (s.inputs m i)

def Good (ok : σ → Wires w → Bool → ι → Prop) : Prop :=
  ok s.port s.periph.wires (s.periph.issues (m.wordBusy s.port)) i.other

end Joint

structure Latched (p : Params w) (r : Request) (s : Regs w) : Prop where
  addr : s.reqAddr = r.addr
  wdata : s.reqWdata = r.wdata
  we : s.reqWe = r.we
  size : s.reqSize = r.size
  split : s.reqSplit = incomingSplit r
  word : s.reqWordBaseAddr = incomingWordBaseAddr p r

def First (words : Words w) (s : Regs w) : Prop :=
  s.readSecondWordPending = true → s.reqSplit = true ∧ s.readWord0 = words s.reqWordBaseAddr

def owed (words : Words w) (s : Regs w) : Words w :=
  if s.activeWriteWordIsSecond then Function.update words (s.reqWordBaseAddr + 1) s.writeWord1
  else if s.writeSecondWordPending then
    Function.update (Function.update words s.reqWordBaseAddr s.writeWord0) (s.reqWordBaseAddr + 1) s.writeWord1
  else Function.update words s.reqWordBaseAddr s.writeWord0

section Run
variable {m : Controller w σ ι} {ok : σ → Wires w → Bool → ι → Prop} (k : Contract m ok) (p : Params w)

/- Where the peripheral is with a request; `bytes` is the memory before it. -/
inductive Work (bytes : Memory (w + 2)) (r : Request) : Joint w σ → Prop where
  | reads {s words} (state : s.periph.state = .readCmd) (quiet : s.periph.responsePending = false)
      (absent : s.periph.wires.strobe = none) (inside : InWindow p r) (latched : Latched p r s.periph)
      (holds : contents words = bytes) (first : First words s.periph) (rests : k.Rests words s.port) : Work bytes r s
  | awaitsRead {s words data} (seen : Bool) (state : s.periph.state = if seen then .readWaitDone else .readWaitBusy)
      (quiet : s.periph.responsePending = false) (inside : InWindow p r) (latched : Latched p r s.periph)
      (holds : contents words = bytes) (first : First words s.periph)
      (serves : k.Serves words ⟨false,s.periph.activeReadWordAddr,data⟩ s.periph.wires.strobe seen s.port) : Work bytes r s
  | processes {s words} (state : s.periph.state = .readProcess) (quiet : s.periph.responsePending = false)
      (absent : s.periph.wires.strobe = none) (inside : InWindow p r) (latched : Latched p r s.periph)
      (holds : contents words = bytes) (read : s.periph.reqReadConcat = fetched words p r)
      (rests : k.Rests words s.port) : Work bytes r s
  | writes {s words} (state : s.periph.state = .writeCmd) (quiet : s.periph.responsePending = false)
      (absent : s.periph.wires.strobe = none) (zero : (access p bytes r).1 = 0)
      (owes : contents (owed words s.periph) = (access p bytes r).2) (rests : k.Rests words s.port) : Work bytes r s
  | awaitsWrite {s words} (seen : Bool) (state : s.periph.state = if seen then .writeWaitDone else .writeWaitBusy)
      (quiet : s.periph.responsePending = false) (zero : (access p bytes r).1 = 0)
      (owes : contents (owed words s.periph) = (access p bytes r).2)
      (serves : k.Serves words ⟨true,s.periph.activeWriteWordAddr,s.periph.activeWriteWordData⟩ s.periph.wires.strobe seen s.port) :
      Work bytes r s
  | answered {s words} (state : s.periph.state = .respond) (pending : s.periph.responsePending = true)
      (absent : s.periph.wires.strobe = none) (data : s.periph.responseData = (access p bytes r).1)
      (holds : contents words = (access p bytes r).2) (rests : k.Rests words s.port) : Work bytes r s

inductive Phase (bytes : Memory (w + 2)) : Joint w σ → Option Request → Prop where
  | idle {s words} (state : s.periph.state = .idle) (quiet : s.periph.responsePending = false)
      (absent : s.periph.wires.strobe = none) (holds : contents words = bytes) (rests : k.Rests words s.port) : Phase bytes s none
  | works {s r} (work : Work k p bytes r s) : Phase bytes s (some r)

variable {k p} {bytes : Memory (w + 2)} {r : Request} {s : Joint w σ} {i : JointInputs ι}

theorem accessRead (inside : InWindow p r) (read : r.we = false) :
    access p bytes r = (LittleEndian.word 32 (load bytes (place p r) (width r)),bytes) := by
  rw [access,if_pos inside,if_neg (by simp [read])]

theorem accessWrite (inside : InWindow p r) (write : r.we = true) :
    access p bytes r = (0,store bytes (place p r) (LittleEndian.bytes (width r) r.wdata.toNat)) := by
  rw [access,if_pos inside,if_pos write]

theorem notIssues (state : s.periph.state ≠ .readCmd ∧ s.periph.state ≠ .writeCmd) (good : s.Good m i ok) :
    ok s.port s.periph.wires false i.other := by
  have same : s.periph.issues (m.wordBusy s.port) = false := by simp [Regs.issues,state.1,state.2]
  rwa [Joint.Good,same] at good

theorem heldIssues (busy : m.wordBusy s.port = true) (good : s.Good m i ok) : ok s.port s.periph.wires false i.other := by
  have same : s.periph.issues (m.wordBusy s.port) = false := by simp [Regs.issues,busy]
  rwa [Joint.Good,same] at good

theorem freeIssues (state : s.periph.state = .readCmd ∨ s.periph.state = .writeCmd) (free : m.wordBusy s.port = false)
    (good : s.Good m i ok) : ok s.port s.periph.wires true i.other := by
  have same : s.periph.issues (m.wordBusy s.port) = true := by rcases state with state | state <;> simp [Regs.issues,state,free]
  rwa [Joint.Good,same] at good

theorem quietBase {t : Regs w} (quiet : t.responsePending = false) (j : Inputs) : (t.base j).responsePending = false := by
  rw [Regs.base,quiet]
  rfl

theorem readsStep {words : Words w} (state : s.periph.state = .readCmd) (quiet : s.periph.responsePending = false)
    (absent : s.periph.wires.strobe = none) (inside : InWindow p r) (latched : Latched p r s.periph)
    (holds : contents words = bytes) (first : First words s.periph) (rests : k.Rests words s.port) (good : s.Good m i ok) :
    Work k p bytes r (s.next m p i) := by
  cases busy : m.wordBusy s.port with
  | true =>
    have stays : s.periph.next p (s.inputs m i) = s.periph.base (s.inputs m i) := by
      simp only [Regs.next,state,Joint.inputs,busy,if_true]
    rw [Joint.next,stays]
    exact .reads state (quietBase quiet _) rfl inside ⟨latched.addr,latched.wdata,latched.we,latched.size,latched.split,latched.word⟩
      holds first (k.rests rests absent (heldIssues busy good))
  | false =>
    have goes : s.periph.next p (s.inputs m i) = {s.periph.base (s.inputs m i) with
        wordRd := true
        wordAddr := s.periph.activeReadWordAddr
        state := .readWaitBusy} := by
      simp only [Regs.next,state,Joint.inputs,busy,Bool.false_eq_true,if_false]
    rw [Joint.next,goes]
    exact .awaitsRead false rfl (quietBase quiet _) inside
      ⟨latched.addr,latched.wdata,latched.we,latched.size,latched.split,latched.word⟩ holds first
      (k.issues _ rests busy absent (freeIssues (.inl state) busy good))

theorem awaitsReadStep {words : Words w} {data : Word} (seen : Bool)
    (state : s.periph.state = if seen then .readWaitDone else .readWaitBusy)
    (quiet : s.periph.responsePending = false) (inside : InWindow p r) (latched : Latched p r s.periph)
    (holds : contents words = bytes) (first : First words s.periph)
    (serves : k.Serves words ⟨false,s.periph.activeReadWordAddr,data⟩ s.periph.wires.strobe seen s.port)
    (good : s.Good m i ok) : Work k p bytes r (s.next m p i) := by
  have calm := notIssues (m := m) (i := i) (by cases seen <;> simp [state]) good
  have onwards (busy : seen = true → m.wordBusy s.port = true) :
      s.periph.next p (s.inputs m i) = {s.periph.base (s.inputs m i) with
        state := if seen || m.wordBusy s.port then .readWaitDone else .readWaitBusy} := by
    cases seen with
    | true => simp [Regs.next,state,Joint.inputs,busy,Regs.base]
    | false => cases line : m.wordBusy s.port <;> simp [Regs.next,state,Joint.inputs,line,Regs.base]
  by_cases waits : seen = true → m.wordBusy s.port = true
  · rw [Joint.next,onwards waits]
    exact .awaitsRead (seen || m.wordBusy s.port) rfl (quietBase quiet _) inside
      ⟨latched.addr,latched.wdata,latched.we,latched.size,latched.split,latched.word⟩ holds first (k.serves serves waits calm)
  · obtain ⟨rfl,free⟩ : seen = true ∧ m.wordBusy s.port = false := by simpa using waits
    obtain ⟨absent,rests,read⟩ := k.done serves free
    have word : m.wordQ s.port = words s.periph.activeReadWordAddr := read rfl
    have rests : k.Rests words (m.next s.port s.periph.wires i.other) := k.rests rests absent calm
    have goes : s.periph.next p (s.inputs m i) = s.periph.readDone (s.periph.base (s.inputs m i)) (m.wordQ s.port) := by
      simp only [Regs.next,state,Joint.inputs,free,Bool.false_eq_true,if_false,if_true]
    rw [Joint.next,goes,Regs.readDone]
    rw [Regs.activeReadWordAddr] at word
    cases second : s.periph.readSecondWordPending with
    | false =>
      have here : m.wordQ s.port = words s.periph.reqWordBaseAddr := by
        rw [word,second]
        simp
      cases split : s.periph.reqSplit with
      | true =>
        exact .reads rfl (quietBase quiet _) rfl inside
          ⟨latched.addr,latched.wdata,latched.we,latched.size,latched.split,latched.word⟩ holds (fun _ => ⟨split,here⟩) rests
      | false =>
        refine .processes rfl (quietBase quiet _) rfl inside
          ⟨latched.addr,latched.wdata,latched.we,latched.size,latched.split,latched.word⟩ holds ?_ rests
        show ((0 : Word) ++ m.wordQ s.port : BitVec 64) = _
        rw [fetched,← latched.split,split,here,latched.word]
        rfl
    | true =>
      obtain ⟨split,got⟩ := first second
      refine .processes rfl (quietBase quiet _) rfl inside
        ⟨latched.addr,latched.wdata,latched.we,latched.size,latched.split,latched.word⟩ holds ?_ rests
      show (m.wordQ s.port ++ s.periph.readWord0 : BitVec 64) = _
      have one : (BitVec.ofBool true).setWidth w = 1 := by
        apply BitVec.eq_of_toNat_eq
        simp
      rw [fetched,← latched.split,if_pos split,got,word,second,latched.word,one]

theorem processesStep {words : Words w} (state : s.periph.state = .readProcess) (quiet : s.periph.responsePending = false)
    (absent : s.periph.wires.strobe = none) (inside : InWindow p r) (latched : Latched p r s.periph)
    (holds : contents words = bytes) (read : s.periph.reqReadConcat = fetched words p r) (rests : k.Rests words s.port)
    (good : s.Good m i ok) : Work k p bytes r (s.next m p i) := by
  have rests : k.Rests words (m.next s.port s.periph.wires i.other) :=
    k.rests rests absent (notIssues (by simp [state]) good)
  have offset : s.periph.reqOffset = r.addr.extractLsb' 0 2 := by rw [Regs.reqOffset,latched.addr]
  have goes : s.periph.next p (s.inputs m i) = s.periph.process (s.periph.base (s.inputs m i)) := by
    simp only [Regs.next,state]
  rw [Joint.next,goes,Regs.process]
  cases write : r.we with
  | false =>
    have same : access p bytes r = _ := accessRead inside write
    rw [latched.we,write,if_neg (by decide)]
    refine .answered rfl rfl rfl ?_ ?_ rests
    · show s.periph.reqExtractedRdata = _
      rw [Regs.reqExtractedRdata,read,latched.size,offset,fetchedLoads inside words,holds,same]
    · rw [same,holds]
  | true =>
    have same : access p bytes r = _ := accessWrite inside write
    have stored := mergedStores inside words
    rw [← read,← latched.size,← latched.wdata,← offset,← latched.split,← latched.word,holds] at stored
    rw [latched.we,write,if_pos rfl]
    refine .writes rfl (quietBase quiet _) rfl (by rw [same]) ?_ rests
    rw [same,← latched.wdata,← stored,owed]
    rfl

theorem writesStep {words : Words w} (state : s.periph.state = .writeCmd) (quiet : s.periph.responsePending = false)
    (nothing : s.periph.wires.strobe = none) (zero : (access p bytes r).1 = 0)
    (owes : contents (owed words s.periph) = (access p bytes r).2) (rests : k.Rests words s.port) (good : s.Good m i ok) :
    Work k p bytes r (s.next m p i) := by
  cases busy : m.wordBusy s.port with
  | true =>
    have stays : s.periph.next p (s.inputs m i) = s.periph.base (s.inputs m i) := by
      simp only [Regs.next,state,Joint.inputs,busy,if_true]
    rw [Joint.next,stays]
    exact .writes state (quietBase quiet _) rfl zero owes (k.rests rests nothing (heldIssues busy good))
  | false =>
    have goes : s.periph.next p (s.inputs m i) = {s.periph.base (s.inputs m i) with
        wordWr := true
        wordAddr := s.periph.activeWriteWordAddr
        wordData := s.periph.activeWriteWordData
        state := .writeWaitBusy} := by
      simp only [Regs.next,state,Joint.inputs,busy,Bool.false_eq_true,if_false]
    rw [Joint.next,goes]
    exact .awaitsWrite false rfl (quietBase quiet _) zero owes (k.issues _ rests busy nothing (freeIssues (.inr state) busy good))

theorem awaitsWriteStep {words : Words w} (seen : Bool) (state : s.periph.state = if seen then .writeWaitDone else .writeWaitBusy)
    (quiet : s.periph.responsePending = false) (zero : (access p bytes r).1 = 0)
    (owes : contents (owed words s.periph) = (access p bytes r).2)
    (serves : k.Serves words ⟨true,s.periph.activeWriteWordAddr,s.periph.activeWriteWordData⟩ s.periph.wires.strobe seen s.port)
    (good : s.Good m i ok) : Work k p bytes r (s.next m p i) := by
  have calm := notIssues (m := m) (i := i) (by cases seen <;> simp [state]) good
  have onwards (busy : seen = true → m.wordBusy s.port = true) :
      s.periph.next p (s.inputs m i) = {s.periph.base (s.inputs m i) with
        state := if seen || m.wordBusy s.port then .writeWaitDone else .writeWaitBusy} := by
    cases seen with
    | true => simp [Regs.next,state,Joint.inputs,busy,Regs.base]
    | false => cases line : m.wordBusy s.port <;> simp [Regs.next,state,Joint.inputs,line,Regs.base]
  by_cases waits : seen = true → m.wordBusy s.port = true
  · rw [Joint.next,onwards waits]
    exact .awaitsWrite (seen || m.wordBusy s.port) rfl (quietBase quiet _) zero owes (k.serves serves waits calm)
  · obtain ⟨rfl,free⟩ : seen = true ∧ m.wordBusy s.port = false := by simpa using waits
    obtain ⟨absent,rests,-⟩ := k.done serves free
    have rests := k.rests (i := i.other) rests absent calm
    have goes : s.periph.next p (s.inputs m i) = s.periph.writeDone (s.periph.base (s.inputs m i)) := by
      simp only [Regs.next,state,Joint.inputs,free,Bool.false_eq_true,if_false,if_true]
    have one : (BitVec.ofBool true).setWidth w = 1 := by
      apply BitVec.eq_of_toNat_eq
      simp
    rw [Joint.next,goes,Regs.writeDone]
    rw [Access.apply,if_pos rfl,Regs.activeWriteWordAddr,Regs.activeWriteWordData] at rests
    rw [owed] at owes
    cases second : s.periph.activeWriteWordIsSecond with
    | true =>
      rw [second,if_pos rfl,one] at rests
      rw [second,if_pos rfl] at owes
      exact .answered rfl rfl rfl zero.symm owes rests
    | false =>
      rw [second,if_neg (by decide),show (BitVec.ofBool false).setWidth w = 0#w by simp,BitVec.add_zero] at rests
      rw [second,if_neg (by decide)] at owes
      cases more : s.periph.writeSecondWordPending with
      | true =>
        rw [more,if_pos rfl] at owes
        exact .writes rfl (quietBase quiet _) rfl zero owes rests
      | false =>
        rw [more,if_neg (by decide)] at owes
        exact .answered rfl rfl rfl zero.symm owes rests

theorem workStep (work : Work k p bytes r s) (good : s.Good m i ok) (held : s.returned m i = []) :
    Work k p bytes r (s.next m p i) := by
  cases work with
  | reads state quiet absent inside latched holds first rests =>
    exact readsStep state quiet absent inside latched holds first rests good
  | awaitsRead seen state quiet inside latched holds first serves =>
    exact awaitsReadStep seen state quiet inside latched holds first serves good
  | processes state quiet absent inside latched holds read rests =>
    exact processesStep state quiet absent inside latched holds read rests good
  | writes state quiet absent zero owes rests => exact writesStep state quiet absent zero owes rests good
  | awaitsWrite seen state quiet zero owes serves => exact awaitsWriteStep seen state quiet zero owes serves good
  | answered state pending absent data holds rests =>
    have stays : s.periph.memDHandshake (s.inputs m i) = false := by simpa [Joint.returned,Regs.returned] using held
    have same : s.periph.next p (s.inputs m i) = s.periph.base (s.inputs m i) := by
      simp only [Regs.next,state,stays,Bool.false_eq_true,if_false]
    rw [Joint.next,same]
    refine .answered state ?_ rfl data holds (k.rests rests absent (notIssues (by simp [state]) good))
    rw [Regs.base,stays,pending]
    rfl

theorem workBusy (work : Work k p bytes r s) : s.periph.state ≠ .idle := by
  cases work with
  | awaitsRead seen state | awaitsWrite seen state => cases seen <;> simp [state]
  | reads state | processes state | writes state | answered state => simp [state]

theorem workTaken (work : Work k p bytes r s) (good : s.Good m i ok)
    (taken : s.periph.memDHandshake (s.inputs m i) = true) :
    s.returned m i = [(access p bytes r).1] ∧ Phase k p (access p bytes r).2 (s.next m p i) none := by
  cases work with
  | answered state pending absent data holds rests =>
    have goes : s.periph.next p (s.inputs m i) = {s.periph.base (s.inputs m i) with state := .idle} := by
      simp only [Regs.next,state,taken,if_true]
    refine ⟨by rw [Joint.returned,Regs.returned,if_pos taken,data],?_⟩
    rw [Joint.next,goes]
    refine .idle rfl ?_ rfl holds (k.rests rests absent (notIssues (by simp [state]) good))
    rw [Regs.base,taken,Bool.not_true,Bool.and_false]
  | reads _ quiet | awaitsRead _ _ quiet | processes _ quiet | writes _ quiet | awaitsWrite _ _ quiet =>
    simp [Regs.memDHandshake,quiet] at taken

theorem acceptStep {words : Words w} (quiet : s.periph.responsePending = false)
    (holds : contents words = bytes) (a : Request) {port : σ} (rests : k.Rests words port) :
    Work k p bytes a ⟨(s.periph.base (s.inputs m i)).accept p a,port⟩ := by
  rw [Regs.accept,inRange]
  by_cases inside : InWindow p a
  · rw [decide_eq_true inside,Bool.not_true,if_neg (by decide)]
    split
    · rename_i whole
      simp only [Bool.and_eq_true,decide_eq_true_eq] at whole
      obtain ⟨⟨write,size⟩,aligned⟩ := whole
      have same : access p bytes a = _ := accessWrite inside write
      refine .writes rfl (quietBase quiet _) rfl (by rw [same]) ?_ rests
      rw [same,← holds,← wholeStores inside words size aligned]
      rfl
    · exact .reads rfl (quietBase quiet _) rfl inside ⟨rfl,rfl,rfl,rfl,rfl,rfl⟩ holds (fun second => by contradiction) rests
  · have same : access p bytes a = (0,bytes) := by rw [access,if_neg inside]
    rw [decide_eq_false inside,Bool.not_false,if_pos rfl]
    exact .answered rfl rfl rfl (by rw [same]; rfl) (by rw [same,holds]) rests

theorem idleStep (phase : Phase k p bytes s none) (good : s.Good m i ok) :
    s.returned m i = [] ∧ ∃ cur, Phase k p bytes (s.next m p i) cur ∧ cur.toList = s.accepted m i := by
  cases phase with
  | idle state quiet absent holds rests =>
    have rests' : k.Rests _ (m.next s.port s.periph.wires i.other) := k.rests rests absent (notIssues (by simp [state]) good)
    refine ⟨by simp [Joint.returned,Regs.returned,Regs.memDHandshake,quiet],?_⟩
    cases taken : s.periph.memAHandshake (s.inputs m i) with
    | true =>
      have goes : s.periph.next p (s.inputs m i) = (s.periph.base (s.inputs m i)).accept p i.memA := by
        simp only [Regs.next,state,taken,if_true]
        rfl
      refine ⟨some i.memA,.works ?_,?_⟩
      · rw [Joint.next,goes]
        exact acceptStep quiet holds i.memA rests'
      · rw [Joint.accepted,Regs.accepted,if_pos taken]
        rfl
    | false =>
      have stays : s.periph.next p (s.inputs m i) = s.periph.base (s.inputs m i) := by
        simp only [Regs.next,state,taken,Bool.false_eq_true,if_false]
      refine ⟨none,?_,?_⟩
      · rw [Joint.next,stays]
        exact .idle state (quietBase quiet _) rfl holds rests'
      · rw [Joint.accepted,Regs.accepted,taken]
        rfl

theorem servesRun {cur : Option Request} (phase : Phase k p bytes s cur) {inputs : List (JointInputs ι)}
    (good : (Joint.machine m p).Steps (fun s i => s.Good m i ok) s inputs) :
    ∃ served cur', cur.toList ++ (Joint.machine m p).history (Joint.accepted m) s inputs = served ++ cur'.toList ∧
      (Joint.machine m p).history (Joint.returned m) s inputs = (serve p bytes served).1 ∧
      Phase k p (serve p bytes served).2 ((Joint.machine m p).final s inputs) cur' := by
  induction inputs generalizing bytes s cur with
  | nil => exact ⟨[],cur,by simp,rfl,phase⟩
  | cons i rest ih =>
    obtain ⟨here,later⟩ := stepsCons.mp good
    rw [historyCons,historyCons,finalCons]
    cases cur with
    | none =>
      obtain ⟨quiet,cur,next,entered⟩ := idleStep phase here
      obtain ⟨served,cur',all,answers,phase'⟩ := ih next later
      refine ⟨served,cur',?_,?_,phase'⟩
      · rw [Option.toList_none,List.nil_append,← entered]
        exact all
      · rw [quiet,List.nil_append]
        exact answers
    | some r =>
      cases phase with
      | works work =>
        have empty : s.accepted m i = [] := by
          simp [Joint.accepted,Regs.accepted,Regs.memAHandshake,Regs.memAReady,workBusy work]
        cases taken : s.periph.memDHandshake (s.inputs m i) with
        | true =>
          obtain ⟨answer,next⟩ := workTaken work here taken
          obtain ⟨served,cur',all,answers,phase'⟩ := ih next later
          refine ⟨r :: served,cur',?_,?_,phase'⟩
          · rw [empty,List.nil_append,Option.toList_some,List.cons_append,List.cons_append]
            exact congrArg (r :: ·) all
          · rw [answer]
            exact congrArg ((access p bytes r).1 :: ·) answers
        | false =>
          have quiet : s.returned m i = [] := by rw [Joint.returned,Regs.returned,if_neg (by simp [taken])]
          obtain ⟨served,cur',all,answers,phase'⟩ := ih (.works (workStep work here quiet)) later
          refine ⟨served,cur',?_,?_,phase'⟩
          · rw [empty,List.nil_append]
            exact all
          · rw [quiet,List.nil_append]
            exact answers

end Run

end RiscvSoc.SdramPeripheral
