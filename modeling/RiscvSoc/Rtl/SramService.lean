import RiscvSoc.Rtl.SramMemory

/-! The peripheral over whole runs: one request at a time, answered as the byte memory answers it. -/
namespace RiscvSoc.Sram
open LittleEndian
open Mealy Machine

/- Where the unit is with the request it serves; `m` is the memory before that request. -/
inductive Phase (m : Memory) : Regs → Option Request → Prop where
  | idle {s} (state : s.state = .idle) (quiet : s.memDValid = false) (holds : Holds s.ram.mem m) : Phase m s none
  | writing {s r} (state : s.state = .writeSplitSecond) (inside : r.InWindow) (latched : Latched r s)
      (write : r.we = true) (split : r.unaligned = true) (quiet : s.memDValid = false)
      (holds : Holds s.ram.mem (store m r.base r.firstWidth r.wdata)) : Phase m s (some r)
  | waiting {s r} (state : s.state = .readWait) (inside : r.InWindow) (latched : Latched r s)
      (read : r.we = false) (whole : r.unaligned = false) (quiet : s.memDValid = false)
      (holds : Holds s.ram.mem m) (fetched : s.ram.readDataPipe = s.ram.mem r.wordAddr) : Phase m s (some r)
  | fetched {s r} (state : s.state = .readResp) (inside : r.InWindow) (latched : Latched r s)
      (read : r.we = false) (whole : r.unaligned = false) (quiet : s.memDValid = false)
      (holds : Holds s.ram.mem m) (rdata : s.ram.rdata = s.ram.mem r.wordAddr) : Phase m s (some r)
  | second {s r} (state : s.state = .readSplitSecond) (inside : r.InWindow) (latched : Latched r s)
      (read : r.we = false) (split : r.unaligned = true) (quiet : s.memDValid = false)
      (holds : Holds s.ram.mem m) (fetched : s.ram.readDataPipe = s.ram.mem r.wordAddr) : Phase m s (some r)
  | capture {s r} (state : s.state = .readSplitCapture) (inside : r.InWindow) (latched : Latched r s)
      (read : r.we = false) (split : r.unaligned = true) (quiet : s.memDValid = false)
      (holds : Holds s.ram.mem m) (rdata : s.ram.rdata = s.ram.mem r.wordAddr)
      (fetched : s.ram.readDataPipe = s.ram.mem (r.wordAddr + 1)) : Phase m s (some r)
  | both {s r} (state : s.state = .readSplitResp) (inside : r.InWindow) (latched : Latched r s)
      (read : r.we = false) (split : r.unaligned = true) (quiet : s.memDValid = false)
      (holds : Holds s.ram.mem m) (first : s.splitFirstRdata = s.ram.mem r.wordAddr)
      (rdata : s.ram.rdata = s.ram.mem (r.wordAddr + 1)) : Phase m s (some r)
  | answered {s r} (state : s.state = .writeResp ∨ s.state = .readResp ∨ s.state = .readSplitResp)
      (valid : s.memDValid = true) (data : s.memDRdata = (access m r).1)
      (holds : Holds s.ram.mem (access m r).2) : Phase m s (some r)

theorem ramReads {s : Ram} {p : Port} (reads : p.we = false) : (s.step p).mem = s.mem := by
  funext a
  simp [Ram.step,reads]

theorem ramWrites {s : Ram} {p : Port} (writes : p.we = true) (inside : p.waddr.toNat < depthWords) :
    (s.step p).mem = fun a => if a = p.waddr then merge p.wmask (s.mem a) p.wdata else s.mem a := by
  funext a
  simp [Ram.step,writes,inside]

theorem accessRead (m : Memory) {r : Request} (read : r.we = false) :
    access m r = (load m r.base r.width,m) := by simp [access,read]

theorem accessWrite (m : Memory) {r : Request} (write : r.we = true) :
    (access m r).1 = 0 ∧ (access m r).2 = store m r.base r.width r.wdata := by simp [access,write]

theorem wordInside {r : Request} (p : Placed r) : r.wordAddr.toNat < depthWords := by
  have room := p.room
  have positive : 0 < r.width := by
    simp only [Request.width]
    split <;> (try split) <;> decide
  rw [p.word]
  simp only [windowBytes] at room
  omega

theorem nextInside {r : Request} (p : Placed r) (split : r.unaligned = true) (size : r.size ≠ 3) :
    (r.wordAddr + 1).toNat < depthWords := by
  have room := p.room
  have offset := p.offset
  have crosses := (splitIff r size).mp split
  have one : (1 : WordAddr).toNat = 1 := rfl
  simp only [windowBytes,depthWords] at room ⊢
  rw [BitVec.toNat_add,p.word,one]
  omega

theorem acceptPhase {m : Memory} {s : Regs} (quiet : s.memDValid = false) (state : s.state = .idle)
    (holds : Holds s.ram.mem m) {i : Inputs} (valid : i.memAValid = true) (inside : i.memA.InWindow) :
    Phase m (step s i) (some i.memA) := by
  have p := placed inside
  have taken : memAHandshake s i = true := by simp [memAHandshake,valid,state]
  have next : step s i = {accept s i.memA with ram := s.ram.step (port s i)} := by
    simp only [step,control,state,if_pos taken]
  cases write : i.memA.we with
  | true =>
    have drives : port s i = ⟨true,i.memA.wmask,i.memA.wordAddr,i.memA.alignedWdata,i.memA.wordAddr⟩ := by
      simp only [port,state,taken,write,Bool.and_self,if_true]
    have stored : Holds (s.ram.step (port s i)).mem (store m i.memA.base i.memA.firstWidth i.memA.wdata) := by
      rw [drives,ramWrites rfl (wordInside p)]
      exact putFirstHolds holds inside.size p
    cases split : i.memA.unaligned with
    | true =>
      rw [next]
      simp only [accept,write,split,if_true]
      exact .writing rfl inside ⟨rfl,rfl,rfl,rfl⟩ write split quiet stored
    | false =>
      have fits := splitIff i.memA inside.size
      simp only [split,Bool.false_eq_true,false_iff] at fits
      have whole : i.memA.firstWidth = i.memA.width := by
        simp only [Request.firstWidth]
        omega
      rw [whole] at stored
      rw [next]
      simp only [accept,write,split,if_true,Bool.false_eq_true,if_false]
      have same := accessWrite m write
      refine .answered (.inl rfl) rfl same.1.symm ?_
      rw [same.2]
      exact stored
  | false =>
    have drives : port s i = ⟨false,0,s.reqWordAddr,0,i.memA.wordAddr⟩ := by
      simp only [port,state,write,Bool.and_false,Bool.false_eq_true,if_false]
    have same : (s.ram.step (port s i)).mem = s.ram.mem := ramReads (by rw [drives])
    have fetched : (s.ram.step (port s i)).readDataPipe = (s.ram.step (port s i)).mem i.memA.wordAddr := by
      rw [same,drives]
      rfl
    rw [← same] at holds
    cases split : i.memA.unaligned with
    | true =>
      rw [next]
      simp only [accept,write,split,if_true,Bool.false_eq_true,if_false]
      exact .second rfl inside ⟨rfl,rfl,rfl,rfl⟩ write split quiet holds fetched
    | false =>
      rw [next]
      simp only [accept,write,split,Bool.false_eq_true,if_false]
      exact .waiting rfl inside ⟨rfl,rfl,rfl,rfl⟩ write split quiet holds fetched

theorem respondLatches {s : Regs} (quiet : s.memDValid = false) (i : Inputs) (rdata : Word) :
    respond s i rdata = {s with memDRdata := rdata, memDValid := true} := by simp [respond,quiet]

theorem servePhase {m : Memory} {s : Regs} {r : Request} (phase : Phase m s (some r)) (i : Inputs)
    (stays : returned s i = []) : Phase m (step s i) (some r) := by
  have reads (p : (port s i).we = false) : (step s i).ram.mem = s.ram.mem := ramReads p
  cases phase with
  | writing state inside latched write split quiet holds =>
    have p := placed inside
    have drives : port s i = ⟨true,splitSecondWmask s,s.reqWordAddr + 1,splitSecondWdata s,s.reqWordAddr⟩ := by
      simp only [port,state]
    have stored : Holds (s.ram.step (port s i)).mem (store m r.base r.width r.wdata) := by
      rw [drives,ramWrites rfl (by rw [latched.word]; exact nextInside p split inside.size)]
      exact putSecondHolds latched inside.size split p holds
    have same := accessWrite m write
    have next : step s i = {s with
        state := .writeResp
        memDRdata := 0
        memDValid := true
        ram := s.ram.step (port s i)} := by simp only [step,control,state]
    rw [next]
    refine .answered (.inl rfl) rfl same.1.symm ?_
    rw [same.2]
    exact stored
  | waiting state inside latched read whole quiet holds fetched =>
    have same := reads (by simp only [port,state])
    have next : step s i = {s with state := .readResp, ram := s.ram.step (port s i)} := by
      simp only [step,control,state]
    rw [next] at same ⊢
    refine .fetched rfl inside ⟨latched.word,latched.size,latched.offset,latched.wdata⟩ read whole quiet ?_ ?_
    · rw [same]
      exact holds
    · rw [same]
      exact fetched
  | fetched state inside latched read whole quiet holds rdata =>
    have same := reads (by simp only [port,state])
    have answer := extractedLoads holds latched inside.size whole (placed inside) rdata
    have next : step s i = {s with
        memDRdata := extractedRdata s
        memDValid := true
        ram := s.ram.step (port s i)} := by
      simp only [step,control,state,respondLatches quiet]
    rw [next] at same ⊢
    refine .answered (.inr (.inl state)) rfl ?_ ?_
    · rw [accessRead m read]
      exact answer
    · rw [same,accessRead m read]
      exact holds
  | second state inside latched read split quiet holds fetched =>
    have same := reads (by simp only [port,state])
    have drives : port s i = ⟨false,0,s.reqWordAddr,0,s.reqWordAddr + 1⟩ := by simp only [port,state]
    have next : step s i = {s with state := .readSplitCapture, ram := s.ram.step (port s i)} := by
      simp only [step,control,state]
    rw [next] at same ⊢
    refine .capture rfl inside ⟨latched.word,latched.size,latched.offset,latched.wdata⟩ read split quiet ?_ ?_ ?_
    · rw [same]
      exact holds
    · rw [same]
      exact fetched
    · rw [same,drives,← latched.word]
      rfl
  | capture state inside latched read split quiet holds rdata fetched =>
    have same := reads (by simp only [port,state])
    have next : step s i = {s with
        splitFirstRdata := s.ram.rdata
        state := .readSplitResp
        ram := s.ram.step (port s i)} := by simp only [step,control,state]
    rw [next] at same ⊢
    refine .both rfl inside ⟨latched.word,latched.size,latched.offset,latched.wdata⟩ read split quiet ?_ ?_ ?_
    · rw [same]
      exact holds
    · rw [same]
      exact rdata
    · rw [same]
      exact fetched
  | both state inside latched read split quiet holds first rdata =>
    have same := reads (by simp only [port,state])
    have answer := splitExtractedLoads holds latched split (placed inside) first rdata
    have next : step s i = {s with
        memDRdata := splitExtractedRdata s
        memDValid := true
        ram := s.ram.step (port s i)} := by
      simp only [step,control,state,respondLatches quiet]
    rw [next] at same ⊢
    refine .answered (.inr (.inr state)) rfl ?_ ?_
    · rw [accessRead m read]
      exact answer
    · rw [same,accessRead m read]
      exact holds
  | answered state valid data holds =>
    have held : memDHandshake s i = false := by simpa [returned] using stays
    have same := reads (by rcases state with state | state | state <;> simp only [port,state])
    have next : step s i = {s with ram := s.ram.step (port s i)} := by
      rcases state with state | state | state <;>
        simp only [step,control,state,respond,valid,held,Bool.not_true,Bool.false_eq_true,if_false]
    rw [next] at same ⊢
    refine .answered state valid data ?_
    rw [same]
    exact holds

theorem busyAccepts {m : Memory} {s : Regs} {r : Request} (phase : Phase m s (some r)) (i : Inputs) :
    accepted s i = [] := by
  have busy : s.state ≠ .idle := by
    cases phase with
    | answered state => rcases state with state | state | state <;> simp [state]
    | writing state | waiting state | fetched state | second state | capture state | both state => simp [state]
  simp [accepted,memAHandshake,busy]

theorem takenPhase {m : Memory} {s : Regs} {r : Request} (phase : Phase m s (some r)) {i : Inputs}
    (taken : memDHandshake s i = true) :
    returned s i = [(access m r).1] ∧ Phase (access m r).2 (step s i) none := by
  cases phase with
  | answered state valid data holds =>
    have same : (step s i).ram.mem = s.ram.mem :=
      ramReads (by rcases state with state | state | state <;> simp only [port,state])
    have next : step s i = {s with memDValid := false, state := .idle, ram := s.ram.step (port s i)} := by
      rcases state with state | state | state <;>
        simp only [step,control,state,respond,valid,taken,Bool.not_true,Bool.false_eq_true,if_false,if_true]
    refine ⟨by rw [returned,if_pos taken,data],?_⟩
    rw [next] at same ⊢
    exact .idle rfl rfl (by rw [same]; exact holds)
  | writing _ _ _ _ _ quiet | waiting _ _ _ _ _ quiet | fetched _ _ _ _ _ quiet | second _ _ _ _ _ quiet
  | capture _ _ _ _ _ quiet | both _ _ _ _ _ quiet => simp [memDHandshake,quiet] at taken

theorem idlePhase {m : Memory} {s : Regs} (phase : Phase m s none) {i : Inputs}
    (inside : ∀ r ∈ accepted s i, r.InWindow) :
    returned s i = [] ∧ ∃ cur, Phase m (step s i) cur ∧ cur.toList = accepted s i := by
  cases phase with
  | idle state quiet holds =>
    refine ⟨by simp [returned,memDHandshake,quiet],?_⟩
    rcases Bool.eq_false_or_eq_true i.memAValid with valid | nothing
    · have taken : memAHandshake s i = true := by simp [memAHandshake,valid,state]
      have one : accepted s i = [i.memA] := by rw [accepted,if_pos taken]
      rw [one] at inside ⊢
      exact ⟨some i.memA,acceptPhase quiet state holds valid (inside _ List.mem_cons_self),rfl⟩
    · have still : memAHandshake s i = false := by simp [memAHandshake,nothing]
      have same : (step s i).ram.mem = s.ram.mem :=
        ramReads (by simp only [port,state,still,Bool.false_and,Bool.false_eq_true,if_false])
      have next : step s i = {s with ram := s.ram.step (port s i)} := by
        simp only [step,control,state,still,Bool.false_eq_true,if_false]
      refine ⟨none,?_,by simp [accepted,still]⟩
      rw [next] at same ⊢
      exact .idle state quiet (by rw [same]; exact holds)

def rank (s : Regs) : Nat :=
  if s.memDValid then 0
  else match s.state with
    | .idle | .writeResp => 0
    | .writeSplitSecond | .readResp | .readSplitResp => 1
    | .readWait | .readSplitCapture => 2
    | .readSplitSecond => 3

def Waits (s : Regs) : Prop := s.state ≠ .idle ∧ s.memDValid = false
instance (s : Regs) : Decidable (Waits s) := inferInstanceAs (Decidable (_ ∧ _))

theorem acceptRank (s : Regs) (r : Request) : rank (accept s r) ≤ 3 := by
  simp only [rank]
  split
  · exact Nat.zero_le _
  · split <;> decide

theorem rankStep {m : Memory} {s : Regs} {cur} (phase : Phase m s cur) (i : Inputs) :
    rank (step s i) + (if Waits s then 1 else 0) ≤ rank s + 3 * (accepted s i).length := by
  have frame (t : Regs) (ram : Ram) : rank {t with ram := ram} = rank t := rfl
  rw [step,frame]
  cases phase with
  | idle state quiet =>
    have rest : ¬ Waits s := by simp [Waits,state]
    rw [if_neg rest,control]
    simp only [state]
    split
    · rename_i taken
      have := acceptRank s i.memA
      simp only [accepted,if_pos taken,List.length_singleton]
      omega
    · exact Nat.le_add_right _ _
  | answered state valid =>
    have rest : ¬ Waits s := by simp [Waits,valid]
    have zero : rank s = 0 := by simp [rank,valid]
    rw [if_neg rest,zero]
    rcases state with state | state | state <;>
      simp only [control,state,respond,valid,Bool.not_true,Bool.false_eq_true,if_false] <;>
      split <;> simp [rank,valid]
  | writing state _ _ _ _ quiet | waiting state _ _ _ _ quiet | second state _ _ _ _ quiet
  | capture state _ _ _ _ quiet =>
    have waits : Waits s := by simp [Waits,state,quiet]
    rw [if_pos waits]
    simp [control,state,rank,quiet]
  | fetched state _ _ _ _ quiet | both state _ _ _ _ quiet =>
    have waits : Waits s := by simp [Waits,state,quiet]
    rw [if_pos waits]
    simp [control,state,rank,quiet,respondLatches quiet]

theorem servesRun {m : Memory} {s : Regs} {cur} (phase : Phase m s cur) {inputs}
    (inside : machine.Steps (fun s i => ∀ r ∈ accepted s i, r.InWindow) s inputs) :
    ∃ served cur', cur.toList ++ machine.history accepted s inputs = served ++ cur'.toList ∧
      machine.history returned s inputs = (serve m served).1 ∧
      Phase (serve m served).2 (machine.final s inputs) cur' ∧
      rank (machine.final s inputs) + (machine.trace s inputs).countP (fun c => decide (Waits c.1)) ≤
        rank s + 3 * (machine.history accepted s inputs).length := by
  induction inputs generalizing m s cur with
  | nil => exact ⟨[],cur,by simp,rfl,phase,by simp⟩
  | cons i rest ih =>
    obtain ⟨here,later⟩ := stepsCons.mp inside
    have spent := rankStep phase i
    have onwards {m' cur'} (next : Phase m' (step s i) cur') := ih next later
    simp only [historyCons,finalCons,traceCons,List.countP_cons,decide_eq_true_eq,List.length_append]
    change rank (step s i) + _ ≤ _ at spent
    cases cur with
    | none =>
      obtain ⟨quiet,cur,next,entered⟩ := idlePhase phase here
      obtain ⟨served,cur',all,answers,phase',bound⟩ := onwards next
      refine ⟨served,cur',?_,?_,phase',?_⟩
      · rw [Option.toList_none,List.nil_append,← entered]
        exact all
      · rw [quiet,List.nil_append]
        exact answers
      · change rank (machine.final (step s i) rest) + (((machine.trace (step s i) rest).countP _) + _) ≤
          rank s + 3 * (_ + (machine.history accepted (step s i) rest).length)
        omega
    | some r =>
      have absent := busyAccepts phase i
      rcases Bool.eq_false_or_eq_true (memDHandshake s i) with taken | held
      · obtain ⟨answer,next⟩ := takenPhase phase taken
        obtain ⟨served,cur',all,answers,phase',bound⟩ := onwards next
        refine ⟨r :: served,cur',?_,?_,phase',?_⟩
        · rw [absent,List.nil_append,Option.toList_some,List.cons_append,List.cons_append]
          exact congrArg (r :: ·) all
        · rw [answer]
          exact congrArg ((access m r).1 :: ·) answers
        · change rank (machine.final (step s i) rest) + (((machine.trace (step s i) rest).countP _) + _) ≤
            rank s + 3 * (_ + (machine.history accepted (step s i) rest).length)
          omega
      · have quiet : returned s i = [] := by rw [returned,if_neg (by simp [held])]
        have next := servePhase phase i quiet
        obtain ⟨served,cur',all,answers,phase',bound⟩ := onwards next
        refine ⟨served,cur',?_,?_,phase',?_⟩
        · rw [absent,List.nil_append]
          exact all
        · rw [quiet,List.nil_append]
          exact answers
        · change rank (machine.final (step s i) rest) + (((machine.trace (step s i) rest).countP _) + _) ≤
            rank s + 3 * (_ + (machine.history accepted (step s i) rest).length)
          omega

/- Every run of requests inside the window answers them as a byte memory does, in their order
and but for the one being served; an idle unit holds what that memory holds; and no request
waits more than three cycles for its answer. -/
theorem servesBytes (s : Regs) (inputs : List Inputs)
    (inside : machine.Steps (fun s i => ∀ r ∈ accepted s i, r.InWindow) (reset s) inputs) :
    ∃ served waiting, machine.history accepted (reset s) inputs = served ++ Option.toList waiting ∧
      machine.history returned (reset s) inputs = (serve (contents s.ram.mem) served).1 ∧
      ((machine.final (reset s) inputs).state = .idle → waiting = none ∧
        Holds (machine.final (reset s) inputs).ram.mem (serve (contents s.ram.mem) served).2) ∧
      (machine.trace (reset s) inputs).countP (fun c => decide (Waits c.1)) ≤
        3 * (machine.history accepted (reset s) inputs).length := by
  have start : Phase (contents s.ram.mem) (reset s) none := .idle rfl rfl fun _ _ => rfl
  obtain ⟨served,waiting,all,answers,phase,bound⟩ := servesRun start inside
  refine ⟨served,waiting,by simpa using all,answers,fun idle => ?_,?_⟩
  · cases phase with
    | idle _ _ holds => exact ⟨rfl,holds⟩
    | answered state => rcases state with state | state | state <;> simp [state] at idle
    | writing state | waiting state | fetched state | second state | capture state | both state =>
      simp [state] at idle
  · have zero : rank (reset s) = 0 := rfl
    omega

/- A word stored over the end of the second word, its response stalled, and a halfword
loaded from the middle of it. -/
def straddling : List Inputs :=
  let store : Request := ⟨0x70000006,0x44332211,true,2⟩
  let load : Request := ⟨0x70000007,0,false,1⟩
  [⟨store,true,false⟩,⟨store,false,false⟩,⟨store,false,false⟩,⟨load,true,true⟩,⟨load,true,true⟩] ++
    List.replicate 5 ⟨load,false,true⟩

theorem straddlingServed : ∃ served waiting,
    machine.history accepted (reset idleRegs) straddling = served ++ Option.toList waiting ∧
      machine.history returned (reset idleRegs) straddling = (serve (contents idleRegs.ram.mem) served).1 ∧
      ((machine.final (reset idleRegs) straddling).state = .idle → waiting = none ∧
        Holds (machine.final (reset idleRegs) straddling).ram.mem (serve (contents idleRegs.ram.mem) served).2) ∧
      (machine.trace (reset idleRegs) straddling).countP (fun c => decide (Waits c.1)) ≤
        3 * (machine.history accepted (reset idleRegs) straddling).length :=
  servesBytes idleRegs straddling (by decide +kernel)

example : machine.history returned (reset idleRegs) straddling = [0,0x3322] := by decide +kernel

end RiscvSoc.Sram
