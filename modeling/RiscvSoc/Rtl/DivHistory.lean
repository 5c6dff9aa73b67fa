import Mathlib.Algebra.Group.Nat.Defs
import RiscvSoc.Rtl.DivUnit

/-! What a division request can see of the requests before it. Every register is
reloaded on the way out of DIV_INIT except that the branch of DIV_INIT itself reads
the old flags, so the flags are the whole memory of the unit between requests. -/
namespace RiscvSoc.DivUnit

variable {w : Nat}

def special (r : Request w) : Bool :=
  r.divisor == 0#w || (r.isSigned && r.dividend == intMin w && r.divisor == BitVec.allOnes w)

def flagged (s : Regs w) : Bool := s.divByZero || s.overflow

structure Loaded (r : Request w) (s : Regs w) : Prop where
  zero : s.divByZero = (r.divisor == 0#w)
  overflow : s.overflow = (r.isSigned && r.dividend == intMin w && r.divisor == BitVec.allOnes w)

theorem loadedFlagged {r : Request w} {s} (h : Loaded r s) : flagged s = special r := by
  simp [flagged,special,h.zero,h.overflow]

theorem idleHolds {s : Regs w} {i} (idle : s.state = .idle) (low : i.start = false) :
    step s i = s := by
  cases s
  simp_all [step,nextState]

theorem accepted {s : Regs w} (r : Request w) (idle : s.state = .idle) :
    step s (r.inputs true) = {s with state := .init} := by
  simp [step,nextState,idle,Request.inputs]

theorem busyIgnoresStart {s : Regs w} (r : Request w) (a b : Bool) (busy : s.state ≠ .idle) :
    step s (r.inputs a) = step s (r.inputs b) := by
  cases h : s.state <;> simp_all [step,stepInit,stepIter,stepCorrect,nextState,
    absDividend,absDivisor,Request.inputs]

theorem resultIgnoresStart (s : Regs w) (r : Request w) (a b : Bool) :
    result s (r.inputs a) = result s (r.inputs b) := rfl

theorem busyStaysBusy {s : Regs w} {i} (busy : s.state ≠ .idle) (waiting : ready s = false) :
    (step s i).state ≠ .idle := by
  cases h : s.state with
  | idle => exact absurd h busy
  | init => simp only [step,h,stepInit,nextState]; split <;> simp <;> split <;> simp
  | iter => simp only [step,h,stepIter,nextState]; split <;> simp
  | correct => simp [step,h,stepCorrect,nextState]
  | done => simp [ready,h] at waiting

theorem waitsUnique {r : Request w} {s a b sa sb} (busy : s.state ≠ .idle)
    (left : Waits r s a sa) (right : Waits r s b sb) : a = b ∧ sa = sb := by
  induction left generalizing b sb with
  | ready start now =>
    cases right with
    | ready other _ => exact ⟨resultIgnoresStart _ r _ _,busyIgnoresStart r _ _ busy⟩
    | wait other waiting => simp [now] at waiting
  | @wait s out final start waiting next ih =>
    cases right with
    | ready other now => simp [now] at waiting
    | wait other _ later =>
      rw [busyIgnoresStart r other start busy] at later
      exact ih (busyStaysBusy busy waiting) later

theorem initLoads {s : Regs w} (r : Request w) (a : Bool) (init : s.state = .init) :
    Loaded r (step s (r.inputs a)) := by
  simp only [step,init,stepInit]
  split <;> exact ⟨rfl,rfl⟩

theorem initNext {s : Regs w} (r : Request w) (a : Bool) (init : s.state = .init) :
    (step s (r.inputs a)).state = if flagged s then .done else .iter := by
  simp only [step,init,stepInit,nextState,flagged]
  split <;> rfl

theorem loadedKept {r : Request w} {s} (a : Bool) (h : Loaded r s) (past : s.state ≠ .init) :
    Loaded r (step s (r.inputs a)) := by
  cases state : s.state with
  | init => exact absurd state past
  | idle | iter | correct | done =>
    simp only [step,state,stepIter,stepCorrect]
    exact ⟨h.zero,h.overflow⟩

theorem pastInitKept {s : Regs w} {i} (past : s.state ≠ .init) (busy : s.state ≠ .idle) :
    (step s i).state ≠ .init := by
  cases h : s.state with
  | idle => exact absurd h busy
  | init => exact absurd h past
  | iter => simp only [step,h,stepIter,nextState]; split <;> simp
  | correct => simp [step,h,stepCorrect,nextState]
  | done => simp [step,h,nextState]

def specialAnswer (r : Request w) : BitVec w :=
  if r.divisor = 0#w then (if r.remSel then r.dividend else BitVec.allOnes w)
  else (if r.remSel then 0#w else intMin w)

theorem specialResult {r : Request w} {s} (a : Bool) (loaded : Loaded r s) (now : ready s = true)
    (edge : special r = true) : result s (r.inputs a) = specialAnswer r := by
  have done : s.state = .done := by simpa [ready] using now
  have flags := loadedFlagged loaded
  have zero := loaded.zero
  by_cases nothing : r.divisor = 0#w
  · have byZero : s.divByZero = true := by simp [zero,nothing]
    simp [result,done,byZero,specialAnswer,nothing,Request.inputs]
  · have nonzero : s.divByZero = false := by simp [zero,nothing]
    have overflow : s.overflow = true := by simpa [flagged,nonzero,edge] using flags
    simp only [result,done,nonzero,overflow,specialAnswer,nothing]
    rfl

/- What is left in the unit after an answer: nothing but the flags of its request. -/
structure Answered (r : Request w) (out : BitVec w) (final : Regs w) : Prop where
  idle : final.state = .idle
  loaded : Loaded r final
  answer : special r = true → out = specialAnswer r

theorem loadedAnswered {r : Request w} {s out final} (waits : Waits r s out final)
    (loaded : Loaded r s) (past : s.state ≠ .init) (busy : s.state ≠ .idle) :
    Answered r out final := by
  induction waits with
  | @ready s start now =>
    have done : s.state = .done := by simpa [ready] using now
    exact ⟨by simp [step,done,nextState],loadedKept start loaded past,
      specialResult start loaded now⟩
  | wait start waiting next ih =>
    exact ih (loadedKept start loaded past) (pastInitKept past busy) (busyStaysBusy busy waiting)

theorem initWaits {r : Request w} {s out final} (waits : Waits r s out final)
    (init : s.state = .init) : ∃ a, Waits r (step s (r.inputs a)) out final := by
  cases waits with
  | ready start now => simp [ready,init] at now
  | wait start waiting next => exact ⟨start,next⟩

theorem initAnswered {r : Request w} {s out final} (waits : Waits r s out final)
    (init : s.state = .init) : Answered r out final := by
  obtain ⟨a,next⟩ := initWaits waits init
  have state := initNext r a init
  refine loadedAnswered next (initLoads r a init) ?_ ?_ <;>
    · rw [state]
      split <;> simp

theorem initForgets {s t : Regs w} (r : Request w) (a b : Bool)
    (left : s.state = .init) (right : t.state = .init)
    (clearLeft : flagged s = false) (clearRight : flagged t = false)
    (nonzero : r.divisor ≠ 0#w) : step s (r.inputs a) = step t (r.inputs b) := by
  have ds : absDividend s (r.inputs a) = absDividend t (r.inputs b) := by
    simp [absDividend,left,right,Request.inputs]
  have vs : absDivisor s (r.inputs a) = absDivisor t (r.inputs b) := by
    simp [absDivisor,left,right,Request.inputs]
  have ns : nextState s (r.inputs a) = .iter := by
    simpa [nextState,left,flagged] using clearLeft
  have nt : nextState t (r.inputs b) = .iter := by
    simpa [nextState,right,flagged] using clearRight
  simp only [step,left,right,stepInit,ds,vs,ns,nt]
  simp [Request.inputs,nonzero]

theorem answerUnique {r : Request w} {s t a b sa sb}
    (left : s.state = .init) (right : t.state = .init)
    (clearLeft : flagged s = true → special r = true)
    (clearRight : flagged t = true → special r = true)
    (wa : Waits r s a sa) (wb : Waits r t b sb) : a = b := by
  by_cases edge : special r = true
  · rw [(initAnswered wa left).answer edge,(initAnswered wb right).answer edge]
  · have fs : flagged s = false := by simpa using fun h => edge (clearLeft h)
    have ft : flagged t = false := by simpa using fun h => edge (clearRight h)
    have nonzero : r.divisor ≠ 0#w := by
      intro zero
      exact edge (by simp [special,zero])
    obtain ⟨x,na⟩ := initWaits wa left
    obtain ⟨y,nb⟩ := initWaits wb right
    rw [← initForgets r x y left right fs ft nonzero] at nb
    refine (waitsUnique ?_ na nb).1
    rw [initNext r x left,fs]
    simp

/- A non-special request that follows a special one skips DIV_ITER with the P and Q
that DIV_INIT has just cleared. -/
theorem staleRequestAnswersZero {r : Request w} {s out final} (waits : Waits r s out final)
    (init : s.state = .init) (stale : flagged s = true) (ordinary : special r = false) :
    out = 0#w := by
  obtain ⟨a,next⟩ := initWaits waits init
  have loaded := initLoads r a init
  have done : (step s (r.inputs a)).state = .done := by rw [initNext r a init,stale]; rfl
  have clear : flagged (step s (r.inputs a)) = false := by rw [loadedFlagged loaded,ordinary]
  simp only [flagged,Bool.or_eq_false_iff] at clear
  have nonzero : r.divisor ≠ 0#w := by
    intro zero
    simp [special,zero] at ordinary
  have emptyQ : (step s (r.inputs a)).Q = 0#w := by
    simp [step,init,stepInit,Request.inputs,nonzero]
  have emptyP : upper (step s (r.inputs a)).P = 0#w := by
    simp [step,init,stepInit,Request.inputs,nonzero,upper,BitVec.extractLsb'_append_eq_left]
  cases next with
  | ready start now =>
    have negated : ~~~(0#w) + 1#w = 0#w := by rw [← BitVec.neg_eq_not_add,BitVec.neg_zero]
    simp only [result,done,clear,finalQuotient,finalRemainder,emptyQ,emptyP,negated]
    simp
  | wait start waiting later => simp [ready,done] at waiting

theorem counterHoldsLast (wide : 2 ≤ w) : w - 1 < 2 ^ clog2 w := by
  have small : ¬ w ≤ 1 := by omega
  simp only [clog2,small,if_false]
  exact Nat.lt_log2_self

theorem counterReachesLast (wide : 2 ≤ w) (c : BitVec (clog2 w)) :
    ∃ n : Nat, (c + BitVec.ofNat _ n).toNat = w - 1 := by
  have bound := counterHoldsLast wide
  refine ⟨2 ^ clog2 w - c.toNat + (w - 1),?_⟩
  have low := c.isLt
  rw [BitVec.toNat_add,BitVec.toNat_ofNat,Nat.add_mod_mod]
  have sum : c.toNat + (2 ^ clog2 w - c.toNat + (w - 1)) = (w - 1) + 2 ^ clog2 w := by omega
  rw [sum,Nat.add_mod_right,Nat.mod_eq_of_lt bound]

theorem doneServed {s : Regs w} (r : Request w) (done : s.state = .done) :
    ∃ out final, Waits r s out final :=
  ⟨_,_,.ready false (by simp [ready,done])⟩

theorem iterServed {s : Regs w} (r : Request w) (n : Nat) (iter : s.state = .iter)
    (left : (s.iterCount + BitVec.ofNat _ n).toNat = w - 1) : ∃ out final, Waits r s out final := by
  have busy : ready s = false := by simp [ready,iter]
  by_cases last : s.iterCount.toNat = w - 1
  · have correct : (step s (r.inputs false)).state = .correct := by
      simp [step,iter,stepIter,nextState,last]
    have done : (step (step s (r.inputs false)) (r.inputs false)).state = .done := by
      rw [step,correct]
      simp [stepCorrect,nextState,correct]
    obtain ⟨out,final,waits⟩ := doneServed r done
    exact ⟨out,final,.wait false busy (.wait false (by simp [ready,correct]) waits)⟩
  · cases n with
    | zero => exact absurd (by simpa using left) last
    | succ n =>
      have again : (step s (r.inputs false)).state = .iter := by
        simp [step,iter,stepIter,nextState,last]
      have count : (step s (r.inputs false)).iterCount = s.iterCount + 1 := by
        simp [step,iter,stepIter]
      have shorter : ((step s (r.inputs false)).iterCount + BitVec.ofNat _ n).toNat = w - 1 := by
        rw [count,← left,BitVec.ofNat_add,BitVec.add_assoc,BitVec.add_comm 1]
        rfl
      obtain ⟨out,final,waits⟩ := iterServed r n again shorter
      exact ⟨out,final,.wait false busy waits⟩

theorem initServed {s : Regs w} (wide : 2 ≤ w) (r : Request w) (init : s.state = .init) :
    ∃ out final, Waits r s out final := by
  have next := initNext r false init
  have served : ∃ out final, Waits r (step s (r.inputs false)) out final := by
    split at next
    · exact doneServed r next
    · obtain ⟨n,left⟩ := counterReachesLast wide (step s (r.inputs false)).iterCount
      exact iterServed r n next left
  obtain ⟨out,final,waits⟩ := served
  exact ⟨out,final,.wait false (by simp [ready,init]) waits⟩

theorem everySequenceServed {s : Regs w} (wide : 2 ≤ w) (idle : s.state = .idle)
    (requests : List (Request w)) : ∃ outs, Serves s requests outs := by
  induction requests generalizing s with
  | nil => exact ⟨[],.nil s⟩
  | cons r rest ih =>
    have init : (step s (r.inputs true)).state = .init := by rw [accepted r idle]
    obtain ⟨out,middle,waits⟩ := initServed wide r init
    obtain ⟨outs,later⟩ := ih (initAnswered waits init).idle
    exact ⟨out :: outs,.request idle waits later⟩

theorem firstRequest {s : Regs w} {r out} (h : Serves s [r] [out]) :
    s.state = .idle ∧ ∃ final, Waits r {s with state := .init} out final := by
  generalize reqs : [r] = requests at h
  generalize answers : [out] = outs at h
  induction h with
  | nil => simp at reqs
  | gap i idle low next ih =>
    have found := ih reqs answers
    rwa [idleHolds idle low] at found
  | request idle waits next =>
    cases reqs
    cases answers
    rw [accepted r idle] at waits
    exact ⟨idle,_,waits⟩

/- Alone after reset, a request has the answer it has wherever the flags it finds are
clear or its own flags will be set. -/
theorem aloneAfterReset {r : Request w} {s out final} (waits : Waits r s out final)
    (init : s.state = .init) (clear : flagged s = true → special r = true) (o : BitVec w)
    (wide : 2 ≤ w) : Serves reset [r] [o] ↔ o = out := by
  have start : ({(reset : Regs w) with state := .init}).state = .init := rfl
  have fresh : flagged {(reset : Regs w) with state := .init} = true → special r = true := by
    simp [flagged,reset]
  constructor
  · intro h
    obtain ⟨_,final',first⟩ := firstRequest h
    exact answerUnique start init fresh clear first waits
  · rintro rfl
    obtain ⟨o,final',first⟩ := initServed wide r start
    rw [← answerUnique start init fresh clear first waits]
    rw [← accepted r rfl] at first
    exact .request rfl first (.nil final')

def foundFlags (before : Bool) (requests : List (Request w)) : Nat → Bool
  | 0 => before
  | k+1 => (requests[k]?.map special).getD false

def stale (before : Bool) (requests : List (Request w)) (k : Nat) : Bool :=
  foundFlags before requests k && !(requests[k]?.map special).getD true

theorem staleTail (before : Bool) (r : Request w) (rest : List (Request w)) (k : Nat) :
    stale before (r :: rest) (k+1) = stale (special r) rest k := by
  cases k <;> simp [stale,foundFlags]

theorem servedLength {s : Regs w} {requests outs} (served : Serves s requests outs) :
    outs.length = requests.length := by
  induction served with
  | nil => rfl
  | gap i idle low next ih => exact ih
  | request idle waits next ih => simp [ih]

theorem servedAnswer {s : Regs w} {requests outs} (wide : 2 ≤ w)
    (served : Serves s requests outs) {k r out}
    (asked : requests[k]? = some r) (answered : outs[k]? = some out) :
    (stale (flagged s) requests k = false → ∀ o, Serves reset [r] [o] ↔ o = out) ∧
    (stale (flagged s) requests k = true → out = 0#w) := by
  induction served generalizing k with
  | nil => simp at asked
  | gap i idle low next ih =>
    rw [idleHolds idle low] at ih
    exact ih asked answered
  | @request s first out' middle rest outs idle waits next ih =>
    have init : (step s (first.inputs true)).state = .init := by rw [accepted first idle]
    have kept : flagged (step s (first.inputs true)) = flagged s := by
      rw [accepted first idle]
      rfl
    cases k with
    | zero =>
      cases Option.some.inj asked
      cases Option.some.inj answered
      constructor
      · intro fresh o
        refine aloneAfterReset waits init ?_ o wide
        rw [kept]
        simpa [stale,foundFlags] using fresh
      · intro old
        have both : flagged s = true ∧ special r = false := by
          simpa [stale,foundFlags] using old
        exact staleRequestAnswersZero waits init (by rw [kept]; exact both.1) both.2
    | succ k =>
      rw [staleTail,← loadedFlagged (initAnswered waits init).loaded]
      exact ih asked answered

/- The `k`-th answer is the one the request gets alone, except for a non-special request
right after a special one: that one is answered 0. -/
theorem historyIndependent (wide : 2 ≤ w) (requests : List (Request w)) :
    (∃ outs, Serves reset requests outs) ∧
    ∀ outs, Serves reset requests outs → outs.length = requests.length ∧
      ∀ (k : Nat) (r : Request w) (out : BitVec w), requests[k]? = some r → outs[k]? = some out →
        (stale false requests k = false → ∀ o, Serves reset [r] [o] ↔ o = out) ∧
        (stale false requests k = true → out = 0#w) := by
  refine ⟨everySequenceServed wide rfl requests,?_⟩
  intro outs served
  exact ⟨servedLength served,fun k r out asked answered => servedAnswer wide served asked answered⟩

/- -7 / 2 and then its remainder. -/
theorem signedPairAnswered : Serves (w := 32) reset [⟨true,true,0xFFFFFFF9,2⟩] [0xFFFFFFFF] := by
  have paired := (historyIndependent (w := 32) (by decide)
    [⟨true,false,0xFFFFFFF9,2⟩,⟨true,true,0xFFFFFFF9,2⟩]).2 [0xFFFFFFFD,0xFFFFFFFF]
      (serveServes 40 (by decide +kernel))
  exact ((paired.2 1 _ _ rfl rfl).1 (by decide +kernel) _).mpr rfl

/- 1/0 and then 3/1: the second quotient is 0, and alone it is 3. -/
theorem staleFlagsSeen :
    (∃ outs, Serves (w := 32) reset [⟨false,false,1,0⟩,⟨false,false,3,1⟩] outs ∧
      outs[1]? = some 0) ∧
    Serves (w := 32) reset [⟨false,false,3,1⟩] [3] ∧
    ¬ Serves (w := 32) reset [⟨false,false,3,1⟩] [0] := by
  have alone : Serves (w := 32) reset [⟨false,false,3,1⟩] [3] :=
    serveServes 40 (by decide +kernel)
  refine ⟨⟨[0xFFFFFFFF,0],serveServes 40 (by decide +kernel),rfl⟩,alone,?_⟩
  intro zero
  have unique := (servedAnswer (k := 0) (by decide) alone rfl rfl).1 rfl 0
  exact absurd (unique.mp zero) (by decide)

end RiscvSoc.DivUnit
