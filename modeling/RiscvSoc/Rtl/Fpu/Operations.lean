import RiscvSoc.Rtl.DivQuotient
import RiscvSoc.Rtl.Fpu.Fpu

/-! Operations one after another. `fpu_start` is high in the first cycle of an operation and low
from then on, and the other inputs are held until `fpu_ready`; between operations they are free. -/
namespace RiscvSoc.Fpu
open BitNumbers
open DivUnit (Waits)

def Inputs.begin (i : Inputs) : Inputs := {i with fpuStart := true}
def Inputs.hold (i : Inputs) : Inputs := {i with fpuStart := false}

/- An operation from the cycle it is presented in, with the result in the cycle of `fpu_ready`. -/
inductive Completes : Inputs → Regs → BitVec 32 → Regs → Prop where
  | ready {i s} (now : fpuReady s i = true) : Completes i s (fpResult s i) (step s i)
  | wait {i s r t} (busy : fpuReady s i = false) (next : Completes i.hold (step s i) r t) : Completes i s r t

inductive Reached : Regs → Prop where
  | reset : Reached reset
  | gap {s} (h : Reached s) (i : Inputs) (low : i.fpuStart = false) : Reached (step s i)
  | operation {s t} (h : Reached s) (i : Inputs) {r : BitVec 32} (done : Completes i.begin s r t) : Reached t

/- Nothing is in progress and the divider has no flag left to see. -/
structure Quiet (s : Regs) : Prop where
  idle : s.div.state = .idle
  clear : DivUnit.flagged s.div = false
  free : s.divInProgress = false

theorem quietReset : Quiet reset := ⟨rfl,rfl,rfl⟩

theorem quietStep {s : Regs} {i : Inputs} (h : Quiet s) (low : divStart i = false) : Quiet (step s i) := by
  have held : DivUnit.step s.div (divInputs i) = s.div := DivUnit.idleHolds h.idle low
  refine ⟨?_,?_,?_⟩
  · rw [step,held]
    exact h.idle
  · rw [step,held]
    exact h.clear
  · simp [step,low,h.free]

def request (i : Inputs) : DivUnit.Request 48 :=
  ⟨false,false,(divSetup i.fs1 i.fs2).dividend,(divSetup i.fs1 i.fs2).divisor⟩

theorem dividerHeld (i : Inputs) : divInputs i.hold = (request i).inputs false := rfl

theorem dividerStarted {i : Inputs} (start : divStart i = true) : divInputs i = (request i).inputs true := by
  rw [divInputs,start]
  rfl

theorem setupNeeds {a b : BitVec 32} (needs : (divSetup a b).needsDiv = true) :
    divSetup a b = ⟨significand a ++ 0#24,0#24 ++ significand b,true,0,0⟩ := by
  simp only [divSetup,special] at needs ⊢
  repeat' split at needs
  all_goals first | exact absurd needs Bool.false_ne_true | simp_all

theorem significandNonzero (b : BitVec 32) : 0#24 ++ significand b ≠ 0#48 := by
  have low := (significandBounds b).1
  intro zero
  have value := zeroExtended 24 (significand b)
  rw [zero] at value
  have nothing : 0 = (significand b).toNat := value
  omega

theorem ordinaryRequest {i : Inputs} (needs : (divSetup i.fs1 i.fs2).needsDiv = true) :
    DivUnit.special (request i) = false := by
  have nonzero := significandNonzero i.fs2
  rw [request,setupNeeds needs]
  simp [DivUnit.special,nonzero]

theorem busyReady {s : Regs} (i : Inputs) (busy : s.divInProgress = true) :
    fpuReady s i = DivUnit.ready s.div := by
  rw [fpuReady,if_pos busy]
  rfl

theorem busyStep {s : Regs} (i : Inputs) :
    (step s i.hold).div = DivUnit.step s.div ((request i).inputs false) ∧
    (step s i.hold).divFs1Reg = s.divFs1Reg ∧ (step s i.hold).divFs2Reg = s.divFs2Reg ∧
    (step s i.hold).divInProgress = if DivUnit.ready s.div then false else s.divInProgress :=
  ⟨rfl,rfl,rfl,rfl⟩

structure Answers (i : Inputs) (s : Regs) (r : BitVec 32) (t : Regs) (out : BitVec 48) : Prop where
  waits : Waits (request i) s.div out t.div
  result : i.fpuOp = .div → r = (divAssemble s.divFs1Reg s.divFs2Reg out).result
  free : t.divInProgress = false

theorem waitAnswers {i : Inputs} {s t : Regs} {r : BitVec 32} (done : Completes i s r t) (held : i.hold = i)
    (busy : s.divInProgress = true) : ∃ out, Answers i s r t out := by
  induction done with
  | @ready i s now =>
    have last : DivUnit.ready s.div = true := by rw [← busyReady i busy,now]
    obtain ⟨div,_,_,free⟩ := busyStep (s := s) i
    rw [held] at div free
    have shown : divInputs i = (request i).inputs false := by rw [← dividerHeld,held]
    refine ⟨DivUnit.result s.div ((request i).inputs false),div ▸ .ready false last,fun op => ?_,
      by rw [free,if_pos last]⟩
    rw [fpResult,op]
    simp only [busy,divReady,last,Bool.and_self,if_true]
    rw [divAssembled,shown]
  | @wait i s r t waiting next ih =>
    have early : DivUnit.ready s.div = false := by rw [← busyReady i busy,waiting]
    obtain ⟨div,first,second,progress⟩ := busyStep (s := s) i
    rw [held] at div first second progress ih
    have still : (step s i).divInProgress = true := by rw [progress,early,if_neg Bool.false_ne_true,busy]
    obtain ⟨out,waits,result,free⟩ := ih held still
    rw [div] at waits
    rw [first,second] at result
    exact ⟨out,.wait false early waits,result,free⟩

theorem answersWait {i : Inputs} {s : Regs} {d out final} (waits : Waits (request i) d out final)
    (same : s.div = d) (awake : d.state ≠ .idle) (held : i.hold = i) (busy : s.divInProgress = true) :
    ∃ r t, Completes i s r t := by
  induction waits generalizing s with
  | ready start now => exact ⟨_,_,.ready (by rw [busyReady i busy,same,now])⟩
  | @wait d out final start early next ih =>
    obtain ⟨div,_,_,progress⟩ := busyStep (s := s) i
    rw [held] at div progress
    rw [same] at div progress
    have still : (step s i).divInProgress = true := by rw [progress,early,if_neg Bool.false_ne_true,busy]
    have ignored := DivUnit.busyIgnoresStart (request i) start false awake
    obtain ⟨r,t,done⟩ := ih (div.trans ignored.symm) (DivUnit.busyStaysBusy awake early) still
    refine ⟨r,t,.wait (by rw [busyReady i busy,same,early]) ?_⟩
    rw [held]
    exact done

section start
variable {s : Regs} {i : Inputs}

theorem startBusy (quiet : Quiet s) (start : divStart i = true) : fpuReady s i = false := by
  rw [fpuReady,quiet.free,start]
  rfl

theorem startStep (quiet : Quiet s) (start : divStart i = true) :
    (step s i).div = {s.div with state := .init} ∧ (step s i).divFs1Reg = i.fs1 ∧ (step s i).divFs2Reg = i.fs2 ∧
    (step s i).divInProgress = true := by
  refine ⟨?_,if_pos start,if_pos start,if_pos start⟩
  rw [step,dividerStarted start]
  exact DivUnit.accepted _ quiet.idle

theorem startParts (start : divStart i = true) :
    i.fpuOp = .div ∧ (divSetup i.fs1 i.fs2).needsDiv = true := by
  simp only [divStart,Bool.and_eq_true,beq_iff_eq] at start
  exact ⟨start.1.2,start.2⟩

theorem dividerAnswers (quiet : Quiet s) (start : divStart i = true) {out final}
    (waits : Waits (request i) (step s i).div out final) :
    out = (significand i.fs1 ++ 0#24) / (0#24 ++ significand i.fs2) := by
  obtain ⟨_,needs⟩ := startParts start
  have nonzero := significandNonzero i.fs2
  have bits := (significandBounds i.fs2).2
  have setup := setupNeeds needs
  have begun : DivUnit.step s.div ((request i).inputs true) = (step s i).div := by
    rw [(startStep quiet start).1,DivUnit.accepted _ quiet.idle]
  rw [← begun] at waits
  have served : DivUnit.Serves s.div [request i] [out] := .request quiet.idle waits (.nil _)
  have fresh : DivUnit.stale (DivUnit.flagged s.div) [request i] 0 = false := by
    rw [quiet.clear]
    rfl
  have alone := (DivUnit.servedAnswer (k := 0) (by decide) served rfl rfl).1 fresh
  have dividend : (request i).dividend = significand i.fs1 ++ 0#24 := by rw [request,setup]
  have divisor : (request i).divisor = 0#24 ++ significand i.fs2 := by rw [request,setup]
  have small : ((request i).divisor).toNat ≤ 2 ^ (48 - 1) := by
    rw [divisor,zeroExtended]
    omega
  have kept := DivUnit.keptAnswer (by decide) (request i) rfl (by rw [divisor]; exact nonzero) (.inl small) out
  rw [← dividend,← divisor]
  exact kept.mp ((alone out).mpr rfl)

theorem startAnswers (quiet : Quiet s) (start : divStart i = true) {r t} (done : Completes i s r t) :
    Quiet t ∧ r = (divAssemble i.fs1 i.fs2 ((significand i.fs1 ++ 0#24) / (0#24 ++ significand i.fs2))).result := by
  obtain ⟨op,needs⟩ := startParts start
  obtain ⟨div,first,second,busy⟩ := startStep quiet start
  cases done with
  | ready now => rw [startBusy quiet start] at now; exact absurd now Bool.false_ne_true
  | wait _ next =>
    obtain ⟨out,waits,result,free⟩ := waitAnswers next rfl busy
    have answer := dividerAnswers quiet start waits
    have init : (step s i).div.state = .init := by rw [div]
    have answered := DivUnit.initAnswered waits init
    rw [first,second,answer] at result
    refine ⟨⟨answered.idle,?_,free⟩,result op⟩
    rw [DivUnit.loadedFlagged answered.loaded]
    exact ordinaryRequest (i := i.hold) needs

theorem startCompletes (quiet : Quiet s) (start : divStart i = true) : ∃ r t, Completes i s r t := by
  obtain ⟨div,_,_,busy⟩ := startStep quiet start
  have init : (step s i).div.state = .init := by rw [div]
  obtain ⟨out,final,waits⟩ := DivUnit.initServed (by decide) (request i.hold) init
  have awake : (step s i).div.state ≠ .idle := by simp [init]
  obtain ⟨r,t,done⟩ := answersWait waits rfl awake rfl busy
  exact ⟨r,t,.wait (startBusy quiet start) done⟩

theorem otherReady (quiet : Quiet s) (other : divStart i = false) : fpuReady s i = true := by
  rw [fpuReady,quiet.free,other]
  rfl

theorem otherAnswers (quiet : Quiet s) (other : divStart i = false) {r t} (done : Completes i s r t) :
    r = fpResult s i ∧ t = step s i := by
  cases done with
  | ready now => exact ⟨rfl,rfl⟩
  | wait busy _ => rw [otherReady quiet other] at busy; exact absurd busy Bool.true_eq_false.mp

theorem operationQuiet (quiet : Quiet s) {r t} (done : Completes i s r t) : Quiet t := by
  cases start : divStart i with
  | true => exact (startAnswers quiet start done).1
  | false =>
    rw [(otherAnswers quiet start done).2]
    exact quietStep quiet start

end start

theorem reachedQuiet {s : Regs} (h : Reached s) : Quiet s := by
  induction h with
  | reset => exact quietReset
  | gap _ i low ih => exact quietStep ih (by rw [divStart,low]; rfl)
  | operation _ i done ih => exact operationQuiet ih done

end RiscvSoc.Fpu
