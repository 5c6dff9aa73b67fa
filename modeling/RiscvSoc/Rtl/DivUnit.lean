/-! The non-restoring divider of `div_unit.sv`, one clock edge at a time, and what
a sequence of requests to it sees. A requester raises `start` while the unit is in
DIV_IDLE and holds operands and mode flags until `ready`; `start` is free while the
unit is busy, and so is every input while it is idle and `start` is low. -/
namespace RiscvSoc.DivUnit

def clog2 (n : Nat) : Nat := if n ≤ 1 then 0 else Nat.log2 (n - 1) + 1

inductive DivState where
  | idle
  | init
  | iter
  | correct
  | done
  deriving DecidableEq, Repr

structure Inputs (w : Nat) where
  start : Bool
  isSigned : Bool
  remSel : Bool
  dividend : BitVec w
  divisor : BitVec w
  deriving DecidableEq, Repr

structure Regs (w : Nat) where
  state : DivState
  P : BitVec (w + w)
  D : BitVec (w + w)
  Q : BitVec w
  iterCount : BitVec (clog2 w)
  dividendNeg : Bool
  divisorNeg : Bool
  divByZero : Bool
  overflow : Bool
  deriving DecidableEq, Repr

variable {w : Nat}

def reset : Regs w := ⟨.idle,0,0,0,0,false,false,false,false⟩

/- In DIV_INIT the branch reads the flag registers, which this same edge reloads:
it sees what the previous request left there. -/
def nextState (s : Regs w) (i : Inputs w) : DivState := match s.state with
  | .idle => if i.start then .init else .idle
  | .init => if s.divByZero || s.overflow then .done else .iter
  | .iter => if s.iterCount.toNat = w - 1 then .correct else .iter
  | .correct => .done
  | .done => .idle

def intMin (w : Nat) : BitVec w := 1#w <<< (w - 1)

def absolute (x : BitVec w) : BitVec w := if x.msb then ~~~x + 1#w else x

def absDividend (s : Regs w) (i : Inputs w) : BitVec w :=
  if s.state = .init ∧ i.isSigned ∧ i.divisor ≠ 0#w then absolute i.dividend else i.dividend

def absDivisor (s : Regs w) (i : Inputs w) : BitVec w :=
  if s.state = .init ∧ i.isSigned ∧ i.divisor ≠ 0#w then absolute i.divisor else i.divisor

def pShifted (s : Regs w) : BitVec (w + w) := s.P <<< 1
def pSub (s : Regs w) : BitVec (w + w) := pShifted s - s.D
def pAdd (s : Regs w) : BitVec (w + w) := pShifted s + s.D

def stepInit (s : Regs w) (i : Inputs w) : Regs w :=
  let flagged := {s with
    state := nextState s i
    divByZero := i.divisor == 0#w
    overflow := i.isSigned && i.dividend == intMin w && i.divisor == BitVec.allOnes w}
  if i.divisor ≠ 0#w then
    {flagged with
      dividendNeg := i.isSigned && i.dividend.msb
      divisorNeg := i.isSigned && i.divisor.msb
      P := 0#w ++ absDividend s i
      D := absDivisor s i ++ 0#w
      Q := 0#w
      iterCount := 0}
  else flagged

def stepIter (s : Regs w) (i : Inputs w) : Regs w :=
  let p := if s.P.msb then pAdd s else pSub s
  {s with
    state := nextState s i
    P := p
    Q := s.Q.shiftConcat (!p.msb)
    iterCount := s.iterCount + 1}

def stepCorrect (s : Regs w) (i : Inputs w) : Regs w :=
  {s with state := nextState s i, P := if s.P.msb then s.P + s.D else s.P}

def step (s : Regs w) (i : Inputs w) : Regs w := match s.state with
  | .init => stepInit s i
  | .iter => stepIter s i
  | .correct => stepCorrect s i
  | .idle | .done => {s with state := nextState s i}

def upper (x : BitVec (w + w)) : BitVec w := x.extractLsb' w w

def finalQuotient (s : Regs w) (i : Inputs w) : BitVec w :=
  if (i.isSigned && !s.divByZero && !s.overflow) && (s.dividendNeg ^^ s.divisorNeg) then ~~~s.Q + 1#w
  else s.Q

def finalRemainder (s : Regs w) (i : Inputs w) : BitVec w :=
  if (i.isSigned && !s.divByZero && !s.overflow) && s.dividendNeg then ~~~(upper s.P) + 1#w
  else upper s.P

def ready (s : Regs w) : Bool := s.state = .done

def result (s : Regs w) (i : Inputs w) : BitVec w :=
  if s.state = .done then
    if s.divByZero then (if i.remSel then i.dividend else BitVec.allOnes w)
    else if s.overflow then (if i.remSel then 0#w else intMin w)
    else if i.remSel then finalRemainder s i
    else finalQuotient s i
  else 0#w

structure Request (w : Nat) where
  isSigned : Bool
  remSel : Bool
  dividend : BitVec w
  divisor : BitVec w
  deriving DecidableEq, Repr

def Request.inputs (r : Request w) (start : Bool) : Inputs w :=
  ⟨start,r.isSigned,r.remSel,r.dividend,r.divisor⟩

/- A request waits from the edge that took `start` until the cycle `ready` is high;
the answer is what `result` shows in that cycle. -/
inductive Waits (r : Request w) : Regs w → BitVec w → Regs w → Prop where
  | ready {s} (start : Bool) (now : ready s = true) :
      Waits r s (result s (r.inputs start)) (step s (r.inputs start))
  | wait {s out final} (start : Bool) (busy : ready s = false)
      (next : Waits r (step s (r.inputs start)) out final) : Waits r s out final

inductive Serves : Regs w → List (Request w) → List (BitVec w) → Prop where
  | nil (s) : Serves s [] []
  | gap {s requests outs} (i : Inputs w) (idle : s.state = .idle) (low : i.start = false)
      (next : Serves (step s i) requests outs) : Serves s requests outs
  | request {s r out middle requests outs} (idle : s.state = .idle)
      (waits : Waits r (step s (r.inputs true)) out middle)
      (next : Serves middle requests outs) : Serves s (r :: requests) (out :: outs)

/- The closed loop with no gaps and `start` pulsed for one cycle, for evaluation. -/
def await (r : Request w) : Nat → Regs w → Option (BitVec w × Regs w)
  | 0, _ => none
  | fuel+1, s =>
      if ready s then some (result s (r.inputs false),step s (r.inputs false))
      else await r fuel (step s (r.inputs false))

def serve (fuel : Nat) : Regs w → List (Request w) → Option (List (BitVec w))
  | _, [] => some []
  | s, r :: rest =>
      if s.state = .idle then do
        let (out,middle) ← await r fuel (step s (r.inputs true))
        let outs ← serve fuel middle rest
        some (out :: outs)
      else none

theorem awaitWaits {r : Request w} {fuel s out final} (h : await r fuel s = some (out,final)) :
    Waits r s out final := by
  induction fuel generalizing s with
  | zero => simp [await] at h
  | succ fuel ih =>
    simp only [await] at h
    split at h
    · rename_i now
      cases Option.some.inj h
      exact .ready false now
    · rename_i busy
      exact .wait false (by simpa using busy) (ih h)

theorem serveServes (fuel : Nat) {s : Regs w} {requests outs} (h : serve fuel s requests = some outs) :
    Serves s requests outs := by
  induction requests generalizing s outs with
  | nil =>
    have same : outs = [] := by simpa [serve] using h.symm
    subst outs
    exact .nil s
  | cons r rest ih =>
    simp only [serve] at h
    split at h
    · rename_i idle
      simp only [bind,Option.bind_eq_some_iff] at h
      obtain ⟨⟨out,middle⟩,first,tail,others,last⟩ := h
      cases Option.some.inj last
      exact .request idle (awaitWaits first) (ih others)
    · contradiction

end RiscvSoc.DivUnit
