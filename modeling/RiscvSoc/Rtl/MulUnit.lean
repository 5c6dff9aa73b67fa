import RiscvSoc.Rtl.DivHistory

/-! The shift-and-add multiplier of `mul_unit.sv`, one clock edge at a time. The operands are
read in MUL_INIT, the cycle after the one that takes `start`; every input is free otherwise. -/
namespace RiscvSoc.MulUnit
open DivUnit (clog2 absolute upper)

inductive MulState where
  | idle
  | init
  | iter
  | done
  deriving DecidableEq, Repr

inductive OpType where
  | mul
  | mulh
  | mulhsu
  | mulhu
  deriving DecidableEq, Repr

structure Inputs (w : Nat) where
  start : Bool
  opType : OpType
  multiplicand : BitVec w
  multiplier : BitVec w
  deriving DecidableEq, Repr

structure Regs (w : Nat) where
  state : MulState
  product : BitVec (w + w)
  mcand : BitVec w
  iterCount : BitVec (clog2 w)
  resultNegative : Bool
  opTypeReg : OpType
  deriving DecidableEq, Repr

variable {w : Nat}

def reset : Regs w := ⟨.idle,0,0,0,false,.mul⟩

def nextState (s : Regs w) (i : Inputs w) : MulState := match s.state with
  | .idle => if i.start then .init else .idle
  | .init => .iter
  | .iter => if s.iterCount.toNat = w - 1 then .done else .iter
  | .done => .idle

def absMultiplicand (s : Regs w) (i : Inputs w) : BitVec w :=
  if s.state = .init ∧ (i.opType = .mul ∨ i.opType = .mulh ∨ i.opType = .mulhsu) then absolute i.multiplicand
  else i.multiplicand

def absMultiplier (s : Regs w) (i : Inputs w) : BitVec w :=
  if s.state = .init ∧ (i.opType = .mul ∨ i.opType = .mulh) then absolute i.multiplier else i.multiplier

def addResult (s : Regs w) : BitVec (1 + w) := (0#1 ++ upper s.product) + (0#1 ++ s.mcand)

def stepInit (s : Regs w) (i : Inputs w) : Regs w :=
  {s with
    state := nextState s i
    opTypeReg := i.opType
    resultNegative := match i.opType with
      | .mul | .mulh => i.multiplicand.msb ^^ i.multiplier.msb
      | .mulhsu => i.multiplicand.msb
      | .mulhu => false
    product := 0#w ++ absMultiplier s i
    mcand := absMultiplicand s i
    iterCount := 0}

/- `setWidth` only states that WIDTH+1 and WIDTH-1 bits are 2*WIDTH bits. -/
def stepIter (s : Regs w) (i : Inputs w) : Regs w :=
  {s with
    state := nextState s i
    product :=
      if s.product.getLsbD 0 then (addResult s ++ s.product.extractLsb' 1 (w - 1)).setWidth (w + w)
      else s.product >>> 1
    iterCount := s.iterCount + 1}

def step (s : Regs w) (i : Inputs w) : Regs w := match s.state with
  | .init => stepInit s i
  | .iter => stepIter s i
  | .idle | .done => {s with state := nextState s i}

def finalProduct (s : Regs w) : BitVec (w + w) :=
  if s.resultNegative && s.product != 0 then ~~~s.product + 1 else s.product

def ready (s : Regs w) : Bool := s.state = .done

def lower (x : BitVec (w + w)) : BitVec w := x.extractLsb' 0 w

def result (s : Regs w) : BitVec w :=
  if s.state = .done then
    if s.opTypeReg = .mul then lower (finalProduct s) else upper (finalProduct s)
  else 0

def states (i : Nat → Inputs w) : Nat → Regs w
  | 0 => reset
  | n+1 => step (states i n) (i n)

structure Request (w : Nat) where
  opType : OpType
  multiplicand : BitVec w
  multiplier : BitVec w
  deriving DecidableEq, Repr

/- `start` taken in cycle `n`, with the operands there in the next one. -/
structure Asks (i : Nat → Inputs w) (n : Nat) (r : Request w) : Prop where
  idle : (states i n).state = .idle
  start : (i n).start = true
  opType : (i (n + 1)).opType = r.opType
  multiplicand : (i (n + 1)).multiplicand = r.multiplicand
  multiplier : (i (n + 1)).multiplier = r.multiplier

end RiscvSoc.MulUnit
