import RiscvSoc.Lib.BoundedQueue

/-! `skid_buffer.sv`, for every `WIDTH`. -/
namespace RiscvSoc.SkidBuffer
open Mealy Machine BoundedQueue

structure Regs (width : Nat) where
  outData : BitVec width
  outValid : Bool
  skidData : BitVec width
  skidValid : Bool
  inReady : Bool
  deriving DecidableEq, Repr

abbrev Inputs (width : Nat) := Ports (BitVec width)

structure Outputs (width : Nat) where
  inReady : Bool
  outValid : Bool
  outData : BitVec width
  deriving DecidableEq, Repr

variable {width : Nat}

/- The data keep what they have. -/
def reset (s : Regs width) : Regs width := {s with outValid := false, skidValid := false, inReady := true}

namespace Regs
variable (s : Regs width) (i : Inputs width)

def outPop : Bool := s.outValid && i.outReady
def inPush : Bool := i.inValid && s.inReady

def popped : Regs width :=
  if s.outPop i then
    if s.skidValid then {s with outData := s.skidData, outValid := true, skidValid := false}
    else {s with outValid := false}
  else s

def pushed (s' : Regs width) : Regs width :=
  if s.inPush i then
    if !s'.outValid then {s' with outData := i.inData, outValid := true}
    else {s' with skidData := i.inData, skidValid := true}
  else s'

def next : Regs width :=
  let s' := s.pushed i (s.popped i)
  {s' with inReady := !(s'.outValid && s'.skidValid)}

end Regs

def machine : Machine (Regs width) (Inputs width) (Outputs width) where
  output s _ := ⟨s.inReady,s.outValid,s.outData⟩
  next s i := s.next i

/- The words held, the one at the output first. -/
def contents (s : Regs width) : List (BitVec width) :=
  (if s.outValid then [s.outData] else []) ++ (if s.skidValid then [s.skidData] else [])

structure Slots (s : Regs width) : Prop where
  behind : s.skidValid = true → s.outValid = true
  ready : s.inReady = !(s.outValid && s.skidValid)

theorem slotsReset (s : Regs width) : Slots (reset s) := ⟨nofun,rfl⟩

theorem slotsShapes {s : Regs width} (slots : Slots s) : ∃ out skid,
    s = ⟨out,false,skid,false,true⟩ ∨ s = ⟨out,true,skid,false,true⟩ ∨ s = ⟨out,true,skid,true,false⟩ := by
  obtain ⟨out,outValid,skid,skidValid,inReady⟩ := s
  obtain ⟨behind,ready⟩ := slots
  simp only at behind ready
  subst ready
  refine ⟨out,skid,?_⟩
  cases outValid with
  | false =>
    cases skidValid with
    | false => exact .inl rfl
    | true => exact absurd (behind rfl) Bool.false_ne_true
  | true =>
    cases skidValid with
    | false => exact .inr (.inl rfl)
    | true => exact .inr (.inr rfl)

theorem slotsNext {s : Regs width} (slots : Slots s) (i : Inputs width) : Slots (s.next i) := by
  obtain ⟨out,skid,rfl | rfl | rfl⟩ := slotsShapes slots <;> obtain ⟨inValid,inData,outReady⟩ := i <;>
    refine ⟨fun spilled => ?_,rfl⟩ <;> cases inValid <;> cases outReady <;>
    first | rfl | exact absurd spilled Bool.false_ne_true

theorem contentsNext {s : Regs width} (slots : Slots s) (i : Inputs width) :
    contents (s.next i) = (queue 2).next (contents s) i := by
  obtain ⟨out,skid,rfl | rfl | rfl⟩ := slotsShapes slots <;> obtain ⟨inValid,inData,outReady⟩ := i <;>
    cases inValid <;> cases outReady <;> rfl

def offers (o : Outputs width) : Offers (BitVec width) := ⟨o.inReady,if o.outValid then some o.outData else none⟩

theorem offersContents {s : Regs width} (slots : Slots s) (i : Inputs width) :
    offers (machine.output s i) = (queue 2).output (contents s) i := by
  obtain ⟨out,skid,rfl | rfl | rfl⟩ := slotsShapes slots <;> rfl

theorem skidRefines : Refines (machine : Machine (Regs width) _ _) 2 Slots contents offers where
  kept _ i slots := slotsNext slots i
  moves _ i slots := contentsNext slots i
  offers _ i slots := offersContents slots i

def accepted (s : Regs width) (i : Inputs width) : List (BitVec width) := if i.inValid && s.inReady then [i.inData] else []
def delivered (s : Regs width) (i : Inputs width) : List (BitVec width) := if s.outValid && i.outReady then [s.outData] else []

theorem contentsConserved (s : Regs width) (i : Inputs width) (slots : Slots s) : Slots (machine.next s i) ∧
    contents s ++ accepted s i = delivered s i ++ contents (machine.next s i) := by
  have offered := offersContents slots i
  have taken : accepted s i = BoundedQueue.accepted 2 (contents s) i := by
    unfold accepted BoundedQueue.accepted
    rw [show s.inReady = decide ((contents s).length < 2) from congrArg Offers.inReady offered]
  have given : delivered s i = BoundedQueue.delivered (contents s) i := by
    have head : (if s.outValid then some s.outData else none) = (contents s).head? := congrArg Offers.outData offered
    unfold delivered BoundedQueue.delivered
    rw [← head]
    cases s.outValid <;> cases i.outReady <;> rfl
  refine ⟨slotsNext slots i,?_⟩
  rw [skidRefines.moves s i slots,taken,given]
  exact queueConserved _ _

/- From reset the buffer is a queue of two places: it shows what the queue shows at every moment, the words accepted are
those delivered, in order, and those held, a word that is not taken stays at the output, and the outputs of a cycle are
settled before its inputs. -/
theorem refinesTwoPlaces (s : Regs width) (inputs : List (Inputs width)) :
    (machine.outputs (reset s) inputs).map offers = (queue 2).outputs [] inputs ∧
    machine.history accepted (reset s) inputs =
      machine.history delivered (reset s) inputs ++ contents (machine.final (reset s) inputs) ∧
    (contents (machine.final (reset s) inputs)).length ≤ 2 ∧
    (∀ i : Inputs width, (machine.final (reset s) inputs).outValid = true → i.outReady = false →
      ((machine.final (reset s) inputs).next i).outValid = true ∧
        ((machine.final (reset s) inputs).next i).outData = (machine.final (reset s) inputs).outData) ∧
    (∀ i j, machine.outputs (reset s) (inputs ++ [i]) = machine.outputs (reset s) (inputs ++ [j])) := by
  obtain ⟨slots,moved,shown⟩ := refinesRun skidRefines (slotsReset s) inputs
  obtain ⟨_,order⟩ := machine.conserved contentsConserved (slotsReset s) inputs
  refine ⟨shown,order,?_,?_,?_⟩
  · rw [moved]
    exact runBounded (Nat.zero_le 2) inputs
  · intro i valid stalled
    generalize machine.final (reset s) inputs = here at slots valid
    have offered : (contents here).head? = some here.outData := by
      rw [contents,if_pos valid]
      rfl
    have waits : ((queue 2).next (contents here) i).head? = some here.outData := queueWaits offered stalled
    rw [← contentsNext slots] at waits
    have shows := congrArg Offers.outData (offersContents (slotsNext slots i) i)
    change (if (here.next i).outValid then some (here.next i).outData else none) = (contents (here.next i)).head? at shows
    rw [waits] at shows
    cases next : (here.next i).outValid with
    | false =>
      rw [next] at shows
      contradiction
    | true =>
      rw [next] at shows
      exact ⟨rfl,Option.some.inj shows⟩
  · intro i j
    rw [outputsAppend,outputsAppend]
    rfl

end RiscvSoc.SkidBuffer
