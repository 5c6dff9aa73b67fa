import RiscvSoc.Rtl.SdramService
import RiscvSoc.Rtl.SdramWords

/-! The SDRAM peripheral, its controller and the device together, as a memory of bytes on the SDRAM clock. -/
namespace RiscvSoc.SdramMemory
open Mealy Machine WordBytes WordPort
open ByteMemory (load)
open SdramPeripheral (Joint JointInputs Request Word InWindow latest place serve width)
open SdramController (Cycles Memory port words)

variable {c : Cycles}

/- The device's read data is what the sampling edge finds. -/
def Arrives (s : Joint 24 (Memory c)) (i : JointInputs (BitVec 16)) : Prop :=
  s.port.cells.shown c.latency s.port.regs.command ∈ [none,some i.other]

/- A refresh is pending while the peripheral is about to issue an access, while the strobe is on the wires, or before the
controller has begun. -/
def Collides (s : Joint 24 (Memory c)) : Prop :=
  s.port.regs.refreshPending = true ∧ (s.periph.issues s.port.regs.wordBusy = true ∨ s.periph.wires.strobe ≠ none ∨
    s.port.regs.reqPending = true)

instance (s : Joint 24 (Memory c)) (i : JointInputs (BitVec 16)) : Decidable (Arrives s i) := inferInstanceAs (Decidable (_ ∈ _))
instance (s : Joint 24 (Memory c)) : Decidable (Collides s) := inferInstanceAs (Decidable (_ ∧ _))

theorem goodStep {s : Joint 24 (Memory c)} {i : JointInputs (BitVec 16)} (arrives : Arrives s i) (apart : ¬ Collides s) :
    s.Good (port c) i SdramController.Calm where
  arrives d shown := by
    rw [Arrives,Option.mem_def.mp shown] at arrives
    have same : d = i.other := by simpa using arrives
    exact same.symm
  apart pending := by
    by_cases strobe : s.periph.wires.strobe = none
    · refine ⟨strobe,?_,?_⟩
      · exact Bool.eq_false_iff.mpr fun issues => apart ⟨pending,.inl issues⟩
      · exact Bool.eq_false_iff.mpr fun asked => apart ⟨pending,.inr (.inr asked)⟩
    · exact absurd ⟨pending,.inr (.inl strobe)⟩ apart

abbrev machine (p : SdramPeripheral.Params 24) (q : SdramController.Params) := Joint.machine (port q.cycles) p
abbrev accepted (q : SdramController.Params) := Joint.accepted (w := 24) (port q.cycles)
abbrev returned (q : SdramController.Params) := Joint.returned (w := 24) (port q.cycles)

section Run
variable (p : SdramPeripheral.Params 24) (q : SdramController.Params) (accepts : q.Accepted)
  (regs : SdramPeripheral.Regs 24) (s : SdramController.Regs q.cycles) (cells : SdramController.Bits)
  (inputs : List (JointInputs (BitVec 16)))
  (arrives : (machine p q).Steps Arrives ⟨regs.reset,SdramController.reset s,cells⟩ inputs)
  (apart : (machine p q).Steps (fun s _ => ¬ Collides s) ⟨regs.reset,SdramController.reset s,cells⟩ inputs)
include accepts arrives apart

theorem servedApart : let start : Joint 24 (Memory q.cycles) := ⟨regs.reset,SdramController.reset s,cells⟩
    let bytes := contents (words cells.cell)
    ∃ served waiting, (machine p q).history (accepted q) start inputs = served ++ Option.toList waiting ∧
      (machine p q).history (returned q) start inputs = (serve p bytes served).1 ∧
      (((machine p q).final start inputs).periph.state = .idle → waiting = none ∧
        contents (words ((machine p q).final start inputs).port.cells.cell) = (serve p bytes served).2) := by
  intro start bytes
  obtain ⟨_,_,write⟩ := SdramController.recovered q
  have fit := SdramController.cyclesFit q
  let contract := SdramController.contract fit accepts (show 2 ≤ q.writeRecovery by omega)
  have rests : contract.Rests (words cells.cell) start.port := SdramController.resetRests s cells
  have good : (machine p q).Steps (fun s i => s.Good (port q.cycles) i SdramController.Calm) start inputs :=
    fun c mem => goodStep (arrives c mem) (apart c mem)
  obtain ⟨served,waiting,all,answers,phase⟩ :=
    SdramPeripheral.servesRun (k := contract) (p := p) (.idle rfl rfl rfl rfl rests) good
  refine ⟨served,waiting,all,answers,fun idle => ?_⟩
  cases phase with
  | idle _ _ _ holds rests => exact ⟨rfl,by rw [rests.holds,holds]⟩
  | works work => exact absurd idle (SdramPeripheral.workBusy work)

end Run

/- From a reset on and whatever the cells hold: as long as no refresh collides with an access, the requests are answered as the
memory of bytes answers them, in their order and but for the one under way, and at rest the cells hold what that memory holds. -/
theorem bytesServed (p : SdramPeripheral.Params 24) (q : SdramController.Params) (accepts : q.Accepted)
    (regs : SdramPeripheral.Regs 24) (s : SdramController.Regs q.cycles) (cells : SdramController.Bits)
    (inputs : List (JointInputs (BitVec 16)))
    (arrives : (machine p q).Steps Arrives ⟨regs.reset,SdramController.reset s,cells⟩ inputs)
    (apart : (machine p q).Steps (fun s _ => ¬ Collides s) ⟨regs.reset,SdramController.reset s,cells⟩ inputs) :
    let start : Joint 24 (Memory q.cycles) := ⟨regs.reset,SdramController.reset s,cells⟩
    let bytes := contents (words cells.cell)
    ∃ served waiting, (machine p q).history (accepted q) start inputs = served ++ Option.toList waiting ∧
      (machine p q).history (returned q) start inputs = (serve p bytes served).1 ∧
      (((machine p q).final start inputs).periph.state = .idle → waiting = none ∧
        contents (words ((machine p q).final start inputs).port.cells.cell) = (serve p bytes served).2) :=
  servedApart p q accepts regs s cells inputs arrives apart

def small : SdramPeripheral.Params 24 where
  baseAddr := 0x10000000
  addrSize := 0x40
  shiftable := by decide
  baseAligned := by decide
  nonZero := by decide
  sizeAligned := by decide
  decoded := by decide
  addressed := by decide
  window := by decide

open SdramController (slowClock)

def blank : SdramPeripheral.Regs 24 := ⟨.idle,0,0,false,0,false,0,false,0,0,0,0,false,false,0,false,false,false,0,0⟩

def filled (x : BitVec 16) : Joint 24 (Memory slowClock.cycles) :=
  ⟨blank.reset,SdramController.reset default,⟨.powerUp,fun _ => x,[]⟩⟩

/- `word` offered from the cycle `n` on for `k` cycles, then none; all read data is `x`. -/
def offered (n k : Nat) (r : Request) (x : BitVec 16) : List (JointInputs (BitVec 16)) :=
  List.replicate n ⟨r,false,true,x⟩ ++ [⟨r,true,true,x⟩] ++ List.replicate k ⟨r,false,true,x⟩

/- A word stored and a halfword of it loaded. -/
def storedThenLoaded : List (JointInputs (BitVec 16)) :=
  offered 17 22 ⟨0x10000004,0x5A5A5A5A,true,2⟩ 0x5A5A ++ offered 0 24 ⟨0x10000006,0,false,1⟩ 0x5A5A

theorem loadServed : ∃ served waiting,
    (machine small slowClock).history (accepted slowClock) (filled 0) storedThenLoaded = served ++ Option.toList waiting ∧
      (machine small slowClock).history (returned slowClock) (filled 0) storedThenLoaded =
        (serve small (contents (words fun _ => 0)) served).1 ∧
      (((machine small slowClock).final (filled 0) storedThenLoaded).periph.state = .idle → waiting = none ∧
        contents (words ((machine small slowClock).final (filled 0) storedThenLoaded).port.cells.cell) =
          (serve small (contents (words fun _ => 0)) served).2) :=
  bytesServed small slowClock (by decide) blank default ⟨.powerUp,fun _ => 0,[]⟩ storedThenLoaded (by decide +kernel)
    (by decide +kernel)

example : (machine small slowClock).history (returned slowClock) (filled 0) storedThenLoaded = [0,0x5A5A] := by decide +kernel

def storedAcross : List (JointInputs (BitVec 16)) :=
  offered 17 90 ⟨0x10000006,0x5A5A5A5A,true,2⟩ 0x5A5A ++ offered 0 90 ⟨0x10000006,0,false,2⟩ 0x5A5A

end RiscvSoc.SdramMemory
