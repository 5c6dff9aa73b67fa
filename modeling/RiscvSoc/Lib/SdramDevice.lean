import RiscvSoc.Lib.Mealy

/-! What a synchronous DRAM asks of its command stream: times between commands in clock
cycles, and banks that are opened and closed in turn. -/
namespace Sdram
open Mealy Machine
variable {β ρ κ : Type} [DecidableEq β]

/- `rcd`: ACTIVE to READ or WRITE. `rp`: precharge to the next ACTIVE or AUTO REFRESH.
`wr`: the last data written to its precharge. `rfc`: AUTO REFRESH to the next command. -/
structure Timing where
  rcd : Nat
  rp : Nat
  wr : Nat
  rfc : Nat
  deriving DecidableEq, Repr

inductive Command (β ρ κ : Type) where
  | nop
  | active (bank : β) (row : ρ)
  | read (bank : β) (column : κ) (autoPrecharge : Bool)
  | write (bank : β) (column : κ) (autoPrecharge : Bool)
  | prechargeAll
  | precharge (bank : β)
  | autoRefresh
  | loadMode
  deriving DecidableEq, Repr

inductive Bank (ρ : Type) where
  | unknown
  | precharged
  | active (row : ρ)
  deriving DecidableEq, Repr

/- The cycles still to wait before a READ or WRITE, before an ACTIVE or AUTO REFRESH, and
before any command. -/
structure Device (β ρ : Type) where
  banks : β → Bank ρ
  rcdWait : Nat
  rpWait : Nat
  rfcWait : Nat

namespace Device

def powerUp : Device β ρ := ⟨fun _ => .unknown,0,0,0⟩

def Precharged (d : Device β ρ) : Prop := ∀ bank, d.banks bank = .precharged

def Open (d : Device β ρ) (bank : β) : Prop := ∃ row, d.banks bank = .active row

def OthersPrecharged (d : Device β ρ) (bank : β) : Prop := ∀ other, other ≠ bank → d.banks other = .precharged

def Allows (d : Device β ρ) : Command β ρ κ → Prop
  | .nop => True
  | .active bank _ => d.rfcWait = 0 ∧ d.rpWait = 0 ∧ d.banks bank = .precharged
  | .read bank _ _ | .write bank _ _ => d.rfcWait = 0 ∧ d.rcdWait = 0 ∧ d.Open bank
  | .prechargeAll | .precharge _ | .loadMode => d.rfcWait = 0
  | .autoRefresh => d.rfcWait = 0 ∧ d.rpWait = 0 ∧ d.Precharged

instance [DecidableEq ρ] (d : Device β ρ) (bank : β) : Decidable (d.Open bank) :=
  match h : d.banks bank with
  | .active row => isTrue ⟨row,h⟩
  | .unknown | .precharged => isFalse fun ⟨_,other⟩ => by rw [h] at other; contradiction

instance [DecidableEq ρ] [∀ d : Device β ρ, Decidable d.Precharged] (d : Device β ρ) (c : Command β ρ κ) :
    Decidable (d.Allows c) := match c with
  | .nop => isTrue trivial
  | .active _ _ => inferInstanceAs (Decidable (_ = _ ∧ _ = _ ∧ _ = _))
  | .read bank _ _ | .write bank _ _ => inferInstanceAs (Decidable (_ = _ ∧ _ = _ ∧ d.Open bank))
  | .prechargeAll | .precharge _ | .loadMode => inferInstanceAs (Decidable (_ = _))
  | .autoRefresh => inferInstanceAs (Decidable (_ = _ ∧ _ = _ ∧ d.Precharged))

def close (d : Device β ρ) (bank : β) (wait : Nat) : Device β ρ :=
  {d with banks := fun other => if other = bank then .precharged else d.banks other, rpWait := wait}

def take (t : Timing) (d : Device β ρ) : Command β ρ κ → Device β ρ
  | .nop | .loadMode | .read _ _ false | .write _ _ false => d
  | .active bank row =>
    {d with banks := fun other => if other = bank then .active row else d.banks other, rcdWait := t.rcd}
  | .read bank _ true => d.close bank t.rp
  | .write bank _ true => d.close bank (t.wr + t.rp)
  | .prechargeAll => {d with banks := fun _ => .precharged, rpWait := t.rp}
  | .precharge bank => d.close bank t.rp
  | .autoRefresh => {d with rfcWait := t.rfc}

def next (t : Timing) (d : Device β ρ) (c : Command β ρ κ) : Device β ρ :=
  let d := d.take t c
  {d with rcdWait := d.rcdWait - 1, rpWait := d.rpWait - 1, rfcWait := d.rfcWait - 1}

end Device

/- The commands of one cycle after another are all allowed. -/
def Legal (t : Timing) : Device β ρ → List (Command β ρ κ) → Prop
  | _, [] => True
  | d, c :: rest => d.Allows c ∧ Legal t (d.next t c) rest

instance legalDecidable [DecidableEq ρ] [∀ d : Device β ρ, Decidable d.Precharged] (t : Timing) (d : Device β ρ)
    (cs : List (Command β ρ κ)) : Decidable (Legal t d cs) :=
  match cs with
  | [] => isTrue trivial
  | c :: rest => @instDecidableAnd _ _ _ (legalDecidable t (d.next t c) rest)

theorem legalRun {σ ι ο : Type} {m : Machine σ ι ο} {t : Timing} {command : ο → Command β ρ κ}
    {R : σ → Device β ρ → Prop} {ok : σ → ι → Prop} (allowed : ∀ s d i, R s d → d.Allows (command (m.output s i)))
    (step : ∀ s d i, R s d → ok s i → R (m.next s i) (d.next t (command (m.output s i)))) (inputs : List ι) :
    ∀ {s d}, R s d → m.Steps ok s inputs → Legal t d ((m.outputs s inputs).map command) := by
  induction inputs with
  | nil => exact fun _ _ => trivial
  | cons i rest ih =>
    intro s d start steps
    obtain ⟨here,later⟩ := stepsCons.mp steps
    exact ⟨allowed s d i start,ih (step s d i start here) later⟩

end Sdram
