import Mathlib.Logic.Function.Basic
import RiscvSoc.Lib.SdramDevice

/-! The data of a synchronous DRAM with bursts of one: what a READ finds in the open row of its bank, what a WRITE leaves
there, and read data that comes a number of cycles later. -/
namespace Sdram
variable {β ρ κ δ : Type} [DecidableEq β] [DecidableEq ρ] [DecidableEq κ]

structure Cells (β ρ κ δ : Type) where
  device : Device β ρ
  cell : β × ρ × κ → δ
  line : List (Option δ)

namespace Cells
variable (x : Cells β ρ κ δ)

def row (bank : β) : Option ρ := match x.device.banks bank with
  | .active row => some row
  | .unknown | .precharged => none

def found : Command β ρ κ → Option δ
  | .read bank column _ => (x.row bank).map fun row => x.cell (bank,row,column)
  | _ => none

def left (driven : Option δ) : Command β ρ κ → β × ρ × κ → δ
  | .write bank column _ => match x.row bank, driven with
    | some row, some data => Function.update x.cell (bank,row,column) data
    | _, _ => x.cell
  | _ => x.cell

/- What has been read, the latest first. -/
def underWay (c : Command β ρ κ) : List (Option δ) := x.found c :: x.line

def shown (latency : Nat) (c : Command β ρ κ) : Option δ := (x.underWay c)[latency]?.join

def next (t : Timing) (latency : Nat) (c : Command β ρ κ) (driven : Option δ) : Cells β ρ κ δ where
  device := x.device.next t c
  cell := x.left driven c
  line := (x.underWay c).take latency

variable {x}

theorem underWayNext {t : Timing} {latency age : Nat} {c : Command β ρ κ} {driven : Option δ} (early : age < latency)
    (c' : Command β ρ κ) : ((x.next t latency c driven).underWay c')[age + 1]? = (x.underWay c)[age]? := by
  rw [underWay,List.getElem?_cons_succ,next]
  exact List.getElem?_take_of_lt early

theorem leftQuiet {c : Command β ρ κ} (quiet : ∀ bank column auto, c ≠ .write bank column auto) (driven : Option δ) :
    x.left driven c = x.cell := by
  cases c with
  | write bank column auto => exact absurd rfl (quiet bank column auto)
  | nop | active | read | prechargeAll | precharge | autoRefresh | loadMode => rfl

omit [DecidableEq β] [DecidableEq ρ] [DecidableEq κ] in
theorem foundOpen {bank : β} {row : ρ} (opened : x.row bank = some row) (column : κ) (auto : Bool) :
    x.found (.read bank column auto) = some (x.cell (bank,row,column)) := by
  rw [found,opened]
  rfl

theorem leftOpen {bank : β} {row : ρ} (opened : x.row bank = some row) (column : κ) (auto : Bool) (data : δ) :
    x.left (some data) (.write bank column auto) = Function.update x.cell (bank,row,column) data := by
  simp only [left,opened]

theorem rowOpened (t : Timing) (latency : Nat) (bank : β) (row : ρ) (driven : Option δ) :
    (x.next t latency (.active bank row) driven).row bank = some row := by
  simp [next,Cells.row,Device.next,Device.take]

theorem rowKept {t : Timing} {latency : Nat} {c : Command β ρ κ} {driven : Option δ}
    (keeps : c = .nop ∨ (∃ bank column, c = .read bank column false) ∨ ∃ bank column, c = .write bank column false)
    (bank : β) : (x.next t latency c driven).row bank = x.row bank := by
  rcases keeps with rfl | ⟨_,_,rfl⟩ | ⟨_,_,rfl⟩ <;> rfl

end Cells
end Sdram
