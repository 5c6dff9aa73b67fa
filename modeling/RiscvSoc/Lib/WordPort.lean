import Mathlib.Logic.Function.Basic

/-! A port to a memory of words: a strobe of one cycle, then a busy line that rises and falls again. What one who watches
that line may rely on. -/
namespace WordPort
variable {w : Nat}

abbrev Words (w : Nat) := BitVec w → BitVec 32

structure Access (w : Nat) where
  write : Bool
  addr : BitVec w
  data : BitVec 32
  deriving DecidableEq, Repr

def Access.apply (x : Access w) (words : Words w) : Words w :=
  if x.write then Function.update words x.addr x.data else words

structure Wires (w : Nat) where
  wordRd : Bool
  wordWr : Bool
  wordAddr : BitVec w
  wordData : BitVec 32
  deriving DecidableEq, Repr

def Wires.strobe (x : Wires w) : Option (Access w) :=
  if x.wordRd || x.wordWr then some ⟨x.wordWr,x.wordAddr,x.wordData⟩ else none

structure Controller (w : Nat) (σ ι : Type) where
  wordBusy : σ → Bool
  wordQ : σ → BitVec 32
  next : σ → Wires w → ι → σ

/- `ok` is asked of every cycle, with whether the next one has a strobe. `Serves` is an access under way, with its strobe as
long as that is on the wires, and whether the busy line has been high. -/
structure Contract {σ ι : Type} (m : Controller w σ ι) (ok : σ → Wires w → Bool → ι → Prop) where
  Rests : Words w → σ → Prop
  Serves : Words w → Access w → Option (Access w) → Bool → σ → Prop
  rests : ∀ {words s x i}, Rests words s → x.strobe = none → ok s x false i → Rests words (m.next s x i)
  issues : ∀ {words s x i} (a : Access w), Rests words s → m.wordBusy s = false → x.strobe = none → ok s x true i →
    Serves words a (some a) false (m.next s x i)
  serves : ∀ {words a s x i seen}, Serves words a x.strobe seen s → (seen = true → m.wordBusy s = true) → ok s x false i →
    Serves words a none (seen || m.wordBusy s) (m.next s x i)
  done : ∀ {words a strobe s}, Serves words a strobe true s → m.wordBusy s = false →
    strobe = none ∧ Rests (a.apply words) s ∧ (a.write = false → m.wordQ s = words a.addr)

end WordPort
