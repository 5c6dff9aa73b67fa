import RiscvSoc.Devices.SystemContext
import RiscvSoc.Lib.Mealy

/-! The DMA controller of the bus: a byte a clock cycle, from registers latched at the dispatch. -/
namespace RiscvSoc.Devices
open LittleEndian (Byte)
open ByteMemory (Memory)
open Host (Word)
open Mealy Machine

structure ActiveTransfer where
  bytesRemaining : Word
  currentSrc : Word
  currentDst : Word
  deriving DecidableEq, Repr

structure Dma where
  srcAddr : Word
  dstAddr : Word
  size : Word
  activeTransfer : Option ActiveTransfer
  deriving DecidableEq, Repr

namespace Dma

def isBusy (d : Dma) : Bool := d.activeTransfer.isSome

def startTransfer (d : Dma) : Dma :=
  if d.isBusy then d
  else if d.size = 0 then d
  else {d with activeTransfer := some ⟨d.size,d.srcAddr,d.dstAddr⟩}

def readWord (d : Dma) (offset : Word) : Except BusDeviceError Word :=
  if offset = 0x00 then .ok d.srcAddr
  else if offset = 0x04 then .ok d.dstAddr
  else if offset = 0x08 then .ok d.size
  else if offset = 0x0C then .ok (if d.isBusy then 1 else 0)
  else if offset = 0x10 then .error (.readFromWriteOnly offset)
  else .error (.invalidAddress offset)

def writeWord (d : Dma) (offset value : Word) : Except BusDeviceError Unit × Dma :=
  if offset = 0x00 then (.ok (),{d with srcAddr := value})
  else if offset = 0x04 then (.ok (),{d with dstAddr := value})
  else if offset = 0x08 then (.ok (),{d with size := value})
  else if offset = 0x0C then (.error (.writeToReadOnly offset),d)
  else if offset = 0x10 then (.ok (),d.startTransfer)
  else (.error (.invalidAddress offset),d)

/- The controller with the memory behind its context. -/
structure State where
  dma : Dma
  memory : Memory 32

namespace State

def transferOneByte (s : State) : State :=
  match s.dma.activeTransfer with
  | none => s
  | some t =>
    let byte := SystemContext.readByte s.memory t.currentSrc
    let left := t.bytesRemaining - 1
    { dma := {s.dma with
        activeTransfer := if left = 0 then none else some ⟨left,t.currentSrc + 1,t.currentDst + 1⟩}
      memory := SystemContext.writeByte s.memory t.currentDst byte }

end State

inductive Op where
  | read (offset : Word)
  | write (offset value : Word)
  | clockCycle
  deriving DecidableEq, Repr

inductive Outcome where
  | read (result : Except BusDeviceError Word)
  | written (result : Except BusDeviceError Unit)
  | cycled

def machine : Machine State Op Outcome where
  output s
    | .read offset => .read (s.dma.readWord offset)
    | .write offset value => .written (s.dma.writeWord offset value).1
    | .clockCycle => .cycled
  next s
    | .read _ => s
    | .write offset value => {s with dma := (s.dma.writeWord offset value).2}
    | .clockCycle => s.transferOneByte

def cycles (ops : List Op) : Nat := ops.count .clockCycle

/- What the copy comes to: the first `n` bytes, one by one from the low end, those outside the DRAM
read as 0 and not written. -/
def copied (memory : Memory 32) (src dst : Word) : Nat → Memory 32
  | 0 => memory
  | n+1 =>
    let before := copied memory src dst n
    let target := dst + BitVec.ofNat 32 n
    fun a => if a = target ∧ InDram target then visible before (src + BitVec.ofNat 32 n) else before a

structure Copying (memory : Memory 32) (src dst size : Word) (k : Nat) (s : State) : Prop where
  memory : s.memory = copied memory src dst k
  active : k < size.toNat → s.dma.activeTransfer =
    some ⟨size - BitVec.ofNat 32 k,src + BitVec.ofNat 32 k,dst + BitVec.ofNat 32 k⟩

theorem statusRead (d : Dma) : d.readWord 0x0C = .ok (if d.isBusy then 1 else 0) := rfl

theorem startIdle {d : Dma} (idle : d.isBusy = false) (nonzero : d.size ≠ 0) :
    d.startTransfer = {d with activeTransfer := some ⟨d.size,d.srcAddr,d.dstAddr⟩} := by
  rw [startTransfer,idle,if_neg Bool.false_ne_true,if_neg nonzero]

variable {memory : Memory 32} {src dst size : Word} {s : State}

theorem copiedStep (memory : Memory 32) (src dst : Word) (n : Nat) :
    SystemContext.writeByte (copied memory src dst n) (dst + BitVec.ofNat 32 n)
      (SystemContext.readByte (copied memory src dst n) (src + BitVec.ofNat 32 n)) = copied memory src dst (n + 1) := by
  have valid : isValidDramRange (dst + BitVec.ofNat 32 n) 1 = true ↔ InDram (dst + BitVec.ofNat 32 n) := by
    simpa using validAligned (k := 0) (.inl rfl) (Nat.mod_one _) (by decide)
  funext a
  simp only [copied,SystemContext.writeByte,byteVisible]
  by_cases inside : InDram (dst + BitVec.ofNat 32 n)
  · rw [if_pos (valid.mpr inside)]
    simp only [Memory.writeByte,inside,and_true]
  · rw [if_neg (mt valid.mp inside)]
    simp only [inside,and_false,if_false]

theorem leftStep (size : Word) (k : Nat) : size - BitVec.ofNat 32 k - 1 = size - BitVec.ofNat 32 (k + 1) := by
  rw [BitVec.ofNat_add,sub_sub]
  rfl

theorem copyingCycle {k : Nat} (h : Copying memory src dst size k s) (more : k < size.toNat) :
    Copying memory src dst size (k + 1) s.transferOneByte ∧
      (s.transferOneByte.dma.activeTransfer = none ↔ k + 1 = size.toNat) := by
  have bound := size.isLt
  have active := h.active more
  have left : (size - BitVec.ofNat 32 (k + 1)).toNat = size.toNat - (k + 1) := by
    rw [BitVec.toNat_sub,BitVec.toNat_ofNat]
    omega
  have last : size - BitVec.ofNat 32 (k + 1) = 0 ↔ k + 1 = size.toNat := by
    rw [← BitVec.toNat_inj,left]
    change _ = 0 ↔ _
    omega
  simp only [State.transferOneByte,active,leftStep]
  refine ⟨⟨?_,fun again => ?_⟩,?_⟩
  · rw [h.memory]
    exact copiedStep memory src dst k
  · rw [if_neg fun absent => absurd (last.mp absent) (by omega)]
    rw [BitVec.add_assoc,BitVec.add_assoc,BitVec.ofNat_add]
    rfl
  · rw [← last]
    split
    · rename_i absent
      exact ⟨fun _ => absent,fun _ => rfl⟩
    · rename_i more
      exact ⟨fun absent => absurd absent (Option.some_ne_none _),fun absent => absurd absent more⟩

theorem copyingOther {k : Nat} (h : Copying memory src dst size k s) {op : Op} (other : op ≠ .clockCycle) :
    Copying memory src dst size k (machine.next s op) := by
  cases op with
  | clockCycle => exact absurd rfl other
  | read offset => exact h
  | write offset value =>
    refine ⟨h.memory,fun more => ?_⟩
    have active := h.active more
    have busy : s.dma.isBusy = true := by rw [isBusy,active]; rfl
    simp only [machine,writeWord,startTransfer,busy,if_true]
    split_ifs <;> exact active

theorem copyingRun {k : Nat} (h : Copying memory src dst size k s) {ops : List Op} (fits : k + cycles ops ≤ size.toNat) :
    Copying memory src dst size (k + cycles ops) (machine.final s ops) := by
  induction ops generalizing k s with
  | nil => exact h
  | cons op rest ih =>
    by_cases clock : op = .clockCycle
    · subst clock
      have count : cycles (.clockCycle :: rest) = cycles rest + 1 := List.count_cons_self
      rw [count] at fits ⊢
      have next := ih (copyingCycle h (by omega)).1 (by omega)
      rwa [Nat.add_right_comm] at next
    · have count : cycles (op :: rest) = cycles rest := List.count_cons_of_ne clock
      rw [count] at fits ⊢
      exact ih (copyingOther h clock) fits

/- A dispatch of nothing is ignored. Any other makes the controller busy for `size` cycles, whatever is
written to the registers meanwhile, and leaves the bytes copied one by one. -/
theorem dmaTransfers (s : State) (idle : s.dma.isBusy = false) (value : Word) :
    let started := machine.next s (.write 0x10 value)
    (s.dma.size = 0 → started = s) ∧
    (s.dma.size ≠ 0 → ∀ ops : List Op,
      (cycles ops < s.dma.size.toNat → (machine.final started ops).dma.readWord 0x0C = .ok 1) ∧
      (cycles ops + 1 = s.dma.size.toNat → (machine.final started (ops ++ [.clockCycle])).dma.readWord 0x0C = .ok 0) ∧
      (cycles ops ≤ s.dma.size.toNat →
        (machine.final started ops).memory = copied s.memory s.dma.srcAddr s.dma.dstAddr (cycles ops))) := by
  intro started
  constructor
  · intro absent
    simp [started,machine,writeWord,startTransfer,absent]
  · intro present ops
    have begun : Copying s.memory s.dma.srcAddr s.dma.dstAddr s.dma.size 0 started := by
      refine ⟨rfl,fun _ => ?_⟩
      have latched : started.dma = s.dma.startTransfer := rfl
      rw [latched,startIdle idle present]
      simp
    have run (fits : cycles ops ≤ s.dma.size.toNat) :
        Copying s.memory s.dma.srcAddr s.dma.dstAddr s.dma.size (cycles ops) (machine.final started ops) := by
      have later := copyingRun begun (show 0 + cycles ops ≤ s.dma.size.toNat from by omega)
      rwa [Nat.zero_add] at later
    refine ⟨fun more => ?_,fun last => ?_,fun fits => (run fits).memory⟩
    · have active := (run (by omega)).active more
      rw [statusRead,isBusy,active]
      rfl
    · have ended := (copyingCycle (run (by omega)) (by omega)).2.mpr last
      rw [finalAppend,statusRead,isBusy]
      change Except.ok (if (machine.final started ops).transferOneByte.dma.activeTransfer.isSome then (1 : Word) else 0) = _
      rw [ended]
      rfl

def overlapping : State := ⟨⟨0x80000000,0x80000001,2,none⟩,fun addr => if addr = 0x80000000 then 7 else 0⟩

/- The second byte is read after it has been written; `SIZE` is changed in between. -/
theorem overlappingCopied : (machine.final (machine.next overlapping (.write 0x10 0))
    [.clockCycle,.write 0x08 9,.clockCycle]).memory 0x80000002 = 7 := by
  have copy := ((dmaTransfers overlapping rfl 0).2 (by decide) [.clockCycle,.write 0x08 9,.clockCycle]).2.2 (by decide)
  rw [copy]
  decide

end Dma
end RiscvSoc.Devices
