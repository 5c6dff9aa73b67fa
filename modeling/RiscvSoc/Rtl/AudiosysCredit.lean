import RiscvSoc.Rtl.AudiosysPlayback

/-! The space that the sample FIFO reports is a credit: a pop adds to it, and only a write that is accepted
takes from it. -/
namespace RiscvSoc
open Mealy Machine
variable {width ptrWidth outputWidth : Nat}

namespace SyncFifo

def offered (_ : Regs width ptrWidth) (i : Inputs width) : List (BitVec width) := if i.wrValid then [i.wdata] else []

theorem creditKept {s : Regs width ptrWidth} (q : Queue s) {credit : Nat}
    (room : s.count.toNat + credit ≤ depth ptrWidth) (inputs : List (Inputs width)) :
    (machine.history offered s inputs).take credit <+: machine.history accepted s inputs := by
  induction inputs generalizing s credit with
  | nil => simp
  | cons i rest ih =>
    have count := countStep (i := i) q
    have next : machine.next s i = step s i := rfl
    rw [historyCons,historyCons,next]
    cases offers : i.wrValid with
    | false =>
      have idle : wrFire s i = false := by simp [wrFire,offers]
      rw [idle,Bool.toNat_false] at count
      have empty : offered s i = [] ∧ accepted s i = [] := by simp [offered,accepted,offers,idle]
      rw [empty.1,empty.2]
      exact ih (queueStep q) (by omega)
    | true =>
      have one : offered s i = [i.wdata] := by simp [offered,offers]
      rw [one]
      cases credit with
      | zero => exact List.nil_prefix
      | succ credit =>
        have ready : wrReady s i = true := by
          cases blocked : wrReady s i with
          | true => rfl
          | false =>
            have full := (wrReadyIff q).mp blocked
            omega
        have fires : wrFire s i = true := by simp [wrFire,offers,ready]
        rw [fires,Bool.toNat_true] at count
        have taken : accepted s i = [i.wdata] := by simp [accepted,fires]
        rw [taken]
        exact (List.prefix_append_right_inj [i.wdata]).mpr (ih (queueStep q) (by omega))

end SyncFifo

namespace Audiosys

def spaceRead (s : Regs ptrWidth outputWidth) (i : Inputs) : Bool :=
  s.memAHandshake i && Regs.wordAccess i && !i.memAWe && Regs.register i == regFifoSpace

def sampleWrites (s : Regs ptrWidth outputWidth) (i : Inputs) : List (BitVec 32) :=
  if s.writes i regFifoSample then [i.memAWdata] else []

theorem fifoComponent (s : Regs ptrWidth outputWidth) (inputs : List Inputs) {α : Type}
    (part : SyncFifo.Regs 32 ptrWidth → SyncFifo.Inputs 32 → List α) :
    SyncFifo.machine.history part s.fifo (machine.history (fun s i => [s.fifoInputs i]) s inputs) =
      machine.history (fun s i => part s.fifo (s.fifoInputs i)) s inputs :=
  (component machine SyncFifo.machine Regs.fifo Regs.fifoInputs (fun _ _ => rfl) s inputs).2 part

theorem offersWrites {s : Regs ptrWidth outputWidth} {inputs : List Inputs}
    (fifoMode : machine.Steps (fun s _ => s.audioModeReq = audioModeFifo) s inputs) :
    machine.history (fun s i => SyncFifo.offered s.fifo (s.fifoInputs i)) s inputs = machine.history sampleWrites s inputs := by
  refine historySame fun x step => ?_
  have mode : x.1.audioModeReq = audioModeFifo := fifoMode x step
  have offers : (x.1.fifoInputs x.2).wrValid = x.1.writes x.2 regFifoSample := by simp [Regs.fifoInputs,Regs.writes,mode]
  change (if (x.1.fifoInputs x.2).wrValid then [x.2.memAWdata] else []) = sampleWrites x.1 x.2
  rw [offers]
  rfl

theorem spaceRoom {s : Regs ptrWidth outputWidth} (h : Reached s) {i : Inputs} (read : spaceRead s i = true) :
    (s.next i).fifo.count.toNat + (s.next i).responseData.toNat ≤ SyncFifo.depth ptrWidth ∧
      (s.next i).responsePending = true := by
  simp only [spaceRead,Bool.and_eq_true,Bool.not_eq_true',beq_iff_eq] at read
  obtain ⟨⟨⟨accepted,word⟩,reads⟩,register⟩ := read
  have data : (s.next i).responseData = s.fifoSpaceCount.setWidth 32 := by
    simp only [Regs.next,accepted,if_true,Regs.readData,word,reads,register]
    rfl
  have unwritten : SyncFifo.wrFire s.fifo (s.fifoInputs i) = false := by
    simp [SyncFifo.wrFire,Regs.fifoInputs,reads]
  have count := SyncFifo.countStep (i := s.fifoInputs i) h.queue
  rw [unwritten,Bool.toNat_false] at count
  have bounded := h.queue.bounded
  have positive : 0 < 2 ^ (ptrWidth + 1) := Nat.two_pow_pos _
  have space : s.fifoSpaceCount.toNat = SyncFifo.depth ptrWidth - s.fifo.count.toNat := by
    rw [Regs.fifoSpaceCount,BitVec.toNat_sub_of_le (BitVec.le_def.mpr (by rwa [SyncFifo.depthCount])),SyncFifo.depthCount]
  constructor
  · rw [data,BitVec.toNat_setWidth,space]
    have low := Nat.mod_le (SyncFifo.depth ptrWidth - s.fifo.count.toNat) (2 ^ 32)
    change (SyncFifo.step s.fifo (s.fifoInputs i)).count.toNat + _ ≤ _
    omega
  · simp [Regs.next,accepted]

theorem responseStays (s : Regs ptrWidth outputWidth) (i : Inputs) (waiting : s.responsePending = true)
    (unread : i.memDReady = false) :
    (s.next i).responsePending = true ∧ (s.next i).responseData = s.responseData := by
  have busy : s.memAHandshake i = false := by simp [Regs.memAHandshake,Regs.memAReady,waiting]
  simp [Regs.next,busy,Regs.memDHandshake,waiting,unread]

/- In any state that a run from a reset reaches, a read of the space register is answered by some `n`, and as long as
the mode is FIFO the next `n` words written enter the FIFO, whatever is popped meanwhile; what has entered and is not
popped is in the FIFO, in order. -/
theorem spaceCredit (start : Regs ptrWidth outputWidth) (inputs : List Inputs) (i : Inputs) :
    let s := machine.final (reset start) inputs
    let n := (s.next i).responseData
    spaceRead s i = true →
      (∀ rest, machine.Steps (fun _ i => i.memDReady = false) (s.next i) rest →
        ∀ j, (machine.output (machine.final (s.next i) rest) j).memDValid = true ∧
          (machine.output (machine.final (s.next i) rest) j).memDRdata = n) ∧
      ∀ rest, machine.Steps (fun s _ => s.audioModeReq = audioModeFifo) (s.next i) rest →
        (machine.history sampleWrites (s.next i) rest).take n.toNat <+: machine.history written (s.next i) rest ∧
        SyncFifo.contents (s.next i).fifo ++ machine.history written (s.next i) rest =
          machine.history popped (s.next i) rest ++ SyncFifo.contents (machine.final (s.next i) rest).fifo := by
  intro s n read
  have reached : Reached s := machine.invariant (fun s i (h : Reached s) => reachedNext h i) (reachedReset start) inputs
  have after : Reached (s.next i) := reachedNext reached i
  obtain ⟨room,waiting⟩ := spaceRoom reached read
  constructor
  · intro rest unread j
    have waits (t : Regs ptrWidth outputWidth) (j : Inputs)
        (held : t.responsePending = true ∧ t.responseData = (s.next i).responseData) (unread : j.memDReady = false) :
        (t.next j).responsePending = true ∧ (t.next j).responseData = (s.next i).responseData := by
      obtain ⟨waits,same⟩ := responseStays t j held.1 unread
      exact ⟨waits,same.trans held.2⟩
    exact stepsInvariant waits ⟨waiting,rfl⟩ unread
  · intro rest fifoMode
    constructor
    · have credit := SyncFifo.creditKept after.queue room (machine.history (fun s i => [s.fifoInputs i]) (s.next i) rest)
      rw [fifoComponent,fifoComponent,offersWrites fifoMode] at credit
      exact credit
    · have step (s : Regs ptrWidth outputWidth) (i : Inputs) (h : Reached s) : Reached (machine.next s i) ∧
          SyncFifo.contents s.fifo ++ written s i = popped s i ++ SyncFifo.contents (machine.next s i).fifo :=
        ⟨reachedNext h i,SyncFifo.contentsStep h.queue⟩
      exact (@conserved _ _ _ machine _ _ (fun s => SyncFifo.contents s.fifo) _ _ step _ after rest).2

/- An empty FIFO of two words. -/
theorem spaceCreditTwo :
    let inputs : List Inputs := write regMode 2 ++ List.replicate 70 idle
    let s : Regs 1 16 := machine.final (reset default) inputs
    let read : Inputs := {idle with memAValid := true, memAAddr := 0x0C}
    (s.next read).responseData = 2 ∧
      [0x00010002,0x00030004] <+: machine.history written (s.next read)
        (idle :: (write regFifoSample 0x00010002 ++ write regFifoSample 0x00030004 ++ write regFifoSample 0x00050006)) := by
  intro inputs s read
  have two : (s.next read).responseData = 2 := by decide +kernel
  have reads : spaceRead s read = true := by decide +kernel
  have credit := ((spaceCredit default inputs read reads).2
    (idle :: (write regFifoSample 0x00010002 ++ write regFifoSample 0x00030004 ++ write regFifoSample 0x00050006))
    (by decide +kernel)).1
  have sampled : (machine.history sampleWrites (s.next read)
      (idle :: (write regFifoSample 0x00010002 ++ write regFifoSample 0x00030004 ++
        write regFifoSample 0x00050006))).take (s.next read).responseData.toNat = [0x00010002,0x00030004] := by
    decide +kernel
  exact ⟨two,sampled ▸ credit⟩

end Audiosys
end RiscvSoc
