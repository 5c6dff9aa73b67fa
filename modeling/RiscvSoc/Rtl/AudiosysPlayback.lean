import RiscvSoc.Rtl.Audiosys
import RiscvSoc.Rtl.SyncFifoQueue

/-! What becomes of the stereo words of the sample FIFO. A pop loads the left channel at the
frame boundary; the right one is loaded half a frame later, in the mode that is active then. -/
namespace RiscvSoc.Audiosys
open Mealy Machine I2sSerializer

variable {ptrWidth outputWidth : Nat}

def left (word : BitVec 32) : BitVec 16 := word.extractLsb' 16 16
def right (word : BitVec 32) : BitVec 16 := word.extractLsb' 0 16

def written (s : Regs ptrWidth outputWidth) (i : Inputs) : List (BitVec 32) := SyncFifo.accepted s.fifo (s.fifoInputs i)
def popped (s : Regs ptrWidth outputWidth) (i : Inputs) : List (BitVec 32) := SyncFifo.taken s.fifo (s.fifoInputs i)

/- One word on the pins, left half then right half. -/
def frame (outputWidth : Nat) (word : BitVec 32) : List Pins :=
  half false (formattedSample outputWidth (left word)) ++ half true (formattedSample outputWidth (right word))

theorem halfLength (channel : Bool) (sample : BitVec outputWidth) : (half channel sample).length = outputWidth + 1 := by
  simp [half]

theorem frameLength (word : BitVec 32) : (frame outputWidth word).length = 2 * (outputWidth + 1) := by
  rw [frame,List.length_append,halfLength,halfLength]
  omega

inductive Plays (word : BitVec 32) (s : Regs ptrWidth outputWidth) (k : Nat) : Prop where
  | onLeft (sends : Sends false (formattedSample outputWidth (left word)) k s.i2s)
      (active : s.audioModeActive = audioModeFifo) (hold : s.fifoRightHold = right word)
      (valid : s.fifoFrameValid = true)
  | onRight (j : Nat) (place : k = outputWidth + 1 + j)
      (sends : Sends true (formattedSample outputWidth (right word)) j s.i2s)

theorem playsShown {word : BitVec 32} {s : Regs ptrWidth outputWidth} {k : Nat} (h : Plays word s k) :
    (frame outputWidth word)[k]? = some s.i2s.pins := by
  cases h with
  | onLeft sends =>
    have within := sends.within
    rw [frame,List.getElem?_append_left (by rw [halfLength]; omega)]
    exact sends.pins
  | onRight j place sends =>
    rw [frame,List.getElem?_append_right (by rw [halfLength]; omega),halfLength,
      show k - (outputWidth + 1) = j from by omega]
    exact sends.pins

theorem modeStays {s : Regs ptrWidth outputWidth} (i : Inputs) (inside : s.audioFrameBoundary = false) :
    (s.next i).audioModeActive = s.audioModeActive := by
  have absent : s.modeSwitches i = false := by
    simp [Regs.modeSwitches,Regs.toneModeSwitchOk,inside]
  simp [Regs.next,absent]

theorem playsNext (positive : 0 < outputWidth) {word : BitVec 32} {s : Regs ptrWidth outputWidth} {k : Nat}
    (h : Plays word s k) (more : k + 1 < (frame outputWidth word).length) (i : Inputs) : Plays word (s.next i) (k + 1) := by
  rw [frameLength] at more
  cases h with
  | onLeft sends active hold valid =>
    have reload := sends.reloadPending
    have clock := sends.lrclk
    by_cases last : k = outputWidth
    · rw [decide_eq_true last] at reload
      have right' := loads positive reload (s.i2sInputs i)
      rw [sends.nextChannel,decide_eq_true last,Bool.false_xor] at right'
      have data : s.i2sInputs i = ⟨right word,true⟩ := by
        simp [Regs.i2sInputs,Regs.i2sSampleData,Regs.fifoLeftReload,active,clock,valid,hold,audioModeTone,audioModeFifo,
          audioModeOff]
      rw [data,if_pos rfl] at right'
      refine .onRight 0 (by omega) ?_
      rw [Regs.next,data]
      exact right'
    · rw [decide_eq_false last] at reload
      have within := sends.within
      refine .onLeft (shifts sends (by omega) (s.i2sInputs i)) ?_ ?_ ?_
      · rw [modeStays i (by simp [Regs.audioFrameBoundary,Regs.i2sSampleReady,reload])]
        exact active
      · simp [Regs.next,Regs.i2sSampleReady,reload,hold]
      · simp [Regs.next,Regs.i2sSampleReady,reload,active,valid]
  | onRight j place sends =>
    refine .onRight (j + 1) (by omega) ?_
    exact shifts sends (by omega) (s.i2sInputs i)

/- The mode changes in the very cycle in which a word is popped. -/
def Cut (s : Regs ptrWidth outputWidth) (i : Inputs) : Prop := popped s i ≠ [] ∧ s.modeSwitches i = true

instance (s : Regs ptrWidth outputWidth) (i : Inputs) : Decidable (Cut s i) := inferInstanceAs (Decidable (_ ∧ _))

theorem poppedHead {s : Regs ptrWidth outputWidth} {i : Inputs} {word : BitVec 32} (pops : popped s i = [word]) :
    s.fifo.outValid = true ∧ s.fifo.outData = word ∧ s.audioModeActive = audioModeFifo ∧ s.i2s.reloadPending = true ∧
      s.i2s.lrclk = true := by
  simp only [popped,SyncFifo.taken] at pops
  split at pops
  · rename_i fires
    simp only [SyncFifo.rdFire,Regs.fifoInputs,Regs.i2sSampleReady,Regs.fifoLeftReload,Bool.and_eq_true,beq_iff_eq] at fires
    simp only [List.cons.injEq,and_true] at pops
    exact ⟨fires.1,pops,fires.2.1.1,fires.2.1.2,fires.2.2⟩
  · contradiction

theorem playsBegin (positive : 0 < outputWidth) {s : Regs ptrWidth outputWidth} (turns : Alternates s.i2s) {i : Inputs}
    {word : BitVec 32} (pops : popped s i = [word]) (whole : ¬ Cut s i) : Plays word (s.next i) 0 := by
  obtain ⟨valid,data,active,reload,high⟩ := poppedHead pops
  have stays : s.modeSwitches i = false := by
    rcases Bool.eq_false_or_eq_true (s.modeSwitches i) with switches | stays
    · exact absurd ⟨by simp [pops],switches⟩ whole
    · exact stays
  rw [Alternates,if_pos reload] at turns
  have left' := loads positive reload (s.i2sInputs i)
  have sample : s.i2sInputs i = ⟨left word,true⟩ := by
    simp [Regs.i2sInputs,Regs.i2sSampleData,Regs.fifoLeftReload,active,high,valid,data,left,audioModeTone,audioModeFifo,
      audioModeOff]
  rw [turns high,sample,if_pos rfl] at left'
  refine .onLeft ?_ ?_ ?_ ?_
  · rw [Regs.next,sample]
    exact left'
  · simp [Regs.next,stays,active]
  · simp [Regs.next,Regs.i2sSampleReady,Regs.fifoLeftReload,active,reload,high,valid,data,right]
  · simp [Regs.next,Regs.i2sSampleReady,Regs.fifoLeftReload,active,reload,high,valid]

structure Reached (s : Regs ptrWidth outputWidth) : Prop where
  turns : Alternates s.i2s
  queue : SyncFifo.Queue s.fifo

theorem reachedReset (s : Regs ptrWidth outputWidth) : Reached (reset s) where
  turns := by simp [Alternates,reset,I2sSerializer.reset]
  queue := SyncFifo.queueReset s.fifo

theorem reachedNext {s : Regs ptrWidth outputWidth} (h : Reached s) (i : Inputs) : Reached (s.next i) where
  turns := alternatesNext h.turns (s.i2sInputs i)
  queue := SyncFifo.queueStep h.queue

theorem poppedInOrder (s : Regs ptrWidth outputWidth) (inputs : List Inputs) :
    machine.history written (reset s) inputs = machine.history popped (reset s) inputs ++
      SyncFifo.contents (machine.final (reset s) inputs).fifo := by
  have step (s : Regs ptrWidth outputWidth) (i : Inputs) (h : Reached s) : Reached (machine.next s i) ∧
      SyncFifo.contents s.fifo ++ written s i = popped s i ++ SyncFifo.contents (machine.next s i).fifo :=
    ⟨reachedNext h i,SyncFifo.contentsStep h.queue⟩
  have held : SyncFifo.contents (reset s).fifo ++ machine.history written (reset s) inputs = _ :=
    (@conserved _ _ _ machine _ _ (fun s => SyncFifo.contents s.fifo) _ _ step _ (reachedReset s) inputs).2
  have empty : SyncFifo.contents (reset s).fifo = [] := by
    simp [SyncFifo.contents,SyncFifo.staged,SyncFifo.queued,reset,SyncFifo.reset]
  rw [empty,List.nil_append] at held
  exact held

def pins (after : List (Regs ptrWidth outputWidth × Inputs)) : List Pins := after.map (·.1.i2s.pins)

/- Every word that is popped in a cycle without a change of mode is played from there on, left
half and right half in one frame, as far as the run goes. -/
theorem wordsPlayed (positive : 0 < outputWidth) (s : Regs ptrWidth outputWidth) (inputs : List Inputs) :
    machine.history popped (reset s) inputs <+: machine.history written (reset s) inputs ∧
    ∀ before x after word, machine.trace (reset s) inputs = before ++ x :: after → popped x.1 x.2 = [word] →
      ¬ Cut x.1 x.2 →
        (pins after).take (frame outputWidth word).length = (frame outputWidth word).take after.length := by
  refine ⟨⟨_,(poppedInOrder s inputs).symm⟩,?_⟩
  intro before x after word split pops whole
  obtain ⟨here,rest,later,length⟩ := traceSplit (fun s i (h : Reached s) => reachedNext h i) (reachedReset s) split
  have begun := playsBegin positive here.turns pops whole
  have played := @scripted _ _ _ machine _ (fun s => s.i2s.pins) _ _ (fun s k h => playsShown h)
    (fun s i k h more => playsNext positive h more i) _ _ begun rest
  rw [List.drop_zero,Nat.sub_zero] at played
  rw [← length,pins,later]
  exact played

def idle : Inputs := ⟨0,0,false,0b10,false,true,0,false,false⟩
def write (r : BitVec 5) (data : BitVec 32) : List Inputs :=
  [{idle with memAValid := true, memAWe := true, memAAddr := r.setWidth 32, memAWdata := data},idle]

def playOne (n : Nat) : List Inputs :=
  write regMode 2 ++ write regFifoSample 0x80018001 ++ List.replicate n idle ++ write regMode 0 ++ List.replicate 70 idle

instance : Inhabited (Regs ptrWidth outputWidth) :=
  ⟨⟨0,false,0,0,0,0,false,0,false,⟨0,0,0,false,false,false,0,⟨fun _ => 0,0,0⟩⟩,default⟩⟩

def playRun (n : Nat) : List (Regs 1 16 × Inputs) := machine.trace (reset default) (playOne n)

theorem playReaches : 68 < (playRun 80).length := by
  rw [playRun,traceLength]
  decide +kernel

theorem lateOffPlayed : (pins ((playRun 80).drop 69)).take 34 = frame 16 0x80018001 := by
  have split : playRun 80 = (playRun 80).take 68 ++ (playRun 80).get ⟨68,playReaches⟩ :: (playRun 80).drop 69 := by
    rw [List.get_eq_getElem,← List.drop_eq_getElem_cons,List.take_append_drop]
  exact (wordsPlayed (by decide) default (playOne 80)).2 _ _ _ 0x80018001 split (by decide +kernel) (by decide +kernel)

/- Off takes effect in the cycle of the pop: the right half is not played. -/
theorem earlyOffCut : (∃ x ∈ (playRun 30)[68]?, popped x.1 x.2 = [0x80018001]) ∧
    (pins ((playRun 30).drop 69)).take 34 = half false 0x8001#16 ++ half true 0#16 ∧
    half false 0x8001#16 ++ half true 0#16 ≠ frame 16 0x80018001 := by
  decide +kernel

end RiscvSoc.Audiosys
