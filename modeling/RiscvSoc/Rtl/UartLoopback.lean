import RiscvSoc.Rtl.UartLink

/-! Whole runs of the link from rest, for any stream of inputs that does not reset it. -/
namespace RiscvSoc.Uart
open Mealy ClockCrossing

/- The bytes that the transmitter has taken before a moment, and those that the receiver has given or holds for its
consumer. -/
def sent (p : Params) (s : Link) (inputs : Nat → LinkInputs) (t : Nat) : List (BitVec 8) :=
  (link p).recorded s inputs accepts t

def delivered (p : Params) (s : Link) (inputs : Nat → LinkInputs) (t : Nat) : List (BitVec 8) :=
  (link p).recorded s inputs takes t ++ ((link p).stateAt s inputs t).b.rx.held

section run
variable {p : Params} {s : Link} {inputs : Nat → LinkInputs} (rest : Rest s)
  (running : ∀ t, (inputs t).a.rst = false ∧ (inputs t).b.rst = false)
include rest running

theorem stages (t : Nat) : ((link p).stateAt s inputs t).b.rx.sync.length = 3 := by
  refine Machine.stateAlways _ s inputs (fun l => l.b.rx.sync.length = 3) (congrArg List.length rest.sync)
    (fun t held => ?_) t
  rw [Machine.stateAtSucc,syncNext p _ (running t).2,shiftLength]
  exact held

theorem syncThree (t : Nat) : ((link p).stateAt s inputs (t + 3)).b.rx.sync =
    [((link p).stateAt s inputs (t + 2)).a.tx.out,((link p).stateAt s inputs (t + 1)).a.tx.out,
      ((link p).stateAt s inputs t).a.tx.out] := by
  obtain ⟨x,y,z,held⟩ := List.length_eq_three.mp (stages (p := p) rest running t)
  rw [Machine.stateAtSucc,syncNext p _ (running (t + 2)).2,Machine.stateAtSucc,syncNext p _ (running (t + 1)).2,
    Machine.stateAtSucc,syncNext p _ (running t).2,held]
  rfl

theorem seen (t : Nat) : ((link p).stateAt s inputs (t + 4)).b.rx.line = ((link p).stateAt s inputs t).a.tx.drive := by
  unfold Rx.line
  rw [syncThree rest running (t + 1),← outNext p _ (running t).1]
  rfl

theorem restLine {t : Nat} (early : t < 4) : ((link p).stateAt s inputs t).b.rx.line = true := by
  unfold Rx.line
  match t with
  | 0 =>
    rw [Machine.stateAtZero,rest.sync]
    rfl
  | 1 =>
    rw [Machine.stateAtSucc,syncNext p _ (running 0).2,Machine.stateAtZero,rest.sync]
    rfl
  | 2 =>
    rw [Machine.stateAtSucc,syncNext p _ (running 1).2,Machine.stateAtSucc,syncNext p _ (running 0).2,
      Machine.stateAtZero,rest.sync]
    rfl
  | 3 =>
    rw [syncThree rest running 0,Machine.stateAtZero,rest.high]
    rfl

theorem resting {t : Nat} (early : t ≤ 4) : ((link p).stateAt s inputs t).b.rx.state = .idle ∧
    ((link p).stateAt s inputs t).b.rx.syncPrev = true := by
  induction t with
  | zero => exact ⟨rest.receiver,rest.prev⟩
  | succ t ih =>
    obtain ⟨receiver,_⟩ := ih (by omega)
    obtain ⟨receiver',prev',_⟩ := restingReceiver (p := p) (j := wired ((link p).stateAt s inputs t) (inputs t)) receiver
      (restLine rest running early) (running t).2
    exact ⟨receiver',prev'⟩

theorem quietEarly {t : Nat} (early : t < 4) :
    ((link p).stateAt s inputs t).b.rx.completes ((link p).stateAt s inputs t).b.acc.tick = false := by
  obtain ⟨receiver,_⟩ := resting rest running (Nat.le_of_lt early)
  exact (restingReceiver (p := p) (j := (inputs t).b) receiver (restLine rest running early) (running t).2).2.2

theorem latchedEarly {t : Nat} (early : t ≤ 4) : (link p).recorded s inputs latches t = [] := by
  induction t with
  | zero => rfl
  | succ t ih =>
    rw [Machine.recordedSucc,ih (by omega)]
    exact (nothingLatched (j := (inputs t).b) (quietEarly rest running early)).1

theorem runStep {t : Nat} {pending : List (BitVec 8)} {level : Nat}
    (joint : Joint ((link p).stateAt s inputs t).a ((link p).stateAt s inputs (t + 4)).b pending level)
    (inTime : InTime ((link p).stateAt s inputs (t + 4)) (inputs (t + 4))) :
    Stepped p ((link p).stateAt s inputs t).a ((link p).stateAt s inputs (t + 4)).b (inputs t).a
      (wired ((link p).stateAt s inputs (t + 4)) (inputs (t + 4))) pending level :=
  jointStep joint (seen rest running t) (running t).1 (running (t + 4)).2 inTime

theorem aligned {t : Nat} (inTime : ∀ u < t + 4, InTime ((link p).stateAt s inputs u) (inputs u)) :
    ∃ pending level, Joint ((link p).stateAt s inputs t).a ((link p).stateAt s inputs (t + 4)).b pending level ∧
      (link p).recorded s inputs accepts t = (link p).recorded s inputs latches (t + 4) ++ pending := by
  induction t with
  | zero =>
    obtain ⟨receiver,prev⟩ := resting rest running (Nat.le_refl 4)
    exact ⟨[],0,.waiting rest.sender receiver prev,by rw [latchedEarly rest running (Nat.le_refl 4)]; rfl⟩
  | succ t ih =>
    obtain ⟨pending,level,joint,same⟩ := ih fun u before => inTime u (by omega)
    obtain ⟨⟨pending',level',joint',kept,_⟩,_⟩ := runStep rest running joint (inTime (t + 4) (by omega))
    refine ⟨pending',level',joint',?_⟩
    change _ ++ accepts _ _ = (_ ++ latches _ _) ++ _
    rw [same,List.append_assoc,List.append_assoc]
    exact congrArg _ kept

theorem setNever {t : Nat} (inTime : ∀ u ≤ t, InTime ((link p).stateAt s inputs u) (inputs u)) :
    ((link p).stateAt s inputs t).b.rx.errorSet ((link p).stateAt s inputs t).b.acc.tick (inputs t).b.rxReady = false := by
  by_cases early : t < 4
  · exact (nothingLatched (j := (inputs t).b) (quietEarly rest running early)).2
  · obtain ⟨u,rfl⟩ : ∃ u, t = u + 4 := ⟨t - 4,by omega⟩
    obtain ⟨_,_,joint,_⟩ := aligned rest running fun v before => inTime v (Nat.le_of_lt before)
    exact (runStep rest running joint (inTime (u + 4) (Nat.le_refl _))).clean

theorem errorNever {t : Nat} (inTime : ∀ u < t, InTime ((link p).stateAt s inputs u) (inputs u)) :
    ((link p).stateAt s inputs t).b.rx.error = false := by
  induction t with
  | zero => exact rest.clean
  | succ t ih =>
    have before := ih fun u h => inTime u (Nat.lt_succ_of_lt h)
    have set := setNever rest running fun u h => inTime u (Nat.lt_succ_of_le h)
    rw [Machine.stateAtSucc,receiverNext p _ (running t).2,Rx.nextError,set,before]
    rfl

theorem outputKeeps (t : Nat) : (link p).recorded s inputs latches t =
    (link p).recorded s inputs takes t ++ ((link p).stateAt s inputs t).b.rx.held := by
  induction t with
  | zero =>
    change [] = [] ++ s.b.rx.held
    unfold Rx.held
    rw [rest.free]
    rfl
  | succ t ih =>
    rw [Machine.recordedSucc,Machine.recordedSucc,ih,Machine.stateAtSucc,receiverNext p _ (running t).2,List.append_assoc,
      List.append_assoc]
    exact congrArg _ (Rx.heldNext _ _ _ _ _)

theorem latchedPrefix {t : Nat} (inTime : ∀ u < t, InTime ((link p).stateAt s inputs u) (inputs u)) :
    (link p).recorded s inputs latches t <+: (link p).recorded s inputs accepts t := by
  by_cases early : t < 4
  · rw [latchedEarly rest running (Nat.le_of_lt early)]
    exact List.nil_prefix
  · obtain ⟨u,rfl⟩ : ∃ u, t = u + 4 := ⟨t - 4,by omega⟩
    obtain ⟨pending,_,_,same⟩ := aligned rest running inTime
    have grows := Machine.recordedGrows (link p) s inputs accepts (Nat.le_add_right u 4)
    rw [same] at grows
    exact (List.prefix_append _ pending).trans grows

theorem nearer {t d : Nat} (inTime : ∀ u < t + d + 4, InTime ((link p).stateAt s inputs u) (inputs u)) :
    (link p).recorded s inputs accepts t <+: (link p).recorded s inputs latches (t + d + 4) ∨
    ∃ pending level, Joint ((link p).stateAt s inputs (t + d)).a ((link p).stateAt s inputs (t + d + 4)).b pending level ∧
      (link p).recorded s inputs accepts t = (link p).recorded s inputs latches (t + d + 4) ++ pending ∧
      d * p.increment ≤ level := by
  induction d with
  | zero =>
    obtain ⟨pending,level,joint,same⟩ := aligned rest running inTime
    exact .inr ⟨pending,level,joint,same,by rw [Nat.zero_mul]; exact Nat.zero_le _⟩
  | succ d ih =>
    have grows := Machine.recordedGrows (link p) s inputs latches (Nat.le_succ (t + d + 4))
    have step : t + (d + 1) + 4 = t + d + 4 + 1 := by omega
    rcases ih fun u before => inTime u (by omega) with already | ⟨pending,level,joint,same,far⟩
    · rw [step]
      exact .inl (already.trans grows)
    · obtain ⟨⟨pending',level',joint',_,moves⟩,_⟩ := runStep rest running joint (inTime (t + d + 4) (by omega))
      rw [step]
      by_cases empty : pending = []
      · rw [empty,List.append_nil] at same
        exact .inl (same ▸ grows)
      · rcases moves empty with completed | ⟨rfl,_,nothing,closer⟩
        · left
          rw [same,← completed]
          exact List.prefix_refl _
        · right
          refine ⟨pending',level',joint',?_,?_⟩
          · have still : latches ((link p).stateAt s inputs (t + d + 4)) (inputs (t + d + 4)) = [] := nothing
            rw [same,Machine.recordedSucc _ _ _ _ (t + d + 4),still,List.append_nil]
          · rw [Nat.succ_mul]
            exact Nat.le_trans (Nat.add_le_add_right far _) closer

theorem arrives {t : Nat} (inTime : ∀ u < t + p.latency, InTime ((link p).stateAt s inputs u) (inputs u)) :
    (link p).recorded s inputs accepts t <+: (link p).recorded s inputs latches (t + p.latency) := by
  have span : t + p.latency = t + p.frameCycles + 4 := (Nat.add_assoc t p.frameCycles 4).symm
  rw [span] at inTime ⊢
  rcases nearer rest running inTime with already | ⟨_,_,joint,_,far⟩
  · exact already
  · have short := Nat.lt_of_lt_of_le p.framePasses (Nat.le_trans far (Nat.le_of_lt (jointLevel joint)))
    exact absurd short (Nat.not_lt_of_le (Nat.mul_le_mul_right _ (by decide)))

theorem runsAlways (t : Nat) : ∃ level, Runs ((link p).stateAt s inputs t).a level := by
  refine Machine.stateAlways _ s inputs (fun l => ∃ level, Runs l.a level) ⟨0,.idle rest.sender⟩ (fun t held => ?_) t
  obtain ⟨level,runs⟩ := held
  obtain ⟨level',runs',_⟩ := runsStep (p := p) runs (running t).1
  exact ⟨level',runs'⟩

theorem offered {t d : Nat} (valid : ∀ u, t ≤ u → u < t + d → (inputs u).a.txValid = true) :
    ((link p).recorded s inputs accepts t).length < ((link p).recorded s inputs accepts (t + d)).length ∨
    ∃ level, Runs ((link p).stateAt s inputs (t + d)).a level ∧ d * p.increment ≤ level := by
  induction d with
  | zero =>
    obtain ⟨level,runs⟩ := runsAlways (p := p) rest running t
    exact .inr ⟨level,runs,by rw [Nat.zero_mul]; exact Nat.zero_le _⟩
  | succ d ih =>
    have grows := (Machine.recordedGrows (link p) s inputs accepts (Nat.le_succ (t + d))).length_le
    rcases ih fun u after before => valid u after (by omega) with already | ⟨level,runs,far⟩
    · exact .inl (Nat.lt_of_lt_of_le already grows)
    · obtain ⟨level',runs',moves⟩ := runsStep (p := p) runs (running (t + d)).1
      rcases moves (valid (t + d) (by omega) (by omega)) with taken | closer
      · left
        have more : accepts ((link p).stateAt s inputs (t + d)) (inputs (t + d)) = [(inputs (t + d)).a.txData] := taken
        have before := (Machine.recordedGrows (link p) s inputs accepts (Nat.le_add_right t d)).length_le
        rw [← Nat.add_assoc t d 1,Machine.recordedSucc _ _ _ _ (t + d),more,List.length_append]
        exact Nat.lt_succ_of_le before
      · refine .inr ⟨level',runs',?_⟩
        rw [Nat.succ_mul]
        exact Nat.le_trans (Nat.add_le_add_right far _) closer

theorem offeredTaken {t : Nat} (valid : ∀ u, t ≤ u → u < t + p.frameCycles → (inputs u).a.txValid = true) :
    ((link p).recorded s inputs accepts t).length < ((link p).recorded s inputs accepts (t + p.frameCycles)).length := by
  rcases offered rest running valid with already | ⟨_,runs,far⟩
  · exact already
  · have short := Nat.lt_of_lt_of_le p.framePasses far
    exact absurd (runsLevel runs) (Nat.not_lt_of_lt short)

end run

/- The receiver gives the bytes of the transmitter in order and sees no error as long as its output is taken in time; each
arrives within the latency, and a byte that is offered is taken within a frame. -/
theorem loopbackDelivers (p : Params) {s : Link} {inputs : Nat → LinkInputs} (rest : Rest s)
    (running : ∀ t, (inputs t).a.rst = false ∧ (inputs t).b.rst = false) (t : Nat) :
    ((∀ u < t, InTime ((link p).stateAt s inputs u) (inputs u)) →
      ((link p).stateAt s inputs t).b.rx.error = false ∧ delivered p s inputs t <+: sent p s inputs t) ∧
    ((∀ u < t + p.latency, InTime ((link p).stateAt s inputs u) (inputs u)) →
      sent p s inputs t <+: delivered p s inputs (t + p.latency)) ∧
    ((∀ u, t ≤ u → u < t + p.frameCycles → (inputs u).a.txValid = true) →
      (sent p s inputs t).length < (sent p s inputs (t + p.frameCycles)).length) := by
  have output (u : Nat) : delivered p s inputs u = (link p).recorded s inputs latches u :=
    (outputKeeps (p := p) rest running u).symm
  refine ⟨?_,?_,?_⟩
  · intro inTime
    rw [output]
    exact ⟨errorNever rest running inTime,latchedPrefix rest running inTime⟩
  · intro inTime
    rw [output]
    exact arrives rest running inTime
  · exact offeredTaken rest running

/- The default parameters, a pair out of reset with accumulators at different phases, bytes back to back. -/
def defaultParams : Params := ⟨50000000,1000000,by decide,by decide,by decide,by decide,by decide⟩

def apart : Link := ⟨⟨⟨0,false⟩,Tx.reset,Rx.reset ⟨[true,true,true],true,false,false,.idle,0,0,0,0,false,false⟩⟩,
  ⟨⟨0x80000000,true⟩,Tx.reset,Rx.reset ⟨[true,true,true],true,false,false,.idle,0,0,0,0,false,false⟩⟩⟩

def backToBack (t : Nat) : LinkInputs :=
  ⟨⟨false,BitVec.ofNat 8 t,true,true,false,true⟩,⟨false,0,false,true,false,true⟩⟩

theorem loopbackBackToBack :
    (((link defaultParams).stateAt apart backToBack 100000).b.rx.error = false ∧
      delivered defaultParams apart backToBack 100000 <+: sent defaultParams apart backToBack 100000) ∧
    sent defaultParams apart backToBack 100000 <+:
      delivered defaultParams apart backToBack (100000 + defaultParams.latency) ∧
    (sent defaultParams apart backToBack 100000).length <
      (sent defaultParams apart backToBack (100000 + defaultParams.frameCycles)).length := by
  have delivers := @loopbackDelivers defaultParams apart backToBack ⟨rfl,rfl,rfl,rfl,rfl,rfl,rfl⟩
    (fun _ => ⟨rfl,rfl⟩) 100000
  exact ⟨delivers.1 fun _ _ _ _ => rfl,delivers.2.1 fun _ _ _ _ => rfl,delivers.2.2 fun _ _ _ => rfl⟩

end RiscvSoc.Uart
