import Mathlib.Data.List.Basic
import RiscvSoc.Lib.Timeline
import RiscvSoc.Rtl.UartFrame

/-! A transmitter's output on a receiver's input. The two run on accumulators of their own, at any phases; a receiver sees
what the transmitter drives four cycles later, and four cycles later the two are within a few ticks of each other. -/
namespace RiscvSoc.Uart
open Mealy ClockCrossing

/- The module whose `tx_out` is used and the one whose `rx_in` it drives. -/
structure Link where
  a : State
  b : State
  deriving DecidableEq, Repr

structure LinkInputs where
  a : Inputs
  b : Inputs
  deriving DecidableEq, Repr

def wired (s : Link) (i : LinkInputs) : Inputs := {i.b with rxIn := s.a.tx.out}

def link (p : Params) : Machine Link LinkInputs Unit where
  output _ _ := ()
  next s i := ⟨s.a.next p i.a,s.b.next p (wired s i)⟩

/- The bytes that the transmitter has taken, those that the receiver has latched, and those that its consumer has taken. -/
def accepts (s : Link) (i : LinkInputs) : List (BitVec 8) := s.a.tx.accepted s.a.acc.tick i.a.txValid i.a.txData
def latches (s : Link) (i : LinkInputs) : List (BitVec 8) := s.b.rx.latched s.b.acc.tick i.b.rxReady
def takes (s : Link) (i : LinkInputs) : List (BitVec 8) := s.b.rx.taken i.b.rxReady

/- A byte that completes finds the output free or being taken. -/
def InTime (s : Link) (i : LinkInputs) : Prop :=
  s.b.rx.completes s.b.acc.tick = true → s.b.rx.valid = true → i.b.rxReady = true

/- Both modules out of reset, the line and the receiver's output at rest; the accumulators are at any phase. -/
structure Rest (s : Link) : Prop where
  sender : s.a.tx.state = .idle
  high : s.a.tx.out = true
  receiver : s.b.rx.state = .idle
  sync : s.b.rx.sync = [true,true,true]
  prev : s.b.rx.syncPrev = true
  free : s.b.rx.valid = false
  clean : s.b.rx.error = false

theorem Params.incrementFits (p : Params) : p.increment < 2 ^ 32 :=
  phaseIncrementFits (by decide) (Nat.lt_trans p.int (by decide)) (Nat.lt_trans p.int (by decide)) p.tickSlower

theorem Params.incrementPositive (p : Params) : 0 < p.increment := Nat.pos_of_ne_zero p.resolved

/- Cycles enough for a frame of 160 ticks, and with the delay of the line. -/
def Params.frameCycles (p : Params) : Nat := 162 * 2 ^ 32 / p.increment + 1

def Params.latency (p : Params) : Nat := p.frameCycles + 4

theorem Params.framePasses (p : Params) : 162 * 2 ^ 32 < p.frameCycles * p.increment := by
  unfold frameCycles
  rw [Nat.mul_comm _ p.increment]
  exact Nat.lt_mul_div_succ _ p.incrementPositive

/- The transmitter and, four cycles later, the receiver: `pending` is the byte between them, and `level` grows with
every cycle until the byte completes. -/
inductive Joint (a b : State) : List (BitVec 8) → Nat → Prop
  | waiting (sender : a.tx.state = .idle) (receiver : b.rx.state = .idle) (prev : b.rx.syncPrev = true) : Joint a b [] 0
  | starting {byte} (sending : a.tx.Sending byte 0) (receiver : b.rx.state = .idle) (prev : b.rx.syncPrev = true) :
      Joint a b [byte] 0
  | receiving {byte n k} (sending : a.tx.Sending byte n) (receiving : b.rx.Receiving byte k)
      (close : k * 2 ^ 32 + b.acc.phase < n * 2 ^ 32 + a.acc.phase + 2 ^ 32)
      (near : n * 2 ^ 32 + a.acc.phase < k * 2 ^ 32 + b.acc.phase + 2 * 2 ^ 32) :
      Joint a b [byte] (k * 2 ^ 32 + b.acc.phase)
  | stopping {byte n} (sending : a.tx.Sending byte n) (late : 144 ≤ n) (receiver : b.rx.state = .idle)
      (prev : b.rx.syncPrev = true) : Joint a b [] 0

section step
variable {a b : State} {p : Params} {i j : Inputs}

theorem phaseStep (s : Accumulator) (p : Params) :
    s.tick.toNat * 2 ^ 32 + (s.next p.increment false).phase = s.phase + p.increment := by
  rw [s.phaseNext p.incrementFits]
  unfold PhaseAccumulator.phase
  omega

theorem restingReceiver (receiver : b.rx.state = .idle) (high : b.rx.line = true) (reset : j.rst = false) :
    (b.next p j).rx.state = .idle ∧ (b.next p j).rx.syncPrev = true ∧ b.rx.completes b.acc.tick = false := by
  unfold State.next
  rw [reset]
  refine ⟨Rx.idleRests receiver high,?_,?_⟩
  · rw [(Rx.nextSync b.rx b.acc.tick j.rxIn j.rxReady j.rxErrorClr).2,high]
  · unfold Rx.completes
    rw [receiver]
    rfl

theorem nothingLatched (quiet : b.rx.completes b.acc.tick = false) :
    b.rx.latched b.acc.tick j.rxReady = [] ∧ b.rx.errorSet b.acc.tick j.rxReady = false := by
  unfold Rx.latched Rx.errorSet
  rw [quiet]
  exact ⟨rfl,rfl⟩

/- What one cycle makes of the pair: the bytes are conserved, no error is set, and the byte between them completes or
comes nearer. -/
structure Stepped (p : Params) (a b : State) (i j : Inputs) (pending : List (BitVec 8)) (level : Nat) : Prop where
  joint : ∃ pending' level', Joint (a.next p i) (b.next p j) pending' level' ∧
    pending ++ a.tx.accepted a.acc.tick i.txValid i.txData = b.rx.latched b.acc.tick j.rxReady ++ pending' ∧
    (pending ≠ [] → b.rx.latched b.acc.tick j.rxReady = pending ∨
      pending' = pending ∧ a.tx.accepted a.acc.tick i.txValid i.txData = [] ∧ b.rx.latched b.acc.tick j.rxReady = [] ∧
        level + p.increment ≤ level')
  clean : b.rx.errorSet b.acc.tick j.rxReady = false

theorem txNext (p : Params) (rstA : i.rst = false) : (a.next p i).tx = a.tx.next a.acc.tick false i.txValid i.txData := by
  unfold State.next
  rw [rstA]

theorem freeStep (free : a.tx.Free a.acc.tick i.txValid i.txData) (receiver : b.rx.state = .idle)
    (high : b.rx.line = true) (rstA : i.rst = false) (rstB : j.rst = false) : Stepped p a b i j [] 0 := by
  obtain ⟨receiver',prev',quiet⟩ := restingReceiver (p := p) (j := j) receiver high rstB
  obtain ⟨nothing,clean⟩ := nothingLatched (j := j) quiet
  have sender := txNext (a := a) p rstA
  refine ⟨?_,clean⟩
  rw [nothing]
  cases v : i.txValid with
  | true =>
    obtain ⟨sending,taken⟩ := free.begins v
    rw [← sender] at sending
    rw [v] at taken
    exact ⟨[i.txData],0,.starting sending receiver' prev',by rw [taken],by simp⟩
  | false =>
    obtain ⟨idle,taken⟩ := free.rests v
    rw [← sender] at idle
    rw [v] at taken
    exact ⟨[],0,.waiting idle receiver' prev',by rw [taken],by simp⟩

theorem waitingStep (sender : a.tx.state = .idle) (receiver : b.rx.state = .idle) (sees : b.rx.line = a.tx.drive)
    (rstA : i.rst = false) (rstB : j.rst = false) : Stepped p a b i j [] 0 := by
  have high : b.rx.line = true := by
    rw [sees]
    unfold Tx.drive
    rw [sender]
  exact freeStep (Tx.idleFree sender) receiver high rstA rstB

theorem ticksAdd {modulus n t x y increment : Nat} (phase : t * modulus + y = x + increment) :
    (n + t) * modulus + y = n * modulus + x + increment := by
  rw [Nat.add_mul]
  omega

theorem senderStep {byte : BitVec 8} {n : Nat} (sending : a.tx.Sending byte n) (going : n + a.acc.tick.toNat < 160)
    (rstA : i.rst = false) : (a.next p i).tx.Sending byte (n + a.acc.tick.toNat) ∧
      a.tx.accepted a.acc.tick i.txValid i.txData = [] ∧
      (n + a.acc.tick.toNat) * 2 ^ 32 + (a.next p i).acc.phase = n * 2 ^ 32 + a.acc.phase + p.increment := by
  refine ⟨?_,Tx.sendingRefuses sending going,?_⟩
  · rw [txNext p rstA]
    exact Tx.sendingNext sending going
  · unfold State.next
    rw [rstA]
    exact ticksAdd (phaseStep a.acc p)

theorem startingStep {byte : BitVec 8} (sending : a.tx.Sending byte 0) (receiver : b.rx.state = .idle)
    (prev : b.rx.syncPrev = true) (sees : b.rx.line = a.tx.drive) (rstA : i.rst = false) (rstB : j.rst = false) :
    Stepped p a b i j [byte] 0 := by
  have low : b.rx.line = false := by
    rw [sees,Tx.sendingDrive sending]
    rfl
  have quiet : b.rx.completes b.acc.tick = false := by
    unfold Rx.completes
    rw [receiver]
    rfl
  obtain ⟨nothing,clean⟩ := nothingLatched (j := j) quiet
  have going : 0 + a.acc.tick.toNat < 160 := by cases a.acc.tick <;> decide
  obtain ⟨sending',absent,sent⟩ := senderStep (p := p) sending going rstA
  have receiving : (b.next p j).rx.Receiving byte 0 := by
    unfold State.next
    rw [rstB]
    exact Rx.idleFalls byte receiver prev low
  have phaseB : (b.next p j).acc.phase = b.acc.phaseAcc.toNat + p.increment := by
    unfold State.next
    rw [rstB]
    exact b.acc.phaseNext p.incrementFits
  have boundA := a.acc.phaseBound
  have boundB := b.acc.phaseAcc.isLt
  refine ⟨⟨[byte],_,.receiving sending' receiving (by omega) (by omega),?_,?_⟩,clean⟩
  · rw [nothing,absent]
    rfl
  · intro _
    exact .inr ⟨rfl,absent,nothing,by omega⟩

theorem withinTicks {n k : Nat} (close : k * 2 ^ 32 + b.acc.phase < n * 2 ^ 32 + a.acc.phase + 2 ^ 32)
    (near : n * 2 ^ 32 + a.acc.phase < k * 2 ^ 32 + b.acc.phase + 2 * 2 ^ 32) :
    n ≤ k + 3 ∧ (b.acc.tick = true → k ≤ n + 1) := by
  have boundA := a.acc.phaseBound
  have boundB := b.acc.phaseBound
  refine ⟨by omega,?_⟩
  intro tick
  have whole : 2 ^ 32 ≤ b.acc.phase := by
    unfold PhaseAccumulator.phase
    rw [tick]
    simp
  omega

theorem receivingStep {byte : BitVec 8} {n k : Nat} (sending : a.tx.Sending byte n) (receiving : b.rx.Receiving byte k)
    (close : k * 2 ^ 32 + b.acc.phase < n * 2 ^ 32 + a.acc.phase + 2 ^ 32)
    (near : n * 2 ^ 32 + a.acc.phase < k * 2 ^ 32 + b.acc.phase + 2 * 2 ^ 32) (sees : b.rx.line = a.tx.drive)
    (rstA : i.rst = false) (rstB : j.rst = false)
    (free : b.rx.completes b.acc.tick = true → b.rx.valid = true → j.rxReady = true) :
    Stepped p a b i j [byte] (k * 2 ^ 32 + b.acc.phase) := by
  obtain ⟨ahead,behind⟩ := withinTicks close near
  have insideK := receiving.inside
  have one : a.acc.tick.toNat ≤ 1 := by cases a.acc.tick <;> decide
  obtain ⟨sending',absent,sent⟩ := senderStep (p := p) sending (by omega) rstA
  have bit : b.rx.line = frameBit byte (n / 16) := by rw [sees,Tx.sendingDrive sending]
  have accB : (b.next p j).acc = b.acc.next p.increment false := by
    unfold State.next
    rw [rstB]
  by_cases going : k + b.acc.tick.toNat < 152
  · have receiving' : (b.next p j).rx.Receiving byte (k + b.acc.tick.toNat) := by
      unfold State.next
      rw [rstB]
      cases tick : b.acc.tick with
      | false => exact Rx.receivingStays receiving
      | true =>
        rw [tick] at going
        refine Rx.receivingTick receiving going ?_
        intro low high
        have ticks := behind tick
        rw [bit]
        congr 1
        omega
    obtain ⟨nothing,clean⟩ := nothingLatched (j := j) (Rx.receivingQuiet receiving going)
    have level : (k + b.acc.tick.toNat) * 2 ^ 32 + (b.next p j).acc.phase = k * 2 ^ 32 + b.acc.phase + p.increment := by
      rw [accB]
      exact ticksAdd (phaseStep b.acc p)
    refine ⟨⟨[byte],_,.receiving sending' receiving' ?_ ?_,?_,?_⟩,clean⟩
    · rw [level,sent,Nat.add_right_comm _ p.increment]
      exact Nat.add_lt_add_right close p.increment
    · rw [level,sent,Nat.add_right_comm _ p.increment]
      exact Nat.add_lt_add_right near p.increment
    · rw [nothing,absent]
      rfl
    · intro _
      exact .inr ⟨rfl,absent,nothing,Nat.le_of_eq level.symm⟩
  · have tick : b.acc.tick = true := by
      cases h : b.acc.tick with
      | false =>
        rw [h] at going
        simp at going
        omega
      | true => rfl
    have last : k = 151 := by
      rw [tick] at going
      simp at going
      omega
    subst last
    have ticks := behind tick
    have high : b.rx.line = true := by
      rw [bit,show n / 16 = 9 by omega]
      rfl
    obtain ⟨receiver',completes,vote,all⟩ := @Rx.receivingDone b.rx byte j.rxIn j.rxReady j.rxErrorClr receiving high
    rw [tick] at free
    have room : (b.rx.valid && !j.rxReady) = false := by
      cases v : b.rx.valid with
      | false => rfl
      | true => rw [free completes v]; rfl
    have latched : b.rx.latched b.acc.tick j.rxReady = [byte] := by
      unfold Rx.latched
      rw [tick,completes,vote,room,all]
      rfl
    have clean : b.rx.errorSet b.acc.tick j.rxReady = false := by
      unfold Rx.errorSet
      rw [tick,completes,vote,room]
      rfl
    have idle : (b.next p j).rx.state = .idle := by
      unfold State.next
      rw [rstB,tick]
      exact receiver'
    have prev : (b.next p j).rx.syncPrev = true := by
      unfold State.next
      rw [rstB]
      exact (Rx.nextSync b.rx b.acc.tick j.rxIn j.rxReady j.rxErrorClr).2.trans high
    refine ⟨⟨[],0,.stopping sending' (by omega) idle prev,?_,?_⟩,clean⟩
    · rw [latched,absent]
    · intro _
      exact .inl latched

theorem frameEnds {byte : BitVec 8} {n : Nat} (sending : a.tx.Sending byte n) (full : ¬ n + a.acc.tick.toNat < 160) :
    a.acc.tick = true ∧ n = 159 := by
  have inside := sending.inside
  cases tick : a.acc.tick with
  | false =>
    rw [tick] at full
    exact absurd inside full
  | true =>
    rw [tick,Bool.toNat_true] at full
    exact ⟨rfl,by omega⟩

theorem stoppingStep {byte : BitVec 8} {n : Nat} (sending : a.tx.Sending byte n) (late : 144 ≤ n)
    (receiver : b.rx.state = .idle) (sees : b.rx.line = a.tx.drive) (rstA : i.rst = false) (rstB : j.rst = false) :
    Stepped p a b i j [] 0 := by
  have inside := sending.inside
  have high : b.rx.line = true := by
    rw [sees,Tx.sendingDrive sending,show n / 16 = 9 by omega]
    rfl
  by_cases going : n + a.acc.tick.toNat < 160
  · obtain ⟨receiver',prev',quiet⟩ := restingReceiver (p := p) (j := j) receiver high rstB
    obtain ⟨nothing,clean⟩ := nothingLatched (j := j) quiet
    obtain ⟨sending',absent,_⟩ := senderStep (p := p) sending going rstA
    refine ⟨?_,clean⟩
    rw [nothing]
    exact ⟨[],0,.stopping sending' (by omega) receiver' prev',by rw [absent],by simp⟩
  · obtain ⟨tick,rfl⟩ := frameEnds sending going
    refine freeStep ?_ receiver high rstA rstB
    rw [tick]
    exact Tx.doneFree sending

theorem jointStep {pending : List (BitVec 8)} {level : Nat} (joint : Joint a b pending level)
    (sees : b.rx.line = a.tx.drive) (rstA : i.rst = false) (rstB : j.rst = false)
    (free : b.rx.completes b.acc.tick = true → b.rx.valid = true → j.rxReady = true) :
    Stepped p a b i j pending level := by
  cases joint with
  | waiting sender receiver prev => exact waitingStep sender receiver sees rstA rstB
  | starting sending receiver prev => exact startingStep sending receiver prev sees rstA rstB
  | receiving sending receiving close near => exact receivingStep sending receiving close near sees rstA rstB free
  | stopping sending late receiver prev => exact stoppingStep sending late receiver sees rstA rstB

theorem jointLevel {pending : List (BitVec 8)} {level : Nat} (joint : Joint a b pending level) : level < 153 * 2 ^ 32 := by
  cases joint with
  | waiting | starting | stopping => decide
  | @receiving _ _ k sending receiving close near =>
    have inside : k ≤ 151 := Nat.le_of_lt_succ receiving.inside
    calc k * 2 ^ 32 + b.acc.phase
      _ ≤ 151 * 2 ^ 32 + b.acc.phase := Nat.add_le_add_right (Nat.mul_le_mul_right _ inside) _
      _ < 151 * 2 ^ 32 + 2 * 2 ^ 32 := Nat.add_lt_add_left b.acc.phaseBound _
      _ = 153 * 2 ^ 32 := (Nat.add_mul 151 2 (2 ^ 32)).symm

inductive Runs (a : State) : Nat → Prop
  | idle (sender : a.tx.state = .idle) : Runs a 0
  | sending {byte n} (sending : a.tx.Sending byte n) : Runs a (n * 2 ^ 32 + a.acc.phase)

theorem runsLevel {level : Nat} (runs : Runs a level) : level < 162 * 2 ^ 32 := by
  cases runs with
  | idle => decide
  | @sending _ n sending =>
    have inside : n ≤ 160 := Nat.le_of_lt sending.inside
    calc n * 2 ^ 32 + a.acc.phase
      _ ≤ 160 * 2 ^ 32 + a.acc.phase := Nat.add_le_add_right (Nat.mul_le_mul_right _ inside) _
      _ < 160 * 2 ^ 32 + 2 * 2 ^ 32 := Nat.add_lt_add_left a.acc.phaseBound _
      _ = 162 * 2 ^ 32 := (Nat.add_mul 160 2 (2 ^ 32)).symm

theorem freeRuns (free : a.tx.Free a.acc.tick i.txValid i.txData) (rstA : i.rst = false) :
    ∃ level, Runs (a.next p i) level ∧ (i.txValid = true → a.tx.accepted a.acc.tick i.txValid i.txData = [i.txData]) := by
  have sender := txNext (a := a) p rstA
  cases v : i.txValid with
  | true =>
    obtain ⟨sending,taken⟩ := free.begins v
    rw [← sender] at sending
    rw [v] at taken
    exact ⟨_,.sending sending,fun _ => taken⟩
  | false =>
    obtain ⟨idle,_⟩ := free.rests v
    rw [← sender] at idle
    exact ⟨0,.idle idle,nofun⟩

theorem runsStep {level : Nat} (runs : Runs a level) (rstA : i.rst = false) : ∃ level', Runs (a.next p i) level' ∧
    (i.txValid = true → a.tx.accepted a.acc.tick i.txValid i.txData = [i.txData] ∨ level + p.increment ≤ level') := by
  cases runs with
  | idle sender =>
    obtain ⟨level',runs',takes⟩ := freeRuns (p := p) (Tx.idleFree sender) rstA
    exact ⟨level',runs',fun valid => .inl (takes valid)⟩
  | @sending _ n sending =>
    by_cases going : n + a.acc.tick.toNat < 160
    · obtain ⟨sending',_,sent⟩ := senderStep (p := p) sending going rstA
      exact ⟨_,.sending sending',fun _ => .inr (Nat.le_of_eq sent.symm)⟩
    · obtain ⟨tick,rfl⟩ := frameEnds sending going
      obtain ⟨level',runs',takes⟩ := freeRuns (p := p) (by rw [tick]; exact Tx.doneFree sending) rstA
      exact ⟨level',runs',fun valid => .inl (takes valid)⟩

end step

theorem outNext (p : Params) (s : Link) {i : LinkInputs} (rst : i.a.rst = false) :
    ((link p).next s i).a.tx.out = s.a.tx.drive := by
  change (s.a.tx.next s.a.acc.tick i.a.rst _ _).out = _
  rw [rst]
  exact Tx.nextOut _ _ _ _

theorem receiverNext (p : Params) (s : Link) {i : LinkInputs} (rst : i.b.rst = false) :
    ((link p).next s i).b.rx = s.b.rx.next s.b.acc.tick false s.a.tx.out i.b.rxReady i.b.rxErrorClr := by
  rw [← rst]
  rfl

theorem syncNext (p : Params) (s : Link) {i : LinkInputs} (rst : i.b.rst = false) :
    ((link p).next s i).b.rx.sync = shift s.a.tx.out s.b.rx.sync := by
  rw [receiverNext p s rst]
  exact (Rx.nextSync _ _ _ _ _).1

end RiscvSoc.Uart
