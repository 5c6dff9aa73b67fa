import RiscvSoc.Lib.BitNumbers
import RiscvSoc.Rtl.Uart

/-! A frame of 160 ticks: where the transmitter and the receiver are after each of its ticks, and what one clock cycle
makes of it. -/
namespace RiscvSoc.Uart
open ClockCrossing

def frameBit (byte : BitVec 8) (bit : Nat) : Bool :=
  if bit = 0 then false else if bit ≤ 8 then byte.getLsbD (bit - 1) else true

def phaseAt (n : Nat) : Phase := if n < 16 then .startBit else if n < 144 then .dataBits else .stopBit

theorem phaseCases (n : Nat) : n < 16 ∧ phaseAt n = .startBit ∨ (16 ≤ n ∧ n < 144) ∧ phaseAt n = .dataBits ∨
    144 ≤ n ∧ phaseAt n = .stopBit := by
  unfold phaseAt
  by_cases start : n < 16
  · exact .inl ⟨start,if_pos start⟩
  · by_cases early : n < 144
    · exact .inr (.inl ⟨⟨by omega,early⟩,by rw [if_neg start,if_pos early]⟩)
    · exact .inr (.inr ⟨by omega,by rw [if_neg start,if_neg early]⟩)

theorem phaseStays {n : Nat} (within : n % 16 ≠ 15) : phaseAt (n + 1) = phaseAt n := by
  rcases phaseCases n with ⟨_,h⟩ | ⟨_,h⟩ | ⟨_,h⟩ <;>
    rcases phaseCases (n + 1) with ⟨_,h'⟩ | ⟨_,h'⟩ | ⟨_,h'⟩ <;>
    first | omega | rw [h,h']

theorem indexLast {b : BitVec 3} {n : Nat} (position : b.toNat + 1 = n / 16) (last : n % 16 = 15) (seven : b = 7) : n = 143 := by
  rw [seven] at position
  change 7 + 1 = n / 16 at position
  omega

theorem indexNext {b : BitVec 3} {n : Nat} (position : b.toNat + 1 = n / 16) (last : n % 16 = 15) (other : b ≠ 7) :
    (b + 1).toNat + 1 = (n + 1) / 16 ∧ phaseAt (n + 1) = .dataBits := by
  have inside := b.isLt
  have below : b.toNat ≠ 7 := fun seven => other (BitVec.eq_of_toNat_eq seven)
  have step : (b + 1).toNat = b.toNat + 1 := BitNumbers.countNext (k := 7) (by decide) (by omega)
  rcases phaseCases (n + 1) with ⟨_,_⟩ | ⟨_,h⟩ | ⟨_,_⟩
  · omega
  · exact ⟨by omega,h⟩
  · omega

theorem counterIs {c : BitVec 4} {n k : Nat} (counter : c.toNat = n % 16) (small : k < 16) :
    c = BitVec.ofNat 4 k ↔ n % 16 = k := by
  rw [← BitVec.toNat_inj,counter,BitVec.toNat_ofNat,Nat.mod_eq_of_lt small]

theorem counterNext {c : BitVec 4} {n : Nat} (counter : c.toNat = n % 16) : (c + 1).toNat = (n + 1) % 16 := by
  rw [BitVec.toNat_add,counter]
  exact (Nat.add_mod n 1 16).symm

namespace Tx

/- What the output register takes at the next edge. -/
def drive (s : Tx) : Bool :=
  match s.state with
  | .idle => true
  | .startBit => false
  | .dataBits => s.shiftReg.getLsbD 0
  | .stopBit => true

theorem nextOut (s : Tx) (tick valid : Bool) (data : BitVec 8) : (s.next tick false valid data).out = s.drive := by
  unfold next drive latch
  cases s.state <;> simp only [Bool.false_eq_true,if_false] <;> (repeat' split) <;> rfl

structure Sending (byte : BitVec 8) (n : Nat) (s : Tx) : Prop where
  inside : n < 160
  state : s.state = phaseAt n
  counter : s.tickCounter.toNat = n % 16
  index : 16 ≤ n → n < 144 → s.bitIndex.toNat + 1 = n / 16
  bits : n < 144 → s.shiftReg = byte >>> (n / 16 - 1)

variable {s : Tx} {byte data : BitVec 8} {n : Nat} {tick valid : Bool}

theorem sendingDrive (sending : Sending byte n s) : s.drive = frameBit byte (n / 16) := by
  have inside := sending.inside
  unfold drive
  rw [sending.state]
  unfold phaseAt frameBit
  by_cases start : n < 16
  · rw [if_pos start,if_pos (by omega)]
  · by_cases early : n < 144
    · rw [if_neg start,if_pos early,if_neg (by omega),if_pos (by omega)]
      simp only [sending.bits early,BitVec.getLsbD_ushiftRight,Nat.add_zero]
    · rw [if_neg start,if_neg early,if_neg (by omega),if_neg (by omega)]

theorem latchSending (s : Tx) (data : BitVec 8) : Sending data 0 (s.latch data) where
  inside := by decide
  state := rfl
  counter := rfl
  index := by omega
  bits _ := (BitVec.ushiftRight_zero _).symm

structure Free (s : Tx) (tick valid : Bool) (data : BitVec 8) : Prop where
  begins : valid = true → Sending data 0 (s.next tick false valid data) ∧ s.accepted tick valid data = [data]
  rests : valid = false → (s.next tick false valid data).state = .idle ∧ s.accepted tick valid data = []

theorem idleFree (idle : s.state = .idle) : s.Free tick valid data := by
  constructor <;> unfold next accepted ready <;> rw [idle]
  · rintro rfl
    exact ⟨latchSending _ data,rfl⟩
  · rintro rfl
    exact ⟨rfl,rfl⟩

theorem sendingBusy (sending : Sending byte n s) : s.state ≠ .idle := by
  rw [sending.state]
  rcases phaseCases n with ⟨_,h⟩ | ⟨_,h⟩ | ⟨_,h⟩ <;> rw [h] <;> decide

theorem sendingBaud (sending : Sending byte n s) : s.baudTick tick = true ↔ tick = true ∧ n % 16 = 15 := by
  unfold baudTick
  rw [Bool.and_eq_true,beq_iff_eq]
  exact and_congr_right fun _ => counterIs sending.counter (by decide)

theorem sendingRefuses (sending : Sending byte n s) (going : n + tick.toNat < 160) : s.accepted tick valid data = [] := by
  have idle : (s.state == .idle) = false := beq_false_of_ne (sendingBusy sending)
  have last : (s.state == .stopBit && s.baudTick tick) = false := by
    rw [Bool.eq_false_iff]
    intro both
    obtain ⟨stop,baud⟩ := Bool.and_eq_true_iff.mp both
    obtain ⟨rfl,full⟩ := (sendingBaud sending).mp baud
    rw [beq_iff_eq,sending.state] at stop
    simp only [Bool.toNat_true] at going
    rcases phaseCases n with ⟨_,h⟩ | ⟨_,h⟩ | ⟨late,_⟩
    · rw [h] at stop
      contradiction
    · rw [h] at stop
      contradiction
    · omega
  unfold accepted ready
  rw [idle,last]
  simp

theorem sendingStays (sending : Sending byte n s) : Sending byte n (s.next false false valid data) := by
  have busy := sendingBusy sending
  obtain ⟨inside,state,counter,index,bits⟩ := sending
  obtain ⟨st,o,sr,bi,tc⟩ := s
  cases st
  case idle => exact absurd rfl busy
  all_goals exact ⟨inside,state,counter,index,bits⟩

theorem sendingTick (sending : Sending byte n s) (going : n + 1 < 160) : Sending byte (n + 1) (s.next true false valid data) := by
  have baud : s.baudTick true = true ↔ true = true ∧ n % 16 = 15 := sendingBaud sending
  obtain ⟨inside,state,counter,index,bits⟩ := sending
  have counts := counterNext counter
  by_cases last : n % 16 = 15
  · have fires := baud.mpr ⟨rfl,last⟩
    have cleared : (0 : BitVec 4).toNat = (n + 1) % 16 := by
      rw [Nat.add_mod,last]
      rfl
    unfold next
    rw [fires,if_neg (by decide)]
    rcases phaseCases n with ⟨start,h⟩ | ⟨⟨low,high⟩,h⟩ | ⟨late,_⟩
    · have here : n = 15 := by omega
      subst here
      rw [state,h]
      exact ⟨going,rfl,cleared,fun _ _ => rfl,fun _ => bits (by decide)⟩
    · have position := index low high
      have shifted : s.shiftReg >>> 1 = byte >>> ((n + 1) / 16 - 1) := by
        have bit : (n + 1) / 16 - 1 = n / 16 - 1 + 1 := by omega
        rw [bits high,bit,BitVec.shiftRight_add]
      rw [state,h]
      by_cases final : s.bitIndex = 7
      · have here := indexLast position last final
        subst here
        simp only [final,if_true]
        exact ⟨going,rfl,cleared,by omega,by omega⟩
      · obtain ⟨position',later⟩ := indexNext position last final
        simp only [final,if_true,if_false]
        exact ⟨going,later.symm,cleared,fun _ _ => position',fun _ => shifted⟩
    · omega
  · have waits : s.baudTick true = false := by
      rw [Bool.eq_false_iff]
      exact fun fires => last (baud.mp fires).2
    have same := phaseStays last
    have index' : 16 ≤ n + 1 → n + 1 < 144 → s.bitIndex.toNat + 1 = (n + 1) / 16 := by
      intro low high
      rw [index (by omega) (by omega)]
      omega
    have bits' : n + 1 < 144 → s.shiftReg = byte >>> ((n + 1) / 16 - 1) := by
      intro high
      rw [bits (by omega)]
      congr 1
      omega
    unfold next
    rw [waits,if_neg (by decide)]
    rcases phaseCases n with ⟨_,h⟩ | ⟨_,h⟩ | ⟨_,h⟩ <;> rw [state,h] <;>
      exact ⟨going,h.symm.trans same.symm,counts,index',bits'⟩

theorem sendingNext (sending : Sending byte n s) (going : n + tick.toNat < 160) :
    Sending byte (n + tick.toNat) (s.next tick false valid data) := by
  cases tick with
  | false => exact sendingStays sending
  | true => exact sendingTick sending going

theorem doneFree (sending : Sending byte 159 s) : s.Free true valid data := by
  have fires : s.baudTick true = true := (sendingBaud sending).mpr ⟨rfl,rfl⟩
  have stop : s.state = .stopBit := sending.state
  constructor <;> unfold next accepted ready <;> rw [fires,stop]
  · rintro rfl
    exact ⟨latchSending _ data,rfl⟩
  · rintro rfl
    exact ⟨rfl,rfl⟩

end Tx
namespace Rx

def received (k : Nat) : Nat := (k - 8) / 16

/- The receiver `k` ticks after it saw the start bit of a byte: it has taken the bits whose middle it has passed, and
holds the samples of the bit it is in. -/
structure Receiving (byte : BitVec 8) (k : Nat) (s : Rx) : Prop where
  inside : k < 152
  state : s.state = phaseAt k
  counter : s.tickCounter.toNat = k % 16
  index : 16 ≤ k → k < 144 → s.bitIndex.toNat + 1 = k / 16
  bits : ∀ i < received k, s.shiftReg.getLsbD (8 - received k + i) = byte.getLsbD i
  first : 6 ≤ k % 16 → k % 16 ≤ 7 → s.vote0 = frameBit byte (k / 16)
  second : k % 16 = 7 → s.vote1 = frameBit byte (k / 16)

variable {s : Rx} {byte : BitVec 8} {k : Nat} {tick rxIn ready clr : Bool}

structure SameFrame (s t : Rx) : Prop where
  state : t.state = s.state
  counter : t.tickCounter = s.tickCounter
  index : t.bitIndex = s.bitIndex
  bits : t.shiftReg = s.shiftReg
  first : t.vote0 = s.vote0
  second : t.vote1 = s.vote1

theorem receivingSame {t : Rx} (same : SameFrame s t) (receiving : Receiving byte k s) : Receiving byte k t := by
  obtain ⟨inside,state,counter,index,bits,first,second⟩ := receiving
  obtain ⟨h1,h2,h3,h4,h5,h6⟩ := same
  exact ⟨inside,h1.trans state,by rw [h2]; exact counter,by rw [h3]; exact index,by rw [h4]; exact bits,
    by rw [h5]; exact first,by rw [h6]; exact second⟩

def stepped (s : Rx) (tick rxIn ready : Bool) : Rx :=
  s.step tick ready {s with sync := shift rxIn s.sync, syncPrev := s.line, valid := s.valid && !ready}

theorem nextFrame (s : Rx) (tick rxIn ready clr : Bool) :
    SameFrame (s.stepped tick rxIn ready) (s.next tick false rxIn ready clr) := by
  unfold next stepped
  simp only [Bool.false_eq_true,if_false]
  split <;> exact ⟨rfl,rfl,rfl,rfl,rfl,rfl⟩

theorem nextSync (s : Rx) (tick rxIn ready clr : Bool) :
    (s.next tick false rxIn ready clr).sync = shift rxIn s.sync ∧ (s.next tick false rxIn ready clr).syncPrev = s.line := by
  unfold next step sample
  cases s.state <;> simp only [Bool.false_eq_true,if_false] <;> (repeat' split) <;> exact ⟨rfl,rfl⟩

theorem receivingQuiet (receiving : Receiving byte k s) (going : k + tick.toNat < 152) : s.completes tick = false := by
  rw [Bool.eq_false_iff]
  intro completes
  unfold Rx.completes at completes
  rw [Bool.and_eq_true,Bool.and_eq_true,beq_iff_eq,beq_iff_eq,receiving.state] at completes
  obtain ⟨⟨stop,rfl⟩,full⟩ := completes
  have middle : k % 16 = 7 := (counterIs receiving.counter (by decide)).mp full
  have inside := receiving.inside
  simp only [Bool.toNat_true] at going
  rcases phaseCases k with ⟨_,h⟩ | ⟨_,h⟩ | ⟨late,_⟩
  · rw [h] at stop
    contradiction
  · rw [h] at stop
    contradiction
  · omega

theorem steppedStop (stop : s.state = .stopBit) (full : s.tickCounter = 7) :
    s.stepped true rxIn ready =
      let s' := s.sample {s with sync := shift rxIn s.sync, syncPrev := s.line, valid := s.valid && !ready}
      let s' :=
        if s.voteResult then
          if s.valid && !ready then {s' with error := true}
          else {s' with data := s.shiftReg, valid := true}
        else {s' with error := true}
      {s' with state := .idle, tickCounter := 0} := by
  unfold stepped step
  rw [stop]
  simp only [full,if_true]

theorem steppedQuiet (quiet : s.completes tick = false) : (s.stepped tick rxIn ready).error = s.error ∧
    (s.stepped tick rxIn ready).valid = (s.valid && !ready) ∧ (s.stepped tick rxIn ready).data = s.data := by
  unfold completes at quiet
  unfold stepped step sample
  cases h : s.state with
  | idle => simp only; split <;> exact ⟨rfl,rfl,rfl⟩
  | startBit => simp only; (repeat' split) <;> exact ⟨rfl,rfl,rfl⟩
  | dataBits => simp only; (repeat' split) <;> exact ⟨rfl,rfl,rfl⟩
  | stopBit =>
    cases tick with
    | false => exact ⟨rfl,rfl,rfl⟩
    | true =>
      have full : s.tickCounter ≠ 7 := by
        intro seven
        rw [h,seven] at quiet
        contradiction
      simp only [if_true,if_neg full,and_self]

theorem completesAt (completes : s.completes tick = true) : tick = true ∧ s.state = .stopBit ∧ s.tickCounter = 7 := by
  unfold Rx.completes at completes
  rw [Bool.and_eq_true,Bool.and_eq_true,beq_iff_eq,beq_iff_eq] at completes
  exact ⟨completes.1.2,completes.1.1,completes.2⟩

theorem nextError (s : Rx) (tick rxIn ready clr : Bool) :
    (s.next tick false rxIn ready clr).error = (s.errorSet tick ready || (s.error && !clr)) := by
  have stepped : (s.stepped tick rxIn ready).error = (s.errorSet tick ready || s.error) := by
    unfold errorSet
    cases middle : s.completes tick with
    | false => exact (steppedQuiet middle).1
    | true =>
      obtain ⟨rfl,stop,full⟩ := completesAt middle
      rw [steppedStop stop full]
      simp only [sample]
      cases s.voteResult
      · rfl
      · cases s.valid && !ready <;> rfl
  unfold next
  change (if clr && !s.errorSet tick ready then _ else s.stepped tick rxIn ready).error = _
  cases clr <;> cases set : s.errorSet tick ready <;> simp [stepped,set]

theorem idleFalls (byte : BitVec 8) (idle : s.state = .idle) (high : s.syncPrev = true) (low : s.line = false) :
    Receiving byte 0 (s.next tick false rxIn ready clr) := by
  refine receivingSame (nextFrame s tick rxIn ready clr) ⟨by decide,?_,?_,by omega,?_,by omega,by omega⟩
  · unfold stepped step
    rw [idle,high,low]
    rfl
  · unfold stepped step
    rw [idle,high,low]
    rfl
  · intro i inside
    exact absurd inside (by simp [received])

theorem idleRests (idle : s.state = .idle) (high : s.line = true) : (s.next tick false rxIn ready clr).state = .idle := by
  rw [(nextFrame s tick rxIn ready clr).state]
  unfold stepped step
  rw [idle,high]
  simp

theorem receivingStays (receiving : Receiving byte k s) : Receiving byte k (s.next false false rxIn ready clr) := by
  refine receivingSame (nextFrame s false rxIn ready clr) ?_
  obtain ⟨inside,state,counter,index,bits,first,second⟩ := receiving
  unfold stepped step
  rcases phaseCases k with ⟨_,h⟩ | ⟨_,h⟩ | ⟨_,h⟩ <;> rw [state,h] <;>
    exact ⟨inside,h.symm,counter,index,bits,first,second⟩

theorem voted (receiving : Receiving byte k s) (middle : k % 16 = 7) (sees : s.line = frameBit byte (k / 16)) :
    s.voteResult = frameBit byte (k / 16) := by
  unfold voteResult
  rw [receiving.first (by omega) (by omega),receiving.second middle,sees]
  cases frameBit byte (k / 16) <;> rfl

theorem sampled (receiving : Receiving byte k s) (sees : 5 ≤ k % 16 → k % 16 ≤ 7 → s.line = frameBit byte (k / 16)) :
    (6 ≤ (k + 1) % 16 → (k + 1) % 16 ≤ 7 →
      (if s.tickCounter = 5 then s.line else s.vote0) = frameBit byte ((k + 1) / 16)) ∧
    ((k + 1) % 16 = 7 → (if s.tickCounter = 6 then s.line else s.vote1) = frameBit byte ((k + 1) / 16)) := by
  have five : s.tickCounter = 5 ↔ k % 16 = 5 := counterIs receiving.counter (by decide)
  have six : s.tickCounter = 6 ↔ k % 16 = 6 := counterIs receiving.counter (by decide)
  constructor
  · intro low high
    have same : (k + 1) / 16 = k / 16 := by omega
    rw [same]
    by_cases here : k % 16 = 5
    · rw [if_pos (five.mpr here)]
      exact sees (by omega) (by omega)
    · rw [if_neg (mt five.mp here)]
      exact receiving.first (by omega) (by omega)
  · intro last
    have same : (k + 1) / 16 = k / 16 := by omega
    rw [same,if_pos (six.mpr (by omega))]
    exact sees (by omega) (by omega)

theorem bitTaken {shiftReg : BitVec 8} {k : Nat}
    (bits : ∀ i < received k, shiftReg.getLsbD (8 - received k + i) = byte.getLsbD i)
    (middle : k % 16 = 7) (low : 16 ≤ k) (high : k < 144) : ∀ i < received (k + 1),
      (BitVec.ofBool (frameBit byte (k / 16)) ++ shiftReg.extractLsb' 1 7 : BitVec 8).getLsbD (8 - received (k + 1) + i) =
        byte.getLsbD i := by
  intro i inside
  have one : received (k + 1) = received k + 1 := by unfold received; omega
  have place : received k = k / 16 - 1 := by unfold received; omega
  rw [one] at inside ⊢
  rw [BitVec.getLsbD_append]
  by_cases last : i = received k
  · have top : ¬ 8 - (received k + 1) + i < 7 := by omega
    have data : frameBit byte (k / 16) = byte.getLsbD i := by
      unfold frameBit
      rw [if_neg (by omega),if_pos (by omega),last,place]
    have first : 8 - (received k + 1) + i - 7 = 0 := by omega
    rw [if_neg top,data,first]
    cases byte.getLsbD i <;> rfl
  · have under : 8 - (received k + 1) + i < 7 := by omega
    have old : 1 + (8 - (received k + 1) + i) = 8 - received k + i := by omega
    rw [if_pos under,BitVec.getLsbD_extractLsb',decide_eq_true under,Bool.true_and,old,bits i (by omega)]

theorem receivingTick (receiving : Receiving byte k s) (going : k + 1 < 152)
    (sees : 5 ≤ k % 16 → k % 16 ≤ 7 → s.line = frameBit byte (k / 16)) :
    Receiving byte (k + 1) (s.next true false rxIn ready clr) := by
  refine receivingSame (nextFrame s true rxIn ready clr) ?_
  have seven : s.tickCounter = 7 ↔ k % 16 = 7 := counterIs receiving.counter (by decide)
  have fifteen : s.tickCounter = 15 ↔ k % 16 = 15 := counterIs receiving.counter (by decide)
  have vote (middle : k % 16 = 7) := voted receiving middle (sees (by omega) (by omega))
  have counts := counterNext receiving.counter
  obtain ⟨first',second'⟩ := sampled receiving sees
  obtain ⟨inside,state,counter,index,bits,first,second⟩ := receiving
  have cleared (last : k % 16 = 15) : (0 : BitVec 4).toNat = (k + 1) % 16 := by
    rw [Nat.add_mod,last]
    rfl
  have same (outside : ¬ (k % 16 = 7 ∧ 16 ≤ k ∧ k < 144)) :
      ∀ i < received (k + 1), s.shiftReg.getLsbD (8 - received (k + 1) + i) = byte.getLsbD i := by
    have still : received (k + 1) = received k := by unfold received; omega
    rw [still]
    exact bits
  unfold stepped step
  rcases phaseCases k with ⟨start,h⟩ | ⟨⟨low,high⟩,h⟩ | ⟨late,h⟩
  · have heard : ¬ (s.tickCounter = 7 ∧ s.voteResult = true) := by
      rintro ⟨full,high⟩
      have middle := seven.mp full
      rw [vote middle,show k / 16 = 0 by omega] at high
      contradiction
    rw [state,h]
    simp only [if_true,if_neg heard]
    by_cases last : k % 16 = 15
    · have here : k = 15 := by omega
      subst here
      rw [if_pos (fifteen.mpr last)]
      exact ⟨going,rfl,cleared last,fun _ _ => rfl,same (by omega),first',second'⟩
    · rw [if_neg (mt fifteen.mp last)]
      exact ⟨going,h.symm.trans (phaseStays last).symm,counts,by omega,same (by omega),first',second'⟩
  · have position := index low high
    rw [state,h]
    simp only [if_true]
    by_cases last : k % 16 = 15
    · have quiet : ¬ s.tickCounter = 7 := fun full => by have := seven.mp full; omega
      rw [if_pos (fifteen.mpr last),if_neg quiet]
      by_cases final : s.bitIndex = 7
      · have here := indexLast position last final
        subst here
        rw [if_pos final]
        exact ⟨going,rfl,cleared last,by omega,same (by omega),first',second'⟩
      · obtain ⟨position',later⟩ := indexNext position last final
        rw [if_neg final]
        exact ⟨going,h.symm.trans (h.trans later.symm),cleared last,fun _ _ => position',same (by omega),
          first',second'⟩
    · have position' : s.bitIndex.toNat + 1 = (k + 1) / 16 := by omega
      rw [if_neg (mt fifteen.mp last)]
      by_cases middle : k % 16 = 7
      · rw [if_pos (seven.mpr middle),vote middle]
        exact ⟨going,h.symm.trans (phaseStays last).symm,counts,fun _ _ => position',bitTaken bits middle low high,
          first',second'⟩
      · rw [if_neg (mt seven.mp middle)]
        exact ⟨going,h.symm.trans (phaseStays last).symm,counts,fun _ _ => position',same (by omega),first',second'⟩
  · have quiet : ¬ s.tickCounter = 7 := fun full => by have := seven.mp full; omega
    rw [state,h]
    simp only [if_true,if_neg quiet]
    exact ⟨going,h.symm.trans (phaseStays (by omega)).symm,counts,by omega,same (by omega),first',second'⟩

theorem receivingDone (receiving : Receiving byte 151 s) (sees : s.line = true) :
    (s.next true false rxIn ready clr).state = .idle ∧ s.completes true = true ∧ s.voteResult = true ∧
      s.shiftReg = byte := by
  have full : s.tickCounter = 7 := (counterIs (k := 7) receiving.counter (by decide)).mpr rfl
  have stop : s.state = .stopBit := receiving.state
  refine ⟨?_,?_,voted receiving rfl sees,?_⟩
  · rw [(nextFrame s true rxIn ready clr).state,steppedStop stop full]
  · unfold completes
    rw [stop,full]
    rfl
  · apply BitVec.eq_of_getLsbD_eq
    intro i inside
    have bit := receiving.bits i inside
    rwa [show 8 - received 151 + i = i by simp [received]] at bit

theorem heldNext (s : Rx) (tick rxIn ready clr : Bool) :
    s.held ++ s.latched tick ready = s.taken ready ++ (s.next tick false rxIn ready clr).held := by
  have output : (s.next tick false rxIn ready clr).held = (s.stepped tick rxIn ready).held := by
    unfold next held
    simp only [Bool.false_eq_true,if_false]
    split <;> rfl
  rw [output]
  cases middle : s.completes tick with
  | false =>
    obtain ⟨_,valid,data⟩ := @steppedQuiet s tick rxIn ready middle
    unfold held latched taken
    rw [middle,valid,data]
    cases s.valid <;> cases ready <;> rfl
  | true =>
    obtain ⟨rfl,stop,full⟩ := completesAt middle
    unfold latched taken
    rw [middle,steppedStop stop full]
    unfold held
    simp only [sample]
    cases s.voteResult <;> cases s.valid <;> cases ready <;> rfl

end Rx
end RiscvSoc.Uart
