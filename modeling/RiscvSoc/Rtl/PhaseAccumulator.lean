import Mathlib.Algebra.Group.Nat.Defs

/-! `phase_accumulator.sv`, for every `PHASE_WIDTH`. -/
namespace RiscvSoc

/- `PHASE_MODULUS` and `PHASE_INCREMENT`, in the 64 bits of a `longint`. -/
def phaseModulus (phaseWidth : Nat) : BitVec 64 := (1 : BitVec 64) <<< phaseWidth

def phaseIncrement (phaseWidth clkFreqHz tickFreqHz : Nat) : Nat :=
  ((BitVec.ofNat 64 tickFreqHz * phaseModulus phaseWidth + BitVec.ofNat 64 clkFreqHz / 2) / BitVec.ofNat 64 clkFreqHz).toNat

/- The integer nearest to `TICK_FREQ_HZ * 2 ^ PHASE_WIDTH / CLK_FREQ_HZ`, the greater one of two. -/
def nearestIncrement (phaseWidth clkFreqHz tickFreqHz : Nat) : Nat :=
  (tickFreqHz * 2 ^ phaseWidth + clkFreqHz / 2) / clkFreqHz

structure PhaseAccumulator (phaseWidth : Nat) where
  phaseAcc : BitVec phaseWidth
  tick : Bool
  deriving DecidableEq, Repr

namespace PhaseAccumulator
variable {w : Nat}

def phaseSum (s : PhaseAccumulator w) (increment : Nat) : BitVec (w + 1) :=
  s.phaseAcc.setWidth (w + 1) + (BitVec.ofNat w increment).setWidth (w + 1)

def reset : PhaseAccumulator w := ⟨0,false⟩

def next (s : PhaseAccumulator w) (increment : Nat) (rst : Bool) : PhaseAccumulator w :=
  if rst then reset
  else ⟨(s.phaseSum increment).setWidth w,(s.phaseSum increment).getLsbD w⟩

def phase (s : PhaseAccumulator w) : Nat := s.tick.toNat * 2 ^ w + s.phaseAcc.toNat

theorem phaseBound (s : PhaseAccumulator w) : s.phase < 2 * 2 ^ w := by
  have inside := s.phaseAcc.isLt
  unfold phase
  cases s.tick <;> simp <;> omega

theorem phaseNext (s : PhaseAccumulator w) {increment : Nat} (fits : increment < 2 ^ w) :
    (s.next increment false).phase = s.phaseAcc.toNat + increment := by
  have inside := s.phaseAcc.isLt
  have double : 2 ^ (w + 1) = 2 * 2 ^ w := by rw [Nat.pow_succ,Nat.mul_comm]
  have sum : (s.phaseSum increment).toNat = s.phaseAcc.toNat + increment := by
    unfold phaseSum
    rw [BitVec.toNat_add,BitVec.toNat_setWidth,BitVec.toNat_setWidth,BitVec.toNat_ofNat,Nat.mod_eq_of_lt fits,
      Nat.mod_eq_of_lt (by omega : s.phaseAcc.toNat < 2 ^ (w + 1)),Nat.mod_eq_of_lt (by omega : increment < 2 ^ (w + 1)),
      Nat.mod_eq_of_lt (by omega)]
  have carry : (s.phaseSum increment).getLsbD w = decide (2 ^ w ≤ s.phaseAcc.toNat + increment) := by
    rw [← BitVec.testBit_toNat,sum,Nat.testBit_eq_decide_div_mod_eq]
    by_cases carries : 2 ^ w ≤ s.phaseAcc.toNat + increment
    · have one : (s.phaseAcc.toNat + increment) / 2 ^ w = 1 := Nat.div_eq_of_lt_le (by omega) (by omega)
      rw [one]
      simp [carries]
    · rw [Nat.div_eq_of_lt (by omega)]
      simp [carries]
  unfold phase next
  simp only [carry,BitVec.toNat_setWidth,sum,Bool.false_eq_true,if_false]
  by_cases carries : 2 ^ w ≤ s.phaseAcc.toNat + increment
  · rw [Nat.mod_eq_sub_mod carries,Nat.mod_eq_of_lt (by omega)]
    simp [carries]
  · rw [Nat.mod_eq_of_lt (by omega)]
    simp [carries]

theorem nextSlice (s : PhaseAccumulator w) (increment : Nat) : s.next increment false = s.next (increment % 2 ^ w) false := by
  have slice : BitVec.ofNat w (increment % 2 ^ w) = BitVec.ofNat w increment := by
    apply BitVec.eq_of_toNat_eq
    rw [BitVec.toNat_ofNat,BitVec.toNat_ofNat,Nat.mod_mod]
  unfold next phaseSum
  rw [slice]

/- After `n` edges out of reset: the state, and the ticks of those edges. -/
def edges (s : PhaseAccumulator w) (increment : Nat) : Nat → PhaseAccumulator w
  | 0 => s
  | n + 1 => (s.edges increment n).next increment false

def ticks (s : PhaseAccumulator w) (increment : Nat) : Nat → Nat
  | 0 => 0
  | n + 1 => s.ticks increment n + (s.edges increment (n + 1)).tick.toNat

theorem ticksConserve (s : PhaseAccumulator w) (increment n : Nat) :
    s.ticks increment n * 2 ^ w + (s.edges increment n).phaseAcc.toNat = s.phaseAcc.toNat + n * (increment % 2 ^ w) := by
  induction n with
  | zero => simp [ticks,edges]
  | succ n ih =>
    have step := (s.edges increment n).phaseNext (Nat.mod_lt increment (Nat.two_pow_pos w))
    rw [← nextSlice] at step
    unfold phase at step
    rw [ticks,edges,Nat.add_mul,Nat.succ_mul,Nat.add_assoc,step]
    omega

theorem ticksReset (increment n : Nat) : (reset : PhaseAccumulator w).ticks increment n = n * (increment % 2 ^ w) / 2 ^ w := by
  have total := (reset : PhaseAccumulator w).ticksConserve increment n
  have rest := ((reset : PhaseAccumulator w).edges increment n).phaseAcc.isLt
  have empty : (reset : PhaseAccumulator w).phaseAcc.toNat = 0 := BitVec.toNat_ofNat 0 w ▸ Nat.zero_mod _
  rw [empty,Nat.zero_add] at total
  rw [← total]
  exact (Nat.div_eq_of_lt_le (by omega) (by rw [Nat.add_mul]; omega)).symm

end PhaseAccumulator

theorem incrementWraps {w clkFreqHz tickFreqHz : Nat} (range : w ≤ 63) (clk : clkFreqHz < 2 ^ 32)
    (tick : tickFreqHz < 2 ^ 32) :
    phaseIncrement w clkFreqHz tickFreqHz = (tickFreqHz * 2 ^ w + clkFreqHz / 2) % 2 ^ 64 / clkFreqHz := by
  have one : (1 : BitVec 64).toNat = 1 := rfl
  have two : (2 : BitVec 64).toNat = 2 := rfl
  have wide : 2 ^ w < 2 ^ 64 := Nat.pow_lt_pow_right (by decide) (by omega)
  have modulus : (phaseModulus w).toNat = 2 ^ w := by
    rw [phaseModulus,BitVec.toNat_shiftLeft,one,Nat.shiftLeft_eq,Nat.one_mul,Nat.mod_eq_of_lt wide]
  have clk' : clkFreqHz < 2 ^ 64 := Nat.lt_trans clk (by decide)
  have tick' : tickFreqHz < 2 ^ 64 := Nat.lt_trans tick (by decide)
  unfold phaseIncrement
  rw [BitVec.toNat_udiv,BitVec.toNat_add,BitVec.toNat_mul,BitVec.toNat_udiv,modulus,two,BitVec.toNat_ofNat,
    BitVec.toNat_ofNat,Nat.mod_eq_of_lt clk',Nat.mod_eq_of_lt tick',Nat.mod_add_mod]

/- No integer is nearer to the exact increment. -/
theorem nearestIs {w clkFreqHz tickFreqHz : Nat} (positive : 0 < clkFreqHz) :
    2 * (nearestIncrement w clkFreqHz tickFreqHz * clkFreqHz) ≤ 2 * (tickFreqHz * 2 ^ w) + clkFreqHz ∧
      2 * (tickFreqHz * 2 ^ w) ≤ 2 * (nearestIncrement w clkFreqHz tickFreqHz * clkFreqHz) + clkFreqHz := by
  have split := Nat.div_add_mod (tickFreqHz * 2 ^ w + clkFreqHz / 2) clkFreqHz
  have rest := Nat.mod_lt (tickFreqHz * 2 ^ w + clkFreqHz / 2) positive
  rw [Nat.mul_comm] at split
  unfold nearestIncrement
  omega

theorem nearestFits {w clkFreqHz tickFreqHz : Nat} (positive : 0 < clkFreqHz) :
    nearestIncrement w clkFreqHz tickFreqHz < 2 ^ w ↔ tickFreqHz * 2 ^ w + clkFreqHz / 2 < 2 ^ w * clkFreqHz :=
  Nat.div_lt_iff_lt_mul positive

theorem incrementBelow {w clkFreqHz tickFreqHz : Nat} (range : w ≤ 63) (clk : clkFreqHz < 2 ^ 32)
    (tick : tickFreqHz < 2 ^ 32) :
    phaseIncrement w clkFreqHz tickFreqHz ≤ nearestIncrement w clkFreqHz tickFreqHz := by
  rw [incrementWraps range clk tick]
  exact Nat.div_le_div_right (Nat.mod_le _ _)

theorem phaseIncrementFits {w clkFreqHz tickFreqHz : Nat} (range : w ≤ 63) (clk : clkFreqHz < 2 ^ 32)
    (small : clkFreqHz < 2 ^ w) (slower : tickFreqHz < clkFreqHz) : phaseIncrement w clkFreqHz tickFreqHz < 2 ^ w := by
  refine Nat.lt_of_le_of_lt (incrementBelow range clk (Nat.lt_trans slower clk)) ((nearestFits (by omega)).mpr ?_)
  have below : (tickFreqHz + 1) * 2 ^ w ≤ clkFreqHz * 2 ^ w := Nat.mul_le_mul_right _ slower
  rw [Nat.add_mul,Nat.one_mul] at below
  rw [Nat.mul_comm (2 ^ w)]
  omega

structure RateParams where
  phaseWidth : Nat
  clkFreqHz : Nat
  tickFreqHz : Nat
  unsigned : clkFreqHz < 2 ^ 32
  widthRange : 1 ≤ phaseWidth ∧ phaseWidth ≤ 63
  tickRange : 1 ≤ tickFreqHz ∧ tickFreqHz < clkFreqHz
  resolved : phaseIncrement phaseWidth clkFreqHz tickFreqHz ≠ 0

namespace RateParams
variable (p : RateParams)

def increment : Nat := phaseIncrement p.phaseWidth p.clkFreqHz p.tickFreqHz

def nearest : Nat := nearestIncrement p.phaseWidth p.clkFreqHz p.tickFreqHz

/- The 64 bits hold the rounded product, and the slice the increment. -/
def Holds : Prop :=
  p.tickFreqHz * 2 ^ p.phaseWidth + p.clkFreqHz / 2 < 2 ^ 64 ∧
    p.clkFreqHz / 2 < (p.clkFreqHz - p.tickFreqHz) * 2 ^ p.phaseWidth

theorem incrementIs : p.increment = (p.tickFreqHz * 2 ^ p.phaseWidth + p.clkFreqHz / 2) % 2 ^ 64 / p.clkFreqHz :=
  incrementWraps p.widthRange.2 p.unsigned (Nat.lt_trans p.tickRange.2 p.unsigned)

theorem nearestHolds : p.nearest < 2 ^ p.phaseWidth ↔ p.clkFreqHz / 2 < (p.clkFreqHz - p.tickFreqHz) * 2 ^ p.phaseWidth := by
  have slower := p.tickRange.2
  have below : p.tickFreqHz * 2 ^ p.phaseWidth ≤ p.clkFreqHz * 2 ^ p.phaseWidth := Nat.mul_le_mul_right _ (Nat.le_of_lt slower)
  unfold nearest
  rw [nearestFits (by omega),Nat.sub_mul,Nat.mul_comm (2 ^ p.phaseWidth)]
  omega

theorem wrappedBelow (wraps : 2 ^ 64 ≤ p.tickFreqHz * 2 ^ p.phaseWidth + p.clkFreqHz / 2) : p.increment < p.nearest := by
  have positive : 0 < p.clkFreqHz := Nat.lt_of_le_of_lt (Nat.zero_le _) p.tickRange.2
  rw [incrementIs]
  unfold nearest nearestIncrement
  generalize p.tickFreqHz * 2 ^ p.phaseWidth + p.clkFreqHz / 2 = product at wraps
  have clk := p.unsigned
  have lost : product % 2 ^ 64 + p.clkFreqHz ≤ product := by omega
  calc product % 2 ^ 64 / p.clkFreqHz
    _ < product % 2 ^ 64 / p.clkFreqHz + 1 := Nat.lt_succ_self _
    _ = (product % 2 ^ 64 + p.clkFreqHz) / p.clkFreqHz := (Nat.add_div_right _ positive).symm
    _ ≤ product / p.clkFreqHz := Nat.div_le_div_right lost

theorem sliceNearest : p.increment % 2 ^ p.phaseWidth = p.nearest ↔ p.Holds := by
  constructor
  · intro same
    have fits : p.nearest < 2 ^ p.phaseWidth := same ▸ Nat.mod_lt _ (Nat.two_pow_pos _)
    refine ⟨Nat.lt_of_not_le fun wraps => ?_,p.nearestHolds.mp fits⟩
    have below := p.wrappedBelow wraps
    have slice := Nat.mod_le p.increment (2 ^ p.phaseWidth)
    omega
  · rintro ⟨product,slice⟩
    have precise : p.increment = p.nearest := by
      rw [incrementIs,Nat.mod_eq_of_lt product]
      rfl
    rw [precise]
    exact Nat.mod_eq_of_lt (p.nearestHolds.mpr slice)

theorem tickRate : (∀ n, (PhaseAccumulator.reset : PhaseAccumulator p.phaseWidth).ticks p.increment n =
    n * p.nearest / 2 ^ p.phaseWidth) ↔ p.Holds := by
  rw [← sliceNearest]
  constructor
  · intro rate
    have whole := rate (2 ^ p.phaseWidth)
    rw [PhaseAccumulator.ticksReset,Nat.mul_div_cancel_left _ (Nat.two_pow_pos _),
      Nat.mul_div_cancel_left _ (Nat.two_pow_pos _)] at whole
    exact whole
  · intro same n
    rw [PhaseAccumulator.ticksReset,same]

/- 115200 Hz from 100 MHz with 48 bits, where the product wraps, and 99 Hz from 100 Hz with one bit, where the slice
drops the increment. -/
def wide : RateParams := ⟨48,100000000,115200,by decide,by decide,by decide,by decide⟩
def narrow : RateParams := ⟨1,100,99,by decide,by decide,by decide,by decide⟩

theorem ticksLost :
    ((PhaseAccumulator.reset : PhaseAccumulator wide.phaseWidth).ticks wide.increment 869 = 0 ∧
      869 * wide.nearest / 2 ^ wide.phaseWidth = 1) ∧
    ((PhaseAccumulator.reset : PhaseAccumulator narrow.phaseWidth).ticks narrow.increment 10 = 0 ∧
      10 * narrow.nearest / 2 ^ narrow.phaseWidth = 10) := by
  rw [PhaseAccumulator.ticksReset,PhaseAccumulator.ticksReset]
  decide

end RateParams
end RiscvSoc
