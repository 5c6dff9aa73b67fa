import Mathlib.Algebra.Group.Nat.Defs
import Mathlib.Data.Nat.Log
import RiscvSoc.Lib.BitNumbers
import RiscvSoc.Lib.Mealy

/-! `i2s_serializer.sv`, for every pair of sample widths. -/
namespace RiscvSoc.I2sSerializer
open Mealy

def bitIndexWidth (outputWidth : Nat) : Nat := if outputWidth ≤ 1 then 1 else Nat.clog 2 outputWidth

structure Regs (outputWidth : Nat) where
  shiftReg : BitVec outputWidth
  bitIndex : BitVec (bitIndexWidth outputWidth)
  reloadPending : Bool
  nextChannel : Bool
  lrclk : Bool
  sd : Bool
  deriving DecidableEq, Repr, Inhabited

structure Inputs (inputWidth : Nat) where
  sampleData : BitVec inputWidth
  sampleValid : Bool
  deriving DecidableEq, Repr

variable {inputWidth outputWidth : Nat}

def formattedSample (outputWidth : Nat) (sample : BitVec inputWidth) : BitVec outputWidth :=
  if outputWidth ≤ inputWidth then sample.extractLsb' (inputWidth - outputWidth) outputWidth
  else sample.setWidth outputWidth <<< (outputWidth - inputWidth)

def reset : Regs outputWidth := ⟨0,0,true,false,false,false⟩

def next (s : Regs outputWidth) (i : Inputs inputWidth) : Regs outputWidth :=
  if s.reloadPending then
    {s with
      shiftReg := if i.sampleValid then formattedSample outputWidth i.sampleData else 0
      bitIndex := 0
      reloadPending := false
      lrclk := s.nextChannel
      sd := false}
  else
    let shifted := {s with
      sd := s.shiftReg.msb
      shiftReg := if 1 < outputWidth then s.shiftReg.shiftConcat false else 0}
    if s.bitIndex = BitVec.ofNat _ (outputWidth - 1) then
      {shifted with reloadPending := true, nextChannel := !s.nextChannel}
    else {shifted with bitIndex := s.bitIndex + 1}

abbrev Pins := Bool × Bool

def Regs.pins (s : Regs outputWidth) : Pins := (s.lrclk,s.sd)

/- One channel on the pins: the alignment slot, then the bits from the most significant on. -/
def half (channel : Bool) (sample : BitVec outputWidth) : List Pins :=
  (channel,false) :: (List.range outputWidth).map fun k => (channel,sample.getMsbD k)

structure Sends (channel : Bool) (sample : BitVec outputWidth) (j : Nat) (s : Regs outputWidth) : Prop where
  within : j ≤ outputWidth
  bitIndex : s.bitIndex.toNat = min j (outputWidth - 1)
  shiftReg : s.shiftReg = sample <<< j
  pins : (half channel sample)[j]? = some s.pins
  reloadPending : s.reloadPending = decide (j = outputWidth)
  nextChannel : s.nextChannel = (channel ^^ decide (j = outputWidth))

theorem lastIndex (outputWidth : Nat) : (BitVec.ofNat (bitIndexWidth outputWidth) (outputWidth - 1)).toNat = outputWidth - 1 := by
  refine Nat.mod_eq_of_lt ?_
  rw [bitIndexWidth]
  split
  · omega
  · have covers := Nat.le_pow_clog (b := 2) (by decide) outputWidth
    omega

theorem indexSucc {k : BitVec (bitIndexWidth outputWidth)} (more : k.toNat + 1 < outputWidth) :
    (k + 1).toNat = k.toNat + 1 := by
  have last := lastIndex outputWidth
  have bound := (BitVec.ofNat (bitIndexWidth outputWidth) (outputWidth - 1)).isLt
  exact BitNumbers.countNext (k := outputWidth - 1) (by omega) (by omega)

theorem shiftOut (sample : BitVec outputWidth) (j : Nat) :
    (if 1 < outputWidth then (sample <<< j).shiftConcat false else 0) = sample <<< (j + 1) := by
  split
  · rw [BitVec.shiftLeft_add]
    apply BitVec.eq_of_toNat_eq
    rw [BitVec.toNat_shiftConcat]
    simp
  · rename_i single
    apply BitVec.eq_of_getLsbD_eq
    intro k inside
    have zero : k < j + 1 := by omega
    simp [zero]

theorem halfLoaded (channel : Bool) (sample : BitVec outputWidth) : (half channel sample)[0]? = some (channel,false) := rfl

theorem halfShifted (channel : Bool) (sample : BitVec outputWidth) {j : Nat} (more : j < outputWidth) :
    (half channel sample)[j + 1]? = some (channel,(sample <<< j).msb) := by
  have top : (sample <<< j).msb = sample.getMsbD j := by
    rw [BitVec.msb_eq_getMsbD_zero,BitVec.getMsbD_shiftLeft]
    simp
  rw [half,List.getElem?_cons_succ,List.getElem?_map,List.getElem?_range more,top]
  rfl

theorem Sends.lrclk {channel : Bool} {sample : BitVec outputWidth} {j : Nat} {s : Regs outputWidth}
    (h : Sends channel sample j s) : s.lrclk = channel := by
  have within := h.within
  have pins := h.pins
  cases j with
  | zero =>
    rw [halfLoaded] at pins
    exact (congrArg Prod.fst (Option.some.inj pins)).symm
  | succ j =>
    rw [halfShifted _ _ (by omega)] at pins
    exact (congrArg Prod.fst (Option.some.inj pins)).symm

theorem loads {s : Regs outputWidth} (positive : 0 < outputWidth) (reload : s.reloadPending = true) (i : Inputs inputWidth) :
    Sends s.nextChannel (if i.sampleValid then formattedSample outputWidth i.sampleData else 0) 0 (next s i) := by
  have later : decide (0 = outputWidth) = false := decide_eq_false (by omega)
  rw [next,if_pos reload]
  refine ⟨by omega,by simp,by simp,halfLoaded _ _,later.symm,?_⟩
  rw [later,Bool.xor_false]

theorem shifts {channel : Bool} {sample : BitVec outputWidth} {j : Nat} {s : Regs outputWidth}
    (h : Sends channel sample j s) (more : j < outputWidth) (i : Inputs inputWidth) :
    Sends channel sample (j + 1) (next s i) := by
  have clock := h.lrclk
  obtain ⟨_,index,shift,_,reload,channel'⟩ := h
  have here : decide (j = outputWidth) = false := decide_eq_false (by omega)
  rw [here] at reload channel'
  rw [Bool.xor_false] at channel'
  have shown := halfShifted channel sample more
  have out := shiftOut sample j
  have last : s.bitIndex = BitVec.ofNat _ (outputWidth - 1) ↔ j + 1 = outputWidth := by
    rw [← BitVec.toNat_inj,lastIndex,index]
    omega
  simp only [next,reload,Bool.false_eq_true,if_false,shift,out]
  by_cases done : j + 1 = outputWidth
  · rw [if_pos (last.mpr done)]
    refine ⟨by omega,?_,rfl,?_,(decide_eq_true done).symm,?_⟩
    · rw [index]
      omega
    · rw [shown,Regs.pins,clock]
    · rw [decide_eq_true done,Bool.xor_true,channel']
  · rw [if_neg (fun h => done (last.mp h))]
    refine ⟨by omega,?_,rfl,?_,?_,?_⟩
    · rw [indexSucc (by omega),index]
      omega
    · rw [shown,Regs.pins,clock]
    · rw [decide_eq_false done]
    · rw [decide_eq_false done,Bool.xor_false,channel']

def Alternates (s : Regs outputWidth) : Prop :=
  if s.reloadPending then s.lrclk = true → s.nextChannel = false else s.nextChannel = s.lrclk

theorem alternatesNext {s : Regs outputWidth} (h : Alternates s) (i : Inputs inputWidth) : Alternates (next s i) := by
  rw [Alternates] at h
  rcases Bool.eq_false_or_eq_true s.reloadPending with reload | shifting
  · simp [Alternates,next,reload]
  · rw [if_neg (by simp [shifting])] at h
    simp only [Alternates,next,shifting,Bool.false_eq_true,if_false]
    split
    · rw [if_pos rfl,h]
      exact fun high => congrArg (!·) high
    · simpa [shifting] using h

end RiscvSoc.I2sSerializer
