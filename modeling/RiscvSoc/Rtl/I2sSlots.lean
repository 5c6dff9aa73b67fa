import RiscvSoc.Lib.Timeline
import RiscvSoc.Lib.Window
import RiscvSoc.Rtl.I2sSerializer

/-! The slots that `i2s_serializer.sv` sends after a reset, one after another without end. -/
namespace RiscvSoc.I2sSerializer
open Mealy Window

variable {inputWidth outputWidth : Nat}

theorem formattedMsb (sample : BitVec inputWidth) {k : Nat} (inside : k < outputWidth) :
    (formattedSample outputWidth sample).getMsbD k = sample.getMsbD k := by
  unfold formattedSample
  by_cases wide : outputWidth ≤ inputWidth
  · have place : inputWidth - outputWidth + (outputWidth - 1 - k) = inputWidth - 1 - k := by omega
    rw [if_pos wide,BitVec.getMsbD,BitVec.getMsbD,decide_eq_true inside,decide_eq_true (by omega : k < inputWidth),
      Bool.true_and,Bool.true_and,BitVec.getLsbD_extractLsb',decide_eq_true (by omega),Bool.true_and,place]
  · have place : k + (outputWidth - inputWidth) + inputWidth - outputWidth = k := by omega
    rw [if_neg wide,BitVec.getMsbD_shiftLeft,BitVec.getMsbD_setWidth,decide_eq_true (by omega),Bool.true_and,place]

/- A slot of the pins: the alignment bit, then the bits of the sample or zeros. -/
def slot (outputWidth : Nat) (channel : Bool) (sample : Option (BitVec inputWidth)) : List Pins :=
  (channel,false) :: (List.range outputWidth).map fun k => (channel,(sample.map (·.getMsbD k)).getD false)

theorem halfSlot (channel : Bool) (i : Inputs inputWidth) :
    half channel (if i.sampleValid then formattedSample outputWidth i.sampleData else 0) =
      slot outputWidth channel (if i.sampleValid then some i.sampleData else none) := by
  unfold half slot
  refine congrArg _ (List.map_congr_left fun k mem => ?_)
  have inside := List.mem_range.mp mem
  cases i.sampleValid with
  | false => simp
  | true => exact congrArg _ (formattedMsb i.sampleData inside)

def serializer (inputWidth outputWidth : Nat) : Machine (Regs outputWidth) (Inputs inputWidth) Pins :=
  ⟨fun s _ => s.pins,next⟩

def Regs.sampleReady (s : Regs outputWidth) : Bool := s.reloadPending

def offered (i : Inputs inputWidth) : Option (BitVec inputWidth) := if i.sampleValid then some i.sampleData else none

def accepted (s : Regs outputWidth) (i : Inputs inputWidth) : List (BitVec inputWidth) :=
  if i.sampleValid && s.sampleReady then [i.sampleData] else []

section run
variable (inputs : Nat → Inputs inputWidth)

/- The registers `t` edges after the reset. -/
def after (outputWidth : Nat) (t : Nat) : Regs outputWidth := (serializer inputWidth outputWidth).stateAt reset inputs t

/- The pins during slot `k`, from the edge that begins it. -/
def slotPins (outputWidth k : Nat) : List Pins :=
  (List.range (outputWidth + 1)).map fun j => (after inputs outputWidth (k * (outputWidth + 1) + j + 1)).pins

variable (positive : 0 < outputWidth)
include positive

theorem slotSends {k : Nat} (reload : (after inputs outputWidth (k * (outputWidth + 1))).reloadPending = true) {j : Nat}
    (within : j ≤ outputWidth) :
    Sends (after inputs outputWidth (k * (outputWidth + 1))).nextChannel
      (if (inputs (k * (outputWidth + 1))).sampleValid then
        formattedSample outputWidth (inputs (k * (outputWidth + 1))).sampleData else 0)
      j (after inputs outputWidth (k * (outputWidth + 1) + j + 1)) := by
  induction j with
  | zero => exact loads positive reload _
  | succ j ih => exact shifts (ih (by omega)) (by omega) _

theorem slotBegins (k : Nat) : (after inputs outputWidth (k * (outputWidth + 1))).reloadPending = true ∧
    (after inputs outputWidth (k * (outputWidth + 1))).nextChannel = decide (k % 2 = 1) := by
  induction k with
  | zero =>
    rw [Nat.zero_mul]
    exact ⟨rfl,rfl⟩
  | succ k ih =>
    have ends := slotSends inputs positive ih.1 (Nat.le_refl outputWidth)
    have reload := ends.reloadPending
    have channel := ends.nextChannel
    rw [decide_eq_true rfl] at reload channel
    rw [Nat.succ_mul]
    refine ⟨reload,channel.trans ?_⟩
    rw [ih.2,Bool.xor_true,← decide_not,decide_eq_decide]
    omega

theorem slotShown (k : Nat) : slotPins inputs outputWidth k =
    slot outputWidth (decide (k % 2 = 1)) (offered (inputs (k * (outputWidth + 1)))) := by
  obtain ⟨reload,channel⟩ := slotBegins inputs positive k
  rw [offered,← halfSlot,← channel]
  apply List.ext_getElem?
  intro j
  unfold slotPins
  by_cases within : j ≤ outputWidth
  · rw [List.getElem?_map,List.getElem?_range (Nat.lt_succ_of_le within)]
    exact (slotSends inputs positive reload within).pins.symm
  · rw [List.getElem?_eq_none (by simp; omega),List.getElem?_eq_none (by simp [half]; omega)]

theorem slotTakes (k : Nat) {j : Nat} (within : j ≤ outputWidth) :
    (serializer inputWidth outputWidth).recorded reset inputs accepted (k * (outputWidth + 1) + j + 1) =
      (serializer inputWidth outputWidth).recorded reset inputs accepted (k * (outputWidth + 1)) ++
        (offered (inputs (k * (outputWidth + 1)))).toList := by
  obtain ⟨reload,_⟩ := slotBegins inputs positive k
  induction j with
  | zero =>
    rw [Nat.add_zero,Machine.recordedSucc]
    refine congrArg _ ?_
    change (if _ && (after inputs outputWidth (k * (outputWidth + 1))).reloadPending then _ else _) = _
    rw [reload,Bool.and_true,offered]
    split <;> rfl
  | succ j ih =>
    have busy := (slotSends inputs positive reload (show j ≤ outputWidth by omega)).reloadPending
    have nothing : accepted (after inputs outputWidth (k * (outputWidth + 1) + j + 1))
        (inputs (k * (outputWidth + 1) + j + 1)) = [] := by
      rw [accepted,Regs.sampleReady,busy,decide_eq_false (by omega),Bool.and_false]
      rfl
    rw [Machine.recordedSucc,← Nat.add_assoc _ j 1,ih (by omega)]
    change _ ++ accepted (after inputs outputWidth (k * (outputWidth + 1) + j + 1)) _ = _
    rw [nothing,List.append_nil]

theorem slotsTake (k : Nat) : (serializer inputWidth outputWidth).recorded reset inputs accepted (k * (outputWidth + 1)) =
    (List.range k).flatMap fun n => (offered (inputs (n * (outputWidth + 1)))).toList := by
  induction k with
  | zero => rw [Nat.zero_mul]; rfl
  | succ k ih =>
    have takes := slotTakes inputs positive k (Nat.le_refl outputWidth)
    rw [ih] at takes
    rw [Nat.succ_mul,List.range_succ,List.flatMap_append,List.flatMap_singleton]
    exact takes

/- Slot `k` shows the sample taken at its beginning, and the samples taken until any edge of it are those of the slots so
far, one each. -/
theorem slotsFramed (k : Nat) :
    slotPins inputs outputWidth k = slot outputWidth (decide (k % 2 = 1)) (offered (inputs (k * (outputWidth + 1)))) ∧
    ∀ j ≤ outputWidth, (serializer inputWidth outputWidth).recorded reset inputs accepted (k * (outputWidth + 1) + j + 1) =
      (List.range (k + 1)).flatMap fun n => (offered (inputs (n * (outputWidth + 1)))).toList := by
  refine ⟨slotShown inputs positive k,fun j within => ?_⟩
  rw [slotTakes inputs positive k within,slotsTake inputs positive k,List.range_succ,List.flatMap_append,List.flatMap_singleton]

end run

/- Samples of four bits in slots of three. -/
def everyOther (t : Nat) : Inputs 4 := ⟨BitVec.ofNat 4 (t + 10),t % 8 == 4⟩

theorem slotsFramedTruncated : slotPins everyOther 3 1 = slot 3 true (some 0xE#4) ∧
    ∀ j ≤ 3, (serializer 4 3).recorded reset everyOther accepted (4 + j + 1) = [0xE] :=
  slotsFramed everyOther (show 0 < 3 by decide) 1
end RiscvSoc.I2sSerializer
