import Mathlib.Data.List.Pairwise
import RiscvSoc.Devices.SystemContext
import RiscvSoc.Lib.Mealy

/-! `SystemBus`: the registration of devices and the device behind an address. -/
namespace RiscvSoc.Devices
open Mealy Machine
open Host (Word)

inductive DeviceId where
  | dram
  | simControl
  | external (idx : Nat)
  deriving DecidableEq, Repr

/- `end` is exclusive. -/
structure MemoryMapEntry where
  base : Word
  «end» : Word
  id : DeviceId
  deriving DecidableEq, Repr

structure BusDevice where
  size : Word
  name : String
  deriving DecidableEq, Repr

def dram : BusDevice := ⟨0x10000000,"DRAM"⟩
def simControl : BusDevice := ⟨4,"SimControl"⟩

def simControlBase : Word := 0xF0000000

structure SystemBus where
  externalDevices : List BusDevice
  memoryMap : List MemoryMapEntry
  deriving DecidableEq, Repr

inductive RegistrationError where
  | addressOverlap (newBase newEnd existingBase existingEnd : Word) (existingName : String)
  | invalidAlignment (size : Word)
  | invalidBaseAlignment (baseAddr : Word)
  | zeroSize
  deriving DecidableEq, Repr

def saturatingAdd (a b : Word) : Word := if a.toNat + b.toNat < 2 ^ 32 then a + b else BitVec.allOnes 32

def rangesOverlap (aStart aEnd bStart bEnd : Word) : Bool := decide (aStart < bEnd) && decide (bStart < aEnd)

namespace SystemBus

def new : SystemBus where
  externalDevices := []
  memoryMap := [⟨simControlBase,saturatingAdd simControlBase simControl.size,.simControl⟩,
    ⟨dramBase,saturatingAdd dramBase dram.size,.dram⟩]

/- The index of an entry is always within `externalDevices`. -/
def deviceName (bus : SystemBus) : DeviceId → String
  | .dram => dram.name
  | .simControl => simControl.name
  | .external idx => (bus.externalDevices[idx]?.map (·.name)).getD ""

def registerDevice (bus : SystemBus) (baseAddr : Word) (device : BusDevice) :
    Except RegistrationError Unit × SystemBus :=
  if device.size = 0 then (.error .zeroSize,bus)
  else if device.size.toNat % 4 ≠ 0 then (.error (.invalidAlignment device.size),bus)
  else if baseAddr.toNat % 4 ≠ 0 then (.error (.invalidBaseAlignment baseAddr),bus)
  else
    let stop := saturatingAdd baseAddr device.size
    match bus.memoryMap.find? fun entry => rangesOverlap baseAddr stop entry.base entry.end with
    | some entry =>
      (.error (.addressOverlap baseAddr stop entry.base entry.end (bus.deviceName entry.id)),bus)
    | none => (.ok (),{bus with
        externalDevices := bus.externalDevices ++ [device]
        memoryMap := bus.memoryMap ++ [⟨baseAddr,stop,.external bus.externalDevices.length⟩]})

def findDeviceId (bus : SystemBus) (addr : Word) : Option (DeviceId × Word) :=
  (bus.memoryMap.find? fun entry => decide (addr ≥ entry.base) && decide (addr < entry.end)).map fun entry =>
    (entry.id,addr - entry.base)

end SystemBus

structure Registration where
  baseAddr : Word
  device : BusDevice
  deriving DecidableEq, Repr

def machine : Machine SystemBus Registration (Except RegistrationError Unit) where
  output bus r := (bus.registerDevice r.baseAddr r.device).1
  next bus r := (bus.registerDevice r.baseAddr r.device).2

def accepted (bus : SystemBus) (r : Registration) : List Registration :=
  match (bus.registerDevice r.baseAddr r.device).1 with
  | .ok _ => [r]
  | .error _ => []

/- The addresses from `base` to `base + size - 1`, counted without a bound. -/
structure Range where
  id : DeviceId
  base : Word
  size : Word
  deriving DecidableEq, Repr

namespace Range

def Contains (r : Range) (a : Nat) : Prop := r.base.toNat ≤ a ∧ a < r.base.toNat + r.size.toNat

def Apart (r s : Range) : Prop := ∀ a, r.Contains a → ¬ s.Contains a

instance : Std.Symm Apart := ⟨fun _ _ apart a inS inR => apart a inR inS⟩

/- The last address of the range is below `0xFFFFFFFF`. -/
def BelowTop (r : Range) : Prop := r.base.toNat + r.size.toNat < 2 ^ 32

def entry (r : Range) : MemoryMapEntry := ⟨r.base,saturatingAdd r.base r.size,r.id⟩

structure Aligned (r : Range) : Prop where
  base : r.base.toNat % 4 = 0
  size : r.size.toNat % 4 = 0
  nonempty : 0 < r.size.toNat

end Range

def internalRanges : List Range := [⟨.simControl,simControlBase,simControl.size⟩,⟨.dram,dramBase,dram.size⟩]

def ranges (devices : List Registration) : List Range :=
  internalRanges ++ devices.mapIdx fun k r => ⟨.external k,r.baseAddr,r.device.size⟩

def Routed (bus : SystemBus) (r : Range) : Prop :=
  ∀ addr : Word, r.Contains addr.toNat → bus.findDeviceId addr = some (r.id,addr - r.base)

structure Routes (bus : SystemBus) (ranges : List Range) : Prop where
  disjoint : ranges.Pairwise Range.Apart
  routed : ∀ r ∈ ranges, Routed bus r
  unmapped : ∀ addr : Word, (∀ r ∈ ranges, ¬ r.Contains addr.toNat) → bus.findDeviceId addr = none

structure Mapped (bus : SystemBus) (devices : List Registration) : Prop where
  external : bus.externalDevices = devices.map (·.device)
  map : bus.memoryMap = (ranges devices).map Range.entry
  aligned : ∀ r ∈ ranges devices, r.Aligned
  apart : (ranges devices).Pairwise Range.Apart

theorem saturated (a b : Word) : (saturatingAdd a b).toNat = min (a.toNat + b.toNat) (2 ^ 32 - 1) := by
  unfold saturatingAdd
  split
  · rw [BitVec.toNat_add,Nat.mod_eq_of_lt (by omega)]
    omega
  · rw [BitVec.toNat_allOnes]
    omega

theorem entryHolds (r : Range) (addr : Word) :
    (decide (addr ≥ r.entry.base) && decide (addr < r.entry.end)) = true ↔
      r.Contains addr.toNat ∧ addr.toNat < 2 ^ 32 - 1 := by
  simp only [Range.entry,Range.Contains,ge_iff_le,Bool.and_eq_true,decide_eq_true_eq,BitVec.le_def,BitVec.lt_def,saturated]
  omega

theorem apartIff {r s : Range} (alignedR : r.Aligned) (alignedS : s.Aligned) :
    rangesOverlap r.base (saturatingAdd r.base r.size) s.base (saturatingAdd s.base s.size) = false ↔ r.Apart s := by
  have boundR := r.base.isLt
  have boundS := s.base.isLt
  obtain ⟨baseR,sizeR,someR⟩ := alignedR
  obtain ⟨baseS,sizeS,someS⟩ := alignedS
  simp only [rangesOverlap,Bool.and_eq_false_iff,decide_eq_false_iff_not,BitVec.lt_def,saturated,Range.Apart,Range.Contains]
  constructor
  · intro disjoint a inR inS
    omega
  · intro apart
    have meet := apart (max r.base.toNat s.base.toNat)
    omega

inductive Registers (bus : SystemBus) (r : Registration) : SystemBus → List Registration → Prop where
  | refused : Registers bus r bus []
  | added (aligned : (Range.mk (.external bus.externalDevices.length) r.baseAddr r.device.size).Aligned)
      (free : ∀ entry ∈ bus.memoryMap,
        rangesOverlap r.baseAddr (saturatingAdd r.baseAddr r.device.size) entry.base entry.end = false) :
      Registers bus r ⟨bus.externalDevices ++ [r.device],bus.memoryMap ++
        [(Range.mk (.external bus.externalDevices.length) r.baseAddr r.device.size).entry]⟩ [r]

theorem registerSpec (bus : SystemBus) (r : Registration) : Registers bus r (machine.next bus r) (accepted bus r) := by
  simp only [machine,accepted,SystemBus.registerDevice]
  split
  · exact .refused
  · rename_i nonempty
    split
    · exact .refused
    · rename_i size
      split
      · exact .refused
      · rename_i base
        split
        · exact .refused
        · rename_i free
          refine .added ⟨by simpa using base,by simpa using size,?_⟩ ?_
          · exact Nat.pos_of_ne_zero fun zero => nonempty (BitVec.eq_of_toNat_eq zero)
          · simpa using List.find?_eq_none.mp free

theorem rangesSnoc (devices : List Registration) (r : Registration) :
    ranges (devices ++ [r]) = ranges devices ++ [⟨.external devices.length,r.baseAddr,r.device.size⟩] := by
  simp [ranges]

theorem mappedNew : Mapped .new [] where
  external := rfl
  map := by decide
  aligned := by
    intro r mem
    simp only [ranges,internalRanges,List.mapIdx_nil,List.append_nil,List.mem_cons,List.not_mem_nil,or_false] at mem
    rcases mem with rfl | rfl
    · exact ⟨by decide,by decide,by decide⟩
    · exact ⟨by decide,by decide,by decide⟩
  apart := by
    simp only [ranges,internalRanges,List.mapIdx_nil,List.append_nil,List.pairwise_cons,List.mem_singleton,
      forall_eq,List.not_mem_nil,false_imp_iff,implies_true,List.Pairwise.nil,and_true]
    exact (apartIff ⟨by decide,by decide,by decide⟩ ⟨by decide,by decide,by decide⟩).mp (by decide)

theorem mappedStep {bus : SystemBus} {devices : List Registration} (h : Mapped bus devices) (r : Registration) :
    Mapped (machine.next bus r) (devices ++ accepted bus r) := by
  have spec := registerSpec bus r
  generalize machine.next bus r = bus' at spec
  generalize accepted bus r = added at spec
  cases spec with
  | refused => simpa using h
  | added aligned free =>
    have length : bus.externalDevices.length = devices.length := by rw [h.external,List.length_map]
    rw [length] at aligned
    refine ⟨?_,?_,?_,?_⟩
    · simp [h.external]
    · rw [rangesSnoc,List.map_append,← h.map,length,List.map_singleton]
    · rw [rangesSnoc]
      intro s mem
      rcases List.mem_append.mp mem with old | new
      · exact h.aligned s old
      · rw [List.mem_singleton.mp new]
        exact aligned
    · rw [rangesSnoc,List.pairwise_append]
      refine ⟨h.apart,List.pairwise_singleton _ _,?_⟩
      intro s old t new
      rw [List.mem_singleton.mp new]
      have clear := free s.entry (by rw [h.map]; exact List.mem_map_of_mem old)
      have apart := (apartIff aligned (h.aligned s old)).mp clear
      exact fun a inS inNew => apart a inNew inS

theorem mappedRun {bus : SystemBus} {devices : List Registration} (h : Mapped bus devices) (calls : List Registration) :
    Mapped (machine.final bus calls) (devices ++ machine.history accepted bus calls) := by
  induction calls generalizing bus devices with
  | nil => simpa using h
  | cons r rest ih =>
    rw [finalCons,historyCons,← List.append_assoc]
    exact ih (mappedStep h r)

section Lookup
variable {bus : SystemBus} {devices : List Registration} (h : Mapped bus devices)
include h

theorem lookupSome {r : Range} (mem : r ∈ ranges devices) {addr : Word} (inside : r.Contains addr.toNat)
    (below : addr.toNat < 2 ^ 32 - 1) : bus.findDeviceId addr = some (r.id,addr - r.base) := by
  cases found : bus.memoryMap.find? fun entry => decide (addr ≥ entry.base) && decide (addr < entry.end) with
  | none =>
    have missed := List.find?_eq_none.mp found r.entry (by rw [h.map]; exact List.mem_map_of_mem mem)
    exact absurd ((entryHolds r addr).mpr ⟨inside,below⟩) missed
  | some entry =>
    have listed := List.mem_of_find?_eq_some found
    rw [h.map] at listed
    obtain ⟨s,memS,rfl⟩ := List.mem_map.mp listed
    have holds : (decide (addr ≥ s.entry.base) && decide (addr < s.entry.end)) = true := by
      simpa using List.find?_some found
    -- two ranges with a common address are one
    have same : r = s := Decidable.byContradiction fun other =>
      h.apart.forall mem memS other addr.toNat inside ((entryHolds s addr).mp holds).1
    rw [SystemBus.findDeviceId,found,same]
    rfl

theorem lookupNone {addr : Word} (outside : ∀ r ∈ ranges devices, ¬ (r.Contains addr.toNat ∧ addr.toNat < 2 ^ 32 - 1)) :
    bus.findDeviceId addr = none := by
  rw [SystemBus.findDeviceId,Option.map_eq_none_iff,List.find?_eq_none]
  intro entry listed holds
  rw [h.map] at listed
  obtain ⟨r,mem,rfl⟩ := List.mem_map.mp listed
  exact outside r mem ((entryHolds r addr).mp holds)

theorem routedIff {r : Range} (mem : r ∈ ranges devices) : Routed bus r ↔ r.BelowTop := by
  have nonempty := (h.aligned r mem).nonempty
  constructor
  · refine fun routed => Nat.lt_of_not_le fun top => ?_
    have bound := r.base.isLt
    have last : r.Contains (BitVec.allOnes 32).toNat := by
      rw [BitVec.toNat_allOnes]
      exact ⟨by omega,by omega⟩
    have missed : bus.findDeviceId (BitVec.allOnes 32) = none :=
      lookupNone h fun s _ holds => absurd holds.2 (by decide)
    exact Option.some_ne_none _ ((routed _ last).symm.trans missed)
  · intro below addr inside
    have under := inside.2
    unfold Range.BelowTop at below
    exact lookupSome h mem inside (by omega)

theorem routesIff : Routes bus (ranges devices) ↔ ∀ r ∈ ranges devices, r.BelowTop := by
  constructor
  · exact fun routes r mem => (routedIff h mem).mp (routes.routed r mem)
  · intro below
    exact ⟨h.apart,fun r mem => (routedIff h mem).mpr (below r mem),
      fun addr outside => lookupNone h fun r mem holds => outside r mem holds.1⟩

end Lookup

theorem belowTopIff (devices : List Registration) :
    (∀ r ∈ ranges devices, r.BelowTop) ↔ ∀ r ∈ devices, r.baseAddr.toNat + r.device.size.toNat < 2 ^ 32 := by
  have internal : ∀ r ∈ internalRanges, r.BelowTop := by
    intro r mem
    simp only [internalRanges,List.mem_cons,List.not_mem_nil,or_false] at mem
    rcases mem with rfl | rfl
    · unfold Range.BelowTop
      decide
    · unfold Range.BelowTop
      decide
  constructor
  · intro below r mem
    obtain ⟨k,inside,rfl⟩ := List.mem_iff_getElem.mp mem
    exact below ⟨.external k,devices[k].baseAddr,devices[k].device.size⟩
      (List.mem_append_right _ (List.mem_mapIdx.mpr ⟨k,inside,rfl⟩))
  · intro below r mem
    rcases List.mem_append.mp mem with own | registered
    · exact internal r own
    · obtain ⟨k,inside,rfl⟩ := List.mem_mapIdx.mp registered
      exact below _ (List.getElem_mem inside)

theorem acceptedSubset (bus : SystemBus) (calls : List Registration) :
    ∀ r ∈ machine.history accepted bus calls, r ∈ calls := by
  induction calls generalizing bus with
  | nil => simp
  | cons c rest ih =>
    intro r mem
    rcases List.mem_append.mp mem with now | later
    · have spec := registerSpec bus c
      generalize machine.next bus c = bus' at spec
      generalize accepted bus c = added at spec now
      cases spec with
      | refused => contradiction
      | added => exact List.mem_cons.mpr (.inl (List.mem_singleton.mp now))
    · exact List.mem_cons_of_mem _ (ih _ r later)

/- After any calls the ranges are disjoint, no other address is routed, and a range is routed whole
just when it ends below the top; so the bus keeps its promise in every run of calls that do. -/
theorem devicesRouted (calls : List Registration) :
    let bus := machine.final .new calls
    let devices := machine.history accepted .new calls
    (ranges devices).Pairwise Range.Apart ∧
    (∀ addr : Word, (∀ r ∈ ranges devices, ¬ r.Contains addr.toNat) → bus.findDeviceId addr = none) ∧
    (∀ r ∈ ranges devices, Routed bus r ↔ r.BelowTop) ∧
    (Routes bus (ranges devices) ↔ ∀ r ∈ devices, r.baseAddr.toNat + r.device.size.toNat < 2 ^ 32) ∧
    ((∀ r ∈ calls, r.baseAddr.toNat + r.device.size.toNat < 2 ^ 32) → Routes bus (ranges devices)) := by
  intro bus devices
  have h : Mapped bus devices := mappedRun mappedNew calls
  have precise := (routesIff h).trans (belowTopIff devices)
  refine ⟨h.apart,?_,fun r mem => routedIff h mem,precise,?_⟩
  · exact fun addr outside => lookupNone h fun r mem holds => outside r mem holds.1
  · exact fun below => precise.mpr fun r mem => below r (acceptedSubset _ calls r mem)

def topDevice : Registration := ⟨0xFFFFFFFC,⟨4,"Top"⟩⟩

/- A device in the last word of the address space is accepted and loses its last byte. -/
theorem topByteUnrouted : machine.history accepted .new [topDevice] = [topDevice] ∧
    (machine.final .new [topDevice]).findDeviceId 0xFFFFFFFE = some (.external 0,2) ∧
    (machine.final .new [topDevice]).findDeviceId 0xFFFFFFFF = none ∧
    ¬ Routes (machine.final .new [topDevice]) (ranges [topDevice]) := by
  refine ⟨by decide,by decide,by decide,fun routes => ?_⟩
  have routed := routes.routed ⟨.external 0,0xFFFFFFFC,4⟩ (by decide) 0xFFFFFFFF (by unfold Range.Contains; decide)
  exact absurd routed (by decide)

end RiscvSoc.Devices
