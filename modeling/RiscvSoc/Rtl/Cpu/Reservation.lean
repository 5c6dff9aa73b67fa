import Mathlib.Algebra.Group.Nat.Defs
import RiscvSoc.Rtl.Cpu.InstructionDelivery

/-! LR.W and SC.W. The reservation register is compared with the byte address of a store, so that
a store inside the reserved word at another address leaves the reservation standing. -/
namespace RiscvSoc.Core
open Mealy Machine

/- `bytes` bytes from `addr` on contain one of the word at `reserved`. -/
def touches (reserved addr : BitVec 32) (bytes : Nat) : Bool :=
  (List.range 4).any fun j => (List.range bytes).any fun k => reserved + BitVec.ofNat 32 j == addr + BitVec.ofNat 32 k

theorem touchesItself (addr : BitVec 32) (bytes : Nat) (positive : 0 < bytes) : touches addr addr bytes = true := by
  simp only [touches,List.any_eq_true,List.mem_range,beq_iff_eq]
  exact ⟨0,by omega,0,positive,rfl⟩

namespace Regs

def accessBytes (s : Regs) : Nat := 2 ^ (s.dec.funct3.extractLsb' 0 2).toNat
def lrDone (s : Regs) (i : Inputs) : Bool := s.dec.isLr && s.currentState == .memRead && s.dmemReady i
def scDone (s : Regs) (i : Inputs) : Bool := s.dec.isSc && s.currentState == .memWrite && s.dmemReady i

def stores (s : Regs) : Bool := s.dmemWe && !s.dec.isSc
def storeDone (s : Regs) (i : Inputs) : Bool := s.stores && s.dmemReady i

end Regs

/- The CPU and the word that its program has reserved: the word of the last LR.W, until an SC.W or
a write to one of its bytes. -/
structure Reserving where
  core : Regs
  reserved : Option (BitVec 32)

def reservedNext (s : Regs) (i : Inputs) (reserved : Option (BitVec 32)) : Option (BitVec 32) :=
  if s.lrDone i then some s.aluOutReg
  else if s.scDone i then none
  else if s.storeDone i && reserved.any fun a => touches a s.aluOutReg s.accessBytes then none
  else reserved

def Reserving.next (cfg : Config) (h : Reserving) (i : Inputs) : Reserving :=
  ⟨h.core.next cfg i,reservedNext h.core i h.reserved⟩

def reserving (cfg : Config) : Machine Reserving Inputs Outputs := ⟨fun h i => h.core.outputs i,Reserving.next cfg⟩

/- A store into the word that the register holds has the very address of it. -/
def Whole (h : Reserving) (_ : Inputs) : Prop :=
  h.core.reservationValid = true → h.core.stores = true →
    touches h.core.reservationAddr h.core.aluOutReg h.core.accessBytes = true → h.core.aluOutReg = h.core.reservationAddr

instance (h : Reserving) (i : Inputs) : Decidable (Whole h i) := inferInstanceAs (Decidable (_ = _ → _ = _ → _ = _ → _ = _))

structure Guarded (cfg : Config) (h : Reserving) : Prop extends Reached cfg h.core where
  held : h.core.reservationValid = true → h.reserved = some h.core.reservationAddr
  -- the register is cleared when a store begins, the reservation ends with the store
  lost : ∀ a, h.reserved = some a → h.core.reservationValid = true ∧ h.core.reservationAddr = a ∨
    h.core.stores = true ∧ h.core.aluOutReg = a

variable {cfg : Config} {s : Regs} {i : Inputs} {h : Reserving}

theorem reservationNext (cfg : Config) (s : Regs) (i : Inputs) : (s.next cfg i).reservationValid =
    (s.lrDone i || s.reservationValid && !s.scDone i && !(s.stores && s.reservationValid && s.aluOutReg == s.reservationAddr)) ∧
    (s.next cfg i).reservationAddr = if s.lrDone i then s.aluOutReg else s.reservationAddr := by
  refine ⟨?_,rfl⟩
  simp only [Regs.next,Regs.lrDone,Regs.scDone,Regs.stores]
  cases s.dmemWe <;> cases s.dec.isSc <;> simp

theorem storesIn (stores : s.stores = true) :
    (s.currentState = .memWrite ∨ s.currentState = .atomicRmw) ∧ s.dec.isSc = false := by
  simp only [Regs.stores,Regs.dmemWe,Bool.and_eq_true,Bool.or_eq_true,beq_iff_eq,Bool.not_eq_true'] at stores
  exact ⟨stores.1.1.2,stores.2⟩

theorem storesOn (cfg : Config) (stores : s.stores = true) (waits : s.dmemReady i = false) :
    (s.next cfg i).stores = true ∧ (s.next cfg i).aluOutReg = s.aluOutReg := by
  obtain ⟨state,plain⟩ := storesIn stores
  have same : s.nextState i = s.currentState := by
    rcases state with state | state <;> simp [Regs.nextState,state,waits]
  have decodes : s.currentState ≠ .decode := by
    rcases state with state | state <;> simp [state]
  have kept : (s.next cfg i).aluOutReg = s.aluOutReg := by
    rcases state with state | state <;> simp [Regs.next,Regs.aluOutWrite,state,waits]
  refine ⟨?_,kept⟩
  have dec : (s.next cfg i).dec = s.dec := by rw [decNext,if_neg decodes]
  simp only [Regs.stores,Regs.dmemWe,dec,stateNext,same,plain] at stores ⊢
  exact stores

theorem resetGuarded (s : Regs) : Guarded cfg ⟨reset s,none⟩ where
  toReached := resetReached s
  held h := by simp [reset] at h
  lost a h := by simp at h

theorem guardedNext (g : Guarded cfg h) (whole : Whole h i) : Guarded cfg (h.next cfg i) where
  toReached := reachedNext g.toReached i
  held valid := by
    obtain ⟨flag,address⟩ := reservationNext cfg h.core i
    simp only [Reserving.next] at valid ⊢
    rw [address,reservedNext]
    rw [flag] at valid
    rcases Bool.eq_false_or_eq_true (h.core.lrDone i) with loads | absent
    · rw [if_pos loads,if_pos loads]
    · simp only [absent,Bool.false_or,Bool.and_eq_true,Bool.not_eq_true'] at valid
      obtain ⟨⟨before,noSc⟩,misses⟩ := valid
      have held := g.held before
      rw [absent,noSc,if_neg Bool.false_ne_true,if_neg Bool.false_ne_true,if_neg Bool.false_ne_true,held]
      refine if_neg fun hits => ?_
      simp only [Regs.storeDone,Bool.and_eq_true,Option.any_some] at hits
      have same := whole before hits.1.1 hits.2
      simp [hits.1.1,before,same] at misses
  lost a reserved := by
    obtain ⟨flag,address⟩ := reservationNext cfg h.core i
    simp only [Reserving.next] at reserved ⊢
    rw [flag,address]
    rw [reservedNext] at reserved
    rcases Bool.eq_false_or_eq_true (h.core.lrDone i) with loads | absent
    · rw [if_pos loads] at reserved
      rw [loads,if_pos rfl]
      exact .inl ⟨rfl,Option.some.inj reserved⟩
    · rw [absent,if_neg Bool.false_ne_true] at reserved
      rw [absent,if_neg Bool.false_ne_true]
      rcases Bool.eq_false_or_eq_true (h.core.scDone i) with sc | noSc
      · rw [if_pos sc] at reserved
        contradiction
      rw [noSc,if_neg Bool.false_ne_true] at reserved
      split at reserved
      · contradiction
      rename_i missed
      -- a store under way to the reserved address has not been answered in this cycle
      have goesOn (stores : h.core.stores = true) (same : h.core.aluOutReg = a) :
          (h.core.next cfg i).stores = true ∧ (h.core.next cfg i).aluOutReg = a := by
        have waits : h.core.dmemReady i = false := by
          rcases Bool.eq_false_or_eq_true (h.core.dmemReady i) with ready | waits
          · refine absurd ?_ missed
            simp [Regs.storeDone,stores,ready,reserved,same,touchesItself a h.core.accessBytes (Nat.two_pow_pos _)]
          · exact waits
        obtain ⟨on,kept⟩ := storesOn cfg stores waits
        exact ⟨on,kept.trans same⟩
      rcases g.lost a reserved with ⟨valid,same⟩ | ⟨stores,same⟩
      · rcases Bool.eq_false_or_eq_true (h.core.stores && h.core.reservationValid && h.core.aluOutReg == h.core.reservationAddr) with
          hits | misses
        · simp only [Bool.and_eq_true,beq_iff_eq] at hits
          exact .inr (goesOn hits.1.1 (hits.2.trans same))
        · exact .inl ⟨by rw [misses,valid,noSc]; rfl,same⟩
      · exact .inr (goesOn stores same)

structure Conditional (cfg : Config) (h : Reserving) (i : Inputs) : Prop where
  request : h.core.currentState = .memWrite → h.core.dec.isSc = true →
    (h.core.access i).addr = h.core.aluOutReg ∧ (h.core.access i).wdata = h.core.bReg ∧
    ((h.core.access i).we = true ↔ h.reserved = some h.core.aluOutReg)
  returned : h.core.scDone i = true → (h.core.next cfg i).currentState = .writeback ∧
    (h.core.next cfg i).rdData = if h.reserved = some h.core.aluOutReg then 0 else 1

theorem succeeds (g : Guarded cfg h) (sc : h.core.dec.isSc = true) :
    h.core.scSuccess = true ↔ h.reserved = some h.core.aluOutReg := by
  simp only [Regs.scSuccess,Bool.and_eq_true,beq_iff_eq]
  constructor
  · rintro ⟨valid,same⟩
    rw [g.held valid,same]
  · intro reserved
    rcases g.lost _ reserved with held | ⟨stores,_⟩
    · exact held
    · rw [(storesIn stores).2] at sc
      contradiction

theorem guardedShows (g : Guarded cfg h) (i : Inputs) : Conditional cfg h i where
  request state sc := by
    have kind := (g.consistent (by rw [state]; rfl)).storeConditional sc
    have success := succeeds g sc
    have data : h.core.imemReq i = false ∧ h.core.dmemReq i = true := by simp [Regs.imemReq,Regs.dmemReq,state]
    simp only [Regs.access,data,Bool.false_eq_true,if_false,if_true]
    refine ⟨trivial,?_,?_⟩
    · simp [Regs.dmemWdata,state,kind]
    · simp [Regs.dmemWe,state,kind,sc,success]
  returned done := by
    simp only [Regs.scDone,Bool.and_eq_true,beq_iff_eq] at done
    obtain ⟨⟨sc,state⟩,ready⟩ := done
    have kind := (g.consistent (by rw [state]; rfl)).storeConditional sc
    have success := succeeds g sc
    have dec : (h.core.next cfg i).dec = h.core.dec := by rw [decNext,if_neg (by simp [state])]
    have latched : (h.core.next cfg i).scSuccessReg = h.core.scSuccess := by simp [Regs.next,state,sc,ready]
    refine ⟨by simp [Regs.nextState,state,ready,sc],?_⟩
    simp only [Regs.rdData,dec,latched,sc,kind]
    simp [success]

/- Over every run whose stores into a reserved word have its address, SC.W stores and returns 0
exactly for the word that the program has reserved. -/
theorem reservationSound (cfg : Config) (s : Regs) (inputs : List Inputs)
    (whole : (reserving cfg).Steps Whole ⟨reset s,none⟩ inputs) :
    (reserving cfg).Steps (Conditional cfg) ⟨reset s,none⟩ inputs :=
  stepsAll (fun h i (g : Guarded cfg h) ok => ⟨guardedNext g ok,guardedShows g i⟩) (resetGuarded s) whole

/- Instructions from address 0 on, and a CPU whose base register has a word of the data memory. -/
def program (instructions : List (BitVec 32)) (a : BitVec 32) : BitVec 8 :=
  (instructions.getD (a.toNat / 4) 0).extractLsb' (8 * (a.toNat % 4)) 8
def based : Regs := reset { (default : Regs) with bankA := ⟨fun _ => 0x2000,0,0⟩ }

/- `lr.w`, then `sc.w`. -/
theorem pairSound : (reserving ⟨true,true⟩).Steps (Conditional ⟨true,true⟩) ⟨based,none⟩
    (drive ⟨true,true⟩ (program [0x1000A1AF,0x1820A22F]) 24 based) :=
  reservationSound ⟨true,true⟩ { (default : Regs) with bankA := ⟨fun _ => 0x2000,0,0⟩ } _ (by decide +kernel)

theorem notConditional (sc : h.core.scDone i = true) (ended : h.reserved = none)
    (zero : (h.core.next cfg i).rdData = 0) : ¬ Conditional cfg h i := by
  intro conditional
  have value := (conditional.returned sc).2
  rw [zero,ended] at value
  simp at value

/- `lr.w`, a store to the second byte of the reserved word, then `sc.w`: it stores and returns 0. -/
theorem byteStoreKept :
    let code := program [0x1000A1AF,0x002080A3,0x1820A22F]
    let h := (reserving ⟨true,true⟩).final ⟨based,none⟩ (drive ⟨true,true⟩ code 31 based)
    let i := respond code h.core
    h.core.scDone i = true ∧ h.reserved = none ∧ (h.core.access i).we = true ∧ (h.core.next ⟨true,true⟩ i).rdData = 0 ∧
      ¬ Conditional ⟨true,true⟩ h i :=
  ⟨by decide +kernel,by decide +kernel,by decide +kernel,by decide +kernel,
    notConditional (by decide +kernel) (by decide +kernel) (by decide +kernel)⟩

end RiscvSoc.Core
