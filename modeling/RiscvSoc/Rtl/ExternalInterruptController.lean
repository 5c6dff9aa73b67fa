import Mathlib.Algebra.Group.Nat.Defs
import Mathlib.Data.Nat.Log
import RiscvSoc.Lib.Mealy

/-! `external_interrupt_controller.sv`. `NUM_SOURCES` is `n`. -/
namespace RiscvSoc.ExternalInterruptController
open Mealy Machine

def sourceIdWidth (n : Nat) : Nat := if n ≤ 1 then 1 else Nat.clog 2 (n + 1)

def regRawStatus : BitVec 5 := 0x00
def regPending : BitVec 5 := 0x04
def regEnable : BitVec 5 := 0x08
def regClaim : BitVec 5 := 0x0C
def regComplete : BitVec 5 := 0x10
def regPendingSet : BitVec 5 := 0x14
def regPendingClr : BitVec 5 := 0x18
def regSourceCount : BitVec 5 := 0x1C

structure Inputs (n : Nat) where
  irqSources : BitVec n
  memAAddr : BitVec 32
  memAWdata : BitVec 32
  memAWe : Bool
  memASize : BitVec 2
  memAValid : Bool
  memDReady : Bool
  deriving DecidableEq, Repr

structure Regs (n : Nat) where
  pendingReg : BitVec n
  enableReg : BitVec n
  meip : Bool
  responseData : BitVec 32
  responsePending : Bool
  deriving DecidableEq, Repr

variable {n : Nat}

/- The response data keep what they have. -/
def reset (s : Regs n) : Regs n := {s with pendingReg := 0, enableReg := 0, meip := false, responsePending := false}

/- Loops over the sources from 0 up. -/
def decodeSourceId (n : Nat) (sourceId : BitVec 32) : BitVec n :=
  (List.range n).foldl (fun decoded idx =>
    if sourceId.toNat = idx + 1 then decoded ||| BitVec.twoPow n idx else decoded) 0

def lowestId (enabledPending : BitVec n) : BitVec (sourceIdWidth n) :=
  (List.range n).foldl (fun claimId idx =>
    if enabledPending.getLsbD idx && claimId == 0 then BitVec.ofNat _ (idx + 1) else claimId) 0

namespace Inputs
variable (i : Inputs n)

def wordAccess : Bool := i.memASize == 0b10 && i.memAAddr.extractLsb' 0 2 == 0
def register : BitVec 5 := i.memAAddr.extractLsb' 0 5

end Inputs

namespace Regs
variable (s : Regs n) (i : Inputs n)

def memAReady : Bool := !s.responsePending
def memAHandshake : Bool := i.memAValid && s.memAReady
def memDHandshake : Bool := s.responsePending && i.memDReady
def enabledPending : BitVec n := s.pendingReg &&& s.enableReg
def claimId : BitVec (sourceIdWidth n) := lowestId s.enabledPending

def writes (r : BitVec 5) : Bool := s.memAHandshake i && i.memAWe && i.wordAccess && i.register == r

def enableNext : BitVec n := if s.writes i regEnable then i.memAWdata.setWidth n else s.enableReg
def completionClearMask : BitVec n := if s.writes i regComplete then decodeSourceId n i.memAWdata else 0
def pendingSetMask : BitVec n := if s.writes i regPendingSet then i.memAWdata.setWidth n else 0
def pendingClearMask : BitVec n := if s.writes i regPendingClr then i.memAWdata.setWidth n else 0

def pendingNext : BitVec n :=
  (s.pendingReg &&& ~~~(s.pendingClearMask i ||| s.completionClearMask i)) ||| i.irqSources ||| s.pendingSetMask i

def readData : BitVec 32 :=
  if i.wordAccess && !i.memAWe then
    if i.register = regRawStatus then i.irqSources.setWidth 32
    else if i.register = regPending then s.pendingReg.setWidth 32
    else if i.register = regEnable then s.enableReg.setWidth 32
    else if i.register = regClaim then s.claimId.setWidth 32
    else if i.register = regSourceCount then BitVec.ofNat 32 n
    else 0
  else 0

def next : Regs n where
  pendingReg := s.pendingNext i
  enableReg := s.enableNext i
  meip := s.pendingNext i &&& s.enableNext i != 0
  responseData := if s.memAHandshake i then s.readData i else s.responseData
  responsePending := s.memAHandshake i || s.responsePending && !s.memDHandshake i

def clears (k : Nat) : Bool :=
  s.writes i regPendingClr && i.memAWdata.getLsbD k || s.writes i regComplete && decide (i.memAWdata.toNat = k + 1)

end Regs

structure Outputs where
  memAReady : Bool
  memDRdata : BitVec 32
  memDValid : Bool
  meip : Bool
  deriving DecidableEq, Repr

def machine : Machine (Regs n) (Inputs n) Outputs where
  output s _ := ⟨s.memAReady,s.responseData,s.responsePending,s.meip⟩
  next := Regs.next

theorem decodeBit (n : Nat) (sourceId : BitVec 32) {k : Nat} (source : k < n) :
    (decodeSourceId n sourceId).getLsbD k = decide (sourceId.toNat = k + 1) := by
  have loop (m : Nat) (present : m ≤ n) : ((List.range m).foldl (fun decoded idx =>
      if sourceId.toNat = idx + 1 then decoded ||| BitVec.twoPow n idx else decoded) 0).getLsbD k =
        decide (k < m ∧ sourceId.toNat = k + 1) := by
    induction m with
    | zero => simp
    | succ m ih =>
      rw [List.range_succ,List.foldl_append,List.foldl_cons,List.foldl_nil]
      split
      · rename_i here
        rw [BitVec.getLsbD_or,ih (by omega),BitVec.getLsbD_twoPow]
        by_cases same : m = k
        · simp [same,here,source]
        · have other : ¬ sourceId.toNat = k + 1 := by omega
          simp [same,other]
      · rename_i elsewhere
        rw [ih (by omega)]
        by_cases same : m = k
        · subst same
          simp [elsewhere]
        · have bound : k < m ↔ k < m + 1 := by omega
          simp only [bound]
  rw [decodeSourceId,loop n (Nat.le_refl n)]
  simp [source]

theorem idFits (n : Nat) : n < 2 ^ sourceIdWidth n := by
  unfold sourceIdWidth
  split
  · omega
  · exact Nat.lt_of_succ_le (Nat.le_pow_clog (by decide) (n + 1))

def Lowest (mask : BitVec n) (id : Nat) : Prop :=
  id = 0 ∧ (∀ k, mask.getLsbD k = false) ∨
    ∃ k < n, id = k + 1 ∧ mask.getLsbD k = true ∧ ∀ j < k, mask.getLsbD j = false

theorem lowestIdLowest (mask : BitVec n) : Lowest mask (lowestId mask).toNat := by
  have fits := idFits n
  have loop (m : Nat) (present : m ≤ n) :
      let found := (List.range m).foldl (fun claimId idx =>
        if mask.getLsbD idx && claimId == 0 then BitVec.ofNat (sourceIdWidth n) (idx + 1) else claimId) 0
      found = 0 ∧ (∀ k < m, mask.getLsbD k = false) ∨
        ∃ k < m, found.toNat = k + 1 ∧ mask.getLsbD k = true ∧ ∀ j < k, mask.getLsbD j = false := by
    induction m with
    | zero => exact .inl ⟨rfl,fun k below => absurd below (Nat.not_lt_zero k)⟩
    | succ m ih =>
      have before := ih (by omega)
      rw [List.range_succ,List.foldl_append,List.foldl_cons,List.foldl_nil]
      generalize (List.range m).foldl _ (0 : BitVec (sourceIdWidth n)) = found at before ⊢
      rcases before with ⟨zero,clear⟩ | ⟨k,below,value,set,first⟩
      · subst zero
        cases here : mask.getLsbD m with
        | true =>
          have small : m + 1 < 2 ^ sourceIdWidth n := by omega
          exact .inr ⟨m,Nat.lt_succ_self m,by simp [Nat.mod_eq_of_lt small],here,clear⟩
        | false =>
          refine .inl ⟨by simp,fun k below => ?_⟩
          rcases Nat.lt_succ_iff_lt_or_eq.mp below with earlier | last
          · exact clear k earlier
          · rw [last,here]
      · have kept : (found == 0) = false := beq_eq_false_iff_ne.mpr fun zero => by simp [zero] at value
        rw [kept,Bool.and_false,if_neg Bool.false_ne_true]
        exact .inr ⟨k,Nat.lt_succ_of_lt below,value,set,first⟩
  rcases loop n (Nat.le_refl n) with ⟨zero,clear⟩ | found
  · refine .inl ⟨congrArg BitVec.toNat zero,fun k => ?_⟩
    by_cases inside : k < n
    · exact clear k inside
    · exact BitVec.getLsbD_of_ge mask k (Nat.le_of_not_lt inside)
  · exact .inr found

variable (s : Regs n) (i : Inputs n)

theorem pendingBit {k : Nat} (source : k < n) : (s.next i).pendingReg.getLsbD k =
    (s.pendingReg.getLsbD k && !s.clears i k || i.irqSources.getLsbD k || (s.pendingSetMask i).getLsbD k) := by
  have cleared : (s.pendingClearMask i ||| s.completionClearMask i).getLsbD k = s.clears i k := by
    rw [BitVec.getLsbD_or,Regs.pendingClearMask,Regs.completionClearMask,Regs.clears]
    congr 1
    · cases s.writes i regPendingClr <;> simp [source]
    · cases s.writes i regComplete <;> simp [decodeBit n _ source]
  simp only [Regs.next,Regs.pendingNext,BitVec.getLsbD_or,BitVec.getLsbD_and,BitVec.getLsbD_not,cleared,source,
    decide_true,Bool.true_and]

def outputRight : Prop := s.meip = true ↔ ∃ k < n, s.pendingReg.getLsbD k = true ∧ s.enableReg.getLsbD k = true

theorem someBit (mask : BitVec n) : (mask != 0) = true ↔ ∃ k < n, mask.getLsbD k = true := by
  constructor
  · intro nonzero
    apply Decidable.byContradiction
    intro absent
    have zero : mask = 0 := by
      apply BitVec.eq_of_getLsbD_eq
      intro k source
      rw [show (0 : BitVec n).getLsbD k = false from BitVec.getLsbD_zero]
      exact Bool.eq_false_iff.mpr fun set => absent ⟨k,source,set⟩
    simp [zero] at nonzero
  · intro ⟨k,_,set⟩
    exact bne_iff_ne.mpr fun zero => by simp [zero] at set

theorem outputStep : outputRight (s.next i) := by
  unfold outputRight
  change (s.pendingNext i &&& s.enableNext i != 0) = true ↔ _
  rw [someBit]
  simp [Regs.next]

theorem outputReset : outputRight (reset s) := by
  simp [outputRight,reset]

def Regs.claims : Bool := s.memAHandshake i && i.wordAccess && !i.memAWe && i.register == regClaim

theorem claimStep (small : n ≤ 31) (claim : s.claims i = true) :
    Lowest s.enabledPending (s.next i).responseData.toNat ∧ (s.next i).responsePending = true ∧
    (s.next i).pendingReg = s.pendingReg ||| i.irqSources := by
  unfold Regs.claims at claim
  simp only [Bool.and_eq_true,Bool.not_eq_true',beq_iff_eq] at claim
  obtain ⟨⟨⟨accepted,word⟩,read⟩,register⟩ := claim
  have unwritten (r : BitVec 5) : s.writes i r = false := by simp [Regs.writes,read]
  have narrow : sourceIdWidth n ≤ 32 := by
    unfold sourceIdWidth
    split
    · decide
    · exact (Nat.clog_le_iff_le_pow (by decide)).mpr (by omega)
  have data : (s.next i).responseData = s.claimId.setWidth 32 := by
    simp only [Regs.next,accepted,if_true,Regs.readData,word,read,register]
    rfl
  refine ⟨?_,?_,?_⟩
  · rw [data,BitVec.toNat_setWidth_of_le narrow]
    exact lowestIdLowest s.enabledPending
  · simp [Regs.next,accepted]
  · simp [Regs.next,Regs.pendingNext,Regs.pendingClearMask,Regs.completionClearMask,Regs.pendingSetMask,unwritten]

theorem responseStep (waiting : s.responsePending = true) (unread : i.memDReady = false) :
    (s.next i).responsePending = true ∧ (s.next i).responseData = s.responseData := by
  have busy : s.memAHandshake i = false := by simp [Regs.memAHandshake,Regs.memAReady,waiting]
  simp [Regs.next,busy,Regs.memDHandshake,waiting,unread]

/- Over any run from a reset, for every source and every step: the output, an assertion that nothing loses,
a fall that something asked for, and a claim read. -/
theorem sourcesKept (small : n ≤ 31) (start : Regs n) (inputs : List (Inputs n)) :
    let s := machine.final (reset start) inputs
    outputRight s ∧
    (∀ i, ∀ k < n, (i.irqSources.getLsbD k = true → (s.next i).pendingReg.getLsbD k = true) ∧
      (s.pendingReg.getLsbD k = true → (s.next i).pendingReg.getLsbD k = false → s.clears i k = true)) ∧
    (∀ i, ∀ k < n, i.irqSources.getLsbD k = true →
      ∀ rest, machine.Steps (fun s i => s.clears i k = false) (s.next i) rest →
        (machine.final (s.next i) rest).pendingReg.getLsbD k = true) ∧
    ∀ i, s.claims i = true →
      (s.next i).pendingReg = s.pendingReg ||| i.irqSources ∧
      ∀ rest, machine.Steps (fun _ i => i.memDReady = false) (s.next i) rest →
        let read := machine.output (machine.final (s.next i) rest)
        ∀ j, (read j).memDValid = true ∧ Lowest s.enabledPending (read j).memDRdata.toNat := by
  intro s
  let pending (k : Nat) (t : Regs n) : Prop := t.pendingReg.getLsbD k = true
  have pendingStays {k : Nat} (source : k < n) (t : Regs n) (j : Inputs n) (set : pending k t)
      (uncleared : t.clears j k = false) : pending k (t.next j) := by
    change (t.next j).pendingReg.getLsbD k = true
    rw [pendingBit t j source,set,uncleared]
    rfl
  have asserted (i : Inputs n) {k : Nat} (source : k < n) (here : i.irqSources.getLsbD k = true) :
      pending k (s.next i) := by
    change (s.next i).pendingReg.getLsbD k = true
    rw [pendingBit s i source,here,Bool.or_true,Bool.true_or]
  refine ⟨?_,?_,?_,?_⟩
  · exact invariant (fun t j _ => outputStep t j) (outputReset start) inputs
  · intro i k source
    refine ⟨asserted i source,fun set fell => ?_⟩
    apply Decidable.byContradiction
    intro uncleared
    have stayed := pendingStays source s i set (Bool.eq_false_iff.mpr uncleared)
    exact Bool.false_ne_true (fell.symm.trans stayed)
  · intro i k source here rest untouched
    exact stepsInvariant (pendingStays source) (asserted i source here) untouched
  · intro i claim
    obtain ⟨lowest,waiting,kept⟩ := claimStep s i small claim
    refine ⟨kept,?_⟩
    intro rest unread read j
    have waits (t : Regs n) (j : Inputs n)
        (held : t.responsePending = true ∧ t.responseData = (s.next i).responseData) (unread : j.memDReady = false) :
        (t.next j).responsePending = true ∧ (t.next j).responseData = (s.next i).responseData := by
      obtain ⟨waits,same⟩ := responseStep t j held.1 unread
      exact ⟨waits,same.trans held.2⟩
    have held := stepsInvariant waits ⟨waiting,rfl⟩ unread
    refine ⟨held.1,?_⟩
    change Lowest s.enabledPending (machine.final (s.next i) rest).responseData.toNat
    rw [held.2]
    exact lowest

/- Four sources, two of them asserted and enabled when the claim register is read. -/
theorem sourcesKeptFour :
    let start : Regs 4 := ⟨0,0,false,0,false⟩
    let access (address data : BitVec 32) (we : Bool) : Inputs 4 := ⟨0,address,data,we,0b10,true,true⟩
    let s := machine.final (reset start) [access 0x08 0xF true,⟨0b1010,0,0,false,0,false,true⟩]
    s.claims (access 0x0C 0 false) = true ∧ Lowest s.enabledPending 2 ∧ outputRight s := by
  intro start access s
  obtain ⟨output,-,-,claim⟩ := sourcesKept (by decide) start [access 0x08 0xF true,⟨0b1010,0,0,false,0,false,true⟩]
  have claims : s.claims (access 0x0C 0 false) = true := by decide
  have read := ((claim (access 0x0C 0 false) claims).2 [] (by simp [Steps]) (access 0 0 false)).2
  have two : (machine.output (machine.final (s.next (access 0x0C 0 false)) []) (access 0 0 false)).memDRdata.toNat = 2 := by
    decide
  rw [two] at read
  exact ⟨claims,read,output⟩

end RiscvSoc.ExternalInterruptController
