import RiscvSoc.Rtl.RegisteredBusRouting

/-! What the bus owes its masters: the ledger of a whole run, and a measure that bounds how
long the requests of a run can keep the bus busy. -/
namespace RiscvSoc.RegisteredBus
open Mealy Crossbar

variable {m n : Nat} {map : Fin n → MapEntry} {s : Regs m n} {i : Inputs m n}

def AtRest (s : Regs m n) : Prop :=
  s.pendingReqValid = false ∧ (∀ x, s.slaveResponsePending x = false) ∧ ∀ k, s.masterMemDValid k = false

def Cooperative (s : Regs m n) (i : Inputs m n) : Prop :=
  (∀ x, s.slaveMemAValid x = true → i.slaveMemAReady x = true) ∧
  (∀ x, s.slaveResponsePending x = true → i.slaveMemDValid x = true) ∧
  ∀ k, s.masterMemDValid k = true → i.masterMemDReady k = true

instance (s : Regs m n) : Decidable (AtRest s) := inferInstanceAs (Decidable (_ ∧ _))
instance (s : Regs m n) (i : Inputs m n) : Decidable (Cooperative s i) := inferInstanceAs (Decidable (_ ∧ _))

def requestWork (s : Regs m n) : Nat :=
  if s.pendingReqValid then if slaveReqOutputActive s then 4 else if s.decodedReqValid then 5 else 6 else 0

def awaited (s : Regs m n) : Nat := (List.finRange n).countP s.slaveResponsePending

def work (s : Regs m n) : Nat :=
  requestWork s + 3 * awaited s + (!s.selectedRespSlaveValid).toNat + (masterRespOutputActive s).toNat

section Counting
variable {k : Nat}

theorem countSet {f : Fin k → Bool} {j : Fin k} (clear : f j = false) :
    (List.finRange k).countP (set f j true) = (List.finRange k).countP f + 1 := by
  have split : ∀ xs : List (Fin k), xs.Nodup →
      xs.countP (set f j true) = xs.countP f + if j ∈ xs then 1 else 0 := by
    intro xs
    induction xs with
    | nil => simp
    | cons x rest ih =>
      intro distinct
      obtain ⟨new,distinct⟩ := List.nodup_cons.mp distinct
      rw [List.countP_cons,List.countP_cons,ih distinct]
      by_cases here : j = x
      · subst here
        simp [clear,new]
      · have other : x ≠ j := fun h => here h.symm
        rw [setOther _ _ other]
        simp [here]
        omega
  rw [split _ (List.nodup_finRange k),if_pos (List.mem_finRange j)]

theorem countClear {f : Fin k → Bool} {j : Fin k} (held : f j = true) :
    (List.finRange k).countP (set f j false) + 1 = (List.finRange k).countP f := by
  have back : set (set f j false) j true = f := by
    funext x
    by_cases here : x = j
    · rw [here,setSame,held]
    · rw [setOther _ _ here,setOther _ _ here]
  have counted := countSet (f := set f j false) (j := j) (setSame f j false)
  rw [back] at counted
  exact counted.symm

end Counting

theorem awaitedStep (ok : Ok map s) (i : Inputs m n) :
    awaited (step map s i) + (slaveRespAccept map s i).toNat = awaited s + (slaveReqAccept s i).toNat := by
  have grown : (List.finRange n).countP (if slaveReqAccept s i
      then set s.slaveResponsePending s.activeSlaveReqIdx true else s.slaveResponsePending) =
      awaited s + (slaveReqAccept s i).toNat := by
    rcases Bool.eq_false_or_eq_true (slaveReqAccept s i) with asked | notAsked
    · have free := (activeIssued ok (slaveAcceptFacts ok asked).1).2.2.2.2.2
      rw [if_pos asked,countSet free,asked]
      rfl
    · rw [if_neg (by simp [notAsked]),notAsked]
      rfl
  rw [← grown]
  simp only [awaited,step]
  rcases Bool.eq_false_or_eq_true (slaveRespAccept map s i) with taking | notTaken
  · rw [if_pos taking,taking]
    refine countClear ?_
    have held := ok.selected (slaveRespFacts taking).1
    split
    · by_cases same : s.selectedRespSlaveIdx = s.activeSlaveReqIdx
      · rw [same,setSame]
      · rw [setOther _ _ same,held]
    · exact held
  · rw [if_neg (by simp [notTaken]),notTaken]
    rfl

theorem selectionStep (map : Fin n → MapEntry) (s : Regs m n) (i : Inputs m n) :
    (!(step map s i).selectedRespSlaveValid).toNat + (respSelectLoad s i).isSome.toNat =
      (!s.selectedRespSlaveValid).toNat + (slaveRespAccept map s i).toNat := by
  simp only [step]
  rcases Bool.eq_false_or_eq_true (slaveRespAccept map s i) with taking | notTaken
  · obtain ⟨selected,_,_,_,noLoad⟩ := slaveRespFacts taking
    simp [noLoad,taking,selected]
  · cases load : respSelectLoad s i with
    | none => simp [notTaken]
    | some x =>
      have free : s.selectedRespSlaveValid = false := by
        simp only [respSelectLoad] at load
        split at load
        · rename_i opened
          simp only [Bool.and_eq_true,Bool.not_eq_true'] at opened
          exact opened.1
        · contradiction
      simp [notTaken,free]

theorem outputStep (ok : Ok map s) (i : Inputs m n) :
    (masterRespOutputActive (step map s i)).toNat + (masterRespAccept s i).toNat =
      (masterRespOutputActive s).toNat + (slaveRespAccept map s i).toNat + (unmappedReqAccept map s).toNat := by
  have isReply (t : Regs m n) : (switch t).reply.isSome = masterRespOutputActive t := by
    simp only [switch]
    cases masterRespOutputActive t <;> rfl
  rw [← isReply,switchReply ok]
  rcases Bool.eq_false_or_eq_true (slaveRespAccept map s i) with taking | notTaken
  · obtain ⟨_,inactive,mapped,stays,_⟩ := slaveRespFacts taking
    simp [taking,inactive,mapped,stays]
  · rcases Bool.eq_false_or_eq_true (unmappedReqAccept map s) with refused | mapped
    · have inactive := (unmappedFacts ok refused).2.2
      simp [notTaken,refused,inactive,masterRespAccept]
    · rcases Bool.eq_false_or_eq_true (masterRespAccept s i) with leaving | stays
      · simp [notTaken,mapped,leaving,(masterRespFacts map leaving).1]
      · simp [notTaken,mapped,stays,isReply]

def advances (map : Fin n → MapEntry) (s : Regs m n) : Bool := decodeLoad s || (slaveReqLoad map s).isSome

theorem requestStep (ok : Ok map s) (i : Inputs m n) :
    requestWork (step map s i) + 4 * (slaveReqAccept s i).toNat + 5 * (unmappedReqAccept map s).toNat +
      (advances map s && !unmappedReqAccept map s).toNat ≤
    requestWork s + 6 * (masterReqAccept s i).toNat := by
  have atMost (t : Regs m n) : requestWork t ≤ 6 := by
    simp only [requestWork]
    split <;> (try split) <;> (try split) <;> omega
  rcases Bool.eq_false_or_eq_true s.pendingReqValid with pending | free
  · have quiet : masterReqAccept s i = false := by simp [masterReqAccept,pending]
    rcases Bool.eq_false_or_eq_true (slaveReqAccept s i) with asked | notAsked
    · obtain ⟨active,_,mapped⟩ := slaveAcceptFacts ok asked
      have still : advances map s = false := by
        have noLoad : slaveReqLoad map s = none := by
          cases load : slaveReqLoad map s with
          | none => rfl
          | some x => simp [(loadFacts ok load).2.2.1] at active
        simp [advances,decodeLoad,active,noLoad]
      have gone : (step map s i).pendingReqValid = false := by simp [step,asked]
      simp [requestWork,gone,pending,active,asked,mapped,still,quiet]
    · rcases Bool.eq_false_or_eq_true (unmappedReqAccept map s) with refused | mapped
      · have nowhere := (unmappedFacts ok refused).2.1
        have inactive : slaveReqOutputActive s = false := Bool.eq_false_iff.mpr fun active => by
          simp [(activeIssued ok active).2.2.2.1] at nowhere
        have gone : (step map s i).pendingReqValid = false := by simp [step,refused]
        simp only [requestWork,gone,pending,inactive,refused,notAsked,quiet,Bool.false_eq_true,if_false,if_true,
          Bool.toNat_true,Bool.toNat_false,Bool.not_true,Bool.and_false]
        split <;> omega
      · obtain ⟨pending',_,_,decoded'⟩ := pendingHeld (i := i) pending notAsked mapped
        simp only [notAsked,mapped,quiet,Bool.toNat_false,Bool.not_false,Bool.and_true]
        cases load : slaveReqLoad map s with
        | some x =>
          have inactive := (loadFacts ok load).2.2.1
          have active' : slaveReqOutputActive (step map s i) = true := by
            refine someIff.mpr ⟨x,?_⟩
            simp [step,load,notAsked]
          simp only [requestWork,pending',active',pending,inactive,advances,load,Option.isSome_some,Bool.or_true,
            Bool.toNat_true,if_true,Bool.false_eq_true,if_false]
          split <;> omega
        | none =>
          have active' : slaveReqOutputActive (step map s i) = slaveReqOutputActive s := by
            have same : (step map s i).slaveMemAValid = s.slaveMemAValid := by simp [step,load,notAsked]
            exact congrArg anyOf same
          rcases Bool.eq_false_or_eq_true (decodeLoad s) with now | notNow
          · have before := now
            simp only [decodeLoad,pending,Bool.true_and,Bool.and_eq_true,Bool.not_eq_true'] at before
            simp [requestWork,pending',pending,active',decoded',advances,load,now,before.1,before.2]
          · simp [requestWork,pending',pending,active',decoded',advances,load,notNow]
  · have inactive : slaveReqOutputActive s = false := Bool.eq_false_iff.mpr fun active => by
      simp [(activeIssued ok active).2.1] at free
    have notAsked : slaveReqAccept s i = false := by simp [slaveReqAccept,inactive]
    have mapped : unmappedReqAccept map s = false := by simp [unmappedReqAccept,free]
    have still : advances map s = false := by
      have noLoad : slaveReqLoad map s = none := by
        cases load : slaveReqLoad map s with
        | none => rfl
        | some x => simp [(loadFacts ok load).1] at free
      simp [advances,decodeLoad,free,noLoad]
    have bound := atMost (step map s i)
    rcases Bool.eq_false_or_eq_true (masterReqAccept s i) with enters | quiet
    · simp only [notAsked,mapped,still,enters,Bool.toNat_false,Bool.toNat_true,Bool.false_and]
      omega
    · have gone : (step map s i).pendingReqValid = false := by simp [step,notAsked,mapped,quiet,free]
      simp [requestWork,gone,notAsked,mapped,still]

def moves (map : Fin n → MapEntry) (s : Regs m n) (i : Inputs m n) : Bool :=
  advances map s || slaveReqAccept s i || unmappedReqAccept map s || (respSelectLoad s i).isSome ||
    slaveRespAccept map s i || masterRespAccept s i

theorem workStep (ok : Ok map s) (i : Inputs m n) :
    work (step map s i) + (moves map s i).toNat ≤ work s + 6 * (accepted s i).length := by
  have request := requestStep ok i
  have waits := awaitedStep ok i
  have selection := selectionStep map s i
  have output := outputStep ok i
  have entered : (accepted s i).length = (masterReqAccept s i).toNat := by
    rw [acceptedIs]
    cases masterReqAccept s i <;> rfl
  rw [entered]
  simp only [work,moves]
  revert request waits selection output
  generalize advances map s = a
  generalize slaveReqAccept s i = b
  generalize unmappedReqAccept map s = c
  generalize (respSelectLoad s i).isSome = d
  generalize slaveRespAccept map s i = e
  generalize masterRespAccept s i = f
  intro request waits selection output
  cases a <;> cases b <;> cases c <;> cases d <;> cases e <;> cases f <;>
    simp only [Bool.toNat_false,Bool.toNat_true,Bool.not_false,Bool.not_true,Bool.and_true,Bool.and_false,
      Bool.or_true,Bool.or_false] at * <;> omega

theorem cooperativeMoves (ok : Ok map s) (coop : Cooperative s i) (busy : ¬ AtRest s) :
    moves map s i = true := by
  obtain ⟨ready,valid,taking⟩ := coop
  rcases Bool.eq_false_or_eq_true (masterRespOutputActive s) with active | inactive
  · have leaving : masterRespAccept s i = true := by
      rw [masterRespAccept,active,taking _ (activeReturning ok active)]
      rfl
    simp [moves,leaving]
  · have answers {x} (waits : s.slaveResponsePending x = true) : moves map s i = true := by
      rcases Bool.eq_false_or_eq_true s.selectedRespSlaveValid with selected | free
      · rcases Bool.eq_false_or_eq_true (unmappedReqAccept map s) with refused | mapped
        · simp [moves,refused]
        · have accept : slaveRespAccept map s i = true := by
            simp [slaveRespAccept,selected,inactive,mapped,valid _ (ok.selected selected)]
          simp [moves,accept]
      · have load : (respSelectLoad s i).isSome = true := by
          simp only [respSelectLoad,free,inactive,Bool.not_false,Bool.and_self,if_true]
          exact firstExists (x := x) (by simp [waits,valid x waits])
        simp [moves,load]
    rcases Bool.eq_false_or_eq_true s.pendingReqValid with pending | free
    · rcases Bool.eq_false_or_eq_true (slaveReqOutputActive s) with issued | notIssued
      · have asked : slaveReqAccept s i = true := by
          rw [slaveReqAccept,issued,ready _ (activeIssued ok issued).1]
          rfl
        simp [moves,asked]
      · rcases Bool.eq_false_or_eq_true s.decodedReqValid with decoded | new
        · cases target : route map s.pendingReq with
          | none =>
            have issue : issueDecoded map s = some none := by
              rw [issueDecoded,if_pos decoded,(ok.decoded decoded).2]
              exact congrArg some target
            have refused : unmappedReqAccept map s = true := by
              simp [unmappedReqAccept,pending,issue,inactive]
            simp [moves,refused]
          | some x =>
            have issue : issueDecoded map s = some (some x) := by
              rw [issueDecoded,if_pos decoded,(ok.decoded decoded).2]
              exact congrArg some target
            rcases Bool.eq_false_or_eq_true (s.slaveResponsePending x) with waits | opened
            · exact answers waits
            · have load : slaveReqLoad map s = some x := by
                simp [slaveReqLoad,issue,pending,notIssued,opened]
              simp [moves,advances,load]
        · have now : decodeLoad s = true := by simp [decodeLoad,pending,new,notIssued]
          simp [moves,advances,now]
    · refine Classical.byContradiction fun still => busy ⟨free,fun x => ?_,noneIff.mp inactive⟩
      exact Bool.eq_false_iff.mpr fun waits => still (answers waits)

/- The bus beside the log of its ports. -/
def logged (map : Fin n → MapEntry) : Machine (Regs m n × Record m n) (Inputs m n) (Outputs m n) where
  output c i := (machine map).output c.1 i
  next c i := (step map c.1 i,record map c.1 i c.2)

abbrev PoliteRun (map : Fin n → MapEntry) (s : Regs m n) (inputs : List (Inputs m n)) : Prop :=
  (logged map).Steps (fun c i => Polite c.1 i c.2) (reset s,Log.empty) inputs

def busyCycles (map : Fin n → MapEntry) (s : Regs m n) (inputs : List (Inputs m n)) : Nat :=
  ((logged map).trace (reset s,Log.empty) inputs).countP fun c =>
    decide (Cooperative c.1.1 c.2 ∧ ¬ AtRest c.1.1)

structure Serving (map : Fin n → MapEntry) (c : Regs m n × Record m n) : Prop where
  ok : Ok map c.1
  kept : ∃ before, Kept (route map) 0 (switch c.1) c.2 before

theorem servingStep {c : Regs m n × Record m n} (serving : Serving map c) (polite : Polite c.1 i c.2) :
    Serving map ((logged map).next c i) := by
  obtain ⟨_,kept⟩ := serving.kept
  exact ⟨okStep serving.ok i,runsKept kept (cycleRuns serving.ok polite)⟩

theorem resetServing (s : Regs m n) : Serving map (reset s,(Log.empty : Record m n)) := by
  have idle : switch (reset s) = State.idle := by
    ext1
    · rfl
    · rfl
    · have inactive : masterRespOutputActive (reset s) = false := noneIff.mpr fun _ => rfl
      simp [switch,inactive,State.idle]
  exact ⟨resetOk s,[],idle ▸ idleKept⟩

theorem servingRun (s : Regs m n) {inputs} (polite : PoliteRun map s inputs) :
    Serving map ((logged map).final (reset s,Log.empty) inputs) :=
  Machine.stepsInvariant (fun _ _ ok polite => servingStep ok polite) (resetServing s) polite

theorem workSpent {c : Regs m n × Record m n} (serving : Serving map c) (inputs) :
    work ((logged map).final c inputs).1 + ((logged map).trace c inputs).countP (fun c =>
      decide (Cooperative c.1.1 c.2 ∧ ¬ AtRest c.1.1)) + 6 * c.2.accepted.length ≤
    work c.1 + 6 * ((logged map).final c inputs).2.accepted.length := by
  have ok := serving.ok
  clear serving
  induction inputs generalizing c with
  | nil => simp
  | cons i rest ih =>
    have later := ih (c := (logged map).next c i) (okStep ok i)
    have now := workStep ok i
    have longer : ((logged map).next c i).2.accepted.length = c.2.accepted.length + (accepted c.1 i).length :=
      List.length_append
    have here : (if Cooperative c.1 i ∧ ¬ AtRest c.1 then 1 else 0) ≤ (moves map c.1 i).toNat := by
      split
      · rename_i both
        simp [cooperativeMoves ok both.1 both.2]
      · exact Nat.zero_le _
    rw [longer] at later
    simp only [Machine.traceCons,List.countP_cons,Machine.finalCons,decide_eq_true_eq]
    have there : ((logged map).next c i).1 = step map c.1 i := rfl
    rw [there] at later
    omega

theorem restIdle (rest : AtRest s) : switch s = State.idle := by
  obtain ⟨free,answered,silent⟩ := rest
  ext1
  · simp [switch,free,State.idle]
  · funext x
    simp [switch,answered,State.idle]
  · simp [switch,masterRespOutputActive,noneIff.mpr silent,State.idle]

/- In every run each accepted request reaches the first matching entry of the map once and
unmodified, or the bus answers it with zero; the answers of a master are those of its own
requests in their order; at rest none is missing; six moves a request bring the bus to rest. -/
theorem routedExactlyOnce (map : Fin n → MapEntry) (s : Regs m n) (inputs : List (Inputs m n))
    (polite : PoliteRun map s inputs) :
    let c := (logged map).final (reset s,Log.empty) inputs
    Ledger (route map) 0 c.2 ∧ (AtRest c.1 → Complete (route map) c.2) ∧
      busyCycles map s inputs ≤ 6 * c.2.accepted.length := by
  intro c
  have serving := servingRun s polite
  obtain ⟨before,kept⟩ := serving.kept
  refine ⟨ledger kept,fun rest => ?_,?_⟩
  · have idle := restIdle rest
    exact complete kept (by rw [idle]; rfl) (fun x => by rw [idle]; rfl) (by rw [idle]; rfl)
  · have spent : work c.1 + busyCycles map s inputs + 6 * 0 ≤ work (reset s) + 6 * c.2.accepted.length :=
      workSpent (resetServing s) inputs
    have start : work (reset s) = 1 := by
      have inactive : masterRespOutputActive (reset s) = false := noneIff.mpr fun _ => rfl
      have zero : awaited (reset s) = 0 := by simp [awaited,reset]
      rw [work,inactive,zero]
      rfl
    have remains : 1 ≤ work c.1 := by
      simp only [work]
      rcases Bool.eq_false_or_eq_true c.1.selectedRespSlaveValid with selected | free
      · have waits : 1 ≤ awaited c.1 := by
          refine List.one_le_countP_iff.mpr ⟨_,List.mem_finRange _,serving.ok.selected selected⟩
        omega
      · simp [free]
        omega
    rw [start] at spent
    omega

section Contention

def twoSlaves : Fin 2 → MapEntry := fun x => if x = 0 then ⟨0,4096⟩ else ⟨0x10000000,4096⟩

def zeroRegs : Regs 2 2 :=
  ⟨false,0,false,0,⟨0,0,false,0⟩,false,0,false,fun _ => false,fun _ => 0,false,0,0,0,fun _ => false,
    fun _ => 0,fun _ => false,fun _ => ⟨0,0,false,0⟩⟩

def cycle (asks : Fin 2 → Bool) (responds : Bool) : Inputs 2 2 where
  masterMemA k := if k = 0 then ⟨0x10000004,7,false,2⟩ else ⟨0x20000000,9,true,2⟩
  masterMemAValid := asks
  masterMemDReady _ := true
  slaveMemAReady _ := true
  slaveMemDRdata _ := 0xcafe
  slaveMemDValid x := responds && x = 1

def contended : List (Inputs 2 2) :=
  List.replicate 2 (cycle (fun _ => true) false) ++ List.replicate 5 (cycle (fun k => k = 1) false) ++
    List.replicate 4 (cycle (fun _ => false) true)

/- The answer from nowhere overtakes the one from the slave. -/
theorem contentionRouted :
    let c := (logged twoSlaves).final (reset zeroRegs,Log.empty) contended
    c.2.returned = [(1,0),(0,0xcafe)] ∧ Ledger (route twoSlaves) 0 c.2 ∧ Complete (route twoSlaves) c.2 := by
  have routed := routedExactlyOnce twoSlaves zeroRegs contended (by decide +kernel)
  exact ⟨by decide +kernel,routed.1,routed.2.1 (by decide +kernel)⟩

end Contention

end RiscvSoc.RegisteredBus
