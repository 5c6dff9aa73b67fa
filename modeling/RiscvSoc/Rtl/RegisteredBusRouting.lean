import RiscvSoc.Lib.Crossbar
import RiscvSoc.Rtl.RegisteredBus

/-! Every cycle of the registered bus is a run of at most two steps of the switch: one at its
response side, one at its request side. -/
namespace RiscvSoc.RegisteredBus
open Crossbar

variable {m n : Nat} {map : Fin n → MapEntry} {s : Regs m n} {i : Inputs m n}

section Selecting
variable {k : Nat} {α : Type}

theorem firstHolds {p : Fin k → Bool} {x} (found : first p = some x) : p x = true := List.find?_some found

theorem firstExists {p : Fin k → Bool} {x} (hit : p x = true) : (first p).isSome = true := by
  rw [first,List.find?_isSome]
  exact ⟨x,List.mem_finRange x,hit⟩

theorem someIff {p : Fin k → Bool} : anyOf p = true ↔ ∃ x, p x = true := by
  simp [anyOf,List.any_eq_true,List.mem_finRange]

theorem noneIff {p : Fin k → Bool} : anyOf p = false ↔ ∀ x, p x = false := by
  simp [anyOf,List.any_eq_false,List.mem_finRange]

@[simp] theorem setSame (f : Fin k → α) (j : Fin k) (a : α) : set f j a j = a := by simp [set]
theorem setOther (f : Fin k → α) {j l : Fin k} (a : α) (other : l ≠ j) : set f j a l = f l := by
  simp [set,other]

theorem handshakesOne {valid ready : Fin k → Bool} {data : Fin k → α} (j : Fin k)
    (only : ∀ l, (valid l && ready l) = true → l = j) :
    handshakes valid ready data = if valid j && ready j then [(j,data j)] else [] := by
  have filtered : ((List.finRange k).filter fun l => valid l && ready l) =
      if valid j && ready j then [j] else [] := by
    split
    · rename_i fires
      have same : (fun l => valid l && ready l) = fun l => l == j := by
        funext l
        rw [Bool.eq_iff_iff,beq_iff_eq]
        exact ⟨only l,fun h => by rw [h,fires]⟩
      rw [same,List.filter_beq,List.Nodup.count (List.nodup_finRange k),if_pos (List.mem_finRange j)]
      rfl
    · rename_i quiet
      rw [List.filter_eq_nil_iff]
      intro l _ fires
      exact quiet (only l fires ▸ fires)
  rw [handshakes,filtered]
  split <;> rfl

end Selecting

def route (map : Fin n → MapEntry) (r : Request) : Option (Fin n) := decode map r.addr

structure Ok (map : Fin n → MapEntry) (s : Regs m n) : Prop where
  issued : ∀ x, s.slaveMemAValid x = true → x = s.activeSlaveReqIdx ∧ s.pendingReqValid = true ∧
    s.decodedReqValid = true ∧ decode map s.pendingReq.addr = some x ∧ s.slaveMemA x = s.pendingReq ∧
    s.slaveResponsePending x = false
  decoded : s.decodedReqValid = true → s.pendingReqValid = true ∧
    (if s.decodedSlaveValid then some s.decodedSlaveIdx else none) = decode map s.pendingReq.addr
  selected : s.selectedRespSlaveValid = true → s.slaveResponsePending s.selectedRespSlaveIdx = true
  returning : ∀ k, s.masterMemDValid k = true → k = s.activeMasterRespIdx

theorem resetOk (s : Regs m n) : Ok map (reset s) := by constructor <;> simp [reset]

theorem activeIssued (ok : Ok map s) (active : slaveReqOutputActive s = true) :
    s.slaveMemAValid s.activeSlaveReqIdx = true ∧ s.pendingReqValid = true ∧ s.decodedReqValid = true ∧
    route map s.pendingReq = some s.activeSlaveReqIdx ∧ s.slaveMemA s.activeSlaveReqIdx = s.pendingReq ∧
    s.slaveResponsePending s.activeSlaveReqIdx = false := by
  obtain ⟨x,valid⟩ := someIff.mp active
  obtain ⟨rfl,pending,decoded,target,same,free⟩ := ok.issued x valid
  exact ⟨valid,pending,decoded,target,same,free⟩

theorem activeReturning (ok : Ok map s) (active : masterRespOutputActive s = true) :
    s.masterMemDValid s.activeMasterRespIdx = true := by
  obtain ⟨k,valid⟩ := someIff.mp active
  exact ok.returning k valid ▸ valid

theorem issuedRoute (ok : Ok map s) {target} (issue : issueDecoded map s = some target) :
    route map s.pendingReq = target := by
  simp only [issueDecoded] at issue
  split at issue
  · rename_i decoded
    rw [← Option.some.inj issue]
    exact (ok.decoded decoded).2.symm
  · split at issue
    · exact Option.some.inj issue
    · contradiction

theorem unmappedFacts (ok : Ok map s) (refused : unmappedReqAccept map s = true) :
    s.pendingReqValid = true ∧ route map s.pendingReq = none ∧ masterRespOutputActive s = false := by
  simp only [unmappedReqAccept,Bool.and_eq_true,Bool.not_eq_true',decide_eq_true_eq] at refused
  exact ⟨refused.1.1,issuedRoute ok refused.1.2,refused.2⟩

theorem loadFacts (ok : Ok map s) {x} (load : slaveReqLoad map s = some x) :
    s.pendingReqValid = true ∧ route map s.pendingReq = some x ∧ slaveReqOutputActive s = false ∧
    s.slaveResponsePending x = false ∧ (s.decodedReqValid || decodeLoad s) = true := by
  simp only [slaveReqLoad] at load
  split at load
  · rename_i y issue
    split at load
    · rename_i free
      simp only [Bool.and_eq_true,Bool.not_eq_true'] at free
      cases Option.some.inj load
      refine ⟨free.1.1,issuedRoute ok issue,free.1.2,free.2,?_⟩
      simp only [issueDecoded] at issue
      split at issue
      · rename_i decoded
        rw [decoded,Bool.true_or]
      · split at issue
        · rename_i now
          rw [now,Bool.or_true]
        · contradiction
    · contradiction
  · contradiction

theorem slaveAcceptFacts (ok : Ok map s) (accept : slaveReqAccept s i = true) :
    slaveReqOutputActive s = true ∧ s.pendingReqValid = true ∧ unmappedReqAccept map s = false := by
  simp only [slaveReqAccept,Bool.and_eq_true] at accept
  obtain ⟨_,pending,_,target,_⟩ := activeIssued ok accept.1
  refine ⟨accept.1,pending,Bool.eq_false_iff.mpr fun refused => ?_⟩
  rw [(unmappedFacts ok refused).2.1] at target
  contradiction

theorem masterAcceptFacts (ok : Ok map s) (accept : masterReqAccept s i = true) : s.pendingReqValid = false ∧
    slaveReqAccept s i = false ∧ unmappedReqAccept map s = false := by
  simp only [masterReqAccept,Bool.and_eq_true,Bool.not_eq_true'] at accept
  refine ⟨accept.1.2,Bool.eq_false_iff.mpr fun other => ?_,by simp [unmappedReqAccept,accept.1.2]⟩
  rw [(slaveAcceptFacts ok other).2.1] at accept
  exact absurd accept.1.2 (by simp)

theorem slaveRespFacts (taking : slaveRespAccept map s i = true) :
    s.selectedRespSlaveValid = true ∧ masterRespOutputActive s = false ∧ unmappedReqAccept map s = false ∧
    masterRespAccept s i = false ∧ respSelectLoad s i = none := by
  simp only [slaveRespAccept,Bool.and_eq_true,Bool.not_eq_true'] at taking
  exact ⟨taking.1.1.1,taking.1.1.2,taking.1.2,by simp [masterRespAccept,taking.1.1.2],
    by simp [respSelectLoad,taking.1.1.1]⟩

theorem masterRespFacts (map : Fin n → MapEntry) (taken : masterRespAccept s i = true) :
    masterRespOutputActive s = true ∧ unmappedReqAccept map s = false ∧ slaveRespAccept map s i = false := by
  simp only [masterRespAccept,Bool.and_eq_true] at taken
  exact ⟨taken.1,by simp [unmappedReqAccept,taken.1],by simp [slaveRespAccept,taken.1]⟩

theorem pendingHeld (pending : s.pendingReqValid = true) (kept : slaveReqAccept s i = false)
    (mapped : unmappedReqAccept map s = false) : (step map s i).pendingReqValid = true ∧
    (step map s i).pendingReq = s.pendingReq ∧ (step map s i).pendingReqMasterIdx = s.pendingReqMasterIdx ∧
    (step map s i).decodedReqValid = (s.decodedReqValid || decodeLoad s) := by
  have quiet : masterReqAccept s i = false := by simp [masterReqAccept,pending]
  refine ⟨by simp [step,kept,mapped,pending],by simp [step,quiet],by simp [step,quiet],?_⟩
  simp only [step,kept,mapped,Bool.or_self,Bool.false_eq_true,if_false]
  cases decodeLoad s <;> simp

section Cycle

theorem issuedStep (ok : Ok map s) (x) (valid : (step map s i).slaveMemAValid x = true) :
    x = (step map s i).activeSlaveReqIdx ∧ (step map s i).pendingReqValid = true ∧
    (step map s i).decodedReqValid = true ∧ decode map (step map s i).pendingReq.addr = some x ∧
    (step map s i).slaveMemA x = (step map s i).pendingReq ∧
    (step map s i).slaveResponsePending x = false := by
  have unanswered {y} (free : s.slaveResponsePending y = false) (kept : slaveReqAccept s i = false) :
      (step map s i).slaveResponsePending y = false := by
    simp only [step,kept,Bool.false_eq_true,if_false]
    split
    · by_cases same : y = s.selectedRespSlaveIdx
      · rw [same,setSame]
      · rw [setOther _ _ same,free]
    · exact free
  rcases Bool.eq_false_or_eq_true (slaveReqAccept s i) with accept | kept
  · obtain ⟨active,_,_⟩ := slaveAcceptFacts ok accept
    have noLoad : slaveReqLoad map s = none := by
      cases load : slaveReqLoad map s with
      | none => rfl
      | some y => exact absurd active (by simp [(loadFacts ok load).2.2.1])
    simp only [step,noLoad,accept,if_true] at valid
    by_cases same : x = s.activeSlaveReqIdx
    · simp [same] at valid
    · rw [setOther _ _ same] at valid
      exact absurd (ok.issued x valid).1 same
  · cases load : slaveReqLoad map s with
    | some y =>
      obtain ⟨pending,target,inactive,free,decoded⟩ := loadFacts ok load
      have mapped : unmappedReqAccept map s = false := Bool.eq_false_iff.mpr fun refused => by
        simp [(unmappedFacts ok refused).2.1] at target
      obtain ⟨pending',request',_,decoded'⟩ := pendingHeld (i := i) pending kept mapped
      simp only [step,load,kept,Bool.false_eq_true,if_false] at valid
      have here : x = y := by
        refine Classical.byContradiction fun other => ?_
        rw [setOther _ _ other,noneIff.mp inactive x] at valid
        contradiction
      subst here
      refine ⟨by simp [step,load],pending',by rw [decoded',decoded],by rw [request']; exact target,?_,
        unanswered free kept⟩
      rw [request']
      simp [step,load]
    | none =>
      simp only [step,load,kept,Bool.false_eq_true,if_false] at valid
      obtain ⟨here,pending,decoded,target,same,free⟩ := ok.issued x valid
      have mapped : unmappedReqAccept map s = false := Bool.eq_false_iff.mpr fun refused => by
        have := (unmappedFacts ok refused).2.1
        rw [route,target] at this
        contradiction
      obtain ⟨pending',request',_,decoded'⟩ := pendingHeld (i := i) pending kept mapped
      refine ⟨by simp [step,load,here],pending',by rw [decoded',decoded,Bool.true_or],by rw [request',target],?_,
        unanswered free kept⟩
      rw [request']
      simp [step,load,same]

theorem decodedStep (ok : Ok map s) (valid : (step map s i).decodedReqValid = true) :
    (step map s i).pendingReqValid = true ∧
    (if (step map s i).decodedSlaveValid then some (step map s i).decodedSlaveIdx else none) =
      decode map (step map s i).pendingReq.addr := by
  have kept : slaveReqAccept s i = false ∧ unmappedReqAccept map s = false := by
    simp only [step] at valid
    split at valid
    · contradiction
    · rename_i free
      simpa [not_or] using free
  rcases Bool.eq_false_or_eq_true (decodeLoad s) with load | noLoad
  · have pending : s.pendingReqValid = true := by
      simp only [decodeLoad,Bool.and_eq_true] at load
      exact load.1.1
    obtain ⟨pending',request',_⟩ := pendingHeld (i := i) pending kept.1 kept.2
    refine ⟨pending',?_⟩
    rw [request']
    cases target : decode map s.pendingReq.addr <;> simp [step,load,target]
  · have decoded : s.decodedReqValid = true := by
      simpa [step,kept.1,kept.2,noLoad] using valid
    obtain ⟨pending,target⟩ := ok.decoded decoded
    obtain ⟨pending',request',_⟩ := pendingHeld (i := i) pending kept.1 kept.2
    refine ⟨pending',?_⟩
    rw [request',← target]
    simp [step,noLoad]

theorem selectedStep (ok : Ok map s) (valid : (step map s i).selectedRespSlaveValid = true) :
    (step map s i).slaveResponsePending (step map s i).selectedRespSlaveIdx = true := by
  have grows {y} (pending : s.slaveResponsePending y = true) :
      (if slaveReqAccept s i then set s.slaveResponsePending s.activeSlaveReqIdx true
        else s.slaveResponsePending) y = true := by
    split
    · by_cases same : y = s.activeSlaveReqIdx
      · rw [same,setSame]
      · rw [setOther _ _ same,pending]
    · exact pending
  cases load : respSelectLoad s i with
  | some x =>
    have chosen := load
    simp only [respSelectLoad] at chosen
    split at chosen
    · rename_i free
      simp only [Bool.and_eq_true,Bool.not_eq_true'] at free
      have waits := firstHolds chosen
      simp only [Bool.and_eq_true] at waits
      have notTaken : slaveRespAccept map s i = false := by simp [slaveRespAccept,free.1]
      simp only [step,load,notTaken,Option.getD_some,Bool.false_eq_true,if_false]
      exact grows waits.1
    · contradiction
  | none =>
    simp only [step,load,Option.isSome_none,Bool.false_eq_true,if_false] at valid
    split at valid
    · contradiction
    · rename_i notTaken
      simp only [step,load,Option.getD_none,if_neg notTaken]
      exact grows (ok.selected valid)

theorem returningStep (ok : Ok map s) (k) (valid : (step map s i).masterMemDValid k = true) :
    k = (step map s i).activeMasterRespIdx := by
  rcases Bool.eq_false_or_eq_true (slaveRespAccept map s i) with taking | notTaken
  · obtain ⟨_,inactive,mapped,_⟩ := slaveRespFacts taking
    simp only [step,taking,mapped,Bool.false_and,Bool.false_eq_true,if_false,if_true] at valid ⊢
    refine Classical.byContradiction fun other => ?_
    rw [setOther _ _ other,noneIff.mp inactive k] at valid
    contradiction
  · rcases Bool.eq_false_or_eq_true (masterRespAccept s i) with leaving | stays
    · obtain ⟨_,mapped,_⟩ := masterRespFacts map leaving
      simp only [step,notTaken,leaving,mapped,Bool.false_and,Bool.false_eq_true,if_false,if_true] at valid ⊢
      by_cases same : k = s.activeMasterRespIdx
      · exact same
      · rw [setOther _ _ same] at valid
        exact ok.returning k valid
    · simp only [step,notTaken,stays,Bool.false_eq_true,if_false] at valid ⊢
      split
      · rename_i refused
        rw [if_pos refused] at valid
        simp only [Bool.and_eq_true] at refused
        refine Classical.byContradiction fun other => ?_
        rw [setOther _ _ other,noneIff.mp (unmappedFacts ok refused.1).2.2 k] at valid
        contradiction
      · rename_i mapped
        rw [if_neg mapped] at valid
        exact ok.returning k valid

theorem okStep (ok : Ok map s) (i : Inputs m n) : Ok map (step map s i) :=
  ⟨issuedStep ok,decodedStep ok,selectedStep ok,returningStep ok⟩

end Cycle

theorem acceptedIs (s : Regs m n) (i : Inputs m n) : accepted s i =
    if masterReqAccept s i then [(s.selectedMasterIdx,i.masterMemA s.selectedMasterIdx)] else [] := by
  rw [accepted,handshakesOne s.selectedMasterIdx]
  · congr 1
    rw [masterMemAReady,masterReqAccept,decide_eq_true rfl,Bool.and_true,Bool.and_comm]
  · intro l fires
    simp only [masterMemAReady,Bool.and_eq_true,decide_eq_true_eq] at fires
    exact fires.2.2

theorem takenIs (s : Regs m n) (i : Inputs m n) : taken map s i =
    if slaveRespAccept map s i then [(s.selectedRespSlaveIdx,i.slaveMemDRdata s.selectedRespSlaveIdx)]
    else [] := by
  rw [taken,handshakesOne s.selectedRespSlaveIdx]
  · congr 1
    rw [slaveMemDReady,slaveRespAccept,decide_eq_true rfl,Bool.and_true,Bool.and_comm]
  · intro l fires
    simp only [slaveMemDReady,Bool.and_eq_true,decide_eq_true_eq] at fires
    exact fires.2.2

theorem deliveredIs (ok : Ok map s) (i : Inputs m n) : delivered s i =
    if slaveReqAccept s i then [(s.activeSlaveReqIdx,s.pendingReq)] else [] := by
  rw [delivered,handshakesOne s.activeSlaveReqIdx]
  · rcases Bool.eq_false_or_eq_true (slaveReqOutputActive s) with active | inactive
    · obtain ⟨valid,_,_,_,same,_⟩ := activeIssued ok active
      rw [slaveReqAccept,valid,active,same]
    · simp [slaveReqAccept,inactive,noneIff.mp inactive]
  · intro l fires
    simp only [Bool.and_eq_true] at fires
    exact (ok.issued l fires.1).1

theorem returnedIs (ok : Ok map s) (i : Inputs m n) : returned s i =
    if masterRespAccept s i then [(s.activeMasterRespIdx,s.masterMemDRdata s.activeMasterRespIdx)]
    else [] := by
  rw [returned,handshakesOne s.activeMasterRespIdx]
  · rcases Bool.eq_false_or_eq_true (masterRespOutputActive s) with active | inactive
    · rw [masterRespAccept,activeReturning ok active,active]
    · simp [masterRespAccept,inactive,noneIff.mp inactive]
  · intro l fires
    simp only [Bool.and_eq_true] at fires
    exact ok.returning l fires.1

abbrev Switch (m n : Nat) := State (Fin m) (Fin n) Request Word
abbrev Record (m n : Nat) := Log (Fin m) (Fin n) Request Word

def switch (s : Regs m n) : Switch m n where
  pending := if s.pendingReqValid then some (s.pendingReqMasterIdx,s.pendingReq) else none
  waiting x := if s.slaveResponsePending x then some (s.slaveResponseMasterIdx x) else none
  reply := if masterRespOutputActive s
    then some (s.activeMasterRespIdx,s.masterMemDRdata s.activeMasterRespIdx) else none

def record (map : Fin n → MapEntry) (s : Regs m n) (i : Inputs m n) (l : Record m n) : Record m n where
  accepted := l.accepted ++ accepted s i
  delivered := l.delivered ++ delivered s i
  taken := l.taken ++ taken map s i
  returned := l.returned ++ returned s i

def Polite (s : Regs m n) (i : Inputs m n) (l : Record m n) : Prop :=
  ∀ a ∈ accepted s i, ofMaster a.1 l.accepted = (share (l.returned ++ returned s i) a.1).length

instance (s : Regs m n) (i : Inputs m n) (l : Record m n) : Decidable (Polite s i l) :=
  inferInstanceAs (Decidable (∀ _ ∈ _, _))

theorem switchPending (map : Fin n → MapEntry) (s : Regs m n) (i : Inputs m n) : (switch (step map s i)).pending =
    if slaveReqAccept s i || unmappedReqAccept map s then none
    else if masterReqAccept s i then some (s.selectedMasterIdx,i.masterMemA s.selectedMasterIdx)
    else (switch s).pending := by
  simp only [switch,step]
  rcases Bool.eq_false_or_eq_true (slaveReqAccept s i || unmappedReqAccept map s) with leaves | stays
  · simp [leaves]
  · rcases Bool.eq_false_or_eq_true (masterReqAccept s i) with enters | quiet
    · simp [stays,enters]
    · simp [stays,quiet]

theorem responsePendingStep (s : Regs m n) (i : Inputs m n) (x : Fin n) :
    (step map s i).slaveResponsePending x = (!(slaveRespAccept map s i && x = s.selectedRespSlaveIdx) &&
      ((slaveReqAccept s i && x = s.activeSlaveReqIdx) || s.slaveResponsePending x)) := by
  have asked : (if slaveReqAccept s i then set s.slaveResponsePending s.activeSlaveReqIdx true
      else s.slaveResponsePending) x =
      ((slaveReqAccept s i && x = s.activeSlaveReqIdx) || s.slaveResponsePending x) := by
    split
    · by_cases same : x = s.activeSlaveReqIdx <;> simp_all [set]
    · simp_all
  rw [← asked]
  simp only [step]
  split
  · by_cases same : x = s.selectedRespSlaveIdx <;> simp_all [set]
  · simp_all

theorem responseMasterStep (s : Regs m n) (i : Inputs m n) (x : Fin n) :
    (step map s i).slaveResponseMasterIdx x =
      if slaveReqAccept s i && x = s.activeSlaveReqIdx then s.pendingReqMasterIdx
      else s.slaveResponseMasterIdx x := by
  simp only [step]
  split
  · by_cases same : x = s.activeSlaveReqIdx <;> simp_all [set]
  · simp_all

theorem switchWaiting (map : Fin n → MapEntry) (s : Regs m n) (i : Inputs m n) (x : Fin n) :
    (switch (step map s i)).waiting x =
    if slaveRespAccept map s i && x = s.selectedRespSlaveIdx then none
    else if slaveReqAccept s i && x = s.activeSlaveReqIdx then some s.pendingReqMasterIdx
    else (switch s).waiting x := by
  simp only [switch,responsePendingStep,responseMasterStep]
  rcases Bool.eq_false_or_eq_true (slaveRespAccept map s i && x = s.selectedRespSlaveIdx) with gone | there
  · simp [gone]
  · rcases Bool.eq_false_or_eq_true (slaveReqAccept s i && x = s.activeSlaveReqIdx) with new | old
    · simp [there,new]
    · simp [there,old]

theorem switchReply (ok : Ok map s) (i : Inputs m n) : (switch (step map s i)).reply =
    if slaveRespAccept map s i then some (selectedRespMasterIdx s,i.slaveMemDRdata s.selectedRespSlaveIdx)
    else if unmappedReqAccept map s then some (s.pendingReqMasterIdx,0)
    else if masterRespAccept s i then none
    else (switch s).reply := by
  have ok' := okStep ok i
  have known {k d} (valid : (step map s i).masterMemDValid k = true)
      (data : (step map s i).masterMemDRdata k = d) : (switch (step map s i)).reply = some (k,d) := by
    have here := ok'.returning k valid
    subst data
    rw [switch,masterRespOutputActive,if_pos (someIff.mpr ⟨k,valid⟩),← here]
  have silent (quiet : ∀ k, (step map s i).masterMemDValid k = false) : (switch (step map s i)).reply = none := by
    simp [switch,masterRespOutputActive,noneIff.mpr quiet]
  rcases Bool.eq_false_or_eq_true (slaveRespAccept map s i) with taking | notTaken
  · rw [if_pos taking]
    obtain ⟨_,_,mapped,_⟩ := slaveRespFacts taking
    exact known (by simp [step,taking]) (by simp [step,taking])
  · rw [if_neg (by simp [notTaken])]
    rcases Bool.eq_false_or_eq_true (unmappedReqAccept map s) with refused | mapped
    · rw [if_pos refused]
      have inactive := (unmappedFacts ok refused).2.2
      have kept : slaveReqAccept s i = false := Bool.eq_false_iff.mpr fun accept => by
        simp [(slaveAcceptFacts ok accept).2.2] at refused
      have stays : masterRespAccept s i = false := by simp [masterRespAccept,inactive]
      exact known (by simp [step,notTaken,refused,kept,stays]) (by simp [step,notTaken,refused,kept])
    · rw [if_neg (by simp [mapped])]
      rcases Bool.eq_false_or_eq_true (masterRespAccept s i) with leaving | stays
      · rw [if_pos leaving]
        refine silent fun k => ?_
        simp only [step,notTaken,mapped,leaving,Bool.false_and,Bool.false_eq_true,if_false,if_true]
        by_cases same : k = s.activeMasterRespIdx
        · rw [same,setSame]
        · rw [setOther _ _ same]
          exact Bool.eq_false_iff.mpr fun valid => same (ok.returning k valid)
      · rw [if_neg (by simp [stays])]
        have valid : (step map s i).masterMemDValid = s.masterMemDValid := by
          simp [step,notTaken,mapped,stays]
        have data : (step map s i).masterMemDRdata = s.masterMemDRdata := by simp [step,notTaken,mapped]
        have owner : (step map s i).activeMasterRespIdx = s.activeMasterRespIdx := by
          simp [step,notTaken,mapped]
        have active : masterRespOutputActive (step map s i) = masterRespOutputActive s := congrArg anyOf valid
        simp only [switch,active,data,owner]

/- What the response side makes of a switch. -/
def respond (map : Fin n → MapEntry) (s : Regs m n) (i : Inputs m n) : Switch m n :=
  if slaveRespAccept map s i then {switch s with
    waiting := fun x => if x = s.selectedRespSlaveIdx then none else (switch s).waiting x
    reply := some (selectedRespMasterIdx s,i.slaveMemDRdata s.selectedRespSlaveIdx)}
  else if masterRespAccept s i then {switch s with reply := none}
  else switch s

theorem respondPending (s : Regs m n) (i : Inputs m n) :
    (respond map s i).pending = (switch s).pending := by
  simp only [respond]
  split
  · rfl
  · split <;> rfl

theorem respondWaiting (s : Regs m n) (i : Inputs m n) (x : Fin n) : (respond map s i).waiting x =
    if slaveRespAccept map s i && x = s.selectedRespSlaveIdx then none else (switch s).waiting x := by
  simp only [respond]
  split
  · rename_i taking
    simp [taking]
  · rename_i notTaken
    simp only [Bool.eq_false_iff.mpr notTaken,Bool.false_and,Bool.false_eq_true,if_false]
    split <;> rfl

theorem respondReply (s : Regs m n) (i : Inputs m n) : (respond map s i).reply =
    if slaveRespAccept map s i then some (selectedRespMasterIdx s,i.slaveMemDRdata s.selectedRespSlaveIdx)
    else if masterRespAccept s i then none else (switch s).reply := by
  simp only [respond]
  split
  · rfl
  · split <;> rfl

theorem respondRuns (ok : Ok map s) (i : Inputs m n) (l : Record m n) :
    Runs (route map) 0 (switch s) l (respond map s i)
      {l with taken := l.taken ++ taken map s i, returned := l.returned ++ returned s i} := by
  rw [takenIs,returnedIs ok,respond]
  rcases Bool.eq_false_or_eq_true (slaveRespAccept map s i) with taking | notTaken
  · obtain ⟨selected,inactive,_,stays,_⟩ := slaveRespFacts taking
    simp only [taking,stays,if_true,Bool.false_eq_true,if_false,List.append_nil]
    refine .one (.answer _ _ ?_ ?_)
    · simp [switch,ok.selected selected,selectedRespMasterIdx]
    · simp [switch,inactive]
  · simp only [notTaken,Bool.false_eq_true,if_false,List.append_nil]
    rcases Bool.eq_false_or_eq_true (masterRespAccept s i) with leaving | stays
    · simp only [leaving,if_true]
      refine .one (.finish ?_)
      simp [switch,(masterRespFacts map leaving).1]
    · simp only [stays,Bool.false_eq_true,if_false,List.append_nil]
      exact .same

theorem switchStep (ok : Ok map s) (i : Inputs m n) : switch (step map s i) =
    if slaveReqAccept s i then {respond map s i with
      pending := none
      waiting := fun x => if x = s.activeSlaveReqIdx then some s.pendingReqMasterIdx
        else (respond map s i).waiting x}
    else if unmappedReqAccept map s then {respond map s i with
      pending := none
      reply := some (s.pendingReqMasterIdx,0)}
    else if masterReqAccept s i then {respond map s i with
      pending := some (s.selectedMasterIdx,i.masterMemA s.selectedMasterIdx)}
    else respond map s i := by
  have waiting := switchWaiting map s i
  have reply := switchReply ok i
  have pending := switchPending map s i
  rcases Bool.eq_false_or_eq_true (slaveReqAccept s i) with asked | notAsked
  · obtain ⟨active,_,mapped⟩ := slaveAcceptFacts ok asked
    have free := (activeIssued ok active).2.2.2.2.2
    have apart : (slaveRespAccept map s i && s.activeSlaveReqIdx = s.selectedRespSlaveIdx) = false := by
      refine Bool.eq_false_iff.mpr fun both => ?_
      simp only [Bool.and_eq_true,decide_eq_true_eq] at both
      rw [both.2,ok.selected (slaveRespFacts both.1).1] at free
      contradiction
    rw [if_pos asked]
    ext1
    · simp [pending,asked]
    · funext x
      simp only [waiting,respondWaiting]
      by_cases here : x = s.activeSlaveReqIdx
      · subst here
        simp [apart,asked]
      · simp [here]
    · simp [reply,respondReply,mapped]
  · rcases Bool.eq_false_or_eq_true (unmappedReqAccept map s) with refused | mapped
    · have notTaken : slaveRespAccept map s i = false := Bool.eq_false_iff.mpr fun taking => by
        simp [(slaveRespFacts taking).2.2.1] at refused
      rw [if_neg (by simp [notAsked]),if_pos refused]
      ext1
      · simp [pending,refused]
      · funext x
        simp [waiting,respondWaiting,notAsked]
      · simp [reply,notTaken,refused]
    · rw [if_neg (by simp [notAsked]),if_neg (by simp [mapped])]
      rcases Bool.eq_false_or_eq_true (masterReqAccept s i) with enters | quiet
      · rw [if_pos enters]
        ext1
        · simp [pending,notAsked,mapped,enters]
        · funext x
          simp [waiting,respondWaiting,notAsked]
        · simp [reply,respondReply,mapped]
      · rw [if_neg (by simp [quiet])]
        ext1
        · simp [pending,notAsked,mapped,quiet,respondPending]
        · funext x
          simp [waiting,respondWaiting,notAsked]
        · simp [reply,respondReply,mapped]

theorem cycleRuns (ok : Ok map s) {l : Record m n} (polite : Polite s i l) :
    Runs (route map) 0 (switch s) l (switch (step map s i)) (record map s i l) := by
  have answers := respondRuns ok i l
  rw [record,acceptedIs,deliveredIs ok,switchStep ok]
  rcases Bool.eq_false_or_eq_true (slaveReqAccept s i) with asked | notAsked
  · obtain ⟨active,waits,mapped⟩ := slaveAcceptFacts ok asked
    obtain ⟨_,_,_,target,_,free⟩ := activeIssued ok active
    have quiet : masterReqAccept s i = false := by simp [masterReqAccept,waits]
    simp only [asked,quiet,if_true,Bool.false_eq_true,if_false,List.append_nil]
    refine .more answers (.forward _ ?_ target ?_)
    · simp [respondPending,switch,waits]
    · simp [respondWaiting,switch,free]
  · rcases Bool.eq_false_or_eq_true (unmappedReqAccept map s) with refused | mapped
    · obtain ⟨waits,nowhere,inactive⟩ := unmappedFacts ok refused
      have notTaken : slaveRespAccept map s i = false := Bool.eq_false_iff.mpr fun taking => by
        simp [(slaveRespFacts taking).2.2.1] at refused
      have quiet : masterReqAccept s i = false := by simp [masterReqAccept,waits]
      simp only [notAsked,refused,quiet,if_true,Bool.false_eq_true,if_false,List.append_nil]
      refine .more answers (.refuse ?_ nowhere ?_)
      · simp [respondPending,switch,waits]
      · simp [respondReply,notTaken,masterRespAccept,inactive,switch]
    · rcases Bool.eq_false_or_eq_true (masterReqAccept s i) with enters | quiet
      · obtain ⟨free,_⟩ := masterAcceptFacts ok enters
        have turn := polite (s.selectedMasterIdx,i.masterMemA s.selectedMasterIdx) (by
          rw [acceptedIs,if_pos enters]
          exact List.mem_singleton_self _)
        simp only [notAsked,mapped,enters,if_true,Bool.false_eq_true,if_false,List.append_nil]
        refine .more answers (.accept _ _ ?_ turn)
        simp [respondPending,switch,free]
      · simp only [notAsked,mapped,quiet,Bool.false_eq_true,if_false,List.append_nil]
        exact answers

end RiscvSoc.RegisteredBus
