import RiscvSoc.Rtl.SyncFifo

/-! `sync_fifo.sv` as a bounded queue. -/
namespace RiscvSoc.SyncFifo
open Mealy Machine
variable {width ptrWidth : Nat}

structure Queue (s : Regs width ptrWidth) : Prop where
  bounded : s.count.toNat ≤ depth ptrWidth
  empty : s.count.toNat = 0 → s.outValid = false ∧ s.loadPendingStage1 = false ∧ s.loadPendingStage2 = false
  head : 0 < s.count.toNat → s.outValid = true ∨ s.loadPendingStage1 = true ∨ s.loadPendingStage2 = true
  single : s.outValid = true → s.loadPendingStage1 = false ∧ s.loadPendingStage2 = false
  refill : s.loadPendingStage2 = true → s.loadPendingStage1 = false
  behind : s.wrPtr = s.rdPtr + BitVec.ofNat ptrWidth (queued s)

theorem countOne : (1 : BitVec (ptrWidth + 1)).toNat = 1 := by
  have two : 1 < 2 ^ (ptrWidth + 1) := Nat.one_lt_two_pow (by omega)
  simp [Nat.mod_eq_of_lt two]

theorem depthCount : (BitVec.ofNat (ptrWidth + 1) (depth ptrWidth)).toNat = depth ptrWidth := by
  have fits : depth ptrWidth < 2 ^ (ptrWidth + 1) := Nat.pow_lt_pow_right (by omega) (by omega)
  simp [Nat.mod_eq_of_lt fits]

theorem readFires {s : Regs width ptrWidth} {i : Inputs width} (q : Queue s) (fires : rdFire s i = true) :
    s.outValid = true ∧ 0 < s.count.toNat := by
  have valid : s.outValid = true := by
    simp only [rdFire,Bool.and_eq_true] at fires
    exact fires.1
  refine ⟨valid,Nat.pos_of_ne_zero fun zero => ?_⟩
  simp [(q.empty zero).1] at valid

theorem wrReadyIff {s : Regs width ptrWidth} {i : Inputs width} (q : Queue s) :
    wrReady s i = false ↔ s.count.toNat = depth ptrWidth ∧ rdFire s i = false := by
  have bounded := q.bounded
  simp only [wrReady,Bool.or_eq_false_iff,decide_eq_false_iff_not,BitVec.lt_def,depthCount]
  constructor
  · rintro ⟨above,still⟩
    exact ⟨by omega,still⟩
  · rintro ⟨full,still⟩
    exact ⟨by omega,still⟩

theorem writeFires {s : Regs width ptrWidth} {i : Inputs width} (q : Queue s) (fires : wrFire s i = true) :
    s.count.toNat < depth ptrWidth ∨ rdFire s i = true := by
  simp only [wrFire,Bool.and_eq_true] at fires
  by_contra none
  simp only [not_or,Bool.not_eq_true] at none
  have bounded := q.bounded
  have blocked := (wrReadyIff (i := i) q).mpr ⟨by omega,none.2⟩
  simp [blocked] at fires

theorem room {s : Regs width ptrWidth} {i : Inputs width} (q : Queue s) :
    (rdFire s i).toNat ≤ s.count.toNat ∧
      s.count.toNat + (wrFire s i).toNat ≤ depth ptrWidth + (rdFire s i).toNat := by
  have bounded := q.bounded
  constructor
  · cases fires : rdFire s i with
    | false => simp
    | true => exact (readFires q fires).2
  · cases fires : wrFire s i with
    | false => simp only [Bool.toNat_false]; omega
    | true =>
      simp only [Bool.toNat_true]
      rcases writeFires q fires with below | reads
      · omega
      · rw [reads,Bool.toNat_true]; omega

theorem countStep {s : Regs width ptrWidth} {i : Inputs width} (q : Queue s) :
    (step s i).count.toNat + (rdFire s i).toNat = s.count.toNat + (wrFire s i).toNat := by
  have turn : 2 ^ (ptrWidth + 1) = 2 * depth ptrWidth := by rw [Nat.pow_succ,depth,Nat.mul_comm]
  have positive : 0 < depth ptrWidth := Nat.two_pow_pos _
  have bit (b : Bool) : (BitVec.ofNat (ptrWidth + 1) b.toNat).toNat = b.toNat := by
    have le := Bool.toNat_le b
    rw [BitVec.toNat_ofNat,turn,Nat.mod_eq_of_lt (by omega)]
  obtain ⟨down,up⟩ := room (i := i) q
  have le := Bool.toNat_le (rdFire s i)
  change (s.count + BitVec.ofNat _ (wrFire s i).toNat - BitVec.ofNat _ (rdFire s i).toNat).toNat + _ = _
  rw [BitVec.toNat_sub,BitVec.toNat_add,bit,bit,turn,Nat.add_mod_mod]
  have whole : 2 * depth ptrWidth - (rdFire s i).toNat + (s.count.toNat + (wrFire s i).toNat) =
      s.count.toNat + (wrFire s i).toNat - (rdFire s i).toNat + 2 * depth ptrWidth := by omega
  rw [whole,Nat.add_mod_right,Nat.mod_eq_of_lt (by omega)]
  omega

theorem directWriteEq (s : Regs width ptrWidth) (i : Inputs width) :
    directWrite s i = (wrFire s i && decide (s.count.toNat = (rdFire s i).toNat)) := by
  have zero : s.count = 0 ↔ s.count.toNat = 0 := by rw [← BitVec.toNat_inj]; rfl
  have one : s.count = 1 ↔ s.count.toNat = 1 := by rw [← BitVec.toNat_inj,countOne]
  simp only [directWrite,zero,one]
  cases fires : rdFire s i <;> simp

theorem startLoadEq (s : Regs width ptrWidth) (i : Inputs width) :
    startLoad s i = (rdFire s i && decide (1 < s.count.toNat)) := by
  simp only [startLoad,BitVec.lt_def,countOne]

theorem stagedStep {s : Regs width ptrWidth} {i : Inputs width} (q : Queue s) :
    staged (step s i) =
      if rdFire s i then
        if startLoad s i then [s.ram.mem s.rdPtr] else if wrFire s i then [i.wdata] else []
      else if s.count.toNat = 0 then if wrFire s i then [i.wdata] else []
      else staged s := by
  have direct := directWriteEq s i
  cases reads : rdFire s i with
  | true =>
    obtain ⟨valid,present⟩ := readFires q reads
    obtain ⟨first,second⟩ := q.single valid
    have load := startLoadEq s i
    simp only [reads,Bool.true_and,Bool.toNat_true] at direct load
    by_cases more : 1 < s.count.toNat
    · have same : s.count.toNat ≠ 1 := by omega
      simp [staged,step,stage,reads,direct,load,more,same,second,SyncDpram.readEdge,SyncDpram.writeEdge]
    · have same : s.count.toNat = 1 := by omega
      cases writes : wrFire s i <;>
        simp [staged,step,stage,reads,direct,load,same,writes,second]
  | false =>
    simp only [reads,Bool.toNat_false] at direct
    by_cases vacant : s.count.toNat = 0
    · obtain ⟨valid,first,second⟩ := q.empty vacant
      cases writes : wrFire s i <;>
        simp [staged,step,stage,reads,direct,vacant,writes,valid,first,second]
    · have head := q.head (by omega)
      simp only [staged,step,stage,reads,direct,vacant,Bool.and_false,decide_false]
      cases valid : s.outValid with
      | true =>
        obtain ⟨first,second⟩ := q.single valid
        simp [valid,first,second]
      | false =>
        cases second : s.loadPendingStage2 with
        | true => simp
        | false => simp_all [SyncDpram.readEdge,SyncDpram.writeEdge]

theorem ringStep {s : Regs width ptrWidth} {i : Inputs width} (q : Queue s) :
    Ring.entries s.ram.mem s.rdPtr (queued s) ++ (if ramWrite s i then [i.wdata] else []) =
      (if startLoad s i then [s.ram.mem s.rdPtr] else []) ++
        Ring.entries (step s i).ram.mem (step s i).rdPtr (queued (step s i)) ∧
    (step s i).wrPtr = (step s i).rdPtr + BitVec.ofNat ptrWidth (queued (step s i)) := by
  have count := countStep (i := i) q
  have behind := q.behind
  obtain ⟨down,up⟩ := room (i := i) q
  have small := Bool.toNat_le (wrFire s i)
  have write : ramWrite s i = (wrFire s i && !decide (s.count.toNat = (rdFire s i).toNat)) := by
    rw [ramWrite,directWriteEq]
    cases wrFire s i <;> simp
  have load := startLoadEq s i
  have mem : (step s i).ram.mem =
      if ramWrite s i then Function.update s.ram.mem s.wrPtr i.wdata else s.ram.mem := rfl
  have rdPtr : (step s i).rdPtr = if startLoad s i then s.rdPtr + 1 else s.rdPtr := rfl
  have wrPtr : (step s i).wrPtr = if ramWrite s i then s.wrPtr + 1 else s.wrPtr := rfl
  have snoc (n : Nat) : s.rdPtr + BitVec.ofNat ptrWidth n + 1 = s.rdPtr + BitVec.ofNat ptrWidth (n + 1) := by
    rw [BitVec.ofNat_add,← BitVec.add_assoc]; rfl
  rw [mem,rdPtr,wrPtr,behind,queued,queued]
  by_cases vacant : s.count.toNat = (rdFire s i).toNat
  · -- the array is empty and stays so: a write takes the bypass
    have still : (step s i).count.toNat - 1 = 0 := by omega
    have low := Bool.toNat_le (rdFire s i)
    have before : s.count.toNat - 1 = 0 := by omega
    have idle : startLoad s i = false := by
      rw [load]
      cases reads : rdFire s i <;> simp_all
    have unwritten : ramWrite s i = false := by simp [write,vacant]
    simp [still,before,idle,unwritten]
  · have writes : ramWrite s i = wrFire s i := by simp [write,vacant]
    rw [writes]
    cases reads : rdFire s i with
    | false =>
      simp only [reads,Bool.false_and,Bool.toNat_false] at load vacant count up
      rw [load]
      cases fires : wrFire s i with
      | false =>
        simp only [fires,Bool.toNat_false] at count
        simp [show (step s i).count.toNat = s.count.toNat by omega]
      | true =>
        simp only [fires,Bool.toNat_true] at count up
        have grown : (step s i).count.toNat - 1 = s.count.toNat - 1 + 1 := by omega
        have fits : s.count.toNat - 1 < 2 ^ ptrWidth := by simp only [depth] at up; omega
        simp only [grown,if_true,Bool.false_eq_true,if_false,List.nil_append]
        exact ⟨(Ring.entriesPush s.ram.mem s.rdPtr i.wdata fits).symm,snoc _⟩
    | true =>
      simp only [reads,Bool.true_and,Bool.toNat_true] at load vacant count up down
      obtain ⟨n,many⟩ : ∃ n, s.count.toNat - 1 = n + 1 := ⟨s.count.toNat - 2,by omega⟩
      have loads : startLoad s i = true := by rw [load]; exact decide_eq_true (by omega)
      rw [loads,many]
      cases fires : wrFire s i with
      | false =>
        simp only [fires,Bool.toNat_false] at count
        have shrunk : (step s i).count.toNat - 1 = n := by omega
        simp only [shrunk,if_true,Bool.false_eq_true,if_false,List.append_nil]
        exact ⟨rfl,(Ring.addressSucc s.rdPtr n).symm⟩
      | true =>
        simp only [fires,Bool.toNat_true] at count up
        have same : (step s i).count.toNat - 1 = n + 1 := by omega
        have fits : n < 2 ^ ptrWidth := by simp only [depth] at up; omega
        simp only [same,if_true]
        rw [← Ring.addressSucc s.rdPtr n]
        refine ⟨(Ring.entriesPopPush s.ram.mem s.rdPtr i.wdata fits).symm,?_⟩
        rw [BitVec.add_assoc (s.rdPtr + 1),BitVec.ofNat_add]
        rfl

theorem stageStep {s : Regs width ptrWidth} {i : Inputs width} (q : Queue s) :
    (step s i).outValid = (if rdFire s i then directWrite s i else s.outValid || s.loadPendingStage2 || directWrite s i) ∧
    (step s i).loadPendingStage1 = startLoad s i ∧
    (step s i).loadPendingStage2 = (s.loadPendingStage1 && !directWrite s i) := by
  have load := startLoadEq s i
  have direct := directWriteEq s i
  cases reads : rdFire s i with
  | true =>
    obtain ⟨first,_⟩ := q.single (readFires q reads).1
    simp only [reads,Bool.true_and,Bool.toNat_true] at load direct
    cases bypass : directWrite s i with
    | true =>
      have one : s.count.toNat = 1 := by simp_all
      simp [step,stage,reads,bypass,load,one]
    | false => cases more : startLoad s i <;> simp [step,stage,reads,bypass,more,first]
  | false =>
    have idle : startLoad s i = false := by simp [load,reads]
    cases bypass : directWrite s i <;> cases second : s.loadPendingStage2 <;>
      simp [step,stage,reads,bypass,idle,second]

theorem queueStep {s : Regs width ptrWidth} {i : Inputs width} (q : Queue s) : Queue (step s i) := by
  obtain ⟨valid,first,second⟩ := stageStep (i := i) q
  have count := countStep (i := i) q
  obtain ⟨down,up⟩ := room (i := i) q
  have direct := directWriteEq s i
  have load := startLoadEq s i
  have bounded : (step s i).count.toNat ≤ depth ptrWidth := by omega
  cases reads : rdFire s i with
  | true =>
    obtain ⟨noFirst,noSecond⟩ := q.single (readFires q reads).1
    simp only [reads,Bool.true_and,Bool.toNat_true,if_true,noFirst,Bool.false_and] at valid first second direct load count down
    refine ⟨bounded,fun vacant => ?_,fun present => ?_,fun shown => ?_,fun last => ?_,(ringStep q).2⟩
    · have idle : wrFire s i = false := Bool.eq_false_iff.mpr fun fires => by simp [fires] at count; omega
      have one : ¬1 < s.count.toNat := by omega
      simp [valid,first,second,direct,load,idle,one]
    · by_cases more : 1 < s.count.toNat
      · simp [first,load,more]
      · have one : s.count.toNat = 1 := by omega
        have fires : wrFire s i = true := by
          cases idle : wrFire s i with
          | true => rfl
          | false => simp only [idle,Bool.toNat_false] at count; omega
        simp [valid,direct,fires,one]
    · have one : s.count.toNat = 1 := by simp_all
      simp [first,second,load,one]
    · simp [second] at last
  | false =>
    simp only [reads,Bool.false_and,Bool.toNat_false,Bool.false_eq_true,if_false] at valid first second direct load count
    refine ⟨bounded,fun vacant => ?_,fun present => ?_,fun shown => ?_,fun _ => ?_,(ringStep q).2⟩
    · obtain ⟨noValid,noFirst,noSecond⟩ := q.empty (by omega)
      have idle : wrFire s i = false := Bool.eq_false_iff.mpr fun fires => by simp [fires] at count; omega
      simp [valid,first,second,direct,load,noValid,noFirst,noSecond,idle]
    · by_cases vacant : s.count.toNat = 0
      · have fires : wrFire s i = true := by
          cases idle : wrFire s i with
          | true => rfl
          | false => simp only [idle,Bool.toNat_false] at count; omega
        simp [valid,direct,fires,vacant]
      · rcases q.head (by omega) with here | here | here <;> simp [valid,second,direct,vacant,here]
    · refine ⟨by rw [first,load],?_⟩
      rw [second]
      cases bypass : directWrite s i with
      | true => simp
      | false =>
        rw [valid,bypass,Bool.or_false,Bool.or_eq_true] at shown
        rcases shown with here | here
        · simp [(q.single here).1]
        · simp [q.refill here]
    · rw [first,load]

theorem contentsLength {s : Regs width ptrWidth} (q : Queue s) :
    (contents s).length = s.count.toNat := by
  rw [contents,List.length_append,Ring.entriesLength,queued]
  by_cases vacant : s.count.toNat = 0
  · obtain ⟨valid,first,second⟩ := q.empty vacant
    simp [staged,valid,first,second,vacant]
  · have one : (staged s).length = 1 := by
      simp only [staged]
      rcases q.head (by omega) with here | here | here <;> simp only [here,if_true]
      all_goals repeat' split
      all_goals rfl
    omega

theorem contentsStep {s : Regs width ptrWidth} {i : Inputs width} (q : Queue s) :
    contents s ++ accepted s i = taken s i ++ contents (step s i) := by
  obtain ⟨ring,_⟩ := ringStep (i := i) q
  have head := stagedStep (i := i) q
  have direct := directWriteEq s i
  have load := startLoadEq s i
  rw [contents,contents,head]
  by_cases low : s.count.toNat = (rdFire s i).toNat
  · -- nothing waits in the array, before the step and after it
    have empty : queued s = 0 := by have := Bool.toNat_le (rdFire s i); rw [queued]; omega
    have idle : startLoad s i = false := by
      rw [load]
      cases reads : rdFire s i <;> simp_all
    have unwritten : ramWrite s i = false := by simp [ramWrite,direct,low]
    simp only [empty,idle,unwritten,Ring.entriesZero,Bool.false_eq_true,if_false,List.nil_append] at ring
    rw [empty,← ring,idle,Ring.entriesZero,List.append_nil,List.append_nil,accepted,taken]
    cases reads : rdFire s i with
    | true => simp [staged,(readFires q reads).1]
    | false =>
      obtain ⟨valid,first,second⟩ := q.empty (by simpa [reads] using low)
      simp [staged,valid,first,second,low,reads]
  · have writes : ramWrite s i = wrFire s i := by simp [ramWrite,direct,low]
    rw [writes] at ring
    rw [accepted,List.append_assoc,ring,taken]
    cases reads : rdFire s i with
    | true =>
      have more : startLoad s i = true := by
        have present := (readFires q reads).2
        simp only [reads,Bool.toNat_true] at low
        simp only [load,reads,Bool.true_and,decide_eq_true_eq]
        omega
      simp [staged,(readFires q reads).1,more]
    | false =>
      simp only [reads,Bool.toNat_false] at low
      simp [load,reads,low]

theorem queueReset (s : Regs width ptrWidth) : Queue (reset s) where
  bounded := Nat.zero_le _
  empty _ := ⟨rfl,rfl,rfl⟩
  head present := absurd present (Nat.lt_irrefl 0)
  single shown := by simp [reset] at shown
  refill last := by simp [reset] at last
  behind := by simp [reset,queued]

/- At every moment of a run from reset the words accepted are those read, in order, and those
held; the count is the number held, the FIFO refuses a word only when it is full and gives none
away, a word offered waits unchanged until it is taken, and one of the next three cycles of a
FIFO that is not empty offers one. -/
theorem refinesQueue (s : Regs width ptrWidth) (inputs : List (Inputs width)) :
    ∃ held, machine.history accepted (reset s) inputs = machine.history taken (reset s) inputs ++ held ∧
      let here := machine.final (reset s) inputs
      here.count.toNat = held.length ∧
      (∀ i, wrReady here i = false ↔ held.length = depth ptrWidth ∧ rdFire here i = false) ∧
      (∀ i, here.outValid = true → i.rdReady = false →
        (step here i).outValid = true ∧ (step here i).outData = here.outData) ∧
      (held ≠ [] → ∀ i j, here.outValid = true ∨ (step here i).outValid = true ∨
        (step (step here i) j).outValid = true) := by
  obtain ⟨q,all⟩ := machine.conserved (fun s i q => ⟨queueStep q,contentsStep q⟩) (queueReset s) inputs
  refine ⟨contents (machine.final (reset s) inputs),by simpa [contents,staged,reset,queued] using all,?_⟩
  generalize machine.final (reset s) inputs = here at q
  refine ⟨(contentsLength q).symm,fun i => ?_,fun i shown stalled => ?_,fun present i j => ?_⟩
  · rw [contentsLength q]
    exact wrReadyIff q
  · have still : rdFire here i = false := by simp [rdFire,stalled]
    obtain ⟨valid,_,_⟩ := stageStep (i := i) q
    have filled : here.count.toNat ≠ 0 := fun zero => by simp [(q.empty zero).1] at shown
    have same := stagedStep (i := i) q
    simp only [still,shown,Bool.false_eq_true,if_false,Bool.true_or] at valid
    simp only [still,filled,Bool.false_eq_true,if_false,staged,valid,shown,if_true] at same
    exact ⟨valid,List.singleton_inj.mp same⟩
  · have counted : 0 < here.count.toNat := by
      rw [← contentsLength q]
      exact List.length_pos_iff.mpr present
    cases shown : here.outValid with
    | true => exact .inl rfl
    | false =>
      obtain ⟨valid,_,second⟩ := stageStep (i := i) q
      obtain ⟨valid',_,_⟩ := stageStep (i := j) (queueStep (i := i) q)
      have direct := directWriteEq here i
      have still : rdFire here i = false := by simp [rdFire,shown]
      have bypass : directWrite here i = false := by
        simp only [direct,still,Bool.toNat_false]
        simp; omega
      rcases q.head counted with now | first | last
      · simp [now] at shown
      · by_cases reads : rdFire (step here i) j = true
        · exact .inr (.inl (readFires (queueStep q) reads).1)
        · right; right
          simp [valid',reads,second,first,bypass]
      · right; left
        simp [valid,still,last]

example : machine.history taken (reset ⟨0,0,0,false,false,false,0#2,⟨fun _ => 0,0,0⟩⟩)
    [⟨true,1#8,false⟩,⟨true,2,false⟩,⟨true,3,true⟩,⟨false,0,true⟩,⟨false,0,true⟩,⟨false,0,true⟩] = [1,2] := by
  decide +kernel

end RiscvSoc.SyncFifo
