import RiscvSoc.Rtl.BusCdcDelivery

/-! The bridge from reset on: requests and answers pass it in order, once each, and so belong
to each other on the system side as they do at the peripheral. -/
namespace RiscvSoc.BusCdc
open Mealy Machine
open ClockCrossing
open CdcHandshake (Offer Demand Stages releaseBelow)
variable {α : Type} {n : Nat}

namespace Channel

def machine : Machine (Started (Channel α)) (Moment (Offer α) (Demand α)) Unit := started step

def acceptedAt (s : Started (Channel α)) (m : Moment (Offer α) (Demand α)) : List α := accepted s.lines s.regs m.toEdges
def deliveredAt (s : Started (Channel α)) (m : Moment (Offer α) (Demand α)) : List α := delivered s.lines s.regs m.toEdges

/- A round of a fair environment: an edge of the source clock, and one of the destination clock
at which a word would be taken. -/
def Fair : List (Moment (Offer α) (Demand α)) → Prop := Machine.Fair fun b m => tick b m.toEdges

theorem soundAt (positive : 0 < n) (s : Started (Channel α)) (m : Moment (Offer α) (Demand α))
    (sound : Sound n s.lines s.regs) :
    Sound n (machine.next s m).lines (machine.next s m).regs ∧
      contents s.regs ++ acceptedAt s m = deliveredAt s m ++ contents (machine.next s m).regs :=
  soundStep positive sound (releaseBelow s.lines m) m.toEdges

theorem resetSound {s : Channel α} (built : Stages n s.cdc) : Sound n .asserted s.reset where
  cdc := CdcHandshake.resetPhase built _
  room := rfl
  src _ := rfl
  dst _ := rfl

theorem resetEmpty (s : Channel α) : contents s.reset = [] := rfl

theorem ranked (positive : 0 < n) : Ranked (machine (α := α))
    (fun s => s.lines = .released ∧ Sound n s.lines s.regs) (fun s => contents s.regs) acceptedAt deliveredAt
    (fun s => waitsDst n s.regs) (fun b m => tick b m.toEdges) (fun s => distance n s.regs) (2 * n + 5) where
  step s m here := by
    obtain ⟨sound,moved⟩ := soundAt positive s m here.2
    refine ⟨⟨?_,sound⟩,moved⟩
    change s.lines.release m = .released
    rw [here.1,releaseReleased]
  bounded s here _ := distanceBound here.2
  moves s m here held := by
    obtain ⟨lines,sound⟩ := here
    obtain ⟨_,s⟩ := s
    cases lines
    rcases moves positive sound held m.toEdges with out | lower | ⟨same,absent⟩
    · exact .inl out
    · exact .inr (.inl lower)
    · exact .inr (.inr ⟨same,by simp only [waitsDst]; exact congrArg (fun r => decide (r ≤ n + 3)) same,absent⟩)

/- From reset: nothing is lost, doubled or made up, and once both sides run, all that was
accepted is delivered within `3 * (2 * n + 6)` fair rounds. -/
theorem transfers (positive : 0 < n) {s : Channel α} (built : Stages n s.cdc)
    (inputs : List (Moment (Offer α) (Demand α))) :
    let start : Started (Channel α) := ⟨.asserted,s.reset⟩
    ∃ waiting, machine.history acceptedAt start inputs = machine.history deliveredAt start inputs ++ waiting ∧
      waiting.length ≤ 3 ∧
      ((machine.final start inputs).lines = .released → ∀ rounds : List (List (Moment (Offer α) (Demand α))), (∀ round ∈ rounds, Fair round) →
        3 * (2 * n + 6) ≤ rounds.length →
        machine.history acceptedAt start inputs <+: machine.history deliveredAt start (inputs ++ rounds.flatten)) := by
  intro start
  have initial : Sound n start.lines start.regs := resetSound built
  obtain ⟨sound,all⟩ := conserved (soundAt positive) initial inputs
  rw [resetEmpty,List.nil_append] at all
  refine ⟨_,all,contentsShort _,fun lines rounds fair enough => ?_⟩
  have rest := (ranked positive).settles ⟨lines,sound⟩ (contentsShort _) rounds fair enough
  rw [historyAppend,all]
  exact (List.prefix_append_right_inj _).mpr rest

end Channel

section
variable {aw dw sw : Nat}

def machine : Machine (Started (Regs aw dw sw)) (Moment (SysInputs aw dw sw) (PeriphInputs aw dw sw)) Unit := started step

variable (s : Started (Regs aw dw sw)) (m : Moment (SysInputs aw dw sw) (PeriphInputs aw dw sw))

def sysAAt := sysA s.lines s.regs m.toEdges
def periphAAt := periphA s.lines s.regs m.toEdges
def periphDAt := periphD s.lines s.regs m.toEdges
def sysDAt := sysD s.lines s.regs m.toEdges

def viewA : Started (Channel (Payload aw dw sw)) := ⟨s.lines,s.regs.a⟩
def viewD : Started (Channel (BitVec dw)) := ⟨turned s.lines,s.regs.d⟩

def momentA (m : Moment (SysInputs aw dw sw) (PeriphInputs aw dw sw)) :
    Moment (Offer (Payload aw dw sw)) (Demand (Payload aw dw sw)) := ⟨edgesA m.toEdges,m.srcRelease,m.dstRelease⟩

def momentD (m : Moment (SysInputs aw dw sw) (PeriphInputs aw dw sw)) :
    Moment (Offer (BitVec dw)) (Demand (BitVec dw)) := ⟨edgesD m.toEdges,m.dstRelease,m.srcRelease⟩

theorem followsA : viewA (machine.next s m) = Channel.machine.next (viewA s) (momentA m) := rfl
theorem followsD : viewD (machine.next s m) = Channel.machine.next (viewD s) (momentD m) := rfl

theorem unpackPack (r : Request aw dw sw) : unpack (pack r) = r := by
  obtain ⟨addr,wdata,we,size⟩ := r
  have addr' : (pack ⟨addr,wdata,we,size⟩).extractLsb' (dw + 1 + sw) aw = addr := by
    rw [pack,BitVec.extractLsb'_append_eq_of_le (by omega),BitVec.extractLsb'_append_eq_of_le (by omega),
      BitVec.extractLsb'_append_eq_of_le (by omega)]
    simp
  have wdata' : (pack ⟨addr,wdata,we,size⟩).extractLsb' (1 + sw) dw = wdata := by
    rw [pack,BitVec.extractLsb'_append_eq_of_le (by omega),BitVec.extractLsb'_append_eq_of_le (by omega),
      BitVec.extractLsb'_append_eq_of_add_le (by omega)]
    simp
  have we' : (pack ⟨addr,wdata,we,size⟩).getLsbD sw = we := by
    rw [pack,BitVec.getLsbD_append,if_neg (Nat.lt_irrefl sw),Nat.sub_self,BitVec.getLsbD_append,if_pos (by omega)]
    simp
  have size' : (pack ⟨addr,wdata,we,size⟩).extractLsb' 0 sw = size := by
    rw [pack,BitVec.extractLsb'_append_eq_of_add_le (by omega)]
    simp
  rw [unpack,addr',wdata',we',size']

section
variable (l : Lines) (r : Regs aw dw sw) (e : Edges (SysInputs aw dw sw) (PeriphInputs aw dw sw))

theorem requestsIn : sysA l r e = (Channel.accepted l r.a (edgesA e)).map unpack := by
  rcases e with ⟨_ | i,dst⟩
  · rfl
  · simp only [sysA,outputs,Channel.accepted,edgesA,Option.map_some,Channel.enqueue]
    rcases Bool.eq_false_or_eq_true (!l.src && (i.memAValid && r.a.srcReady)) with h | h <;>
      simp [h,unpackPack]

theorem requestsOut : periphA l r e = (Channel.delivered l r.a (edgesA e)).map unpack := by
  rcases e with ⟨src,_ | i⟩
  · rfl
  · simp only [periphA,outputs,Channel.delivered,edgesA,Option.map_some]
    rcases Bool.eq_false_or_eq_true (!l.dst && r.a.dstValid && i.memAReady) with h | h <;> simp [h]

theorem answersIn : periphD l r e = Channel.accepted (turned l) r.d (edgesD e) := by
  rcases e with ⟨src,_ | i⟩ <;> rfl

theorem answersOut : sysD l r e = Channel.delivered (turned l) r.d (edgesD e) := by
  rcases e with ⟨_ | i,dst⟩ <;> rfl

end

def RequestsMove (round : List (Moment (SysInputs aw dw sw) (PeriphInputs aw dw sw))) : Prop :=
  (∃ m ∈ round, m.src ≠ none) ∧ ∃ m ∈ round, ∃ i, m.dst = some i ∧ i.memAReady = true

def AnswersMove (round : List (Moment (SysInputs aw dw sw) (PeriphInputs aw dw sw))) : Prop :=
  (∃ m ∈ round, m.dst ≠ none) ∧ ∃ m ∈ round, ∃ i, m.src = some i ∧ i.memDReady = true

theorem fairA {round : List (Moment (SysInputs aw dw sw) (PeriphInputs aw dw sw))} (moves : RequestsMove round) :
    Channel.Fair (round.map momentA) := by
  obtain ⟨⟨m,mem,edge⟩,m',mem',i,edge',ready⟩ := moves
  intro b
  cases b with
  | false => exact ⟨_,List.mem_map_of_mem mem,by simpa [Channel.tick,momentA,edgesA] using edge⟩
  | true =>
    refine ⟨_,List.mem_map_of_mem mem',?_⟩
    simp [Channel.tick,momentA,edgesA,edge',ready]

theorem fairD {round : List (Moment (SysInputs aw dw sw) (PeriphInputs aw dw sw))} (moves : AnswersMove round) :
    Channel.Fair (round.map momentD) := by
  obtain ⟨⟨m,mem,edge⟩,m',mem',i,edge',ready⟩ := moves
  intro b
  cases b with
  | false => exact ⟨_,List.mem_map_of_mem mem,by simpa [Channel.tick,momentD,edgesD] using edge⟩
  | true =>
    refine ⟨_,List.mem_map_of_mem mem',?_⟩
    simp [Channel.tick,momentD,edgesD,edge',ready]

theorem recordsA (s : Started (Regs aw dw sw)) (inputs : List (Moment (SysInputs aw dw sw) (PeriphInputs aw dw sw))) :
    machine.history sysAAt s inputs = (Channel.machine.history Channel.acceptedAt (viewA s) (inputs.map momentA)).map unpack ∧
    machine.history periphAAt s inputs =
      (Channel.machine.history Channel.deliveredAt (viewA s) (inputs.map momentA)).map unpack ∧
    viewA (machine.final s inputs) = Channel.machine.final (viewA s) (inputs.map momentA) := by
  induction inputs generalizing s with
  | nil => exact ⟨rfl,rfl,rfl⟩
  | cons m rest ih =>
    obtain ⟨accepts,delivers,ends⟩ := ih (machine.next s m)
    rw [historyCons,historyCons,finalCons,accepts,delivers,ends,sysAAt,periphAAt,requestsIn,requestsOut,followsA]
    simp only [List.map_cons,historyCons,finalCons,List.map_append]
    exact ⟨rfl,rfl,trivial⟩

theorem recordsD (s : Started (Regs aw dw sw)) (inputs : List (Moment (SysInputs aw dw sw) (PeriphInputs aw dw sw))) :
    machine.history periphDAt s inputs = Channel.machine.history Channel.acceptedAt (viewD s) (inputs.map momentD) ∧
    machine.history sysDAt s inputs = Channel.machine.history Channel.deliveredAt (viewD s) (inputs.map momentD) ∧
    viewD (machine.final s inputs) = Channel.machine.final (viewD s) (inputs.map momentD) := by
  induction inputs generalizing s with
  | nil => exact ⟨rfl,rfl,rfl⟩
  | cons m rest ih =>
    obtain ⟨accepts,delivers,ends⟩ := ih (machine.next s m)
    rw [historyCons,historyCons,finalCons,accepts,delivers,ends,periphDAt,sysDAt,answersIn,answersOut,followsD]
    exact ⟨rfl,rfl,rfl⟩

end

theorem zipPrefix {β : Type} (xs w : List α) (ys v : List β) (short : ys.length ≤ xs.length) :
    (xs ++ w).zip ys <+: xs.zip (ys ++ v) := by
  induction xs generalizing ys with
  | nil =>
    cases List.length_eq_zero_iff.mp (Nat.le_zero.mp short)
    simp
  | cons x xs ih =>
    cases ys with
    | nil => simp
    | cons y ys =>
      simp only [List.cons_append,List.zip_cons_cons,List.cons_prefix_cons,true_and]
      exact ih ys (by simpa using short)

/- From reset of both sides, whichever leaves it first, and for every interleaving and stall:
requests reach the peripheral and answers the system in order, unchanged and once each; while
the peripheral answers no more than it was asked, the system sees at its k-th request the answer
the peripheral gave to its k-th; and with both sides running, what was accepted has been
delivered after a bounded number of fair rounds. -/
theorem transactionsIntact {aw dw sw : Nat} (stages : Nat) (valid : 2 ≤ stages) (s : Regs aw dw sw)
    (built : Stages stages s.a.cdc ∧ Stages stages s.d.cdc)
    (inputs : List (Moment (SysInputs aw dw sw) (PeriphInputs aw dw sw))) :
    let start : Started (Regs aw dw sw) := ⟨.asserted,reset s⟩
    (∃ waiting, machine.history sysAAt start inputs = machine.history periphAAt start inputs ++ waiting ∧
      waiting.length ≤ 3) ∧
    (∃ waiting, machine.history periphDAt start inputs = machine.history sysDAt start inputs ++ waiting ∧
      waiting.length ≤ 3) ∧
    ((machine.history periphDAt start inputs).length ≤ (machine.history periphAAt start inputs).length →
      (machine.history sysAAt start inputs).zip (machine.history sysDAt start inputs) <+:
        (machine.history periphAAt start inputs).zip (machine.history periphDAt start inputs)) ∧
    ((machine.final start inputs).lines = .released →
      ∀ rounds : List (List (Moment (SysInputs aw dw sw) (PeriphInputs aw dw sw))), 3 * (2 * stages + 6) ≤ rounds.length →
        ((∀ round ∈ rounds, RequestsMove round) →
          machine.history sysAAt start inputs <+: machine.history periphAAt start (inputs ++ rounds.flatten)) ∧
        ((∀ round ∈ rounds, AnswersMove round) →
          machine.history periphDAt start inputs <+: machine.history sysDAt start (inputs ++ rounds.flatten))) := by
  intro start
  obtain ⟨waitingA,passedA,shortA,settlesA⟩ := Channel.transfers (by omega) built.1 (inputs.map momentA)
  obtain ⟨waitingD,passedD,shortD,settlesD⟩ := Channel.transfers (by omega) built.2 (inputs.map momentD)
  obtain ⟨acceptsA,deliversA,endsA⟩ := recordsA start inputs
  obtain ⟨acceptsD,deliversD,endsD⟩ := recordsD start inputs
  have requests : machine.history sysAAt start inputs = machine.history periphAAt start inputs ++ waitingA.map unpack := by
    rw [acceptsA,deliversA,← List.map_append]
    exact congrArg (List.map unpack) passedA
  have answers : machine.history periphDAt start inputs = machine.history sysDAt start inputs ++ waitingD := by
    rw [acceptsD,deliversD]
    exact passedD
  refine ⟨⟨_,requests,by simpa using shortA⟩,⟨_,answers,shortD⟩,fun asked => ?_,fun lines rounds enough => ⟨fun fair => ?_,fun fair => ?_⟩⟩
  · rw [answers,List.length_append] at asked
    rw [requests,answers]
    exact zipPrefix _ _ _ _ (by omega)
  · have linesA : (Channel.machine.final (viewA start) (inputs.map momentA)).lines = .released := by
      rw [← endsA]
      exact lines
    have out := settlesA linesA (rounds.map (List.map momentA))
      (fun round mem => by obtain ⟨r,mem',rfl⟩ := List.mem_map.mp mem; exact fairA (fair r mem')) (by simpa using enough)
    rw [acceptsA,(recordsA start (inputs ++ rounds.flatten)).2.1,List.map_append,List.map_flatten]
    exact out.map unpack
  · have linesD : (Channel.machine.final (viewD start) (inputs.map momentD)).lines = .released := by
      rw [← endsD]
      exact congrArg turned lines
    have out := settlesD linesD (rounds.map (List.map momentD))
      (fun round mem => by obtain ⟨r,mem',rfl⟩ := List.mem_map.mp mem; exact fairD (fair r mem')) (by simpa using enough)
    rw [acceptsD,(recordsD start (inputs ++ rounds.flatten)).2.1,List.map_append,List.map_flatten]
    exact out

def idleChannel (x : α) : Channel α :=
  ⟨true,false,x,⟨⟨false,false,true,x,[false,false]⟩,⟨false,x,false,false,[false,false]⟩⟩,false,x⟩

def idleBridge : Regs 32 32 2 := ⟨idleChannel 0,idleChannel 0⟩

def exchange : List (Moment (SysInputs 32 32 2) (PeriphInputs 32 32 2)) :=
  let both (asks answers : Bool) : Moment (SysInputs 32 32 2) (PeriphInputs 32 32 2) :=
    ⟨⟨some ⟨⟨0x40001000,7,false,2⟩,asks,true,false,true,0⟩,some ⟨true,0x1234,answers,true,false,0⟩⟩,false,false⟩
  [⟨⟨none,none⟩,true,true⟩,both true false] ++ List.replicate 6 (both false false) ++ [both false true] ++
    List.replicate 6 (both false false)

theorem exchangePaired :
    (machine.history sysAAt ⟨.asserted,reset idleBridge⟩ exchange).zip
        (machine.history sysDAt ⟨.asserted,reset idleBridge⟩ exchange) <+:
      (machine.history periphAAt ⟨.asserted,reset idleBridge⟩ exchange).zip
        (machine.history periphDAt ⟨.asserted,reset idleBridge⟩ exchange) :=
  (transactionsIntact 2 (Nat.le_refl 2) idleBridge ⟨⟨rfl,rfl⟩,rfl,rfl⟩ exchange).2.2.1 (by decide +kernel)

example : machine.history sysDAt ⟨.asserted,reset idleBridge⟩ exchange = [0x1234] := by decide +kernel

end RiscvSoc.BusCdc
