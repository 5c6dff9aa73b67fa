import RiscvSoc.Rtl.BusCdcReset

/-! The bridge across a reset pulse: what must happen in the pulse for the bridge to start anew. -/
namespace RiscvSoc.BusCdc
open Mealy Machine
open ClockCrossing
open CdcHandshake (Offer Demand Phase Stages Below inFlight)
variable {α : Type} {n : Nat} {l : Lines}

namespace Channel

structure SrcClear (n : Nat) (s : Channel α) : Prop where
  valid : s.srcValid = false
  ready : s.srcReady = true
  cdc : ∃ d, s.cdc.src = ⟨false,false,true,d,List.replicate n false⟩

structure DstClear (n : Nat) (s : Channel α) : Prop where
  valid : s.dstValid = false
  cdc : ∃ x, s.cdc.dst = ⟨false,x,false,false,List.replicate n false⟩

theorem stagesStep {s : Channel α} (built : Stages n s.cdc) (e : Edges (Offer α) (Demand α)) :
    Stages n (step l s e).cdc := by
  change Stages n ⟨CdcHandshake.nextSrc l s.cdc (crossing s e),CdcHandshake.nextDst l s.cdc (crossing s e)⟩
  constructor
  · rcases CdcHandshake.nextSrcCases l s.cdc (crossing s e) with ⟨_,same⟩ | ⟨i,ack,_,_,next⟩
    · simp only [same,built.1]
    · simp only [next,CdcHandshake.Src.edge,CdcHandshake.Src.reset]
      repeat' split
      all_goals simp [clear,built.1]
  · rcases CdcHandshake.nextDstCases l s.cdc (crossing s e) with ⟨_,same⟩ | ⟨i,req,hold,_,_,_,next⟩
    · simp only [same,built.2]
    · simp only [next,CdcHandshake.Dst.edge,CdcHandshake.Dst.reset]
      repeat' split
      all_goals simp [clear,built.2]

theorem srcCleared {s : Channel α} (built : Stages n s.cdc) (up : l.src = true) (e : Edges (Offer α) (Demand α))
    (cleared : e.src ≠ none ∨ SrcClear n s) : SrcClear n (step l s e) := by
  have length : clear false s.cdc.src.ackSync = List.replicate n false := by
    rw [clear,List.map_const',built.1]
  rcases e with ⟨_ | i,dst⟩
  · rcases cleared with edge | same
    · exact absurd rfl edge
    · exact ⟨same.valid,same.ready,same.cdc⟩
  · refine ⟨by simp [step,srcEdge,up],by simp [step,srcEdge,up],s.cdc.src.dataHold,?_⟩
    simp [step,CdcHandshake.step,CdcHandshake.nextSrc,crossing,CdcHandshake.Src.edge,up,CdcHandshake.Src.reset,length]

theorem dstCleared {s : Channel α} (built : Stages n s.cdc) (up : l.dst = true) (e : Edges (Offer α) (Demand α))
    (cleared : e.dst ≠ none ∨ DstClear n s) : DstClear n (step l s e) := by
  have length : clear false s.cdc.dst.reqSync = List.replicate n false := by
    rw [clear,List.map_const',built.2]
  rcases e with ⟨src,_ | i⟩
  · rcases cleared with edge | same
    · exact absurd rfl edge
    · exact ⟨same.valid,same.cdc⟩
  · refine ⟨by simp [step,dstEdge,up],s.cdc.dst.data,?_⟩
    simp [step,CdcHandshake.step,CdcHandshake.nextDst,crossing,CdcHandshake.Dst.edge,up,CdcHandshake.Dst.reset,length]

theorem clearSound {s : Channel α} (src : SrcClear n s) (dst : DstClear n s) (l : Lines) :
    Sound n l s ∧ contents s = [] := by
  obtain ⟨d,cdc⟩ := src.cdc
  obtain ⟨x,cdc'⟩ := dst.cdc
  refine ⟨⟨.idle false d x cdc cdc' fun _ => rfl,by rw [src.ready,src.valid]; rfl,fun _ => src.valid,
    fun _ => dst.valid⟩,?_⟩
  simp [contents,front,back,inFlight,src.valid,dst.valid,cdc,cdc']

end Channel

namespace Resettable
open Channel (SrcClear DstClear)
variable {aw dw sw : Nat} {cycles : Nat} {s : System aw dw sw}

theorem builtStep (built : Built s n) (rstIn : Bool) (e : Inputs aw dw sw) : Built (step cycles rstIn s e) n := by
  refine ⟨?_,Channel.stagesStep built.2.1 _,Channel.stagesStep built.2.2 _⟩
  rcases e with ⟨src,_ | i⟩
  · exact built.1
  · simp only [step,nextSync,shiftLength]
    exact built.1

def SysClear (n : Nat) (s : System aw dw sw) : Prop := SrcClear n s.bridge.a ∧ DstClear n s.bridge.d
def PeriphClear (n : Nat) (s : System aw dw sw) : Prop := DstClear n s.bridge.a ∧ SrcClear n s.bridge.d

theorem sysCleared (built : Built s n) (up : s.controller.rstOut = true) {e : Inputs aw dw sw} {rstIn : Bool}
    (edge : e.src ≠ none) : SysClear n (step cycles rstIn s e) := by
  have edgeA : (edgesA (bridgeEdges e)).src ≠ none := by simpa [edgesA,bridgeEdges] using edge
  have edgeD : (edgesD (bridgeEdges e)).dst ≠ none := by simpa [edgesD,bridgeEdges] using edge
  exact ⟨Channel.srcCleared (l := lines s) built.2.1 up _ (.inl edgeA),
    Channel.dstCleared (l := turned (lines s)) built.2.2 up _ (.inl edgeD)⟩

theorem periphCleared (built : Built s n) (up : CdcHandshake.dout s.resetSync = false) {e : Inputs aw dw sw} {rstIn : Bool}
    (cleared : e.dst ≠ none ∨ PeriphClear n s) : PeriphClear n (step cycles rstIn s e) := by
  have line : (lines s).dst = true := by simp [lines,up]
  have edgeA : e.dst ≠ none → (edgesA (bridgeEdges e)).dst ≠ none := by simp [edgesA,bridgeEdges]
  have edgeD : e.dst ≠ none → (edgesD (bridgeEdges e)).src ≠ none := by simp [edgesD,bridgeEdges]
  exact ⟨Channel.dstCleared built.2.1 line _ (cleared.imp edgeA And.left),
    Channel.srcCleared (l := turned (lines s)) built.2.2 line _ (cleared.imp edgeD And.right)⟩

/- After `k` peripheral edges of a pulse: that many stages show the reset, and after one more
than there are stages the peripheral half is clear. -/
structure Filled (n k : Nat) (s : System aw dw sw) : Prop where
  built : Built s n
  stages : s.resetSync.take k = List.replicate (min k n) false
  cleared : n < k → PeriphClear n s

theorem filledAll {k : Nat} (filled : Filled n k s) (enough : n ≤ k) : s.resetSync = List.replicate n false := by
  have all := filled.stages
  rwa [List.take_of_length_le (by rw [filled.built.1]; exact enough),Nat.min_eq_right enough] at all

theorem filledStep (positive : 0 < n) {k : Nat} (filled : Filled n k s) (up : s.controller.rstOut = true)
    (e : Inputs aw dw sw) (still : (step cycles false s e).controller.rstOut = true) :
    Filled n (k + (if e.dst.isSome then 1 else 0)) (step cycles false s e) := by
  refine ⟨builtStep filled.built false e,?_,fun more => ?_⟩
  · cases edge : e.dst with
    | none => simpa [step,nextSync,edge] using filled.stages
    | some i =>
      have sample : nextSync cycles false s e = shift false s.resetSync := by
        have high : (nextController cycles false s e).rstOut = true := still
        simp [nextSync,edge,up,high]
      change (nextSync cycles false s e).take _ = _
      rw [sample,Option.isSome_some,if_pos rfl]
      by_cases room : k + 1 ≤ n
      · have length : s.resetSync.length = n := filled.built.1
        rw [shiftTake false (by omega),filled.stages,Nat.min_eq_left (by omega),Nat.min_eq_left (by omega),
          List.replicate_succ]
      · rw [filledAll filled (by omega),shiftSteady,List.take_replicate]
  · have low : CdcHandshake.dout s.resetSync = false := by
      have enough : n ≤ k := by
        revert more
        split <;> omega
      rw [filledAll filled enough,CdcHandshake.doutSteady positive]
    refine periphCleared filled.built low ?_
    cases edge : e.dst with
    | none => exact .inr (filled.cleared (by simpa [edge] using more))
    | some i => exact .inl (by simp)

/- The bridge after a pulse: the system side runs, the peripheral side starts when the fall of
the reset line has come through its synchroniser. -/
structure Settled (cycles n : Nat) (s : System aw dw sw) : Prop where
  low : s.controller.rstOut = false
  complete : s.controller.complete cycles = true
  sync : ∃ i, i ≤ n ∧ s.resetSync = front n i true
  soundA : Channel.Sound n (lines s) s.bridge.a
  soundD : Channel.Sound n (turned (lines s)) s.bridge.d

def Empty (s : System aw dw sw) : Prop := Channel.contents s.bridge.a = [] ∧ Channel.contents s.bridge.d = []

theorem lastMoment (positive : 0 < n) {k : Nat} (filled : Filled n k s) (up : s.controller.rstOut = true)
    (e : Inputs aw dw sw) (low : (step cycles false s e).controller.rstOut = false)
    (enough : n < k + (if e.dst.isSome then 1 else 0)) :
    Settled cycles n (step cycles false s e) ∧ Empty (step cycles false s e) := by
  have all := filledAll filled (by revert enough; split <;> omega)
  have edge : e.src ≠ none := by
    intro absent
    simp [step,nextController,absent,up] at low
  have complete : s.controller.complete cycles = true := by
    obtain ⟨i,here⟩ := Option.ne_none_iff_exists'.mp edge
    simpa [step,nextController,here,ResetController.edge] using low
  have sysClear : SysClear n (step cycles false s e) := sysCleared filled.built up edge
  have periphClear : PeriphClear n (step cycles false s e) := by
    refine periphCleared filled.built (by rw [all,CdcHandshake.doutSteady positive]) ?_
    cases here : e.dst with
    | none => exact .inr (filled.cleared (by simpa [here] using enough))
    | some i => exact .inl (by simp)
  obtain ⟨soundA,emptyA⟩ := Channel.clearSound sysClear.1 periphClear.1 (lines (step cycles false s e))
  obtain ⟨soundD,emptyD⟩ := Channel.clearSound periphClear.2 sysClear.2 (turned (lines (step cycles false s e)))
  refine ⟨⟨low,?_,?_,soundA,soundD⟩,emptyA,emptyD⟩
  · obtain ⟨i,here⟩ := Option.ne_none_iff_exists'.mp edge
    simp only [step,nextController,here,ResetController.edge,complete]
    simpa [ResetController.complete] using complete
  · have start : front n 0 true = List.replicate n false := frontNone n true
    rcases here : e.dst with _ | i
    · exact ⟨0,Nat.zero_le n,by simp [step,nextSync,here,all]⟩
    · have next : (step cycles false s e).resetSync =
          shift (if i.rstNew then !(nextController cycles false s e).rstOut else !s.controller.rstOut) s.resetSync := by
        simp [step,nextSync,here]
      rw [next,all]
      cases i.rstNew with
      | false => exact ⟨0,Nat.zero_le n,by simp [up,shiftSteady]⟩
      | true =>
        have fallen : (nextController cycles false s e).rstOut = false := low
        refine ⟨1,positive,?_⟩
        rw [if_pos rfl,fallen,← start]
        exact shiftFront true positive

theorem pulseSettles (positive : 0 < n) {inputs : List (Inputs aw dw sw)} {k : Nat} (filled : Filled n k s)
    (up : s.controller.rstOut = true) (pulse : Pulse cycles s inputs) (enough : n < k + periphEdges inputs) :
    Settled cycles n ((machine cycles).final s inputs) ∧ Empty ((machine cycles).final s inputs) := by
  induction inputs generalizing s k with
  | nil =>
    have down : s.controller.rstOut = false := pulse.2
    simp [up] at down
  | cons e rest ih =>
    obtain ⟨high,low⟩ := pulse
    obtain ⟨_,later⟩ := stepsCons.mp high
    have count : periphEdges (e :: rest) = (if e.dst.isSome then 1 else 0) + periphEdges rest := by
      rw [periphEdges,List.countP_cons,Nat.add_comm]
      rfl
    cases still : (step cycles false s e).controller.rstOut with
    | true => exact ih (filledStep positive filled up e still) still ⟨later,low⟩ (by omega)
    | false =>
      cases rest with
      | nil =>
        have zero : periphEdges ([] : List (Inputs aw dw sw)) = 0 := rfl
        exact lastMoment positive filled up e still (by omega)
      | cons e' rest =>
        have high' : (step cycles false s e).controller.rstOut = true := (stepsCons.mp later).1
        simp [still] at high'

def contentsA (s : System aw dw sw) : List (Request aw dw sw) := (Channel.contents s.bridge.a).map unpack
def contentsD (s : System aw dw sw) : List (BitVec dw) := Channel.contents s.bridge.d

theorem settledStep (positive : 0 < n) (settled : Settled cycles n s) (e : Inputs aw dw sw) :
    Settled cycles n ((machine cycles).next s e) ∧ Below (lines ((machine cycles).next s e)) (lines s) ∧
      (contentsA s ++ sysAAt s e = periphAAt s e ++ contentsA ((machine cycles).next s e)) ∧
      (contentsD s ++ periphDAt s e = sysDAt s e ++ contentsD ((machine cycles).next s e)) := by
  obtain ⟨i,within,sync⟩ := settled.sync
  have still : nextController cycles false s e = s.controller := by
    rcases e with ⟨_ | j,dst⟩
    · rfl
    · have low := settled.low
      simp only [nextController,ResetController.edge,settled.complete,Bool.false_eq_true,if_false,if_true,Bool.not_true]
      rw [← low]
  obtain ⟨i',more,within',sync'⟩ : ∃ i', i ≤ i' ∧ i' ≤ n ∧ (step cycles false s e).resetSync = front n i' true := by
    rcases here : e.dst with _ | j
    · exact ⟨i,Nat.le_refl i,within,by simp [step,nextSync,here,sync]⟩
    · have next : (step cycles false s e).resetSync = shift true (front n i true) := by
        simp [step,nextSync,here,still,settled.low,sync]
      by_cases last : i = n
      · exact ⟨n,within,Nat.le_refl n,by rw [next,last,frontAll,shiftSteady]⟩
      · exact ⟨i + 1,by omega,by omega,by rw [next,shiftFront true (by omega)]⟩
  have low' : (step cycles false s e).controller.rstOut = false := by
    change (nextController cycles false s e).rstOut = false
    rw [still,settled.low]
  have fallen : (lines (step cycles false s e)).dst = true → (lines s).dst = true := by
    simp only [lines,sync,sync',CdcHandshake.doutFront positive within,CdcHandshake.doutFront positive within']
    by_cases last : i = n
    · simp [last,show i' = n by omega]
    · simp [last]
  have belowA : Below (lines (step cycles false s e)) (lines s) := ⟨fun up => by simp [lines,low'] at up,fallen⟩
  have belowD : Below (turned (lines (step cycles false s e))) (turned (lines s)) :=
    ⟨fallen,fun up => by simp [turned,lines,low'] at up⟩
  obtain ⟨soundA,movedA⟩ := Channel.soundStep positive settled.soundA belowA (edgesA (bridgeEdges e))
  obtain ⟨soundD,movedD⟩ := Channel.soundStep positive settled.soundD belowD (edgesD (bridgeEdges e))
  refine ⟨⟨low',?_,⟨i',within',sync'⟩,soundA,soundD⟩,belowA,?_,?_⟩
  · change (nextController cycles false s e).complete cycles = true
    rw [still,settled.complete]
  · rw [contentsA,sysAAt,periphAAt,requestsIn,requestsOut,← List.map_append,movedA,List.map_append]
    rfl
  · rw [contentsD,sysDAt,periphDAt,answersIn,answersOut,movedD]
    rfl

theorem staysReleased {l' l : Lines} (below : Below l' l) (low : l = .released) : l' = .released := by
  obtain ⟨src,dst⟩ := l'
  cases low
  cases src <;> cases dst <;> simp_all [Below,Lines.released]

theorem rankedA (positive : 0 < n) : Ranked (machine cycles)
    (fun s : System aw dw sw => Settled cycles n s ∧ lines s = .released) contentsA sysAAt periphAAt
    (fun s => Channel.waitsDst n s.bridge.a) (fun b (e : Inputs aw dw sw) => Channel.tick b (edgesA (bridgeEdges e)))
    (fun s => Channel.distance n s.bridge.a) (2 * n + 5) where
  step s e here := by
    obtain ⟨settled,below,moved,_⟩ := settledStep positive here.1 e
    exact ⟨⟨settled,staysReleased below here.2⟩,moved⟩
  bounded s here _ := Channel.distanceBound here.1.soundA
  moves s e here held := by
    have sound := here.1.soundA
    have held' : Channel.contents s.bridge.a ≠ [] := fun nothing => held (by simp [contentsA,nothing])
    have next : ((machine cycles).next s e).bridge.a = s.bridge.a.step .released (edgesA (bridgeEdges e)) := by
      rw [← here.2]; rfl
    rw [here.2] at sound
    simp only [periphAAt,requestsOut,next,here.2]
    rcases Channel.moves positive sound held' (edgesA (bridgeEdges e)) with out | lower | ⟨same,absent⟩
    · exact .inl (by simpa using out)
    · exact .inr (.inl lower)
    · exact .inr (.inr ⟨same,by simp only [Channel.waitsDst,same],absent⟩)

theorem rankedD (positive : 0 < n) : Ranked (machine cycles)
    (fun s : System aw dw sw => Settled cycles n s ∧ lines s = .released) contentsD periphDAt sysDAt
    (fun s => Channel.waitsDst n s.bridge.d) (fun b (e : Inputs aw dw sw) => Channel.tick b (edgesD (bridgeEdges e)))
    (fun s => Channel.distance n s.bridge.d) (2 * n + 5) where
  step s e here := by
    obtain ⟨settled,below,_,moved⟩ := settledStep positive here.1 e
    exact ⟨⟨settled,staysReleased below here.2⟩,moved⟩
  bounded s here _ := Channel.distanceBound here.1.soundD
  moves s e here held := by
    have sound := here.1.soundD
    have turned' : turned (lines s) = .released := by rw [here.2]; rfl
    have next : ((machine cycles).next s e).bridge.d = s.bridge.d.step .released (edgesD (bridgeEdges e)) := by
      rw [← turned']; rfl
    rw [turned'] at sound
    simp only [sysDAt,answersOut,next,turned']
    rcases Channel.moves positive sound held (edgesD (bridgeEdges e)) with out | lower | ⟨same,absent⟩
    · exact .inl out
    · exact .inr (.inl lower)
    · exact .inr (.inr ⟨same,by simp only [Channel.waitsDst,same],absent⟩)

theorem pulseCounts {inputs : List (Inputs aw dw sw)} (up : s.controller.rstOut = true)
    (within : s.controller.counter ≤ cycles) (pulse : Pulse cycles s inputs) :
    sysEdges inputs + s.controller.counter = cycles + 1 := by
  induction inputs generalizing s with
  | nil =>
    have down : s.controller.rstOut = false := pulse.2
    simp [up] at down
  | cons e rest ih =>
    obtain ⟨high,low⟩ := pulse
    obtain ⟨_,later⟩ := stepsCons.mp high
    have count : sysEdges (e :: rest) = sysEdges rest + (if e.src.isSome then 1 else 0) := List.countP_cons
    cases edge : e.src with
    | none =>
      have same : (step cycles false s e).controller = s.controller := by simp [step,nextController,edge]
      have all := ih (by rw [← up,← same]; rfl) (by rw [← same] at within; exact within) ⟨later,low⟩
      have same' : ((machine cycles).next s e).controller = s.controller := same
      rw [same'] at all
      simp only [edge,Option.isSome_none,Bool.false_eq_true,if_false] at count
      omega
    | some i =>
      have next : ((machine cycles).next s e).controller = s.controller.edge cycles false := by
        simp [machine,step,nextController,edge]
      simp only [edge,Option.isSome_some,if_true] at count
      by_cases complete : cycles ≤ s.controller.counter
      · have down : ((machine cycles).next s e).controller.rstOut = false := by
          simp [next,ResetController.edge,ResetController.complete,complete]
        cases rest with
        | nil =>
          have zero : sysEdges ([] : List (Inputs aw dw sw)) = 0 := rfl
          omega
        | cons e' rest =>
          have high' := (stepsCons.mp later).1
          simp [down] at high'
      · have next' : ((machine cycles).next s e).controller = ⟨s.controller.counter + 1,true⟩ := by
          simp [next,ResetController.edge,ResetController.complete,complete]
        have all := ih (by rw [next']) (by rw [next']; simp only; omega) ⟨later,low⟩
        rw [next'] at all
        simp only at all
        omega

theorem resetBegins (s : System aw dw sw) {e : Inputs aw dw sw} (edge : e.src ≠ none) :
    (step cycles true s e).controller = ⟨0,true⟩ := by
  obtain ⟨i,here⟩ := Option.ne_none_iff_exists'.mp edge
  simp [step,nextController,here,ResetController.edge]

/- A pulse lasts one edge of the system clock more than the controller counts. -/
theorem pulseLength (s : System aw dw sw) {e : Inputs aw dw sw} (edge : e.src ≠ none)
    {pulse : List (Inputs aw dw sw)} (isPulse : Pulse cycles (step cycles true s e) pulse) :
    sysEdges pulse = cycles + 1 := by
  have begins : (step cycles true s e).controller = ⟨0,true⟩ := resetBegins s edge
  have all := pulseCounts (by rw [begins]) (by rw [begins]; exact Nat.zero_le _) isPulse
  rw [begins] at all
  exact all

def RequestsMove (round : List (Inputs aw dw sw)) : Prop :=
  (∃ e ∈ round, e.src ≠ none) ∧ ∃ e ∈ round, ∃ i, e.dst = some i ∧ i.memAReady = true

def AnswersMove (round : List (Inputs aw dw sw)) : Prop :=
  (∃ e ∈ round, e.dst ≠ none) ∧ ∃ e ∈ round, ∃ i, e.src = some i ∧ i.memDReady = true

theorem fairA {round : List (Inputs aw dw sw)} (moves : RequestsMove round) :
    Fair (fun b e => Channel.tick b (edgesA (bridgeEdges e))) round := by
  obtain ⟨⟨e,mem,edge⟩,e',mem',i,edge',ready⟩ := moves
  intro b
  cases b with
  | false => exact ⟨e,mem,by simpa [Channel.tick,edgesA,bridgeEdges] using edge⟩
  | true => exact ⟨e',mem',by simp [Channel.tick,edgesA,bridgeEdges,edge',ready]⟩

theorem fairD {round : List (Inputs aw dw sw)} (moves : AnswersMove round) :
    Fair (fun b e => Channel.tick b (edgesD (bridgeEdges e))) round := by
  obtain ⟨⟨e,mem,edge⟩,e',mem',i,edge',ready⟩ := moves
  intro b
  cases b with
  | false => exact ⟨e,mem,by simpa [Channel.tick,edgesD,bridgeEdges] using edge⟩
  | true => exact ⟨e',mem',by simp [Channel.tick,edgesD,bridgeEdges,edge',ready]⟩

theorem settledRun (positive : 0 < n) (settled : Settled cycles n s) (empty : Empty s) (post : List (Inputs aw dw sw)) :
    Settled cycles n ((machine cycles).final s post) ∧
      (machine cycles).history sysAAt s post =
        (machine cycles).history periphAAt s post ++ contentsA ((machine cycles).final s post) ∧
      (machine cycles).history periphDAt s post =
        (machine cycles).history sysDAt s post ++ contentsD ((machine cycles).final s post) := by
  have stepA (s : System aw dw sw) (e : Inputs aw dw sw) (settled : Settled cycles n s) :
      Settled cycles n ((machine cycles).next s e) ∧
        contentsA s ++ sysAAt s e = periphAAt s e ++ contentsA ((machine cycles).next s e) := by
    obtain ⟨next,_,moved,_⟩ := settledStep positive settled e
    exact ⟨next,moved⟩
  have stepD (s : System aw dw sw) (e : Inputs aw dw sw) (settled : Settled cycles n s) :
      Settled cycles n ((machine cycles).next s e) ∧
        contentsD s ++ periphDAt s e = sysDAt s e ++ contentsD ((machine cycles).next s e) := by
    obtain ⟨next,_,_,moved⟩ := settledStep positive settled e
    exact ⟨next,moved⟩
  obtain ⟨last,movedA⟩ := conserved stepA settled post
  obtain ⟨_,movedD⟩ := conserved stepD settled post
  have emptyA : contentsA s = [] := by rw [contentsA,empty.1]; rfl
  have emptyD : contentsD s = [] := empty.2
  rw [emptyA] at movedA
  rw [emptyD] at movedD
  exact ⟨last,movedA,movedD⟩

theorem contentsShort (s : System aw dw sw) : (contentsA s).length ≤ 3 ∧ (contentsD s).length ≤ 3 := by
  constructor
  · rw [contentsA,List.length_map]
    exact Channel.contentsShort _
  · exact Channel.contentsShort _

/- Whatever the bridge held: after a pulse of the controller into which fall the edges of the
peripheral clock that the synchroniser needs and one more, the bridge passes the requests
accepted since, in order and once each, and the answers to them, and nothing else. -/
theorem startsAnew (stages : Nat) (valid : 2 ≤ stages) (cycles : Nat) (s : System aw dw sw) (built : Built s stages)
    (e : Inputs aw dw sw) (edge : e.src ≠ none) (pulse : List (Inputs aw dw sw))
    (isPulse : Pulse cycles (step cycles true s e) pulse) (covers : stages + 1 ≤ periphEdges pulse)
    (post : List (Inputs aw dw sw)) :
    let here := (machine cycles).final (step cycles true s e) pulse
    let run : Machine (System aw dw sw) (Inputs aw dw sw) Unit := machine cycles
    (∃ waiting, run.history sysAAt here post = run.history periphAAt here post ++ waiting ∧ waiting.length ≤ 3) ∧
    (∃ waiting, run.history periphDAt here post = run.history sysDAt here post ++ waiting ∧ waiting.length ≤ 3) ∧
    ((run.history periphDAt here post).length ≤ (run.history periphAAt here post).length →
      (run.history sysAAt here post).zip (run.history sysDAt here post) <+:
        (run.history periphAAt here post).zip (run.history periphDAt here post)) ∧
    (lines (run.final here post) = .released →
      ∀ rounds : List (List (Inputs aw dw sw)), 3 * (2 * stages + 6) ≤ rounds.length →
        ((∀ round ∈ rounds, RequestsMove round) →
          run.history sysAAt here post <+: run.history periphAAt here (post ++ rounds.flatten)) ∧
        ((∀ round ∈ rounds, AnswersMove round) →
          run.history periphDAt here post <+: run.history sysDAt here (post ++ rounds.flatten))) := by
  intro here run
  have up : (step cycles true s e).controller.rstOut = true := by rw [resetBegins s edge]
  have filled : Filled stages 0 (step cycles true s e) := ⟨builtStep built true e,by simp,by omega⟩
  obtain ⟨settled,empty⟩ := pulseSettles (by omega) filled up isPulse (by omega)
  obtain ⟨last,(requests : run.history sysAAt here post = _ ++ contentsA (run.final here post)),
    (answers : run.history periphDAt here post = _ ++ contentsD (run.final here post))⟩ :=
      settledRun (by omega) settled empty post
  obtain ⟨shortA,shortD⟩ := contentsShort (run.final here post)
  refine ⟨⟨_,requests,shortA⟩,⟨_,answers,shortD⟩,fun asked => ?_,fun released rounds enough => ⟨fun fair => ?_,fun fair => ?_⟩⟩
  · rw [answers,List.length_append] at asked
    rw [requests,answers]
    refine zipPrefix _ _ _ _ (Nat.le_trans (Nat.le_add_right _ _) asked)
  · have rest := (rankedA (by omega)).settles ⟨last,released⟩ shortA rounds (fun r mem => fairA (fair r mem)) enough
    rw [requests,historyAppend]
    exact (List.prefix_append_right_inj _).mpr rest
  · have rest := (rankedD (by omega)).settles ⟨last,released⟩ shortD rounds (fun r mem => fairD (fair r mem)) enough
    rw [answers,historyAppend]
    exact (List.prefix_append_right_inj _).mpr rest

/- 24 edges of the system clock for each of the peripheral clock, three stages and the default
pulse of eight counted cycles, into which no peripheral edge falls. -/
def idleHalves : Channel (BitVec 67) × Channel (BitVec 32) :=
  let off : List Bool := List.replicate 3 false
  (⟨true,false,0,⟨⟨false,false,true,0,off⟩,⟨false,0,false,false,off⟩⟩,false,0⟩,
    ⟨true,false,0,⟨⟨false,false,true,0,off⟩,⟨false,0,false,false,off⟩⟩,false,0⟩)

def idleSystem : System 32 32 2 := ⟨⟨8,false⟩,List.replicate 3 true,idleHalves.1,idleHalves.2⟩

def store : Request 32 32 2 := ⟨0x40001000,7,true,2⟩

def sysTick (asks : Bool) : Inputs 32 32 2 := ⟨some ⟨store,asks,true,false,false,0⟩,none⟩
def periphTick : Inputs 32 32 2 := ⟨none,some ⟨⟨true,0,false,false,false,0⟩,false⟩⟩

def periods (k : Nat) : List (Inputs 32 32 2) := (List.replicate k (periphTick :: List.replicate 24 (sysTick false))).flatten

def shortPulse : List (Inputs 32 32 2) := List.replicate 9 (sysTick false)

/- The store reaches the peripheral before the reset, and again after it. -/
theorem shortPulseReplays :
    let run : Machine (System 32 32 2) (Inputs 32 32 2) Unit := machine 8
    let before := run.final idleSystem (sysTick true :: periods 8)
    let after := run.final (step 8 true before (sysTick false)) shortPulse
    Pulse 8 (step 8 true before (sysTick false)) shortPulse ∧
      run.history periphAAt idleSystem (sysTick true :: periods 8) = [store] ∧
      run.history sysAAt after (periods 8) = [] ∧ run.history periphAAt after (periods 8) = [store] := by
  decide +kernel

def longPulse : List (Inputs 32 32 2) := List.replicate 4 periphTick ++ shortPulse

theorem longPulseForgets :
    let run : Machine (System 32 32 2) (Inputs 32 32 2) Unit := machine 8
    let before := run.final idleSystem (sysTick true :: periods 8)
    let after := run.final (step 8 true before (sysTick false)) longPulse
    ∃ waiting, run.history sysAAt after (periods 8) = run.history periphAAt after (periods 8) ++ waiting ∧
      waiting.length ≤ 3 :=
  (startsAnew 3 (by decide) 8 ((machine 8).final idleSystem (sysTick true :: periods 8)) (by decide +kernel)
    (sysTick false) (by decide) longPulse (by decide +kernel) (by decide) (periods 8)).1

end Resettable
end RiscvSoc.BusCdc
