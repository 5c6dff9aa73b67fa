import RiscvSoc.Lib.Progress
import RiscvSoc.Rtl.BusCdcBridge
import RiscvSoc.Rtl.CdcDelivery

/-! What `bus_cdc_bridge.sv` delivers: each direction conserves its words, and moves them on. -/
namespace RiscvSoc.BusCdc
open Mealy Machine
open ClockCrossing
open CdcHandshake (Offer Demand Phase Below inFlight)
variable {α : Type} {n : Nat} {l l' : Lines}

namespace Channel

def front (s : Channel α) : List α := if s.dstValid then [s.dstPayload] else []
def back (s : Channel α) : List α := if s.srcValid then [s.srcPayload] else []
def contents (s : Channel α) : List α := front s ++ (inFlight s.cdc ++ back s)

structure Sound (n : Nat) (l : Lines) (s : Channel α) : Prop where
  cdc : Phase n l s.cdc
  room : s.srcReady = !s.srcValid
  src : l.src = true → s.srcValid = false
  dst : l.dst = true → s.dstValid = false

theorem backStep {s : Channel α} (sound : Sound n l s) (e : Edges (Offer α) (Demand α)) :
    back s ++ accepted l s e = CdcHandshake.accepted l s.cdc (crossing s e) ++ back (step l s e) ∧
    (step l s e).srcReady = !(step l s e).srcValid ∧
    (l.src = true → (step l s e).srcValid = false) := by
  have room := sound.room
  rcases e with ⟨_ | i,dst⟩
  · exact ⟨List.append_nil _,room,sound.src⟩
  · cases held : l.src with
    | true => simp [back,accepted,CdcHandshake.accepted,crossing,step,srcEdge,held,sound.src held]
    | false =>
      cases full : s.srcValid <;> cases asks : i.valid <;> cases ready : s.cdc.src.ready <;>
        simp [back,accepted,CdcHandshake.accepted,CdcHandshake.Src.fire,crossing,step,srcEdge,srcNextValid,
          enqueue,dequeue,held,room,full,asks,ready]

theorem frontStep {s : Channel α} (sound : Sound n l s) (e : Edges (Offer α) (Demand α)) :
    front s ++ CdcHandshake.taken l s.cdc (crossing s e) = delivered l s e ++ front (step l s e) ∧
    (l.dst = true → (step l s e).dstValid = false) := by
  rcases e with ⟨src,_ | i⟩
  · exact ⟨List.append_nil _,sound.dst⟩
  · cases held : l.dst with
    | true => simp [front,delivered,CdcHandshake.taken,crossing,step,dstEdge,held,sound.dst held]
    | false =>
      cases full : s.dstValid <;> cases ready : i.ready <;> cases valid : s.cdc.dst.valid <;>
        simp [front,delivered,CdcHandshake.taken,CdcHandshake.Dst.fire,crossing,step,dstEdge,cdcDstReady,
          held,full,ready,valid]

theorem soundStep (positive : 0 < n) {s : Channel α} (sound : Sound n l s) (below : Below l' l)
    (e : Edges (Offer α) (Demand α)) :
    Sound n l' (step l s e) ∧ contents s ++ accepted l s e = delivered l s e ++ contents (step l s e) := by
  obtain ⟨phase,crossed⟩ := CdcHandshake.phaseStep positive sound.cdc below (crossing s e)
  obtain ⟨behind,room,src⟩ := backStep sound e
  obtain ⟨before,dst⟩ := frontStep sound e
  refine ⟨⟨phase,room,fun held => src (below.1 held),fun held => dst (below.2 held)⟩,?_⟩
  calc contents s ++ accepted l s e
      = front s ++ (inFlight s.cdc ++ (back s ++ accepted l s e)) := by simp [contents]
    _ = front s ++ ((inFlight s.cdc ++ CdcHandshake.accepted l s.cdc (crossing s e)) ++ back (step l s e)) := by
        rw [behind,List.append_assoc]
    _ = (front s ++ CdcHandshake.taken l s.cdc (crossing s e)) ++
          (inFlight (step l s e).cdc ++ back (step l s e)) := by
        rw [crossed,List.append_assoc,List.append_assoc]
        rfl
    _ = delivered l s e ++ contents (step l s e) := by rw [before,List.append_assoc,contents]

theorem contentsShort (s : Channel α) : (contents s).length ≤ 3 := by
  have one (b : Bool) (x : α) : (if b then [x] else []).length ≤ 1 := by cases b <;> simp
  have mid : (inFlight s.cdc).length ≤ 1 := by
    rw [inFlight]
    split
    · simp
    · exact one _ _
  simp only [contents,List.length_append]
  have first := one s.dstValid s.dstPayload
  have last := one s.srcValid s.srcPayload
  simp only [front,back]
  omega

/- Edges until the next word is delivered: those of the destination while it is at the crossing
or behind it, before that those of the source. -/
def distance (n : Nat) (s : Channel α) : Nat :=
  if s.dstValid then 1
  else if s.cdc.dst.valid then 2
  else if s.cdc.src.pending then
    if s.cdc.src.reqToggle = s.cdc.dst.ackToggle then n + 5 + s.cdc.src.ackSync.count (!s.cdc.src.reqToggle)
    else s.cdc.dst.reqSync.count (!s.cdc.src.reqToggle) + 3
  else n + 4

def waitsDst (n : Nat) (s : Channel α) : Bool := decide (distance n s ≤ n + 3)

def tick (b : Bool) (e : Edges (Offer α) (Demand α)) : Prop :=
  if b then ∃ i, e.dst = some i ∧ i.ready = true else e.src ≠ none

theorem countFront (n i : Nat) (q : Bool) : (ClockCrossing.front n i q).count (!q) = n - i := by
  cases q <;> simp [ClockCrossing.front,List.count_append,List.count_replicate]

section
variable {s : Channel α} {q : Bool} {d x : α}

theorem distanceIdle (front : s.dstValid = false) (src : s.cdc.src = ⟨q,false,true,d,List.replicate n q⟩)
    (dst : s.cdc.dst = ⟨false,x,q,q,List.replicate n q⟩) : distance n s = n + 4 := by
  simp [distance,front,src,dst]

theorem distanceRequested {i : Nat} (front : s.dstValid = false)
    (src : s.cdc.src = ⟨q,true,false,d,List.replicate n (!q)⟩)
    (dst : s.cdc.dst = ⟨false,x,!q,!q,ClockCrossing.front n i q⟩) : distance n s = n - i + 3 := by
  simp [distance,front,src,dst,countFront]

theorem distancePresented (front : s.dstValid = false) (valid : s.cdc.dst.valid = true) : distance n s = 2 := by
  simp [distance,front,valid]

theorem distanceAcked {j : Nat} (front : s.dstValid = false)
    (src : s.cdc.src = ⟨q,true,false,d,ClockCrossing.front n j q⟩)
    (dst : s.cdc.dst = ⟨false,x,q,q,List.replicate n q⟩) : distance n s = n + 5 + (n - j) := by
  simp [distance,front,src,dst,countFront]

end

theorem distanceBound {s : Channel α} (sound : Sound n l s) : distance n s ≤ 2 * n + 5 := by
  cases front : s.dstValid with
  | true => simp only [distance,front,if_true]; omega
  | false => cases sound.cdc with
    | idle q d x src dst => rw [distanceIdle front src dst]; omega
    | requested q d x i src dst => rw [distanceRequested front src dst]; omega
    | presented q d x src dst => rw [distancePresented front (by rw [dst])]; omega
    | acked q d x j src dst => rw [distanceAcked front src dst]; omega

theorem frontStays {s : Channel α} (front : s.dstValid = false) (absent : s.cdc.dst.valid = false)
    (e : Edges (Offer α) (Demand α)) : (step l s e).dstValid = false := by
  rcases e with ⟨src,_ | i⟩
  · exact front
  · cases held : l.dst <;> simp [step,dstEdge,front,absent,held]

theorem waitingBehind {s : Channel α} (held : contents s ≠ []) (head : s.dstValid = false)
    (empty : inFlight s.cdc = []) : s.srcValid = true := by
  cases full : s.srcValid with
  | true => rfl
  | false => exact absurd (by simp [contents,front,back,head,empty,full]) held

/- Every step delivers the next word, or brings it nearer, or leaves it where it is for want of
the edge it waits for. -/
theorem moves (positive : 0 < n) {s : Channel α} (sound : Sound n .released s) (held : contents s ≠ [])
    (e : Edges (Offer α) (Demand α)) :
    delivered .released s e ≠ [] ∨ distance n (step .released s e) < distance n s ∨
    distance n (step .released s e) = distance n s ∧ ¬tick (waitsDst n s) e := by
  have cdc : (step .released s e).cdc = CdcHandshake.step .released s.cdc (crossing s e) := rfl
  cases front : s.dstValid with
  | true =>
    have here : distance n s = 1 := by simp [distance,front]
    rcases e with ⟨src,_ | i⟩
    · exact .inr (.inr ⟨by simp [distance,step,front],by simp [tick,waitsDst,here]⟩)
    · cases ready : i.ready with
      | true => exact .inl (by simp [delivered,Lines.released,front,ready])
      | false =>
        refine .inr (.inr ⟨?_,by simp [tick,waitsDst,here,ready]⟩)
        simp [distance,step,dstEdge,Lines.released,cdcDstReady,front,ready]
  | false => cases sound.cdc with
    | presented q d x src dst up =>
      have here := distancePresented (n := n) front (by rw [dst])
      rcases e with ⟨offer,_ | i⟩
      · right; right
        refine ⟨?_,by simp [tick,waitsDst,here]⟩
        rcases CdcHandshake.presentedNext positive src dst up (crossing s ⟨offer,none⟩) with ⟨_,same⟩ | ⟨took,_⟩
        · rw [here]
          exact distancePresented front (by rw [cdc,same,dst])
        · simp [CdcHandshake.taken,crossing] at took
      · refine .inr (.inl ?_)
        rw [here]
        simp [distance,step,dstEdge,Lines.released,cdcDstReady,front,dst]
    | requested q d x i src dst within started unseen =>
      have here := distanceRequested front src dst
      have head := frontStays (l := .released) front (by rw [dst]) e
      rcases CdcHandshake.requestedNext positive src dst within started unseen (crossing s e) with
        ⟨absent,same⟩ | ⟨_,_,next⟩
      · right; right
        refine ⟨?_,?_⟩
        · rw [here]
          exact distanceRequested head (by rw [cdc,same,src]) (by rw [cdc,same,dst])
        · have nothing : e.dst = none := by simpa [crossing,Lines.released] using absent
          have kind : waitsDst n s = true := by simp only [waitsDst,here,decide_eq_true_eq]; omega
          simp [tick,kind,nothing]
      · refine .inr (.inl ?_)
        rw [here]
        by_cases last : i = n
        · rw [distancePresented head (by rw [cdc,next,if_pos last])]
          omega
        · rw [distanceRequested head (by rw [cdc,next]; exact src) (by rw [cdc,next]; exact if_neg last)]
          omega
    | idle q d x src dst low =>
      have here := distanceIdle front src dst
      have head := frontStays (l := .released) front (by rw [dst]) e
      have waiting := waitingBehind held front (by simp [inFlight,src,dst])
      rcases CdcHandshake.idleNext positive src dst low (crossing s e) with ⟨nothing,same⟩ | ⟨word,k,_,_,_,_,next⟩
      · right; right
        refine ⟨?_,?_⟩
        · rw [here]
          exact distanceIdle head (by rw [cdc,same,src]) (by rw [cdc,same,dst])
        · have kind : waitsDst n s = false := by simp only [waitsDst,here,decide_eq_false_iff_not]; omega
          rcases e with ⟨_ | i,edge⟩
          · simp [tick,kind]
          · simp [CdcHandshake.accepted,crossing,CdcHandshake.Src.fire,Lines.released,waiting,src] at nothing
      · refine .inr (.inl ?_)
        rw [here,distanceRequested (q := !q) head (by rw [cdc,next,Bool.not_not]) (by rw [cdc,next,Bool.not_not])]
        omega
    | acked q d x j src dst within up =>
      have here := distanceAcked front src dst
      have head := frontStays (l := .released) front (by rw [dst]) e
      rcases CdcHandshake.ackedNext positive src dst within up (crossing s e) with ⟨absent,same⟩ | ⟨_,next⟩
      · right; right
        refine ⟨?_,?_⟩
        · rw [here]
          exact distanceAcked head (by rw [cdc,same,src]) (by rw [cdc,same,dst])
        · have nothing : e.src = none := by simpa [crossing] using absent
          have kind : waitsDst n s = false := by simp only [waitsDst,here,decide_eq_false_iff_not]; omega
          simp [tick,kind,nothing]
      · refine .inr (.inl ?_)
        rw [here]
        by_cases last : j = n
        · rw [distanceIdle head (by rw [cdc,next]; exact if_pos last) (by rw [cdc,next]; exact dst)]
          omega
        · rw [distanceAcked head (by rw [cdc,next]; exact if_neg last) (by rw [cdc,next]; exact dst)]
          omega

end Channel
end RiscvSoc.BusCdc
