import RiscvSoc.Rtl.CdcHandshake

/-! What `cdc_handshake.sv` delivers, for every interleaving of the two clocks. -/
namespace RiscvSoc.CdcHandshake
open Mealy Machine
open ClockCrossing
variable {α : Type}

def Below (l' l : Lines) : Prop := (l'.src = true → l.src = true) ∧ (l'.dst = true → l.dst = true)

def inFlight (s : Regs α) : List α :=
  if s.dst.valid then [s.dst.data]
  else if s.src.pending && s.src.reqToggle != s.dst.ackToggle then [s.src.dataHold]
  else []

/- The toggles run after one another around the ring: request, its synchroniser, acknowledge,
its synchroniser. A side still in reset has seen no toggle at all. -/
inductive Phase (n : Nat) (l : Lines) (s : Regs α) : Prop where
  | idle (q : Bool) (d x : α) (src : s.src = ⟨q,false,true,d,List.replicate n q⟩)
      (dst : s.dst = ⟨false,x,q,q,List.replicate n q⟩) (low : l.src = true ∨ l.dst = true → q = false)
  | requested (q : Bool) (d x : α) (i : Nat) (src : s.src = ⟨q,true,false,d,List.replicate n (!q)⟩)
      (dst : s.dst = ⟨false,x,!q,!q,front n i q⟩) (within : i ≤ n) (started : l.src = false)
      (unseen : l.dst = true → i = 0 ∧ q = true)
  | presented (q : Bool) (d x : α) (src : s.src = ⟨q,true,false,d,List.replicate n (!q)⟩)
      (dst : s.dst = ⟨true,x,!q,q,List.replicate n q⟩) (up : l.src = false ∧ l.dst = false)
  | acked (q : Bool) (d x : α) (j : Nat) (src : s.src = ⟨q,true,false,d,front n j q⟩)
      (dst : s.dst = ⟨false,x,q,q,List.replicate n q⟩) (within : j ≤ n) (up : l.src = false ∧ l.dst = false)

@[simp] theorem doutSteady {n : Nat} (positive : 0 < n) (q : Bool) : dout (List.replicate n q) = q := by
  rw [dout,← frontAll n q,lastFront q (Nat.le_refl n) positive,if_pos rfl]

theorem doutFront {n i : Nat} (positive : 0 < n) (within : i ≤ n) (q : Bool) :
    dout (front n i q) = if i = n then q else !q := lastFront q within positive

theorem clearSteady (n : Nat) (q value : Bool) : clear value (List.replicate n q) = List.replicate n value := by
  rw [← frontAll n q,clearFront n n q value (Nat.le_refl n)]

variable {n : Nat} {l l' : Lines}

/- What an edge can sample: the toggle of the other side before the moment or after it, and the
held word unless it is being replaced. -/
theorem nextSrcCases (l : Lines) (s : Regs α) (e : Edges (Offer α) (Demand α)) :
    (e.src = none ∧ nextSrc l s e = s.src) ∨
    ∃ i ack, e.src = some i ∧ (ack = s.dst.ackToggle ∨ ack = nextAck l s e) ∧
      nextSrc l s e = s.src.edge l.src i.valid i.data ack := by
  rcases e with ⟨_ | i,dst⟩
  · exact .inl ⟨rfl,rfl⟩
  · refine .inr ⟨i,if i.new then nextAck l s ⟨some i,dst⟩ else s.dst.ackToggle,rfl,?_,rfl⟩
    cases i.new <;> simp

theorem nextDstCases (l : Lines) (s : Regs α) (e : Edges (Offer α) (Demand α)) :
    (e.dst = none ∧ nextDst l s e = s.dst) ∨
    ∃ i req hold, e.dst = some i ∧ (req = s.src.reqToggle ∨ req = nextReq l s e) ∧
      (accepted l s e = [] → hold = s.src.dataHold) ∧
      nextDst l s e = s.dst.edge l.dst i.ready req hold := by
  rcases e with ⟨src,_ | i⟩
  · exact .inl ⟨rfl,rfl⟩
  · refine .inr ⟨i,if i.new then nextReq l s ⟨src,some i⟩ else s.src.reqToggle,
      if (accepted l s ⟨src,some i⟩).isEmpty then s.src.dataHold else i.mixed,rfl,?_,?_,rfl⟩
    · cases i.new <;> simp
    · intro absent
      simp [absent]

theorem reqStill {s : Regs α} {e : Edges (Offer α) (Demand α)} (rst : l.src = true → s.src.reqToggle = false)
    (empty : accepted l s e = []) : nextReq l s e = s.src.reqToggle := by
  rcases e with ⟨_ | i,dst⟩
  · rfl
  · cases held : l.src with
    | true => simp [nextReq,Src.nextReq,held,rst held]
    | false =>
      have quiet : s.src.fire i.valid = false := by simpa [accepted,held] using empty
      simp [nextReq,Src.nextReq,held,quiet]

theorem reqMoves {s : Regs α} {e : Edges (Offer α) (Demand α)} {i : Offer α} (edge : e.src = some i)
    (released : l.src = false) (fires : s.src.fire i.valid = true) : nextReq l s e = !s.src.reqToggle := by
  simp [nextReq,edge,Src.nextReq,released,fires]

theorem ackStill {s : Regs α} {e : Edges (Offer α) (Demand α)} (rst : l.dst = true → s.dst.ackToggle = false)
    (empty : taken l s e = []) : nextAck l s e = s.dst.ackToggle := by
  rcases e with ⟨src,_ | i⟩
  · rfl
  · cases held : l.dst with
    | true => simp [nextAck,Dst.nextAck,held,rst held]
    | false =>
      have quiet : s.dst.fire i.ready = false := by simpa [taken,held] using empty
      simp [nextAck,Dst.nextAck,held,quiet]

theorem notReady {s : Regs α} (e : Edges (Offer α) (Demand α)) (busy : s.src.ready = false) :
    accepted l s e = [] := by
  rcases e with ⟨_ | i,dst⟩ <;> simp [accepted,Src.fire,busy]

theorem notValid {s : Regs α} (e : Edges (Offer α) (Demand α)) (empty : s.dst.valid = false) :
    taken l s e = [] := by
  rcases e with ⟨src,_ | i⟩ <;> simp [taken,Dst.fire,empty]

theorem acceptedCases (l : Lines) (s : Regs α) (e : Edges (Offer α) (Demand α)) :
    accepted l s e = [] ∨
    ∃ i, e.src = some i ∧ l.src = false ∧ s.src.fire i.valid = true ∧ accepted l s e = [i.data] := by
  rcases e with ⟨_ | i,dst⟩
  · exact .inl rfl
  · cases held : l.src with
    | true => simp [accepted,held]
    | false => cases fires : s.src.fire i.valid <;> simp [accepted,held,fires]

theorem takenCases (l : Lines) (s : Regs α) (e : Edges (Offer α) (Demand α)) :
    taken l s e = [] ∨
    ∃ i, e.dst = some i ∧ l.dst = false ∧ s.dst.fire i.ready = true ∧ taken l s e = [s.dst.data] := by
  rcases e with ⟨src,_ | i⟩
  · exact .inl rfl
  · cases held : l.dst with
    | true => simp [taken,held]
    | false => cases fires : s.dst.fire i.ready <;> simp [taken,held,fires]

theorem freeEdge {q : Bool} (d : α) (rst : l.src = true → q = false) (valid : Bool) (data : α)
    (absent : l.src = true ∨ valid = false) :
    (⟨q,false,true,d,List.replicate n q⟩ : Src α).edge l.src valid data q = ⟨q,false,true,d,List.replicate n q⟩ := by
  cases held : l.src with
  | true => simp [Src.edge,Src.reset,clearSteady,rst held]
  | false =>
    have idle : valid = false := by simpa [held] using absent
    simp [Src.edge,Src.fire,shiftSteady,idle]

theorem quietEdge {q : Bool} (x : α) (reqs : List Bool) (same : dout reqs = q) (ready req : Bool) (hold : α) :
    (⟨false,x,q,q,reqs⟩ : Dst α).edge false ready req hold = ⟨false,x,q,q,shift req reqs⟩ := by
  simp [Dst.edge,Dst.fire,Dst.reqSeen,same]

theorem clearedEdge (x : α) (ready req : Bool) (hold : α) :
    (⟨false,x,false,false,List.replicate n false⟩ : Dst α).edge true ready req hold =
      ⟨false,x,false,false,List.replicate n false⟩ := by
  simp [Dst.edge,Dst.reset,clearSteady]

theorem quietDst {s : Regs α} {q : Bool} {x : α} (positive : 0 < n) (dst : s.dst = ⟨false,x,q,q,List.replicate n q⟩)
    (rst : l.dst = true → q = false) (e : Edges (Offer α) (Demand α)) :
    nextDst l s e = s.dst ∨ l.dst = false ∧ ∃ req, (req = s.src.reqToggle ∨ req = nextReq l s e) ∧
      nextDst l s e = ⟨false,x,q,q,shift req (List.replicate n q)⟩ := by
  rcases nextDstCases l s e with ⟨_,same⟩ | ⟨i,req,hold,_,sees,_,edge⟩
  · exact .inl same
  · rw [edge,dst]
    cases held : l.dst with
    | true =>
      cases rst held
      exact .inl (clearedEdge ..)
    | false => exact .inr ⟨rfl,req,sees,quietEdge x _ (doutSteady positive q) ..⟩

theorem idleNext (positive : 0 < n) {s : Regs α} {q : Bool} {d x : α} (src : s.src = ⟨q,false,true,d,List.replicate n q⟩)
    (dst : s.dst = ⟨false,x,q,q,List.replicate n q⟩) (low : l.src = true ∨ l.dst = true → q = false)
    (e : Edges (Offer α) (Demand α)) :
    accepted l s e = [] ∧ step l s e = s ∨
    ∃ word k, accepted l s e = [word] ∧ l.src = false ∧ k ≤ n ∧ (l.dst = true → k = 0) ∧
      step l s e = ⟨⟨!q,true,false,word,List.replicate n q⟩,⟨false,x,q,q,front n k (!q)⟩⟩ := by
  have untaken : taken l s e = [] := notValid e (by rw [dst])
  have ack : nextAck l s e = q := by
    rw [ackStill (fun held => by rw [dst]; exact low (.inr held)) untaken,dst]
  have quiet := quietDst positive dst (fun held => low (.inr held)) e
  rcases acceptedCases l s e with nothing | ⟨i,edge,released,fires,word⟩
  · have src' : nextSrc l s e = s.src := by
      rcases nextSrcCases l s e with ⟨_,same⟩ | ⟨i,ack',edge,sees,next⟩
      · exact same
      · have old : ack' = q := by rcases sees with h | h <;> simp [h,ack,dst]
        rw [next,old,src]
        refine freeEdge d (fun held => low (.inl held)) _ _ ?_
        cases held : l.src with
        | true => exact .inl rfl
        | false => exact .inr (by simpa [accepted,edge,held,src,Src.fire] using nothing)
    have dst' : nextDst l s e = s.dst := by
      rcases quiet with same | ⟨_,req,sees,next⟩
      · exact same
      · have still := reqStill (fun held => by rw [src]; exact low (.inl held)) nothing
        have old : req = q := by rcases sees with h | h <;> simp [h,still,src]
        rw [next,old,shiftSteady,dst]
    exact .inl ⟨nothing,by rw [step,src',dst']⟩
  · have src' : nextSrc l s e = ⟨!q,true,false,i.data,List.replicate n q⟩ := by
      rcases nextSrcCases l s e with ⟨absent,_⟩ | ⟨j,ack',edge',sees,next⟩
      · simp [edge] at absent
      · have old : ack' = q := by rcases sees with h | h <;> simp [h,ack,dst]
        cases edge.symm.trans edge'
        rw [next,old,Src.edge,released,fires,src,shiftSteady]
        simp
    obtain ⟨k,within,unseen,dst'⟩ : ∃ k, k ≤ n ∧ (l.dst = true → k = 0) ∧
        nextDst l s e = ⟨false,x,q,q,front n k (!q)⟩ := by
      rcases quiet with same | ⟨up,req,sees,next⟩
      · exact ⟨0,Nat.zero_le n,fun _ => rfl,by simp [same,dst]⟩
      · have moved : nextReq l s e = !q := by rw [reqMoves edge released fires,src]
        rcases sees with h | h
        · rw [h,src,shiftSteady] at next
          exact ⟨0,Nat.zero_le n,fun _ => rfl,by simp [next]⟩
        · have entered := shiftFront (!q) positive
          rw [frontNone,Bool.not_not] at entered
          rw [h,moved,entered] at next
          exact ⟨1,positive,fun held => by simp [up] at held,next⟩
    exact .inr ⟨i.data,k,word,released,within,unseen,by rw [step,src',dst']⟩

theorem busyEdge (q : Bool) (d : α) (acks : List Bool) (valid : Bool) (data : α) (ack : Bool) :
    (⟨q,true,false,d,acks⟩ : Src α).edge false valid data ack =
      if dout acks = q then ⟨q,false,true,d,shift ack acks⟩ else ⟨q,true,false,d,shift ack acks⟩ := by
  simp [Src.edge,Src.fire]

theorem busySrc {s : Regs α} {q : Bool} {d : α} (positive : 0 < n) (src : s.src = ⟨q,true,false,d,List.replicate n (!q)⟩)
    (released : l.src = false) (e : Edges (Offer α) (Demand α)) :
    nextSrc l s e = s.src ∨ ∃ ack, (ack = s.dst.ackToggle ∨ ack = nextAck l s e) ∧
      nextSrc l s e = ⟨q,true,false,d,shift ack (List.replicate n (!q))⟩ := by
  rcases nextSrcCases l s e with ⟨_,same⟩ | ⟨i,ack,_,sees,next⟩
  · exact .inl same
  · refine .inr ⟨ack,sees,?_⟩
    rw [next,src,released,busyEdge,doutSteady positive,if_neg (by simp)]

theorem requestedNext (positive : 0 < n) {s : Regs α} {q : Bool} {d x : α} {i : Nat}
    (src : s.src = ⟨q,true,false,d,List.replicate n (!q)⟩) (dst : s.dst = ⟨false,x,!q,!q,front n i q⟩)
    (within : i ≤ n) (started : l.src = false) (unseen : l.dst = true → i = 0 ∧ q = true)
    (e : Edges (Offer α) (Demand α)) :
    (e.dst = none ∨ l.dst = true) ∧ step l s e = s ∨
    e.dst ≠ none ∧ l.dst = false ∧
      step l s e = ⟨s.src,if i = n then ⟨true,d,!q,q,List.replicate n q⟩ else ⟨false,x,!q,!q,front n (i + 1) q⟩⟩ := by
  have untaken : taken l s e = [] := notValid e (by rw [dst])
  have empty : accepted l s e = [] := notReady e (by rw [src])
  have ack : nextAck l s e = !q := by
    rw [ackStill (fun held => by rw [dst,(unseen held).2]; rfl) untaken,dst]
  have req : nextReq l s e = q := by
    rw [reqStill (fun held => by simp [started] at held) empty,src]
  have src' : nextSrc l s e = s.src := by
    rcases busySrc positive src started e with same | ⟨ack',sees,next⟩
    · exact same
    · have old : ack' = !q := by rcases sees with h | h <;> simp [h,ack,dst]
      rw [next,old,shiftSteady,src]
  rcases nextDstCases l s e with ⟨absent,same⟩ | ⟨j,req',hold,edge,sees,steady,next⟩
  · exact .inl ⟨.inl absent,by rw [step,src',same]⟩
  · have old : req' = q := by rcases sees with h | h <;> simp [h,req,src]
    have word : hold = d := by rw [steady empty,src]
    rw [step,src',next,old,word,dst]
    cases up : l.dst with
    | true =>
      obtain ⟨zero,high⟩ := unseen up
      rw [zero,high,frontNone] at dst
      refine .inl ⟨.inr rfl,?_⟩
      rw [zero,high,frontNone,Bool.not_true,clearedEdge]
      exact congrArg (Regs.mk s.src) dst.symm
    | false =>
      refine .inr ⟨by simp [edge],rfl,?_⟩
      by_cases last : i = n
      · subst last
        simp [Dst.edge,Dst.fire,Dst.reqSeen,doutSteady positive,shiftSteady]
      · simp [Dst.edge,Dst.fire,Dst.reqSeen,doutFront positive within,last,shiftFront q (show i < n by omega)]

theorem presentedNext (positive : 0 < n) {s : Regs α} {q : Bool} {d x : α}
    (src : s.src = ⟨q,true,false,d,List.replicate n (!q)⟩) (dst : s.dst = ⟨true,x,!q,q,List.replicate n q⟩)
    (up : l.src = false ∧ l.dst = false) (e : Edges (Offer α) (Demand α)) :
    taken l s e = [] ∧ step l s e = s ∨
    taken l s e = [x] ∧ ∃ j, j ≤ n ∧
      step l s e = ⟨⟨q,true,false,d,front n j q⟩,⟨false,x,q,q,List.replicate n q⟩⟩ := by
  have empty : accepted l s e = [] := notReady e (by rw [src])
  have req : nextReq l s e = q := by
    rw [reqStill (fun held => by simp [up.1] at held) empty,src]
  have edges : ∀ ready req' hold, req' = q → s.dst.edge false ready req' hold =
      if ready then ⟨false,x,q,q,List.replicate n q⟩ else ⟨true,x,!q,q,List.replicate n q⟩ := by
    intro ready req' hold old
    cases ready <;> simp [dst,old,Dst.edge,Dst.fire,Dst.reqSeen,doutSteady positive,shiftSteady]
  rcases takenCases l s e with untaken | ⟨i,edge,_,fires,word⟩
  · have ack : nextAck l s e = !q := by
      rw [ackStill (fun held => by simp [up.2] at held) untaken,dst]
    have src' : nextSrc l s e = s.src := by
      rcases busySrc positive src up.1 e with same | ⟨ack',sees,next⟩
      · exact same
      · have old : ack' = !q := by rcases sees with h | h <;> simp [h,ack,dst]
        rw [next,old,shiftSteady,src]
    have dst' : nextDst l s e = s.dst := by
      rcases nextDstCases l s e with ⟨_,same⟩ | ⟨i,req',hold,edge,sees,_,next⟩
      · exact same
      · have stalled : i.ready = false := by simpa [taken,edge,up.2,dst,Dst.fire] using untaken
        rw [next,up.2,edges _ _ _ (by rcases sees with h | h <;> simp [h,req,src]),stalled,dst]
        simp
    exact .inl ⟨untaken,by rw [step,src',dst']⟩
  · have ready : i.ready = true := by simpa [dst,Dst.fire] using fires
    have dst' : nextDst l s e = ⟨false,x,q,q,List.replicate n q⟩ := by
      rcases nextDstCases l s e with ⟨absent,_⟩ | ⟨i',req',hold,edge',sees,_,next⟩
      · simp [edge] at absent
      · cases edge.symm.trans edge'
        rw [next,up.2,edges _ _ _ (by rcases sees with h | h <;> simp [h,req,src]),if_pos ready]
    obtain ⟨j,within,src'⟩ : ∃ j, j ≤ n ∧ nextSrc l s e = ⟨q,true,false,d,front n j q⟩ := by
      rcases busySrc positive src up.1 e with same | ⟨ack,sees,next⟩
      · exact ⟨0,Nat.zero_le n,by rw [same,src,frontNone]⟩
      · have moved : nextAck l s e = q := by simp [nextAck,edge,Dst.nextAck,up.2,fires]; simp [dst]
        rcases sees with h | h
        · exact ⟨0,Nat.zero_le n,by rw [next,h,dst,shiftSteady,frontNone]⟩
        · have entered := shiftFront q positive
          rw [frontNone] at entered
          exact ⟨1,positive,by rw [next,h,moved,entered]⟩
    exact .inr ⟨by rw [word,dst],j,within,by rw [step,src',dst']⟩

theorem ackedNext (positive : 0 < n) {s : Regs α} {q : Bool} {d x : α} {j : Nat}
    (src : s.src = ⟨q,true,false,d,front n j q⟩) (dst : s.dst = ⟨false,x,q,q,List.replicate n q⟩) (within : j ≤ n)
    (up : l.src = false ∧ l.dst = false) (e : Edges (Offer α) (Demand α)) :
    e.src = none ∧ step l s e = s ∨
    e.src ≠ none ∧
      step l s e = ⟨if j = n then ⟨q,false,true,d,List.replicate n q⟩ else ⟨q,true,false,d,front n (j + 1) q⟩,s.dst⟩ := by
  have untaken : taken l s e = [] := notValid e (by rw [dst])
  have empty : accepted l s e = [] := notReady e (by rw [src])
  have ack : nextAck l s e = q := by
    rw [ackStill (fun held => by simp [up.2] at held) untaken,dst]
  have req : nextReq l s e = q := by
    rw [reqStill (fun held => by simp [up.1] at held) empty,src]
  have dst' : nextDst l s e = s.dst := by
    rcases quietDst (l := l) positive dst (fun held => by simp [up.2] at held) e with same | ⟨_,req',sees,next⟩
    · exact same
    · have old : req' = q := by rcases sees with h | h <;> simp [h,req,src]
      rw [next,old,shiftSteady,dst]
  rcases nextSrcCases l s e with ⟨absent,same⟩ | ⟨i,ack',edge,sees,next⟩
  · exact .inl ⟨absent,by rw [step,same,dst']⟩
  · have old : ack' = q := by rcases sees with h | h <;> simp [h,ack,dst]
    refine .inr ⟨by simp [edge],?_⟩
    rw [step,dst',next,old,src,up.1,busyEdge,doutFront positive within]
    by_cases last : j = n
    · subst last
      simp [shiftSteady]
    · simp [last,shiftFront q (show j < n by omega)]

theorem phaseStep (positive : 0 < n) {s : Regs α} (phase : Phase n l s) (below : Below l' l)
    (e : Edges (Offer α) (Demand α)) :
    Phase n l' (step l s e) ∧ inFlight s ++ accepted l s e = taken l s e ++ inFlight (step l s e) := by
  have low {b b' : Bool} (down : b' = true → b = true) (up : b = false) : b' = false :=
    Bool.eq_false_iff.mpr fun high => by simp [down high] at up
  have low' (up : l.src = false ∧ l.dst = false) : l'.src = false ∧ l'.dst = false :=
    ⟨low below.1 up.1,low below.2 up.2⟩
  cases phase with
  | idle q d x src dst rst =>
    rw [notValid e (by rw [dst])]
    rcases idleNext positive src dst rst e with ⟨absent,same⟩ | ⟨word,k,fires,started,within,unseen,next⟩
    · rw [absent,same]
      exact ⟨.idle q d x src dst fun held => rst (held.imp below.1 below.2),List.append_nil _⟩
    · have gone : l'.dst = true → k = 0 ∧ (!q) = true := fun held =>
        ⟨unseen (below.2 held),by simp [rst (.inr (below.2 held))]⟩
      rw [fires,next]
      exact ⟨.requested (!q) word x k (by simp) (by simp) within (low below.1 started) gone,by simp [inFlight,src,dst]⟩
  | requested q d x i src dst within started unseen =>
    rw [notReady e (by rw [src]),notValid e (by rw [dst])]
    rcases requestedNext positive src dst within started unseen e with ⟨_,same⟩ | ⟨_,up,next⟩
    · rw [same]
      exact ⟨.requested q d x i src dst within (low below.1 started) fun held => unseen (below.2 held),List.append_nil _⟩
    · rw [next]
      by_cases last : i = n
      · exact ⟨.presented q d d src (if_pos last) (low' ⟨started,up⟩),by simp [inFlight,src,dst,last]⟩
      · refine ⟨.requested q d x (i + 1) src (if_neg last) (by omega) (low below.1 started) fun high => ?_,
          by simp [inFlight,src,dst,last]⟩
        simp [low below.2 up] at high
  | presented q d x src dst up =>
    rw [notReady e (by rw [src])]
    rcases presentedNext positive src dst up e with ⟨absent,same⟩ | ⟨fires,j,within,next⟩
    · rw [absent,same]
      exact ⟨.presented q d x src dst (low' up),List.append_nil _⟩
    · rw [fires,next]
      exact ⟨.acked q d x j rfl rfl within (low' up),by simp [inFlight,dst]⟩
  | acked q d x j src dst within up =>
    rw [notReady e (by rw [src]),notValid e (by rw [dst])]
    rcases ackedNext positive src dst within up e with ⟨_,same⟩ | ⟨_,next⟩
    · rw [same]
      exact ⟨.acked q d x j src dst within (low' up),List.append_nil _⟩
    · rw [next]
      by_cases last : j = n
      · exact ⟨.idle q d x (if_pos last) dst fun held => by simp [low' up] at held,by simp [inFlight,src,dst,last]⟩
      · exact ⟨.acked q d x (j + 1) (if_neg last) dst (by omega) (low' up),by simp [inFlight,src,dst,last]⟩

theorem resetPhase {s : Regs α} (stages : Stages n s) (l : Lines) : Phase n l (reset s) := by
  have ack : clear false s.src.ackSync = List.replicate n false := by
    rw [clear,List.map_const',stages.1]
  have req : clear false s.dst.reqSync = List.replicate n false := by
    rw [clear,List.map_const',stages.2]
  refine .idle false s.src.dataHold s.dst.data ?_ ?_ fun _ => rfl
  · rw [reset,Src.reset,ack]
  · rw [reset,Dst.reset,req]

theorem releaseBelow {ι κ : Type} (l : Lines) (m : Moment ι κ) : Below (l.release m) l := by
  constructor <;> simp only [Lines.release,Bool.and_eq_true] <;> exact And.left

/- From reset, whichever side leaves it first, the words taken are those accepted, in order,
but for at most one that is on its way. -/
theorem deliversInOrder (stages : Nat) (valid : 2 ≤ stages) (s : Regs α) (built : Stages stages s)
    (inputs : List (Moment (Offer α) (Demand α))) :
    ∃ flight, machine.history acceptedAt ⟨.asserted,reset s⟩ inputs =
        machine.history takenAt ⟨.asserted,reset s⟩ inputs ++ flight ∧ flight.length ≤ 1 := by
  have step (s : Started (Regs α)) (m : Moment (Offer α) (Demand α)) (phase : Phase stages s.lines s.regs) :
      Phase stages (machine.next s m).lines (machine.next s m).regs ∧
        inFlight s.regs ++ acceptedAt s m = takenAt s m ++ inFlight (machine.next s m).regs :=
    phaseStep (by omega) phase (releaseBelow s.lines m) m.toEdges
  have start : Phase stages Lines.asserted (reset s) := resetPhase built .asserted
  obtain ⟨_,all⟩ := machine.conserved step (s := ⟨.asserted,reset s⟩) start inputs
  refine ⟨inFlight (machine.final ⟨.asserted,reset s⟩ inputs).regs,by simpa [inFlight,reset,Dst.reset,Src.reset] using all,?_⟩
  simp only [inFlight]
  split
  · simp
  · split <;> simp

/- The source leaves reset first and offers a word at once; a toggle is seen late. -/
def idleRegs (stages : Nat) : Regs Nat :=
  ⟨⟨false,false,true,0,List.replicate stages false⟩,⟨false,0,false,false,List.replicate stages false⟩⟩

def early : List (Moment (Offer Nat) (Demand Nat)) :=
  [⟨⟨none,none⟩,true,false⟩,⟨⟨some ⟨true,7,false⟩,some ⟨true,true,9⟩⟩,false,false⟩,⟨⟨none,none⟩,false,true⟩,
    ⟨⟨some ⟨true,8,true⟩,some ⟨true,false,9⟩⟩,false,false⟩,⟨⟨none,some ⟨true,false,9⟩⟩,false,false⟩,
    ⟨⟨none,some ⟨true,false,9⟩⟩,false,false⟩,⟨⟨none,some ⟨true,false,9⟩⟩,false,false⟩]

theorem earlyDelivered : ∃ flight, machine.history acceptedAt ⟨.asserted,reset (idleRegs 2)⟩ early =
    machine.history takenAt ⟨.asserted,reset (idleRegs 2)⟩ early ++ flight ∧ flight.length ≤ 1 :=
  deliversInOrder 2 (Nat.le_refl 2) (idleRegs 2) ⟨rfl,rfl⟩ early

example : machine.history takenAt ⟨.asserted,reset (idleRegs 2)⟩ early = [7] := by decide +kernel

end RiscvSoc.CdcHandshake
