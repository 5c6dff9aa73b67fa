/-! A switch between masters and slaves with one request on its way in, one outstanding request
at each slave and one reply on its way out. A log of what crosses its ports says which answer
belongs to which request; a master that waits for its answer before it asks again gets its own. -/
namespace Crossbar
variable {μ σ ρ δ : Type} [DecidableEq μ] [DecidableEq σ]

@[ext] structure State (μ σ ρ δ : Type) where
  pending : Option (μ × ρ)
  waiting : σ → Option μ
  reply : Option (μ × δ)

structure Log (μ σ ρ δ : Type) where
  accepted : List (μ × ρ)
  delivered : List (σ × ρ)
  taken : List (σ × δ)
  returned : List (μ × δ)
  deriving DecidableEq, Repr

namespace Log

def empty : Log μ σ ρ δ := ⟨[],[],[],[]⟩

end Log

def share {κ α : Type} [DecidableEq κ] (xs : List (κ × α)) (k : κ) : List α :=
  (xs.filter fun x => decide (x.1 = k)).map Prod.snd

@[simp] theorem shareNil {κ α : Type} [DecidableEq κ] (k : κ) : share ([] : List (κ × α)) k = [] := rfl
@[simp] theorem shareAppend {κ α : Type} [DecidableEq κ] (xs ys : List (κ × α)) (k : κ) :
    share (xs ++ ys) k = share xs k ++ share ys k := by simp [share]
@[simp] theorem shareSame {κ α : Type} [DecidableEq κ] (k : κ) (a : α) : share [(k,a)] k = [a] := by
  simp [share]
theorem shareOther {κ α : Type} [DecidableEq κ] {k j : κ} (a : α) (other : j ≠ k) : share [(j,a)] k = [] := by
  simp [share,other]

variable (route : ρ → Option σ) (zero : δ)

def ofMaster (m : μ) (xs : List (μ × ρ)) : Nat := xs.countP fun x => decide (x.1 = m)
def toSlave (s : σ) (xs : List (μ × ρ)) : Nat := xs.countP fun x => decide (route x.2 = some s)

def toward (x : μ × ρ) : Option (σ × ρ) := (route x.2).map fun s => (s,x.2)

def Answer (taken : List (σ × δ)) (accepted : List (μ × ρ)) (p : Nat) (r : ρ) (d : δ) : Prop :=
  match route r with
  | none => d = zero
  | some s => (share taken s)[toSlave route s (accepted.take p)]? = some d

inductive Step : State μ σ ρ δ → Log μ σ ρ δ → State μ σ ρ δ → Log μ σ ρ δ → Prop where
  | accept {s l} (m r) (free : s.pending = none)
      (waits : ofMaster m l.accepted = (share l.returned m).length) :
      Step s l {s with pending := some (m,r)} {l with accepted := l.accepted ++ [(m,r)]}
  | forward {s l m r} (x) (pending : s.pending = some (m,r)) (mapped : route r = some x)
      (free : s.waiting x = none) :
      Step s l {s with
        pending := none
        waiting := fun y => if y = x then some m else s.waiting y}
        {l with delivered := l.delivered ++ [(x,r)]}
  | refuse {s l m r} (pending : s.pending = some (m,r)) (unmapped : route r = none)
      (free : s.reply = none) :
      Step s l {s with pending := none, reply := some (m,zero)} l
  | answer {s l m} (x d) (waiting : s.waiting x = some m) (free : s.reply = none) :
      Step s l {s with
        waiting := fun y => if y = x then none else s.waiting y
        reply := some (m,d)}
        {l with taken := l.taken ++ [(x,d)]}
  | finish {s l m d} (reply : s.reply = some (m,d)) :
      Step s l {s with reply := none} {l with returned := l.returned ++ [(m,d)]}

inductive Runs : State μ σ ρ δ → Log μ σ ρ δ → State μ σ ρ δ → Log μ σ ρ δ → Prop where
  | same {s l} : Runs s l s l
  | more {s l t k u j} (before : Runs s l t k) (step : Step route zero t k u j) : Runs s l u j

def Busy (s : State μ σ ρ δ) (m : μ) : Prop :=
  (∃ r, s.pending = some (m,r)) ∨ (∃ x, s.waiting x = some m) ∨ ∃ d, s.reply = some (m,d)

structure Open (l : Log μ σ ρ δ) (before : List (μ × ρ)) (m : μ) (r : ρ) (p : Nat) : Prop where
  entry : before[p]? = some (m,r)
  turn : ofMaster m (before.take p) = (share l.returned m).length

/- What holds of a switch and its log, `before` being the requests that left the pending place. -/
structure Kept (s : State μ σ ρ δ) (l : Log μ σ ρ δ) (before : List (μ × ρ)) : Prop where
  accepted : l.accepted = before ++ s.pending.toList
  delivered : l.delivered = before.filterMap (toward route)
  taken : ∀ x, toSlave route x before = (share l.taken x).length + if (s.waiting x).isSome then 1 else 0
  counted : ∀ m, ofMaster m l.accepted = (share l.returned m).length ∧ ¬ Busy s m ∨
    ofMaster m l.accepted = (share l.returned m).length + 1 ∧ Busy s m
  newest : ∀ m r, s.pending = some (m,r) → ofMaster m before = (share l.returned m).length
  waits : ∀ x m, s.waiting x = some m → ∃ p r, Open l before m r p ∧ route r = some x ∧
    toSlave route x (before.take p) = (share l.taken x).length
  replies : ∀ m d, s.reply = some (m,d) → ∃ p r, Open l before m r p ∧
    Answer route zero l.taken before p r d
  answered : ∀ p m r d, before[p]? = some (m,r) →
    (share l.returned m)[ofMaster m (before.take p)]? = some d → Answer route zero l.taken before p r d

section Counting
variable {α : Type} (f : α → Bool)

theorem countBefore {xs : List α} {p : Nat} {x : α} (entry : xs[p]? = some x) (hit : f x = true) :
    (xs.take p).countP f + 1 ≤ xs.countP f := by
  have inside : p < xs.length := by
    rcases Nat.lt_or_ge p xs.length with h | h
    · exact h
    · simp [List.getElem?_eq_none h] at entry
  have split : xs = xs.take p ++ x :: xs.drop (p+1) := by
    have here : xs[p] = x := by simpa [List.getElem?_eq_getElem inside] using entry
    rw [← here,List.getElem_cons_drop,List.take_append_drop]
  have total := congrArg (List.countP f) split
  rw [List.countP_append,List.countP_cons,if_pos hit] at total
  omega

theorem turnUnique {xs : List α} {p q : Nat} {x y : α} (first : xs[p]? = some x) (hitX : f x = true)
    (second : xs[q]? = some y) (hitY : f y = true)
    (turn : (xs.take p).countP f = (xs.take q).countP f) : p = q := by
  have step {a b : Nat} {z : α} (less : a < b) (entry : xs[a]? = some z) (hit : f z = true) :
      (xs.take a).countP f + 1 ≤ (xs.take b).countP f := by
    have entry' : (xs.take b)[a]? = some z := by rw [List.getElem?_take_of_lt less,entry]
    have counted := countBefore f entry' hit
    rwa [List.take_take,Nat.min_eq_left (by omega)] at counted
  rcases Nat.lt_trichotomy p q with less | same | more
  · have := step less first hitX
    omega
  · exact same
  · have := step more second hitY
    omega

end Counting

variable {route zero}

theorem placeKept {α : Type} {before : List α} {p : Nat} {x : α} (entry : before[p]? = some x) (ys : List α) :
    (before ++ ys)[p]? = some x ∧ (before ++ ys).take p = before.take p := by
  have inside : p < before.length := (List.getElem?_eq_some_iff.mp entry).1
  exact ⟨by rw [List.getElem?_append_left inside,entry],List.take_append_of_le_length (by omega)⟩

omit [DecidableEq μ] in
theorem answerKeptBy {taken : List (σ × δ)} {before : List (μ × ρ)} {p r d}
    (answer : Answer route zero taken before p r d) (ys) : Answer route zero (taken ++ ys) before p r d := by
  simp only [Answer] at answer ⊢
  split
  · rename_i unmapped
    simpa [unmapped] using answer
  · rename_i s mapped
    simp only [mapped] at answer
    have inside := (List.getElem?_eq_some_iff.mp answer).1
    rw [shareAppend,List.getElem?_append_left inside,answer]

omit [DecidableEq μ] in
theorem answerPlaced {taken : List (σ × δ)} {before : List (μ × ρ)} {p x r d} (entry : before[p]? = some x)
    (ys) : Answer route zero taken (before ++ ys) p r d ↔ Answer route zero taken before p r d := by
  rw [Answer,Answer,(placeKept entry ys).2]

omit [DecidableEq σ] in
theorem openUnique {l : Log μ σ ρ δ} {before : List (μ × ρ)} {m r p r' p'} (one : Open l before m r p)
    (two : Open l before m r' p') : p = p' ∧ r = r' := by
  have same := turnUnique (fun x : μ × ρ => decide (x.1 = m)) one.entry (by simp) two.entry (by simp)
    (one.turn.trans two.turn.symm)
  subst same
  have entry := one.entry.symm.trans two.entry
  simp only [Option.some.injEq,Prod.mk.injEq,true_and] at entry
  exact ⟨rfl,entry⟩

theorem ofMasterAppend (m : μ) (xs ys : List (μ × ρ)) :
    ofMaster m (xs ++ ys) = ofMaster m xs + ofMaster m ys := List.countP_append
theorem ofMasterOne (m n : μ) (r : ρ) : ofMaster m [(n,r)] = if n = m then 1 else 0 := by
  simp [ofMaster,List.countP_cons]
omit [DecidableEq μ] in
theorem toSlaveAppend (x : σ) (xs ys : List (μ × ρ)) :
    toSlave route x (xs ++ ys) = toSlave route x xs + toSlave route x ys := List.countP_append
omit [DecidableEq μ] in
theorem toSlaveOne (x : σ) (m : μ) (r : ρ) : toSlave route x [(m,r)] = if route r = some x then 1 else 0 := by
  simp [toSlave,List.countP_cons]

theorem acceptKept {s : State μ σ ρ δ} {l : Log μ σ ρ δ} {before} (ok : Kept route zero s l before) {m r}
    (free : s.pending = none) (turn : ofMaster m l.accepted = (share l.returned m).length) :
    Kept route zero {s with pending := some (m,r)} {l with accepted := l.accepted ++ [(m,r)]} before := by
  have whole : l.accepted = before := by simpa [free] using ok.accepted
  refine ⟨by simp [whole],ok.delivered,ok.taken,?_,?_,?_,?_,ok.answered⟩
  · intro n
    simp only [ofMasterAppend,ofMasterOne]
    by_cases same : m = n
    · subst same
      exact .inr ⟨by rw [if_pos rfl,turn],.inl ⟨r,rfl⟩⟩
    · have busy : Busy {s with pending := some (m,r)} n ↔ Busy s n := by
        simp [Busy,free,same]
      rw [if_neg same,Nat.add_zero,busy]
      exact ok.counted n
  · intro n q pending
    cases pending
    rw [← whole]
    exact turn
  · intro x n waiting
    obtain ⟨p,q,one,rest⟩ := ok.waits x n waiting
    exact ⟨p,q,⟨one.entry,one.turn⟩,rest⟩
  · intro n d reply
    obtain ⟨p,q,one,rest⟩ := ok.replies n d reply
    exact ⟨p,q,⟨one.entry,one.turn⟩,rest⟩

theorem forwardKept {s : State μ σ ρ δ} {l : Log μ σ ρ δ} {before} (ok : Kept route zero s l before) {m r}
    (x) (pending : s.pending = some (m,r)) (mapped : route r = some x) (free : s.waiting x = none) :
    Kept route zero {s with
      pending := none
      waiting := fun y => if y = x then some m else s.waiting y}
      {l with delivered := l.delivered ++ [(x,r)]} (before ++ [(m,r)]) := by
  have turn := ok.newest m r pending
  have whole : l.accepted = before ++ [(m,r)] := by simpa [pending] using ok.accepted
  have last : (before ++ [(m,r)])[before.length]? = some (m,r) ∧
      (before ++ [(m,r)]).take before.length = before := by simp
  refine ⟨by simp [whole],?_,?_,?_,by simp,?_,?_,?_⟩
  · simp [ok.delivered,toward,mapped]
  · intro y
    have count := ok.taken y
    simp only [toSlaveAppend,toSlaveOne,mapped,Option.some.injEq,count]
    by_cases same : y = x
    · subst same
      simp [free]
    · have other : x ≠ y := fun h => same h.symm
      simp [same,other]
  · intro n
    have busy : Busy ({s with
        pending := none
        waiting := fun y => if y = x then some m else s.waiting y} : State μ σ ρ δ) n ↔ Busy s n := by
      simp only [Busy,pending,Option.some.injEq,Prod.mk.injEq]
      constructor
      · rintro (⟨_,h⟩ | ⟨y,h⟩ | ⟨d,h⟩)
        · contradiction
        · split at h
          · exact .inl ⟨r,by simpa using h,rfl⟩
          · exact .inr (.inl ⟨y,h⟩)
        · exact .inr (.inr ⟨d,h⟩)
      · rintro (⟨_,h,_⟩ | ⟨y,h⟩ | ⟨d,h⟩)
        · exact .inr (.inl ⟨x,by simp [h]⟩)
        · refine .inr (.inl ⟨y,?_⟩)
          have other : y ≠ x := by
            rintro rfl
            simp [free] at h
          simp [other,h]
        · exact .inr (.inr ⟨d,h⟩)
    rw [busy]
    exact ok.counted n
  · intro y n waiting
    simp only at waiting
    split at waiting
    · rename_i same
      cases waiting
      subst same
      have count := ok.taken y
      simp only [free,Option.isSome_none,Bool.false_eq_true,if_false,Nat.add_zero] at count
      exact ⟨before.length,r,⟨last.1,by rw [last.2]; exact turn⟩,mapped,by rw [last.2]; exact count⟩
    · obtain ⟨p,q,one,goes,place⟩ := ok.waits y n waiting
      have kept := placeKept one.entry [(m,r)]
      exact ⟨p,q,⟨kept.1,by rw [kept.2]; exact one.turn⟩,goes,by rw [kept.2]; exact place⟩
  · intro n d reply
    obtain ⟨p,q,one,answer⟩ := ok.replies n d reply
    have kept := placeKept one.entry [(m,r)]
    exact ⟨p,q,⟨kept.1,by rw [kept.2]; exact one.turn⟩,(answerPlaced one.entry _).mpr answer⟩
  · intro p n q d entry returned
    rcases Nat.lt_or_ge p before.length with inside | beyond
    · have entry' : before[p]? = some (n,q) := by rwa [List.getElem?_append_left inside] at entry
      have kept := placeKept entry' [(m,r)]
      rw [kept.2] at returned
      exact (answerPlaced entry' _).mpr (ok.answered p n q d entry' returned)
    · have here : p = before.length := by
        have bound := (List.getElem?_eq_some_iff.mp entry).1
        simp only [List.length_append,List.length_singleton] at bound
        omega
      subst here
      rw [last.1] at entry
      cases entry
      rw [last.2,turn] at returned
      simp at returned

theorem refuseKept {s : State μ σ ρ δ} {l : Log μ σ ρ δ} {before} (ok : Kept route zero s l before) {m r}
    (pending : s.pending = some (m,r)) (unmapped : route r = none) (free : s.reply = none) :
    Kept route zero {s with pending := none, reply := some (m,zero)} l (before ++ [(m,r)]) := by
  have turn := ok.newest m r pending
  have whole : l.accepted = before ++ [(m,r)] := by simpa [pending] using ok.accepted
  have last : (before ++ [(m,r)])[before.length]? = some (m,r) ∧
      (before ++ [(m,r)]).take before.length = before := by simp
  refine ⟨by simp [whole],?_,?_,?_,by simp,?_,?_,?_⟩
  · simp [ok.delivered,toward,unmapped]
  · intro y
    simp only [toSlaveAppend,toSlaveOne,unmapped]
    simpa using ok.taken y
  · intro n
    have busy : Busy ({s with pending := none, reply := some (m,zero)} : State μ σ ρ δ) n ↔ Busy s n := by
      simp only [Busy,pending,free,Option.some.injEq,Prod.mk.injEq]
      constructor
      · rintro (⟨_,h⟩ | waiting | ⟨_,h,_⟩)
        · contradiction
        · exact .inr (.inl waiting)
        · exact .inl ⟨r,h,rfl⟩
      · rintro (⟨_,h,_⟩ | waiting | ⟨_,h⟩)
        · exact .inr (.inr ⟨zero,h,rfl⟩)
        · exact .inr (.inl waiting)
        · contradiction
    rw [busy]
    exact ok.counted n
  · intro y n waiting
    obtain ⟨p,q,one,goes,place⟩ := ok.waits y n waiting
    have kept := placeKept one.entry [(m,r)]
    exact ⟨p,q,⟨kept.1,by rw [kept.2]; exact one.turn⟩,goes,by rw [kept.2]; exact place⟩
  · intro n d reply
    cases reply
    exact ⟨before.length,r,⟨last.1,by rw [last.2]; exact turn⟩,by simp [Answer,unmapped]⟩
  · intro p n q d entry returned
    rcases Nat.lt_or_ge p before.length with inside | beyond
    · have entry' : before[p]? = some (n,q) := by rwa [List.getElem?_append_left inside] at entry
      have kept := placeKept entry' [(m,r)]
      rw [kept.2] at returned
      exact (answerPlaced entry' _).mpr (ok.answered p n q d entry' returned)
    · have here : p = before.length := by
        have bound := (List.getElem?_eq_some_iff.mp entry).1
        simp only [List.length_append,List.length_singleton] at bound
        omega
      subst here
      rw [last.1] at entry
      cases entry
      rw [last.2,turn] at returned
      simp at returned

theorem answerKept {s : State μ σ ρ δ} {l : Log μ σ ρ δ} {before} (ok : Kept route zero s l before) {m}
    (x d) (waiting : s.waiting x = some m) (free : s.reply = none) :
    Kept route zero {s with
      waiting := fun y => if y = x then none else s.waiting y
      reply := some (m,d)}
      {l with taken := l.taken ++ [(x,d)]} before := by
  refine ⟨ok.accepted,ok.delivered,?_,?_,ok.newest,?_,?_,?_⟩
  · intro y
    have count := ok.taken y
    by_cases same : y = x
    · subst same
      simp only [waiting,Option.isSome_some,if_true] at count
      simp [count]
    · simp only [same,if_false,shareAppend,shareOther d fun h : x = y => same h.symm,List.append_nil]
      exact count
  · intro n
    have busy : Busy {s with
        waiting := fun y => if y = x then none else s.waiting y
        reply := some (m,d)} n ↔ Busy s n := by
      simp only [Busy,free,Option.some.injEq,Prod.mk.injEq]
      constructor
      · rintro (pending | ⟨y,h⟩ | ⟨_,h,_⟩)
        · exact .inl pending
        · split at h
          · contradiction
          · exact .inr (.inl ⟨y,h⟩)
        · exact .inr (.inl ⟨x,h ▸ waiting⟩)
      · rintro (pending | ⟨y,h⟩ | ⟨_,h⟩)
        · exact .inl pending
        · by_cases same : y = x
          · subst same
            exact .inr (.inr ⟨d,Option.some.inj (waiting.symm.trans h),rfl⟩)
          · exact .inr (.inl ⟨y,by simp [same,h]⟩)
        · contradiction
    rw [busy]
    exact ok.counted n
  · intro y n waits
    simp only at waits
    split at waits
    · contradiction
    · rename_i other
      obtain ⟨p,q,one,goes,place⟩ := ok.waits y n waits
      refine ⟨p,q,⟨one.entry,one.turn⟩,goes,?_⟩
      simp only [shareAppend,shareOther d fun h : x = y => other h.symm,List.append_nil]
      exact place
  · intro n e reply
    cases reply
    obtain ⟨p,q,one,goes,place⟩ := ok.waits x m waiting
    refine ⟨p,q,⟨one.entry,one.turn⟩,?_⟩
    simp [Answer,goes,place]
  · intro p n q e entry returned
    exact answerKeptBy (ok.answered p n q e entry returned) _

theorem finishKept {s : State μ σ ρ δ} {l : Log μ σ ρ δ} {before} (ok : Kept route zero s l before) {m d}
    (reply : s.reply = some (m,d)) :
    Kept route zero {s with reply := none} {l with returned := l.returned ++ [(m,d)]} before := by
  obtain ⟨p,r,one,answer⟩ := ok.replies m d reply
  have counted := countBefore (fun x : μ × ρ => decide (x.1 = m)) one.entry (by simp)
  have turn := one.turn
  simp only [ofMaster] at turn
  -- the answered master has no other request in the switch
  have noPending : ∀ q, s.pending ≠ some (m,q) := by
    intro q pending
    have newest := ok.newest m q pending
    simp only [ofMaster] at newest
    omega
  have noWaiting : ∀ x, s.waiting x ≠ some m := by
    intro x waiting
    obtain ⟨p',r',two,goes,place⟩ := ok.waits x m waiting
    obtain ⟨same,same'⟩ := openUnique one two
    subst same same'
    simp [Answer,goes,place] at answer
  have grown (n : μ) : share (l.returned ++ [(m,d)]) n = share l.returned n ++ if m = n then [d] else [] := by
    by_cases same : m = n
    · subst same
      simp
    · simp [same,shareOther d same]
  refine ⟨ok.accepted,ok.delivered,ok.taken,?_,?_,?_,by simp,?_⟩
  · intro n
    have busy : Busy ({s with reply := none} : State μ σ ρ δ) n ↔ Busy s n ∧ n ≠ m := by
      simp only [Busy,reply,Option.some.injEq,Prod.mk.injEq]
      constructor
      · rintro (⟨q,h⟩ | ⟨x,h⟩ | ⟨_,h⟩)
        · exact ⟨.inl ⟨q,h⟩,fun same => noPending q (same ▸ h)⟩
        · exact ⟨.inr (.inl ⟨x,h⟩),fun same => noWaiting x (same ▸ h)⟩
        · contradiction
      · rintro ⟨pending | waiting | ⟨_,h,_⟩,other⟩
        · exact .inl pending
        · exact .inr (.inl waiting)
        · exact absurd h.symm other
    rw [busy,grown]
    by_cases same : m = n
    · subst same
      refine .inl ⟨?_,fun h => h.2 rfl⟩
      rcases ok.counted m with ⟨_,idle⟩ | ⟨count,_⟩
      · exact absurd (.inr (.inr ⟨d,reply⟩)) idle
      · simp [count]
    · have other : n ≠ m := fun h => same h.symm
      simp only [same,if_false,List.append_nil,other,ne_eq,not_false_eq_true,and_true]
      exact ok.counted n
  · intro n q pending
    have other : m ≠ n := fun h => noPending q (h ▸ pending)
    rw [grown,if_neg other,List.append_nil]
    exact ok.newest n q pending
  · intro x n waiting
    have other : m ≠ n := fun h => noWaiting x (h ▸ waiting)
    obtain ⟨p',q,two,goes,place⟩ := ok.waits x n waiting
    refine ⟨p',q,⟨two.entry,?_⟩,goes,place⟩
    simp only [grown,if_neg other,List.append_nil]
    exact two.turn
  · intro p' n q e entry returned
    simp only [grown] at returned
    by_cases same : m = n
    · subst same
      rw [if_pos rfl] at returned
      rcases Nat.lt_or_ge (ofMaster m (before.take p')) (share l.returned m).length with early | late
      · rw [List.getElem?_append_left early] at returned
        exact ok.answered p' m q e entry returned
      · rw [List.getElem?_append_right late] at returned
        have here : ofMaster m (before.take p') = (share l.returned m).length := by
          have bound := (List.getElem?_eq_some_iff.mp returned).1
          simp only [List.length_singleton] at bound
          omega
        have two : Open l before m q p' := ⟨entry,here⟩
        obtain ⟨place,request⟩ := openUnique one two
        subst place request
        simp only [here,Nat.sub_self,List.getElem?_cons_zero,Option.some.injEq] at returned
        exact returned ▸ answer
    · rw [if_neg same,List.append_nil] at returned
      exact ok.answered p' n q e entry returned

theorem stepKept {s t : State μ σ ρ δ} {l k : Log μ σ ρ δ} {before} (ok : Kept route zero s l before)
    (step : Step route zero s l t k) : ∃ before', Kept route zero t k before' := by
  cases step with
  | accept m r free waits => exact ⟨_,acceptKept ok free waits⟩
  | forward x pending mapped free => exact ⟨_,forwardKept ok x pending mapped free⟩
  | refuse pending unmapped free => exact ⟨_,refuseKept ok pending unmapped free⟩
  | answer x d waiting free => exact ⟨_,answerKept ok x d waiting free⟩
  | finish reply => exact ⟨_,finishKept ok reply⟩

theorem Runs.one {s t : State μ σ ρ δ} {l k : Log μ σ ρ δ} (step : Step route zero s l t k) :
    Runs route zero s l t k := .more .same step

theorem runsKept {s t : State μ σ ρ δ} {l k : Log μ σ ρ δ} {before} (ok : Kept route zero s l before)
    (runs : Runs route zero s l t k) : ∃ before', Kept route zero t k before' := by
  induction runs with
  | same => exact ⟨_,ok⟩
  | more _ step ih =>
    obtain ⟨_,kept⟩ := ih
    exact stepKept kept step

def State.idle : State μ σ ρ δ := ⟨none,fun _ => none,none⟩

theorem idleKept : Kept route zero State.idle (Log.empty : Log μ σ ρ δ) [] := by
  refine ⟨rfl,rfl,?_,?_,by simp [State.idle],by simp [State.idle],by simp [State.idle],by simp⟩
  · simp [State.idle,Log.empty,toSlave]
  · intro m
    exact .inl ⟨rfl,by simp [Busy,State.idle]⟩

structure Ledger (route : ρ → Option σ) (zero : δ) (l : Log μ σ ρ δ) : Prop where
  delivered : ∃ last, l.accepted.filterMap (toward route) = l.delivered ++ last ∧ last.length ≤ 1
  unmodified : ∀ p m r x q, l.accepted[p]? = some (m,r) → route r = some x →
    (share l.delivered x)[toSlave route x (l.accepted.take p)]? = some q → q = r
  taken : ∀ x, (share l.taken x).length ≤ (share l.delivered x).length ∧
    (share l.delivered x).length ≤ (share l.taken x).length + 1
  returned : ∀ m, (share l.returned m).length ≤ ofMaster m l.accepted ∧
    ofMaster m l.accepted ≤ (share l.returned m).length + 1
  answered : ∀ p m r d, l.accepted[p]? = some (m,r) →
    (share l.returned m)[ofMaster m (l.accepted.take p)]? = some d →
    Answer route zero l.taken l.accepted p r d

structure Complete (route : ρ → Option σ) (l : Log μ σ ρ δ) : Prop where
  delivered : l.delivered = l.accepted.filterMap (toward route)
  taken : ∀ x, (share l.taken x).length = (share l.delivered x).length
  returned : ∀ m, (share l.returned m).length = ofMaster m l.accepted

omit [DecidableEq μ] in
theorem shareToward (xs : List (μ × ρ)) (x : σ) :
    share (xs.filterMap (toward route)) x = (xs.filter fun y => decide (route y.2 = some x)).map Prod.snd := by
  induction xs with
  | nil => rfl
  | cons y rest ih =>
    cases goes : route y.2 with
    | none =>
      rw [List.filterMap_cons_none (by simp [toward,goes]),ih,List.filter_cons_of_neg (by simp [goes])]
    | some s =>
      rw [List.filterMap_cons_some (b := (s,y.2)) (by simp [toward,goes])]
      by_cases same : s = x
      · subst same
        simp only [share] at ih ⊢
        simp [goes,ih]
      · simp only [share] at ih ⊢
        simp [goes,same,ih]

omit [DecidableEq μ] in
theorem shareTowardLength (xs : List (μ × ρ)) (x : σ) :
    (share (xs.filterMap (toward route)) x).length = toSlave route x xs := by
  rw [shareToward,List.length_map,toSlave,List.countP_eq_length_filter]

theorem filterTurn {α : Type} (f : α → Bool) {xs : List α} {p : Nat} {x : α} (entry : xs[p]? = some x)
    (hit : f x = true) : (xs.filter f)[(xs.take p).countP f]? = some x := by
  have inside := (List.getElem?_eq_some_iff.mp entry)
  obtain ⟨bound,here⟩ := inside
  have split : xs = xs.take p ++ x :: xs.drop (p+1) := by
    rw [← here,List.getElem_cons_drop,List.take_append_drop]
  have parts : xs.filter f = (xs.take p).filter f ++ x :: (xs.drop (p+1)).filter f := by
    conv => lhs; rw [split,List.filter_append,List.filter_cons_of_pos hit]
  rw [parts,List.countP_eq_length_filter,List.getElem?_append_right (Nat.le_refl _),Nat.sub_self]
  rfl

theorem ledger {s : State μ σ ρ δ} {l : Log μ σ ρ δ} {before} (ok : Kept route zero s l before) :
    Ledger route zero l := by
  have pendingShort : s.pending.toList.length ≤ 1 := by cases s.pending <;> simp
  have delivered := ok.delivered
  refine ⟨⟨s.pending.toList.filterMap (toward route),?_,?_⟩,?_,?_,?_,?_⟩
  · rw [ok.accepted,List.filterMap_append,delivered]
  · exact Nat.le_trans (List.length_filterMap_le _ _) pendingShort
  · intro p m r x q entry goes found
    have turn := filterTurn (fun y : μ × ρ => decide (route y.2 = some x)) entry (by simp [goes])
    have all : share (l.accepted.filterMap (toward route)) x =
        share l.delivered x ++ share (s.pending.toList.filterMap (toward route)) x := by
      rw [ok.accepted,List.filterMap_append,delivered,shareAppend]
    have due : (share (l.accepted.filterMap (toward route)) x)[toSlave route x (l.accepted.take p)]? = some r := by
      rw [shareToward,List.getElem?_map,toSlave,turn]
      rfl
    have inside := (List.getElem?_eq_some_iff.mp found).1
    rw [all,List.getElem?_append_left inside,found] at due
    exact Option.some.inj due
  · intro x
    have count := ok.taken x
    rw [delivered,shareTowardLength,count]
    split <;> omega
  · intro m
    rcases ok.counted m with ⟨count,_⟩ | ⟨count,_⟩ <;> omega
  · intro p m r d entry found
    have whole := ok.accepted
    rcases Nat.lt_or_ge p before.length with inside | beyond
    · have entry' : before[p]? = some (m,r) := by
        rwa [whole,List.getElem?_append_left inside] at entry
      have kept := placeKept entry' s.pending.toList
      rw [whole,kept.2] at found
      rw [whole]
      exact (answerPlaced entry' _).mpr (ok.answered p m r d entry' found)
    · rw [whole,List.getElem?_append_right beyond] at entry
      cases pending : s.pending with
      | none => simp [pending] at entry
      | some last =>
        have here : p = before.length := by
          have bound := (List.getElem?_eq_some_iff.mp entry).1
          simp only [pending,Option.toList_some,List.length_singleton] at bound
          omega
        subst here
        simp only [pending,Nat.sub_self,Option.toList_some,List.getElem?_cons_zero,Option.some.injEq] at entry
        subst entry
        rw [whole,List.take_left,ok.newest m r pending] at found
        simp at found

theorem complete {s : State μ σ ρ δ} {l : Log μ σ ρ δ} {before} (ok : Kept route zero s l before)
    (pending : s.pending = none) (waiting : ∀ x, s.waiting x = none) (reply : s.reply = none) :
    Complete route l := by
  have whole : l.accepted = before := by simpa [pending] using ok.accepted
  refine ⟨by rw [ok.delivered,whole],?_,?_⟩
  · intro x
    have count := ok.taken x
    rw [ok.delivered,shareTowardLength,count]
    simp [waiting x]
  · intro m
    rcases ok.counted m with ⟨count,_⟩ | ⟨_,busy⟩
    · exact count.symm
    · simp [Busy,pending,waiting,reply] at busy

end Crossbar
