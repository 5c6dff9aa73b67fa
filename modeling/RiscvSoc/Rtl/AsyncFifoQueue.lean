import RiscvSoc.Rtl.AsyncFifo

/-! `async_fifo.sv` as a queue, for every interleaving of its clocks: both pointers as counters
that do not wrap, and each side's view of the other as an earlier count. -/
namespace RiscvSoc.AsyncFifo
open Mealy Machine
open ClockCrossing
variable {width addrWidth : Nat}

/- The pointer after `t` steps, as it crosses. -/
def code (addrWidth t : Nat) : Ptr addrWidth := binToGray (BitVec.ofNat _ t)

def slot (addrWidth t : Nat) : BitVec addrWidth := BitVec.ofNat _ t

/- `written` words have entered and `read` have left; the stages took what they hold when `rs`
had left. -/
structure WrCounts (w : Wr addrWidth) (written read : Nat) (rs : List Nat) : Prop where
  bin : w.ptrBin = BitVec.ofNat _ written
  gray : w.ptrGray = code addrWidth written
  sync : w.rdSync = rs.map (code addrWidth)
  order : Descending read rs
  room : written ≤ rs.getLastD 0 + 2 ^ addrWidth
  notFull : w.full = false → written < rs.getLastD 0 + 2 ^ addrWidth

structure RdCounts (r : Rd width addrWidth) (written read : Nat) (ws : List Nat) : Prop where
  bin : r.ptrBin = BitVec.ofNat _ read
  gray : r.ptrGray = code addrWidth read
  sync : r.wrSync = ws.map (code addrWidth)
  order : Descending written ws
  behind : read ≤ ws.getLastD 0

structure Staged (r : Rd width addrWidth) (ram : SyncDpram width addrWidth) (read seen : Nat) : Prop where
  alone : r.outValid = true → r.loadPending = false
  once : r.loadPendingStage2 = true → r.loadPendingStage1 = false
  there : r.outValid = true ∨ r.loadPending = true → read < seen
  pipe : r.loadPendingStage1 = true → ram.rdataPipe = ram.mem (slot addrWidth read)
  ramOut : r.loadPendingStage2 = true → ram.rdata = ram.mem (slot addrWidth read)
  out : r.outValid = true → r.outData = ram.mem (slot addrWidth read)

theorem addrSlot (t : Nat) : addr (BitVec.ofNat (addrWidth + 1) t) = slot addrWidth t := by
  rw [addr,slot]
  exact BitVec.eq_of_toNat_eq (by simp)

theorem slotNext (t : Nat) : slot addrWidth t + 1 = slot addrWidth (t + 1) := by
  rw [slot,slot,BitVec.ofNat_add]
  rfl

theorem slotAdd (t n : Nat) : slot addrWidth t + BitVec.ofNat addrWidth n = slot addrWidth (t + n) := by
  rw [slot,slot,BitVec.ofNat_add]

theorem slotNe {a b : Nat} (below : a < b) (turn : b < a + 2 ^ addrWidth) : slot addrWidth a ≠ slot addrWidth b := by
  have apart := Ring.addressNe (0 : BitVec addrWidth) below (show b - a < 2 ^ addrWidth by omega)
  simpa [slot] using apart

theorem doutSeen (times : List Nat) : dout (times.map (code addrWidth)) = code addrWidth (times.getLastD 0) := by
  rcases List.eq_nil_or_concat times with rfl | ⟨older,last,rfl⟩
  · simp [dout,code,binToGray,Gray.encode]
  · simp [dout,code]

theorem pointerDiff {a b : Nat} (le : b ≤ a) (turn : a - b < 2 ^ (addrWidth + 1)) :
    (BitVec.ofNat (addrWidth + 1) a - BitVec.ofNat (addrWidth + 1) b).toNat = a - b := by
  obtain ⟨d,rfl⟩ : ∃ d, a = b + d := ⟨a - b,by omega⟩
  rw [BitVec.ofNat_add,BitVec.add_comm,BitVec.add_sub_cancel,BitVec.toNat_ofNat,Nat.add_sub_cancel_left]
  exact Nat.mod_eq_of_lt (by omega)

theorem sampled (mask : Ptr addrWidth) {old new : Nat} (next : new = old ∨ new = old + 1) :
    ∃ t, old ≤ t ∧ t ≤ new ∧ Gray.mix mask (code addrWidth old) (code addrWidth new) = code addrWidth t := by
  rcases next with same | more
  · exact ⟨old,Nat.le_refl _,Nat.le_of_eq same.symm,by rw [same,Gray.mixSame]⟩
  · subst more
    rcases Gray.mixNext mask old with same | same
    · exact ⟨old,Nat.le_refl _,Nat.le_succ _,same⟩
    · exact ⟨old + 1,Nat.le_succ _,Nat.le_refl _,same⟩

theorem fullCode (wide : 0 < addrWidth) {written seen : Nat} (le : written ≤ seen + 2 ^ addrWidth)
    (ahead : seen ≤ written) :
    code addrWidth written = fullCompareGray (code addrWidth seen) ↔ written = seen + 2 ^ addrWidth := by
  rw [code,code,binToGray,binToGray,fullCompareGray,← Gray.encodeHalfTurn wide]
  refine Gray.encodeInj.trans ⟨fun same => ?_,fun same => by rw [same]⟩
  have positive : 0 < 2 ^ addrWidth := Nat.two_pow_pos _
  have turn : 2 ^ (addrWidth + 1) = 2 * 2 ^ addrWidth := by rw [Nat.pow_succ,Nat.mul_comm]
  have small : seen + 2 ^ addrWidth - written < 2 ^ (addrWidth + 1) := by omega
  have diff := pointerDiff le small
  rw [same,BitVec.sub_self] at diff
  simp at diff
  omega

theorem wrEdge (wide : 0 < addrWidth) {w : Wr addrWidth} {written read read' t : Nat} {rs : List Nat}
    (c : WrCounts w written read rs) (ahead : read ≤ written) (valid : Bool) (early : read ≤ t) (late : t ≤ read') :
    WrCounts (w.edge valid (code addrWidth t)) (written + (w.doWrite valid).toNat) read' (shift t rs) := by
  have bin : w.ptrBinNext valid = BitVec.ofNat _ (written + (w.doWrite valid).toNat) := by
    rw [Wr.ptrBinNext,c.bin,BitVec.ofNat_add]
  have gray : w.ptrGrayNext valid = code addrWidth (written + (w.doWrite valid).toNat) := by
    rw [Wr.ptrGrayNext,bin,code]
  have room : written + (w.doWrite valid).toNat ≤ rs.getLastD 0 + 2 ^ addrWidth := by
    cases write : w.doWrite valid with
    | false => exact c.room
    | true => exact c.notFull (by simp [Wr.doWrite] at write; exact write.2)
  have older := descendingRaise c.order early
  have last := lastShift older
  have below := lastBelow c.order
  refine ⟨bin,gray,?_,descendingShift older late,by omega,fun notFull => ?_⟩
  · rw [Wr.edge,c.sync,shiftMap]
  · have other : ¬written + (w.doWrite valid).toNat = rs.getLastD 0 + 2 ^ addrWidth := fun whole => by
      have full := (fullCode wide room (by omega)).mpr whole
      simp [Wr.edge,Wr.fullNext,gray,c.sync,doutSeen,full] at notFull
    omega

theorem edgeStages (r : Rd width addrWidth) (ready : Bool) (gray : Ptr addrWidth) (word : BitVec width) :
    (r.edge ready gray word).ptrBin = r.ptrBinNext ready ∧
    (r.edge ready gray word).ptrGray = binToGray (r.ptrBinNext ready) ∧
    (r.edge ready gray word).wrSync = shift gray r.wrSync ∧
    (r.edge ready gray word).outData = (if r.loadPendingStage2 then word else r.outData) ∧
    (r.edge ready gray word).outValid = ((r.outValid || r.loadPendingStage2) && !r.fire ready) ∧
    (r.edge ready gray word).loadPendingStage1 = r.startLoad ready ∧
    (r.edge ready gray word).loadPendingStage2 = (r.loadPendingStage1 && !r.fire ready) := by
  rw [Rd.edge]
  cases r.fire ready <;> cases r.startLoad ready <;> cases r.loadPendingStage2 <;> simp

theorem rdEdge {r : Rd width addrWidth} {written written' read t : Nat} {ws : List Nat}
    (c : RdCounts r written read ws) (ready : Bool) (word : BitVec width) (early : written ≤ t) (late : t ≤ written')
    (there : r.outValid = true → read < ws.getLastD 0) :
    RdCounts (r.edge ready (code addrWidth t) word) written' (read + (r.fire ready).toNat) (shift t ws) := by
  obtain ⟨bin,gray,sync,_⟩ := edgeStages r ready (code addrWidth t) word
  have next : r.ptrBinNext ready = BitVec.ofNat _ (read + (r.fire ready).toNat) := by
    rw [Rd.ptrBinNext,c.bin,BitVec.ofNat_add]
  have older := descendingRaise c.order early
  have last := lastShift older
  refine ⟨bin.trans next,?_,?_,descendingShift older late,?_⟩
  · rw [gray,next,code]
  · rw [sync,c.sync,shiftMap]
  · cases fires : r.fire ready with
    | false => exact Nat.le_trans c.behind last
    | true =>
      simp only [Rd.fire,Bool.and_eq_true] at fires
      exact Nat.le_trans (there fires.1) last

theorem itemsSeen {r : Rd width addrWidth} {written read : Nat} {ws : List Nat}
    (c : RdCounts r written read ws) (room : written ≤ read + 2 ^ addrWidth) :
    r.itemsAvailable.toNat = ws.getLastD 0 - read := by
  have turn : 2 ^ (addrWidth + 1) = 2 * 2 ^ addrWidth := by rw [Nat.pow_succ,Nat.mul_comm]
  have positive : 0 < 2 ^ addrWidth := Nat.two_pow_pos _
  have below := lastBelow c.order
  have small : ws.getLastD 0 - read < 2 ^ (addrWidth + 1) := by omega
  rw [Rd.itemsAvailable,c.sync,doutSeen,c.bin,grayToBin,code,binToGray,Gray.decodeEncode]
  exact pointerDiff c.behind small

theorem startsThere {r : Rd width addrWidth} {written read : Nat} {ws : List Nat} {ready : Bool}
    (c : RdCounts r written read ws) (room : written ≤ read + 2 ^ addrWidth) (starts : r.startLoad ready = true) :
    r.loadPending = false ∧ r.outValid = r.fire ready ∧ read + (r.fire ready).toNat < ws.getLastD 0 ∧
      r.raddr = slot addrWidth (read + (r.fire ready).toNat) := by
  have items := itemsSeen c room
  have zero : r.itemsAvailable ≠ 0 ↔ 0 < r.itemsAvailable.toNat := by
    rw [Nat.pos_iff_ne_zero,ne_eq,ne_eq,← BitVec.toNat_inj]
    rfl
  have one : 1 < r.itemsAvailable ↔ 1 < r.itemsAvailable.toNat := by
    rw [BitVec.lt_def]
    have two : 1 < 2 ^ (addrWidth + 1) := Nat.one_lt_two_pow (by omega)
    simp [Nat.mod_eq_of_lt two]
  simp only [Rd.startLoad,Bool.and_eq_true,Bool.or_eq_true,Bool.not_eq_true',bne_iff_ne,decide_eq_true_eq,zero,one,items] at starts
  obtain ⟨idle,⟨empty,more⟩ | ⟨fires,more⟩⟩ := starts
  · have still : r.fire ready = false := by simp [Rd.fire,empty]
    refine ⟨idle,by rw [empty,still],?_,?_⟩
    · rw [still,Bool.toNat_false]
      omega
    · rw [Rd.raddr,empty,still,c.bin,addrSlot]
      rfl
  · have valid : r.outValid = true := by
      simp only [Rd.fire,Bool.and_eq_true] at fires
      exact fires.1
    refine ⟨idle,by rw [valid,fires],?_,?_⟩
    · rw [fires,Bool.toNat_true]
      omega
    · rw [Rd.raddr,valid,fires,c.bin,addrSlot,if_pos rfl,slotNext]
      rfl

theorem stagedEdge {r : Rd width addrWidth} {ram ram' : SyncDpram width addrWidth} {written read t : Nat} {ws : List Nat}
    {ready : Bool} (c : RdCounts r written read ws) (room : written ≤ read + 2 ^ addrWidth)
    (h : Staged r ram read (ws.getLastD 0)) (early : written ≤ t) (out : ram'.rdata = ram.rdataPipe)
    (kept : ∀ u, read ≤ u → u < written → ram'.mem (slot addrWidth u) = ram.mem (slot addrWidth u))
    (fetched : ∀ u, read ≤ u → u < written → r.raddr = slot addrWidth u → ram'.rdataPipe = ram.mem (slot addrWidth u)) :
    Staged (r.edge ready (code addrWidth t) ram.rdata) ram' (read + (r.fire ready).toNat) ((shift t ws).getLastD 0) := by
  obtain ⟨_,_,_,data,valid,stage1,stage2⟩ := edgeStages r ready (code addrWidth t) ram.rdata
  have below := lastBelow c.order
  have last := lastShift (descendingRaise c.order early)
  cases starts : r.startLoad ready with
  | true =>
    obtain ⟨idle,same,there,place⟩ := startsThere c room starts
    simp only [Rd.loadPending,Bool.or_eq_false_iff] at idle
    simp only [idle.2,idle.1,starts,same,Bool.or_false,Bool.and_not_self,Bool.false_and] at valid stage1 stage2
    refine ⟨fun shown => ?_,fun late => ?_,fun _ => Nat.lt_of_lt_of_le there last,fun _ => ?_,fun late => ?_,fun shown => ?_⟩
    · simp [valid] at shown
    · simp [stage2] at late
    · rw [fetched _ (Nat.le_add_right _ _) (by omega) place,kept _ (Nat.le_add_right _ _) (by omega)]
    · simp [stage2] at late
    · simp [valid] at shown
  | false =>
    rw [starts] at stage1
    cases fires : r.fire ready with
    | true =>
      simp only [fires,Bool.not_true,Bool.and_false] at valid stage2
      refine ⟨fun shown => ?_,fun late => ?_,fun present => ?_,fun first => ?_,fun late => ?_,fun shown => ?_⟩
      all_goals simp_all [Rd.loadPending]
    | false =>
      simp only [fires,Bool.not_false,Bool.and_true] at valid stage2
      have waits : r.outValid = true ∨ r.loadPending = true → ram'.mem (slot addrWidth read) = ram.mem (slot addrWidth read) :=
        fun present => kept read (Nat.le_refl _) (Nat.lt_of_lt_of_le (h.there present) below)
      have single : (r.outValid || r.loadPendingStage2) = true → r.loadPendingStage1 = false := fun shown => by
        rcases Bool.or_eq_true_iff.mp shown with here | arrives
        · have alone := h.alone here
          simp only [Rd.loadPending,Bool.or_eq_false_iff] at alone
          exact alone.1
        · exact h.once arrives
      refine ⟨fun shown => ?_,fun _ => stage1,fun present => Nat.lt_of_lt_of_le (h.there ?_) last,fun first => ?_,fun late => ?_,fun shown => ?_⟩
      · rw [valid] at shown
        rw [Rd.loadPending,stage1,stage2,single shown,Bool.or_false]
      · simp only [Rd.loadPending,valid,stage1,stage2,Bool.false_or,Bool.or_eq_true] at present ⊢
        rcases present with (shown | arrives) | waiting
        · exact .inl shown
        · exact .inr (.inr arrives)
        · exact .inr (.inl waiting)
      · simp [stage1] at first
      · rw [stage2] at late
        rw [out,h.pipe late,Bool.toNat_false,Nat.add_zero,waits (.inr (by simp [Rd.loadPending,late]))]
      · rw [valid] at shown
        rw [data,Bool.toNat_false,Nat.add_zero]
        cases arrives : r.loadPendingStage2 with
        | true => rw [if_pos rfl,h.ramOut arrives,waits (.inr (by simp [Rd.loadPending,arrives]))]
        | false =>
          simp only [arrives,Bool.or_false] at shown
          rw [if_neg Bool.false_ne_true,h.out shown,waits (.inl shown)]

def Held (s : Regs width addrWidth) : Prop :=
  ∃ written read ws rs, WrCounts s.wr written read rs ∧ RdCounts s.rd written read ws ∧
    Staged s.rd s.ram read (ws.getLastD 0)

/- The entries from the read pointer to the write pointer. -/
def contents (s : Regs width addrWidth) : List (BitVec width) :=
  Ring.entries s.ram.mem (addr s.rd.ptrBin) (s.wr.ptrBin - s.rd.ptrBin).toNat

theorem ahead {s : Regs width addrWidth} {written read : Nat} {ws rs : List Nat}
    (w : WrCounts s.wr written read rs) (r : RdCounts s.rd written read ws) :
    read ≤ written ∧ written ≤ read + 2 ^ addrWidth :=
  ⟨Nat.le_trans r.behind (lastBelow r.order),Nat.le_trans w.room (Nat.add_le_add_right (lastBelow w.order) _)⟩

theorem contentsCounts {s : Regs width addrWidth} {written read : Nat} {ws rs : List Nat}
    (w : WrCounts s.wr written read rs) (r : RdCounts s.rd written read ws) :
    contents s = Ring.entries s.ram.mem (slot addrWidth read) (written - read) := by
  obtain ⟨le,room⟩ := ahead w r
  have turn : 2 ^ (addrWidth + 1) = 2 * 2 ^ addrWidth := by rw [Nat.pow_succ,Nat.mul_comm]
  have positive : 0 < 2 ^ addrWidth := Nat.two_pow_pos _
  have small : written - read < 2 ^ (addrWidth + 1) := by omega
  rw [contents,w.bin,r.bin,addrSlot,pointerDiff le small]

theorem countsNext {s : Regs width addrWidth} {written read : Nat} {ws rs : List Nat} (e : Inputs width addrWidth)
    (w : WrCounts s.wr written read rs) (r : RdCounts s.rd written read ws) :
    wrGrayNext s e = code addrWidth (written + (accepted s e).length) ∧
    rdGrayNext s e = code addrWidth (read + (taken s e).length) ∧
    (accepted s e).length ≤ 1 ∧ (taken s e).length ≤ 1 := by
  refine ⟨?_,?_,?_,?_⟩
  · cases src : e.src with
    | none => simp [wrGrayNext,accepted,src,w.gray]
    | some i => cases write : s.wr.doWrite i.wrValid <;>
        simp [wrGrayNext,accepted,src,Wr.ptrGrayNext,Wr.ptrBinNext,write,w.bin,code,BitVec.ofNat_add]
  · cases dst : e.dst with
    | none => simp [rdGrayNext,taken,dst,r.gray]
    | some i => cases fires : s.rd.fire i.rdReady <;>
        simp [rdGrayNext,taken,dst,Rd.ptrBinNext,fires,r.bin,code,BitVec.ofNat_add]
  · rw [accepted]
    cases e.src with
    | none => exact Nat.zero_le 1
    | some i => cases write : s.wr.doWrite i.wrValid <;> simp [write]
  · rw [taken]
    cases e.dst with
    | none => exact Nat.zero_le 1
    | some i => cases fires : s.rd.fire i.rdReady <;> simp [fires]

theorem memNext {s : Regs width addrWidth} {written read : Nat} {rs : List Nat} (e : Inputs width addrWidth)
    (w : WrCounts s.wr written read rs) :
    (accepted s e = [] ∧ (step s e).ram.mem = s.ram.mem) ∨
    ∃ x, accepted s e = [x] ∧ written < read + 2 ^ addrWidth ∧
      (step s e).ram.mem = Function.update s.ram.mem (slot addrWidth written) x := by
  cases src : e.src with
  | none =>
    refine .inl ⟨by rw [accepted,src],?_⟩
    rw [step,nextRam,src]
    cases e.dst <;> rfl
  | some i =>
    have mem : (step s e).ram.mem =
        if s.wr.doWrite i.wrValid then Function.update s.ram.mem (addr s.wr.ptrBin) i.wdata else s.ram.mem := by
      rw [step,nextRam,src]
      cases e.dst <;> rfl
    rw [mem,accepted,src]
    cases write : s.wr.doWrite i.wrValid with
    | false => exact .inl ⟨by simp [write],by simp⟩
    | true =>
      have free : s.wr.full = false := by simp [Wr.doWrite] at write; exact write.2
      have below := lastBelow w.order
      have room := w.notFull free
      exact .inr ⟨i.wdata,by simp [write],by omega,by simp [w.bin,addrSlot]⟩

theorem memKept {s : Regs width addrWidth} {written read : Nat} {rs : List Nat} (e : Inputs width addrWidth)
    (w : WrCounts s.wr written read rs) {u : Nat} (early : read ≤ u) (below : u < written) :
    (step s e).ram.mem (slot addrWidth u) = s.ram.mem (slot addrWidth u) := by
  rcases memNext e w with ⟨_,same⟩ | ⟨x,_,room,same⟩
  · rw [same]
  · rw [same,Function.update_of_ne (slotNe below (by omega))]

theorem fetchNext {s : Regs width addrWidth} {e : Inputs width addrWidth} {i : RdInputs width addrWidth}
    (reads : e.dst = some i) {written read u : Nat} {rs : List Nat} (w : WrCounts s.wr written read rs)
    (early : read ≤ u) (below : u < written) (here : s.rd.raddr = slot addrWidth u) :
    (step s e).ram.rdataPipe = s.ram.mem (slot addrWidth u) := by
  have pipe : (step s e).ram.rdataPipe = if !(accepted s e).isEmpty && s.rd.raddr == addr s.wr.ptrBin
      then i.collided else s.ram.mem s.rd.raddr := by
    rw [step,nextRam,reads]
    cases e.src <;> rfl
  have apart : (!(accepted s e).isEmpty && s.rd.raddr == addr s.wr.ptrBin) = false := by
    rcases memNext e w with ⟨absent,_⟩ | ⟨x,_,room,_⟩
    · simp [absent]
    · have other := @slotNe addrWidth _ _ below (by omega)
      rw [here,w.bin,addrSlot,beq_eq_false_iff_ne.mpr other,Bool.and_false]
  rw [pipe,apart,if_neg Bool.false_ne_true,here]

theorem heldWr (wide : 0 < addrWidth) {s : Regs width addrWidth} (e : Inputs width addrWidth) {written read : Nat}
    {ws rs : List Nat} (w : WrCounts s.wr written read rs) (r : RdCounts s.rd written read ws) :
    ∃ rs', WrCounts (nextWr s e) (written + (accepted s e).length) (read + (taken s e).length) rs' := by
  obtain ⟨_,rdGray,_,one⟩ := countsNext e w r
  cases src : e.src with
  | none =>
    have empty : accepted s e = [] := by rw [accepted,src]
    have same : nextWr s e = s.wr := by rw [nextWr,src]
    rw [same,empty]
    exact ⟨rs,w.bin,w.gray,w.sync,descendingRaise w.order (Nat.le_add_right _ _),w.room,w.notFull⟩
  | some i =>
    obtain ⟨t,early,late,seen⟩ := @sampled addrWidth i.rdNew _ _
      (show read + (taken s e).length = read ∨ read + (taken s e).length = read + 1 by omega)
    have count : (accepted s e).length = (s.wr.doWrite i.wrValid).toNat := by
      rw [accepted,src]
      cases write : s.wr.doWrite i.wrValid <;> simp [write]
    have next : nextWr s e = s.wr.edge i.wrValid (code addrWidth t) := by rw [nextWr,src,rdGray,r.gray,← seen]
    rw [next,count]
    exact ⟨_,wrEdge wide w (ahead w r).1 i.wrValid early late⟩

theorem heldRd {s : Regs width addrWidth} (e : Inputs width addrWidth) {written read : Nat}
    {ws rs : List Nat} (w : WrCounts s.wr written read rs) (r : RdCounts s.rd written read ws)
    (h : Staged s.rd s.ram read (ws.getLastD 0)) :
    ∃ ws', RdCounts (step s e).rd (written + (accepted s e).length) (read + (taken s e).length) ws' ∧
      Staged (step s e).rd (step s e).ram (read + (taken s e).length) (ws'.getLastD 0) := by
  obtain ⟨wrGray,_,one,_⟩ := countsNext e w r
  have below := lastBelow r.order
  cases dst : e.dst with
  | none =>
    have empty : taken s e = [] := by rw [taken,dst]
    have same : (step s e).rd = s.rd := by rw [step,nextRd,dst]
    have still : (step s e).ram.rdataPipe = s.ram.rdataPipe ∧ (step s e).ram.rdata = s.ram.rdata := by
      rw [step,nextRam,dst]
      cases e.src <;> exact ⟨rfl,rfl⟩
    have kept (present : s.rd.outValid = true ∨ s.rd.loadPending = true) :=
      memKept e w (Nat.le_refl read) (Nat.lt_of_lt_of_le (h.there present) below)
    rw [same,empty]
    refine ⟨ws,⟨r.bin,r.gray,r.sync,descendingRaise r.order (Nat.le_add_right _ _),r.behind⟩,
      h.alone,h.once,h.there,fun first => ?_,fun last => ?_,fun shown => ?_⟩
    · exact (still.1.trans (h.pipe first)).trans (kept (.inr (by simp [Rd.loadPending,first]))).symm
    · exact (still.2.trans (h.ramOut last)).trans (kept (.inr (by simp [Rd.loadPending,last]))).symm
    · exact (h.out shown).trans (kept (.inl shown)).symm
  | some i =>
    obtain ⟨t,early,late,seen⟩ := @sampled addrWidth i.wrNew _ _
      (show written + (accepted s e).length = written ∨ written + (accepted s e).length = written + 1 by omega)
    have count : (taken s e).length = (s.rd.fire i.rdReady).toNat := by
      rw [taken,dst]
      cases fires : s.rd.fire i.rdReady <;> simp [fires]
    have next : (step s e).rd = s.rd.edge i.rdReady (code addrWidth t) s.ram.rdata := by
      rw [step,nextRd,dst,wrGray,w.gray,← seen]
    have out : (step s e).ram.rdata = s.ram.rdataPipe := by
      rw [step,nextRam,dst]
      cases e.src <;> rfl
    rw [next,count]
    exact ⟨_,rdEdge r i.rdReady s.ram.rdata early late fun shown => h.there (.inl shown),
      stagedEdge r (ahead w r).2 h early out (fun _ => memKept e w) fun _ => fetchNext dst w⟩

theorem takenHead (s : Regs width addrWidth) (e : Inputs width addrWidth) :
    taken s e = [] ∨ s.rd.outValid = true ∧ taken s e = [s.rd.outData] := by
  rw [taken]
  cases e.dst with
  | none => exact .inl rfl
  | some i =>
    cases fires : s.rd.fire i.rdReady with
    | false => exact .inl (by simp [fires])
    | true =>
      simp only [Rd.fire,Bool.and_eq_true] at fires
      exact .inr ⟨fires.1,by simp [Rd.fire,fires]⟩

theorem contentsStep {s : Regs width addrWidth} (e : Inputs width addrWidth) {written read : Nat}
    {ws rs : List Nat} (w : WrCounts s.wr written read rs) (r : RdCounts s.rd written read ws)
    (h : Staged s.rd s.ram read (ws.getLastD 0)) :
    Ring.entries s.ram.mem (slot addrWidth read) (written - read) ++ accepted s e =
      taken s e ++ Ring.entries (step s e).ram.mem (slot addrWidth (read + (taken s e).length))
        (written + (accepted s e).length - (read + (taken s e).length)) := by
  obtain ⟨le,room⟩ := ahead w r
  have entered : Ring.entries s.ram.mem (slot addrWidth read) (written - read) ++ accepted s e =
      Ring.entries (step s e).ram.mem (slot addrWidth read) (written + (accepted s e).length - read) := by
    rcases memNext e w with ⟨absent,same⟩ | ⟨x,one,room,same⟩
    · rw [absent,same,List.append_nil]
      rfl
    · have last : slot addrWidth written = slot addrWidth read + BitVec.ofNat addrWidth (written - read) := by
        rw [slotAdd,Nat.add_sub_cancel' le]
      rw [one,same,last,← Ring.entriesPush _ _ _ (by omega),List.length_singleton,Nat.sub_add_comm le]
  rw [entered]
  rcases takenHead s e with absent | ⟨shown,one⟩
  · rw [absent]
    rfl
  · have below := Nat.lt_of_lt_of_le (h.there (.inl shown)) (lastBelow r.order)
    have more : written + (accepted s e).length - read = written + (accepted s e).length - (read + 1) + 1 := by omega
    rw [one,more,Ring.entriesSucc,slotNext,memKept e w (Nat.le_refl read) below,← h.out shown]
    rfl

theorem heldStep (wide : 0 < addrWidth) (s : Regs width addrWidth) (e : Inputs width addrWidth) (held : Held s) :
    Held (machine.next s e) ∧ contents s ++ accepted s e = taken s e ++ contents (machine.next s e) := by
  obtain ⟨written,read,ws,rs,w,r,h⟩ := held
  obtain ⟨rs',w'⟩ := heldWr wide e w r
  obtain ⟨ws',r',h'⟩ := heldRd e w r h
  refine ⟨⟨_,_,ws',rs',w',r',h'⟩,?_⟩
  have next : contents (machine.next s e) = _ := contentsCounts (s := step s e) w' r'
  rw [contentsCounts w r,next]
  exact contentsStep e w r h

theorem heldReset (s : Regs width addrWidth) : Held (reset s) := by
  have zeros (stages : List (Ptr addrWidth)) :
      clear 0 stages = (stages.map fun _ => 0).map (code addrWidth) := by
    simp [clear,code,binToGray,Gray.encode]
  have order (stages : List (Ptr addrWidth)) : Descending 0 (stages.map fun _ => 0) :=
    List.pairwise_cons.mpr ⟨fun x mem => by simp at mem; omega,List.pairwise_map.mpr (List.pairwise_of_forall fun _ _ => Nat.le_refl 0)⟩
  have positive : 0 < 2 ^ addrWidth := Nat.two_pow_pos _
  refine ⟨0,0,s.rd.wrSync.map fun _ => 0,s.wr.rdSync.map fun _ => 0,⟨rfl,?_,zeros _,order _,by omega,fun _ => by omega⟩,
    ⟨rfl,?_,zeros _,order _,Nat.zero_le _⟩,?_⟩
  · simp [reset,code,binToGray,Gray.encode]
  · simp [reset,code,binToGray,Gray.encode]
  · constructor <;> simp [reset,Rd.loadPending]

/- In every run after both resets, whatever the order of the edges and whichever bits of a changing
pointer are seen new: the words accepted are those read, in order, and at most `DEPTH` held; those
held are the entries of the array from the read pointer on, and the word offered is the first. -/
theorem readsInOrder (wide : 0 < addrWidth) (s : Regs width addrWidth) (inputs : List (Inputs width addrWidth)) :
    ∃ held, machine.history accepted (reset s) inputs = machine.history taken (reset s) inputs ++ held ∧
      held.length ≤ 2 ^ addrWidth ∧
      let here := machine.final (reset s) inputs
      held = Ring.entries here.ram.mem (addr here.rd.ptrBin) held.length ∧
      (here.rd.outValid = true → held.head? = some here.rd.outData ∧
        here.rd.outData = here.ram.mem (addr here.rd.ptrBin)) := by
  obtain ⟨⟨written,read,ws,rs,w,r,h⟩,all⟩ := machine.conserved (heldStep wide) (heldReset s) inputs
  have empty : contents (reset s) = [] := by simp [contents,reset]
  rw [empty,List.nil_append] at all
  refine ⟨contents (machine.final (reset s) inputs),all,?_⟩
  generalize machine.final (reset s) inputs = here at w r h
  obtain ⟨le,room⟩ := ahead w r
  dsimp only
  rw [contentsCounts w r,Ring.entriesLength,r.bin,addrSlot]
  refine ⟨by omega,rfl,fun shown => ?_⟩
  have present := Nat.lt_of_lt_of_le (h.there (.inl shown)) (lastBelow r.order)
  obtain ⟨n,more⟩ : ∃ n, written - read = n + 1 := ⟨written - read - 1,by omega⟩
  rw [more,Ring.entriesSucc,h.out shown]
  exact ⟨rfl,rfl⟩

/- Two entries, both clocks together, and three words so that the slots are used again. -/
def idle : Regs 8 1 where
  wr := ⟨0,0,false,[0,0]⟩
  rd := ⟨0,0,0,false,false,false,[0,0]⟩
  ram := ⟨fun _ => 0,0,0⟩

def threeWords : List (Inputs 8 1) :=
  [⟨some ⟨true,11,0⟩,none⟩,⟨some ⟨true,22,0⟩,some ⟨true,3,0⟩⟩] ++
  List.replicate 9 ⟨some ⟨false,0,1⟩,some ⟨true,2,0⟩⟩ ++
  [⟨some ⟨true,33,3⟩,some ⟨true,1,0⟩⟩,⟨none,some ⟨true,0,0⟩⟩,⟨none,some ⟨true,0,0⟩⟩,⟨none,some ⟨true,0,0⟩⟩,
    ⟨none,some ⟨true,0,0⟩⟩,⟨none,some ⟨false,0,0⟩⟩]

theorem threeWordsRead : machine.history accepted (reset idle) threeWords = [11,22,33] ∧
    machine.history taken (reset idle) threeWords = [11,22] ∧
    ∃ held, machine.history accepted (reset idle) threeWords = machine.history taken (reset idle) threeWords ++ held ∧
      held.length ≤ 2 ∧
      let here := machine.final (reset idle) threeWords
      held = Ring.entries here.ram.mem (addr here.rd.ptrBin) held.length ∧
      (here.rd.outValid = true → held.head? = some here.rd.outData ∧
        here.rd.outData = here.ram.mem (addr here.rd.ptrBin)) :=
  ⟨by decide +kernel,by decide +kernel,readsInOrder (by decide) idle threeWords⟩

end RiscvSoc.AsyncFifo
