import RiscvSoc.Isa.Program
import RiscvSoc.Rtl.Cpu.BaseExecution

/-! The CPU on a bus with a byte-addressable memory behind it, and the fetch of an instruction from that memory. -/
namespace RiscvSoc.Core
open Mealy Machine
open ByteMemory

namespace Access

def count (a : Access) : Nat := if a.size = 0 then 1 else if a.size = 1 then 2 else 4
def stored (a : Access) : List LittleEndian.Byte := (LittleEndian.bytes 4 a.wdata.toNat).take a.count

end Access

structure MemoryBus where
  memory : Memory 32
  pending : Option Access

namespace MemoryBus

def next (b : MemoryBus) : Event → MemoryBus
  | .asked a => ⟨if a.we then store b.memory a.addr a.stored else b.memory,some a⟩
  | .answered _ => ⟨b.memory,none⟩

def Honest (b : MemoryBus) : Event → Prop
  | .asked _ => True
  | .answered data => ∀ a ∈ b.pending, a.we = false →
      (LittleEndian.bytes 4 data.toNat).take a.count = load b.memory a.addr a.count

instance (b : MemoryBus) : DecidablePred b.Honest
  | .asked _ => inferInstanceAs (Decidable True)
  | .answered data => inferInstanceAs (Decidable (∀ a ∈ b.pending, a.we = false →
      (LittleEndian.bytes 4 data.toNat).take a.count = load b.memory a.addr a.count))

end MemoryBus

def memoryBus : Machine MemoryBus Event Unit := ⟨fun _ _ => (),MemoryBus.next⟩

structure Platform where
  cpu : Computing
  bus : MemoryBus

def Platform.next (cfg : Config) (p : Platform) (i : Inputs) : Platform :=
  ⟨p.cpu.next cfg i,memoryBus.final p.bus (events p.cpu i)⟩

def platform (cfg : Config) : Machine Platform Inputs Outputs :=
  ⟨fun p i => (computing cfg).output p.cpu i,Platform.next cfg⟩

/- The address on the boot port, and the answers of the memory. -/
structure Supports (entry : BitVec 32) (p : Platform) (i : Inputs) : Prop where
  boots : i.boot = true → i.bootAddr = entry
  serves : memoryBus.Steps MemoryBus.Honest p.bus (events p.cpu i)

instance (entry : BitVec 32) (p : Platform) (i : Inputs) : Decidable (Supports entry p i) :=
  decidable_of_iff ((i.boot = true → i.bootAddr = entry) ∧ memoryBus.Steps MemoryBus.Honest p.bus (events p.cpu i))
    ⟨fun h => ⟨h.1,h.2⟩,fun h => ⟨h.boots,h.serves⟩⟩

theorem wordLoaded (memory : Memory 32) (a : BitVec 32) : LittleEndian.word 32 (load memory a 4) = word memory a := by
  have bytes : load memory a 4 = [memory a,memory (a + 1),memory (a + 2),memory (a + 3)] := by
    simp [load,List.range_succ]
  have last : a + 2 + 1 = a + 3 := by rw [BitVec.add_assoc]; rfl
  refine LittleEndian.eqOfBytes (m := 4) fun k inside => ?_
  rw [LittleEndian.byteAtWord _ (by omega),bytes,word,halfword,halfword,last]
  apply BitVec.eq_of_getLsbD_eq
  intro i low
  rw [LittleEndian.byteAtBit _ _ _ low]
  change _ = @BitVec.getLsbD (16 + 16) (memory (a + 3) ++ memory (a + 2) ++ (memory (a + 1) ++ memory a)) _
  rw [BitVec.getLsbD_append,BitVec.getLsbD_append,BitVec.getLsbD_append]
  obtain rfl | rfl | rfl | rfl : k = 0 ∨ k = 1 ∨ k = 2 ∨ k = 3 := by omega
  · simp [low,show i < 16 by omega]
  · simp [show 8 + i < 16 by omega]
  · simp [low]
  · simp [show ¬ 24 + i < 16 by omega,show ¬ 24 + i - 16 < 8 by omega,show 24 + i - 16 - 8 = i by omega]

theorem wordFetched {memory : Memory 32} {a data : BitVec 32}
    (same : (LittleEndian.bytes 4 data.toNat).take 4 = load memory a 4) : data = word memory a := by
  rw [← wordLoaded,← same,List.take_of_length_le (by simp)]
  exact (LittleEndian.wordBytes (m := 4) data).symm

theorem wordAnswered (memory : Memory 32) (a : BitVec 32) {n : Nat} (few : n ≤ 4) :
    (LittleEndian.bytes 4 (word memory a).toNat).take n = load memory a n := by
  have whole : (LittleEndian.bytes 4 (LittleEndian.word 32 (load memory a 4)).toNat).take (load memory a 4).length =
      load memory a 4 := LittleEndian.bytesWord (m := 4) (by simp)
  have parts : load memory a 4 = load memory a n ++ load memory (a + BitVec.ofNat 32 n) (4 - n) := by
    rw [← loadAppend,Nat.add_sub_of_le few]
  rw [wordLoaded,loadLength,List.take_of_length_le (by simp)] at whole
  rw [whole,parts,List.take_left' (by simp)]

variable {cfg : Config} {code : Code} {h : Computing} {p : Platform} {asked : Option Request} {i : Inputs}

inductive BusCycle (h : Computing) (i : Inputs) : Prop where
  | asks (shakes : h.core.memAHandshake (h.given i) = true) (free : h.core.memReqInflight = false)
      (answers : h.core.memDHandshake (h.given i) = false) (shown : events h i = [.asked (h.core.access (h.given i))])
  | hears (shakes : h.core.memAHandshake (h.given i) = false) (inflight : h.core.memReqInflight = true)
      (answers : h.core.memDHandshake (h.given i) = true) (shown : events h i = [.answered i.memDRdata])
  | silent (shakes : h.core.memAHandshake (h.given i) = false) (answers : h.core.memDHandshake (h.given i) = false)
      (shown : events h i = [])

theorem busCycle (h : Computing) (i : Inputs) : BusCycle h i := by
  cases shakes : h.core.memAHandshake (h.given i) with
  | true =>
    have free := (handshaken shakes).1
    have answers : h.core.memDHandshake (h.given i) = false := by simp [Regs.memDHandshake,free]
    exact .asks shakes free answers (by simp [events,shakes,answers])
  | false =>
    cases answers : h.core.memDHandshake (h.given i) with
    | true =>
      have inflight := answers
      simp only [Regs.memDHandshake,Bool.and_eq_true] at inflight
      exact .hears shakes inflight.2 answers (by simp [events,shakes,answers])
    | false => exact .silent shakes answers (by simp [events,shakes,answers])

structure Linked (cfg : Config) (code : Code) (p : Platform) (asked : Option Request) : Prop where
  equipped : Equipped cfg p.cpu
  delivering : Delivering cfg code ⟨p.cpu.core,asked⟩
  pending : p.bus.pending = asked.map Request.access
  inflight : p.cpu.core.memReqInflight = asked.isSome
  fetches : ∀ r ∈ asked, r.fetches = true →
    (p.cpu.core.currentState = .fetch ∨ p.cpu.core.currentState = .halt) ∧ r.access.we = false ∧ r.access.size = 2
  awake : p.cpu.core.wfiActive = false

theorem resetLinked (h : Computing) (banks : h.core.bankA.mem = h.core.bankB.mem) (memory : Memory 32) :
    Linked cfg code ⟨h.reset,memory,none⟩ none where
  equipped := equippedReset h banks
  delivering := resetDelivering h.core
  pending := rfl
  inflight := rfl
  fetches r mem := by contradiction
  awake := rfl

theorem Linked.waits (l : Linked cfg code p asked) {r : Request} (mem : r ∈ asked) : p.cpu.core.memReqInflight = true :=
  l.inflight.trans (congrArg Option.isSome mem)

def askedAfter (cfg : Config) (p : Platform) (asked : Option Request) (i : Inputs) : Option Request :=
  (OnBus.next cfg ⟨p.cpu.core,asked⟩ (p.cpu.given i)).asked

theorem pendingNext (l : Linked cfg code p asked) (i : Inputs) :
    (p.next cfg i).bus.pending = (askedAfter cfg p asked i).map Request.access ∧
      (p.next cfg i).cpu.core.memReqInflight = (askedAfter cfg p asked i).isSome := by
  have inflight : (p.next cfg i).cpu.core.memReqInflight =
      ((p.cpu.core.memReqInflight || p.cpu.core.memAHandshake (p.cpu.given i)) &&
        !p.cpu.core.memDHandshake (p.cpu.given i)) := rfl
  rw [inflight,Platform.next,askedAfter,OnBus.next]
  cases busCycle p.cpu i with
  | asks shakes free answers shown =>
    rw [shown]
    simp [shakes,answers,memoryBus,MemoryBus.next]
  | hears shakes inflight answers shown =>
    rw [shown]
    simp [shakes,answers,memoryBus,MemoryBus.next]
  | silent shakes answers shown =>
    rw [shown]
    simp [shakes,answers,l.pending,l.inflight]

theorem fetchesNext (l : Linked cfg code p asked) (i : Inputs) : ∀ r ∈ askedAfter cfg p asked i, r.fetches = true →
    ((p.next cfg i).cpu.core.currentState = .fetch ∨ (p.next cfg i).cpu.core.currentState = .halt) ∧ r.access.we = false ∧
      r.access.size = 2 := by
  intro r mem fetches
  have state : (p.next cfg i).cpu.core.currentState = p.cpu.core.nextState (p.cpu.given i) := rfl
  rw [askedAfter,OnBus.next] at mem
  rw [state]
  cases busCycle p.cpu i with
  | asks shakes free answers shown =>
    rw [if_pos shakes] at mem
    cases mem
    change p.cpu.core.imemReq (p.cpu.given i) = true at fetches
    obtain ⟨place,quiet,_,runs,unstaged⟩ := fetchAsked fetches
    refine ⟨.inl ?_,by simp [Regs.access,fetches],by simp [Regs.access,fetches]⟩
    simp [Regs.nextState,place,quiet,runs,l.awake,Regs.imemReady,unstaged]
  | hears shakes inflight answers shown =>
    simp [shakes,answers] at mem
  | silent shakes answers shown =>
    simp only [shakes,answers,Bool.false_eq_true,if_false] at mem
    obtain ⟨place,rest⟩ := l.fetches r mem fetches
    have inflight := l.waits mem
    refine ⟨?_,rest⟩
    rcases place with fetch | halt
    · have unstaged : p.cpu.core.imemDataStagingValid = false := by
        rcases Bool.eq_false_or_eq_true p.cpu.core.imemDataStagingValid with staged | absent
        · rcases l.delivering.staged staged with ⟨_,free⟩ | halt
          · exact absurd (inflight.symm.trans free) (by decide)
          · exact absurd (fetch.symm.trans halt) (by decide)
        · exact absent
      simp only [Regs.nextState,fetch,Regs.imemReady,unstaged,Bool.false_eq_true,if_false]
      repeat' split
      all_goals simp
    · simp [Regs.nextState,halt]

theorem linkedNext (l : Linked cfg code p asked) (answered : Answered code ⟨p.cpu.core,asked⟩ (p.cpu.given i))
    (awake : p.cpu.core.currentState = .regReadWait → p.cpu.core.dec.isWfi = false) :
    Linked cfg code (p.next cfg i) (askedAfter cfg p asked i) where
  equipped := equippedNext l.equipped i
  delivering := deliveringNext l.delivering answered
  pending := (pendingNext l i).1
  inflight := (pendingNext l i).2
  fetches := fetchesNext l i
  awake := by
    have next : (p.next cfg i).cpu.core.wfiActive =
        (!(p.cpu.core.interruptTaken (p.cpu.given i) || i.reqHalt) && (p.cpu.core.wfiActive ||
          p.cpu.core.currentState == .regReadWait && p.cpu.core.dec.isWfi && !p.cpu.core.syncTrapPending)) := rfl
    rw [next,l.awake]
    by_cases state : p.cpu.core.currentState = .regReadWait
    · simp [awake state]
    · simp [state]

theorem answeredData (l : Linked cfg code p asked)
    (others : p.cpu.core.currentState ≠ .fetch ∧ p.cpu.core.currentState ≠ .halt) (i : Inputs) :
    Answered code ⟨p.cpu.core,asked⟩ i := by
  intro r mem fetches _
  rcases (l.fetches r mem fetches).1 with fetch | halt
  · exact absurd fetch others.1
  · exact absurd halt others.2

theorem answeredFetch (l : Linked cfg code p asked) (state : p.cpu.core.currentState = .fetch)
    (same : word p.bus.memory p.cpu.core.pc = word code p.cpu.core.pc)
    (serves : memoryBus.Steps MemoryBus.Honest p.bus (events p.cpu i)) : Answered code ⟨p.cpu.core,asked⟩ (p.cpu.given i) := by
  intro r (mem : asked = some r) fetches answers
  obtain ⟨_,we,size⟩ := l.fetches r mem fetches
  have inflight := l.waits mem
  obtain ⟨r',same',_,address⟩ := l.delivering.asked inflight state
  obtain rfl : r' = r := Option.some.inj (same'.symm.trans mem)
  cases busCycle p.cpu i with
  | asks shakes free => exact absurd (inflight.symm.trans free) (by decide)
  | silent shakes absent => exact absurd (answers.symm.trans absent) (by decide)
  | hears shakes inflight answers shown =>
    rw [shown,stepsCons] at serves
    have honest := serves.1 r'.access (by rw [l.pending,mem]; rfl) we
    rw [Access.count,size] at honest
    have fetched : i.memDRdata = word p.bus.memory r'.access.addr := wordFetched honest
    rw [address,same] at fetched
    rw [address]
    exact fetched

end RiscvSoc.Core
