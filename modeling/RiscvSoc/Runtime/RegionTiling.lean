import RiscvSoc.Runtime.MemoryRegion

/-! The requests that the region loops send: they tile the region, each is aligned and passes the
checks on its way, and a runtime of any behaviour is handed no others. -/
namespace RiscvSoc.Runtime
open LittleEndian (Byte)
open Host

/- Requests that cover the addresses from `first` up to `last`, each byte once and in order. -/
inductive Tiles : Nat → Nat → List BusRequest → Prop where
  | nil (first) : Tiles first first []
  | cons {first last r rest} (starts : r.addr.toNat = first) (moves : r.srcFixed = false ∧ r.dstFixed = false)
      (later : Tiles (first + r.burstLen.toNat * r.size.byteCount) last rest) : Tiles first last (r :: rest)

/- What the runtime and, for the RTL's addresses, `HostBusHandler` ask of a request. -/
structure Sound (r : BusRequest) : Prop where
  aligned : r.addr.toNat % r.size.byteCount = 0
  beats : 0 < r.burstLen.toNat ∧ r.burstLen.toNat ≤ maxBurstBeats
  payload : r.data.length = if r.we then r.burstLen.toNat * r.size.byteCount else 0
  route : classifyHostRequestRoute r = .hostBusHandler ∧ Handler.requestFault r = none ∨
    classifyHostRequestRoute r = .systemBus

/- The region lies on one side of the boundary between the RTL's addresses and the others. -/
def OneSide (startAddr : Word) (len : Nat) : Prop :=
  startAddr.toNat + len ≤ 2 ^ 31 ∨ 2 ^ 31 ≤ startAddr.toNat
instance (startAddr len) : Decidable (OneSide startAddr len) := by unfold OneSide; infer_instance

/- A step of the loops inside a region. -/
structure Chunk.Within (startAddr : Word) (len : Nat) (c : Chunk) : Prop where
  place : c.addr.toNat = startAddr.toNat + c.offset
  inside : c.offset + c.bytes ≤ len
  aligned : c.addr.toNat % c.size.byteCount = 0
  beats : 0 < c.beats ∧ c.beats ≤ maxBurstBeats
  single : c.size ≠ .word → c.beats = 1

theorem lowTwo (addr : Word) : addr &&& 0x3 = 0 ↔ addr.toNat % 4 = 0 := by
  rw [← BitVec.toNat_inj,BitVec.toNat_and]
  exact iff_of_eq (congrArg (· = 0) (Nat.and_two_pow_sub_one_eq_mod addr.toNat 2))

theorem lowOne (addr : Word) : addr &&& 0x1 = 0 ↔ addr.toNat % 2 = 0 := by
  rw [← BitVec.toNat_inj,BitVec.toNat_and]
  exact iff_of_eq (congrArg (· = 0) (Nat.and_two_pow_sub_one_eq_mod addr.toNat 1))

variable {startAddr : Word} {len : Nat}

theorem chunkWithin (fits : startAddr.toNat + len ≤ 2 ^ 32) {offset : Nat} (inside : offset < len) :
    (Chunk.startingAt (startAddr + BitVec.ofNat 32 offset) offset (len - offset)).Within startAddr len := by
  have place : (startAddr + BitVec.ofNat 32 offset).toNat = startAddr.toNat + offset := by
    rw [BitVec.toNat_add,BitVec.toNat_ofNat,Nat.mod_eq_of_lt (show offset < 2 ^ 32 by omega),Nat.mod_eq_of_lt (by omega)]
  rw [Chunk.startingAt]
  split
  · rename_i bursts
    refine ⟨place,?_,(lowTwo _).mp bursts.2,?_,fun other => absurd rfl other⟩
    · simp only [Chunk.bytes,AccessSize.byteCount]
      omega
    · simp only [maxBurstBeats]
      omega
  · split
    · rename_i even
      refine ⟨place,?_,(lowOne _).mp even.2,⟨Nat.one_pos,(by decide : 1 ≤ maxBurstBeats)⟩,fun _ => rfl⟩
      simp only [Chunk.bytes,AccessSize.byteCount]
      omega
    · refine ⟨place,?_,Nat.mod_one _,⟨Nat.one_pos,(by decide : 1 ≤ maxBurstBeats)⟩,fun _ => rfl⟩
      simp only [Chunk.bytes,AccessSize.byteCount]
      omega

theorem chunksWithin (fits : startAddr.toNat + len ≤ 2 ^ 32) (offset : Nat) :
    ∀ c ∈ chunks startAddr len offset, c.Within startAddr len := by
  induction offset using chunks.induct startAddr len with
  | case1 offset inside c ih =>
    rw [chunks,if_pos inside]
    intro d mem
    rcases List.mem_cons.mp mem with rfl | later
    · exact chunkWithin fits inside
    · exact ih d later
  | case2 offset outside =>
    rw [chunks,if_neg outside]
    simp

structure Chunk.Requests (c : Chunk) (r : BusRequest) : Prop where
  addr : r.addr = c.addr
  size : r.size = c.size
  beats : r.burstLen.toNat = c.beats
  moves : r.srcFixed = false ∧ r.dstFixed = false
  payload : r.data.length = if r.we then c.bytes else 0

theorem burstLenBeats {c : Chunk} (within : c.Within startAddr len) : (BitVec.ofNat 32 c.beats).toNat = c.beats := by
  have bound := within.beats.2
  rw [maxBurstBeats] at bound
  rw [BitVec.toNat_ofNat,Nat.mod_eq_of_lt (by omega)]

theorem readRequests {c : Chunk} (within : c.Within startAddr len) : c.Requests c.readRequest := by
  have beats := burstLenBeats within
  obtain ⟨addr,size,count,offset⟩ := c
  cases size with
  | word => exact ⟨rfl,rfl,beats,⟨rfl,rfl⟩,rfl⟩
  | byte => exact ⟨rfl,rfl,(within.single (by simp)).symm,⟨rfl,rfl⟩,rfl⟩
  | halfword => exact ⟨rfl,rfl,(within.single (by simp)).symm,⟨rfl,rfl⟩,rfl⟩

theorem partLength {c : Chunk} {data : List Byte} (within : c.Within startAddr data.length) :
    ((data.drop c.offset).take c.bytes).length = c.bytes := by
  have inside := within.inside
  rw [List.length_take,List.length_drop]
  omega

theorem shortPart {part : List Byte} {n : Nat} (length : part.length = n) (small : n ≤ 4) :
    (LittleEndian.bytes 4 (LittleEndian.word 32 part).toNat).take n = part := by
  subst length
  exact LittleEndian.bytesWord small

theorem writeRequestData {c : Chunk} {data : List Byte} (within : c.Within startAddr data.length) :
    (c.writeRequest data).data = (data.drop c.offset).take c.bytes := by
  have length := partLength within
  have single := within.single
  obtain ⟨addr,size,count,offset⟩ := c
  have width (one : count = 1) : Chunk.bytes ⟨addr,size,count,offset⟩ = size.byteCount := by
    rw [Chunk.bytes,one,Nat.one_mul]
  cases size with
  | word => rfl
  | byte => exact shortPart (length.trans (width (single (by simp)))) (show _ ≤ 4 by simp [AccessSize.byteCount])
  | halfword => exact shortPart (length.trans (width (single (by simp)))) (show _ ≤ 4 by simp [AccessSize.byteCount])

theorem writeRequests {c : Chunk} {data : List Byte} (within : c.Within startAddr data.length) :
    c.Requests (c.writeRequest data) := by
  have payload := congrArg List.length (writeRequestData within)
  rw [partLength within] at payload
  have beats := burstLenBeats within
  obtain ⟨addr,size,count,offset⟩ := c
  cases size with
  | word => exact ⟨rfl,rfl,beats,⟨rfl,rfl⟩,payload⟩
  | byte => exact ⟨rfl,rfl,(within.single (by simp)).symm,⟨rfl,rfl⟩,payload⟩
  | halfword => exact ⟨rfl,rfl,(within.single (by simp)).symm,⟨rfl,rfl⟩,payload⟩

theorem requestEnd {c : Chunk} {r : BusRequest} (requests : c.Requests r) (within : c.Within startAddr len)
    (fits : startAddr.toNat + len ≤ 2 ^ 32) :
    ∃ last, requestEndAddr r = some last ∧ last.toNat = r.addr.toNat + c.bytes - 1 := by
  have inside := within.inside
  have place := within.place
  have positive : 0 < c.bytes := Nat.mul_pos within.beats.1 c.size.byteCountPositive
  have bound : c.bytes < 2 ^ 32 := by
    have beats := within.beats.2
    rw [maxBurstBeats] at beats
    rw [Chunk.bytes]
    cases c.size <;> simp only [AccessSize.byteCount] <;> omega
  have stride : (BitVec.ofNat 32 r.size.byteCount).toNat = r.size.byteCount := by cases r.size <;> rfl
  have product : r.burstLen.toNat * (BitVec.ofNat 32 r.size.byteCount).toNat = c.bytes := by
    rw [stride,requests.beats,requests.size]
    rfl
  have total : (r.burstLen * BitVec.ofNat 32 r.size.byteCount).toNat = c.bytes := by
    rw [BitVec.toNat_mul,product,Nat.mod_eq_of_lt bound]
  have one : (1 : Word) ≤ r.burstLen * BitVec.ofNat 32 r.size.byteCount :=
    BitVec.le_def.mpr (by rw [total]; exact positive)
  have offset : (r.burstLen * BitVec.ofNat 32 r.size.byteCount - 1).toNat = c.bytes - 1 := by
    rw [BitVec.toNat_sub_of_le one,total]
    rfl
  have addr : r.addr.toNat = c.addr.toNat := congrArg BitVec.toNat requests.addr
  refine ⟨r.addr + (r.burstLen * BitVec.ofNat 32 r.size.byteCount - 1),?_,?_⟩
  · have least : (1 : Word).toNat ≤ c.bytes := positive
    have room : r.addr.toNat + (c.bytes - 1) < 2 ^ 32 := by omega
    simp only [requestEndAddr,requests.moves.1,requests.moves.2,Bool.and_false,Bool.or_false,Bool.false_eq_true,
      if_false,checkedMul,product,bound,if_true,checkedSub,total,least,checkedAdd,bind,Option.bind,offset,room]
  · rw [BitVec.toNat_add,offset,Nat.mod_eq_of_lt (by omega)]
    omega

theorem requestSound {c : Chunk} {r : BusRequest} (requests : c.Requests r) (within : c.Within startAddr len)
    (fits : startAddr.toNat + len ≤ 2 ^ 32) (side : OneSide startAddr len) : Sound r := by
  obtain ⟨last,ends,value⟩ := requestEnd requests within fits
  have inside := within.inside
  have place := within.place
  have addr : r.addr.toNat = c.addr.toNat := congrArg BitVec.toNat requests.addr
  have positive : 0 < c.bytes := Nat.mul_pos within.beats.1 c.size.byteCountPositive
  have payload : r.data.length = if r.we then r.burstLen.toNat * r.size.byteCount else 0 := by
    rw [requests.payload,requests.beats,requests.size]
    rfl
  have beats : 0 < r.burstLen.toNat ∧ r.burstLen.toNat ≤ maxBurstBeats := by
    rw [requests.beats]
    exact within.beats
  refine ⟨by rw [addr,requests.size]; exact within.aligned,beats,payload,?_⟩
  have started := rtlHalf r.addr
  have ended := rtlHalf last
  rcases side with low | high
  · have region : classifyRequestRegion r = .rtlPeripheral := by
      rw [decide_eq_true (by omega)] at started ended
      simp only [classifyRequestRegion,ends,started,ended]
    have nonzero : r.burstLen ≠ 0 := by
      intro zero
      rw [zero] at beats
      exact absurd beats.1 (by decide)
    refine .inl ⟨by simp only [classifyHostRequestRoute,ends,region]; rfl,?_⟩
    simp only [Handler.requestFault,region,nonzero,false_or]
    rw [if_neg (by omega)]
    cases we : r.we with
    | true =>
      rw [we,if_pos rfl,Nat.mul_comm] at payload
      simp [payload]
    | false =>
      rw [we,if_neg (by simp),List.length_eq_zero_iff] at payload
      simp [payload]
  · have region : classifyRequestRegion r = .nonRtl := by
      rw [decide_eq_false (by omega)] at started ended
      simp only [classifyRequestRegion,ends,started,ended]
    exact .inr (by simp only [classifyHostRequestRoute,ends,region]; rfl)

theorem chunksTile (fits : startAddr.toNat + len ≤ 2 ^ 32) {offset : Nat} (inside : offset ≤ len)
    {request : Chunk → BusRequest} (requests : ∀ c : Chunk, c.Within startAddr len → c.Requests (request c)) :
    Tiles (startAddr.toNat + offset) (startAddr.toNat + len) ((chunks startAddr len offset).map request) := by
  induction offset using chunks.induct startAddr len with
  | case1 offset present c ih =>
    have within : c.Within startAddr len := chunkWithin fits present
    have asks := requests c within
    have place := within.place
    have ending := within.inside
    have here : c.offset = offset := (Chunk.atPlace ..).2
    have bytes : (request c).burstLen.toNat * (request c).size.byteCount = c.bytes := by
      rw [asks.beats,asks.size]
      rfl
    rw [chunks,if_pos present,List.map_cons]
    refine .cons ?_ asks.moves ?_
    · rw [asks.addr,place,here]
    · rw [bytes,Nat.add_assoc]
      exact ih (by omega)
  | case2 offset outside =>
    rw [chunks,if_neg outside,show offset = len by omega]
    exact .nil _

/- The request moves the byte at an address. -/
def covers (byte : Nat) (r : BusRequest) : Bool :=
  decide (r.addr.toNat ≤ byte ∧ byte < r.addr.toNat + r.burstLen.toNat * r.size.byteCount)

theorem tilesOrdered {first last : Nat} {plan : List BusRequest} (tiles : Tiles first last plan) : first ≤ last := by
  induction tiles with
  | nil => exact Nat.le_refl _
  | cons _ _ _ ih => omega

theorem tilesOnce {first last : Nat} {plan : List BusRequest} (tiles : Tiles first last plan) (byte : Nat) :
    plan.countP (covers byte) = if first ≤ byte ∧ byte < last then 1 else 0 := by
  induction tiles with
  | nil first => rw [if_neg (by omega)]; rfl
  | @cons first last r rest starts _ later ih =>
    have ordered := tilesOrdered later
    rw [List.countP_cons,ih,covers,starts]
    simp only [decide_eq_true_eq]
    split <;> split <;> split <;> omega

section Issued
variable {ρ α : Type} {rt : DeviceRuntime ρ} {fuel : Nat}

def Outcome.Panics : Outcome α → Prop
  | .panicked _ => True
  | _ => False

theorem awaitResponseIssued (addr : Word) (answer : BusEvent → Option α) (timedOut : DeviceError) (fuel : Nat)
    (s : Session ρ) : (awaitResponse rt addr answer timedOut fuel s).2.issued = s.issued ∧
      ¬ (awaitResponse rt addr answer timedOut fuel s).1.Panics := by
  induction fuel generalizing s with
  | zero => exact ⟨rfl,id⟩
  | succ fuel ih =>
    rw [awaitResponse]
    split
    · exact ⟨rfl,id⟩
    · exact ih _
    · split
      · exact ⟨rfl,id⟩
      · split
        · exact ⟨rfl,id⟩
        · exact ih _

theorem exchangeIssued (request : BusRequest) (answer : BusEvent → Option α) (timedOut : DeviceError)
    (s : Session ρ) : (exchange rt request answer timedOut fuel s).2.issued = s.issued ++ [request] ∧
      ¬ (exchange rt request answer timedOut fuel s).1.Panics := by
  rw [exchange]
  split
  · exact ⟨rfl,id⟩
  · exact awaitResponseIssued ..

/- What a run of steps hands to the runtime: its requests from the first on, and all of them when
it returns. -/
structure Issues (plan : List BusRequest) (s : Session ρ) (ran : Outcome α × Session ρ) : Prop where
  issued : ∃ sent, ran.2.issued = s.issued ++ sent ∧ sent <+: plan ∧ ∀ a, ran.1 = .returned a → sent = plan
  sound : ¬ ran.1.Panics

theorem issuesThen {γ : Type} {request : BusRequest} {plan : List BusRequest} {s : Session ρ}
    {first : Outcome α × Session ρ} {next : α → Session ρ → Outcome γ × Session ρ}
    (head : first.2.issued = s.issued ++ [request] ∧ ¬ first.1.Panics)
    (tail : ∀ a t, Issues plan t (next a t)) : Issues (request :: plan) s (andThen first next) := by
  obtain ⟨outcome,t⟩ := first
  obtain ⟨issued,sound⟩ := head
  have stopped : [request] <+: request :: plan := ⟨plan,rfl⟩
  cases outcome with
  | returned a =>
    obtain ⟨⟨sent,later,part,whole⟩,sound'⟩ := tail a t
    refine ⟨⟨request :: sent,?_,?_,?_⟩,sound'⟩
    · change (next a t).2.issued = _
      rw [later,show t.issued = s.issued ++ [request] from issued,List.append_assoc]
      rfl
    · exact List.cons_prefix_cons.mpr ⟨rfl,part⟩
    · intro b returned
      rw [whole b returned]
  | failed e => exact ⟨⟨_,issued,stopped,nofun⟩,id⟩
  | panicked message => exact absurd trivial sound
  | waits => exact ⟨⟨_,issued,stopped,nofun⟩,id⟩

theorem writeChunksIssued (data : List Byte) (cs : List Chunk) (s : Session ρ) :
    Issues (cs.map (Chunk.writeRequest data)) s (writeChunks rt fuel data cs s) := by
  induction cs generalizing s with
  | nil => exact ⟨⟨[],(List.append_nil _).symm,List.nil_prefix,fun _ _ => rfl⟩,id⟩
  | cons c rest ih => exact issuesThen (exchangeIssued ..) fun _ t => ih t

theorem readChunksIssued (cs : List Chunk) (data : List Byte) (s : Session ρ) :
    Issues (cs.map Chunk.readRequest) s (readChunks rt fuel cs data s) := by
  induction cs generalizing data s with
  | nil => exact ⟨⟨[],(List.append_nil _).symm,List.nil_prefix,fun _ _ => rfl⟩,id⟩
  | cons c rest ih =>
    refine issuesThen (exchangeIssued ..) fun answer t => ?_
    cases c.taken answer with
    | error e => exact ⟨⟨[],(List.append_nil _).symm,List.nil_prefix,nofun⟩,id⟩
    | ok part => exact ih (data ++ part) t

end Issued

end RiscvSoc.Runtime
