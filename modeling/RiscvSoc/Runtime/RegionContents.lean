import RiscvSoc.Lib.ByteMemory
import RiscvSoc.Runtime.RegionTiling

/-! The region loops over a runtime that answers as a byte-addressable memory does: what they write
and what they read back. -/
namespace RiscvSoc.Runtime
open LittleEndian (Byte)
open Host
open ByteMemory

def memoryEvent (memory : Memory 32) (r : BusRequest) : BusEvent :=
  if r.we then .hostWriteResponse r.addr r.wdata r.size
  else
    let data := load memory r.addr (r.burstLen.toNat * r.size.byteCount)
    .hostReadResponse r.addr (LittleEndian.word 32 (data.take r.size.byteCount)) r.size data

def memoryAfter (memory : Memory 32) (r : BusRequest) : Memory 32 :=
  if r.we then store memory r.addr r.data else memory

def fromCpu : BusEvent → Bool
  | .read .. | .write .. | .tohostTermination _ => true
  | _ => false

inductive Answers {ρ : Type} (rt : DeviceRuntime ρ) (event : BusEvent) (after : ρ → Prop) : ρ → Prop where
  | quiet {d t} (polled : rt.poll d = (.ok none,t)) (later : Answers rt event after t) : Answers rt event after d
  | other {d t e} (polled : rt.poll d = (.ok (some e),t)) (foreign : fromCpu e = true)
      (later : Answers rt event after t) : Answers rt event after d
  | answer {d t} (polled : rt.poll d = (.ok (some event),t)) (free : rt.hasPendingHostRequest t = false)
      (done : after t) : Answers rt event after d

/- A runtime that takes every request that passes the checks and answers it from the memory. -/
def ServesMemory {ρ : Type} (rt : DeviceRuntime ρ) (memory : ρ → Memory 32) (idle : ρ → Prop) : Prop :=
  ∀ d r, idle d → Sound r → ∃ t, rt.sendHostRequest d r = (.ok (),t) ∧
    Answers rt (memoryEvent (memory d) r) (fun u => idle u ∧ memory u = memoryAfter (memory d) r) t

section Served
variable {ρ α : Type} {rt : DeviceRuntime ρ} {memory : ρ → Memory 32} {idle : ρ → Prop}

theorem foreignEvent {e : BusEvent} (foreign : fromCpu e = true) (addr : Word) (size : AccessSize) :
    writeAnswer addr size e = none ∧ readAnswer addr size e = none ∧ timesOut addr e = false := by
  cases e with
  | read | write | tohostTermination => exact ⟨rfl,rfl,rfl⟩
  | hostReadResponse | hostWriteResponse | hostRequestTimeout => simp [fromCpu] at foreign

theorem awaitAnswered {event : BusEvent} {after : ρ → Prop} {d : ρ} (answers : Answers rt event after d)
    {addr : Word} {answer : BusEvent → Option α} {a : α} (matching : answer event = some a)
    (others : ∀ e, fromCpu e = true → answer e = none ∧ timesOut addr e = false) (timedOut : DeviceError)
    (issued : List BusRequest) (heard : List BusEvent) :
    ∃ n u, after u.device ∧ ∀ fuel ≥ n, awaitResponse rt addr answer timedOut fuel ⟨d,issued,heard⟩ = (.returned a,u) := by
  induction answers generalizing heard with
  | quiet polled later ih =>
    obtain ⟨n,u,done,found⟩ := ih heard
    refine ⟨n + 1,u,done,fun fuel enough => ?_⟩
    obtain ⟨fuel,rfl⟩ : ∃ k, fuel = k + 1 := ⟨fuel - 1,by omega⟩
    rw [awaitResponse]
    simp only [polled]
    exact found fuel (by omega)
  | @other d t e polled foreign later ih =>
    obtain ⟨n,u,done,found⟩ := ih (heard ++ [e])
    refine ⟨n + 1,u,done,fun fuel enough => ?_⟩
    obtain ⟨fuel,rfl⟩ : ∃ k, fuel = k + 1 := ⟨fuel - 1,by omega⟩
    obtain ⟨unmatched,untimed⟩ := others e foreign
    rw [awaitResponse]
    simp only [polled,unmatched,untimed,Option.filter_none,Bool.false_eq_true,if_false]
    exact found fuel (by omega)
  | @answer d t polled free done =>
    refine ⟨1,⟨t,issued,heard⟩,done,fun fuel enough => ?_⟩
    obtain ⟨fuel,rfl⟩ : ∃ k, fuel = k + 1 := ⟨fuel - 1,by omega⟩
    rw [awaitResponse]
    simp only [polled,matching,free]
    rfl

theorem exchangeServed (serves : ServesMemory rt memory idle) {r : BusRequest} (sound : Sound r) {s : Session ρ}
    (ready : idle s.device) {answer : BusEvent → Option α} {a : α}
    (matching : answer (memoryEvent (memory s.device) r) = some a)
    (others : ∀ e, fromCpu e = true → answer e = none ∧ timesOut r.addr e = false) (timedOut : DeviceError) :
    ∃ n u, (idle u.device ∧ memory u.device = memoryAfter (memory s.device) r) ∧
      ∀ fuel ≥ n, exchange rt r answer timedOut fuel s = (.returned a,u) := by
  obtain ⟨t,sent,answers⟩ := serves s.device r ready sound
  obtain ⟨n,u,done,found⟩ := awaitAnswered answers matching others timedOut (s.issued ++ [r]) s.heard
  refine ⟨n,u,done,fun fuel enough => ?_⟩
  rw [exchange]
  simp only [sent]
  exact found fuel enough

/- The memory after the writes of the chunks. -/
def written (data : List Byte) (memory : Memory 32) (cs : List Chunk) : Memory 32 :=
  cs.foldl (fun memory c => store memory c.addr ((data.drop c.offset).take c.bytes)) memory

theorem writeChunksServed (serves : ServesMemory rt memory idle) {startAddr : Word} {data : List Byte}
    (fits : startAddr.toNat + data.length ≤ 2 ^ 32) (side : OneSide startAddr data.length) (cs : List Chunk)
    (within : ∀ c ∈ cs, c.Within startAddr data.length) {s : Session ρ} (ready : idle s.device) :
    ∃ n u, (idle u.device ∧ memory u.device = written data (memory s.device) cs) ∧
      ∀ fuel ≥ n, writeChunks rt fuel data cs s = (.returned (),u) := by
  induction cs generalizing s with
  | nil => exact ⟨0,s,⟨ready,rfl⟩,fun _ _ => rfl⟩
  | cons c rest ih =>
    have here := within c List.mem_cons_self
    have asks := writeRequests here
    have we : (c.writeRequest data).we = true := by
      obtain ⟨addr,size,count,offset⟩ := c
      cases size <;> rfl
    have matching : writeAnswer c.addr c.size (memoryEvent (memory s.device) (c.writeRequest data)) = some () := by
      rw [memoryEvent,if_pos we,asks.addr,asks.size]
      simp only [writeAnswer,and_self,if_true]
    obtain ⟨n,u,⟨ready',memory'⟩,found⟩ := exchangeServed serves (requestSound asks here fits side) ready matching
      (fun e foreign => ⟨(foreignEvent foreign _ _).1,(foreignEvent foreign _ .byte).2.2⟩)
      (timedOutError "writing" c.addr c.size c.beats)
    obtain ⟨k,v,done,found'⟩ := ih (fun d mem => within d (List.mem_cons_of_mem c mem)) ready'
    refine ⟨max n k,v,?_,fun fuel enough => ?_⟩
    · rw [memory',memoryAfter,if_pos we,asks.addr,writeRequestData here] at done
      exact done
    · rw [writeChunks,found fuel (by omega)]
      exact found' fuel (by omega)

theorem takenLoad {c : Chunk} (single : c.size ≠ .word → c.beats = 1) (memory : Memory 32) :
    c.taken (LittleEndian.word 32 ((load memory c.addr c.bytes).take c.size.byteCount),load memory c.addr c.bytes) =
      .ok (load memory c.addr c.bytes) := by
  obtain ⟨addr,size,count,offset⟩ := c
  have short (other : size ≠ .word) (small : size.byteCount ≤ 4) : (LittleEndian.bytes 4 (LittleEndian.word 32
      ((load memory addr (Chunk.bytes ⟨addr,size,count,offset⟩)).take size.byteCount)).toNat).take size.byteCount =
      load memory addr (Chunk.bytes ⟨addr,size,count,offset⟩) := by
    have width : Chunk.bytes ⟨addr,size,count,offset⟩ = size.byteCount := by rw [Chunk.bytes,single other,Nat.one_mul]
    rw [width,List.take_of_length_le (Nat.le_of_eq (loadLength ..)),shortPart (loadLength ..) small]
  cases size with
  | word => rw [Chunk.takenWord,if_neg (by simp [Chunk.bytes,AccessSize.byteCount])]
  | byte => exact congrArg _ (short (by simp) (by decide))
  | halfword => exact congrArg _ (short (by simp) (by decide))

theorem readChunksServed (serves : ServesMemory rt memory idle) {startAddr : Word} {len : Nat}
    (fits : startAddr.toNat + len ≤ 2 ^ 32) (side : OneSide startAddr len) (cs : List Chunk)
    (within : ∀ c ∈ cs, c.Within startAddr len) (data : List Byte) {s : Session ρ} (ready : idle s.device) :
    ∃ n u, (idle u.device ∧ memory u.device = memory s.device) ∧ ∀ fuel ≥ n, readChunks rt fuel cs data s =
      (.returned (data ++ cs.flatMap fun c => load (memory s.device) c.addr c.bytes),u) := by
  induction cs generalizing data s with
  | nil => exact ⟨0,s,⟨ready,rfl⟩,fun _ _ => by rw [List.flatMap_nil,List.append_nil]; rfl⟩
  | cons c rest ih =>
    have here := within c List.mem_cons_self
    have asks := readRequests here
    have we : c.readRequest.we = false := by
      obtain ⟨addr,size,count,offset⟩ := c
      cases size <;> rfl
    have bytes : c.readRequest.burstLen.toNat * c.readRequest.size.byteCount = c.bytes := by
      rw [asks.beats,asks.size]
      rfl
    have matching : readAnswer c.addr c.size (memoryEvent (memory s.device) c.readRequest) =
        some (LittleEndian.word 32 ((load (memory s.device) c.addr c.bytes).take c.size.byteCount),
          load (memory s.device) c.addr c.bytes) := by
      rw [memoryEvent,if_neg (by simp [we]),bytes,asks.addr,asks.size]
      simp only [readAnswer,and_self,if_true]
    have part : c.taken (LittleEndian.word 32 ((load (memory s.device) c.addr c.bytes).take c.size.byteCount),
        load (memory s.device) c.addr c.bytes) = .ok (load (memory s.device) c.addr c.bytes) :=
      takenLoad here.single _
    obtain ⟨n,u,⟨ready',memory'⟩,found⟩ := exchangeServed serves (requestSound asks here fits side) ready matching
      (fun e foreign => ⟨(foreignEvent foreign _ _).2.1,(foreignEvent foreign _ .byte).2.2⟩)
      (timedOutError "reading" c.addr c.size c.beats)
    rw [memoryAfter,if_neg (by simp [we])] at memory'
    obtain ⟨k,v,done,found'⟩ := ih (fun d mem => within d (List.mem_cons_of_mem c mem))
      (data ++ load (memory s.device) c.addr c.bytes) ready'
    rw [memory'] at done found'
    refine ⟨max n k,v,done,fun fuel enough => ?_⟩
    rw [readChunks,found fuel (by omega)]
    simp only [andThen,part]
    rw [found' fuel (by omega),List.flatMap_cons,List.append_assoc]

end Served

theorem writtenChunks {startAddr : Word} {data : List Byte} (fits : startAddr.toNat + data.length ≤ 2 ^ 32)
    (offset : Nat) (memory : Memory 32) : written data memory (chunks startAddr data.length offset) =
      store memory (startAddr + BitVec.ofNat 32 offset) (data.drop offset) := by
  induction offset using chunks.induct startAddr data.length generalizing memory with
  | case1 offset present c ih =>
    have here : c.Within startAddr data.length := chunkWithin fits present
    obtain ⟨addr,place⟩ : c.addr = startAddr + BitVec.ofNat 32 offset ∧ c.offset = offset := Chunk.atPlace ..
    have length := partLength here
    rw [place] at length
    have next : startAddr + BitVec.ofNat 32 (offset + c.bytes) = startAddr + BitVec.ofNat 32 offset +
        BitVec.ofNat 32 ((data.drop offset).take c.bytes).length := by
      rw [length,BitVec.ofNat_add,BitVec.add_assoc]
    have room : ((data.drop offset).take c.bytes).length + (data.drop (offset + c.bytes)).length ≤ 2 ^ 32 := by
      have inside := here.inside
      rw [length,List.length_drop]
      omega
    rw [chunks,if_pos present]
    change written data (store memory c.addr ((data.drop c.offset).take c.bytes)) _ = _
    rw [addr,place]
    refine (ih _).trans ?_
    rw [next,storeAppend _ _ room,← List.drop_drop,List.take_append_drop]
  | case2 offset outside =>
    rw [chunks,if_neg outside,List.drop_eq_nil_of_le (by omega),storeNil]
    rfl

theorem loadedChunks {startAddr : Word} {len : Nat} (fits : startAddr.toNat + len ≤ 2 ^ 32)
    (offset : Nat) (memory : Memory 32) : ((chunks startAddr len offset).flatMap fun c => load memory c.addr c.bytes) =
      load memory (startAddr + BitVec.ofNat 32 offset) (len - offset) := by
  induction offset using chunks.induct startAddr len with
  | case1 offset present c ih =>
    have here : c.Within startAddr len := chunkWithin fits present
    obtain ⟨addr,place⟩ : c.addr = startAddr + BitVec.ofNat 32 offset ∧ c.offset = offset := Chunk.atPlace ..
    have inside := here.inside
    rw [place] at inside
    have whole : load memory (startAddr + BitVec.ofNat 32 offset) (len - offset) =
        load memory (startAddr + BitVec.ofNat 32 offset) c.bytes ++
          load memory (startAddr + BitVec.ofNat 32 (offset + c.bytes)) (len - (offset + c.bytes)) := by
      rw [show len - offset = c.bytes + (len - (offset + c.bytes)) from by omega,loadAppend,BitVec.add_assoc,
        ← BitVec.ofNat_add]
    rw [chunks,if_pos present,List.flatMap_cons,whole,← ih]
    change load memory c.addr c.bytes ++ _ = _
    rw [addr]
  | case2 offset outside =>
    rw [chunks,if_neg outside,show len - offset = 0 from by omega]
    rfl

/- Requests that cut a region into pieces. -/
structure RegionPlan (startAddr : Word) (len : Nat) (plan : List BusRequest) : Prop where
  tiles : Tiles startAddr.toNat (startAddr.toNat + len) plan
  once : ∀ byte, plan.countP (covers byte) = if startAddr.toNat ≤ byte ∧ byte < startAddr.toNat + len then 1 else 0
  sound : ∀ r ∈ plan, Sound r

theorem regionPlan {startAddr : Word} {len : Nat} (fits : startAddr.toNat + len ≤ 2 ^ 32) (side : OneSide startAddr len)
    {request : Chunk → BusRequest} (requests : ∀ c : Chunk, c.Within startAddr len → c.Requests (request c)) :
    RegionPlan startAddr len ((chunks startAddr len 0).map request) := by
  have tiles := chunksTile fits (Nat.zero_le len) requests
  rw [Nat.add_zero] at tiles
  refine ⟨tiles,tilesOnce tiles,fun r mem => ?_⟩
  obtain ⟨c,inside,rfl⟩ := List.mem_map.mp mem
  have within := chunksWithin fits 0 c inside
  exact requestSound (requests c within) within fits side

/- The loops cut a region into pieces, whatever the runtime does; over a memory they end, the read
gives its bytes, and a write is read back and leaves the other bytes. -/
theorem memoryRegions (startAddr size : Word) (data : List Byte) (length : data.length = size.toNat)
    (fits : startAddr.toNat + size.toNat ≤ 2 ^ 32) (side : OneSide startAddr size.toNat) :
    (∃ plan, RegionPlan startAddr size.toNat plan ∧ ∀ (ρ : Type) (rt : DeviceRuntime ρ) (fuel : Nat) (s : Session ρ),
      Issues plan s (writeMemoryRegion rt fuel startAddr data s)) ∧
    (∃ plan, RegionPlan startAddr size.toNat plan ∧ ∀ (ρ : Type) (rt : DeviceRuntime ρ) (fuel : Nat) (s : Session ρ),
      Issues plan s (readMemoryRegion rt fuel startAddr size s)) ∧
    ∀ (ρ : Type) (rt : DeviceRuntime ρ) (memory : ρ → Memory 32) (idle : ρ → Prop), ServesMemory rt memory idle →
      ∀ s : Session ρ, idle s.device →
        (∃ n u, (idle u.device ∧ memory u.device = memory s.device) ∧ ∀ fuel ≥ n,
          readMemoryRegion rt fuel startAddr size s = (.returned (load (memory s.device) startAddr size.toNat),u)) ∧
        ∃ n u v, (∀ fuel ≥ n, writeMemoryRegion rt fuel startAddr data s = (.returned (),u) ∧
            readMemoryRegion rt fuel startAddr size u = (.returned data,v)) ∧
          idle v.device ∧ memory v.device = store (memory s.device) startAddr data ∧
          ∀ a, size.toNat ≤ (a - startAddr).toNat → memory v.device a = memory s.device a := by
  have fits' := fits
  have side' := side
  rw [← length] at fits' side'
  have short : data.length < 2 ^ 32 := by rw [length]; exact size.isLt
  have zero : startAddr + BitVec.ofNat 32 0 = startAddr := by simp
  refine ⟨⟨_,length ▸ regionPlan fits' side' (fun c within => writeRequests within),fun ρ rt fuel s => ?_⟩,
    ⟨_,regionPlan fits side (fun c within => readRequests within),fun ρ rt fuel s => ?_⟩,?_⟩
  · rw [writeMemoryRegionChunks fits' short]
    rw [← length]
    exact writeChunksIssued ..
  · rw [readMemoryRegionChunks fits]
    exact readChunksIssued ..
  intro ρ rt memory idle serves s ready
  have reads {t : Session ρ} (ready : idle t.device) : ∃ n u, (idle u.device ∧ memory u.device = memory t.device) ∧
      ∀ fuel ≥ n, readMemoryRegion rt fuel startAddr size t =
        (.returned (load (memory t.device) startAddr size.toNat),u) := by
    obtain ⟨n,u,done,found⟩ := readChunksServed serves fits side _ (chunksWithin fits 0) [] ready
    rw [loadedChunks fits 0,zero,List.nil_append] at found
    exact ⟨n,u,done,fun fuel enough => (readMemoryRegionChunks fits t).trans (found fuel enough)⟩
  refine ⟨reads ready,?_⟩
  obtain ⟨n,u,⟨ready',memory'⟩,found⟩ := writeChunksServed serves fits' side' _ (chunksWithin fits' 0) ready
  rw [writtenChunks fits' 0,zero,List.drop_zero] at memory'
  obtain ⟨k,v,⟨done,memory''⟩,found'⟩ := reads ready'
  rw [memory',← length,loadStore _ _ (by omega)] at found'
  refine ⟨max n k,u,v,fun fuel enough => ⟨?_,found' fuel (by omega)⟩,done,memory''.trans memory',?_⟩
  · rw [writeMemoryRegionChunks fits' short]
    exact found fuel (by omega)
  · intro a outside
    rw [memory'',memory',storeOther _ _ _ (by rw [length]; exact outside)]

/- A memory that answers at the next poll. -/
def ram : DeviceRuntime (Memory 32 × Option BusEvent) where
  sendHostRequest d r := match d.2 with
    | some _ => (.error (.handlerError .requestPending),d)
    | none => (.ok (),memoryAfter d.1 r,some (memoryEvent d.1 r))
  poll d := (.ok d.2,d.1,none)
  hasPendingHostRequest d := d.2.isSome

theorem ramServes : ServesMemory ram Prod.fst (fun d => d.2 = none) := by
  intro d r ready _
  refine ⟨(memoryAfter d.1 r,some (memoryEvent d.1 r)),?_,.answer rfl rfl ⟨rfl,rfl⟩⟩
  simp only [ram,ready]

/- Five bytes up to the boundary: a byte and a word. -/
theorem ramRegion : ∃ n u v, ∀ fuel ≥ n,
    writeMemoryRegion ram fuel 0x7FFFFFFB [1,2,3,4,5] ⟨(fun _ => 0,none),[],[]⟩ = (.returned (),u) ∧
    readMemoryRegion ram fuel 0x7FFFFFFB 5 u = (.returned [1,2,3,4,5],v) := by
  obtain ⟨n,u,v,both,_⟩ := ((memoryRegions 0x7FFFFFFB 5 [1,2,3,4,5] rfl (by decide) (by decide)).2.2 _ ram Prod.fst _
    ramServes ⟨(fun _ => 0,none),[],[]⟩ rfl).2
  exact ⟨n,u,v,both⟩

end RiscvSoc.Runtime
