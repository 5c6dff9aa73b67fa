import RiscvSoc.Runtime.Device
import RiscvSoc.Runtime.SimCore

/-! Host requests to the system bus: the simulator's direct path and the FPGA runtime's, with every
operation of theirs that can panic, and the accesses that both make. -/
namespace RiscvSoc.Runtime
open LittleEndian (Byte)
open Host

inductive Panic where
  | overflow
  | expect (message : String)
  | outOfRange
  deriving DecidableEq, Repr

abbrev Checked := Except Panic

def mulU32 (a b : Word) : Checked Word := if a.toNat * b.toNat < 2 ^ 32 then .ok (a * b) else .error .overflow

/- `usize` has 64 bits. -/
def usize (n : Nat) : Checked Nat := if n < 2 ^ 64 then .ok n else .error .overflow

def expect {α : Type} (message : String) : Option α → Checked α
  | some a => .ok a
  | none => .error (.expect message)

def tryFromUsize (n : Nat) : Option Word := if n < 2 ^ 32 then some (BitVec.ofNat 32 n) else none

def slice (data : List Byte) (first last : Nat) : Checked (List Byte) :=
  if first ≤ last ∧ last ≤ data.length then .ok ((data.drop first).take (last - first)) else .error .outOfRange

def copyFromSlice (n : Nat) (source : List Byte) : Checked (List Byte) :=
  if n ≤ 4 ∧ source.length = n then .ok (source ++ List.replicate (4 - n) 0) else .error .outOfRange

section SystemBus
variable {β : Type} (devices : Bus β)

def hostBeatAddr (request : BusRequest) (fixed : Bool) (beatIdx : Nat) : Checked Word := do
  if fixed then pure request.addr
  else
    let stride ← expect "beat bytes fit" (tryFromUsize request.size.byteCount)
    let offset ← mulU32 (BitVec.ofNat 32 beatIdx) stride
    expect "request range pre-validated" (checkedAdd request.addr offset)

def hostWriteBeat (request : BusRequest) (bus : β) (beatIdx : Nat) : Checked β := do
  let beatBytes := request.size.byteCount
  let addr ← hostBeatAddr request request.dstFixed beatIdx
  let byteOffset ← usize (beatIdx * beatBytes)
  let last ← usize (byteOffset + beatBytes)
  let beatBuf ←
    if request.data.length ≥ last then slice request.data byteOffset last >>= copyFromSlice beatBytes
    else if beatIdx = 0 then pure (LittleEndian.bytes 4 request.wdata.toNat)
    else pure (List.replicate 4 0)
  pure (devices.write bus addr request.size (LittleEndian.word 32 beatBuf))

def hostReadBeat (request : BusRequest) (state : List Byte × β) (beatIdx : Nat) : Checked (List Byte × β) := do
  let beatBytes := request.size.byteCount
  let addr ← hostBeatAddr request request.srcFixed beatIdx
  let (rdata,bus) := devices.read state.2 addr request.size
  let part ← slice (LittleEndian.bytes 4 rdata.toNat) 0 beatBytes
  pure (state.1 ++ part,bus)

def hostWriteBeats (request : BusRequest) (bus : β) : Checked β :=
  (List.range (beats request)).foldlM (hostWriteBeat devices request) bus

/- The loop and the capacity that `Vec::with_capacity` is given before it. -/
def hostReadBeats (request : BusRequest) (bus : β) : Checked (List Byte × β) := do
  let _ ← usize (beats request * request.size.byteCount)
  (List.range (beats request)).foldlM (hostReadBeat devices request) ([],bus)

/- The `NonRtl` arm of the simulator's `send_bus_request`: the response it stores. -/
def directResponse (request : BusRequest) (bus : β) : Checked (BusResponse × β) := do
  if request.we then
    let bus ← hostWriteBeats devices request bus
    pure ({writeAck request.size with
      addr := request.addr
      burstLen := request.burstLen
      srcFixed := request.srcFixed
      dstFixed := request.dstFixed},bus)
  else
    let (data,bus) ← hostReadBeats devices request bus
    pure (burstReadData request.addr request.size request.burstLen request.srcFixed request.dstFixed data,bus)

def processSystemBusRequest (request : BusRequest) (bus : β) : Checked (BusEvent × β) := do
  if request.we then
    let bus ← hostWriteBeats devices request bus
    pure (.hostWriteResponse request.addr request.wdata request.size,bus)
  else
    let (data,bus) ← hostReadBeats devices request bus
    let part ← slice data 0 request.size.byteCount
    let first ← copyFromSlice request.size.byteCount part
    pure (.hostReadResponse request.addr (LittleEndian.word 32 first) request.size data,bus)

/- The request as `send_host_request` leaves it in the pending slot. -/
def pendingFor (request : BusRequest) (number sentAt timeout : Nat) : Pending :=
  ⟨number,request.addr,request.wdata,sentAt,timeout⟩

/- What either background thread reports for a request that it serves from the bus. -/
def simulatorServes (p : Pending) (request : BusRequest) (bus : β) : Option (Checked (RuntimeEvent × β)) :=
  if (requestEndAddr request).isNone then none
  else match classifyRequestRegion request with
    | .nonRtl => some (do
        let (response,bus) ← directResponse devices request bus
        pure (responseEvent p response,bus))
    | _ => none

def fpgaServes (request : BusRequest) (bus : β) : Option (Checked (RuntimeEvent × β)) :=
  match classifyHostRequestRoute request with
  | .systemBus => some (do
      let (event,bus) ← processSystemBusRequest devices request bus
      pure (.bus event,bus))
  | _ => none

inductive Access where
  | read (addr : Word) (size : AccessSize)
  | write (addr : Word) (size : AccessSize) (wdata : Word)
  deriving DecidableEq, Repr

def perform : List Access → β → List Word × β
  | [], bus => ([],bus)
  | .read addr size :: rest, bus =>
    let (rdata,bus) := devices.read bus addr size
    let (words,bus) := perform rest bus
    (rdata :: words,bus)
  | .write addr size wdata :: rest, bus => perform rest (devices.write bus addr size wdata)

def hostAccess (request : BusRequest) (beatIdx : Nat) : Access :=
  if request.we then
    .write (beatAddr request.addr request.dstFixed request.size beatIdx) request.size (beatWdata request beatIdx)
  else .read (beatAddr request.addr request.srcFixed request.size beatIdx) request.size

def hostAccesses (request : BusRequest) : List Access := (List.range (beats request)).map (hostAccess request)

def hostEvent (request : BusRequest) (words : List Word) : BusEvent :=
  if request.we then .hostWriteResponse request.addr request.wdata request.size
  else
    let data := words.flatMap fun w => (LittleEndian.bytes 4 w.toNat).take request.size.byteCount
    .hostReadResponse request.addr (LittleEndian.word 32 (data.take request.size.byteCount)) request.size data

end SystemBus

def addressFixed (request : BusRequest) : Bool := if request.we then request.dstFixed else request.srcFixed

theorem byteCountWord (size : AccessSize) : (BitVec.ofNat 32 size.byteCount).toNat = size.byteCount := by
  cases size <;> rfl

theorem rangeValidated {request : BusRequest} (defined : (requestEndAddr request).isSome = true)
    (moves : addressFixed request = false) {beatIdx : Nat} (inside : beatIdx < beats request) :
    request.addr.toNat + beatIdx * request.size.byteCount + request.size.byteCount ≤ 2 ^ 32 := by
  have span : ((request.we && request.dstFixed) || (!request.we && request.srcFixed)) = false := by
    rw [addressFixed] at moves
    cases we : request.we <;> simp_all
  obtain ⟨last,ends⟩ := Option.isSome_iff_exists.mp defined
  have stride := byteCountWord request.size
  have positive := request.size.byteCountPositive
  simp only [requestEndAddr,span,Bool.false_eq_true,if_false,checkedMul,checkedSub,checkedAdd,bind,
    Option.bind_eq_some_iff,Option.ite_none_right_eq_some,Option.some.injEq,stride] at ends
  obtain ⟨total,⟨fits,rfl⟩,offset,⟨present,rfl⟩,room,_⟩ := ends
  have product : (request.burstLen * BitVec.ofNat 32 request.size.byteCount).toNat =
      request.burstLen.toNat * request.size.byteCount := by
    rw [BitVec.toNat_mul,stride,Nat.mod_eq_of_lt fits]
  rw [product] at present
  have offset : (request.burstLen * BitVec.ofNat 32 request.size.byteCount - 1).toNat =
      request.burstLen.toNat * request.size.byteCount - 1 := by
    rw [BitVec.toNat_sub_of_le (BitVec.le_def.mpr (by rw [product]; exact present)),product]
    rfl
  rw [offset] at room
  have long : 0 < request.burstLen.toNat := by
    rcases Nat.eq_zero_or_pos request.burstLen.toNat with zero | long
    · simp [zero] at present
    · exact long
  have before : beatIdx + 1 ≤ request.burstLen.toNat := by
    rw [beats,Nat.max_eq_left long] at inside
    exact inside
  have within := Nat.mul_le_mul_right request.size.byteCount before
  rw [Nat.succ_mul] at within
  omega

theorem beatsBound (request : BusRequest) : beats request < 2 ^ 32 := by
  have bound := request.burstLen.isLt
  rw [beats]
  omega

theorem hostBeatAddrOk {request : BusRequest} (defined : (requestEndAddr request).isSome = true) {beatIdx : Nat}
    (inside : beatIdx < beats request) :
    hostBeatAddr request (addressFixed request) beatIdx =
      .ok (beatAddr request.addr (addressFixed request) request.size beatIdx) := by
  rw [hostBeatAddr,beatAddr]
  rcases Bool.eq_false_or_eq_true (addressFixed request) with fixed | moves
  · rw [if_pos fixed,if_pos fixed]
    rfl
  · rw [if_neg (by simp [moves]),if_neg (by simp [moves])]
    have range := rangeValidated defined moves inside
    have stride := byteCountWord request.size
    have index : (BitVec.ofNat 32 beatIdx).toNat = beatIdx := by
      have bound := beatsBound request
      rw [BitVec.toNat_ofNat,Nat.mod_eq_of_lt (by omega)]
    have positive := request.size.byteCountPositive
    have small : tryFromUsize request.size.byteCount = some (BitVec.ofNat 32 request.size.byteCount) := by
      cases request.size <;> rfl
    have product : mulU32 (BitVec.ofNat 32 beatIdx) (BitVec.ofNat 32 request.size.byteCount) =
        .ok (BitVec.ofNat 32 (beatIdx * request.size.byteCount)) := by
      rw [mulU32,index,stride,if_pos (by omega),BitVec.ofNat_mul]
    have sum : checkedAdd request.addr (BitVec.ofNat 32 (beatIdx * request.size.byteCount)) =
        some (request.addr + BitVec.ofNat 32 (beatIdx * request.size.byteCount)) := by
      rw [checkedAdd,BitVec.toNat_ofNat,Nat.mod_eq_of_lt (by omega),if_pos (by omega)]
    simp only [small,expect,bind,Except.bind,product,sum]

theorem beatAddrValue {request : BusRequest} (defined : (requestEndAddr request).isSome = true) {beatIdx : Nat}
    (inside : beatIdx < beats request) :
    (beatAddr request.addr (addressFixed request) request.size beatIdx).toNat = request.addr.toNat +
      if addressFixed request then 0 else beatIdx * request.size.byteCount := by
  rw [beatAddr]
  rcases Bool.eq_false_or_eq_true (addressFixed request) with fixed | moves
  · rw [if_pos fixed,if_pos fixed]
    rfl
  · have range := rangeValidated defined moves inside
    have positive := request.size.byteCountPositive
    rw [if_neg (by simp [moves]),if_neg (by simp [moves]),BitVec.toNat_add,BitVec.toNat_ofNat,
      Nat.mod_eq_of_lt (show beatIdx * request.size.byteCount < 2 ^ 32 by omega),Nat.mod_eq_of_lt (by omega)]

theorem wordPadded (bs : List Byte) (n : Nat) :
    LittleEndian.word 32 (bs ++ List.replicate n 0) = LittleEndian.word 32 bs := by
  have zero : LittleEndian.value (List.replicate n 0) = 0 :=
    (LittleEndian.valueZero _).mpr fun b mem => (List.mem_replicate.mp mem).2
  rw [LittleEndian.word,LittleEndian.valueAppend,zero,Nat.mul_zero,Nat.add_zero]
  rfl

section Loops
variable {β : Type} {devices : Bus β} {request : BusRequest} {bus : β}

theorem usizeOk {n : Nat} (small : n < 2 ^ 64) : usize n = .ok n := if_pos small

theorem beatOffset {beatIdx : Nat} (inside : beatIdx < beats request) :
    beatIdx * request.size.byteCount + request.size.byteCount < 2 ^ 64 := by
  have bound := beatsBound request
  cases request.size <;> simp only [AccessSize.byteCount] <;> omega

theorem hostWriteBeatOk (defined : (requestEndAddr request).isSome = true) (write : request.we = true)
    {beatIdx : Nat} (inside : beatIdx < beats request) (bus : β) :
    hostWriteBeat devices request bus beatIdx = .ok (devices.write bus
      (beatAddr request.addr request.dstFixed request.size beatIdx) request.size (beatWdata request beatIdx)) := by
  have addr := hostBeatAddrOk defined inside
  have offset := beatOffset inside
  have side : addressFixed request = request.dstFixed := by rw [addressFixed,if_pos write]
  rw [side] at addr
  have small : request.size.byteCount ≤ 4 := by cases request.size <;> decide
  simp only [hostWriteBeat,addr,bind,Except.bind,usizeOk (show beatIdx * request.size.byteCount < 2 ^ 64 by omega),
    usizeOk offset,beatWdata]
  by_cases long : request.data.length ≥ beatIdx * request.size.byteCount + request.size.byteCount
  · have part : slice request.data (beatIdx * request.size.byteCount)
        (beatIdx * request.size.byteCount + request.size.byteCount) =
        .ok ((request.data.drop (beatIdx * request.size.byteCount)).take request.size.byteCount) := by
      rw [slice,if_pos ⟨by omega,long⟩,Nat.add_sub_cancel_left]
    have width : ((request.data.drop (beatIdx * request.size.byteCount)).take request.size.byteCount).length =
        request.size.byteCount := by
      rw [List.length_take,List.length_drop]
      omega
    simp only [if_pos long,part,copyFromSlice,width,small,and_self,if_true,pure,Except.pure,wordPadded]
    rfl
  · rw [if_neg long,if_neg long]
    by_cases first : beatIdx = 0
    · simp only [if_pos first,pure,Except.pure]
      rw [LittleEndian.wordBytes (m := 4)]
    · simp only [if_neg first,pure,Except.pure]
      rfl

theorem hostReadBeatOk (defined : (requestEndAddr request).isSome = true) (read : request.we = false)
    {beatIdx : Nat} (inside : beatIdx < beats request) (state : List Byte × β) :
    hostReadBeat devices request state beatIdx =
      let word := devices.read state.2 (beatAddr request.addr request.srcFixed request.size beatIdx) request.size
      .ok (state.1 ++ (LittleEndian.bytes 4 word.1.toNat).take request.size.byteCount,word.2) := by
  have addr := hostBeatAddrOk defined inside
  have side : addressFixed request = request.srcFixed := by rw [addressFixed,if_neg (by simp [read])]
  rw [side] at addr
  have small : request.size.byteCount ≤ 4 := by cases request.size <;> decide
  simp only [hostReadBeat,addr,bind,Except.bind,slice,Nat.zero_le,LittleEndian.bytesLength,small,and_self,
    if_true,List.drop_zero,Nat.sub_zero,pure,Except.pure]

theorem foldlMOk {ι σ : Type} {f : σ → ι → Checked σ} {g : σ → ι → σ} {xs : List ι}
    (same : ∀ x ∈ xs, ∀ s, f s x = .ok (g s x)) (s : σ) : xs.foldlM f s = .ok (xs.foldl g s) := by
  induction xs generalizing s with
  | nil => rfl
  | cons x rest ih =>
    rw [List.foldlM_cons,same x List.mem_cons_self s]
    exact ih (fun y mem => same y (List.mem_cons_of_mem x mem)) (g s x)

theorem hostWriteBeatsOk (defined : (requestEndAddr request).isSome = true) (write : request.we = true) :
    hostWriteBeats devices request bus = .ok (writeBeats devices request bus) :=
  foldlMOk (fun _ mem s => hostWriteBeatOk defined write (List.mem_range.mp mem) s) bus

theorem hostReadBeatsOk (defined : (requestEndAddr request).isSome = true) (read : request.we = false) :
    hostReadBeats devices request bus = .ok (readBeats devices request bus) := by
  have capacity : beats request * request.size.byteCount < 2 ^ 64 := by
    have bound := beatsBound request
    cases request.size <;> simp only [AccessSize.byteCount] <;> omega
  simp only [hostReadBeats,usizeOk capacity,bind,Except.bind]
  exact foldlMOk (fun _ mem s => hostReadBeatOk defined read (List.mem_range.mp mem) s) ([],bus)

theorem performWrites (write : request.we = true) (xs : List Nat) (bus : β) :
    perform devices (xs.map (hostAccess request)) bus = ([],xs.foldl (fun bus beatIdx =>
      devices.write bus (beatAddr request.addr request.dstFixed request.size beatIdx) request.size
        (beatWdata request beatIdx)) bus) := by
  induction xs generalizing bus with
  | nil => rfl
  | cons x rest ih =>
    rw [List.map_cons,hostAccess,if_pos write,perform,ih]
    rfl

theorem performReads (read : request.we = false) (xs : List Nat) (data : List Byte) (bus : β) :
    xs.foldl (fun (state : List Byte × β) beatIdx =>
      let word := devices.read state.2 (beatAddr request.addr request.srcFixed request.size beatIdx) request.size
      (state.1 ++ (LittleEndian.bytes 4 word.1.toNat).take request.size.byteCount,word.2)) (data,bus) =
    let ran := perform devices (xs.map (hostAccess request)) bus
    (data ++ ran.1.flatMap fun w => (LittleEndian.bytes 4 w.toNat).take request.size.byteCount,ran.2) := by
  induction xs generalizing data bus with
  | nil => simp [perform]
  | cons x rest ih =>
    rw [List.foldl_cons,ih,List.map_cons,hostAccess,if_neg (by simp [read])]
    simp only [perform,List.flatMap_cons,List.append_assoc]

theorem writeBeatsPerform (write : request.we = true) :
    writeBeats devices request bus = (perform devices (hostAccesses request) bus).2 := by
  rw [hostAccesses,performWrites write]
  rfl

theorem readBeatsPerform (read : request.we = false) : readBeats devices request bus =
    ((perform devices (hostAccesses request) bus).1.flatMap fun w =>
      (LittleEndian.bytes 4 w.toNat).take request.size.byteCount,(perform devices (hostAccesses request) bus).2) := by
  exact performReads read (List.range (beats request)) [] bus

theorem readBeatsLong (read : request.we = false) :
    request.size.byteCount ≤ (readBeats devices request bus).1.length := by
  have several : 0 < beats request := by rw [beats]; omega
  obtain ⟨n,count⟩ : ∃ n, beats request = n + 1 := ⟨beats request - 1,by omega⟩
  have small : request.size.byteCount ≤ 4 := by cases request.size <;> decide
  rw [readBeatsPerform read,hostAccesses,count,List.range_succ_eq_map,List.map_cons,hostAccess,
    if_neg (by simp [read])]
  simp only [perform,List.flatMap_cons,List.length_append,List.length_take,LittleEndian.bytesLength]
  omega

theorem directResponseOk (defined : (requestEndAddr request).isSome = true) (number sentAt timeout : Nat) :
    (do
      let (response,bus) ← directResponse devices request bus
      pure (responseEvent (pendingFor request number sentAt timeout) response,bus)) =
    (.ok (.bus (hostEvent request (perform devices (hostAccesses request) bus).1),
      (perform devices (hostAccesses request) bus).2) : Checked (RuntimeEvent × β)) := by
  cases we : request.we with
  | true =>
    simp only [directResponse,we,if_true,hostWriteBeatsOk defined we,bind,Except.bind,pure,Except.pure,
      writeBeatsPerform we,hostEvent]
    rfl
  | false =>
    have long : request.size.byteCount ≤ (readBeats devices request bus).1.length := readBeatsLong we
    simp only [directResponse,we,Bool.false_eq_true,if_false,hostReadBeatsOk defined we,bind,Except.bind,pure,
      Except.pure,burstReadData,if_pos long]
    simp only [readBeatsPerform we,hostEvent,we,Bool.false_eq_true,if_false]
    rfl

theorem processSystemBusRequestOk (defined : (requestEndAddr request).isSome = true) :
    processSystemBusRequest devices request bus = .ok (hostEvent request (perform devices (hostAccesses request) bus).1,
      (perform devices (hostAccesses request) bus).2) := by
  cases we : request.we with
  | true =>
    simp only [processSystemBusRequest,we,if_true,hostWriteBeatsOk defined we,bind,Except.bind,pure,Except.pure,
      writeBeatsPerform we,hostEvent]
  | false =>
    have long : request.size.byteCount ≤ (readBeats devices request bus).1.length := readBeatsLong we
    have small : request.size.byteCount ≤ 4 := by cases request.size <;> decide
    have part : slice (readBeats devices request bus).1 0 request.size.byteCount =
        .ok ((readBeats devices request bus).1.take request.size.byteCount) := by
      rw [slice,if_pos ⟨Nat.zero_le _,long⟩]
      rfl
    have width : ((readBeats devices request bus).1.take request.size.byteCount).length = request.size.byteCount := by
      rw [List.length_take]
      omega
    have first : copyFromSlice request.size.byteCount ((readBeats devices request bus).1.take request.size.byteCount) =
        .ok ((readBeats devices request bus).1.take request.size.byteCount ++
          List.replicate (4 - request.size.byteCount) 0) := by
      rw [copyFromSlice,if_pos ⟨small,width⟩]
    simp only [processSystemBusRequest,we,Bool.false_eq_true,if_false,hostReadBeatsOk defined we,bind,Except.bind,
      part,first,pure,Except.pure,wordPadded]
    simp only [readBeatsPerform we,hostEvent,we,Bool.false_eq_true,if_false]

def onSimulator (devices : Bus β) : Sim.Bus β where
  read := devices.read
  write b addr wdata size := devices.write b addr size wdata
  clockCycleAllDevices := devices.clockCycleAllDevices

/- The simulator's direct request with its checks, and as `SimCore` has it. -/
theorem directResponseModel (defined : (requestEndAddr request).isSome = true) :
    directResponse devices request bus = .ok (Sim.direct (onSimulator devices) bus request) := by
  cases we : request.we with
  | true =>
    have loop : Sim.directWrite (onSimulator devices) bus request (max request.burstLen.toNat 1) =
        writeBeats devices request bus := by
      simp only [Sim.directWrite,Sim.beatAddr,we,if_true]
      rfl
    simp only [directResponse,we,if_true,hostWriteBeatsOk defined we,bind,Except.bind,pure,Except.pure,Sim.direct,loop]
    rfl
  | false =>
    have loop : Sim.directRead (onSimulator devices) bus request (max request.burstLen.toNat 1) =
        readBeats devices request bus := by
      have small : request.size.byteCount ≤ 4 := by cases request.size <;> decide
      simp only [Sim.directRead,Sim.beatAddr,we,Bool.false_eq_true,if_false,readBeats,LittleEndian.bytesTake small]
      rfl
    have first (data : List Byte) : Handler.extractFirstWord (data.take request.size.byteCount) =
        LittleEndian.word 32 (data.take request.size.byteCount) := by
      have small : request.size.byteCount ≤ 4 := by cases request.size <;> decide
      rw [Handler.extractFirstWord,List.take_take,Nat.min_eq_right small]
      rfl
    have long : request.size.byteCount ≤ (readBeats devices request bus).1.length := readBeatsLong we
    simp only [directResponse,we,Bool.false_eq_true,if_false,hostReadBeatsOk defined we,bind,Except.bind,pure,
      Except.pure,Sim.direct,loop,first,burstReadData,if_pos long]

end Loops

/- Both runtimes serve a request to the system bus by the same accesses and report the same event,
without a panic; no address wraps. -/
theorem hostRequestsAlike {β : Type} (devices : Bus β) (bus : β) (request : BusRequest) (number sentAt timeout : Nat)
    (defined : (requestEndAddr request).isSome = true) (direct : classifyRequestRegion request = .nonRtl) :
    let ran := perform devices (hostAccesses request) bus
    simulatorServes devices (pendingFor request number sentAt timeout) request bus =
      some (.ok (.bus (hostEvent request ran.1),ran.2)) ∧
    fpgaServes devices request bus = some (.ok (.bus (hostEvent request ran.1),ran.2)) ∧
    ∀ beatIdx < beats request, (beatAddr request.addr (addressFixed request) request.size beatIdx).toNat =
      request.addr.toNat + if addressFixed request then 0 else beatIdx * request.size.byteCount := by
  have ends : (requestEndAddr request).isNone = false := by simpa using defined
  refine ⟨?_,?_,fun _ inside => beatAddrValue defined inside⟩
  · simp only [simulatorServes,ends,Bool.false_eq_true,if_false,direct]
    exact congrArg some (directResponseOk defined number sentAt timeout)
  · simp only [fpgaServes,classifyHostRequestRoute,ends,Bool.false_eq_true,if_false,direct,
      processSystemBusRequestOk defined]
    rfl

/- A bus that records the writes and answers reads with their number. -/
def recorder : Bus (List (Word × Word)) where
  read b addr _ := (BitVec.ofNat 32 b.length,b ++ [(addr,0)])
  write b addr _ wdata := b ++ [(addr,wdata)]
  clockCycleAllDevices b := b
  resetAllDevices b := b
  acknowledgeTermination b := (none,b)

/- A halfword write at the end of the address space with a short payload. -/
def shortWrite : BusRequest := ⟨0xFFFFFFFA,0x77,true,.halfword,3,true,false,[0x34,0x12,0x99]⟩

theorem shortWriteAlike : simulatorServes recorder (pendingFor shortWrite 0 0 1000) shortWrite [] =
    some (.ok (.bus (.hostWriteResponse 0xFFFFFFFA 0x77 .halfword),
      [(0xFFFFFFFA,0x1234),(0xFFFFFFFC,0),(0xFFFFFFFE,0)])) := by
  have ran : perform recorder (hostAccesses shortWrite) [] =
      ([],[(0xFFFFFFFA,0x1234),(0xFFFFFFFC,0),(0xFFFFFFFE,0)]) := by decide +kernel
  have alike := (hostRequestsAlike recorder [] shortWrite 0 0 1000 (by decide) (by decide)).1
  rw [ran] at alike
  exact alike

end RiscvSoc.Runtime
