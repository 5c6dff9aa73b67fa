import RiscvSoc.Runtime.Device

/-! `write_memory_region` and `read_memory_region` of a `DeviceRuntime`: the loops that cut a region
into requests, and what they send to a runtime of any behaviour. -/
namespace RiscvSoc.Runtime
open LittleEndian (Byte)
open Host

/- The methods of a `DeviceRuntime` that the loops use. -/
structure DeviceRuntime (ρ : Type) where
  sendHostRequest : ρ → BusRequest → Except DeviceError Unit × ρ
  poll : ρ → Except DeviceError (Option BusEvent) × ρ
  hasPendingHostRequest : ρ → Bool

/- A runtime with the requests it has been handed and the events the callback has been given. -/
structure Session (ρ : Type) where
  device : ρ
  issued : List BusRequest
  heard : List BusEvent
  deriving DecidableEq, Repr

/- `waits` is a call that is still polling. -/
inductive Outcome (α : Type) where
  | returned (a : α)
  | failed (e : DeviceError)
  | panicked (message : String)
  | waits
  deriving DecidableEq, Repr

def andThen {α γ σ : Type} (result : Outcome α × σ) (next : α → σ → Outcome γ × σ) : Outcome γ × σ :=
  match result with
  | (.returned a,s) => next a s
  | (.failed e,s) => (.failed e,s)
  | (.panicked message,s) => (.panicked message,s)
  | (.waits,s) => (.waits,s)

def hex8 (addr : Word) : String :=
  let digits := Nat.toDigits 16 addr.toNat
  "0x" ++ String.ofList (List.replicate (8 - digits.length) '0' ++ digits)

def accessSizeName : AccessSize → String
  | .byte => "byte"
  | .halfword => "halfword"
  | .word => "word"

def timedOutError (verb : String) (addr : Word) (size : AccessSize) (wordCount : Nat) : DeviceError :=
  .ioError .timedOut (if size = .word then
    "Timed out " ++ verb ++ " word burst (" ++ toString wordCount ++ " beats) at address " ++ hex8 addr
  else "Timed out " ++ verb ++ " " ++ accessSizeName size ++ " at address " ++ hex8 addr)

def overflowError (verb : String) (addr : Word) (len : Nat) : DeviceError :=
  .ioError .invalidInput ("Requested " ++ verb ++ " of " ++ toString len ++ " bytes at address " ++ hex8 addr ++
    " overflows 32-bit address space")

def exceedsError (addr : Word) (len : Nat) : DeviceError :=
  .ioError .invalidInput ("Requested write of " ++ toString len ++ " bytes at address " ++ hex8 addr ++
    " exceeds 32-bit addressable range")

def mismatchError (addr : Word) (wordCount expected got : Nat) : DeviceError :=
  .ioError .invalidData ("Read burst payload size mismatch at " ++ hex8 addr ++ " (" ++ toString wordCount ++
    " beats): expected " ++ toString expected ++ " bytes, got " ++ toString got ++ " bytes")

def writeAnswer (addr : Word) (size : AccessSize) : BusEvent → Option Unit
  | .hostWriteResponse respAddr _ respSize => if respAddr = addr ∧ respSize = size then some () else none
  | _ => none

def readAnswer (addr : Word) (size : AccessSize) : BusEvent → Option (Word × List Byte)
  | .hostReadResponse respAddr data respSize burstData =>
    if respAddr = addr ∧ respSize = size then some (data,burstData) else none
  | _ => none

def timesOut (addr : Word) : BusEvent → Bool
  | .hostRequestTimeout respAddr _ => respAddr == addr
  | _ => false

section Loops
variable {ρ α : Type} (rt : DeviceRuntime ρ)

/- The polling loop, for at most `fuel` polls. -/
def awaitResponse (addr : Word) (answer : BusEvent → Option α) (timedOut : DeviceError) :
    Nat → Session ρ → Outcome α × Session ρ
  | 0, s => (.waits,s)
  | fuel+1, s =>
    match rt.poll s.device with
    | (.error e,d) => (.failed e,{s with device := d})
    | (.ok none,d) => awaitResponse addr answer timedOut fuel {s with device := d}
    | (.ok (some event),d) =>
      match (answer event).filter fun _ => !rt.hasPendingHostRequest d with
      | some a => (.returned a,{s with device := d})
      | none =>
        if timesOut addr event then (.failed timedOut,{s with device := d})
        else awaitResponse addr answer timedOut fuel {s with device := d, heard := s.heard ++ [event]}

/- A request and the wait for its answer. -/
def exchange (request : BusRequest) (answer : BusEvent → Option α) (timedOut : DeviceError) (fuel : Nat)
    (s : Session ρ) : Outcome α × Session ρ :=
  match rt.sendHostRequest s.device request with
  | (.error e,d) => (.failed e,{s with device := d, issued := s.issued ++ [request]})
  | (.ok _,d) => awaitResponse rt request.addr answer timedOut fuel {s with device := d, issued := s.issued ++ [request]}

variable (fuel : Nat) (startAddr : Word)

def writeLoop (data : List Byte) (offset : Nat) (s : Session ρ) : Outcome Unit × Session ρ :=
  if _ : offset < data.length then
    if offset ≥ 2 ^ 32 then (.panicked "offset must fit in u32 after upfront length validation",s)
    else match checkedAdd startAddr (BitVec.ofNat 32 offset) with
      | none => (.panicked "address overflow prevented by upfront range validation",s)
      | some addr =>
        let remaining := data.length - offset
        if _ : remaining ≥ 4 ∧ addr &&& 0x3 = 0 then
          let wordCount := min (remaining / 4) maxBurstBeats
          let chunkLen := wordCount * 4
          let burstData := (data.drop offset).take chunkLen
          andThen (exchange rt (.burstWrite addr .word (BitVec.ofNat 32 wordCount) false false burstData)
            (writeAnswer addr .word) (timedOutError "writing" addr .word wordCount) fuel s) fun _ s =>
              writeLoop data (offset + chunkLen) s
        else if remaining ≥ 2 ∧ addr &&& 0x1 = 0 then
          let wdata := LittleEndian.word 32 ((data.drop offset).take 2)
          andThen (exchange rt (.write addr wdata .halfword) (writeAnswer addr .halfword)
            (timedOutError "writing" addr .halfword 1) fuel s) fun _ s => writeLoop data (offset + 2) s
        else
          let wdata := LittleEndian.word 32 ((data.drop offset).take 1)
          andThen (exchange rt (.write addr wdata .byte) (writeAnswer addr .byte)
            (timedOutError "writing" addr .byte 1) fuel s) fun _ s => writeLoop data (offset + 1) s
  else (.returned (),s)
termination_by data.length - offset
decreasing_by
  · have beats : 0 < min ((data.length - offset) / 4) maxBurstBeats := by simp only [maxBurstBeats]; omega
    omega
  · omega
  · omega

def writeMemoryRegion (data : List Byte) (s : Session ρ) : Outcome Unit × Session ρ :=
  if data.length ≥ 2 ^ 32 then (.failed (exceedsError startAddr data.length),s)
  else if data.length > 0 ∧ (checkedAdd startAddr (BitVec.ofNat 32 (data.length - 1))).isNone then
    (.failed (overflowError "write" startAddr data.length),s)
  else writeLoop rt fuel startAddr data 0 s

/- `offset` is a `u32` that stays below `size`; `data` is what has been read. -/
def readLoop (size : Nat) (offset : Nat) (data : List Byte) (s : Session ρ) : Outcome (List Byte) × Session ρ :=
  if _ : offset < size then
    match checkedAdd startAddr (BitVec.ofNat 32 offset) with
    | none => (.panicked "address overflow prevented by upfront range validation",s)
    | some addr =>
      let remaining := size - offset
      if _ : remaining ≥ 4 ∧ addr &&& 0x3 = 0 then
        let wordCount := min (remaining / 4) maxBurstBeats
        let expected := wordCount * 4
        andThen (exchange rt (.burstRead addr .word (BitVec.ofNat 32 wordCount) false false)
          (readAnswer addr .word) (timedOutError "reading" addr .word wordCount) fuel s) fun (_,burstBytes) s =>
            if burstBytes.length ≠ expected then
              (.failed (mismatchError addr wordCount expected burstBytes.length),s)
            else readLoop size (offset + expected) (data ++ burstBytes) s
      else if remaining ≥ 2 ∧ addr &&& 0x1 = 0 then
        andThen (exchange rt (.read addr .halfword) (readAnswer addr .halfword)
          (timedOutError "reading" addr .halfword 1) fuel s) fun (readData,_) s =>
            readLoop size (offset + 2) (data ++ (LittleEndian.bytes 4 readData.toNat).take 2) s
      else
        andThen (exchange rt (.read addr .byte) (readAnswer addr .byte)
          (timedOutError "reading" addr .byte 1) fuel s) fun (readData,_) s =>
            readLoop size (offset + 1) (data ++ (LittleEndian.bytes 4 readData.toNat).take 1) s
  else (.returned data,s)
termination_by size - offset
decreasing_by
  · have beats : 0 < min ((size - offset) / 4) maxBurstBeats := by simp only [maxBurstBeats]; omega
    omega
  · omega
  · omega

def readMemoryRegion (size : Word) (s : Session ρ) : Outcome (List Byte) × Session ρ :=
  if size.toNat > 0 ∧ (checkedAdd startAddr (size - 1)).isNone then
    (.failed (overflowError "read" startAddr size.toNat),s)
  else readLoop rt fuel startAddr size.toNat 0 [] s

end Loops

/- A step of the loops: `beats` transfers from `addr`, `offset` bytes into the region. -/
structure Chunk where
  addr : Word
  size : AccessSize
  beats : Nat
  offset : Nat
  deriving DecidableEq, Repr

namespace Chunk

def bytes (c : Chunk) : Nat := c.beats * c.size.byteCount

/- The largest request possible at an address. -/
def startingAt (addr : Word) (offset remaining : Nat) : Chunk :=
  if remaining ≥ 4 ∧ addr &&& 0x3 = 0 then ⟨addr,.word,min (remaining / 4) maxBurstBeats,offset⟩
  else if remaining ≥ 2 ∧ addr &&& 0x1 = 0 then ⟨addr,.halfword,1,offset⟩
  else ⟨addr,.byte,1,offset⟩

theorem atPlace (addr : Word) (offset remaining : Nat) :
    (startingAt addr offset remaining).addr = addr ∧ (startingAt addr offset remaining).offset = offset := by
  rw [startingAt]
  split
  · exact ⟨rfl,rfl⟩
  · split <;> exact ⟨rfl,rfl⟩

theorem atBytes (addr : Word) (offset : Nat) {remaining : Nat} (positive : 0 < remaining) :
    0 < (startingAt addr offset remaining).bytes ∧ (startingAt addr offset remaining).bytes ≤ remaining := by
  rw [startingAt]
  split
  · simp only [bytes,AccessSize.byteCount,maxBurstBeats]
    omega
  · split <;> simp only [bytes,AccessSize.byteCount] <;> omega

def writeRequest (data : List Byte) (c : Chunk) : BusRequest :=
  let part := (data.drop c.offset).take c.bytes
  match c.size with
  | .word => .burstWrite c.addr .word (BitVec.ofNat 32 c.beats) false false part
  | size => .write c.addr (LittleEndian.word 32 part) size

def readRequest (c : Chunk) : BusRequest :=
  match c.size with
  | .word => .burstRead c.addr .word (BitVec.ofNat 32 c.beats) false false
  | size => .read c.addr size

/- What the read loop takes from an answer. -/
def taken (c : Chunk) (answer : Word × List Byte) : Except DeviceError (List Byte) :=
  match c.size with
  | .word =>
    if answer.2.length ≠ c.bytes then .error (mismatchError c.addr c.beats c.bytes answer.2.length)
    else .ok answer.2
  | size => .ok ((LittleEndian.bytes 4 answer.1.toNat).take size.byteCount)

theorem takenWord (addr : Word) (beats offset : Nat) (answer : Word × List Byte) :
    taken ⟨addr,.word,beats,offset⟩ answer = if answer.2.length ≠ beats * 4 then
      .error (mismatchError addr beats (beats * 4) answer.2.length) else .ok answer.2 := rfl

end Chunk

def chunks (startAddr : Word) (len offset : Nat) : List Chunk :=
  if offset < len then
    let c := Chunk.startingAt (startAddr + BitVec.ofNat 32 offset) offset (len - offset)
    c :: chunks startAddr len (offset + c.bytes)
  else []
termination_by len - offset
decreasing_by
  have := Chunk.atBytes (startAddr + BitVec.ofNat 32 offset) offset (show 0 < len - offset by omega)
  omega

section Steps
variable {ρ : Type} (rt : DeviceRuntime ρ) (fuel : Nat)

def writeChunks (data : List Byte) : List Chunk → Session ρ → Outcome Unit × Session ρ
  | [], s => (.returned (),s)
  | c :: rest, s => andThen (exchange rt (c.writeRequest data) (writeAnswer c.addr c.size)
      (timedOutError "writing" c.addr c.size c.beats) fuel s) fun _ s => writeChunks data rest s

def readChunks : List Chunk → List Byte → Session ρ → Outcome (List Byte) × Session ρ
  | [], data, s => (.returned data,s)
  | c :: rest, data, s => andThen (exchange rt c.readRequest (readAnswer c.addr c.size)
      (timedOutError "reading" c.addr c.size c.beats) fuel s) fun answer s =>
        match c.taken answer with
        | .error e => (.failed e,s)
        | .ok part => readChunks rest (data ++ part) s

variable {rt fuel} {startAddr : Word}

theorem checkedOffset {offset len : Nat} (fits : startAddr.toNat + len ≤ 2 ^ 32) (inside : offset < len) :
    checkedAdd startAddr (BitVec.ofNat 32 offset) = some (startAddr + BitVec.ofNat 32 offset) := by
  rw [checkedAdd,BitVec.toNat_ofNat,Nat.mod_eq_of_lt (by omega),if_pos (by omega)]

theorem writeLoopChunks {data : List Byte} (fits : startAddr.toNat + data.length ≤ 2 ^ 32) (offset : Nat)
    (s : Session ρ) : writeLoop rt fuel startAddr data offset s =
      writeChunks rt fuel data (chunks startAddr data.length offset) s := by
  induction offset using chunks.induct startAddr data.length generalizing s with
  | case1 offset inside c ih =>
    have tail : ∀ s, writeLoop rt fuel startAddr data (offset + (Chunk.startingAt (startAddr + BitVec.ofNat 32 offset) offset
        (data.length - offset)).bytes) s = writeChunks rt fuel data (chunks startAddr data.length (offset +
          (Chunk.startingAt (startAddr + BitVec.ofNat 32 offset) offset (data.length - offset)).bytes)) s := ih
    have small : ¬ offset ≥ 2 ^ 32 := by omega
    rw [writeLoop,dif_pos inside,if_neg small,checkedOffset fits inside,chunks,if_pos inside]
    simp only [writeChunks,← tail]
    simp only [Chunk.startingAt]
    by_cases bursts : data.length - offset ≥ 4 ∧ (startAddr + BitVec.ofNat 32 offset) &&& 0x3 = 0
    · rw [dif_pos bursts,if_pos bursts]
      rfl
    · rw [dif_neg bursts,if_neg bursts]
      by_cases even : data.length - offset ≥ 2 ∧ (startAddr + BitVec.ofNat 32 offset) &&& 0x1 = 0
      · rw [if_pos even,if_pos even]
        rfl
      · rw [if_neg even,if_neg even]
        rfl
  | case2 offset outside =>
    rw [writeLoop,dif_neg outside,chunks,if_neg outside]
    rfl

theorem readLoopChunks {size : Nat} (fits : startAddr.toNat + size ≤ 2 ^ 32) (offset : Nat) (data : List Byte)
    (s : Session ρ) : readLoop rt fuel startAddr size offset data s =
      readChunks rt fuel (chunks startAddr size offset) data s := by
  induction offset using chunks.induct startAddr size generalizing data s with
  | case1 offset inside c ih =>
    have tail : ∀ data s, readLoop rt fuel startAddr size (offset + (Chunk.startingAt (startAddr + BitVec.ofNat 32 offset) offset
        (size - offset)).bytes) data s = readChunks rt fuel (chunks startAddr size (offset +
          (Chunk.startingAt (startAddr + BitVec.ofNat 32 offset) offset (size - offset)).bytes)) data s := ih
    rw [readLoop,dif_pos inside,checkedOffset fits inside,chunks,if_pos inside]
    simp only [readChunks,← tail]
    simp only [Chunk.startingAt]
    by_cases bursts : size - offset ≥ 4 ∧ (startAddr + BitVec.ofNat 32 offset) &&& 0x3 = 0
    · rw [dif_pos bursts,if_pos bursts]
      refine congrArg (andThen _) (funext fun answer => funext fun s => ?_)
      rw [Chunk.takenWord]
      by_cases mismatch : answer.2.length ≠ min ((size - offset) / 4) maxBurstBeats * 4
      · rw [if_pos mismatch,if_pos mismatch]
      · rw [if_neg mismatch,if_neg mismatch]
        rfl
    · rw [dif_neg bursts,if_neg bursts]
      by_cases even : size - offset ≥ 2 ∧ (startAddr + BitVec.ofNat 32 offset) &&& 0x1 = 0
      · rw [if_pos even,if_pos even]
        rfl
      · rw [if_neg even,if_neg even]
        rfl
  | case2 offset outside =>
    rw [readLoop,dif_neg outside,chunks,if_neg outside]
    rfl

theorem checkedLast {len : Nat} (fits : startAddr.toNat + len ≤ 2 ^ 32) :
    ¬ (len > 0 ∧ (checkedAdd startAddr (BitVec.ofNat 32 (len - 1))).isNone = true) := by
  rintro ⟨present,absent⟩
  rw [checkedOffset fits (by omega)] at absent
  contradiction

theorem writeMemoryRegionChunks {data : List Byte} (fits : startAddr.toNat + data.length ≤ 2 ^ 32)
    (short : data.length < 2 ^ 32) (s : Session ρ) : writeMemoryRegion rt fuel startAddr data s =
      writeChunks rt fuel data (chunks startAddr data.length 0) s := by
  rw [writeMemoryRegion,if_neg (by omega),if_neg (checkedLast fits),writeLoopChunks fits]

theorem readMemoryRegionChunks {size : Word} (fits : startAddr.toNat + size.toNat ≤ 2 ^ 32) (s : Session ρ) :
    readMemoryRegion rt fuel startAddr size s = readChunks rt fuel (chunks startAddr size.toNat 0) [] s := by
  have valid : ¬ (size.toNat > 0 ∧ (checkedAdd startAddr (size - 1)).isNone = true) := by
    rintro ⟨present,absent⟩
    have last : size - 1 = BitVec.ofNat 32 (size.toNat - 1) := by
      apply BitVec.eq_of_toNat_eq
      have bound := size.isLt
      have one : (1 : Word) ≤ size := BitVec.le_def.mpr (show (1 : Word).toNat ≤ size.toNat from present)
      rw [BitVec.toNat_sub_of_le one,BitVec.toNat_ofNat,Nat.mod_eq_of_lt (by omega)]
      rfl
    rw [last] at absent
    exact checkedLast fits ⟨present,absent⟩
  rw [readMemoryRegion,if_neg valid,readLoopChunks fits]

end Steps

end RiscvSoc.Runtime
