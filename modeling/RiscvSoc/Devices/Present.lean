import RiscvSoc.Devices.SystemContext
import RiscvSoc.Lib.Mealy

/-! What the video and the audio device read from memory, a chunk a clock cycle, and hand to their
callbacks. Reads of their registers change nothing and are left out, and so is the reset of the
device; arithmetic wraps. -/
namespace RiscvSoc.Devices
open LittleEndian (Byte)
open ByteMemory (Memory)
open Host (Word checkedMul)
open Mealy Machine

structure ActiveRead (κ : Type) where
  currentAddr : Word
  bytesRemaining : Word
  data : List Byte
  config : κ
  deriving DecidableEq, Repr

def ActiveRead.chunk {κ : Type} (m : Memory 32) (t : ActiveRead κ) : ActiveRead κ :=
  let (bytes,readSize) := readMemoryChunk m t.currentAddr t.bytesRemaining
  {t with
    data := t.data ++ bytes.take readSize.toNat
    currentAddr := t.currentAddr + readSize
    bytesRemaining := t.bytesRemaining - readSize}

inductive VideoFormat where
  | rgba8
  | rgb8
  | rgb565
  | r8
  deriving DecidableEq, Repr

def VideoFormat.bytesPerPixel : VideoFormat → Word
  | .rgba8 => 4
  | .rgb8 => 3
  | .rgb565 => 2
  | .r8 => 1

def VideoFormat.fromU8 (value : Byte) : Option VideoFormat :=
  if value = 0 then some .rgba8
  else if value = 1 then some .rgb8
  else if value = 2 then some .rgb565
  else if value = 3 then some .r8
  else none

structure VideoConfig where
  width : Word
  height : Word
  format : VideoFormat
  deriving DecidableEq, Repr

def VideoConfig.fromRegister (value : Word) : Option VideoConfig :=
  (VideoFormat.fromU8 (((value >>> 24) &&& 0xFF).setWidth 8)).map fun format =>
    ⟨(value &&& 0xFFF) + 1,((value >>> 12) &&& 0xFFF) + 1,format⟩

def VideoConfig.totalBytes (c : VideoConfig) : Word := c.width * c.height * c.format.bytesPerPixel

/- `presentCallback` says that there is one. -/
structure Video where
  videoAddr : Word
  videoConfig : Word
  activePresent : Option (ActiveRead VideoConfig)
  lastFrameTimeUs : Option Nat
  presentCallback : Bool
  deriving DecidableEq, Repr

namespace Video

def startPresent (v : Video) : Video :=
  if v.activePresent.isSome then v
  else match VideoConfig.fromRegister v.videoConfig with
    | none => v
    | some config =>
      if config.totalBytes = 0 then v
      else {v with activePresent := some ⟨v.videoAddr,config.totalBytes,[],config⟩}

def presentChunk (m : Memory 32) (nowUs : Nat) (v : Video) : Video × List (List Byte × VideoConfig) :=
  match v.activePresent with
  | none => (v,[])
  | some t =>
    let t := t.chunk m
    if t.bytesRemaining = 0 then
      ({v with activePresent := none, lastFrameTimeUs := some nowUs},
        if v.presentCallback then [(t.data,t.config)] else [])
    else ({v with activePresent := some t},[])

def writeWord (v : Video) (offset value : Word) : Except BusDeviceError Unit × Video :=
  if offset = 0x00 then (.ok (),{v with videoAddr := value})
  else if offset = 0x04 then (.ok (),{v with videoConfig := value})
  else if offset = 0x08 then (.error (.writeToReadOnly offset),v)
  else if offset = 0x0C then (.ok (),v.startPresent)
  else (.error (.invalidAddress offset),v)

inductive Op where
  | write (offset value : Word)
  | clockCycle (nowUs : Nat)
  deriving DecidableEq, Repr

def next (m : Memory 32) (v : Video) : Op → Video
  | .write offset value => (v.writeWord offset value).2
  | .clockCycle nowUs => (v.presentChunk m nowUs).1

/- What the callback is given in a step. -/
def presented (m : Memory 32) (v : Video) : Op → List (List Byte × VideoConfig)
  | .write _ _ => []
  | .clockCycle nowUs => (v.presentChunk m nowUs).2

def machine (m : Memory 32) : Machine Video Op (List (List Byte × VideoConfig)) := ⟨presented m,next m⟩

end Video

inductive AudioSampleRate where
  | hz48000
  | hz44100
  | hz22050
  deriving DecidableEq, Repr

def AudioSampleRate.fromU8 (value : Byte) : Option AudioSampleRate :=
  if value = 0 then some .hz48000
  else if value = 1 then some .hz44100
  else if value = 2 then some .hz22050
  else none

inductive AudioChannels where
  | mono
  | stereo
  deriving DecidableEq, Repr

def AudioChannels.count : AudioChannels → Nat
  | .mono => 1
  | .stereo => 2

def AudioChannels.fromU8 (value : Byte) : AudioChannels := if value = 0 then .mono else .stereo

structure AudioConfig where
  sampleRate : AudioSampleRate
  channels : AudioChannels
  sampleCount : Word
  deriving DecidableEq, Repr

def AudioConfig.fromRegister (value : Word) : Option AudioConfig :=
  (AudioSampleRate.fromU8 ((value &&& 0x3).setWidth 8)).map fun sampleRate =>
    ⟨sampleRate,.fromU8 (((value >>> 2) &&& 0x1).setWidth 8),((value >>> 3) &&& 0xFFFF) + 1⟩

def AudioConfig.bytesPerSample (c : AudioConfig) : Word := 2 * BitVec.ofNat 32 c.channels.count

structure Audio where
  audioAddr : Word
  audioConfig : Word
  activeDma : Option (ActiveRead AudioConfig)
  samplesInCurrentWindow : Word
  windowStartTimeUs : Option Nat
  sampleCallback : Bool
  configCallback : Bool
  deriving DecidableEq, Repr

inductive AudioCall where
  | samples (samples : List (BitVec 16))
  | config (config : AudioConfig)
  deriving DecidableEq, Repr

namespace Audio

/- `allocated` says whether the buffer could be reserved. -/
def startDma (a : Audio) (allocated : Bool) : Audio :=
  if a.activeDma.isSome then a
  else match AudioConfig.fromRegister a.audioConfig with
    | none => a
    | some config => match checkedMul config.sampleCount config.bytesPerSample with
      | none => a
      | some totalBytes =>
        if totalBytes = 0 then a
        else if !allocated then a
        else {a with activeDma := some ⟨a.audioAddr,totalBytes,[],config⟩}

/- The samples of a buffer; one that is cut short is skipped. -/
def samplesOf (sampleCount channelCount : Nat) (data : List Byte) : List (BitVec 16) :=
  (List.range sampleCount).flatMap fun sampleIdx => (List.range channelCount).flatMap fun channelIdx =>
    let byteOffset := (sampleIdx * channelCount + channelIdx) * 2
    if byteOffset + 1 < data.length then
      [LittleEndian.word 16 [data.getD byteOffset 0,data.getD (byteOffset + 1) 0]]
    else []

def windowExpired (a : Audio) (nowUs : Nat) : Bool :=
  match a.windowStartTimeUs with
  | none => true
  | some startTime => decide (nowUs - startTime ≥ 1000000)

def invokeSampleCallback (a : Audio) (t : ActiveRead AudioConfig) (nowUs : Nat) : Audio × List AudioCall :=
  let samples := samplesOf t.config.sampleCount.toNat t.config.channels.count t.data
  (if a.windowExpired nowUs then {a with windowStartTimeUs := some nowUs, samplesInCurrentWindow := t.config.sampleCount}
    else {a with samplesInCurrentWindow := a.samplesInCurrentWindow + t.config.sampleCount},
    if a.sampleCallback then [.samples samples] else [])

def dmaChunk (m : Memory 32) (nowUs : Nat) (a : Audio) : Audio × List AudioCall :=
  match a.activeDma with
  | none => (a,[])
  | some t =>
    let t := t.chunk m
    if t.bytesRemaining = 0 then {a with activeDma := none}.invokeSampleCallback t nowUs
    else ({a with activeDma := some t},[])

def handleConfigWrite (a : Audio) (newConfig : Word) : Audio × List AudioCall :=
  ({a with audioConfig := newConfig, samplesInCurrentWindow := 0, windowStartTimeUs := none},
    match AudioConfig.fromRegister newConfig with
    | some config => if a.configCallback then [.config config] else []
    | none => [])

def writeWord (a : Audio) (offset value : Word) (allocated : Bool) :
    Except BusDeviceError Unit × Audio × List AudioCall :=
  if offset = 0x00 then (.ok (),{a with audioAddr := value},[])
  else if offset = 0x04 then (.ok (),a.handleConfigWrite value)
  else if offset = 0x08 then (.error (.writeToReadOnly offset),a,[])
  else if offset = 0x0C then (.ok (),a.startDma allocated,[])
  else (.error (.invalidAddress offset),a,[])

inductive Op where
  | write (offset value : Word) (allocated : Bool)
  | clockCycle (nowUs : Nat)
  deriving DecidableEq, Repr

def next (m : Memory 32) (a : Audio) : Op → Audio
  | .write offset value allocated => (a.writeWord offset value allocated).2.1
  | .clockCycle nowUs => (a.dmaChunk m nowUs).1

def called (m : Memory 32) (a : Audio) : Op → List AudioCall
  | .write offset value allocated => (a.writeWord offset value allocated).2.2
  | .clockCycle nowUs => (a.dmaChunk m nowUs).2

def machine (m : Memory 32) : Machine Audio Op (List AudioCall) := ⟨called m,next m⟩

end Audio

section Reading
variable {κ : Type} {m : Memory 32} {addr total : Word} {config : κ} {t : ActiveRead κ}

structure Reading (m : Memory 32) (addr total : Word) (config : κ) (t : ActiveRead κ) : Prop where
  data : t.data = ByteMemory.load (visible m) addr t.data.length
  place : t.currentAddr = addr + BitVec.ofNat 32 t.data.length
  left : t.data.length + t.bytesRemaining.toNat = total.toNat
  config : t.config = config

theorem readingStart (m : Memory 32) (addr total : Word) (config : κ) :
    Reading m addr total config ⟨addr,total,[],config⟩ :=
  ⟨rfl,by simp,by simp,rfl⟩

theorem readingPrefix (h : Reading m addr total config t) : t.data <+: ByteMemory.load (visible m) addr total.toNat := by
  rw [← h.left,ByteMemory.loadAppend,← h.data]
  exact List.prefix_append _ _

theorem readingDone (h : Reading m addr total config t) (done : t.bytesRemaining = 0) :
    t.data = ByteMemory.load (visible m) addr total.toNat := by
  have left := h.left
  rw [done] at left
  rw [← left]
  exact h.data

theorem readingChunk (h : Reading m addr total config t) (more : t.bytesRemaining ≠ 0) :
    Reading m addr total config (t.chunk m) ∧ (t.chunk m).bytesRemaining.toNat < t.bytesRemaining.toNat := by
  obtain ⟨power,aligned,fits⟩ := optimalSpec t.currentAddr more
  have bytes := chunkRead m power aligned
  have left := h.left
  unfold ActiveRead.chunk readMemoryChunk
  generalize optimalReadSize t.currentAddr t.bytesRemaining = size at *
  have positive : 0 < size.toNat := by rcases power with rfl | rfl | rfl <;> decide
  have length : ((chunkBytes m t.currentAddr size).take size.toNat).length = size.toNat := by
    rw [bytes,ByteMemory.loadLength]
  have remaining : (t.bytesRemaining - size).toNat = t.bytesRemaining.toNat - size.toNat := by
    rw [BitVec.toNat_sub]
    have bound := t.bytesRemaining.isLt
    omega
  refine ⟨⟨?_,?_,?_,h.config⟩,?_⟩
  · simp only [List.length_append,length]
    rw [ByteMemory.loadAppend,← h.data,bytes,h.place]
  · simp only [List.length_append,length]
    rw [h.place,BitVec.add_assoc,BitVec.ofNat_add,BitVec.ofNat_toNat,BitVec.setWidth_eq]
  · simp only [List.length_append,length,remaining]
    omega
  · simp only [remaining]
    omega

end Reading

section Presents
variable {σ ι ο γ κ : Type}

structure Presents (m : Memory 32) (machine : Machine σ ι ο) (active : σ → Option (ActiveRead κ)) (clock : ι → Bool)
    (calls : σ → ι → List γ) (deliver : List Byte → κ → List γ) (inv : σ → Prop) : Prop where
  keeps : ∀ {s} i, inv s → inv (machine.next s i)
  other : ∀ {s i}, inv s → clock i = false → calls s i = [] ∧
    ∀ t, active s = some t → active (machine.next s i) = some t
  again : ∀ {s i t}, inv s → clock i = true → active s = some t → (t.chunk m).bytesRemaining ≠ 0 →
    calls s i = [] ∧ active (machine.next s i) = some (t.chunk m)
  last : ∀ {s i t}, inv s → clock i = true → active s = some t → (t.chunk m).bytesRemaining = 0 →
    calls s i = deliver (t.chunk m).data t.config ∧ active (machine.next s i) = none

/- After `n` clock cycles, and not before, the buffer is delivered. -/
structure Delivers (machine : Machine σ ι ο) (active : σ → Option (ActiveRead κ)) (clock : ι → Bool)
    (calls : σ → ι → List γ) (buffer : List Byte) (result : List γ) (n : Nat) (s : σ) : Prop where
  busy : ∀ ops, ops.countP clock < n → machine.history calls s ops = [] ∧
    ∃ t, active (machine.final s ops) = some t ∧ t.data <+: buffer
  done : ∀ ops, ops.countP clock = n → machine.history calls s ops = result
  idle : ∀ ops i, ops.countP clock + 1 = n → clock i = true → active (machine.final s (ops ++ [i])) = none

variable {m : Memory 32} {machine : Machine σ ι ο} {active : σ → Option (ActiveRead κ)} {clock : ι → Bool}
  {calls : σ → ι → List γ} {deliver : List Byte → κ → List γ} {inv : σ → Prop}
  (h : Presents m machine active clock calls deliver inv)
include h

theorem quiet {s : σ} (start : inv s) {ops : List ι} (still : ops.countP clock = 0) : machine.history calls s ops = [] := by
  induction ops generalizing s with
  | nil => rfl
  | cons i rest ih =>
    rw [List.countP_cons] at still
    have other : clock i = false := Bool.eq_false_iff.mpr fun yes => by simp [yes] at still
    rw [historyCons,(h.other start other).1,ih (h.keeps i start) (by omega)]
    rfl

theorem deliversStep {t : ActiveRead κ} {buffer : List Byte} {result : List γ} {n : Nat} (part : t.data <+: buffer)
    (ends : n = 0 → ∀ {s i}, inv s → clock i = true → active s = some t →
      calls s i = result ∧ active (machine.next s i) = none)
    (goesOn : n ≠ 0 → ∀ {s i}, inv s → clock i = true → active s = some t →
      calls s i = [] ∧ Delivers machine active clock calls buffer result n (machine.next s i))
    {s : σ} (start : inv s) (reads : active s = some t) :
    Delivers machine active clock calls buffer result (n + 1) s := by
  refine ⟨fun ops => ?busy,fun ops => ?done,fun ops j => ?idle⟩
  case busy =>
    induction ops generalizing s with
    | nil => exact fun _ => ⟨rfl,t,reads,part⟩
    | cons i rest ih =>
      intro fewer
      rw [List.countP_cons] at fewer
      rcases Bool.eq_false_or_eq_true (clock i) with now | other
      · rw [if_pos now] at fewer
        obtain ⟨silent,later⟩ := goesOn (by omega) start now reads
        rw [historyCons,silent]
        exact later.busy rest (by omega)
      · rw [other,if_neg Bool.false_ne_true] at fewer
        obtain ⟨silent,same⟩ := h.other start other
        rw [historyCons,silent]
        exact ih (h.keeps i start) (same t reads) fewer
  case done =>
    induction ops generalizing s with
    | nil => exact fun count => absurd count.symm (Nat.succ_ne_zero n)
    | cons i rest ih =>
      intro count
      rw [List.countP_cons] at count
      rcases Bool.eq_false_or_eq_true (clock i) with now | other
      · rw [if_pos now] at count
        by_cases final : n = 0
        · rw [historyCons,(ends final start now reads).1,quiet h (h.keeps i start) (by omega),List.append_nil]
        · obtain ⟨silent,later⟩ := goesOn final start now reads
          rw [historyCons,silent]
          exact later.done rest (by omega)
      · rw [other,if_neg Bool.false_ne_true] at count
        obtain ⟨silent,same⟩ := h.other start other
        rw [historyCons,silent]
        exact ih (h.keeps i start) (same t reads) count
  case idle =>
    induction ops generalizing s with
    | nil => exact fun count now => (ends (by simpa using count.symm) start now reads).2
    | cons i rest ih =>
      intro count last
      rw [List.countP_cons] at count
      rcases Bool.eq_false_or_eq_true (clock i) with now | other
      · rw [if_pos now] at count
        exact (goesOn (by omega) start now reads).2.idle rest j (by omega) last
      · rw [other,if_neg Bool.false_ne_true] at count
        exact ih (h.keeps i start) ((h.other start other).2 t reads) count last

theorem deliversRun {addr total : Word} {config : κ} {t : ActiveRead κ} (reading : Reading m addr total config t)
    (more : t.bytesRemaining ≠ 0) : ∃ n, 0 < n ∧ n ≤ t.bytesRemaining.toNat ∧ ∀ s, inv s → active s = some t →
      Delivers machine active clock calls (ByteMemory.load (visible m) addr total.toNat)
        (deliver (ByteMemory.load (visible m) addr total.toNat) config) n s := by
  generalize size : t.bytesRemaining.toNat = k
  induction k using Nat.strong_induction_on generalizing t with
  | h k ih =>
    obtain ⟨next,shorter⟩ := readingChunk reading more
    by_cases done : (t.chunk m).bytesRemaining = 0
    · refine ⟨1,Nat.one_pos,by omega,fun s start reads => ?_⟩
      refine deliversStep h (n := 0) (readingPrefix reading) (fun _ => ?_) (fun present => absurd rfl present) start reads
      intro s i start now reads
      have ended := h.last start now reads done
      rw [readingDone next done,reading.config] at ended
      exact ended
    · obtain ⟨n,positive,bound,later⟩ := ih _ (size ▸ shorter) next done rfl
      refine ⟨n + 1,Nat.succ_pos n,by omega,fun s start reads => ?_⟩
      refine deliversStep h (readingPrefix reading) (fun absent => absurd absent (by omega)) (fun _ => ?_) start reads
      intro s i start now reads
      obtain ⟨silent,same⟩ := h.again start now reads done
      exact ⟨silent,later _ (h.keeps i start) same⟩

end Presents

def Video.clock : Video.Op → Bool
  | .clockCycle _ => true
  | .write _ _ => false

def Audio.clock : Audio.Op → Bool
  | .clockCycle _ => true
  | .write _ _ _ => false

section Steps
variable {m : Memory 32} (nowUs : Nat)

theorem videoAgain {v : Video} {t : ActiveRead VideoConfig} (reads : v.activePresent = some t)
    (more : (t.chunk m).bytesRemaining ≠ 0) :
    v.presentChunk m nowUs = ({v with activePresent := some (t.chunk m)},[]) := by
  simp only [Video.presentChunk,reads]
  rw [if_neg more]

theorem videoLast {v : Video} {t : ActiveRead VideoConfig} (reads : v.activePresent = some t)
    (done : (t.chunk m).bytesRemaining = 0) :
    v.presentChunk m nowUs = ({v with activePresent := none, lastFrameTimeUs := some nowUs},
      if v.presentCallback then [((t.chunk m).data,t.config)] else []) := by
  simp only [Video.presentChunk,reads]
  rw [if_pos done]
  rfl

theorem startPresentCallback (v : Video) : v.startPresent.presentCallback = v.presentCallback := by
  unfold Video.startPresent
  split
  · rfl
  · split
    · rfl
    · split <;> rfl

theorem presentChunkCallback (v : Video) : (v.presentChunk m nowUs).1.presentCallback = v.presentCallback := by
  unfold Video.presentChunk
  split
  · rfl
  · simp only
    split <;> rfl

theorem audioAgain {a : Audio} {t : ActiveRead AudioConfig} (reads : a.activeDma = some t)
    (more : (t.chunk m).bytesRemaining ≠ 0) : a.dmaChunk m nowUs = ({a with activeDma := some (t.chunk m)},[]) := by
  simp only [Audio.dmaChunk,reads]
  rw [if_neg more]

theorem audioLast {a : Audio} {t : ActiveRead AudioConfig} (reads : a.activeDma = some t)
    (done : (t.chunk m).bytesRemaining = 0) :
    a.dmaChunk m nowUs = {a with activeDma := none}.invokeSampleCallback (t.chunk m) nowUs := by
  simp only [Audio.dmaChunk,reads]
  rw [if_pos done]

theorem sampleCallbackKept (a : Audio) (t : ActiveRead AudioConfig) :
    (a.invokeSampleCallback t nowUs).1.sampleCallback = a.sampleCallback ∧
      (a.invokeSampleCallback t nowUs).1.activeDma = a.activeDma := by
  unfold Audio.invokeSampleCallback
  simp only
  split <;> exact ⟨rfl,rfl⟩

theorem startDmaCallback (a : Audio) (allocated : Bool) :
    (a.startDma allocated).sampleCallback = a.sampleCallback := by
  unfold Audio.startDma
  split
  · rfl
  · split
    · rfl
    · split
      · rfl
      · split
        · rfl
        · split <;> rfl

theorem dmaChunkCallback (a : Audio) : (a.dmaChunk m nowUs).1.sampleCallback = a.sampleCallback := by
  unfold Audio.dmaChunk
  split
  · rfl
  · simp only
    split
    · exact (sampleCallbackKept nowUs _ _).1
    · rfl

end Steps

theorem videoWriteBusy {v : Video} {t : ActiveRead VideoConfig} (reads : v.activePresent = some t)
    (offset value : Word) : (v.writeWord offset value).2.activePresent = some t := by
  have busy : v.startPresent = v := by
    rw [Video.startPresent,reads]
    rfl
  unfold Video.writeWord
  split_ifs
  · exact reads
  · exact reads
  · exact reads
  · exact busy.symm ▸ reads
  · exact reads

theorem audioWriteBusy {a : Audio} {t : ActiveRead AudioConfig} (reads : a.activeDma = some t)
    (offset value : Word) (allocated : Bool) : (a.writeWord offset value allocated).2.1.activeDma = some t := by
  have busy : a.startDma allocated = a := by
    rw [Audio.startDma,reads]
    rfl
  unfold Audio.writeWord
  split_ifs
  · exact reads
  · exact reads
  · exact reads
  · exact busy.symm ▸ reads
  · exact reads

theorem videoPresents (m : Memory 32) (callback : Bool) :
    Presents m (Video.machine m) Video.activePresent Video.clock (Video.presented m)
      (fun data config => if callback then [(data,config)] else []) (fun v => v.presentCallback = callback) where
  keeps := by
    intro v i same
    cases i with
    | write offset value =>
      change (v.writeWord offset value).2.presentCallback = callback
      unfold Video.writeWord
      split_ifs
      · exact same
      · exact same
      · exact same
      · exact (startPresentCallback v).trans same
      · exact same
    | clockCycle nowUs => exact (presentChunkCallback nowUs v).trans same
  other := by
    intro v i _ other
    cases i with
    | clockCycle nowUs => contradiction
    | write offset value => exact ⟨rfl,fun t reads => videoWriteBusy reads offset value⟩
  again := by
    intro v i t _ now reads more
    cases i with
    | write offset value => contradiction
    | clockCycle nowUs =>
      have step := videoAgain nowUs reads more
      exact ⟨congrArg Prod.snd step,congrArg (·.1.activePresent) step⟩
  last := by
    intro v i t same now reads done
    cases i with
    | write offset value => contradiction
    | clockCycle nowUs =>
      have step := videoLast nowUs reads done
      rw [same] at step
      exact ⟨congrArg Prod.snd step,congrArg (·.1.activePresent) step⟩

def AudioCall.samples? : AudioCall → Option (List (BitVec 16))
  | .samples given => some given
  | .config _ => none

def Audio.sampled (m : Memory 32) (a : Audio) (op : Audio.Op) : List (List (BitVec 16)) :=
  (a.called m op).filterMap AudioCall.samples?

theorem audioPresents (m : Memory 32) (callback : Bool) :
    Presents m (Audio.machine m) Audio.activeDma Audio.clock (Audio.sampled m)
      (fun data config => if callback then [Audio.samplesOf config.sampleCount.toNat config.channels.count data] else [])
      (fun a => a.sampleCallback = callback) where
  keeps := by
    intro a i same
    cases i with
    | write offset value allocated =>
      change (a.writeWord offset value allocated).2.1.sampleCallback = callback
      unfold Audio.writeWord
      split_ifs
      · exact same
      · exact same
      · exact same
      · exact (startDmaCallback a allocated).trans same
      · exact same
    | clockCycle nowUs => exact (dmaChunkCallback nowUs a).trans same
  other := by
    intro a i _ other
    cases i with
    | clockCycle nowUs => contradiction
    | write offset value allocated =>
      refine ⟨?_,fun t reads => audioWriteBusy reads offset value allocated⟩
      change (a.writeWord offset value allocated).2.2.filterMap AudioCall.samples? = []
      unfold Audio.writeWord
      split_ifs
      · rfl
      · unfold Audio.handleConfigWrite
        cases AudioConfig.fromRegister value with
        | none => rfl
        | some config => cases a.configCallback <;> rfl
      · rfl
      · rfl
      · rfl
  again := by
    intro a i t _ now reads more
    cases i with
    | write offset value allocated => contradiction
    | clockCycle nowUs =>
      have step := audioAgain nowUs reads more
      exact ⟨congrArg (·.2.filterMap AudioCall.samples?) step,congrArg (·.1.activeDma) step⟩
  last := by
    intro a i t same now reads done
    cases i with
    | write offset value allocated => contradiction
    | clockCycle nowUs =>
      have step := audioLast nowUs reads done
      refine ⟨(congrArg (·.2.filterMap AudioCall.samples?) step).trans ?_,
        (congrArg (·.1.activeDma) step).trans (sampleCallbackKept nowUs _ _).2⟩
      simp only [Audio.invokeSampleCallback,same]
      cases callback <;> rfl

theorem rangeGrid {α : Type} (g : Nat → α) (a b : Nat) :
    ((List.range a).flatMap fun i => (List.range b).map fun c => g (i * b + c)) = (List.range (a * b)).map g := by
  induction a with
  | zero => simp
  | succ a ih =>
    rw [List.range_succ,List.flatMap_append,ih,Nat.succ_mul,List.range_add,List.map_append,List.map_map]
    simp [Function.comp_def]

def bufferSamples (n : Nat) (buffer : List Byte) : List (BitVec 16) :=
  (List.range n).map fun k => LittleEndian.word 16 [buffer.getD (k * 2) 0,buffer.getD (k * 2 + 1) 0]

theorem samplesComplete {sampleCount channelCount : Nat} {data : List Byte}
    (complete : data.length = sampleCount * channelCount * 2) :
    Audio.samplesOf sampleCount channelCount data = bufferSamples (sampleCount * channelCount) data := by
  rw [bufferSamples,← rangeGrid,Audio.samplesOf]
  apply List.flatMap_congr
  intro i inside
  have last : i + 1 ≤ sampleCount := List.mem_range.mp inside
  have row := Nat.mul_le_mul_right channelCount last
  rw [Nat.succ_mul] at row
  rw [← List.flatMap_singleton' ((List.range channelCount).map _),List.flatMap_map]
  apply List.flatMap_congr
  intro c within
  have column : c < channelCount := List.mem_range.mp within
  exact if_pos (by omega)

theorem maskedSucc (x mask : Word) {k : Nat} (ones : mask.toNat = 2 ^ k - 1) (small : 2 ^ k < 2 ^ 32) :
    ((x &&& mask) + 1).toNat = x.toNat % 2 ^ k + 1 := by
  have field : x.toNat % 2 ^ k < 2 ^ k := Nat.mod_lt _ (Nat.two_pow_pos k)
  have one : (1 : Word).toNat = 1 := rfl
  rw [BitVec.toNat_add,BitVec.toNat_and,ones,Nat.and_two_pow_sub_one_eq_mod,one,Nat.mod_eq_of_lt (by omega)]

theorem toNatMul {a b : Word} {x y : Nat} (left : a.toNat = x) (right : b.toNat = y) (fits : x * y < 2 ^ 32) :
    (a * b).toNat = x * y := by
  rw [BitVec.toNat_mul,left,right,Nat.mod_eq_of_lt fits]

theorem videoBytes {value : Word} {config : VideoConfig} (valid : VideoConfig.fromRegister value = some config) :
    config.totalBytes ≠ 0 := by
  obtain ⟨format,_,rfl⟩ := Option.map_eq_some_iff.mp valid
  have width := maskedSucc value 0xFFF (k := 12) (by decide) (by decide)
  have height := maskedSucc (value >>> 12) 0xFFF (k := 12) (by decide) (by decide)
  have pixel : 0 < format.bytesPerPixel.toNat ∧ format.bytesPerPixel.toNat ≤ 4 := by cases format <;> decide
  have inside : value.toNat % 2 ^ 12 < 2 ^ 12 := Nat.mod_lt _ (by decide)
  have inside' : (value >>> 12).toNat % 2 ^ 12 < 2 ^ 12 := Nat.mod_lt _ (by decide)
  generalize value.toNat % 2 ^ 12 = w at *
  generalize (value >>> 12).toNat % 2 ^ 12 = h at *
  have area : (w + 1) * (h + 1) ≤ 4096 * 4096 := Nat.mul_le_mul (by omega) (by omega)
  have bytes : (w + 1) * (h + 1) * format.bytesPerPixel.toNat ≤ 4096 * 4096 * 4 := Nat.mul_le_mul area pixel.2
  have total := toNatMul (b := format.bytesPerPixel) (toNatMul width height (by omega)) rfl (by omega)
  have positive : 0 < (w + 1) * (h + 1) * format.bytesPerPixel.toNat :=
    Nat.mul_pos (Nat.mul_pos (by omega) (by omega)) pixel.1
  intro zero
  have absent := congrArg BitVec.toNat zero
  rw [VideoConfig.totalBytes,total] at absent
  exact absurd absent (Nat.ne_of_gt positive)

theorem audioBytes {value : Word} {config : AudioConfig} (valid : AudioConfig.fromRegister value = some config) :
    ∃ total, checkedMul config.sampleCount config.bytesPerSample = some total ∧ 0 < total.toNat ∧
      total.toNat = config.sampleCount.toNat * config.channels.count * 2 := by
  obtain ⟨rate,_,rfl⟩ := Option.map_eq_some_iff.mp valid
  have count := maskedSucc (value >>> 3) 0xFFFF (k := 16) (by decide) (by decide)
  have inside : (value >>> 3).toNat % 2 ^ 16 < 2 ^ 16 := Nat.mod_lt _ (by decide)
  generalize (value >>> 3).toNat % 2 ^ 16 = n at *
  generalize AudioChannels.fromU8 (((value >>> 2) &&& 0x1).setWidth 8) = channels
  have frame : (AudioConfig.mk rate channels (((value >>> 3) &&& 0xFFFF) + 1)).bytesPerSample.toNat =
      channels.count * 2 := by
    unfold AudioConfig.bytesPerSample
    cases channels <;> rfl
  have few : 0 < channels.count ∧ channels.count ≤ 2 := by cases channels <;> decide
  have bytes : (n + 1) * (channels.count * 2) ≤ 65536 * 4 := Nat.mul_le_mul (by omega) (by omega)
  have positive : 0 < (n + 1) * (channels.count * 2) := Nat.mul_pos (by omega) (by omega)
  have total := toNatMul count frame (by omega)
  refine ⟨_,if_pos ?_,?_,?_⟩
  · rw [count,frame]
    omega
  · rw [total]
    exact positive
  · rw [total,count,Nat.mul_assoc]

/- Both devices, from any idle state and for any memory: the buffer that the callback is given after
`n` clock cycles, once and not earlier, is the bytes at consecutive addresses, whatever is written to
the registers meanwhile. -/
theorem presentsBytewise (m : Memory 32) :
    (∀ (v : Video) (config : VideoConfig) (value : Word), v.activePresent = none →
      VideoConfig.fromRegister v.videoConfig = some config →
      let buffer := ByteMemory.load (visible m) v.videoAddr config.totalBytes.toNat
      ∃ n, 0 < n ∧ n ≤ config.totalBytes.toNat ∧
        Delivers (Video.machine m) Video.activePresent Video.clock (Video.presented m) buffer
          (if v.presentCallback then [(buffer,config)] else []) n (Video.next m v (.write 0x0C value))) ∧
    ∀ (a : Audio) (config : AudioConfig) (value : Word), a.activeDma = none →
      AudioConfig.fromRegister a.audioConfig = some config →
      let samples := config.sampleCount.toNat * config.channels.count
      let buffer := ByteMemory.load (visible m) a.audioAddr (samples * 2)
      ∃ n, 0 < n ∧ n ≤ samples * 2 ∧
        Delivers (Audio.machine m) Audio.activeDma Audio.clock (Audio.sampled m) buffer
          (if a.sampleCallback then [bufferSamples samples buffer] else []) n
          (Audio.next m a (.write 0x0C value true)) := by
  constructor
  · intro v config value idle valid buffer
    have present := videoBytes valid
    have started : Video.next m v (.write 0x0C value) =
        {v with activePresent := some ⟨v.videoAddr,config.totalBytes,[],config⟩} := by
      change v.startPresent = _
      rw [Video.startPresent,idle,if_neg (by decide),valid]
      exact if_neg present
    obtain ⟨n,positive,bound,delivers⟩ :=
      deliversRun (videoPresents m v.presentCallback) (readingStart m v.videoAddr config.totalBytes config) present
    rw [started]
    exact ⟨n,positive,bound,delivers _ rfl rfl⟩
  · intro a config value idle valid samples buffer
    obtain ⟨total,product,present,bytes⟩ := audioBytes valid
    have nonzero : total ≠ 0 := fun zero => by simp [zero] at present
    have started : Audio.next m a (.write 0x0C value true) =
        {a with activeDma := some ⟨a.audioAddr,total,[],config⟩} := by
      change a.startDma true = _
      simp only [Audio.startDma,idle,valid,product]
      rw [if_neg (by decide),if_neg nonzero,if_neg (by decide)]
    obtain ⟨n,positive,bound,delivers⟩ :=
      deliversRun (audioPresents m a.sampleCallback) (readingStart m a.audioAddr total config) nonzero
    rw [started]
    have delivered := delivers {a with activeDma := some ⟨a.audioAddr,total,[],config⟩} rfl rfl
    rw [bytes,samplesComplete (ByteMemory.loadLength _ _ _)] at delivered
    exact ⟨n,positive,bytes ▸ bound,delivered⟩

/- Each byte of this memory is the low byte of its address. -/
def lowBytes : Memory 32 := fun addr => addr.setWidth 8

theorem presentsUnaligned :
    (∃ n, 0 < n ∧ n ≤ 4 ∧ Delivers (Video.machine lowBytes) Video.activePresent Video.clock (Video.presented lowBytes)
      [1,2,3,4] [([1,2,3,4],⟨1,1,.rgba8⟩)] n (Video.next lowBytes ⟨0x80000001,0,none,none,true⟩ (.write 0x0C 1))) ∧
    ∃ n, 0 < n ∧ n ≤ 4 ∧ Delivers (Audio.machine lowBytes) Audio.activeDma Audio.clock (Audio.sampled lowBytes)
      [3,4,5,6] [[0x0403,0x0605]] n
      (Audio.next lowBytes ⟨0x80000003,0b1000,none,0,none,true,true⟩ (.write 0x0C 1 true)) := by
  have video : ByteMemory.load (visible lowBytes) 0x80000001 4 = [1,2,3,4] := by decide +kernel
  have audio : ByteMemory.load (visible lowBytes) 0x80000003 4 = [3,4,5,6] := by decide +kernel
  have samples : bufferSamples 2 [3,4,5,6] = [0x0403,0x0605] := by decide +kernel
  rw [← samples,← video,← audio]
  exact ⟨(presentsBytewise lowBytes).1 ⟨0x80000001,0,none,none,true⟩ ⟨1,1,.rgba8⟩ 1 rfl (by decide),
    (presentsBytewise lowBytes).2 ⟨0x80000003,0b1000,none,0,none,true,true⟩ ⟨.hz48000,.mono,2⟩ 1 rfl (by decide)⟩

end RiscvSoc.Devices
