import RiscvSoc.Devices.Present
import RiscvSoc.Lib.DropOldest

/-! `shared_buffers.rs` and `audio_stream.rs`: the buffers between the callbacks of the video and audio devices and the
backends. A call holds the mutex, so the calls of the two threads follow one another in some order. Timestamps are left out. -/
namespace RiscvSoc.View
open LittleEndian (Byte)
open ByteMemory (Memory)
open Devices (Audio AudioCall AudioConfig VideoConfig)
open DropOldest (Left)
open Mealy Machine

abbrev Sample := BitVec 16

def maxVideoFrames : Nat := 10
def maxAudioChunks : Nat := 100

structure VideoFrame where
  data : List Byte
  config : VideoConfig
  deriving DecidableEq, Repr

/- `SharedVideoBuffer`: `push_frame` and `pull_frame`. -/
def videoBuffer : Machine (List VideoFrame) (DropOldest.Op VideoFrame) (Option VideoFrame) :=
  DropOldest.machine maxVideoFrames

structure AudioChunk where
  samples : List Sample
  config : Option AudioConfig
  deriving DecidableEq, Repr

structure AudioBuffer where
  chunks : List AudioChunk
  currentConfig : Option AudioConfig
  deriving DecidableEq, Repr

namespace AudioBuffer

def new : AudioBuffer := ⟨[],none⟩

def pushSamples (b : AudioBuffer) (samples : List Sample) : AudioBuffer :=
  if samples = [] then b
  else {b with chunks := DropOldest.push maxAudioChunks b.chunks ⟨samples,b.currentConfig⟩}

def setConfig (b : AudioBuffer) (config : AudioConfig) : AudioBuffer := {b with currentConfig := some config}

def pullLoop (maxSamples : Nat) : List AudioChunk → List Sample → List Sample × List AudioChunk
  | [],result => (result,[])
  | chunk :: rest,result =>
    if result.length < maxSamples then
      let remainingSpace := maxSamples - result.length
      if chunk.samples.length ≤ remainingSpace then pullLoop maxSamples rest (result ++ chunk.samples)
      else (result ++ chunk.samples.take remainingSpace,{chunk with samples := chunk.samples.drop remainingSpace} :: rest)
    else (result,chunk :: rest)

def pullSamples (b : AudioBuffer) (maxSamples : Nat) : List Sample × AudioBuffer :=
  let (result,chunks) := pullLoop maxSamples b.chunks []
  (result,{b with chunks})

/- The samples that are there, each with the configuration it came under. -/
def contents (b : AudioBuffer) : List (Option AudioConfig × Sample) :=
  b.chunks.flatMap fun c => c.samples.map (c.config,·)

structure Tidy (b : AudioBuffer) : Prop where
  limit : b.chunks.length ≤ maxAudioChunks
  filled : ∀ c ∈ b.chunks, c.samples ≠ []

end AudioBuffer

def fillFromSharedBuffer {τ : Type} (conv : Option Sample → τ) (total : Nat) (b : AudioBuffer) : List τ × AudioBuffer :=
  let (samples,b) := b.pullSamples total
  ((List.range total).map fun k => conv samples[k]?,b)

/- The audio device, the buffer and the callback of the stream. -/
structure AudioPath where
  device : Audio
  buffer : AudioBuffer
  deriving DecidableEq, Repr

def receive (b : AudioBuffer) : AudioCall → AudioBuffer
  | .samples samples => b.pushSamples samples
  | .config config => b.setConfig config

/- A step of the device with the memory of that moment, `set_config` of a backend, and a callback of the stream. -/
inductive AudioPath.Op where
  | device (m : Memory 32) (op : Audio.Op)
  | configure (config : AudioConfig)
  | play (total : Nat)

namespace AudioPath
variable {τ : Type}

def next (p : AudioPath) : Op → AudioPath
  | .device m op => ⟨Audio.next m p.device op,(Audio.called m p.device op).foldl receive p.buffer⟩
  | .configure config => {p with buffer := p.buffer.setConfig config}
  | .play total => {p with buffer := (p.buffer.pullSamples total).2}

def machine (conv : Option Sample → τ) : Machine AudioPath Op (List τ) where
  output p op := match op with
    | .device _ _ | .configure _ => []
    | .play total => (fillFromSharedBuffer conv total p.buffer).1
  next := next

def captured (p : AudioPath) : Op → List (Option AudioConfig × Sample)
  | .device m op => (Audio.sampled m p.device op).flatten.map (p.buffer.currentConfig,·)
  | .configure _ | .play _ => []

def leaving (p : AudioPath) : Op → List (Left × Option AudioConfig × Sample)
  | .device m op => (Audio.sampled m p.device op).flatMap fun samples => if samples = [] then []
      else (DropOldest.dropped maxAudioChunks p.buffer.chunks).flatMap fun c =>
        c.samples.map fun v => (.dropped,c.config,v)
  | .configure _ => []
  | .play total => (p.buffer.contents.take total).map (Left.popped,·)

def slots (p : AudioPath) : Op → List (Option Sample)
  | .device _ _ | .configure _ => []
  | .play total => (List.range total).map ((p.buffer.contents.map Prod.snd)[·]?)

end AudioPath

structure AudioPath.Sound (p : AudioPath) (op : AudioPath.Op) : Prop where
  tidy : p.buffer.Tidy
  silence : ∀ total, op = .play total → p.slots op =
    (p.buffer.contents.take total).map (fun x => some x.2) ++ List.replicate (total - p.buffer.contents.length) none
  full : ∀ x ∈ p.leaving op, x.1 = .dropped → p.buffer.chunks.length = maxAudioChunks

namespace AudioBuffer
variable {b : AudioBuffer}

theorem pullSpec (maxSamples : Nat) (chunks : List AudioChunk) (config : Option AudioConfig) (result : List Sample) :
    (pullLoop maxSamples chunks result).1 =
      result ++ ((contents ⟨chunks,config⟩).take (maxSamples - result.length)).map Prod.snd ∧
    contents ⟨(pullLoop maxSamples chunks result).2,config⟩ = (contents ⟨chunks,config⟩).drop (maxSamples - result.length) := by
  induction chunks generalizing result with
  | nil => simp [pullLoop,contents]
  | cons chunk rest ih =>
    have split : contents ⟨chunk :: rest,config⟩ = chunk.samples.map (chunk.config,·) ++ contents ⟨rest,config⟩ := rfl
    have length : (chunk.samples.map (chunk.config,·)).length = chunk.samples.length := List.length_map _
    have names (xs : List Sample) : (xs.map (chunk.config,·)).map Prod.snd = xs := by simp [Function.comp_def]
    rw [pullLoop,split,List.take_append,List.drop_append,length,List.map_append,← List.map_take,names,← List.map_drop]
    by_cases room : result.length < maxSamples
    · rw [if_pos room]
      by_cases whole : chunk.samples.length ≤ maxSamples - result.length
      · obtain ⟨given,left⟩ := ih (result ++ chunk.samples)
        have later : maxSamples - (result ++ chunk.samples).length = maxSamples - result.length - chunk.samples.length := by
          rw [List.length_append]
          omega
        rw [later] at given left
        simp only [if_pos whole]
        rw [given,left,List.take_of_length_le whole,List.drop_of_length_le whole,List.append_assoc]
        exact ⟨rfl,rfl⟩
      · have zero : maxSamples - result.length - chunk.samples.length = 0 := by omega
        simp only [if_neg whole]
        rw [zero,List.take_zero,List.map_nil,List.append_nil]
        exact ⟨rfl,rfl⟩
    · rw [if_neg room,Nat.sub_eq_zero_of_le (by omega)]
      simp [split]

theorem pulled (b : AudioBuffer) (maxSamples : Nat) :
    (b.pullSamples maxSamples).1 = (b.contents.take maxSamples).map Prod.snd ∧
      (b.pullSamples maxSamples).2.contents = b.contents.drop maxSamples :=
  pullSpec maxSamples b.chunks b.currentConfig []

theorem pullTidy (h : b.Tidy) (maxSamples : Nat) : (b.pullSamples maxSamples).2.Tidy := by
  have kept (chunks : List AudioChunk) (result : List Sample) (filled : ∀ c ∈ chunks, c.samples ≠ []) :
      (pullLoop maxSamples chunks result).2.length ≤ chunks.length ∧
        ∀ c ∈ (pullLoop maxSamples chunks result).2, c.samples ≠ [] := by
    induction chunks generalizing result with
    | nil => exact ⟨Nat.le_refl _,filled⟩
    | cons chunk rest ih =>
      have later : ∀ c ∈ rest, c.samples ≠ [] := fun c mem => filled c (List.mem_cons_of_mem _ mem)
      rw [pullLoop]
      by_cases room : result.length < maxSamples
      · rw [if_pos room]
        by_cases whole : chunk.samples.length ≤ maxSamples - result.length
        · obtain ⟨short,full⟩ := ih (result ++ chunk.samples) later
          simp only [if_pos whole]
          exact ⟨Nat.le_succ_of_le short,full⟩
        · simp only [if_neg whole]
          refine ⟨Nat.le_refl _,fun c mem => ?_⟩
          rcases List.mem_cons.mp mem with rfl | mem
          · exact List.ne_nil_of_length_pos (by rw [List.length_drop]; omega)
          · exact later c mem
      · rw [if_neg room]
        exact ⟨Nat.le_refl _,filled⟩
  obtain ⟨short,full⟩ := kept b.chunks [] h.filled
  exact ⟨Nat.le_trans short h.limit,full⟩

theorem pushTidy (h : b.Tidy) (samples : List Sample) : (b.pushSamples samples).Tidy := by
  unfold pushSamples
  split
  · exact h
  · rename_i present
    refine ⟨DropOldest.pushBounded (by decide) h.limit _,fun c mem => ?_⟩
    rcases List.mem_append.mp mem with old | new
    · refine h.filled c ?_
      split at old
      · exact List.mem_of_mem_tail old
      · exact old
    · rw [List.mem_singleton.mp new]
      exact present

theorem pushContents (b : AudioBuffer) {samples : List Sample} (nonempty : samples ≠ []) :
    b.contents ++ samples.map (b.currentConfig,·) =
      (DropOldest.dropped maxAudioChunks b.chunks).flatMap (fun c => c.samples.map (c.config,·)) ++
        (b.pushSamples samples).contents := by
  have pushed := @DropOldest.pushConserved _ maxAudioChunks b.chunks ⟨samples,b.currentConfig⟩
  have flat := congrArg (List.flatMap fun c : AudioChunk => c.samples.map (c.config,·)) pushed
  rw [List.flatMap_append,List.flatMap_append,List.flatMap_singleton] at flat
  rw [pushSamples,if_neg nonempty]
  exact flat

end AudioBuffer

namespace AudioPath
open AudioBuffer

theorem calledOnce (m : Memory 32) (a : Audio) (op : Audio.Op) :
    Audio.called m a op = [] ∨ ∃ call, Audio.called m a op = [call] := by
  cases op with
  | write offset value allocated =>
    change (a.writeWord offset value allocated).2.2 = [] ∨ ∃ call, (a.writeWord offset value allocated).2.2 = [call]
    unfold Audio.writeWord
    split_ifs
    · exact .inl rfl
    · unfold Audio.handleConfigWrite
      cases AudioConfig.fromRegister value with
      | none => exact .inl rfl
      | some config =>
        cases a.configCallback
        · exact .inl rfl
        · exact .inr ⟨_,rfl⟩
    all_goals exact .inl rfl
  | clockCycle nowUs =>
    change (a.dmaChunk m nowUs).2 = [] ∨ ∃ call, (a.dmaChunk m nowUs).2 = [call]
    unfold Audio.dmaChunk
    cases a.activeDma with
    | none => exact .inl rfl
    | some t =>
      dsimp only
      split_ifs
      · unfold Audio.invokeSampleCallback
        cases a.sampleCallback
        · exact .inl rfl
        · exact .inr ⟨_,rfl⟩
      · exact .inl rfl

theorem stepConserved {p : AudioPath} (tidy : p.buffer.Tidy) (op : Op) : (next p op).buffer.Tidy ∧
    p.buffer.contents ++ captured p op = (leaving p op).map Prod.snd ++ (next p op).buffer.contents := by
  cases op with
  | play total =>
    obtain ⟨_,left⟩ := AudioBuffer.pulled p.buffer total
    refine ⟨pullTidy tidy total,?_⟩
    change p.buffer.contents ++ [] = ((p.buffer.contents.take total).map _).map _ ++ (p.buffer.pullSamples total).2.contents
    rw [left,List.map_map,List.append_nil]
    exact (List.take_append_drop total _).symm.trans (congrArg (· ++ _) (List.map_id _).symm)
  | configure config => exact ⟨⟨tidy.limit,tidy.filled⟩,List.append_nil _⟩
  | device m op =>
    simp only [captured,leaving,next,Audio.sampled]
    rcases calledOnce m p.device op with absent | ⟨call,one⟩
    · rw [absent]
      exact ⟨tidy,List.append_nil _⟩
    · rw [one]
      cases call with
      | config config => exact ⟨⟨tidy.limit,tidy.filled⟩,List.append_nil _⟩
      | samples samples =>
        refine ⟨pushTidy tidy samples,?_⟩
        change p.buffer.contents ++ ([samples].flatten).map _ =
          ([samples].flatMap _).map _ ++ (p.buffer.pushSamples samples).contents
        rw [List.flatten_singleton,List.flatMap_singleton]
        by_cases empty : samples = []
        · rw [if_pos empty,pushSamples,if_pos empty,empty]
          exact List.append_nil _
        · rw [if_neg empty,pushContents _ empty,List.map_flatMap]
          simp [Function.comp_def]

theorem slotsPlay (p : AudioPath) (total : Nat) : p.slots (.play total) =
    (p.buffer.contents.take total).map (fun x => some x.2) ++ List.replicate (total - p.buffer.contents.length) none := by
  have length : ((p.buffer.contents.take total).map fun x => some x.2).length = min total p.buffer.contents.length := by
    rw [List.length_map,List.length_take]
  apply List.ext_getElem
  · rw [List.length_append,length,slots,List.length_map,List.length_range,List.length_replicate]
    omega
  · intro k inside inside'
    rw [slots,List.length_map,List.length_range] at inside
    simp only [slots,List.getElem_map,List.getElem_range]
    by_cases there : k < p.buffer.contents.length
    · rw [List.getElem_append_left (by rw [length]; omega),List.getElem_map,List.getElem_take,
        List.getElem?_eq_getElem (by rw [List.length_map]; exact there),List.getElem_map]
    · rw [List.getElem_append_right (by rw [length]; omega),List.getElem_replicate,
        List.getElem?_eq_none (by rw [List.length_map]; omega)]

theorem slotsPopped (p : AudioPath) (op : Op) :
    (p.slots op).filterMap id = (p.leaving op).filterMap fun x => (DropOldest.popped x).map Prod.snd := by
  cases op with
  | device m op =>
    symm
    change List.filterMap _ (leaving p (.device m op)) = []
    rw [List.filterMap_eq_nil_iff]
    intro x mem
    simp only [leaving,List.mem_flatMap] at mem
    obtain ⟨samples,_,mem⟩ := mem
    split at mem
    · simp at mem
    · obtain ⟨c,_,mem⟩ := List.mem_flatMap.mp mem
      obtain ⟨v,_,rfl⟩ := List.mem_map.mp mem
      rfl
  | configure config => rfl
  | play total =>
    have silent (n : Nat) : (List.replicate n (none : Option Sample)).filterMap id = [] :=
      List.filterMap_eq_nil_iff.mpr fun _ mem => (List.mem_replicate.mp mem).2
    rw [slotsPlay,List.filterMap_append,List.filterMap_map,leaving,List.filterMap_map,silent,List.append_nil]
    rfl

theorem outputSlots {τ : Type} (conv : Option Sample → τ) (p : AudioPath) (op : Op) :
    (machine conv).output p op = (p.slots op).map conv := by
  cases op with
  | device m op => rfl
  | configure config => rfl
  | play total =>
    change (List.range total).map (fun k => conv (p.buffer.pullSamples total).1[k]?) = _
    rw [(AudioBuffer.pulled p.buffer total).1,slots,List.map_map]
    refine List.map_congr_left fun k mem => congrArg conv ?_
    rw [List.map_take,List.getElem?_take_of_lt (List.mem_range.mp mem)]

theorem fullBuffer {p : AudioPath} (tidy : p.buffer.Tidy) (op : Op) :
    ∀ x ∈ p.leaving op, x.1 = .dropped → p.buffer.chunks.length = maxAudioChunks := by
  intro x mem lost
  cases op with
  | play total =>
    obtain ⟨y,_,rfl⟩ := List.mem_map.mp mem
    cases lost
  | configure config => simp [leaving] at mem
  | device m op =>
    simp only [leaving,List.mem_flatMap] at mem
    obtain ⟨samples,_,mem⟩ := mem
    split at mem
    · simp at mem
    · obtain ⟨c,first,_⟩ := List.mem_flatMap.mp mem
      exact Nat.le_antisymm tidy.limit (DropOldest.droppedFull first).1

/- Whatever the order of the device's steps and of the callbacks of the stream: the samples that the device handed over
have been played or dropped, in this order, or are in the buffer, each under the configuration of its moment. -/
theorem audioPlayed {τ : Type} (conv : Option Sample → τ) (device : Audio) (ops : List Op) :
    let start : AudioPath := ⟨device,.new⟩
    let left := (machine conv).history leaving start ops
    let filled := (machine conv).history slots start ops
    (machine conv).history captured start ops = left.map Prod.snd ++ ((machine conv).final start ops).buffer.contents ∧
      ((machine conv).outputs start ops).flatten = filled.map conv ∧
      filled.reduceOption = left.filterMap (fun x => (DropOldest.popped x).map Prod.snd) ∧
      (machine conv).Steps Sound start ops := by
  intro start left filled
  have tidy : start.buffer.Tidy := ⟨Nat.zero_le _,by simp [start,AudioBuffer.new]⟩
  have steps := @conserved _ _ _ (machine conv) _ (fun p => p.buffer.Tidy) (fun p => p.buffer.contents) captured
    (fun p op => (p.leaving op).map Prod.snd) (fun p op tidy => stepConserved tidy op) _ tidy ops
  refine ⟨?_,?_,?_,?_⟩
  · rw [historyMap]
    exact steps.2
  · rw [outputsFlatten,historyMap]
    exact historySame fun _ _ => outputSlots conv _ _
  · change filled.filterMap id = _
    rw [historyFilterMap,historyFilterMap]
    exact historySame fun _ _ => slotsPopped _ _
  · exact @stepsAll _ _ _ _ (fun p : AudioPath => p.buffer.Tidy) (fun _ _ => True) _
      (fun p op tidy _ => ⟨(stepConserved tidy op).1,tidy,fun total same => same ▸ slotsPlay p total,fullBuffer tidy op⟩)
      _ tidy _ fun _ _ => trivial

end AudioPath
end RiscvSoc.View
