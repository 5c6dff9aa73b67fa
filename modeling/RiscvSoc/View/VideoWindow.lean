import Mathlib.Tactic.IntervalCases
import RiscvSoc.View.Drawing
import RiscvSoc.View.SharedBuffers

/-! The framebuffer of `video_window.rs`, and the way of a pixel: drawn by the guest, presented by the video device, pulled
from the shared buffer and shown. The window itself and its events are left out. -/
namespace RiscvSoc.View
open LittleEndian (Byte)
open ByteMemory (Memory)
open Devices (Video VideoConfig VideoFormat Delivers visible)
open Host (Word)

/- `VideoWindowApp`: pixels as 0x00RRGGBB. -/
structure VideoWindow where
  width : Nat
  height : Nat
  framebuffer : List Word
  size : framebuffer.length = width * height

def colour (r g b : Byte) : Word := r.setWidth 32 <<< 16 ||| g.setWidth 32 <<< 8 ||| b.setWidth 32

def pixelRgba8 (data : List Byte) (i : Nat) : Word :=
  colour (data.getD (i * 4) 0) (data.getD (i * 4 + 1) 0) (data.getD (i * 4 + 2) 0)

def pixelRgb8 (data : List Byte) (i : Nat) : Word :=
  colour (data.getD (i * 3) 0) (data.getD (i * 3 + 1) 0) (data.getD (i * 3 + 2) 0)

def scale5 (x : Byte) : Byte := x <<< 3 ||| x >>> 2
def scale6 (x : Byte) : Byte := x <<< 2 ||| x >>> 4

def colour565 (pixel : BitVec 16) : Word :=
  let r5 : Byte := ((pixel >>> 11) &&& 0x1F).setWidth 8
  let g6 : Byte := ((pixel >>> 5) &&& 0x3F).setWidth 8
  let b5 : Byte := (pixel &&& 0x1F).setWidth 8
  colour (scale5 r5) (scale6 g6) (scale5 b5)

def pixelRgb565 (data : List Byte) (i : Nat) : Word :=
  colour565 (LittleEndian.word 16 [data.getD (i * 2) 0,data.getD (i * 2 + 1) 0])

theorem setsLength (pixel : Nat → Word) (indices : List Nat) (framebuffer : List Word) :
    (indices.foldl (fun fb i => fb.set i (pixel i)) framebuffer).length = framebuffer.length := by
  induction indices generalizing framebuffer with
  | nil => rfl
  | cons i rest ih => rw [List.foldl_cons,ih,List.length_set]

namespace VideoWindow

def new (width height : Nat) : VideoWindow := ⟨width,height,List.replicate (width * height) 0,List.length_replicate⟩

def resize (v : VideoWindow) (width height : Nat) : VideoWindow where
  width := width
  height := height
  framebuffer := v.framebuffer.take (width * height) ++ List.replicate (width * height - v.framebuffer.length) 0
  size := by
    rw [List.length_append,List.length_take,List.length_replicate]
    omega

def pixelCount (v : VideoWindow) : Nat := v.width * v.height

def fill (v : VideoWindow) (pixel : Nat → Word) : VideoWindow :=
  {v with
    framebuffer := (List.range v.pixelCount).foldl (fun fb i => fb.set i (pixel i)) v.framebuffer
    size := (setsLength pixel _ _).trans v.size}

def convert (v : VideoWindow) (bytes : Nat) (tooSmall : String) (pixel : List Byte → Nat → Word) (data : List Byte) :
    Except String Unit × VideoWindow :=
  if data.length < v.pixelCount * bytes then (.error tooSmall,v) else (.ok (),v.fill (pixel data))

def convertRgba8 (v : VideoWindow) : List Byte → Except String Unit × VideoWindow :=
  v.convert 4 "Frame data too small for RGBA8 format" pixelRgba8

def convertRgb8 (v : VideoWindow) : List Byte → Except String Unit × VideoWindow :=
  v.convert 3 "Frame data too small for RGB8 format" pixelRgb8

def convertRgb565 (v : VideoWindow) : List Byte → Except String Unit × VideoWindow :=
  v.convert 2 "Frame data too small for RGB565 format" pixelRgb565

/- The loop of this format goes over pixels and bytes together. -/
def convertR8 (v : VideoWindow) (data : List Byte) : Except String Unit × VideoWindow :=
  if data.length < v.pixelCount then (.error "Frame data too small for R8 format",v)
  else
    let both := (v.framebuffer.zip data).take v.pixelCount
    (.ok (),{v with
      framebuffer := both.map (fun p => colour p.2 p.2 p.2) ++ v.framebuffer.drop both.length
      size := by
        refine Eq.trans ?_ v.size
        rw [List.length_append,List.length_map,List.length_drop,List.length_take,List.length_zip]
        omega})

def processVideoFrame (v : VideoWindow) (data : List Byte) (config : VideoConfig) : Except String Unit × VideoWindow :=
  let newWidth := config.width.toNat
  let newHeight := config.height.toNat
  let v := if newWidth ≠ v.width ∨ newHeight ≠ v.height then v.resize newWidth newHeight else v
  match config.format with
  | .rgba8 => v.convertRgba8 data
  | .rgb8 => v.convertRgb8 data
  | .rgb565 => v.convertRgb565 data
  | .r8 => v.convertR8 data

/- The loop of `GuiVideoBackend::update` over the frames in the shared buffer, and those that it leaves there. -/
def update (v : VideoWindow) : List VideoFrame → Except String Unit × List VideoFrame × VideoWindow
  | [] => (.ok (),[],v)
  | frame :: rest => match v.processVideoFrame frame.data frame.config with
    | (.error e,v) => (.error e,rest,v)
    | (.ok (),v) => v.update rest

/- The buffer of a surface of so many pixels. -/
def present (v : VideoWindow) (surfaceSize : Nat) : List Word :=
  let copyLen := min v.framebuffer.length surfaceSize
  v.framebuffer.take copyLen ++ List.replicate (surfaceSize - copyLen) 0

end VideoWindow

def decode (format : VideoFormat) (data : List Byte) (i : Nat) : Word := match format with
  | .rgba8 => pixelRgba8 data i
  | .rgb8 => pixelRgb8 data i
  | .rgb565 => pixelRgb565 data i
  | .r8 => colour (data.getD i 0) (data.getD i 0) (data.getD i 0)

def shown (format : VideoFormat) (d : Draw) : Word := match format with
  | .rgba8 | .rgb8 => colour d.r d.g d.b
  | .rgb565 => colour (scale5 (d.r >>> 3)) (scale6 (d.g >>> 2)) (scale5 (d.b >>> 3))
  | .r8 => colour d.r d.r d.r

theorem setsMap (pixel : Nat → Word) {n : Nat} {framebuffer : List Word} (size : framebuffer.length = n) :
    (List.range n).foldl (fun fb i => fb.set i (pixel i)) framebuffer = (List.range n).map pixel := by
  have part : ∀ k ≤ n, (List.range k).foldl (fun fb i => fb.set i (pixel i)) framebuffer =
      (List.range k).map pixel ++ framebuffer.drop k := by
    intro k within
    induction k with
    | zero => rfl
    | succ k ih =>
      rw [List.range_succ,List.foldl_append,ih (Nat.le_of_succ_le within),List.foldl_cons,List.foldl_nil,List.map_append,
        List.set_append_right _ _ (by simp),List.length_map,List.length_range,Nat.sub_self,
        List.drop_eq_getElem_cons (by omega),List.set_cons_zero,List.map_singleton,List.append_assoc]
      rfl
  rw [part n (Nat.le_refl n),List.drop_of_length_le (Nat.le_of_eq size),List.append_nil]

/- A frame of as many bytes as its configuration says. -/
def VideoFrame.Whole (f : VideoFrame) : Prop :=
  f.data.length = f.config.width.toNat * f.config.height.toNat * f.config.format.bytesPerPixel.toNat

instance (f : VideoFrame) : Decidable f.Whole := inferInstanceAs (Decidable (_ = _))

/- The window shows the frame and nothing else. -/
structure VideoWindow.Shows (v : VideoWindow) (f : VideoFrame) : Prop where
  width : v.width = f.config.width.toNat
  height : v.height = f.config.height.toNat
  pixels : v.framebuffer = (List.range (f.config.width.toNat * f.config.height.toNat)).map (decode f.config.format f.data)

theorem convertWhole {v : VideoWindow} {bytes : Nat} {data : List Byte} (enough : v.pixelCount * bytes ≤ data.length)
    (tooSmall : String) (pixel : List Byte → Nat → Word) :
    (v.convert bytes tooSmall pixel data).1 = .ok () ∧ (v.convert bytes tooSmall pixel data).2.width = v.width ∧
      (v.convert bytes tooSmall pixel data).2.height = v.height ∧
      (v.convert bytes tooSmall pixel data).2.framebuffer = (List.range v.pixelCount).map (pixel data) := by
  rw [VideoWindow.convert,if_neg (Nat.not_lt_of_le enough)]
  exact ⟨rfl,rfl,rfl,setsMap (pixel data) v.size⟩

theorem convertR8Whole {v : VideoWindow} {data : List Byte} (enough : v.pixelCount ≤ data.length) :
    (v.convertR8 data).1 = .ok () ∧ (v.convertR8 data).2.width = v.width ∧ (v.convertR8 data).2.height = v.height ∧
      (v.convertR8 data).2.framebuffer = (List.range v.pixelCount).map (decode .r8 data) := by
  have size : v.framebuffer.length = v.pixelCount := v.size
  have both : ((v.framebuffer.zip data).take v.pixelCount).length = v.pixelCount := by
    rw [List.length_take,List.length_zip]
    omega
  rw [VideoWindow.convertR8,if_neg (Nat.not_lt_of_le enough)]
  refine ⟨rfl,rfl,rfl,?_⟩
  simp only [both]
  rw [List.drop_of_length_le (Nat.le_of_eq size),List.append_nil]
  apply List.ext_getElem
  · rw [List.length_map,both,List.length_map,List.length_range]
  · intro i inside inside'
    rw [List.length_map,List.length_range] at inside'
    simp only [List.getElem_map,List.getElem_take,List.getElem_zip,List.getElem_range,decode]
    rw [← List.getElem_eq_getD (h := by omega)]

theorem processWhole (v : VideoWindow) {f : VideoFrame} (whole : f.Whole) :
    (v.processVideoFrame f.data f.config).1 = .ok () ∧ (v.processVideoFrame f.data f.config).2.Shows f := by
  obtain ⟨data,⟨width,height,format⟩⟩ := f
  have sized : ∃ w : VideoWindow, w.width = width.toNat ∧ w.height = height.toNat ∧
      (if width.toNat ≠ v.width ∨ height.toNat ≠ v.height then v.resize width.toNat height.toNat else v) = w := by
    split
    · exact ⟨_,rfl,rfl,rfl⟩
    · rename_i same
      exact ⟨v,by omega,by omega,rfl⟩
  obtain ⟨w,wide,high,same⟩ := sized
  have count : w.pixelCount = width.toNat * height.toNat := congr (congrArg (· * ·) wide) high
  unfold VideoFrame.Whole at whole
  simp only [VideoWindow.processVideoFrame,same]
  cases format with
  | rgba8 =>
    obtain ⟨ok,width',height',pixels⟩ := @convertWhole w 4 data (count ▸ whole.ge)
      "Frame data too small for RGBA8 format" pixelRgba8
    exact ⟨ok,width'.trans wide,height'.trans high,count ▸ pixels⟩
  | rgb8 =>
    obtain ⟨ok,width',height',pixels⟩ := @convertWhole w 3 data (count ▸ whole.ge)
      "Frame data too small for RGB8 format" pixelRgb8
    exact ⟨ok,width'.trans wide,height'.trans high,count ▸ pixels⟩
  | rgb565 =>
    obtain ⟨ok,width',height',pixels⟩ := @convertWhole w 2 data (count ▸ whole.ge)
      "Frame data too small for RGB565 format" pixelRgb565
    exact ⟨ok,width'.trans wide,height'.trans high,count ▸ pixels⟩
  | r8 =>
    obtain ⟨ok,width',height',pixels⟩ := @convertR8Whole w data
      (count ▸ (whole.trans (Nat.mul_one _)).ge)
    exact ⟨ok,width'.trans wide,height'.trans high,count ▸ pixels⟩

theorem updateWhole (v : VideoWindow) {frames : List VideoFrame} (whole : ∀ f ∈ frames, f.Whole) {last : VideoFrame}
    (whole' : last.Whole) : ∃ w : VideoWindow, v.update (frames ++ [last]) = (.ok (),[],w) ∧ w.Shows last := by
  induction frames generalizing v with
  | nil =>
    obtain ⟨ok,shows⟩ := processWhole v whole'
    refine ⟨_,?_,shows⟩
    simp only [List.nil_append,VideoWindow.update]
    rw [← Prod.mk.eta (p := v.processVideoFrame last.data last.config),ok]
  | cons f rest ih =>
    obtain ⟨ok,-⟩ := processWhole v (whole f (by simp))
    obtain ⟨w,updated,shows⟩ := ih (v.processVideoFrame f.data f.config).2 fun g mem => whole g (by simp [mem])
    refine ⟨w,?_,shows⟩
    simp only [List.cons_append,VideoWindow.update]
    rw [← Prod.mk.eta (p := v.processVideoFrame f.data f.config),ok]
    exact updated

/- Whatever was pushed, dropped and pulled before, an update of the window takes what is in the shared buffer and shows the
frame that was pushed last. -/
theorem latestShown (window : VideoWindow) (ops : List (DropOldest.Op VideoFrame)) {frame : VideoFrame}
    (whole : ∀ f ∈ videoBuffer.history DropOldest.entering [] (ops ++ [.push frame]), f.Whole) :
    ∃ after : VideoWindow, window.update (videoBuffer.final [] (ops ++ [.push frame])) = (.ok (),[],after) ∧
      after.Shows frame := by
  obtain ⟨kept,-⟩ := @DropOldest.delivered _ maxVideoFrames (by decide) (ops ++ [.push frame])
  have whole' : ∀ f ∈ videoBuffer.final [] (ops ++ [.push frame]), f.Whole := fun f mem =>
    whole f (kept ▸ List.mem_append_right _ mem)
  obtain ⟨earlier,last⟩ : ∃ earlier, videoBuffer.final [] (ops ++ [.push frame]) = earlier ++ [frame] :=
    ⟨_,Mealy.Machine.finalAppend _ _ _ _⟩
  rw [last] at whole' ⊢
  exact updateWhole window (fun f mem => whole' f (List.mem_append_left _ mem)) (whole' frame (by simp))

/- One frame is pulled before, two are taken. -/
theorem latestShownPixel : ∃ after : VideoWindow, (VideoWindow.new 2 1).update (videoBuffer.final []
    ([.push ⟨[5],⟨1,1,.r8⟩⟩,.pop,.push ⟨[7],⟨1,1,.r8⟩⟩] ++ [.push ⟨[8],⟨1,1,.r8⟩⟩])) = (.ok (),[],after) ∧
      after.framebuffer = [0x080808] := by
  obtain ⟨after,updated,shows⟩ := @latestShown (VideoWindow.new 2 1)
    [.push ⟨[5],⟨1,1,.r8⟩⟩,.pop,.push ⟨[7],⟨1,1,.r8⟩⟩] ⟨[8],⟨1,1,.r8⟩⟩ (by decide)
  exact ⟨after,updated,shows.pixels.trans (by decide)⟩

theorem presentWhole {v : VideoWindow} {f : VideoFrame} (shows : v.Shows f) {k : Nat}
    (inside : k < f.config.width.toNat * f.config.height.toNat) :
    (v.present (f.config.width.toNat * f.config.height.toNat))[k]? = some (decode f.config.format f.data k) := by
  have size : v.framebuffer.length = f.config.width.toNat * f.config.height.toNat := by
    rw [shows.pixels,List.length_map,List.length_range]
  rw [VideoWindow.present]
  simp only [size,Nat.min_self,Nat.sub_self,List.replicate_zero,List.append_nil]
  rw [List.take_of_length_le (Nat.le_of_eq size),shows.pixels,List.getElem?_map,List.getElem?_range inside]
  rfl

theorem decodeSlice (format : VideoFormat) (data : List Byte) (i : Nat) :
    decode format data i =
      decode format ((data.drop (i * format.bytesPerPixel.toNat)).take format.bytesPerPixel.toNat) 0 := by
  have slice : ∀ n k : Nat, k < n → ((data.drop (i * n)).take n).getD k 0 = data.getD (i * n + k) 0 := by
    intro n k within
    rw [List.getD_eq_getElem?_getD,List.getD_eq_getElem?_getD,List.getElem?_take_of_lt within,List.getElem?_drop]
  cases format with
  | rgba8 =>
    show colour _ _ _ = colour (((data.drop (i * 4)).take 4).getD 0 0) (((data.drop (i * 4)).take 4).getD 1 0)
      (((data.drop (i * 4)).take 4).getD 2 0)
    rw [slice 4 0 (by decide),slice 4 1 (by decide),slice 4 2 (by decide)]
    rfl
  | rgb8 =>
    show colour _ _ _ = colour (((data.drop (i * 3)).take 3).getD 0 0) (((data.drop (i * 3)).take 3).getD 1 0)
      (((data.drop (i * 3)).take 3).getD 2 0)
    rw [slice 3 0 (by decide),slice 3 1 (by decide),slice 3 2 (by decide)]
    rfl
  | rgb565 =>
    show colour565 _ = colour565 (LittleEndian.word 16
      [((data.drop (i * 2)).take 2).getD 0 0,((data.drop (i * 2)).take 2).getD 1 0])
    rw [slice 2 0 (by decide),slice 2 1 (by decide)]
    rfl
  | r8 =>
    show colour _ _ _ = colour (((data.drop (i * 1)).take 1).getD 0 0) (((data.drop (i * 1)).take 1).getD 0 0)
      (((data.drop (i * 1)).take 1).getD 0 0)
    rw [slice 1 0 (by decide),Nat.mul_one]
    rfl

theorem packedFields (r g b : Byte) :
    ((packed565 r g b >>> 11) &&& 0x1F).setWidth 8 = r >>> 3 ∧ ((packed565 r g b >>> 5) &&& 0x3F).setWidth 8 = g >>> 2 ∧
      (packed565 r g b &&& 0x1F).setWidth 8 = b >>> 3 := by
  refine ⟨?_,?_,?_⟩ <;> apply BitVec.eq_of_getLsbD_eq <;> intro i inside
  all_goals interval_cases i <;> simp [packed565]

theorem decodeDrawn (format : VideoFormat) (d : Draw) : decode format (pixelBytes format d) 0 = shown format d := by
  cases format with
  | rgb565 =>
    obtain ⟨red,green,blue⟩ := packedFields d.r d.g d.b
    have word : LittleEndian.word 16 (LittleEndian.bytes 2 (packed565 d.r d.g d.b).toNat) = packed565 d.r d.g d.b :=
      LittleEndian.wordBytes (m := 2) (packed565 d.r d.g d.b)
    show colour565 (LittleEndian.word 16 (LittleEndian.bytes 2 (packed565 d.r d.g d.b).toNat)) = _
    rw [word,colour565,shown]
    simp only [red,green,blue]
  | rgba8 => rfl
  | rgb8 => rfl
  | r8 => rfl

theorem canvas {value framebufferBase : Word} {config : VideoConfig} (valid : VideoConfig.fromRegister value = some config)
    (low : 0x80000000 ≤ framebufferBase.toNat)
    (high : framebufferBase.toNat + config.width.toNat * config.height.toNat * config.format.bytesPerPixel.toNat ≤ 0x90000000) :
    Canvas framebufferBase config := by
  obtain ⟨format,-,rfl⟩ := Option.map_eq_some_iff.mp valid
  have width := Devices.maskedSucc value 0xFFF (k := 12) (by decide) (by decide)
  have height := Devices.maskedSucc (value >>> 12) 0xFFF (k := 12) (by decide) (by decide)
  have inside : value.toNat % 2 ^ 12 < 2 ^ 12 := Nat.mod_lt _ (by decide)
  have inside' : (value >>> 12).toNat % 2 ^ 12 < 2 ^ 12 := Nat.mod_lt _ (by decide)
  exact ⟨width ▸ inside,height ▸ inside',low,high⟩

section Canvas
variable {framebufferBase : Word} {config : VideoConfig} (canvas : Canvas framebufferBase config)
include canvas

theorem totalPixels : config.totalBytes.toNat = config.width.toNat * config.height.toNat * config.format.bytesPerPixel.toNat := by
  have area := Nat.mul_le_mul canvas.width canvas.height
  have bytes := Nat.mul_le_mul area (bytesFew config.format).2
  exact Devices.toNatMul (Devices.toNatMul rfl rfl (by omega)) rfl (by omega)

theorem frameSlice (m : Memory 32) {x y : Word} (column : x < config.width) (row : y < config.height) :
    (((ByteMemory.load (visible m) framebufferBase config.totalBytes.toNat).drop
        ((y.toNat * config.width.toNat + x.toNat) * config.format.bytesPerPixel.toNat)).take config.format.bytesPerPixel.toNat) =
      ByteMemory.load m (pixelAddr framebufferBase config x y) config.format.bytesPerPixel.toNat := by
  obtain ⟨place,index⟩ := pixelPlace canvas column row
  have ends := pixelEnd canvas column row
  have low := canvas.low
  have total := totalPixels canvas
  have step := Nat.mul_le_mul_right config.format.bytesPerPixel.toNat index
  rw [Nat.succ_mul,← total] at step
  generalize (y.toNat * config.width.toNat + x.toNat) * config.format.bytesPerPixel.toNat = offset at place step ⊢
  generalize config.format.bytesPerPixel.toNat = n at ends step ⊢
  apply List.ext_getElem
  · simp only [List.length_take,List.length_drop,ByteMemory.loadLength]
    omega
  · intro k inside inside'
    rw [ByteMemory.loadLength] at inside'
    have addr : framebufferBase + BitVec.ofNat 32 (offset + k) = pixelAddr framebufferBase config x y + BitVec.ofNat 32 k := by
      apply BitVec.eq_of_toNat_eq
      rw [BitVec.toNat_add,BitVec.toNat_add,place,BitVec.toNat_ofNat,BitVec.toNat_ofNat,Nat.add_mod_mod,Nat.add_mod_mod,
        Nat.add_assoc]
    have inDram : Devices.InDram (pixelAddr framebufferBase config x y + BitVec.ofNat 32 k) := by
      rw [Devices.InDram,BitVec.toNat_add,BitVec.toNat_ofNat,Nat.add_mod_mod,Nat.mod_eq_of_lt (by omega)]
      omega
    simp only [List.getElem_take,List.getElem_drop,ByteMemory.load,List.getElem_map,List.getElem_range,addr]
    exact if_pos inDram

end Canvas

theorem presentDelivers (m : Memory 32) {v : Video} (idle : v.activePresent = none) (callback : v.presentCallback = true)
    {config : VideoConfig} (valid : VideoConfig.fromRegister v.videoConfig = some config) (value : Word) :
    let buffer := ByteMemory.load (visible m) v.videoAddr config.totalBytes.toNat
    ∃ n, 0 < n ∧ n ≤ config.totalBytes.toNat ∧
      Delivers (Video.machine m) Video.activePresent Video.clock (Video.presented m) buffer [(buffer,config)] n
        (Video.next m v (.write 0x0C value)) := by
  intro buffer
  have present := Devices.videoBytes valid
  have started : Video.next m v (.write 0x0C value) =
      {v with activePresent := some ⟨v.videoAddr,config.totalBytes,[],config⟩} := by
    change v.startPresent = _
    rw [Video.startPresent,idle,if_neg (by decide),valid]
    exact if_neg present
  obtain ⟨n,positive,bound,delivers⟩ := Devices.deliversRun (Devices.videoPresents m true)
    (Devices.readingStart m v.videoAddr config.totalBytes config) present
  rw [started]
  exact ⟨n,positive,bound,delivers _ callback rfl⟩

/- A guest draws and starts a present: after as many clock cycles as the device takes, whatever else is written to it, the
frame goes out once, no window refuses it, and each place shows the last pixel that was drawn there, or what the memory held. -/
theorem drawnShown (m : Memory 32) {v : Video} (idle : v.activePresent = none) (callback : v.presentCallback = true)
    {config : VideoConfig} (valid : VideoConfig.fromRegister v.videoConfig = some config)
    (low : 0x80000000 ≤ v.videoAddr.toNat)
    (high : v.videoAddr.toNat + config.width.toNat * config.height.toNat * config.format.bytesPerPixel.toNat ≤ 0x90000000)
    {draws : List Draw} (within : ∀ d ∈ draws, d.Within config) (value : Word)
    (window : VideoWindow) {earlier : List VideoFrame} (whole : ∀ f ∈ earlier, f.Whole) :
    let drawn := draws.foldl (draw v.videoAddr config) m
    ∃ (frame : VideoFrame) (n : Nat) (after : VideoWindow), 0 < n ∧ n ≤ config.totalBytes.toNat ∧
      Delivers (Video.machine drawn) Video.activePresent Video.clock (Video.presented drawn) frame.data
        [(frame.data,frame.config)] n (Video.next drawn v (.write 0x0C value)) ∧
      window.update (earlier ++ [frame]) = (.ok (),[],after) ∧
      after.width = config.width.toNat ∧ after.height = config.height.toNat ∧
      ∀ x y : Word, x < config.width → y < config.height →
        (after.present (after.width * after.height))[y.toNat * after.width + x.toNat]? =
          some (((lastAt draws x y).map (shown config.format)).getD (decode config.format
            (ByteMemory.load m (pixelAddr v.videoAddr config x y) config.format.bytesPerPixel.toNat) 0)) := by
  intro drawn
  have place := canvas valid low high
  obtain ⟨n,positive,bound,delivers⟩ := presentDelivers drawn idle callback valid value
  let frame : VideoFrame := ⟨ByteMemory.load (visible drawn) v.videoAddr config.totalBytes.toNat,config⟩
  have whole' : frame.Whole := (ByteMemory.loadLength _ _ _).trans (totalPixels place)
  obtain ⟨after,updated,shows⟩ := updateWhole window whole whole'
  refine ⟨frame,n,after,positive,bound,delivers,updated,shows.width,shows.height,fun x y column row => ?_⟩
  obtain ⟨-,index⟩ := pixelPlace place column row
  rw [shows.width,shows.height,presentWhole shows index,decodeSlice,frameSlice place drawn column row,
    drawnAt place within column row]
  cases lastAt draws x y with
  | none => rfl
  | some d => exact congrArg some (decodeDrawn config.format d)

/- Two pixels at one place of four, in five, six and five bits. -/
theorem drawnPixel : ∃ (frame : VideoFrame) (after : VideoWindow),
    (VideoWindow.new 3 1).update [frame] = (.ok (),[],after) ∧ (after.present 4)[1]? = some 0x00FF8208 ∧
      (after.present 4)[2]? = some 0 := by
  obtain ⟨frame,n,after,-,-,-,updated,width,height,pixels⟩ := @drawnShown (fun _ => 0) ⟨0x80000000,0x02001001,none,none,true⟩
    rfl rfl ⟨2,2,.rgb565⟩ (by decide) (by decide) (by decide) [⟨1,0,1,2,3,4⟩,⟨1,0,0xFF,0x80,0x08,0⟩] (by decide) 0
    (VideoWindow.new 3 1) [] (by simp)
  rw [width,height] at pixels
  exact ⟨frame,after,updated,(pixels 1 0 (by decide) (by decide)).trans (by decide),
    (pixels 0 1 (by decide) (by decide)).trans (by decide)⟩

end RiscvSoc.View
