import RiscvSoc.Devices.Present

/-! The pixel functions of `video_helpers.rs`, with which a guest draws into a framebuffer in the DRAM, and what is in the
memory after any sequence of them: at each place the last pixel drawn there. -/
namespace RiscvSoc.View
open LittleEndian (Byte)
open ByteMemory (Memory)
open Devices (VideoConfig VideoFormat)
open Host (Word)

def writeVolatile {n : Nat} (m : Memory 32) (addr : Word) (value : BitVec n) : Memory 32 :=
  ByteMemory.store m addr (LittleEndian.bytes (n / 8) value.toNat)

def writePixelRgba8 (m : Memory 32) (framebufferBase width x y : Word) (r g b a : Byte) : Memory 32 :=
  let offset := (y * width + x) * 4
  let packed : Word := r.setWidth 32 ||| g.setWidth 32 <<< 8 ||| b.setWidth 32 <<< 16 ||| a.setWidth 32 <<< 24
  writeVolatile m (framebufferBase + offset) packed

def writePixelRgb8 (m : Memory 32) (framebufferBase width x y : Word) (r g b : Byte) : Memory 32 :=
  let offset := (y * width + x) * 3
  let addr := framebufferBase + offset
  let rgPacked : BitVec 16 := r.setWidth 16 ||| g.setWidth 16 <<< 8
  writeVolatile (writeVolatile m addr rgPacked) (addr + 2) b

def packed565 (r g b : Byte) : BitVec 16 :=
  let r5 : BitVec 16 := (r >>> 3).setWidth 16
  let g6 : BitVec 16 := (g >>> 2).setWidth 16
  let b5 : BitVec 16 := (b >>> 3).setWidth 16
  r5 <<< 11 ||| g6 <<< 5 ||| b5

def writePixelRgb565 (m : Memory 32) (framebufferBase width x y : Word) (r g b : Byte) : Memory 32 :=
  let offset := (y * width + x) * 2
  writeVolatile m (framebufferBase + offset) (packed565 r g b)

def writePixelR8 (m : Memory 32) (framebufferBase width x y : Word) (gray : Byte) : Memory 32 :=
  let offset := y * width + x
  writeVolatile m (framebufferBase + offset) gray

def writePixel (m : Memory 32) (framebufferBase width x y : Word) (format : VideoFormat) (r g b a : Byte) : Memory 32 :=
  match format with
  | .rgba8 => writePixelRgba8 m framebufferBase width x y r g b a
  | .rgb8 => writePixelRgb8 m framebufferBase width x y r g b
  | .rgb565 => writePixelRgb565 m framebufferBase width x y r g b
  | .r8 => writePixelR8 m framebufferBase width x y r

structure Draw where
  x : Word
  y : Word
  r : Byte
  g : Byte
  b : Byte
  a : Byte
  deriving DecidableEq, Repr

def draw (framebufferBase : Word) (config : VideoConfig) (m : Memory 32) (d : Draw) : Memory 32 :=
  writePixel m framebufferBase config.width d.x d.y config.format d.r d.g d.b d.a

def pixelBytes (format : VideoFormat) (d : Draw) : List Byte := match format with
  | .rgba8 => [d.r,d.g,d.b,d.a]
  | .rgb8 => [d.r,d.g,d.b]
  | .rgb565 => LittleEndian.bytes 2 (packed565 d.r d.g d.b).toNat
  | .r8 => [d.r]

def pixelAddr (framebufferBase : Word) (config : VideoConfig) (x y : Word) : Word :=
  framebufferBase + (y * config.width + x) * config.format.bytesPerPixel

def lastAt (draws : List Draw) (x y : Word) : Option Draw := draws.reverse.find? fun d => d.x = x ∧ d.y = y

def Draw.Within (d : Draw) (config : VideoConfig) : Prop := d.x < config.width ∧ d.y < config.height

instance (d : Draw) (config : VideoConfig) : Decidable (d.Within config) := inferInstanceAs (Decidable (_ ∧ _))

structure Canvas (framebufferBase : Word) (config : VideoConfig) : Prop where
  width : config.width.toNat ≤ 4096
  height : config.height.toNat ≤ 4096
  low : 0x80000000 ≤ framebufferBase.toNat
  high : framebufferBase.toNat + config.width.toNat * config.height.toNat * config.format.bytesPerPixel.toNat ≤ 0x90000000

variable {framebufferBase : Word} {config : VideoConfig} {m : Memory 32}

theorem pixelLength (format : VideoFormat) (d : Draw) : (pixelBytes format d).length = format.bytesPerPixel.toNat := by
  cases format <;> rfl

theorem bytesFew (format : VideoFormat) : 0 < format.bytesPerPixel.toNat ∧ format.bytesPerPixel.toNat ≤ 4 := by
  cases format <;> decide

theorem drawSpec (d : Draw) :
    draw framebufferBase config m d =
      ByteMemory.store m (pixelAddr framebufferBase config d.x d.y) (pixelBytes config.format d) := by
  obtain ⟨width,height,format⟩ := config
  have one : ∀ x : Byte, LittleEndian.bytes 1 x.toNat = [x] := fun x => by simp [LittleEndian.bytes]
  have pair : ∀ n, d.r.setWidth n ||| d.g.setWidth n <<< 8 = LittleEndian.word n [d.r,d.g] := fun n => by
    rw [← Devices.singleWord]
    exact LittleEndian.orByteWord [d.r] d.g
  cases format with
  | rgba8 =>
    have triple : LittleEndian.word 32 [d.r,d.g] ||| d.b.setWidth 32 <<< 16 = LittleEndian.word 32 [d.r,d.g,d.b] :=
      LittleEndian.orByteWord [d.r,d.g] d.b
    have all : LittleEndian.word 32 [d.r,d.g,d.b] ||| d.a.setWidth 32 <<< 24 = LittleEndian.word 32 [d.r,d.g,d.b,d.a] :=
      LittleEndian.orByteWord [d.r,d.g,d.b] d.a
    simp only [draw,writePixel,writePixelRgba8,pair,triple,all,writeVolatile]
    exact congrArg (ByteMemory.store m _)
      (LittleEndian.bytesWord (m := 4) (show [d.r,d.g,d.b,d.a].length ≤ 4 from Nat.le_refl _))
  | rgb8 =>
    have two : LittleEndian.bytes 2 (LittleEndian.word 16 [d.r,d.g]).toNat = [d.r,d.g] :=
      LittleEndian.bytesWord (m := 2) (show [d.r,d.g].length ≤ 2 from Nat.le_refl _)
    simp only [draw,writePixel,writePixelRgb8,pair,writeVolatile]
    show ByteMemory.store (ByteMemory.store m _ (LittleEndian.bytes 2 _)) _ (LittleEndian.bytes 1 d.b.toNat) = _
    rw [two,one]
    exact @ByteMemory.storeAppend _ m _ [d.r,d.g] [d.b] (show 3 ≤ 2 ^ 32 by decide)
  | rgb565 => rfl
  | r8 =>
    simp only [draw,writePixel,writePixelR8,writeVolatile,pixelAddr,VideoFormat.bytesPerPixel,pixelBytes]
    rw [show ∀ offset : Word, offset * 1 = offset from BitVec.mul_one]
    exact congrArg (ByteMemory.store m _) (one d.r)

section Canvas
variable (canvas : Canvas framebufferBase config)
include canvas

theorem pixelPlace {x y : Word} (column : x < config.width) (row : y < config.height) :
    (pixelAddr framebufferBase config x y).toNat =
      framebufferBase.toNat + (y.toNat * config.width.toNat + x.toNat) * config.format.bytesPerPixel.toNat ∧
    y.toNat * config.width.toNat + x.toNat < config.width.toNat * config.height.toNat := by
  have width := canvas.width
  have height := canvas.height
  have high := canvas.high
  have few := bytesFew config.format
  rw [BitVec.lt_def] at column row
  have rows : (y.toNat + 1) * config.width.toNat ≤ config.height.toNat * config.width.toNat := Nat.mul_le_mul_right _ row
  have area : config.height.toNat * config.width.toNat ≤ 4096 * 4096 := Nat.mul_le_mul height width
  rw [Nat.succ_mul] at rows
  have index : y.toNat * config.width.toNat + x.toNat < config.height.toNat * config.width.toNat := by omega
  have bytes : (y.toNat * config.width.toNat + x.toNat) * config.format.bytesPerPixel.toNat ≤
      config.height.toNat * config.width.toNat * config.format.bytesPerPixel.toNat :=
    Nat.mul_le_mul_right _ (Nat.le_of_lt index)
  have small : config.height.toNat * config.width.toNat * config.format.bytesPerPixel.toNat ≤ 4096 * 4096 * 4 :=
    Nat.mul_le_mul area few.2
  rw [Nat.mul_comm config.width.toNat] at high ⊢
  refine ⟨?_,index⟩
  rw [pixelAddr,BitVec.toNat_add,BitVec.toNat_mul,BitVec.toNat_add,BitVec.toNat_mul,
    Nat.mod_eq_of_lt (a := y.toNat * config.width.toNat) (by omega),Nat.mod_eq_of_lt (a := _ + x.toNat) (by omega),
    Nat.mod_eq_of_lt (a := _ * config.format.bytesPerPixel.toNat) (by omega),Nat.mod_eq_of_lt (by omega)]

theorem pixelApart {x y x' y' : Word} (column : x < config.width) (row : y < config.height) (column' : x' < config.width)
    (row' : y' < config.height) (other : ¬ (x = x' ∧ y = y')) :
    (pixelAddr framebufferBase config x y).toNat + config.format.bytesPerPixel.toNat ≤
        (pixelAddr framebufferBase config x' y').toNat ∨
      (pixelAddr framebufferBase config x' y').toNat + config.format.bytesPerPixel.toNat ≤
        (pixelAddr framebufferBase config x y).toNat := by
  rw [(pixelPlace canvas column row).1,(pixelPlace canvas column' row').1]
  rw [BitVec.lt_def] at column column'
  have differ : y.toNat * config.width.toNat + x.toNat ≠ y'.toNat * config.width.toNat + x'.toNat := by
    intro same
    have quotient := congrArg (· / config.width.toNat) same
    have remainder := congrArg (· % config.width.toNat) same
    simp only [Nat.mul_comm _ config.width.toNat,Nat.mul_add_div (Nat.zero_lt_of_lt column),Nat.mul_add_mod,
      Nat.div_eq_of_lt column,Nat.div_eq_of_lt column',Nat.mod_eq_of_lt column,Nat.mod_eq_of_lt column',Nat.add_zero]
      at quotient remainder
    exact other ⟨BitVec.eq_of_toNat_eq remainder,BitVec.eq_of_toNat_eq quotient⟩
  rcases Nat.lt_or_gt_of_ne differ with before | after
  · have step := Nat.mul_le_mul_right config.format.bytesPerPixel.toNat before
    rw [Nat.succ_mul] at step
    exact .inl (by omega)
  · have step := Nat.mul_le_mul_right config.format.bytesPerPixel.toNat after
    rw [Nat.succ_mul] at step
    exact .inr (by omega)

theorem pixelEnd {x y : Word} (column : x < config.width) (row : y < config.height) :
    (pixelAddr framebufferBase config x y).toNat + config.format.bytesPerPixel.toNat ≤ 0x90000000 := by
  obtain ⟨place,index⟩ := pixelPlace canvas column row
  have high := canvas.high
  have step := Nat.mul_le_mul_right config.format.bytesPerPixel.toNat index
  rw [Nat.succ_mul] at step
  omega

theorem drawnAt {draws : List Draw} (within : ∀ d ∈ draws, d.Within config) {x y : Word} (column : x < config.width)
    (row : y < config.height) :
    ByteMemory.load (draws.foldl (draw framebufferBase config) m) (pixelAddr framebufferBase config x y)
        config.format.bytesPerPixel.toNat =
      ((lastAt draws x y).map (pixelBytes config.format)).getD
        (ByteMemory.load m (pixelAddr framebufferBase config x y) config.format.bytesPerPixel.toNat) := by
  induction draws using List.reverseRecOn with
  | nil => rfl
  | append_singleton draws d ih =>
    have before := ih fun d mem => within d (List.mem_append.mpr (.inl mem))
    obtain ⟨column',row'⟩ := within d (by simp)
    have ends := pixelEnd canvas column row
    have ends' := pixelEnd canvas column' row'
    have few := bytesFew config.format
    rw [List.foldl_append,List.foldl_cons,List.foldl_nil,drawSpec,lastAt,List.reverse_append,List.reverse_singleton,
      List.singleton_append,List.find?_cons]
    by_cases here : d.x = x ∧ d.y = y
    · obtain ⟨rfl,rfl⟩ := here
      simp only [and_self,decide_true]
      rw [← pixelLength config.format d]
      exact ByteMemory.loadStore _ _ (by rw [pixelLength]; omega)
    · simp only [here,decide_false]
      rw [← lastAt,← before]
      have apart := pixelApart canvas column' row' column row here
      exact ByteMemory.loadApart _ (by rw [pixelLength]; omega) (by omega) (by rw [pixelLength]; exact apart)

end Canvas

end RiscvSoc.View
