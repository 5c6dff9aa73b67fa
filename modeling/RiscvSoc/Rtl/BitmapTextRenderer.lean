import RiscvSoc.Lib.BitNumbers

/-! `bitmap_text_renderer.sv` with tiles of 8 by 8 points, as its checks demand, in a map of
`2^columnBits` by `2^rowBits`. The memories answer from outside. -/
namespace RiscvSoc.BitmapTextRenderer
open BitNumbers

structure Tiles where
  columnBits : Nat
  rowBits : Nat
  deriving DecidableEq, Repr

namespace Tiles
variable (t : Tiles)

abbrev columns : Nat := 2 ^ t.columnBits
abbrev rows : Nat := 2 ^ t.rowBits
abbrev scrollXWidth : Nat := t.columnBits + 3
abbrev scrollYWidth : Nat := t.rowBits + 3
abbrev columnWidth : Nat := max 1 t.columnBits
abbrev rowWidth : Nat := max 1 t.rowBits
abbrev charmapAddrWidth : Nat := max 1 (t.columnBits + t.rowBits)

end Tiles

abbrev FontAddr := BitVec 14

structure Regs (t : Tiles) where
  scrolledActiveX : BitVec t.scrollXWidth
  scrolledActiveY : BitVec t.scrollYWidth
  charMemAddr : BitVec t.charmapAddrWidth
  glyphOffsetD0 : BitVec 6
  glyphOffsetD1 : BitVec 6
  glyphOffsetD2 : BitVec 6
  deriving DecidableEq, Repr

structure Inputs (t : Tiles) (xBits yBits : Nat) where
  screenX : BitVec xBits
  screenY : BitVec yBits
  scrollX : BitVec t.scrollXWidth
  scrollY : BitVec t.scrollYWidth
  deriving DecidableEq, Repr

def reset (t : Tiles) : Regs t := ⟨0,0,0,0,0,0⟩

def scrolled {bits width : Nat} (screen : BitVec bits) (scroll : BitVec width) : BitVec width :=
  ((0#1 ++ screen.setWidth width) + (0#1 ++ scroll)).extractLsb' 0 width

variable {t : Tiles} {xBits yBits : Nat}

namespace Regs
variable (s : Regs t)

def tileColumn : BitVec t.columnWidth := (s.scrolledActiveX >>> 3).setWidth _
def tileRow : BitVec t.rowWidth := (s.scrolledActiveY >>> 3).setWidth _
/- The number of columns is a 32-bit constant. -/
def tileRowBaseAddr : BitVec t.charmapAddrWidth := (s.tileRow.setWidth 32 * BitVec.ofNat 32 t.columns).setWidth _
def charMemAddrNext : BitVec t.charmapAddrWidth := s.tileRowBaseAddr + s.tileColumn.setWidth _
def glyphOffset : BitVec 6 := s.scrolledActiveY.extractLsb' 0 3 ++ s.scrolledActiveX.extractLsb' 0 3

def fontMemAddr (charMemRdata : BitVec 8) : FontAddr := charMemRdata ++ s.glyphOffsetD2

def next (i : Inputs t xBits yBits) : Regs t where
  scrolledActiveX := scrolled i.screenX i.scrollX
  scrolledActiveY := scrolled i.screenY i.scrollY
  charMemAddr := s.charMemAddrNext
  glyphOffsetD0 := s.glyphOffset
  glyphOffsetD1 := s.glyphOffsetD0
  glyphOffsetD2 := s.glyphOffsetD1

end Regs

structure Point where
  x : Nat
  y : Nat
  deriving DecidableEq, Repr

def charAddr (t : Tiles) (p : Point) : BitVec t.charmapAddrWidth :=
  BitVec.ofNat _ (p.y / 8 % t.rows * t.columns + p.x / 8 % t.columns)

def glyphAddr (char : BitVec 8) (p : Point) : FontAddr := BitVec.ofNat 14 (char.toNat * 64 + p.y % 8 * 8 + p.x % 8)

theorem scrolledValue {bits width : Nat} (screen : BitVec bits) (scroll : BitVec width) :
    (scrolled screen scroll).toNat = (screen.toNat + scroll.toNat) % 2 ^ width := by
  have first := (screen.setWidth width).isLt
  have second := scroll.isLt
  have carry : (screen.setWidth width).toNat + scroll.toNat < 2 ^ (1 + width) := by
    rw [Nat.pow_add]
    omega
  rw [scrolled,sliceValue,BitVec.toNat_add,zeroExtended,zeroExtended,Nat.mod_eq_of_lt carry,Nat.pow_zero,Nat.div_one,
    BitVec.toNat_setWidth,Nat.mod_add_mod]

structure Scrolled (s : Regs t) (p : Point) : Prop where
  x : s.scrolledActiveX.toNat = p.x % 2 ^ t.scrollXWidth
  y : s.scrolledActiveY.toNat = p.y % 2 ^ t.scrollYWidth

theorem nextScrolled (s : Regs t) (i : Inputs t xBits yBits) :
    Scrolled (s.next i) ⟨i.screenX.toNat + i.scrollX.toNat,i.screenY.toNat + i.scrollY.toNat⟩ :=
  ⟨scrolledValue ..,scrolledValue ..⟩

theorem tileNumber (a b : Nat) : a % 2 ^ (b + 3) / 8 = a / 8 % 2 ^ b := by
  rw [Nat.pow_add,Nat.mul_comm,Nat.mod_mul_right_div_self]

theorem glyphNumber (a b : Nat) : a % 2 ^ (b + 3) % 8 = a % 8 := by
  rw [Nat.pow_add]
  exact Nat.mod_mul_left_mod a (2 ^ b) 8

theorem tileColumnValue {s : Regs t} {p : Point} (h : Scrolled s p) : s.tileColumn.toNat = p.x / 8 % t.columns := by
  have small : p.x / 8 % t.columns < 2 ^ t.columnWidth :=
    Nat.lt_of_lt_of_le (Nat.mod_lt _ (Nat.two_pow_pos _)) (Nat.pow_le_pow_right (by decide) (Nat.le_max_right ..))
  rw [Regs.tileColumn,BitVec.toNat_setWidth,BitVec.toNat_ushiftRight,Nat.shiftRight_eq_div_pow,h.x,tileNumber,
    Nat.mod_eq_of_lt small]

theorem tileRowValue {s : Regs t} {p : Point} (h : Scrolled s p) : s.tileRow.toNat = p.y / 8 % t.rows := by
  have small : p.y / 8 % t.rows < 2 ^ t.rowWidth :=
    Nat.lt_of_lt_of_le (Nat.mod_lt _ (Nat.two_pow_pos _)) (Nat.pow_le_pow_right (by decide) (Nat.le_max_right ..))
  rw [Regs.tileRow,BitVec.toNat_setWidth,BitVec.toNat_ushiftRight,Nat.shiftRight_eq_div_pow,h.y,tileNumber,
    Nat.mod_eq_of_lt small]

theorem charAddrNext {s : Regs t} {p : Point} (fits : t.columnBits + t.rowBits ≤ 12) (h : Scrolled s p) :
    s.charMemAddrNext = charAddr t p := by
  have column : p.x / 8 % t.columns < t.columns := Nat.mod_lt _ (Nat.two_pow_pos _)
  have row : p.y / 8 % t.rows < t.rows := Nat.mod_lt _ (Nat.two_pow_pos _)
  have wide : t.columns ≤ 2 ^ 12 := Nat.pow_le_pow_right (by decide) (by omega)
  have high : t.rows ≤ 2 ^ 12 := Nat.pow_le_pow_right (by decide) (by omega)
  have whole : p.y / 8 % t.rows * t.columns < 2 ^ 32 :=
    Nat.lt_of_lt_of_le (Nat.mul_lt_mul_of_lt_of_le (Nat.lt_of_lt_of_le row high) wide (by decide)) (by decide)
  apply BitVec.eq_of_toNat_eq
  rw [Regs.charMemAddrNext,BitVec.toNat_add,Regs.tileRowBaseAddr,BitVec.toNat_setWidth,BitVec.toNat_mul,
    BitVec.toNat_setWidth,BitVec.toNat_setWidth,BitVec.toNat_ofNat,tileRowValue h,tileColumnValue h,
    Nat.mod_eq_of_lt (by omega : p.y / 8 % t.rows < 2 ^ 32),Nat.mod_eq_of_lt (by omega : t.columns < 2 ^ 32),
    Nat.mod_eq_of_lt whole,Nat.mod_add_mod,Nat.add_mod_mod,charAddr,BitVec.toNat_ofNat]

theorem glyphOffsetValue {s : Regs t} {p : Point} (h : Scrolled s p) :
    s.glyphOffset.toNat = p.y % 8 * 8 + p.x % 8 := by
  rw [Regs.glyphOffset,appendValue,sliceValue,sliceValue,h.x,h.y,Nat.pow_zero,Nat.div_one,Nat.div_one]
  change p.y % 2 ^ (t.rowBits + 3) % 8 * 8 + p.x % 2 ^ (t.columnBits + 3) % 8 = _
  rw [glyphNumber,glyphNumber]

theorem fontAddrValue {s : Regs t} {p : Point} (char : BitVec 8) (offset : s.glyphOffsetD2.toNat = p.y % 8 * 8 + p.x % 8) :
    s.fontMemAddr char = glyphAddr char p := by
  apply BitVec.eq_of_toNat_eq
  rw [Regs.fontMemAddr,appendValue,offset,glyphAddr,BitVec.toNat_ofNat]
  have bound := char.isLt
  omega

end RiscvSoc.BitmapTextRenderer
