import RiscvSoc.Isa.DisasmFields
import RiscvSoc.Rtl.Cpu.Decoder

/-! The immediates that the crate's disassembler reads are those of the CPU's decoder. -/
namespace RiscvSoc.Decoder
open Instruction (Word)
open Disasm (getImmI getImmS getImmB getImmU getImmJ)
variable (w : Word)

theorem topSlice {n : Nat} (s : Nat) (last : s + n = 31) : (w.extractLsb' s (n + 1)).msb = (sign w).getLsbD 0 := by
  rw [BitVec.msb_eq_getLsbD_last,sign,BitVec.getLsbD_extractLsb',BitVec.getLsbD_extractLsb',Nat.add_sub_cancel,last]
  simp

theorem immIDecoded : getImmI w = immI w := by
  rw [Disasm.immI]
  exact BitFields.signRepeated 20 _ (topSlice w 20 rfl) (by decide) rfl

theorem immSDecoded : getImmS w = immS w := by
  rw [Disasm.immS]
  refine BitFields.signRepeated 20 _ (s := sign w) ?_ (by decide) ?_
  · rw [BitVec.msb_append]
    exact topSlice w 25 rfl
  · rw [immS,BitVec.append_assoc]
    rfl

theorem immBDecoded : getImmB w = immB w := by
  rw [Disasm.immB]
  refine BitFields.signRepeated 19 _ (s := sign w) ?_ (by decide) ?_
  · rw [BitVec.msb_append]
    exact topSlice w 31 rfl
  · rw [immB,BitVec.append_assoc,BitVec.toNat_cast,BitVec.append_assoc,BitVec.toNat_cast,BitVec.append_assoc,
      BitVec.toNat_cast,BitVec.append_assoc,BitVec.toNat_cast]
    rfl

theorem immJDecoded : getImmJ w = immJ w := by
  rw [Disasm.immJ]
  refine BitFields.signRepeated 11 _ (s := sign w) ?_ (by decide) ?_
  · rw [BitVec.msb_append]
    exact topSlice w 31 rfl
  · rw [immJ,BitVec.append_assoc,BitVec.toNat_cast,BitVec.append_assoc,BitVec.toNat_cast,BitVec.append_assoc,
      BitVec.toNat_cast,BitVec.append_assoc,BitVec.toNat_cast]
    rfl

theorem immUDecoded : getImmU w = immU w := by
  have high : getImmU w = (w.extractLsb' 12 20).setWidth 32 <<< 12 := BitFields.maskHigh w 12 20
  have zeros : _ = (w.extractLsb' 12 20 ++ 0#12).setWidth 32 := BitVec.setWidth_append_eq_shiftLeft_setWidth_or.symm
  rw [BitVec.setWidth_zero,BitVec.or_zero,← high] at zeros
  exact zeros.trans (BitVec.setWidth_eq _)

end RiscvSoc.Decoder
