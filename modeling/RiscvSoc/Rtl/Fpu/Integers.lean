import RiscvSoc.Rtl.Fpu.SumAlgebra

/-! Conversions to and from integers. The shift that moves the binary point is right for every
exponent; the bounds are tested by the exponent alone, so the signed ones are missed. -/
namespace RiscvSoc.Fpu
open BitNumbers BinaryFloat PriorityEncoder

def lowest (isSigned : Bool) : Int := if isSigned then -2 ^ 31 else 0
def highest (isSigned : Bool) : Int := if isSigned then 2 ^ 31 - 1 else 2 ^ 32 - 1

def intNumber (isSigned : Bool) (r : BitVec 32) : Int := if isSigned then r.toInt else r.toNat

def nearestInt (isSigned : Bool) (q : ℚ) : Int := max (lowest isSigned) (min (highest isSigned) (towardZero q))

def target (isSigned : Bool) (val : BitVec 32) : Int :=
  if isNan val then highest isSigned
  else if isInf val then if sign val then lowest isSigned else highest isSigned
  else nearestInt isSigned (value val)

def Representable (isSigned : Bool) (val : BitVec 32) : Prop :=
  IsFinite val ∧ lowest isSigned ≤ towardZero (value val) ∧ towardZero (value val) ≤ highest isSigned

structure Converts (isSigned : Bool) (val result : BitVec 32) (invalid : Bool) : Prop where
  number : intNumber isSigned result = target isSigned val
  flag : invalid = false ↔ Representable isSigned val

section magnitude
variable {val : BitVec 32}

theorem intShiftValue (finite : IsFinite val) : (intShift val).toInt = (exponent val).toNat - 127 := by
  have small := exponentSmall finite
  have value : (intShift val).toNat = ((exponent val).toNat + 385) % 512 := by
    rw [intShift,BitVec.toNat_sub,zeroExtended]
    simp only [BitVec.toNat_ofNat]
    omega
  rw [BitVec.toInt_eq_toNat_cond,value]
  split <;> omega

theorem sizeReaches (nonzero : exponent val ≠ 0) (k : Int) : 2 ^ k ≤ size val ↔ k < (exponent val).toNat - 126 := by
  obtain ⟨low,high⟩ := significandBounds val
  have leading := leadingExact (p := 24) ((exponent val).toNat - 150) low high
  rw [← sizeNormal nonzero] at leading
  rw [leadingReaches leading]
  omega

theorem sizeFraction (early : (exponent val).toNat < 127) : size val < 1 := by
  have one : (1 : ℚ) = 2 ^ (0 : Int) := by norm_num
  by_cases zero : exponent val = 0
  · have bits := (fraction val).isLt
    rw [size,if_pos zero]
    calc scaled (fraction val).toNat (-149) < scaled (2 ^ 23) (-149) := scaledLt.mpr bits
      _ = 2 ^ (-126 : Int) := by rw [← Nat.one_mul (2 ^ 23),scaledShift,scaledOne]; norm_num
      _ ≤ 1 := zpow_le_one_of_nonpos₀ (by norm_num) (by norm_num)
  · rw [one,← not_le,sizeReaches zero]
    omega

theorem tempValue {k : Nat} (finite : IsFinite val) (exp : (exponent val).toNat = 127 + k) (within : k ≤ 31) :
    ((tempResult val).toNat : Int) = ⌊size val⌋ := by
  have bits := (significandBounds val).2
  have nonzero : exponent val ≠ 0 := by
    intro nothing
    rw [nothing] at exp
    have zero : 0 = 127 + k := exp
    omega
  have shift : (intShift val).toInt = k := by
    rw [intShiftValue finite,exp]
    omega
  rw [tempResult,shift,sizeNormal nonzero]
  by_cases up : 23 ≤ k
  · have unit : ((exponent val).toNat : Int) - 150 = (k - 23 : Nat) := by omega
    have amount : ((k : Int) - 23).toNat = k - 23 := by omega
    have fits : (significand val).toNat * 2 ^ (k - 23) < 2 ^ 32 := by
      have scaledUp := Nat.mul_lt_mul_of_lt_of_le bits (Nat.pow_le_pow_right (n := 2) (by decide) (show k - 23 ≤ 8 by omega))
        (by decide)
      omega
    rw [if_pos (by omega),unit,floorWhole,amount,BitVec.toNat_shiftLeft,zeroExtended,Nat.shiftLeft_eq,
      Nat.mod_eq_of_lt fits]
  · have unit : ((exponent val).toNat : Int) - 150 = -(23 - k : Nat) := by omega
    have amount : (23 - (k : Int)).toNat = 23 - k := by omega
    rw [if_neg (by omega),unit,floorPart,amount,BitVec.toNat_ushiftRight,zeroExtended,Nat.shiftRight_eq_div_pow]

end magnitude

theorem wholeSigned (val : BitVec 32) :
    towardZero (value val) = if sign val then -⌊size val⌋ else ⌊size val⌋ := by
  have nonneg := sizeNonneg val
  rw [value,signed]
  split
  · exact towardZeroNeg nonneg
  · exact towardZeroNonneg nonneg

structure Returned (isSigned : Bool) (val : BitVec 32) (r : IntResult) : Prop where
  early : (exponent val).toNat < 127 → r = ⟨0,false⟩
  within : ∀ k, (exponent val).toNat = 127 + k → k ≤ 31 →
    r = if sign val then if isSigned then ⟨-tempResult val,false⟩ else ⟨0,true⟩ else ⟨tempResult val,false⟩
  beyond : 159 ≤ (exponent val).toNat → r = ⟨upperBound isSigned,true⟩

theorem finiteReturned (isSigned : Bool) {val : BitVec 32} (finite : IsFinite val) :
    Returned isSigned val (floatToInt val isSigned) := by
  obtain ⟨nan,inf⟩ := finiteClass finite
  have shift := intShiftValue finite
  have nonzero : 127 ≤ (exponent val).toNat → isZero val = false := fun late =>
    nonzeroExponent fun zero => by rw [zero] at late; exact absurd late (by decide)
  have chosen : floatToInt val isSigned = if isZero val then ⟨0,false⟩
      else if (intShift val).toInt < 0 then ⟨0,false⟩
      else if 31 < (intShift val).toInt then ⟨upperBound isSigned,true⟩
      else if sign val then if isSigned then ⟨-tempResult val,false⟩ else ⟨0,true⟩
      else ⟨tempResult val,false⟩ := by
    rw [floatToInt,nan,inf]
    rfl
  rw [chosen,shift]
  constructor
  · intro less
    rw [if_pos (show ((exponent val).toNat : Int) - 127 < 0 by omega),ite_self]
  · intro k exp less
    rw [nonzero (by omega),if_neg Bool.false_ne_true,if_neg (by omega),if_neg (by omega)]
  · intro more
    rw [nonzero (by omega),if_neg Bool.false_ne_true,if_neg (by omega),if_pos (by omega)]

section bounds
variable {val : BitVec 32}

theorem floorNonneg (val : BitVec 32) : 0 ≤ ⌊size val⌋ := Int.floor_nonneg.mpr (sizeNonneg val)

theorem floorReaches (nonzero : exponent val ≠ 0) (k : Nat) :
    ((2 ^ k : Nat) : Int) ≤ ⌊size val⌋ ↔ k + 126 < (exponent val).toNat := by
  have reaches := sizeReaches nonzero k
  rw [zpow_natCast] at reaches
  rw [Int.le_floor]
  push_cast
  rw [reaches]
  omega

theorem floorRange (finite : IsFinite val) : (exponent val).toNat < 127 ∧ ⌊size val⌋ = 0 ∨
    (∃ k, (exponent val).toNat = 127 + k ∧ k ≤ 31 ∧ 1 ≤ ⌊size val⌋ ∧ ((tempResult val).toNat : Int) = ⌊size val⌋) ∨
    159 ≤ (exponent val).toNat ∧ 2 ^ 32 ≤ ⌊size val⌋ := by
  by_cases early : (exponent val).toNat < 127
  · refine .inl ⟨early,?_⟩
    have less : ⌊size val⌋ < 1 := Int.floor_lt.mpr (by exact_mod_cast sizeFraction early)
    have nonneg := floorNonneg val
    omega
  · have nonzero : exponent val ≠ 0 := by
      intro zero
      rw [zero] at early
      exact early (by decide)
    by_cases within : (exponent val).toNat ≤ 158
    · have exp : (exponent val).toNat = 127 + ((exponent val).toNat - 127) := by omega
      have least := (floorReaches nonzero 0).mpr (by omega)
      exact .inr (.inl ⟨_,exp,by omega,least,tempValue finite exp (by omega)⟩)
    · have least := (floorReaches nonzero 32).mpr (by omega)
      exact .inr (.inr ⟨by omega,by exact_mod_cast least⟩)

theorem sizeWhole (whole : 150 ≤ (exponent val).toNat) : size val = ⌊size val⌋ := by
  have nonzero : exponent val ≠ 0 := by
    intro zero
    rw [zero] at whole
    exact absurd whole (by decide)
  have unit : ((exponent val).toNat : Int) - 150 = ((exponent val).toNat - 150 : Nat) := by omega
  rw [sizeNormal nonzero,unit,floorWhole,scaled,zpow_natCast]
  push_cast
  rfl

theorem sizeAtMost : size val ≤ 2 ^ 31 ↔ ⌊size val⌋ ≤ 2 ^ 31 := by
  constructor
  · intro most
    have floor := (Int.floor_le (size val)).trans most
    exact_mod_cast floor
  · intro most
    by_cases whole : 150 ≤ (exponent val).toNat
    · rw [sizeWhole whole]
      exact_mod_cast most
    · have above := Int.lt_floor_add_one (size val)
      have small : ⌊size val⌋ < 2 ^ 23 := by
        by_contra large
        by_cases nothing : exponent val = 0
        · have one : size val < 1 := sizeFraction (by rw [nothing]; decide)
          have zero : ⌊size val⌋ < 1 := Int.floor_lt.mpr (by exact_mod_cast one)
          omega
        · have reached := (floorReaches nothing 23).mp (by push_cast; omega)
          omega
      have next : (⌊size val⌋ : ℚ) + 1 ≤ 2 ^ 31 := by
        have integer : ⌊size val⌋ + 1 ≤ 2 ^ 31 := by omega
        exact_mod_cast integer
      linarith

end bounds

/- The finite values on which the exponent tests are the bounds. -/
def Bounded (isSigned : Bool) (q : ℚ) : Prop :=
  if isSigned then -2 ^ 31 ≤ q ∧ q < 2 ^ 31 ∨ 2 ^ 32 ≤ q else -2 ^ 32 < q

theorem boundedFloor (isSigned : Bool) (val : BitVec 32) : Bounded isSigned (value val) ↔
    if isSigned then
      if sign val then ⌊size val⌋ ≤ 2 ^ 31 else ⌊size val⌋ < 2 ^ 31 ∨ 2 ^ 32 ≤ ⌊size val⌋
    else sign val = true → ⌊size val⌋ < 2 ^ 32 := by
  have nonneg := sizeNonneg val
  have less : ⌊size val⌋ < 2 ^ 31 ↔ size val < 2 ^ 31 := by
    rw [Int.floor_lt]
    norm_num
  have least : 2 ^ 32 ≤ ⌊size val⌋ ↔ 2 ^ 32 ≤ size val := by
    rw [Int.le_floor]
    norm_num
  have under : ⌊size val⌋ < 2 ^ 32 ↔ size val < 2 ^ 32 := by
    rw [Int.floor_lt]
    norm_num
  rw [Bounded,value,signed]
  cases isSigned <;> cases sign val <;>
    simp only [Bool.false_eq_true,if_false,if_true,false_implies,iff_true,forall_const,less,least,under,← sizeAtMost]
  · linarith
  · exact ⟨fun above => by linarith,fun above => by linarith⟩
  · exact or_congr_left ⟨And.right,fun above => ⟨by linarith,above⟩⟩
  · constructor
    · rintro (inside | above) <;> linarith
    · exact fun most => .inl ⟨by linarith,by linarith⟩

theorem boundNumbers (isSigned : Bool) : intNumber isSigned (upperBound isSigned) = highest isSigned ∧
    intNumber isSigned (lowerBound isSigned) = lowest isSigned := by
  cases isSigned <;> decide

theorem zeroNumber (isSigned : Bool) : intNumber isSigned 0 = 0 := by
  cases isSigned <;> rfl

theorem tempNumber (isSigned : Bool) {x : BitVec 32} :
    intNumber isSigned x = if isSigned && decide (2 ^ 31 ≤ x.toNat) then (x.toNat : Int) - 2 ^ 32
      else (x.toNat : Int) := by
  have bound := x.isLt
  cases isSigned with
  | false => rfl
  | true =>
    rw [intNumber,if_pos rfl,BitVec.toInt_eq_toNat_cond]
    by_cases high : 2 ^ 31 ≤ x.toNat
    · rw [if_neg (by omega),Bool.true_and,if_pos (decide_eq_true high)]
      norm_num
    · rw [if_pos (by omega),Bool.true_and,if_neg (by simpa using high)]

theorem convertsFloor {isSigned : Bool} {val : BitVec 32} (finite : IsFinite val) (result : BitVec 32) (invalid : Bool) :
    Converts isSigned val result invalid ↔
      intNumber isSigned result =
        max (lowest isSigned) (min (highest isSigned) (if sign val then -⌊size val⌋ else ⌊size val⌋)) ∧
      (invalid = false ↔ lowest isSigned ≤ (if sign val then -⌊size val⌋ else ⌊size val⌋) ∧
        (if sign val then -⌊size val⌋ else ⌊size val⌋) ≤ highest isSigned) := by
  obtain ⟨nan,inf⟩ := finiteClass finite
  have aimed : target isSigned val = nearestInt isSigned (value val) := by
    rw [target,nan,inf]
    rfl
  rw [← wholeSigned]
  constructor
  · rintro ⟨number,flag⟩
    rw [aimed] at number
    exact ⟨number,flag.trans ⟨And.right,fun inside => ⟨finite,inside⟩⟩⟩
  · rintro ⟨number,flag⟩
    exact ⟨number.trans aimed.symm,flag.trans ⟨fun inside => ⟨finite,inside⟩,And.right⟩⟩

section finite
variable {val : BitVec 32} (finite : IsFinite val)
include finite

theorem unsignedConverts : Converts false val (floatToInt val false).result (floatToInt val false).invalid ↔
    Bounded false (value val) := by
  obtain ⟨early,within,beyond⟩ := finiteReturned false finite
  have nonneg := floorNonneg val
  rw [convertsFloor finite,boundedFloor]
  simp only [Bool.false_eq_true,if_false]
  have low : lowest false = 0 := rfl
  have high : highest false = 2 ^ 32 - 1 := rfl
  have top : intNumber false (upperBound false) = 2 ^ 32 - 1 := rfl
  have zero : intNumber false 0 = 0 := rfl
  rw [low,high]
  rcases floorRange finite with ⟨less,nothing⟩ | ⟨k,exp,small,nonzero,temp⟩ | ⟨more,large⟩
  · simp only [early less,nothing,zero]
    cases sign val <;> simp
  · have bound := (tempResult val).isLt
    have number : intNumber false (tempResult val) = (tempResult val).toNat := rfl
    rw [within k exp small]
    cases sign val <;> simp only [Bool.false_eq_true,if_false,if_true,number,zero,temp,true_iff,false_implies,iff_true,
      forall_const,Bool.true_eq_false,false_iff] <;> omega
  · rw [beyond more]
    cases sign val <;> simp only [Bool.false_eq_true,if_false,if_true,top,false_implies,iff_true,forall_const,
      Bool.true_eq_false,false_iff] <;> omega

theorem signedConverts : Converts true val (floatToInt val true).result (floatToInt val true).invalid ↔
    Bounded true (value val) := by
  obtain ⟨early,within,beyond⟩ := finiteReturned true finite
  have nonneg := floorNonneg val
  rw [convertsFloor finite,boundedFloor]
  simp only [if_true]
  have low : lowest true = -2 ^ 31 := rfl
  have high : highest true = 2 ^ 31 - 1 := rfl
  have top : intNumber true (upperBound true) = 2 ^ 31 - 1 := by decide
  have zero : intNumber true 0 = 0 := rfl
  rw [low,high]
  rcases floorRange finite with ⟨less,nothing⟩ | ⟨k,exp,small,nonzero,temp⟩ | ⟨more,large⟩
  · simp only [early less,nothing,zero]
    cases sign val <;> simp
  · have bound := (tempResult val).isLt
    rw [within k exp small]
    cases sign val with
    | false =>
      have number : intNumber true (tempResult val) = if 2 ^ 31 ≤ (tempResult val).toNat
          then ((tempResult val).toNat : Int) - 2 ^ 32 else ((tempResult val).toNat : Int) := by
        simpa using tempNumber true (x := tempResult val)
      simp only [Bool.false_eq_true,if_false,number,true_iff]
      split <;> omega
    | true =>
      have number : intNumber true (-tempResult val) = if 2 ^ 31 ≤ 2 ^ 32 - (tempResult val).toNat
          then ((2 ^ 32 - (tempResult val).toNat : Nat) : Int) - 2 ^ 32
          else ((2 ^ 32 - (tempResult val).toNat : Nat) : Int) := by
        have negated := tempNumber true (x := -tempResult val)
        rw [BitVec.toNat_neg,Nat.mod_eq_of_lt (by omega)] at negated
        simpa using negated
      simp only [if_true,number,true_iff]
      split <;> omega
  · rw [beyond more]
    cases sign val <;> simp only [Bool.false_eq_true,if_false,if_true,top,Bool.true_eq_false,false_iff] <;> omega

end finite

theorem nonfiniteConverts (isSigned : Bool) {val : BitVec 32} (infinite : ¬ IsFinite val) :
    Converts isSigned val (floatToInt val isSigned).result (floatToInt val isSigned).invalid := by
  obtain ⟨upper,lower⟩ := boundNumbers isSigned
  have unrepresentable : ¬ Representable isSigned val := fun representable => infinite representable.1
  have full : exponent val = 0xFF := not_not.mp infinite
  by_cases nan : isNan val = true
  · have returned : floatToInt val isSigned = ⟨upperBound isSigned,true⟩ := by
      rw [floatToInt,nan]
      rfl
    rw [returned]
    exact ⟨by rw [target,if_pos nan,upper],iff_of_false Bool.true_eq_false.mp unrepresentable⟩
  · have number : isNan val = false := Bool.eq_false_iff.mpr nan
    have inf := notFinite number infinite
    have returned : floatToInt val isSigned = ⟨if sign val then lowerBound isSigned else upperBound isSigned,true⟩ := by
      rw [floatToInt,number,inf]
      cases sign val <;> rfl
    rw [returned]
    refine ⟨?_,iff_of_false Bool.true_eq_false.mp unrepresentable⟩
    rw [target,if_neg nan,if_pos inf]
    cases sign val
    · exact upper
    · exact lower

theorem floatToIntConverts (isSigned : Bool) (val : BitVec 32) :
    Converts isSigned val (floatToInt val isSigned).result (floatToInt val isSigned).invalid ↔
      (IsFinite val → Bounded isSigned (value val)) := by
  by_cases finite : IsFinite val
  · rw [forall_prop_of_true finite]
    cases isSigned with
    | false => exact unsignedConverts finite
    | true => exact signedConverts finite
  · exact iff_of_true (nonfiniteConverts isSigned finite) fun nonzero => absurd nonzero finite

/- The order of the numbers with both infinities. -/
def NotAbove (a b : BitVec 32) : Prop :=
  isInf a = true ∧ sign a = true ∨ isInf b = true ∧ sign b = false ∨
  IsFinite a ∧ IsFinite b ∧ value a ≤ value b

theorem nearestRange (isSigned : Bool) (q : ℚ) : lowest isSigned ≤ nearestInt isSigned q ∧
    nearestInt isSigned q ≤ highest isSigned := by
  rw [nearestInt]
  cases isSigned <;> simp only [lowest,highest,Bool.false_eq_true,if_false,if_true] <;> omega

theorem targetRange (isSigned : Bool) (val : BitVec 32) : lowest isSigned ≤ target isSigned val ∧
    target isSigned val ≤ highest isSigned := by
  have ordered : lowest isSigned ≤ highest isSigned := by cases isSigned <;> decide
  rw [target]
  split
  · exact ⟨ordered,le_rfl⟩
  · split
    · split
      · exact ⟨le_rfl,ordered⟩
      · exact ⟨ordered,le_rfl⟩
    · exact nearestRange ..

theorem targetMono (isSigned : Bool) {a b : BitVec 32} (numberA : isNan a = false) (numberB : isNan b = false)
    (order : NotAbove a b) : target isSigned a ≤ target isSigned b := by
  rcases order with ⟨inf,minus⟩ | ⟨inf,plus⟩ | ⟨finiteA,finiteB,le⟩
  · have least : target isSigned a = lowest isSigned := by
      rw [target,numberA,inf,minus]
      rfl
    rw [least]
    exact (targetRange isSigned b).1
  · have most : target isSigned b = highest isSigned := by
      rw [target,numberB,inf,plus]
      rfl
    rw [most]
    exact (targetRange isSigned a).2
  · obtain ⟨nanA,infA⟩ := finiteClass finiteA
    obtain ⟨nanB,infB⟩ := finiteClass finiteB
    have whole := towardZeroMono le
    simp only [target,nanA,infA,nanB,infB,Bool.false_eq_true,if_false,nearestInt]
    omega

def intOp (isSigned : Bool) : FpuOp := if isSigned then .cvtws else .cvtwus

theorem fcvtWired (s : Regs) (i : Inputs) (isSigned : Bool) (val other : BitVec 32) :
    intResult (i.ask (intOp isSigned) val other) = (floatToInt val isSigned).result ∧
    (fflags s (i.ask (intOp isSigned) val other)).getLsbD 4 = (floatToInt val isSigned).invalid := by
  cases isSigned <;> refine ⟨rfl,?_⟩
  · change (invalidFlag (floatToInt val false).invalid).getLsbD 4 = _
    cases (floatToInt val false).invalid <;> rfl
  · change (invalidFlag (floatToInt val true).invalid).getLsbD 4 = _
    cases (floatToInt val true).invalid <;> rfl

/- FCVT.W.S and FCVT.WU.S convert exactly what the exponent tests bound, and are monotone there. -/
theorem fcvtConverts (s : Regs) (i : Inputs) (isSigned : Bool) :
    (∀ val other, Converts isSigned val (intResult (i.ask (intOp isSigned) val other))
        ((fflags s (i.ask (intOp isSigned) val other)).getLsbD 4) ↔
      (IsFinite val → Bounded isSigned (value val))) ∧
    ∀ a b other, isNan a = false → isNan b = false → NotAbove a b →
      (IsFinite a → Bounded isSigned (value a)) → (IsFinite b → Bounded isSigned (value b)) →
      intNumber isSigned (intResult (i.ask (intOp isSigned) a other)) ≤
        intNumber isSigned (intResult (i.ask (intOp isSigned) b other)) := by
  constructor
  · intro val other
    obtain ⟨result,flag⟩ := fcvtWired s i isSigned val other
    rw [result,flag]
    exact floatToIntConverts isSigned val
  · intro a b other numberA numberB order boundA boundB
    rw [(fcvtWired s i isSigned a other).1,(fcvtWired s i isSigned b other).1,
      ((floatToIntConverts isSigned a).mpr boundA).number,((floatToIntConverts isSigned b).mpr boundB).number]
    exact targetMono isSigned numberA numberB order

/- 2^31 becomes -2^31 without a flag. -/
theorem twoTo31Wraps : intResult (Inputs.ask ⟨true,0,0,0,0,.cvtws⟩ .cvtws 0x4F000000 0) = 0x80000000 ∧
    ¬ Converts true 0x4F000000 (intResult (Inputs.ask ⟨true,0,0,0,0,.cvtws⟩ .cvtws 0x4F000000 0))
      ((fflags reset (Inputs.ask ⟨true,0,0,0,0,.cvtws⟩ .cvtws 0x4F000000 0)).getLsbD 4) := by
  refine ⟨by decide,fun converts => ?_⟩
  have inside := converts.flag.mp (by decide)
  exact absurd inside.2.2 (by decide +kernel)

end RiscvSoc.Fpu
