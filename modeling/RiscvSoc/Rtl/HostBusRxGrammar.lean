import RiscvSoc.Rtl.HostBusRxStream

/-! The packet grammar of the bytes from the host, by itself, and that `host_bus_rx` delivers the
beats that it gives, at whatever pace bytes come and beats are taken. -/
namespace RiscvSoc.HostBus.Rx
open LittleEndian (Byte byteAt word byteAtWord)
open Mealy Machine

def headerType (ctrl0 : Byte) : BitVec 4 := ctrl0.extractLsb' 4 4

def headerInfo (ctrl0 ctrl1 : Byte) (len addr : List Byte) : Meta :=
  ⟨ctrl1.getLsbD 0,ctrl0.extractLsb' 2 2,ctrl0.getLsbD 1,ctrl0.getLsbD 0,word 16 len,word 32 addr⟩

def startsPacket (ctrl0 : Byte) : Bool :=
  (headerType ctrl0 == 1 || headerType ctrl0 == 2) && ctrl0.extractLsb' 2 2 != 3

def payloadBeats (req : Bool) (info : Meta) (width : Nat) : Nat → Bool → List Byte → List Beat
  | 0, _, _ => []
  | more + 1, start, bytes =>
    if bytes.length < width then []
    else ⟨start,more == 0,req,info,word 32 (bytes.take width)⟩ :: payloadBeats req info width more false (bytes.drop width)

def grammar : List Byte → List Beat
  | [] => []
  | ctrl0 :: rest =>
    if !startsPacket ctrl0 then grammar rest
    else match rest with
      | [] => []
      | ctrl1 :: rest =>
        if ctrl1.extractLsb' 1 7 ≠ 0 then grammar rest
        else match rest with
          | len0 :: len1 :: addr0 :: addr1 :: addr2 :: addr3 :: rest =>
            let info := headerInfo ctrl0 ctrl1 [len0,len1] [addr0,addr1,addr2,addr3]
            let req := headerType ctrl0 == 2
            let width := (HostBus.beatBytes info.size).toNat
            let beats := info.burstLenM1.toNat + 1
            if carries (headerType ctrl0) info.we then
              payloadBeats req info width beats true rest ++ grammar (rest.drop (width * beats))
            else ⟨true,true,req,info,0⟩ :: grammar rest
          | _ => []
  termination_by bytes => bytes.length
  decreasing_by all_goals (simp only [List.length_cons,List.length_drop]; omega)

theorem headerBytes {ctrl0 ctrl1 : Byte} (reserved : ctrl1.extractLsb' 1 7 = 0) (len0 len1 addr0 addr1 addr2 addr3 : Byte) :
    header (headerType ctrl0) (headerInfo ctrl0 ctrl1 [len0,len1] [addr0,addr1,addr2,addr3]) =
      [ctrl0,ctrl1,len0,len1,addr0,addr1,addr2,addr3] := by
  have first : ∀ c : Byte, c.extractLsb' 4 4 ++ c.extractLsb' 2 2 ++ BitVec.ofBool (c.getLsbD 1) ++
      BitVec.ofBool (c.getLsbD 0) = c := by decide
  have second : ∀ c : Byte, c.extractLsb' 1 7 = 0 → (BitVec.ofBool (c.getLsbD 0)).setWidth 8 = c := by decide
  have len (k : Nat) (inside : k < 2) : byteAt (word 16 [len0,len1]) k = [len0,len1].getD k 0 := by
    rw [byteAtWord _ (by omega)]
  have addr (k : Nat) (inside : k < 4) : byteAt (word 32 [addr0,addr1,addr2,addr3]) k = [addr0,addr1,addr2,addr3].getD k 0 := by
    rw [byteAtWord _ (by omega)]
  simp only [header,headerType,headerInfo,first,second ctrl1 reserved,len 0 (by decide),len 1 (by decide),addr 0 (by decide),
    addr 1 (by decide),addr 2 (by decide),addr 3 (by decide)]
  rfl

theorem parseFront {s t : Regs} {xs ys zs : List Byte} (silent : Parses s xs [] t) (split : xs = ys ++ zs) : parse s ys = [] := by
  have all := (silent []).1
  rw [List.append_nil,split,parseAppend] at all
  exact (List.append_eq_nil_iff.mp all).1

theorem headerCut {s : Regs} (idle : s.state = .idle) (free : s.outValid = false) {packetType info}
    (known : packetType = 0b0001 ∨ packetType = 0b0010) (size : info.size ≠ 0b11) {ys zs : List Byte}
    (split : header packetType info = ys ++ zs) (short : zs ≠ []) : parse s ys = [] := by
  obtain ⟨xs,b,u,whole,silent,_⟩ := headerBegun idle free known size
  obtain ⟨front,last,rfl⟩ : ∃ front last, zs = front ++ [last] := ⟨_,_,(List.dropLast_concat_getLast short).symm⟩
  rw [whole,← List.append_assoc] at split
  exact parseFront silent (List.append_inj' split rfl).1

theorem beatCut {s : Regs} (payload : s.state = .payload) (free : s.outValid = false)
    (fresh : s.beatByteIdx = 0 ∧ s.beatAccum = 0) (width : s.beatBytes.toNat ≤ 4) {bytes : List Byte}
    (short : bytes.length < s.beatBytes.toNat) : parse s bytes = [] := by
  let pad : List Byte := List.replicate (s.beatBytes.toNat - bytes.length) 0
  have nonempty : pad ≠ [] := by
    intro absent
    have length := congrArg List.length absent
    simp only [pad,List.length_replicate,List.length_nil] at length
    omega
  obtain ⟨xs,b,u,split,silent,_⟩ := beatBegun payload free width [] (bytes ++ pad) (by simp [nonempty]) (by simp [fresh.1])
    (by rw [fresh.2]; rfl) (by simp [pad]; omega)
  obtain ⟨front,last,back⟩ : ∃ front last, pad = front ++ [last] := ⟨_,_,(List.dropLast_concat_getLast nonempty).symm⟩
  rw [back,← List.append_assoc] at split
  exact parseFront silent (List.append_inj' split rfl).1.symm

theorem payloadRead {s : Regs} (more : Nat) (payload : s.state = .payload) (free : s.outValid = false)
    (fresh : s.beatByteIdx = 0 ∧ s.beatAccum = 0) (width : 0 < s.beatBytes.toNat ∧ s.beatBytes.toNat ≤ 4)
    (count : s.beatsRemaining.toNat = more + 1) (start : Bool) (first : start = decide (s.beatsRemaining = s.burstLen))
    (within : s.beatsRemaining.toNat ≤ s.burstLen.toNat) (bytes : List Byte) : ∃ t, t.state = .idle ∧ t.outValid = false ∧
      parse s bytes = payloadBeats (s.packetType == 0b0010) s.info s.beatBytes.toNat (more + 1) start bytes ++
        parse t (bytes.drop (s.beatBytes.toNat * (more + 1))) := by
  induction more generalizing s start bytes with
  | zero =>
    rw [payloadBeats,Nat.zero_add,Nat.mul_one]
    split
    · rename_i short
      refine ⟨{s with state := .idle},rfl,free,?_⟩
      rw [beatCut payload free fresh width.2 short,List.drop_eq_nil_of_le (by omega)]
      rfl
    · rename_i whole
      have length : (bytes.take s.beatBytes.toNat).length = s.beatBytes.toNat := by rw [List.length_take]; omega
      obtain ⟨_,beat,ends,_⟩ := beatParsed payload free fresh width.2 (List.ne_nil_of_length_pos (by omega)) length count first within
      refine ⟨_,ends rfl,rfl,?_⟩
      have parses := (beat (bytes.drop s.beatBytes.toNat)).1
      rwa [List.take_append_drop] at parses
  | succ more ih =>
    rw [payloadBeats]
    split
    · rename_i short
      refine ⟨{s with state := .idle},rfl,free,?_⟩
      rw [beatCut payload free fresh width.2 short,List.drop_eq_nil_of_le (by rw [Nat.mul_succ]; omega)]
      rfl
    · rename_i whole
      have length : (bytes.take s.beatBytes.toNat).length = s.beatBytes.toNat := by rw [List.length_take]; omega
      obtain ⟨_,beat,_,goesOn⟩ := beatParsed payload free fresh width.2 (List.ne_nil_of_length_pos (by omega)) length count first within
      obtain ⟨state,less,below⟩ := goesOn (by omega)
      generalize later : (s.beatDone (word 32 (bytes.take s.beatBytes.toNat))).released = t at *
      have same : t.burstLen = s.burstLen ∧ t.beatBytes = s.beatBytes ∧ t.packetType = s.packetType ∧ t.info = s.info ∧
          t.outValid = false ∧ t.beatByteIdx = 0 ∧ t.beatAccum = 0 := by
        subst later
        exact ⟨rfl,rfl,rfl,rfl,rfl,rfl,rfl⟩
      obtain ⟨burst,wide,type,info,free',fresh'⟩ := same
      obtain ⟨u,idle,free'',rest⟩ := ih state free' fresh' (by rw [wide]; exact width) less false (by rw [burst]; exact below.symm)
        (by rw [burst]; omega) (bytes.drop s.beatBytes.toNat)
      refine ⟨u,idle,free'',?_⟩
      have parses := (beat (bytes.drop s.beatBytes.toNat)).1
      rw [List.take_append_drop] at parses
      rw [parses,rest,type,info,wide,List.drop_drop,Nat.mul_succ _ (more + 1),Nat.add_comm (s.beatBytes.toNat * (more + 1))]
      rfl

theorem startsKnown {ctrl0 : Byte} : startsPacket ctrl0 = true ↔
    (ctrl0.extractLsb' 4 4 = 0b0001 ∨ ctrl0.extractLsb' 4 4 = 0b0010) ∧ ctrl0.extractLsb' 2 2 ≠ 0b11 := by
  simp only [startsPacket,headerType,Bool.and_eq_true,Bool.or_eq_true,beq_iff_eq,bne_iff_ne]

theorem takeFirst {s : Regs} (idle : s.state = .idle) (free : s.outValid = false) (ctrl0 : Byte) :
    ∃ t : Regs, Parses s [ctrl0] [] t ∧ t.outValid = false ∧ t.state = if startsPacket ctrl0 then .ctrl1 else .idle := by
  have quiet : (s.take ctrl0).outValid = false := by simp [Regs.take,idle,Regs.takeCtrl0,free]
  refine ⟨_,.quiet rfl quiet,quiet,?_⟩
  simp only [Regs.take,idle,Regs.takeCtrl0]
  rcases Bool.eq_false_or_eq_true (startsPacket ctrl0) with known | unknown
  · rw [if_pos known,if_pos (startsKnown.mp known)]
  · rw [unknown,if_neg Bool.false_ne_true,if_neg (mt startsKnown.mpr (Bool.eq_false_iff.mp unknown))]

theorem takeReserved {s : Regs} {ctrl1 : Byte} (second : s.state = .ctrl1) (free : s.outValid = false)
    (reserved : ctrl1.extractLsb' 1 7 ≠ 0) : Parses s [ctrl1] [] {s with state := .idle} :=
  .quiet (by simp only [Regs.take,second,Regs.takeCtrl1,if_pos reserved]) free

theorem headerRest {rest : List Byte} (short : ∀ len0 len1 addr0 addr1 addr2 addr3 more,
      rest = len0 :: len1 :: addr0 :: addr1 :: addr2 :: addr3 :: more → False) :
    ∃ len0 len1 addr0 addr1 addr2 addr3 cut, [len0,len1,addr0,addr1,addr2,addr3] = rest ++ cut ∧ cut ≠ [] := by
  match rest, short with
  | [], _ => exact ⟨0,0,0,0,0,0,_,rfl,by simp⟩
  | [a], _ => exact ⟨a,0,0,0,0,0,_,rfl,by simp⟩
  | [a,b], _ => exact ⟨a,b,0,0,0,0,_,rfl,by simp⟩
  | [a,b,c], _ => exact ⟨a,b,c,0,0,0,_,rfl,by simp⟩
  | [a,b,c,d], _ => exact ⟨a,b,c,d,0,0,_,rfl,by simp⟩
  | [a,b,c,d,e], _ => exact ⟨a,b,c,d,e,0,_,rfl,by simp⟩
  | a :: b :: c :: d :: e :: f :: more, short => exact (short a b c d e f more rfl).elim

theorem headerTaken {s : Regs} (idle : s.state = .idle) (free : s.outValid = false) {ctrl0 ctrl1 : Byte}
    (known : startsPacket ctrl0 = true) (plain : ctrl1.extractLsb' 1 7 = 0) (len0 len1 addr0 addr1 addr2 addr3 : Byte) :
    let info := headerInfo ctrl0 ctrl1 [len0,len1] [addr0,addr1,addr2,addr3]
    let bytes := [ctrl0,ctrl1,len0,len1,addr0,addr1,addr2,addr3]
    if carries (headerType ctrl0) info.we then Parses s bytes [] {s.headed (headerType ctrl0) info with state := .payload}
    else ∃ t, t.state = .idle ∧ t.outValid = false ∧ Parses s bytes [⟨true,true,headerType ctrl0 == 2,info,0⟩] t := by
  intro info bytes
  have all : header (headerType ctrl0) info = bytes := headerBytes plain ..
  rw [startsKnown] at known
  have head := @headerParsed s idle free (headerType ctrl0) info known.1 known.2
  have enabled : (s.headed (headerType ctrl0) info).payloadEnabled = carries (headerType ctrl0) info.we := rfl
  rw [all] at head
  simp only [enabled] at head
  split
  · rename_i carried
    have silent : ({s.headed (headerType ctrl0) info with state := .payload} : Regs).waiting = [] := by
      simp [Regs.waiting,Regs.headed,free]
    have same : ({s.headed (headerType ctrl0) info with state := .payload} : Regs).released =
        {s.headed (headerType ctrl0) info with state := .payload} := by simp [Regs.released,Regs.headed,free]
    rwa [if_pos carried,silent,same] at head
  · rename_i bare
    rw [if_neg bare] at head
    exact ⟨_,rfl,rfl,head⟩

theorem parseGrammar (bytes : List Byte) {s : Regs} (idle : s.state = .idle) (free : s.outValid = false) :
    parse s bytes = grammar bytes := by
  induction bytes using grammar.induct generalizing s with
  | case1 => rw [grammar]; rfl
  | case2 ctrl0 rest unknown ih =>
    obtain ⟨t,first,free',state⟩ := takeFirst idle free ctrl0
    rw [Bool.not_eq_true'] at unknown
    rw [unknown] at state
    rw [grammar.eq_def]
    simp only [unknown,Bool.not_false,if_true]
    exact (first rest).1.trans (ih state free')
  | case3 ctrl0 known =>
    obtain ⟨t,first,_⟩ := takeFirst idle free ctrl0
    rw [grammar.eq_def]
    simp only [if_neg known]
    exact (first []).1
  | case4 ctrl0 known ctrl1 rest reserved ih =>
    obtain ⟨t,first,free',state⟩ := takeFirst idle free ctrl0
    rw [grammar.eq_def]
    simp only [if_neg known,if_pos reserved]
    rw [Bool.not_eq_true',Bool.not_eq_false] at known
    rw [known] at state
    exact ((first.silent (takeReserved state free' reserved)) rest).1.trans (ih rfl free')
  | case5 ctrl0 known ctrl1 plain len0 len1 addr0 addr1 addr2 addr3 rest info width beats carried =>
    rename_i ih
    rw [grammar.eq_def]
    simp only [if_neg known,if_neg plain]
    have head := headerTaken idle free (by simpa using known) (by simpa using plain) len0 len1 addr0 addr1 addr2 addr3
    rw [if_pos carried] at head
    obtain ⟨t,idle',free',data⟩ := payloadRead (s := {s.headed (headerType ctrl0) info with state := .payload})
      info.burstLenM1.toNat rfl free ⟨rfl,rfl⟩ (beatBytesRange info.size) (burstLenToNat _) true (by simp [Regs.headed])
      (Nat.le_refl _) rest
    have later : parse t (rest.drop (width * beats)) = _ := ih idle' free'
    exact ((head rest).1.trans data).trans ((congrArg (_ ++ ·) later).trans (if_pos carried).symm)
  | case6 ctrl0 known ctrl1 plain len0 len1 addr0 addr1 addr2 addr3 rest info bare =>
    rename_i ih
    rw [grammar.eq_def]
    simp only [if_neg known,if_neg plain]
    have head := headerTaken idle free (by simpa using known) (by simpa using plain) len0 len1 addr0 addr1 addr2 addr3
    rw [if_neg bare] at head
    obtain ⟨t,idle',free',beat⟩ := head
    exact ((beat rest).1.trans (congrArg (_ ++ ·) (ih idle' free'))).trans (if_neg bare).symm
  | case7 ctrl0 known ctrl1 rest plain short =>
    obtain ⟨len0,len1,addr0,addr1,addr2,addr3,cut,whole,present⟩ := headerRest short
    have all := @headerBytes ctrl0 _ (by simpa using plain) len0 len1 addr0 addr1 addr2 addr3
    rw [whole] at all
    rw [grammar.eq_def]
    simp only [if_neg known,if_neg plain]
    rw [Bool.not_eq_true',Bool.not_eq_false,startsKnown] at known
    exact headerCut idle free known.1 known.2 all present

/- Whatever the pace, the beats are those of the bytes taken by the grammar; the last may wait. -/
theorem framesParsed (s : Regs) (inputs : List Inputs) :
    machine.history delivered (reset s) inputs ++ (machine.final (reset s) inputs).waiting =
      grammar (machine.history taken (reset s) inputs) := by
  rw [(stream (reset s) inputs).1]
  exact parseGrammar _ rfl rfl

end RiscvSoc.HostBus.Rx
