import RiscvSoc.Rtl.HostBusRx

/-! What `host_bus_rx` delivers depends on the bytes alone, and the frame of a packet is
delivered as that packet's beats. -/
namespace RiscvSoc.HostBus.Rx
open LittleEndian (Byte byteAt setByte word setByteWord fillTwo fillFour)
open Mealy Machine

theorem parseAppend (s : Regs) (xs ys : List Byte) :
    parse s (xs ++ ys) = parse s xs ++ parse (parsed s xs) ys := by
  induction xs generalizing s with
  | nil => rfl
  | cons byte rest ih => simp [parse,parsed,ih]

theorem parsedAppend (s : Regs) (xs ys : List Byte) : parsed s (xs ++ ys) = parsed (parsed s xs) ys := by
  induction xs generalizing s with
  | nil => rfl
  | cons byte rest ih => simp [parsed,ih]

/- Delivered and waiting beats are the parse of the bytes taken, however the bytes arrive
and the beats are stalled. -/
theorem stream (s : Regs) (inputs : List Inputs) :
    machine.history delivered s inputs ++ (machine.final s inputs).waiting =
      s.waiting ++ parse s.released (machine.history taken s inputs) ∧
    (machine.final s inputs).released = parsed s.released (machine.history taken s inputs) := by
  induction inputs generalizing s with
  | nil => exact ⟨(List.append_nil _).symm,rfl⟩
  | cons i rest ih =>
    obtain ⟨beats,final⟩ := ih (step s i)
    change (delivered s i ++ machine.history delivered (step s i) rest) ++
        (machine.final (step s i) rest).waiting =
      s.waiting ++ parse s.released (taken s i ++ machine.history taken (step s i) rest) ∧
      (machine.final (step s i) rest).released =
        parsed s.released (taken s i ++ machine.history taken (step s i) rest)
    rw [List.append_assoc,beats,final]
    cases valid : s.outValid with
    | true =>
      cases ready : i.packetReady <;>
        simp [delivered,taken,step,Regs.waiting,Regs.released,Regs.packet,valid,ready]
    | false =>
      have same : s.released = s := by cases s; simp_all [Regs.released]
      rw [same]
      cases arrives : i.rxValid <;>
        simp [delivered,taken,step,Regs.waiting,same,valid,arrives,parse,parsed]

def Regs.headed (s : Regs) (packetType : BitVec 4) (info : Meta) : Regs :=
  {s with
    packetType := packetType
    info := info
    beatBytes := HostBus.beatBytes info.size
    burstLen := HostBus.burstLen info.burstLenM1
    beatsRemaining := HostBus.burstLen info.burstLenM1
    beatByteIdx := 0
    beatAccum := 0}

def Regs.metadataOnly (s : Regs) : Regs :=
  {s with outValid := true, outStart := true, outLast := true, outData := 0, state := .idle}

theorem ctrl1Fields : ∀ we : Bool, ((BitVec.ofBool we).setWidth 8).extractLsb' 1 7 = 0 ∧
    ((BitVec.ofBool we).setWidth 8).getLsbD 0 = we := by decide

/- From `s` these bytes give these beats and lead to `t`, whatever bytes follow. -/
def Parses (s : Regs) (bytes : List Byte) (beats : List Beat) (t : Regs) : Prop :=
  ∀ rest, parse s (bytes ++ rest) = beats ++ parse t rest ∧ parsed s (bytes ++ rest) = parsed t rest

namespace Parses

theorem nil (s : Regs) : Parses s [] [] s := fun _ => ⟨rfl,rfl⟩

theorem append {s t u xs ys as bs} (first : Parses s xs as t) (second : Parses t ys bs u) :
    Parses s (xs ++ ys) (as ++ bs) u := by
  intro rest
  obtain ⟨beats,final⟩ := first (ys ++ rest)
  rw [List.append_assoc,beats,final,(second rest).1,(second rest).2,List.append_assoc]
  exact ⟨rfl,rfl⟩

theorem byte {s t : Regs} {b} (same : s.take b = t) : Parses s [b] t.waiting t.released := by
  intro rest
  rw [← same]
  exact ⟨rfl,rfl⟩

theorem quiet {s t : Regs} {b} (same : s.take b = t) (silent : t.outValid = false) :
    Parses s [b] [] t := by
  have first := byte same
  have released : t.released = t := by cases t; simp_all [Regs.released]
  rwa [Regs.waiting,silent,released] at first

theorem silent {s t u xs ys bs} (first : Parses s xs [] t) (second : Parses t ys bs u) :
    Parses s (xs ++ ys) bs u := first.append second

end Parses

def Closes (s : Regs) (bytes : List Byte) : Prop := ∃ xs b, bytes = xs ++ [b] ∧ ((parsed s xs).take b).outValid = true

theorem Closes.after {s t xs ys bs} (first : Parses s xs bs t) (closes : Closes t ys) : Closes s (xs ++ ys) := by
  obtain ⟨zs,b,rfl,valid⟩ := closes
  refine ⟨xs ++ zs,b,(List.append_assoc ..).symm,?_⟩
  rw [(first zs).2]
  exact valid

theorem Closes.last {s t : Regs} {xs bs} {b : Byte} (first : Parses s xs bs t) (valid : (t.take b).outValid = true) :
    Closes s (xs ++ [b]) := .after first ⟨[],b,rfl,valid⟩

theorem Closes.rest {s : Regs} {b : Byte} {rest : List Byte} (more : rest ≠ []) (closes : Closes s (b :: rest)) :
    Closes (s.take b).released rest := by
  obtain ⟨xs,last,split,valid⟩ := closes
  cases xs with
  | nil => exact absurd (List.cons.inj split).2 more
  | cons x xs =>
    obtain ⟨rfl,rest'⟩ := List.cons.inj split
    exact ⟨xs,last,rest',valid⟩

theorem Closes.some {s : Regs} {bytes : List Byte} (closes : Closes s bytes) : parse s bytes ≠ [] := by
  obtain ⟨xs,b,rfl,valid⟩ := closes
  rw [parseAppend]
  simp [parse,Regs.waiting,valid]

def Regs.gotCtrl0 (s : Regs) (packetType : BitVec 4) (info : Meta) : Regs :=
  {s with
    packetType := packetType
    info := {s.info with size := info.size, srcFixed := info.srcFixed, dstFixed := info.dstFixed}
    state := .ctrl1}

theorem takeCtrl0Header {s : Regs} (idle : s.state = .idle) {packetType : BitVec 4} {info : Meta}
    (known : packetType = 0b0001 ∨ packetType = 0b0010) (size : info.size ≠ 0b11) :
    s.take (packetType ++ info.size ++ BitVec.ofBool info.srcFixed ++ BitVec.ofBool info.dstFixed) =
      s.gotCtrl0 packetType info := by
  simp only [Regs.take,idle,Regs.takeCtrl0,ctrl0Type,ctrl0Size,ctrl0Src,ctrl0Dst]
  rw [if_pos ⟨known,size⟩]
  rfl

theorem takeCtrl1Header {s : Regs} (ctrl1 : s.state = .ctrl1) (we : Bool) :
    s.take ((BitVec.ofBool we).setWidth 8) = s.setMeta {s.info with we := we} .len0 := by
  have fields := ctrl1Fields we
  simp only [Regs.take,ctrl1,Regs.takeCtrl1,fields.1,fields.2]
  rfl

theorem lenParsed {s : Regs} (len0 : s.state = .len0) (free : s.outValid = false) (x : BitVec 16) :
    Parses s [byteAt x 0,byteAt x 1] [] (s.setMeta {s.info with burstLenM1 := x} .addr0) := by
  have low : Parses s [byteAt x 0] []
      (s.setMeta {s.info with burstLenM1 := setByte s.info.burstLenM1 0 (byteAt x 0)} .len1) :=
    .quiet (by simp [Regs.take,len0]) free
  refine low.silent (.quiet ?_ free)
  simp [Regs.take,Regs.setMeta,fillTwo]

theorem addrParsed {s : Regs} (addr0 : s.state = .addr0) (free : s.outValid = false) (x : BitVec 32) :
    ∃ low, setByte low 3 (byteAt x 3) = x ∧
      Parses s [byteAt x 0,byteAt x 1,byteAt x 2] [] (s.setMeta {s.info with baseAddr := low} .addr3) := by
  have one : Parses s [byteAt x 0] []
      (s.setMeta {s.info with baseAddr := setByte s.info.baseAddr 0 (byteAt x 0)} .addr1) :=
    .quiet (by simp [Regs.take,addr0]) free
  have two (t : Regs) (addr1 : t.state = .addr1) (free : t.outValid = false) :
      Parses t [byteAt x 1] []
        (t.setMeta {t.info with baseAddr := setByte t.info.baseAddr 1 (byteAt x 1)} .addr2) :=
    .quiet (by simp [Regs.take,addr1]) free
  have three (t : Regs) (addr2 : t.state = .addr2) (free : t.outValid = false) :
      Parses t [byteAt x 2] []
        (t.setMeta {t.info with baseAddr := setByte t.info.baseAddr 2 (byteAt x 2)} .addr3) :=
    .quiet (by simp [Regs.take,addr2]) free
  exact ⟨_,fillFour s.info.baseAddr x,one.silent
    ((two _ rfl (by exact free)).silent (three _ rfl (by exact free)))⟩

theorem headerBegun {s : Regs} (idle : s.state = .idle) (free : s.outValid = false)
    {packetType info} (known : packetType = 0b0001 ∨ packetType = 0b0010) (size : info.size ≠ 0b11) :
    ∃ xs b u, header packetType info = xs ++ [b] ∧ Parses s xs [] u ∧
      u.take b = if (s.headed packetType info).payloadEnabled then {s.headed packetType info with state := .payload}
        else (s.headed packetType info).metadataOnly := by
  have ctrl0 := Parses.quiet (takeCtrl0Header idle known size) free
  have ctrl1 := Parses.quiet (s := s.gotCtrl0 packetType info) (takeCtrl1Header rfl info.we) free
  have len := lenParsed (s := (s.gotCtrl0 packetType info).setMeta
    {(s.gotCtrl0 packetType info).info with we := info.we} .len0) rfl free info.burstLenM1
  obtain ⟨low,full,addr⟩ := addrParsed (s := ((s.gotCtrl0 packetType info).setMeta
    {(s.gotCtrl0 packetType info).info with we := info.we} .len0).setMeta
    {(s.gotCtrl0 packetType info).info with we := info.we, burstLenM1 := info.burstLenM1} .addr0)
    rfl free info.baseAddr
  refine ⟨_,byteAt info.baseAddr 3,_,?_,ctrl0.silent (ctrl1.silent (len.silent addr)),?_⟩
  · rfl
  · simp only [Regs.take,Regs.takeAddr3,Regs.setMeta,full]
    rfl

theorem headerParsed {s : Regs} (idle : s.state = .idle) (free : s.outValid = false)
    {packetType info} (known : packetType = 0b0001 ∨ packetType = 0b0010) (size : info.size ≠ 0b11) :
    let t := if (s.headed packetType info).payloadEnabled
      then {s.headed packetType info with state := .payload}
      else (s.headed packetType info).metadataOnly
    Parses s (header packetType info) t.waiting t.released := by
  obtain ⟨xs,b,u,split,before,last⟩ := headerBegun idle free known size
  rw [split]
  exact before.silent (.byte last)

def Regs.beatDone (s : Regs) (data : BitVec 32) : Regs :=
  {s with
    outValid := true
    outStart := s.beatsRemaining = s.burstLen
    outLast := s.beatsRemaining = 1
    outData := data
    beatsRemaining := s.beatsRemaining - 1
    beatByteIdx := 0
    beatAccum := 0
    state := if s.beatsRemaining = 1 then .idle else .payload}

theorem beatBegun {s : Regs} (payload : s.state = .payload) (free : s.outValid = false)
    (width : s.beatBytes.toNat ≤ 4) (got left : List Byte) (more : left ≠ [])
    (index : s.beatByteIdx.toNat = got.length) (accum : s.beatAccum = word 32 got)
    (total : got.length + left.length = s.beatBytes.toNat) :
    ∃ xs b u, left = xs ++ [b] ∧ Parses s xs [] u ∧ u.take b = s.beatDone (word 32 (got ++ left)) := by
  induction left generalizing s got with
  | nil => exact absurd rfl more
  | cons b rest ih =>
    have filled : s.beatWordWithByte b = word 32 (got ++ [b]) := by
      rw [Regs.beatWordWithByte,accum,index]
      exact setByteWord (m := 4) got b
    have bytes := s.beatBytes.isLt
    cases rest with
    | nil =>
      have done : s.beatByteIdx.setWidth 3 = s.beatBytes - 1 := by
        apply BitVec.eq_of_toNat_eq
        simp only [List.length_cons,List.length_nil] at total
        rw [BitVec.toNat_setWidth,BitVec.toNat_sub]
        simp only [BitVec.reduceToNat]
        omega
      refine ⟨[],b,s,rfl,.nil s,?_⟩
      simp only [Regs.take,payload,Regs.takePayload,if_pos done,filled]
      simp [Regs.beatDone]
    | cons c rest =>
      have notDone : ¬ s.beatByteIdx.setWidth 3 = s.beatBytes - 1 := by
        intro done
        have same := congrArg BitVec.toNat done
        simp only [List.length_cons] at total
        rw [BitVec.toNat_setWidth,BitVec.toNat_sub] at same
        simp only [BitVec.reduceToNat] at same
        omega
      simp only [List.length_cons] at total
      have next : s.take b =
          {s with beatAccum := word 32 (got ++ [b]), beatByteIdx := s.beatByteIdx + 1} := by
        simp only [Regs.take,payload,Regs.takePayload,if_neg notDone,filled]
      have step := Parses.quiet next free
      obtain ⟨xs,last,u,split,before,done⟩ := ih (s := {s with
          beatAccum := word 32 (got ++ [b]), beatByteIdx := s.beatByteIdx + 1})
        payload free width (got ++ [b]) (by simp)
        (by simp only [BitVec.toNat_add,BitVec.reduceToNat,List.length_append,List.length_cons,
              List.length_nil]; omega)
        rfl (by simp only [List.length_append,List.length_cons,List.length_nil]; omega)
      rw [List.append_assoc] at done
      exact ⟨b :: xs,last,u,congrArg (b :: ·) split,step.silent before,done⟩

theorem beatParsed {s : Regs} {chunk : List Byte} {more : Nat} {start : Bool} (payload : s.state = .payload)
    (free : s.outValid = false) (fresh : s.beatByteIdx = 0 ∧ s.beatAccum = 0) (width : s.beatBytes.toNat ≤ 4)
    (nonempty : chunk ≠ []) (length : chunk.length = s.beatBytes.toNat) (count : s.beatsRemaining.toNat = more + 1)
    (first : start = decide (s.beatsRemaining = s.burstLen)) (within : s.beatsRemaining.toNat ≤ s.burstLen.toNat) :
    let t := (s.beatDone (word 32 chunk)).released
    Closes s chunk ∧ Parses s chunk [⟨start,more == 0,s.packetType == 0b0010,s.info,word 32 chunk⟩] t ∧
      (more = 0 → t.state = .idle) ∧ (more ≠ 0 → t.state = .payload ∧ t.beatsRemaining.toNat = more ∧
        decide (t.beatsRemaining = s.burstLen) = false) := by
  obtain ⟨xs,b,u,split,before,done⟩ := beatBegun payload free width [] chunk nonempty (by simp [fresh.1])
    (by rw [fresh.2]; rfl) (by simpa using length)
  rw [List.nil_append] at done
  have beat := before.silent (.byte done)
  have closes : Closes s chunk := split ▸ .last before (by rw [done]; rfl)
  rw [← split] at beat
  have last : s.beatsRemaining = 1#17 ↔ more = 0 := by
    constructor
    · intro one
      rw [one] at count
      exact (Nat.succ.inj count).symm
    · rintro rfl
      exact BitVec.eq_of_toNat_eq count
  have shown : (s.beatDone (word 32 chunk)).waiting =
      [⟨start,more == 0,s.packetType == 0b0010,s.info,word 32 chunk⟩] := by
    have ends : decide (s.beatsRemaining = 1#17) = (more == 0) := by rw [decide_eq_decide.mpr last]; rfl
    simp [Regs.waiting,Regs.beatDone,Regs.packet,first,ends]
  rw [shown] at beat
  refine ⟨closes,beat,fun ends => by simp [Regs.released,Regs.beatDone,last.mpr ends],fun many => ?_⟩
  have bound := s.beatsRemaining.isLt
  have less : (s.beatsRemaining - 1).toNat = more := by
    rw [BitVec.toNat_sub]
    simp only [BitVec.reduceToNat]
    omega
  have below : s.beatsRemaining - 1 ≠ s.burstLen := by
    intro same
    have := congrArg BitVec.toNat same
    omega
  exact ⟨by simp [Regs.released,Regs.beatDone,mt last.mp many],less,decide_eq_false below⟩

theorem payloadParsed {s : Regs} (chunks : List (List Byte)) (payload : s.state = .payload)
    (free : s.outValid = false) (fresh : s.beatByteIdx = 0 ∧ s.beatAccum = 0)
    (width : s.beatBytes.toNat ≤ 4) (full : ∀ chunk ∈ chunks, chunk ≠ [] ∧ chunk.length = s.beatBytes.toNat)
    (filled : chunks ≠ []) (count : s.beatsRemaining.toNat = chunks.length) (start : Bool)
    (first : start = decide (s.beatsRemaining = s.burstLen))
    (within : s.beatsRemaining.toNat ≤ s.burstLen.toNat) :
    ∃ t, t.state = .idle ∧ t.outValid = false ∧ Closes s chunks.flatten ∧ Parses s chunks.flatten
      (dataBeats (s.packetType == 0b0010) s.info start (chunks.map (word 32))) t := by
  induction chunks generalizing s start with
  | nil => exact absurd rfl filled
  | cons chunk rest ih =>
    obtain ⟨nonempty,length⟩ := full chunk (by simp)
    obtain ⟨closes,beat,ends,goesOn⟩ := beatParsed payload free fresh width nonempty length count first within
    cases rest with
    | nil => exact ⟨_,ends rfl,rfl,by simpa using closes,by simpa [dataBeats] using beat⟩
    | cons c cs =>
      obtain ⟨state,less,below⟩ := goesOn (by simp)
      obtain ⟨t,idle,released,closes',later⟩ := ih (s := (s.beatDone (word 32 chunk)).released) state rfl ⟨rfl,rfl⟩ width
        (fun chunk mem => full chunk (List.mem_cons_of_mem _ mem)) (by simp) less false below.symm
        (by
          simp only [List.length_cons] at count less
          have same : (s.beatDone (word 32 chunk)).released.burstLen = s.burstLen := rfl
          rw [same]
          omega)
      exact ⟨t,idle,released,closes'.after beat,beat.append later⟩

def carries (packetType : BitVec 4) (we : Bool) : Bool :=
  (packetType == 0b0010 && we) || (packetType == 0b0001 && !we)

structure Chunked (info : Meta) (chunks : List (List Byte)) : Prop where
  count : chunks.length = info.burstLenM1.toNat + 1
  width : ∀ chunk ∈ chunks, chunk.length = (HostBus.beatBytes info.size).toNat

def frameBeats (packetType : BitVec 4) (info : Meta) (chunks : List (List Byte)) : List Beat :=
  if carries packetType info.we then dataBeats (packetType == 0b0010) info true (chunks.map (word 32))
  else [⟨true,true,packetType == 0b0010,info,0⟩]

theorem beatBytesRange (size : BitVec 2) :
    0 < (HostBus.beatBytes size).toNat ∧ (HostBus.beatBytes size).toNat ≤ 4 := by
  revert size
  decide

theorem frameParsed {s : Regs} (idle : s.state = .idle) (free : s.outValid = false)
    {packetType info} (known : packetType = 0b0001 ∨ packetType = 0b0010) (size : info.size ≠ 0b11)
    {chunks} (payload : if carries packetType info.we then Chunked info chunks else chunks = []) :
    ∃ t, t.state = .idle ∧ t.outValid = false ∧ Closes s (frame packetType info chunks.flatten) ∧
      Parses s (frame packetType info chunks.flatten) (frameBeats packetType info chunks) t := by
  obtain ⟨xs,b,u,split,before,last⟩ := headerBegun idle free known size
  have head := headerParsed idle free known size
  have enabled : (s.headed packetType info).payloadEnabled = carries packetType info.we := rfl
  rw [enabled] at head last
  cases carried : carries packetType info.we with
  | false =>
    simp only [carried,Bool.false_eq_true,if_false] at head payload last
    subst payload
    have closes : Closes s (header packetType info) := split ▸ .last before (by rw [last]; rfl)
    refine ⟨(s.headed packetType info).metadataOnly.released,rfl,rfl,?_,?_⟩
    · simpa [frame] using closes
    · simpa [frame,frameBeats,carried,Regs.waiting,Regs.metadataOnly,Regs.packet,Regs.headed] using head
  | true =>
    simp only [carried,if_true] at head payload
    have range := beatBytesRange info.size
    obtain ⟨t,idle',free',closes,data⟩ := payloadParsed
      (s := {s.headed packetType info with state := .payload}) chunks rfl (by exact free) ⟨rfl,rfl⟩ range.2
      (fun chunk mem => ⟨by
          intro empty
          have length := payload.width chunk mem
          simp only [empty,List.length_nil] at length
          omega,payload.width chunk mem⟩)
      (by
        intro empty
        have count := payload.count
        simp [empty] at count)
      ((burstLenToNat _).trans payload.count.symm) true (by simp [Regs.headed]) (Nat.le_refl _)
    have quiet : ({s.headed packetType info with state := .payload} : Regs).waiting = [] := by
      simp [Regs.waiting,Regs.headed,free]
    have same : ({s.headed packetType info with state := .payload} : Regs).released =
        {s.headed packetType info with state := .payload} := by
      simp [Regs.released,Regs.headed,free]
    rw [quiet,same] at head
    refine ⟨t,idle',free',closes.after head,?_⟩
    simpa [frame,frameBeats,carried,Regs.headed] using head.append data

structure Packet where
  packetType : BitVec 4
  info : Meta
  chunks : List (List Byte)
  deriving DecidableEq, Repr

namespace Packet

structure Valid (p : Packet) : Prop where
  known : p.packetType = 0b0001 ∨ p.packetType = 0b0010
  size : p.info.size ≠ 0b11
  payload : if carries p.packetType p.info.we then Chunked p.info p.chunks else p.chunks = []

def bytes (p : Packet) : List Byte := frame p.packetType p.info p.chunks.flatten
def beats (p : Packet) : List Beat := frameBeats p.packetType p.info p.chunks

end Packet

theorem packetsParsed {s : Regs} (idle : s.state = .idle) (free : s.outValid = false)
    (packets : List Packet) (valid : ∀ p ∈ packets, p.Valid) :
    ∃ t, t.state = .idle ∧ t.outValid = false ∧
      Parses s (packets.flatMap Packet.bytes) (packets.flatMap Packet.beats) t := by
  induction packets generalizing s with
  | nil => exact ⟨s,idle,free,.nil s⟩
  | cons p rest ih =>
    obtain ⟨known,size,payload⟩ := valid p (by simp)
    obtain ⟨t,idle',free',_,first⟩ := frameParsed idle free known size payload
    obtain ⟨u,idle'',free'',later⟩ := ih idle' free' fun q mem => valid q (List.mem_cons_of_mem _ mem)
    exact ⟨u,idle'',free'',first.append later⟩

/- Any part of the packets' bytes delivers its part of their beats, and all of them deliver
all beats. -/
theorem packetsDelivered (packets : List Packet) (valid : ∀ p ∈ packets, p.Valid) (s : Regs)
    (inputs : List Inputs) (rest : List Byte)
    (bytes : machine.history taken (reset s) inputs ++ rest = packets.flatMap Packet.bytes) :
    ∃ later, machine.history delivered (reset s) inputs ++ (machine.final (reset s) inputs).waiting ++ later =
        packets.flatMap Packet.beats ∧
      (rest = [] → later = [] ∧ (machine.final (reset s) inputs).state = .idle) := by
  obtain ⟨beats,final⟩ := stream (reset s) inputs
  obtain ⟨t,idle,_,parses⟩ := packetsParsed (s := reset s) rfl rfl packets valid
  obtain ⟨all,last⟩ := parses []
  rw [List.append_nil,← bytes] at all last
  rw [beats]
  refine ⟨parse (machine.final (reset s) inputs).released rest,?_,?_⟩
  · rw [List.append_assoc,final,← parseAppend]
    exact all.trans (List.append_nil _)
  · rintro rfl
    refine ⟨rfl,?_⟩
    rw [List.append_nil] at last
    have state := congrArg (fun r => r.state) (final.trans last)
    exact state.trans idle

end RiscvSoc.HostBus.Rx
