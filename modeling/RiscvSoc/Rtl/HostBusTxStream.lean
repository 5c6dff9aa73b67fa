import RiscvSoc.Rtl.HostBusTx

/-! What `host_bus_tx` emits depends on the accepted beats alone, and a packet's beats
are emitted as its frame. -/
namespace RiscvSoc.HostBus.Tx
open LittleEndian (Byte byteAt)
open Mealy Machine

def typeOf (req : Bool) : BitVec 4 := if req then 0b0000 else 0b0011

def beatWord (n : Nat) (data : BitVec 32) : List Byte := (List.range n).map (byteAt data)

def toSend (s : Regs) : List Byte :=
  let data := beatWord s.beatBytes.toNat s.beatData
  let first := if s.payloadEnabled then data else []
  let head := header s.packetType s.info
  match s.state with
  | .idle | .waitBeat => []
  | .ctrl0 => head ++ first
  | .ctrl1 => head.drop 1 ++ first
  | .len0 => head.drop 2 ++ first
  | .len1 => head.drop 3 ++ first
  | .addr0 => head.drop 4 ++ first
  | .addr1 => head.drop 5 ++ first
  | .addr2 => head.drop 6 ++ first
  | .addr3 => head.drop 7 ++ first
  | .data0 => data
  | .data1 => data.drop 1
  | .data2 => data.drop 2
  | .data3 => data.drop 3

def beatsLeft (s : Regs) : Nat := match s.state with
  | .idle => 0
  | .waitBeat => s.beatsRemaining.toNat
  | .data0 | .data1 | .data2 | .data3 => s.beatsRemaining.toNat - 1
  | _ => if s.payloadEnabled then s.beatsRemaining.toNat - 1 else 0

/- The data states are left by the byte that the beat size calls for, and no packet is in
progress without a beat to count. -/
structure Consistent (s : Regs) : Prop where
  width : s.beatBytes = 1#3 ∨ s.beatBytes = 2#3 ∨ s.beatBytes = 4#3
  second : s.state = .data1 → s.beatBytes ≠ 1#3
  third : s.state = .data2 ∨ s.state = .data3 → s.beatBytes = 4#3
  counted : s.state ≠ .idle → 0 < s.beatsRemaining.toNat

/- The bytes of accepted beats, `n` being the beat size of the packet in progress. -/
def serial : Nat → List Beat → List Byte
  | _, [] => []
  | n, packet :: rest =>
    if packet.start then
      header (typeOf packet.req) packet.info ++
        (if payloadOf packet then beatWord (beatBytes packet.info.size).toNat packet.data else []) ++
        serial (beatBytes packet.info.size).toNat rest
    else beatWord n packet.data ++ serial n rest

def owed (left : Nat) (packet : Beat) : Nat :=
  if packet.start then (if payloadOf packet then packet.info.burstLenM1.toNat else 0) else left - 1

def Framed : Nat → List Beat → Nat → Prop
  | left, [], final => left = final
  | left, packet :: rest, final =>
    (packet.start = true ↔ left = 0) ∧ Framed (owed left packet) rest final

theorem resetConsistent (s : Regs) : Consistent (reset s) :=
  ⟨.inl rfl,by simp [reset],by simp [reset],by simp [reset]⟩

theorem beatWord1 (data : BitVec 32) : beatWord 1 data = [byteAt data 0] := rfl
theorem beatWord2 (data : BitVec 32) : beatWord 2 data = [byteAt data 0,byteAt data 1] := rfl
theorem beatWord4 (data : BitVec 32) :
    beatWord 4 data = [byteAt data 0,byteAt data 1,byteAt data 2,byteAt data 3] := rfl

theorem beatSentSpec {s : Regs} (ok : Consistent s) (busy : s.state ≠ .idle) :
    toSend (beatSent s) = [] ∧ beatsLeft (beatSent s) = s.beatsRemaining.toNat - 1 ∧
      Consistent (beatSent s) := by
  have positive := ok.counted busy
  have bound := s.beatsRemaining.isLt
  have nonzero : s.beatsRemaining ≠ 0#17 := by
    intro zero
    simp [zero] at positive
  have less : (s.beatsRemaining - 1#17).toNat = s.beatsRemaining.toNat - 1 := by
    rw [BitVec.toNat_sub]
    simp only [BitVec.reduceToNat]
    omega
  by_cases one : s.beatsRemaining = 1#17
  · have same : beatSent s = {s with state := .idle, beatsRemaining := 0#17} := by
      simp [beatSent,one]
    rw [same]
    exact ⟨rfl,by simp [beatsLeft,one],ok.width,by simp,by simp,by simp⟩
  · have same : beatSent s = {s with state := .waitBeat, beatsRemaining := s.beatsRemaining - 1#17} := by
      simp [beatSent,one,nonzero]
    have more : s.beatsRemaining.toNat ≠ 1 := fun h => one (BitVec.eq_of_toNat_eq h)
    rw [same]
    exact ⟨rfl,less,ok.width,by simp,by simp,fun _ => by simp only [less]; omega⟩

theorem sentByte {s : Regs} (ok : Consistent s) (valid : txValid s = true) :
    toSend s = txByte s :: toSend (sent s) ∧ beatsLeft (sent s) = beatsLeft s ∧
      Consistent (sent s) ∧ (sent s).beatBytes = s.beatBytes := by
  have counted := ok.counted
  cases state : s.state with
  | idle => simp [txValid,state] at valid
  | waitBeat => simp [txValid,state] at valid
  | ctrl0 | ctrl1 | len0 | len1 | addr0 | addr1 | addr2 =>
    simp only [sent,state]
    refine ⟨?_,?_,⟨ok.width,by simp,by simp,fun _ => counted (by simp [state])⟩,trivial⟩
    · simp [toSend,txByte,state,header]
    · simp [beatsLeft,state]
  | addr3 =>
    cases payload : s.payloadEnabled <;> simp only [sent,state,payload]
    all_goals
      refine ⟨?_,?_,⟨ok.width,by simp,by simp,fun _ => counted (by simp [state])⟩,trivial⟩
    all_goals simp [toSend,txByte,beatsLeft,state,header,payload]
  | data0 =>
    by_cases one : s.beatBytes = 1#3
    · have done := beatSentSpec ok (by simp [state])
      have same : sent s = beatSent s := by simp [sent,state,one]
      rw [same,done.1,done.2.1]
      exact ⟨by simp [toSend,txByte,state,one,beatWord1],by simp [beatsLeft,state],done.2.2,rfl⟩
    · have same : sent s = {s with state := .data1} := by simp [sent,state,one]
      rw [same]
      refine ⟨?_,by simp [beatsLeft,state],⟨ok.width,fun _ => one,by simp,fun _ => counted (by simp [state])⟩,rfl⟩
      have width := ok.width
      simp only [one,false_or] at width
      rcases width with two | four
      · simp [toSend,txByte,state,two,beatWord2]
      · simp [toSend,txByte,state,four,beatWord4]
  | data1 =>
    have more := ok.second state
    have width := ok.width
    simp only [more,false_or] at width
    rcases width with two | four
    · have done := beatSentSpec ok (by simp [state])
      have same : sent s = beatSent s := by simp [sent,state,two]
      rw [same,done.1,done.2.1]
      exact ⟨by simp [toSend,txByte,state,two,beatWord2],by simp [beatsLeft,state],done.2.2,rfl⟩
    · have same : sent s = {s with state := .data2} := by simp [sent,state,four]
      rw [same]
      exact ⟨by simp [toSend,txByte,state,four,beatWord4],by simp [beatsLeft,state],
        ⟨ok.width,by simp,fun _ => four,fun _ => counted (by simp [state])⟩,rfl⟩
  | data2 =>
    have four := ok.third (.inl state)
    have same : sent s = {s with state := .data3} := by simp [sent,state]
    rw [same]
    exact ⟨by simp [toSend,txByte,state,four,beatWord4],by simp [beatsLeft,state],
      ⟨ok.width,by simp,fun _ => four,fun _ => counted (by simp [state])⟩,rfl⟩
  | data3 =>
    have four := ok.third (.inr state)
    have done := beatSentSpec ok (by simp [state])
    have same : sent s = beatSent s := by simp [sent,state]
    rw [same,done.1,done.2.1]
    exact ⟨by simp [toSend,txByte,state,four,beatWord4],by simp [beatsLeft,state],done.2.2,rfl⟩

theorem beatBytesWidth (size : BitVec 2) :
    beatBytes size = 1#3 ∨ beatBytes size = 2#3 ∨ beatBytes size = 4#3 := by
  revert size
  decide

theorem acceptedBeat {s : Regs} (ok : Consistent s) {packet : Beat}
    (ready : packetReady s packet.start = true) :
    toSend s = [] ∧ (packet.start = true ↔ beatsLeft s = 0) ∧
      beatsLeft (accept s packet) = owed (beatsLeft s) packet ∧ Consistent (accept s packet) ∧
      ∀ rest, serial s.beatBytes.toNat (packet :: rest) =
        toSend (accept s packet) ++ serial (accept s packet).beatBytes.toNat rest := by
  simp only [packetReady,Bool.or_eq_true,Bool.and_eq_true,beq_iff_eq,Bool.not_eq_true'] at ready
  rcases ready with ⟨idle,start⟩ | ⟨wait,more⟩
  · have length := burstLenToNat packet.info.burstLenM1
    refine ⟨by simp [toSend,idle],by simp [beatsLeft,idle,start],?_,?_,?_⟩
    · cases payload : payloadOf packet <;> simp [beatsLeft,accept,idle,owed,start,payload,length]
    · simp only [accept,idle,if_true]
      exact ⟨beatBytesWidth _,by simp,by simp,fun _ => by simp only [length]; omega⟩
    · intro rest
      simp [serial,start,accept,idle,toSend,typeOf]
  · have positive := ok.counted (by simp [wait])
    have nonzero : s.beatsRemaining.toNat ≠ 0 := by omega
    refine ⟨by simp [toSend,wait],?_,?_,?_,?_⟩
    · simp [beatsLeft,wait,more,nonzero]
    · simp [beatsLeft,accept,wait,owed,more]
    · have same : accept s packet = {s with state := .data0, beatData := packet.data} := by
        simp [accept,wait]
      rw [same]
      exact ⟨ok.width,by simp,by simp,fun _ => positive⟩
    · intro rest
      simp [serial,more,accept,wait,toSend]

/- Emitted bytes and bytes still to go are the bytes of the accepted beats, however both
sides stall. -/
theorem stream {s : Regs} (ok : Consistent s) (inputs : List Inputs) :
    machine.history emitted s inputs ++ toSend (machine.final s inputs) =
      toSend s ++ serial s.beatBytes.toNat (machine.history accepted s inputs) ∧
    Framed (beatsLeft s) (machine.history accepted s inputs) (beatsLeft (machine.final s inputs)) ∧
    Consistent (machine.final s inputs) := by
  induction inputs generalizing s with
  | nil => exact ⟨by simp [serial],rfl,ok⟩
  | cons i rest ih =>
    change (emitted s i ++ machine.history emitted (step s i) rest) ++
        toSend (machine.final (step s i) rest) =
      toSend s ++ serial s.beatBytes.toNat (accepted s i ++ machine.history accepted (step s i) rest) ∧
      Framed (beatsLeft s) (accepted s i ++ machine.history accepted (step s i) rest)
        (beatsLeft (machine.final (step s i) rest)) ∧
      Consistent (machine.final (step s i) rest)
    by_cases takes : (i.packetValid && packetReady s i.packet.start) = true
    · have next : step s i = accept s i.packet := by simp [step,takes]
      have ready : packetReady s i.packet.start = true := by simp_all
      have quiet : txValid s = false := by
        simp only [packetReady,Bool.or_eq_true,Bool.and_eq_true,beq_iff_eq] at ready
        rcases ready with ⟨state,_⟩ | ⟨state,_⟩ <;> simp [txValid,state]
      obtain ⟨empty,opens,owes,kept,bytes⟩ := acceptedBeat ok ready
      obtain ⟨sent',framed,final⟩ := ih (s := accept s i.packet) kept
      rw [next]
      refine ⟨?_,?_,final⟩
      · simp only [emitted,quiet,Bool.false_and,accepted,takes,if_true,List.singleton_append,bytes,
          empty,List.nil_append]
        simpa using sent'
      · simp only [accepted,takes,if_true,List.singleton_append,Framed]
        exact ⟨opens,owes ▸ framed⟩
    · have nothing : accepted s i = [] := by simp [accepted,takes]
      rw [nothing,List.nil_append]
      by_cases sends : (txValid s && i.txReady) = true
      · have next : step s i = sent s := by simp [step,takes,sends]
        have valid : txValid s = true := by simp_all
        obtain ⟨byte,left,kept,width⟩ := sentByte ok valid
        obtain ⟨sent',framed,final⟩ := ih (s := sent s) kept
        rw [next]
        refine ⟨?_,by rw [← left]; exact framed,final⟩
        simp only [emitted,sends,if_true]
        rw [byte,← width]
        simpa using sent'
      · have next : step s i = s := by simp [step,takes,sends]
        have silent : emitted s i = [] := by simp [emitted,sends]
        rw [next,silent]
        exact ih ok

theorem serialData (n : Nat) (req info words) :
    serial n (dataBeats req info false words) = words.flatMap (beatWord n) := by
  induction words with
  | nil => rfl
  | cons data rest ih => simp [dataBeats,serial,ih]

theorem framedData {left final req info words} (framed : Framed left (dataBeats req info false words) final) :
    final = left - words.length := by
  induction words generalizing left with
  | nil => exact framed.symm
  | cons data rest ih =>
    have later := ih framed.2
    simp only [owed,Bool.false_eq_true,if_false] at later
    rw [later,List.length_cons]
    omega

theorem packetEmitted {s : Regs} (ok : Consistent s) (idle : s.state = .idle) {inputs req info words}
    (packet : machine.history accepted s inputs = dataBeats req info true words)
    (count : words.length = if req = info.we then info.burstLenM1.toNat + 1 else 1)
    (quiet : txValid (machine.final s inputs) = false) :
    machine.history emitted s inputs = frame (typeOf req) info
      (if req = info.we then words.flatMap (beatWord (beatBytes info.size).toNat) else []) ∧
    (machine.final s inputs).state = .idle := by
  obtain ⟨bytes,framed,final⟩ := stream ok inputs
  have done : (machine.final s inputs).state = .idle ∨ (machine.final s inputs).state = .waitBeat := by
    by_cases state : (machine.final s inputs).state = .idle
    · exact .inl state
    · simp_all [txValid]
  have nothing : toSend (machine.final s inputs) = [] := by
    rcases done with state | state <;> simp [toSend,state]
  have empty : toSend s = [] := by simp [toSend,idle]
  have zero : beatsLeft s = 0 := by simp [beatsLeft,idle]
  rw [packet,nothing,empty,List.append_nil,List.nil_append] at bytes
  rw [packet,zero] at framed
  have payload : (req && info.we || !req && !info.we) = decide (req = info.we) := by
    cases req <;> cases info.we <;> rfl
  cases words with
  | nil =>
    simp only [List.length_nil] at count
    split at count <;> omega
  | cons data rest =>
    have left := framedData framed.2
    simp only [owed,payloadOf,payload] at left
    simp only [dataBeats,serial,payloadOf,payload,serialData] at bytes
    simp only [List.length_cons] at count
    refine ⟨?_,?_⟩
    · rw [bytes]
      by_cases carried : req = info.we
      · simp [frame,carried]
      · have single : rest = [] := List.length_eq_zero_iff.mp (by simpa [carried] using count)
        simp [frame,carried,single]
    · rcases done with state | state
      · exact state
      · have positive := final.counted (by simp [state])
        simp only [beatsLeft,state] at left
        by_cases carried : req = info.we <;> simp [carried] at left count <;> omega

end RiscvSoc.HostBus.Tx
