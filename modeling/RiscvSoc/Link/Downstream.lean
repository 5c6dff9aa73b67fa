import RiscvSoc.Host.PacketReader
import RiscvSoc.Link.WireFormat

/-! From the RTL to the host: the bytes that `host_bus_tx` still has to give to the parser, and
the packets that end in them. -/
namespace RiscvSoc.Link
open LittleEndian (Byte)
open RiscvSoc.HostBus (Meta Beat frame header beatBytes)
open RiscvSoc.HostBus.Tx (typeOf beatWord toSend beatsLeft)
open RiscvSoc.Host (Handler)
open RiscvSoc.Host.Handler (Packet Parser)

def parsedOf (req : Bool) (info : Meta) (words : List (BitVec 32)) : Packet :=
  if req then .request (requestOf info (payloadOf true info words))
  else .response (responseOf info (payloadOf false info words))

theorem typeKnown (req : Bool) : typeOf req = 0b0000 ∨ typeOf req = 0b0011 := by
  cases req
  · exact .inr rfl
  · exact .inl rfl

theorem finishedParsed (p : Parser) {req info} (size : info.size ≠ 0b11) (words : List (BitVec 32)) :
    ((p.headed (typeOf req) info).finished (payloadOf req info words)).1 = [parsedOf req info words] ∧
    ((p.headed (typeOf req) info).finished (payloadOf req info words)).2.idle := by
  cases req with
  | true =>
    have same : ((p.headed (typeOf true) info).finished (payloadOf true info words)).1 =
        [.request {requestOf info (payloadOf true info words) with
          size := (Host.AccessSize.fromU8 (info.size.setWidth 8)).getD .byte}] := rfl
    rw [same,(accessSizeCode info.size size).1]
    exact ⟨rfl,rfl,rfl⟩
  | false =>
    have same : ((p.headed (typeOf false) info).finished (payloadOf false info words)).1 =
        [.response {responseOf info (payloadOf false info words) with
          size := (Host.AccessSize.fromU8 (info.size.setWidth 8)).getD .byte
          data := if info.we then [] else payloadOf false info words}] := rfl
    have carried : (if info.we then [] else payloadOf false info words) = payloadOf false info words := by
      rcases Bool.eq_false_or_eq_true info.we with write | read
      · simp [payloadOf,write]
      · simp [read]
    rw [same,(accessSizeCode info.size size).1,carried]
    exact ⟨rfl,rfl,rfl⟩

def wordCount (req : Bool) (info : Meta) : Nat := if req = info.we then info.burstLenM1.toNat + 1 else 1

theorem expectedPayload {req info words} (size : info.size ≠ 0b11) (count : words.length = wordCount req info) :
    (payloadOf req info words).length = Parser.expected (typeOf req) info := payloadExpected size count

/- Past the last byte of TX the parser is between packets, or inside the response whose beats TX
still waits for. -/
structure Inside (tx : HostBus.Tx.Regs) (words : List (BitVec 32)) (p : Parser) : Prop where
  size : tx.info.size ≠ 0b11
  width : tx.beatBytes = beatBytes tx.info.size
  read : tx.info.we = false
  count : words.length + beatsLeft tx = tx.info.burstLenM1.toNat + 1
  parser : ∃ before : Parser, p = {before.headed (typeOf false) tx.info with
    payload := payloadOf false tx.info words
    state := .payload ((beatBytes tx.info.size).toNat * beatsLeft tx)}

def Awaits (tx : HostBus.Tx.Regs) (words : List (BitVec 32)) (p : Parser) : Prop :=
  if beatsLeft tx = 0 then p.idle else Inside tx words p

theorem awaitsKept {tx tx' : HostBus.Tx.Regs} {words p} (awaits : Awaits tx words p) (left : beatsLeft tx' = beatsLeft tx)
    (info : tx'.info = tx.info) (width : tx'.beatBytes = tx.beatBytes) : Awaits tx' words p := by
  rw [Awaits,left]
  split
  · rename_i absent
    rwa [Awaits,if_pos absent] at awaits
  · rename_i present
    rw [Awaits,if_neg present] at awaits
    obtain ⟨size,width',read,count,parser⟩ := awaits
    exact ⟨info ▸ size,by rw [width,info,width'],info ▸ read,by rw [left,info,count],by rw [left,info]; exact parser⟩

theorem startBytes {tx : HostBus.Tx.Regs} (b : Beat) (idle : tx.state = .idle) :
    toSend (HostBus.Tx.accept tx b) = frame (typeOf b.req) b.info (payloadOf b.req b.info [b.data]) ∧
    beatsLeft (HostBus.Tx.accept tx b) = if b.req = b.info.we then b.info.burstLenM1.toNat else 0 := by
  have carries : HostBus.Tx.payloadOf b = decide (b.req = b.info.we) := by
    rw [HostBus.Tx.payloadOf]
    cases b.req <;> cases b.info.we <;> rfl
  have len := HostBus.burstLenToNat b.info.burstLenM1
  refine ⟨?_,by simp [HostBus.Tx.accept,idle,beatsLeft,carries,len]⟩
  simp only [HostBus.Tx.accept,idle,toSend,if_true,carries,decide_eq_true_eq,payloadOf,frame]
  simp [typeOf]

theorem startCount {tx : HostBus.Tx.Regs} {b : Beat} (idle : tx.state = .idle)
    (whole : beatsLeft (HostBus.Tx.accept tx b) = 0) : [b.data].length = wordCount b.req b.info := by
  rw [(startBytes b idle).2] at whole
  simp only [wordCount,List.length_singleton]
  split
  · rename_i carried
    rw [if_pos carried] at whole
    omega
  · rfl

theorem startAccepted {tx : HostBus.Tx.Regs} {b : Beat} {p : Parser} (idle : tx.state = .idle) (rest : p.idle)
    (size : b.info.size ≠ 0b11) (single : b.req = true → b.info.burstLenM1 = 0) :
    if beatsLeft (HostBus.Tx.accept tx b) = 0 then
      (p.run (toSend (HostBus.Tx.accept tx b))).1 = [parsedOf b.req b.info [b.data]] ∧
      (p.run (toSend (HostBus.Tx.accept tx b))).2.idle
    else b.req = false ∧ (p.run (toSend (HostBus.Tx.accept tx b))).1 = [] ∧
      Inside (HostBus.Tx.accept tx b) [b.data] (p.run (toSend (HostBus.Tx.accept tx b))).2 := by
  have known := typeKnown b.req
  obtain ⟨bytes,left⟩ := startBytes b idle
  rw [bytes]
  by_cases whole : beatsLeft (HostBus.Tx.accept tx b) = 0
  · have count := startCount idle whole
    rw [if_pos whole,Parser.runFrame rest known size (expectedPayload size count)]
    exact finishedParsed p size [b.data]
  · rw [if_neg whole]
    rw [left] at whole
    have carried : b.req = b.info.we := Decidable.byContradiction fun other => whole (if_neg other)
    rw [if_pos carried] at whole
    have response : b.req = false := by
      cases kind : b.req with
      | false => rfl
      | true => exact absurd (by rw [single kind]; rfl) whole
    have range := HostBus.Rx.beatBytesRange b.info.size
    have word : (payloadOf b.req b.info [b.data]).length = (beatBytes b.info.size).toNat := by
      rw [payloadOf,if_pos carried,wordsLength,List.length_singleton,Nat.mul_one]
    have all : Parser.expected (typeOf b.req) b.info = (beatBytes b.info.size).toNat * (b.info.burstLenM1.toNat + 1) := by
      have full := @expectedPayload b.req b.info (List.replicate (b.info.burstLenM1.toNat + 1) 0) size
        (by rw [List.length_replicate,wordCount,if_pos carried])
      rw [← full,payloadOf,if_pos carried,wordsLength,List.length_replicate]
    have more : (beatBytes b.info.size).toNat < (beatBytes b.info.size).toNat * (b.info.burstLenM1.toNat + 1) := by
      have two : (beatBytes b.info.size).toNat * 2 ≤ (beatBytes b.info.size).toNat * (b.info.burstLenM1.toNat + 1) :=
        Nat.mul_le_mul_left _ (by omega)
      omega
    have head := Parser.runHeader rest known size
    rw [if_neg (by rw [all]; omega)] at head
    have part := Parser.runPart (p := {p.headed (typeOf b.req) b.info with
      payload := [], state := .payload (Parser.expected (typeOf b.req) b.info)})
      (payloadOf b.req b.info [b.data]) rfl (by rw [word,all]; exact more)
    rw [frame,Parser.runAppend,head]
    simp only [part,List.nil_append]
    refine ⟨response,trivial,?_⟩
    have info : (HostBus.Tx.accept tx b).info = b.info := by rw [HostBus.Tx.accept,if_pos idle]
    have width : (HostBus.Tx.accept tx b).beatBytes = beatBytes b.info.size := by rw [HostBus.Tx.accept,if_pos idle]
    rw [if_pos carried] at left
    refine ⟨info ▸ size,by rw [width,info],by rw [info,← carried,response],?_,p,?_⟩
    · rw [left,info,List.length_singleton,Nat.add_comm]
    · rw [left,info,all,word,response,Nat.mul_succ,Nat.add_sub_cancel]

theorem runPrefix {p : Parser} {xs ys : List Byte} (empty : (p.run (xs ++ ys)).1 = []) : (p.run xs).1 = [] := by
  rw [Parser.runAppend] at empty
  exact (List.append_eq_nil_iff.mp empty).1

theorem startInside {tx : HostBus.Tx.Regs} {b : Beat} {p : Parser} (idle : tx.state = .idle) (rest : p.idle)
    (size : b.info.size ≠ 0b11) (single : b.req = true → b.info.burstLenM1 = 0) {xs : List Byte} {last : Byte}
    (split : toSend (HostBus.Tx.accept tx b) = xs ++ [last]) : (p.run xs).1 = [] := by
  have outcome := startAccepted idle rest size single
  by_cases whole : beatsLeft (HostBus.Tx.accept tx b) = 0
  · rw [(startBytes b idle).1] at split
    exact Parser.runInside rest (typeKnown b.req) size (expectedPayload size (startCount idle whole)) split (by simp)
  · rw [if_neg whole,split] at outcome
    exact runPrefix outcome.2.1

theorem payloadSnoc {req info} (carried : req = info.we) (words : List (BitVec 32)) (data : BitVec 32) :
    payloadOf req info (words ++ [data]) = payloadOf req info words ++ beatWord (beatBytes info.size).toNat data := by
  rw [payloadOf,payloadOf,if_pos carried,if_pos carried,List.flatMap_append]
  simp

theorem moreAccepted {tx : HostBus.Tx.Regs} {b : Beat} {words : List (BitVec 32)} {p : Parser}
    (wait : tx.state = .waitBeat) (nonzero : 0 < beatsLeft tx) (inside : Inside tx words p) :
    if beatsLeft (HostBus.Tx.accept tx b) = 0 then
      (p.run (toSend (HostBus.Tx.accept tx b))).1 = [parsedOf false tx.info (words ++ [b.data])] ∧
      (p.run (toSend (HostBus.Tx.accept tx b))).2.idle
    else (p.run (toSend (HostBus.Tx.accept tx b))).1 = [] ∧
      Inside (HostBus.Tx.accept tx b) (words ++ [b.data]) (p.run (toSend (HostBus.Tx.accept tx b))).2 := by
  obtain ⟨size,width,read,count,before,parser⟩ := inside
  have carried : false = tx.info.we := read.symm
  have same : HostBus.Tx.accept tx b = {tx with state := .data0, beatData := b.data} := by
    rw [HostBus.Tx.accept,if_neg (by rw [wait]; decide)]
  have left : beatsLeft (HostBus.Tx.accept tx b) = beatsLeft tx - 1 := by
    rw [same]
    simp only [beatsLeft,wait]
  have bytes : toSend (HostBus.Tx.accept tx b) = beatWord (beatBytes tx.info.size).toNat b.data := by
    rw [same,← width]
    rfl
  have info : (HostBus.Tx.accept tx b).info = tx.info := by rw [same]
  have range := HostBus.Rx.beatBytesRange tx.info.size
  have long : (beatWord (beatBytes tx.info.size).toNat b.data).length = (beatBytes tx.info.size).toNat := by
    simp [beatWord]
  have state : p.state = .payload ((beatBytes tx.info.size).toNat * beatsLeft tx) := by rw [parser]
  have payload : p.payload = payloadOf false tx.info words := by rw [parser]
  rw [bytes,left]
  by_cases last : beatsLeft tx = 1
  · rw [if_pos (by omega)]
    rw [last,Nat.mul_one] at state
    have whole := Parser.runPayload (beatWord (beatBytes tx.info.size).toNat b.data) (state.trans (by rw [long])) (by
      intro empty
      rw [empty,List.length_nil] at long
      omega)
    rw [whole,payload,← payloadSnoc carried,parser]
    exact finishedParsed before size (words ++ [b.data])
  · rw [if_neg (by omega)]
    obtain ⟨left',more⟩ : ∃ left', beatsLeft tx = left' + 1 := ⟨beatsLeft tx - 1,by omega⟩
    have room : (beatBytes tx.info.size).toNat < (beatBytes tx.info.size).toNat * beatsLeft tx := by
      rw [more,Nat.mul_succ]
      have positive : 0 < (beatBytes tx.info.size).toNat * left' := Nat.mul_pos range.1 (by omega)
      omega
    have part := Parser.runPart (beatWord (beatBytes tx.info.size).toNat b.data) state (by rw [long]; exact room)
    rw [part]
    refine ⟨rfl,info ▸ size,by rw [same]; exact width,by rw [info,read],?_,before,?_⟩
    · rw [left,info,List.length_append,List.length_singleton]
      omega
    · rw [left,info,payload,← payloadSnoc carried,long,parser,more,Nat.mul_succ,Nat.add_sub_cancel,Nat.add_sub_cancel]

theorem moreInside {tx : HostBus.Tx.Regs} {b : Beat} {words : List (BitVec 32)} {p : Parser}
    (wait : tx.state = .waitBeat) (positive : 0 < beatsLeft tx) (inside : Inside tx words p) {xs : List Byte} {last : Byte}
    (split : toSend (HostBus.Tx.accept tx b) = xs ++ [last]) : (p.run xs).1 = [] := by
  have outcome := moreAccepted (b := b) wait positive inside
  by_cases whole : beatsLeft (HostBus.Tx.accept tx b) = 0
  · obtain ⟨_,width,_,_,before,parser⟩ := inside
    have same : HostBus.Tx.accept tx b = {tx with state := .data0, beatData := b.data} := by
      rw [HostBus.Tx.accept,if_neg (by rw [wait]; decide)]
    have long : (xs ++ [last]).length = (beatBytes tx.info.size).toNat := by
      rw [← split,same,← width]
      simp [toSend,beatWord]
    have state : p.state = .payload ((beatBytes tx.info.size).toNat * beatsLeft tx) := by rw [parser]
    have least : (beatBytes tx.info.size).toNat * 1 ≤ (beatBytes tx.info.size).toNat * beatsLeft tx :=
      Nat.mul_le_mul_left _ positive
    rw [List.length_append,List.length_singleton] at long
    rw [Parser.runPart xs state (by omega)]
  · rw [if_neg whole,split] at outcome
    exact runPrefix outcome.1

end RiscvSoc.Link
