import RiscvSoc.Host.ReceiveFrame
import RiscvSoc.Host.ReceiveRetry
import RiscvSoc.Host.TransmitStream

/-! The parser in `transfer_rx_byte` by itself: which packets a stream of bytes holds, whatever
the slots around the parser hold. -/
namespace RiscvSoc.Host
open LittleEndian (Byte byteAt)
open RiscvSoc.HostBus (Meta frame)
open Handler (Packet)

namespace Handler

@[simp] theorem withParserParser (h : Handler) (p : Parser) : (h.withParser p).parser = p := rfl
@[simp] theorem withOwnParser (h : Handler) : h.withParser h.parser = h := rfl

def inSlots (h : Handler) : List Packet :=
  h.incomingRequest.request.toList.map .request ++ h.outgoingResponse.response.toList.map .response

end Handler

namespace Handler.Parser
open Handler

def idle (p : Parser) : Prop := p.state = .idle ∧ p.payload = []

def feed (p : Parser) (byte : Byte) : List Packet × Parser :=
  let t := ((Handler.new.withParser p).transferRxByte byte).2
  (t.inSlots,t.parser)

/- The packets that bytes complete, and the parser after them. -/
def run : Parser → List Byte → List Packet × Parser
  | p, [] => ([],p)
  | p, byte :: rest => ((p.feed byte).1 ++ (run (p.feed byte).2 rest).1,(run (p.feed byte).2 rest).2)

theorem runAppend (p : Parser) (xs ys : List Byte) :
    p.run (xs ++ ys) = ((p.run xs).1 ++ ((p.run xs).2.run ys).1,((p.run xs).2.run ys).2) := by
  induction xs generalizing p with
  | nil => simp [run]
  | cons byte rest ih => simp [run,ih]

end Handler.Parser

namespace Handler

inductive Fed (h : Handler) (byte : Byte) : List Packet × Parser → Prop where
  | inside (p) (taken : h.transferRxByte byte = (.ok (),h.withParser p)) : Fed h byte ([],p)
  | request (p r) (taken : h.incomingRequest.valid = false →
      h.transferRxByte byte = (.ok (),{h.withParser p with incomingRequest := ⟨true,some r⟩})) :
      Fed h byte ([.request r],p)
  | response (p r) (taken : h.outgoingResponse.valid = false →
      (∀ request, h.outgoingRequest = some request → echoes r request = true) →
      h.transferRxByte byte = (.ok (),{h.withParser p with outgoingResponse := ⟨true,some r⟩})) :
      Fed h byte ([.response r],p)

theorem finishFed (h : Handler) :
    let u := (Handler.new.withParser h.parser).finishPacket.2
    (u.inSlots = [] ∧ h.finishPacket = (.ok (),h.withParser u.parser)) ∨
    (∃ r, u.inSlots = [.request r] ∧ (h.incomingRequest.valid = false →
      h.finishPacket = (.ok (),{h.withParser u.parser with incomingRequest := ⟨true,some r⟩}))) ∨
    ∃ r, u.inSlots = [.response r] ∧ (h.outgoingResponse.valid = false →
      (∀ request, h.outgoingRequest = some request → echoes r request = true) →
      h.finishPacket = (.ok (),{h.withParser u.parser with outgoingResponse := ⟨true,some r⟩})) := by
  have type : (Handler.new.withParser h.parser).rxPacketType = h.rxPacketType := rfl
  cases request : isRequestType h.rxPacketType with
  | true =>
    refine .inr (.inl ⟨h.rxRequest,?_,fun free => ?_⟩)
    · simp only [finishPacket,finalizeRxPacket,type,request,if_true]
      rfl
    · simp only [finishPacket,finalizeRxPacket,type,request,if_true,free]
      rfl
  | false =>
    cases response : isResponseType h.rxPacketType with
    | false =>
      refine .inl ⟨?_,?_⟩
      · simp only [finishPacket,finalizeRxPacket,type,request,response]
        rfl
      · simp only [finishPacket,finalizeRxPacket,type,request,response]
        rfl
    | true =>
      refine .inr (.inr ⟨h.rxResponse,?_,fun free answers => ?_⟩)
      · simp only [finishPacket,finalizeRxPacket,type,request,response]
        simp only [Handler.new,withParser,inSlots,rxResponse,rxSize,parser]
        simp
        exact ⟨rfl,rfl⟩
      · have matching : (h.outgoingRequest.any fun r => !h.metadataMatches r) = false := by
          rw [Option.any_eq_false]
          intro r out
          have same := answers r out
          simp only [echoes,rxResponse,Bool.and_eq_true,beq_iff_eq] at same
          simp [metadataMatches,same]
        simp only [finishPacket,finalizeRxPacket,type,request,response,free,matching,Bool.and_false]
        simp [Handler.new,withParser,parser]

def takeByte (h : Handler) (byte : Byte) : Except HandlerError Unit × Handler := match h.rxState with
  | .idle => (.ok (),h.takeCtrl0 byte)
  | .ctrl1 => (.ok (),h.takeCtrl1 byte)
  | .len0 => (.ok (),{h with rxTempBurstLen := byte.setWidth 32, rxState := .len1})
  | .len1 => (.ok (),h.takeLen1 byte)
  | .addr byteIdx => h.takeAddr byteIdx byte
  | .payload remaining => h.takePayload remaining byte

theorem openByte {h : Handler} (opened : h.canAcceptRx = true) (byte : Byte) : h.transferRxByte byte = h.takeByte byte := by
  rw [transferRxByte,opened]
  rfl

theorem feedSpec {h : Handler} (opened : h.canAcceptRx = true) (byte : Byte) : Fed h byte (h.parser.feed byte) := by
  have free : (Handler.new.withParser h.parser).canAcceptRx = true := by
    simp [canAcceptRx,withParser,Handler.new]
  have finish (p : Parser) (finished : h.transferRxByte byte = (h.withParser p).finishPacket)
      (same : (Handler.new.withParser h.parser).transferRxByte byte = (Handler.new.withParser p).finishPacket) :
      Fed h byte (h.parser.feed byte) := by
    rw [Parser.feed,same]
    rcases finishFed (h.withParser p) with ⟨empty,taken⟩ | ⟨r,filled,taken⟩ | ⟨r,filled,taken⟩
    · rw [withParserParser] at empty taken
      rw [empty]
      exact .inside _ (finished.trans taken)
    · rw [withParserParser] at filled taken
      rw [filled]
      exact .request _ r fun room => finished.trans (taken room)
    · rw [withParserParser] at filled taken
      rw [filled]
      exact .response _ r fun room answers => finished.trans (taken room answers)
  have inside (p : Parser) (taken : h.transferRxByte byte = (.ok (),h.withParser p))
      (same : (Handler.new.withParser h.parser).transferRxByte byte = (.ok (),Handler.new.withParser p)) :
      Fed h byte (h.parser.feed byte) := by
    rw [Parser.feed,same]
    exact .inside p taken
  have state' : (Handler.new.withParser h.parser).rxState = h.rxState := rfl
  have enter : h.transferRxByte byte = h.takeByte byte := openByte opened byte
  have enter' : (Handler.new.withParser h.parser).transferRxByte byte = (Handler.new.withParser h.parser).takeByte byte :=
    openByte free byte
  cases state : h.rxState with
  | idle =>
    refine inside (h.takeCtrl0 byte).parser (enter.trans ?_) (enter'.trans ?_)
    all_goals
      simp only [takeByte,state,state',takeCtrl0]
      split <;> rfl
  | ctrl1 =>
    refine inside (h.takeCtrl1 byte).parser (enter.trans ?_) (enter'.trans ?_)
    all_goals
      simp only [takeByte,state,state',takeCtrl1]
      split <;> rfl
  | len0 =>
    refine inside {h.parser with burstLen := byte.setWidth 32, state := .len1} (enter.trans ?_) (enter'.trans ?_)
    all_goals
      simp only [takeByte,state,state']
      rfl
  | len1 =>
    refine inside (h.takeLen1 byte).parser (enter.trans ?_) (enter'.trans ?_)
    all_goals
      simp only [takeByte,state,takeLen1,withParser,parser]
      split <;> rfl
  | addr byteIdx =>
    have accumulated : (Handler.new.withParser h.parser).accumulate byteIdx byte =
        Handler.new.withParser (h.accumulate byteIdx byte).parser := rfl
    by_cases last : byteIdx = 3
    · by_cases zero : expectedPayloadLen h.rxPacketType h.rxTempWe h.rxTempSize h.rxTempBurstLen = 0
      · refine finish (h.accumulate byteIdx byte).parser (enter.trans ?_) (enter'.trans ?_)
        · simp only [takeByte,state,takeAddr,if_pos last]
          exact if_pos zero
        · simp only [takeByte,state,state',takeAddr,if_pos last]
          exact if_pos zero
      · refine inside {(h.accumulate byteIdx byte).parser with
            payload := []
            state := .payload (expectedPayloadLen h.rxPacketType h.rxTempWe h.rxTempSize h.rxTempBurstLen)}
          (enter.trans ?_) (enter'.trans ?_)
        · simp only [takeByte,state,takeAddr,if_pos last]
          exact if_neg zero
        · simp only [takeByte,state,state',takeAddr,if_pos last]
          exact if_neg zero
    · refine inside {(h.accumulate byteIdx byte).parser with state := .addr (byteIdx + 1)} (enter.trans ?_) (enter'.trans ?_)
      all_goals
        simp only [takeByte,state,state',takeAddr,if_neg last]
        rfl
  | payload remaining =>
    by_cases last : remaining = 1
    · refine finish (h.push byte).parser (enter.trans ?_) (enter'.trans ?_)
      all_goals
        simp only [takeByte,state,state',takePayload,if_pos last]
        rfl
    · refine inside {(h.push byte).parser with state := .payload (remaining - 1)} (enter.trans ?_) (enter'.trans ?_)
      all_goals
        simp only [takeByte,state,state',takePayload,if_neg last]
        rfl

theorem finishKeeps (h : Handler) :
    (h.incomingRequest.valid = true → h.finishPacket.2.incomingRequest.valid = true) ∧
    (h.outgoingResponse.valid = true → h.finishPacket.2.outgoingResponse.valid = true) := by
  obtain ⟨result,t,same,spec⟩ := finalizeSpec h
  simp only [finishPacket,same]
  cases spec with
  | request | response => exact ⟨fun kept => by simp_all,fun kept => by simp_all⟩
  | requestFull | responseFull | mismatched | unknown => exact ⟨id,id⟩

theorem takeKeeps (h : Handler) (byte : Byte) :
    (h.incomingRequest.valid = true → (h.takeByte byte).2.incomingRequest.valid = true) ∧
    (h.outgoingResponse.valid = true → (h.takeByte byte).2.outgoingResponse.valid = true) := by
  rw [takeByte]
  split
  · simp only [takeCtrl0]
    split <;> exact ⟨id,id⟩
  · simp only [takeCtrl1]
    split <;> exact ⟨id,id⟩
  · exact ⟨id,id⟩
  · simp only [takeLen1]
    split <;> exact ⟨id,id⟩
  · rename_i byteIdx _
    simp only [takeAddr]
    split
    · split
      · exact finishKeeps (h.accumulate byteIdx byte)
      · exact ⟨id,id⟩
    · exact ⟨id,id⟩
  · simp only [takePayload]
    split
    · exact finishKeeps (h.push byte)
    · exact ⟨id,id⟩

theorem takesKeeps {h t : Handler} {bytes : List Byte} (takes : Takes h bytes t) :
    (h.incomingRequest.valid = true → t.incomingRequest.valid = true) ∧
    (h.outgoingResponse.valid = true → t.outgoingResponse.valid = true) := by
  induction bytes generalizing h with
  | nil =>
    cases takes
    exact ⟨id,id⟩
  | cons byte rest ih =>
    obtain ⟨u,now,later⟩ := takes
    cases opened : h.canAcceptRx with
    | false => simp [transferRxByte,opened] at now
    | true =>
      have here := takeKeeps h byte
      rw [← openByte opened,now] at here
      exact ⟨(ih later).1 ∘ here.1,(ih later).2 ∘ here.2⟩

end Handler

namespace Handler.Parser
open Handler

theorem openNew (p : Parser) : (Handler.new.withParser p).canAcceptRx = true := by
  simp [canAcceptRx,withParser,Handler.new]

theorem runSilent {p q : Parser} {bytes : List Byte}
    (takes : Takes (Handler.new.withParser p) bytes (Handler.new.withParser q)) : p.run bytes = ([],q) := by
  induction bytes generalizing p with
  | nil =>
    have same : p = q := congrArg Handler.parser takes
    rw [same,run]
  | cons byte rest ih =>
    obtain ⟨u,now,later⟩ := takes
    have fed := feedSpec (openNew p) byte
    rw [withParserParser] at fed
    generalize same : p.feed byte = next at fed
    cases fed with
    | inside p' taken =>
      have here : u = Handler.new.withParser p' := congrArg Prod.snd (now.symm.trans taken)
      rw [run,same,ih (here ▸ later)]
      rfl
    | request p' r taken =>
      have here : u = _ := congrArg Prod.snd (now.symm.trans (taken rfl))
      have kept := (takesKeeps later).1 (by rw [here])
      simp [withParser,Handler.new] at kept
    | response p' r taken =>
      have here : u = _ := congrArg Prod.snd (now.symm.trans (taken rfl (by simp [withParser,Handler.new])))
      have kept := (takesKeeps later).2 (by rw [here])
      simp [withParser,Handler.new] at kept

def finished (p : Parser) (payload : List Byte) : List Packet × Parser :=
  let t := (Handler.new.withParser {p with state := .idle, payload := payload}).finishPacket.2
  (t.inSlots,t.parser)

theorem finishIdle (p : Parser) : (Handler.new.withParser p).finishPacket.2 =
    (Handler.new.withParser {p with state := .idle}).finishPacket.2 := by
  have type : (Handler.new.withParser p).rxPacketType = p.packetType := rfl
  have type' : (Handler.new.withParser {p with state := .idle}).rxPacketType = p.packetType := rfl
  simp only [finishPacket,finalizeRxPacket,type,type']
  cases isRequestType p.packetType with
  | true => rfl
  | false =>
    cases isResponseType p.packetType with
    | false => rfl
    | true =>
      simp only [withParser,Handler.new,Option.any_none,Bool.and_false]
      rfl

theorem feedPayload {p : Parser} {remaining : Nat} (state : p.state = .payload remaining) (byte : Byte) :
    p.feed byte = if remaining = 1 then p.finished (p.payload ++ [byte])
      else ([],{p with payload := p.payload ++ [byte], state := .payload (remaining - 1)}) := by
  have state' : (Handler.new.withParser p).rxState = .payload remaining := state
  rw [feed,openByte (openNew p),takeByte,state']
  simp only [takePayload]
  split
  · exact congrArg (fun t : Handler => (t.inSlots,t.parser)) (finishIdle {p with payload := p.payload ++ [byte]})
  · rfl

theorem runPart {p : Parser} {remaining : Nat} (data : List Byte) (state : p.state = .payload remaining)
    (part : data.length < remaining) :
    p.run data = ([],{p with payload := p.payload ++ data, state := .payload (remaining - data.length)}) := by
  induction data generalizing p remaining with
  | nil => simp [run,← state]
  | cons byte rest ih =>
    rw [List.length_cons] at part
    have fed := feedPayload state byte
    rw [if_neg (by omega)] at fed
    have later := ih (p := {p with payload := p.payload ++ [byte], state := .payload (remaining - 1)}) rfl (by omega)
    rw [run,fed,later]
    simp only [List.nil_append,List.append_assoc,List.singleton_append,List.length_cons]
    rw [Nat.sub_sub,Nat.add_comm 1]

theorem runPayload {p : Parser} (data : List Byte) (state : p.state = .payload data.length) (nonempty : data ≠ []) :
    p.run data = p.finished (p.payload ++ data) := by
  obtain ⟨init,byte,rfl⟩ : ∃ init byte, data = init ++ [byte] :=
    ⟨data.dropLast,data.getLast nonempty,(List.dropLast_concat_getLast nonempty).symm⟩
  rw [List.length_append,List.length_singleton] at state
  have part := runPart init state (Nat.lt_succ_self _)
  have one : (p.run init).2.state = .payload 1 := by
    rw [part]
    simp
  have last := feedPayload one byte
  rw [if_pos rfl] at last
  rw [runAppend,run,last,part]
  simp only [run,List.nil_append,List.append_nil,List.append_assoc]
  rfl

theorem feedAddr3 {p : Parser} (state : p.state = .addr 3) (byte : Byte) :
    let q := (Handler.accumulate (Handler.new.withParser p) 3 byte).parser
    let payloadLen := expectedPayloadLen p.packetType p.we p.size p.burstLen
    p.feed byte = if payloadLen = 0 then q.finished p.payload
      else ([],{q with payload := [], state := .payload payloadLen}) := by
  have state' : (Handler.new.withParser p).rxState = .addr 3 := state
  simp only [feed,openByte (openNew p),takeByte,state',takeAddr,if_true]
  by_cases zero : expectedPayloadLen p.packetType p.we p.size p.burstLen = 0
  · rw [if_pos zero]
    refine (congrArg (fun r : Except HandlerError Unit × Handler => (r.2.inSlots,r.2.parser)) (if_pos zero)).trans ?_
    exact congrArg (fun t : Handler => (t.inSlots,t.parser))
      (finishIdle (Handler.accumulate (Handler.new.withParser p) 3 byte).parser)
  · rw [if_neg zero]
    exact congrArg (fun r : Except HandlerError Unit × Handler => (r.2.inSlots,r.2.parser)) (if_neg zero)

def headed (p : Parser) (packetType : BitVec 4) (info : Meta) : Parser :=
  ((Handler.new.withParser p).headed packetType info).parser

def expected (packetType : BitVec 4) (info : Meta) : Nat :=
  expectedPayloadLen (packetType.setWidth 8) info.we (info.size.setWidth 8) (info.burstLenM1.setWidth 32 + 1)

section Frame
variable {p : Parser} (rest : p.idle) {packetType : BitVec 4} {info : Meta}
  (known : packetType = 0b0000 ∨ packetType = 0b0011) (size : info.size ≠ 0b11)
include rest known size

theorem runHead : p.run ((HostBus.header packetType info).take 7) = ([],{p.headed packetType info with
    acc := LittleEndian.word 32 [byteAt info.baseAddr 0,byteAt info.baseAddr 1,byteAt info.baseAddr 2]
    state := .addr 3}) :=
  runSilent (takesHeader (h := Handler.new.withParser p) rest.1 (openNew p) known size)

theorem runHeader : p.run (HostBus.header packetType info) =
    if expected packetType info = 0 then (p.headed packetType info).finished []
    else ([],{p.headed packetType info with payload := [], state := .payload (expected packetType info)}) := by
  let q : Parser := {p.headed packetType info with
    acc := LittleEndian.word 32 [byteAt info.baseAddr 0,byteAt info.baseAddr 1,byteAt info.baseAddr 2]
    state := .addr 3}
  have head : p.run ((HostBus.header packetType info).take 7) = ([],q) := runHead rest known size
  have addr : (Handler.accumulate (Handler.new.withParser q) 3 (byteAt info.baseAddr 3)).parser =
      {p.headed packetType info with state := .addr 3} := by
    have before : (Handler.new.withParser q).rxAddrAccumulator =
        LittleEndian.word 32 [byteAt info.baseAddr 0,byteAt info.baseAddr 1,byteAt info.baseAddr 2] := rfl
    have last := accumulateWord before (byteAt info.baseAddr 3)
    rw [List.cons_append,List.cons_append,List.cons_append,List.nil_append,addrWord] at last
    exact congrArg Handler.parser last
  have last := feedAddr3 (p := q) rfl (byteAt info.baseAddr 3)
  have whole : HostBus.header packetType info =
      (HostBus.header packetType info).take 7 ++ [byteAt info.baseAddr 3] := rfl
  have same : expectedPayloadLen q.packetType q.we q.size q.burstLen = expected packetType info := rfl
  have empty : q.payload = [] := rest.2
  simp only [addr,same,empty] at last
  rw [whole,runAppend,head,run,last]
  split
  · simp only [run,List.append_nil]
    rfl
  · simp only [run,List.append_nil]

theorem runFrame {payload : List Byte} (length : payload.length = expected packetType info) :
    p.run (frame packetType info payload) = (p.headed packetType info).finished payload := by
  have head := runHeader rest known size
  rw [frame,runAppend,head]
  by_cases empty : payload = []
  · subst empty
    have zero : expected packetType info = 0 := length.symm
    rw [if_pos zero]
    simp only [run,List.append_nil]
  · have present : ¬expected packetType info = 0 := fun zero => empty (List.length_eq_zero_iff.mp (length.trans zero))
    rw [if_neg present,← length]
    have data := runPayload (p := {p.headed packetType info with
      payload := [], state := .payload payload.length}) payload rfl empty
    simp only [List.nil_append] at data ⊢
    rw [data]
    rfl

theorem runInside {payload xs ys : List Byte} (length : payload.length = expected packetType info)
    (split : frame packetType info payload = xs ++ ys) (nonempty : ys ≠ []) : (p.run xs).1 = [] := by
  have before : (p.run (frame packetType info payload).dropLast).1 = [] := by
    by_cases empty : payload = []
    · have short : (frame packetType info payload).dropLast = (HostBus.header packetType info).take 7 := by
        rw [empty]
        rfl
      rw [short,runHead rest known size]
    · have long : (frame packetType info payload).dropLast = HostBus.header packetType info ++ payload.dropLast := by
        rw [frame,List.dropLast_append_of_ne_nil empty]
      have positive := List.length_pos_iff.mpr empty
      have more : ¬expected packetType info = 0 := by omega
      have part := runPart (p := {p.headed packetType info with
        payload := [], state := .payload (expected packetType info)})
        payload.dropLast rfl (by rw [List.length_dropLast]; omega)
      rw [long,runAppend,runHeader rest known size,if_neg more,part]
      rfl
  rw [split,List.dropLast_append_of_ne_nil nonempty,runAppend] at before
  exact (List.append_eq_nil_iff.mp before).1

end Frame

end Handler.Parser
end RiscvSoc.Host
