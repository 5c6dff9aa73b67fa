import RiscvSoc.Rtl.SdramController

/-! The command stream of the controller on the pins, against the times the device asks for. -/
namespace RiscvSoc.SdramController
open Mealy Machine Sdram

/- The loads of `wait_counter` fit in it, and the recoveries cover the precharge. -/
structure Fit (c : Cycles) : Prop where
  trp : 0 < c.trp ∧ c.trp ≤ 2 ^ c.timerWidth
  trcd : 0 < c.trcd ∧ c.trcd ≤ 2 ^ c.timerWidth
  trfc : 0 < c.trfc ∧ c.trfc ≤ 2 ^ c.timerWidth
  readRecovery : c.trp ≤ c.readRecovery ∧ c.readRecovery ≤ 2 ^ c.timerWidth
  writeRecovery : c.twr + c.trp ≤ c.writeRecovery ∧ c.writeRecovery ≤ 2 ^ c.timerWidth

theorem ceilBound (p : Params) {ns : Nat} (few : ns ≤ 200) :
    nsToCyclesCeil p ns = (p.controllerClkFreqHz.toNat * ns + 999999999) / 1000000000 ∧ nsToCyclesCeil p ns ≤ 1000 := by
  have bound := p.controllerClkFreqHz.isLt
  have product : p.controllerClkFreqHz.toNat * ns ≤ 2 ^ 32 * 200 := Nat.mul_le_mul (by omega) few
  have plain : nsToCyclesCeil p ns = (p.controllerClkFreqHz.toNat * ns + 999999999) / 1000000000 := by
    rw [nsToCyclesCeil,cyclesCeil,u32]
    omega
  exact ⟨plain,by rw [plain]; omega⟩

theorem withinTimer (p : Params) {n : Nat} (most : n ≤ p.timerMax) : n ≤ 2 ^ p.timerWidth := by
  rw [Params.timerWidth]
  split
  · omega
  · exact Nat.le_trans most (Nat.le_pow_clog (by decide) _)

theorem precharged (p : Params) : 2 ≤ p.trp ∧ p.trp ≤ 1000 ∧ p.trcd = p.trp ∧ p.readRecovery = p.trp + 1 := by
  have few := (@ceilBound p 18 (by decide)).2
  have bound : 2 ≤ p.trp ∧ p.trp ≤ 1000 := by
    rw [Params.trp]
    omega
  refine ⟨bound.1,bound.2,rfl,?_⟩
  rw [Params.readRecovery,u32]
  omega

theorem recovered (p : Params) : 2 ≤ p.twr ∧ p.twr ≤ 1000 ∧ p.writeRecovery = p.twr + p.trp + 1 := by
  have few := (@ceilBound p 15 (by decide)).2
  have bound : 2 ≤ p.twr ∧ p.twr ≤ 1000 := by
    rw [Params.twr]
    omega
  have small := precharged p
  refine ⟨bound.1,bound.2,?_⟩
  rw [Params.writeRecovery,u32]
  omega

theorem cyclesFit (p : Params) : Fit p.cycles := by
  obtain ⟨least,_,trcd,read⟩ := precharged p
  obtain ⟨_,_,write⟩ := recovered p
  have covers : p.writeRecovery ≤ 2 ^ p.timerWidth :=
    withinTimer p (Nat.le_trans (Nat.le_max_left _ _) (Nat.le_max_right _ _))
  have refreshes : p.trfc ≤ 2 ^ p.timerWidth :=
    withinTimer p (Nat.le_trans (Nat.le_max_right _ _) (Nat.le_max_left _ _))
  have positive : 0 < p.trfc := Nat.lt_of_lt_of_le (by decide) (Nat.le_max_left 2 _)
  constructor <;> simp only [Params.cycles] <;> omega

theorem timerToNat {c : Cycles} {n : Nat} (fits : 0 < n ∧ n ≤ 2 ^ c.timerWidth) : (Regs.timer c n).toNat = n - 1 :=
  Nat.mod_eq_of_lt (by omega)

abbrev Chip := Device (BitVec 2) (BitVec 13)

def Cycles.timing (c : Cycles) : Timing := ⟨c.trcd,c.trp,c.twr,c.trfc⟩

variable {c : Cycles}

def Regs.command (s : Regs c) : Command (BitVec 2) (BitVec 13) (BitVec 10) := SdramController.command s.outputs

theorem commandNop {s : Regs c} (cmd : s.phyCmd = cmdNop) : s.command = .nop := by
  simp [Regs.command,command,Regs.outputs,cmd,cmdNop,cmdAct,cmdRead,cmdWrite,cmdPrechg,cmdAutoref,cmdLmr]

theorem commandRefresh {s : Regs c} (cmd : s.phyCmd = cmdAutoref) : s.command = .autoRefresh := by
  simp [Regs.command,command,Regs.outputs,cmd,cmdAct,cmdRead,cmdWrite,cmdPrechg,cmdAutoref]

theorem commandMode {s : Regs c} (cmd : s.phyCmd = cmdLmr) : s.command = .loadMode := by
  simp [Regs.command,command,Regs.outputs,cmd,cmdAct,cmdRead,cmdWrite,cmdPrechg,cmdAutoref,cmdLmr]

theorem commandActive {s : Regs c} (cmd : s.phyCmd = cmdAct) : s.command = .active s.phyBa s.phyA := by
  simp [Regs.command,command,Regs.outputs,cmd]

def Follows (s : Regs c) (d : Chip) : Prop := match s.state with
  | .reset | .initWait | .initCke => d.rpWait = 0 ∧ d.rfcWait = 0
  | .initPrechargeWait | .readRecovery | .writeRecovery =>
    d.Precharged ∧ d.rpWait ≤ s.waitCounter.toNat ∧ d.rfcWait = 0
  | .initRefresh0Wait | .initRefresh1Wait | .refreshWait =>
    d.Precharged ∧ d.rpWait = 0 ∧ d.rfcWait ≤ s.waitCounter.toNat
  | .initRefresh0 | .initRefresh1 | .initMr | .initMrWait | .initEmr | .initEmrWait | .idle | .refresh | .activate =>
    d.Precharged ∧ d.rpWait = 0 ∧ d.rfcWait = 0
  | .activateWait =>
    d.OthersPrecharged s.reqBank ∧ d.Open s.reqBank ∧ d.rcdWait ≤ s.waitCounter.toNat ∧ d.rpWait = 0 ∧ d.rfcWait = 0
  | .readCmd0 | .readCmd1 | .writeCmd0 | .writeCmd1 =>
    d.OthersPrecharged s.reqBank ∧ d.Open s.reqBank ∧ d.rcdWait = 0 ∧ d.rpWait = 0 ∧ d.rfcWait = 0
  | .readWait => d.Precharged ∧ d.rpWait < c.trp ∧ d.rfcWait = 0

/- While a bank is open no request for another bank is captured. -/
def Undisturbed (s : Regs c) (i : Inputs) : Prop :=
  s.state = .activate ∨ s.state = .activateWait ∨ s.state = .readCmd0 ∨ s.state = .writeCmd0 →
    s.captures i = true → i.wordAddr.extractLsb' 22 2 = s.reqBank

theorem undisturbedBank {s : Regs c} {i} (calm : Undisturbed s i)
    (opened : s.state = .activate ∨ s.state = .activateWait ∨ s.state = .readCmd0 ∨ s.state = .writeCmd0) :
    (s.base i).reqBank = s.reqBank := by
  simp only [Regs.base,Regs.reqBank]
  split
  · rename_i captured
    exact calm opened captured
  · rfl

def Answers (t : Timing) (d : Chip) (n : Regs c) : Prop := d.Allows n.command ∧ Follows n (d.next t n.command)

theorem quietAnswers {t : Timing} {d : Chip} {n : Regs c} (cmd : n.phyCmd = cmdNop)
    (follows : Follows n {d with rcdWait := d.rcdWait - 1, rpWait := d.rpWait - 1, rfcWait := d.rfcWait - 1}) :
    Answers t d n := by
  rw [Answers,commandNop cmd]
  exact ⟨trivial,follows⟩

theorem countedDown (s b arrived : Regs c) : s.waitCounter.toNat = 0 ∧ s.countDown b arrived = arrived ∨
    ∃ n, s.waitCounter.toNat = n + 1 ∧ s.countDown b arrived = {b with waitCounter := s.waitCounter - 1} ∧
      (s.waitCounter - 1).toNat = n := by
  rw [Regs.countDown]
  by_cases zero : s.waitCounter = 0
  · exact .inl ⟨by simp [zero],if_pos zero⟩
  · have positive : s.waitCounter.toNat ≠ 0 := fun h => zero (BitVec.eq_of_toNat_eq (by simpa using h))
    refine .inr ⟨s.waitCounter.toNat - 1,by omega,if_neg zero,?_⟩
    have wide : c.timerWidth ≠ 0 := by
      intro absent
      have bound := s.waitCounter.isLt
      have single : 2 ^ c.timerWidth = 1 := by rw [absent,Nat.pow_zero]
      omega
    have one : (1 : BitVec c.timerWidth).toNat = 1 := Nat.mod_eq_of_lt (Nat.one_lt_two_pow wide)
    rw [BitVec.toNat_sub_of_le (by rw [BitVec.le_def,one]; omega),one]

theorem countAnswers {t : Timing} {s b arrived : Regs c} {d : Chip} (quiet : b.phyCmd = cmdNop)
    (down : ∀ n, s.waitCounter.toNat = n + 1 → (s.waitCounter - 1).toNat = n →
      Follows {b with waitCounter := s.waitCounter - 1}
        {d with rcdWait := d.rcdWait - 1, rpWait := d.rpWait - 1, rfcWait := d.rfcWait - 1})
    (arrive : s.waitCounter.toNat = 0 → Answers t d arrived) : Answers t d (s.countDown b arrived) := by
  rcases countedDown s b arrived with ⟨zero,same⟩ | ⟨n,more,same,less⟩ <;> rw [same]
  · exact arrive zero
  · exact quietAnswers quiet (down n more less)

theorem waitAnswers {t : Timing} {s : Regs c} {d : Chip} (i : Inputs) (h : Follows s d) {n : Regs c}
    (waits : s.state = .initPrechargeWait ∨ s.state = .readRecovery ∨ s.state = .writeRecovery ∨
      s.state = .initRefresh0Wait ∨ s.state = .initRefresh1Wait ∨ s.state = .refreshWait)
    (cmd : n.phyCmd = cmdNop)
    (arrived : n.state = .idle ∨ n.state = .initRefresh0 ∨ n.state = .initRefresh1 ∨ n.state = .initMr) :
    Answers t d (s.countDown {s.base i with wordBusy := true} n) := by
  refine countAnswers rfl (fun k more less => ?_) (fun zero => quietAnswers cmd ?_)
  · rcases waits with state | state | state | state | state | state <;> simp only [Follows,state] at h <;>
      simp only [Follows,Regs.base,state,less] <;> exact ⟨h.1,by omega,by omega⟩
  · rcases waits with state | state | state | state | state | state <;> simp only [Follows,state,zero] at h <;>
      rcases arrived with next | next | next | next <;> simp only [Follows,next] <;> exact ⟨h.1,by omega,by omega⟩

theorem initAnswers (fit : Fit c) {s : Regs c} {d : Chip} (i : Inputs) (h : Follows s d)
    (init : s.state = .reset ∨ s.state = .initWait ∨ s.state = .initCke) : Answers c.timing d (s.next i) := by
  have loaded := timerToNat fit.trp
  rcases init with state | state | state <;> simp only [Follows,state] at h <;> simp only [Regs.next,state]
  · exact quietAnswers rfl (by simp [Follows,h])
  · exact countAnswers rfl (fun n more less => by simp [Follows,Regs.base,state,h]) (fun zero =>
      quietAnswers rfl (by simp [Follows,h]))
  · refine countAnswers rfl (fun n more less => by simp [Follows,Regs.base,state,h]) (fun zero => ?_)
    constructor
    · simp [Regs.command,command,Regs.outputs,cmdAct,cmdRead,cmdWrite,cmdPrechg,Device.Allows,h]
    · simp [Regs.command,command,Regs.outputs,cmdAct,cmdRead,cmdWrite,cmdPrechg,Device.next,Device.take,Follows,
        Device.Precharged,loaded,Cycles.timing,h]

theorem refreshAnswers (fit : Fit c) {n : Regs c} {d : Chip} (ready : d.Precharged ∧ d.rpWait = 0 ∧ d.rfcWait = 0)
    (cmd : n.phyCmd = cmdAutoref) (loaded : n.waitCounter = Regs.timer c c.trfc)
    (waits : n.state = .initRefresh0Wait ∨ n.state = .initRefresh1Wait ∨ n.state = .refreshWait) :
    Answers c.timing d n := by
  have counts := timerToNat fit.trfc
  obtain ⟨closed,rp,rfc⟩ := ready
  rw [Answers,commandRefresh cmd]
  refine ⟨⟨rfc,rp,closed⟩,?_⟩
  rcases waits with state | state | state <;> simp only [Follows,state,loaded,counts] <;>
    exact ⟨closed,by simp [Device.next,Device.take,rp],by simp [Device.next,Device.take,Cycles.timing]⟩

theorem modeAnswers {t : Timing} {n : Regs c} {d : Chip} (ready : d.Precharged ∧ d.rpWait = 0 ∧ d.rfcWait = 0)
    (cmd : n.phyCmd = cmdLmr) (waits : n.state = .initMrWait ∨ n.state = .initEmrWait) : Answers t d n := by
  obtain ⟨closed,rp,rfc⟩ := ready
  rw [Answers,commandMode cmd]
  refine ⟨rfc,?_⟩
  rcases waits with state | state <;> simp only [Follows,state] <;>
    exact ⟨closed,by simp [Device.next,Device.take,rp],by simp [Device.next,Device.take,rfc]⟩

theorem settledAnswers {t : Timing} {n : Regs c} {d : Chip} (ready : d.Precharged ∧ d.rpWait = 0 ∧ d.rfcWait = 0)
    (cmd : n.phyCmd = cmdNop) (settled : n.state = .initMrWait ∨ n.state = .initEmr ∨ n.state = .initEmrWait ∨
      n.state = .idle ∨ n.state = .refresh ∨ n.state = .activate) : Answers t d n := by
  obtain ⟨closed,rp,rfc⟩ := ready
  refine quietAnswers cmd ?_
  rcases settled with state | state | state | state | state | state <;> simp only [Follows,state,rp,rfc] <;>
    exact ⟨closed,trivial,trivial⟩

theorem idleAnswers {t : Timing} {s : Regs c} {d : Chip} (i : Inputs) (h : Follows s d) (idle : s.state = .idle) :
    Answers t d (s.next i) := by
  simp only [Follows,idle] at h
  simp only [Regs.next,idle,Regs.idle]
  split
  · exact settledAnswers h rfl (by simp)
  · split
    · exact settledAnswers h rfl (by simp)
    · exact settledAnswers h rfl (by simp [Regs.base,idle])

theorem activateAnswers (fit : Fit c) {s : Regs c} {d : Chip} (i : Inputs) (h : Follows s d)
    (calm : Undisturbed s i) (state : s.state = .activate) : Answers c.timing d (s.next i) := by
  have loaded := timerToNat fit.trcd
  have same := undisturbedBank calm (.inl state)
  simp only [Follows,state] at h
  obtain ⟨closed,rp,rfc⟩ := h
  simp only [Regs.next,state]
  rw [Answers,commandActive rfl]
  refine ⟨⟨rfc,rp,closed _⟩,?_⟩
  simp only [Follows,Regs.reqBank] at same ⊢
  refine ⟨fun other differs => ?_,⟨s.reqRow,?_⟩,?_,by simp [Device.next,Device.take,rp],by simp [Device.next,Device.take,rfc]⟩
  · rw [same] at differs
    simp only [Device.next,Device.take]
    rw [if_neg differs]
    exact closed other
  · simp [Device.next,Device.take,same]
  · rw [loaded]
    simp [Device.next,Device.take,Cycles.timing]

theorem activateWaitAnswers {t : Timing} {s : Regs c} {d : Chip} (i : Inputs) (h : Follows s d)
    (calm : Undisturbed s i) (state : s.state = .activateWait) : Answers t d (s.next i) := by
  have same := undisturbedBank calm (.inr (.inl state))
  simp only [Follows,state] at h
  obtain ⟨others,opened,rcd,rp,rfc⟩ := h
  simp only [Regs.reqBank] at same others opened
  simp only [Regs.next,state]
  refine countAnswers rfl (fun n more less => ?_) (fun zero => quietAnswers rfl ?_)
  · simp only [Follows,Regs.base,state,less,Regs.reqBank] at same ⊢
    rw [same]
    exact ⟨others,opened,by omega,by omega,by omega⟩
  · have waited : d.rcdWait - 1 = 0 := by omega
    cases s.reqIsWrite <;> simp only [Follows,Regs.reqBank,same,waited,rp,rfc] <;> exact ⟨others,opened,trivial,trivial,trivial⟩

theorem accessA10 (second : Bool) (column : BitVec 10) :
    (0b00#2 ++ BitVec.ofBool second ++ column : BitVec 13).getLsbD 10 = second := by
  rw [BitVec.getLsbD_append,BitVec.getLsbD_append]
  cases second <;> rfl

structure Accesses (s n : Regs c) (second : Bool) : Prop where
  cmd : n.phyCmd = cmdRead ∨ n.phyCmd = cmdWrite
  bank : n.phyBa = s.reqBank
  a10 : n.phyA.getLsbD 10 = second

theorem commandAccess {s n : Regs c} {second} (h : Accesses s n second) :
    n.phyCmd = cmdRead ∧ n.command = .read s.reqBank (n.phyA.extractLsb' 0 10) second ∨
    n.phyCmd = cmdWrite ∧ n.command = .write s.reqBank (n.phyA.extractLsb' 0 10) second := by
  rcases h.cmd with cmd | cmd
  · exact .inl ⟨cmd,by simpa [Regs.command,command,Regs.outputs,cmd,h.bank,cmdRead,cmdAct] using h.a10⟩
  · exact .inr ⟨cmd,by simpa [Regs.command,command,Regs.outputs,cmd,h.bank,cmdRead,cmdAct,cmdWrite] using h.a10⟩

def Opened (s : Regs c) (d : Chip) : Prop :=
  d.OthersPrecharged s.reqBank ∧ d.Open s.reqBank ∧ d.rcdWait = 0 ∧ d.rpWait = 0 ∧ d.rfcWait = 0

theorem firstAnswers {t : Timing} {s n : Regs c} {d : Chip} (h : Opened s d) (access : Accesses s n false)
    (bank : n.reqBank = s.reqBank) (state : n.state = .readCmd1 ∨ n.state = .writeCmd1) : Answers t d n := by
  obtain ⟨others,opened,rcd,rp,rfc⟩ := h
  rcases commandAccess access with ⟨_,command⟩ | ⟨_,command⟩ <;> rw [Answers,command] <;> refine ⟨⟨rfc,rcd,opened⟩,?_⟩ <;>
    rcases state with state | state <;> simp only [Follows,state,bank] <;>
    exact ⟨others,opened,by simp [Device.next,Device.take,rcd],by simp [Device.next,Device.take,rp],
      by simp [Device.next,Device.take,rfc]⟩

theorem closedBank {d : Chip} {bank : BitVec 2} (others : d.OthersPrecharged bank) (wait : Nat) : (d.close bank wait).Precharged := by
  intro other
  simp only [Device.close]
  split
  · rfl
  · rename_i differs
    exact others other differs

theorem secondReadAnswers (fit : Fit c) {s n : Regs c} {d : Chip} (h : Opened s d) (access : Accesses s n true)
    (read : n.phyCmd = cmdRead) (state : n.state = .readWait) : Answers c.timing d n := by
  obtain ⟨others,opened,rcd,rp,rfc⟩ := h
  have present := fit.trp.1
  rcases commandAccess access with ⟨_,command⟩ | ⟨wrong,_⟩
  · rw [Answers,command]
    refine ⟨⟨rfc,rcd,opened⟩,?_⟩
    simp only [Follows,state]
    exact ⟨closedBank others c.trp,by simp only [Device.next,Device.take,Device.close,Cycles.timing]; omega,
      by simp [Device.next,Device.take,Device.close,rfc]⟩
  · rw [read] at wrong
    exact absurd wrong (by decide)

theorem secondWriteAnswers (fit : Fit c) {s n : Regs c} {d : Chip} (h : Opened s d) (access : Accesses s n true)
    (write : n.phyCmd = cmdWrite) (state : n.state = .writeRecovery)
    (loaded : n.waitCounter = Regs.timer c c.writeRecovery) : Answers c.timing d n := by
  obtain ⟨others,opened,rcd,rp,rfc⟩ := h
  have covers := fit.writeRecovery
  have present := fit.trp.1
  have counts := timerToNat (c := c) (n := c.writeRecovery) ⟨by omega,covers.2⟩
  rcases commandAccess access with ⟨wrong,_⟩ | ⟨_,command⟩
  · rw [write] at wrong
    exact absurd wrong (by decide)
  · rw [Answers,command]
    refine ⟨⟨rfc,rcd,opened⟩,?_⟩
    simp only [Follows,state,loaded,counts]
    exact ⟨closedBank others (c.twr + c.trp),by simp only [Device.next,Device.take,Device.close,Cycles.timing]; omega,
      by simp [Device.next,Device.take,Device.close,rfc]⟩

theorem readWaitAnswers (fit : Fit c) {t : Timing} {s : Regs c} {d : Chip} (i : Inputs) (h : Follows s d)
    (state : s.state = .readWait) : Answers t d (s.next i) := by
  simp only [Follows,state] at h
  obtain ⟨closed,rp,rfc⟩ := h
  have covers := fit.readRecovery
  have counts := timerToNat (c := c) (n := c.readRecovery) ⟨by omega,covers.2⟩
  simp only [Regs.next,state,Regs.readWait]
  split
  · split
    · refine quietAnswers rfl ?_
      simp only [Follows,counts]
      exact ⟨closed,by omega,by omega⟩
    · refine quietAnswers rfl ?_
      simp only [Follows,Regs.base,state]
      exact ⟨closed,by omega,by omega⟩
  · refine quietAnswers rfl ?_
    simp only [Follows,Regs.base,state]
    exact ⟨closed,by omega,by omega⟩

theorem nextAnswers (fit : Fit c) {s : Regs c} {d : Chip} (i : Inputs) (h : Follows s d) (calm : Undisturbed s i) :
    Answers c.timing d (s.next i) := by
  cases state : s.state with
  | reset => exact initAnswers fit i h (.inl state)
  | initWait => exact initAnswers fit i h (.inr (.inl state))
  | initCke => exact initAnswers fit i h (.inr (.inr state))
  | initPrechargeWait | initRefresh0Wait | initRefresh1Wait | refreshWait | readRecovery | writeRecovery =>
    simp only [Regs.next,state]
    exact waitAnswers i h (by simp [state]) rfl (by simp)
  | initRefresh0 | initRefresh1 | refresh =>
    simp only [Follows,state] at h
    simp only [Regs.next,state]
    exact refreshAnswers fit h rfl rfl (by simp [Regs.autoRefresh])
  | initMr | initEmr =>
    simp only [Follows,state] at h
    simp only [Regs.next,state]
    exact modeAnswers h rfl (by simp)
  | initMrWait | initEmrWait =>
    simp only [Follows,state] at h
    simp only [Regs.next,state]
    rcases countedDown s {s.base i with wordBusy := true} _ with ⟨_,same⟩ | ⟨n,_,same,_⟩ <;> rw [same] <;>
      exact settledAnswers h rfl (by simp [Regs.base,state])
  | idle => exact idleAnswers i h state
  | activate => exact activateAnswers fit i h calm state
  | activateWait => exact activateWaitAnswers i h calm state
  | readCmd0 =>
    simp only [Follows,state] at h
    simp only [Regs.next,state]
    exact firstAnswers h ⟨.inl rfl,rfl,accessA10 false _⟩ (undisturbedBank calm (by simp [state])) (.inl rfl)
  | readCmd1 =>
    simp only [Follows,state] at h
    simp only [Regs.next,state]
    exact secondReadAnswers fit h ⟨.inl rfl,rfl,accessA10 true _⟩ rfl rfl
  | readWait => exact readWaitAnswers fit i h state
  | writeCmd0 =>
    simp only [Follows,state] at h
    simp only [Regs.next,state]
    exact firstAnswers h ⟨.inr rfl,rfl,accessA10 false _⟩ (undisturbedBank calm (by simp [state])) (.inr rfl)
  | writeCmd1 =>
    simp only [Follows,state] at h
    simp only [Regs.next,state]
    exact secondWriteAnswers fit h ⟨.inr rfl,rfl,accessA10 true _⟩ rfl rfl rfl

theorem resetAnswers (s : Regs c) : Answers c.timing .powerUp (reset s) :=
  quietAnswers rfl ⟨rfl,rfl⟩

theorem commandsLegal (p : Params) (s : Regs p.cycles) (inputs : List Inputs)
    (calm : (machine p.cycles).Steps Undisturbed (reset s) inputs) :
    Legal p.cycles.timing .powerUp (((machine p.cycles).outputs (reset s) inputs).map command) := by
  refine legalRun (R := fun s d => Answers p.cycles.timing d s) (fun s d i h => h.1) ?_ inputs (resetAnswers s) calm
  intro s d i h calm
  exact nextAnswers (cyclesFit p) i h.2 calm

/- The cycle counts are as long as the device's nanoseconds. -/
def Params.Covered (p : Params) : Prop :=
  18 * p.controllerClkFreqHz.toNat ≤ p.cycles.timing.rcd * 1000000000 ∧
  18 * p.controllerClkFreqHz.toNat ≤ p.cycles.timing.rp * 1000000000 ∧
  15 * p.controllerClkFreqHz.toNat ≤ p.cycles.timing.wr * 1000000000 ∧
  80 * p.controllerClkFreqHz.toNat ≤ p.cycles.timing.rfc * 1000000000

theorem timingCovers (p : Params) : p.Covered := by
  have covers {ns : Nat} (few : ns ≤ 200) : ns * p.controllerClkFreqHz.toNat ≤ max 2 (nsToCyclesCeil p ns) * 1000000000 := by
    have ceil := (ceilBound p few).1
    rw [Nat.mul_comm ns]
    omega
  exact ⟨covers (by decide),covers (by decide),covers (by decide),covers (by decide)⟩

def OpenBusy (s : Regs c) : Prop :=
  s.state = .activate ∨ s.state = .activateWait ∨ s.state = .readCmd0 ∨ s.state = .writeCmd0 → s.wordBusy = true

theorem openBusyNext {s : Regs c} (h : OpenBusy s) (i : Inputs) : OpenBusy (s.next i) := by
  intro opened
  cases state : s.state with
  | idle =>
    simp only [Regs.next,state,Regs.idle] at opened ⊢
    split
    · rfl
    · split
      · rfl
      · rename_i absent quiet
        rw [if_neg absent,if_neg quiet] at opened
        simp [Regs.base,state] at opened
  | activate | readCmd0 | readCmd1 | writeCmd0 | writeCmd1 =>
    simp only [Regs.next,state] at opened ⊢
    first | rfl | exact h (by simp [state])
  | activateWait =>
    simp only [Regs.next,state,Regs.countDown]
    split <;> rfl
  | reset | initRefresh0 | initRefresh1 | initMr | initEmr | refresh =>
    simp [Regs.next,state,Regs.autoRefresh] at opened
  | initWait | initCke | initPrechargeWait | initRefresh0Wait | initRefresh1Wait | initMrWait =>
    simp only [Regs.next,state,Regs.countDown]
    split <;> rfl
  | initEmrWait | refreshWait | readRecovery | writeRecovery =>
    simp only [Regs.next,state,Regs.countDown] at opened ⊢
    split
    · rename_i zero
      rw [if_pos zero] at opened
      simp at opened
    · rfl
  | readWait =>
    simp only [Regs.next,state,Regs.readWait]
    split
    · split <;> rfl
    · rfl

/- Requests that wait for `word_busy` never come while a bank is open. -/
theorem waitingUndisturbed {s : Regs c} (inputs : List Inputs) (h : OpenBusy s)
    (waits : (machine c).Steps (fun s i => s.wordBusy = true → i.wordRd = false ∧ i.wordWr = false) s inputs) :
    (machine c).Steps Undisturbed s inputs := by
  refine stepsAll (fun s i (h : OpenBusy s) here => ⟨openBusyNext h i,fun opened captured => ?_⟩) h waits
  obtain ⟨noRead,noWrite⟩ := here (h opened)
  simp [Regs.captures,noRead,noWrite] at captured

/- From reset on, every command on the pins keeps the times of the device and finds the bank
it needs, as long as no request for another bank comes while a bank is open. -/
theorem commandsTimed (p : Params) (s : Regs p.cycles) (inputs : List Inputs)
    (calm : (machine p.cycles).Steps Undisturbed (reset s) inputs) :
    p.Covered ∧ Legal p.cycles.timing .powerUp (((machine p.cycles).outputs (reset s) inputs).map command) :=
  ⟨timingCovers p,commandsLegal p s inputs calm⟩

/- A controller clock of 5 MHz and no delay before the initialisation. -/
def slowClock : Params := ⟨5000000,3,0,0⟩
def quiet : Inputs := ⟨false,false,0,0,0⟩
def readOf (bank : BitVec 2) : Inputs := {quiet with wordRd := true, wordAddr := bank ++ 0#22}
def pins (inputs : List Inputs) : List (Command (BitVec 2) (BitVec 13) (BitVec 10)) :=
  ((machine slowClock.cycles).outputs (reset default) inputs).map command

instance (s : Regs c) (i : Inputs) : Decidable (Undisturbed s i) :=
  inferInstanceAs (Decidable (_ ∨ _ ∨ _ ∨ _ → _ = _ → _ = _))
instance (d : Chip) : Decidable d.Precharged := inferInstanceAs (Decidable (∀ _ : BitVec 2, _ = _))

theorem readTimed : slowClock.Covered ∧ Legal slowClock.cycles.timing .powerUp
    (pins (List.replicate 25 quiet ++ readOf 1 :: List.replicate 30 quiet)) :=
  commandsTimed slowClock default _ (by decide +kernel)

/- A request for bank 2 between the ACTIVE and the READ of bank 1. -/
theorem otherBankRead : slowClock.Accepted ∧ ¬ Legal slowClock.cycles.timing .powerUp
    (pins (List.replicate 28 quiet ++ readOf 1 :: quiet :: quiet :: readOf 2 :: List.replicate 10 quiet)) := by
  decide +kernel

end RiscvSoc.SdramController
