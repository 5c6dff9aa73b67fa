import RiscvSoc.Lib.BitNumbers
import RiscvSoc.Lib.Spacing
import RiscvSoc.Rtl.SdramTiming

/-! How long the device waits for its next AUTO REFRESH. An access that starts when the
interval ends is paid for by `REFRESH_SLIP_CYCLES`, which counts one cycle too few for reads;
an interval that ends while the last refresh is being issued is lost. -/
namespace RiscvSoc.SdramController
open Mealy Machine Sdram

structure Slack (c : Cycles) : Prop where
  interval : 2 ≤ c.refreshInterval ∧ c.refreshInterval ≤ 2 ^ c.timerWidth
  refresh : 2 ≤ c.trfc ∧ c.trfc + 2 ≤ c.refreshMax
  activate : c.trcd ≤ c.trfc
  idle : 3 ≤ c.refreshInterval → c.refreshInterval ≤ c.refreshMax
  write : 3 ≤ c.refreshInterval → c.refreshInterval + c.trcd + c.writeRecovery + 3 ≤ c.refreshMax
  read : 3 ≤ c.refreshInterval →
    c.refreshInterval + c.trcd + c.readCompletionStages + c.readRecovery + 2 ≤ c.refreshMax
  short : c.readCompletionStages ≤ c.twr → c.readCompletionStages + c.readRecovery ≤ c.writeRecovery

theorem floorFits (p : Params) : p.refreshMax = max 2 (p.controllerClkFreqHz.toNat * 7813 / 1000000000) := by
  have bound := p.controllerClkFreqHz.isLt
  have product : p.controllerClkFreqHz.toNat * 7813 < 2 ^ 64 := by omega
  have quotient : p.controllerClkFreqHz.toNat * 7813 / 1000000000 < 2 ^ 32 := by omega
  rw [Params.refreshMax,nsToCyclesFloor,u32,Nat.mod_eq_of_lt product,Nat.mod_eq_of_lt quotient]

theorem slipCovers (p : Params) : p.trcd + p.writeRecovery + 3 ≤ p.refreshSlip := by
  obtain ⟨_,most,trcd,_⟩ := precharged p
  obtain ⟨_,twrMost,write⟩ := recovered p
  have small : p.trcd + p.writeRecovery + 3 < 2 ^ 32 := by omega
  rw [Params.refreshSlip,show u32 (p.trcd + p.writeRecovery + 3) = _ from Nat.mod_eq_of_lt small]
  exact Nat.le_max_right _ _

theorem intervalSlips (p : Params) (slips : p.refreshSlip < p.refreshMax) :
    p.refreshInterval = max 2 (p.refreshMax - p.refreshSlip) := by
  have most : p.refreshMax < 2 ^ 32 := by
    have bound := p.controllerClkFreqHz.isLt
    rw [floorFits]
    omega
  have wrapped : p.refreshMax + (2 ^ 32 - p.refreshSlip) = (p.refreshMax - p.refreshSlip) + 2 ^ 32 := by omega
  rw [Params.refreshInterval,u32,wrapped,Nat.add_mod_right,Nat.mod_eq_of_lt (by omega)]

theorem refreshShort (p : Params) (slips : p.refreshSlip < p.refreshMax) : p.trfc + 2 ≤ p.refreshMax := by
  have covers := slipCovers p
  have least := (precharged p).2.2.1
  have recovery : 4 ≤ p.writeRecovery := Nat.le_max_left _ _
  have present := (precharged p).1
  have ten : 9 < max 2 (p.controllerClkFreqHz.toNat * 7813 / 1000000000) := by
    rw [← floorFits]
    omega
  have fast : 10 ≤ p.controllerClkFreqHz.toNat * 7813 / 1000000000 := by omega
  have refresh := (@ceilBound p 80 (by decide)).1
  have ceil : (p.controllerClkFreqHz.toNat * 80 + 999999999) / 1000000000 + 2 ≤
      p.controllerClkFreqHz.toNat * 7813 / 1000000000 := by
    clear refresh ten slips covers least recovery present
    omega
  rw [Params.trfc,refresh,floorFits]
  generalize (p.controllerClkFreqHz.toNat * 80 + 999999999) / 1000000000 = shortest at ceil
  generalize p.controllerClkFreqHz.toNat * 7813 / 1000000000 = longest at ceil fast
  clear refresh ten
  omega

theorem activateShort (p : Params) : p.trcd ≤ p.trfc := by
  have longer : nsToCyclesCeil p 18 ≤ nsToCyclesCeil p 80 := by
    rw [(@ceilBound p 18 (by decide)).1,(@ceilBound p 80 (by decide)).1]
    exact Nat.div_le_div_right (by omega)
  rw [Params.trcd,Params.trfc]
  omega

def Params.SlipFits (p : Params) : Prop :=
  p.trcd + p.readCompletionStages + p.readRecovery + 2 < 2 ^ 32

theorem intervalTimed (p : Params) : 2 ≤ p.refreshInterval ∧ p.refreshInterval ≤ 2 ^ p.timerWidth :=
  ⟨Nat.le_max_left _ _,withinTimer p (Nat.le_trans (Nat.le_max_right _ _) (Nat.le_max_right _ _))⟩

theorem cyclesSlack (p : Params) (slips : p.refreshSlip < p.refreshMax) (fits : p.SlipFits) : Slack p.cycles := by
  have interval := intervalSlips p slips
  have write := slipCovers p
  obtain ⟨least,_,trcd,read⟩ := precharged p
  obtain ⟨twrLeast,_,recovery⟩ := recovered p
  have slip : p.trcd + p.readCompletionStages + p.readRecovery + 2 ≤ p.refreshSlip := by
    rw [Params.refreshSlip,show u32 (p.trcd + p.readCompletionStages + p.readRecovery + 2) = _ from Nat.mod_eq_of_lt fits]
    exact Nat.le_max_left _ _
  have within := (intervalTimed p).2
  have present : 2 ≤ p.trfc := by
    rw [Params.trfc]
    exact Nat.le_max_left _ _
  have short := refreshShort p slips
  have activate := activateShort p
  constructor <;> simp only [Params.cycles] <;> omega

variable {c : Cycles}

def Regs.waited (s : Regs c) : Nat := s.waitCounter.toNat
def Regs.counted (s : Regs c) : Nat := s.refreshCounter.toNat

def Regs.stage (s : Regs c) : Nat := Nat.log2 s.readCaptureLastPipe.toNat

def State.initialised : State → Bool
  | .reset | .initWait | .initCke | .initPrechargeWait | .initRefresh0 | .initRefresh0Wait | .initRefresh1
  | .initRefresh1Wait | .initMr | .initMrWait | .initEmr | .initEmrWait => false
  | _ => true

inductive Move (s t : Regs c) : Prop where
  | refreshStarts (state : s.state = .idle) (pending : s.refreshPending = true) (next : t.state = .refresh)
  | accessStarts (state : s.state = .idle) (absent : s.refreshPending = false) (next : t.state = .activate)
  | rests (state : s.state = .idle) (absent : s.refreshPending = false) (next : t.state = .idle)
  | refresh (state : s.state = .refresh) (next : t.state = .refreshWait) (loaded : t.waited + 1 = c.trfc)
  | waits (state : s.state = .refreshWait ∨ s.state = .readRecovery ∨ s.state = .writeRecovery ∨ s.state = .activateWait)
      (next : t.state = s.state) (down : t.waited + 1 = s.waited)
  | settles (state : s.state = .refreshWait ∨ s.state = .readRecovery ∨ s.state = .writeRecovery)
      (zero : s.waited = 0) (next : t.state = .idle)
  | activate (state : s.state = .activate) (next : t.state = .activateWait) (loaded : t.waited + 1 = c.trcd)
  | writes (state : s.state = .activateWait) (zero : s.waited = 0) (write : s.reqIsWrite = true) (next : t.state = .writeCmd0)
  | reads (state : s.state = .activateWait) (zero : s.waited = 0) (read : s.reqIsWrite = false) (next : t.state = .readCmd0)
  | readSecond (state : s.state = .readCmd0) (next : t.state = .readCmd1)
  | readLast (state : s.state = .readCmd1) (next : t.state = .readWait) (stage : t.stage = 0)
  | captures (state : s.state = .readWait) (inside : s.stage + 1 < c.readCompletionStages) (next : t.state = .readWait)
      (stage : t.stage = s.stage + 1)
  | captured (state : s.state = .readWait) (last : s.stage + 1 = c.readCompletionStages) (next : t.state = .readRecovery)
      (loaded : t.waited + 1 = c.readRecovery)
  | writeSecond (state : s.state = .writeCmd0) (next : t.state = .writeCmd1)
  | writeLast (state : s.state = .writeCmd1) (next : t.state = .writeRecovery) (loaded : t.waited + 1 = c.writeRecovery)

def Piped (s : Regs c) : Prop :=
  if s.state = .readWait then ∃ stage, stage < c.readCompletionStages ∧ s.readCaptureLastPipe.toNat = 2 ^ stage ∧
    s.readCaptureValidPipe.getLsbD stage = true
  else s.readCaptureLastPipe = 0

theorem emptyShifts {w : Nat} : (0 : BitVec w).shiftConcat false = 0 := by
  apply BitVec.eq_of_toNat_eq
  simp [BitVec.toNat_shiftConcat]

theorem markShifts {w stage : Nat} {pipe : BitVec w} (mark : pipe.toNat = 2 ^ stage) (inside : stage + 1 < w) :
    (pipe.shiftConcat false).toNat = 2 ^ (stage + 1) := by
  rw [BitVec.toNat_shiftConcat,mark,Nat.shiftLeft_eq,Nat.pow_one,← Nat.pow_succ]
  exact Nat.mod_eq_of_lt (Nat.pow_lt_pow_right (by decide) inside)

theorem markLeaves {w stage : Nat} {pipe : BitVec w} (mark : pipe.toNat = 2 ^ stage) (last : stage + 1 = w) :
    pipe.shiftConcat false = 0 := by
  apply BitVec.eq_of_toNat_eq
  rw [BitVec.toNat_shiftConcat,mark,Nat.shiftLeft_eq,Nat.pow_one,← Nat.pow_succ]
  simp [last]

theorem markMsb {w stage : Nat} {pipe : BitVec w} (mark : pipe.toNat = 2 ^ stage) (inside : stage < w) :
    pipe.msb = decide (stage + 1 = w) := by
  rw [BitVec.msb_eq_decide,mark]
  by_cases last : stage + 1 = w
  · have top : w - 1 = stage := by omega
    simp [last,top]
  · have below : 2 ^ stage < 2 ^ (w - 1) := Nat.pow_lt_pow_right (by decide) (by omega)
    rw [decide_eq_false last,decide_eq_false (Nat.not_le.mpr below)]

theorem readWaitMoves {s : Regs c} {stage : Nat} (i : Inputs) (state : s.state = .readWait)
    (inside : stage < c.readCompletionStages) (mark : s.readCaptureLastPipe.toNat = 2 ^ stage)
    (valid : s.readCaptureValidPipe.getLsbD stage = true) :
    (stage + 1 < c.readCompletionStages ∧ (s.next i).state = .readWait ∨
      stage + 1 = c.readCompletionStages ∧ (s.next i).state = .readRecovery ∧
        (s.next i).waitCounter = Regs.timer c c.readRecovery) ∧
    (s.next i).readCaptureLastPipe = s.readCaptureLastPipe.shiftConcat false ∧
    (s.next i).readCaptureValidPipe = s.readCaptureValidPipe.shiftConcat false := by
  have top := markMsb mark inside
  simp only [Regs.next,state,Regs.readWait]
  by_cases last : stage + 1 = c.readCompletionStages
  · have arrived : s.readCaptureValidPipe.msb = true := by
      have stage' : c.readCompletionStages - 1 = stage := by omega
      rw [BitVec.msb_eq_getLsbD_last,stage']
      exact valid
    rw [decide_eq_true last] at top
    rw [if_pos arrived,if_pos top]
    exact ⟨.inr ⟨last,rfl,rfl⟩,rfl,rfl⟩
  · rw [decide_eq_false last] at top
    have more : stage + 1 < c.readCompletionStages := by omega
    split
    · rw [if_neg (by simp [top])]
      exact ⟨.inl ⟨more,state⟩,rfl,rfl⟩
    · exact ⟨.inl ⟨more,state⟩,rfl,rfl⟩

theorem countedState (s b arrived : Regs c) : (s.waited = 0 ∧ s.countDown b arrived = arrived) ∨
    (∃ n, s.waited = n + 1 ∧ (s.countDown b arrived).waited = n ∧ (s.countDown b arrived).state = b.state ∧
      (s.countDown b arrived).readCaptureLastPipe = b.readCaptureLastPipe) := by
  rcases countedDown s b arrived with ⟨zero,same⟩ | ⟨n,more,same,less⟩
  · exact .inl ⟨zero,same⟩
  · refine .inr ⟨n,more,?_⟩
    rw [same]
    exact ⟨less,rfl,rfl⟩

theorem pipeShifts (s : Regs c) (i : Inputs)
    (other : s.state ≠ .readCmd0 ∧ s.state ≠ .readCmd1 ∧ s.state ≠ .readWait) :
    (s.next i).readCaptureLastPipe = s.readCaptureLastPipe.shiftConcat false ∧ (s.next i).state ≠ .readWait := by
  cases state : s.state with
  | readCmd0 => exact absurd state other.1
  | readCmd1 => exact absurd state other.2.1
  | readWait => exact absurd state other.2.2
  | idle =>
    simp only [Regs.next,state,Regs.idle]
    split
    · exact ⟨rfl,by simp⟩
    · split
      · exact ⟨rfl,by simp⟩
      · exact ⟨rfl,by simp [Regs.base,state]⟩
  | reset | initRefresh0 | initRefresh1 | initMr | initEmr | refresh | activate | writeCmd0 | writeCmd1 =>
    simp only [Regs.next,state]
    exact ⟨rfl,by simp [Regs.autoRefresh]⟩
  | initWait | initCke | initPrechargeWait | initRefresh0Wait | initRefresh1Wait | initMrWait | initEmrWait
  | refreshWait | readRecovery | writeRecovery =>
    simp only [Regs.next,state]
    rcases countedState s {s.base i with wordBusy := true} _ with ⟨_,same⟩ | ⟨n,_,_,stays,pipe⟩
    · rw [same]
      exact ⟨rfl,by simp⟩
    · exact ⟨pipe,by rw [stays]; simp [Regs.base,state]⟩
  | activateWait =>
    simp only [Regs.next,state]
    rcases countedState s {s.base i with wordBusy := true} _ with ⟨_,same⟩ | ⟨n,_,_,stays,pipe⟩
    · rw [same]
      exact ⟨rfl,by cases s.reqIsWrite <;> simp⟩
    · exact ⟨pipe,by rw [stays]; simp [Regs.base,state]⟩

theorem pipedNext (stages : 0 < c.readCompletionStages) {s : Regs c} (h : Piped s) (i : Inputs) : Piped (s.next i) := by
  rw [Piped] at h
  by_cases waits : s.state = .readWait
  · rw [if_pos waits] at h
    obtain ⟨stage,inside,mark,valid⟩ := h
    obtain ⟨moves,pipe,valids⟩ := readWaitMoves i waits inside mark valid
    rcases moves with ⟨more,next⟩ | ⟨last,next,_⟩
    · rw [Piped,if_pos next,pipe,valids]
      refine ⟨stage + 1,more,markShifts mark more,?_⟩
      rw [BitVec.getLsbD_shiftConcat]
      simp [more,valid]
    · rw [Piped,if_neg (by simp [next]),pipe]
      exact markLeaves mark last
  · rw [if_neg waits] at h
    by_cases last : s.state = .readCmd1
    · simp only [Regs.next,last,Piped,Regs.capture,if_pos]
      refine ⟨0,stages,?_,?_⟩
      · rw [h,BitVec.toNat_shiftConcat]
        simp
        omega
      · rw [BitVec.getLsbD_shiftConcat]
        simp [stages]
    · by_cases second : s.state = .readCmd0
      · have next : (s.next i).state = .readCmd1 := by simp [Regs.next,second,Regs.capture]
        rw [Piped,if_neg (by simp [next])]
        simp only [Regs.next,second,Regs.capture,h]
        exact emptyShifts
      · obtain ⟨pipe,next⟩ := pipeShifts s i ⟨second,last,waits⟩
        rw [Piped,if_neg next,pipe,h]
        exact emptyShifts

theorem loadedWait {n : Nat} (fits : 0 < n ∧ n ≤ 2 ^ c.timerWidth) {t : Regs c} (loaded : t.waitCounter = Regs.timer c n) :
    t.waited + 1 = n := by
  rw [Regs.waited,loaded,timerToNat fits]
  omega

theorem moveNext (fit : Fit c) (stages : 0 < c.readCompletionStages) {s : Regs c} (piped : Piped s) (ready : s.state.initialised = true) (i : Inputs) :
    Move s (s.next i) := by
  have write : 0 < c.writeRecovery ∧ c.writeRecovery ≤ 2 ^ c.timerWidth := by
    have covers := fit.writeRecovery
    have present := fit.trp
    omega
  cases state : s.state with
  | reset | initWait | initCke | initPrechargeWait | initRefresh0 | initRefresh0Wait | initRefresh1
  | initRefresh1Wait | initMr | initMrWait | initEmr | initEmrWait => simp [State.initialised,state] at ready
  | idle =>
    rcases Bool.eq_false_or_eq_true s.refreshPending with pending | absent
    · exact .refreshStarts state pending (by simp [Regs.next,state,Regs.idle,pending])
    · rcases Bool.eq_false_or_eq_true s.reqPending with asked | quiet
      · exact .accessStarts state absent (by simp [Regs.next,state,Regs.idle,absent,asked])
      · exact .rests state absent (by simp [Regs.next,state,Regs.idle,absent,quiet,Regs.base])
  | refresh => exact .refresh state (by simp [Regs.next,state,Regs.autoRefresh]) (loadedWait fit.trfc (by simp [Regs.next,state,Regs.autoRefresh]))
  | refreshWait | readRecovery | writeRecovery =>
    have step : s.next i = s.countDown {s.base i with wordBusy := true} {s.base i with wordBusy := false, state := .idle} := by
      simp only [Regs.next,state]
    rw [step]
    rcases countedState s {s.base i with wordBusy := true} {s.base i with wordBusy := false, state := .idle} with
      ⟨zero,same⟩ | ⟨n,more,less,stays,_⟩
    · rw [same]
      exact .settles (by simp [state]) zero rfl
    · exact .waits (by simp [state]) stays (by omega)
  | activate => exact .activate state (by simp [Regs.next,state]) (loadedWait fit.trcd (by simp [Regs.next,state]))
  | activateWait =>
    have step : s.next i = s.countDown {s.base i with wordBusy := true}
        {s.base i with wordBusy := true, state := if s.reqIsWrite then .writeCmd0 else .readCmd0} := by
      simp only [Regs.next,state]
    rw [step]
    rcases countedState s {s.base i with wordBusy := true}
      {s.base i with wordBusy := true, state := if s.reqIsWrite then .writeCmd0 else .readCmd0} with
      ⟨zero,same⟩ | ⟨n,more,less,stays,_⟩
    · rw [same]
      rcases Bool.eq_false_or_eq_true s.reqIsWrite with write | read
      · exact .writes state zero write (if_pos write)
      · exact .reads state zero read (if_neg (by simp [read]))
    · exact .waits (by simp [state]) stays (by omega)
  | readCmd0 => exact .readSecond state (by simp [Regs.next,state,Regs.capture])
  | readCmd1 =>
    have next : (s.next i).state = .readWait := by simp [Regs.next,state,Regs.capture]
    rw [Piped,if_neg (by simp [state])] at piped
    refine .readLast state next ?_
    have mark : (s.next i).readCaptureLastPipe.toNat = 2 ^ 0 := by
      simp only [Regs.next,state,Regs.capture,piped]
      rw [BitVec.toNat_shiftConcat]
      simp
      omega
    rw [Regs.stage,mark,Nat.log2_two_pow]
  | readWait =>
    rw [Piped,if_pos state] at piped
    obtain ⟨stage,inside,mark,valid⟩ := piped
    have here : s.stage = stage := by rw [Regs.stage,mark,Nat.log2_two_pow]
    obtain ⟨moves,pipe,_⟩ := readWaitMoves i state inside mark valid
    rcases moves with ⟨more,next⟩ | ⟨last,next,loaded⟩
    · exact .captures state (by omega) next (by rw [Regs.stage,pipe,markShifts mark more,Nat.log2_two_pow,here])
    · have covers := fit.readRecovery
      have present := fit.trp
      exact .captured state (by omega) next (loadedWait (by omega) loaded)
  | writeCmd0 => exact .writeSecond state (by simp [Regs.next,state])
  | writeCmd1 => exact .writeLast state (by simp [Regs.next,state]) (loadedWait write (by simp [Regs.next,state]))

theorem counterNext (s : Regs c) (i : Inputs) : (s.next i).refreshCounter = (s.base i).refreshCounter := by
  cases state : s.state with
  | idle =>
    simp only [Regs.next,state,Regs.idle]
    split
    · rfl
    · split <;> rfl
  | readWait =>
    simp only [Regs.next,state,Regs.readWait]
    split
    · split <;> rfl
    · rfl
  | reset | initRefresh0 | initRefresh1 | initMr | initEmr | refresh | activate | writeCmd0 | writeCmd1 | readCmd0 | readCmd1 =>
    simp [Regs.next,state,Regs.autoRefresh,Regs.access,Regs.capture]
  | initWait | initCke | initPrechargeWait | initRefresh0Wait | initRefresh1Wait | initMrWait | initEmrWait
  | refreshWait | readRecovery | writeRecovery | activateWait =>
    simp only [Regs.next,state,Regs.countDown]
    split <;> rfl

theorem pendingNext (s : Regs c) (i : Inputs) (ready : s.state.initialised = true) :
    (s.next i).refreshPending = if s.state = .refresh then false else s.refreshDue || s.refreshPending := by
  cases state : s.state with
  | reset | initWait | initCke | initPrechargeWait | initRefresh0 | initRefresh0Wait | initRefresh1
  | initRefresh1Wait | initMr | initMrWait | initEmr | initEmrWait => simp [State.initialised,state] at ready
  | idle =>
    simp only [Regs.next,state,Regs.idle]
    split
    · rfl
    · split <;> rfl
  | readWait =>
    simp only [Regs.next,state,Regs.readWait]
    split
    · split <;> rfl
    · rfl
  | refresh => simp [Regs.next,state]
  | activate | writeCmd0 | writeCmd1 | readCmd0 | readCmd1 =>
    simp only [Regs.next,state]
    rfl
  | refreshWait | readRecovery | writeRecovery | activateWait =>
    simp only [Regs.next,state,Regs.countDown]
    split <;> rfl

theorem dueCounted (slack : 2 ≤ c.refreshInterval ∧ c.refreshInterval ≤ 2 ^ c.timerWidth) (s : Regs c) :
    s.refreshDue = decide (s.counted + 1 = c.refreshInterval) := by
  have last := timerToNat (c := c) (n := c.refreshInterval) ⟨by omega,slack.2⟩
  rw [Regs.refreshDue,Bool.eq_iff_iff,beq_iff_eq,decide_eq_true_eq,← BitVec.toNat_inj,last,Regs.counted]
  omega

theorem counterRuns (slack : 2 ≤ c.refreshInterval ∧ c.refreshInterval ≤ 2 ^ c.timerWidth) {s : Regs c}
    (within : s.counted < c.refreshInterval) (i : Inputs) :
    (s.next i).counted = if s.counted + 1 = c.refreshInterval then 0 else s.counted + 1 := by
  have due := dueCounted slack s
  rw [Regs.counted,counterNext,Regs.base]
  by_cases last : s.counted + 1 = c.refreshInterval
  · simp [due,last]
  · have next : (s.refreshCounter + 1).toNat = s.counted + 1 := by
      simp only [Regs.counted] at within last
      exact BitNumbers.countNext (k := c.refreshInterval - 1) (by omega) (by omega)
    rw [due,decide_eq_false last,if_neg Bool.false_ne_true,if_neg last,next]

def Refreshes (s : Regs c) : Prop := s.command = .autoRefresh ∧ s.state.initialised = true

theorem refreshShown {s : Regs c} (i : Inputs) (state : s.state = .refresh) :
    Refreshes (s.next i) ∧ (s.next i).state = .refreshWait := by
  simp only [Regs.next,state]
  exact ⟨⟨commandRefresh rfl,rfl⟩,rfl⟩

theorem commandRefreshes {o : Outputs} (h : command o = .autoRefresh) : o.phyCmd = cmdAutoref := by
  simp only [command] at h
  repeat' split at h
  all_goals first | assumption | contradiction

theorem initNext {s : Regs c} (i : Inputs) (init : s.state.initialised = false) :
    (s.next i).state.initialised = false ∨ (s.next i).state = .idle ∧ (s.next i).phyCmd = cmdNop := by
  cases state : s.state with
  | idle | refresh | refreshWait | activate | activateWait | readCmd0 | readCmd1 | readWait | readRecovery
  | writeCmd0 | writeCmd1 | writeRecovery => simp [State.initialised,state] at init
  | reset | initRefresh0 | initRefresh1 | initMr | initEmr =>
    simp only [Regs.next,state]
    exact .inl rfl
  | initWait | initCke | initPrechargeWait | initRefresh0Wait | initRefresh1Wait | initMrWait =>
    simp only [Regs.next,state,Regs.countDown]
    split
    · exact .inl rfl
    · exact .inl (by simp [Regs.base,state,State.initialised])
  | initEmrWait =>
    simp only [Regs.next,state,Regs.countDown]
    split
    · exact .inr ⟨rfl,rfl⟩
    · exact .inl (by simp [Regs.base,state,State.initialised])

theorem refreshDriven {s : Regs c} {i : Inputs} (h : Refreshes (s.next i)) : s.state = .refresh := by
  have cmd : (s.next i).phyCmd = cmdAutoref := commandRefreshes h.1
  have other : cmdNop ≠ cmdAutoref ∧ cmdAct ≠ cmdAutoref ∧ cmdRead ≠ cmdAutoref ∧ cmdWrite ≠ cmdAutoref := by decide
  rcases Bool.eq_false_or_eq_true s.state.initialised with ready | init
  · cases state : s.state with
    | reset | initWait | initCke | initPrechargeWait | initRefresh0 | initRefresh0Wait | initRefresh1
    | initRefresh1Wait | initMr | initMrWait | initEmr | initEmrWait => simp [State.initialised,state] at ready
    | refresh => rfl
    | idle =>
      simp only [Regs.next,state,Regs.idle] at cmd
      repeat' split at cmd
      all_goals exact absurd cmd other.1
    | readWait =>
      simp only [Regs.next,state,Regs.readWait] at cmd
      repeat' split at cmd
      all_goals exact absurd cmd other.1
    | activate =>
      simp only [Regs.next,state] at cmd
      exact absurd cmd other.2.1
    | readCmd0 | readCmd1 =>
      simp only [Regs.next,state] at cmd
      exact absurd cmd other.2.2.1
    | writeCmd0 | writeCmd1 =>
      simp only [Regs.next,state] at cmd
      exact absurd cmd other.2.2.2
    | refreshWait | readRecovery | writeRecovery | activateWait =>
      simp only [Regs.next,state,Regs.countDown] at cmd
      split at cmd <;> exact absurd cmd other.1
  · rcases initNext i init with still | ⟨_,quiet⟩
    · rw [h.2] at still
      contradiction
    · exact absurd (quiet.symm.trans cmd) other.1

/- The interval ends while the last refresh is about to be issued or is being issued: the
request for the next one is cleared with it. -/
def DropsInterval (s : Regs c) : Prop :=
  s.refreshDue = true ∧ (s.state = .refresh ∨ s.state = .idle ∧ s.refreshPending = true)

def ReadsLate (s : Regs c) : Prop :=
  s.state = .activateWait ∧ s.waited = 0 ∧ s.reqIsWrite = false ∧ s.refreshPending = true ∧ s.counted = c.trcd ∧
    c.twr < c.readCompletionStages

def Due (s : Regs c) (a : Nat) : Prop := match s.state with
  | .idle => a + 2 ≤ c.refreshMax
  | .refresh => a + 1 ≤ c.refreshMax
  | .refreshWait | .readRecovery | .writeRecovery => a + s.waited + 3 ≤ c.refreshMax
  | .activate => a + c.trcd + c.writeRecovery + 5 ≤ c.refreshMax ∧
      (a + c.trcd + c.readCompletionStages + c.readRecovery + 5 ≤ c.refreshMax ∨
        s.counted = 0 ∧ c.twr < c.readCompletionStages)
  | .activateWait => a + s.waited + c.writeRecovery + 5 ≤ c.refreshMax ∧
      (a + s.waited + c.readCompletionStages + c.readRecovery + 5 ≤ c.refreshMax ∨
        s.counted + s.waited = c.trcd ∧ c.twr < c.readCompletionStages)
  | .readCmd0 => a + c.readCompletionStages + c.readRecovery + 4 ≤ c.refreshMax
  | .readCmd1 => a + c.readCompletionStages + c.readRecovery + 3 ≤ c.refreshMax
  | .readWait => a + c.readCompletionStages + c.readRecovery + 2 ≤ c.refreshMax + s.stage
  | .writeCmd0 => a + c.writeRecovery + 4 ≤ c.refreshMax
  | .writeCmd1 => a + c.writeRecovery + 3 ≤ c.refreshMax
  | _ => False

/- No wait is longer than what it was loaded with. -/
def Within (s : Regs c) : Prop := match s.state with
  | .readRecovery => s.waited < c.readRecovery
  | .writeRecovery => s.waited < c.writeRecovery
  | .activateWait => s.waited < c.trcd
  | .readWait => s.stage < c.readCompletionStages
  | _ => True

structure Reached (s : Regs c) : Prop where
  piped : Piped s
  within : Within s
  counter : s.counted < c.refreshInterval
  pending : s.state = .refresh → s.refreshPending = true
  shown : Refreshes s → s.state = .refreshWait ∧ s.waited + 1 = c.trfc ∧ s.refreshPending = false

structure Kept (s : Regs c) : Prop extends Reached s where
  begun : s.state = .refresh → 1 ≤ s.counted
  older : Refreshes s → 2 ≤ s.counted

/- `a` cycles after an AUTO REFRESH: the interval is still running, or the next is in time. -/
structure Aged (s : Regs c) (a : Nat) : Prop where
  ready : s.state.initialised = true
  shown : Refreshes s → a ≤ c.refreshMax
  waits : ¬ Refreshes s → s.state = .refreshWait → a + s.waited + 3 ≤ c.refreshMax
  due : ¬ Refreshes s → if s.refreshPending then Due s a else a + 2 ≤ s.counted

theorem moveRefresh {s t : Regs c} (move : Move s t) (next : t.state = .refresh) :
    s.state = .idle ∧ s.refreshPending = true := by
  cases move with
  | refreshStarts state pending => exact ⟨state,pending⟩
  | waits state same down =>
    rw [next] at same
    rcases state with state | state | state | state <;> rw [state] at same <;> contradiction
  | accessStarts _ _ other | rests _ _ other | refresh _ other | settles _ _ other | activate _ other
  | writes _ _ _ other | reads _ _ _ other | readSecond _ other | readLast _ other | captures _ _ other
  | captured _ _ other | writeSecond _ other | writeLast _ other =>
    rw [next] at other
    contradiction

theorem moveWithin (stages : 0 < c.readCompletionStages) {s t : Regs c} (move : Move s t) (h : Within s) : Within t := by
  cases move with
  | waits state same down =>
    rcases state with state | state | state | state <;> simp only [Within,same,state] at h ⊢ <;> omega
  | refreshStarts _ _ next | accessStarts _ _ next | rests _ _ next | settles _ _ next | writes _ _ _ next
  | reads _ _ _ next | readSecond _ next | writeSecond _ next => simp only [Within,next]
  | refresh _ next => simp only [Within,next]
  | activate _ next loaded | writeLast _ next loaded | captured _ _ next loaded => simp only [Within,next]; omega
  | readLast _ next stage => simp only [Within,next]; omega
  | captures _ inside next stage => simp only [Within,next]; omega

theorem reachedNext (fit : Fit c) (interval : 2 ≤ c.refreshInterval ∧ c.refreshInterval ≤ 2 ^ c.timerWidth)
    (stages : 0 < c.readCompletionStages) {s : Regs c} (h : Reached s) (i : Inputs) : Reached (s.next i) := by
  have counter := counterRuns interval h.counter i
  have below := h.counter
  refine ⟨pipedNext stages h.piped i,?_,?_,?_,?_⟩
  · rcases Bool.eq_false_or_eq_true s.state.initialised with ready | init
    · exact moveWithin stages (moveNext fit stages h.piped ready i) h.within
    · rcases initNext i init with still | ⟨idle,_⟩
      · cases next : (s.next i).state <;> simp [Within,next] <;> simp [State.initialised,next] at still
      · simp only [Within,idle]
  · rw [counter]
    split <;> omega
  · intro refresh
    rcases Bool.eq_false_or_eq_true s.state.initialised with ready | init
    · obtain ⟨idle,pending⟩ := moveRefresh (moveNext fit stages h.piped ready i) refresh
      rw [pendingNext s i ready,if_neg (by simp [idle]),pending,Bool.or_true]
    · rcases initNext i init with still | ⟨idle,_⟩
      · rw [refresh] at still
        contradiction
      · rw [refresh] at idle
        contradiction
  · intro shown
    have refresh := refreshDriven shown
    have ready : s.state.initialised = true := by rw [refresh]; rfl
    refine ⟨(refreshShown i refresh).2,loadedWait fit.trfc (by simp [Regs.next,refresh,Regs.autoRefresh]),?_⟩
    rw [pendingNext s i ready,if_pos refresh]

theorem keptNext (fit : Fit c) (slack : Slack c) (stages : 0 < c.readCompletionStages) {s : Regs c} (h : Kept s)
    (i : Inputs) (timely : ¬ DropsInterval s) : Kept (s.next i) := by
  have counter := counterRuns slack.interval h.counter i
  have due := dueCounted slack.interval s
  refine ⟨reachedNext fit slack.interval stages h.toReached i,?_,?_⟩
  · intro refresh
    rcases Bool.eq_false_or_eq_true s.state.initialised with ready | init
    · obtain ⟨idle,pending⟩ := moveRefresh (moveNext fit stages h.piped ready i) refresh
      have early : ¬ s.counted + 1 = c.refreshInterval := fun last =>
        timely ⟨due.trans (decide_eq_true last),.inr ⟨idle,pending⟩⟩
      rw [counter,if_neg early]
      omega
    · rcases initNext i init with still | ⟨idle,_⟩
      · rw [refresh] at still
        contradiction
      · rw [refresh] at idle
        contradiction
  · intro shown
    have refresh := refreshDriven shown
    have early : ¬ s.counted + 1 = c.refreshInterval := fun last =>
      timely ⟨due.trans (decide_eq_true last),.inl refresh⟩
    have later := h.begun refresh
    rw [counter,if_neg early]
    omega

theorem dueNext (slack : Slack c) (long : c.trfc < c.refreshInterval) {s t : Regs c} {a : Nat} (move : Move s t)
    (other : s.state ≠ .refresh) (timely : ¬ ReadsLate s) (pending : s.refreshPending = true)
    (counter : t.counted = if s.counted + 1 = c.refreshInterval then 0 else s.counted + 1) (due : Due s a) :
    Due t (a + 1) := by
  have activate := slack.activate
  have refresh := slack.refresh
  cases move with
  | refreshStarts state _ next =>
    simp only [Due,state] at due
    simp only [Due,next]
    omega
  | accessStarts _ absent | rests _ absent =>
    rw [pending] at absent
    contradiction
  | refresh state => exact absurd state other
  | waits state same down =>
    rcases state with state | state | state | state <;> simp only [Due,state] at due <;> simp only [Due,same,state]
    · omega
    · omega
    · omega
    · refine ⟨by omega,due.2.imp (fun h => by omega) fun h => ⟨?_,h.2⟩⟩
      rw [counter,if_neg (by omega)]
      omega
  | settles state zero next =>
    rcases state with state | state | state <;> simp only [Due,state] at due <;> simp only [Due,next] <;> omega
  | activate state next loaded =>
    simp only [Due,state] at due
    simp only [Due,next]
    refine ⟨by omega,due.2.imp (fun h => by omega) fun h => ⟨?_,h.2⟩⟩
    rw [counter,if_neg (by omega)]
    omega
  | writes state zero _ next =>
    simp only [Due,state] at due
    simp only [Due,next]
    omega
  | reads state zero read next =>
    simp only [Due,state] at due
    simp only [Due,next]
    rcases due.2 with early | ⟨late,deep⟩
    · omega
    · exact absurd ⟨state,zero,read,pending,by omega,deep⟩ timely
  | readSecond state next | writeSecond state next =>
    simp only [Due,state] at due
    simp only [Due,next]
    omega
  | readLast state next stage =>
    simp only [Due,state] at due
    simp only [Due,next]
    omega
  | captures state inside next stage =>
    simp only [Due,state] at due
    simp only [Due,next]
    omega
  | captured state last next loaded =>
    simp only [Due,state] at due
    simp only [Due,next]
    omega
  | writeLast state next loaded =>
    simp only [Due,state] at due
    simp only [Due,next]
    omega

theorem dueStarts (slack : Slack c) (long : c.trfc < c.refreshInterval) {s t : Regs c} {a : Nat} (move : Move s t)
    (other : s.state ≠ .refresh) (zero : s.refreshPending = false) (within : Within s) (wrapped : t.counted = 0)
    (early : a + 3 ≤ c.refreshInterval) (waits : s.state = .refreshWait → a + s.waited + 3 ≤ c.refreshMax) :
    Due t (a + 1) := by
  have refresh := slack.refresh
  have idle := slack.idle (by omega)
  have write := slack.write (by omega)
  have read := slack.read (by omega)
  cases move with
  | refreshStarts _ pending =>
    rw [zero] at pending
    contradiction
  | refresh state => exact absurd state other
  | accessStarts state _ next =>
    simp only [Due,next]
    refine ⟨by omega,?_⟩
    by_cases short : c.readCompletionStages ≤ c.twr
    · have shorter := slack.short short
      exact .inl (by omega)
    · exact .inr ⟨wrapped,by omega⟩
  | rests _ _ next | readSecond _ next | writeSecond _ next =>
    simp only [Due,next]
    omega
  | waits state same down =>
    rcases state with state | state | state | state <;> simp only [Within,state] at within <;> simp only [Due,same,state]
    · have bound := waits state
      omega
    · omega
    · omega
    · exact ⟨by omega,.inl (by omega)⟩
  | settles _ _ next | writes _ _ _ next | reads _ _ _ next =>
    simp only [Due,next]
    omega
  | activate _ next loaded =>
    simp only [Due,next]
    exact ⟨by omega,.inl (by omega)⟩
  | readLast _ next stage =>
    simp only [Due,next]
    omega
  | captures state inside next stage =>
    simp only [Due,next]
    omega
  | captured _ _ next loaded | writeLast _ next loaded =>
    simp only [Due,next]
    omega

theorem shownWaits (fit : Fit c) (stages : 0 < c.readCompletionStages) {s : Regs c} (h : Reached s) (i : Inputs)
    (shown : Refreshes s) (long : 2 ≤ c.trfc) : (s.next i).state = .refreshWait ∧ (s.next i).waited + 1 = s.waited := by
  obtain ⟨state,loaded,_⟩ := h.shown shown
  cases moveNext fit stages h.piped shown.2 i with
  | waits _ same down => exact ⟨same.trans state,down⟩
  | settles _ zero => omega
  | refreshStarts other | accessStarts other | rests other | refresh other | activate other | writes other
  | reads other | readSecond other | readLast other | captures other | captured other | writeSecond other
  | writeLast other =>
    rw [state] at other
    contradiction

theorem agedBegins (fit : Fit c) (slack : Slack c) (stages : 0 < c.readCompletionStages) {s : Regs c} (h : Kept s)
    (i : Inputs) (shown : Refreshes s) : Aged (s.next i) 1 := by
  obtain ⟨state,loaded,absent⟩ := h.shown shown
  have later := h.older shown
  have refresh := slack.refresh
  have counter := counterRuns slack.interval h.counter i
  have due := dueCounted slack.interval s
  have pending := pendingNext s i shown.2
  rw [if_neg (by simp [state]),absent,due,Bool.or_false] at pending
  have quiet : ¬ Refreshes (s.next i) := fun again => by
    have wrong := refreshDriven again
    rw [state] at wrong
    contradiction
  have waits := shownWaits fit stages h.toReached i shown refresh.1
  refine ⟨by rw [waits.1]; rfl,fun again => absurd again quiet,fun _ _ => by omega,fun _ => ?_⟩
  rw [pending,counter]
  by_cases last : s.counted + 1 = c.refreshInterval
  · simp only [last,decide_true,if_true,Due,waits.1]
    omega
  · simp only [last,decide_false,if_false,Bool.false_eq_true]
    omega

theorem agedNext (fit : Fit c) (slack : Slack c) (stages : 0 < c.readCompletionStages) (long : c.trfc < c.refreshInterval)
    {s : Regs c} {a : Nat} (h : Kept s) (i : Inputs) (timely : ¬ ReadsLate s) (aged : Aged s a) (quiet : ¬ Refreshes s) :
    Aged (s.next i) (a + 1) := by
  have counter := counterRuns slack.interval h.counter i
  have below := h.counter
  have pending := pendingNext s i aged.ready
  have move := moveNext fit stages h.piped aged.ready i
  have due := aged.due quiet
  by_cases refresh : s.state = .refresh
  · obtain ⟨shown,state⟩ := refreshShown i refresh
    rw [h.pending refresh,if_pos rfl] at due
    simp only [Due,refresh] at due
    exact ⟨shown.2,fun _ => due,fun hidden => absurd shown hidden,fun hidden => absurd shown hidden⟩
  · have next : ¬ Refreshes (s.next i) := fun again => refresh (refreshDriven again)
    rw [if_neg refresh,dueCounted slack.interval s] at pending
    have ready : (s.next i).state.initialised = true := by
      cases move with
      | waits state same => rw [same]; exact aged.ready
      | refreshStarts _ _ next | accessStarts _ _ next | rests _ _ next | refresh _ next | settles _ _ next
      | activate _ next | writes _ _ _ next | reads _ _ _ next | readSecond _ next | readLast _ next
      | captures _ _ next | captured _ _ next | writeSecond _ next | writeLast _ next => rw [next]; rfl
    refine ⟨ready,fun again => absurd again next,fun _ waits => ?_,fun _ => ?_⟩
    · cases move with
      | waits state same down =>
        have bound := aged.waits quiet (same.symm.trans waits)
        omega
      | refresh state => exact absurd state refresh
      | refreshStarts _ _ other | accessStarts _ _ other | rests _ _ other | settles _ _ other | activate _ other
      | writes _ _ _ other | reads _ _ _ other | readSecond _ other | readLast _ other | captures _ _ other
      | captured _ _ other | writeSecond _ other | writeLast _ other =>
        rw [waits] at other
        contradiction
    · rw [pending]
      rcases Bool.eq_false_or_eq_true s.refreshPending with before | absent
      · rw [before,Bool.or_true,if_pos rfl]
        rw [before,if_pos rfl] at due
        exact dueNext slack long move refresh timely before counter due
      · rw [absent,Bool.or_false]
        rw [absent,if_neg Bool.false_ne_true] at due
        by_cases last : s.counted + 1 = c.refreshInterval
        · rw [if_pos last] at counter
          rw [decide_eq_true last,if_pos rfl]
          exact dueStarts slack long move refresh absent h.within counter (by omega) (aged.waits quiet)
        · rw [decide_eq_false last,if_neg Bool.false_ne_true,counter,if_neg last]
          omega

structure Closed (s : Regs c) (a : Nat) : Prop where
  shown : Refreshes s → a ≤ c.refreshMax
  next : ¬ Refreshes s → s.state = .refreshWait ∧ a + s.waited + 1 = c.trfc ∧ (s.refreshPending = true ∨ a ≤ s.counted) ∨
    s.state = .idle ∧ s.refreshPending = true ∧ a = c.trfc ∨ s.state = .refresh ∧ a = c.trfc + 1

theorem closedBegins (fit : Fit c) (interval : 2 ≤ c.refreshInterval ∧ c.refreshInterval ≤ 2 ^ c.timerWidth)
    (long : 2 ≤ c.trfc) (stages : 0 < c.readCompletionStages) {s : Regs c} (h : Reached s) (i : Inputs)
    (shown : Refreshes s) : Closed (s.next i) 1 := by
  obtain ⟨state,loaded,absent⟩ := h.shown shown
  have counter := counterRuns interval h.counter i
  have waits := shownWaits fit stages h i shown long
  have pending := pendingNext s i shown.2
  rw [if_neg (by simp [state]),absent,dueCounted interval s,Bool.or_false] at pending
  refine ⟨fun again => ?_,fun _ => .inl ⟨waits.1,by omega,?_⟩⟩
  · have wrong := refreshDriven again
    rw [state] at wrong
    contradiction
  · rw [pending,counter]
    by_cases last : s.counted + 1 = c.refreshInterval
    · exact .inl (decide_eq_true last)
    · rw [if_neg last]
      exact .inr (by omega)

theorem closedNext (fit : Fit c) (interval : 2 ≤ c.refreshInterval ∧ c.refreshInterval ≤ 2 ^ c.timerWidth)
    (short : c.refreshInterval ≤ c.trfc) (bound : c.trfc + 2 ≤ c.refreshMax) (stages : 0 < c.readCompletionStages)
    {s : Regs c} {a : Nat} (h : Reached s) (i : Inputs) (closed : Closed s a) (quiet : ¬ Refreshes s) :
    Closed (s.next i) (a + 1) := by
  have counter := counterRuns interval h.counter i
  have below := h.counter
  rcases closed.next quiet with ⟨state,age,due⟩ | ⟨state,pending,age⟩ | ⟨state,age⟩
  · have ready : s.state.initialised = true := by rw [state]; rfl
    have pending := pendingNext s i ready
    rw [if_neg (by simp [state]),dueCounted interval s] at pending
    refine ⟨fun again => ?_,fun _ => ?_⟩
    · have wrong := refreshDriven again
      rw [state] at wrong
      contradiction
    · cases moveNext fit stages h.piped ready i with
      | waits _ same down =>
        refine .inl ⟨same.trans state,by omega,?_⟩
        rw [pending,counter]
        rcases due with before | running
        · exact .inl (by rw [before,Bool.or_true])
        · by_cases last : s.counted + 1 = c.refreshInterval
          · exact .inl (by rw [decide_eq_true last,Bool.true_or])
          · rw [if_neg last]
            exact .inr (by omega)
      | settles _ zero next =>
        refine .inr (.inl ⟨next,?_,by omega⟩)
        rw [pending]
        rcases due with before | running
        · rw [before,Bool.or_true]
        · rw [decide_eq_true (by omega),Bool.true_or]
      | refreshStarts other | accessStarts other | rests other | refresh other | activate other | writes other
      | reads other | readSecond other | readLast other | captures other | captured other | writeSecond other
      | writeLast other =>
        rw [state] at other
        contradiction
  · have next : (s.next i).state = .refresh := by simp [Regs.next,state,Regs.idle,pending]
    refine ⟨fun again => ?_,fun _ => .inr (.inr ⟨next,by omega⟩)⟩
    have wrong := refreshDriven again
    rw [state] at wrong
    contradiction
  · exact ⟨fun _ => by omega,fun hidden => absurd (refreshShown i state).1 hidden⟩

/- The parameters and states for which the refresh keeps its time. -/
def Timely (p : Params) (s : Regs p.cycles) : Prop :=
  p.refreshInterval ≤ p.trfc ∨ p.SlipFits ∧ ¬ DropsInterval s ∧ ¬ ReadsLate s

theorem resetReached (positive : 0 < c.refreshInterval) (s : Regs c) : Reached (reset s) where
  piped := by
    rw [Piped,if_neg (by simp [reset])]
    rfl
  within := trivial
  counter := positive
  pending := by simp [reset]
  shown := fun h => by simpa [reset,State.initialised] using h.2

theorem closedCounted (p : Params) (accepted : p.Accepted) (slips : p.refreshSlip < p.refreshMax)
    (short : p.refreshInterval ≤ p.trfc) : Counted (machine p.cycles) (fun s _ => Timely p s) Refreshes Reached Closed p.refreshMax := by
  have fit := cyclesFit p
  have stages : 0 < p.cycles.readCompletionStages := Nat.lt_of_lt_of_le (by decide) accepted
  have interval := intervalTimed p
  have long : 2 ≤ p.cycles.trfc := Nat.le_max_left _ _
  exact ⟨fun s i h _ => reachedNext fit interval stages h i,
    fun s i h _ shown => closedBegins fit interval long stages h i shown,
    fun s i a h _ closed quiet => closedNext fit interval short (refreshShort p slips) stages h i closed quiet,
    fun s a _ closed shown => closed.shown shown⟩

theorem agedCounted (p : Params) (accepted : p.Accepted) (slips : p.refreshSlip < p.refreshMax) (fits : p.SlipFits)
    (long : p.trfc < p.refreshInterval) : Counted (machine p.cycles) (fun s _ => Timely p s) Refreshes Kept Aged p.refreshMax := by
  have fit := cyclesFit p
  have slack := cyclesSlack p slips fits
  have stages : 0 < p.cycles.readCompletionStages := Nat.lt_of_lt_of_le (by decide) accepted
  have timely : ∀ {s}, Timely p s → ¬ DropsInterval s ∧ ¬ ReadsLate s := fun h =>
    (h.resolve_left (Nat.not_le.mpr long)).2
  exact ⟨fun s i h ok => keptNext fit slack stages h i (timely ok).1,
    fun s i h _ shown => agedBegins fit slack stages h i shown,
    fun s i a h ok aged quiet => agedNext fit slack stages long h i (timely ok).2 aged quiet,
    fun s a _ aged shown => aged.shown shown⟩

/- Two refreshes in a row of a run from reset. -/
def Consecutive (p : Params) (s : Regs p.cycles) (inputs : List Inputs) (apart : Nat) : Prop :=
  ∃ before x mid y after, (machine p.cycles).trace (reset s) inputs = before ++ x :: (mid ++ y :: after) ∧
    Refreshes x.1 ∧ Refreshes y.1 ∧ (∀ z ∈ mid, ¬ Refreshes z.1) ∧ apart = mid.length + 1

/- Refreshes in a row are no further apart than the device's period. -/
theorem refreshSpaced (p : Params) (accepted : p.Accepted) (slips : p.refreshSlip < p.refreshMax) (s : Regs p.cycles)
    (inputs : List Inputs) (timely : (machine p.cycles).Steps (fun s _ => Timely p s) (reset s) inputs) (apart : Nat)
    (consecutive : Consecutive p s inputs apart) : apart ≤ p.refreshMax := by
  obtain ⟨before,x,mid,y,after,split,first,second,quiet,rfl⟩ := consecutive
  have start := resetReached (c := p.cycles) (Nat.lt_of_lt_of_le (by decide) (intervalTimed p).1) s
  by_cases short : p.refreshInterval ≤ p.trfc
  · exact spaced (closedCounted p accepted slips short) start timely split first second quiet
  · have long := Nat.not_le.mp short
    have fits : p.SlipFits := by
      cases inputs with
      | nil => simp at split
      | cons i rest => exact ((stepsCons.mp timely).1.resolve_left short).1
    have kept : Kept (reset s) := ⟨start,by simp [reset],fun shown => by simpa [reset,State.initialised] using shown.2⟩
    exact spaced (agedCounted p accepted slips fits long) kept timely split first second quiet

instance (s : Regs c) : Decidable (Refreshes s) := inferInstanceAs (Decidable (_ ∧ _))
instance (p : Params) (s : Regs p.cycles) : Decidable (Timely p s) :=
  inferInstanceAs (Decidable (_ ∨ _ < _ ∧ ¬ (_ ∧ (_ ∨ _ ∧ _)) ∧ ¬ (_ ∧ _ ∧ _ ∧ _ ∧ _ ∧ _)))

/- A write and a read between two refreshes, of which the second waits for the read. -/
def served : List Inputs :=
  List.replicate 28 quiet ++ {quiet with wordWr := true, wordData := 5} ::
    (List.replicate 11 quiet ++ {quiet with wordRd := true} :: List.replicate 20 quiet)
def servedRun : List (Regs slowClock.cycles × Inputs) := (machine slowClock.cycles).trace (reset default) served

theorem servedRefreshes : (servedRun.countP fun x => x.1.captures x.2) = 2 ∧ 32 ≤ slowClock.refreshMax :=
  ⟨by decide +kernel,
    refreshSpaced slowClock (by decide +kernel) (by decide +kernel) default served (by decide +kernel) 32
      ⟨servedRun.take 27,((machine slowClock.cycles).final (reset default) (served.take 27),quiet),
        (servedRun.drop 28).take 31,((machine slowClock.cycles).final (reset default) (served.take 59),quiet),
        servedRun.drop 60,by decide +kernel,by decide +kernel,by decide +kernel,by decide +kernel,by decide +kernel⟩⟩

/- One read, which leaves ST_IDLE as the second interval ends. -/
def readAfter (n : Nat) : List Inputs :=
  List.replicate n quiet ++ {quiet with wordRd := true} :: List.replicate 30 quiet
def readRun (n : Nat) : List (Regs slowClock.cycles × Inputs) :=
  (machine slowClock.cycles).trace (reset default) (readAfter n)

theorem lateRead : slowClock.Accepted ∧ slowClock.refreshSlip < slowClock.refreshMax ∧ slowClock.refreshMax = 39 ∧
    Consecutive slowClock default (readAfter 48) 40 :=
  ⟨by decide +kernel,by decide +kernel,by decide +kernel,
    (readRun 48).take 27,((machine slowClock.cycles).final (reset default) ((readAfter 48).take 27),quiet),
    ((readRun 48).drop 28).take 39,((machine slowClock.cycles).final (reset default) ((readAfter 48).take 67),quiet),
    (readRun 48).drop 68,by decide +kernel,by decide +kernel,by decide +kernel,by decide +kernel,by decide +kernel⟩

end RiscvSoc.SdramController
