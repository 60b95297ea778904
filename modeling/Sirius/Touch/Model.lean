import Mathlib.Data.Int.Order.Basic

/-!
# The touchscreen, drivers/touch/max1187x.c

`suspend` and `resume` step by step, with the two interrupt handlers and the chip between the
steps. The chip's line falls when it has a report and nothing is pending, and rises when the
report is read. An interrupt that falls while the line is disabled is run when it is enabled.
-/
namespace Sirius.Touch

@[simp] def EINVAL : ℤ := 22
@[simp] def MXM_ONE_PACKET_RPT : BitVec 16 := 0x11
@[simp] def MXM_RPT_ID_SYS_STATUS : BitVec 16 := 0x01A0
@[simp] def MXM_STATUS_EXT_RESET : BitVec 16 := 0x0010

structure Report where
  header : BitVec 16
  reportId : BitVec 16
  value : BitVec 16
  deriving DecidableEq, Inhabited, Repr

/-- A falling edge of the line, by its number, and the report it stands for. -/
structure Edge where
  number : ℕ
  report : Report
  deriving DecidableEq, Repr

inductive Pc
  | awake
  | suspendMode
  | suspendDown
  | suspendSleep
  | suspendUp
  | suspendDisable
  | suspendWake
  | suspendClear
  | suspendMark
  | asleep
  | resumeWake
  | resumeCheck
  | resumeRead
  | resumeEnable
  | resumeMode
  | resumeDown
  | resumePower
  | porDisable
  | porReset
  | porEnable
  | reinit
  | resumeAwake
  | resumeUp
  | resumeMark
  deriving DecidableEq, Repr

/-- `struct data`, the interrupt line, the chip, and what is owed: the edges answered while
`pm_suspended` was set whose reports have not been read. -/
structure Ts where
  isSuspended : Bool
  pmSuspended : Bool
  irqOnSuspend : Bool
  resetSem : ℕ
  irqCount : ℕ
  pc : Pc
  depth : ℕ
  wake : Bool
  latched : Bool
  woken : Bool
  pending : Option Edge
  edges : ℕ
  owed : List Edge
  deriving DecidableEq, Repr

def probed : Ts where
  isSuspended := false
  pmSuspended := false
  irqOnSuspend := false
  resetSem := 1
  irqCount := 0
  pc := .awake
  depth := 0
  wake := false
  latched := false
  woken := false
  pending := none
  edges := 0
  owed := []

/-- What a step is answered; `stale` is what a read finds when no report is pending. -/
structure Env where
  mayWakeup : Bool
  timedOut : Bool
  read : Bool
  stale : Report
  resetPower : ℤ
  deriving Inhabited, Repr

def BYTEH (a : BitVec 16) : BitVec 16 := a >>> 8

/-- `process_report`, without the input events of a touch report. -/
def processReport (s : Ts) (buf : Report) : Ts :=
  if BYTEH buf.header ≠ MXM_ONE_PACKET_RPT then s
  else if buf.reportId = MXM_RPT_ID_SYS_STATUS then
    if buf.value &&& MXM_STATUS_EXT_RESET ≠ 0 then { s with resetSem := s.resetSem + 1 } else s
  else s

def readReport (s : Ts) (env : Env) : Ts :=
  match s.pending with
  | some e => processReport { s with pending := none, owed := s.owed.filter (· ≠ e) } e.report
  | none => processReport s env.stale

/-- `reset_power`; the reset takes a pending report with it. -/
def resetPower (s : Ts) (env : Env) : Ts :=
  if env.resetPower ≠ 0 then { s with resetSem := s.resetSem + 1 } else { s with pending := none }

def raise (s : Ts) (report : Report) : Ts :=
  if s.pending.isSome then s
  else { s with pending := some ⟨s.edges, report⟩, edges := s.edges + 1, latched := true }

/-- `irq_handler_hard`, and whether it wakes the thread. -/
def irqHandlerHard (s : Ts) : Ts × Bool :=
  match s.pending with
  | none => (s, false)
  | some e =>
      if s.pmSuspended then
        ({ s with irqCount := s.irqCount + 1, irqOnSuspend := true, owed := e :: s.owed }, false)
      else ({ s with irqCount := s.irqCount + 1 }, true)

def irqHandlerSoft (s : Ts) (env : Env) : Ts :=
  if env.read then readReport s env
  else if 0 < s.resetSem then resetPower { s with resetSem := s.resetSem - 1 } env
  else s

/-- `down_timeout` on `reset_sem`: taken, given up or still waited for. -/
def downTimeout (s : Ts) (env : Env) (taken timedOut : Pc) : Ts :=
  if 0 < s.resetSem then { s with resetSem := s.resetSem - 1, pc := taken }
  else if env.timedOut then { s with pc := timedOut }
  else s

/-- `disable_irq` waits for the thread. -/
def disableIrq (s : Ts) (next : Pc) : Ts := if s.woken then s else { s with depth := s.depth + 1, pc := next }

def enableIrq (s : Ts) (next : Pc) : Ts := { s with depth := s.depth - 1, pc := next }

/-- The next step of `suspend` or `resume`; `por` is `enable_resume_por`. -/
def pmStep (por : Bool) (s : Ts) (env : Env) : Ts :=
  match s.pc with
  | .awake | .asleep => s
  -- suspend, with set_suspend_mode
  | .suspendMode => { s with pc := if s.isSuspended then .suspendDisable else .suspendDown }
  | .suspendDown => downTimeout s env .suspendSleep .suspendDisable
  | .suspendSleep => { s with isSuspended := true, pc := .suspendUp }
  | .suspendUp => { s with resetSem := s.resetSem + 1, pc := .suspendDisable }
  | .suspendDisable => disableIrq s .suspendWake
  | .suspendWake => { s with wake := s.wake || env.mayWakeup, pc := .suspendClear }
  | .suspendClear => { s with irqOnSuspend := false, pc := .suspendMark }
  | .suspendMark => { s with pmSuspended := true, pc := .asleep }
  -- resume
  | .resumeWake => { s with wake := s.wake && !env.mayWakeup, pc := .resumeCheck }
  | .resumeCheck =>
      if s.irqOnSuspend then { s with irqOnSuspend := false, pc := .resumeRead } else { s with pc := .resumeEnable }
  | .resumeRead => { if env.read then readReport s env else s with pc := .resumeEnable }
  | .resumeEnable => enableIrq s .resumeMode
  -- set_resume_mode
  | .resumeMode => { s with pc := if s.isSuspended then .resumeDown else .resumeMark }
  | .resumeDown => downTimeout s env .resumePower .resumeMark
  | .resumePower => { s with pc := if por then .porDisable else .reinit }
  | .porDisable => disableIrq s .porReset
  | .porReset => { resetPower s env with pc := .porEnable }
  | .porEnable => enableIrq s .resumeAwake
  | .reinit => { s with pc := .resumeAwake }
  | .resumeAwake => { s with isSuspended := false, pc := if por then .resumeMark else .resumeUp }
  | .resumeUp => { s with resetSem := s.resetSem + 1, pc := .resumeMark }
  | .resumeMark => { s with pmSuspended := false, pc := .awake }

inductive Act
  | suspend
  | resume
  | step (env : Env)
  | raise (report : Report)
  | hard
  | soft (env : Env)

section
variable (por wakeRuns : Bool)

/-- The handler of an enabled line runs. That of a disabled line that wakes the system does not have
to; whether it does is left open. -/
def Ts.Runs (s : Ts) : Prop := s.latched = true ∧ (s.depth = 0 ∨ wakeRuns = true ∧ s.wake = true ∧ s.pc = .asleep)

instance (s : Ts) : Decidable (s.Runs wakeRuns) := inferInstanceAs (Decidable (_ ∧ _))

def interrupt (s : Ts) : Ts :=
  let (s, wakeThread) := irqHandlerHard { s with latched := false }
  { s with woken := s.woken || wakeThread }

def act (s : Ts) : Act → Ts
  | .suspend => if s.pc = .awake then { s with pc := .suspendMode } else s
  | .resume => if s.pc = .asleep then { s with pc := .resumeWake } else s
  | .step env => pmStep por s env
  | .raise report => raise s report
  | .hard => if s.Runs wakeRuns then interrupt s else s
  | .soft env => if s.woken then irqHandlerSoft { s with woken := false } env else s

end
end Sirius.Touch
