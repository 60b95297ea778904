import Mathlib.Logic.Function.Basic
import Sirius.Lib.Runs
import Sirius.Lib.Semaphore
import Sirius.Touch.Model

/-!
# Who has `reset_sem`

The interrupt thread, `suspend`, `resume` and the writers of `por` take `reset_sem`. A reset keeps it when
`reset_power` has returned, and the report of the reset gives it back. Whether the line is enabled is left
open, and so is who runs next.
-/
namespace Sirius.Touch
open Runs Semaphores Function

/-- A status report of an external reset, as `process_report` finds it. -/
def Report.ExternalReset (buf : Report) : Prop :=
  BYTEH buf.header = MXM_ONE_PACKET_RPT ∧ buf.reportId = MXM_RPT_ID_SYS_STATUS ∧
    buf.value &&& MXM_STATUS_EXT_RESET ≠ 0

instance (buf : Report) : Decidable buf.ExternalReset := inferInstanceAs (Decidable (_ ∧ _ ∧ _))

/-- The fields of the platform data that decide about a reset. -/
structure ResetPdata where
  gpioReset : BitVec 32
  enableResumePor : BitVec 32

inductive ResetThread (ι : Type*)
  | interrupt
  | pm
  | store (r : ι)
  deriving DecidableEq

/-- How far `irq_handler_soft` has come. -/
inductive IrqPc
  | idle
  | woken
  | locked
  | resetDown
  | reset
  | unlock
  deriving DecidableEq

/-- How far `suspend` or `resume` has come. -/
inductive PmPc
  | awake
  | suspendMode
  | suspendDown
  | suspendSleep
  | suspendSend
  | suspendUp
  | suspendClear
  | suspendMark
  | asleep
  | resumeCheck
  | resumeRead
  | resumeMode
  | resumeDown
  | resumePower
  | porReset
  | porAwake
  | reinit
  | resumeAwake
  | resumeUp
  | resumeMark
  deriving DecidableEq

/-- How far a `power_on_reset_store` has come. -/
inductive StorePc
  | idle
  | down
  | lock
  | reset
  | unlock
  deriving DecidableEq

/-- `struct data` as far as resets go. `resetDone` is a reset that has succeeded and whose report has not been
processed. -/
structure Resets (ι : Type*) where
  resetSem : ℕ
  i2cMutex : Option (ResetThread ι)
  isSuspended : Bool
  pmSuspended : Bool
  irqOnSuspend : Bool
  irq : IrqPc
  pm : PmPc
  stores : ι → StorePc
  resetDone : Bool

/-- What a step is answered: `read` is the report that `read_mtp_report` reads, `low` and `high` are the results
of the two calls of `gpio_direction_output`. -/
structure ResetEnv where
  timedOut : Bool
  read : Option Report
  low : ℤ
  high : ℤ

namespace Resets
variable {ι : Type*} [DecidableEq ι] (pdata : ResetPdata)

/-- `process_report`, as far as `reset_sem` goes. -/
def processReport (s : Resets ι) (buf : Report) : Resets ι :=
  if BYTEH buf.header ≠ MXM_ONE_PACKET_RPT then s
  else if buf.reportId = MXM_RPT_ID_SYS_STATUS then
    if buf.value &&& MXM_STATUS_EXT_RESET ≠ 0 then { s with resetSem := s.resetSem + 1, resetDone := false } else s
  else s

/-- `ret` of `reset_power` -/
def resetPowerRet (env : ResetEnv) : ℤ :=
  if pdata.gpioReset = 0 then - EINVAL else if env.low ≠ 0 then env.low else env.high

def resetPower (s : Resets ι) (env : ResetEnv) : Resets ι :=
  if resetPowerRet pdata env ≠ 0 then { s with resetSem := s.resetSem + 1 } else { s with resetDone := true }

/-- `down_timeout` on `reset_sem` -/
def downTimeout (s : Resets ι) (env : ResetEnv) (taken timedOut : Resets ι → Resets ι) : Resets ι :=
  if 0 < s.resetSem then taken { s with resetSem := s.resetSem - 1 } else if env.timedOut then timedOut s else s

/-- `mutex_lock` on `i2c_mutex` -/
def lock (s : Resets ι) (thread : ResetThread ι) (next : Resets ι → Resets ι) : Resets ι :=
  if s.i2cMutex = none then next { s with i2cMutex := some thread } else s

def setIrq (pc : IrqPc) (s : Resets ι) : Resets ι := { s with irq := pc }
def setPm (pc : PmPc) (s : Resets ι) : Resets ι := { s with pm := pc }
def setStore (r : ι) (pc : StorePc) (s : Resets ι) : Resets ι := { s with stores := update s.stores r pc }

/-- `irq_handler_hard`; `line` is the level of the interrupt line. -/
def irqHandlerHard (s : Resets ι) (line : Bool) : Resets ι :=
  if line then s
  else if s.pmSuspended then { s with irqOnSuspend := true }
  else if s.irq = .idle then s.setIrq .woken
  else s

/-- The next step of `irq_handler_soft`. -/
def irqStep (s : Resets ι) (env : ResetEnv) : Resets ι :=
  match s.irq with
  | .idle => s
  | .woken => s.lock .interrupt (setIrq .locked)
  | .locked =>
      match env.read with
      | some buf => (s.processReport buf).setIrq .unlock
      | none => s.setIrq .resetDown
  | .resetDown => s.downTimeout env (setIrq .reset) (setIrq .unlock)
  | .reset => (s.resetPower pdata env).setIrq .unlock
  | .unlock => { s with i2cMutex := none }.setIrq .idle

/-- The next step of `suspend` or `resume`. What is done under `i2c_mutex` is done when it is free. -/
def pmStep (s : Resets ι) (env : ResetEnv) : Resets ι :=
  match s.pm with
  | .awake | .asleep => s
  -- suspend, with set_suspend_mode
  | .suspendMode => s.setPm (if s.isSuspended then .suspendClear else .suspendDown)
  | .suspendDown => s.downTimeout env (setPm .suspendSleep) (setPm .suspendClear)
  | .suspendSleep => { s with isSuspended := true }.setPm .suspendSend
  | .suspendSend => if s.i2cMutex = none then s.setPm .suspendUp else s
  | .suspendUp => { s with resetSem := s.resetSem + 1 }.setPm .suspendClear
  | .suspendClear => { s with irqOnSuspend := false }.setPm .suspendMark
  | .suspendMark => { s with pmSuspended := true }.setPm .asleep
  -- resume
  | .resumeCheck =>
      if s.irqOnSuspend then { s with irqOnSuspend := false }.setPm .resumeRead else s.setPm .resumeMode
  | .resumeRead =>
      match env.read with
      | some buf => (s.processReport buf).setPm .resumeMode
      | none => s.setPm .resumeMode
  -- set_resume_mode
  | .resumeMode => s.setPm (if s.isSuspended then .resumeDown else .resumeMark)
  | .resumeDown => s.downTimeout env (setPm .resumePower) (setPm .resumeMark)
  | .resumePower => s.setPm (if pdata.enableResumePor ≠ 0 then .porReset else .reinit)
  | .porReset => (s.resetPower pdata env).setPm .porAwake
  | .porAwake => { s with isSuspended := false }.setPm .resumeMark
  | .reinit => if s.i2cMutex = none then s.setPm .resumeAwake else s
  | .resumeAwake => { s with isSuspended := false }.setPm .resumeUp
  | .resumeUp => { s with resetSem := s.resetSem + 1 }.setPm .resumeMark
  | .resumeMark => { s with pmSuspended := false }.setPm .awake

/-- The next step of a `power_on_reset_store`. -/
def storeStep (s : Resets ι) (r : ι) (env : ResetEnv) : Resets ι :=
  match s.stores r with
  | .idle => s
  | .down => s.downTimeout env (setStore r .lock) (setStore r .idle)
  | .lock => s.lock (.store r) (setStore r .reset)
  | .reset => (s.resetPower pdata env).setStore r .unlock
  | .unlock => { s with i2cMutex := none }.setStore r .idle

/-- The line interrupts, one of the threads goes on, or a call begins. -/
inductive Act (ι : Type*)
  | hard (line : Bool)
  | irq (env : ResetEnv)
  | suspend
  | resume
  | pm (env : ResetEnv)
  | powerOnReset (r : ι)
  | store (r : ι) (env : ResetEnv)

def step (s : Resets ι) : Act ι → Resets ι
  | .hard line => s.irqHandlerHard line
  | .irq env => s.irqStep pdata env
  | .suspend => if s.pm = .awake then s.setPm .suspendMode else s
  | .resume => if s.pm = .asleep then s.setPm .resumeCheck else s
  | .pm env => s.pmStep pdata env
  | .powerOnReset r => if s.stores r = .idle then s.setStore r .down else s
  | .store r env => s.storeStep pdata r env

def probed : Resets ι where
  resetSem := 1
  i2cMutex := none
  isSuspended := false
  pmSuspended := false
  irqOnSuspend := false
  irq := .idle
  pm := .awake
  stores _ := .idle
  resetDone := false

end Resets

def PmPc.holds : PmPc → Bool
  | .suspendSleep | .suspendSend | .suspendUp | .resumePower | .porReset | .reinit | .resumeAwake | .resumeUp => true
  | _ => false

def StorePc.holds : StorePc → Bool
  | .lock | .reset => true
  | _ => false

/-- Who may have `reset_sem`: a thread between `down_timeout` and `up`, or a reset that is not reported yet. -/
inductive ResetHolder (ι : Type*)
  | thread (t : ResetThread ι)
  | reset
  deriving DecidableEq

namespace Resets
variable {ι : Type*}

def Holds (s : Resets ι) : ResetHolder ι → Prop
  | .thread .interrupt => s.irq = .reset
  | .thread .pm => s.pm.holds = true
  | .thread (.store r) => (s.stores r).holds = true
  | .reset => s.resetDone = true

def sem (s : Resets ι) : Sem (ResetHolder ι) := ⟨s.resetSem, { h | s.Holds h }⟩

/-- A step keeps `reset_sem` a mutex: the count stays at most one, a raise of it ends the hold of who had it, and
there is never a second holder. -/
structure Exclusive (s s' : Resets ι) : Prop where
  count_le : s'.resetSem ≤ 1
  released : s.resetSem < s'.resetSem → ∃ h, s.Holds h ∧ ¬s'.Holds h
  unique : ∀ h h', s'.Holds h → s'.Holds h' → h = h'

/-- The report that the step processes. -/
def processed (s : Resets ι) : Act ι → Option Report
  | .irq env => if s.irq = .locked then env.read else none
  | .pm env => if s.pm = .resumeRead then env.read else none
  | _ => none

/-- An external reset that is reported is one that the driver has done and that has not been reported. -/
def Asked (s : Resets ι) (act : Act ι) : Prop :=
  ∀ buf ∈ s.processed act, buf.ExternalReset → s.resetDone = true

section
variable {pdata : ResetPdata} {s s' : Resets ι} {t : ResetThread ι} {env : ResetEnv}

theorem holds_frame (hirq : s'.irq = s.irq) (hpm : s'.pm = s.pm) (hstores : s'.stores = s.stores)
    (hdone : s'.resetDone = s.resetDone) (h : ResetHolder ι) : s'.Holds h ↔ s.Holds h := by
  rcases h with (_ | _ | r) | _ <;> simp only [Holds, hirq, hpm, hstores, hdone]

/-- The function says whether the thread has the semaphore and changes nothing else about it. -/
structure Sets (t : ResetThread ι) (holds : Prop) (f : Resets ι → Resets ι) : Prop where
  resetSem : ∀ s, (f s).resetSem = s.resetSem
  self : ∀ s, (f s).Holds (.thread t) ↔ holds
  others : ∀ s h, h ≠ .thread t → ((f s).Holds h ↔ s.Holds h)

theorem sets_setIrq (pc : IrqPc) : Sets (ι := ι) .interrupt (pc = .reset) (setIrq pc) where
  resetSem _ := rfl
  self _ := Iff.rfl
  others s h hne := by
    rcases h with (_ | _ | r) | _
    · exact absurd rfl hne
    all_goals exact Iff.rfl

theorem sets_setPm (pc : PmPc) : Sets (ι := ι) .pm (pc.holds = true) (setPm pc) where
  resetSem _ := rfl
  self _ := Iff.rfl
  others s h hne := by
    rcases h with (_ | _ | r) | _
    on_goal 2 => exact absurd rfl hne
    all_goals exact Iff.rfl

theorem sets_setStore [DecidableEq ι] (r : ι) (pc : StorePc) : Sets (.store r) (pc.holds = true) (setStore r pc) where
  resetSem _ := rfl
  self s := by simp [Holds, setStore]
  others s h hne := by
    rcases h with (_ | _ | r') | _
    · exact Iff.rfl
    · exact Iff.rfl
    · have hr : r' ≠ r := fun heq => hne (by rw [heq])
      simp [Holds, setStore, hr]
    · exact Iff.rfl

/-- A thread goes on without `down` or `up`. -/
theorem Sets.stay {holds : Prop} {f : Resets ι → Resets ι} (hf : Sets t holds f) (ht : s.Holds (.thread t) ↔ holds)
    (hsem : s'.resetSem = s.resetSem) (hholds : ∀ h, s'.Holds h ↔ s.Holds h) : Move s.sem (f s').sem := by
  refine .stay ((hf.resetSem s').trans hsem) fun h => ?_
  by_cases heq : h = .thread t
  · subst h
    exact (hf.self s').trans ht.symm
  · exact (hf.others s' h heq).trans (hholds h)

theorem Sets.downTimeout {taken timedOut : Resets ι → Resets ι} {holds out : Prop} (htaken : Sets t holds taken)
    (hholds : holds) (htimedOut : Sets t out timedOut) (hout : ¬out) (ht : ¬s.Holds (.thread t)) (env : ResetEnv) :
    Move s.sem (s.downTimeout env taken timedOut).sem := by
  rw [Resets.downTimeout]
  split
  next hpos =>
    refine .take (.thread t) ?_ ((htaken.self _).2 hholds) fun h hne => htaken.others _ h hne
    exact ((congrArg (· + 1) (htaken.resetSem _)).trans (Nat.sub_add_cancel hpos)).symm
  · split
    · exact htimedOut.stay (iff_of_false ht hout) rfl fun _ => Iff.rfl
    · exact .stay rfl fun _ => Iff.rfl

theorem Sets.lock {holds : Prop} {f : Resets ι → Resets ι} (hf : Sets t holds f) (ht : s.Holds (.thread t) ↔ holds)
    (thread : ResetThread ι) : Move s.sem (s.lock thread f).sem := by
  rw [Resets.lock]
  split
  · exact hf.stay ht rfl (holds_frame rfl rfl rfl rfl)
  · exact .stay rfl fun _ => Iff.rfl

theorem Sets.up {f : Resets ι → Resets ι} {out : Prop} (hf : Sets t out f) (hout : ¬out) (ht : s.Holds (.thread t)) :
    Move s.sem (f { s with resetSem := s.resetSem + 1 }).sem :=
  .release (.thread t) (hf.resetSem _) ht (fun hmem => hout ((hf.self _).1 hmem)) fun h hne => hf.others _ h hne

/-- `resetDone` says nothing about the threads. -/
theorem holds_resetDone (s : Resets ι) (count : ℕ) (done : Bool) {h : ResetHolder ι} (hne : h ≠ .reset) :
    ({ s with resetSem := count, resetDone := done } : Resets ι).Holds h ↔ s.Holds h := by
  rcases h with (_ | _ | r) | _
  on_goal 4 => exact absurd rfl hne
  all_goals exact Iff.rfl

/-- A reset that fails gives it back, and one that succeeds keeps it. -/
theorem Sets.resetPower {f : Resets ι → Resets ι} {out : Prop} (hf : Sets t out f) (hout : ¬out)
    (ht : s.Holds (.thread t)) (env : ResetEnv) : Move s.sem (f (s.resetPower pdata env)).sem := by
  rw [Resets.resetPower]
  split
  · exact hf.up hout ht
  · refine .pass (.thread t) .reset (hf.resetSem _) ht (fun hmem => hout ((hf.self _).1 hmem)) ?_ fun h hne hne' => ?_
    · exact (hf.others _ .reset (by simp)).2 rfl
    · exact (hf.others _ h hne).trans (holds_resetDone s _ _ hne')

theorem processReport_eq (s : Resets ι) (buf : Report) : s.processReport buf =
    if buf.ExternalReset then { s with resetSem := s.resetSem + 1, resetDone := false } else s := by
  rw [Resets.processReport]
  by_cases hheader : BYTEH buf.header = MXM_ONE_PACKET_RPT
  · by_cases hid : buf.reportId = MXM_RPT_ID_SYS_STATUS
    · rw [if_neg (not_not.2 hheader), if_pos hid]
      refine if_congr ?_ rfl rfl
      rw [Report.ExternalReset, and_iff_right hheader, and_iff_right hid]
    · rw [if_neg (not_not.2 hheader), if_neg hid, if_neg fun h => hid h.2.1]
  · rw [if_pos hheader, if_neg fun h => hheader h.1]

/-- The report of a reset gives the semaphore back. -/
theorem Sets.processReport {f : Resets ι → Resets ι} {out : Prop} (hf : Sets t out f) (hout : ¬out)
    (ht : ¬s.Holds (.thread t)) {buf : Report} (hasked : buf.ExternalReset → s.resetDone = true) :
    Move s.sem (f (s.processReport buf)).sem := by
  rw [processReport_eq]
  split
  next hreset =>
    refine .release .reset (hf.resetSem _) (hasked hreset) ?_ fun h hne => ?_
    · rintro hmem
      have hdone := (hf.others _ .reset (by simp)).1 hmem
      cases hdone
    · by_cases heq : h = .thread t
      · subst h
        exact iff_of_false (fun hmem => hout ((hf.self _).1 hmem)) ht
      · exact (hf.others _ h heq).trans (holds_resetDone s _ _ hne)
  · exact hf.stay (iff_of_false ht hout) rfl fun _ => Iff.rfl

/-- A report of a reset that no one has done raises the semaphore for no one. -/
theorem Sets.done_of_exclusive {f : Resets ι → Resets ι} {out : Prop} (hf : Sets t out f)
    (ht : ¬s.Holds (.thread t)) {buf : Report} (hreset : buf.ExternalReset)
    (h : s.Exclusive (f (s.processReport buf))) : s.resetDone = true := by
  rw [processReport_eq, if_pos hreset] at h
  obtain ⟨holder, hh, hnot⟩ := h.released (by rw [hf.resetSem]; exact Nat.lt_succ_self _)
  by_contra hdone
  have hne : holder ≠ .thread t := by
    rintro rfl
    exact ht hh
  have hne' : holder ≠ .reset := by
    rintro rfl
    exact hdone hh
  exact hnot ((hf.others _ holder hne).2 ((holds_resetDone s _ _ hne').2 hh))

end

section
variable {s : Resets ι}

theorem move_irqHandlerHard (s : Resets ι) (line : Bool) : Move s.sem (s.irqHandlerHard line).sem := by
  rw [irqHandlerHard]
  split
  · exact .stay rfl fun _ => Iff.rfl
  split
  · exact .stay rfl (holds_frame rfl rfl rfl rfl)
  split
  next hidle =>
    refine (sets_setIrq .woken).stay (iff_of_false ?_ (by decide)) rfl fun _ => Iff.rfl
    rw [Holds, hidle]
    decide
  · exact .stay rfl fun _ => Iff.rfl

variable {pdata : ResetPdata}

theorem move_irqStep (env : ResetEnv) (hasked : s.Asked (.irq env)) : Move s.sem (s.irqStep pdata env).sem := by
  have hself : s.Holds (.thread .interrupt) ↔ s.irq = .reset := Iff.rfl
  rw [irqStep]
  cases hirq : s.irq with
  | idle => exact .stay rfl fun _ => Iff.rfl
  | woken =>
      rw [hirq] at hself
      exact (sets_setIrq .locked).lock (hself.trans (by decide)) _
  | locked =>
      rw [hirq] at hself
      have hout : ¬s.Holds (.thread .interrupt) := fun h => by cases hself.1 h
      cases hread : env.read with
      | some buf =>
          refine (sets_setIrq .unlock).processReport (by decide) hout (hasked buf ?_)
          rw [processed, if_pos hirq, hread]
          rfl
      | none => exact (sets_setIrq .resetDown).stay (iff_of_false hout (by decide)) rfl fun _ => Iff.rfl
  | resetDown =>
      rw [hirq] at hself
      exact (sets_setIrq .reset).downTimeout rfl (sets_setIrq .unlock) (by decide) (fun h => by cases hself.1 h) env
  | reset => exact (sets_setIrq .unlock).resetPower (by decide) (hself.2 hirq) env
  | unlock =>
      rw [hirq] at hself
      exact (sets_setIrq .idle).stay (hself.trans (by decide)) rfl (holds_frame hirq.symm rfl rfl rfl)

theorem move_pmStep (env : ResetEnv) (hasked : s.Asked (.pm env)) : Move s.sem (s.pmStep pdata env).sem := by
  have hself : s.Holds (.thread .pm) ↔ s.pm.holds = true := Iff.rfl
  rw [pmStep]
  cases hpm : s.pm with
  | awake | asleep => exact .stay rfl fun _ => Iff.rfl
  | suspendDown =>
      rw [hpm] at hself
      exact (sets_setPm .suspendSleep).downTimeout rfl (sets_setPm .suspendClear) (by decide)
        (fun h => by cases hself.1 h) env
  | resumeDown =>
      rw [hpm] at hself
      exact (sets_setPm .resumePower).downTimeout rfl (sets_setPm .resumeMark) (by decide)
        (fun h => by cases hself.1 h) env
  | suspendUp | resumeUp =>
      rw [hpm] at hself
      exact (sets_setPm _).up (by decide) (hself.2 rfl)
  | porReset =>
      rw [hpm] at hself
      exact (sets_setPm .porAwake).resetPower (by decide) (hself.2 rfl) env
  | resumeRead =>
      rw [hpm] at hself
      have hout : ¬s.Holds (.thread .pm) := fun h => by cases hself.1 h
      cases hread : env.read with
      | some buf =>
          refine (sets_setPm .resumeMode).processReport (by decide) hout (hasked buf ?_)
          rw [processed, if_pos hpm, hread]
          rfl
      | none => exact (sets_setPm .resumeMode).stay (iff_of_false hout (by decide)) rfl fun _ => Iff.rfl
  | suspendSleep | suspendClear | suspendMark | porAwake | resumeAwake | resumeMark =>
      rw [hpm] at hself
      exact (sets_setPm _).stay (hself.trans (by decide)) rfl (holds_frame rfl hpm.symm rfl rfl)
  | suspendSend | reinit =>
      rw [hpm] at hself
      dsimp only
      split
      · exact (sets_setPm _).stay (hself.trans (by decide)) rfl fun _ => Iff.rfl
      · exact .stay rfl fun _ => Iff.rfl
  | suspendMode | resumeMode | resumePower =>
      rw [hpm] at hself
      exact (sets_setPm _).stay (hself.trans (by split <;> decide)) rfl fun _ => Iff.rfl
  | resumeCheck =>
      rw [hpm] at hself
      dsimp only
      split
      · exact (sets_setPm _).stay (hself.trans (by decide)) rfl (holds_frame rfl hpm.symm rfl rfl)
      · exact (sets_setPm _).stay (hself.trans (by decide)) rfl fun _ => Iff.rfl

variable [DecidableEq ι]

theorem move_storeStep (r : ι) (env : ResetEnv) : Move s.sem (s.storeStep pdata r env).sem := by
  have hself : s.Holds (.thread (.store r)) ↔ (s.stores r).holds = true := Iff.rfl
  rw [storeStep]
  cases hstore : s.stores r with
  | idle => exact .stay rfl fun _ => Iff.rfl
  | down =>
      rw [hstore] at hself
      exact (sets_setStore r .lock).downTimeout rfl (sets_setStore r .idle) (by decide) (fun h => by cases hself.1 h)
        env
  | lock =>
      rw [hstore] at hself
      exact (sets_setStore r .reset).lock (hself.trans (by decide)) _
  | reset =>
      rw [hstore] at hself
      exact (sets_setStore r .unlock).resetPower (by decide) (hself.2 rfl) env
  | unlock =>
      rw [hstore] at hself
      exact (sets_setStore r .idle).stay (hself.trans (by decide)) rfl (holds_frame rfl rfl rfl rfl)

theorem move_step {act : Act ι} (hasked : s.Asked act) : Move s.sem (s.step pdata act).sem := by
  cases act with
  | hard line => exact move_irqHandlerHard s line
  | irq env => exact move_irqStep env hasked
  | pm env => exact move_pmStep env hasked
  | store r env => exact move_storeStep r env
  | suspend | resume =>
      rw [step]
      split
      next hpm =>
        refine (sets_setPm _).stay (iff_of_false ?_ (by decide)) rfl fun _ => Iff.rfl
        rw [Holds, hpm]
        decide
      · exact .stay rfl fun _ => Iff.rfl
  | powerOnReset r =>
      rw [step]
      split
      next hstore =>
        refine (sets_setStore r .down).stay (iff_of_false ?_ (by decide)) rfl fun _ => Iff.rfl
        rw [Holds, hstore]
        decide
      · exact .stay rfl fun _ => Iff.rfl

theorem asked_of_exclusive {act : Act ι} (h : s.Exclusive (s.step pdata act)) : s.Asked act := by
  intro buf hbuf hreset
  cases act with
  | irq env =>
      rw [processed] at hbuf
      split at hbuf
      next hirq =>
        rw [step, irqStep, hirq, Option.mem_def.1 hbuf] at h
        refine (sets_setIrq .unlock).done_of_exclusive (fun hh => ?_) hreset h
        rw [Holds, hirq] at hh
        cases hh
      · cases hbuf
  | pm env =>
      rw [processed] at hbuf
      split at hbuf
      next hpm =>
        rw [step, pmStep, hpm, Option.mem_def.1 hbuf] at h
        refine (sets_setPm .resumeMode).done_of_exclusive (fun hh => ?_) hreset h
        rw [Holds, hpm] at hh
        cases hh
      · cases hbuf
  | hard | suspend | resume | powerOnReset | store => cases hbuf

variable (ι pdata) in
/-- `reset_sem` is a mutex just if every external reset that is reported is one the driver has done. -/
theorem exclusive_iff (acts : List (Act ι)) :
    Always (step pdata) (fun s act => s.Exclusive (s.step pdata act)) probed acts ↔
      Always (step pdata) Asked probed acts := by
  refine always_iff_of_invariant (I := fun s => s.sem.Mutex) (fun s act h hasked => (move_step hasked).mutex h)
    (fun s act h => ⟨asked_of_exclusive, fun hasked => ?_⟩) (Or.inl ⟨rfl, ?_⟩)
  · have hmove : Move s.sem (s.step pdata act).sem := move_step hasked
    have hmutex := hmove.mutex h
    exact ⟨hmutex.count_le, fun hlt => hmove.released hlt, fun h h' hh hh' => hmutex.unique hh hh'⟩
  · refine Set.eq_empty_of_forall_notMem fun h hh => ?_
    rcases h with (_ | _ | r) | _ <;> cases hh

/-- The chip reports a reset that no one has asked for, as it does when it is powered up. -/
def unasked : List (Act Unit) :=
  [.hard false, .irq ⟨false, none, 0, 0⟩, .irq ⟨false, some ⟨0x1101, 0x01A0, 0x0010⟩, 0, 0⟩]

theorem unasked_not_exclusive :
    ¬Always (step ⟨1, 0⟩) (fun s act => s.Exclusive (s.step ⟨1, 0⟩ act)) probed unasked := by
  rintro ⟨-, -, hlast, -⟩
  have hcount := hlast.count_le
  revert hcount
  decide

end

end Resets
end Sirius.Touch
