import Sirius.Lib.Runs
import Sirius.Touch.Model

/-!
# No interrupt is lost over suspend and resume

While `pm_suspended` is set the hard handler only notes an interrupt and wakes nobody. `resume`
looks at the note once, before it enables the line; a note that is made behind that look is never
looked at.
-/
namespace Sirius.Touch
open Runs

/-- What suspend and resume have done to the line and to the flags. -/
inductive Phase
  | up
  | masked
  | cleared
  | looking
  | reading
  | past
  deriving DecidableEq, Repr

def Pc.phase : Pc → Phase
  | .awake | .suspendMode | .suspendDown | .suspendSleep | .suspendUp | .suspendDisable => .up
  | .suspendWake | .suspendClear => .masked
  | .suspendMark => .cleared
  | .asleep | .resumeWake | .resumeCheck => .looking
  | .resumeRead => .reading
  | .resumeEnable | .resumeMode | .resumeDown | .resumePower | .porDisable | .porReset | .porEnable | .reinit
  | .resumeAwake | .resumeUp | .resumeMark => .past

def Phase.Marked (p : Phase) : Prop := p = .looking ∨ p = .reading ∨ p = .past

instance : DecidablePred Phase.Marked := fun p => inferInstanceAs (Decidable (p = _ ∨ p = _ ∨ p = _))

/-- In the middle of `resume`. -/
def Ts.InResume (s : Ts) : Prop := s.pc.phase.Marked ∧ s.pc ≠ .asleep

section
variable (por wakeRuns : Bool)

/-- The status report of an external reset. -/
def Report.ExtReset (r : Report) : Prop :=
  BYTEH r.header = MXM_ONE_PACKET_RPT ∧ r.reportId = MXM_RPT_ID_SYS_STATUS ∧ r.value &&& MXM_STATUS_EXT_RESET ≠ 0

/-- Reading the report of an external reset releases `reset_sem`. -/
def Releases (s s' : Ts) : Prop :=
  ∀ e, s.pending = some e → e.report.ExtReset → s'.resetSem = s.resetSem + 1

/-- When `resume` returns, every edge answered under `pm_suspended` has had its report read, that of the
external reset in `set_resume_mode` among them. -/
def Processed (s : Ts) : Act → Prop
  | .step env =>
      (s.pc = .resumeMark → (pmStep por s env).irqOnSuspend = false ∧ (pmStep por s env).owed = []) ∧
        (s.pc = .resumeRead → env.read = true → Releases s (pmStep por s env))
  | .soft env => s.woken = true → env.read = true → Releases s (irqHandlerSoft { s with woken := false } env)
  | _ => True

/-- No edge is answered under `pm_suspended` once `resume` has looked at `irq_on_suspend`, and the read
behind a look that finds it set succeeds. -/
def Noticed (s : Ts) : Act → Prop
  | .hard => s.Runs wakeRuns → s.pending.isSome = true → s.pc.phase ≠ .reading ∧ s.pc.phase ≠ .past
  | .step env => s.pc = .resumeRead → env.read = true
  | _ => True

/-- The flags and the debts of the hard handler, and the thread. -/
structure SameDebts (s s' : Ts) : Prop where
  pmSuspended : s'.pmSuspended = s.pmSuspended
  irqOnSuspend : s'.irqOnSuspend = s.irqOnSuspend
  woken : s'.woken = s.woken
  owed : s'.owed = s.owed

inductive Move (s s' : Ts) (env : Env) : Prop
  | stay : s'.pc.phase = s.pc.phase → SameDebts s s' →
      (s.pc.phase ≠ .past → s'.depth = s.depth ∧ s'.pending = s.pending) → Move s s' env
  | mask : s.pc.phase = .up → s.woken = false → s' = { s with depth := s.depth + 1, pc := .suspendWake } → Move s s' env
  | clear : s.pc.phase = .masked → s' = { s with irqOnSuspend := false, pc := .suspendMark } → Move s s' env
  | mark : s.pc.phase = .cleared → s' = { s with pmSuspended := true, pc := .asleep } → Move s s' env
  | look : s.pc.phase = .looking → s.irqOnSuspend = true →
      s' = { s with irqOnSuspend := false, pc := .resumeRead } → Move s s' env
  | skip : s.pc.phase = .looking → s.irqOnSuspend = false → s' = { s with pc := .resumeEnable } → Move s s' env
  | read : s.pc.phase = .reading → s.pc = .resumeRead →
      s' = { if env.read then readReport s env else s with pc := .resumeEnable } → Move s s' env
  | done : s.pc = .resumeMark → s' = { s with pmSuspended := false, pc := .awake } → Move s s' env

section
variable {por} {s : Ts} {env : Env}

theorem phase_eq {pc : Pc} (h : s.pc = pc) : s.pc.phase = pc.phase := congrArg Pc.phase h

theorem downTimeout_stay {taken timedOut : Pc} (htaken : taken.phase = s.pc.phase)
    (htimedOut : timedOut.phase = s.pc.phase) : Move s (downTimeout s env taken timedOut) env := by
  unfold downTimeout
  split_ifs
  · exact .stay htaken ⟨rfl, rfl, rfl, rfl⟩ fun _ => ⟨rfl, rfl⟩
  · exact .stay htimedOut ⟨rfl, rfl, rfl, rfl⟩ fun _ => ⟨rfl, rfl⟩
  · exact .stay rfl ⟨rfl, rfl, rfl, rfl⟩ fun _ => ⟨rfl, rfl⟩

theorem resetPower_debts (s : Ts) (env : Env) : SameDebts s (resetPower s env) := by
  unfold resetPower
  split_ifs <;> exact ⟨rfl, rfl, rfl, rfl⟩

/-- A step that only goes on. -/
theorem goes_on (pc : Pc) (h : pc.phase = s.pc.phase) : Move s { s with pc } env :=
  .stay h ⟨rfl, rfl, rfl, rfl⟩ fun _ => ⟨rfl, rfl⟩

theorem pmStep_move (s : Ts) (env : Env) : Move s (pmStep por s env) env := by
  unfold pmStep
  cases hpc : s.pc with
  | awake => exact goes_on s.pc rfl
  | suspendMode =>
      apply goes_on
      rw [hpc]
      split_ifs <;> rfl
  | suspendDown => exact downTimeout_stay (phase_eq hpc).symm (phase_eq hpc).symm
  | suspendSleep => exact .stay (phase_eq hpc).symm ⟨rfl, rfl, rfl, rfl⟩ fun _ => ⟨rfl, rfl⟩
  | suspendUp => exact .stay (phase_eq hpc).symm ⟨rfl, rfl, rfl, rfl⟩ fun _ => ⟨rfl, rfl⟩
  | suspendDisable =>
      dsimp only [disableIrq]
      split_ifs with hwoken
      · exact goes_on s.pc rfl
      · exact .mask (phase_eq hpc) (Bool.not_eq_true _ ▸ hwoken) rfl
  | suspendWake => exact .stay (phase_eq hpc).symm ⟨rfl, rfl, rfl, rfl⟩ fun _ => ⟨rfl, rfl⟩
  | suspendClear => exact .clear (phase_eq hpc) rfl
  | suspendMark => exact .mark (phase_eq hpc) rfl
  | asleep => exact goes_on s.pc rfl
  | resumeWake => exact .stay (phase_eq hpc).symm ⟨rfl, rfl, rfl, rfl⟩ fun _ => ⟨rfl, rfl⟩
  | resumeCheck =>
      dsimp only
      split_ifs with hirq
      · exact .look (phase_eq hpc) hirq rfl
      · exact .skip (phase_eq hpc) (Bool.not_eq_true _ ▸ hirq) rfl
  | resumeRead => exact .read (phase_eq hpc) hpc rfl
  | resumeMode =>
      apply goes_on
      rw [hpc]
      split_ifs <;> rfl
  | resumeDown => exact downTimeout_stay (phase_eq hpc).symm (phase_eq hpc).symm
  | resumePower =>
      apply goes_on
      rw [hpc]
      split_ifs <;> rfl
  | porDisable =>
      dsimp only [disableIrq]
      split_ifs
      · exact goes_on s.pc rfl
      · exact .stay (phase_eq hpc).symm ⟨rfl, rfl, rfl, rfl⟩ fun hpast => absurd (phase_eq hpc) hpast
  | porReset =>
      have hdebts := resetPower_debts s env
      refine .stay (phase_eq hpc).symm ⟨hdebts.pmSuspended, hdebts.irqOnSuspend, hdebts.woken, hdebts.owed⟩
        fun hpast => absurd (phase_eq hpc) hpast
  | resumeEnable | porEnable =>
      exact .stay (phase_eq hpc).symm ⟨rfl, rfl, rfl, rfl⟩ fun hpast => absurd (phase_eq hpc) hpast
  | reinit => exact goes_on _ (phase_eq hpc).symm
  | resumeAwake =>
      refine .stay ?_ ⟨rfl, rfl, rfl, rfl⟩ fun _ => ⟨rfl, rfl⟩
      rw [hpc]
      dsimp only
      split_ifs <;> rfl
  | resumeUp => exact .stay (phase_eq hpc).symm ⟨rfl, rfl, rfl, rfl⟩ fun _ => ⟨rfl, rfl⟩
  | resumeMark => exact .done hpc rfl

theorem processReport_debts (s : Ts) (buf : Report) :
    SameDebts s (processReport s buf) ∧ (processReport s buf).pc = s.pc ∧ (processReport s buf).depth = s.depth := by
  unfold processReport
  split_ifs <;> exact ⟨⟨rfl, rfl, rfl, rfl⟩, rfl, rfl⟩

/-- A read settles what is owed for the report it finds, and touches no flag. -/
structure Reads (s s' : Ts) : Prop where
  pmSuspended : s'.pmSuspended = s.pmSuspended
  irqOnSuspend : s'.irqOnSuspend = s.irqOnSuspend
  woken : s'.woken = s.woken
  pc : s'.pc = s.pc
  depth : s'.depth = s.depth
  owed : ∀ e ∈ s'.owed, e ∈ s.owed ∧ s.pending ≠ some e

theorem readReport_reads (s : Ts) (env : Env) : Reads s (readReport s env) := by
  unfold readReport
  cases hpending : s.pending with
  | none =>
      obtain ⟨hdebts, hpc, hdepth⟩ := processReport_debts s env.stale
      refine ⟨hdebts.pmSuspended, hdebts.irqOnSuspend, hdebts.woken, hpc, hdepth, fun e he => ?_⟩
      rw [hdebts.owed] at he
      exact ⟨he, by rw [hpending]; nofun⟩
  | some e =>
      obtain ⟨hdebts, hpc, hdepth⟩ :=
        processReport_debts { s with pending := none, owed := s.owed.filter (· ≠ e) } e.report
      refine ⟨hdebts.pmSuspended, hdebts.irqOnSuspend, hdebts.woken, hpc, hdepth, fun x hx => ?_⟩
      rw [hdebts.owed, List.mem_filter, decide_eq_true_iff] at hx
      exact ⟨hx.1, fun he => hx.2 (Option.some.inj (he.symm.trans hpending))⟩

theorem readReport_releases (s : Ts) (env : Env) : Releases s (readReport s env) := by
  rintro e hpending ⟨hheader, hid, hvalue⟩
  unfold readReport
  rw [hpending]
  dsimp only
  rw [processReport, if_neg (not_not.mpr hheader), if_pos hid, if_pos hvalue]

/-- The thread works off debts and makes none. -/
structure Thread (s s' : Ts) : Prop where
  pmSuspended : s'.pmSuspended = s.pmSuspended
  irqOnSuspend : s'.irqOnSuspend = s.irqOnSuspend
  woken : s'.woken = false
  pc : s'.pc = s.pc
  depth : s'.depth = s.depth
  owed : s'.owed ⊆ s.owed

theorem irqHandlerSoft_thread (s : Ts) (env : Env) : Thread s (irqHandlerSoft { s with woken := false } env) := by
  unfold irqHandlerSoft
  split_ifs
  · have hreads := readReport_reads { s with woken := false } env
    exact ⟨hreads.pmSuspended, hreads.irqOnSuspend, hreads.woken, hreads.pc, hreads.depth, fun e he =>
      (hreads.owed e he).1⟩
  · unfold resetPower
    split_ifs <;> exact ⟨rfl, rfl, rfl, rfl, rfl, List.Subset.refl _⟩
  · exact ⟨rfl, rfl, rfl, rfl, rfl, List.Subset.refl _⟩

theorem interrupt_none (hpending : s.pending = none) : interrupt s = { s with latched := false } := by
  simp [interrupt, irqHandlerHard, hpending]

theorem interrupt_noted {e : Edge} (hpending : s.pending = some e) (hpm : s.pmSuspended = true) :
    interrupt s =
      { s with latched := false, irqCount := s.irqCount + 1, irqOnSuspend := true, owed := e :: s.owed } := by
  simp [interrupt, irqHandlerHard, hpending, hpm]

theorem interrupt_wakes {e : Edge} (hpending : s.pending = some e) (hpm : ¬ s.pmSuspended = true) :
    interrupt s = { s with latched := false, irqCount := s.irqCount + 1, woken := true } := by
  simp [interrupt, irqHandlerHard, hpending, hpm]

/-- What holds in every run: in and about `resume` no thread is up, and a note stands for a debt. -/
structure Kept (s : Ts) : Prop where
  marked : s.pmSuspended = true ↔ s.pc.phase.Marked
  quiet : s.pc.phase ≠ .up → s.woken = false
  masked : s.pc.phase = .masked ∨ s.pc.phase = .cleared → s.depth ≠ 0
  cleared : s.pc.phase = .cleared → s.irqOnSuspend = false
  noted : s.pc.phase = .looking → s.irqOnSuspend = true → s.owed ≠ []
  reading : s.pc.phase = .reading → s.owed ≠ []

theorem probed_kept : Kept probed :=
  ⟨by decide, fun _ => rfl, by decide, nofun, nofun, nofun⟩

/-- The thread is up only outside of `suspend` and `resume`. -/
theorem Kept.up_of_woken (h : Kept s) (hwoken : s.woken = true) : s.pc.phase = .up := by
  by_contra hne
  exact absurd ((h.quiet hne).symm.trans hwoken) (by decide)

theorem Kept.marked_at (h : Kept s) {p : Phase} (hp : p.Marked ↔ s.pc.phase.Marked) :
    s.pmSuspended = true ↔ p.Marked := h.marked.trans hp.symm

theorem Kept.move {s' : Ts} (h : Kept s) (hmove : Move s s' env) : Kept s' := by
  cases hmove with
  | stay hphase hdebts hsame =>
      have hdepth : s.pc.phase = .masked ∨ s.pc.phase = .cleared → s'.depth ≠ 0 := by
        intro hm
        rw [(hsame (by rcases hm with hm | hm <;> rw [hm] <;> decide)).1]
        exact h.masked hm
      constructor
      · rw [hphase, hdebts.pmSuspended]
        exact h.marked
      · rw [hphase, hdebts.woken]
        exact h.quiet
      · rw [hphase]
        exact hdepth
      · rw [hphase, hdebts.irqOnSuspend]
        exact h.cleared
      · rw [hphase, hdebts.irqOnSuspend, hdebts.owed]
        exact h.noted
      · rw [hphase, hdebts.owed]
        exact h.reading
  | mask hphase hwoken heq =>
      subst heq
      have hmarked := h.marked_at (p := .masked) (by rw [hphase]; decide)
      exact ⟨hmarked, fun _ => hwoken, fun _ => Nat.succ_ne_zero _, nofun, nofun, nofun⟩
  | clear hphase heq =>
      subst heq
      have hmarked := h.marked_at (p := .cleared) (by rw [hphase]; decide)
      exact ⟨hmarked, fun _ => h.quiet (by rw [hphase]; decide), fun _ => h.masked (Or.inl hphase), fun _ => rfl,
        nofun, nofun⟩
  | mark hphase heq =>
      subst heq
      refine ⟨iff_of_true rfl (show Pc.asleep.phase.Marked by decide), fun _ => h.quiet (by rw [hphase]; decide),
        nofun, nofun, fun _ hirq => ?_, nofun⟩
      exact absurd ((h.cleared hphase).symm.trans hirq) (by decide)
  | look hphase hirq heq =>
      subst heq
      have hmarked := h.marked_at (p := .reading) (by rw [hphase]; decide)
      exact ⟨hmarked, fun _ => h.quiet (by rw [hphase]; decide), nofun, nofun, nofun, fun _ => h.noted hphase hirq⟩
  | skip hphase hirq heq =>
      subst heq
      have hmarked := h.marked_at (p := .past) (by rw [hphase]; decide)
      exact ⟨hmarked, fun _ => h.quiet (by rw [hphase]; decide), nofun, nofun, nofun, nofun⟩
  | read hphase hpc heq =>
      subst heq
      have hread : (if env.read then readReport s env else s).pmSuspended = s.pmSuspended ∧
          (if env.read then readReport s env else s).woken = s.woken := by
        split_ifs
        · exact ⟨(readReport_reads s env).pmSuspended, (readReport_reads s env).woken⟩
        · exact ⟨rfl, rfl⟩
      have hmarked := h.marked_at (p := .past) (by rw [hphase]; decide)
      refine ⟨?_, fun _ => hread.2.trans (h.quiet (by rw [hphase]; decide)), nofun, nofun, nofun, nofun⟩
      rw [← hread.1] at hmarked
      exact hmarked
  | done hpc heq =>
      subst heq
      refine ⟨iff_of_false nofun (show ¬ Pc.awake.phase.Marked by decide), fun hup => absurd rfl hup, nofun, nofun,
        nofun, nofun⟩

/-- The line of a chip with a report is not answered while `suspend` finishes. -/
theorem Kept.not_runs (h : Kept s) (hmasked : s.pc.phase = .masked ∨ s.pc.phase = .cleared) : ¬ s.Runs wakeRuns := by
  rintro ⟨-, hdepth | ⟨-, -, hasleep⟩⟩
  · exact h.masked hmasked hdepth
  · rw [hasleep] at hmasked
    exact absurd hmasked (by decide)

theorem Kept.hard (h : Kept s) (hruns : s.Runs wakeRuns) : Kept (interrupt s) := by
  have hphase : ¬ (s.pc.phase = .masked ∨ s.pc.phase = .cleared) := fun hm => h.not_runs wakeRuns hm hruns
  cases hpending : s.pending with
  | none =>
      rw [interrupt_none hpending]
      exact ⟨h.marked, h.quiet, h.masked, h.cleared, h.noted, h.reading⟩
  | some e =>
      by_cases hpm : s.pmSuspended = true
      · rw [interrupt_noted hpending hpm]
        refine ⟨h.marked, h.quiet, h.masked, fun hc => absurd (Or.inr hc) hphase, ?_, ?_⟩
        · exact fun _ _ => List.cons_ne_nil _ _
        · exact fun _ => List.cons_ne_nil _ _
      · rw [interrupt_wakes hpending hpm]
        have hup : s.pc.phase = .up := by
          have hmarked := mt h.marked.mpr hpm
          revert hmarked hphase
          cases s.pc.phase <;> decide
        refine ⟨h.marked, fun hne => absurd hup hne, h.masked, h.cleared, ?_, ?_⟩
        · exact fun hl => absurd (hup.symm.trans hl) (by decide)
        · exact fun hr => absurd (hup.symm.trans hr) (by decide)

theorem Kept.soft (h : Kept s) (hwoken : s.woken = true) (env : Env) :
    Kept (irqHandlerSoft { s with woken := false } env) := by
  have hthread := irqHandlerSoft_thread s env
  have hup : s.pc.phase = .up := h.up_of_woken hwoken
  constructor
  · rw [hthread.pmSuspended, hthread.pc]
    exact h.marked
  · exact fun _ => hthread.woken
  all_goals
    rw [hthread.pc, hup]
    nofun

theorem act_kept (h : Kept s) (a : Act) : Kept (act por wakeRuns s a) := by
  cases a with
  | suspend =>
      rw [act]
      split_ifs with hpc
      · exact h.move (goes_on .suspendMode (phase_eq hpc).symm : Move s _ default)
      · exact h
  | resume =>
      rw [act]
      split_ifs with hpc
      · exact h.move (goes_on .resumeWake (phase_eq hpc).symm : Move s _ default)
      · exact h
  | step env => exact h.move (pmStep_move s env)
  | raise report =>
      rw [act, raise]
      split_ifs
      · exact h
      · exact ⟨h.marked, h.quiet, h.masked, h.cleared, h.noted, h.reading⟩
  | hard =>
      rw [act]
      split_ifs with hruns
      · exact h.hard wakeRuns hruns
      · exact h
  | soft env =>
      rw [act]
      split_ifs with hwoken
      · exact h.soft hwoken env
      · exact h

/-- Nothing is owed except for the pending report, and that only until `resume` has looked and read. -/
structure Settled (s : Ts) : Prop where
  free : s.pc.phase ≠ .looking → s.pc.phase ≠ .reading → s.owed = []
  note : s.pc.phase = .looking → s.irqOnSuspend = false → s.owed = []
  due : ∀ e ∈ s.owed, s.pending = some e
  past : s.pc.phase = .reading ∨ s.pc.phase = .past → s.irqOnSuspend = false

theorem probed_settled : Settled probed := ⟨fun _ _ => rfl, fun _ _ => rfl, nofun, by decide⟩

/-- Where nothing is owed there is little to show. -/
theorem Settled.of_nil {s' : Ts} (howed : s'.owed = [])
    (hpast : s'.pc.phase = .reading ∨ s'.pc.phase = .past → s'.irqOnSuspend = false) : Settled s' := by
  refine ⟨fun _ _ => howed, fun _ _ => howed, ?_, hpast⟩
  rw [howed]
  exact nofun

theorem Settled.move {s' : Ts} (h : Settled s) (hmove : Move s s' env) (hread : s.pc = .resumeRead → env.read = true) :
    Settled s' := by
  cases hmove with
  | stay hphase hdebts hsame =>
      constructor
      · rw [hphase, hdebts.owed]
        exact h.free
      · rw [hphase, hdebts.irqOnSuspend, hdebts.owed]
        exact h.note
      · rw [hdebts.owed]
        by_cases hpast : s.pc.phase = .past
        · rw [h.free (by rw [hpast]; decide) (by rw [hpast]; decide)]
          exact nofun
        · rw [(hsame hpast).2]
          exact h.due
      · rw [hphase, hdebts.irqOnSuspend]
        exact h.past
  | mask hphase hwoken heq =>
      subst heq
      refine .of_nil (h.free (by rw [hphase]; decide) (by rw [hphase]; decide)) ?_
      rintro (hp | hp) <;> cases hp
  | clear hphase heq =>
      subst heq
      exact .of_nil (h.free (by rw [hphase]; decide) (by rw [hphase]; decide)) fun _ => rfl
  | mark hphase heq =>
      subst heq
      refine .of_nil (h.free (by rw [hphase]; decide) (by rw [hphase]; decide)) ?_
      rintro (hp | hp) <;> cases hp
  | look hphase hirq heq =>
      subst heq
      exact ⟨fun _ hr => absurd rfl hr, nofun, h.due, fun _ => rfl⟩
  | skip hphase hirq heq =>
      subst heq
      exact .of_nil (h.note hphase hirq) fun _ => hirq
  | read hphase hpc heq =>
      subst heq
      rw [if_pos (hread hpc)]
      have hreads := readReport_reads s env
      refine .of_nil ?_ fun _ => hreads.irqOnSuspend.trans (h.past (Or.inl hphase))
      apply List.eq_nil_iff_forall_not_mem.mpr
      intro e he
      exact (hreads.owed e he).2 (h.due e (hreads.owed e he).1)
  | done hpc heq =>
      subst heq
      refine .of_nil (h.free (by rw [hpc]; decide) (by rw [hpc]; decide)) ?_
      rintro (hp | hp) <;> cases hp

theorem Settled.hard (h : Settled s) (hkept : Kept s)
    (hnoticed : s.pending.isSome = true → s.pc.phase ≠ .reading ∧ s.pc.phase ≠ .past) : Settled (interrupt s) := by
  cases hpending : s.pending with
  | none =>
      rw [interrupt_none hpending]
      exact ⟨h.free, h.note, h.due, h.past⟩
  | some e =>
      obtain ⟨hreading, hpast⟩ := hnoticed (hpending ▸ rfl)
      by_cases hpm : s.pmSuspended = true
      · rw [interrupt_noted hpending hpm]
        have hlooking : s.pc.phase = .looking := by
          rcases hkept.marked.mp hpm with hp | hp | hp
          · exact hp
          · exact absurd hp hreading
          · exact absurd hp hpast
        refine ⟨fun hl => absurd hlooking hl, nofun, ?_, ?_⟩
        · intro x hx
          rcases List.mem_cons.mp hx with rfl | hx
          · exact hpending
          · exact h.due x hx
        · rintro (hp | hp)
          · exact absurd hp hreading
          · exact absurd hp hpast
      · rw [interrupt_wakes hpending hpm]
        exact ⟨h.free, h.note, h.due, h.past⟩

theorem Settled.soft (h : Settled s) (hkept : Kept s) (hwoken : s.woken = true) (env : Env) :
    Settled (irqHandlerSoft { s with woken := false } env) := by
  have hthread := irqHandlerSoft_thread s env
  have hup : s.pc.phase = .up := hkept.up_of_woken hwoken
  apply Settled.of_nil
  · apply List.eq_nil_iff_forall_not_mem.mpr
    intro e he
    have hmem := hthread.owed he
    rw [h.free (by rw [hup]; decide) (by rw [hup]; decide)] at hmem
    exact List.not_mem_nil hmem
  · rw [hthread.pc, hup]
    rintro (hp | hp) <;> cases hp

theorem act_settled (h : Settled s) (hkept : Kept s) {a : Act} (hnoticed : Noticed wakeRuns s a) :
    Settled (act por wakeRuns s a) := by
  cases a with
  | suspend =>
      rw [act]
      split_ifs with hpc
      · exact h.move (goes_on .suspendMode (phase_eq hpc).symm : Move s _ default) (by rw [hpc]; nofun)
      · exact h
  | resume =>
      rw [act]
      split_ifs with hpc
      · exact h.move (goes_on .resumeWake (phase_eq hpc).symm : Move s _ default) (by rw [hpc]; nofun)
      · exact h
  | step env => exact h.move (pmStep_move s env) hnoticed
  | raise report =>
      rw [act, raise]
      split_ifs with hpending
      · exact h
      · have howed : s.owed = [] := by
          apply List.eq_nil_iff_forall_not_mem.mpr
          intro e he
          rw [h.due e he] at hpending
          exact hpending rfl
        exact .of_nil howed h.past
  | hard =>
      rw [act]
      split_ifs with hruns
      · exact h.hard hkept (hnoticed hruns)
      · exact h
  | soft env =>
      rw [act]
      split_ifs with hwoken
      · exact h.soft hkept hwoken env
      · exact h

theorem Settled.processed (h : Settled s) (a : Act) : Processed por s a := by
  cases a with
  | step env =>
      refine ⟨fun hpc => ?_, fun hpc hread => ?_⟩
      · have hpast : s.pc.phase = .past := by
          rw [hpc]
          rfl
        rw [pmStep, hpc]
        exact ⟨h.past (Or.inr hpast), h.free (by rw [hpast]; decide) (by rw [hpast]; decide)⟩
      · rw [pmStep, hpc]
        dsimp only
        rw [if_pos hread]
        exact readReport_releases s env
  | soft env =>
      intro _ hread
      rw [irqHandlerSoft, if_pos hread]
      exact readReport_releases { s with woken := false } env
  | _ => trivial

/-- A note or a debt behind the look of `resume`: nothing clears it before `resume` returns. -/
def Missed (s : Ts) : Prop :=
  (s.pc.phase = .reading ∨ s.pc.phase = .past) ∧ s.irqOnSuspend = true ∨ s.pc.phase = .past ∧ s.owed ≠ []

theorem Missed.phase (h : Missed s) : s.pc.phase = .reading ∨ s.pc.phase = .past :=
  h.elim (fun hx => hx.1) fun hx => Or.inr hx.1

theorem Missed.inResume (h : Missed s) : s.InResume := by
  refine ⟨Or.inr h.phase, fun hpc => ?_⟩
  have := h.phase
  rw [hpc] at this
  exact absurd this (by decide)

theorem Missed.move {s' : Ts} (h : Missed s) (hmove : Move s s' env)
    (hprocessed : s.pc = .resumeMark → s'.irqOnSuspend = false ∧ s'.owed = []) : Missed s' := by
  have hphase := h.phase
  cases hmove with
  | stay hsame hdebts _ =>
      unfold Missed
      rw [hsame, hdebts.irqOnSuspend, hdebts.owed]
      exact h
  | read hreading hpc heq =>
      subst heq
      have hirq : s.irqOnSuspend = true := by
        rcases h with hx | hx
        · exact hx.2
        · exact absurd (hreading.symm.trans hx.1) (by decide)
      refine Or.inl ⟨Or.inr rfl, ?_⟩
      dsimp only
      split_ifs
      · exact (readReport_reads s env).irqOnSuspend.trans hirq
      · exact hirq
  | done hpc heq =>
      obtain ⟨hirq, howed⟩ := hprocessed hpc
      subst heq
      rcases h with hx | hx
      · exact absurd (hirq.symm.trans hx.2) (by decide)
      · exact absurd howed hx.2
  | mask hp | clear hp | mark hp | look hp | skip hp =>
      rw [hp] at hphase
      exact absurd hphase (by decide)

theorem Kept.hard_noted (h : Kept s) (hphase : s.pc.phase = .reading ∨ s.pc.phase = .past)
    (hpending : s.pending.isSome = true) : (interrupt s).irqOnSuspend = true ∧ (interrupt s).pc = s.pc := by
  have hpm : s.pmSuspended = true := h.marked.mpr (Or.inr hphase)
  obtain ⟨e, he⟩ := Option.isSome_iff_exists.mp hpending
  rw [interrupt_noted he hpm]
  exact ⟨rfl, rfl⟩

theorem Missed.hard (h : Missed s) (hkept : Kept s) : Missed (interrupt s) := by
  by_cases hpending : s.pending.isSome = true
  · obtain ⟨hirq, hpc⟩ := hkept.hard_noted h.phase hpending
    exact Or.inl ⟨hpc ▸ h.phase, hirq⟩
  · have hnone := Option.not_isSome_iff_eq_none.mp hpending
    rw [interrupt_none hnone]
    exact h

theorem act_missed (h : Missed s) (hkept : Kept s) {a : Act} (hprocessed : Processed por s a) :
    Missed (act por wakeRuns s a) := by
  have hphase := h.phase
  cases a with
  | suspend =>
      rw [act, if_neg fun hpc => ?_]
      · exact h
      · rw [hpc] at hphase
        exact absurd hphase (by decide)
  | resume =>
      rw [act, if_neg fun hpc => ?_]
      · exact h
      · rw [hpc] at hphase
        exact absurd hphase (by decide)
  | step env => exact h.move (pmStep_move s env) hprocessed.1
  | raise report =>
      rw [act, raise]
      split_ifs <;> exact h
  | hard =>
      rw [act]
      split_ifs
      · exact h.hard hkept
      · exact h
  | soft env =>
      have hquiet : s.woken = false := by
        apply hkept.quiet
        rcases hphase with hp | hp <;> rw [hp] <;> decide
      rw [act, if_neg (by rw [hquiet]; decide)]
      exact h

/-- A note that is not noticed is missed. -/
theorem missed_of_not_noticed (hkept : Kept s) {a : Act} (hnoticed : ¬ Noticed wakeRuns s a) :
    Missed (act por wakeRuns s a) := by
  cases a with
  | hard =>
      simp only [Noticed, Classical.not_imp] at hnoticed
      obtain ⟨hruns, hpending, hphase⟩ := hnoticed
      have hphase : s.pc.phase = .reading ∨ s.pc.phase = .past := by
        by_contra hneither
        exact hphase (not_or.mp hneither)
      obtain ⟨hirq, hpc⟩ := hkept.hard_noted hphase hpending
      rw [act, if_pos hruns]
      exact Or.inl ⟨hpc ▸ hphase, hirq⟩
  | step env =>
      simp only [Noticed, Classical.not_imp] at hnoticed
      obtain ⟨hpc, hread⟩ := hnoticed
      rw [act, pmStep, hpc]
      dsimp only
      rw [if_neg hread]
      exact Or.inr ⟨rfl, hkept.reading (phase_eq hpc)⟩
  | suspend | resume | raise report | soft env => exact absurd trivial hnoticed

end

theorem noticed_of_processed {s : Ts} (hkept : Kept s) {acts : List Act}
    (h : Always (act por wakeRuns) (Processed por) s acts) :
    (run (act por wakeRuns) s acts).InResume ∨ Always (act por wakeRuns) (Noticed wakeRuns) s acts := by
  induction acts generalizing s with
  | nil => exact Or.inr trivial
  | cons a acts ih =>
      have hkept' : Kept (act por wakeRuns s a) := act_kept wakeRuns hkept a
      by_cases hnoticed : Noticed wakeRuns s a
      · exact (ih hkept' h.2).imp_right fun hrest => ⟨hnoticed, hrest⟩
      · have hmissed : Missed (act por wakeRuns s a) := missed_of_not_noticed wakeRuns hkept hnoticed
        have hstill : Missed (run (act por wakeRuns) (act por wakeRuns s a) acts) ∧
            Kept (run (act por wakeRuns) (act por wakeRuns s a) acts) := by
          apply run_invariant (I := fun s => Missed s ∧ Kept s) (C := Processed por) _ ⟨hmissed, hkept'⟩ h.2
          exact fun s a hs hp => ⟨act_missed wakeRuns hs.1 hs.2 hp, act_kept wakeRuns hs.2 a⟩
        exact Or.inl hstill.1.inResume

/-- Every `resume` processes what was answered under `pm_suspended` if all of it was noticed, and in a
run that does not end inside a `resume` only then. -/
theorem resume_processes_iff (acts : List Act) :
    (Always (act por wakeRuns) (Noticed wakeRuns) probed acts →
      Always (act por wakeRuns) (Processed por) probed acts) ∧
    (Always (act por wakeRuns) (Processed por) probed acts →
      (run (act por wakeRuns) probed acts).InResume ∨ Always (act por wakeRuns) (Noticed wakeRuns) probed acts) := by
  refine ⟨fun h => ?_, noticed_of_processed por wakeRuns probed_kept⟩
  apply always_of_invariant (I := fun s => Settled s ∧ Kept s) _ _ ⟨probed_settled, probed_kept⟩ h
  · exact fun s a hs hn => ⟨act_settled wakeRuns hs.1 hs.2 hn, act_kept wakeRuns hs.2 a⟩
  · exact fun s a hs _ => hs.1.processed a

end

/-- The reset in `set_resume_mode` is reported as soon as the line is enabled again. -/
def porReport : Report := ⟨MXM_ONE_PACKET_RPT <<< 8, MXM_RPT_ID_SYS_STATUS, MXM_STATUS_EXT_RESET⟩

/-- What a step is answered where all is well. -/
def fine : Env := ⟨false, false, true, ⟨0, 0, 0⟩, 0⟩

/-- The external reset's interrupt comes while `pm_suspended` is still set, and is never looked at. -/
theorem reset_report_is_lost :
    ¬ ∀ (por wakeRuns : Bool) (acts : List Act), Always (act por wakeRuns) (Processed por) probed acts := by
  intro h
  have hrun := h true false (.suspend :: List.replicate 8 (.step fine) ++ .resume :: List.replicate 8 (.step fine) ++
    [.raise porReport, .step fine, .hard, .step fine, .step fine])
  obtain ⟨-, -, -, -, -, -, -, -, -, -, -, -, -, -, -, -, -, -, -, -, -, -, hprocessed, -⟩ := hrun
  exact absurd (hprocessed.1 rfl).1 (by decide)

end Sirius.Touch
