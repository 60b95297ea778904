import Sirius.Lib.Runs
import Sirius.Panel.Model

/-!
# The supplies of the panel

Both are on while the panel is prepared. vddio stays off for the power-down time by what `sirius_panel_power_off`
has recorded, and a second supply that fails disables it without recording anything.
-/
namespace Sirius.Panel
open Runs

section
variable (desc : PanelDesc)

/-- Every enabling of vddio was late enough. -/
def GapsKept (s : SiriusPanel) : Prop := ∀ g ∈ s.gaps, g.1 + desc.powerDownMs * NSEC_PER_MSEC ≤ g.2

/-- The supplies are on exactly while the panel is prepared, and vddio was always off for long enough. -/
structure Sequenced (s : SiriusPanel) : Prop where
  vddio : s.vddio = if s.prepared then 1 else 0
  vsp : s.vsp = if s.prepared then 1 else 0
  gaps : GapsKept desc s

/-- The caller waits where the second supply was what disabled vddio. -/
def Late (s : SiriusPanel) : PanelAct → Prop
  | .prepare env => s.prepared = false → env.vddio = 0 → ∀ off, s.lastOff = some (.vspFailed, off) →
      off + desc.powerDownMs * NSEC_PER_MSEC ≤ s.now + env.spent 0 + env.spent 1
  | _ => True

/-- The recorded time covers the power-offs. Where the second supply failed, what was recorded before is too old to
matter. -/
structure PanelInv (s : SiriusPanel) : Prop where
  started : 0 < s.now
  offTime : s.offTime ≤ s.now
  powerOff : ∀ off, s.lastOff = some (.powerOff, off) → off ≤ s.offTime ∧ 0 < s.offTime
  vspFailed : ∀ off, s.lastOff = some (.vspFailed, off) →
    off ≤ s.now ∧ (s.offTime = 0 ∨ s.offTime + desc.powerDownMs * NSEC_PER_MSEC ≤ off)

end

/-- Time has passed, and the reset line may have changed. -/
structure Passes (s s' : SiriusPanel) : Prop where
  now : s.now ≤ s'.now
  vddio : s'.vddio = s.vddio
  vsp : s'.vsp = s.vsp
  offTime : s'.offTime = s.offTime
  prepared : s'.prepared = s.prepared
  lastOff : s'.lastOff = s.lastOff
  gaps : s'.gaps = s.gaps

section
variable {s s' s'' : SiriusPanel}

theorem Passes.trans (h : Passes s s') (h' : Passes s' s'') : Passes s s'' :=
  ⟨Nat.le_trans h.now h'.now, h'.vddio.trans h.vddio, h'.vsp.trans h.vsp, h'.offTime.trans h.offTime,
    h'.prepared.trans h.prepared, h'.lastOff.trans h.lastOff, h'.gaps.trans h.gaps⟩

theorem sleep_now (s : SiriusPanel) (ms spent : ℕ) :
    (s.sleep ms spent).now = s.now + ms * NSEC_PER_MSEC + spent := rfl

theorem sleep_passes (s : SiriusPanel) (ms spent : ℕ) : Passes s (s.sleep ms spent) := by
  refine ⟨?_, rfl, rfl, rfl, rfl, rfl, rfl⟩
  rw [sleep_now]
  omega

theorem resetSeq_passes (seq : List ResetStep) (s : SiriusPanel) : Passes s (siriusPanelRunResetSeq seq s) := by
  unfold siriusPanelRunResetSeq
  induction seq generalizing s with
  | nil => exact ⟨Nat.le_refl _, rfl, rfl, rfl, rfl, rfl, rfl⟩
  | cons step seq ih =>
      have hreset : Passes s { s with reset := !step.release } := ⟨Nat.le_refl _, rfl, rfl, rfl, rfl, rfl, rfl⟩
      exact (hreset.trans (sleep_passes _ step.delayMs 0)).trans (ih _)

end

/-- What `sirius_panel_power_off` comes to. -/
structure PoweredOff (s s' : SiriusPanel) : Prop where
  vddio : s'.vddio = s.vddio - 1
  vsp : s'.vsp = s.vsp - 1
  prepared : s'.prepared = s.prepared
  gaps : s'.gaps = s.gaps
  now : s.now ≤ s'.now
  offTime : s'.offTime = s'.now
  lastOff : ∃ off, s'.lastOff = some (.powerOff, off) ∧ off ≤ s'.now

theorem Passes.vspOff {s s' : SiriusPanel} (h : Passes s s') :
    Passes { s with vsp := s.vsp - 1 } { s' with vsp := s'.vsp - 1 } :=
  ⟨h.now, h.vddio, congrArg (· - 1) h.vsp, h.offTime, h.prepared, h.lastOff, h.gaps⟩

theorem powerOff_off (desc : PanelDesc) (spent : ℕ → ℕ) (s : SiriusPanel) :
    PoweredOff s (siriusPanelPowerOff desc spent s) := by
  have hvsp := (resetSeq_passes desc.resetOffPre s).vspOff.trans (sleep_passes _ desc.vspOffPostMs (spent 5))
  have hoff := hvsp.trans (resetSeq_passes desc.resetOff _)
  unfold siriusPanelPowerOff
  dsimp only
  generalize siriusPanelRunResetSeq desc.resetOff _ = b at hoff ⊢
  have hread := sleep_passes (b.disableVddio .powerOff) 0 (spent 6)
  constructor
  · exact hread.vddio.trans (congrArg (· - 1) hoff.vddio)
  · exact hread.vsp.trans hoff.vsp
  · exact hread.prepared.trans hoff.prepared
  · exact hread.gaps.trans hoff.gaps
  · exact Nat.le_trans hoff.now hread.now
  · rfl
  · exact ⟨_, hread.lastOff, hread.now⟩

theorem PoweredOff.inv {desc : PanelDesc} {s s' : SiriusPanel} (h : PoweredOff s s') (hs : 0 < s.now) :
    PanelInv desc s' := by
  have hnow := h.now
  have hoff := h.offTime
  obtain ⟨off, hlast, hle⟩ := h.lastOff
  constructor
  · omega
  · omega
  · intro off' hoff'
    rw [hlast] at hoff'
    cases hoff'
    omega
  · intro off' hoff'
    rw [hlast] at hoff'
    cases hoff'

section
variable {desc : PanelDesc} {s : SiriusPanel}

theorem powerDownPeriod_passes (desc : PanelDesc) (env : PrepareEnv) (s : SiriusPanel) :
    Passes s (powerDownPeriod desc env s) :=
  (sleep_passes s 0 (env.spent 0)).trans (sleep_passes _ _ (env.spent 1))

/-- The wait fills the recorded time up. -/
theorem powerDownPeriod_now (h : s.offTime ≤ s.now) (hoff : s.offTime ≠ 0) (env : PrepareEnv) :
    s.offTime + desc.powerDownMs * NSEC_PER_MSEC ≤ (powerDownPeriod desc env s).now := by
  rw [powerDownPeriod, sleep_now, powerDownWait]
  have hnow : (s.sleep 0 (env.spent 0)).now = s.now + env.spent 0 := by rw [sleep_now, Nat.zero_mul, Nat.add_zero]
  have hoffTime : (s.sleep 0 (env.spent 0)).offTime = s.offTime := rfl
  rw [hnow, hoffTime]
  have hfloor := Nat.div_mul_le_self (s.now + env.spent 0 - s.offTime) NSEC_PER_MSEC
  by_cases hms : desc.powerDownMs = 0
  · rw [hms, Nat.zero_mul]
    omega
  · rw [if_pos ⟨hms, hoff⟩]
    dsimp only
    split_ifs with hshort
    · have hsum : (desc.powerDownMs - (s.now + env.spent 0 - s.offTime) / NSEC_PER_MSEC) * NSEC_PER_MSEC +
          (s.now + env.spent 0 - s.offTime) / NSEC_PER_MSEC * NSEC_PER_MSEC = desc.powerDownMs * NSEC_PER_MSEC := by
        rw [← Nat.add_mul, Nat.sub_add_cancel (Nat.le_of_lt hshort)]
      omega
    · have hlong := Nat.mul_le_mul_right NSEC_PER_MSEC (Nat.le_of_not_lt hshort)
      omega

/-- Where that time is over already there is no wait. -/
theorem powerDownPeriod_over (h : s.offTime = 0 ∨ s.offTime + desc.powerDownMs * NSEC_PER_MSEC ≤ s.now)
    (env : PrepareEnv) : (powerDownPeriod desc env s).now = s.now + env.spent 0 + env.spent 1 := by
  have hwait : powerDownWait desc (s.sleep 0 (env.spent 0)) = 0 := by
    rw [powerDownWait]
    split_ifs with hwait
    · dsimp only
      refine if_neg (Nat.not_lt.mpr ((Nat.le_div_iff_mul_le (by decide)).mpr ?_))
      have hoff : s.offTime ≠ 0 := hwait.2
      have hnow : (s.sleep 0 (env.spent 0)).now = s.now + env.spent 0 := by rw [sleep_now, Nat.zero_mul, Nat.add_zero]
      have hoffTime : (s.sleep 0 (env.spent 0)).offTime = s.offTime := rfl
      rw [hnow, hoffTime]
      have hover := h.resolve_left hoff
      omega
    · rfl
  rw [powerDownPeriod, sleep_now, hwait, sleep_now, Nat.zero_mul, Nat.add_zero, Nat.add_zero]

/-- How a prepare can end. -/
inductive Prepares (desc : PanelDesc) (env : PrepareEnv) (s : SiriusPanel) : SiriusPanel × ℤ → Prop
  | vddioFails (hvddio : env.vddio ≠ 0) : Prepares desc env s (powerDownPeriod desc env s, -env.vddio)
  | vspFails (b : SiriusPanel) (hvddio : env.vddio = 0) (hvsp : env.vsp ≠ 0)
      (hb : Passes (powerDownPeriod desc env s).enableVddio b) :
      Prepares desc env s (b.disableVddio .vspFailed, -env.vsp)
  | initFails (b : SiriusPanel) (hvddio : env.vddio = 0) (hinit : env.init ≠ 0)
      (hb : Passes { (powerDownPeriod desc env s).enableVddio with vsp := s.vsp + 1 } b) :
      Prepares desc env s (siriusPanelPowerOff desc env.spent b, -env.init)
  | prepared (b : SiriusPanel) (hvddio : env.vddio = 0)
      (hb : Passes { (powerDownPeriod desc env s).enableVddio with vsp := s.vsp + 1 } b) : Prepares desc env s (b, 0)

theorem Passes.vspOn {s s' : SiriusPanel} (h : Passes s s') :
    Passes { s with vsp := s.vsp + 1 } { s' with vsp := s'.vsp + 1 } :=
  ⟨h.now, h.vddio, congrArg (· + 1) h.vsp, h.offTime, h.prepared, h.lastOff, h.gaps⟩

theorem prepare_prepares (desc : PanelDesc) (env : PrepareEnv) (s : SiriusPanel) :
    Prepares desc env s (siriusPanelPrepare desc env s) := by
  have hpre := sleep_passes (powerDownPeriod desc env s).enableVddio desc.vspOnPreMs (env.spent 2)
  have hon := (hpre.vspOn.trans (sleep_passes _ desc.vspOnPostMs (env.spent 3))).trans
    (resetSeq_passes desc.resetOn _)
  have hids := hon.trans (sleep_passes _ 0 (env.spent 4))
  unfold siriusPanelPrepare siriusPanelPowerOn
  dsimp only
  by_cases hvddio : env.vddio = 0
  · rw [if_neg (not_not.mpr hvddio)]
    by_cases hvsp : env.vsp = 0
    · rw [if_neg (not_not.mpr hvsp), if_neg (not_not.mpr rfl)]
      by_cases hinit : env.init = 0
      · rw [if_neg (not_not.mpr hinit)]
        exact .prepared _ hvddio hids
      · rw [if_pos hinit]
        exact .initFails _ hvddio hinit hids
    · have hret : -(env.vsp : ℤ) ≠ 0 := by omega
      rw [if_pos hvsp, if_pos hret]
      exact .vspFails _ hvddio hvsp hpre
  · have hret : -(env.vddio : ℤ) ≠ 0 := by omega
    rw [if_pos hvddio, if_pos hret]
    exact .vddioFails hvddio

end

section
variable {desc : PanelDesc} {s s' : SiriusPanel}

theorem PanelInv.of_same (h : PanelInv desc s) (hnow : s.now ≤ s'.now) (hoff : s'.offTime = s.offTime)
    (hlast : s'.lastOff = s.lastOff) : PanelInv desc s' := by
  constructor
  · exact Nat.lt_of_lt_of_le h.started hnow
  · rw [hoff]
    exact Nat.le_trans h.offTime hnow
  · rw [hlast, hoff]
    exact h.powerOff
  · intro off hfailed
    rw [hlast] at hfailed
    rw [hoff]
    obtain ⟨hle, hover⟩ := h.vspFailed off hfailed
    exact ⟨Nat.le_trans hle hnow, hover⟩

theorem PanelInv.step (h : PanelInv desc s) (a : PanelAct) : PanelInv desc (panelStep desc s a) := by
  cases a with
  | wait ns =>
      have hp := sleep_passes s 0 ns
      exact h.of_same hp.now hp.offTime hp.lastOff
  | unprepare spent =>
      rw [panelStep]
      split_ifs
      · exact ((powerOff_off desc spent s).inv h.started).of_same (Nat.le_refl _) rfl rfl
      · exact h
  | prepare env =>
      have hperiod := powerDownPeriod_passes desc env s
      rw [panelStep]
      split_ifs
      · exact h
      have hp := prepare_prepares desc env s
      generalize siriusPanelPrepare desc env s = r at hp ⊢
      cases hp with
      | vddioFails hvddio =>
          dsimp only
          rw [if_pos (by omega)]
          exact h.of_same hperiod.now hperiod.offTime hperiod.lastOff
      | vspFails b hvddio hvsp hb =>
          dsimp only
          rw [if_pos (by omega)]
          have hnow : s.now ≤ b.now := Nat.le_trans hperiod.now hb.now
          have hoff : b.offTime = s.offTime := hb.offTime.trans hperiod.offTime
          constructor
          · exact Nat.lt_of_lt_of_le h.started hnow
          · exact Nat.le_trans (Nat.le_of_eq hoff) (Nat.le_trans h.offTime hnow)
          · exact fun off hlast => nomatch hlast
          · rintro off hlast
            cases hlast
            refine ⟨Nat.le_refl _, ?_⟩
            by_cases hzero : s.offTime = 0
            · exact Or.inl (hoff.trans hzero)
            · refine Or.inr (Nat.le_trans ?_ hb.now)
              change b.offTime + _ ≤ _
              rw [hoff]
              exact powerDownPeriod_now h.offTime hzero env
      | initFails b hvddio hinit hb =>
          dsimp only
          rw [if_pos (by omega)]
          exact (powerOff_off desc env.spent b).inv (Nat.lt_of_lt_of_le h.started (Nat.le_trans hperiod.now hb.now))
      | prepared b hvddio hb =>
          dsimp only
          rw [if_neg (by omega)]
          exact h.of_same (Nat.le_trans hperiod.now hb.now) (hb.offTime.trans hperiod.offTime)
            (hb.lastOff.trans hperiod.lastOff)

/-- Every enabling is late enough but for one behind a second supply that failed. -/
theorem enable_gaps_iff (h : PanelInv desc s) (hgaps : GapsKept desc s) {env : PrepareEnv} (hvddio : env.vddio = 0)
    (hunprepared : s.prepared = false) :
    GapsKept desc (powerDownPeriod desc env s).enableVddio ↔ Late desc s (.prepare env) := by
  have hperiod := powerDownPeriod_passes desc env s
  rw [GapsKept, SiriusPanel.enableVddio, hperiod.lastOff, hperiod.gaps]
  cases hlast : s.lastOff with
  | none => exact iff_of_true hgaps fun _ _ off hoff => nomatch hlast.symm.trans hoff
  | some last =>
      obtain ⟨path, off⟩ := last
      dsimp only
      rw [List.forall_mem_append, List.forall_mem_singleton]
      refine (and_iff_right hgaps).trans ?_
      cases path with
      | powerOff =>
          obtain ⟨hle, hpos⟩ := h.powerOff off hlast
          have hwaited := @powerDownPeriod_now desc _ h.offTime (Nat.ne_of_gt hpos) env
          exact iff_of_true (by omega) fun _ _ off' hoff => nomatch hlast.symm.trans hoff
      | vspFailed =>
          obtain ⟨hle, hover⟩ := h.vspFailed off hlast
          have hover' : s.offTime = 0 ∨ s.offTime + desc.powerDownMs * NSEC_PER_MSEC ≤ s.now :=
            hover.imp id fun hbefore => Nat.le_trans hbefore hle
          rw [powerDownPeriod_over hover' env]
          refine ⟨fun hlate _ _ off' hoff => ?_, fun hlate => hlate hunprepared hvddio off hlast⟩
          cases hlast.symm.trans hoff
          exact hlate

/-- Where the supplies are as they should be, what is left is the gaps. -/
theorem sequenced_iff_gaps {gaps : List (ℕ × ℕ)} (hvddio : s.vddio = if s.prepared then 1 else 0)
    (hvsp : s.vsp = if s.prepared then 1 else 0) (hgaps : s.gaps = gaps) :
    Sequenced desc s ↔ ∀ g ∈ gaps, g.1 + desc.powerDownMs * NSEC_PER_MSEC ≤ g.2 := by
  subst hgaps
  exact ⟨fun h => h.gaps, fun h => ⟨hvddio, hvsp, h⟩⟩

theorem sequenced_prepare_iff (h : PanelInv desc s) (hs : Sequenced desc s) (env : PrepareEnv)
    (hunprepared : s.prepared = false) :
    Sequenced desc (panelStep desc s (.prepare env)) ↔ Late desc s (.prepare env) := by
  have hperiod := powerDownPeriod_passes desc env s
  have hoff : (powerDownPeriod desc env s).prepared = false := hperiod.prepared.trans hunprepared
  have hvddio : (powerDownPeriod desc env s).vddio = 0 := by
    rw [hperiod.vddio, hs.vddio, hunprepared]
    rfl
  have hvsp : s.vsp = 0 := by
    rw [hs.vsp, hunprepared]
    rfl
  have hon : (powerDownPeriod desc env s).enableVddio.vddio = 1 := congrArg (· + 1) hvddio
  have hp := prepare_prepares desc env s
  rw [panelStep, hunprepared, if_neg Bool.false_ne_true]
  generalize siriusPanelPrepare desc env s = r at hp ⊢
  cases hp with
  | vddioFails hfails =>
      dsimp only
      rw [if_pos (by omega)]
      refine iff_of_true ?_ fun _ hzero => absurd hzero hfails
      refine (sequenced_iff_gaps ?_ ?_ hperiod.gaps).mpr hs.gaps
      · rw [hvddio, hoff]
        rfl
      · rw [hperiod.vsp, hvsp, hoff]
        rfl
  | vspFails b hzero hfails hb =>
      dsimp only
      rw [if_pos (by omega), ← enable_gaps_iff h hs.gaps hzero hunprepared]
      have hprepared : b.prepared = false := hb.prepared.trans hoff
      refine sequenced_iff_gaps ?_ ?_ hb.gaps
      · change b.vddio - 1 = if b.prepared then 1 else 0
        rw [hb.vddio, hon, hprepared]
        rfl
      · change b.vsp = if b.prepared then 1 else 0
        rw [hb.vsp, hprepared]
        exact hperiod.vsp.trans hvsp
  | initFails b hzero hfails hb =>
      dsimp only
      rw [if_pos (by omega), ← enable_gaps_iff h hs.gaps hzero hunprepared]
      have hpower := powerOff_off desc env.spent b
      have hprepared : (siriusPanelPowerOff desc env.spent b).prepared = false :=
        hpower.prepared.trans (hb.prepared.trans hoff)
      refine sequenced_iff_gaps ?_ ?_ (hpower.gaps.trans hb.gaps)
      · rw [hpower.vddio, hb.vddio, hprepared]
        exact congrArg (· - 1) hon
      · rw [hpower.vsp, hb.vsp, hprepared]
        exact congrArg (· + 1 - 1) hvsp
  | prepared b hzero hb =>
      dsimp only
      rw [if_neg (by omega), ← enable_gaps_iff h hs.gaps hzero hunprepared]
      refine sequenced_iff_gaps ?_ ?_ hb.gaps
      · exact hb.vddio.trans hon
      · exact hb.vsp.trans (congrArg (· + 1) hvsp)

theorem sequenced_step_iff (h : PanelInv desc s) (hs : Sequenced desc s) (a : PanelAct) :
    Sequenced desc (panelStep desc s a) ↔ Late desc s a := by
  cases a with
  | wait ns => exact iff_of_true ⟨hs.vddio, hs.vsp, hs.gaps⟩ trivial
  | unprepare spent =>
      refine iff_of_true ?_ trivial
      rw [panelStep]
      split_ifs with hprepared
      · have hoff := powerOff_off desc spent s
        have hvddio := hs.vddio
        have hvsp := hs.vsp
        rw [if_pos hprepared] at hvddio hvsp
        refine (sequenced_iff_gaps (s := { siriusPanelPowerOff desc spent s with prepared := false }) ?_ ?_
          hoff.gaps).mpr hs.gaps
        · exact hoff.vddio.trans (congrArg (· - 1) hvddio)
        · exact hoff.vsp.trans (congrArg (· - 1) hvsp)
      · exact hs
  | prepare env =>
      cases hprepared : s.prepared with
      | false => exact sequenced_prepare_iff h hs env hprepared
      | true =>
          rw [panelStep, if_pos hprepared]
          exact iff_of_true hs fun hunprepared => absurd (hprepared.symm.trans hunprepared) Bool.noConfusion

end

theorem panelProbe_inv (desc : PanelDesc) (start : ℕ) :
    PanelInv desc (siriusPanelProbe start) ∧ Sequenced desc (siriusPanelProbe start) := by
  refine ⟨⟨Nat.succ_pos _, Nat.zero_le _, ?_, ?_⟩, rfl, rfl, fun g hg => absurd hg List.not_mem_nil⟩
  · exact fun off h => nomatch h
  · exact fun off h => nomatch h

/-- Over every order of calls and failures the supplies follow the panel, and vddio is off for long enough exactly
where a caller comes late enough behind a second supply that failed. -/
theorem panel_sequenced_iff (v : Variant) (start : ℕ) (as : List PanelAct) :
    Always (panelStep (siriusPanels v)) (fun s a => Sequenced (siriusPanels v) (panelStep (siriusPanels v) s a))
        (siriusPanelProbe start) as ↔
      Always (panelStep (siriusPanels v)) (Late (siriusPanels v)) (siriusPanelProbe start) as := by
  refine always_iff_of_invariant (I := fun s => PanelInv (siriusPanels v) s ∧ Sequenced (siriusPanels v) s) ?_ ?_
    (panelProbe_inv _ start)
  · rintro s a ⟨h, hs⟩ hlate
    exact ⟨h.step a, (sequenced_step_iff h hs a).mpr hlate⟩
  · rintro s a ⟨h, hs⟩
    exact sequenced_step_iff h hs a

/-- The second supply fails, and the panel is prepared again at once. -/
def retryAfterVsp : List PanelAct := [.prepare ⟨0, 5, 0, fun _ => 0⟩, .prepare ⟨0, 0, 0, fun _ => 0⟩]

theorem retryAfterVsp_not_sequenced : ¬Always (panelStep (siriusPanels .novatekJdi))
    (fun s a => Sequenced (siriusPanels .novatekJdi) (panelStep (siriusPanels .novatekJdi) s a)) (siriusPanelProbe 0)
    retryAfterVsp := by
  rintro ⟨-, hseq, -⟩
  exact absurd (hseq.gaps (5000001, 5000001) (by decide)) (by decide)

end Sirius.Panel
