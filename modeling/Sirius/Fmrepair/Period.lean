import Sirius.Fmrepair.Impulses

/-!
# The tracked period

A prediction is acted on soon after its time when no cluster is open, and a cluster is short. So a burst accepted
while locked is never late enough for the branch that counts the periods in between.
-/
namespace Sirius.Fmrepair
open Rounded

section
variable (R : Rounding)

/-- `track` calls `close_burst` after the next frame. -/
def Closes (s : Fm) : Prop := closeDue (noted s) s.nCls = true ∧ MIN_OUTLIERS ≤ (noted s).count

/-- `close_burst` takes the branch of a burst two periods late. -/
def TakesLateBranch (s : Fm) : Prop :=
  let d := R.fl (centre s - s.cLast : ℤ)
  s.locked = true ∧ offPhase R s = true ∧ STRONG ≤ s.count ∧ ¬((P_MIN : ℚ) < d ∧ d < (P_MAX : ℚ)) ∧
    3 / 2 * (P_MIN : ℚ) < d

/-- The tracked period at a point of a run, and after a cluster that is closed there. -/
structure PeriodHeld (p : Point) (s : Fm) : Prop where
  range : PeriodRange s.period
  closed : p = .loop → classifyReady s = true → PeriodRange (closeIfDue R (noted s) s.nCls).period
  near : p = .loop → classifyReady s = true → Closes s → (noted s).locked = true →
    (centre (noted s) : ℚ) ≤ (noted s).cLast + 3 / 2 * P_MIN
  never : p = .loop → classifyReady s = true → Closes s → ¬TakesLateBranch R (noted s)
  divisor : ∀ d : ℚ, 3 / 2 * (P_MIN : ℚ) < d → 1 ≤ R.fl (truncate (R.fl (R.fl (d / s.period) + 1 / 2)))

variable {R}

theorem divisor_pos {p d : ℚ} (hp : PeriodRange p) (hd : 3 / 2 * (P_MIN : ℚ) < d) :
    1 ≤ R.fl (truncate (R.fl (R.fl (d / p) + 1 / 2))) := by
  simp only [PeriodRange, P_MIN, P_MAX] at hp hd
  push_cast at hp hd
  have hratio : 5 / 4 ≤ d / p := (le_div_iff₀ (by linarith)).2 (by linarith)
  have hquarter : ∀ {k : ℤ} {x : ℚ}, |k| ≤ 2 ^ 53 → (k : ℚ) / 4 ≤ x → (k : ℚ) / 4 ≤ R.fl x := by
    intro k x hk hx
    rw [← R.quarter k hk]
    exact R.mono hx
  have hfirst := hquarter (k := 5) (by norm_num) (by push_cast; exact hratio)
  have hsecond := hquarter (k := 7) (x := R.fl (d / p) + 1 / 2) (by norm_num) (by push_cast at hfirst ⊢; linarith)
  push_cast at hsecond
  have hone : (1 : ℤ) ≤ truncate (R.fl (R.fl (d / p) + 1 / 2)) := by
    rw [truncate, if_pos (by linarith)]
    exact Int.le_floor.2 (by push_cast; linarith)
  have hlast := hquarter (k := 4) (x := truncate (R.fl (R.fl (d / p) + 1 / 2))) (by norm_num) (by
    push_cast
    exact (by norm_num : (4 : ℚ) / 4 ≤ 1).trans (by exact_mod_cast hone))
  push_cast at hlast
  linarith

theorem Closes.near {s : Fm} {xs : List Frame} (hc : Closes s) (h : Inv R .loop s xs) (hr : classifyReady s = true)
    (hl : (noted s).locked = true) : centre (noted s) ≤ (noted s).cLast + 1575 :=
  centre_near (h.noted hr).1 (Bool.and_eq_true_iff.mp hc.1).1 hl

theorem Closes.never {s : Fm} {xs : List Frame} (hc : Closes s) (h : Inv R .loop s xs) (hr : classifyReady s = true) :
    ¬TakesLateBranch R (noted s) := by
  rintro ⟨hl, -, -, -, hlate⟩
  have hnear : ((centre (noted s) - (noted s).cLast : ℤ) : ℚ) ≤ ((1575 : ℤ) : ℚ) := by
    exact_mod_cast Int.sub_left_le_of_le_add (hc.near h hr hl)
  have hround := R.mono hnear
  rw [fl_int R (k := 1575) (by norm_num)] at hround
  simp only [P_MIN] at hlate
  push_cast at hlate hround
  linarith

/-- The period stays in its range, and no burst is two periods late. -/
theorem fmrepair_period (R : Rounding) (fm : Fm) {p : Point} {s : Fm} {xs : List Frame}
    (h : Reached R fm p s xs) : PeriodHeld R p s := by
  have hinv := reached_inv h
  refine ⟨hinv.tracking.period, ?_, ?_, ?_, fun d hd => divisor_pos hinv.tracking.period hd⟩
  · rintro rfl hr
    obtain ⟨ht, hp, hlag⟩ := hinv.noted hr
    exact (closed_sound ht hp hlag).1.period
  · rintro rfl hr hc hl
    have hnear : (centre (noted s) : ℚ) ≤ ((noted s).cLast + 1575 : ℤ) := by exact_mod_cast hc.near hinv hr hl
    simp only [P_MIN]
    push_cast at hnear ⊢
    linarith
  · rintro rfl hr hc
    exact hc.never hinv hr

end

/-- The third burst is closed while the first two are tracked. -/
theorem fmrepair_period_bursts :
    ∃ s, Reached .exact fmCalloc .loop s (impulseFrames threeBursts 2470) ∧ classifyReady s = true ∧ Closes s ∧
      (noted s).locked = true ∧ PeriodRange (closeIfDue .exact (noted s) s.nCls).period ∧
      (centre (noted s) : ℚ) ≤ (noted s).cLast + 3 / 2 * P_MIN ∧ ¬TakesLateBranch .exact (noted s) := by
  obtain ⟨s, hs, hcls, hr⟩ := classifyReady_reached .exact fmCalloc (impulseFrames threeBursts 2469)
    (impulseFrame threeBursts 2469) (by rw [length_impulseFrames]; decide)
  rw [← impulseFrames_succ] at hs
  rw [length_impulseFrames] at hcls
  have hcls : s.nCls = 2461 := by omega
  have hnoted :=
    (impulseFrames_noted isolated_threeBursts (n := 2461) (by decide) (by decide) hs hcls hr).trans threeBurstsRun_third
  have hlocked : (noted s).locked = true := congrArg Tracker.locked hnoted
  have hdue : closeDue (noted s).tracker.fm s.nCls = true := by
    rw [hnoted, hcls]
    rfl
  have hcloses : Closes s := ⟨hdue, (congrArg Tracker.count hnoted).ge⟩
  have hheld := fmrepair_period .exact fmCalloc hs
  exact ⟨s, hs, hr, hcloses, hlocked, hheld.closed rfl hr, hheld.near rfl hr hcloses hlocked,
    hheld.never rfl hr hcloses⟩

end Sirius.Fmrepair
