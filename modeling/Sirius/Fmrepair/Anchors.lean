import Sirius.Fmrepair.Blind
import Sirius.Fmrepair.Impulses

/-!
# The frames a repair rests on

A cluster that ends by 48 quiet frames has good frames on both sides. One that `MAX_BURST` cuts off may have
outliers right behind it, and the next cluster may begin right behind those.
-/
namespace Sirius.Fmrepair
open Rounded

section
variable (R : Rounding) (fm : Fm) (xs : List Frame)

/-- Frame `j` of the stream is classified, as an outlier. -/
def OutlierIn (j : ℤ) : Prop := 0 ≤ j ∧ j + 8 < xs.length ∧ outlierAt xs j.toNat = true

/-- In the course of the stream the next frame is about to be classified, and a cluster ends with it. -/
structure Ends (s : Fm) (ys : List Frame) : Prop where
  part : ys <+: xs
  reached : Reached R fm .loop s ys
  ready : classifyReady s = true
  due : closeDue (noted s) s.nCls = true

/-- A cluster is cut off at frame `c`, fewer than seven frames behind its last outlier. -/
def CutAt (c : ℤ) : Prop := ∃ s ys, Ends R fm xs s ys ∧ s.nCls = c ∧ c < (noted s).last + 7

/-- A burst that is accepted is not followed by an outlier in its seventh frame where it is cut off, nor preceded
by one in its seventh frame where the cluster before it was cut off in between. -/
def EndsWell (s : Fm) : Prop :=
  (s.nCls < (noted s).last + 7 → ¬OutlierIn xs ((noted s).last + 7)) ∧
    ∀ c, CutAt R fm xs c → c < (noted s).first → (noted s).first ≤ c + 7 → ¬OutlierIn xs ((noted s).first - 7)

/-- The two frames the window is interpolated between. -/
def Scheduled.Anchored (e : Scheduled) : Prop :=
  e.isBurst = true → ¬OutlierIn xs (e.window.a - 1) ∧ ¬OutlierIn xs (e.window.b + 1)

/-- Where the outliers before frame `n` are. -/
structure Marked (s : Fm) (n : ℤ) : Prop where
  quiet : s.isOpen = true → ∀ j, s.last < j → j < n → ¬OutlierIn xs j
  before : s.isOpen = true → OutlierIn xs (s.first - 7) → ∃ c, CutAt R fm xs c ∧ c < s.first ∧ s.first ≤ c + 7
  between : s.isOpen = false → ∀ j < n, OutlierIn xs j → j + 8 ≤ n ∨ ∃ c, CutAt R fm xs c ∧ j ≤ c ∧ c < n

variable {R fm xs}

theorem Marked.of_same {s t : Fm} {n : ℤ} (h : Marked R fm xs s n)
    (hsame : t.isOpen = s.isOpen ∧ t.first = s.first ∧ t.last = s.last) : Marked R fm xs t n := by
  obtain ⟨ho, hf, hl⟩ := hsame
  refine ⟨?_, ?_, ?_⟩
  · rw [ho, hl]
    exact h.quiet
  · rw [ho, hf]
    exact h.before
  · rw [ho]
    exact h.between

theorem outlierIn_next {s : Fm} {ys : List Frame} (hpart : ys <+: xs) (hs : Reached R fm .loop s ys)
    (hr : classifyReady s = true) : OutlierIn xs s.nCls ↔ nextFlag s = true := by
  obtain ⟨rest, rfl⟩ := hpart
  obtain ⟨h0, hlast, -⟩ := (reached_inv hs).ready hr
  have hin := (reached_inv hs).counters.received
  simp only [HALF, WIN] at hlast
  have hsame : outlierAt (ys ++ rest) s.nCls.toNat = outlierAt ys s.nCls.toNat :=
    outlierAt_append (by simp only [HALF, WIN]; omega)
  rw [(reached_inv hs).nextFlag hr, ← hsame]
  exact ⟨fun h => h.2.2, fun h => ⟨h0, by rw [List.length_append]; omega, h⟩⟩

theorem Marked.noted {s : Fm} {ys : List Frame} (h : Marked R fm xs s s.nCls) (hpart : ys <+: xs)
    (hs : Reached R fm .loop s ys) (hr : classifyReady s = true) : Marked R fm xs (noted s) (s.nCls + 1) := by
  have hnext := outlierIn_next hpart hs hr
  have hn : ∀ j, j < s.nCls + 1 → OutlierIn xs j → nextFlag s = false → j < s.nCls := by
    intro j hj hout hflag
    rcases (Int.lt_add_one_iff.mp hj).eq_or_lt with rfl | hlt
    · exact absurd (hflag.symm.trans (hnext.mp hout)) Bool.false_ne_true
    · exact hlt
  unfold Fmrepair.noted noteOutlier
  cases hflag : nextFlag s with
  | false =>
      rw [if_neg Bool.false_ne_true]
      refine ⟨fun ho j hlo hhi hout => ?_, h.before, fun ho j hj hout => ?_⟩
      · exact h.quiet ho j hlo (hn j hhi hout hflag) hout
      · rcases h.between ho j (hn j hj hout hflag) hout with hfar | ⟨c, hc, hjc, hcn⟩
        · exact .inl (by omega)
        · exact .inr ⟨c, hc, hjc, by omega⟩
  | true =>
      rw [if_pos rfl]
      dsimp only
      split_ifs with ho
      · exact ⟨fun _ j hlo hhi => absurd hlo (by change ¬s.nCls < j; omega), fun _ => h.before ho,
          fun hc => absurd (ho.symm.trans hc) (by decide)⟩
      · refine ⟨fun _ j hlo hhi => absurd hlo (by change ¬s.nCls < j; omega), fun _ hout => ?_,
          fun hc => (by cases hc)⟩
        -- a cluster that begins behind an outlier finds the one before it cut off
        change OutlierIn xs (s.nCls - 7) at hout
        rcases h.between (by simpa using ho) (s.nCls - 7) (by omega) hout with hfar | ⟨c, hc, hjc, hcn⟩
        · omega
        · exact ⟨c, hc, hcn, by change s.nCls ≤ c + 7; omega⟩

theorem Marked.ended {s t : Fm} {ys : List Frame} (h : Marked R fm xs (Fmrepair.noted s) (s.nCls + 1))
    (hends : Ends R fm xs s ys) (ho : t.isOpen = false) : Marked R fm xs t (s.nCls + 1) := by
  have hopen : (Fmrepair.noted s).isOpen = true := (Bool.and_eq_true_iff.mp hends.due).1
  refine ⟨fun hc => absurd (ho.symm.trans hc) (by decide), fun hc => absurd (ho.symm.trans hc) (by decide),
    fun _ j hj hout => ?_⟩
  have hlast : j ≤ (Fmrepair.noted s).last := by
    by_contra hlt
    exact h.quiet hopen j (by omega) hj hout
  by_cases hcut : s.nCls < (Fmrepair.noted s).last + 7
  · exact .inr ⟨s.nCls, ⟨s, ys, hends, rfl, hcut⟩, by omega, by omega⟩
  · exact .inl (by omega)

theorem Marked.turn {s t u : Fm} {ys : List Frame} (h : Marked R fm xs s s.nCls) (hpart : ys <+: xs)
    (hs : Reached R fm .loop s ys) (hr : classifyReady s = true) (hturn : Turn R s t u) :
    Marked R fm xs u (s.nCls + 1) := by
  have hnoted := h.noted hpart hs hr
  have hclosed : Marked R fm xs t (s.nCls + 1) := by
    cases hturn.closed with
    | idle => exact hnoted
    | rejected hdue => exact hnoted.ended ⟨hpart, hs, hr, hdue⟩ rfl
    | accepted l p hdue => exact hnoted.ended ⟨hpart, hs, hr, hdue⟩ rfl
  cases hturn.predicted with
  | idle => exact hclosed
  | missed => exact hclosed.of_same ⟨rfl, rfl, rfl⟩

theorem deliver_cluster (s : Fm) : (deliver R s).1.nCls = s.nCls ∧ (deliver R s).1.isOpen = s.isOpen ∧
    (deliver R s).1.first = s.first ∧ (deliver R s).1.last = s.last := by
  unfold deliver
  split_ifs <;> exact ⟨rfl, rfl, rfl, rfl⟩

theorem reached_marked {p : Point} {s : Fm} {ys : List Frame} (h : Reached R fm p s ys) (hpart : ys <+: xs) :
    Marked R fm xs s s.nCls := by
  induction h with
  | init => exact ⟨fun ho => by simp [fmInit] at ho, fun ho => by simp [fmInit] at ho,
      fun _ j hj hout => absurd hout.1 (not_le.mpr hj)⟩
  | receive f _ ih => exact (ih ((List.prefix_append _ _).trans hpart)).of_same ⟨rfl, rfl, rfl⟩
  | @classify s ys hs hr ih =>
      obtain ⟨t, u, hturn⟩ := classifyNext_turn (reached_inv hs) hr
      rw [(classifyNext_stream s).2.2.2, hturn.next]
      exact ((ih hpart).turn hpart hs hr hturn).of_same ⟨rfl, rfl, rfl⟩
  | leave _ _ ih => exact ih hpart
  | @deliver s ys _ ih =>
      obtain ⟨hcls, ho, hf, hl⟩ := deliver_cluster (R := R) s
      rw [hcls]
      exact (ih hpart).of_same ⟨ho, hf, hl⟩

/-- The window of a burst that is accepted has good anchors exactly where the cluster ends well. -/
theorem anchored_iff {s : Fm} {ys : List Frame} (hends : Ends R fm xs s ys) :
    (¬OutlierIn xs ((noted s).first - MARGIN - 1) ∧ ¬OutlierIn xs ((noted s).last + MARGIN + 1)) ↔
      EndsWell R fm xs s := by
  have hmarked := (reached_marked hends.reached hends.part).noted hends.part hends.reached hends.ready
  have hopen : (noted s).isOpen = true := (Bool.and_eq_true_iff.mp hends.due).1
  have hfirst : (noted s).first - MARGIN - 1 = (noted s).first - 7 := by
    simp only [MARGIN]
    omega
  have hlast : (noted s).last + MARGIN + 1 = (noted s).last + 7 := by
    simp only [MARGIN]
    omega
  rw [hfirst, hlast]
  constructor
  · exact fun h => ⟨fun _ => h.2, fun c _ _ _ => h.1⟩
  · intro h
    constructor
    · intro hout
      obtain ⟨c, hc, hcf, hfc⟩ := hmarked.before hopen hout
      exact h.2 c hc hcf hfc hout
    · intro hout
      by_cases hcut : s.nCls < (noted s).last + 7
      · exact h.1 hcut hout
      · exact hmarked.quiet hopen _ (by omega) (by omega) hout

theorem classifyNext_anchored {s : Fm} {ys : List Frame} (hpart : ys <+: xs) (hs : Reached R fm .loop s ys)
    (hr : classifyReady s = true) :
    (∀ e ∈ (classifyNext R s).scheduled, e.Anchored xs) ↔ (∀ e ∈ s.scheduled, e.Anchored xs) ∧
      (closeDue (noted s) s.nCls = true → ¬Rejected R (noted s) → EndsWell R fm xs s) := by
  obtain ⟨t, u, hturn⟩ := classifyNext_turn (reached_inv hs) hr
  have hpredicted : (∀ e ∈ u.scheduled, e.Anchored xs) ↔ ∀ e ∈ t.scheduled, e.Anchored xs := by
    cases hturn.predicted with
    | idle => exact Iff.rfl
    | missed =>
        obtain ⟨e, he, hlog⟩ := missed_scheduled (R := R) t
        rw [hlog, List.forall_mem_append, List.forall_mem_singleton]
        exact and_iff_left fun hburst => absurd (he.symm.trans hburst) Bool.false_ne_true
  rw [hturn.next]
  refine hpredicted.trans ?_
  rw [← (noted_fields s).2.2.2]
  cases hturn.closed with
  | idle hdue => exact (and_iff_left fun hdue' => absurd (hdue.symm.trans hdue') Bool.false_ne_true).symm
  | rejected hdue hrej => exact (and_iff_left fun _ hacc => absurd hrej hacc).symm
  | accepted l p hdue hacc =>
      have hends : Ends R fm xs s ys := ⟨hpart, hs, hr, hdue⟩
      change (∀ e ∈ (noted s).scheduled ++ [_], e.Anchored xs) ↔ _
      rw [List.forall_mem_append, List.forall_mem_singleton]
      apply and_congr_right'
      exact ⟨fun h _ _ => (anchored_iff hends).mp (h rfl), fun h _ => (anchored_iff hends).mpr (h hdue hacc)⟩

/-- For every stream: the anchors of all bursts are good exactly when every cluster accepted ends well. -/
theorem anchors_good_iff (R : Rounding) (fm : Fm) (xs : List Frame) :
    (∀ p s ys, ys <+: xs → Reached R fm p s ys → ∀ e ∈ s.scheduled, e.Anchored xs) ↔
      ∀ s ys, Ends R fm xs s ys → ¬Rejected R (noted s) → EndsWell R fm xs s := by
  constructor
  · intro h s ys hends hacc
    have hgood := h _ _ ys hends.part (hends.reached.classify hends.ready)
    exact ((classifyNext_anchored hends.part hends.reached hends.ready).mp hgood).2 hends.due hacc
  · intro h p s ys hpart hs
    induction hs with
    | init => exact fun e he => absurd he List.not_mem_nil
    | receive f _ ih => exact ih ((List.prefix_append _ _).trans hpart)
    | classify hs hr ih =>
        exact (classifyNext_anchored hpart hs hr).mpr ⟨ih hpart, fun hdue hacc => h _ _ ⟨hpart, hs, hr, hdue⟩ hacc⟩
    | leave _ _ ih => exact ih hpart
    | @deliver s ys _ ih =>
        rw [(deliver_fields s).2.2.2]
        exact ih hpart

end

/-- Four outliers over 121 frames, and another seven frames behind the last of them. -/
def overlong : List ℕ := [100, 140, 180, 220, 227]

theorem isolated_overlong : Isolated overlong := ⟨by decide, by decide +kernel⟩

theorem overlong_run : impulsesRun overlong 221 = ⟨true, 100, 220, 4, false, 1152, 0, 0⟩ := by
  have h0 : impulsesRun overlong 0 = ⟨false, 0, 0, 0, false, 1152, 0, 0⟩ := rfl
  have h1 := impulsesRun_idle h0 (n := 100) (u := ⟨true, 100, 100, 1, false, 1152, 0, 0⟩)
    (by decide) (by decide) (by decide) (by decide +kernel)
  have h2 := impulsesRun_wait h1 (n := 140) (u := ⟨true, 100, 140, 2, false, 1152, 0, 0⟩)
    (by decide) (by decide) (by decide) (by decide +kernel)
  have h3 := impulsesRun_wait h2 (n := 180) (u := ⟨true, 100, 180, 3, false, 1152, 0, 0⟩)
    (by decide) (by decide) (by decide) (by decide +kernel)
  exact impulsesRun_wait h3 (n := 220) (by decide) (by decide) (by decide) (by decide +kernel)

/-- The burst is cut off behind its fourth outlier, and its window ends right before the fifth. -/
theorem anchors_not_good_overlong :
    ¬∀ p s ys, ys <+: impulseFrames overlong 240 → Reached .exact fmCalloc p s ys →
        ∀ e ∈ s.scheduled, e.Anchored (impulseFrames overlong 240) := by
  intro hall
  obtain ⟨s, hs, hcls, hr⟩ := classifyReady_reached .exact fmCalloc (impulseFrames overlong 229)
    (impulseFrame overlong 229) (by rw [length_impulseFrames]; omega)
  rw [← impulseFrames_succ] at hs
  rw [length_impulseFrames] at hcls
  have hcls : s.nCls = 221 := by omega
  have hpart := impulseFrames_prefix overlong (show 230 ≤ 240 by decide)
  have hnoted :=
    (impulseFrames_noted isolated_overlong (n := 221) (by decide) (by decide) hs hcls hr).trans overlong_run
  have hopen : (noted s).isOpen = true := congrArg Tracker.isOpen hnoted
  have hfirst : (noted s).first = 100 := congrArg Tracker.first hnoted
  have hlast : (noted s).last = 220 := congrArg Tracker.last hnoted
  have hcount : (noted s).count = 4 := congrArg Tracker.count hnoted
  have hlocked : (noted s).locked = false := congrArg Tracker.locked hnoted
  have hdue : closeDue (noted s) s.nCls = true := by
    rw [closeDue, hopen, hfirst, hlast, hcls]
    rfl
  have hacc : ¬Rejected .exact (noted s) := by
    rintro (hfew | hrefused)
    · rw [hcount] at hfew
      exact absurd hfew (by decide)
    · exact Bool.false_ne_true (hlocked.symm.trans hrefused.1)
  have hgood := (classifyNext_anchored hpart hs hr).mp (hall _ _ _ hpart (hs.classify hr))
  refine (hgood.2 hdue hacc).1 (by omega) ⟨by omega, by rw [hlast, length_impulseFrames]; decide, ?_⟩
  rw [hlast]
  exact (outlierAt_impulseFrames isolated_overlong (n := 227) (by decide)).trans (by decide)

end Sirius.Fmrepair
