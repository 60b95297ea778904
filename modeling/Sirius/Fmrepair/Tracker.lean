import Mathlib.Data.List.GetD
import Sirius.Fmrepair.Joint

/-!
# The tracker as an automaton over outlier flags

Cluster and tracker do not read the ring: the state `track` leaves depends on the
stream only through the flags of the classified frames. The automaton over flags is
refined by the plugin at every reachable state.
-/
namespace Sirius.Fmrepair
open Rounded RingBuffer

/-- The fields of `fm_t` that `track` both reads and writes. -/
structure Tracker where
  isOpen : Bool
  first : ℤ
  last : ℤ
  count : ℕ
  locked : Bool
  period : ℚ
  cLast : ℤ
  misses : ℕ
  deriving DecidableEq

def Fm.tracker (s : Fm) : Tracker :=
  ⟨s.isOpen, s.first, s.last, s.count, s.locked, s.period, s.cLast, s.misses⟩

/-- A plugin state with the given tracker and nothing else. -/
def Tracker.fm (t : Tracker) : Fm :=
  { fmCalloc with
    isOpen := t.isOpen
    first := t.first
    last := t.last
    count := t.count
    locked := t.locked
    period := t.period
    cLast := t.cLast
    misses := t.misses }

@[simp] theorem Tracker.fm_tracker (t : Tracker) : t.fm.tracker = t := rfl

section
variable (R : Rounding)

def Tracker.step (t : Tracker) (n : ℤ) (o : Bool) : Tracker := (track R t.fm n o).tracker

/-- The tracker after the flags of frames `0` to `n - 1`. -/
def trackerRun (t : Tracker) (flags : ℕ → Bool) : ℕ → Tracker
  | 0 => t
  | n + 1 => (trackerRun t flags n).step R n (flags n)

variable {R}

theorem noteOutlier_congr {s t : Fm} (h : s.tracker = t.tracker) (n : ℤ) (o : Bool) :
    (noteOutlier s n o).tracker = (noteOutlier t n o).tracker := by
  cases s; cases t
  simp only [Fm.tracker, Tracker.mk.injEq] at h
  obtain ⟨rfl, rfl, rfl, rfl, rfl, rfl, rfl, rfl⟩ := h
  unfold noteOutlier
  dsimp only
  split_ifs <;> rfl

theorem closeBurst_congr {s t : Fm} (h : s.tracker = t.tracker) :
    (closeBurst R s).tracker = (closeBurst R t).tracker := by
  cases s; cases t
  simp only [Fm.tracker, Tracker.mk.injEq] at h
  obtain ⟨rfl, rfl, rfl, rfl, rfl, rfl, rfl, rfl⟩ := h
  unfold closeBurst offPhase pred centre
  dsimp only
  split_ifs <;> rfl

theorem closeIfDue_congr {s t : Fm} (h : s.tracker = t.tracker) (n : ℤ) :
    (closeIfDue R s n).tracker = (closeIfDue R t n).tracker := by
  have hclose := closeBurst_congr (R := R) h
  unfold closeIfDue closeDue
  cases s; cases t
  simp only [Fm.tracker, Tracker.mk.injEq] at h
  obtain ⟨rfl, rfl, rfl, rfl, rfl, rfl, rfl, rfl⟩ := h
  dsimp only
  split_ifs
  · exact hclose
  · rfl
  · rfl

@[simp] theorem addBlank_misses (s : Fm) (a b : ℤ) (w : Origin) : (addBlank s a b w).misses = s.misses :=
  rfl

theorem predictMissed_congr {s t : Fm} (h : s.tracker = t.tracker) (n : ℤ) :
    (predictMissed R s n).tracker = (predictMissed R t n).tracker := by
  cases s; cases t
  simp only [Fm.tracker, Tracker.mk.injEq] at h
  obtain ⟨rfl, rfl, rfl, rfl, rfl, rfl, rfl, rfl⟩ := h
  unfold predictMissed pred
  simp only [addBlank_misses]
  split_ifs <;> rfl

/-- `track` acts on the tracker of a state as the automaton does. -/
theorem track_tracker (s : Fm) (n : ℤ) (o : Bool) : (track R s n o).tracker = s.tracker.step R n o := by
  have hnote := noteOutlier_congr (Tracker.fm_tracker s.tracker).symm n o
  exact predictMissed_congr (closeIfDue_congr hnote n) n

theorem classifyNext_tracker (s : Fm) :
    (classifyNext R s).tracker = s.tracker.step R s.nCls (nextFlag s) :=
  track_tracker { s with outlier := write s.outlier s.nCls (nextFlag s) } s.nCls (nextFlag s)

/-- Without an outlier, a cluster to close or a prediction that is due, nothing moves. -/
theorem step_quiet {t : Tracker} {n : ℤ} (hc : closeDue t.fm n = false) (hp : ¬ PredictionDue R t.fm n) :
    t.step R n false = t := by
  have hclose : closeIfDue R t.fm n = t.fm := by
    rw [closeIfDue, hc]
    rfl
  have hpredict : predictMissed R t.fm n = t.fm := by
    rw [predictMissed]
    by_cases hopen : (t.fm.locked && !t.fm.isOpen) = true
    · rw [if_pos hopen]
      rw [Bool.and_eq_true_iff, Bool.not_eq_true'] at hopen
      exact if_neg fun hdue => hp ⟨hopen.1, hopen.2, hdue⟩
    · exact if_neg hopen
  change (predictMissed R (closeIfDue R t.fm n) n).tracker = t
  rw [hclose, hpredict, Tracker.fm_tracker]

theorem trackerRun_quiet {t₀ t : Tracker} {flags : ℕ → Bool} {m n : ℕ} (hmn : m ≤ n)
    (hflag : ∀ k, m ≤ k → k < n → flags k = false)
    (hclose : ∀ k : ℕ, m ≤ k → k < n → closeDue t.fm k = false)
    (hpredict : ∀ k : ℕ, m ≤ k → k < n → ¬ PredictionDue R t.fm k)
    (ht : trackerRun R t₀ flags m = t) : trackerRun R t₀ flags n = t := by
  induction n, hmn using Nat.le_induction with
  | base => exact ht
  | succ n hmn ih =>
      have hprev := ih (fun k hk hkn => hflag k hk (by omega)) (fun k hk hkn => hclose k hk (by omega))
        fun k hk hkn => hpredict k hk (by omega)
      rw [trackerRun, hprev, hflag n hmn (by omega)]
      exact step_quiet (hclose n hmn (by omega)) (hpredict n hmn (by omega))

/-- The flag of frame `n`, read off the whole stream. -/
def outlierAt (xs : List Frame) (n : ℕ) : Bool :=
  decide (HALF < n) &&
    (classifyChannel (fun j => xs.getD j.toNat 0) n LEFT || classifyChannel (fun j => xs.getD j.toNat 0) n RIGHT)

/-- The test reads only the window around the frame. -/
theorem classifyChannel_congr {f g : ℤ → Frame} {n : ℤ}
    (h : ∀ j, n - HALF ≤ j → j ≤ n + HALF → f j = g j) (ch : Fin 2) :
    classifyChannel f n ch = classifyChannel g n ch := by
  have hwindow : (List.range WIN).map (fun k : ℕ => (f (n - HALF + k) ch).toInt) =
      (List.range WIN).map fun k : ℕ => (g (n - HALF + k) ch).toInt := by
    apply List.map_congr_left
    intro k hk
    rw [List.mem_range] at hk
    simp only [WIN, HALF] at hk h
    rw [h _ (by simp) (by simp only [WIN, HALF]; omega)]
  simp only [HALF, WIN] at h
  have h0 := h n (by omega) (by omega)
  have hp := h (n - 1) (by omega) (by omega)
  have hn := h (n + 1) (by omega) (by omega)
  simp only [classifyChannel, hwindow, h0, hp, hn]

/-- Classification depends only on frames that have already been received. -/
theorem outlierAt_append {xs ys : List Frame} {n : ℕ} (hn : n + HALF < xs.length) :
    outlierAt (xs ++ ys) n = outlierAt xs n := by
  unfold outlierAt
  by_cases hlate : HALF < n
  · have hsame : ∀ j : ℤ, (n : ℤ) - HALF ≤ j → j ≤ n + HALF →
        (xs ++ ys).getD j.toNat 0 = xs.getD j.toNat 0 := by
      intro j hlo hhi
      simp only [HALF, WIN] at *
      rw [List.getD_append _ _ _ _ (by omega)]
    rw [classifyChannel_congr hsame 0, classifyChannel_congr hsame 1]
  · rw [decide_eq_false hlate, Bool.false_and, Bool.false_and]

theorem Inv.nextFlag {s : Fm} {xs : List Frame} (h : Inv R .loop s xs) (hr : classifyReady s = true) :
    nextFlag s = outlierAt xs s.nCls.toNat := by
  obtain ⟨h0, hlast, -⟩ := h.ready hr
  have hin := h.counters.received
  have hcast : (s.nCls.toNat : ℤ) = s.nCls := Int.toNat_of_nonneg h0
  unfold Fmrepair.nextFlag outlierAt Fmrepair.classify
  by_cases hlate : s.nCls > HALF
  · have hsame : ∀ j : ℤ, s.nCls - HALF ≤ j → j ≤ s.nCls + HALF → frame s j = xs.getD j.toNat 0 := by
      intro j hlo hhi
      have hring : (RING : ℤ) = 4096 := rfl
      simp only [HALF, WIN] at *
      obtain ⟨hlt, hread⟩ := h.counters.held.get (n := j) (by omega) (by omega) (by omega)
      rw [frame, hread, List.getD_eq_getElem _ _ hlt]
    rw [if_pos hlate, hcast, decide_eq_true (by omega), Bool.true_and,
      classifyChannel_congr hsame 0, classifyChannel_congr hsame 1]
  · rw [if_neg hlate, decide_eq_false (by omega), Bool.false_and]

theorem deliver_tracker (s : Fm) :
    (deliver R s).1.tracker = s.tracker ∧ (deliver R s).1.nCls = s.nCls := by
  unfold deliver
  split_ifs
  · exact ⟨rfl, rfl⟩
  · exact ⟨rfl, rfl⟩

theorem trackerRun_congr {t : Tracker} {f g : ℕ → Bool} {n : ℕ} (h : ∀ k < n, f k = g k) :
    trackerRun R t f n = trackerRun R t g n := by
  induction n with
  | zero => rfl
  | succ n ih => rw [trackerRun, trackerRun, ih fun k hk => h k (by omega), h n (by omega)]

/-- Every reachable state carries the tracker of the automaton over its stream's flags. -/
theorem reached_tracker {fm s : Fm} {p : Point} {xs : List Frame} (h : Reached R fm p s xs) :
    s.tracker = trackerRun R (fmInit fm).tracker (outlierAt xs) s.nCls.toNat := by
  induction h with
  | init => rfl
  | @receive s xs f hs ih =>
      have hwin := (reached_inv hs).counters.window
      have hin := (reached_inv hs).counters.received
      have hflags : ∀ n < s.nCls.toNat, outlierAt (xs ++ [f]) n = outlierAt xs n := by
        intro n hn
        simp only [HALF, WIN] at hwin
        apply outlierAt_append
        simp only [HALF, WIN]
        omega
      change s.tracker = trackerRun R (fmInit fm).tracker (outlierAt (xs ++ [f])) s.nCls.toNat
      rw [trackerRun_congr hflags]
      exact ih
  | @classify s xs hs hr ih =>
      have hinv := reached_inv hs
      obtain ⟨h0, -, -⟩ := hinv.ready hr
      obtain ⟨-, -, -, hcls⟩ := classifyNext_stream (R := R) s
      have hnext : (classifyNext R s).nCls.toNat = s.nCls.toNat + 1 := by
        rw [hcls]
        omega
      rw [hnext, trackerRun, ← ih, ← hinv.nextFlag hr, Int.toNat_of_nonneg h0]
      exact classifyNext_tracker s
  | leave _ _ ih => exact ih
  | @deliver s xs _ ih =>
      obtain ⟨htracker, hcls⟩ := deliver_tracker (R := R) s
      rw [htracker, hcls]
      exact ih

end
end Sirius.Fmrepair
