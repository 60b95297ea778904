import Sirius.Fmrepair.Tracker

/-!
# Streams of single impulses

Where a few impulses stand alone in silence they are the outliers, and the tracker runs on them.
-/
namespace Sirius.Fmrepair
open Rounded

section
variable (is : List ℕ)

def impulseFrame (n : ℕ) : Frame := if n ∈ is then fun _ => 30000 else 0

def impulseFrames (len : ℕ) : List Frame := (List.range len).map (impulseFrame is)

/-- The frames around the impulses are classified as they should be, and none is too early. -/
structure Isolated : Prop where
  late : ∀ i ∈ is, HALF ≤ i
  near : ∀ i ∈ is, ∀ k < WIN, (decide (HALF < i - HALF + k) &&
    (classifyChannel (fun j => impulseFrame is j.toNat) ↑(i - HALF + k) 0 ||
      classifyChannel (fun j => impulseFrame is j.toNat) ↑(i - HALF + k) 1)) = decide (i - HALF + k ∈ is)

variable {is}

theorem classifyChannel_silence (n : ℤ) (ch : Fin 2) : classifyChannel (fun _ => 0) n ch = false := by
  change classifyChannel (fun _ => 0) 0 0 = false
  decide +kernel

theorem classifyChannel_impulse_silent {n : ℕ} (h : ∀ i ∈ is, n + HALF < i ∨ i + HALF < n) (ch : Fin 2) :
    classifyChannel (fun j => impulseFrame is j.toNat) n ch = false := by
  have hzero : ∀ j : ℤ, (n : ℤ) - HALF ≤ j → j ≤ n + HALF → impulseFrame is j.toNat = 0 := by
    intro j hlo hhi
    apply if_neg
    intro hj
    have := h _ hj
    omega
  rw [classifyChannel_congr (g := fun _ => 0) hzero]
  exact classifyChannel_silence n ch

theorem length_impulseFrames (len : ℕ) : (impulseFrames is len).length = len := by
  rw [impulseFrames, List.length_map, List.length_range]

theorem impulseFrames_succ (n : ℕ) : impulseFrames is (n + 1) = impulseFrames is n ++ [impulseFrame is n] := by
  rw [impulseFrames, impulseFrames, List.range_succ, List.map_append, List.map_singleton]

theorem impulseFrames_prefix (is : List ℕ) {m n : ℕ} (h : m ≤ n) : impulseFrames is m <+: impulseFrames is n := by
  obtain ⟨k, rfl⟩ := Nat.exists_eq_add_of_le h
  rw [impulseFrames, impulseFrames, List.range_add, List.map_append]
  exact List.prefix_append _ _

theorem outlierAt_impulseFrames (his : Isolated is) {len n : ℕ} (h : n + HALF < len) :
    outlierAt (impulseFrames is len) n = decide (n ∈ is) := by
  have hsame : ∀ j : ℤ, (n : ℤ) - HALF ≤ j → j ≤ n + HALF →
      (impulseFrames is len).getD j.toNat 0 = impulseFrame is j.toNat := by
    intro j hlo hhi
    rw [List.getD_eq_getElem _ _ (by rw [length_impulseFrames]; omega)]
    simp [impulseFrames]
  unfold outlierAt
  rw [classifyChannel_congr hsame 0, classifyChannel_congr hsame 1]
  by_cases hnear : ∀ i ∈ is, n + HALF < i ∨ i + HALF < n
  · rw [classifyChannel_impulse_silent hnear, classifyChannel_impulse_silent hnear, Bool.or_self, Bool.and_false,
      eq_comm, decide_eq_false_iff_not]
    intro hn
    have := hnear n hn
    omega
  · push Not at hnear
    obtain ⟨i, hi, hlo, hhi⟩ := hnear
    have hlate := his.late i hi
    have hat := his.near i hi (n + HALF - i) (by simp only [HALF, WIN] at *; omega)
    rwa [show i - HALF + (n + HALF - i) = n by omega] at hat

variable (is)

def impulsesRun (n : ℕ) : Tracker := trackerRun .exact (fmInit fmCalloc).tracker (fun n => decide (n ∈ is)) n

variable {is}

/-- A quiet stretch up to frame `n`, and the step at `n`. -/
theorem impulsesRun_next {m n : ℕ} {t u : Tracker} (ht : impulsesRun is m = t) (hmn : m ≤ n)
    (hflag : ∀ i ∈ is, i < m ∨ n ≤ i) (hclose : ∀ k : ℕ, k < n → closeDue t.fm k = false)
    (hpredict : ∀ k : ℕ, k < n → ¬ PredictionDue .exact t.fm k)
    (hu : t.step .exact n (decide (n ∈ is)) = u) : impulsesRun is (n + 1) = u := by
  have hquiet : impulsesRun is n = t := by
    apply trackerRun_quiet hmn _ (fun k _ => hclose k) (fun k _ => hpredict k) ht
    intro k hk hkn
    rw [decide_eq_false_iff_not]
    intro hki
    have := hflag k hki
    omega
  change (impulsesRun is n).step .exact n _ = u
  rw [hquiet, hu]

theorem impulsesRun_idle {m n : ℕ} {t u : Tracker} (ht : impulsesRun is m = t) (hmn : m ≤ n)
    (hidle : t.isOpen = false ∧ t.locked = false) (hflag : ∀ i ∈ is, i < m ∨ n ≤ i)
    (hu : t.step .exact n (decide (n ∈ is)) = u) : impulsesRun is (n + 1) = u := by
  apply impulsesRun_next ht hmn hflag _ _ hu
  · intro k _
    rw [closeDue]
    exact Bool.and_eq_false_iff.mpr (Or.inl hidle.1)
  · intro k _ hdue
    exact Bool.false_ne_true (hidle.2.symm.trans hdue.1)

theorem impulsesRun_wait {m n : ℕ} {t u : Tracker} (ht : impulsesRun is m = t) (hmn : m ≤ n)
    (hopen : t.isOpen = true ∧ n ≤ t.last + CLUSTER + 1 ∧ n ≤ t.first + MAX_BURST + 1)
    (hflag : ∀ i ∈ is, i < m ∨ n ≤ i)
    (hu : t.step .exact n (decide (n ∈ is)) = u) : impulsesRun is (n + 1) = u := by
  apply impulsesRun_next ht hmn hflag _ _ hu
  · intro k hk
    rw [closeDue, Bool.and_eq_false_iff, decide_eq_false_iff_not]
    right
    change ¬ ((k : ℤ) - t.last > CLUSTER ∨ k - t.first > MAX_BURST)
    omega
  · intro k _ hdue
    exact Bool.false_ne_true (hdue.2.1.symm.trans hopen.1)

/-- With every frame the next one becomes ready to be classified. -/
theorem classifyReady_reached (R : Rounding) (fm : Fm) (xs : List Frame) (f : Frame) (hlen : 8 ≤ xs.length) :
    ∃ s, Reached R fm .loop s (xs ++ [f]) ∧ s.nCls = xs.length - 8 ∧ classifyReady s = true := by
  have htop := fmTransfer_reached (show Reached R fm .top (fmInit fm) [] from .init) xs
  rw [List.nil_append] at htop
  have hin := (reached_inv htop).counters.received
  have hbehind := (reached_inv htop).counters.behind
  have hwindow := (reached_inv htop).counters.window
  simp only [clsLag, HALF, WIN] at hin hbehind hwindow
  refine ⟨_, htop.receive f, ?_, ?_⟩
  · simp only [receive]
    omega
  · rw [classifyReady, decide_eq_true_eq]
    simp only [receive, HALF, WIN]
    omega

/-- The cluster and tracker of the plugin where frame `n`, which is no impulse, has been counted. -/
theorem impulseFrames_noted (his : Isolated is) {n len : ℕ} (hlen : n + 8 < len) (hn : n ∉ is) {s : Fm}
    (hs : Reached .exact fmCalloc .loop s (impulseFrames is len)) (hcls : s.nCls = n)
    (hr : classifyReady s = true) : (noted s).tracker = impulsesRun is n := by
  have hflags : ∀ k ≤ n, outlierAt (impulseFrames is len) k = decide (k ∈ is) := by
    intro k hk
    apply outlierAt_impulseFrames his
    simp only [HALF, WIN]
    omega
  have hcast : s.nCls.toNat = n := by omega
  have hnext : nextFlag s = false := by
    rw [(reached_inv hs).nextFlag hr, hcast, hflags n le_rfl, decide_eq_false_iff_not]
    exact hn
  have htracker := reached_tracker hs
  rw [hcast, trackerRun_congr fun k hk => hflags k (by omega)] at htracker
  rw [noted, hnext]
  exact htracker

end

/-- Later impulses do not matter yet. -/
theorem impulsesRun_append {is rest : List ℕ} {n : ℕ} (h : ∀ i ∈ rest, n ≤ i) :
    impulsesRun (is ++ rest) n = impulsesRun is n := by
  refine trackerRun_congr fun k hk => decide_eq_decide.mpr ?_
  rw [List.mem_append]
  refine or_iff_left fun hrest => ?_
  have := h k hrest
  omega

/-- Two bursts, one period apart. -/
def twoBursts : List ℕ := [100, 104, 108, 1252, 1256, 1260]

theorem twoBurstsRun_first : impulsesRun twoBursts 157 = ⟨true, 100, 108, 3, false, 1152, 0, 0⟩ := by
  have h0 : impulsesRun twoBursts 0 = ⟨false, 0, 0, 0, false, 1152, 0, 0⟩ := rfl
  have h1 := impulsesRun_idle h0 (n := 100) (u := ⟨true, 100, 100, 1, false, 1152, 0, 0⟩)
    (by decide) (by decide) (by decide) (by decide +kernel)
  have h2 := impulsesRun_wait h1 (n := 104) (u := ⟨true, 100, 104, 2, false, 1152, 0, 0⟩)
    (by decide) (by decide) (by decide) (by decide +kernel)
  have h3 := impulsesRun_wait h2 (n := 108) (u := ⟨true, 100, 108, 3, false, 1152, 0, 0⟩)
    (by decide) (by decide) (by decide) (by decide +kernel)
  exact impulsesRun_wait h3 (n := 156) (by decide) (by decide) (by decide) (by decide +kernel)

/-- The second burst is one period behind the first, and the tracker locks. -/
theorem twoBurstsRun_locked : impulsesRun twoBursts 1310 = ⟨false, 1252, 1260, 3, true, 1152, 1256, 0⟩ := by
  have h4 := impulsesRun_wait twoBurstsRun_first (n := 157) (u := ⟨false, 100, 108, 3, false, 1152, 104, 0⟩)
    (by decide) (by decide) (by decide) (by decide +kernel)
  have h5 := impulsesRun_idle h4 (n := 1252) (u := ⟨true, 1252, 1252, 1, false, 1152, 104, 0⟩)
    (by decide) (by decide) (by decide) (by decide +kernel)
  have h6 := impulsesRun_wait h5 (n := 1256) (u := ⟨true, 1252, 1256, 2, false, 1152, 104, 0⟩)
    (by decide) (by decide) (by decide) (by decide +kernel)
  have h7 := impulsesRun_wait h6 (n := 1260) (u := ⟨true, 1252, 1260, 3, false, 1152, 104, 0⟩)
    (by decide) (by decide) (by decide) (by decide +kernel)
  exact impulsesRun_wait h7 (n := 1309) (by decide) (by decide) (by decide) (by decide +kernel)

/-- Where the tracker has locked on the two bursts, nothing happens until the next impulse or prediction. -/
theorem twoBursts_quiet {n : ℕ} (hn : n ≤ 2559) (k : ℕ) (hk : k < n) :
    ¬PredictionDue .exact (Tracker.fm ⟨false, 1252, 1260, 3, true, 1152, 1256, 0⟩) k := by
  have hpred : pred .exact (Tracker.fm ⟨false, 1252, 1260, 3, true, 1152, 1256, 0⟩) = 2408 := by
    decide +kernel
  intro hdue
  have hbehind := hdue.2.2
  rw [hpred] at hbehind
  simp only [PHASE_TOL] at hbehind
  omega

def threeBursts : List ℕ := twoBursts ++ [2404, 2408, 2412]

theorem isolated_threeBursts : Isolated threeBursts := ⟨by decide, by decide +kernel⟩

theorem threeBurstsRun_first : impulsesRun threeBursts 157 = ⟨true, 100, 108, 3, false, 1152, 0, 0⟩ :=
  (impulsesRun_append (by decide)).trans twoBurstsRun_first

/-- Locked on the first two bursts, the tracker is about to close the third. -/
theorem threeBurstsRun_third : impulsesRun threeBursts 2461 = ⟨true, 2404, 2412, 3, true, 1152, 1256, 0⟩ := by
  have h8 : impulsesRun threeBursts 1310 = _ := (impulsesRun_append (by decide)).trans twoBurstsRun_locked
  have h9 := impulsesRun_next h8 (n := 2404) (u := ⟨true, 2404, 2404, 1, true, 1152, 1256, 0⟩)
    (by decide) (by decide) (fun k _ => rfl) (twoBursts_quiet (by decide)) (by decide +kernel)
  have h10 := impulsesRun_wait h9 (n := 2408) (u := ⟨true, 2404, 2408, 2, true, 1152, 1256, 0⟩)
    (by decide) (by decide) (by decide) (by decide +kernel)
  have h11 := impulsesRun_wait h10 (n := 2412) (u := ⟨true, 2404, 2412, 3, true, 1152, 1256, 0⟩)
    (by decide) (by decide) (by decide) (by decide +kernel)
  exact impulsesRun_wait h11 (n := 2460) (by decide) (by decide) (by decide) (by decide +kernel)

end Sirius.Fmrepair
