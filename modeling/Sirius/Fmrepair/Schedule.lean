import Sirius.Fmrepair.Impulses

/-!
# When windows are scheduled

A detected burst is always scheduled before its first frame leaves. A prediction is
too, unless a cluster was open when it fell due and was rejected long after.
-/
namespace Sirius.Fmrepair
open Rounded RingBuffer

/-- No frame of the window had been delivered when it was scheduled. -/
def Scheduled.InTime (e : Scheduled) : Prop := e.nOut ≤ e.window.a

/-- While locked, the cluster is closed without a window at frame `n`, more than four
frames after the prediction fell due behind it. -/
def LateReject (R : Rounding) (s : Fm) (n : ℤ) : Prop :=
  s.locked = true ∧ closeDue s n = true ∧ Rejected R s ∧ n > pred R s + PHASE_TOL + 4

variable {R : Rounding}

/-- A prediction acted on at frame `n` is in time up to four frames after it fell due. -/
theorem missed_inTime {s : Fm} {n slack late : ℤ} (ht : Tracking R s n slack late)
    (hd : PredictionDue R s n) (hlag : s.nOut = max 0 (n - 184)) :
    (∀ e ∈ (missed R s).scheduled, e.InTime) ↔
      (∀ e ∈ s.scheduled, e.InTime) ∧ n ≤ pred R s + PHASE_TOL + 4 := by
  obtain ⟨hl, -, hdue⟩ := hd
  have h8 := ht.centre hl
  have hp := (pred_range R ht.period).1
  simp only [P_MIN, PHASE_TOL] at hp hdue ⊢
  change (∀ e ∈ s.scheduled ++ [_], e.InTime) ↔ _
  rw [List.forall_mem_append, List.forall_mem_singleton]
  apply and_congr_right'
  change s.nOut ≤ pred R s - PRED_HALF ↔ _
  simp only [PRED_HALF]
  omega

/-- Closing the cluster schedules nothing late. -/
theorem accepted_inTime {s : Fm} {n late : ℤ} {l : Bool} {p : ℚ} (ht : Tracking R s n 1 late)
    (ho : s.isOpen = true) (hlag : s.nOut = max 0 (n - 184)) :
    (∀ e ∈ (accepted s l p).scheduled, e.InTime) ↔ ∀ e ∈ s.scheduled, e.InTime := by
  have hc := ht.cluster ho
  simp only [MAX_BURST] at hc
  have hnew : s.nOut ≤ s.first - MARGIN := by
    simp only [MARGIN]
    omega
  change (∀ e ∈ s.scheduled ++ [_], e.InTime) ↔ _
  rw [List.forall_mem_append, List.forall_mem_singleton]
  exact and_iff_left hnew

theorem accepted_not_due {s : Fm} {n late : ℤ} {l : Bool} {p : ℚ} (ht : Tracking R s n 1 late)
    (hp : PeriodRange p) (ho : s.isOpen = true) : ¬ PredictionDue R (accepted s l p) n := by
  rintro ⟨-, -, hdue⟩
  have hc := ht.cluster ho
  have hmid := centre_between (s := s) (by omega) (by omega)
  have hpred := (pred_range R (s := accepted s l p) hp).1
  change centre s + P_MIN ≤ _ at hpred
  simp only [MAX_BURST, P_MIN, PHASE_TOL] at *
  omega

/-- What one turn of the inner loop adds is in time exactly when it does not reject a
cluster late. -/
theorem classifyNext_inTime {s : Fm} {xs : List Frame} (h : Inv R .loop s xs)
    (hr : classifyReady s = true) :
    (∀ e ∈ (classifyNext R s).scheduled, e.InTime) ↔
      (∀ e ∈ s.scheduled, e.InTime) ∧ ¬ LateReject R (noted s) s.nCls := by
  obtain ⟨ht, hp, hlag⟩ := h.noted hr
  have hroom := hp.few ht.frontier_le (by omega)
  have hsame : (noted s).scheduled = s.scheduled := by
    unfold noted noteOutlier
    split_ifs <;> rfl
  rw [← hsame]
  change (∀ e ∈ (predictMissed R (closeIfDue R (noted s) s.nCls) s.nCls).scheduled, e.InTime) ↔ _
  obtain ⟨ht', hp', hlag'⟩ := closed_sound ht hp hlag
  have hroom' := hp'.few ht'.frontier_le (by omega)
  have hpredict := predictMissed_cases ht' hroom'
  rcases closeIfDue_cases ht hroom with ⟨hdue, he⟩ | ⟨hdue, hrej, he⟩ | ⟨hdue, hacc, l, p, hper, he⟩
  · rw [he] at hpredict ⊢
    have hnot : ¬ LateReject R (noted s) s.nCls := fun hlate =>
      absurd (hdue.symm.trans hlate.2.1) (by decide)
    rcases hpredict with ⟨-, hm⟩ | ⟨hm, he'⟩
    · rw [hm]
      exact (and_iff_left hnot).symm
    · rw [he', missed_inTime ht hm hlag]
      have := ht.overdue hm.1 hm.2.1
      exact and_congr_right' ⟨fun _ => hnot, fun _ => by omega⟩
  · rw [he] at hpredict ⊢
    rcases hpredict with ⟨hm, he'⟩ | ⟨hm, he'⟩
    · rw [he']
      refine (and_iff_left fun hlate => hm ⟨hlate.1, rfl, ?_⟩).symm
      have := hlate.2.2.2
      change s.nCls > pred R (noted s) + PHASE_TOL
      omega
    · rw [he] at ht'
      rw [he', missed_inTime ht' hm hlag]
      refine and_congr_right' ⟨fun hle hlate => ?_, fun hnot => not_lt.mp fun hgt => hnot ⟨hm.1, hdue, hrej, hgt⟩⟩
      have := hlate.2.2.2
      change s.nCls ≤ pred R (noted s) + PHASE_TOL + 4 at hle
      omega
  · rw [he] at hpredict ⊢
    have ho : (noted s).isOpen = true := (Bool.and_eq_true_iff.mp hdue).1
    have hnot : ¬ LateReject R (noted s) s.nCls := fun hlate => hacc hlate.2.2.1
    rcases hpredict with ⟨-, he'⟩ | ⟨hm, -⟩
    · rw [he', accepted_inTime ht ho hlag]
      exact (and_iff_left hnot).symm
    · exact absurd hm (accepted_not_due ht hper ho)

/-- For every stream: all windows are scheduled in time exactly when no cluster is
rejected late. -/
theorem windows_in_time_iff (R : Rounding) (fm : Fm) (xs : List Frame) :
    (∀ p s ys, ys <+: xs → Reached R fm p s ys → ∀ e ∈ s.scheduled, e.InTime) ↔
      ∀ s ys, ys <+: xs → Reached R fm .loop s ys → classifyReady s = true →
        ¬ LateReject R (noted s) s.nCls := by
  constructor
  · intro h s ys hp hs hr
    exact ((classifyNext_inTime (reached_inv hs) hr).mp (h _ _ ys hp (hs.classify hr))).2
  · intro h p s ys hp hs
    induction hs with
    | init => exact fun e he => absurd he List.not_mem_nil
    | receive f _ ih => exact ih ((List.prefix_append _ _).trans hp)
    | classify hs hr ih => exact (classifyNext_inTime (reached_inv hs) hr).mpr ⟨ih hp, h _ _ hp hs hr⟩
    | leave _ _ ih => exact ih hp
    | @deliver s ys _ ih =>
        have hsame : (deliver R s).1.scheduled = s.scheduled := by
          unfold deliver
          split_ifs <;> rfl
        rw [hsame]
        exact ih hp

theorem lateReject_congr {s t : Fm} (h : s.tracker = t.tracker) (n : ℤ) :
    LateReject R s n ↔ LateReject R t n := by
  cases s; cases t
  simp only [Fm.tracker, Tracker.mk.injEq] at h
  obtain ⟨rfl, rfl, rfl, rfl, rfl, rfl, rfl, rfl⟩ := h
  exact Iff.rfl

/-- Two bursts one period apart, then a lone outlier where the third is due. -/
def impulses : List ℕ := [100, 104, 108, 1252, 1256, 1260, 2558]

def impulse (n : ℕ) : Frame := if n ∈ impulses then fun _ => 30000 else 0

def impulseStream (len : ℕ) : List Frame := (List.range len).map impulse

def impulseFlag (n : ℕ) : Bool :=
  decide (HALF < n) &&
    (classifyChannel (fun j => impulse j.toNat) n LEFT || classifyChannel (fun j => impulse j.toNat) n RIGHT)

theorem half_le_impulse : ∀ i ∈ impulses, HALF ≤ i := by
  decide

theorem impulseFlag_near : ∀ i ∈ impulses, ∀ k < WIN,
    impulseFlag (i - HALF + k) = decide (i - HALF + k ∈ impulses) := by
  decide +kernel

theorem isolated_impulses : Isolated impulses := ⟨half_le_impulse, impulseFlag_near⟩

theorem outlierAt_impulseStream {len n : ℕ} (h : n + HALF < len) :
    outlierAt (impulseStream len) n = decide (n ∈ impulses) :=
  outlierAt_impulseFrames isolated_impulses h

def impulseRun (n : ℕ) : Tracker :=
  trackerRun .exact (fmInit fmCalloc).tracker (fun n => decide (n ∈ impulses)) n

/-- Locked on the two bursts, the tracker waits for the third with the lone outlier open. -/
theorem impulseRun_late : impulseRun 2607 = ⟨true, 2558, 2558, 1, true, 1152, 1256, 0⟩ := by
  have h8 : impulsesRun (twoBursts ++ [2558]) 1310 = _ := (impulsesRun_append (by decide)).trans twoBurstsRun_locked
  have h9 := impulsesRun_next h8 (n := 2558) (u := ⟨true, 2558, 2558, 1, true, 1152, 1256, 0⟩)
    (by decide) (by decide) (fun k _ => rfl) (twoBursts_quiet (by decide)) (by decide +kernel)
  exact impulsesRun_wait h9 (n := 2606) (by decide) (by decide) (by decide) (by decide +kernel)

theorem impulseRun_late_reject :
    LateReject .exact (Tracker.fm ⟨true, 2558, 2558, 1, true, 1152, 1256, 0⟩) 2607 := by
  have hpred : pred .exact (Tracker.fm ⟨true, 2558, 2558, 1, true, 1152, 1256, 0⟩) = 2408 := by
    decide +kernel
  refine ⟨rfl, rfl, Or.inl (by decide), ?_⟩
  rw [hpred]
  decide

theorem impulseStream_succ (n : ℕ) : impulseStream (n + 1) = impulseStream n ++ [impulse n] := impulseFrames_succ n

theorem impulseStream_length (n : ℕ) : (impulseStream n).length = n := length_impulseFrames n

theorem impulseStream_noted {s : Fm} (hs : Reached .exact fmCalloc .loop s (impulseStream 2616))
    (hcls : s.nCls = 2607) (hr : classifyReady s = true) :
    (noted s).tracker = ⟨true, 2558, 2558, 1, true, 1152, 1256, 0⟩ :=
  (impulseFrames_noted isolated_impulses (n := 2607) (by decide) (by decide) hs hcls hr).trans impulseRun_late

/-- The prediction behind the rejected outlier is scheduled after its first frame has left. -/
theorem windows_in_time_not_impulses :
    ¬ ∀ p s ys, ys <+: impulseStream 2616 → Reached .exact fmCalloc p s ys →
        ∀ e ∈ s.scheduled, e.InTime := by
  intro hall
  obtain ⟨s, hs, hcls, hr⟩ := classifyReady_reached .exact fmCalloc (impulseStream 2615) (impulse 2615)
    (by rw [impulseStream_length]; omega)
  rw [← impulseStream_succ] at hs
  rw [impulseStream_length] at hcls
  have hcls : s.nCls = 2607 := by omega
  have hintime := (classifyNext_inTime (reached_inv hs) hr).mp (hall _ _ _ List.prefix_rfl (hs.classify hr))
  have hnoted := impulseStream_noted hs hcls hr
  rw [hcls, lateReject_congr (hnoted.trans (Tracker.fm_tracker _).symm)] at hintime
  exact hintime.2 impulseRun_late_reject

end Sirius.Fmrepair
