import Sirius.Fmrepair.Pending

/-!
# Every reachable state of the repair plugin

The counters of the ring, the tracker and the pending windows hold together at every
point control passes through, whatever frames arrive.
-/
namespace Sirius.Fmrepair
open Rounded RingBuffer

/-- How far delivery is behind reception at each point. -/
def outLag : Point → ℤ
  | .top => DELAY
  | .loop | .emit => DELAY + 1

/-- How far classification can be behind reception at each point. -/
def clsLag : Point → ℤ
  | .loop => HALF + 2
  | .top | .emit => HALF + 1

structure Counters (p : Point) (s : Fm) (xs : List Frame) : Prop where
  received : s.nIn = xs.length
  held : Holds s.ring xs
  running : p ≠ .top → 1 ≤ s.nIn
  out : s.nOut = max 0 (s.nIn - outLag p)
  behind : max 0 (s.nIn - clsLag p) ≤ s.nCls
  window : s.nCls ≤ max 0 (s.nIn - (HALF + 1))

structure Inv (R : Rounding) (p : Point) (s : Fm) (xs : List Frame) : Prop where
  counters : Counters p s xs
  tracking : Tracking R s (s.nCls - 1) 0 0
  pending : Pending s (s.nCls - 1)

theorem mem_dropExpired {bs : List Blank} {m : ℤ} {w : Blank} (h : w ∈ dropExpired bs m) : w ∈ bs :=
  (List.dropWhile_suffix _).subset h

/-- In an ordered queue, dropping expired windows from the head drops all of them. -/
theorem dropExpired_live {bs : List Blank} {m : ℤ}
    (h : bs.Pairwise fun v w => v.a + 52 ≤ w.a ∧ v.b < w.b) : ∀ w ∈ dropExpired bs m, m ≤ w.b := by
  unfold dropExpired
  induction bs with
  | nil => simp
  | cons v vs ih =>
      rw [List.pairwise_cons] at h
      rw [List.dropWhile_cons]
      split_ifs with hv
      · exact ih h.2
      · have hv : m ≤ v.b := by simpa using hv
        intro w hw
        rcases List.mem_cons.mp hw with rfl | hw
        · exact hv
        · have := (h.1 w hw).2
          omega

theorem emitWindow_some {s : Fm} {m : ℤ} {w : Blank} (h : emitWindow s m = some w) :
    w ∈ s.blanks ∧ w.a ≤ m ∧ m ≤ w.b := by
  have hin := List.find?_some h
  rw [decide_eq_true_eq] at hin
  exact ⟨mem_dropExpired (List.mem_of_find?_eq_some h), hin⟩

variable {R : Rounding}

theorem inv_init (fm : Fm) : Inv R .top (fmInit fm) [] := by
  refine ⟨⟨rfl, Holds.nil _, fun h => absurd rfl h, rfl, le_rfl, le_rfl⟩, ?_, ?_⟩
  · refine ⟨?_, fun h => by simp [fmInit] at h, fun h => by simp [fmInit] at h,
      fun h => by simp [fmInit] at h, fun h => by simp [fmInit] at h⟩
    constructor <;> simp only [fmInit, P_INIT, P_MIN, P_MAX] <;> norm_num
  · constructor <;> simp [fmInit]

theorem Inv.receive {s : Fm} {xs : List Frame} (h : Inv R .top s xs) (f : Frame) :
    Inv R .loop (receive s f) (xs ++ [f]) := by
  obtain ⟨⟨hin, held, -, out, behind, window⟩, ⟨t1, t2, t3, t4, t5⟩, ⟨p1, p2, p3, p4, p5, p6, p7⟩⟩ := h
  refine ⟨⟨?_, ?_, ?_, ?_, ?_, ?_⟩, ⟨t1, t2, t3, t4, t5⟩, ⟨p1, p2, p3, p4, p5, p6, p7⟩⟩
  · simp [Fmrepair.receive, hin]
  · simpa only [Fmrepair.receive, hin] using held.push f
  · intro _
    simp only [Fmrepair.receive]
    omega
  · simp only [Fmrepair.receive, outLag] at out ⊢
    omega
  · simp only [Fmrepair.receive, clsLag] at behind ⊢
    omega
  · simp only [Fmrepair.receive]
    omega

/-- The frame the inner loop is about to classify. -/
theorem Inv.ready {s : Fm} {xs : List Frame} (h : Inv R .loop s xs) (hr : classifyReady s = true) :
    0 ≤ s.nCls ∧ s.nCls + HALF + 2 = s.nIn ∧ s.nOut = max 0 (s.nCls - 184) := by
  obtain ⟨⟨-, -, -, out, behind, -⟩, -, -⟩ := h
  simp only [classifyReady, decide_eq_true_eq] at hr
  simp only [outLag, clsLag, DELAY, HALF, WIN] at *
  omega

theorem nextFlag_late {s : Fm} (h : nextFlag s = true) : 8 ≤ s.nCls := by
  unfold nextFlag at h
  split_ifs at h with hn
  simp only [HALF, WIN] at hn
  omega

/-- The state in which `track` has counted the next frame and goes on to the cluster. -/
def noted (s : Fm) : Fm :=
  noteOutlier { s with outlier := write s.outlier s.nCls (nextFlag s) } s.nCls (nextFlag s)

/-- The counted state is sound, with one frame of slack. -/
theorem Inv.noted {s : Fm} {xs : List Frame} (h : Inv R .loop s xs) (hr : classifyReady s = true) :
    Tracking R (noted s) s.nCls 1 1 ∧ Pending (noted s) s.nCls ∧
      (noted s).nOut = max 0 (s.nCls - 184) := by
  obtain ⟨-, -, hlag⟩ := h.ready hr
  obtain ⟨-, ⟨t1, t2, t3, t4, t5⟩, ⟨p1, p2, p3, p4, p5, p6, p7⟩⟩ := h
  exact noted_sound (s := { s with outlier := write s.outlier s.nCls (nextFlag s) })
    ⟨t1, t2, t3, t4, t5⟩ ⟨p1, p2, p3, p4, p5, p6, p7⟩ nextFlag_late hlag

theorem classifyNext_stream (s : Fm) :
    (classifyNext R s).ring = s.ring ∧ (classifyNext R s).nIn = s.nIn ∧
      (classifyNext R s).nOut = s.nOut ∧ (classifyNext R s).nCls = s.nCls + 1 := by
  have h := track_stream (R := R) { s with outlier := write s.outlier s.nCls (nextFlag s) } s.nCls (nextFlag s)
  exact ⟨h.ring, h.nIn, h.nOut, congrArg (· + 1) h.nCls⟩

theorem Inv.classify {s : Fm} {xs : List Frame} (h : Inv R .loop s xs) (hr : classifyReady s = true) :
    Inv R .loop (classifyNext R s) xs := by
  obtain ⟨h0, hlast, -⟩ := h.ready hr
  have hsound := h.noted hr
  obtain ⟨hring, hin, hout, hcls⟩ := classifyNext_stream (R := R) s
  obtain ⟨⟨received, held, running, out, behind, window⟩, -, -⟩ := h
  obtain ⟨ht, hp, hlag⟩ := hsound
  obtain ⟨ht, hp, hlag⟩ := closed_sound ht hp hlag
  obtain ⟨t1, t2, t3, t4, t5⟩ := predictMissed_tracking ht (hp.few ht.frontier_le (by omega))
  obtain ⟨p1, p2, p3, p4, p5, p6, p7⟩ := predictMissed_pending ht hp hlag
  have hnow : (classifyNext R s).nCls - 1 = s.nCls := by omega
  refine ⟨⟨hin.trans received, by rwa [hring], fun _ => hin ▸ running (by decide), ?_, ?_, ?_⟩, ?_, ?_⟩
  · rwa [hout, hin]
  · rw [hin, hcls]
    omega
  · rw [hin, hcls]
    omega
  · rw [hnow]
    exact ⟨t1, t2, t3, t4, t5⟩
  · rw [hnow]
    exact ⟨p1, p2, p3, p4, p5, p6, p7⟩

theorem Inv.leave {s : Fm} {xs : List Frame} (h : Inv R .loop s xs) (hr : classifyReady s = false) :
    Inv R .emit s xs := by
  obtain ⟨⟨received, held, running, out, behind, window⟩, ht, hp⟩ := h
  refine ⟨⟨received, held, fun _ => running (by decide), out, ?_, window⟩, ht, hp⟩
  rw [classifyReady, decide_eq_false_iff_not] at hr
  simp only [clsLag] at *
  omega

theorem Inv.deliver {s : Fm} {xs : List Frame} (h : Inv R .emit s xs) :
    Inv R .top (deliver R s).1 xs := by
  obtain ⟨⟨received, held, running, out, behind, window⟩, ⟨t1, t2, t3, t4, t5⟩, hp⟩ := h
  have hrun := running (by decide)
  unfold Fmrepair.deliver
  split_ifs with hgo
  · refine ⟨⟨received, held, fun h => absurd rfl h, ?_, behind, window⟩, ⟨t1, t2, t3, t4, t5⟩, ?_⟩
    · simp only [emit, outLag] at *
      omega
    · refine ⟨fun w hw => hp.shape w (mem_dropExpired hw), fun w hw => hp.behind w (mem_dropExpired hw),
        fun w hw => hp.apart w (mem_dropExpired hw), hp.order.sublist (List.dropWhile_sublist _),
        fun w hw => ?_, fun w hw => hp.logged w (mem_dropExpired hw), hp.genuine⟩
      have := dropExpired_live hp.order w hw
      simp only [emit]
      omega
  · refine ⟨⟨received, held, fun h => absurd rfl h, ?_, behind, window⟩, ⟨t1, t2, t3, t4, t5⟩, hp⟩
    simp only [outLag] at *
    omega

theorem reached_inv {fm s : Fm} {p : Point} {xs : List Frame} (h : Reached R fm p s xs) : Inv R p s xs := by
  induction h with
  | init => exact inv_init fm
  | receive f _ ih => exact ih.receive f
  | classify _ hr ih => exact ih.classify hr
  | leave _ hr ih => exact ih.leave hr
  | deliver _ ih => exact ih.deliver

theorem classifyPending_reached {fm s : Fm} {xs : List Frame} (k : ℕ) (h : Reached R fm .loop s xs) :
    Reached R fm .loop (classifyPending R k s) xs := by
  induction k generalizing s with
  | zero => exact h
  | succ k ih =>
      rw [classifyPending]
      split_ifs with hr
      · exact ih (h.classify hr)
      · exact h

/-- The fuel `transferFrame` gives the inner loop is enough. -/
theorem classifyPending_done (k : ℕ) (s : Fm) (hk : (s.nIn - s.nCls).toNat ≤ k) :
    classifyReady (classifyPending R k s) = false := by
  induction k generalizing s with
  | zero =>
      rw [classifyPending, classifyReady, decide_eq_false_iff_not]
      omega
  | succ k ih =>
      rw [classifyPending]
      split_ifs with hr
      · apply ih
        obtain ⟨-, hin, -, hcls⟩ := classifyNext_stream (R := R) s
        rw [hin, hcls]
        omega
      · simpa using hr

theorem transferFrame_reached {fm s : Fm} {xs : List Frame} (h : Reached R fm .top s xs) (f : Frame) :
    Reached R fm .top (transferFrame R s f).1 (xs ++ [f]) :=
  .deliver (.leave (classifyPending_reached _ (h.receive f)) (classifyPending_done _ _ le_rfl))

theorem fmTransfer_reached {fm s : Fm} {xs : List Frame} (h : Reached R fm .top s xs) (fs : List Frame) :
    Reached R fm .top (fmTransfer R s fs).1 (xs ++ fs) := by
  induction fs generalizing s xs with
  | nil => simpa [fmTransfer] using h
  | cons f fs ih =>
      have := ih (transferFrame_reached h f)
      rwa [List.append_assoc, List.singleton_append] at this

end Sirius.Fmrepair
