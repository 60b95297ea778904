import Sirius.Fmrepair.DelayLine
import Sirius.Fmrepair.Impulses
import Sirius.Fmrepair.Turn

/-!
# Frames and windows are there when they are used

Interpolation and classification read frames that have been received and are still in
the ring, and the queue of pending windows never overflows or expires out of order.
-/
namespace Sirius.Fmrepair
open Rounded RingBuffer

/-- Frame `j` has been received, is not overwritten, and reads as it was received. -/
def Available (s : Fm) (xs : List Frame) (j : ℤ) : Prop :=
  0 ≤ j ∧ j < s.nIn ∧ s.nIn - RING ≤ j ∧ xs[j.toNat]? = some (frame s j)

theorem Counters.available {p : Point} {s : Fm} {xs : List Frame} (h : Counters p s xs) {j : ℤ}
    (h0 : 0 ≤ j) (h1 : j < s.nIn) (h2 : s.nIn - RING ≤ j) : Available s xs j := by
  refine ⟨h0, h1, h2, ?_⟩
  rw [h.received] at h1 h2
  obtain ⟨hlt, hread⟩ := h.held.get h0 h1 h2
  rw [List.getElem?_eq_getElem hlt, frame, hread]

/-- The frames and windows the plugin relies on at a point of its run. -/
structure Held (p : Point) (s : Fm) (xs : List Frame) : Prop where
  anchors : p = .emit → s.nIn > DELAY → ∀ w, emitWindow s s.nOut = some w →
    w.a ≤ s.nOut ∧ s.nOut ≤ w.b ∧ Available s xs (w.a - 1) ∧ Available s xs (w.b + 1) ∧
      0 < w.b + 2 - w.a
  window : p = .loop → classifyReady s = true → s.nCls > HALF →
    ∀ j, s.nCls - HALF ≤ j → j ≤ s.nCls + HALF → Available s xs j
  ordered : s.blanks.Pairwise fun v w => v.b < w.b
  expired : ∀ m, ∀ w ∈ dropExpired s.blanks m, m ≤ w.b
  room : ∀ e ∈ s.scheduled, e.nblanks < MAX_BLANKS

variable {R : Rounding}

theorem Inv.anchors {s : Fm} {xs : List Frame} (h : Inv R .emit s xs) (hgo : s.nIn > DELAY) {w : Blank}
    (hw : emitWindow s s.nOut = some w) :
    w.a ≤ s.nOut ∧ s.nOut ≤ w.b ∧ Available s xs (w.a - 1) ∧ Available s xs (w.b + 1) ∧
      0 < w.b + 2 - w.a := by
  obtain ⟨hmem, ha, hb⟩ := emitWindow_some hw
  have hshape := h.pending.shape w hmem
  have hapart := h.pending.apart w hmem
  have hfront := h.tracking.frontier_le
  have hout := h.counters.out
  have hcls := h.counters.window
  simp only [outLag, DELAY, HALF, WIN] at hout hcls hgo
  have hring : (RING : ℤ) = 4096 := rfl
  refine ⟨ha, hb, h.counters.available ?_ ?_ ?_, h.counters.available ?_ ?_ ?_, ?_⟩ <;> omega

theorem Inv.window {s : Fm} {xs : List Frame} (h : Inv R .loop s xs) (hr : classifyReady s = true)
    (hn : s.nCls > HALF) {j : ℤ} (hlo : s.nCls - HALF ≤ j) (hhi : j ≤ s.nCls + HALF) :
    Available s xs j := by
  obtain ⟨-, hlast, -⟩ := h.ready hr
  simp only [HALF, WIN] at hlast hn hlo hhi
  have hring : (RING : ℤ) = 4096 := rfl
  apply h.counters.available <;> omega

/-- Whatever the stream, no frame is used that is not held and no window is dropped early. -/
theorem fmrepair_held (R : Rounding) (fm : Fm) {p : Point} {s : Fm} {xs : List Frame}
    (h : Reached R fm p s xs) : Held p s xs := by
  have hinv := reached_inv h
  refine ⟨?_, ?_, hinv.pending.order.imp fun hvw => hvw.2, fun m => dropExpired_live hinv.pending.order,
    fun e he => (hinv.pending.genuine e he).1⟩
  · rintro rfl hgo w hw
    exact hinv.anchors hgo hw
  · rintro rfl hr hn j hlo hhi
    exact hinv.window hr hn hlo hhi

/-- A window that was scheduled is pending until its last frame is delivered. -/
def Queued (s : Fm) : Prop := ∀ e ∈ s.scheduled, s.nOut ≤ e.window.b → e.window ∈ s.blanks

theorem mem_dropExpired_of_live {bs : List Blank} {m : ℤ} {w : Blank} (h : w ∈ bs) (hw : m ≤ w.b) :
    w ∈ dropExpired bs m := by
  unfold dropExpired
  induction bs with
  | nil => exact h
  | cons v vs ih =>
      rw [List.dropWhile_cons]
      split
      · rename_i hv
        refine ih ((List.mem_cons.mp h).resolve_left fun heq => ?_)
        subst heq
        exact absurd (of_decide_eq_true hv) (not_lt.mpr hw)
      · exact h

/-- A new window is put at the end of the queue. -/
theorem Queued.append {s s' : Fm} (h : Queued s) {e : Scheduled} (hb : s'.blanks = s.blanks ++ [e.window])
    (hs : s'.scheduled = s.scheduled ++ [e]) (ho : s'.nOut = s.nOut) : Queued s' := by
  intro e' he' hlive
  rw [hb]
  rw [hs] at he'
  rcases List.mem_append.mp he' with he' | he'
  · exact List.mem_append_left _ (h e' he' (ho ▸ hlive))
  · rw [List.mem_singleton.mp he']
    exact List.mem_append_right _ (List.mem_singleton_self _)

theorem Queued.turn {s t u : Fm} (h : Queued s) (hturn : Turn R s t u) : Queued u := by
  have hnoted : Queued (noted s) := by
    unfold noted noteOutlier
    split_ifs <;> exact h
  have hclosed : Queued t := by
    cases hturn.closed with
    | idle => exact hnoted
    | rejected => exact hnoted
    | accepted => exact hnoted.append rfl rfl rfl
  cases hturn.predicted with
  | idle => exact hclosed
  | missed => exact hclosed.append rfl rfl rfl

theorem Queued.deliver {s : Fm} (h : Queued s) : Queued (deliver R s).1 := by
  unfold Fmrepair.deliver
  split_ifs
  · intro e he hlive
    change s.nOut + 1 ≤ e.window.b at hlive
    exact mem_dropExpired_of_live (h e he (by omega)) (by omega)
  · exact h

/-- Windows leave the queue by expiring, and in no other way. -/
theorem reached_queued {fm s : Fm} {p : Point} {xs : List Frame} (h : Reached R fm p s xs) : Queued s := by
  induction h with
  | init => exact fun e he => absurd he List.not_mem_nil
  | receive f _ ih => exact ih
  | classify hs hr ih =>
      obtain ⟨t, u, hturn⟩ := classifyNext_turn (reached_inv hs) hr
      have hnext : Queued u := ih.turn hturn
      rw [hturn.next]
      exact hnext
  | leave _ _ ih => exact ih
  | deliver _ ih => exact ih.deliver

theorem Queued.emitWindow {s : Fm} (h : Queued s) {e : Scheduled} (he : e ∈ s.scheduled) (ha : e.window.a ≤ s.nOut)
    (hb : s.nOut ≤ e.window.b) : ∃ w, emitWindow s s.nOut = some w := by
  refine Option.isSome_iff_exists.mp (List.find?_isSome.mpr ⟨e.window, ?_, decide_eq_true ⟨ha, hb⟩⟩)
  exact mem_dropExpired_of_live (h e he hb) hb

/-- A cluster that is accepted is scheduled with the margin on both sides. -/
theorem scheduled_of_accepted {s : Fm} {xs : List Frame} (h : Inv R .loop s xs) (hr : classifyReady s = true)
    (hdue : closeDue (noted s) s.nCls = true) (hacc : ¬Rejected R (noted s)) :
    ∃ e ∈ (classifyNext R s).scheduled, e.window = ⟨(noted s).first - MARGIN, (noted s).last + MARGIN⟩ := by
  obtain ⟨t, u, hturn⟩ := classifyNext_turn h hr
  rw [hturn.next]
  have hburst : ∃ e ∈ t.scheduled, e.window = ⟨(noted s).first - MARGIN, (noted s).last + MARGIN⟩ := by
    cases hturn.closed with
    | idle hdue' => exact absurd (hdue'.symm.trans hdue) Bool.false_ne_true
    | rejected _ hrej => exact absurd hrej hacc
    | accepted => exact ⟨_, List.mem_append_right _ (List.mem_singleton_self _), rfl⟩
  obtain ⟨e, he, hw⟩ := hburst
  refine ⟨e, ?_, hw⟩
  cases hturn.predicted with
  | idle => exact he
  | missed => exact List.mem_append_left _ he

/-- More frames later the next one is about to be delivered, and all that was scheduled still is. -/
theorem exists_emit {fm s : Fm} {xs : List Frame} (h : Reached R fm .loop s xs) (ys : List Frame) (f : Frame) :
    ∃ t, Reached R fm .emit t (xs ++ ys ++ [f]) ∧ s.scheduled <+: t.scheduled := by
  let k := (s.nIn - s.nCls).toNat
  have hleave : Reached R fm .emit (classifyPending R k s) xs :=
    .leave (classifyPending_reached k h) (classifyPending_done k s le_rfl)
  have hin := (fmTransfer_reached hleave.deliver ys).receive f
  refine ⟨_, .leave (classifyPending_reached _ hin) (classifyPending_done _ _ le_rfl), ?_⟩
  have hdelivered : s.scheduled <+: (deliver R (classifyPending R k s)).1.scheduled := by
    rw [deliver_scheduled]
    exact classifyPending_scheduled k s
  exact hdelivered.trans ((fmTransfer_scheduled _ ys).trans (classifyPending_scheduled _ (receive _ f)))

/-- Frame 100, in the middle of the window of the first burst, is about to be repaired between frames that are held. -/
theorem fmrepair_held_bursts :
    ∃ s, Reached .exact fmCalloc .emit s (impulseFrames threeBursts 293) ∧ s.nOut = 100 ∧
      ∃ w, emitWindow s s.nOut = some w ∧ w.a ≤ 100 ∧ 100 ≤ w.b ∧
        Available s (impulseFrames threeBursts 293) (w.a - 1) ∧
        Available s (impulseFrames threeBursts 293) (w.b + 1) := by
  obtain ⟨s, hs, hcls, hr⟩ := classifyReady_reached .exact fmCalloc (impulseFrames threeBursts 165)
    (impulseFrame threeBursts 165) (by rw [length_impulseFrames]; decide)
  rw [← impulseFrames_succ] at hs
  rw [length_impulseFrames] at hcls
  have hcls : s.nCls = 157 := by omega
  have hnoted :=
    (impulseFrames_noted isolated_threeBursts (n := 157) (by decide) (by decide) hs hcls hr).trans threeBurstsRun_first
  have hdue : closeDue (noted s).tracker.fm s.nCls = true := by
    rw [hnoted, hcls]
    rfl
  have hacc : ¬Rejected .exact (noted s).tracker.fm := by
    rw [hnoted]
    exact not_or.mpr ⟨by decide, fun hrefused => Bool.false_ne_true hrefused.1⟩
  obtain ⟨e, he, hw⟩ := scheduled_of_accepted (reached_inv hs) hr hdue hacc
  have hfirst : (noted s).first = 100 := congrArg Tracker.first hnoted
  have hlast : (noted s).last = 108 := congrArg Tracker.last hnoted
  rw [hfirst, hlast] at hw
  obtain ⟨ys, hys⟩ := impulseFrames_prefix threeBursts (show 166 ≤ 292 by decide)
  obtain ⟨t, ht, hlog⟩ := exists_emit (hs.classify hr) ys (impulseFrame threeBursts 292)
  rw [hys, ← impulseFrames_succ] at ht
  have hin := (reached_inv ht).counters.received
  have hout : t.nOut = 100 := by
    have hlag := (reached_inv ht).counters.out
    rw [hin, length_impulseFrames] at hlag
    exact hlag
  rw [length_impulseFrames] at hin
  obtain ⟨w, hfound⟩ := (reached_queued ht).emitWindow (hlog.subset he) (by rw [hw, hout]; decide)
    (by rw [hw, hout]; decide)
  obtain ⟨ha, hb, hbefore, hbehind, -⟩ :=
    (fmrepair_held .exact fmCalloc ht).anchors rfl (by rw [hin]; decide) w hfound
  rw [hout] at ha hb
  exact ⟨t, ht, hout, w, hfound, ha, hb, hbefore, hbehind⟩

end Sirius.Fmrepair
