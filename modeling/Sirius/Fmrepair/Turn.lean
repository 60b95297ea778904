import Sirius.Fmrepair.Tracker

/-!
# One turn of the inner loop

What a turn can do to cluster and tracker, said once: a frame is counted, a cluster may be closed, and a
prediction may be given up.
-/
namespace Sirius.Fmrepair
open Rounded

/-- What `track` leaves of `s` after frame `n` where it looks at the end of the cluster. -/
inductive Closed (R : Rounding) (s : Fm) (n : ℤ) : Fm → Prop
  | idle (hdue : closeDue s n = false) : Closed R s n s
  | rejected (hdue : closeDue s n = true) (hrej : Rejected R s) : Closed R s n { s with isOpen := false }
  | accepted (l : Bool) (p : ℚ) (hdue : closeDue s n = true) (hacc : ¬Rejected R s)
      (hlock : l = true → s.locked = true ∨ s.cLast ≠ 0) : Closed R s n (accepted s l p)

/-- What it leaves where it looks at the prediction. -/
inductive Predicted (R : Rounding) (s : Fm) (n : ℤ) : Fm → Prop
  | idle (hdue : ¬PredictionDue R s n) : Predicted R s n s
  | missed (hdue : PredictionDue R s n) : Predicted R s n (missed R s)

variable {R : Rounding}

/-- A lock is made on the second burst. -/
theorem closeIfDue_locked {s : Fm} {n : ℤ} (h : (closeIfDue R s n).locked = true) : s.locked = true ∨ s.cLast ≠ 0 := by
  by_contra hnot
  push Not at hnot
  obtain ⟨hl, hc⟩ := hnot
  replace hl := Bool.eq_false_of_not_eq_true hl
  rw [closeIfDue, closeBurst] at h
  simp only [hl, hc, Bool.false_eq_true, if_false, ne_eq, not_true_eq_false, false_and] at h
  split_ifs at h
  · exact Bool.false_ne_true h
  · exact Bool.false_ne_true (hl.symm.trans h)

theorem closeIfDue_closed {s : Fm} {n late : ℤ} (h : Tracking R s n 1 late) (hn : s.blanks.length < MAX_BLANKS) :
    Closed R s n (closeIfDue R s n) := by
  rcases closeIfDue_cases h hn with ⟨hdue, he⟩ | ⟨hdue, hrej, he⟩ | ⟨hdue, hacc, l, p, -, he⟩
  · rw [he]
    exact .idle hdue
  · rw [he]
    exact .rejected hdue hrej
  · have hlock : l = true → s.locked = true ∨ s.cLast ≠ 0 := by
      intro hl
      refine closeIfDue_locked (R := R) (n := n) ?_
      rw [he]
      exact hl
    rw [he]
    exact .accepted l p hdue hacc hlock

theorem predictMissed_predicted {s : Fm} {n slack late : ℤ} (h : Tracking R s n slack late)
    (hn : s.blanks.length < MAX_BLANKS) : Predicted R s n (predictMissed R s n) := by
  rcases predictMissed_cases h hn with ⟨hdue, he⟩ | ⟨hdue, he⟩
  · rw [he]
    exact .idle hdue
  · rw [he]
    exact .missed hdue

/-- A turn of the inner loop at frame `s.nCls`, by its two stages. -/
structure Turn (R : Rounding) (s t u : Fm) : Prop where
  noted : Tracking R (noted s) s.nCls 1 1
  closed : Closed R (Fmrepair.noted s) s.nCls t
  tracked : Tracking R t s.nCls 0 122
  predicted : Predicted R t s.nCls u
  same : u.nCls = s.nCls
  next : classifyNext R s = { u with nCls := u.nCls + 1 }

theorem classifyNext_turn {s : Fm} {xs : List Frame} (h : Inv R .loop s xs) (hr : classifyReady s = true) :
    ∃ t u, Turn R s t u := by
  obtain ⟨ht, hp, hlag⟩ := h.noted hr
  obtain ⟨ht', hp', hlag'⟩ := closed_sound ht hp hlag
  have hstream := track_stream (R := R) { s with outlier := RingBuffer.write s.outlier s.nCls (nextFlag s) } s.nCls
    (nextFlag s)
  refine ⟨_, _, ht, closeIfDue_closed ht (hp.few ht.frontier_le (by omega)), ht',
    predictMissed_predicted ht' (hp'.few ht'.frontier_le (by omega)), hstream.nCls, rfl⟩

theorem noted_fields (s : Fm) :
    (noted s).locked = s.locked ∧ (noted s).cLast = s.cLast ∧ (noted s).misses = s.misses ∧
      (noted s).scheduled = s.scheduled := by
  unfold noted noteOutlier
  split_ifs <;> exact ⟨rfl, rfl, rfl, rfl⟩

theorem deliver_fields (s : Fm) :
    (deliver R s).1.locked = s.locked ∧ (deliver R s).1.cLast = s.cLast ∧ (deliver R s).1.misses = s.misses ∧
      (deliver R s).1.scheduled = s.scheduled := by
  unfold deliver
  split_ifs <;> exact ⟨rfl, rfl, rfl, rfl⟩

end Sirius.Fmrepair
