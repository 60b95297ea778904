import Mathlib.Data.List.GetD
import Sirius.Fmrepair.Joint

/-!
# The plugin as a delay line

What the component is for: a delay of 192 frames that changes a frame only inside a
window. `fmTransfer` refines `delayLine` up to the windows it scheduled, however the
stream is cut into calls.
-/
namespace Sirius.Fmrepair
open Rounded RingBuffer

/-- The stream of as many frames, 192 later, behind silence. -/
def delayLine (xs : List Frame) : List Frame :=
  (List.replicate DELAY.toNat 0 ++ xs).take xs.length

theorem delayLine_getElem? (xs : List Frame) {k : ℕ} (hk : k < xs.length) :
    (delayLine xs)[k]? = if k < DELAY.toNat then some 0 else xs[k - DELAY.toNat]? := by
  rw [delayLine, List.getElem?_take_of_lt hk, List.getElem?_append, List.length_replicate]
  split_ifs with h
  · rw [List.getElem?_replicate, if_pos h]
  · rfl

/-- Frame `m` lies in a window `add_blank` was given. -/
def Blanked (log : List Scheduled) (m : ℤ) : Prop :=
  ∃ e ∈ log, e.window.a ≤ m ∧ m ≤ e.window.b

theorem Blanked.mono {log log' : List Scheduled} (h : log <+: log') {m : ℤ} (hb : Blanked log m) :
    Blanked log' m := by
  obtain ⟨e, he, hw⟩ := hb
  exact ⟨e, h.subset he, hw⟩

/-- Output frame `k` of a stream: silence at first, then input frame `k - 192` unless it
is blanked. -/
def Delayed (xs : List Frame) (log : List Scheduled) (k : ℕ) (out : Frame) : Prop :=
  (k < DELAY.toNat → out = 0) ∧
  (DELAY.toNat ≤ k → xs[k - DELAY.toNat]? = some out ∨ Blanked log (k - DELAY))

theorem getElem?_prefixed {α : Type*} {xs ys : List α} {i : ℕ} {x : α} (h : xs <+: ys)
    (hx : xs[i]? = some x) : ys[i]? = some x := by
  obtain ⟨hi, rfl⟩ := List.getElem?_eq_some_iff.mp hx
  exact (List.prefix_iff_getElem?.mp h) i hi

theorem Delayed.mono {xs ys : List Frame} {log log' : List Scheduled} {k : ℕ} {out : Frame}
    (h : Delayed xs log k out) (hxs : xs <+: ys) (hlog : log <+: log') : Delayed ys log' k out := by
  refine ⟨h.1, fun hk => ?_⟩
  rcases h.2 hk with same | blanked
  · exact Or.inl (getElem?_prefixed hxs same)
  · exact Or.inr (blanked.mono hlog)

variable {R : Rounding}

theorem addBlank_scheduled (s : Fm) (a b : ℤ) (o : Origin) : s.scheduled <+: (addBlank s a b o).scheduled :=
  List.prefix_append _ _

theorem noteOutlier_scheduled (s : Fm) (n : ℤ) (o : Bool) : (noteOutlier s n o).scheduled = s.scheduled := by
  unfold noteOutlier
  split_ifs <;> rfl

theorem closeIfDue_scheduled (s : Fm) (n : ℤ) : s.scheduled <+: (closeIfDue R s n).scheduled := by
  unfold closeIfDue closeBurst acceptBurst
  dsimp only
  split_ifs
  any_goals exact List.prefix_rfl
  all_goals exact addBlank_scheduled { s with scheduled := s.scheduled } _ _ _

theorem predictMissed_scheduled (s : Fm) (n : ℤ) : s.scheduled <+: (predictMissed R s n).scheduled := by
  unfold predictMissed
  dsimp only
  split_ifs
  any_goals exact List.prefix_rfl
  all_goals exact addBlank_scheduled s _ _ _

theorem classifyNext_scheduled (s : Fm) : s.scheduled <+: (classifyNext R s).scheduled := by
  have hclose := closeIfDue_scheduled (R := R) (noted s) s.nCls
  rw [noted, noteOutlier_scheduled] at hclose
  exact hclose.trans (predictMissed_scheduled _ _)

theorem classifyPending_scheduled (k : ℕ) (s : Fm) : s.scheduled <+: (classifyPending R k s).scheduled := by
  induction k generalizing s with
  | zero => exact List.prefix_rfl
  | succ k ih =>
      rw [classifyPending]
      split_ifs
      · exact (classifyNext_scheduled s).trans (ih _)
      · exact List.prefix_rfl

theorem deliver_scheduled (s : Fm) : (deliver R s).1.scheduled = s.scheduled := by
  unfold deliver
  split_ifs <;> rfl

theorem transferFrame_scheduled (s : Fm) (f : Frame) : s.scheduled <+: (transferFrame R s f).1.scheduled := by
  unfold transferFrame
  rw [deliver_scheduled]
  exact classifyPending_scheduled _ (receive s f)

theorem fmTransfer_scheduled (s : Fm) (fs : List Frame) : s.scheduled <+: (fmTransfer R s fs).1.scheduled := by
  induction fs generalizing s with
  | nil => exact List.prefix_rfl
  | cons f fs ih => exact (transferFrame_scheduled s f).trans (ih _)

theorem deliver_delayed {s : Fm} {xs : List Frame} (h : Inv R .emit s xs) :
    Delayed xs s.scheduled (xs.length - 1) (deliver R s).2 := by
  have hin := h.counters.received
  have hrun := h.counters.running (by decide)
  have hout := h.counters.out
  simp only [outLag, DELAY] at hout
  unfold deliver
  by_cases hgo : s.nIn > DELAY
  · rw [if_pos hgo]
    refine ⟨fun hk => ?_, fun _ => ?_⟩
    · simp only [DELAY] at hk hgo
      omega
    · simp only [DELAY] at hgo
      have hm : s.nOut = ((xs.length - 1 - DELAY.toNat : ℕ) : ℤ) := by
        simp only [DELAY]
        omega
      cases hw : emitWindow s s.nOut with
      | none =>
          left
          have hring : (RING : ℤ) = 4096 := rfl
          obtain ⟨hlt, hread⟩ := h.counters.held.get (n := s.nOut) (by omega) (by omega) (by omega)
          have hsame : s.nOut.toNat = xs.length - 1 - DELAY.toNat := by omega
          simp only [emit, hw, frame, hread, hsame]
          exact List.getElem?_eq_getElem _
      | some w =>
          right
          obtain ⟨hmem, ha, hb⟩ := emitWindow_some hw
          obtain ⟨e, he, rfl⟩ := h.pending.logged w hmem
          refine ⟨e, he, ?_, ?_⟩
          all_goals
            simp only [DELAY] at hm ⊢
            omega
  · rw [if_neg hgo]
    refine ⟨fun _ => rfl, fun hk => ?_⟩
    simp only [DELAY] at hk hgo
    omega

theorem transferFrame_delayed {fm s : Fm} {xs : List Frame} (h : Reached R fm .top s xs) (f : Frame) :
    Delayed (xs ++ [f]) (transferFrame R s f).1.scheduled xs.length (transferFrame R s f).2 := by
  have hreach := Reached.leave (classifyPending_reached _ (h.receive f)) (classifyPending_done _ _ le_rfl)
  have hout := deliver_delayed (reached_inv hreach)
  rw [List.length_append, List.length_singleton, Nat.add_sub_cancel] at hout
  unfold transferFrame
  rwa [deliver_scheduled]

theorem fmTransfer_length (s : Fm) (fs : List Frame) : (fmTransfer R s fs).2.length = fs.length := by
  induction fs generalizing s with
  | nil => rfl
  | cons f fs ih => simp only [fmTransfer, List.length_cons, ih]

/-- The run lemma: every frame a block delivers is the delayed one. -/
theorem fmTransfer_delayed {fm s : Fm} {xs : List Frame} (h : Reached R fm .top s xs) (fs : List Frame)
    {k : ℕ} {out : Frame} (hk : (fmTransfer R s fs).2[k]? = some out) :
    Delayed (xs ++ fs) (fmTransfer R s fs).1.scheduled (xs.length + k) out := by
  induction fs generalizing s xs k with
  | nil => simp [fmTransfer] at hk
  | cons f fs ih =>
      have hnext := transferFrame_reached h f
      cases k with
      | zero =>
          have hsame : (transferFrame R s f).2 = out := by simpa [fmTransfer] using hk
          rw [← hsame]
          exact (transferFrame_delayed h f).mono (by simp) (fmTransfer_scheduled _ fs)
      | succ k =>
          have hrest := ih hnext (k := k) (by simpa [fmTransfer] using hk)
          rw [List.append_assoc, List.singleton_append, List.length_append, List.length_singleton,
            Nat.add_assoc, Nat.add_comm 1 k] at hrest
          exact hrest

theorem fmTransfer_append (s : Fm) (xs ys : List Frame) :
    fmTransfer R s (xs ++ ys) = ((fmTransfer R (fmTransfer R s xs).1 ys).1,
      (fmTransfer R s xs).2 ++ (fmTransfer R (fmTransfer R s xs).1 ys).2) := by
  induction xs generalizing s with
  | nil => rfl
  | cons x xs ih => simp only [List.cons_append, fmTransfer, ih]

/-- Successive calls are one call on the whole stream. -/
theorem fmTransfers_flatten (s : Fm) (blocks : List (List Frame)) :
    (fmTransfers R s blocks).1 = (fmTransfer R s blocks.flatten).1 ∧
      (fmTransfers R s blocks).2.flatten = (fmTransfer R s blocks.flatten).2 := by
  induction blocks generalizing s with
  | nil => exact ⟨rfl, rfl⟩
  | cons block blocks ih =>
      obtain ⟨hstate, hout⟩ := ih (fmTransfer R s block).1
      rw [List.flatten_cons, fmTransfer_append]
      refine ⟨hstate, ?_⟩
      simp only [fmTransfers, List.flatten_cons, hout]

theorem fmTransfers_lengths (s : Fm) (blocks : List (List Frame)) :
    (fmTransfers R s blocks).2.map List.length = blocks.map List.length := by
  induction blocks generalizing s with
  | nil => rfl
  | cons block blocks ih => simp only [fmTransfers, List.map_cons, fmTransfer_length, ih]

/-- No cluster of the stream reaches `MIN_OUTLIERS` outliers. -/
def Quiet (R : Rounding) (fm : Fm) (xs : List Frame) : Prop :=
  ∀ s ys, ys <+: xs → Reached R fm .loop s ys → classifyReady s = true →
    (noted s).isOpen = true → (noted s).count < MIN_OUTLIERS

/-- The tracker has never locked and no window was ever scheduled. -/
def Untouched (s : Fm) : Prop := s.locked = false ∧ s.blanks = [] ∧ s.scheduled = []

theorem noteOutlier_untouched {s : Fm} (h : Untouched s) (n : ℤ) (o : Bool) :
    Untouched (noteOutlier s n o) := by
  unfold noteOutlier
  split_ifs <;> exact h

theorem closeIfDue_untouched {s : Fm} (h : Untouched s) (n : ℤ)
    (few : s.isOpen = true → s.count < MIN_OUTLIERS) : Untouched (closeIfDue R s n) := by
  unfold closeIfDue
  split_ifs with hdue hcount
  · have := few (Bool.and_eq_true_iff.mp hdue).1
    omega
  · exact h
  · exact h

theorem predictMissed_untouched {s : Fm} (h : Untouched s) (n : ℤ) : Untouched (predictMissed R s n) := by
  unfold predictMissed
  rw [h.1, Bool.false_and, if_neg (by decide)]
  exact h

theorem classifyNext_untouched {s : Fm} (h : Untouched s)
    (few : (noted s).isOpen = true → (noted s).count < MIN_OUTLIERS) : Untouched (classifyNext R s) := by
  have hnote : Untouched (noted s) :=
    noteOutlier_untouched (s := { s with outlier := write s.outlier s.nCls (nextFlag s) }) h _ _
  exact predictMissed_untouched (closeIfDue_untouched hnote s.nCls few) s.nCls

theorem reached_untouched {fm s : Fm} {p : Point} {xs ys : List Frame} (hq : Quiet R fm xs)
    (h : Reached R fm p s ys) (hp : ys <+: xs) : Untouched s := by
  induction h with
  | init => exact ⟨rfl, rfl, rfl⟩
  | receive f _ ih => exact ih ((List.prefix_append _ _).trans hp)
  | classify hs hr ih => exact classifyNext_untouched (ih hp) (hq _ _ hp hs hr)
  | leave _ _ ih => exact ih hp
  | @deliver s ys _ ih =>
      obtain ⟨hl, hb, hlog⟩ := ih hp
      unfold Fmrepair.deliver
      split_ifs
      · exact ⟨hl, by simp [emit, dropExpired, hb], hlog⟩
      · exact ⟨hl, hb, hlog⟩

theorem Delayed.eq_delayLine {xs : List Frame} {k : ℕ} {out : Frame} (hk : k < xs.length)
    (h : Delayed xs [] k out) : (delayLine xs)[k]? = some out := by
  rw [delayLine_getElem? xs hk]
  split_ifs with hsmall
  · rw [h.1 hsmall]
  · rcases h.2 (not_lt.mp hsmall) with same | ⟨e, he, -⟩
    · exact same
    · exact absurd he List.not_mem_nil

theorem fmTransfer_quiet {fm : Fm} {xs : List Frame} (hq : Quiet R fm xs) :
    (fmTransfer R (fmInit fm) xs).2 = delayLine xs := by
  have hreach : Reached R fm .top (fmTransfer R (fmInit fm) xs).1 xs := fmTransfer_reached .init xs
  obtain ⟨-, -, hlog⟩ := reached_untouched hq hreach List.prefix_rfl
  have hlen : (delayLine xs).length = xs.length := by
    rw [delayLine, List.length_take, List.length_append]
    omega
  apply List.ext_getElem?
  intro k
  by_cases hk : k < xs.length
  · have hkout : k < (fmTransfer R (fmInit fm) xs).2.length := by rwa [fmTransfer_length]
    have hd := fmTransfer_delayed .init xs (List.getElem?_eq_getElem hkout)
    rw [hlog, List.nil_append, List.length_nil, Nat.zero_add] at hd
    rw [hd.eq_delayLine hk, List.getElem?_eq_getElem hkout]
  · rw [List.getElem?_eq_none (by rw [fmTransfer_length]; omega), List.getElem?_eq_none (by omega)]

/-- The plugin is an exact delay line outside the windows it schedules. -/
theorem fmrepair_delay_line (R : Rounding) (fm : Fm) (blocks : List (List Frame)) :
    (fmTransfers R (fmInit fm) blocks).2.map List.length = blocks.map List.length ∧
    (fmTransfers R (fmInit fm) blocks).2.flatten = (fmTransfer R (fmInit fm) blocks.flatten).2 ∧
    (∀ k out, (fmTransfers R (fmInit fm) blocks).2.flatten[k]? = some out →
      Delayed blocks.flatten (fmTransfers R (fmInit fm) blocks).1.scheduled k out) ∧
    (∀ e ∈ (fmTransfers R (fmInit fm) blocks).1.scheduled, e.Genuine) ∧
    (Quiet R fm blocks.flatten →
      (fmTransfers R (fmInit fm) blocks).2.flatten = delayLine blocks.flatten) := by
  obtain ⟨hstate, hout⟩ := fmTransfers_flatten (R := R) (fmInit fm) blocks
  have hreach : Reached R fm .top (fmTransfer R (fmInit fm) blocks.flatten).1 blocks.flatten :=
    fmTransfer_reached .init _
  rw [hstate, hout]
  refine ⟨fmTransfers_lengths _ _, rfl, fun k out hk => ?_, (reached_inv hreach).pending.genuine,
    fmTransfer_quiet⟩
  have hd := fmTransfer_delayed .init blocks.flatten hk
  rwa [List.nil_append, List.length_nil, Nat.zero_add] at hd

end Sirius.Fmrepair
