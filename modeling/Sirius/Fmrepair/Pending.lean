import Mathlib.Data.List.Pairwise
import Sirius.Fmrepair.Invariant

/-!
# The pending windows

The windows of `blanks` are ordered, spaced and at most 133 frames longer than their
first frame, so that few of them are pending at once and each can still be repaired.
-/
namespace Sirius.Fmrepair
open Rounded RingBuffer

/-- Values spaced by `k` in an interval are at most its length over `k`, plus one. -/
theorem length_of_spaced {α : Type*} (f : α → ℤ) {k : ℤ} (hk : 0 ≤ k) (lo hi : ℤ) :
    ∀ (l : List α), l.Pairwise (fun x y => f x + k ≤ f y) → (∀ x ∈ l, lo ≤ f x ∧ f x ≤ hi) →
      l ≠ [] → (l.length - 1) * k ≤ hi - lo
  | [], _, _, hne => absurd rfl hne
  | [x], _, hb, _ => by
      have := hb x (by simp)
      simp only [List.length_singleton, Nat.cast_one, sub_self, zero_mul]
      omega
  | x :: y :: l, hp, hb, _ => by
      rw [List.pairwise_cons] at hp
      have hxy := hp.1 y (by simp)
      have hx := hb x (by simp)
      have ih := length_of_spaced f hk (f y) hi (y :: l) hp.2
        (fun z hz => by
          refine ⟨?_, (hb z (List.mem_cons_of_mem x hz)).2⟩
          rcases List.mem_cons.mp hz with rfl | hz
          · exact le_rfl
          · have := (List.pairwise_cons.mp hp.2).1 z hz
            omega)
        (by simp)
      simp only [List.length_cons, Nat.cast_add, Nat.cast_one] at ih ⊢
      have : ((l.length : ℤ) + 1 + 1 - 1) * k = ((l.length : ℤ) + 1 - 1) * k + k := by ring
      omega

/-- What `add_blank` has been given: room for the window, and a burst of enough outliers
or a prediction made while locked. -/
def Scheduled.Genuine (e : Scheduled) : Prop :=
  e.nblanks < MAX_BLANKS ∧
  match e.origin with
  | .burst count => MIN_OUTLIERS ≤ count ∧ e.window.b - e.window.a ≤ 133
  | .predicted locked => locked = true ∧ e.window.b - e.window.a = 60

/-- The first frame a later cluster can begin at. -/
def frontier (s : Fm) (n : ℤ) : ℤ := if s.isOpen then s.first else n + 1

/-- The pending windows after the frames up to `n` have been tracked. -/
structure Pending (s : Fm) (n : ℤ) : Prop where
  shape : ∀ w ∈ s.blanks, 1 ≤ w.a ∧ w.a ≤ w.b ∧ w.b ≤ w.a + 133
  behind : ∀ w ∈ s.blanks, w.a ≤ s.cLast ∧ w.b ≤ s.cLast + 67
  apart : ∀ w ∈ s.blanks, w.a + 58 ≤ frontier s n ∧ w.b < frontier s n + 6
  order : s.blanks.Pairwise fun v w => v.a + 52 ≤ w.a ∧ v.b < w.b
  live : ∀ w ∈ s.blanks, s.nOut ≤ w.b + 61
  logged : ∀ w ∈ s.blanks, ∃ e ∈ s.scheduled, e.window = w
  genuine : ∀ e ∈ s.scheduled, e.Genuine

/-- Nothing but the frontier moved. -/
theorem Pending.advance {s s' : Fm} {n n' : ℤ} (h : Pending s n) (hb : s'.blanks = s.blanks)
    (hs : s'.scheduled = s.scheduled) (hc : s'.cLast = s.cLast) (ho : s'.nOut = s.nOut)
    (hf : frontier s n ≤ frontier s' n') : Pending s' n' := by
  obtain ⟨shape, behind, apart, order, live, logged, genuine⟩ := h
  refine ⟨?_, ?_, ?_, ?_, ?_, ?_, ?_⟩
  · rwa [hb]
  · rwa [hb, hc]
  · rw [hb]
    intro w hw
    have := apart w hw
    omega
  · rwa [hb]
  · rwa [hb, ho]
  · rwa [hb, hs]
  · rwa [hs]

/-- One window more at the end of the queue. -/
theorem Pending.append {s s' : Fm} {n : ℤ} {w : Blank} {e : Scheduled} (h : Pending s n)
    (hb : s'.blanks = s.blanks ++ [w]) (hs : s'.scheduled = s.scheduled ++ [e])
    (he : e.window = w) (ho : s'.nOut = s.nOut) (hf : frontier s n ≤ frontier s' n)
    (hc : ∀ v ∈ s.blanks, v.a ≤ s'.cLast ∧ v.b ≤ s'.cLast + 67)
    (hshape : 1 ≤ w.a ∧ w.a ≤ w.b ∧ w.b ≤ w.a + 133)
    (hbehind : w.a ≤ s'.cLast ∧ w.b ≤ s'.cLast + 67)
    (hapart : w.a + 58 ≤ frontier s' n ∧ w.b < frontier s' n + 6)
    (horder : ∀ v ∈ s.blanks, v.a + 52 ≤ w.a ∧ v.b < w.b)
    (hlive : s.nOut ≤ w.b + 61) (hgenuine : e.Genuine) : Pending s' n := by
  obtain ⟨shape, behind, apart, order, live, logged, genuine⟩ := h
  refine ⟨?_, ?_, ?_, ?_, ?_, ?_, ?_⟩
  · rw [hb]
    simpa only [List.forall_mem_append, List.forall_mem_singleton] using ⟨shape, hshape⟩
  · rw [hb]
    simpa only [List.forall_mem_append, List.forall_mem_singleton] using ⟨hc, hbehind⟩
  · rw [hb]
    simp only [List.forall_mem_append, List.forall_mem_singleton]
    refine ⟨fun v hv => ?_, hapart⟩
    have := apart v hv
    omega
  · rw [hb, List.pairwise_append]
    refine ⟨order, List.pairwise_singleton _ _, fun v hv x hx => ?_⟩
    rw [List.mem_singleton.mp hx]
    exact horder v hv
  · rw [hb, ho]
    simpa only [List.forall_mem_append, List.forall_mem_singleton] using ⟨live, hlive⟩
  · rw [hb, hs]
    simp only [List.forall_mem_append, List.forall_mem_singleton]
    refine ⟨fun v hv => ?_, e, by simp, he⟩
    obtain ⟨e', he', hw⟩ := logged v hv
    exact ⟨e', List.mem_append_left _ he', hw⟩
  · rw [hs]
    simpa only [List.forall_mem_append, List.forall_mem_singleton] using ⟨genuine, hgenuine⟩

/-- While the output is at most 184 frames behind, few windows are pending. -/
theorem Pending.few {s : Fm} {n : ℤ} (h : Pending s n) (hf : frontier s n ≤ n + 1)
    (hlag : n ≤ s.nOut + 184) : s.blanks.length < MAX_BLANKS := by
  by_cases hne : s.blanks = []
  · simp [hne]
  · have hlen := length_of_spaced Blank.a (k := 52) (by norm_num) (s.nOut - 194) (n - 57)
      s.blanks (h.order.imp fun hvw => hvw.1)
      (fun w hw => by
        have := h.shape w hw
        have := h.apart w hw
        have := h.live w hw
        omega) hne
    simp only [MAX_BLANKS]
    omega

variable {R : Rounding}

theorem noteOutlier_pending {s : Fm} {n : ℤ} {o : Bool} (h : Pending s (n - 1)) :
    Pending (noteOutlier s n o) n := by
  unfold noteOutlier
  cases o with
  | false =>
      refine h.advance rfl rfl rfl rfl ?_
      unfold frontier
      cases ho : s.isOpen <;> simp [ho]
  | true =>
      cases ho : s.isOpen <;> refine h.advance rfl rfl rfl rfl ?_ <;> simp [frontier, ho]

theorem Tracking.frontier_le {s : Fm} {n slack late : ℤ} (h : Tracking R s n slack late) :
    frontier s n ≤ n + 1 := by
  unfold frontier
  split_ifs with ho
  · have := h.cluster ho
    omega
  · exact le_rfl

theorem closeIfDue_pending {s : Fm} {n : ℤ} (ht : Tracking R s n 1 1) (h : Pending s n)
    (hlag : s.nOut = max 0 (n - 184)) : Pending (closeIfDue R s n) n := by
  have hroom := h.few ht.frontier_le (by omega)
  rcases closeIfDue_cases ht hroom with ⟨-, he⟩ | ⟨-, -, he⟩ | ⟨hdue, hacc, l, p, -, he⟩
  · rwa [he]
  · rw [he]
    exact h.advance rfl rfl rfl rfl (by simpa [frontier] using ht.frontier_le)
  · rw [he]
    have ho : s.isOpen = true := (Bool.and_eq_true_iff.mp hdue).1
    have hfront : frontier s n = s.first := if_pos ho
    have hc := ht.cluster ho
    have hmid := centre_between (s := s) (by omega) (by omega)
    have hcount : MIN_OUTLIERS ≤ s.count := not_lt.mp fun few => hacc (Or.inl few)
    rw [closeDue, ho, Bool.true_and, decide_eq_true_eq] at hdue
    simp only [CLUSTER, MAX_BURST, MIN_OUTLIERS] at hc hdue hcount
    refine h.append (w := ⟨s.first - MARGIN, s.last + MARGIN⟩) rfl rfl rfl rfl ?_ ?_ ?_ ?_ ?_ ?_ ?_ ?_
    · change _ ≤ n + 1
      omega
    · intro v hv
      have := h.apart v hv
      change v.a ≤ centre s ∧ v.b ≤ centre s + 67
      omega
    · simp only [MARGIN]
      omega
    · change s.first - MARGIN ≤ centre s ∧ s.last + MARGIN ≤ centre s + 67
      simp only [MARGIN]
      omega
    · change s.first - MARGIN + 58 ≤ n + 1 ∧ s.last + MARGIN < n + 1 + 6
      simp only [MARGIN]
      omega
    · intro v hv
      have := h.apart v hv
      simp only [MARGIN]
      omega
    · simp only [MARGIN]
      omega
    · refine ⟨hroom, hcount, ?_⟩
      simp only [MARGIN]
      omega

theorem predictMissed_pending {s : Fm} {n : ℤ} (ht : Tracking R s n 0 122) (h : Pending s n)
    (hlag : s.nOut = max 0 (n - 184)) : Pending (predictMissed R s n) n := by
  have hroom := h.few ht.frontier_le (by omega)
  rcases predictMissed_cases ht hroom with ⟨-, he⟩ | ⟨⟨hl, ho, hdue⟩, he⟩
  · rwa [he]
  · rw [he]
    have hfront : frontier (missed R s) n = frontier s n := rfl
    have hopen : frontier s n = n + 1 := if_neg (by simp [ho])
    have h8 := ht.centre hl
    have hlate := ht.overdue hl ho
    have hpred := (pred_range R ht.period).1
    simp only [P_MIN, PHASE_TOL] at hpred hdue hlate
    refine h.append (w := ⟨pred R s - PRED_HALF, pred R s + PRED_HALF⟩) rfl rfl rfl rfl ?_ ?_ ?_ ?_ ?_ ?_ ?_ ?_
    · exact hfront.ge
    · intro v hv
      have := h.behind v hv
      change v.a ≤ pred R s ∧ v.b ≤ pred R s + 67
      omega
    · simp only [PRED_HALF]
      omega
    · change pred R s - PRED_HALF ≤ pred R s ∧ pred R s + PRED_HALF ≤ pred R s + 67
      simp only [PRED_HALF]
      omega
    · rw [hfront, hopen]
      simp only [PRED_HALF]
      omega
    · intro v hv
      have := h.behind v hv
      simp only [PRED_HALF]
      omega
    · simp only [PRED_HALF]
      omega
    · refine ⟨hroom, hl, ?_⟩
      simp only [PRED_HALF]
      omega

/-- The fields `track` and the functions below it leave alone. -/
structure SameStream (s s' : Fm) : Prop where
  ring : s'.ring = s.ring
  nIn : s'.nIn = s.nIn
  nOut : s'.nOut = s.nOut
  outlier : s'.outlier = s.outlier
  nCls : s'.nCls = s.nCls

theorem SameStream.trans {s t u : Fm} (h : SameStream s t) (k : SameStream t u) : SameStream s u :=
  ⟨k.ring.trans h.ring, k.nIn.trans h.nIn, k.nOut.trans h.nOut, k.outlier.trans h.outlier,
    k.nCls.trans h.nCls⟩

theorem noteOutlier_stream (s : Fm) (n : ℤ) (o : Bool) : SameStream s (noteOutlier s n o) := by
  unfold noteOutlier
  split_ifs <;> exact ⟨rfl, rfl, rfl, rfl, rfl⟩

theorem closeIfDue_stream (s : Fm) (n : ℤ) : SameStream s (closeIfDue R s n) := by
  unfold closeIfDue closeBurst
  dsimp only
  split_ifs <;> exact ⟨rfl, rfl, rfl, rfl, rfl⟩

theorem predictMissed_stream (s : Fm) (n : ℤ) : SameStream s (predictMissed R s n) := by
  unfold predictMissed
  dsimp only
  split_ifs <;> exact ⟨rfl, rfl, rfl, rfl, rfl⟩

theorem track_stream (s : Fm) (n : ℤ) (o : Bool) : SameStream s (track R s n o) :=
  (noteOutlier_stream s n o).trans ((closeIfDue_stream _ n).trans (predictMissed_stream _ n))

/-- The cluster `track` has after counting frame `n`. -/
theorem noted_sound {s : Fm} {n : ℤ} {o : Bool} (ht : Tracking R s (n - 1) 0 0)
    (h : Pending s (n - 1)) (hn : o = true → 8 ≤ n) (hlag : s.nOut = max 0 (n - 184)) :
    Tracking R (noteOutlier s n o) n 1 1 ∧ Pending (noteOutlier s n o) n ∧
      (noteOutlier s n o).nOut = max 0 (n - 184) := by
  refine ⟨noteOutlier_tracking ht hn, noteOutlier_pending h, ?_⟩
  rwa [(noteOutlier_stream s n o).nOut]

theorem closed_sound {s : Fm} {n : ℤ} (ht : Tracking R s n 1 1) (h : Pending s n)
    (hlag : s.nOut = max 0 (n - 184)) :
    Tracking R (closeIfDue R s n) n 0 122 ∧ Pending (closeIfDue R s n) n ∧
      (closeIfDue R s n).nOut = max 0 (n - 184) := by
  refine ⟨closeIfDue_tracking ht (h.few ht.frontier_le (by omega)), closeIfDue_pending ht h hlag, ?_⟩
  rwa [(closeIfDue_stream s n).nOut]

end Sirius.Fmrepair
