import Mathlib.Algebra.Order.BigOperators.Group.Finset
import Mathlib.Data.Int.Range
import Mathlib.Data.List.DropRight
import Sirius.Fmrepair.DelayLine
import Sirius.Fmrepair.Schedule
import Sirius.Fmrepair.Turn

/-!
# Predicted windows

A prediction is blanked without having been seen. It takes two bursts to make one, and after three that never
showed the tracker gives up until the next two.
-/
namespace Sirius.Fmrepair
open Rounded

/-- The window was a burst that `close_burst` accepted. -/
def Scheduled.isBurst (e : Scheduled) : Bool :=
  match e.origin with
  | .burst _ => true
  | .predicted _ => false

/-- The bursts of a log. -/
def bursts (log : List Scheduled) : ℕ := log.countP Scheduled.isBurst

/-- The predictions at the end of a log. -/
def sinceBurst (log : List Scheduled) : ℕ := (log.rtakeWhile fun e => !e.isBurst).length

/-- No prediction without two bursts before it, and at most three in a row. -/
structure Blind (log : List Scheduled) : Prop where
  announced : ∀ pre e post, log = pre ++ e :: post → e.isBurst = false → 2 ≤ bursts pre
  between : ∀ pre mid post, log = pre ++ mid ++ post → (∀ e ∈ mid, e.isBurst = false) → mid.length ≤ 3

theorem bursts_append (log log' : List Scheduled) : bursts (log ++ log') = bursts log + bursts log' :=
  List.countP_append

theorem sinceBurst_append (log : List Scheduled) (e : Scheduled) :
    sinceBurst (log ++ [e]) = if e.isBurst then 0 else sinceBurst log + 1 := by
  rw [sinceBurst, List.rtakeWhile_concat]
  cases e.isBurst with
  | false => exact List.length_append
  | true => rfl

theorem le_sinceBurst (pre mid : List Scheduled) (h : ∀ e ∈ mid, e.isBurst = false) :
    mid.length ≤ sinceBurst (pre ++ mid) := by
  have hall : mid.reverse.takeWhile (fun e => !e.isBurst) = mid.reverse := by
    rw [List.takeWhile_eq_self_iff]
    intro e he
    rw [h e (List.mem_reverse.mp he), Bool.not_false]
  rw [sinceBurst, List.rtakeWhile, List.reverse_append, List.takeWhile_append, hall, if_pos rfl, List.length_reverse,
    List.length_append, List.length_reverse]
  exact Nat.le_add_right _ _

/-- What a prediction finds when it is added. -/
def Founded (log : List Scheduled) : Prop :=
  ∀ pre e, pre ++ [e] <+: log → e.isBurst = false → 2 ≤ bursts pre ∧ sinceBurst pre < 3

theorem Founded.append {log : List Scheduled} (h : Founded log) {e : Scheduled}
    (he : e.isBurst = false → 2 ≤ bursts log ∧ sinceBurst log < 3) : Founded (log ++ [e]) := by
  intro pre e' hpre
  rcases List.prefix_concat_iff.mp hpre with heq | hpre
  · obtain ⟨rfl, hsame⟩ := List.append_inj' heq rfl
    rw [List.singleton_inj.mp hsame]
    exact he
  · exact h pre e' hpre

theorem Founded.blind {log : List Scheduled} (h : Founded log) : Blind log := by
  constructor
  · rintro pre e post rfl he
    exact (h pre e ⟨post, by rw [List.append_assoc, List.singleton_append]⟩ he).1
  · rintro pre mid post rfl hmid
    rcases mid.eq_nil_or_concat with rfl | ⟨front, e, rfl⟩
    · exact Nat.zero_le 3
    · have hlast := (h (pre ++ front) e ⟨post, by simp⟩ (hmid e (by simp))).2
      have hfront := le_sinceBurst pre front fun e' he' => hmid e' (by simp [he'])
      rw [List.concat_eq_append, List.length_append, List.length_singleton]
      omega

/-- The miss counter is the number of predictions since the last burst, and a lock has two bursts behind it. -/
structure Announced (s : Fm) : Prop where
  founded : Founded s.scheduled
  misses : sinceBurst s.scheduled = s.misses
  locked : s.locked = true → s.misses < 3 ∧ 2 ≤ bursts s.scheduled
  centred : s.cLast ≠ 0 → 1 ≤ bursts s.scheduled

variable {R : Rounding}

theorem Announced.of_same {s t : Fm} (h : Announced s)
    (hsame : t.locked = s.locked ∧ t.cLast = s.cLast ∧ t.misses = s.misses ∧ t.scheduled = s.scheduled) :
    Announced t := by
  obtain ⟨hl, hc, hm, hlog⟩ := hsame
  refine ⟨by rw [hlog]; exact h.founded, by rw [hlog, hm]; exact h.misses, ?_, ?_⟩
  · rw [hl, hm, hlog]
    exact h.locked
  · rw [hc, hlog]
    exact h.centred

theorem Announced.accepted {s : Fm} (h : Announced s) {l : Bool} (p : ℚ)
    (hlock : l = true → s.locked = true ∨ s.cLast ≠ 0) : Announced (accepted s l p) := by
  have hburst : bursts (Fmrepair.accepted s l p).scheduled = bursts s.scheduled + 1 := bursts_append ..
  refine ⟨h.founded.append fun he => (by cases he), sinceBurst_append .., fun hl => ?_, fun _ => ?_⟩
  · refine ⟨Nat.zero_lt_succ 2, ?_⟩
    rw [hburst]
    rcases hlock hl with hlocked | hc
    · have := (h.locked hlocked).2
      omega
    · have := h.centred hc
      omega
  · rw [hburst]
    omega

theorem Announced.missed {s : Fm} (h : Announced s) (hl : s.locked = true) : Announced (missed R s) := by
  obtain ⟨hfew, htwo⟩ := h.locked hl
  have hburst : bursts (Fmrepair.missed R s).scheduled = bursts s.scheduled := bursts_append ..
  refine ⟨h.founded.append fun _ => ⟨htwo, by rw [h.misses]; exact hfew⟩, ?_, fun hl' => ?_, fun _ => ?_⟩
  · change sinceBurst (s.scheduled ++ [_]) = s.misses + 1
    rw [sinceBurst_append, h.misses]
    rfl
  · rw [hburst]
    refine ⟨?_, htwo⟩
    change s.misses + 1 < 3
    by_contra hmany
    change (if s.misses + 1 ≥ 3 then false else s.locked) = true at hl'
    rw [if_pos (by omega)] at hl'
    exact Bool.false_ne_true hl'
  · rw [hburst]
    omega

theorem Announced.turn {s t u : Fm} (h : Announced s) (hturn : Turn R s t u) : Announced u := by
  have hnoted := h.of_same (noted_fields s)
  have hclosed : Announced t := by
    cases hturn.closed with
    | idle => exact hnoted
    | rejected => exact hnoted.of_same ⟨rfl, rfl, rfl, rfl⟩
    | accepted l p _ _ hlock => exact hnoted.accepted p hlock
  cases hturn.predicted with
  | idle => exact hclosed
  | missed hdue => exact hclosed.missed hdue.1

theorem reached_announced {fm s : Fm} {p : Point} {xs : List Frame} (h : Reached R fm p s xs) : Announced s := by
  induction h with
  | init => exact ⟨fun pre e hpre => absurd (List.prefix_nil.mp hpre) (by simp), rfl, fun hl => by simp [fmInit] at hl,
      fun hc => absurd rfl hc⟩
  | receive f _ ih => exact ih.of_same ⟨rfl, rfl, rfl, rfl⟩
  | classify hs hr ih =>
      obtain ⟨t, u, hturn⟩ := classifyNext_turn (reached_inv hs) hr
      rw [hturn.next]
      exact (ih.turn hturn).of_same ⟨rfl, rfl, rfl, rfl⟩
  | leave _ _ ih => exact ih
  | deliver _ ih => exact ih.of_same (deliver_fields _)

/-- As `Pending` has it of the windows in the queue, of all windows there have been. -/
structure Rising (s : Fm) (n : ℤ) : Prop where
  behind : ∀ e ∈ s.scheduled, e.window.b ≤ s.cLast + 67
  before : ∀ e ∈ s.scheduled, e.window.b < frontier s n + 6
  rising : s.scheduled.Pairwise fun v w => v.window.b < w.window.b

theorem Rising.advance {s t : Fm} {n n' : ℤ} (h : Rising s n) (hc : t.cLast = s.cLast)
    (hlog : t.scheduled = s.scheduled) (hf : frontier s n ≤ frontier t n') : Rising t n' := by
  refine ⟨?_, ?_, ?_⟩
  · rw [hlog, hc]
    exact h.behind
  · rw [hlog]
    intro e he
    have := h.before e he
    omega
  · rw [hlog]
    exact h.rising

theorem Rising.append {s t : Fm} {n : ℤ} {e : Scheduled} (h : Rising s n) (hlog : t.scheduled = s.scheduled ++ [e])
    (hf : frontier s n ≤ frontier t n) (hlast : ∀ v ∈ s.scheduled, v.window.b < e.window.b)
    (hbehind : e.window.b ≤ t.cLast + 67) (hbefore : e.window.b < frontier t n + 6) : Rising t n := by
  refine ⟨?_, ?_, ?_⟩
  · rw [hlog, List.forall_mem_append, List.forall_mem_singleton]
    refine ⟨fun v hv => ?_, hbehind⟩
    have := hlast v hv
    omega
  · rw [hlog, List.forall_mem_append, List.forall_mem_singleton]
    refine ⟨fun v hv => ?_, hbefore⟩
    have := h.before v hv
    omega
  · rw [hlog, List.pairwise_append]
    exact ⟨h.rising, List.pairwise_singleton _ _, fun v hv w hw => by rw [List.mem_singleton.mp hw]; exact hlast v hv⟩

theorem frontier_noted (s : Fm) : frontier s (s.nCls - 1) ≤ frontier (noted s) s.nCls := by
  unfold frontier noted noteOutlier
  cases s.isOpen <;> cases nextFlag s <;> simp

theorem Rising.turn {s t u : Fm} (h : Rising s (s.nCls - 1)) (hturn : Turn R s t u) : Rising u s.nCls := by
  obtain ⟨-, hc, -, hlog⟩ := noted_fields s
  have hnoted : Rising (noted s) s.nCls := h.advance hc hlog (frontier_noted s)
  have hclosed : Rising t s.nCls := by
    cases hturn.closed with
    | idle => exact hnoted
    | rejected => exact hnoted.advance rfl rfl (by simpa [frontier] using hturn.noted.frontier_le)
    | accepted l p hdue =>
        have ho : (noted s).isOpen = true := (Bool.and_eq_true_iff.mp hdue).1
        have hfront : frontier (noted s) s.nCls = (noted s).first := if_pos ho
        have hcluster := hturn.noted.cluster ho
        have hmid := centre_between (s := noted s) (by omega) (by omega)
        simp only [MAX_BURST] at hcluster
        refine hnoted.append rfl ?_ (fun v hv => ?_) ?_ ?_
        · change _ ≤ s.nCls + 1
          omega
        · have := hnoted.before v hv
          simp only [MARGIN]
          omega
        · change (noted s).last + MARGIN ≤ centre (noted s) + 67
          simp only [MARGIN]
          omega
        · change (noted s).last + MARGIN < s.nCls + 1 + 6
          simp only [MARGIN]
          omega
  cases hturn.predicted with
  | idle => exact hclosed
  | missed hdue =>
      have hpred := (pred_range R hturn.tracked.period).1
      have hgone := hdue.2.2
      simp only [P_MIN, PHASE_TOL] at hpred hgone
      refine hclosed.append rfl le_rfl (fun v hv => ?_) ?_ ?_
      · have := hclosed.behind v hv
        simp only [PRED_HALF]
        omega
      · change pred R t + PRED_HALF ≤ pred R t + 67
        simp only [PRED_HALF]
        omega
      · change pred R t + PRED_HALF < frontier t s.nCls + 6
        rw [frontier, if_neg (by simp [hdue.2.1])]
        simp only [PRED_HALF]
        omega

theorem reached_rising {fm s : Fm} {p : Point} {xs : List Frame} (h : Reached R fm p s xs) :
    Rising s (s.nCls - 1) := by
  induction h with
  | init => constructor <;> simp [fmInit]
  | receive f _ ih => exact ih.advance rfl rfl le_rfl
  | @classify s xs hs hr ih =>
      obtain ⟨t, u, hturn⟩ := classifyNext_turn (reached_inv hs) hr
      have hcls : (classifyNext R s).nCls - 1 = s.nCls := by
        rw [(classifyNext_stream s).2.2.2]
        omega
      rw [hcls, hturn.next]
      exact (ih.turn hturn).advance rfl rfl le_rfl
  | leave _ _ ih => exact ih
  | @deliver s xs _ ih =>
      have hsame : (deliver R s).1.nCls = s.nCls ∧ (deliver R s).1.isOpen = s.isOpen ∧
          (deliver R s).1.first = s.first := by
        unfold deliver
        split_ifs <;> exact ⟨rfl, rfl, rfl⟩
      obtain ⟨-, hc, -, hlog⟩ := deliver_fields (R := R) s
      refine ih.advance hc hlog ?_
      rw [frontier, frontier, hsame.1, hsame.2.1, hsame.2.2]

/-- What has been scheduled behind `log` where no outlier came since frame `n`: a cluster that was open closes
once, then there are only predictions. -/
structure After (log : List Scheduled) (n : ℤ) (s : Fm) : Prop where
  later : n ≤ s.nCls
  start : s.nCls = n → s.scheduled = log
  tail : ∃ extra, s.scheduled = log ++ extra ∧ (s.isOpen = true → extra = []) ∧ ∀ e ∈ extra.tail, e.isBurst = false

theorem After.of_same {log : List Scheduled} {n : ℤ} {s t : Fm} (h : After log n s)
    (hsame : t.nCls = s.nCls ∧ t.isOpen = s.isOpen ∧ t.scheduled = s.scheduled) : After log n t := by
  obtain ⟨hcls, ho, hlog⟩ := hsame
  exact ⟨by rw [hcls]; exact h.later, by rw [hcls, hlog]; exact h.start, by rw [ho, hlog]; exact h.tail⟩

theorem accepted_scheduled (s : Fm) (l : Bool) (p : ℚ) : ∃ e, (accepted s l p).scheduled = s.scheduled ++ [e] :=
  ⟨_, rfl⟩

theorem missed_scheduled (s : Fm) : ∃ e, e.isBurst = false ∧ (missed R s).scheduled = s.scheduled ++ [e] :=
  ⟨_, rfl, rfl⟩

theorem After.turn {log : List Scheduled} {n : ℤ} {s t u : Fm} (h : After log n s)
    (hquiet : n < s.nCls → nextFlag s = false) (hturn : Turn R s t u) :
    After log n { u with nCls := u.nCls + 1 } := by
  have hcls := hturn.same
  have hlater := h.later
  -- the cluster that is open after the frame was open before it, or nothing has been scheduled
  have hnoted : ∃ extra, (noted s).scheduled = log ++ extra ∧ ((noted s).isOpen = true → extra = []) ∧
      ∀ e ∈ extra.tail, e.isBurst = false := by
    rw [(noted_fields s).2.2.2]
    rcases hlater.eq_or_lt with heq | hlt
    · exact ⟨[], by rw [List.append_nil]; exact h.start heq.symm, fun _ => rfl, fun e he => absurd he List.not_mem_nil⟩
    · rw [noted, noteOutlier, hquiet hlt]
      exact h.tail
  have hclosed : ∃ extra, t.scheduled = log ++ extra ∧ (t.isOpen = true → extra = []) ∧
      ∀ e ∈ extra.tail, e.isBurst = false := by
    obtain ⟨extra, hlog, hopen, htail⟩ := hnoted
    cases hturn.closed with
    | idle => exact ⟨extra, hlog, hopen, htail⟩
    | rejected => exact ⟨extra, hlog, fun hc => absurd hc Bool.false_ne_true, htail⟩
    | accepted l p hdue =>
        obtain ⟨e, he⟩ := accepted_scheduled (noted s) l p
        rw [hlog, hopen (Bool.and_eq_true_iff.mp hdue).1, List.append_nil] at he
        exact ⟨[e], he, fun hc => absurd hc Bool.false_ne_true, fun e he => absurd he List.not_mem_nil⟩
  refine ⟨?_, fun hstart => ?_, ?_⟩
  · change n ≤ u.nCls + 1
    omega
  · change u.nCls + 1 = n at hstart
    omega
  · obtain ⟨extra, hlog, hopen, htail⟩ := hclosed
    cases hturn.predicted with
    | idle => exact ⟨extra, hlog, hopen, htail⟩
    | missed hdue =>
        obtain ⟨e, hpredicted, he⟩ := missed_scheduled (R := R) t
        rw [hlog, List.append_assoc] at he
        refine ⟨extra ++ [e], he, fun hc => absurd (hdue.2.1.symm.trans hc) Bool.false_ne_true, ?_⟩
        cases extra with
        | nil => exact fun e he => absurd he List.not_mem_nil
        | cons e' extra =>
            rw [List.cons_append, List.tail_cons, List.forall_mem_append, List.forall_mem_singleton]
            exact ⟨htail, hpredicted⟩

/-- No outlier behind frame `n` among those that are classified. -/
def QuietAfter (zs : List Frame) (n : ℤ) : Prop :=
  ∀ k : ℕ, n < k → k + 8 < zs.length → outlierAt zs k = false

theorem classifyPending_after {fm s : Fm} {log : List Scheduled} {n : ℤ} {xs ys : List Frame} (k : ℕ)
    (hquiet : QuietAfter (xs ++ ys) n) (hs : Reached R fm .loop s xs) (h : After log n s) :
    After log n (classifyPending R k s) := by
  induction k generalizing s with
  | zero => exact h
  | succ k ih =>
      rw [classifyPending]
      split_ifs with hr
      · obtain ⟨t, u, hturn⟩ := classifyNext_turn (reached_inv hs) hr
        obtain ⟨h0, hlast, -⟩ := (reached_inv hs).ready hr
        have hin := (reached_inv hs).counters.received
        refine ih (hs.classify hr) ?_
        rw [hturn.next]
        refine h.turn (fun hlt => ?_) hturn
        simp only [HALF, WIN] at hlast
        have hsame : outlierAt (xs ++ ys) s.nCls.toNat = outlierAt xs s.nCls.toNat :=
          outlierAt_append (by simp only [HALF, WIN]; omega)
        rw [(reached_inv hs).nextFlag hr, ← hsame]
        exact hquiet _ (by omega) (by rw [List.length_append]; omega)
      · exact h

theorem fmTransfer_after {fm s : Fm} {log : List Scheduled} {n : ℤ} {xs ys : List Frame}
    (hquiet : QuietAfter (xs ++ ys) n) (hs : Reached R fm .top s xs) (h : After log n s) :
    After log n (fmTransfer R s ys).1 := by
  induction ys generalizing s xs with
  | nil => exact h
  | cons f ys ih =>
      have hwhole : xs ++ f :: ys = (xs ++ [f]) ++ ys := by simp
      rw [hwhole] at hquiet
      have hpending := classifyPending_after ((receive s f).nIn - (receive s f).nCls).toNat hquiet (hs.receive f)
        (h.of_same ⟨rfl, rfl, rfl⟩)
      refine ih hquiet (transferFrame_reached hs f) (hpending.of_same ?_)
      unfold transferFrame deliver
      dsimp only
      split_ifs <;> exact ⟨rfl, rfl, rfl⟩

/-- The frames of the predicted windows of a log. -/
def blindFrames (log : List Scheduled) : Finset ℤ :=
  (log.filter fun e => !e.isBurst).toFinset.biUnion fun e => (Int.range e.window.a (e.window.b + 1)).toFinset

/-- Of the predictions behind the last outlier the first ones follow no burst of theirs, or one. -/
theorem After.few {log extra : List Scheduled} (hblind : Blind (log ++ extra))
    (htail : ∀ e ∈ extra.tail, e.isBurst = false) : (extra.filter fun e => !e.isBurst).length ≤ 3 := by
  cases extra with
  | nil => exact Nat.zero_le 3
  | cons e extra =>
      cases he : e.isBurst with
      | true =>
          rw [List.filter_cons, he, Bool.not_true, if_neg Bool.false_ne_true]
          exact (List.length_filter_le _ _).trans (hblind.between (log ++ [e]) extra [] (by simp) htail)
      | false =>
          refine (List.length_filter_le _ _).trans (hblind.between log (e :: extra) [] (by simp) ?_)
          exact List.forall_mem_cons.mpr ⟨he, htail⟩

theorem card_blindFrames {extra : List Scheduled} (hgenuine : ∀ e ∈ extra, e.Genuine)
    (hfew : (extra.filter fun e => !e.isBurst).length ≤ 3) : (blindFrames extra).card ≤ 183 := by
  have hcard : ∀ e ∈ (extra.filter fun e => !e.isBurst).toFinset,
      (Int.range e.window.a (e.window.b + 1)).toFinset.card ≤ 61 := by
    intro e he
    obtain ⟨hmem, hburst⟩ := List.mem_filter.mp (List.mem_toFinset.mp he)
    have hlength : e.window.b - e.window.a = 60 := by
      have hshape := (hgenuine e hmem).2
      unfold Scheduled.isBurst at hburst
      cases horigin : e.origin with
      | burst count => simp [horigin] at hburst
      | predicted locked =>
          rw [horigin] at hshape
          exact hshape.2
    refine (List.toFinset_card_le _).trans ?_
    rw [Int.range, List.length_map, List.length_range]
    omega
  have hunion := Finset.card_biUnion_le_card_mul _ _ 61 hcard
  have htoFinset := (extra.filter fun e => !e.isBurst).toFinset_card_le
  unfold blindFrames
  omega

/-- Behind the last of the predicted windows nothing is blanked. -/
theorem After.beyond {log extra : List Scheduled} {m : ℤ}
    (hrising : (log ++ extra).Pairwise fun v w => v.window.b < w.window.b)
    (htail : ∀ e ∈ extra.tail, e.isBurst = false) (hsome : ∃ e ∈ extra, e.isBurst = false)
    (hm : ∀ e ∈ extra, e.isBurst = false → e.window.b < m) : ¬Blanked (log ++ extra) m := by
  obtain ⟨e, he, hburst⟩ := hsome
  rcases extra.eq_nil_or_concat with rfl | ⟨front, last, rfl⟩
  · exact absurd he List.not_mem_nil
  rw [List.concat_eq_append] at *
  -- the last window of all is a predicted one
  have hlast : last.isBurst = false := by
    cases front with
    | nil => rwa [← List.mem_singleton.mp he]
    | cons e' front => exact htail last (by simp)
  have hend := hm last (by simp) hlast
  rw [← List.append_assoc, List.pairwise_append] at hrising
  rintro ⟨v, hv, -, hvb⟩
  rw [← List.append_assoc, List.mem_append, List.mem_singleton] at hv
  rcases hv with hv | rfl
  · have := hrising.2.2 v hv last (List.mem_singleton_self _)
    omega
  · omega

/-- Repairs that nothing was seen of are few, and there are none for long behind the last outlier. -/
theorem fmrepair_blind (R : Rounding) (fm : Fm) :
    (∀ p s xs, Reached R fm p s xs → Blind s.scheduled) ∧
      ∀ xs ys, QuietAfter (xs ++ ys) (xs.length - 8) →
        ∃ extra, (fmTransfer R (fmInit fm) (xs ++ ys)).1.scheduled =
            (fmTransfer R (fmInit fm) xs).1.scheduled ++ extra ∧
          (extra.filter fun e => !e.isBurst).length ≤ 3 ∧ (blindFrames extra).card ≤ 183 ∧
          ∀ k out, (fmTransfer R (fmInit fm) (xs ++ ys)).2[k]? = some out → DELAY.toNat ≤ k →
            (∃ e ∈ extra, e.isBurst = false) →
            (∀ e ∈ extra, e.isBurst = false → e.window.b < k - DELAY) → (xs ++ ys)[k - DELAY.toNat]? = some out := by
  refine ⟨fun p s xs h => (reached_announced h).founded.blind, fun xs ys hquiet => ?_⟩
  have htop : Reached R fm .top (fmTransfer R (fmInit fm) xs).1 xs := fmTransfer_reached .init xs
  have hend : Reached R fm .top (fmTransfer R (fmInit fm) (xs ++ ys)).1 (xs ++ ys) := fmTransfer_reached .init _
  have hafter : After (fmTransfer R (fmInit fm) xs).1.scheduled (fmTransfer R (fmInit fm) xs).1.nCls
      (fmTransfer R (fmInit fm) xs).1 :=
    ⟨le_rfl, fun _ => rfl, [], (List.append_nil _).symm, fun _ => rfl, fun e he => absurd he List.not_mem_nil⟩
  have hbehind : QuietAfter (xs ++ ys) (fmTransfer R (fmInit fm) xs).1.nCls := by
    intro k hk hlen
    have hcls := (reached_inv htop).counters.behind
    have hin := (reached_inv htop).counters.received
    simp only [clsLag, HALF, WIN] at hcls
    exact hquiet k (by omega) hlen
  obtain ⟨extra, hlog, -, htail⟩ := (fmTransfer_after hbehind htop hafter).tail
  have hstate : (fmTransfer R (fmTransfer R (fmInit fm) xs).1 ys).1 = (fmTransfer R (fmInit fm) (xs ++ ys)).1 := by
    rw [fmTransfer_append]
  rw [hstate] at hlog
  have hblind := (reached_announced hend).founded.blind
  have hrising := (reached_rising hend).rising
  have hgenuine := (reached_inv hend).pending.genuine
  rw [hlog] at hblind hrising hgenuine
  have hfew := After.few hblind htail
  refine ⟨extra, hlog, hfew, card_blindFrames (fun e he => hgenuine e (List.mem_append_right _ he)) hfew, ?_⟩
  intro k out hk hdelay hsome hm
  have hinit : Reached R fm .top (fmInit fm) [] := .init
  have hout := fmTransfer_delayed hinit (xs ++ ys) hk
  rw [List.nil_append, List.length_nil, Nat.zero_add] at hout
  rcases hout.2 hdelay with hsame | hblanked
  · exact hsame
  · rw [hlog] at hblanked
    exact absurd hblanked (After.beyond hrising htail hsome hm)

/-- Two bursts, a lone outlier, and then silence for three periods. -/
theorem fmrepair_blind_impulses :
    Blind (fmTransfer .exact (fmInit fmCalloc) (impulseStream 6000)).1.scheduled ∧
      ∃ extra, (fmTransfer .exact (fmInit fmCalloc)
          ((impulseStream 6000).take 2566 ++ (impulseStream 6000).drop 2566)).1.scheduled =
            (fmTransfer .exact (fmInit fmCalloc) ((impulseStream 6000).take 2566)).1.scheduled ++ extra ∧
        (extra.filter fun e => !e.isBurst).length ≤ 3 := by
  have hquiet : QuietAfter ((impulseStream 6000).take 2566 ++ (impulseStream 6000).drop 2566)
      (((impulseStream 6000).take 2566).length - 8) := by
    intro k hk hlen
    rw [List.take_append_drop, impulseStream_length] at hlen
    rw [List.length_take, impulseStream_length] at hk
    rw [List.take_append_drop, outlierAt_impulseStream (by simp only [HALF, WIN]; omega), decide_eq_false_iff_not]
    simp only [impulses, List.mem_cons, List.not_mem_nil, or_false]
    omega
  have h := fmrepair_blind .exact fmCalloc
  obtain ⟨extra, hlog, hfew, -⟩ := h.2 _ _ hquiet
  exact ⟨h.1 .top _ _ (fmTransfer_reached .init _), extra, hlog, hfew⟩

end Sirius.Fmrepair
