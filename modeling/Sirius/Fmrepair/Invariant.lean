import Mathlib.Data.Int.Order.Basic
import Mathlib.Tactic.Linarith
import Sirius.Fmrepair.Model

/-!
# The joint invariant of the repair plugin

`Reached` follows control through the outer loop of `fm_transfer` one function at
a time. The invariant relates the three frame counters, the cluster under
construction, the tracker and the pending windows at each of its points.
-/
namespace Sirius.Fmrepair
open Rounded RingBuffer

/-- Where control stands in the outer loop of `fm_transfer`. -/
inductive Point
  | top
  | loop
  | emit
  deriving DecidableEq

/-- The states control passes through, with the frames received so far. -/
inductive Reached (R : Rounding) (fm : Fm) : Point → Fm → List Frame → Prop
  | init : Reached R fm .top (fmInit fm) []
  | receive {s xs} (f : Frame) : Reached R fm .top s xs → Reached R fm .loop (receive s f) (xs ++ [f])
  | classify {s xs} : Reached R fm .loop s xs → classifyReady s = true →
      Reached R fm .loop (classifyNext R s) xs
  | leave {s xs} : Reached R fm .loop s xs → classifyReady s = false → Reached R fm .emit s xs
  | deliver {s xs} : Reached R fm .emit s xs → Reached R fm .top (deliver R s).1 xs

section
variable (R : Rounding)

def PeriodRange (p : ℚ) : Prop := (P_MIN : ℚ) ≤ p ∧ p ≤ (P_MAX : ℚ)

/-- A rounded distance strictly between the period bounds is the distance itself. -/
theorem fl_distance {k : ℤ} (hlo : (P_MIN : ℚ) < R.fl k) (hhi : R.fl k < (P_MAX : ℚ)) :
    P_MIN < k ∧ k < P_MAX ∧ R.fl k = k := by
  have lo : P_MIN < k := by exact_mod_cast lt_of_lt_fl R (by simp) hlo
  have hi : k < P_MAX := by exact_mod_cast lt_of_fl_lt R (by simp) hhi
  refine ⟨lo, hi, fl_int R ?_⟩
  simp only [P_MIN, P_MAX] at lo hi
  rw [abs_le]
  omega

theorem gain_range {g : ℚ} (h0 : 0 ≤ g) (h1 : g ≤ 1 / 4) : 0 ≤ R.fl g ∧ R.fl g ≤ 1 / 4 := by
  have lo := R.mono h0
  have hi := R.mono h1
  rw [fl_zero] at lo
  have quarter := R.quarter 1 (by norm_num)
  norm_num at quarter
  rw [quarter] at hi
  exact ⟨lo, hi⟩

theorem pull_range {g p : ℚ} {k : ℤ} (h0 : 0 ≤ g) (h1 : g ≤ 1 / 4) (hp : PeriodRange p)
    (hlo : P_MIN < k) (hhi : k < P_MAX) : PeriodRange (pull R g k p) := by
  have hg := gain_range R h0 h1
  have lo : ((P_MIN + 1 : ℤ) : ℚ) ≤ k := by exact_mod_cast hlo
  have hi : ((k + 1 : ℤ) : ℚ) ≤ (P_MAX : ℚ) := by exact_mod_cast hhi
  simp only [PeriodRange, P_MIN, P_MAX] at hp lo hi ⊢
  push_cast at hp lo hi
  have hb := pull_between R hg.1 hg.2 (p := p) (d := k)
    (abs_le.mpr ⟨by linarith, by linarith⟩) (abs_le.mpr ⟨by linarith, by linarith⟩)
  apply fl_between R (by norm_num) (by norm_num)
  · exact le_trans (le_min (by push_cast; linarith) (by push_cast; linarith)) hb.1
  · exact le_trans hb.2 (max_le (by push_cast; linarith) (by push_cast; linarith))

theorem onPhasePeriod_range {p : ℚ} {k : ℤ} (hp : PeriodRange p) :
    PeriodRange (onPhasePeriod R (R.fl k) p) := by
  unfold onPhasePeriod
  split_ifs with h
  · obtain ⟨lo, hi, same⟩ := fl_distance R h.1 h.2
    rw [same]
    exact pull_range R (by norm_num) (by norm_num) hp lo hi
  · exact hp

/-- A burst at most one and a half shortest periods late never takes the branch that
divides by the number of periods. -/
theorem offPhasePeriod_range {p : ℚ} {k : ℤ} (hp : PeriodRange p) (hk : k ≤ 1575) :
    PeriodRange (offPhasePeriod R (R.fl k) p) := by
  have near : ¬ R.fl k > 3 / 2 * (P_MIN : ℚ) := by
    have := R.mono (show (k : ℚ) ≤ ((1575 : ℤ) : ℚ) by exact_mod_cast hk)
    rw [fl_int R (k := 1575) (by norm_num)] at this
    simp only [P_MIN]
    push_cast at this ⊢
    linarith
  have same : offPhasePeriod R (R.fl k) p = onPhasePeriod R (R.fl k) p := by
    unfold offPhasePeriod onPhasePeriod
    rw [if_neg near]
  rw [same]
  exact onPhasePeriod_range R hp

/-- A prediction lies one period after the last centre. -/
theorem pred_range {s : Fm} (hp : PeriodRange s.period) :
    s.cLast + P_MIN ≤ pred R s ∧ pred R s ≤ s.cLast + P_MAX := by
  have h := truncate_fl_half R (a := P_MIN) (b := P_MAX) (by simp) (by simp) (by simp) hp.1 hp.2
  unfold pred
  omega

/-- The cluster and the tracker after the frames up to `n`. A cluster may be one frame
past its limits before it is closed (`slack`), and a prediction may be overdue by
`late` frames before it is acted on. -/
structure Tracking (s : Fm) (n slack late : ℤ) : Prop where
  period : PeriodRange s.period
  cluster : s.isOpen = true → 8 ≤ s.first ∧ s.first ≤ s.last ∧ s.last ≤ n ∧
    n ≤ s.last + CLUSTER + slack ∧ n ≤ s.first + MAX_BURST + slack ∧
    1 ≤ s.count ∧ s.count ≤ s.last - s.first + 1
  centre : s.locked = true → 8 ≤ s.cLast
  overdue : s.locked = true → s.isOpen = false → n ≤ pred R s + PHASE_TOL + late
  opened : s.locked = true → s.isOpen = true → s.first ≤ pred R s + PHASE_TOL + 1

variable {R}

theorem noteOutlier_tracking {s : Fm} {n : ℤ} {o : Bool} (h : Tracking R s (n - 1) 0 0)
    (hn : o = true → 8 ≤ n) : Tracking R (noteOutlier s n o) n 1 1 := by
  obtain ⟨period, cluster, centre, overdue, opened⟩ := h
  unfold noteOutlier
  cases o with
  | false =>
      simp only [Bool.false_eq_true, if_false]
      refine ⟨period, fun ho => ?_, centre, fun hl ho => ?_, opened⟩
      · have := cluster ho
        omega
      · have := overdue hl ho
        omega
  | true =>
      have hn := hn rfl
      simp only [if_true]
      split_ifs with ho
      · refine ⟨period, fun _ => ?_, centre, fun hl hc => ?_, fun hl _ => opened hl ho⟩
        · have := cluster ho
          simp only [CLUSTER, MAX_BURST] at this ⊢
          omega
        · exact absurd (ho.symm.trans hc) (by decide)
      · refine ⟨period, fun _ => ?_, centre, fun hl hc => by simp at hc, fun hl _ => ?_⟩
        · simp only [CLUSTER, MAX_BURST]
          omega
        · have := overdue hl (by simpa using ho)
          change n ≤ pred R s + PHASE_TOL + 1
          omega

/-- `close_burst` refuses a burst only while locked, off phase and below `STRONG`. -/
def Refused (R : Rounding) (s : Fm) : Prop :=
  s.locked = true ∧ offPhase R s = true ∧ s.count < STRONG

/-- What `close_burst` can do: refuse the burst, or accept it under some period in
range and possibly a new lock. -/
theorem closeBurst_cases {s : Fm} (hp : PeriodRange s.period)
    (hd : s.locked = true → centre s ≤ s.cLast + 1575) :
    (Refused R s ∧ closeBurst R s = { s with isOpen := false }) ∨
    (¬ Refused R s ∧ ∃ l p, PeriodRange p ∧
      closeBurst R s = acceptBurst { s with isOpen := false, locked := l, period := p }) := by
  unfold closeBurst
  dsimp only
  cases hl : s.locked with
  | true =>
      have hd := hd hl
      simp only [if_true]
      change (_ ∧ (if offPhase R s then _ else _) = _) ∨ (_ ∧ ∃ l p, _ ∧ (if offPhase R s then _ else _) = _)
      cases ho : offPhase R s with
      | true =>
          simp only [if_true]
          split_ifs with hc
          · refine Or.inr ⟨fun h => absurd h.2.2 (by omega), true, _, offPhasePeriod_range R hp ?_,
              by rw [← hl]⟩
            change centre s - s.cLast ≤ 1575
            omega
          · exact Or.inl ⟨⟨hl, ho, by omega⟩, by rw [← hl]⟩
      | false =>
          simp only [Bool.false_eq_true, if_false]
          exact Or.inr ⟨fun h => absurd h.2.1 (by simp [ho]), true, _, onPhasePeriod_range R hp,
            by rw [← hl]⟩
  | false =>
      have hr : ¬ Refused R s := fun h => absurd h.1 (by simp [hl])
      simp only [Bool.false_eq_true, if_false]
      split_ifs with h
      · exact Or.inr ⟨hr, true, _, ⟨h.2.1.le, h.2.2.le⟩, rfl⟩
      · exact Or.inr ⟨hr, false, s.period, hp, by rw [← hl]⟩

theorem centre_between {s : Fm} (h0 : 0 ≤ s.first) (h : s.first ≤ s.last) :
    s.first ≤ centre s ∧ centre s ≤ s.last ∧ s.first + s.last ≤ 2 * centre s + 1 := by
  unfold centre
  rw [Int.tdiv_eq_ediv_of_nonneg (by omega)]
  omega

theorem addBlank_eq {s : Fm} {a b : ℤ} {o : Origin} (ha : 1 ≤ a) (hn : s.blanks.length < MAX_BLANKS) :
    addBlank s a b o = { s with
      blanks := s.blanks ++ [⟨a, b⟩]
      scheduled := s.scheduled ++ [⟨⟨a, b⟩, s.nOut, s.blanks.length, o⟩] } := by
  unfold addBlank
  rw [if_neg (by omega), if_neg (by omega)]

/-- The state `close_burst` leaves after accepting the cluster of `s`. -/
def accepted (s : Fm) (l : Bool) (p : ℚ) : Fm :=
  { s with
    isOpen := false
    locked := l
    period := p
    cLast := centre s
    misses := 0
    blanks := s.blanks ++ [⟨s.first - MARGIN, s.last + MARGIN⟩]
    scheduled := s.scheduled ++
      [⟨⟨s.first - MARGIN, s.last + MARGIN⟩, s.nOut, s.blanks.length, .burst s.count⟩] }

theorem acceptBurst_eq {s : Fm} {l : Bool} {p : ℚ} (hf : 8 ≤ s.first)
    (hn : s.blanks.length < MAX_BLANKS) :
    acceptBurst { s with isOpen := false, locked := l, period := p } = accepted s l p := by
  have ha : 1 ≤ s.first - MARGIN := by
    simp only [MARGIN]
    omega
  exact addBlank_eq (s := { s with isOpen := false, locked := l, period := p, cLast := centre s, misses := 0 }) ha hn

/-- The cluster of `s` is closed without a window: too few outliers, or refused. -/
def Rejected (R : Rounding) (s : Fm) : Prop := s.count < MIN_OUTLIERS ∨ Refused R s

/-- While locked a cluster begins soon after its prediction and is short, so its centre is at most one and a half
shortest periods after the last one. -/
theorem centre_near {s : Fm} {n late : ℤ} (h : Tracking R s n 1 late) (ho : s.isOpen = true)
    (hl : s.locked = true) : centre s ≤ s.cLast + 1575 := by
  have hc := h.cluster ho
  have hopened := h.opened hl ho
  have hpred := (pred_range R h.period).2
  have hmid := centre_between (s := s) (by omega) (by omega)
  simp only [MAX_BURST, P_MAX, PHASE_TOL] at hc hopened hpred
  omega

/-- What closing can do after frame `n`: nothing, drop the cluster, or accept it. -/
theorem closeIfDue_cases {s : Fm} {n late : ℤ} (h : Tracking R s n 1 late)
    (hn : s.blanks.length < MAX_BLANKS) :
    (closeDue s n = false ∧ closeIfDue R s n = s) ∨
    (closeDue s n = true ∧ Rejected R s ∧ closeIfDue R s n = { s with isOpen := false }) ∨
    (closeDue s n = true ∧ ¬ Rejected R s ∧ ∃ l p, PeriodRange p ∧ closeIfDue R s n = accepted s l p) := by
  unfold closeIfDue
  cases hdue : closeDue s n with
  | false => exact Or.inl ⟨rfl, rfl⟩
  | true =>
      have ho : s.isOpen = true := (Bool.and_eq_true_iff.mp hdue).1
      have hc := h.cluster ho
      refine Or.inr ?_
      rw [if_pos rfl]
      split_ifs with hcount
      · rcases closeBurst_cases (R := R) h.period (centre_near h ho) with ⟨hr, he⟩ | ⟨hr, l, p, hp, he⟩
        · exact Or.inl ⟨rfl, Or.inr hr, he⟩
        · refine Or.inr ⟨rfl, ?_, l, p, hp, ?_⟩
          · rintro (few | refused)
            · omega
            · exact hr refused
          · rw [he, acceptBurst_eq (by omega) hn]
      · exact Or.inl ⟨rfl, Or.inl (by omega), rfl⟩

theorem closeIfDue_tracking {s : Fm} {n : ℤ} (h : Tracking R s n 1 1)
    (hn : s.blanks.length < MAX_BLANKS) : Tracking R (closeIfDue R s n) n 0 122 := by
  have hcases := closeIfDue_cases h hn
  obtain ⟨period, cluster, centre', overdue, opened⟩ := h
  rcases hcases with ⟨hdue, he⟩ | ⟨hdue, -, he⟩ | ⟨hdue, -, l, p, hp, he⟩
  · rw [he]
    refine ⟨period, fun ho => ?_, centre', fun hl ho => ?_, opened⟩
    · have := cluster ho
      rw [closeDue, ho, Bool.true_and, decide_eq_false_iff_not] at hdue
      simp only [CLUSTER, MAX_BURST] at *
      omega
    · have := overdue hl ho
      omega
  · rw [he]
    have ho : s.isOpen = true := (Bool.and_eq_true_iff.mp hdue).1
    refine ⟨period, fun hc => by simp at hc, centre', fun hl _ => ?_, fun _ hc => by simp at hc⟩
    have := cluster ho
    have := opened hl ho
    simp only [MAX_BURST] at *
    change n ≤ pred R s + PHASE_TOL + 122
    omega
  · rw [he]
    have ho : s.isOpen = true := (Bool.and_eq_true_iff.mp hdue).1
    have hc := cluster ho
    have hmid := centre_between (s := s) (by omega) (by omega)
    have hpred := (pred_range R (s := accepted s l p) hp).1
    refine ⟨hp, fun hc => by simp [accepted] at hc, fun _ => ?_, fun hl _ => ?_, fun _ hc => by simp [accepted] at hc⟩
    · change 8 ≤ centre s
      omega
    · change centre s + P_MIN ≤ _ at hpred
      simp only [MAX_BURST, P_MIN, PHASE_TOL] at *
      omega

/-- The state after a prediction that never showed. -/
def missed (R : Rounding) (s : Fm) : Fm :=
  { s with
    locked := if s.misses + 1 ≥ 3 then false else s.locked
    cLast := pred R s
    misses := s.misses + 1
    blanks := s.blanks ++ [⟨pred R s - PRED_HALF, pred R s + PRED_HALF⟩]
    scheduled := s.scheduled ++ [⟨⟨pred R s - PRED_HALF, pred R s + PRED_HALF⟩, s.nOut,
      s.blanks.length, .predicted s.locked⟩] }

/-- The prediction of `s` is acted on after frame `n`. -/
def PredictionDue (R : Rounding) (s : Fm) (n : ℤ) : Prop :=
  s.locked = true ∧ s.isOpen = false ∧ n > pred R s + PHASE_TOL

theorem predictMissed_cases {s : Fm} {n slack late : ℤ} (h : Tracking R s n slack late)
    (hn : s.blanks.length < MAX_BLANKS) :
    (¬ PredictionDue R s n ∧ predictMissed R s n = s) ∨
    (PredictionDue R s n ∧ predictMissed R s n = missed R s) := by
  unfold predictMissed PredictionDue
  cases hl : s.locked with
  | false => exact Or.inl ⟨by simp, rfl⟩
  | true =>
      cases ho : s.isOpen with
      | true => exact Or.inl ⟨by simp, rfl⟩
      | false =>
          rw [Bool.not_false, Bool.and_true, if_pos rfl]
          dsimp only
          by_cases hdue : n > pred R s + PHASE_TOL
          · refine Or.inr ⟨⟨rfl, rfl, hdue⟩, ?_⟩
            have h8 := h.centre hl
            have hp := (pred_range R h.period).1
            simp only [P_MIN] at hp
            rw [if_pos hdue, addBlank_eq (by simp only [PRED_HALF]; omega) hn]
            simp only [missed, hl]
          · exact Or.inl ⟨fun hd => hdue hd.2.2, if_neg hdue⟩

theorem predictMissed_tracking {s : Fm} {n : ℤ} (h : Tracking R s n 0 122)
    (hn : s.blanks.length < MAX_BLANKS) : Tracking R (predictMissed R s n) n 0 0 := by
  have hcases := predictMissed_cases h hn
  obtain ⟨period, cluster, centre, overdue, opened⟩ := h
  rcases hcases with ⟨hdue, he⟩ | ⟨⟨hl, ho, hdue⟩, he⟩
  · rw [he]
    refine ⟨period, cluster, centre, fun hl ho => ?_, opened⟩
    have : ¬ n > pred R s + PHASE_TOL := fun hgt => hdue ⟨hl, ho, hgt⟩
    omega
  · rw [he]
    have h8 := centre hl
    have hlate := overdue hl ho
    have hnow := (pred_range R period).1
    have hnext := (pred_range R (s := missed R s) period).1
    change pred R s + P_MIN ≤ _ at hnext
    refine ⟨period, fun hc => absurd (ho.symm.trans hc) (by decide), fun _ => ?_, fun _ _ => ?_,
      fun _ hc => absurd (ho.symm.trans hc) (by decide)⟩
    · change 8 ≤ pred R s
      simp only [P_MIN] at hnow
      omega
    · simp only [P_MIN, PHASE_TOL] at *
      omega

end
end Sirius.Fmrepair
