import Mathlib.Data.Rat.Floor
import Mathlib.Order.Monotone.Basic
import Mathlib.Tactic.Linarith

/-!
# Binary floating point as a rounding of the rationals

A floating format is represented by the function that rounds a rational to it.
Nothing is assumed about ties or about the width of the format: rounding is
monotone and keeps every quarter of an integer up to `2 ^ 51`, as any binary
format of 53 bits does. Exact rational arithmetic is one such rounding.
-/
namespace Rounded

structure Rounding where
  fl : ℚ → ℚ
  mono : Monotone fl
  quarter : ∀ k : ℤ, |k| ≤ 2 ^ 53 → fl (k / 4) = k / 4

/-- Exact arithmetic: nothing is rounded. -/
def Rounding.exact : Rounding := ⟨fun x => x, fun _ _ h => h, fun _ _ => rfl⟩

/-- C's conversion of a floating value to an integer, towards zero. -/
def truncate (x : ℚ) : ℤ := if 0 ≤ x then ⌊x⌋ else ⌈x⌉

theorem truncate_mono {x y : ℚ} (hx : 0 ≤ x) (h : x ≤ y) : truncate x ≤ truncate y := by
  rw [truncate, truncate, if_pos hx, if_pos (hx.trans h)]
  exact Int.floor_mono h

theorem truncate_half {k : ℤ} (hk : 0 ≤ k) : truncate (k + 1 / 2) = k := by
  have hpos : (0 : ℚ) ≤ k + 1 / 2 := by
    have : (0 : ℚ) ≤ k := by exact_mod_cast hk
    linarith
  rw [truncate, if_pos hpos, Int.floor_intCast_add]
  norm_num

/-- Below zero that gives the upper one of two neighbours, a whole step up where it should round down. -/
theorem truncate_half_above {x : ℚ} (hx : x + 1 / 2 < 0) : x + 1 / 2 ≤ truncate (x + 1 / 2) := by
  rw [truncate, if_neg (not_le.mpr hx)]
  exact Int.le_ceil _

theorem truncate_half_near {x : ℚ} (hx : 0 ≤ x + 1 / 2) : |(truncate (x + 1 / 2) : ℚ) - x| ≤ 1 / 2 := by
  rw [truncate, if_pos hx, abs_le]
  have hlow := Int.floor_le (x + 1 / 2)
  have hhigh := Int.lt_floor_add_one (x + 1 / 2)
  constructor <;> linarith

/-- An integer within a half is nearest. -/
theorem nearest_of_half {x : ℚ} {z : ℤ} (hz : |(z : ℚ) - x| ≤ 1 / 2) (k : ℤ) : |(z : ℚ) - x| ≤ |(k : ℚ) - x| := by
  by_cases hk : k = z
  · rw [hk]
  have hone : (1 : ℚ) ≤ |(k : ℚ) - z| := by exact_mod_cast Int.one_le_abs (sub_ne_zero.mpr hk)
  have htri := abs_sub_le (k : ℚ) x z
  rw [abs_sub_comm x] at htri
  linarith

/-- Of two integers around a value the nearest stays between them. -/
theorem nearest_between {x : ℚ} {z a b : ℤ} (hz : ∀ k : ℤ, |(z : ℚ) - x| ≤ |(k : ℚ) - x|) (ha : (a : ℚ) ≤ x)
    (hb : x ≤ b) : a ≤ z ∧ z ≤ b := by
  have hza := hz a
  have hzb := hz b
  rw [abs_of_nonpos (by linarith : (a : ℚ) - x ≤ 0)] at hza
  rw [abs_of_nonneg (by linarith : (0 : ℚ) ≤ b - x)] at hzb
  have hlow := neg_le_abs ((z : ℚ) - x)
  have hhigh := le_abs_self ((z : ℚ) - x)
  constructor
  · exact_mod_cast (show (a : ℚ) ≤ z by linarith)
  · exact_mod_cast (show (z : ℚ) ≤ b by linarith)

/-- Adding a half and truncating rounds to nearest from minus a half on, and below that only half-way values. -/
theorem truncate_half_nearest_iff (x : ℚ) :
    (∀ k : ℤ, |(truncate (x + 1 / 2) : ℚ) - x| ≤ |(k : ℚ) - x|) ↔ -1 / 2 ≤ x ∨ ∃ k : ℤ, x + 1 / 2 = k := by
  constructor
  · intro h
    by_cases hx : 0 ≤ x + 1 / 2
    · exact .inl (by linarith)
    have hup := truncate_half_above (not_le.mp hx)
    -- the integer below is at least as far, so both are half a step away
    have hdown := h (truncate (x + 1 / 2) - 1)
    rw [abs_of_nonneg (by linarith)] at hdown
    push_cast at hdown
    rcases abs_cases ((truncate (x + 1 / 2) : ℚ) - 1 - x) with ⟨habs, -⟩ | ⟨habs, -⟩
    · linarith
    · exact .inr ⟨truncate (x + 1 / 2), by linarith⟩
  · rintro (hx | ⟨k, hk⟩)
    · exact nearest_of_half (truncate_half_near (by linarith))
    · refine nearest_of_half ?_
      have htrunc : truncate (x + 1 / 2) = k := by
        rw [hk, truncate, Int.floor_intCast, Int.ceil_intCast, ite_self]
      rw [htrunc, ← hk, show x + 1 / 2 - x = 1 / 2 by ring, abs_of_pos (by norm_num)]

variable (R : Rounding)

theorem fl_int {k : ℤ} (hk : |k| ≤ 2 ^ 51) : R.fl k = k := by
  have h := R.quarter (4 * k) (by rw [abs_mul]; simp; omega)
  have hcast : (((4 * k : ℤ) : ℚ)) / 4 = k := by push_cast; ring
  rwa [hcast] at h

theorem fl_half {k : ℤ} (hk : |k| ≤ 2 ^ 50) : R.fl (k + 1 / 2) = k + 1 / 2 := by
  have h := R.quarter (4 * k + 2) (by
    rw [abs_le] at hk ⊢
    omega)
  have hcast : (((4 * k + 2 : ℤ) : ℚ)) / 4 = k + 1 / 2 := by push_cast; ring
  rwa [hcast] at h

theorem fl_zero : R.fl 0 = 0 := by
  simpa using fl_int R (k := 0) (by norm_num)

/-- Rounding moves a value of moderate size by less than a quarter. -/
theorem fl_near {x : ℚ} (hx : |x| ≤ 2 ^ 50) : |R.fl x - x| ≤ 1 / 4 := by
  have hb := abs_le.mp hx
  have hlo : -(2 ^ 53) ≤ ⌊4 * x⌋ := by
    apply Int.le_floor.mpr
    push_cast
    linarith
  have hhi : ⌊4 * x⌋ + 1 ≤ 2 ^ 53 := by
    have : ((⌊4 * x⌋ : ℤ) : ℚ) ≤ 4 * x := Int.floor_le _
    have : ((⌊4 * x⌋ + 1 : ℤ) : ℚ) ≤ ((2 ^ 53 : ℤ) : ℚ) := by push_cast; linarith
    exact_mod_cast this
  have below := R.mono (show ((⌊4 * x⌋ : ℤ) : ℚ) / 4 ≤ x by
    have := Int.floor_le (4 * x)
    linarith)
  have above := R.mono (show x ≤ ((⌊4 * x⌋ + 1 : ℤ) : ℚ) / 4 by
    have := Int.lt_floor_add_one (4 * x)
    push_cast
    linarith)
  rw [R.quarter _ (abs_le.mpr ⟨hlo, by omega⟩)] at below
  rw [R.quarter _ (abs_le.mpr ⟨by omega, hhi⟩)] at above
  have h1 := Int.floor_le (4 * x)
  have h2 := Int.lt_floor_add_one (4 * x)
  push_cast at above
  rw [abs_le]
  constructor <;> linarith

/-- A comparison with an integer bound is decided before rounding. -/
theorem lt_of_lt_fl {x : ℚ} {k : ℤ} (hk : |k| ≤ 2 ^ 51) (h : (k : ℚ) < R.fl x) : (k : ℚ) < x := by
  by_contra hle
  have := R.mono (not_lt.mp hle)
  rw [fl_int R hk] at this
  exact absurd h (not_lt.mpr this)

theorem lt_of_fl_lt {x : ℚ} {k : ℤ} (hk : |k| ≤ 2 ^ 51) (h : R.fl x < (k : ℚ)) : x < (k : ℚ) := by
  by_contra hle
  have := R.mono (not_lt.mp hle)
  rw [fl_int R hk] at this
  exact absurd h (not_lt.mpr this)

/-- Values between two integers round to values between them. -/
theorem fl_between {x : ℚ} {a b : ℤ} (ha : |a| ≤ 2 ^ 51) (hb : |b| ≤ 2 ^ 51)
    (hax : (a : ℚ) ≤ x) (hxb : x ≤ (b : ℚ)) : (a : ℚ) ≤ R.fl x ∧ R.fl x ≤ (b : ℚ) := by
  have h1 := R.mono hax
  have h2 := R.mono hxb
  rw [fl_int R ha] at h1
  rw [fl_int R hb] at h2
  exact ⟨h1, h2⟩

/-- Rounding to the nearest integer by adding a half and truncating stays between
two integer bounds of the value. -/
theorem truncate_fl_half {x : ℚ} {a b : ℤ} (ha0 : 0 ≤ a) (ha : |a| ≤ 2 ^ 50) (hb : |b| ≤ 2 ^ 50)
    (hax : (a : ℚ) ≤ x) (hxb : x ≤ (b : ℚ)) :
    a ≤ truncate (R.fl (x + 1 / 2)) ∧ truncate (R.fl (x + 1 / 2)) ≤ b := by
  have hb0 : 0 ≤ b := by
    have : (a : ℚ) ≤ b := hax.trans hxb
    exact ha0.trans (by exact_mod_cast this)
  have h1 := R.mono (show (a : ℚ) + 1 / 2 ≤ x + 1 / 2 by linarith)
  have h2 := R.mono (show x + 1 / 2 ≤ (b : ℚ) + 1 / 2 by linarith)
  rw [fl_half R ha] at h1
  rw [fl_half R hb] at h2
  have hpos : (0 : ℚ) ≤ a + 1 / 2 := by
    have : (0 : ℚ) ≤ a := by exact_mod_cast ha0
    linarith
  have lo := truncate_mono hpos h1
  have hi := truncate_mono (hpos.trans h1) h2
  rw [truncate_half ha0] at lo
  rw [truncate_half hb0] at hi
  exact ⟨lo, hi⟩

/-- Pulling `p` towards `d` by a rounded fraction of their difference, the fraction
at most a quarter, never moves it away from `d` and passes `d` by less than one. -/
theorem pull_between {p d g : ℚ} (hg0 : 0 ≤ g) (hg1 : g ≤ 1 / 4)
    (hp : |p| ≤ 2 ^ 20) (hd : |d| ≤ 2 ^ 20) :
    min p (d - 1) ≤ p + R.fl (g * R.fl (d - p)) ∧
      p + R.fl (g * R.fl (d - p)) ≤ max p (d + 1) := by
  have hpb := abs_le.mp hp
  have hdb := abs_le.mp hd
  have hdiff : |d - p| ≤ 2 ^ 50 := abs_le.mpr ⟨by linarith, by linarith⟩
  have hn := abs_le.mp (fl_near R hdiff)
  have hprod : |g * R.fl (d - p)| ≤ 2 ^ 50 := by
    rw [abs_mul, abs_of_nonneg hg0]
    have : |R.fl (d - p)| ≤ 2 ^ 22 := abs_le.mpr ⟨by linarith, by linarith⟩
    nlinarith [abs_nonneg (R.fl (d - p))]
  have hm := abs_le.mp (fl_near R hprod)
  rcases le_total p d with h | h
  · have hup : 0 ≤ R.fl (d - p) := by
      simpa [fl_zero] using R.mono (sub_nonneg.mpr h)
    have hinc : 0 ≤ R.fl (g * R.fl (d - p)) := by
      simpa [fl_zero] using R.mono (mul_nonneg hg0 hup)
    have hcap : g * R.fl (d - p) ≤ 1 / 4 * R.fl (d - p) := mul_le_mul_of_nonneg_right hg1 hup
    exact ⟨(min_le_left _ _).trans (by linarith), (show _ ≤ d + 1 by linarith).trans (le_max_right _ _)⟩
  · have hdown : R.fl (d - p) ≤ 0 := by
      simpa [fl_zero] using R.mono (sub_nonpos.mpr h)
    have hinc : R.fl (g * R.fl (d - p)) ≤ 0 := by
      simpa [fl_zero] using R.mono (mul_nonpos_of_nonneg_of_nonpos hg0 hdown)
    have hcap : 1 / 4 * R.fl (d - p) ≤ g * R.fl (d - p) := mul_le_mul_of_nonpos_right hg1 hdown
    exact ⟨(min_le_right _ _).trans (by linarith), (show _ ≤ p by linarith).trans (le_max_left _ _)⟩

end Rounded
