import Sirius.Fmrepair.Joint

/-!
# What `emit` interpolates

In exact arithmetic. A half is added before the conversion to `int16_t`, which cuts towards zero: below zero
that is not the nearest integer.
-/
namespace Sirius.Fmrepair
open Rounded

/-- The line from `pa` in frame `a - 1` to `pb` in frame `b + 1`, at frame `m`. -/
def onLine (pa pb : Sample) (w : Blank) (m : ℤ) : ℚ :=
  pa.toInt + (pb.toInt - pa.toInt) * (m - w.a + 1) / (w.b + 2 - w.a)

/-- The sample is the value on the line, correctly rounded, and the conversion did not overflow. -/
structure Rounds (pa pb : Sample) (w : Blank) (m : ℤ) (out : Sample) : Prop where
  nearest : ∀ k : ℤ, |(out.toInt : ℚ) - onLine pa pb w m| ≤ |k - onLine pa pb w m|
  between : min pa.toInt pb.toInt ≤ out.toInt ∧ out.toInt ≤ max pa.toInt pb.toInt
  fits : -2 ^ 15 ≤ truncate (onLine pa pb w m + 1 / 2) ∧ truncate (onLine pa pb w m + 1 / 2) < 2 ^ 15
  equal : pa = pb → out = pa

section
variable {pa pb : Sample} {w : Blank} {m : ℤ}

theorem interpolate_exact (pa pb : Sample) (w : Blank) (m : ℤ) :
    interpolate .exact pa pb w m = BitVec.ofInt 16 (truncate (onLine pa pb w m + 1 / 2)) := by
  have hline : onLine pa pb w m =
      pa.toInt + (pb.toInt - pa.toInt : ℤ) * ((m - (w.a - 1) : ℤ) / (w.b + 2 - w.a : ℤ)) := by
    unfold onLine
    push_cast
    ring
  rw [hline]
  rfl

theorem onLine_between (pa pb : Sample) (ha : w.a ≤ m) (hb : m ≤ w.b) :
    ((min pa.toInt pb.toInt : ℤ) : ℚ) ≤ onLine pa pb w m ∧ onLine pa pb w m ≤ (max pa.toInt pb.toInt : ℤ) := by
  have ha' : (w.a : ℚ) ≤ m := by exact_mod_cast ha
  have hb' : (m : ℚ) ≤ w.b := by exact_mod_cast hb
  have hD : (0 : ℚ) < w.b + 2 - w.a := by linarith
  -- a share of the step from `pa` to `pb`
  have ht0 : 0 ≤ ((m : ℚ) - w.a + 1) / (w.b + 2 - w.a) := div_nonneg (by linarith) hD.le
  have ht1 : ((m : ℚ) - w.a + 1) / (w.b + 2 - w.a) ≤ 1 := (div_le_one hD).2 (by linarith)
  rw [onLine, mul_div_assoc]
  rcases le_total pa.toInt pb.toInt with h | h
  · rw [min_eq_left h, max_eq_right h]
    have h' : (pa.toInt : ℚ) ≤ pb.toInt := by exact_mod_cast h
    have hup := mul_nonneg (sub_nonneg.2 h') ht0
    have hcap := mul_le_of_le_one_right (sub_nonneg.2 h') ht1
    constructor <;> linarith
  · rw [min_eq_right h, max_eq_left h]
    have h' : (pb.toInt : ℚ) ≤ pa.toInt := by exact_mod_cast h
    have hdown := mul_nonneg (sub_nonneg.2 h') ht0
    have hcap := mul_le_of_le_one_right (sub_nonneg.2 h') ht1
    constructor <;> linarith

/-- The value that is cut off is in the range of `int16_t` whichever way it is cut. -/
theorem truncate_fits (pa pb : Sample) (ha : w.a ≤ m) (hb : m ≤ w.b) :
    -2 ^ 15 ≤ truncate (onLine pa pb w m + 1 / 2) ∧ truncate (onLine pa pb w m + 1 / 2) < 2 ^ 15 := by
  obtain ⟨hmin, hmax⟩ := onLine_between pa pb ha hb
  have hlow : ((-2 ^ 15 : ℤ) : ℚ) ≤ onLine pa pb w m :=
    (Int.cast_le.2 (le_min (BitVec.le_toInt pa) (BitVec.le_toInt pb))).trans hmin
  have hhigh : onLine pa pb w m ≤ ((2 ^ 15 - 1 : ℤ) : ℚ) :=
    hmax.trans (Int.cast_le.2 (max_le (Int.le_sub_one_of_lt BitVec.toInt_lt) (Int.le_sub_one_of_lt BitVec.toInt_lt)))
  push_cast at hlow hhigh
  unfold truncate
  split_ifs with hsign
  · have hfloor : 0 ≤ ⌊onLine pa pb w m + 1 / 2⌋ := Int.floor_nonneg.2 hsign
    exact ⟨by omega, Int.floor_lt.2 (by push_cast; linarith)⟩
  · have hceil : ⌈onLine pa pb w m + 1 / 2⌉ ≤ 0 := Int.ceil_le.2 (by push_cast; linarith)
    exact ⟨Int.le_ceil_iff.2 (by push_cast; linarith), by omega⟩

theorem toInt_interpolate (ha : w.a ≤ m) (hb : m ≤ w.b) :
    (interpolate .exact pa pb w m).toInt = truncate (onLine pa pb w m + 1 / 2) := by
  obtain ⟨hlow, hhigh⟩ := truncate_fits pa pb ha hb
  rw [interpolate_exact, BitVec.toInt_ofInt]
  exact Int.bmod_eq_of_le (by omega) (by omega)

theorem rounds_iff (ha : w.a ≤ m) (hb : m ≤ w.b) : Rounds pa pb w m (interpolate .exact pa pb w m) ↔
    -1 / 2 ≤ onLine pa pb w m ∨ ∃ k : ℤ, onLine pa pb w m + 1 / 2 = k := by
  rw [← truncate_half_nearest_iff, ← toInt_interpolate ha hb]
  refine ⟨fun h => h.nearest, fun h => ?_⟩
  obtain ⟨hlow, hhigh⟩ := onLine_between pa pb ha hb
  have hbetween := nearest_between h hlow hhigh
  refine ⟨h, hbetween, truncate_fits pa pb ha hb, fun heq => BitVec.eq_of_toInt_eq ?_⟩
  rw [← heq, min_self, max_self] at hbetween
  rw [← heq]
  exact le_antisymm hbetween.2 hbetween.1

end

/-- `emit` rounds correctly exactly where the line is not below minus a half, and half-way between integers. -/
theorem emit_rounds_iff (pa pb : Sample) (w : Blank) (m : ℤ) (ha : w.a ≤ m) (hb : m ≤ w.b) :
    (∀ fm ch, emitWindow fm m = some w → frame fm (w.a - 1) ch = pa → frame fm (w.b + 1) ch = pb →
        (emit .exact fm m).2 ch = interpolate .exact pa pb w m) ∧
      (Rounds pa pb w m (interpolate .exact pa pb w m) ↔
        -1 / 2 ≤ onLine pa pb w m ∨ ∃ k : ℤ, onLine pa pb w m + 1 / 2 = k) := by
  refine ⟨fun fm ch h hpa hpb => ?_, rounds_iff ha hb⟩
  rw [emit, h, ← hpa, ← hpb]

theorem interpolate_positive : Rounds 5 5 ⟨1, 1⟩ 1 (interpolate .exact 5 5 ⟨1, 1⟩ 1) :=
  (emit_rounds_iff 5 5 ⟨1, 1⟩ 1 le_rfl le_rfl).2.2 (.inl (by decide +kernel))

/-- Between two samples of `-5` a sample of `-4`. -/
theorem interpolate_negative : interpolate .exact (-5) (-5) ⟨1, 1⟩ 1 = -4 ∧
    ¬∀ pa pb w m, 1 ≤ w.a → w.a ≤ m → m ≤ w.b → Rounds pa pb w m (interpolate .exact pa pb w m) := by
  have hvalue : interpolate .exact (-5) (-5) ⟨1, 1⟩ 1 = -4 := by decide +kernel
  refine ⟨hvalue, fun h => ?_⟩
  have hequal := (h (-5) (-5) ⟨1, 1⟩ 1 le_rfl le_rfl le_rfl).equal rfl
  rw [hvalue] at hequal
  revert hequal
  decide

end Sirius.Fmrepair
