import Mathlib.Algebra.Order.Round
import Mathlib.Analysis.Real.Sqrt
import Mathlib.Tactic.Linarith
import Mathlib.Tactic.Ring

/-!
# Square roots found bit by bit

A guess is kept whose square is at most the number, together with the width of the interval above it that still may
hold the root. Deciding one bit halves the interval; at width one the guess is the root rounded down, and which half
of the last interval the root lies in is decided by integers alone.
-/
namespace SquareRoot

/-- The root of `n` is at least `g` and less than `g + w`. -/
def Between (n g w : ℕ) : Prop := g ^ 2 ≤ n ∧ n < (g + w) ^ 2

theorem between_initial {n w : ℕ} (h : n < w ^ 2) : Between n 0 w := by
  constructor
  · omega
  · rwa [Nat.zero_add]

/-- A trial that is too large leaves the lower half. -/
theorem between_lower {n g w : ℕ} (h : Between n g (w + w)) (hlt : n < (g + w) ^ 2) : Between n g w :=
  ⟨h.1, hlt⟩

theorem between_upper {n g w : ℕ} (h : Between n g (w + w)) (hle : (g + w) ^ 2 ≤ n) : Between n (g + w) w := by
  refine ⟨hle, ?_⟩
  rw [Nat.add_assoc]
  exact h.2

theorem xor_two_pow {g k : ℕ} (h : 2 ^ (k + 1) ∣ g) : g ^^^ 2 ^ k = g + 2 ^ k := by
  obtain ⟨a, rfl⟩ := h
  have hlt : 2 ^ k < 2 ^ (k + 1) := Nat.pow_lt_pow_right (by omega) (by omega)
  apply Nat.eq_of_testBit_eq
  intro i
  rw [Nat.two_pow_add_eq_or_of_lt hlt a, Nat.testBit_or, Nat.testBit_xor]
  by_cases hi : i = k
  · subst i
    rw [Nat.testBit_two_pow_mul]
    simp
  · rw [Nat.testBit_two_pow_of_ne (Ne.symm hi), Bool.xor_false, Bool.or_false]

/-- Whether the root lies in the upper half of its interval of width one. -/
theorem half_le_sqrt {n g : ℕ} : (g : ℝ) + 1 / 2 ≤ √(n : ℝ) ↔ g ^ 2 + g < n := by
  rw [Real.le_sqrt' (by positivity)]
  constructor
  · intro h
    have hreal : ((g ^ 2 + g : ℕ) : ℝ) < n := by
      push_cast
      linarith [h, show ((g : ℝ) + 1 / 2) ^ 2 = (g : ℝ) ^ 2 + g + 1 / 4 by ring]
    exact_mod_cast hreal
  · intro h
    have hreal : ((g ^ 2 + g + 1 : ℕ) : ℝ) ≤ n := by exact_mod_cast h
    push_cast at hreal
    linarith [show ((g : ℝ) + 1 / 2) ^ 2 = (g : ℝ) ^ 2 + g + 1 / 4 by ring]

theorem round_sqrt {n g : ℕ} (h : Between n g 1) :
    round √(n : ℝ) = if g ^ 2 + g < n then (g : ℤ) + 1 else g := by
  have hlow : (g : ℝ) ≤ √(n : ℝ) := Real.le_sqrt_of_sq_le (by exact_mod_cast h.1)
  have hhigh : √(n : ℝ) < (g : ℝ) + 1 := by
    rw [Real.sqrt_lt' (by positivity)]
    exact_mod_cast h.2
  rw [round_eq_iff, Set.mem_Ico]
  split
  · have hhalf := half_le_sqrt.mpr ‹_›
    push_cast
    constructor <;> linarith
  · have hhalf := not_le.mp (half_le_sqrt.not.mpr ‹_›)
    push_cast
    constructor <;> linarith

end SquareRoot
