import Sirius.Touch.Contact
import Sirius.Lib.SquareRoot

/-!
# max1187x_sqrt is the rounded square root

Sixteen rounds decide the bits of the guess from the top. All of it fits: the square of a 16-bit guess fits 32 bits,
and the rounding subtracts on both sides of the number from squares around it.
-/
namespace Sirius.Touch

open SquareRoot

theorem square_toNat (guess : BitVec 16) :
    (guess.setWidth 32 * guess.setWidth 32).toNat = guess.toNat ^ 2 := by
  have hlt := guess.isLt
  have hsquare : guess.toNat ^ 2 < 2 ^ 32 := by
    calc
      guess.toNat ^ 2 < (2 ^ 16) ^ 2 := Nat.pow_lt_pow_left hlt (by decide)
      _ = 2 ^ 32 := by norm_num
  rw [BitVec.toNat_mul, BitVec.toNat_setWidth, Nat.mod_eq_of_lt (by omega : guess.toNat < 2 ^ 32), ← Nat.pow_two,
    Nat.mod_eq_of_lt hsquare]

/-- The rounds of the loop, as they would go without a word size. -/
def LoopExact (num : BitVec 32) : (rounds : ℕ) → (mask guess : BitVec 16) → Prop
  | 0, _, _ => True
  | rounds + 1, mask, guess =>
      let trial := guess ^^^ mask
      let prod := trial.setWidth 32 * trial.setWidth 32
      trial.toNat = guess.toNat + mask.toNat ∧ prod.toNat = trial.toNat ^ 2 ∧
        (num < prod ↔ num.toNat < trial.toNat ^ 2) ∧
        LoopExact num rounds (mask >>> 1) (if num < prod then trial ^^^ mask else trial)

/-- The rounding step: both differences are those of the integers, and so is the step up. -/
def RoundingExact (num : BitVec 32) (guess : BitVec 16) : Prop :=
  let prod := guess.setWidth 32 * guess.setWidth 32
  prod.toNat = guess.toNat ^ 2 ∧ ((num - prod).toNat : ℤ) = num.toNat - guess.toNat ^ 2 ∧
    ((prod + 2 * guess.setWidth 32 + 1 - num).toNat : ℤ) = (guess.toNat + 1) ^ 2 - num.toNat ∧
    (guess + 1).toNat = guess.toNat + 1

/-- Before a round: the bits from the mask down are undecided and clear. -/
structure Undecided (num : BitVec 32) (rounds : ℕ) (mask guess : BitVec 16) : Prop where
  mask : mask.toNat = 2 ^ rounds / 2
  clear : 2 ^ rounds ∣ guess.toNat
  root : Between num.toNat guess.toNat (2 ^ rounds)

theorem undecided_initial (num : BitVec 32) : Undecided num 16 0x8000 0 where
  mask := by decide
  clear := Nat.dvd_zero _
  root := by
    apply between_initial
    rw [← Nat.pow_mul]
    exact num.isLt

section
variable {num : BitVec 32} {rounds : ℕ} {mask guess : BitVec 16}

theorem mask_next (h : Undecided num (rounds + 1) mask guess) : (mask >>> 1).toNat = 2 ^ rounds / 2 := by
  rw [BitVec.toNat_ushiftRight, Nat.shiftRight_eq_div_pow, h.mask, Nat.pow_succ, Nat.mul_div_cancel _ (by decide)]

theorem trial_toNat (h : Undecided num (rounds + 1) mask guess) :
    (guess ^^^ mask).toNat = guess.toNat + 2 ^ rounds := by
  have hmask : mask.toNat = 2 ^ rounds := by
    rw [h.mask, Nat.pow_succ, Nat.mul_div_cancel _ (by decide)]
  rw [BitVec.toNat_xor, hmask, xor_two_pow h.clear]

theorem lt_square (trial : BitVec 16) :
    num < trial.setWidth 32 * trial.setWidth 32 ↔ num.toNat < trial.toNat ^ 2 := by
  rw [BitVec.lt_def, square_toNat]

/-- One round halves what is undecided. -/
theorem undecided_step (h : Undecided num (rounds + 1) mask guess) :
    Undecided num rounds (mask >>> 1)
      (if num < (guess ^^^ mask).setWidth 32 * (guess ^^^ mask).setWidth 32 then guess ^^^ mask ^^^ mask
        else guess ^^^ mask) := by
  have hclear : 2 ^ rounds ∣ guess.toNat := Nat.dvd_trans (Nat.pow_dvd_pow 2 (Nat.le_succ rounds)) h.clear
  have hroot : Between num.toNat guess.toNat (2 ^ rounds + 2 ^ rounds) := by
    have := h.root
    rwa [Nat.pow_succ, Nat.mul_two] at this
  split
  · have hlt := (lt_square _).mp ‹_›
    rw [trial_toNat h] at hlt
    rw [BitVec.xor_assoc, BitVec.xor_self, BitVec.xor_zero]
    exact ⟨mask_next h, hclear, between_lower hroot hlt⟩
  · have hle := Nat.le_of_not_lt ((lt_square _).not.mp ‹_›)
    rw [trial_toNat h] at hle
    refine ⟨mask_next h, ?_, ?_⟩
    · rw [trial_toNat h]
      exact Nat.dvd_add hclear (Nat.dvd_refl _)
    · rw [trial_toNat h]
      exact between_upper hroot hle

theorem sqrt_loop_root (h : Undecided num rounds mask guess) :
    Between num.toNat (sqrtLoop num rounds mask guess).toNat 1 := by
  induction rounds generalizing mask guess with
  | zero => exact h.root
  | succ rounds ih => exact ih (undecided_step h)

theorem sqrt_loop_exact (h : Undecided num rounds mask guess) : LoopExact num rounds mask guess := by
  induction rounds generalizing mask guess with
  | zero => exact trivial
  | succ rounds ih =>
      refine ⟨?_, square_toNat _, lt_square _, ih (undecided_step h)⟩
      rw [trial_toNat h, h.mask, Nat.pow_succ, Nat.mul_div_cancel _ (by decide)]

end

theorem rounding_exact {num : BitVec 32} {guess : BitVec 16} (hroot : Between num.toNat guess.toNat 1)
    (hmax : guess ≠ 0xFFFF) : RoundingExact num guess := by
  have hlt : guess.toNat < 0xFFFF := by
    have hne : guess.toNat ≠ 0xFFFF := fun h => hmax (BitVec.eq_of_toNat_eq h)
    have := guess.isLt
    omega
  have hnext : (guess.toNat + 1) ^ 2 < 2 ^ 32 := by
    calc
      (guess.toNat + 1) ^ 2 ≤ 0xFFFF ^ 2 := Nat.pow_le_pow_left hlt 2
      _ < 2 ^ 32 := by norm_num
  have hsquare := square_toNat guess
  have hexpand : (guess.toNat + 1) ^ 2 = guess.toNat ^ 2 + 2 * guess.toNat + 1 := by ring
  obtain ⟨hlow, hhigh⟩ := hroot
  have habove : (guess.setWidth 32 * guess.setWidth 32 + 2 * guess.setWidth 32 + 1).toNat =
      (guess.toNat + 1) ^ 2 := by
    have hdouble : (2 * guess.setWidth 32 : BitVec 32).toNat = 2 * guess.toNat := by
      rw [BitVec.toNat_mul, BitVec.toNat_setWidth, show (2 : BitVec 32).toNat = 2 from rfl]
      omega
    rw [BitVec.toNat_add, BitVec.toNat_add, hdouble, hsquare, show (1 : BitVec 32).toNat = 1 from rfl]
    omega
  refine ⟨hsquare, ?_, ?_, ?_⟩
  · rw [BitVec.toNat_sub_of_le (by rw [BitVec.le_def, hsquare]; exact hlow), hsquare]
    push_cast [hlow]
    rfl
  · rw [BitVec.toNat_sub_of_le (by rw [BitVec.le_def, habove]; exact hhigh.le), habove]
    push_cast [hhigh.le]
    rfl
  · rw [BitVec.toNat_add, show (1 : BitVec 16).toNat = 1 from rfl]
    omega

theorem rounding_up {num : BitVec 32} {guess : BitVec 16} (h : RoundingExact num guess) :
    num - guess.setWidth 32 * guess.setWidth 32 >
        guess.setWidth 32 * guess.setWidth 32 + 2 * guess.setWidth 32 + 1 - num ↔
      guess.toNat ^ 2 + guess.toNat < num.toNat := by
  obtain ⟨-, hbelow, habove, -⟩ := h
  rw [gt_iff_lt, BitVec.lt_def, ← Int.ofNat_lt, hbelow, habove]
  have hexpand : ((guess.toNat : ℤ) + 1) ^ 2 = (guess.toNat : ℤ) ^ 2 + 2 * guess.toNat + 1 := by ring
  rw [hexpand, ← Int.ofNat_lt]
  push_cast
  omega

/-- Below two the number is its own root. -/
theorem small_root {n : ℕ} (h : n < MXM_PRESSURE_Z_MIN_TO_SQRT) : Between n n 1 ∧ ¬ n ^ 2 + n < n := by
  simp only [MXM_PRESSURE_Z_MIN_TO_SQRT] at h
  obtain rfl | rfl : n = 0 ∨ n = 1 := by omega
  · exact ⟨⟨by decide, by decide⟩, by decide⟩
  · exact ⟨⟨by decide, by decide⟩, by decide⟩

theorem max1187x_sqrt_large {num : BitVec 32} (h : ¬ num.toNat < MXM_PRESSURE_Z_MIN_TO_SQRT) :
    ((max1187xSqrt num).toNat : ℤ) = min (round √(num.toNat : ℝ)) 0xFFFF := by
  rw [max1187xSqrt, if_neg h]
  have hroot := sqrt_loop_root (undecided_initial num)
  generalize sqrtLoop num 16 0x8000 0 = guess at hroot ⊢
  rw [round_sqrt hroot]
  dsimp only
  by_cases hmax : guess = 0xFFFF
  · rw [if_neg (not_not.mpr hmax), hmax, show (0xFFFF : BitVec 16).toNat = 0xFFFF from rfl]
    split <;> rfl
  · have hexact := rounding_exact hroot hmax
    have hup := rounding_up hexact
    obtain ⟨-, -, -, hnext⟩ := hexact
    have hlt := (guess + 1).isLt
    rw [if_pos hmax]
    split
    · rw [if_pos (hup.mp ‹_›), hnext]
      push_cast
      omega
    · rw [if_neg (hup.not.mp ‹_›)]
      omega

/-- For every number the integer nearest to its root, in 16 bits, and nothing it computes on the way wraps. -/
theorem max1187x_sqrt_rounded (num : BitVec 32) :
    ((max1187xSqrt num).toNat : ℤ) = min (round √(num.toNat : ℝ)) 0xFFFF ∧
    LoopExact num 16 0x8000 0 ∧
    (sqrtLoop num 16 0x8000 0 ≠ 0xFFFF → RoundingExact num (sqrtLoop num 16 0x8000 0)) := by
  refine ⟨?_, sqrt_loop_exact (undecided_initial num), rounding_exact (sqrt_loop_root (undecided_initial num))⟩
  by_cases h : num.toNat < MXM_PRESSURE_Z_MIN_TO_SQRT
  · obtain ⟨hroot, hhalf⟩ := small_root h
    rw [max1187xSqrt, if_pos h, round_sqrt hroot, if_neg hhalf, BitVec.toNat_setWidth]
    simp only [MXM_PRESSURE_Z_MIN_TO_SQRT] at h
    omega
  · exact max1187x_sqrt_large h

example : max1187xSqrt 0xFFFFFFFF = 0xFFFF := by decide +kernel
example : max1187xSqrt 6 = 2 ∧ max1187xSqrt 7 = 3 := by decide +kernel

end Sirius.Touch
