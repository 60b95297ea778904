import Mathlib.Logic.Function.Basic
import Mathlib.Data.Fintype.Basic
import Mathlib.Tactic.Linarith

/-!
# Rings that keep the end of a history

A ring of `N` cells is written at increasing positions, each position reduced
modulo `N`. It then holds the last `N` entries of everything written.
-/
namespace RingBuffer

variable {α : Type*} {N : ℕ} [NeZero N]

/-- The cell of a position. For a power of two this is the mask `n & (N - 1)`. -/
def slot (N : ℕ) [NeZero N] (n : ℤ) : Fin N :=
  ⟨(n % N).toNat, by
    have hpos : (0 : ℤ) < N := by exact_mod_cast Nat.pos_of_ne_zero (NeZero.ne N)
    have h0 := Int.emod_nonneg n hpos.ne'
    have h1 := Int.emod_lt_of_pos n hpos
    omega⟩

def read (r : Fin N → α) (n : ℤ) : α := r (slot N n)

def write (r : Fin N → α) (n : ℤ) (x : α) : Fin N → α := Function.update r (slot N n) x

theorem slot_ne {m n : ℤ} (hlt : m < n) (hnear : n < m + N) : slot N m ≠ slot N n := by
  intro h
  have hpos : (0 : ℤ) < N := by exact_mod_cast Nat.pos_of_ne_zero (NeZero.ne N)
  have hval : (m % N).toNat = (n % N).toNat := congrArg Fin.val h
  have hmod : n % N = m % N := by
    have := Int.emod_nonneg m hpos.ne'
    have := Int.emod_nonneg n hpos.ne'
    omega
  have hdvd : (N : ℤ) ∣ n - m := Int.dvd_of_emod_eq_zero (Int.emod_eq_emod_iff_emod_sub_eq_zero.mp hmod)
  have := Int.le_of_dvd (by omega) hdvd
  omega

@[simp] theorem read_write_self (r : Fin N → α) (n : ℤ) (x : α) : read (write r n x) n = x := by
  simp only [read, write, Function.update_self]

theorem read_write_near (r : Fin N → α) {m n : ℤ} (x : α) (hlt : m < n) (hnear : n < m + N) :
    read (write r n x) m = read r m := by
  simp only [read, write, Function.update_of_ne (slot_ne hlt hnear)]

/-- Every entry of the history written less than `N` positions ago is still in its cell. -/
def Holds (r : Fin N → α) (xs : List α) : Prop :=
  ∀ (j : ℕ) (h : j < xs.length), xs.length ≤ j + N → read r j = xs[j]

theorem Holds.nil (r : Fin N → α) : Holds r [] := fun j h => absurd h (Nat.not_lt_zero j)

theorem Holds.push {r : Fin N → α} {xs : List α} (h : Holds r xs) (x : α) :
    Holds (write r xs.length x) (xs ++ [x]) := by
  intro j hj hnear
  simp only [List.length_append, List.length_singleton] at hj hnear
  rcases Nat.lt_succ_iff_lt_or_eq.mp hj with old | rfl
  · rw [read_write_near r x (by exact_mod_cast old) (by omega), List.getElem_append_left old]
    exact h j old (by omega)
  · rw [read_write_self]
    simp

/-- A held position read through an integer index. -/
theorem Holds.get {r : Fin N → α} {xs : List α} (h : Holds r xs) {n : ℤ} (h0 : 0 ≤ n)
    (h1 : n < xs.length) (h2 : (xs.length : ℤ) - N ≤ n) :
    ∃ hn : n.toNat < xs.length, read r n = xs[n.toNat] := by
  have hn : n.toNat < xs.length := by omega
  refine ⟨hn, ?_⟩
  have := h n.toNat hn (by omega)
  rwa [Int.toNat_of_nonneg h0] at this

end RingBuffer
