import Mathlib.Data.Int.Order.Basic

/-!
# Stores into memory that was never set

A memory holds a byte at every address, whatever it was before. What is read after a list of stores does not depend on
that exactly when the stores cover all that is read, so a two-run property of a straight piece of code becomes a
property of the places and lengths of its stores.
-/
namespace Stores

abbrev Byte := BitVec 8
abbrev Memory := ℕ → Byte

structure Store where
  offset : ℕ
  bytes : List Byte
  deriving DecidableEq, Repr

def Store.apply (m : Memory) (st : Store) : Memory :=
  fun i => if st.offset ≤ i then (st.bytes[i - st.offset]?).getD (m i) else m i

def run (m : Memory) (sts : List Store) : Memory := sts.foldl Store.apply m

def load (m : Memory) (n : ℕ) : List Byte := (List.range n).map m

/-- Where the stores go, with their lengths. -/
def extents (sts : List Store) : List (ℕ × ℕ) := sts.map fun st => (st.offset, st.bytes.length)

def Within (es : List (ℕ × ℕ)) (i : ℕ) : Prop := ∃ e ∈ es, e.1 ≤ i ∧ i < e.1 + e.2

instance (es : List (ℕ × ℕ)) (i : ℕ) : Decidable (Within es i) := inferInstanceAs (Decidable (∃ e ∈ es, _))

def Covers (es : List (ℕ × ℕ)) (n : ℕ) : Prop := ∀ i < n, Within es i

instance (es : List (ℕ × ℕ)) (n : ℕ) : Decidable (Covers es n) := inferInstanceAs (Decidable (∀ i < n, _))

@[simp] theorem run_nil (m : Memory) : run m [] = m := rfl

@[simp] theorem run_cons (m : Memory) (st : Store) (sts : List Store) :
    run m (st :: sts) = run (st.apply m) sts := rfl

theorem run_append (m : Memory) (sts sts' : List Store) : run m (sts ++ sts') = run (run m sts) sts' :=
  List.foldl_append

theorem extents_append (sts sts' : List Store) : extents (sts ++ sts') = extents sts ++ extents sts' :=
  List.map_append

@[simp] theorem not_within_nil (i : ℕ) : ¬ Within [] i := by
  rintro ⟨e, he, -⟩
  cases he

@[simp] theorem within_cons {e : ℕ × ℕ} {es : List (ℕ × ℕ)} {i : ℕ} :
    Within (e :: es) i ↔ (e.1 ≤ i ∧ i < e.1 + e.2) ∨ Within es i := by
  simp only [Within, List.mem_cons, exists_eq_or_imp]

section
variable {m m' : Memory} {st : Store} {sts : List Store} {i : ℕ}

/-- A store leaves the byte of the list behind, the same in every memory. -/
theorem apply_inside (h : st.offset ≤ i ∧ i < st.offset + st.bytes.length) : st.apply m i = st.apply m' i := by
  have hlt : i - st.offset < st.bytes.length := by omega
  rw [Store.apply, Store.apply, if_pos h.1, if_pos h.1, List.getElem?_eq_getElem hlt]
  rfl

theorem apply_outside (h : ¬ (st.offset ≤ i ∧ i < st.offset + st.bytes.length)) : st.apply m i = m i := by
  rw [Store.apply]
  split
  · rw [List.getElem?_eq_none (by omega)]
    rfl
  · rfl

theorem apply_congr (h : m i = m' i) : st.apply m i = st.apply m' i := by
  rw [Store.apply, Store.apply, h]

theorem run_congr (h : m i = m' i) : run m sts i = run m' sts i := by
  induction sts generalizing m m' with
  | nil => exact h
  | cons st sts ih => exact ih (apply_congr h)

theorem run_inside (h : Within (extents sts) i) : run m sts i = run m' sts i := by
  induction sts generalizing m m' with
  | nil => exact absurd h (not_within_nil i)
  | cons st sts ih =>
      rw [run_cons, run_cons]
      rcases within_cons.mp h with hst | hsts
      · exact run_congr (apply_inside hst)
      · exact ih hsts

/-- What no store reaches stays as it was. -/
theorem run_outside (h : ¬ Within (extents sts) i) : run m sts i = m i := by
  induction sts generalizing m with
  | nil => rfl
  | cons st sts ih =>
      obtain ⟨hst, hsts⟩ := not_or.mp (within_cons.not.mp h)
      exact (ih hsts).trans (apply_outside hst)

end

theorem load_eq_iff {m m' : Memory} {n : ℕ} : load m n = load m' n ↔ ∀ i < n, m i = m' i := by
  simp [load, List.map_inj_left]

theorem load_covered {sts : List Store} {n : ℕ} (h : Covers (extents sts) n) (m m' : Memory) :
    load (run m sts) n = load (run m' sts) n :=
  load_eq_iff.mpr fun i hi => run_inside (h i hi)

/-- One byte that is not covered tells two memories apart that differ everywhere. -/
theorem load_uncovered {sts : List Store} {n : ℕ} (h : ¬ Covers (extents sts) n) (m m' : Memory)
    (hne : ∀ i, m i ≠ m' i) : load (run m sts) n ≠ load (run m' sts) n := by
  intro heq
  apply h
  intro i hi
  by_contra hout
  have hbyte := load_eq_iff.mp heq i hi
  rw [run_outside hout, run_outside hout] at hbyte
  exact hne i hbyte

end Stores
