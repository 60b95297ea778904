import Mathlib.Data.Finset.Card

/-!
# Counted users

A thing that is on while anything uses it, with a count of its users: the first to come turns it on, the last to
leave turns it off.
-/
namespace UseCount

variable {ι : Type*} {users : Finset ι} {count : ℤ} {on on' : Prop} {u : ι}

/-- The count is the number of these users, and the thing is on exactly while there are any. -/
structure Counts (users : Finset ι) (count : ℤ) (on : Prop) : Prop where
  count : count = users.card
  on : on ↔ users.Nonempty

theorem Counts.congr (h : Counts users count on) (hon : on' ↔ on) : Counts users count on' :=
  ⟨h.count, hon.trans h.on⟩

theorem counts_none (h : ¬on) : Counts (∅ : Finset ι) 0 on := ⟨rfl, iff_of_false h Finset.not_nonempty_empty⟩

theorem Counts.pos (h : Counts users count on) (hu : u ∈ users) : 0 < count := by
  rw [h.count]
  exact Int.natCast_pos.2 (Finset.card_pos.2 ⟨u, hu⟩)

theorem Counts.nonneg (h : Counts users count on) : 0 ≤ count := by
  rw [h.count]
  exact Int.natCast_nonneg _

theorem Counts.eq_zero_iff (h : Counts users count on) : count = 0 ↔ ¬on := by
  rw [h.count, h.on, Finset.not_nonempty_iff_eq_empty, Int.natCast_eq_zero, Finset.card_eq_zero]

variable [DecidableEq ι]

/-- A user comes: what was off is turned on. -/
theorem Counts.join (h : Counts users count on) (hu : u ∉ users) :
    Counts (insert u users) (count + 1) (count = 0 ∨ on) := by
  constructor
  · rw [Finset.card_insert_of_notMem hu, h.count, Int.natCast_succ]
  · rw [h.eq_zero_iff]
    exact iff_of_true (Classical.em on).symm (Finset.insert_nonempty u users)

/-- A user leaves: what nobody is left to use is turned off. -/
theorem Counts.leave (h : Counts users count on) (hu : u ∈ users) :
    Counts (users.erase u) (count - 1) (count - 1 ≠ 0 ∧ on) := by
  have hcount : count - 1 = (users.erase u).card := by
    have := Finset.card_erase_add_one hu
    rw [h.count]
    omega
  refine ⟨hcount, ?_⟩
  rw [hcount, and_iff_left (h.on.2 ⟨u, hu⟩), ne_eq, Int.natCast_eq_zero, Finset.card_eq_zero, ← ne_eq,
    Finset.nonempty_iff_ne_empty]

end UseCount
