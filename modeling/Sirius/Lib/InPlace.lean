import Mathlib.Data.List.Basic

/-!
# What stands where in a list
-/
namespace InPlace

variable {α : Type*} {xs ys zs : List α} {i : ℕ}

/-- From index `i` on the list has `ys`. -/
def At (xs : List α) (i : ℕ) (ys : List α) : Prop := ∃ rest, xs.drop i = ys ++ rest

theorem at_mid (before ys after : List α) : At (before ++ ys ++ after) before.length ys :=
  ⟨after, by rw [List.append_assoc, List.drop_left]⟩

theorem at_append : At xs i (ys ++ zs) ↔ At xs i ys ∧ At xs (i + ys.length) zs := by
  constructor
  · rintro ⟨rest, h⟩
    refine ⟨⟨zs ++ rest, by rw [h, List.append_assoc]⟩, rest, ?_⟩
    rw [← List.drop_drop, h, List.append_assoc, List.drop_left]
  · rintro ⟨⟨rest, h⟩, rest', h'⟩
    refine ⟨rest', ?_⟩
    rw [← List.drop_drop, h, List.drop_left] at h'
    rw [h, h', List.append_assoc]

theorem At.trans {j : ℕ} (h : At xs i ys) (h' : At ys j zs) : At xs (i + j) zs := by
  obtain ⟨rest, h⟩ := h
  obtain ⟨rest', h'⟩ := h'
  refine ⟨rest' ++ rest.drop (j - ys.length), ?_⟩
  rw [← List.drop_drop, h, List.drop_append, h', List.append_assoc]

theorem At.take (h : At xs i ys) : (xs.drop i).take ys.length = ys := by
  obtain ⟨rest, h⟩ := h
  rw [h, List.take_left]

theorem At.length_le (h : At xs i ys) (hne : ys ≠ []) : i + ys.length ≤ xs.length := by
  obtain ⟨rest, h⟩ := h
  have hlength := congrArg List.length h
  have hpos := List.length_pos_of_ne_nil hne
  rw [List.length_drop, List.length_append] at hlength
  omega

theorem At.append_right (h : At xs i ys) (hle : i ≤ xs.length) (after : List α) : At (xs ++ after) i ys := by
  obtain ⟨rest, h⟩ := h
  exact ⟨rest ++ after, by rw [List.drop_append_of_le_length hle, h, List.append_assoc]⟩

/-- The first element with a property that those before it have not. -/
theorem At.findIdx {p : α → Bool} {y : α} (h : At xs i (ys ++ [y])) (hys : ∀ a ∈ ys, p a = false) (hy : p y = true) :
    (xs.drop i).findIdx? p = some ys.length := by
  obtain ⟨rest, h⟩ := h
  have hnone : ys.findIdx? p = none := List.findIdx?_eq_none_iff.mpr hys
  rw [h, List.append_assoc, List.findIdx?_append, hnone, Option.none_or, List.singleton_append, List.findIdx?_cons, hy,
    if_pos rfl, Option.map_some, Nat.zero_add]

end InPlace
