import Mathlib.Data.List.Basic

/-!
# Lists rewritten part by part

A list is split at a separator, each part is rewritten, and the parts are joined again.
-/
namespace Parts

variable {α : Type*} [DecidableEq α] {sep : α} {f g : List α → List α} {xs : List α}

def mapParts (sep : α) (f : List α → List α) (xs : List α) : List α := [sep].intercalate ((xs.splitOn sep).map f)

theorem notMem_of_mem_splitOn {s : List α} (h : s ∈ xs.splitOn sep) : sep ∉ s := by
  induction xs generalizing s with
  | nil =>
      rw [List.splitOn_nil, List.mem_singleton] at h
      rw [h]
      exact List.not_mem_nil
  | cons x xs ih =>
      rw [List.splitOn_cons_eq_if_modifyHead] at h
      split_ifs at h with hx
      · rcases List.mem_cons.mp h with rfl | hmem
        · exact List.not_mem_nil
        · exact ih hmem
      · obtain ⟨t, ts, hts⟩ := List.exists_cons_of_ne_nil (List.splitOn_ne_nil sep xs)
        rw [hts, List.modifyHead_cons] at h
        rcases List.mem_cons.mp h with rfl | hmem
        · rw [List.mem_cons, not_or]
          exact ⟨fun he => hx (beq_iff_eq.mpr he.symm), ih (hts ▸ List.mem_cons_self)⟩
        · exact ih (hts ▸ List.mem_cons_of_mem t hmem)

/-- The parts of the result are the rewritten parts, if no separator gets in. -/
theorem splitOn_mapParts (hf : ∀ s ∈ xs.splitOn sep, sep ∉ f s) :
    (mapParts sep f xs).splitOn sep = (xs.splitOn sep).map f := by
  apply List.splitOn_intercalate
  · intro t ht
    obtain ⟨s, hs, rfl⟩ := List.mem_map.mp ht
    exact hf s hs
  · rw [ne_eq, List.map_eq_nil_iff]
    exact List.splitOn_ne_nil sep xs

theorem mapParts_mapParts (hf : ∀ s ∈ xs.splitOn sep, sep ∉ f s) :
    mapParts sep g (mapParts sep f xs) = mapParts sep (g ∘ f) xs := by
  rw [mapParts, splitOn_mapParts hf, List.map_map, mapParts]

/-- Parts that stay as they are leave the list as it is. -/
theorem mapParts_eq_self (hf : ∀ s ∈ xs.splitOn sep, f s = s) : mapParts sep f xs = xs := by
  rw [mapParts, List.map_congr_left hf, List.map_id', List.intercalate_splitOn]

/-- What rewrites each part back rewrites the list back. -/
theorem mapParts_leftInverse (hf : ∀ s ∈ xs.splitOn sep, sep ∉ f s) (hg : ∀ s ∈ xs.splitOn sep, g (f s) = s) :
    mapParts sep g (mapParts sep f xs) = xs := by
  rw [mapParts_mapParts hf]
  exact mapParts_eq_self hg

end Parts
