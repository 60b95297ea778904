import Mathlib.Data.List.Basic

/-!
# Loops that may fail

A loop over a list whose body returns a value or an exception.
-/
namespace Loops

variable {ε α β σ τ : Type}

theorem bind_eq_ok_iff {x : Except ε α} {f : α → Except ε β} {b : β} :
    x >>= f = .ok b ↔ ∃ a, x = .ok a ∧ f a = .ok b := by
  cases x with
  | error e => exact iff_of_false (fun h => by cases h) (by rintro ⟨a, h, -⟩; cases h)
  | ok a => exact ⟨fun h => ⟨a, rfl, h⟩, by rintro ⟨a', h, hb⟩; cases h; exact hb⟩

theorem bind_eq_error_iff {x : Except ε α} {f : α → Except ε β} {e : ε} :
    x >>= f = .error e ↔ x = .error e ∨ ∃ a, x = .ok a ∧ f a = .error e := by
  cases x with
  | error e' =>
      constructor
      · intro h
        cases h
        exact .inl rfl
      · rintro (h | ⟨a, h, -⟩)
        · cases h
          rfl
        · cases h
  | ok a =>
      constructor
      · exact fun h => .inr ⟨a, rfl, h⟩
      · rintro (h | ⟨a', h, he⟩)
        · cases h
        · cases h
          exact he

section
variable {f : σ → α → Except ε σ} {as : List α}

/-- A body that never fails makes a loop that never fails. -/
theorem foldlM_eq_ok {g : σ → α → σ} (h : ∀ a ∈ as, ∀ s, f s a = .ok (g s a)) (s : σ) :
    as.foldlM f s = .ok (as.foldl g s) := by
  induction as generalizing s with
  | nil => rfl
  | cons a as ih =>
      rw [List.foldlM_cons, h a List.mem_cons_self s]
      exact ih (fun b hb => h b (List.mem_cons_of_mem a hb)) (g s a)

/-- A loop that does not fail has gone through its body with every element. -/
theorem exists_of_foldlM_ok {s s' : σ} (h : as.foldlM f s = .ok s') : ∀ a ∈ as, ∃ t t', f t a = .ok t' := by
  induction as generalizing s with
  | nil => exact fun a ha => absurd ha List.not_mem_nil
  | cons a as ih =>
      rw [List.foldlM_cons] at h
      obtain ⟨t, ht, h⟩ := bind_eq_ok_iff.mp h
      exact List.forall_mem_cons.mpr ⟨⟨s, t, ht⟩, ih h⟩

/-- A loop fails as its body does. -/
theorem exists_of_foldlM_error {s : σ} {e : ε} (h : as.foldlM f s = .error e) : ∃ a ∈ as, ∃ t, f t a = .error e := by
  induction as generalizing s with
  | nil => cases h
  | cons a as ih =>
      rw [List.foldlM_cons] at h
      obtain ht | ⟨t, -, h⟩ := bind_eq_error_iff.mp h
      · exact ⟨a, List.mem_cons_self, s, ht⟩
      · obtain ⟨b, hb, t, ht⟩ := ih h
        exact ⟨b, List.mem_cons_of_mem a hb, t, ht⟩

end

/-- A loop over two things that do not depend on each other. -/
theorem foldl_pair (f : σ → α → σ) (g : τ → α → τ) (as : List α) (s : σ) (t : τ) :
    as.foldl (fun u a => (f u.1 a, g u.2 a)) (s, t) = (as.foldl f s, as.foldl g t) := by
  induction as generalizing s t with
  | nil => rfl
  | cons a as ih => exact ih (f s a) (g t a)

end Loops
