import Mathlib.Order.Bounds.Basic

/-!
# Least and greatest of what was seen

A loop that keeps the smallest value so far, of the elements it is about, ends with the smallest of what it started
with and of their values.
-/
namespace Extent

variable {σ α β : Type*} [LinearOrder β]

section
variable {step : σ → α → σ} (p : α → Prop) [DecidablePred p] (f : α → β)

/-- Where a part of the state is the smallest so far, after a step and so after the loop. -/
theorem isLeast_foldl (least : σ → β) (hstep : ∀ s a, least (step s a) = if p a ∧ f a < least s then f a else least s)
    (as : List α) (s : σ) :
    IsLeast (insert (least s) {b | ∃ a ∈ as, p a ∧ f a = b}) (least (as.foldl step s)) := by
  induction as generalizing s with
  | nil =>
      have hempty : {b | ∃ a ∈ ([] : List α), p a ∧ f a = b} = ∅ :=
        Set.eq_empty_of_forall_notMem fun b ⟨a, ha, _⟩ => List.not_mem_nil ha
      rw [hempty, insert_empty_eq]
      exact isLeast_singleton
  | cons a as ih =>
      obtain ⟨hmem, hle⟩ := ih (step s a)
      have hfirst := hle (Set.mem_insert _ _)
      have hrest : ∀ a' ∈ as, p a' → least ((a :: as).foldl step s) ≤ f a' :=
        fun a' ha' hp => hle (.inr ⟨a', ha', hp, rfl⟩)
      rw [hstep] at hmem hfirst
      constructor
      · obtain heq | ⟨a', ha', hp, heq⟩ := hmem
        · rw [List.foldl_cons, heq]
          split
          · rename_i hand
            exact .inr ⟨a, List.mem_cons_self, hand.1, rfl⟩
          · exact Set.mem_insert _ _
        · exact .inr ⟨a', List.mem_cons_of_mem a ha', hp, heq⟩
      · rintro b (rfl | ⟨a', ha', hp, rfl⟩)
        · split at hfirst
          · rename_i hand
            exact hfirst.trans hand.2.le
          · exact hfirst
        · obtain rfl | ha' := List.mem_cons.mp ha'
          · split at hfirst
            · exact hfirst
            · rename_i hand
              exact hfirst.trans (not_lt.mp fun hlt => hand ⟨hp, hlt⟩)
          · exact hrest a' ha' hp

theorem isGreatest_foldl (greatest : σ → β)
    (hstep : ∀ s a, greatest (step s a) = if p a ∧ greatest s < f a then f a else greatest s) (as : List α) (s : σ) :
    IsGreatest (insert (greatest s) {b | ∃ a ∈ as, p a ∧ f a = b}) (greatest (as.foldl step s)) :=
  isLeast_foldl (β := βᵒᵈ) p f greatest hstep as s

end

variable {s : Set β} {m r : β}

/-- A start that is not below everything does not matter. -/
theorem isLeast_of_insert (h : IsLeast (insert m s) r) (hs : ∃ b ∈ s, b ≤ m) : IsLeast s r := by
  obtain ⟨b, hb, hle⟩ := hs
  refine ⟨?_, fun c hc => h.2 (.inr hc)⟩
  obtain heq | hr := h.1
  · rwa [heq, ← hle.antisymm (heq ▸ h.2 (.inr hb))]
  · exact hr

theorem isGreatest_of_insert (h : IsGreatest (insert m s) r) (hs : ∃ b ∈ s, m ≤ b) : IsGreatest s r :=
  isLeast_of_insert (β := βᵒᵈ) h hs

end Extent
