import Mathlib.Data.Set.Insert

/-!
# A semaphore used as a mutex

A semaphore of one unit, with the ones that hold it. A holder releases the unit or passes it on; nobody else
raises the semaphore.
-/
namespace Semaphores

variable {η : Type*}

structure Sem (η : Type*) where
  count : ℕ
  holders : Set η

/-- The unit is free, or one holder has it. -/
def Sem.Mutex (s : Sem η) : Prop := s.count = 1 ∧ s.holders = ∅ ∨ s.count = 0 ∧ ∃ h, s.holders = {h}

/-- What may happen to a mutex. -/
inductive Move (s s' : Sem η) : Prop
  | stay (count : s'.count = s.count) (others : ∀ x, x ∈ s'.holders ↔ x ∈ s.holders)
  | take (h : η) (count : s.count = s'.count + 1) (mem : h ∈ s'.holders)
      (others : ∀ x, x ≠ h → (x ∈ s'.holders ↔ x ∈ s.holders))
  | release (h : η) (count : s'.count = s.count + 1) (mem : h ∈ s.holders) (notMem : h ∉ s'.holders)
      (others : ∀ x, x ≠ h → (x ∈ s'.holders ↔ x ∈ s.holders))
  | pass (h h' : η) (count : s'.count = s.count) (mem : h ∈ s.holders) (notMem : h ∉ s'.holders)
      (mem' : h' ∈ s'.holders) (others : ∀ x, x ≠ h → x ≠ h' → (x ∈ s'.holders ↔ x ∈ s.holders))

variable {s s' : Sem η}

theorem Sem.Mutex.count_le (hs : s.Mutex) : s.count ≤ 1 := by
  rcases hs with ⟨hcount, -⟩ | ⟨hcount, -⟩ <;> omega

theorem Sem.Mutex.unique (hs : s.Mutex) {h h' : η} (hh : h ∈ s.holders) (hh' : h' ∈ s.holders) : h = h' := by
  rcases hs with ⟨-, hempty⟩ | ⟨-, h₀, hone⟩
  · rw [hempty] at hh
    exact absurd hh (Set.notMem_empty h)
  · rw [hone] at hh hh'
    exact hh.trans hh'.symm

/-- With a holder, it is the only one and the count is zero. -/
theorem Sem.Mutex.held (hs : s.Mutex) {h : η} (hh : h ∈ s.holders) :
    s.count = 0 ∧ ∀ x, x ∈ s.holders → x = h := by
  refine ⟨?_, fun x hx => hs.unique hx hh⟩
  rcases hs with ⟨-, hempty⟩ | ⟨hcount, -⟩
  · rw [hempty] at hh
    exact absurd hh (Set.notMem_empty h)
  · exact hcount

theorem Move.mutex (hmove : Move s s') (hs : s.Mutex) : s'.Mutex := by
  cases hmove with
  | stay hcount hothers =>
      rw [Sem.Mutex, hcount, Set.ext hothers]
      exact hs
  | take h hcount hmem hothers =>
      rcases hs with ⟨hone, hempty⟩ | ⟨hzero, -⟩
      · refine Or.inr ⟨by omega, h, Set.ext fun x => ⟨fun hx => ?_, fun hx => hx ▸ hmem⟩⟩
        by_contra hne
        rw [hothers x hne, hempty] at hx
        exact hx
      · omega
  | release h hcount hmem hnot hothers =>
      obtain ⟨hzero, hone⟩ := hs.held hmem
      refine Or.inl ⟨by omega, Set.eq_empty_of_forall_notMem fun x hx => ?_⟩
      by_cases hne : x = h
      · exact hnot (hne ▸ hx)
      · exact hne (hone x ((hothers x hne).1 hx))
  | pass h h' hcount hmem hnot hmem' hothers =>
      obtain ⟨hzero, hone⟩ := hs.held hmem
      refine Or.inr ⟨by omega, h', Set.ext fun x => ⟨fun hx => ?_, fun hx => hx ▸ hmem'⟩⟩
      by_contra hne'
      by_cases hne : x = h
      · exact hnot (hne ▸ hx)
      · exact hne (hone x ((hothers x hne hne').1 hx))

theorem Move.released (hmove : Move s s') (hlt : s.count < s'.count) : ∃ h ∈ s.holders, h ∉ s'.holders := by
  cases hmove with
  | stay hcount | take _ hcount | pass _ _ hcount => omega
  | release h _ hmem hnot => exact ⟨h, hmem, hnot⟩

end Semaphores
