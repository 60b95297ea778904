import Mathlib.Data.List.Basic

/-!
# Streams of records that say their own length

A record is a header and the payload whose length the header gives. A stream is cut into its records from the front;
the last one may be cut off short.
-/
namespace Framed

variable {α : Type*}

/-- A record and where its header stands. -/
structure Frame (α : Type*) where
  i : ℕ
  head : α
  payload : List α
  deriving DecidableEq, Repr

section
variable (count : α → ℕ)

/-- No more steps are taken than `fuel`. -/
def framesFrom : (fuel i : ℕ) → List α → List (Frame α)
  | _, _, [] => []
  | 0, _, _ => []
  | fuel + 1, i, h :: rest =>
      ⟨i, h, rest.take (count h)⟩ :: framesFrom fuel (i + 1 + count h) (rest.drop (count h))

def frames (xs : List α) : List (Frame α) := framesFrom count xs.length 0 xs

/-- The records lie end to end from `i` on and make up the stream; only the last may be short. -/
inductive Tiles : ℕ → List α → List (Frame α) → Prop where
  | nil {i : ℕ} : Tiles i [] []
  | cons {i : ℕ} {h : α} {p rest : List α} {fs : List (Frame α)} :
      p.length = count h ∨ p.length ≤ count h ∧ rest = [] → Tiles (i + 1 + count h) rest fs →
      Tiles i (h :: (p ++ rest)) (⟨i, h, p⟩ :: fs)

end

variable {count : α → ℕ}

theorem framesFrom_tiles {fuel i : ℕ} {xs : List α} (hfuel : xs.length ≤ fuel) :
    Tiles count i xs (framesFrom count fuel i xs) := by
  induction fuel generalizing i xs with
  | zero =>
      rw [List.length_eq_zero_iff.mp (Nat.le_zero.mp hfuel)]
      exact .nil
  | succ fuel ih =>
      cases xs with
      | nil => exact .nil
      | cons h rest =>
          have hdrop : (rest.drop (count h)).length ≤ fuel := by
            rw [List.length_drop]
            rw [List.length_cons] at hfuel
            omega
          have hshort : (rest.take (count h)).length = count h ∨
              (rest.take (count h)).length ≤ count h ∧ rest.drop (count h) = [] := by
            by_cases hlen : count h ≤ rest.length
            · exact .inl (List.length_take_of_le hlen)
            · exact .inr ⟨List.length_take_le .., List.drop_eq_nil_of_le (Nat.le_of_not_le hlen)⟩
          have htiles := Tiles.cons (i := i) hshort (ih hdrop)
          rwa [List.take_append_drop] at htiles

theorem Tiles.unique {i : ℕ} {xs : List α} {fs gs : List (Frame α)} (hf : Tiles count i xs fs)
    (hg : Tiles count i xs gs) : fs = gs := by
  induction hf generalizing gs with
  | nil =>
      cases hg
      rfl
  | @cons i h p rest fs hp _ ih =>
      generalize hxs : h :: (p ++ rest) = xs at hg
      cases hg with
      | nil => cases hxs
      | @cons _ h' p' rest' gs hp' hrest' =>
          injection hxs with hh happ
          subst hh
          have hlen := congrArg List.length happ
          rw [List.length_append, List.length_append] at hlen
          -- a full payload and a short last one have the same length only as the same payload
          have hsplit : p = p' ∧ rest = rest' := by
            refine List.append_inj happ ?_
            obtain hp | ⟨hp, rfl⟩ := hp
            · obtain hp' | ⟨hp', rfl⟩ := hp'
              · exact hp.trans hp'.symm
              · rw [List.length_nil] at hlen
                omega
            · obtain hp' | ⟨hp', rfl⟩ := hp'
              · rw [List.length_nil] at hlen
                omega
              · simpa using hlen
          obtain ⟨rfl, rfl⟩ := hsplit
          rw [ih hrest']

theorem tiles_iff {xs : List α} {fs : List (Frame α)} : Tiles count 0 xs fs ↔ frames count xs = fs :=
  ⟨fun h => (framesFrom_tiles (Nat.le_refl _)).unique h, fun h => h ▸ framesFrom_tiles (Nat.le_refl _)⟩

/-- The headers stand in order, each after the payload before it. -/
theorem Tiles.le_index {i : ℕ} {xs : List α} {fs : List (Frame α)} (h : Tiles count i xs fs) : ∀ f ∈ fs, i ≤ f.i := by
  induction h with
  | nil => exact fun f hf => (List.not_mem_nil hf).elim
  | cons _ _ ih =>
      intro f hf
      obtain rfl | hf := List.mem_cons.mp hf
      · exact Nat.le_refl _
      · have := ih f hf
        omega

theorem Tiles.sorted {i : ℕ} {xs : List α} {fs : List (Frame α)} (h : Tiles count i xs fs) :
    fs.Pairwise (fun f g => f.i < g.i) := by
  induction h with
  | nil => exact .nil
  | cons _ hrest ih =>
      refine .cons (fun g hg => ?_) ih
      have := hrest.le_index g hg
      dsimp only
      omega

def join (rs : List (α × List α)) : List α := rs.flatMap fun r => r.1 :: r.2

section
variable (count)

/-- The records where they come to stand. -/
def place : ℕ → List (α × List α) → List (Frame α)
  | _, [] => []
  | i, r :: rs => ⟨i, r.1, r.2⟩ :: place (i + 1 + count r.1) rs

end

/-- Whole records in front of a stream are cut off as they are. -/
theorem tiles_join_append {rs : List (α × List α)} (h : ∀ r ∈ rs, r.2.length = count r.1) {i : ℕ} {xs : List α}
    {fs : List (Frame α)} (hxs : Tiles count (i + (join rs).length) xs fs) :
    Tiles count i (join rs ++ xs) (place count i rs ++ fs) := by
  induction rs generalizing i with
  | nil => exact hxs
  | cons r rs ih =>
      have hr : r.2.length = count r.1 := h r List.mem_cons_self
      have hlen : i + (join (r :: rs)).length = i + 1 + count r.1 + (join rs).length := by
        rw [join, List.flatMap_cons, List.length_append, List.length_cons, hr, ← join]
        omega
      rw [hlen] at hxs
      have htiles := Tiles.cons (i := i) (h := r.1) (.inl hr) (ih (fun s hs => h s (List.mem_cons_of_mem r hs)) hxs)
      rwa [← List.append_assoc] at htiles

theorem frames_join_append {rs : List (α × List α)} (h : ∀ r ∈ rs, r.2.length = count r.1) (xs : List α) :
    frames count (join rs ++ xs) = place count 0 rs ++ framesFrom count xs.length (join rs).length xs := by
  refine tiles_iff.mp (tiles_join_append h ?_)
  rw [Nat.zero_add]
  exact framesFrom_tiles (Nat.le_refl _)

end Framed
