import Sirius.Gpu.Carveout

/-!
# When one scan makes room

The scan purges the shortest front of the takeable objects of the LRU whose pages reach the request.
Whether the second insertion succeeds depends on the holes that this front leaves, not on the
number of its pages.
-/
namespace Sirius.Gpu
namespace Msm

variable {ι : Type} [DecidableEq ι]

section
variable (c : Msm ι) (obj : ι) (npages : ℕ)

/-- The scan can lock the object and the allocator may purge it. -/
def takeable (i : ι) : Bool := c.trylock obj i && (c.object i).reclaimable

/-- The shortest front of a list whose pages, `freed` added, reach `npages`; the whole list if none does. -/
def front (pages : ι → ℕ) (npages : ℕ) : ℕ → List ι → List ι
  | _, [] => []
  | freed, i :: l => if freed < npages then i :: front pages npages (freed + pages i) l else []

def scanned : List ι := front (fun i => (c.object i).size) npages 0 (c.dontneed.filter (c.takeable obj))

def HoleWithout (gone : ι → Bool) : Prop := ∃ a, Hole c.size (c.layoutWithout gone) npages a

/-- If purging every reclaimable object would leave a hole, then so does purging the front of the LRU
that the scan takes. -/
def FrontSuffices : Prop :=
  c.HoleWithout npages (fun i => (c.object i).reclaimable) →
    c.HoleWithout npages (fun i => i ∈ c.scanned obj npages)

/-- The allocation fails only where purging every reclaimable object would not have helped. Every
object is left as it was or was reclaimable and is purged; the one allocated for gets its node. -/
structure Reclaims (mm : DrmMm) : Prop where
  room : (c.getPagesVram mm obj npages).1 = false → ¬c.HoleWithout npages fun i => (c.object i).reclaimable
  purged : ∀ i, i ≠ obj →
    ((c.getPagesVram mm obj npages).2.object i = c.object i ∨
      ((c.object i).reclaimable = true ∧ (c.getPagesVram mm obj npages).2.object i = (c.object i).purge))
  kept : { (c.getPagesVram mm obj npages).2.object obj with vramNode := (c.object obj).vramNode } = c.object obj

end

omit [DecidableEq ι] in
theorem mem_front {pages : ι → ℕ} {npages freed : ℕ} {l : List ι} {i : ι}
    (h : i ∈ front pages npages freed l) : i ∈ l := by
  induction l generalizing freed with
  | nil => simp [front] at h
  | cons j l ih =>
      rw [front] at h
      split at h
      · rcases List.mem_cons.1 h with rfl | h
        · exact List.mem_cons_self
        · exact List.mem_cons_of_mem _ (ih h)
      · cases h

omit [DecidableEq ι] in
theorem front_congr {p q : ι → ℕ} {npages freed : ℕ} {l : List ι} (h : ∀ i ∈ l, p i = q i) :
    front p npages freed l = front q npages freed l := by
  induction l generalizing freed with
  | nil => rfl
  | cons j l ih =>
      rw [front, front, h j List.mem_cons_self, ih fun i hi => h i (List.mem_cons_of_mem _ hi)]

theorem purgeVram_eq (c : Msm ι) (i : ι) :
    c.purgeVram i = if (c.object i).reclaimable then some (c.purgeAt i) else none := by
  unfold purgeVram MsmGemObject.reclaimable
  cases (c.object i).isVramPurgeable <;> cases (c.object i).active <;> rfl

@[simp] theorem moveTail_object (c : Msm ι) (i : ι) : (c.moveTail i).object = c.object := rfl

theorem moveTail_takeable (c : Msm ι) (obj i : ι) : (c.moveTail i).takeable obj = c.takeable obj := rfl

theorem lruScan_cons (c : Msm ι) (obj : ι) {n freed : ℕ} (hfreed : freed < n) (i : ι) (l : List ι) :
    lruScan obj n (i :: l) freed c =
      if c.takeable obj i then lruScan obj n l (freed + (c.object i).size) (c.purgeAt i)
      else lruScan obj n l freed (c.moveTail i) := by
  rw [lruScan, if_pos hfreed, purgeVram_eq, takeable]
  cases c.trylock obj i <;> cases (c.object i).reclaimable <;> rfl

theorem takeable_congr {c c' : Msm ι} {obj i : ι} (hheld : c'.resvHeld = c.resvHeld)
    (hobject : c'.object i = c.object i) : c'.takeable obj i = c.takeable obj i := by
  rw [takeable, takeable, trylock, trylock, hheld, hobject]

/-- The scan purges the front of what it can take and nothing else. -/
theorem lruScan_object (obj : ι) (n : ℕ) {l : List ι} (hl : l.Nodup) (freed : ℕ) (c : Msm ι) :
    (lruScan obj n l freed c).object =
      fun i => if i ∈ front (fun i => (c.object i).size) n freed (l.filter (c.takeable obj))
        then (c.object i).purge else c.object i := by
  induction l generalizing freed c with
  | nil => simp [lruScan, front]
  | cons i l ih =>
      obtain ⟨hi, hl⟩ := List.nodup_cons.1 hl
      by_cases hfreed : freed < n
      · rw [lruScan_cons c obj hfreed]
        by_cases ht : c.takeable obj i = true
        · -- the rest of the list does not hold `i`, so what can be taken of it is as before
          have hne : ∀ j ∈ l, j ≠ i := fun j hj h => hi (h ▸ hj)
          have hsame : ∀ j ∈ l, (c.purgeAt i).object j = c.object j :=
            fun j hj => Function.update_of_ne (hne j hj) _ _
          have hfilter : l.filter ((c.purgeAt i).takeable obj) = l.filter (c.takeable obj) :=
            List.filter_congr fun j hj => takeable_congr rfl (hsame j hj)
          have hfront : ∀ m, front (fun j => ((c.purgeAt i).object j).size) n m (l.filter (c.takeable obj)) =
              front (fun j => (c.object j).size) n m (l.filter (c.takeable obj)) :=
            fun m => front_congr fun j hj => by rw [hsame j (List.mem_of_mem_filter hj)]
          rw [if_pos ht, ih hl, hfilter, hfront, List.filter_cons_of_pos ht, front, if_pos hfreed]
          funext j
          by_cases hji : j = i
          · subst hji
            have hnot : j ∉ front (fun j => (c.object j).size) n (freed + (c.object j).size)
                (l.filter (c.takeable obj)) := fun h => hi (List.mem_of_mem_filter (mem_front h))
            rw [if_neg hnot, if_pos List.mem_cons_self]
            exact Function.update_self _ _ _
          · simp only [List.mem_cons, hji, false_or]
            rw [show (c.purgeAt i).object j = c.object j from Function.update_of_ne hji _ _]
        · rw [if_neg ht, ih hl, List.filter_cons_of_neg ht, moveTail_takeable, moveTail_object]
      · have hempty : ∀ m : List ι, front (fun i => (c.object i).size) n freed m = [] := by
          intro m
          cases m with
          | nil => rfl
          | cons j m => rw [front, if_neg hfreed]
        rw [lruScan, if_neg hfreed, hempty]
        simp

theorem lruScan_fixed (obj : ι) (n : ℕ) (l : List ι) (freed : ℕ) (c : Msm ι) :
    (lruScan obj n l freed c).size = c.size ∧ (lruScan obj n l freed c).objs = c.objs := by
  induction l generalizing freed c with
  | nil => exact ⟨rfl, rfl⟩
  | cons i l ih =>
      by_cases hfreed : freed < n
      · rw [lruScan_cons c obj hfreed]
        split
        · exact ih _ (c.purgeAt i)
        · exact ih _ (c.moveTail i)
      · rw [lruScan, if_neg hfreed]
        exact ⟨rfl, rfl⟩

theorem lruScan_layout (c : Msm ι) (obj : ι) (n : ℕ) :
    (lruScan obj n c.dontneed 0 c).layout = c.layoutWithout fun i => i ∈ c.scanned obj n := by
  rw [layout, layoutWithout, (lruScan_fixed obj n c.dontneed 0 c).2, lruScan_object obj n c.nodup]
  refine List.filterMap_congr fun i _ => ?_
  by_cases h : i ∈ c.scanned obj n
  · simp only [h, decide_true, if_true]
    exact congrArg _ (if_pos h)
  · simp only [h, decide_false]
    exact congrArg _ (if_neg h)

theorem insertNode_eq_none (c : Msm ι) (mm : DrmMm) (obj : ι) (n : ℕ) :
    c.insertNode mm obj n = none ↔ ∀ a, ¬Hole c.size c.layout n a := by
  unfold insertNode
  split
  case h_1 a h => simpa using ⟨a, mm.sound h⟩
  case h_2 h => simpa using mm.complete h

omit [DecidableEq ι] in
theorem layoutWithout_subset (c : Msm ι) {gone : ι → Bool} {b : Node} (h : b ∈ c.layoutWithout gone) :
    b ∈ c.layout := by
  obtain ⟨i, hi, hb⟩ := List.mem_filterMap.1 h
  refine List.mem_filterMap.2 ⟨i, hi, ?_⟩
  split at hb
  · cases hb
  · exact hb

omit [DecidableEq ι] in
theorem Hole.without {c : Msm ι} {n a : ℕ} (h : Hole c.size c.layout n a) (gone : ι → Bool) :
    Hole c.size (c.layoutWithout gone) n a :=
  ⟨h.1, fun b hb => h.2 b (c.layoutWithout_subset hb)⟩

theorem insertNode_object {c c' : Msm ι} {mm : DrmMm} {obj : ι} {n : ℕ} (h : c.insertNode mm obj n = some c') :
    (∀ i, i ≠ obj → c'.object i = c.object i) ∧
      { c'.object obj with vramNode := (c.object obj).vramNode } = c.object obj := by
  unfold insertNode at h
  split at h
  case h_1 a _ =>
    obtain rfl := Option.some.inj h
    refine ⟨fun i hi => Function.update_of_ne hi _ _, ?_⟩
    simp [place]
  case h_2 => cases h

theorem getPagesVram_fails (c : Msm ι) (mm : DrmMm) (obj : ι) (n : ℕ) :
    (c.getPagesVram mm obj n).1 = false ↔ ¬c.HoleWithout n fun i => i ∈ c.scanned obj n := by
  have hscan := insertNode_eq_none (lruScan obj n c.dontneed 0 c) mm obj n
  rw [lruScan_layout, (lruScan_fixed obj n c.dontneed 0 c).1, ← not_exists] at hscan
  unfold getPagesVram
  cases hfirst : c.insertNode mm obj n with
  | some c' =>
      have hroom : ∃ a, Hole c.size c.layout n a := by
        by_contra hnone
        rw [(insertNode_eq_none c mm obj n).2 (not_exists.1 hnone)] at hfirst
        cases hfirst
      obtain ⟨a, ha⟩ := hroom
      simpa using ⟨a, Hole.without ha _⟩
  | none =>
      cases hagain : (lruScan obj n c.dontneed 0 c).insertNode mm obj n with
      | some c' => simpa [hagain, HoleWithout] using hscan
      | none => simpa [hagain, HoleWithout] using hscan

theorem mem_scanned {c : Msm ι} {obj : ι} {n : ℕ} {i : ι} (h : i ∈ c.scanned obj n) :
    i ≠ obj ∧ (c.object i).reclaimable = true := by
  have ht := List.of_mem_filter (mem_front h)
  simp only [takeable, trylock, Bool.and_eq_true, Bool.not_eq_true', Bool.or_eq_false_iff,
    decide_eq_false_iff_not] at ht
  exact ⟨ht.1.1, ht.2⟩

theorem lruScan_purged (c : Msm ι) (obj : ι) (n : ℕ) (i : ι) :
    (lruScan obj n c.dontneed 0 c).object i = c.object i ∨
      i ≠ obj ∧ (c.object i).reclaimable = true ∧
        (lruScan obj n c.dontneed 0 c).object i = (c.object i).purge := by
  rw [lruScan_object obj n c.nodup]
  by_cases h : i ∈ c.scanned obj n
  · exact .inr ⟨(mem_scanned h).1, (mem_scanned h).2, if_pos h⟩
  · exact .inl (if_neg h)

theorem lruScan_obj (c : Msm ι) (obj : ι) (n : ℕ) :
    (lruScan obj n c.dontneed 0 c).object obj = c.object obj :=
  (lruScan_purged c obj n obj).resolve_right fun h => h.1 rfl

theorem getPagesVram_object (c : Msm ι) (mm : DrmMm) (obj : ι) (n : ℕ) :
    (∀ i, i ≠ obj → (c.getPagesVram mm obj n).2.object i = c.object i ∨
      (c.object i).reclaimable = true ∧ (c.getPagesVram mm obj n).2.object i = (c.object i).purge) ∧
    { (c.getPagesVram mm obj n).2.object obj with vramNode := (c.object obj).vramNode } = c.object obj := by
  have hscan := fun i => lruScan_purged c obj n i
  have hobj := lruScan_obj c obj n
  unfold getPagesVram
  cases hfirst : c.insertNode mm obj n with
  | some c' => exact ⟨fun i hi => .inl ((insertNode_object hfirst).1 i hi), (insertNode_object hfirst).2⟩
  | none =>
      cases hagain : (lruScan obj n c.dontneed 0 c).insertNode mm obj n with
      | some c' =>
          obtain ⟨hother, hself⟩ := insertNode_object hagain
          refine ⟨fun i hi => ?_, ?_⟩
          · simp only [hagain]
            rw [hother i hi]
            exact (hscan i).imp id And.right
          · simp only [hagain]
            rw [hobj] at hself
            exact hself
      | none =>
          simp only [hagain]
          exact ⟨fun i _ => (hscan i).imp id And.right, by rw [hobj]⟩

/-- Reclaim finds room whenever purging could make it, exactly where the front of the LRU that reaches
the count of pages leaves a hole if purging everything does. -/
theorem getPagesVram_reclaims_iff (mm : DrmMm) (c : Msm ι) (obj : ι) (npages : ℕ) :
    c.Reclaims obj npages mm ↔ c.FrontSuffices obj npages := by
  constructor
  · intro h hall
    by_contra hfront
    exact h.room ((getPagesVram_fails c mm obj npages).2 hfront) hall
  · intro h
    obtain ⟨hpurged, hkept⟩ := getPagesVram_object c mm obj npages
    exact ⟨fun hfail hall => (getPagesVram_fails c mm obj npages).1 hfail (h hall), hpurged, hkept⟩

/-- Four pages: two objects marked DONTNEED with one in use between them, and a third behind. -/
def twoApart : Msm (Fin 5) where
  size := 4
  objs := [0, 1, 2, 3, 4]
  object := fun
    | 0 => ⟨false, .dontneed, true, false, 0, false, 1, some ⟨0, 1⟩⟩
    | 1 => ⟨false, .willneed, true, false, 0, false, 1, some ⟨1, 1⟩⟩
    | 2 => ⟨false, .dontneed, true, false, 0, false, 1, some ⟨2, 1⟩⟩
    | 3 => ⟨false, .dontneed, true, false, 0, false, 1, some ⟨3, 1⟩⟩
    | _ => ⟨false, .willneed, false, false, 0, false, 2, none⟩
  dontneed := [0, 2, 3]
  resvHeld := fun _ => false
  nodup := by decide
  apart := by decide

/-- Two pages are asked for: the scan stops after the first two objects, which are not adjacent. -/
theorem twoApart_not_reclaimed : ¬twoApart.Reclaims 4 2 firstFit := by
  intro h
  refine h.room (by decide) ⟨2, ?_⟩
  decide

end Msm
end Sirius.Gpu
