import Sirius.Lib.ListHead

/-!
# Lists in one part of the memory

Where no link leads into a set of nodes or out of it, what is done to the nodes outside leaves the
lists inside alone, even while the lists outside are broken.
-/
namespace ListHead

section
variable {ν : Type*} [DecidableEq ν]

/-- Every link can be followed, and leads neither into the part nor out of it. -/
structure Parted (s : Links ν) (A : ν → Prop) : Prop where
  next : ∀ x, ∃ y, s.next x = some y ∧ (A y ↔ A x)
  prev : ∀ x, ∃ y, s.prev x = some y ∧ (A y ↔ A x)

omit [DecidableEq ν] in
/-- The part by itself: every node outside it is linked to itself. -/
def Links.part (s : Links ν) (A : ν → Prop) [DecidablePred A] : Links ν where
  next x := if A x then s.next x else some x
  prev x := if A x then s.prev x else some x

variable {s : Links ν} {A : ν → Prop}

theorem Parted.setNext (h : Parted s A) {n m : ν} (hnm : A m ↔ A n) : Parted (s.setNext n m) A := by
  refine ⟨fun x => ?_, h.prev⟩
  by_cases hx : x = n
  · exact ⟨m, by rw [hx]; exact Function.update_self n _ _, by rw [hx, hnm]⟩
  · obtain ⟨y, hy, hA⟩ := h.next x
    exact ⟨y, (Function.update_of_ne hx _ _).trans hy, hA⟩

theorem Parted.setPrev (h : Parted s A) {n m : ν} (hnm : A m ↔ A n) : Parted (s.setPrev n m) A := by
  refine ⟨h.next, fun x => ?_⟩
  by_cases hx : x = n
  · exact ⟨m, by rw [hx]; exact Function.update_self n _ _, by rw [hx, hnm]⟩
  · obtain ⟨y, hy, hA⟩ := h.prev x
    exact ⟨y, (Function.update_of_ne hx _ _).trans hy, hA⟩

theorem Parted.initHead (h : Parted s A) (n : ν) : Parted (initListHead s n) A :=
  (h.setNext Iff.rfl).setPrev Iff.rfl

theorem Parted.init (h : Parted s A) (ns : List ν) : Parted (ns.foldl initListHead s) A := by
  induction ns generalizing s with
  | nil => exact h
  | cons n ns ih => exact ih (h.initHead n)

variable [DecidablePred A]

omit [DecidableEq ν] in
theorem part_next {x : ν} (hx : A x) : (s.part A).next x = s.next x := if_pos hx

omit [DecidableEq ν] in
theorem part_prev {x : ν} (hx : A x) : (s.part A).prev x = s.prev x := if_pos hx

omit [DecidableEq ν] in
theorem part_unlinked (h : ∀ x, Unlinked s x) : s.part A = s := by
  have hnext : (s.part A).next = s.next := by
    funext x
    by_cases hx : A x
    · exact part_next hx
    · exact (if_neg hx).trans (h x).1.symm
  have hprev : (s.part A).prev = s.prev := by
    funext x
    by_cases hx : A x
    · exact part_prev hx
    · exact (if_neg hx).trans (h x).2.symm
  exact congrArg₂ Links.mk hnext hprev

theorem setNext_part {n m : ν} (hn : A n) : (s.setNext n m).part A = (s.part A).setNext n m := by
  unfold Links.part Links.setNext
  congr 1
  funext x
  dsimp only
  by_cases hx : x = n
  · rw [hx, if_pos hn, Function.update_self, Function.update_self]
  · rw [Function.update_of_ne hx, Function.update_of_ne hx]

theorem setPrev_part {n m : ν} (hn : A n) : (s.setPrev n m).part A = (s.part A).setPrev n m := by
  unfold Links.part Links.setPrev
  congr 1
  funext x
  dsimp only
  by_cases hx : x = n
  · rw [hx, if_pos hn, Function.update_self, Function.update_self]
  · rw [Function.update_of_ne hx, Function.update_of_ne hx]

theorem setNext_part_outside {n m : ν} (hn : ¬ A n) : (s.setNext n m).part A = s.part A := by
  unfold Links.part Links.setNext
  congr 1
  funext x
  dsimp only
  by_cases hx : x = n
  · rw [hx, if_neg hn, if_neg hn]
  · rw [Function.update_of_ne hx]

theorem setPrev_part_outside {n m : ν} (hn : ¬ A n) : (s.setPrev n m).part A = s.part A := by
  unfold Links.part Links.setPrev
  congr 1
  funext x
  dsimp only
  by_cases hx : x = n
  · rw [hx, if_neg hn, if_neg hn]
  · rw [Function.update_of_ne hx]

/-- Linking a node happens in the part it belongs to. -/
theorem Parted.addTail (h : Parted s A) {n head : ν} (hn : A n ↔ A head) :
    ∃ s', listAddTail s n head = some s' ∧ Parted s' A ∧
      (A n → listAddTail (s.part A) n head = some (s'.part A)) ∧ (¬ A n → s'.part A = s.part A) := by
  obtain ⟨p, hp, hA⟩ := h.prev head
  refine ⟨listAdd s n p head, by rw [listAddTail, hp]; rfl, ?_, fun hin => ?_, fun hout => ?_⟩
  · exact (((h.setPrev hn).setNext hn.symm).setPrev (hA.trans hn.symm)).setNext (hn.trans hA.symm)
  · have hhead := hn.mp hin
    rw [listAddTail, part_prev hhead, hp, listAdd, setNext_part (hA.mpr hhead), setPrev_part hin, setNext_part hin,
      setPrev_part hhead]
    rfl
  · have hhead := mt hn.mpr hout
    rw [listAdd, setNext_part_outside (mt hA.mp hhead), setPrev_part_outside hout, setNext_part_outside hout,
      setPrev_part_outside hhead]

/-- Unlinking a node happens in the part it belongs to. -/
theorem Parted.delInit (h : Parted s A) (n : ν) :
    ∃ s', listDelInit s n = some s' ∧ Parted s' A ∧
      (A n → listDelInit (s.part A) n = some (s'.part A)) ∧ (¬ A n → s'.part A = s.part A) := by
  obtain ⟨p, hp, hpA⟩ := h.prev n
  obtain ⟨q, hq, hqA⟩ := h.next n
  have hpq : A p ↔ A q := hpA.trans hqA.symm
  refine ⟨initListHead (listDel s p q) n, by rw [listDelInit, hp, hq]; rfl, ?_, fun hin => ?_, fun hout => ?_⟩
  · exact ((h.setPrev hpq).setNext hpq.symm).initHead n
  · rw [listDelInit, part_prev hin, part_next hin, hp, hq, initListHead, setPrev_part hin, setNext_part hin, listDel,
      setNext_part (hpA.mpr hin), setPrev_part (hqA.mpr hin)]
    rfl
  · rw [initListHead, setPrev_part_outside hout, setNext_part_outside hout, listDel,
      setNext_part_outside (mt hpA.mp hout), setPrev_part_outside (mt hqA.mp hout)]

/-- Initialising nodes leaves the part alone where those in it are unlinked already. -/
theorem part_init {ns : List ν} (h : ∀ n ∈ ns, A n → Unlinked (s.part A) n) :
    (ns.foldl initListHead s).part A = s.part A := by
  unfold Links.part
  congr 1
  · funext x
    rw [(foldl_initListHead s ns x).1]
    by_cases hx : A x
    · rw [if_pos hx, if_pos hx]
      split_ifs with hmem
      · exact (h x hmem hx).1.symm.trans (part_next hx)
      · rfl
    · rw [if_neg hx, if_neg hx]
  · funext x
    rw [(foldl_initListHead s ns x).2]
    by_cases hx : A x
    · rw [if_pos hx, if_pos hx]
      split_ifs with hmem
      · exact (h x hmem hx).2.symm.trans (part_prev hx)
      · rfl
    · rw [if_neg hx, if_neg hx]

variable {β : Type*}

theorem Parted.walk_part (h : Parted s A) (head : ν) (body : β → ν → Option (ForInStep β)) (fuel : ℕ) {pos : ν}
    (hpos : A pos) (b : β) : walk (s.part A) head body fuel pos b = walk s head body fuel pos b := by
  induction fuel generalizing pos b with
  | zero => rfl
  | succ fuel ih =>
      rw [walk, walk]
      split_ifs
      · rfl
      · congr 1
        funext r
        cases r with
        | done b => rfl
        | yield b =>
            obtain ⟨y, hy, hA⟩ := h.next pos
            dsimp only
            rw [part_next hpos, hy, Option.bind_some, Option.bind_some]
            exact ih (hA.mpr hpos) b

theorem Parted.reads_part (h : Parted s A) {head : ν} (hhead : A head) (xs : List ν) :
    Reads (s.part A) head xs ↔ Reads s head xs := by
  unfold Reads listForEachEntry
  obtain ⟨y, hy, hA⟩ := h.next head
  rw [part_next hhead, hy]
  refine exists_congr fun fuel => ?_
  rw [Option.bind_some, Option.bind_some, h.walk_part head collect fuel (hA.mpr hhead)]

end
end ListHead
