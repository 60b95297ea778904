import Mathlib.Data.List.AList

/-!
# Tables filled by assignments

A table is filled by assigning one key after another, and the last value of a key counts. Its entries
stand in the order in which the keys were first assigned.
-/
namespace Dict

/-- Keys with one value each. -/
abbrev Table (κ ν : Type*) := AList fun _ : κ => ν

variable {κ ν : Type*} [DecidableEq κ]

/-- Tables are compared by their entries, so that `decide` can. -/
instance [DecidableEq ν] : DecidableEq (Table κ ν) :=
  fun d d' => decidable_of_iff (d.entries = d'.entries) AList.ext_iff.symm

def setEntry (k : κ) (v : ν) : List ((_ : κ) × ν) → List ((_ : κ) × ν)
  | [] => [⟨k, v⟩]
  | e :: l => if e.1 = k then ⟨k, v⟩ :: l else e :: setEntry k v l

theorem mem_keys_setEntry {k j : κ} {v : ν} {l : List ((_ : κ) × ν)} :
    j ∈ (setEntry k v l).keys ↔ j = k ∨ j ∈ l.keys := by
  induction l with
  | nil => simp [setEntry]
  | cons e l ih =>
      rw [setEntry]
      split_ifs with he
      · simp [he]
      · rw [List.keys_cons, List.mem_cons, ih, List.keys_cons, List.mem_cons, or_left_comm]

theorem nodupKeys_setEntry (k : κ) (v : ν) {l : List ((_ : κ) × ν)} (h : l.NodupKeys) :
    (setEntry k v l).NodupKeys := by
  induction l with
  | nil => exact List.nodupKeys_singleton _
  | cons e l ih =>
      rw [setEntry]
      split_ifs with he
      · rw [← he]
        exact List.nodupKeys_cons.mpr (List.nodupKeys_cons.mp h)
      · obtain ⟨hnot, hl⟩ := List.nodupKeys_cons.mp h
        exact List.nodupKeys_cons.mpr ⟨fun hmem => (mem_keys_setEntry.mp hmem).elim he hnot, ih hl⟩

theorem dlookup_setEntry (k j : κ) (v : ν) (l : List ((_ : κ) × ν)) :
    (setEntry k v l).dlookup j = if j = k then some v else l.dlookup j := by
  induction l with
  | nil =>
      rw [setEntry]
      split_ifs with hj
      · rw [hj, List.dlookup_cons_eq]
      · exact List.dlookup_cons_ne [] (⟨k, v⟩ : (_ : κ) × ν) hj
  | cons e l ih =>
      rw [setEntry]
      split_ifs with he hj hj
      · rw [hj, List.dlookup_cons_eq]
      · rw [List.dlookup_cons_ne l (⟨k, v⟩ : (_ : κ) × ν) hj, List.dlookup_cons_ne l e (he ▸ hj)]
      · rw [List.dlookup_cons_ne _ e (fun hje => he (hje.symm.trans hj)), ih, if_pos hj]
      · by_cases hje : j = e.1
        · obtain ⟨m, w⟩ := e
          subst hje
          rw [List.dlookup_cons_eq, List.dlookup_cons_eq]
        · rw [List.dlookup_cons_ne _ e hje, List.dlookup_cons_ne _ e hje, ih, if_neg hj]

/-- `d[k] = v`: in place where the key is there, behind the others where it is new. -/
def setItem (d : Table κ ν) (k : κ) (v : ν) : Table κ ν := ⟨setEntry k v d.entries, nodupKeys_setEntry k v d.nodupKeys⟩

theorem lookup_setItem_self (d : Table κ ν) (k : κ) (v : ν) : (setItem d k v).lookup k = some v :=
  (dlookup_setEntry k k v d.entries).trans (if_pos rfl)

theorem lookup_setItem_ne (d : Table κ ν) {k j : κ} (v : ν) (h : j ≠ k) : (setItem d k v).lookup j = d.lookup j :=
  (dlookup_setEntry k j v d.entries).trans (if_neg h)

/-- The table after these assignments. -/
def assign (d : Table κ ν) (ps : List (κ × ν)) : Table κ ν := ps.foldl (fun d p => setItem d p.1 p.2) d

def ofList (ps : List (κ × ν)) : Table κ ν := assign ∅ ps

section
variable {d : Table κ ν} {ps : List (κ × ν)} {k : κ} {v : ν}

theorem assign_nil (d : Table κ ν) : assign d [] = d := rfl

theorem assign_cons (d : Table κ ν) (p : κ × ν) (ps : List (κ × ν)) :
    assign d (p :: ps) = assign (setItem d p.1 p.2) ps := rfl

/-- Every value comes from an assignment, or was there. -/
theorem mem_of_lookup_assign (h : (assign d ps).lookup k = some v) : d.lookup k = some v ∨ (k, v) ∈ ps := by
  induction ps generalizing d with
  | nil => exact Or.inl h
  | cons p ps ih =>
      rw [assign_cons] at h
      rcases ih h with hd | hmem
      · by_cases hk : k = p.1
        · rw [hk, lookup_setItem_self, Option.some.injEq] at hd
          rw [hk, ← hd]
          exact Or.inr List.mem_cons_self
        · rw [lookup_setItem_ne _ _ hk] at hd
          exact Or.inl hd
      · exact Or.inr (List.mem_cons_of_mem p hmem)

/-- A key that is not assigned keeps its value. -/
theorem lookup_assign_of_notMem (h : ∀ w, (k, w) ∉ ps) : (assign d ps).lookup k = d.lookup k := by
  induction ps generalizing d with
  | nil => rw [assign_nil]
  | cons p ps ih =>
      have hk : k ≠ p.1 := by
        rintro rfl
        exact h p.2 List.mem_cons_self
      rw [assign_cons, ih fun w hw => h w (List.mem_cons_of_mem p hw), lookup_setItem_ne _ _ hk]

/-- A key that is always assigned the same value has it. -/
theorem lookup_assign_of_mem (h : (k, v) ∈ ps) (hall : ∀ w, (k, w) ∈ ps → w = v) :
    (assign d ps).lookup k = some v := by
  induction ps generalizing d with
  | nil => cases h
  | cons p ps ih =>
      rw [assign_cons]
      by_cases hrest : (k, v) ∈ ps
      · exact ih hrest fun w hw => hall w (List.mem_cons_of_mem p hw)
      · have hp : (k, v) = p := (List.mem_cons.mp h).resolve_right hrest
        subst hp
        rw [lookup_assign_of_notMem, lookup_setItem_self]
        intro w hw
        exact hrest (hall w (List.mem_cons_of_mem _ hw) ▸ hw)

/-- The keys are those that were there and those that are assigned. -/
theorem mem_assign : k ∈ assign d ps ↔ k ∈ d ∨ ∃ w, (k, w) ∈ ps := by
  induction ps generalizing d with
  | nil => simp [assign_nil]
  | cons p ps ih =>
      have hset : k ∈ setItem d p.1 p.2 ↔ k = p.1 ∨ k ∈ d := mem_keys_setEntry
      rw [assign_cons, ih, hset]
      constructor
      · rintro ((rfl | hd) | ⟨w, hw⟩)
        · exact Or.inr ⟨p.2, List.mem_cons_self⟩
        · exact Or.inl hd
        · exact Or.inr ⟨w, List.mem_cons_of_mem p hw⟩
      · rintro (hd | ⟨w, hw⟩)
        · exact Or.inl (Or.inr hd)
        · rcases List.mem_cons.mp hw with rfl | hw
          · exact Or.inl (Or.inl rfl)
          · exact Or.inr ⟨w, hw⟩

theorem mem_of_lookup_ofList (h : (ofList ps).lookup k = some v) : (k, v) ∈ ps := by
  rcases mem_of_lookup_assign h with hd | hmem
  · rw [AList.lookup_empty] at hd
    cases hd
  · exact hmem

theorem lookup_ofList (h : (k, v) ∈ ps) (hall : ∀ w, (k, w) ∈ ps → w = v) : (ofList ps).lookup k = some v :=
  lookup_assign_of_mem h hall

theorem lookup_ofList_of_notMem (h : ∀ w, (k, w) ∉ ps) : (ofList ps).lookup k = none :=
  (lookup_assign_of_notMem h).trans (AList.lookup_empty k)

theorem mem_iff_lookup {d : Table κ ν} : k ∈ d ↔ ∃ v, d.lookup k = some v := by
  rw [← AList.lookup_isSome, Option.isSome_iff_exists]

theorem exists_lookup_ofList (h : (k, v) ∈ ps) : ∃ w, (ofList ps).lookup k = some w :=
  mem_iff_lookup.mp (mem_assign.mpr (Or.inr ⟨v, h⟩))

/-- The entries of a table are what it looks up. -/
theorem mem_entries {d : Table κ ν} : ⟨k, v⟩ ∈ d.entries ↔ d.lookup k = some v := AList.mem_lookup_iff.symm

section
variable {κ' ν' : Type*} [DecidableEq κ'] {f : κ → κ'} {g : ν → ν'}

/-- The table with its keys and values replaced, in its order. -/
def relabel (f : κ → κ') (g : ν → ν') (d : Table κ ν) : Table κ' ν' := ofList (d.entries.map fun e => (f e.1, g e.2))

/-- Keys that stay apart keep their values. -/
theorem lookup_relabel (hf : ∀ j k, j ∈ d → k ∈ d → f j = f k → j = k) {k' : κ'} {v' : ν'} :
    (relabel f g d).lookup k' = some v' ↔ ∃ k v, d.lookup k = some v ∧ f k = k' ∧ g v = v' := by
  constructor
  · intro h
    obtain ⟨e, he, heq⟩ := List.mem_map.mp (mem_of_lookup_ofList h)
    cases heq
    exact ⟨e.1, e.2, mem_entries.mp he, rfl, rfl⟩
  · rintro ⟨k, v, hv, rfl, rfl⟩
    refine lookup_ofList (List.mem_map.mpr ⟨⟨k, v⟩, mem_entries.mpr hv, rfl⟩) fun w hw => ?_
    obtain ⟨⟨j, u⟩, hj, heq⟩ := List.mem_map.mp hw
    obtain ⟨hkey, rfl⟩ := Prod.mk.inj heq
    have hu : d.lookup j = some u := mem_entries.mp hj
    have hjk : j = k := hf j k (mem_iff_lookup.mpr ⟨u, hu⟩) (mem_iff_lookup.mpr ⟨v, hv⟩) hkey
    subst hjk
    rw [Option.some.inj (hu.symm.trans hv)]

theorem mem_relabel (hf : ∀ j k, j ∈ d → k ∈ d → f j = f k → j = k) {k' : κ'} :
    k' ∈ relabel f g d ↔ ∃ k ∈ d, f k = k' := by
  simp only [mem_iff_lookup, lookup_relabel hf]
  constructor
  · rintro ⟨_, k, v, hv, hk, -⟩
    exact ⟨k, ⟨v, hv⟩, hk⟩
  · rintro ⟨k, ⟨v, hv⟩, hk⟩
    exact ⟨g v, k, v, hv, hk, rfl⟩

/-- Under their own keys, values are replaced one by one. -/
theorem lookup_relabel_values (d : Table κ ν) (k : κ) : (relabel id g d).lookup k = (d.lookup k).map g := by
  ext v'
  rw [lookup_relabel (f := id) fun _ _ _ _ h => h, Option.map_eq_some_iff]
  constructor
  · rintro ⟨k, v, hv, rfl, hg⟩
    exact ⟨v, hv, hg⟩
  · rintro ⟨v, hv, hg⟩
    exact ⟨k, v, hv, rfl, hg⟩

end

variable {α : Type*} {f : α → Option (κ × ν)}

omit [DecidableEq κ] in
theorem mem_of_mapM {l : List α} {ps : List (κ × ν)} (h : l.mapM f = some ps) {p : κ × ν} :
    p ∈ ps ↔ ∃ x ∈ l, f x = some p := by
  induction l generalizing ps with
  | nil =>
      rw [List.mapM_nil] at h
      cases h
      exact iff_of_false List.not_mem_nil fun hx => List.not_mem_nil hx.choose_spec.1
  | cons x l ih =>
      rw [List.mapM_cons] at h
      obtain ⟨q, hq, h⟩ := Option.bind_eq_some_iff.mp h
      obtain ⟨qs, hqs, h⟩ := Option.bind_eq_some_iff.mp h
      cases h
      rw [List.mem_cons, ih hqs, List.exists_mem_cons_iff, hq, Option.some.injEq, eq_comm]

omit [DecidableEq κ] in
theorem exists_mapM {l : List α} (h : ∀ x ∈ l, ∃ p, f x = some p) : ∃ ps, l.mapM f = some ps := by
  induction l with
  | nil => exact ⟨[], rfl⟩
  | cons x l ih =>
      obtain ⟨p, hp⟩ := h x List.mem_cons_self
      obtain ⟨ps, hps⟩ := ih fun y hy => h y (List.mem_cons_of_mem x hy)
      refine ⟨p :: ps, ?_⟩
      rw [List.mapM_cons, hp, hps]
      rfl

end
end Dict
