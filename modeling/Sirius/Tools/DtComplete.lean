import Sirius.Lib.Parts
import Sirius.Tools.DtSound

/-!
# Refactored trees compare equal

A refactored tree has other phandles, other names for some parts of its paths, and its nodes and
properties in any order. Told of the new names, the program finds no difference.
-/
namespace Sirius.DtEquiv
open Dict Parts

/-- A new name for some parts of the paths, which no path of the tree has. -/
structure Renaming (a : Tree) (ρ : Table Str Str) : Prop where
  injective : ∀ s t u, ρ.lookup s = some u → ρ.lookup t = some u → s = t
  fresh : ∀ s u, ρ.lookup s = some u → ∀ n ∈ a, u ∉ n.splitOn '/'
  plain : ∀ s u, ρ.lookup s = some u → '/' ∉ u ∧ '=' ∉ u

theorem renaming_iff {a : Tree} {ρ : Table Str Str} :
    Renaming a ρ ↔ (∀ e ∈ ρ.entries, ∀ e' ∈ ρ.entries, e.2 = e'.2 → e.1 = e'.1) ∧
      (∀ e ∈ ρ.entries, ∀ n ∈ a.keys, e.2 ∉ n.splitOn '/') ∧ ∀ e ∈ ρ.entries, '/' ∉ e.2 ∧ '=' ∉ e.2 := by
  constructor
  · intro h
    refine ⟨fun e he e' he' heq => ?_, fun e he n hn => ?_, fun e he => h.plain e.1 e.2 (mem_entries.mp he)⟩
    · exact h.injective e.1 e'.1 e.2 (mem_entries.mp he) (heq ▸ mem_entries.mp he')
    · exact h.fresh e.1 e.2 (mem_entries.mp he) n (AList.mem_keys.mpr hn)
  · rintro ⟨hinjective, hfresh, hplain⟩
    constructor
    · exact fun s t u hs ht => hinjective ⟨s, u⟩ (mem_entries.mpr hs) ⟨t, u⟩ (mem_entries.mpr ht) rfl
    · exact fun s u hu n hn => hfresh ⟨s, u⟩ (mem_entries.mpr hu) n (AList.mem_keys.mp hn)
    · exact fun s u hu => hplain ⟨s, u⟩ (mem_entries.mpr hu)

local instance lawfulStr : LawfulBEq (List Char) := inferInstance

instance {a : Tree} {ρ : Table Str Str} : Decidable (Renaming a ρ) := decidable_of_iff _ renaming_iff.symm

/-- One `--rename` for each new name. -/
def renameArgs (ρ : Table Str Str) : List Str := ρ.entries.flatMap fun e => [renameFlag, e.2 ++ '=' :: e.1]

/-- The table that the arguments fill. -/
def renameBack (ρ : Table Str Str) : Table Str Str := ofList (ρ.entries.map fun e => (e.2, e.1))

section
variable {a : Tree} {ρ : Table Str Str}

theorem splitEq_append {u s : Str} (hu : '=' ∉ u) : splitEq (u ++ '=' :: s) = some (u, s) := by
  have hall : ∀ c ∈ u, decide (c ≠ '=') = true := fun c hc => decide_eq_true fun he => hu (he ▸ hc)
  rw [splitEq, if_pos (List.mem_append_right u List.mem_cons_self), List.takeWhile_append_of_pos hall,
    List.dropWhile_append_of_pos hall]
  simp

/-- Each pair of arguments is one more assignment. -/
theorem parseRenames_append (l : List ((_ : Str) × Str)) (hl : ∀ e ∈ l, '=' ∉ e.2) {before after : Str}
    (hbefore : before ≠ renameFlag) (d : Table Str Str) :
    parseRenames d (l.flatMap (fun e => [renameFlag, e.2 ++ '=' :: e.1]) ++ [before, after]) =
      some (assign d (l.map fun e => (e.2, e.1)), [before, after]) := by
  induction l generalizing d with
  | nil =>
      rw [List.flatMap_nil, List.nil_append, parseRenames, if_neg hbefore, List.map_nil, assign_nil]
  | cons e l ih =>
      rw [List.flatMap_cons, List.append_assoc, List.cons_append, List.cons_append, List.nil_append, parseRenames,
        if_pos rfl, splitEq_append (hl e List.mem_cons_self), List.map_cons, assign_cons]
      exact ih (fun e' he' => hl e' (List.mem_cons_of_mem e he')) _

theorem parseRenames_renameArgs (hρ : Renaming a ρ) {before after : Str} (hbefore : before ≠ renameFlag) :
    parseRenames ∅ (renameArgs ρ ++ [before, after]) = some (renameBack ρ, [before, after]) :=
  parseRenames_append ρ.entries (fun _ he => (hρ.plain _ _ (mem_entries.mp he)).2) hbefore ∅

theorem mem_swapped {s u : Str} : (u, s) ∈ ρ.entries.map (fun e => (e.2, e.1)) ↔ ρ.lookup s = some u := by
  rw [← mem_entries, List.mem_map]
  constructor
  · rintro ⟨e, he, heq⟩
    cases heq
    exact he
  · exact fun he => ⟨_, he, rfl⟩

/-- A part of a path of the tree gets its name back. -/
theorem renameBack_part (hρ : Renaming a ρ) {n : Str} (hn : n ∈ a) {s : Str} (hs : s ∈ n.splitOn '/') :
    (((renameBack ρ).lookup ((ρ.lookup s).getD s)).getD ((ρ.lookup s).getD s)) = s := by
  cases hu : ρ.lookup s with
  | none =>
      have hnone : (renameBack ρ).lookup s = none :=
        lookup_ofList_of_notMem fun t ht => hρ.fresh t s (mem_swapped.mp ht) n hn hs
      rw [Option.getD_none, hnone, Option.getD_none]
  | some u =>
      have hback : (renameBack ρ).lookup u = some s :=
        lookup_ofList (mem_swapped.mpr hu) fun t ht => hρ.injective t s u (mem_swapped.mp ht) hu
      rw [Option.getD_some, hback, Option.getD_some]

theorem separator_notMem (hρ : Renaming a ρ) {n s : Str} (hs : s ∈ n.splitOn '/') : '/' ∉ (ρ.lookup s).getD s := by
  cases hu : ρ.lookup s with
  | none => exact notMem_of_mem_splitOn hs
  | some u => exact (hρ.plain s u hu).1

/-- The paths of the tree are restored. -/
theorem rename_renameBack (hρ : Renaming a ρ) {n : Str} (hn : n ∈ a) : rename (renameBack ρ) (rename ρ n) = n :=
  mapParts_leftInverse (fun _ hs => separator_notMem hρ hs) fun _ hs => renameBack_part hρ hn hs

end

/-- Phandles are cells, and no two nodes have the same. -/
structure Numbered (a : Tree) : Prop where
  word : ∀ n p k v, a.lookup n = some p → k ∈ phandleKeys → p.lookup k = some v → ∃ x, unpack v = some x
  distinct : ∀ n m x, HasPhandle a n x → HasPhandle a m x → n = m

theorem numbered_iff {a : Tree} :
    Numbered a ↔ (∀ e ∈ phandleProps a, (unpack e.2).isSome) ∧
      ∀ e ∈ phandleProps a, ∀ e' ∈ phandleProps a, unpack e.2 = unpack e'.2 → e.1 = e'.1 := by
  constructor
  · intro h
    have hword : ∀ e ∈ phandleProps a, ∃ x, unpack e.2 = some x ∧ HasPhandle a e.1 x := by
      rintro ⟨n, v⟩ he
      obtain ⟨p, hp, k, hk, hv⟩ := mem_phandleProps.mp he
      obtain ⟨x, hx⟩ := h.word n p k v hp hk hv
      exact ⟨x, hx, p, hp, k, hk, v, hv, hx⟩
    refine ⟨fun e he => ?_, fun e he e' he' heq => ?_⟩
    · obtain ⟨x, hx, -⟩ := hword e he
      rw [hx, Option.isSome_some]
    · obtain ⟨x, hx, hnode⟩ := hword e he
      obtain ⟨y, hy, hnode'⟩ := hword e' he'
      rw [hx, hy, Option.some.injEq] at heq
      exact h.distinct e.1 e'.1 x hnode (heq ▸ hnode')
  · rintro ⟨hword, hdistinct⟩
    constructor
    · exact fun n p k v hp hk hv => Option.isSome_iff_exists.mp (hword (n, v) (mem_phandleProps.mpr ⟨p, hp, k, hk, hv⟩))
    · rintro n m x ⟨p, hp, k, hk, v, hv, hx⟩ ⟨p', hp', k', hk', v', hv', hx'⟩
      exact hdistinct (n, v) (mem_phandleProps.mpr ⟨p, hp, k, hk, hv⟩)
        (m, v') (mem_phandleProps.mpr ⟨p', hp', k', hk', hv'⟩) (hx.trans hx'.symm)

instance {a : Tree} : Decidable (Numbered a) := decidable_of_iff _ numbered_iff.symm

/-- The cell, or the new number of the phandle it is. -/
def NewCell (σ : BitVec 32 → BitVec 32) (a : Tree) (x y : BitVec 32) : Prop :=
  y = x ∨ (∃ n, HasPhandle a n x) ∧ y = σ x

/-- The properties of a node, where the phandles have other numbers. -/
structure NewProps (σ : BitVec 32 → BitVec 32) (a : Tree) (p q : Props) : Prop where
  names : ∀ k, k ∈ p ↔ k ∈ q
  phandle : ∀ k v w x, k ∈ phandleKeys → p.lookup k = some v → q.lookup k = some w → unpack v = some x →
    unpack w = some (σ x)
  value : ∀ k v w, k ∉ phandleKeys → p.lookup k = some v → q.lookup k = some w →
    v = w ∨ v.length = w.length ∧ 4 ∣ v.length ∧ List.Forall₂ (NewCell σ a) (cells v) (cells w)

/-- The tree with other names and phandles, and in any order. -/
structure Refactored (σ : BitVec 32 → BitVec 32) (ρ : Table Str Str) (a raw : Tree) : Prop where
  nodes : ∀ m, m ∈ raw ↔ ∃ n ∈ a, rename ρ n = m
  props : ∀ n p q, a.lookup n = some p → raw.lookup (rename ρ n) = some q → NewProps σ a p q

section
variable {a raw : Tree} {ρ : Table Str Str} {σ : BitVec 32 → BitVec 32}

theorem mem_of_hasPhandle {nodes : Tree} {n : Str} {x : BitVec 32} (h : HasPhandle nodes n x) : n ∈ nodes := by
  obtain ⟨p, hp, -⟩ := h
  exact mem_iff_lookup.mpr ⟨p, hp⟩

theorem Numbered.phandles_eq_some (ha : Numbered a) : ∃ table, phandles a = some table := by
  have hall : ∀ e ∈ phandleProps a, ∃ r, (unpack e.2).map (fun x => (x, e.1)) = some r := by
    rintro ⟨n, v⟩ he
    obtain ⟨p, hp, k, hk, hv⟩ := mem_phandleProps.mp he
    obtain ⟨x, hx⟩ := ha.word n p k v hp hk hv
    exact ⟨(x, n), by rw [hx]; rfl⟩
  obtain ⟨ps, hps⟩ := exists_mapM hall
  exact ⟨ofList ps, by rw [phandles, hps]; rfl⟩

/-- The phandles of the result are the renumbered ones, at the renamed nodes. -/
theorem Refactored.hasPhandle_iff (h : Refactored σ ρ a raw) (ha : Numbered a) {m : Str} {y : BitVec 32} :
    HasPhandle raw m y ↔ ∃ n x, HasPhandle a n x ∧ rename ρ n = m ∧ σ x = y := by
  constructor
  · rintro ⟨q, hq, k, hk, w, hw, hy⟩
    obtain ⟨n, hn, rfl⟩ := (h.nodes m).mp (mem_iff_lookup.mpr ⟨q, hq⟩)
    obtain ⟨p, hp⟩ := mem_iff_lookup.mp hn
    have hprops := h.props n p q hp hq
    obtain ⟨v, hv⟩ := mem_iff_lookup.mp ((hprops.names k).mpr (mem_iff_lookup.mpr ⟨w, hw⟩))
    obtain ⟨x, hx⟩ := ha.word n p k v hp hk hv
    have hnew := hprops.phandle k v w x hk hv hw hx
    exact ⟨n, x, ⟨p, hp, k, hk, v, hv, hx⟩, rfl, Option.some.inj (hnew.symm.trans hy)⟩
  · rintro ⟨n, x, ⟨p, hp, k, hk, v, hv, hx⟩, rfl, rfl⟩
    obtain ⟨q, hq⟩ := mem_iff_lookup.mp ((h.nodes _).mpr ⟨n, mem_iff_lookup.mpr ⟨p, hp⟩, rfl⟩)
    have hprops := h.props n p q hp hq
    obtain ⟨w, hw⟩ := mem_iff_lookup.mp ((hprops.names k).mp (mem_iff_lookup.mpr ⟨v, hv⟩))
    exact ⟨q, hq, k, hk, w, hw, hprops.phandle k v w x hk hv hw hx⟩

/-- The result is numbered as well. -/
theorem Refactored.numbered (h : Refactored σ ρ a raw) (ha : Numbered a)
    (hσ : Set.InjOn σ {x | ∃ n, HasPhandle a n x}) : Numbered raw := by
  constructor
  · intro m q k w hq hk hw
    obtain ⟨n, hn, rfl⟩ := (h.nodes m).mp (mem_iff_lookup.mpr ⟨q, hq⟩)
    obtain ⟨p, hp⟩ := mem_iff_lookup.mp hn
    have hprops := h.props n p q hp hq
    obtain ⟨v, hv⟩ := mem_iff_lookup.mp ((hprops.names k).mpr (mem_iff_lookup.mpr ⟨w, hw⟩))
    obtain ⟨x, hx⟩ := ha.word n p k v hp hk hv
    exact ⟨σ x, hprops.phandle k v w x hk hv hw hx⟩
  · intro m m' y hm hm'
    obtain ⟨n, x, hx, rfl, hy⟩ := (h.hasPhandle_iff ha).mp hm
    obtain ⟨n', x', hx', rfl, hy'⟩ := (h.hasPhandle_iff ha).mp hm'
    have heq : x = x' := hσ ⟨n, hx⟩ ⟨n', hx'⟩ (hy.trans hy'.symm)
    rw [ha.distinct n n' x hx (heq ▸ hx')]

/-- A cell with the number of a phandle is taken to be one. -/
def newCell (σ : BitVec 32 → BitVec 32) (a : Tree) (x : BitVec 32) : BitVec 32 :=
  if (phandleProps a).any fun e => unpack e.2 = some x then σ x else x

def newValue (σ : BitVec 32 → BitVec 32) (a : Tree) (v : Bytes) : Bytes :=
  if v.length % 4 = 0 then (cells v).flatMap fun x => pack (newCell σ a x) else v

def refactor (σ : BitVec 32 → BitVec 32) (ρ : Table Str Str) (a : Tree) : Tree :=
  relabel (rename ρ) (relabel id (newValue σ a)) a

theorem append_extract (x : BitVec 32) :
    x.extractLsb' 24 8 ++ x.extractLsb' 16 8 ++ x.extractLsb' 8 8 ++ x.extractLsb' 0 8 = x := by
  ext i hi
  simp only [BitVec.getElem_append, BitVec.getElem_extractLsb']
  grind

theorem unpack_pack (x : BitVec 32) : unpack (pack x) = some x := congrArg some (append_extract x)

theorem cells_flatMap_pack (f : BitVec 32 → BitVec 32) (xs : List (BitVec 32)) :
    cells (xs.flatMap fun x => pack (f x)) = xs.map f := by
  induction xs with
  | nil => rfl
  | cons x xs ih => rw [List.flatMap_cons, pack, List.cons_append, List.cons_append, List.cons_append, List.cons_append,
      List.nil_append, cells, append_extract, ih, List.map_cons]

theorem length_flatMap_pack (f : BitVec 32 → BitVec 32) (xs : List (BitVec 32)) :
    (xs.flatMap fun x => pack (f x)).length = 4 * xs.length := by
  induction xs with
  | nil => rfl
  | cons x xs ih =>
      rw [List.flatMap_cons, List.length_append, ih, List.length_cons]
      exact Nat.add_comm 4 _

theorem any_phandleProps {x : BitVec 32} :
    ((phandleProps a).any fun e => unpack e.2 = some x) = true ↔ ∃ n, HasPhandle a n x := by
  simp only [List.any_eq_true, decide_eq_true_iff]
  constructor
  · rintro ⟨⟨n, v⟩, he, hx⟩
    obtain ⟨p, hp, k, hk, hv⟩ := mem_phandleProps.mp he
    exact ⟨n, p, hp, k, hk, v, hv, hx⟩
  · rintro ⟨n, p, hp, k, hk, v, hv, hx⟩
    exact ⟨(n, v), mem_phandleProps.mpr ⟨p, hp, k, hk, hv⟩, hx⟩

theorem newCell_spec (x : BitVec 32) : NewCell σ a x (newCell σ a x) := by
  unfold newCell
  split_ifs with hx
  · exact Or.inr ⟨any_phandleProps.mp hx, rfl⟩
  · exact Or.inl rfl

theorem newValue_spec (v : Bytes) : v = newValue σ a v ∨ v.length = (newValue σ a v).length ∧ 4 ∣ v.length ∧
    List.Forall₂ (NewCell σ a) (cells v) (cells (newValue σ a v)) := by
  unfold newValue
  split_ifs with hfour
  · have hdvd := Nat.dvd_of_mod_eq_zero hfour
    refine Or.inr ⟨?_, hdvd, ?_⟩
    · rw [length_flatMap_pack, cells_length, Nat.mul_div_cancel' hdvd]
    · rw [cells_flatMap_pack, List.forall₂_map_right_iff, List.forall₂_same]
      exact fun x _ => newCell_spec x
  · exact Or.inl rfl

theorem cells_of_unpack {v : Bytes} {x : BitVec 32} (hv : unpack v = some x) : v.length = 4 ∧ cells v = [x] := by
  match v, hv with
  | [b, c, d, e], hv =>
      cases hv
      exact ⟨rfl, rfl⟩

theorem unpack_newValue {n : Str} {v : Bytes} {x : BitVec 32} (hx : HasPhandle a n x) (hv : unpack v = some x) :
    unpack (newValue σ a v) = some (σ x) := by
  obtain ⟨hlength, hcells⟩ := cells_of_unpack hv
  have hnew : newCell σ a x = σ x := if_pos (any_phandleProps.mpr ⟨n, hx⟩)
  rw [newValue, if_pos (by rw [hlength]), hcells, List.flatMap_singleton, hnew, unpack_pack]

theorem relabel_newValue {n : Str} {p : Props} (hp : a.lookup n = some p) :
    NewProps σ a p (relabel id (newValue σ a) p) := by
  constructor
  · intro k
    rw [mem_relabel (f := id) fun _ _ _ _ h => h]
    exact ⟨fun hk => ⟨k, hk, rfl⟩, fun ⟨_, hk, he⟩ => he ▸ hk⟩
  · intro k v w x hk hv hw hx
    rw [lookup_relabel_values, hv] at hw
    cases hw
    exact unpack_newValue ⟨p, hp, k, hk, v, hv, hx⟩ hx
  · intro k v w _ hv hw
    rw [lookup_relabel_values, hv] at hw
    cases hw
    exact newValue_spec v

/-- Every renaming and every renumbering can be carried out. -/
theorem refactor_refactored (hρ : Renaming a ρ) : Refactored σ ρ a (refactor σ ρ a) := by
  have hapart : ∀ m n, m ∈ a → n ∈ a → rename ρ m = rename ρ n → m = n := by
    intro m n hm hn heq
    rw [← rename_renameBack hρ hm, heq, rename_renameBack hρ hn]
  constructor
  · intro m
    exact mem_relabel hapart
  · intro n p q hp hq
    obtain ⟨n', p', hp', hn', rfl⟩ := (lookup_relabel hapart).mp hq
    have hsame : n' = n := hapart n' n (mem_iff_lookup.mpr ⟨p', hp'⟩) (mem_iff_lookup.mpr ⟨p, hp⟩) hn'
    subst hsame
    cases hp.symm.trans hp'
    exact relabel_newValue hp

theorem Refactored.renames_apart (h : Refactored σ ρ a raw) (hρ : Renaming a ρ) (m m' : Str) (hm : m ∈ raw)
    (hm' : m' ∈ raw) (heq : rename (renameBack ρ) m = rename (renameBack ρ) m') : m = m' := by
  obtain ⟨n, hn, rfl⟩ := (h.nodes m).mp hm
  obtain ⟨n', hn', rfl⟩ := (h.nodes m').mp hm'
  rw [rename_renameBack hρ hn, rename_renameBack hρ hn'] at heq
  rw [heq]

/-- The renamed result has the paths of the tree. -/
theorem Refactored.mem_renameTree (h : Refactored σ ρ a raw) (hρ : Renaming a ρ) {n : Str} :
    n ∈ renameTree (renameBack ρ) raw ↔ n ∈ a := by
  refine (mem_relabel (g := id) (h.renames_apart hρ)).trans ?_
  constructor
  · rintro ⟨m, hm, rfl⟩
    obtain ⟨n, hn, rfl⟩ := (h.nodes m).mp hm
    rwa [rename_renameBack hρ hn]
  · intro hn
    exact ⟨rename ρ n, (h.nodes _).mpr ⟨n, hn, rfl⟩, rename_renameBack hρ hn⟩

theorem Refactored.lookup_renameTree (h : Refactored σ ρ a raw) (hρ : Renaming a ρ) {n : Str} {q : Props}
    (hq : (renameTree (renameBack ρ) raw).lookup n = some q) : raw.lookup (rename ρ n) = some q := by
  obtain ⟨m, q', hm, rfl, rfl⟩ := (lookup_relabel (g := id) (h.renames_apart hρ)).mp hq
  obtain ⟨n, hn, rfl⟩ := (h.nodes m).mp (mem_iff_lookup.mpr ⟨q', hm⟩)
  rwa [rename_renameBack hρ hn]

section
variable {pa pr : Phandles} (h : Refactored σ ρ a raw) (ha : Numbered a) (hρ : Renaming a ρ)
  (hσ : Set.InjOn σ {x | ∃ n, HasPhandle a n x}) (hpa : phandles a = some pa) (hpr : phandles raw = some pr)
include h ha hρ hσ hpa hpr

/-- A renumbered cell is a phandle of the same node in both tables. -/
theorem Refactored.sameCell {x y : BitVec 32} (hxy : NewCell σ a x y) :
    sameCell pa (renamePhandles (renameBack ρ) pr) x y = true := by
  rcases hxy with heq | ⟨⟨n, hx⟩, rfl⟩
  · exact sameCell_iff.mpr (Or.inl heq.symm)
  · have hbefore : pa.lookup x = some n := lookup_of_hasPhandle hpa hx fun m hm => ha.distinct m n x hm hx
    have hy : HasPhandle raw (rename ρ n) (σ x) := (h.hasPhandle_iff ha).mpr ⟨n, x, hx, rfl, rfl⟩
    have hafter : pr.lookup (σ x) = some (rename ρ n) :=
      lookup_of_hasPhandle hpr hy fun m hm => (h.numbered ha hσ).distinct m _ _ hm hy
    refine sameCell_iff.mpr (Or.inr ⟨n, hbefore, ?_⟩)
    rw [lookup_renamePhandles, hafter, Option.map_some, rename_renameBack hρ (mem_of_hasPhandle hx)]

theorem Refactored.sameProps {p q : Props} (hpq : NewProps σ a p q) :
    SameProps pa (renamePhandles (renameBack ρ) pr) p q := by
  intro k hk
  refine ⟨hpq.names k, fun v w hv hw => sameValue_iff.mpr ?_⟩
  refine (hpq.value k v w hk hv hw).imp_right ?_
  rintro ⟨hlength, hfour, hcells⟩
  exact ⟨hlength, hfour, hcells.imp fun x y hxy => h.sameCell ha hρ hσ hpa hpr hxy⟩

theorem Refactored.compare_eq_nil :
    compare pa (renamePhandles (renameBack ρ) pr) a (renameTree (renameBack ρ) raw) = [] := by
  rw [DtEquiv.compare_eq_nil]
  constructor
  · intro n _
    exact (h.mem_renameTree hρ).symm
  · intro n p q _ hp hq
    exact h.sameProps ha hρ hσ hpa hpr (h.props n p q hp (h.lookup_renameTree hρ hq))

end

/-- The original compares equal to the refactored tree. -/
theorem refactored_compares_equal {load : Str → Option Tree} {before after : Str} (hbefore : before ≠ renameFlag)
    (hload : load before = some a) (hraw : load after = some raw) (ha : Numbered a) (hρ : Renaming a ρ)
    (hσ : Set.InjOn σ {x | ∃ n, HasPhandle a n x}) (h : Refactored σ ρ a raw) :
    main load (renameArgs ρ ++ [before, after]) = some ([], 0) := by
  obtain ⟨pa, hpa⟩ := ha.phandles_eq_some
  obtain ⟨pr, hpr⟩ := (h.numbered ha hσ).phandles_eq_some
  rw [main_eq_some]
  refine ⟨renameBack ρ, before, after, a, raw, pa, pr, parseRenames_renameArgs hρ hbefore, hload, hraw, hpa, hpr, ?_,
    rfl⟩
  exact (h.compare_eq_nil ha hρ hσ hpa hpr).symm

/-- A board with every phandle raised by six and a node `x` that is now called `z`. -/
theorem refactored_compares_equal_board :
    main (load (twoFiles (boardBlob "x" 1 2 1) (boardBlob "z" 7 8 7)))
      (renameArgs (AList.singleton "x".toList "z".toList) ++ ["before".toList, "after".toList]) = some ([], 0) := by
  have ha : Numbered (board "x" 1 2 1) := by decide +kernel
  have hρ : Renaming (board "x" 1 2 1) (AList.singleton "x".toList "z".toList) := by decide +kernel
  have hraw : load (twoFiles (boardBlob "x" 1 2 1) (boardBlob "z" 7 8 7)) "after".toList =
      some (refactor (· + 6) (AList.singleton "x".toList "z".toList) (board "x" 1 2 1)) := by decide +kernel
  have hσ : Set.InjOn (· + 6) {x | ∃ n, HasPhandle (board "x" 1 2 1) n x} :=
    fun _ _ _ _ h => (BitVec.add_left_inj 6).mp h
  exact refactored_compares_equal (by decide) (by decide +kernel) hraw ha hρ hσ (refactor_refactored hρ)

end
end Sirius.DtEquiv
