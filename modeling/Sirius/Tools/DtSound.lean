import Sirius.Tools.DtEquiv

/-!
# What a comparison without differences means

Zero differences mean the same node paths, the same property names but for the phandles, and values
that agree as a whole or cell by cell, a cell being the same number or a phandle of the same node.
-/
namespace Sirius.DtEquiv
open Dict

/-- The node has this phandle. -/
def HasPhandle (nodes : Tree) (n : Str) (x : BitVec 32) : Prop :=
  ∃ p, nodes.lookup n = some p ∧ ∃ k ∈ phandleKeys, ∃ v, p.lookup k = some v ∧ unpack v = some x

section
variable {nodes : Tree} {table : Phandles} {n : Str} {x : BitVec 32}

theorem mem_phandleProps {v : Bytes} :
    (n, v) ∈ phandleProps nodes ↔ ∃ p, nodes.lookup n = some p ∧ ∃ k ∈ phandleKeys, p.lookup k = some v := by
  unfold phandleProps
  rw [List.mem_flatMap]
  constructor
  · rintro ⟨⟨m, p⟩, hentry, hmem⟩
    obtain ⟨k, hk, hv⟩ := List.mem_filterMap.mp hmem
    obtain ⟨w, hw, he⟩ := Option.map_eq_some_iff.mp hv
    cases he
    exact ⟨p, mem_entries.mp hentry, k, hk, hw⟩
  · rintro ⟨p, hp, k, hk, hv⟩
    refine ⟨⟨n, p⟩, mem_entries.mpr hp, List.mem_filterMap.mpr ⟨k, hk, ?_⟩⟩
    rw [hv]
    rfl

theorem mem_phandles {ps : List (BitVec 32 × Str)}
    (h : ((phandleProps nodes).mapM fun p => (unpack p.2).map fun x => (x, p.1)) = some ps) :
    (x, n) ∈ ps ↔ HasPhandle nodes n x := by
  rw [mem_of_mapM h]
  constructor
  · rintro ⟨⟨m, v⟩, hmem, hx⟩
    obtain ⟨y, hy, he⟩ := Option.map_eq_some_iff.mp hx
    cases he
    obtain ⟨p, hp, k, hk, hv⟩ := mem_phandleProps.mp hmem
    exact ⟨p, hp, k, hk, v, hv, hy⟩
  · rintro ⟨p, hp, k, hk, v, hv, hx⟩
    refine ⟨(n, v), mem_phandleProps.mpr ⟨p, hp, k, hk, hv⟩, ?_⟩
    rw [hx]
    rfl

/-- A node that the table names has the phandle. -/
theorem hasPhandle_of_lookup (h : phandles nodes = some table) (hx : table.lookup x = some n) :
    HasPhandle nodes n x := by
  obtain ⟨ps, hps, he⟩ := Option.bind_eq_some_iff.mp h
  cases he
  exact (mem_phandles hps).mp (mem_of_lookup_ofList hx)

/-- The only node with the phandle is the one that the table names. -/
theorem lookup_of_hasPhandle (h : phandles nodes = some table) (hx : HasPhandle nodes n x)
    (honly : ∀ m, HasPhandle nodes m x → m = n) : table.lookup x = some n := by
  obtain ⟨ps, hps, he⟩ := Option.bind_eq_some_iff.mp h
  cases he
  exact lookup_ofList ((mem_phandles hps).mpr hx) fun m hm => honly m ((mem_phandles hps).mp hm)

theorem lookup_renamePhandles (renames : Table Str Str) (table : Phandles) (x : BitVec 32) :
    (renamePhandles renames table).lookup x = (table.lookup x).map (rename renames) :=
  lookup_relabel_values table x

end

theorem mem_sorted {xs : List Str} {x : Str} : x ∈ sorted xs ↔ x ∈ xs := List.mem_insertionSort _

theorem sorted_map_eq_nil {xs : List Str} {f : Str → Problem} : (sorted xs).map f = [] ↔ ∀ x, x ∉ xs := by
  rw [List.map_eq_nil_iff, List.eq_nil_iff_forall_not_mem]
  simp only [mem_sorted]

theorem mem_propNames {p : Props} {k : Str} : k ∈ propNames p ↔ k ∈ p ∧ k ∉ phandleKeys := by
  rw [propNames, List.mem_filter, decide_eq_true_iff, AList.mem_keys]

theorem cells_length (v : Bytes) : (cells v).length = v.length / 4 := by
  induction v using cells.induct with
  | case1 a b c d rest ih =>
      rw [cells, List.length_cons, ih]
      simp only [List.length_cons]
      omega
  | case2 v hshort =>
      match v with
      | [] | [a] | [a, b] | [a, b, c] => simp [cells]
      | a :: b :: c :: d :: rest => exact absurd rfl (hshort a b c d rest)

theorem sameCell_iff {pa pb : Phandles} {x y : BitVec 32} :
    sameCell pa pb x y = true ↔ x = y ∨ ∃ n, pa.lookup x = some n ∧ pb.lookup y = some n := by
  rw [sameCell, Bool.or_eq_true, decide_eq_true_iff]
  refine or_congr_right ?_
  cases pa.lookup x with
  | none => simp
  | some n =>
      cases pb.lookup y with
      | none => simp
      | some m => simp [eq_comm]

theorem sameValue_iff {pa pb : Phandles} {va vb : Bytes} :
    sameValue pa pb va vb = true ↔ va = vb ∨ va.length = vb.length ∧ 4 ∣ va.length ∧
      List.Forall₂ (fun x y => sameCell pa pb x y = true) (cells va) (cells vb) := by
  rw [sameValue, Bool.or_eq_true, Bool.and_eq_true, Bool.and_eq_true, decide_eq_true_iff, decide_eq_true_iff,
    decide_eq_true_iff, and_assoc, List.all_eq_true, List.forall₂_iff_zip, Nat.dvd_iff_mod_eq_zero]
  refine or_congr_right (and_congr_right fun hlength => and_congr_right fun _ => ?_)
  rw [cells_length, cells_length, and_iff_right (by rw [hlength])]
  exact ⟨fun h x y hxy => h (x, y) hxy, fun h c hc => h hc⟩

section
variable {pa pb : Phandles}

theorem compareProp_eq_nil {p q : Props} {n k : Str} :
    compareProp pa pb p q n k = [] ↔
      ∀ va vb, p.lookup k = some va → q.lookup k = some vb → sameValue pa pb va vb = true := by
  unfold compareProp
  cases p.lookup k with
  | none => simp
  | some va =>
      cases q.lookup k with
      | none => simp
      | some vb => simp

/-- Properties of the same names with the same values. -/
def SameProps (pa pb : Phandles) (p q : Props) : Prop :=
  ∀ k, k ∉ phandleKeys → (k ∈ p ↔ k ∈ q) ∧
    ∀ va vb, p.lookup k = some va → q.lookup k = some vb → sameValue pa pb va vb = true

/-- Nothing is left over on either side. -/
theorem notMem_diff_iff {P Q : Str → Prop} : (∀ x, ¬ (P x ∧ ¬ Q x)) ∧ (∀ x, ¬ (Q x ∧ ¬ P x)) ↔ ∀ x, P x ↔ Q x := by
  constructor
  · exact fun h x => ⟨fun hp => by_contra fun hq => h.1 x ⟨hp, hq⟩, fun hq => by_contra fun hp => h.2 x ⟨hq, hp⟩⟩
  · exact fun h => ⟨fun x hx => hx.2 ((h x).mp hx.1), fun x hx => hx.2 ((h x).mpr hx.1)⟩

theorem compareNode_eq_nil {p q : Props} {n : Str} : compareNode pa pb p q n = [] ↔ SameProps pa pb p q := by
  unfold compareNode SameProps
  rw [List.append_eq_nil_iff, sorted_map_eq_nil, List.flatMap_eq_nil_iff]
  simp only [mem_sorted, List.mem_append, List.mem_filter, decide_eq_true_iff, mem_propNames, compareProp_eq_nil,
    not_or, forall_and, notMem_diff_iff]
  constructor
  · rintro ⟨hnames, hvalues⟩
    refine ⟨fun k hk => by simpa [hk] using hnames k, fun k hk va vb hva hvb => ?_⟩
    exact hvalues k ⟨⟨mem_iff_lookup.mpr ⟨va, hva⟩, hk⟩, mem_iff_lookup.mpr ⟨vb, hvb⟩, hk⟩ va vb hva hvb
  · rintro ⟨hnames, hvalues⟩
    refine ⟨fun k => and_congr_left fun hk => hnames k hk, fun k hk => hvalues k hk.1.2⟩

theorem compare_eq_nil {a b : Tree} :
    compare pa pb a b = [] ↔ (∀ n, skip n = false → (n ∈ a ↔ n ∈ b)) ∧
      ∀ n p q, skip n = false → a.lookup n = some p → b.lookup n = some q → SameProps pa pb p q := by
  unfold compare
  rw [List.append_eq_nil_iff, List.append_eq_nil_iff, sorted_map_eq_nil, sorted_map_eq_nil, List.flatMap_eq_nil_iff]
  simp only [mem_sorted, List.mem_filter, decide_eq_true_iff, ← AList.mem_keys, notMem_diff_iff, Bool.not_eq_true]
  constructor
  · rintro ⟨hnodes, hvalues⟩
    refine ⟨fun n hn => by simpa [hn] using hnodes n, fun n p q hn hp hq => ?_⟩
    have hnil := hvalues n ⟨⟨mem_iff_lookup.mpr ⟨p, hp⟩, hn⟩, mem_iff_lookup.mpr ⟨q, hq⟩, hn⟩
    rw [hp, hq] at hnil
    exact compareNode_eq_nil.mp hnil
  · rintro ⟨hnodes, hvalues⟩
    refine ⟨fun n => and_congr_left fun hn => hnodes n hn, fun n hn => ?_⟩
    obtain ⟨p, hp⟩ := mem_iff_lookup.mp hn.1.1
    obtain ⟨q, hq⟩ := mem_iff_lookup.mp hn.2.1
    rw [hp, hq]
    exact compareNode_eq_nil.mpr (hvalues n p q hn.1.2 hp hq)

end

/-- The same number, or phandles of one node when the second tree is renamed. -/
def SameTarget (renames : Table Str Str) (a raw : Tree) (x y : BitVec 32) : Prop :=
  x = y ∨ ∃ n m, HasPhandle a n x ∧ HasPhandle raw m y ∧ rename renames m = n

/-- The same bytes, or as many cells with the same targets. -/
def SameHardware (renames : Table Str Str) (a raw : Tree) (va vb : Bytes) : Prop :=
  va = vb ∨ va.length = vb.length ∧ 4 ∣ va.length ∧
    List.Forall₂ (SameTarget renames a raw) (cells va) (cells vb)

/-- The second tree, once renamed, is the first with other phandles. -/
structure EqualTrees (renames : Table Str Str) (a raw : Tree) : Prop where
  nodes : ∀ n, skip n = false → (n ∈ a ↔ n ∈ renameTree renames raw)
  names : ∀ n p q, skip n = false → a.lookup n = some p → (renameTree renames raw).lookup n = some q →
    ∀ k, k ∉ phandleKeys → (k ∈ p ↔ k ∈ q)
  values : ∀ n p q, skip n = false → a.lookup n = some p → (renameTree renames raw).lookup n = some q →
    ∀ k va vb, k ∉ phandleKeys → p.lookup k = some va → q.lookup k = some vb → SameHardware renames a raw va vb

section
variable {renames : Table Str Str} {a raw : Tree} {pa pr : Phandles}

theorem sameTarget_of_sameCell (ha : phandles a = some pa) (hraw : phandles raw = some pr) {x y : BitVec 32}
    (h : sameCell pa (renamePhandles renames pr) x y = true) : SameTarget renames a raw x y := by
  rcases sameCell_iff.mp h with heq | ⟨n, hx, hy⟩
  · exact Or.inl heq
  · rw [lookup_renamePhandles] at hy
    obtain ⟨m, hm, hrenamed⟩ := Option.map_eq_some_iff.mp hy
    exact Or.inr ⟨n, m, hasPhandle_of_lookup ha hx, hasPhandle_of_lookup hraw hm, hrenamed⟩

theorem sameHardware_of_sameValue (ha : phandles a = some pa) (hraw : phandles raw = some pr) {va vb : Bytes}
    (h : sameValue pa (renamePhandles renames pr) va vb = true) : SameHardware renames a raw va vb := by
  refine (sameValue_iff.mp h).imp_right ?_
  rintro ⟨hlength, hcells, hsame⟩
  exact ⟨hlength, hcells, hsame.imp fun _ _ => sameTarget_of_sameCell ha hraw⟩

theorem equalTrees_of_compare (ha : phandles a = some pa) (hraw : phandles raw = some pr)
    (h : compare pa (renamePhandles renames pr) a (renameTree renames raw) = []) : EqualTrees renames a raw := by
  obtain ⟨hnodes, hprops⟩ := compare_eq_nil.mp h
  constructor
  · exact hnodes
  · intro n p q hn hp hq k hk
    exact (hprops n p q hn hp hq k hk).1
  · intro n p q hn hp hq k va vb hk hva hvb
    exact sameHardware_of_sameValue ha hraw ((hprops n p q hn hp hq k hk).2 va vb hva hvb)

end

/-- What the program did when it came to an end. -/
theorem main_eq_some {load : Str → Option Tree} {argv : List Str} {problems : List Problem} {code : ℤ} :
    main load argv = some (problems, code) ↔ ∃ renames before after a raw pa pr,
      parseRenames ∅ argv = some (renames, [before, after]) ∧ load before = some a ∧ load after = some raw ∧
      phandles a = some pa ∧ phandles raw = some pr ∧
      problems = compare pa (renamePhandles renames pr) a (renameTree renames raw) ∧
      code = if problems.length ≠ 0 then 1 else 0 := by
  constructor
  · intro h
    obtain ⟨⟨renames, rest⟩, hparse, h⟩ := Option.bind_eq_some_iff.mp h
    match rest, h with
    | [before, after], h =>
        obtain ⟨a, ha, h⟩ := Option.bind_eq_some_iff.mp h
        obtain ⟨raw, hraw, h⟩ := Option.bind_eq_some_iff.mp h
        obtain ⟨pa, hpa, h⟩ := Option.bind_eq_some_iff.mp h
        obtain ⟨pr, hpr, h⟩ := Option.bind_eq_some_iff.mp h
        cases h
        exact ⟨renames, before, after, a, raw, pa, pr, hparse, ha, hraw, hpa, hpr, rfl, rfl⟩
  · rintro ⟨renames, before, after, a, raw, pa, pr, hparse, ha, hraw, hpa, hpr, rfl, rfl⟩
    unfold main
    simp [hparse, ha, hraw, hpa, hpr]

/-- A run that returns zero has compared equal trees. -/
theorem zero_means_equal {load : Str → Option Tree} {argv : List Str} {problems : List Problem}
    (h : main load argv = some (problems, 0)) :
    ∃ renames before after a raw, parseRenames ∅ argv = some (renames, [before, after]) ∧
      load before = some a ∧ load after = some raw ∧ EqualTrees renames a raw := by
  obtain ⟨renames, before, after, a, raw, pa, pr, hparse, ha, hraw, hpa, hpr, rfl, hcode⟩ := main_eq_some.mp h
  refine ⟨renames, before, after, a, raw, hparse, ha, hraw, equalTrees_of_compare hpa hpr ?_⟩
  by_contra hproblems
  rw [if_pos (mt List.eq_nil_of_length_eq_zero hproblems)] at hcode
  cases hcode

/-- `struct.pack('>I', x)` -/
def pack (x : BitVec 32) : Bytes :=
  [x.extractLsb' 24 8, x.extractLsb' 16 8, x.extractLsb' 8 8, x.extractLsb' 0 8]

def cString (s : String) : Bytes := s.toList.map (fun c => .ofNat 8 c.toNat) ++ [0]

def nodeTokens (name : String) (body : Bytes) : Bytes :=
  let name := cString name
  pack 1 ++ name ++ List.replicate ((4 - name.length % 4) % 4) 0 ++ body ++ pack 2

def cellTokens (nameoff : BitVec 32) (cell : BitVec 8) : Bytes := pack 3 ++ pack 4 ++ pack nameoff ++ [0, 0, 0, cell]

/-- The blob of a node with phandle `i`, the node `y` with phandle `j`, and `user` with a cell. -/
def boardBlob (node : String) (i j cell : BitVec 8) : Bytes :=
  let strings := cString "phandle" ++ cString "clocks"
  let nodes := nodeTokens "" (nodeTokens node (cellTokens 0 i) ++ nodeTokens "y" (cellTokens 0 j) ++
    nodeTokens "user" (cellTokens 8 cell)) ++ pack 9
  MAGIC ++ pack (.ofNat 32 (40 + nodes.length + strings.length)) ++ pack 40 ++ pack (.ofNat 32 (40 + nodes.length)) ++
    pack 40 ++ pack 17 ++ pack 16 ++ pack 0 ++ pack (.ofNat 32 strings.length) ++ pack (.ofNat 32 nodes.length) ++
    nodes ++ strings

/-- The tree in this blob. -/
def board (node : String) (i j cell : BitVec 8) : Tree :=
  ofList [(['/'], ∅), ('/' :: node.toList, ofList [("phandle".toList, [0, 0, 0, i])]),
    ("/y".toList, ofList [("phandle".toList, [0, 0, 0, j])]),
    ("/user".toList, ofList [("clocks".toList, [0, 0, 0, cell])])]

/-- The file "before" holds one blob, every other file the other. -/
def twoFiles (before after : Bytes) (path : Str) : Option Bytes :=
  if path = "before".toList then some before else some after

theorem zero_means_equal_renamed :
    ∃ renames before after a raw,
      parseRenames ∅ ["--rename".toList, "z=x".toList, "before".toList, "after".toList] =
        some (renames, [before, after]) ∧
      load (twoFiles (boardBlob "x" 1 2 1) (boardBlob "z" 7 8 7)) before = some a ∧
      load (twoFiles (boardBlob "x" 1 2 1) (boardBlob "z" 7 8 7)) after = some raw ∧ EqualTrees renames a raw := by
  have hzero : main (load (twoFiles (boardBlob "x" 1 2 1) (boardBlob "z" 7 8 7)))
      ["--rename".toList, "z=x".toList, "before".toList, "after".toList] = some ([], 0) := by decide +kernel
  exact zero_means_equal hzero

/-- No cell, at the same place of the same property, is a phandle of two nodes. -/
def TargetsAgree (renames : Table Str Str) (a raw : Tree) : Prop :=
  ∀ n p q k va vb, skip n = false → a.lookup n = some p → (renameTree renames raw).lookup n = some q →
    k ∉ phandleKeys → p.lookup k = some va → q.lookup k = some vb →
    ∀ c ∈ (cells va).zip (cells vb), ∀ m m', HasPhandle a m c.1 → HasPhandle raw m' c.2 → rename renames m' = m

/-- The phandles of two nodes are swapped and the cell stays: its target is another node, its number the same. -/
theorem swapped_phandles_compare_equal :
    ¬ ∀ read argv problems renames before after a raw, main (load read) argv = some (problems, 0) →
      parseRenames ∅ argv = some (renames, [before, after]) → load read before = some a → load read after = some raw →
      TargetsAgree renames a raw := by
  intro h
  let a := board "x" 1 2 1
  let raw := board "x" 2 1 1
  have hagree : TargetsAgree ∅ a raw :=
    h (twoFiles (boardBlob "x" 1 2 1) (boardBlob "x" 2 1 1)) ["before".toList, "after".toList] [] ∅ "before".toList
      "after".toList a raw (by decide +kernel) rfl (by decide +kernel) (by decide +kernel)
  have hx : HasPhandle a "/x".toList 1 := ⟨_, rfl, "phandle".toList, by decide, _, rfl, rfl⟩
  have hy : HasPhandle raw "/y".toList 1 := ⟨_, rfl, "phandle".toList, by decide, _, rfl, rfl⟩
  have hsame := hagree "/user".toList _ _ "clocks".toList _ _ (by decide) rfl rfl (by decide) rfl rfl
    (1, 1) (by decide) _ _ hx hy
  exact absurd hsame (by decide)

end Sirius.DtEquiv
