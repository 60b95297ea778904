import Sirius.Tools.DtFormat

/-!
# The nodes of a device tree blob

What is loaded from a file are the nodes of the tree in it under their paths, each with its properties. So two layouts
of one tree compare equal.
-/
namespace Sirius.DtEquiv
open Dict InPlace Parts

def Body.props : Body → List (Str × Bytes)
  | .done => []
  | .nop rest => rest.props
  | .prop _ name value rest => (name.text, value) :: rest.props
  | .node _ _ rest => rest.props

def Body.names : Body → List Str
  | .done => []
  | .nop rest => rest.names
  | .prop _ _ _ rest => rest.names
  | .node name _ rest => name.text :: rest.names

/-- The nodes below a path, with their properties. -/
def Body.nodes (path : List Str) : Body → List (List Str × List (Str × Bytes))
  | .done => []
  | .nop rest => rest.nodes path
  | .prop _ _ _ rest => rest.nodes path
  | .node name body rest =>
      (path ++ [name.text], body.props) :: (body.nodes (path ++ [name.text]) ++ rest.nodes path)

/-- Names that can stand in a path, and none twice in one node. -/
def Body.Tidy : Body → Prop
  | .done => True
  | .nop rest => rest.Tidy
  | .prop _ _ _ rest => rest.Tidy
  | .node name body rest => name.text ≠ [] ∧ '/' ∉ name.text ∧ name.text ∉ rest.names ∧ body.Tidy ∧ rest.Tidy

/-- All nodes, the root among them. -/
def Blob.nodes (d : Blob) : List (List Str × List (Str × Bytes)) := ([[]], d.body.props) :: d.body.nodes [[]]

/-- The order in which nodes are begun and properties are met, each with the path it is at. -/
def Body.events (path : List Str) : Body → List (List Str × Option (Str × Bytes))
  | .done => []
  | .nop rest => rest.events path
  | .prop _ name value rest => (path, some (name.text, value)) :: rest.events path
  | .node name body rest => (path ++ [name.text], none) :: (body.events (path ++ [name.text]) ++ rest.events path)

def record (t : Tree) : List Str × Option (Str × Bytes) → Tree
  | (path, none) => withNode t (nodePath path)
  | (path, some (k, v)) => setItem t (nodePath path) (setItem ((t.lookup (nodePath path)).getD ∅) k v)

theorem enter_eq (body : Body) (path : List Str) (t : Tree) :
    body.enter path t = (body.events path).foldl record t := by
  induction body generalizing path t with
  | done => rfl
  | nop rest ih => exact ih path t
  | prop off name value rest ih => exact ih path _
  | node name body rest ihbody ih =>
      rw [Body.enter, Body.events, List.foldl_cons, List.foldl_append, ih, ihbody]
      rfl

def met (path : List Str) (es : List (List Str × Option (Str × Bytes))) : List (Str × Bytes) :=
  es.filterMap fun e => if e.1 = path then e.2 else none

section
variable {es : List (List Str × Option (Str × Bytes))} {path : List Str}

theorem met_eq_nil (h : ∀ e ∈ es, e.1 ≠ path) : met path es = [] := by
  rw [met, List.filterMap_eq_nil_iff]
  exact fun e he => if_neg (h e he)

theorem met_append (es es' : List (List Str × Option (Str × Bytes))) (path : List Str) :
    met path (es ++ es') = met path es ++ met path es' := List.filterMap_append

theorem met_begin (p path : List Str) (es : List (List Str × Option (Str × Bytes))) :
    met path ((p, none) :: es) = met path es := by
  rw [met, List.filterMap_cons]
  simp only [ite_self]
  rfl

/-- Properties are recorded at the node itself, all else is below. -/
theorem events_below {body : Body} {e : List Str × Option (Str × Bytes)} (he : e ∈ body.events path) :
    e.1 = path ∨ ∃ s ∈ body.names, ∃ rest, e.1 = path ++ s :: rest := by
  induction body generalizing path with
  | done => cases he
  | nop rest ih => exact ih he
  | prop off name value rest ih =>
      rcases List.mem_cons.mp he with rfl | he
      · exact Or.inl rfl
      · exact ih he
  | node name body rest ihbody ih =>
      rcases List.mem_cons.mp he with rfl | he
      · exact Or.inr ⟨name.text, List.mem_cons_self, [], rfl⟩
      · rcases List.mem_append.mp he with he | he
        · right
          refine ⟨name.text, List.mem_cons_self, ?_⟩
          rcases ihbody he with heq | ⟨s, -, q, heq⟩
          · exact ⟨[], heq⟩
          · exact ⟨s :: q, by rw [heq, List.append_assoc, List.singleton_append]⟩
        · exact (ih he).imp_right fun ⟨s, hs, hrest⟩ => ⟨s, List.mem_cons_of_mem _ hs, hrest⟩

theorem append_cons_ne (path rest : List Str) (s : Str) : path ++ s :: rest ≠ path := by
  intro heq
  exact List.cons_ne_nil _ _ (List.append_right_eq_self.mp heq)

theorem met_self (body : Body) (path : List Str) : met path (body.events path) = body.props := by
  induction body generalizing path with
  | done => rfl
  | nop rest ih => exact ih path
  | prop off name value rest ih =>
      rw [Body.events, met, List.filterMap_cons, if_pos rfl]
      exact congrArg _ (ih path)
  | node name body rest ihbody ih =>
      have hinner : met path (body.events (path ++ [name.text])) = [] := by
        refine met_eq_nil fun e he heq => ?_
        rcases events_below he with hself | ⟨s, -, q, hbelow⟩
        · exact append_cons_ne path [] name.text (hself.symm.trans heq)
        · rw [List.append_assoc, List.singleton_append] at hbelow
          exact append_cons_ne path (s :: q) name.text (hbelow.symm.trans heq)
      rw [Body.events, met_begin, met_append, hinner, ih path]
      rfl

theorem nodes_below {body : Body} {x : List Str × List (Str × Bytes)} (hx : x ∈ body.nodes path) :
    ∃ s ∈ body.names, ∃ rest, x.1 = path ++ s :: rest := by
  induction body generalizing path with
  | done => cases hx
  | nop rest ih => exact ih hx
  | prop off name value rest ih => exact ih hx
  | node name body rest ihbody ih =>
      rcases List.mem_cons.mp hx with rfl | hx
      · exact ⟨name.text, List.mem_cons_self, [], rfl⟩
      · rcases List.mem_append.mp hx with hx | hx
        · obtain ⟨s, -, q, heq⟩ := ihbody hx
          exact ⟨name.text, List.mem_cons_self, s :: q, by rw [heq, List.append_assoc, List.singleton_append]⟩
        · obtain ⟨s, hs, hrest⟩ := ih hx
          exact ⟨s, List.mem_cons_of_mem _ hs, hrest⟩

theorem met_node {body : Body} (h : body.Tidy) {x : List Str × List (Str × Bytes)} (hx : x ∈ body.nodes path) :
    met x.1 (body.events path) = x.2 := by
  induction body generalizing path with
  | done => cases hx
  | nop rest ih => exact ih h hx
  | prop off name value rest ih =>
      have hrest : x ∈ rest.nodes path := hx
      obtain ⟨s, -, q, hbelow⟩ := nodes_below hrest
      rw [Body.events, met, List.filterMap_cons, if_neg fun heq => append_cons_ne path q s (hbelow.symm.trans heq.symm)]
      exact ih h hx
  | node name body rest ihbody ih =>
      obtain ⟨-, -, hname, hbody, hrest⟩ := h
      -- The node's own part of the events is apart from that of its siblings.
      have hinner : ∀ q, met (path ++ name.text :: q) (rest.events path) = [] := by
        intro q
        refine met_eq_nil fun e he heq => ?_
        rcases events_below he with hself | ⟨s, hs, q', hbelow⟩
        · exact append_cons_ne path q name.text (heq.symm.trans hself)
        · rw [heq, List.append_cancel_left_eq, List.cons_eq_cons] at hbelow
          exact hname (hbelow.1 ▸ hs)
      rw [Body.events, met_begin, met_append]
      rcases List.mem_cons.mp hx with rfl | hx
      · rw [hinner [], met_self, List.append_nil]
      · rcases List.mem_append.mp hx with hx | hx
        · obtain ⟨s, -, q, hbelow⟩ := nodes_below hx
          rw [List.append_assoc, List.singleton_append] at hbelow
          rw [ihbody hbody hx, hbelow, hinner, List.append_nil]
        · have houter : met x.1 (body.events (path ++ [name.text])) = [] := by
            obtain ⟨s, hs, q, hx⟩ := nodes_below hx
            refine met_eq_nil fun e he heq => ?_
            have hbelow : ∃ q', e.1 = path ++ name.text :: q' := by
              rcases events_below he with hself | ⟨s', -, q', hbelow⟩
              · exact ⟨[], hself⟩
              · exact ⟨s' :: q', by rw [hbelow, List.append_assoc, List.singleton_append]⟩
            obtain ⟨q', hbelow⟩ := hbelow
            rw [heq, hx, List.append_cancel_left_eq, List.cons_eq_cons] at hbelow
            exact hname (hbelow.1 ▸ hs)
          rw [houter, ih hrest hx, List.nil_append]

theorem mem_nodes_of_event {body : Body} {e : List Str × Option (Str × Bytes)} (he : e ∈ body.events path) :
    e.1 = path ∨ ∃ x ∈ body.nodes path, x.1 = e.1 := by
  induction body generalizing path with
  | done => cases he
  | nop rest ih => exact ih he
  | prop off name value rest ih =>
      rcases List.mem_cons.mp he with rfl | he
      · exact Or.inl rfl
      · exact ih he
  | node name body rest ihbody ih =>
      rcases List.mem_cons.mp he with rfl | he
      · exact Or.inr ⟨_, List.mem_cons_self, rfl⟩
      · rcases List.mem_append.mp he with he | he
        · right
          rcases ihbody he with heq | ⟨x, hx, heq⟩
          · exact ⟨_, List.mem_cons_self, heq.symm⟩
          · exact ⟨x, List.mem_cons_of_mem _ (List.mem_append_left _ hx), heq⟩
        · exact (ih he).imp_right fun ⟨x, hx, heq⟩ => ⟨x, List.mem_cons_of_mem _ (List.mem_append_right _ hx), heq⟩

theorem mem_events_of_node {body : Body} {x : List Str × List (Str × Bytes)} (hx : x ∈ body.nodes path) :
    (x.1, none) ∈ body.events path := by
  induction body generalizing path with
  | done => cases hx
  | nop rest ih => exact ih hx
  | prop off name value rest ih => exact List.mem_cons_of_mem _ (ih hx)
  | node name body rest ihbody ih =>
      rcases List.mem_cons.mp hx with rfl | hx
      · exact List.mem_cons_self
      · apply List.mem_cons_of_mem
        rw [List.mem_append] at hx ⊢
        exact hx.imp ihbody ih

def Rooted (path : List Str) : Prop := ∃ rest, path = [] :: rest ∧ ∀ s ∈ rest, s ≠ [] ∧ '/' ∉ s

theorem Rooted.append {path : List Str} {s : Str} (h : Rooted path) (hs : s ≠ [] ∧ '/' ∉ s) : Rooted (path ++ [s]) := by
  obtain ⟨rest, rfl, hrest⟩ := h
  refine ⟨rest ++ [s], rfl, ?_⟩
  intro x hx
  rcases List.mem_append.mp hx with hx | hx
  · exact hrest x hx
  · rwa [List.mem_singleton.mp hx]

theorem splitOn_nodePath (h : Rooted path) : path = [[]] ∧ nodePath path = ['/'] ∨
    path ≠ [[]] ∧ nodePath path ≠ ['/'] ∧ (nodePath path).splitOn '/' = path := by
  obtain ⟨rest, rfl, hrest⟩ := h
  cases rest with
  | nil => exact Or.inl ⟨rfl, rfl⟩
  | cons s rest =>
      right
      have hsplit : (['/'].intercalate ([] :: s :: rest)).splitOn '/' = [] :: s :: rest := by
        refine List.splitOn_intercalate '/' ?_ (List.cons_ne_nil _ _)
        intro l hl
        rcases List.mem_cons.mp hl with rfl | hl
        · exact List.not_mem_nil
        · exact (hrest l hl).2
      have hpath : nodePath ([] :: s :: rest) = ['/'].intercalate ([] :: s :: rest) := by
        unfold nodePath
        dsimp only
        rw [if_neg]
        intro hnil
        rw [hnil] at hsplit
        cases hsplit
      rw [hpath]
      refine ⟨?_, ?_, hsplit⟩
      · intro heq
        cases heq
      · intro hslash
        have hparts : ['/'].splitOn '/' = [[], []] := rfl
        rw [hslash, hparts] at hsplit
        injection hsplit with _ hsplit
        injection hsplit with hs _
        exact (hrest s List.mem_cons_self).1 hs.symm

theorem nodePath_inj {path' : List Str} (h : Rooted path) (h' : Rooted path') (heq : nodePath path = nodePath path') :
    path = path' := by
  rcases splitOn_nodePath h with ⟨hroot, hpath⟩ | ⟨-, hne, hsplit⟩
  · rcases splitOn_nodePath h' with ⟨hroot', -⟩ | ⟨-, hne', -⟩
    · rw [hroot, hroot']
    · exact absurd (heq ▸ hpath) hne'
  · rcases splitOn_nodePath h' with ⟨-, hpath'⟩ | ⟨-, -, hsplit'⟩
    · exact absurd (heq.trans hpath') hne
    · rw [← hsplit, heq, hsplit']

theorem rooted_events {body : Body} (h : body.Tidy) (hpath : Rooted path) {e : List Str × Option (Str × Bytes)}
    (he : e ∈ body.events path) : Rooted e.1 := by
  induction body generalizing path with
  | done => cases he
  | nop rest ih => exact ih h hpath he
  | prop off name value rest ih =>
      rcases List.mem_cons.mp he with rfl | he
      · exact hpath
      · exact ih h hpath he
  | node name body rest ihbody ih =>
      obtain ⟨hne, hslash, -, hbody, hrest⟩ := h
      have hname := hpath.append ⟨hne, hslash⟩
      rcases List.mem_cons.mp he with rfl | he
      · exact hname
      · rcases List.mem_append.mp he with he | he
        · exact ihbody hbody hname he
        · exact ih hrest hpath he

theorem lookup_withNode (t : Tree) (m n : Str) :
    (withNode t m).lookup n = if m = n then some ((t.lookup n).getD ∅) else t.lookup n := by
  unfold withNode
  split
  · rename_i hm
    split
    · rename_i heq
      obtain ⟨p, hp⟩ := mem_iff_lookup.mp hm
      rw [← heq, hp, Option.getD_some]
    · rfl
  · rename_i hm
    split
    · rename_i heq
      rw [← heq, lookup_setItem_self, AList.lookup_eq_none.mpr hm, Option.getD_none]
    · rename_i heq
      exact lookup_setItem_ne t ∅ (Ne.symm heq)

theorem lookup_record (t : Tree) (e : List Str × Option (Str × Bytes)) (n : Str) :
    (record t e).lookup n =
      if nodePath e.1 = n then some (assign ((t.lookup n).getD ∅) e.2.toList) else t.lookup n := by
  obtain ⟨path, what⟩ := e
  cases what with
  | none => exact lookup_withNode t (nodePath path) n
  | some kv =>
      rw [record]
      split
      · rename_i heq
        rw [← heq, lookup_setItem_self]
        rfl
      · rename_i heq
        exact lookup_setItem_ne t _ (Ne.symm heq)

/-- Nothing else is ever in the table. -/
theorem exists_of_mem_records {t : Tree} {n : Str} (h : n ∈ es.foldl record t) (ht : n ∉ t) :
    ∃ e ∈ es, nodePath e.1 = n := by
  induction es generalizing t with
  | nil => exact absurd h ht
  | cons e es ih =>
      by_cases hn : nodePath e.1 = n
      · exact ⟨e, List.mem_cons_self, hn⟩
      · have hrecord : n ∉ record t e := by
          rw [← AList.lookup_eq_none, lookup_record, if_neg hn, AList.lookup_eq_none]
          exact ht
        obtain ⟨e', he', heq⟩ := ih h hrecord
        exact ⟨e', List.mem_cons_of_mem e he', heq⟩

theorem assign_append (d : Props) (ps qs : List (Str × Bytes)) : assign d (ps ++ qs) = assign (assign d ps) qs :=
  List.foldl_append

theorem lookup_records {p : List Str} (hp : Rooted p) (hes : ∀ e ∈ es, Rooted e.1) (t : Tree) :
    (es.foldl record t).lookup (nodePath p) =
      if p ∈ es.map Prod.fst then some (assign ((t.lookup (nodePath p)).getD ∅) (met p es))
      else t.lookup (nodePath p) := by
  induction es generalizing t with
  | nil => rfl
  | cons e es ih =>
      obtain ⟨he, hes⟩ := List.forall_mem_cons.mp hes
      have hiff : nodePath e.1 = nodePath p ↔ e.1 = p := ⟨nodePath_inj he hp, congrArg nodePath⟩
      rw [List.foldl_cons, ih hes, lookup_record, List.map_cons]
      simp only [hiff, List.mem_cons]
      by_cases hep : e.1 = p
      · have hmet : met p (e :: es) = e.2.toList ++ met p es := by
          rw [met, List.filterMap_cons, if_pos hep]
          cases e.2 <;> rfl
        rw [if_pos hep, if_pos (Or.inl hep.symm), Option.getD_some, hmet, assign_append]
        split
        · rfl
        · rename_i hout
          have hnil : met p es = [] := met_eq_nil fun e' he' heq => hout (List.mem_map.mpr ⟨e', he', heq⟩)
          rw [hnil, assign_nil]
      · have hmet : met p (e :: es) = met p es := by
          rw [met, List.filterMap_cons, if_neg hep]
          rfl
        rw [if_neg hep, hmet]
        simp only [Ne.symm hep, false_or]

end

namespace Blob
variable {d : Blob}

/-- The root, and what comes after it. -/
def events (d : Blob) : List (List Str × Option (Str × Bytes)) := ([[]], none) :: d.body.events [[]]

theorem tree_eq : d.tree = d.events.foldl record ∅ := enter_eq d.body [[]] _

theorem rooted_root : Rooted [[]] := ⟨[], rfl, List.forall_mem_nil _⟩

theorem rooted_of_events (h : d.body.Tidy) : ∀ e ∈ d.events, Rooted e.1 := by
  intro e he
  rcases List.mem_cons.mp he with rfl | he
  · exact rooted_root
  · exact rooted_events h rooted_root he

theorem met_of_nodes (h : d.body.Tidy) {x : List Str × List (Str × Bytes)} (hx : x ∈ d.nodes) :
    x.1 ∈ d.events.map Prod.fst ∧ met x.1 d.events = x.2 := by
  rw [events, met_begin, List.map_cons]
  rcases List.mem_cons.mp hx with rfl | hx
  · exact ⟨List.mem_cons_self, met_self d.body [[]]⟩
  · exact ⟨List.mem_cons_of_mem _ (List.mem_map_of_mem (f := Prod.fst) (mem_events_of_node hx)), met_node h hx⟩

theorem lookup_tree (h : d.body.Tidy) {n : Str} {p : Props} :
    d.tree.lookup n = some p ↔ ∃ x ∈ d.nodes, nodePath x.1 = n ∧ ofList x.2 = p := by
  have hnode : ∀ x ∈ d.nodes, d.tree.lookup (nodePath x.1) = some (ofList x.2) := by
    intro x hx
    obtain ⟨hmem, hmet⟩ := met_of_nodes h hx
    obtain ⟨e, he, heq⟩ := List.mem_map.mp hmem
    have hrooted : Rooted x.1 := heq ▸ rooted_of_events h e he
    rw [tree_eq, lookup_records hrooted (rooted_of_events h), if_pos hmem, hmet, AList.lookup_empty,
      Option.getD_none, ofList]
  constructor
  · intro hlookup
    have hmem : n ∈ d.events.foldl record ∅ := tree_eq ▸ mem_iff_lookup.mpr ⟨p, hlookup⟩
    obtain ⟨e, he, rfl⟩ := exists_of_mem_records hmem (AList.notMem_empty n)
    have hx : ∃ x ∈ d.nodes, x.1 = e.1 := by
      rcases List.mem_cons.mp he with rfl | he
      · exact ⟨_, List.mem_cons_self, rfl⟩
      · rcases mem_nodes_of_event he with hroot | ⟨x, hx, heq⟩
        · exact ⟨_, List.mem_cons_self, hroot.symm⟩
        · exact ⟨x, List.mem_cons_of_mem _ hx, heq⟩
    obtain ⟨x, hx, heq⟩ := hx
    refine ⟨x, hx, congrArg nodePath heq, ?_⟩
    have hfound := hnode x hx
    rw [heq, hlookup] at hfound
    exact (Option.some.inj hfound).symm
  · rintro ⟨x, hx, rfl, rfl⟩
    exact hnode x hx

end Blob

/-- A node `a` with a property `r`, and a node `b`. -/
def smallBody : Body :=
  .node ⟨[0x61], ['a'], by decide, rfl⟩ (.prop 0 ⟨[0x72], ['r'], by decide, rfl⟩ [1, 2, 3] .done)
    (.node ⟨[0x62], ['b'], by decide, rfl⟩ .done .done)

def smallBlob : Blob where
  bytes := MAGIC ++ pack 98 ++ pack 40 ++ pack 96 ++ pack 40 ++ pack 17 ++ pack 16 ++ pack 0 ++ pack 2 ++ pack 56 ++
    (Body.node rootName smallBody .done).bytes ++ pack 9 ++ [0x72, 0]
  body := smallBody
  nopsBefore := 0
  nopsBehind := 0
  strings := [0x72, 0]
  offStruct := 40
  offStrings := 96
  aligned := by decide
  fits := ⟨⟨⟨[], rfl⟩, by decide, trivial⟩, trivial, trivial⟩
  small := by decide +kernel
  magic := Blob.slice_eq_iff.mp (by decide +kernel)
  totalsize := Blob.slice_eq_iff.mp (by decide +kernel)
  offsets := Blob.slice_eq_iff.mp (by decide +kernel)
  sizeStrings := Blob.slice_eq_iff.mp (by decide +kernel)
  structBlock := Blob.slice_eq_iff.mp (by decide +kernel)
  stringsBlock := Blob.slice_eq_iff.mp (by decide +kernel)
  stringsIn := by decide +kernel

/-- The same the other way round, with NOPs, a reserved region, the strings in front and room behind. -/
def smallBody' : Body :=
  .node ⟨[0x62], ['b'], by decide, rfl⟩ (.nop .done)
    (.node ⟨[0x61], ['a'], by decide, rfl⟩ (.prop 1 ⟨[0x72], ['r'], by decide, rfl⟩ [1, 2, 3] .done) .done)

def smallBlob' : Blob where
  bytes := MAGIC ++ pack 136 ++ pack 60 ++ pack 56 ++ pack 40 ++ pack 17 ++ pack 16 ++ pack 0 ++ pack 3 ++ pack 68 ++
    List.replicate 16 0 ++ [0x78, 0x72, 0, 0] ++
    (nops 1 ++ (Body.node rootName smallBody' .done).bytes ++ nops 1 ++ pack 9) ++ List.replicate 8 0
  body := smallBody'
  nopsBefore := 1
  nopsBehind := 1
  strings := [0x78, 0x72, 0]
  offStruct := 60
  offStrings := 56
  aligned := by decide
  fits := ⟨trivial, ⟨⟨[], rfl⟩, by decide, trivial⟩, trivial⟩
  small := by decide +kernel
  magic := Blob.slice_eq_iff.mp (by decide +kernel)
  totalsize := Blob.slice_eq_iff.mp (by decide +kernel)
  offsets := Blob.slice_eq_iff.mp (by decide +kernel)
  sizeStrings := Blob.slice_eq_iff.mp (by decide +kernel)
  structBlock := Blob.slice_eq_iff.mp (by decide +kernel)
  stringsBlock := Blob.slice_eq_iff.mp (by decide +kernel)
  stringsIn := by decide +kernel

theorem inFile_small (after : Bytes) : smallBlob.InFile (smallBlob.bytes ++ after) := Or.inl ⟨after, rfl⟩

theorem inFile_kernel : smallBlob'.InFile ([0x4d, 0x5a] ++ smallBlob'.bytes ++ []) := by
  refine Or.inr ⟨[0x4d, 0x5a], [], rfl, by decide, fun i hi => ?_⟩
  have hlt : i < ([0x4d, 0x5a] ++ smallBlob'.bytes ++ []).length := by
    have hle := hi.length_le (List.cons_ne_nil _ _)
    have hfour : MAGIC.length = 4 := rfl
    omega
  have hall : ∀ i < ([0x4d, 0x5a] ++ smallBlob'.bytes ++ []).length,
      slice ([0x4d, 0x5a] ++ smallBlob'.bytes ++ []) i (i + MAGIC.length) = MAGIC → i ≤ 2 := by decide +kernel
  exact hall i hlt (Blob.slice_eq_iff.mpr hi)

theorem tidy_small : smallBlob.body.Tidy ∧ smallBlob'.body.Tidy := by
  simp [smallBlob, smallBlob', smallBody, smallBody', Body.Tidy, Body.names]

/-- What is loaded from the file of a tidy tree are its nodes, each with its properties, under their paths. Behind a
kernel that takes that no magic number comes after that of the blob, or the program would start there. -/
theorem load_nodes {d : Blob} {read : Str → Option Bytes} {path : Str} {file : Bytes} (hread : read path = some file)
    (hfile : d.InFile file) (htidy : d.body.Tidy) :
    ∃ t, load read path = some t ∧ ∀ n p, t.lookup n = some p ↔ ∃ x ∈ d.nodes, nodePath x.1 = n ∧ ofList x.2 = p :=
  ⟨d.tree, Blob.load_inFile hread hfile, fun _ _ => Blob.lookup_tree htidy⟩

theorem load_nodes_small :
    ∃ t, load (twoFiles [] ([0x4d, 0x5a] ++ smallBlob'.bytes ++ [])) "after".toList = some t ∧
      ∀ n p, t.lookup n = some p ↔ ∃ x ∈ smallBlob'.nodes, nodePath x.1 = n ∧ ofList x.2 = p :=
  load_nodes rfl inFile_kernel tidy_small.2

/-- The same nodes with the same properties, in any order and layout. -/
structure Reordered (d d' : Blob) : Prop where
  paths : ∀ path, (∃ x ∈ d.nodes, x.1 = path) ↔ ∃ x ∈ d'.nodes, x.1 = path
  props : ∀ x ∈ d.nodes, ∀ x' ∈ d'.nodes, x.1 = x'.1 → ∀ k, (ofList x.2).lookup k = (ofList x'.2).lookup k

theorem rename_empty (n : Str) : rename ∅ n = n := mapParts_eq_self fun _ _ => rfl

section
variable {d d' : Blob}

theorem rooted_nodes (h : d.body.Tidy) {x : List Str × List (Str × Bytes)} (hx : x ∈ d.nodes) : Rooted x.1 := by
  obtain ⟨e, he, heq⟩ := List.mem_map.mp (Blob.met_of_nodes h hx).1
  exact heq ▸ Blob.rooted_of_events h e he

theorem mem_tree (h : d.body.Tidy) {n : Str} : n ∈ d.tree ↔ ∃ x ∈ d.nodes, nodePath x.1 = n := by
  rw [mem_iff_lookup]
  constructor
  · rintro ⟨p, hp⟩
    obtain ⟨x, hx, hpath, -⟩ := (Blob.lookup_tree h).mp hp
    exact ⟨x, hx, hpath⟩
  · rintro ⟨x, hx, hpath⟩
    exact ⟨ofList x.2, (Blob.lookup_tree h).mpr ⟨x, hx, hpath, rfl⟩⟩

theorem Reordered.refactored (h : Reordered d d') (htidy : d.body.Tidy) (htidy' : d'.body.Tidy) :
    Refactored id ∅ d.tree d'.tree := by
  constructor
  · intro m
    rw [mem_tree htidy']
    constructor
    · rintro ⟨x', hx', rfl⟩
      obtain ⟨x, hx, heq⟩ := (h.paths x'.1).mpr ⟨x', hx', rfl⟩
      exact ⟨nodePath x.1, (mem_tree htidy).mpr ⟨x, hx, rfl⟩, by rw [rename_empty, heq]⟩
    · rintro ⟨n, hn, rfl⟩
      obtain ⟨x, hx, rfl⟩ := (mem_tree htidy).mp hn
      obtain ⟨x', hx', heq⟩ := (h.paths x.1).mp ⟨x, hx, rfl⟩
      exact ⟨x', hx', by rw [rename_empty, heq]⟩
  · intro n p q hp hq
    rw [rename_empty] at hq
    obtain ⟨x, hx, rfl, rfl⟩ := (Blob.lookup_tree htidy).mp hp
    obtain ⟨x', hx', hpath, rfl⟩ := (Blob.lookup_tree htidy').mp hq
    have hlookup := h.props x hx x' hx' (nodePath_inj (rooted_nodes htidy hx) (rooted_nodes htidy' hx') hpath.symm)
    constructor
    · intro k
      rw [mem_iff_lookup, mem_iff_lookup, hlookup]
    · intro k v w y _ hv hw hy
      rw [hlookup, hw, Option.some.injEq] at hv
      rw [hv]
      exact hy
    · intro k v w _ hv hw
      rw [hlookup, hw, Option.some.injEq] at hv
      exact Or.inl hv.symm

/-- Blobs of one tree compare equal, whatever the order of its nodes and properties, the NOPs, the blocks and the
strings, and whatever stands before and behind them in the files, short of another magic number behind a kernel. -/
theorem layouts_compare_equal {read : Str → Option Bytes} {before after : Str} {file file' : Bytes}
    (hbefore : before ≠ renameFlag) (hread : read before = some file) (hread' : read after = some file')
    (hfile : d.InFile file) (hfile' : d'.InFile file') (htidy : d.body.Tidy) (htidy' : d'.body.Tidy)
    (hnumbered : Numbered d.tree) (h : Reordered d d') : main (load read) [before, after] = some ([], 0) := by
  have href := h.refactored htidy htidy'
  have hρ : Renaming d.tree ∅ := renaming_iff.mpr (by simp)
  have hσ : Set.InjOn id {x | ∃ n, HasPhandle d.tree n x} := Function.injective_id.injOn
  obtain ⟨pa, hpa⟩ := hnumbered.phandles_eq_some
  obtain ⟨pr, hpr⟩ := (href.numbered hnumbered hσ).phandles_eq_some
  rw [main_eq_some]
  refine ⟨renameBack ∅, before, after, d.tree, d'.tree, pa, pr, parseRenames_renameArgs hρ hbefore,
    Blob.load_inFile hread hfile, Blob.load_inFile hread' hfile', hpa, hpr, ?_, rfl⟩
  exact (href.compare_eq_nil hnumbered hρ hσ hpa hpr).symm

end

theorem reordered_small : Reordered smallBlob smallBlob' := by
  constructor
  · intro path
    simp [Blob.nodes, smallBlob, smallBlob', smallBody, smallBody', Body.nodes, Body.props]
    grind
  · simp [Blob.nodes, smallBlob, smallBlob', smallBody, smallBody', Body.nodes, Body.props]

theorem layouts_compare_equal_small :
    main (load (twoFiles (smallBlob.bytes ++ []) ([0x4d, 0x5a] ++ smallBlob'.bytes ++ [])))
      ["before".toList, "after".toList] = some ([], 0) :=
  layouts_compare_equal (by decide) rfl rfl (inFile_small []) inFile_kernel tidy_small.1 tidy_small.2
    (by decide +kernel) reordered_small

end Sirius.DtEquiv
