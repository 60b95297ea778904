import Mathlib.Data.Char
import Mathlib.Data.List.Lex
import Sirius.Tools.FillSymvers

/-!
# The versions of the running kernel, tools/harvest-symvers.py

Every installed module tells the versions of the symbols it imports and the names of those it exports. What no module
exports is taken for the kernel's own and written down, in order, with the version that was met first.
-/
namespace Sirius.HarvestSymvers

open Dict PyText

/-- An installed module: what modprobe and readelf print of it, nothing where they fail. -/
structure Ko where
  modversions : Str
  strings : Str
  deriving DecidableEq, Repr

/-- The characters that end a line for `str.splitlines`. -/
def isBreak (c : Char) : Bool :=
  [0x0a, 0x0b, 0x0c, 0x0d, 0x1c, 0x1d, 0x1e, 0x85, 0x2028, 0x2029].contains c.toNat

def splitlinesFrom (line : Str) : Str → List Str
  | [] => if line = [] then [] else [line.reverse]
  | '\r' :: '\n' :: s => line.reverse :: splitlinesFrom [] s
  | c :: s => if isBreak c then line.reverse :: splitlinesFrom [] s else splitlinesFrom (c :: line) s

def splitlines : Str → List Str := splitlinesFrom []

section
variable (u : Unicode)

/-- A symbol and its version, from a line of modprobe. -/
def record (line : Str) : Option (Str × Str) :=
  match split u line with
  | [crc, sym] => if "0x".toList.isPrefixOf crc then some (sym, crc) else none
  | _ => none

def records (ko : Ko) : List (Str × Str) := (splitlines ko.modversions).filterMap (record u)

/-- `\s*\[\s*\w+\]\s+(\S+)\s*$` -/
def exportLine (line : Str) : Option Str := do
  let s ← lit ['['] (line.dropWhile (isSpace u))
  let (_, s) ← many1 (isWord u) (s.dropWhile (isSpace u))
  let s ← lit [']'] s
  let (_, s) ← many1 (isSpace u) s
  let (name, s) ← many1 (fun c => !isSpace u c) s
  if s.all (isSpace u) then some name else none

def exported (ko : Ko) : List Str := (splitlines ko.strings).filterMap (exportLine u)

/-- `d.setdefault(k, v)` -/
def setdefault (d : Table Str Str) (k v : Str) : Table Str Str := if k ∈ d then d else setItem d k v

def scan (s : Table Str Str × List Str) (ko : Ko) : Table Str Str × List Str :=
  ((records u ko).foldl (fun d r => setdefault d r.1 r.2) s.1, s.2 ++ exported u ko)

def crcs (kos : List Ko) : Table Str Str := (kos.foldl (scan u) (∅, [])).1

def modExports (kos : List Ko) : List Str := (kos.foldl (scan u) (∅, [])).2

/-- `sorted(vm)`: the symbols that no module exports. -/
def vm (kos : List Ko) : List Str :=
  ((crcs u kos).keys.filter fun s => !(modExports u kos).contains s).mergeSort fun s t => decide (s ≤ t)

def line (crc sym : Str) : Str := crc ++ ['\t'] ++ sym ++ "\tvmlinux\tEXPORT_SYMBOL_GPL\t".toList

/-- The Module.symvers that is written. -/
def harvest (kos : List Ko) : Str := (vm u kos).flatMap fun s => line (((crcs u kos).lookup s).getD []) s ++ ['\n']

end

def first (u : Unicode) (ko : Ko) (sym : Str) : Option Str := (records u ko).lookup sym

def version (u : Unicode) (kos : List Ko) (sym : Str) : Option Str :=
  if (modExports u kos).contains sym then none else (crcs u kos).lookup sym

section
variable {u : Unicode} {kos kos' : List Ko} {sym crc : Str}

theorem lookup_setdefault (d : Table Str Str) (k v s : Str) :
    (setdefault d k v).lookup s = (d.lookup s).or (if s = k then some v else none) := by
  unfold setdefault
  split
  · rename_i hk
    obtain ⟨w, hw⟩ := mem_iff_lookup.mp hk
    split
    · rename_i hs
      rw [hs, hw, Option.some_or]
    · rw [Option.or_none]
  · rename_i hk
    split
    · rename_i hs
      rw [hs, lookup_setItem_self, AList.lookup_eq_none.mpr hk, Option.none_or]
    · rename_i hs
      rw [lookup_setItem_ne d v hs, Option.or_none]

theorem lookup_setdefaults (rs : List (Str × Str)) (d : Table Str Str) (s : Str) :
    (rs.foldl (fun d r => setdefault d r.1 r.2) d).lookup s = (d.lookup s).or (rs.lookup s) := by
  induction rs generalizing d with
  | nil => rw [List.foldl_nil, List.lookup_nil, Option.or_none]
  | cons r rs ih =>
      rw [List.foldl_cons, ih, lookup_setdefault, Option.or_assoc, List.lookup_cons]
      by_cases hs : s = r.1
      · rw [if_pos hs, beq_iff_eq.mpr hs, Option.some_or]
      · rw [if_neg hs, beq_eq_false_iff_ne.mpr hs, Option.none_or]

theorem scan_all (kos : List Ko) (s : Table Str Str × List Str) :
    (∀ k, (kos.foldl (scan u) s).1.lookup k = (s.1.lookup k).or (kos.findSome? fun ko => first u ko k)) ∧
      (kos.foldl (scan u) s).2 = s.2 ++ kos.flatMap (exported u) := by
  induction kos generalizing s with
  | nil => exact ⟨fun k => (Option.or_none).symm, (List.append_nil _).symm⟩
  | cons ko kos ih =>
      obtain ⟨hlookup, hexports⟩ := ih (scan u s ko)
      constructor
      · intro k
        rw [List.foldl_cons, hlookup, scan, lookup_setdefaults, Option.or_assoc, List.findSome?_cons, first]
        cases (records u ko).lookup k with
        | none => rw [Option.none_or]
        | some c => rw [Option.some_or]
      · rw [List.foldl_cons, hexports, scan, List.flatMap_cons, List.append_assoc]

/-- The first module that tells a version counts. -/
theorem lookup_crcs (kos : List Ko) (sym : Str) :
    (crcs u kos).lookup sym = kos.findSome? fun ko => first u ko sym := by
  rw [crcs, (scan_all kos (∅, [])).1, AList.lookup_empty, Option.none_or]

theorem mem_modExports : sym ∈ modExports u kos ↔ ∃ ko ∈ kos, sym ∈ exported u ko := by
  rw [modExports, (scan_all kos (∅, [])).2, List.nil_append, List.mem_flatMap]

theorem mem_vm : sym ∈ vm u kos ↔ ∃ crc, version u kos sym = some crc := by
  rw [vm, List.mem_mergeSort, List.mem_filter, version]
  constructor
  · rintro ⟨hkey, hmod⟩
    obtain ⟨crc, hcrc⟩ := mem_iff_lookup.mp hkey
    rw [Bool.not_eq_true'] at hmod
    exact ⟨crc, by rw [hmod, if_neg Bool.false_ne_true, hcrc]⟩
  · rintro ⟨crc, hcrc⟩
    split at hcrc
    · cases hcrc
    · rename_i hmod
      rw [Bool.not_eq_true']
      exact ⟨mem_iff_lookup.mpr ⟨crc, hcrc⟩, (Bool.not_eq_true _).mp hmod⟩

theorem lookup_of_mem_vm (h : sym ∈ vm u kos) : version u kos sym = (crcs u kos).lookup sym := by
  obtain ⟨crc, hcrc⟩ := mem_vm.mp h
  unfold version at hcrc ⊢
  split at hcrc
  · cases hcrc
  · rename_i hmod
    exact if_neg hmod

theorem nodup_vm (u : Unicode) (kos : List Ko) : (vm u kos).Nodup := by
  rw [vm, (List.mergeSort_perm _ _).nodup_iff]
  exact (crcs u kos).nodupKeys.filter _

end

section
variable {u : Unicode} {kos kos' : List Ko} {sym crc : Str}

/-- The symbol and the version of a line of Module.symvers. -/
def row (line : Str) : Option (Str × Str) :=
  match line.splitOn '\t' with
  | crc :: sym :: _ => some (sym, crc)
  | _ => none

def versions (symvers : Str) : List (Str × Str) := (lines symvers).filterMap row

/-- A line of Module.symvers. The namespace stands last, so a tab in it does no harm. -/
structure Row where
  sym : Str
  crc : Str
  ns : Str
  symPlain : '\t' ∉ sym ∧ '\n' ∉ sym
  crcPlain : '\t' ∉ crc ∧ '\n' ∉ crc
  nsPlain : '\n' ∉ ns

def Row.line (r : Row) : Str := r.crc ++ '\t' :: (r.sym ++ "\tvmlinux\tEXPORT_SYMBOL_GPL\t".toList ++ r.ns)

def table (rows : List Row) : Str := rows.flatMap fun r => r.line ++ ['\n']

theorem line_plain (r : Row) : '\n' ∉ r.line := by
  simp only [Row.line, List.mem_append, List.mem_cons, not_or]
  exact ⟨r.crcPlain.2, by decide, ⟨r.symPlain.2, by decide⟩, r.nsPlain⟩

theorem lines_table (rows : List Row) : lines (table rows) = rows.map fun r => r.line ++ ['\n'] := by
  have htable : table rows = (rows.map Row.line).flatMap (· ++ ['\n']) := by
    rw [List.flatMap_map]
    rfl
  rw [htable, lines_flatMap, List.map_map]
  · rfl
  · intro l hl
    obtain ⟨r, -, rfl⟩ := List.mem_map.mp hl
    exact line_plain r

theorem splitOn_line (r : Row) : ∃ rest, (r.line ++ ['\n']).splitOn '\t' = r.crc :: r.sym :: rest := by
  refine ⟨("vmlinux\tEXPORT_SYMBOL_GPL\t".toList ++ r.ns ++ ['\n']).splitOn '\t', ?_⟩
  have hline : r.line ++ ['\n'] =
      r.crc ++ '\t' :: (r.sym ++ '\t' :: ("vmlinux\tEXPORT_SYMBOL_GPL\t".toList ++ r.ns ++ ['\n'])) := by
    simp only [Row.line, List.append_assoc, List.cons_append]
    rfl
  rw [hline, List.splitOn_append_cons_self_of_not_mem r.crcPlain.1,
    List.splitOn_append_cons_self_of_not_mem r.symPlain.1]

theorem versions_table (rows : List Row) : versions (table rows) = rows.map fun r => (r.sym, r.crc) := by
  rw [versions, lines_table, List.filterMap_map]
  apply List.filterMap_eq_map_iff_forall_eq_some.mpr
  intro r _
  obtain ⟨rest, hsplit⟩ := splitOn_line r
  simp only [Function.comp_apply, row, hsplit]

open FillSymvers in
theorem symversHas_table (rows : List Row) (s : Str) : symversHas (table rows) s = true ↔ s ∈ rows.map Row.sym := by
  rw [symversHas, lines_table, List.any_map, List.any_eq_true, List.mem_map]
  refine exists_congr fun r => and_congr_right fun _ => ?_
  obtain ⟨rest, hsplit⟩ := splitOn_line r
  simp [hsplit]

def Plain (s : Str) : Prop := '\t' ∉ s ∧ '\n' ∉ s

theorem plain_word {s w : Str} (h : w ∈ split u s) : Plain w := by
  obtain ⟨-, hspace⟩ := mem_split h
  have htab : isSpace u '\t' = true := rfl
  have hnewline : isSpace u '\n' = true := rfl
  constructor
  · exact fun hmem => Bool.false_ne_true ((hspace _ hmem).symm.trans htab)
  · exact fun hmem => Bool.false_ne_true ((hspace _ hmem).symm.trans hnewline)

theorem plain_record {l : Str} (h : record u l = some (sym, crc)) : Plain sym ∧ Plain crc := by
  unfold record at h
  split at h
  · rename_i hsplit
    split at h
    · cases h
      exact ⟨plain_word (s := l) (by rw [hsplit]; simp), plain_word (s := l) (by rw [hsplit]; simp)⟩
    · cases h
  · cases h

theorem mem_of_lookup {ps : List (Str × Str)} (h : ps.lookup sym = some crc) : (sym, crc) ∈ ps := by
  induction ps with
  | nil => cases h
  | cons p ps ih =>
      rw [List.lookup_cons] at h
      split at h
      · rename_i heq
        cases h
        rw [eq_of_beq heq]
        exact List.mem_cons_self
      · exact List.mem_cons_of_mem p (ih h)

theorem plain_first {ko : Ko} (h : first u ko sym = some crc) : Plain sym ∧ Plain crc := by
  obtain ⟨l, -, hl⟩ := List.mem_filterMap.mp (mem_of_lookup h)
  exact plain_record hl

theorem plain_version (h : version u kos sym = some crc) : Plain sym ∧ Plain crc := by
  unfold version at h
  split at h
  · cases h
  · rw [lookup_crcs] at h
    obtain ⟨ko, -, hko⟩ := List.exists_of_findSome?_eq_some h
    exact plain_first hko

/-- Columns without namespaces make a file. -/
theorem exists_rows {ps : List (Str × Str)} (h : ∀ p ∈ ps, Plain p.1 ∧ Plain p.2) :
    ∃ rows, table rows = ps.flatMap (fun p => line p.2 p.1 ++ ['\n']) ∧ rows.map (fun r => (r.sym, r.crc)) = ps := by
  induction ps with
  | nil => exact ⟨[], rfl, rfl⟩
  | cons p ps ih =>
      obtain ⟨⟨hsym, hcrc⟩, hps⟩ := List.forall_mem_cons.mp h
      obtain ⟨rows, htable, hrows⟩ := ih hps
      refine ⟨⟨p.1, p.2, [], hsym, hcrc, List.not_mem_nil⟩ :: rows, ?_, ?_⟩
      · rw [table, List.flatMap_cons, List.flatMap_cons, ← htable]
        simp only [Row.line, line, table, List.append_nil, List.append_assoc, List.cons_append, List.nil_append]
      · rw [List.map_cons, hrows]

def pairs (u : Unicode) (kos : List Ko) : List (Str × Str) :=
  (vm u kos).map fun s => (s, ((crcs u kos).lookup s).getD [])

theorem mem_pairs : (sym, crc) ∈ pairs u kos ↔ version u kos sym = some crc := by
  rw [pairs, List.mem_map]
  constructor
  · rintro ⟨s, hs, heq⟩
    obtain ⟨c, hc⟩ := mem_vm.mp hs
    rw [← lookup_of_mem_vm hs, hc] at heq
    cases heq
    exact hc
  · intro h
    have hs : sym ∈ vm u kos := mem_vm.mpr ⟨crc, h⟩
    exact ⟨sym, hs, by rw [← lookup_of_mem_vm hs, h, Option.getD_some]⟩

theorem harvest_rows (u : Unicode) (kos : List Ko) :
    ∃ rows, harvest u kos = table rows ∧ rows.map (fun r => (r.sym, r.crc)) = pairs u kos := by
  have hplain : ∀ p ∈ pairs u kos, Plain p.1 ∧ Plain p.2 := fun p hp => plain_version (mem_pairs.mp hp)
  obtain ⟨rows, htable, hrows⟩ := exists_rows hplain
  refine ⟨rows, ?_, hrows⟩
  rw [htable, pairs, List.flatMap_map]
  rfl

theorem versions_harvest (u : Unicode) (kos : List Ko) : versions (harvest u kos) = pairs u kos := by
  obtain ⟨rows, htable, hrows⟩ := harvest_rows u kos
  rw [htable, versions_table, hrows]

theorem vm_congr (h : ∀ s, version u kos s = version u kos' s) : vm u kos = vm u kos' := by
  have hmem : ∀ s, s ∈ vm u kos ↔ s ∈ vm u kos' := fun s => by rw [mem_vm, mem_vm, h s]
  have hperm := (List.perm_ext_iff_of_nodup (nodup_vm u kos) (nodup_vm u kos')).mpr hmem
  exact hperm.eq_of_pairwise' (List.pairwise_mergeSort' (· ≤ ·) _) (List.pairwise_mergeSort' (· ≤ ·) _)

/-- Harvests are the same where the versions are. -/
theorem harvest_eq_iff : harvest u kos = harvest u kos' ↔ ∀ s, version u kos s = version u kos' s := by
  constructor
  · intro h s
    have hpairs : pairs u kos = pairs u kos' := by rw [← versions_harvest, h, versions_harvest]
    ext crc
    rw [← mem_pairs, hpairs, mem_pairs]
  · intro h
    unfold harvest
    rw [← vm_congr h]
    refine List.flatMap_congr fun s hs => ?_
    rw [← lookup_of_mem_vm hs, h, lookup_of_mem_vm (vm_congr h ▸ hs)]

/-- No two modules tell different versions of a symbol that is the kernel's. -/
def Agreed (u : Unicode) (kos : List Ko) : Prop :=
  ∀ ko ∈ kos, ∀ ko' ∈ kos, ∀ sym crc crc', first u ko sym = some crc → first u ko' sym = some crc' →
    sym ∉ modExports u kos → crc = crc'

theorem modExports_perm (h : kos.Perm kos') : sym ∈ modExports u kos ↔ sym ∈ modExports u kos' := by
  rw [mem_modExports, mem_modExports]
  exact exists_congr fun ko => and_congr_left fun _ => h.mem_iff

theorem Agreed.version_iff (h : Agreed u kos) :
    version u kos sym = some crc ↔ sym ∉ modExports u kos ∧ ∃ ko ∈ kos, first u ko sym = some crc := by
  unfold version
  split
  · rename_i hmod
    exact iff_of_false (fun hnone => by cases hnone) fun hand => hand.1 (List.contains_iff_mem.mp hmod)
  · rename_i hmod
    rw [lookup_crcs, and_iff_right (mt List.contains_iff_mem.mpr hmod)]
    constructor
    · intro hfound
      obtain ⟨ko, hko, hfirst⟩ := List.exists_of_findSome?_eq_some hfound
      exact ⟨ko, hko, hfirst⟩
    · rintro ⟨ko, hko, hfirst⟩
      cases hfound : kos.findSome? fun ko => first u ko sym with
      | none => rw [List.findSome?_eq_none_iff.mp hfound ko hko] at hfirst; cases hfirst
      | some crc' =>
          obtain ⟨ko', hko', hfirst'⟩ := List.exists_of_findSome?_eq_some hfound
          rw [h ko hko ko' hko' sym crc crc' hfirst hfirst' (mt List.contains_iff_mem.mpr hmod)]

theorem Agreed.perm (h : Agreed u kos) (hperm : kos.Perm kos') : Agreed u kos' := by
  intro ko hko ko' hko' sym crc crc' hfirst hfirst' hmod
  exact h ko (hperm.mem_iff.mpr hko) ko' (hperm.mem_iff.mpr hko') sym crc crc' hfirst hfirst'
    fun hmem => hmod ((modExports_perm hperm).mp hmem)

/-- What the first module in the order tells counts. -/
theorem version_cons {ko : Ko} (hfirst : first u ko sym = some crc) (hmod : sym ∉ modExports u (ko :: kos)) :
    version u (ko :: kos) sym = some crc := by
  rw [version, if_neg (mt List.contains_iff_mem.mp hmod), lookup_crcs, List.findSome?_cons, hfirst]

/-- The file does not depend on the order in which the modules are met, exactly where no two of them disagree on a
symbol of the kernel. -/
theorem harvest_perm_iff (u : Unicode) (kos : List Ko) :
    (∀ kos', kos.Perm kos' → harvest u kos' = harvest u kos) ↔ Agreed u kos := by
  constructor
  · intro h ko hko ko' hko' sym crc crc' hfirst hfirst' hmod
    have hversion : ∀ ko ∈ kos, ∀ crc, first u ko sym = some crc → version u kos sym = some crc := by
      intro ko hko crc hfirst
      have hperm := List.perm_cons_erase hko
      rw [← harvest_eq_iff.mp (h _ hperm) sym]
      exact version_cons hfirst fun hmem => hmod ((modExports_perm hperm).mpr hmem)
    exact Option.some.inj ((hversion ko hko crc hfirst).symm.trans (hversion ko' hko' crc' hfirst'))
  · intro h kos' hperm
    rw [harvest_eq_iff]
    intro s
    ext crc
    rw [(h.perm hperm).version_iff, h.version_iff, modExports_perm hperm]
    exact and_congr_right fun _ => exists_congr fun ko => and_congr_left fun _ => hperm.mem_iff.symm

end

/-- A run of fill-symvers.py in a tree that has the file. -/
structure Fill where
  tree : FillSymvers.Tree
  symbols : List Str

def refill (symvers : Str) (f : Fill) : Str :=
  symvers ++ (FillSymvers.main f.tree (some symvers) f.symbols).flatMap FillSymvers.Write.line

/-- A file that starts with what `start` has, has no symbol twice, and where all that follows is due to `P`. -/
def Grown (start : List (Str × Str)) (P : Str → Str → Prop) (symvers : Str) : Prop :=
  ∃ rows, symvers = table rows ∧ (rows.map Row.sym).Nodup ∧
    ∃ added : List (Str × Str), rows.map (fun r => (r.sym, r.crc)) = start ++ added ∧ ∀ p ∈ added, P p.1 p.2

section
open FillSymvers
variable {t : Tree} {start : List (Str × Str)} {P Q : Str → Str → Prop} {symvers s crc : Str}

theorem Grown.mono (h : Grown start P symvers) (himp : ∀ s c, P s c → Q s c) : Grown start Q symvers := by
  obtain ⟨rows, htable, hnodup, added, hrows, hadded⟩ := h
  exact ⟨rows, htable, hnodup, added, hrows, fun p hp => himp _ _ (hadded p hp)⟩

theorem plain_symver {text rest : Str} (h : symver t text = some ((s, crc), rest)) : Plain s ∧ Plain crc := by
  simp only [symver, Option.bind_eq_bind, Option.bind_eq_some_iff, Prod.exists, Option.pure_def, Option.some.injEq,
    Prod.mk.injEq] at h
  obtain ⟨s₁, -, name, s₂, hname, s₃, -, digits, s₄, hdigits, ⟨rfl, rfl⟩, -⟩ := h
  have hword := all_many1 hname
  have hhex := all_many1 hdigits
  refine ⟨⟨fun hc => ?_, fun hc => ?_⟩, fun hc => ?_, fun hc => ?_⟩
  · exact Bool.false_ne_true (hword _ hc)
  · exact Bool.false_ne_true (hword _ hc)
  · rcases List.mem_append.mp hc with hc | hc
    · revert hc
      decide
    · exact absurd (hhex _ hc) (by decide)
  · rcases List.mem_append.mp hc with hc | hc
    · revert hc
      decide
    · exact absurd (hhex _ hc) (by decide)

theorem plain_exportsOf {obj : Path} (h : (exportsOf t obj).lookup s = some crc) : Plain s ∧ Plain crc := by
  unfold exportsOf at h
  split at h
  · rw [AList.lookup_empty] at h
    cases h
  · obtain ⟨text, rest, hmatch⟩ := exists_of_mem_finditer (mem_of_lookup_ofList h)
    exact plain_symver hmatch

theorem nodup_newExports (symvers : Str) (src : Path) : ((newExports t symvers src).map Write.symbol).Nodup := by
  rw [newExports, List.map_map]
  have hkeys : ((exportsOf t (object src)).entries.map Sigma.fst).Nodup := (exportsOf t (object src)).nodupKeys
  refine List.Nodup.sublist (List.filter_sublist.map Sigma.fst) ?_
  exact ((List.mergeSort_perm _ _).map Sigma.fst).nodup_iff.mpr hkeys

/-- What a round appends are the new exports of one source, if anything. -/
theorem writes_eq (t : Tree) (symvers sym : Str) :
    writes t symvers sym = [] ∨ ∃ src, writes t symvers sym = newExports t symvers src := by
  unfold writes fill
  split
  · exact Or.inl rfl
  split
  · exact Or.inl rfl
  split
  · exact Or.inl rfl
  cases results t sym with
  | nil => exact Or.inl rfl
  | cons src srcs =>
      dsimp only
      split
      · exact Or.inr ⟨src, rfl⟩
      · exact Or.inl rfl

/-- The lines that a round appends are rows of the file. -/
theorem exists_writes {ws : List Write} (h : ∀ w ∈ ws, Plain w.symbol ∧ Plain w.crc ∧ '\n' ∉ w.ns) :
    ∃ rows, table rows = ws.flatMap Write.line ∧
      rows.map (fun r => (r.sym, r.crc)) = ws.map fun w => (w.symbol, w.crc) := by
  induction ws with
  | nil => exact ⟨[], rfl, rfl⟩
  | cons w ws ih =>
      obtain ⟨⟨hsym, hcrc, hns⟩, hws⟩ := List.forall_mem_cons.mp h
      obtain ⟨rows, htable, hrows⟩ := ih hws
      refine ⟨⟨w.symbol, w.crc, w.ns, hsym, hcrc, hns⟩ :: rows, ?_, ?_⟩
      · rw [table, List.flatMap_cons, List.flatMap_cons, ← htable]
        simp only [Row.line, Write.line, table, List.append_assoc, List.cons_append, List.nil_append]
      · rw [List.map_cons, List.map_cons, hrows]

theorem map_sym (rows : List Row) : rows.map Row.sym = (rows.map fun r => (r.sym, r.crc)).map Prod.fst := by
  rw [List.map_map]
  rfl

theorem Grown.step {sym : Str} (h : Grown start P symvers) (hns : ∀ src s, '\n' ∉ namespaceOf t (t.source src) s)
    (hexports : ∀ obj s c, (exportsOf t obj).lookup s = some c → P s c) :
    Grown start P (step t symvers sym) := by
  unfold FillSymvers.step
  rcases writes_eq t symvers sym with hwrites | ⟨src, hwrites⟩
  · rw [hwrites, List.flatMap_nil, List.append_nil]
    exact h
  · rw [hwrites]
    obtain ⟨rows, rfl, hnodup, added, hrows, hadded⟩ := h
    have hplain : ∀ w ∈ newExports t (table rows) src, Plain w.symbol ∧ Plain w.crc ∧ '\n' ∉ w.ns := by
      intro w hw
      obtain ⟨hlookup, -, hw, -⟩ := mem_newExports.mp hw
      exact ⟨(plain_exportsOf hlookup).1, (plain_exportsOf hlookup).2, hw ▸ hns src w.symbol⟩
    obtain ⟨new, htable, hnew⟩ := exists_writes hplain
    have hsyms : new.map Row.sym = (newExports t (table rows) src).map Write.symbol := by
      rw [map_sym, hnew, List.map_map]
      rfl
    refine ⟨rows ++ new, ?_, ?_, added ++ new.map (fun r => (r.sym, r.crc)), ?_, ?_⟩
    · rw [← htable]
      exact List.flatMap_append.symm
    · rw [List.map_append, hsyms]
      refine hnodup.append (nodup_newExports _ _) fun s hs hmem => ?_
      obtain ⟨w, hw, rfl⟩ := List.mem_map.mp hmem
      have hmissing := (mem_newExports.mp hw).2.1
      exact Bool.false_ne_true (hmissing.symm.trans ((symversHas_table rows w.symbol).mpr hs))
    · rw [List.map_append, hrows, List.append_assoc]
    · intro p hp
      rcases List.mem_append.mp hp with hp | hp
      · exact hadded p hp
      · rw [hnew] at hp
        obtain ⟨w, hw, rfl⟩ := List.mem_map.mp hp
        exact hexports _ _ _ (mem_newExports.mp hw).1

theorem refill_eq (symvers : Str) (f : Fill) :
    refill symvers f = if f.tree.config = none then symvers else Runs.run (step f.tree) symvers f.symbols := by
  unfold refill
  split
  · rename_i hconfig
    rw [main_nothing (Or.inr hconfig), List.flatMap_nil, List.append_nil]
  · rename_i hconfig
    rw [main_rounds hconfig]
    induction f.symbols generalizing symvers with
    | nil => exact List.append_nil symvers
    | cons sym symbols ih =>
        rw [Runs.outputs, List.flatten_cons, List.flatMap_append, ← List.append_assoc]
        exact ih (FillSymvers.step f.tree symvers sym)

theorem Grown.refill {f : Fill} (h : Grown start P symvers)
    (hns : ∀ src s, '\n' ∉ namespaceOf f.tree (f.tree.source src) s)
    (hexports : ∀ obj s c, (exportsOf f.tree obj).lookup s = some c → P s c) :
    Grown start P (refill symvers f) := by
  rw [refill_eq]
  split
  · exact h
  · exact Runs.run_keeps (fun _ _ h => h.step hns hexports) h f.symbols

end

/-- Through any runs of fill-symvers.py no symbol is there twice, what was harvested stays, and all else is the version
of an object in one of the trees. -/
theorem grown_refills (u : Unicode) (kos : List Ko) (fills : List Fill)
    (hns : ∀ f ∈ fills, ∀ src s, '\n' ∉ FillSymvers.namespaceOf f.tree (f.tree.source src) s) :
    ((versions (fills.foldl refill (harvest u kos))).map Prod.fst).Nodup ∧
      ∃ added : List (Str × Str), versions (fills.foldl refill (harvest u kos)) = versions (harvest u kos) ++ added ∧
        ∀ p ∈ added, ∃ f ∈ fills, ∃ obj, (FillSymvers.exportsOf f.tree obj).lookup p.1 = some p.2 := by
  have hstart : Grown (versions (harvest u kos))
      (fun s c => ∃ f ∈ fills, ∃ obj, (FillSymvers.exportsOf f.tree obj).lookup s = some c) (harvest u kos) := by
    obtain ⟨rows, htable, hrows⟩ := harvest_rows u kos
    refine ⟨rows, htable, ?_, [], ?_, List.forall_mem_nil _⟩
    · rw [map_sym, hrows, pairs, List.map_map]
      exact (List.map_id' (vm u kos)).symm ▸ nodup_vm u kos
    · rw [hrows, versions_harvest, List.append_nil]
  have hend : Grown (versions (harvest u kos))
      (fun s c => ∃ f ∈ fills, ∃ obj, (FillSymvers.exportsOf f.tree obj).lookup s = some c)
      (fills.foldl refill (harvest u kos)) := by
    refine List.foldlRecOn fills refill hstart fun symvers h f hf => ?_
    exact h.refill (hns f hf) fun obj s c hlookup => ⟨f, hf, obj, hlookup⟩
  obtain ⟨rows, htable, hnodup, added, hrows, hadded⟩ := hend
  rw [htable, versions_table, hrows]
  exact ⟨by rw [← hrows, ← map_sym]; exact hnodup, added, rfl, hadded⟩

/-- One module that uses bar, then a tree that can tell foo and another version of bar. -/
theorem grown_refills_small :
    ((versions ([⟨FillSymvers.smallTree [], ["foo".toList]⟩].foldl refill
      (harvest ascii [⟨"0x9 bar\n".toList, []⟩]))).map Prod.fst).Nodup :=
  (grown_refills ascii [⟨"0x9 bar\n".toList, []⟩] [⟨FillSymvers.smallTree [], ["foo".toList]⟩] (by
    intro f hf src s
    rw [List.mem_singleton.mp hf]
    exact List.not_mem_nil)).1

end Sirius.HarvestSymvers
