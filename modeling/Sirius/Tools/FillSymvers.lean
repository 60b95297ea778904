import Mathlib.Data.List.Dedup
import Mathlib.Data.List.Sort
import Sirius.Lib.Dict
import Sirius.Lib.PyText
import Sirius.Lib.Runs

/-!
# Missing symbol versions, tools/fill-symvers.py

For each symbol asked for, `main` looks for the sources that export it, keeps those whose directories look built, reads
the versions off their objects and appends what the first of them exports. A tree is what the script sees of it: the
answers of grep, of make and of the file system.
-/
namespace Sirius.FillSymvers

open Dict PyText

/-- A file: its directory, from the innermost name out, and its name. -/
structure Path where
  dir : List Str
  base : Str
  deriving DecidableEq, Repr

/-- A kernel tree. `cmd` is the command file of an object, as it is or as make leaves it when it was not there; `listed`
says which objects kbuild compiles once it gets to their directory. -/
structure Tree where
  unicode : Unicode
  config : Option (List Str)
  makefile : List Str → Option (List Str)
  kbuild : List Str → Option (List Str)
  grep : Str → List Path
  cmd : Path → Option Str
  source : Path → Str
  listed : Path → Prop

section
variable (t : Tree)

/-- `(CONFIG_\w+)` -/
def configName (s : Str) : Option (Str × Str) := do
  let s ← lit "CONFIG_".toList s
  let (name, s) ← many1 (isWord t.unicode) s
  return ("CONFIG_".toList ++ name, s)

def configLine (line : Str) : Option (Str × Str) := do
  let (name, s) ← configName t line
  let s ← lit ['='] s
  return (name, s.takeWhile (· ≠ '\n'))

def config : Table Str Str := ofList ((t.config.getD []).filterMap (configLine t))

def isSet (name : Str) : Bool := (config t).lookup name = some ['y'] ∨ (config t).lookup name = some ['m']

def isTarget (s : Str) : Bool :=
  let plain (s : Str) := s.takeWhile (fun c => !isSpace t.unicode c) ≠ [] ∧
    (s.dropWhile fun c => !isSpace t.unicode c).all (isSpace t.unicode)
  plain s ∨ ((s.getLast? = some '+' ∨ s.getLast? = some ':') ∧ plain s.dropLast)

def cuts (s : Str) : List (Str × Str) := (List.range (s.length + 1)).map fun i => (s.take i, s.drop i)

/-- A directory named behind a space, on the same line. -/
def names (name s : Str) : Bool :=
  (cuts s).any fun cut =>
    match cut.2 with
    | [] => false
    | c :: s => isSpace t.unicode c && cut.1.all (· ≠ '\n') && (name ++ ['/']).isPrefixOf s

/-- `^\s*obj-\S+\s*[+:]?=.*(^|\s)name/`: the start of the line cannot come behind `obj-`. -/
def isRule (name line : Str) : Bool :=
  match lit "obj-".toList (line.dropWhile (isSpace t.unicode)) with
  | none => false
  | some s =>
      (cuts s).any fun cut =>
        match cut.2 with
        | '=' :: s => isTarget t cut.1 && names t name s
        | _ => false

/-- `obj-\$\((CONFIG_\w+)\)`, the first in a line. -/
def ruleConfig (line : Str) : Option Str :=
  search (fun s => do
    let s ← lit "obj-$(".toList s
    let (name, s) ← configName t s
    let _ ← lit [')'] s
    return name) line

/-- `dir_is_built`, on the directory of the path. -/
def dirIsBuilt : (dir : List Str) → Bool
  | [] => true
  | name :: parent =>
      match t.makefile parent with
      | none => true
      | some lines =>
          match lines.find? (isRule t name) with
          | none => dirIsBuilt parent
          | some rule =>
              match ruleConfig t rule with
              | none => dirIsBuilt parent
              | some c => if isSet t c then dirIsBuilt parent else false

def symversHas (symvers sym : Str) : Bool := (lines symvers).any fun line => (line.splitOn '\t')[1]? = some sym

/-- `#SYMVER (\w+) (0x[0-9a-f]+)` -/
def symver (s : Str) : Option ((Str × Str) × Str) := do
  let s ← lit "#SYMVER ".toList s
  let (name, s) ← many1 (isWord t.unicode) s
  let s ← lit " 0x".toList s
  let (crc, s) ← many1 (fun c => '0' ≤ c ∧ c ≤ '9' ∨ 'a' ≤ c ∧ c ≤ 'f') s
  return ((name, "0x".toList ++ crc), s)

def exportsOf (obj : Path) : Table Str Str :=
  match t.cmd obj with
  | none => ∅
  | some text => ofList (finditer (symver t) 0 text)

def object (src : Path) : Path := { src with base := src.base.take (src.base.length - 2) ++ ".o".toList }

def namespaceOf (source sym : Str) : Str :=
  (search (fun s => do
    let s ← lit "EXPORT_SYMBOL_NS".toList s
    let s ← lit ['('] (s.dropWhile fun c => 'A' ≤ c ∧ c ≤ 'Z' ∨ c = '_')
    let s ← lit sym s
    let s ← lit [','] s
    let s ← lit ['"'] (s.dropWhile (isSpace t.unicode))
    let _ ← lit ['"'] (s.dropWhile (· ≠ '"'))
    return s.takeWhile (· ≠ '"')) source).getD []

structure Write where
  symbol : Str
  crc : Str
  ns : Str
  obj : Path
  deriving DecidableEq, Repr

def Write.line (w : Write) : Str :=
  w.crc ++ ['\t'] ++ w.symbol ++ "\tvmlinux\tEXPORT_SYMBOL_GPL\t".toList ++ w.ns ++ ['\n']

/-- What is printed for a symbol, and what is appended with it. -/
inductive Outcome
  | present
  | noSource
  | noBuilt (found : List Path)
  | absent (usable : List Path)
  | ambiguous (results : List (Path × Option Str))
  | added (src : Path) (skipped : List Path) (writes : List Write)
  deriving DecidableEq, Repr

def usable (sym : Str) : List Path := (t.grep sym).filter fun src => dirIsBuilt t src.dir

def results (sym : Str) : List Path := (usable t sym).filter fun src => sym ∈ exportsOf t (object src)

def crcOf (sym : Str) (src : Path) : Option Str := (exportsOf t (object src)).lookup sym

/-- `len(set(...)) <= 1`: no two of them disagree. -/
def agree (sym : Str) : Bool := ((results t sym).map (crcOf t sym)).dedup.length ≤ 1

/-- The exports of a source that Module.symvers has not, sorted. -/
def newExports (symvers : Str) (src : Path) : List Write :=
  (((exportsOf t (object src)).entries.mergeSort fun e e' => decide (¬ e'.1 < e.1)).filter fun e =>
    !symversHas symvers e.1).map fun e =>
      { symbol := e.1, crc := e.2, ns := namespaceOf t (t.source src) e.1, obj := object src }

/-- One round of `main`. What it appends is in Module.symvers when the file is closed, at the end of the round. -/
def fill (symvers sym : Str) : Outcome :=
  if symversHas symvers sym then .present
  else if t.grep sym = [] then .noSource
  else if usable t sym = [] then .noBuilt (t.grep sym)
  else
    match results t sym with
    | [] => .absent (usable t sym)
    | src :: srcs =>
        if agree t sym then
          .added src ((t.grep sym).filter fun s => s ∉ usable t sym) (newExports t symvers src)
        else .ambiguous ((src :: srcs).map fun s => (s, crcOf t sym s))

def Outcome.writes : Outcome → List Write
  | .added _ _ writes => writes
  | _ => []

def writes (symvers sym : Str) : List Write := (fill t symvers sym).writes

def step (symvers sym : Str) : Str := symvers ++ (writes t symvers sym).flatMap Write.line

/-- All that `main` appends; it ends at once without Module.symvers, and without a configuration. -/
def main (symvers : Option Str) (symbols : List Str) : List Write :=
  match symvers, t.config with
  | some symvers, some _ => (Runs.outputs (step t) (writes t) symvers symbols).flatten
  | _, _ => []

def continued (line : Str) : Bool := line.reverse.take 2 = ['\n', '\\']

def joinLines : List Str → List Str
  | [] => []
  | line :: rest =>
      if continued line then
        match joinLines rest with
        | [] => [line.dropLast.dropLast]
        | next :: rest => (line.dropLast.dropLast ++ ' ' :: next) :: rest
      else line :: joinLines rest

/-- The rules kbuild reads in a directory: of its Kbuild file, or of its Makefile when there is none, in whole lines
without comments. -/
def kbuildRules (dir : List Str) : List Str :=
  (joinLines (((t.kbuild dir).or (t.makefile dir)).getD [])).map fun line => line.takeWhile (· ≠ '#')

/-- A rule without a CONFIG whose target is built anyway. -/
def isFixed (line : Str) : Bool :=
  match lit "obj-".toList (line.dropWhile (isSpace t.unicode)) with
  | none => false
  | some s =>
      let target := s.takeWhile fun c => !isSpace t.unicode c && c ≠ '=' && c ≠ '+' && c ≠ ':'
      target = ['y'] ∨ target = ['m']

def isEnabled (line : Str) : Bool :=
  match ruleConfig t line with
  | some c => isSet t c
  | none => isFixed t line

def pulls (parent : List Str) (name : Str) : Bool :=
  (kbuildRules t parent).any fun rule => isRule t name rule && isEnabled t rule

/-- The directory and all above it are pulled in. -/
def Pulled : (dir : List Str) → Prop
  | [] => True
  | name :: parent => pulls t parent name ∧ Pulled parent

def Built (obj : Path) : Prop := t.listed obj ∧ Pulled t obj.dir

/-- The object exports the symbol with this version, kbuild gets to it, and no object it builds has another version. -/
structure Certain (w : Write) : Prop where
  exported : (exportsOf t w.obj).lookup w.symbol = some w.crc
  pulled : Pulled t w.obj.dir
  only : ∀ obj, Built t obj → ∀ crc, (exportsOf t obj).lookup w.symbol = some crc → crc = w.crc

/-- The first rule for the directory is one kbuild reads, as it stands, and its target can be told. -/
def judged (parent : List Str) (name : Str) : Bool :=
  match (t.makefile parent).bind fun lines => lines.find? (isRule t name) with
  | none => false
  | some rule => (kbuildRules t parent).contains rule && ((ruleConfig t rule).isSome || isFixed t rule)

/-- Directories that are not judged by their rule, and all above a missing Makefile, are pulled in. -/
def LevelsHold : (dir : List Str) → Prop
  | [] => True
  | name :: parent =>
      (judged t parent name = false → pulls t parent name) ∧
        match t.makefile parent with
        | none => Pulled t parent
        | some _ => LevelsHold parent

/-- No built object that was not compared disagrees: none outside the candidates for the symbol asked for, none at all
for what else the first of them exports. -/
def OthersHold (symvers sym : Str) (src : Path) : Prop :=
  ∀ s crc, (exportsOf t (object src)).lookup s = some crc → symversHas symvers s = false →
    ∀ obj, Built t obj → (s = sym → ∀ src' ∈ results t sym, obj ≠ object src') →
      ∀ crc', (exportsOf t obj).lookup s = some crc' → crc' = crc

/-- The condition on a round: on the tree, and on what Module.symvers has before it. -/
def Covered (symvers sym : Str) : Prop :=
  symversHas symvers sym = false → agree t sym → ∀ src, (results t sym).head? = some src →
    LevelsHold t src.dir ∧ OthersHold t symvers sym src

end

section
variable {t : Tree} {symvers sym : Str} {src : Path}

theorem dir_is_built_parent {name : Str} {parent lines : List Str} (h : dirIsBuilt t (name :: parent))
    (hmakefile : t.makefile parent = some lines) : dirIsBuilt t parent := by
  rw [dirIsBuilt, hmakefile] at h
  dsimp only at h
  split at h
  · exact h
  · split at h
    · exact h
    · split at h
      · exact h
      · cases h

theorem judged_pulls {name : Str} {parent : List Str} (h : dirIsBuilt t (name :: parent))
    (hjudged : judged t parent name) : pulls t parent name := by
  rw [judged] at hjudged
  split at hjudged
  · cases hjudged
  · rename_i rule hfind
    obtain ⟨lines, hmakefile, hrule⟩ := Option.bind_eq_some_iff.mp hfind
    obtain ⟨hmem, htarget⟩ := Bool.and_eq_true_iff.mp hjudged
    refine List.any_eq_true.mpr ⟨rule, List.contains_iff_mem.mp hmem, ?_⟩
    rw [Bool.and_eq_true]
    refine ⟨List.find?_some hrule, ?_⟩
    rw [dirIsBuilt, hmakefile] at h
    dsimp only at h
    rw [hrule] at h
    dsimp only at h
    rw [isEnabled]
    split
    · rename_i c hc
      rw [hc] at h
      dsimp only at h
      split at h
      · assumption
      · cases h
    · rename_i hnone
      rwa [hnone, Option.isSome_none, Bool.false_or] at htarget

/-- Where the walk accepts, what it does not judge decides. -/
theorem pulled_iff {dir : List Str} (h : dirIsBuilt t dir) : Pulled t dir ↔ LevelsHold t dir := by
  induction dir with
  | nil => exact Iff.rfl
  | cons name parent ih =>
      have hpulls : pulls t parent name ↔ (judged t parent name = false → pulls t parent name) := by
        refine ⟨fun hp _ => hp, fun hp => ?_⟩
        cases hjudged : judged t parent name with
        | false => exact hp hjudged
        | true => exact judged_pulls h hjudged
      rw [Pulled, LevelsHold, ← hpulls]
      refine and_congr_right fun _ => ?_
      cases hmakefile : t.makefile parent with
      | none => exact Iff.rfl
      | some lines => exact ih (dir_is_built_parent h hmakefile)

theorem agree_eq {src' : Path} (h : agree t sym) (hsrc : src ∈ results t sym) (hsrc' : src' ∈ results t sym) :
    crcOf t sym src = crcOf t sym src' := by
  have hmem := List.mem_dedup.mpr (List.mem_map_of_mem (f := crcOf t sym) hsrc)
  have hmem' := List.mem_dedup.mpr (List.mem_map_of_mem (f := crcOf t sym) hsrc')
  have hlength := of_decide_eq_true h
  match hl : ((results t sym).map (crcOf t sym)).dedup with
  | [] =>
      rw [hl] at hmem
      cases hmem
  | [crc] =>
      rw [hl, List.mem_singleton] at hmem hmem'
      rw [hmem, hmem']
  | _ :: _ :: _ =>
      rw [hl, List.length_cons, List.length_cons] at hlength
      omega

theorem mem_newExports {w : Write} : w ∈ newExports t symvers src ↔
    (exportsOf t (object src)).lookup w.symbol = some w.crc ∧ symversHas symvers w.symbol = false ∧
      w.ns = namespaceOf t (t.source src) w.symbol ∧ w.obj = object src := by
  simp only [newExports, List.mem_map, List.mem_filter, List.mem_mergeSort, Bool.not_eq_eq_eq_not, Bool.not_true]
  constructor
  · rintro ⟨e, ⟨he, hnew⟩, rfl⟩
    exact ⟨mem_entries.mp he, hnew, rfl, rfl⟩
  · rintro ⟨hlookup, hnew, hns, hobj⟩
    refine ⟨⟨w.symbol, w.crc⟩, ⟨mem_entries.mpr hlookup, hnew⟩, ?_⟩
    obtain ⟨s, crc, ns, obj⟩ := w
    dsimp only at hns hobj
    rw [hns, hobj]

/-- A round appends when the symbol is missing and its candidates agree: what the first of them exports. -/
theorem mem_writes {w : Write} : w ∈ writes t symvers sym ↔
    symversHas symvers sym = false ∧ agree t sym ∧
      ∃ src, (results t sym).head? = some src ∧ w ∈ newExports t symvers src := by
  have hgrep : t.grep sym = [] → results t sym = [] := fun h => by rw [results, usable, h]; rfl
  have husable : usable t sym = [] → results t sym = [] := fun h => by rw [results, h]; rfl
  rw [writes, fill]
  cases hhas : symversHas symvers sym with
  | true => simp [Outcome.writes]
  | false =>
      cases hresults : results t sym with
      | nil =>
          simp only [Bool.false_eq_true, if_false]
          split_ifs <;> simp [Outcome.writes]
      | cons src srcs =>
          rw [hresults] at hgrep husable
          rw [if_neg Bool.false_ne_true, if_neg fun h => List.cons_ne_nil _ _ (hgrep h),
            if_neg fun h => List.cons_ne_nil _ _ (husable h)]
          cases hagree : agree t sym with
          | true => simp [Outcome.writes]
          | false => simp [Outcome.writes]

theorem results_head (h : (results t sym).head? = some src) :
    src ∈ results t sym ∧ dirIsBuilt t src.dir ∧ ∃ crc, (exportsOf t (object src)).lookup sym = some crc := by
  have hmem := List.mem_of_mem_head? h
  obtain ⟨husable, hexport⟩ := List.mem_filter.mp hmem
  exact ⟨hmem, (List.mem_filter.mp husable).2, mem_iff_lookup.mp (of_decide_eq_true hexport)⟩

theorem round_certain_iff : (∀ w ∈ writes t symvers sym, Certain t w) ↔ Covered t symvers sym := by
  constructor
  · intro h hmissing hagree src hhead
    obtain ⟨hmem, hbuilt, crc, hcrc⟩ := results_head hhead
    have hwrite : ∀ s crc, (exportsOf t (object src)).lookup s = some crc → symversHas symvers s = false →
        Certain t ⟨s, crc, namespaceOf t (t.source src) s, object src⟩ := fun s crc hs hnew =>
      h _ (mem_writes.mpr ⟨hmissing, hagree, src, hhead, mem_newExports.mpr ⟨hs, hnew, rfl, rfl⟩⟩)
    refine ⟨(pulled_iff hbuilt).mp (hwrite sym crc hcrc hmissing).pulled, ?_⟩
    intro s crc hs hnew obj hobj _ crc' hcrc'
    exact (hwrite s crc hs hnew).only obj hobj crc' hcrc'
  · intro h w hw
    obtain ⟨hmissing, hagree, src, hhead, hnewExport⟩ := mem_writes.mp hw
    obtain ⟨hlookup, hnew, -, hobj⟩ := mem_newExports.mp hnewExport
    obtain ⟨hmem, hbuilt, -⟩ := results_head hhead
    obtain ⟨hlevels, hothers⟩ := h hmissing hagree src hhead
    rw [← hobj] at hlookup
    refine ⟨hlookup, ?_, ?_⟩
    · rw [hobj]
      exact (pulled_iff hbuilt).mpr hlevels
    · intro obj hobj' crc hcrc
      rw [hobj] at hlookup
      by_cases hcompared : w.symbol = sym ∧ ∃ src' ∈ results t sym, obj = object src'
      · obtain ⟨hsym, src', hsrc', rfl⟩ := hcompared
        have heq := agree_eq hagree hsrc' hmem
        rw [crcOf, crcOf, ← hsym, hcrc, hlookup, Option.some_inj] at heq
        exact heq
      · refine hothers w.symbol w.crc hlookup hnew obj hobj' (fun hsym src' hsrc' heq => ?_) crc hcrc
        exact hcompared ⟨hsym, src', hsrc', heq⟩

end

/-- The rounds of `main`, each at the Module.symvers before it. -/
def Rounds (t : Tree) (symvers : Option Str) (symbols : List Str) : Prop :=
  ∀ text, symvers = some text → t.config ≠ none → Runs.Always (step t) (Covered t) text symbols

theorem main_nothing {t : Tree} {symvers : Option Str} (h : symvers = none ∨ t.config = none) (symbols : List Str) :
    main t symvers symbols = [] := by
  rcases h with h | h
  · simp only [main, h]
  · cases symvers <;> simp only [main, h]

theorem main_rounds {t : Tree} (h : t.config ≠ none) (text : Str) (symbols : List Str) :
    main t (some text) symbols = (Runs.outputs (step t) (writes t) text symbols).flatten := by
  obtain ⟨lines, hlines⟩ := Option.ne_none_iff_exists'.mp h
  simp only [main, hlines]

/-- A tree with the Makefile of its top directory, and two objects in drivers: the second symbol of the one is exported
by the other in another version. -/
def smallTree (rules : List Str) : Tree where
  unicode := ascii
  config := some []
  makefile := fun dir => if dir = [] then some rules else none
  kbuild := fun _ => none
  grep := fun sym => if sym = "foo".toList then [⟨["drivers".toList], "a.c".toList⟩] else []
  cmd := fun obj =>
    if obj = ⟨["drivers".toList], "a.o".toList⟩ then some "#SYMVER foo 0x1\n#SYMVER bar 0x2\n".toList
    else if obj = ⟨["drivers".toList], "b.o".toList⟩ then some "#SYMVER bar 0x3\n".toList
    else none
  source := fun _ => []
  listed := fun _ => True

theorem small_tree_appends {rules : List Str} {w : Write} (src : Path)
    (hsrc : (results (smallTree rules) "foo".toList).head? = some src) (hagree : agree (smallTree rules) "foo".toList)
    (hw : w ∈ newExports (smallTree rules) [] src) : w ∈ main (smallTree rules) (some []) ["foo".toList] := by
  rw [main_rounds (Option.some_ne_none _)]
  apply List.mem_flatten.mpr
  exact ⟨_, List.mem_cons_self, mem_writes.mpr ⟨rfl, hagree, src, hsrc, hw⟩⟩

end Sirius.FillSymvers
