import Sirius.Tools.DtLoad

/-!
# The comparison of device trees, tools/dt-equiv.py

A Python exception and `sys.exit` are `none`. What reads the trees is a parameter, so that the
comparison is there for any two trees; the program has `load` there.
-/
namespace Sirius.DtEquiv
open Dict

abbrev Phandles := Table (BitVec 32) Str

/-- Whether the node is below a name that starts with "chosen" or "memory". -/
def skip (node : Str) : Bool :=
  let top := if node.count '/' ≠ 0 then (node.splitOn '/').getD 1 [] else []
  "chosen".toList.isPrefixOf top || "memory".toList.isPrefixOf top

/-- `struct.unpack('>%dI' % (len(v) // 4), v)` -/
def cells : Bytes → List (BitVec 32)
  | a :: b :: c :: d :: rest => (a ++ b ++ c ++ d) :: cells rest
  | _ => []

def phandleKeys : List Str := ["phandle".toList, "linux,phandle".toList]

def phandleProps (nodes : Tree) : List (Str × Bytes) :=
  nodes.entries.flatMap fun e => phandleKeys.filterMap fun k => (e.2.lookup k).map fun v => (e.1, v)

def phandles (nodes : Tree) : Option Phandles := do
  let out ← (phandleProps nodes).mapM fun p => (unpack p.2).map fun x => (x, p.1)
  return ofList out

/-- `'/'.join(renames.get(s, s) for s in n.split('/'))` -/
def rename (renames : Table Str Str) (n : Str) : Str :=
  ['/'].intercalate ((n.splitOn '/').map fun s => (renames.lookup s).getD s)

/-- Where renames give two nodes one path, the later one stands. -/
def renameTree (renames : Table Str Str) (raw : Tree) : Tree :=
  ofList (raw.entries.map fun e => (rename renames e.1, e.2))

def renamePhandles (renames : Table Str Str) (table : Phandles) : Phandles :=
  ofList (table.entries.map fun e => (e.1, rename renames e.2))

/-- The lines that are printed. -/
inductive Problem
  | onlyBefore (n : Str)
  | onlyAfter (n : Str)
  | onlyInOne (n k : Str)
  | differs (n k : Str)
  deriving DecidableEq, Repr

def sorted (xs : List Str) : List Str := xs.insertionSort (· ≤ ·)

/-- `x == y or (x in pa and y in pb and pa[x] == pb[y])` -/
def sameCell (pa pb : Phandles) (x y : BitVec 32) : Bool :=
  x = y || match pa.lookup x, pb.lookup y with
    | some n, some m => n = m
    | _, _ => false

def sameValue (pa pb : Phandles) (va vb : Bytes) : Bool :=
  va = vb || (va.length = vb.length && va.length % 4 = 0 &&
    ((cells va).zip (cells vb)).all fun c => sameCell pa pb c.1 c.2)

/-- The keys but for those of the phandles. -/
def propNames (p : Props) : List Str := p.keys.filter (· ∉ phandleKeys)

def compareProp (pa pb : Phandles) (p q : Props) (n k : Str) : List Problem :=
  match p.lookup k, q.lookup k with
  | some va, some vb => if sameValue pa pb va vb then [] else [.differs n k]
  | _, _ => []

def compareNode (pa pb : Phandles) (p q : Props) (n : Str) : List Problem :=
  let ka := propNames p
  let kb := propNames q
  (sorted (ka.filter (· ∉ kb) ++ kb.filter (· ∉ ka))).map (.onlyInOne n) ++
    (sorted (ka.filter (· ∈ kb))).flatMap (compareProp pa pb p q n)

def compare (pa pb : Phandles) (a b : Tree) : List Problem :=
  let na := a.keys.filter (¬ skip ·)
  let nb := b.keys.filter (¬ skip ·)
  (sorted (na.filter (· ∉ nb))).map .onlyBefore ++ (sorted (nb.filter (· ∉ na))).map .onlyAfter ++
    (sorted (na.filter (· ∈ nb))).flatMap fun n =>
      match a.lookup n, b.lookup n with
      | some p, some q => compareNode pa pb p q n
      | _, _ => []

def renameFlag : Str := "--rename".toList

/-- `s.split('=', 1)`, which is to give two parts. -/
def splitEq (s : Str) : Option (Str × Str) :=
  if '=' ∈ s then some (s.takeWhile (· ≠ '='), (s.dropWhile (· ≠ '=')).tail) else none

/-- The loop over the `--rename` arguments: the table and the arguments behind them. -/
def parseRenames (renames : Table Str Str) : List Str → Option (Table Str Str × List Str)
  | [] => some (renames, [])
  | [arg] => if arg = renameFlag then none else some (renames, [arg])
  | arg :: spec :: argv =>
      if arg = renameFlag then do
        let (after, before) ← splitEq spec
        parseRenames (setItem renames after before) argv
      else some (renames, arg :: spec :: argv)

def main (load : Str → Option Tree) (argv : List Str) : Option (List Problem × ℤ) := do
  let (renames, argv) ← parseRenames ∅ argv
  match argv with
  | [before, after] => do
      let a ← load before
      let raw ← load after
      let b := renameTree renames raw
      let pa ← phandles a
      let pb := renamePhandles renames (← phandles raw)
      let problems := compare pa pb a b
      return (problems, if problems.length ≠ 0 then 1 else 0)
  | _ => none

end Sirius.DtEquiv
