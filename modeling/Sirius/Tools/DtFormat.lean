import Mathlib.Algebra.Group.Nat.Defs
import Sirius.Lib.InPlace
import Sirius.Tools.DtComplete

/-!
# Device tree blobs

A blob holds a tree of nodes: its nodes and properties in any order, with NOP tokens anywhere, and its blocks and its
strings laid out in any way. The loop of `load` goes through it as `enter` goes through the tree.
-/
namespace Sirius.DtEquiv
open Dict InPlace

/-- A name as it stands in a blob, in UTF-8. -/
structure Name where
  raw : Bytes
  text : Str
  noZero : 0 ∉ raw
  decoded : decode raw = some text

/-- What stands between the begin and the end of a node, `off` being where the strings have the name of a property. -/
inductive Body
  | done
  | nop (rest : Body)
  | prop (off : BitVec 32) (name : Name) (value : Bytes) (rest : Body)
  | node (name : Name) (body rest : Body)

def padded (v : Bytes) : Bytes := v ++ List.replicate ((4 - v.length % 4) % 4) 0

def Body.bytes : Body → Bytes
  | .done => []
  | .nop rest => pack 4 ++ rest.bytes
  | .prop off _ value rest => pack 3 ++ (pack (.ofNat 32 value.length) ++ (pack off ++ (padded value ++ rest.bytes)))
  | .node name body rest => pack 1 ++ (padded (name.raw ++ [0]) ++ (body.bytes ++ (pack 2 ++ rest.bytes)))

/-- The strings have the names, and the lengths fit. -/
def Body.Fits (strings : Bytes) : Body → Prop
  | .done => True
  | .nop rest => rest.Fits strings
  | .prop off name value rest => At strings off.toNat (name.raw ++ [0]) ∧ value.length < 2 ^ 32 ∧ rest.Fits strings
  | .node _ body rest => body.Fits strings ∧ rest.Fits strings

/-- `nodes.setdefault(n, {})` -/
def withNode (t : Tree) (n : Str) : Tree := if n ∈ t then t else setItem t n ∅

/-- What the loop does with the nodes. -/
def Body.enter (path : List Str) : Body → Tree → Tree
  | .done, t => t
  | .nop rest, t => rest.enter path t
  | .prop _ name value rest, t =>
      rest.enter path (setItem t (nodePath path) (setItem ((t.lookup (nodePath path)).getD ∅) name.text value))
  | .node name body rest, t =>
      rest.enter path (body.enter (path ++ [name.text]) (withNode t (nodePath (path ++ [name.text]))))

section
variable {b strings : Bytes} {i : ℕ}

theorem word_at {x : BitVec 32} (h : At b i (pack x)) : word b i = some x.toNat := by
  have hslice : slice b i (i + 4) = pack x := by
    rw [slice, Nat.add_sub_cancel_left]
    exact h.take
  rw [word, hslice, unpack_pack, Option.map_some]

theorem slice_at {v : Bytes} (h : At b i v) : slice b i (i + v.length) = v := by
  rw [slice, Nat.add_sub_cancel_left]
  exact h.take

theorem indexZero_at {name : Name} (h : At b i (name.raw ++ [0])) : indexZero b i = some (i + name.raw.length) := by
  have hfind : (b.drop i).findIdx? (· = 0) = some name.raw.length := by
    refine h.findIdx (fun a ha => ?_) (decide_eq_true rfl)
    exact decide_eq_false fun hzero => name.noZero (hzero ▸ ha)
  rw [indexZero, hfind, Option.map_some]

theorem name_at {name : Name} (h : At b i (name.raw ++ [0])) :
    decode (slice b i (i + name.raw.length)) = some name.text := by
  rw [slice_at (at_append.mp h).1, name.decoded]

theorem length_pack (x : BitVec 32) : (pack x).length = 4 := rfl

theorem length_padded (v : Bytes) : (padded v).length = (v.length + 3) / 4 * 4 := by
  rw [padded, List.length_append, List.length_replicate]
  omega

theorem at_of_padded {v : Bytes} (h : At b i (padded v)) : At b i v := (at_append.mp h).1

theorem dvd_bytes (body : Body) : 4 ∣ body.bytes.length := by
  induction body with
  | done => exact Nat.dvd_zero 4
  | nop rest ih =>
      rw [Body.bytes, List.length_append, length_pack]
      exact Nat.dvd_add (Nat.dvd_refl 4) ih
  | prop off name value rest ih =>
      simp only [Body.bytes, List.length_append, length_pack, length_padded]
      omega
  | node name body rest ihbody ih =>
      simp only [Body.bytes, List.length_append, length_pack, length_padded]
      omega

/-- The loop from some point on. -/
def walkOn (b strings : Bytes) (w : Walk) : Option Tree := walk b strings (b.length + 1) w

theorem walk_step {w w' : Walk} (h : token b strings w = some (.inl w')) :
    walkOn b strings w = walkOn b strings w' := by
  obtain ⟨hlt, hin⟩ := token_advances h
  have hwalk : walkOn b strings w = walk b strings b.length w' := by
    rw [walkOn, walk, h]
    rfl
  rw [hwalk, walkOn]
  exact walk_fuel (by omega) (by omega)

theorem token_begin {nodes : Tree} {path : List Str} {name : Name} (hdvd : 4 ∣ i)
    (h : At b i (pack 1 ++ padded (name.raw ++ [0]))) :
    token b strings ⟨nodes, path, i⟩ =
      some (.inl ⟨withNode nodes (nodePath (path ++ [name.text])), path ++ [name.text],
        i + 4 + (padded (name.raw ++ [0])).length⟩) := by
  obtain ⟨hword, hname⟩ := at_append.mp h
  have hzero := at_of_padded hname
  rw [length_pack] at hzero
  have htok : (1 : BitVec 32).toNat = 1 := rfl
  have hnext : (i + 4 + name.raw.length + 4) / 4 * 4 = i + 4 + (name.raw.length + 1 + 3) / 4 * 4 := by omega
  simp only [token, word_at hword, htok, indexZero_at hzero, name_at hzero, length_padded, List.length_append,
    List.length_singleton, Option.bind_eq_bind, Option.bind_some, if_true, hnext]
  rfl

theorem token_end {nodes : Tree} {path : List Str} (hne : path ≠ []) (h : At b i (pack 2)) :
    token b strings ⟨nodes, path, i⟩ = some (.inl ⟨nodes, path.dropLast, i + 4⟩) := by
  have htok : (2 : BitVec 32).toNat = 2 := rfl
  simp only [token, word_at h, htok, Option.bind_eq_bind, Option.bind_some, if_neg hne]
  rfl

theorem token_nop {nodes : Tree} {path : List Str} (h : At b i (pack 4)) :
    token b strings ⟨nodes, path, i⟩ = some (.inl ⟨nodes, path, i + 4⟩) := by
  have htok : (4 : BitVec 32).toNat = 4 := rfl
  simp only [token, word_at h, htok, Option.bind_eq_bind, Option.bind_some]
  rfl

theorem token_prop {nodes : Tree} {path : List Str} {off : BitVec 32} {name : Name} {value : Bytes} {props : Props}
    (hdvd : 4 ∣ i) (hname : At strings off.toNat (name.raw ++ [0])) (hlt : value.length < 2 ^ 32)
    (hprops : nodes.lookup (nodePath path) = some props)
    (h : At b i (pack 3 ++ (pack (.ofNat 32 value.length) ++ (pack off ++ padded value)))) :
    token b strings ⟨nodes, path, i⟩ =
      some (.inl ⟨setItem nodes (nodePath path) (setItem props name.text value), path,
        i + 12 + (padded value).length⟩) := by
  obtain ⟨hword, hrest⟩ := at_append.mp h
  obtain ⟨hlen, hrest⟩ := at_append.mp hrest
  obtain ⟨hoff, hvalue⟩ := at_append.mp hrest
  simp only [length_pack] at hlen hoff hvalue
  have htok : (3 : BitVec 32).toNat = 3 := rfl
  have hcount : (BitVec.ofNat 32 value.length).toNat = value.length := by
    rw [BitVec.toNat_ofNat, Nat.mod_eq_of_lt hlt]
  have hslice : slice b (i + 4 + 8) (i + 4 + 8 + value.length) = value := slice_at (at_of_padded hvalue)
  have hnext : (i + 4 + 8 + value.length + 3) / 4 * 4 = i + 12 + (value.length + 3) / 4 * 4 := by omega
  simp only [token, word_at hword, htok, word_at hlen, hcount, word_at hoff, indexZero_at hname, name_at hname, hprops,
    hslice, hnext, length_padded, Option.bind_eq_bind, Option.bind_some]
  rfl

theorem token_stop {nodes : Tree} {path : List Str} (h : At b i (pack 9)) :
    token b strings ⟨nodes, path, i⟩ = some (.inr nodes) := by
  have htok : (9 : BitVec 32).toNat = 9 := rfl
  simp only [token, word_at h, htok, Option.bind_eq_bind, Option.bind_some]
  rfl

theorem mem_setItem {t : Tree} {n m : Str} {p : Props} (h : n ∈ t) : n ∈ setItem t m p := by
  by_cases hn : n = m
  · exact mem_iff_lookup.mpr ⟨p, by rw [hn, lookup_setItem_self]⟩
  · obtain ⟨q, hq⟩ := mem_iff_lookup.mp h
    exact mem_iff_lookup.mpr ⟨q, by rw [lookup_setItem_ne t p hn, hq]⟩

theorem mem_withNode {t : Tree} {n m : Str} (h : n ∈ t) : n ∈ withNode t m := by
  unfold withNode
  split
  · exact h
  · exact mem_setItem h

theorem mem_withNode_self (t : Tree) (n : Str) : n ∈ withNode t n := by
  unfold withNode
  split
  · assumption
  · exact mem_iff_lookup.mpr ⟨∅, lookup_setItem_self t n ∅⟩

/-- Nodes are never taken out. -/
theorem mem_enter {path : List Str} {body : Body} {t : Tree} {n : Str} (h : n ∈ t) : n ∈ body.enter path t := by
  induction body generalizing path t with
  | done => exact h
  | nop rest ih => exact ih h
  | prop off name value rest ih => exact ih (mem_setItem h)
  | node name body rest ihbody ih =>
      apply ih
      apply ihbody
      exact mem_withNode h

/-- The loop goes through a body as `enter` does. -/
theorem walk_body {body : Body} {nodes : Tree} {path : List Str} (hfits : body.Fits strings) (hdvd : 4 ∣ i)
    (hpath : nodePath path ∈ nodes) (h : At b i body.bytes) :
    walkOn b strings ⟨nodes, path, i⟩ = walkOn b strings ⟨body.enter path nodes, path, i + body.bytes.length⟩ := by
  induction body generalizing i nodes path with
  | done => rfl
  | nop rest ih =>
      obtain ⟨hnop, hrest⟩ := at_append.mp h
      rw [walk_step (token_nop hnop), ih hfits (Nat.dvd_add hdvd (Nat.dvd_refl 4)) hpath hrest, Body.enter, Body.bytes,
        List.length_append, length_pack, Nat.add_assoc]
  | prop off name value rest ih =>
      obtain ⟨hname, hlt, hrest⟩ := hfits
      obtain ⟨props, hprops⟩ := mem_iff_lookup.mp hpath
      have happ : Body.bytes (.prop off name value rest) =
          pack 3 ++ (pack (.ofNat 32 value.length) ++ (pack off ++ padded value)) ++ rest.bytes := by
        simp only [Body.bytes, List.append_assoc]
      rw [happ] at h
      obtain ⟨htoken, hbytes⟩ := at_append.mp h
      have hlength : (pack 3 ++ (pack (.ofNat 32 value.length) ++ (pack off ++ padded value))).length =
          12 + (padded value).length := by
        simp only [List.length_append, length_pack]
        omega
      rw [hlength, ← Nat.add_assoc] at hbytes
      have hdvd' : 4 ∣ i + 12 + (padded value).length := by
        rw [length_padded]
        omega
      rw [walk_step (token_prop hdvd hname hlt hprops htoken), ih hrest hdvd' (mem_setItem hpath) hbytes, Body.enter,
        hprops, Option.getD_some, happ, List.length_append, hlength]
      simp only [Nat.add_assoc]
  | node name body rest ihbody ih =>
      have happ : Body.bytes (.node name body rest) =
          pack 1 ++ padded (name.raw ++ [0]) ++ body.bytes ++ pack 2 ++ rest.bytes := by
        simp only [Body.bytes, List.append_assoc]
      rw [happ] at h
      obtain ⟨h, hrest⟩ := at_append.mp h
      obtain ⟨h, hend⟩ := at_append.mp h
      obtain ⟨hbegin, hbody⟩ := at_append.mp h
      simp only [List.length_append, length_pack, ← Nat.add_assoc] at hbody hend hrest
      have hne : path ++ [name.text] ≠ [] := List.append_ne_nil_of_right_ne_nil _ (List.cons_ne_nil _ _)
      have hpad : 4 ∣ (padded (name.raw ++ [0])).length := ⟨_, (length_padded _).trans (Nat.mul_comm _ _)⟩
      have hdvdBody : 4 ∣ i + 4 + (padded (name.raw ++ [0])).length := by omega
      have hdvdRest : 4 ∣ i + 4 + (padded (name.raw ++ [0])).length + body.bytes.length + 4 := by
        have hbytes := dvd_bytes body
        omega
      rw [walk_step (token_begin hdvd hbegin), ihbody hfits.1 hdvdBody (mem_withNode_self _ _) hbody,
        walk_step (token_end hne hend), List.dropLast_concat,
        ih hfits.2 hdvdRest (mem_enter (mem_withNode hpath)) hrest, Body.enter, happ]
      simp only [List.length_append, length_pack, Nat.add_assoc]

def rootName : Name := ⟨[], [], List.not_mem_nil, rfl⟩

end

/-- NOP tokens, as many as there are. -/
def nops (n : ℕ) : Bytes := (List.replicate n (pack 4)).flatten

/-- A device tree in a file: the header tells where its blocks are. They may stand in any order, with anything between
and behind them, as far as the size in the header goes. -/
structure Blob where
  bytes : Bytes
  body : Body
  nopsBefore : ℕ
  nopsBehind : ℕ
  strings : Bytes
  offStruct : ℕ
  offStrings : ℕ
  aligned : 4 ∣ offStruct
  fits : body.Fits strings
  small : bytes.length < 2 ^ 32
  magic : At bytes 0 MAGIC
  totalsize : At bytes 4 (pack (.ofNat 32 bytes.length))
  offsets : At bytes 8 (pack (.ofNat 32 offStruct) ++ pack (.ofNat 32 offStrings))
  sizeStrings : At bytes 32 (pack (.ofNat 32 strings.length))
  structBlock : At bytes offStruct
    (nops nopsBefore ++ (Body.node rootName body .done).bytes ++ nops nopsBehind ++ pack 9)
  stringsBlock : At bytes offStrings strings
  stringsIn : offStrings + strings.length ≤ bytes.length

namespace Blob
variable (d : Blob)

/-- The nodes as they are loaded. -/
def tree : Tree := d.body.enter [[]] (withNode ∅ ['/'])

/-- The file is the blob and what follows it, or a kernel with the blob behind it: there the program looks for the last
magic number of the file, which has to be that of the blob. -/
def InFile (file : Bytes) : Prop :=
  (∃ after, file = d.bytes ++ after) ∨
    ∃ kernel after, file = kernel ++ d.bytes ++ after ∧ file.take 4 ≠ MAGIC ∧
      ∀ i, At file i MAGIC → i ≤ kernel.length

variable {d}

theorem word_field {b : Bytes} {i n : ℕ} (h : At b i (pack (.ofNat 32 n))) (hn : n ≤ d.bytes.length) :
    word b i = some n := by
  rw [word_at h, BitVec.toNat_ofNat, Nat.mod_eq_of_lt (Nat.lt_of_le_of_lt hn d.small)]

theorem nops_succ (n : ℕ) : nops (n + 1) = pack 4 ++ nops n := by
  rw [nops, List.replicate_succ, List.flatten_cons]
  rfl

theorem dvd_nops (n : ℕ) : 4 ∣ (nops n).length := by
  induction n with
  | zero => exact Nat.dvd_zero 4
  | succ n ih =>
      rw [nops_succ, List.length_append, length_pack]
      exact Nat.dvd_add (Nat.dvd_refl 4) ih

theorem walk_nops {b strings : Bytes} {nodes : Tree} {path : List Str} {i n : ℕ} (h : At b i (nops n)) :
    walkOn b strings ⟨nodes, path, i⟩ = walkOn b strings ⟨nodes, path, i + (nops n).length⟩ := by
  induction n generalizing i with
  | zero => rfl
  | succ n ih =>
      rw [nops_succ] at h
      obtain ⟨hnop, hrest⟩ := at_append.mp h
      rw [length_pack] at hrest
      rw [walk_step (token_nop hnop), ih hrest, nops_succ, List.length_append, length_pack, Nat.add_assoc]

/-- The root with all that is below it. -/
theorem walk_root {b : Bytes} {i : ℕ} (hdvd : 4 ∣ i) (h : At b i (Body.node rootName d.body .done).bytes) :
    walkOn b d.strings ⟨∅, [], i⟩ =
      walkOn b d.strings ⟨d.tree, [], i + (Body.node rootName d.body .done).bytes.length⟩ := by
  have happ : Body.bytes (.node rootName d.body .done) =
      pack 1 ++ padded (rootName.raw ++ [0]) ++ d.body.bytes ++ pack 2 := by
    simp only [Body.bytes, List.append_assoc, List.append_nil]
  rw [happ] at h ⊢
  obtain ⟨h, hend⟩ := at_append.mp h
  obtain ⟨hbegin, hbody⟩ := at_append.mp h
  have hpad : (padded (rootName.raw ++ [0])).length = 4 := rfl
  simp only [List.length_append, length_pack, hpad, ← Nat.add_assoc] at hbody hend ⊢
  have hbodyDvd : 4 ∣ i + 4 + 4 := by omega
  have hroot : nodePath [rootName.text] ∈ withNode ∅ (nodePath [rootName.text]) := mem_withNode_self _ _
  rw [walk_step (token_begin hdvd hbegin), hpad, List.nil_append, walk_body d.fits hbodyDvd hroot hbody,
    walk_step (token_end (List.cons_ne_nil _ _) hend)]
  rfl

theorem walk_structBlock {b : Bytes} (h : At b d.offStruct
    (nops d.nopsBefore ++ (Body.node rootName d.body .done).bytes ++ nops d.nopsBehind ++ pack 9)) :
    walkOn b d.strings ⟨∅, [], d.offStruct⟩ = some d.tree := by
  obtain ⟨h, hstop⟩ := at_append.mp h
  obtain ⟨h, hbehind⟩ := at_append.mp h
  obtain ⟨hbefore, hroot⟩ := at_append.mp h
  have hdvd : 4 ∣ d.offStruct + (nops d.nopsBefore).length := Nat.dvd_add d.aligned (dvd_nops d.nopsBefore)
  simp only [List.length_append, ← Nat.add_assoc] at hstop hbehind
  rw [walk_nops hbefore, walk_root hdvd hroot, walk_nops hbehind, walkOn, walk, token_stop hstop]
  rfl

theorem slice_eq_iff {b v : Bytes} {i : ℕ} : slice b i (i + v.length) = v ↔ At b i v := by
  constructor
  · intro h
    rw [slice, Nat.add_sub_cancel_left] at h
    have happ := List.take_append_drop v.length (b.drop i)
    rw [h] at happ
    exact ⟨_, happ.symm⟩
  · exact slice_at

theorem rfind_at {b v : Bytes} {i : ℕ} (hv : v ≠ []) (h : At b i v) (hlast : ∀ j, At b j v → j ≤ i) :
    rfind b v = some i := by
  have hlt : i < b.length := by
    have hle := h.length_le hv
    have hpos := List.length_pos_of_ne_nil hv
    omega
  obtain ⟨n, hn⟩ := Nat.exists_eq_add_of_lt hlt
  have hrange : List.range b.length = List.range i ++ [i] ++ (List.range n).map (i + 1 + ·) := by
    rw [hn, Nat.add_right_comm, List.range_add, List.range_succ]
  have hbehind : ((List.range n).map (i + 1 + ·)).filter (fun j => slice b j (j + v.length) = v) = [] := by
    rw [List.filter_eq_nil_iff]
    intro j hj hslice
    obtain ⟨k, -, rfl⟩ := List.mem_map.mp hj
    have hle := hlast _ (slice_eq_iff.mp (of_decide_eq_true hslice))
    omega
  have hhere : [i].filter (fun j => slice b j (j + v.length) = v) = [i] :=
    List.filter_cons_of_pos (decide_eq_true (slice_eq_iff.mpr h))
  rw [rfind, hrange, List.filter_append, List.filter_append, hbehind, hhere, List.append_nil, List.getLast?_concat]

theorem appended_kernel {kernel after : Bytes}
    (hlast : ∀ i, At (kernel ++ d.bytes ++ after) i MAGIC → i ≤ kernel.length) :
    appended (kernel ++ d.bytes ++ after) = some d.bytes := by
  have hbytes : At (kernel ++ d.bytes ++ after) kernel.length d.bytes := at_mid kernel d.bytes after
  have hmagic : At (kernel ++ d.bytes ++ after) kernel.length MAGIC := hbytes.trans d.magic
  have hword := word_field (hbytes.trans d.totalsize) (Nat.le_refl d.bytes.length)
  have hfind : rfind (kernel ++ d.bytes ++ after) MAGIC = some kernel.length :=
    rfind_at (List.cons_ne_nil _ _) hmagic hlast
  rw [appended, hfind]
  simp only [Option.bind_eq_bind, Option.bind_some, hword, slice_at hbytes]
  rfl

/-- The rest of `load`, once the blob is there. -/
def loadFrom (b : Bytes) : Option Tree := do
  let offStruct ← word b 8
  let offStrings ← word b 12
  let szStrings ← word b 32
  walkOn b (slice b offStrings (offStrings + szStrings)) ⟨∅, [], offStruct⟩

theorem loadFrom_bytes (after : Bytes) : loadFrom (d.bytes ++ after) = some d.tree := by
  have hsize := d.sizeStrings.length_le (List.cons_ne_nil _ _)
  have hin := d.structBlock.length_le (List.append_ne_nil_of_right_ne_nil _ (List.cons_ne_nil _ _))
  have hstrings := d.stringsIn
  rw [length_pack] at hsize
  obtain ⟨hoffStruct, hoffStrings⟩ := at_append.mp (d.offsets.append_right (by omega) after)
  rw [length_pack] at hoffStrings
  have hszStrings := d.sizeStrings.append_right (by omega) after
  have hle : d.offStruct ≤ d.bytes.length ∧ d.offStrings ≤ d.bytes.length ∧ d.strings.length ≤ d.bytes.length := by
    omega
  rw [loadFrom, word_field hoffStruct hle.1, word_field hoffStrings hle.2.1, word_field hszStrings hle.2.2]
  simp only [Option.bind_eq_bind, Option.bind_some, slice_at (d.stringsBlock.append_right (by omega) after)]
  exact walk_structBlock (d.structBlock.append_right (by omega) after)

theorem load_eq {read : Str → Option Bytes} {path : Str} {file : Bytes} (hread : read path = some file) :
    load read path = (if file.take 4 ≠ MAGIC then appended file else some file).bind loadFrom := by
  rw [load, hread]
  simp only [Option.bind_eq_bind, Option.bind_some]
  split
  · rfl
  · rfl

/-- What is loaded from a file is the tree of the blob in it. -/
theorem load_inFile {read : Str → Option Bytes} {path : Str} {file : Bytes} (hread : read path = some file)
    (h : d.InFile file) : load read path = some d.tree := by
  rw [load_eq hread]
  rcases h with ⟨after, rfl⟩ | ⟨kernel, after, rfl, hmagic, hlast⟩
  · have hmagic : (d.bytes ++ after).take 4 = MAGIC := (d.magic.append_right (Nat.zero_le _) after).take
    rw [if_neg (not_not.mpr hmagic), Option.bind_some, loadFrom_bytes]
  · rw [if_pos hmagic, appended_kernel hlast, Option.bind_some, ← List.append_nil d.bytes, loadFrom_bytes]

end Blob

end Sirius.DtEquiv
