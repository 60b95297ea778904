import Mathlib.Data.Int.Order.Basic
import Mathlib.Data.List.Sort
import Mathlib.Data.Char
import Mathlib.Data.List.Lex
import Sirius.Lib.Dict

/-!
# Reading a device tree blob, `load` of tools/dt-equiv.py

A parsed tree maps the path of each node to its properties, in the order of the blob. A Python
exception is `none`, a file that cannot be read among them.
-/
namespace Sirius.DtEquiv
open Dict

abbrev Str := List Char
abbrev Bytes := List (BitVec 8)
abbrev Props := Table Str Bytes
abbrev Tree := Table Str Props

def slice (b : Bytes) (i j : ℕ) : Bytes := (b.drop i).take (j - i)

/-- `struct.unpack('>I', v)`, which wants four bytes. -/
def unpack : Bytes → Option (BitVec 32)
  | [a, b, c, d] => some (a ++ b ++ c ++ d)
  | _ => none

def word (b : Bytes) (i : ℕ) : Option ℕ := (unpack (slice b i (i + 4))).map BitVec.toNat

/-- `b.index(b'\0', i)` -/
def indexZero (b : Bytes) (i : ℕ) : Option ℕ := ((b.drop i).findIdx? (· = 0)).map (i + ·)

/-- `b.rfind(v)` -/
def rfind (b v : Bytes) : Option ℕ :=
  ((List.range b.length).filter fun i => slice b i (i + v.length) = v).getLast?

def continues (b : BitVec 8) : Bool := b &&& 0xc0 = 0x80

/-- A character of UTF-8: the value of its bytes, which has to need that many. -/
def character (least value : ℕ) : Option Char :=
  if least ≤ value ∧ value.isValidChar then some (Char.ofNat value) else none

def decode : Bytes → Option Str
  | [] => some []
  | a :: rest =>
      if a < 0x80 then do return (← character 0 a.toNat) :: (← decode rest)
      else match rest with
        | [] => none
        | b :: rest =>
            if ¬ continues b then none
            else if a &&& 0xe0 = 0xc0 then do
              return (← character 0x80 (a.toNat % 32 * 64 + b.toNat % 64)) :: (← decode rest)
            else match rest with
              | [] => none
              | c :: rest =>
                  if ¬ continues c then none
                  else if a &&& 0xf0 = 0xe0 then do
                    return (← character 0x800 ((a.toNat % 16 * 64 + b.toNat % 64) * 64 + c.toNat % 64)) ::
                      (← decode rest)
                  else match rest with
                    | [] => none
                    | d :: rest =>
                        if continues d ∧ a &&& 0xf8 = 0xf0 then do
                          return (← character 0x10000
                            (((a.toNat % 8 * 64 + b.toNat % 64) * 64 + c.toNat % 64) * 64 + d.toNat % 64)) ::
                              (← decode rest)
                        else none

def MAGIC : Bytes := [0xd0, 0x0d, 0xfe, 0xed]

/-- `'/'.join(path) or '/'` -/
def nodePath (path : List Str) : Str :=
  let n := ['/'].intercalate path
  if n = [] then ['/'] else n

structure Walk where
  nodes : Tree
  path : List Str
  i : ℕ

/-- One token: where the loop goes on, or the nodes at its end. -/
def token (b strings : Bytes) (w : Walk) : Option (Walk ⊕ Tree) := do
  let tok ← word b w.i
  let i := w.i + 4
  if tok = 1 then do
    let stop ← indexZero b i
    let name ← decode (slice b i stop)
    let path := w.path ++ [name]
    let n := nodePath path
    return .inl ⟨if n ∈ w.nodes then w.nodes else setItem w.nodes n ∅, path, (stop + 4) / 4 * 4⟩
  else if tok = 2 then
    if w.path = [] then none else return .inl ⟨w.nodes, w.path.dropLast, i⟩
  else if tok = 3 then do
    let ln ← word b i
    let nameoff ← word b (i + 4)
    let i := i + 8
    let name ← decode (slice strings nameoff (← indexZero strings nameoff))
    let props ← w.nodes.lookup (nodePath w.path)
    return .inl
      ⟨setItem w.nodes (nodePath w.path) (setItem props name (slice b i (i + ln))), w.path, (i + ln + 3) / 4 * 4⟩
  else if tok = 9 then return .inr w.nodes
  else return .inl { w with i }

/-- The loop, of at most so many tokens. -/
def walk (b strings : Bytes) : ℕ → Walk → Option Tree
  | 0, _ => none
  | fuel + 1, w => do
      match ← token b strings w with
      | .inl w => walk b strings fuel w
      | .inr nodes => return nodes

/-- The blob behind the last magic number. Without one the slices are too short to be unpacked. -/
def appended (b : Bytes) : Option Bytes := do
  let i ← rfind b MAGIC
  return slice b i (i + (← word b (i + 4)))

/-- The contents of a file, and `none` where it cannot be opened. -/
def load (read : Str → Option Bytes) (path : Str) : Option Tree := do
  let b ← read path
  let b ← if b.take 4 ≠ MAGIC then appended b else some b
  let offStruct ← word b 8
  let offStrings ← word b 12
  let szStrings ← word b 32
  walk b (slice b offStrings (offStrings + szStrings)) (b.length + 1) ⟨∅, [], offStruct⟩

section
variable {b strings : Bytes} {w w' : Walk}

theorem lt_of_word {i x : ℕ} (h : word b i = some x) : i < b.length := by
  by_contra hout
  rw [word, slice, List.drop_of_length_le (not_lt.mp hout), List.take_nil] at h
  cases h

theorem le_of_indexZero {i j : ℕ} (h : indexZero b i = some j) : i ≤ j := by
  obtain ⟨k, -, rfl⟩ := Option.map_eq_some_iff.mp h
  exact Nat.le_add_right i k

/-- A token that is not the last one lies behind the one before. -/
theorem token_advances (h : token b strings w = some (.inl w')) : w.i < w'.i ∧ w.i < b.length := by
  obtain ⟨tok, htok, h⟩ := Option.bind_eq_some_iff.mp h
  refine ⟨?_, lt_of_word htok⟩
  dsimp only at h
  split_ifs at h
  · obtain ⟨stop, hstop, h⟩ := Option.bind_eq_some_iff.mp h
    obtain ⟨name, -, h⟩ := Option.bind_eq_some_iff.mp h
    cases h
    have hle := le_of_indexZero hstop
    dsimp only
    omega
  · cases h
    exact Nat.lt_add_of_pos_right (by decide)
  · obtain ⟨ln, -, h⟩ := Option.bind_eq_some_iff.mp h
    obtain ⟨nameoff, -, h⟩ := Option.bind_eq_some_iff.mp h
    obtain ⟨stop, -, h⟩ := Option.bind_eq_some_iff.mp h
    obtain ⟨name, -, h⟩ := Option.bind_eq_some_iff.mp h
    obtain ⟨props, -, h⟩ := Option.bind_eq_some_iff.mp h
    cases h
    dsimp only
    omega
  · cases h
  · cases h
    exact Nat.lt_add_of_pos_right (by decide)

theorem walk_fuel {fuel fuel' : ℕ} (h : b.length - w.i < fuel) (h' : b.length - w.i < fuel') :
    walk b strings fuel w = walk b strings fuel' w := by
  induction fuel generalizing fuel' w with
  | zero => exact absurd h (Nat.not_lt_zero _)
  | succ fuel ih =>
      obtain ⟨fuel', rfl⟩ := Nat.exists_eq_succ_of_ne_zero (Nat.ne_of_gt (Nat.lt_of_le_of_lt (Nat.zero_le _) h'))
      rw [walk, walk]
      refine Option.bind_congr fun r hr => ?_
      cases r with
      | inr nodes => rfl
      | inl w' =>
          obtain ⟨hnext, hin⟩ := token_advances hr
          exact ih (by omega) (by omega)

end
end Sirius.DtEquiv
