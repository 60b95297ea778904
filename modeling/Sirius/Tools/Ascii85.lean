import Mathlib.Tactic.Ring
import Sirius.Tools.Pm4

/-!
# The contents of buffers, `a85` and `read` of tools/ib-at-hang.py

A dump holds the words of a buffer in base 85, without the zeros at its end.
-/
namespace Sirius.Pm4
open PyText

/-- `re.sub(r'\s', '', txt)` -/
def strip (u : Unicode) (txt : Str) : Str := txt.filter fun c => !isSpace u c

/-- `for ch in digits: v = v * 85 + ord(ch) - 33` -/
def value (digits : Str) : ℤ := digits.foldl (fun v ch => v * 85 + ch.toNat - 33) 0

def a85From : (fuel : ℕ) → Str → List ℕ
  | _, [] => []
  | 0, _ => []
  | fuel + 1, c :: txt =>
      if c = 'z' then 0 :: a85From fuel txt
      else (value ((c :: txt).take 5) % 2 ^ 32).toNat :: a85From fuel ((c :: txt).drop 5)

def a85 (u : Unicode) (txt : Str) : List ℕ := a85From (strip u txt).length (strip u txt)

def digit85 (d : ℕ) : Char := Char.ofNat (d + 33)

/-- Five digits, the highest first; a zero word is one letter. -/
def ascii85Encode (w : ℕ) : Str :=
  if w = 0 then ['z']
  else [digit85 (w / 85 ^ 4 % 85), digit85 (w / 85 ^ 3 % 85), digit85 (w / 85 ^ 2 % 85), digit85 (w / 85 % 85),
    digit85 (w % 85)]

theorem toNat_digit85 {d : ℕ} (h : d < 85) : (digit85 d).toNat = d + 33 := by
  have hvalid : (d + 33).isValidChar := .inl (by omega)
  rw [digit85, Char.ofNat, dif_pos hvalid]
  rfl

theorem digit85_ne_z {d : ℕ} (h : d < 85) : digit85 d ≠ 'z' := by
  intro hz
  have hnat := toNat_digit85 h
  rw [hz] at hnat
  have : 'z'.toNat = 122 := rfl
  omega

theorem value_encode {w : ℕ} (hw : w < 2 ^ 32) :
    value [digit85 (w / 85 ^ 4 % 85), digit85 (w / 85 ^ 3 % 85), digit85 (w / 85 ^ 2 % 85), digit85 (w / 85 % 85),
      digit85 (w % 85)] = w := by
  simp only [value, List.foldl_cons, List.foldl_nil, toNat_digit85 (Nat.mod_lt _ (Nat.succ_pos 84))]
  push_cast
  omega

theorem a85From_encode {w : ℕ} (hw : w < 2 ^ 32) (fuel : ℕ) (txt : Str) :
    a85From (fuel + 1) (ascii85Encode w ++ txt) = w :: a85From fuel txt := by
  by_cases hzero : w = 0
  · rw [hzero]
    rfl
  · rw [ascii85Encode, if_neg hzero]
    have hval := value_encode hw
    have hmod : ((w : ℤ) % 2 ^ 32).toNat = w := by omega
    exact (if_neg (digit85_ne_z (Nat.mod_lt _ (Nat.succ_pos 84)))).trans
      (congrArg (· :: a85From fuel txt) ((congrArg (fun v : ℤ => (v % 2 ^ 32).toNat) hval).trans hmod))

theorem length_encode_pos (w : ℕ) : 0 < (ascii85Encode w).length := by
  unfold ascii85Encode
  split <;> exact Nat.succ_pos _

theorem a85From_words {words : List ℕ} (hw : ∀ w ∈ words, w < 2 ^ 32) {fuel : ℕ}
    (hfuel : (words.flatMap ascii85Encode).length ≤ fuel) : a85From fuel (words.flatMap ascii85Encode) = words := by
  induction words generalizing fuel with
  | nil => cases fuel <;> rfl
  | cons w words ih =>
      rw [List.flatMap_cons, List.length_append] at hfuel
      have hpos := length_encode_pos w
      obtain ⟨fuel, rfl⟩ : ∃ n, fuel = n + 1 := ⟨fuel - 1, by omega⟩
      rw [List.flatMap_cons, a85From_encode (hw w List.mem_cons_self),
        ih (fun v hv => hw v (List.mem_cons_of_mem w hv)) (by omega)]

/-- However a dump breaks its lines, the words come back. -/
theorem a85_eq {u : Unicode} {txt : Str} {words : List ℕ} (hw : ∀ w ∈ words, w < 2 ^ 32)
    (htxt : strip u txt = words.flatMap ascii85Encode) : a85 u txt = words := by
  rw [a85, htxt]
  exact a85From_words hw (Nat.le_refl _)

/-- Of a buffer that was dumped without its zeros at the end the words are read as they were, wherever the reading
starts and ends inside it. -/
theorem read_dumped {u : Unicode} {bos : List Bo} {addr n : ℕ} {b : Bo} {txt : Str} {words : List ℕ}
    (zeros : ℕ) (hb : boOf bos addr = some b) (hdata : b.data = some (a85 u txt))
    (htxt : strip u txt = words.flatMap ascii85Encode) (hw : ∀ w ∈ words, w < 2 ^ 32)
    (hn : (addr - b.iova) / 4 + n ≤ words.length + zeros) :
    read bos addr n = some (((words ++ List.replicate zeros 0).drop ((addr - b.iova) / 4)).take n) := by
  rw [read, hb, Option.bind_eq_bind, Option.bind_some, hdata, Option.bind_eq_bind, Option.bind_some, a85_eq hw htxt]
  refine congrArg some (List.ext_getElem? fun i => ?_)
  simp only [List.getElem?_append, List.getElem?_take, List.getElem?_drop, List.length_take, List.length_drop,
    List.getElem?_replicate]
  grind

/-- Two words and their zeros, read from the second word on. -/
theorem read_dumped_two :
    read [⟨0x1000, 16, some (a85 ascii (ascii85Encode 7 ++ ['\n', ' '] ++ ascii85Encode 0x70000002))⟩] 0x1004 3 =
      some ((([7, 0x70000002] ++ List.replicate 2 0).drop ((0x1004 - 0x1000) / 4)).take 3) :=
  read_dumped (b := ⟨0x1000, 16, _⟩) 2 rfl rfl (by decide) (by decide) (by decide)

end Sirius.Pm4
