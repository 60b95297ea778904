import Mathlib.Data.List.Basic
import Mathlib.Data.List.Infix
import Mathlib.Data.List.TakeDrop
import Mathlib.Data.List.TakeWhile
import Mathlib.Data.Int.Order.Basic
import Mathlib.Algebra.Group.Int.Defs
import Mathlib.Algebra.Group.Nat.Defs

/-!
# Scanning integers and strings

`strstr` and the integer conversions of `sscanf` as the kernel has them: white space is skipped, the base is read off
the prefix, the digits are taken as far as they go, and the value is of 64 bits. A literal is a text that the
conversion reads to its end.
-/
namespace Scan

/-- `strstr`: what begins with the first occurrence. -/
def strstr (needle : List Char) : List Char → Option (List Char)
  | [] => if needle.isPrefixOf [] then some [] else none
  | c :: s => if needle.isPrefixOf (c :: s) then some (c :: s) else strstr needle s

section
variable {needle s t : List Char}

theorem strstr_cons_of_prefix {c : Char} (h : needle <+: c :: s) : strstr needle (c :: s) = some (c :: s) :=
  if_pos (List.isPrefixOf_iff_prefix.mpr h)

theorem strstr_cons_of_not_isPrefixOf {c : Char} (h : ¬needle <+: c :: s) : strstr needle (c :: s) = strstr needle s :=
  if_neg fun hp => h (List.isPrefixOf_iff_prefix.mp hp)

/-- An occurrence in a front part is found there. -/
theorem strstr_append_of_infix (h : needle <:+: s) (hneedle : needle ≠ []) (r : List Char) :
    ∃ t, strstr needle (s ++ r) = some t ∧ r.length < t.length := by
  induction s with
  | nil => exact absurd (List.infix_nil.mp h) hneedle
  | cons c s ih =>
      rw [List.cons_append]
      by_cases hprefix : needle <+: c :: (s ++ r)
      · refine ⟨_, strstr_cons_of_prefix hprefix, ?_⟩
        rw [List.length_cons, List.length_append]
        omega
      · rw [strstr_cons_of_not_isPrefixOf hprefix]
        rcases List.infix_cons_iff.mp h with hfront | hlater
        · exact absurd (hfront.trans (List.prefix_append (c :: s) r)) hprefix
        · exact ih hlater

theorem not_infix_of_strstr_eq_none (h : strstr needle s = none) (hneedle : needle ≠ []) : ¬needle <:+: s := by
  intro hinfix
  obtain ⟨t, ht, -⟩ := strstr_append_of_infix hinfix hneedle []
  rw [List.append_nil] at ht
  cases h.symm.trans ht

end

section
variable {sep : Char} {s : List Char}

theorem splitOn_eq_takeWhile_cons (sep : Char) (s : List Char) :
    ∃ rest, s.splitOn sep = s.takeWhile (· ≠ sep) :: rest ∧ ∀ p ∈ rest, p <:+: s := by
  induction s with
  | nil => exact ⟨[], rfl, fun p hp => absurd hp List.not_mem_nil⟩
  | cons c s ih =>
      obtain ⟨rest, hsplit, hrest⟩ := ih
      rw [List.splitOn_cons_eq_if_modifyHead, hsplit]
      by_cases hc : c = sep
      · have hsep : (c == sep) = true := beq_iff_eq.mpr hc
        have htake : (c :: s).takeWhile (· ≠ sep) = [] := List.takeWhile_cons_of_neg (by simp [hc])
        rw [if_pos hsep, htake]
        refine ⟨_, rfl, fun p hp => ?_⟩
        rcases List.mem_cons.mp hp with rfl | hp
        · exact (List.takeWhile_prefix _).isInfix.trans (List.suffix_cons c s).isInfix
        · exact (hrest p hp).trans (List.suffix_cons c s).isInfix
      · have hsep : ¬(c == sep) = true := fun h => hc (beq_iff_eq.mp h)
        have htake : (c :: s).takeWhile (· ≠ sep) = c :: s.takeWhile (· ≠ sep) :=
          List.takeWhile_cons_of_pos (by simp [hc])
        rw [if_neg hsep, htake]
        exact ⟨rest, rfl, fun p hp => (hrest p hp).trans (List.suffix_cons c s).isInfix⟩

theorem infix_of_mem_splitOn {p : List Char} (hp : p ∈ s.splitOn sep) : p <:+: s := by
  obtain ⟨rest, hsplit, hrest⟩ := splitOn_eq_takeWhile_cons sep s
  rw [hsplit] at hp
  rcases List.mem_cons.mp hp with rfl | hp
  · exact (List.takeWhile_prefix _).isInfix
  · exact hrest p hp

end

def isSpace (c : Char) : Bool :=
  c = ' ' || c = '\t' || c = '\n' || c = '\x0b' || c = '\x0c' || c = '\r' || c = '\xa0'

def digitVal (c : Char) : Option ℕ :=
  if '0' ≤ c ∧ c ≤ '9' then some (c.toNat - '0'.toNat)
  else if 'a' ≤ c ∧ c ≤ 'f' then some (c.toNat - 'a'.toNat + 10)
  else if 'A' ≤ c ∧ c ≤ 'F' then some (c.toNat - 'A'.toNat + 10)
  else none

def isDigitOf (base : ℕ) (c : Char) : Bool :=
  match digitVal c with
  | some v => v < base
  | none => false

def valueOf (base : ℕ) (ds : List Char) : ℕ := ds.foldl (fun v c => v * base + (digitVal c).getD 0) 0

/-- `_parse_integer` -/
def parseInteger (base : ℕ) (s : List Char) : ℕ := valueOf base (s.takeWhile (isDigitOf base))

/-- `0x` and a hexadecimal digit. -/
def startsHex : List Char → Bool
  | z :: x :: d :: _ => z = '0' && (x = 'x' || x = 'X') && isDigitOf 16 d
  | _ => false

/-- The base `_parse_integer_fixup_radix` finds where it is asked for base 0. -/
def detectBase (s : List Char) : ℕ :=
  if startsHex s then 16 else if s.head? = some '0' then 8 else 10

/-- Without the prefix that hexadecimal numbers may have. -/
def dropRadix (base : ℕ) (s : List Char) : List Char :=
  match s with
  | z :: x :: rest => if base = 16 ∧ z = '0' ∧ (x = 'x' ∨ x = 'X') then rest else s
  | _ => s

/-- `simple_strntoull`; without a width all characters count. -/
def simpleStrntoull (base : ℕ) (width : Option ℕ) (s : List Char) : ℕ :=
  let base := if base = 0 then detectBase s else base
  let rest := dropRadix base s
  let prefixChars := s.length - rest.length
  let digits :=
    match width with
    | none => rest
    | some w => if prefixChars < w then rest.take (w - prefixChars) else []
  parseInteger base digits % 2 ^ 64

/-- `simple_strntoll` -/
def simpleStrntoll (base : ℕ) (width : Option ℕ) (s : List Char) : ℤ :=
  match s with
  | '-' :: rest => if width = some 0 then 0 else -(simpleStrntoull base (width.map (· - 1)) rest : ℤ)
  | s => simpleStrntoull base width s

/-- The character that an integer conversion tests first. -/
def firstDigit (signed : Bool) (s : List Char) : Option Char :=
  match s with
  | '-' :: rest => if signed then rest.head? else some '-'
  | s => s.head?

/-- An integer conversion of `vsscanf`; base 0 is that of `%i`. -/
def scanInteger (base : ℕ) (signed : Bool) (width : Option ℕ) (s : List Char) : Option ℤ :=
  let s := s.dropWhile isSpace
  match firstDigit signed s with
  | none => none
  | some digit =>
      if signed ∧ s.head? = some '-' ∧ width = some 1 then none
      else if isDigitOf (if base = 0 then 10 else base) digit = false then none
      else if signed then some (simpleStrntoll base width s)
      else some (simpleStrntoull base width s)

def natLiteral (s : List Char) : Option ℕ :=
  let base := detectBase s
  let ds := dropRadix base s
  if ds ≠ [] ∧ ds.all (isDigitOf base) then some (valueOf base ds) else none

def intLiteral : List Char → Option ℤ
  | '-' :: s => (natLiteral s).map fun n : ℕ => -(n : ℤ)
  | s => (natLiteral s).map fun n : ℕ => (n : ℤ)

/-- What comes here continues no number. -/
def EndsNumber (r : List Char) : Prop := ∀ c ∈ r.head?, digitVal c = none ∧ c ≠ 'x' ∧ c ≠ 'X'

section
variable {w r : List Char} {n : ℕ}

theorem isDigitOf_eq_false {base : ℕ} {c : Char} (h : digitVal c = none) : isDigitOf base c = false := by
  rw [isDigitOf, h]

theorem startsHex_append (hw : w ≠ []) (hr : EndsNumber r) : startsHex (w ++ r) = startsHex w := by
  match w, r with
  | w, [] => rw [List.append_nil]
  | [a], c :: r =>
      obtain ⟨-, hx, hX⟩ := hr c rfl
      match r with
      | [] => rfl
      | d :: r => simp [startsHex, hx, hX]
  | [a, b], c :: r =>
      obtain ⟨hc, -, -⟩ := hr c rfl
      simp [startsHex, isDigitOf_eq_false hc]
  | a :: b :: d :: w, c :: r => simp [startsHex]

theorem detectBase_append (hw : w ≠ []) (hr : EndsNumber r) : detectBase (w ++ r) = detectBase w := by
  obtain ⟨c, w, rfl⟩ := List.exists_cons_of_ne_nil hw
  have hhex := startsHex_append hw hr
  rw [detectBase, detectBase, hhex, List.cons_append, List.head?_cons, List.head?_cons]

theorem dropRadix_append (base : ℕ) (hw : w ≠ []) (hr : EndsNumber r) :
    dropRadix base (w ++ r) = dropRadix base w ++ r := by
  match w, r with
  | w, [] => simp only [List.append_nil]
  | [a], c :: r =>
      obtain ⟨-, hx, hX⟩ := hr c rfl
      simp [dropRadix, hx, hX]
  | a :: b :: w, c :: r =>
      simp only [dropRadix, List.cons_append]
      split <;> rfl

theorem takeWhile_digits_append {base : ℕ} (hw : w.all (isDigitOf base)) (hr : EndsNumber r) :
    (w ++ r).takeWhile (isDigitOf base) = w := by
  rw [List.takeWhile_append_of_pos (List.all_eq_true.mp hw)]
  match r with
  | [] => rw [List.takeWhile_nil, List.append_nil]
  | c :: r => rw [List.takeWhile_cons_of_neg (by simp [isDigitOf_eq_false (hr c rfl).1]), List.append_nil]

theorem dropRadix_ten (s : List Char) : dropRadix 10 s = s := by
  unfold dropRadix
  split
  · rw [if_neg fun h => absurd h.1 (by decide)]
  · rfl

/-- A literal begins with a digit. -/
theorem natLiteral_head (h : natLiteral w = some n) : ∃ c v, w = c :: v ∧ isDigitOf 10 c = true := by
  match w with
  | [] => cases h
  | c :: v =>
      refine ⟨c, v, rfl, ?_⟩
      by_cases hc : c = '0'
      · rw [hc]
        decide
      · have hhex : startsHex (c :: v) = false := by
          match v with
          | [] => rfl
          | [x] => rfl
          | x :: d :: v => simp [startsHex, hc]
        have hbase : detectBase (c :: v) = 10 := by simp [detectBase, hhex, hc]
        rw [natLiteral, hbase, dropRadix_ten] at h
        have hall : (c :: v).all (isDigitOf 10) := (Option.ite_none_right_eq_some.mp h).1.2
        exact (Bool.and_eq_true_iff.mp hall).1

theorem simpleStrntoull_literal (h : natLiteral w = some n) (hr : EndsNumber r) :
    simpleStrntoull 0 none (w ++ r) = n % 2 ^ 64 := by
  obtain ⟨c, v, hcons, -⟩ := natLiteral_head h
  have hw : w ≠ [] := hcons ▸ List.cons_ne_nil c v
  obtain ⟨⟨-, hall⟩, hvalue⟩ := Option.ite_none_right_eq_some.mp h
  rw [Option.some.injEq] at hvalue
  simp only [simpleStrntoull, if_true, detectBase_append hw hr, dropRadix_append _ hw hr, parseInteger,
    takeWhile_digits_append hall hr, hvalue]

theorem isSpace_of_digit {base : ℕ} {c : Char} (h : isDigitOf base c = true) : isSpace c = false := by
  by_contra hspace
  have hcases : c = ' ' ∨ c = '\t' ∨ c = '\n' ∨ c = '\x0b' ∨ c = '\x0c' ∨ c = '\r' ∨ c = '\xa0' := by
    simpa [isSpace, or_assoc, -not_or, or_iff_not_imp_left] using hspace
  have hnone : digitVal c = none := by
    rcases hcases with rfl | rfl | rfl | rfl | rfl | rfl | rfl <;> rfl
  rw [isDigitOf_eq_false hnone] at h
  cases h

/-- The conversion `%i` reads a literal to its end, in 64 bits. -/
theorem scan_literal {z : ℤ} (h : intLiteral w = some z) (hr : EndsNumber r) :
    ∃ m, scanInteger 0 true none (w ++ r) = some m ∧ (2 ^ 64 : ℤ) ∣ m - z := by
  unfold intLiteral at h
  split at h
  · rename_i v
    obtain ⟨n, hn, rfl⟩ := Option.map_eq_some_iff.mp h
    obtain ⟨c, u, rfl, hc⟩ := natLiteral_head hn
    refine ⟨-((n % 2 ^ 64 : ℕ) : ℤ), ?_, ?_⟩
    · have hvalue := simpleStrntoull_literal hn hr
      rw [List.cons_append] at hvalue
      have hspace : isSpace '-' = false := rfl
      simp [scanInteger, hspace, firstDigit, hc, simpleStrntoll, hvalue]
    · omega
  · rename_i hminus
    obtain ⟨n, hn, rfl⟩ := Option.map_eq_some_iff.mp h
    obtain ⟨c, u, rfl, hc⟩ := natLiteral_head hn
    have hsign : c ≠ '-' := by
      rintro rfl
      exact hminus u rfl
    refine ⟨((n % 2 ^ 64 : ℕ) : ℤ), ?_, ?_⟩
    · have hvalue := simpleStrntoull_literal hn hr
      rw [List.cons_append] at hvalue
      simp [scanInteger, isSpace_of_digit hc, firstDigit, hc, hsign, simpleStrntoll, hvalue]
    · omega

theorem takeWhile_digits {base : ℕ} (h : w.all (isDigitOf base)) : w.takeWhile (isDigitOf base) = w :=
  List.takeWhile_eq_self_iff.mpr (List.all_eq_true.mp h)

theorem dropRadix_digits (h : w.all (isDigitOf 16)) : dropRadix 16 w = w := by
  match w with
  | [] => rfl
  | [_] => rfl
  | z :: x :: rest =>
      have hx : isDigitOf 16 x = true := List.all_eq_true.mp h x (List.mem_cons_of_mem z List.mem_cons_self)
      refine if_neg fun hradix => ?_
      rcases hradix.2.2 with rfl | rfl
      · exact absurd hx (by decide)
      · exact absurd hx (by decide)

/-- `%x` with a width reads as many hexadecimal digits to their end. -/
theorem scan_hex (hw : w ≠ []) (h : w.all (isDigitOf 16)) :
    scanInteger 16 false (some w.length) w = some ((valueOf 16 w % 2 ^ 64 : ℕ) : ℤ) := by
  obtain ⟨c, v, rfl⟩ := List.exists_cons_of_ne_nil hw
  have hc : isDigitOf 16 c = true := List.all_eq_true.mp h c List.mem_cons_self
  have hspace : (c :: v).dropWhile isSpace = c :: v :=
    List.dropWhile_cons_of_neg (by rw [isSpace_of_digit hc]; decide)
  have hfirst : firstDigit false (c :: v) = some c := by
    unfold firstDigit
    split
    · rename_i heq
      rw [(List.cons.inj heq).1]
      rfl
    · rfl
  have hvalue : simpleStrntoull 16 (some (c :: v).length) (c :: v) = valueOf 16 (c :: v) % 2 ^ 64 := by
    have hsome : 0 < (c :: v).length := Nat.succ_pos _
    simp only [simpleStrntoull, if_neg (by decide : ¬16 = 0), dropRadix_digits h, Nat.sub_self, Nat.sub_zero,
      List.take_length, parseInteger]
    rw [if_pos hsome, takeWhile_digits h]
  simp only [scanInteger, hspace, hfirst, if_neg (by decide : ¬16 = 0), hc, hvalue]
  rfl

end

end Scan
