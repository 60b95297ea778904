import Mathlib.Data.Int.Order.Basic

/-!
# Texts as Python reads them

A regular expression that never has to go back is a function from a text to what it read and the rest of the text.
Which characters beyond ASCII are spaces, digits or letters of a word is left open.
-/
namespace PyText

abbrev Str := List Char

/-- The character classes beyond ASCII. -/
structure Unicode where
  space : Char → Bool
  word : Char → Bool
  digit : Char → Option (Fin 10)

section
variable (u : Unicode)

def isSpace (c : Char) : Bool :=
  if c.toNat < 0x80 then (0x09 ≤ c.toNat && c.toNat ≤ 0x0d) || (0x1c ≤ c.toNat && c.toNat ≤ 0x20) else u.space c

def isWord (c : Char) : Bool := if c.toNat < 0x80 then c.isAlphanum || c = '_' else u.word c

/-- `\d` with the value of the digit. -/
def digit (c : Char) : Option ℕ :=
  if c.toNat < 0x80 then if c.isDigit then some (c.toNat - '0'.toNat) else none else (u.digit c).map Fin.val

def split (s : Str) : List Str := (s.splitOnP (isSpace u)).filter (· ≠ [])

end

/-- Nothing but ASCII. -/
def ascii : Unicode where
  space := fun _ => false
  word := fun _ => false
  digit := fun _ => none

def lit (v s : Str) : Option Str := if v.isPrefixOf s then some (s.drop v.length) else none

/-- The longest start of a text in a class, of at least one character. -/
def many1 (p : Char → Bool) (s : Str) : Option (Str × Str) :=
  if s.takeWhile p = [] then none else some (s.takeWhile p, s.dropWhile p)

variable {α : Type*}

/-- `re.search`: the first match. -/
def search (m : Str → Option α) : Str → Option α
  | [] => m []
  | c :: s => (m (c :: s)).orElse fun _ => search m s

/-- `re.finditer` of an expression that reads something; of the last match `skip` characters are still ahead. -/
def finditer (m : Str → Option (α × Str)) : (skip : ℕ) → Str → List α
  | _, [] => []
  | skip + 1, _ :: s => finditer m skip s
  | 0, c :: s =>
      match m (c :: s) with
      | some (a, rest) => a :: finditer m (s.length - rest.length) s
      | none => finditer m 0 s

/-- The lines of a text, with their newlines. -/
def linesFrom (line : Str) : Str → List Str
  | [] => if line = [] then [] else [line.reverse]
  | '\n' :: s => ('\n' :: line).reverse :: linesFrom [] s
  | c :: s => linesFrom (c :: line) s

def lines : Str → List Str := linesFrom []

theorem linesFrom_cons {c : Char} (hc : c ≠ '\n') (line s : Str) :
    linesFrom line (c :: s) = linesFrom (c :: line) s := by
  rw [linesFrom]
  exact hc

theorem linesFrom_line {l : Str} (h : '\n' ∉ l) (line s : Str) :
    linesFrom line (l ++ '\n' :: s) = (line.reverse ++ l ++ ['\n']) :: lines s := by
  induction l generalizing line with
  | nil => rw [List.nil_append, linesFrom, List.reverse_cons, List.append_nil, lines]
  | cons c l ih =>
      obtain ⟨hc, hl⟩ := not_or.mp (List.mem_cons.not.mp h)
      rw [List.cons_append, linesFrom_cons (Ne.symm hc), ih hl, List.reverse_cons, List.append_assoc line.reverse,
        List.singleton_append]

/-- A text put together of lines has these lines. -/
theorem lines_flatMap {ls : List Str} (h : ∀ l ∈ ls, '\n' ∉ l) :
    lines (ls.flatMap (· ++ ['\n'])) = ls.map (· ++ ['\n']) := by
  induction ls with
  | nil => rfl
  | cons l ls ih =>
      obtain ⟨hl, hls⟩ := List.forall_mem_cons.mp h
      rw [List.flatMap_cons, List.append_assoc, List.singleton_append, lines, linesFrom_line hl, ih hls,
        List.reverse_nil, List.nil_append, List.map_cons]

theorem not_of_mem_splitOnP {p : Char → Bool} {s w : Str} (h : w ∈ s.splitOnP p) : ∀ c ∈ w, p c = false := by
  induction s generalizing w with
  | nil =>
      rw [List.splitOnP_nil, List.mem_singleton] at h
      rw [h]
      exact fun c hc => absurd hc List.not_mem_nil
  | cons d s ih =>
      rw [List.splitOnP_cons_eq_if_modifyHead] at h
      split at h
      · rcases List.mem_cons.mp h with rfl | hw
        · exact fun c hc => absurd hc List.not_mem_nil
        · exact ih hw
      · rename_i hd
        obtain ⟨v, vs, hvs⟩ := List.exists_cons_of_ne_nil (List.splitOnP_ne_nil p s)
        rw [hvs] at h ih
        rcases List.mem_cons.mp h with rfl | hw
        · exact List.forall_mem_cons.mpr ⟨(Bool.not_eq_true _).mp hd, ih List.mem_cons_self⟩
        · exact ih (List.mem_cons_of_mem v hw)

theorem mem_split {u : Unicode} {s w : Str} (h : w ∈ split u s) : w ≠ [] ∧ ∀ c ∈ w, isSpace u c = false := by
  obtain ⟨hw, hne⟩ := List.mem_filter.mp h
  exact ⟨of_decide_eq_true hne, not_of_mem_splitOnP hw⟩

theorem all_many1 {p : Char → Bool} {s w rest : Str} (h : many1 p s = some (w, rest)) : ∀ c ∈ w, p c = true := by
  unfold many1 at h
  split at h
  · cases h
  · cases h
    exact List.all_eq_true.mp List.all_takeWhile

theorem exists_of_mem_finditer {m : Str → Option (α × Str)} {k : ℕ} {s : Str} {a : α} (h : a ∈ finditer m k s) :
    ∃ s rest, m s = some (a, rest) := by
  induction s generalizing k with
  | nil => cases k <;> cases h
  | cons c s ih =>
      cases k with
      | succ k => exact ih h
      | zero =>
          rw [finditer] at h
          split at h
          · rename_i hmatch
            rcases List.mem_cons.mp h with rfl | hmem
            · exact ⟨_, _, hmatch⟩
            · exact ih hmem
          · exact ih h

end PyText
