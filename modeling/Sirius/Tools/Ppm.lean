import Mathlib.Data.Int.Order.Basic
import Sirius.Lib.Loops
import Sirius.Tools.DtLoad

/-!
# Screenshots, `read_ppm` of tools/compare-frames.py

Three numbers stand behind the magic number of a plain PPM, with spaces and comments before them. The pixels begin one
byte behind the last of them.
-/
namespace Sirius.CompareFrames

open DtEquiv (Str Bytes)
open Loops

inductive Failure
  | systemExit (message : Str)
  | valueError
  | indexError
  | zeroDivisionError
  deriving DecidableEq, Repr

def isSpace (c : BitVec 8) : Bool := c = 0x20 || (0x09 ≤ c && c ≤ 0x0d)

def isDigit (c : BitVec 8) : Bool := 0x30 ≤ c && c ≤ 0x39

/-- Digits, with single underscores between them; `after` says whether the last character was a digit. -/
def digitsFrom (after : Bool) (value : ℕ) : Bytes → Option ℕ
  | [] => if after then some value else none
  | c :: s =>
      if isDigit c then digitsFrom true (10 * value + (c.toNat - 0x30)) s
      else if c = 0x5f ∧ after then digitsFrom false value s
      else none

/-- The digits that `int` takes at most. -/
def MAX_STR_DIGITS : ℕ := 4300

/-- `int(s)` of bytes without spaces. -/
def int (s : Bytes) : Option ℤ :=
  if (s.filter isDigit).length > MAX_STR_DIGITS then none
  else match s with
    | [] => none
    | c :: rest =>
        if c = 0x2d then (digitsFrom false 0 rest).map fun n : ℕ => -(n : ℤ)
        else if c = 0x2b then (digitsFrom false 0 rest).map fun n : ℕ => (n : ℤ)
        else (digitsFrom false 0 s).map fun n : ℕ => (n : ℤ)

/-- An index of a slice, counted from the end where it is negative. -/
def clip (n : ℕ) (i : ℤ) : ℕ := if i < 0 then (i + n).toNat else min i.toNat n

/-- `data[i:j]` -/
def slice (data : Bytes) (i j : ℤ) : Bytes :=
  (data.drop (clip data.length i)).take (clip data.length j - clip data.length i)

/-- The two loops before a number; a newline ends a comment, and is itself a space. -/
def skipGap (comment : Bool) : Bytes → Bytes
  | [] => []
  | c :: s =>
      if comment then skipGap (c ≠ 0x0a) s
      else if isSpace c then skipGap false s
      else if c = 0x23 then skipGap true s
      else c :: s

/-- A number, and what stands behind it. -/
def readField (s : Bytes) : Except Failure (ℤ × Bytes) :=
  match int ((skipGap false s).takeWhile (!isSpace ·)) with
  | none => .error .valueError
  | some v => .ok (v, (skipGap false s).dropWhile (!isSpace ·))

def P6 : Bytes := [0x50, 0x36]

def readPpm (path : Str) (data : Bytes) : Except Failure (ℤ × ℤ × Bytes) :=
  if ¬P6.isPrefixOf data then .error (.systemExit (path ++ " is not a binary PPM; use grim -t ppm".toList))
  else do
    let (width, s) ← readField (data.drop 2)
    let (height, s) ← readField s
    let (maxval, s) ← readField s
    let pos : ℤ := data.length - s.length
    if maxval ≠ 255 then .error (.systemExit (path ++ ": only 8 bit PPM is supported".toList))
    else .ok (width, height, slice data (pos + 1) (pos + 1 + width * height * 3))

/-- Spaces and comments, each comment with its newline. -/
inductive Gap : Bytes → Prop
  | nil : Gap []
  | space {c : BitVec 8} {s : Bytes} (hc : isSpace c = true) (hs : Gap s) : Gap (c :: s)
  | comment {text s : Bytes} (htext : (0x0a : BitVec 8) ∉ text) (hs : Gap s) : Gap (0x23 :: text ++ 0x0a :: s)

/-- A gap that ends the number before it. -/
def Break (g : Bytes) : Prop := ∃ c s, isSpace c = true ∧ Gap s ∧ g = c :: s

def Ends (s : Bytes) : Prop := ∀ c ∈ s.head?, isSpace c = true

/-- The magic number, and a width, a height and the 255 behind gaps. -/
def Header (header : Bytes) (width height : ℤ) : Prop :=
  ∃ g₀ t₀ g₁ t₁ g₂ t₂, header = P6 ++ g₀ ++ t₀ ++ g₁ ++ t₁ ++ g₂ ++ t₂ ∧ Gap g₀ ∧ Break g₁ ∧ Break g₂ ∧
    int t₀ = some width ∧ int t₁ = some height ∧ int t₂ = some 255

section
variable {s g : Bytes}

theorem skipGap_comment {text : Bytes} (htext : (0x0a : BitVec 8) ∉ text) (s : Bytes) :
    skipGap true (text ++ 0x0a :: s) = skipGap false s := by
  induction text with
  | nil => rfl
  | cons c text ih =>
      have hc : decide (c ≠ 0x0a) = true := decide_eq_true fun h => htext (h ▸ List.mem_cons_self)
      rw [List.cons_append, skipGap, if_pos rfl, hc]
      exact ih fun h => htext (List.mem_cons_of_mem c h)

theorem skipGap_gap (hg : Gap g) (s : Bytes) : skipGap false (g ++ s) = skipGap false s := by
  induction hg with
  | nil => rfl
  | space hc hs ih =>
      rw [List.cons_append, skipGap, if_neg Bool.false_ne_true, if_pos hc]
      exact ih
  | comment htext hs ih =>
      rw [List.append_assoc, List.cons_append, skipGap, if_neg Bool.false_ne_true, if_neg (by decide), if_pos rfl,
        List.cons_append, skipGap_comment htext]
      exact ih

/-- What is skipped is a gap, unless everything is; the rest of a comment needs its start back. -/
theorem exists_gap (s : Bytes) :
    (skipGap false s ≠ [] → ∃ g, Gap g ∧ s = g ++ skipGap false s) ∧
      (skipGap true s ≠ [] → ∃ text g, (0x0a : BitVec 8) ∉ text ∧ Gap g ∧ s = text ++ 0x0a :: g ++ skipGap true s) := by
  induction s with
  | nil => exact ⟨fun h => absurd rfl h, fun h => absurd rfl h⟩
  | cons c s ih =>
      constructor
      · intro h
        rw [skipGap, if_neg Bool.false_ne_true] at h ⊢
        by_cases hc : isSpace c = true
        · rw [if_pos hc] at h ⊢
          obtain ⟨g, hg, heq⟩ := ih.1 h
          exact ⟨c :: g, .space hc hg, congrArg (c :: ·) heq⟩
        · rw [if_neg hc] at h ⊢
          by_cases hhash : c = 0x23
          · rw [if_pos hhash] at h ⊢
            obtain ⟨text, g, htext, hg, heq⟩ := ih.2 h
            refine ⟨0x23 :: text ++ 0x0a :: g, .comment htext hg, ?_⟩
            rw [hhash, List.cons_append, List.cons_append]
            exact congrArg (0x23 :: ·) heq
          · rw [if_neg hhash]
            exact ⟨[], .nil, rfl⟩
      · intro h
        rw [skipGap, if_pos rfl] at h ⊢
        by_cases hc : c = 0x0a
        · rw [decide_eq_false (not_not.mpr hc)] at h ⊢
          obtain ⟨g, hg, heq⟩ := ih.1 h
          exact ⟨[], g, List.not_mem_nil, hg, by rw [hc]; exact congrArg ((0x0a : BitVec 8) :: ·) heq⟩
        · rw [decide_eq_true hc] at h ⊢
          obtain ⟨text, g, htext, hg, heq⟩ := ih.2 h
          exact ⟨c :: text, g, fun hmem => (List.mem_cons.mp hmem).elim (fun heq => hc heq.symm) htext, hg,
            congrArg (c :: ·) heq⟩

end

def inNumber (c : BitVec 8) : Bool := isDigit c || c = 0x5f || c = 0x2d || c = 0x2b

theorem inNumber_spec (c : BitVec 8) (h : inNumber c = true) : isSpace c = false ∧ c ≠ 0x23 := by
  revert c
  decide +kernel

theorem digitsFrom_all {after : Bool} {value v : ℕ} {s : Bytes} (h : digitsFrom after value s = some v) :
    ∀ c ∈ s, inNumber c = true := by
  induction s generalizing after value with
  | nil => exact fun c hc => absurd hc List.not_mem_nil
  | cons d s ih =>
      rw [digitsFrom] at h
      split at h
      · rename_i hd
        exact List.forall_mem_cons.mpr ⟨by simp [inNumber, hd], ih h⟩
      · split at h
        · rename_i hd
          exact List.forall_mem_cons.mpr ⟨by simp [inNumber, hd.1], ih h⟩
        · cases h

theorem int_all {s : Bytes} {v : ℤ} (h : int s = some v) : s ≠ [] ∧ ∀ c ∈ s, inNumber c = true := by
  unfold int at h
  split at h
  · cases h
  · split at h
    · cases h
    · rename_i c rest _
      refine ⟨List.cons_ne_nil _ _, ?_⟩
      split at h
      · obtain ⟨n, hn, -⟩ := Option.map_eq_some_iff.mp h
        exact List.forall_mem_cons.mpr ⟨by simp [inNumber, *], digitsFrom_all hn⟩
      · split at h
        · obtain ⟨n, hn, -⟩ := Option.map_eq_some_iff.mp h
          exact List.forall_mem_cons.mpr ⟨by simp [inNumber, *], digitsFrom_all hn⟩
        · obtain ⟨n, hn, -⟩ := Option.map_eq_some_iff.mp h
          exact digitsFrom_all hn

/-- A number has a first byte, which is neither a space nor the start of a comment, and no space at all. -/
theorem int_head {t : Bytes} {v : ℤ} (h : int t = some v) : ∃ c rest, t = c :: rest ∧ isSpace c = false ∧ c ≠ 0x23 := by
  obtain ⟨hne, hall⟩ := int_all h
  cases t with
  | nil => exact absurd rfl hne
  | cons c rest =>
      obtain ⟨hspace, hhash⟩ := inNumber_spec c (hall c List.mem_cons_self)
      exact ⟨c, rest, rfl, hspace, hhash⟩

theorem int_no_space {t : Bytes} {v : ℤ} (h : int t = some v) : ∀ c ∈ t, (!isSpace c) = true := by
  intro c hc
  rw [(inNumber_spec c ((int_all h).2 c hc)).1]
  rfl

theorem skipGap_int {t : Bytes} {v : ℤ} (h : int t = some v) (s : Bytes) : skipGap false (t ++ s) = t ++ s := by
  obtain ⟨c, rest, rfl, hspace, hhash⟩ := int_head h
  rw [List.cons_append, skipGap, if_neg Bool.false_ne_true, hspace, if_neg Bool.false_ne_true, if_neg hhash]

theorem takeWhile_ends {t s : Bytes} (ht : ∀ c ∈ t, (!isSpace c) = true) (hs : Ends s) :
    (t ++ s).takeWhile (!isSpace ·) = t ∧ (t ++ s).dropWhile (!isSpace ·) = s := by
  induction t with
  | nil =>
      cases s with
      | nil => exact ⟨rfl, rfl⟩
      | cons c s =>
          have hc : (!isSpace c) = false := by rw [hs c rfl]; rfl
          rw [List.nil_append, List.takeWhile_cons, List.dropWhile_cons, hc]
          exact ⟨rfl, rfl⟩
  | cons c t ih =>
      have hc := ht c List.mem_cons_self
      obtain ⟨htake, hdrop⟩ := ih fun d hd => ht d (List.mem_cons_of_mem c hd)
      rw [List.cons_append, List.takeWhile_cons, List.dropWhile_cons, hc, if_pos rfl, if_pos rfl, htake, hdrop]
      exact ⟨rfl, rfl⟩

theorem ends_dropWhile (s : Bytes) : Ends (s.dropWhile (!isSpace ·)) := by
  intro c hc
  have hnot := List.head?_dropWhile_not (p := (!isSpace ·)) (l := s)
  rw [Option.mem_def] at hc
  rw [hc] at hnot
  simpa using hnot

/-- A number is read from where a gap and its digits stand, up to a space or the end. -/
theorem readField_eq_ok_iff {s rest : Bytes} {v : ℤ} :
    readField s = .ok (v, rest) ↔ ∃ g t, s = g ++ t ++ rest ∧ Gap g ∧ int t = some v ∧ Ends rest := by
  constructor
  · intro h
    unfold readField at h
    split at h
    · cases h
    · rename_i w hw
      cases h
      have hne : skipGap false s ≠ [] := fun hnil => (int_all hw).1 (by rw [hnil, List.takeWhile_nil])
      obtain ⟨g, hg, heq⟩ := (exists_gap s).1 hne
      refine ⟨g, _, ?_, hg, hw, ends_dropWhile _⟩
      rw [List.append_assoc, List.takeWhile_append_dropWhile]
      exact heq
  · rintro ⟨g, t, rfl, hg, ht, hends⟩
    obtain ⟨htake, hdrop⟩ := takeWhile_ends (int_no_space ht) hends
    rw [readField, List.append_assoc, skipGap_gap hg, skipGap_int ht, htake, hdrop, ht]

/-- A gap before a number ends what stands before it, exactly where it begins with a space. -/
theorem ends_gap_iff {g t s : Bytes} {v : ℤ} (hg : Gap g) (ht : int t = some v) : Ends (g ++ t ++ s) ↔ Break g := by
  obtain ⟨c, rest, rfl, hspace, -⟩ := int_head ht
  cases hg with
  | nil =>
      refine iff_of_false (fun h => ?_) ?_
      · exact Bool.false_ne_true (hspace.symm.trans (h c rfl))
      · rintro ⟨d, s, -, -, h⟩
        cases h
  | space hd hs => exact iff_of_true (fun e he => (Option.mem_some_iff.mp he) ▸ hd) ⟨_, _, hd, hs, rfl⟩
  | comment htext hs =>
      refine iff_of_false (fun h => absurd (h 0x23 rfl) (by decide)) ?_
      rintro ⟨d, s, hd, -, h⟩
      cases h
      exact absurd hd (by decide)

theorem header_iff {data rest : Bytes} {width height : ℤ} :
    (∃ s₀ s₁, readField (data.drop 2) = .ok (width, s₀) ∧ readField s₀ = .ok (height, s₁) ∧
        readField s₁ = .ok (255, rest)) ∧ P6.isPrefixOf data = true ↔
      ∃ header, data = header ++ rest ∧ Header header width height ∧ Ends rest := by
  simp only [readField_eq_ok_iff]
  constructor
  · rintro ⟨⟨s₀, s₁, ⟨g₀, t₀, h₀, hg₀, ht₀, hends₀⟩, ⟨g₁, t₁, rfl, hg₁, ht₁, hends₁⟩,
      ⟨g₂, t₂, rfl, hg₂, ht₂, hends₂⟩⟩, hmagic⟩
    rw [ends_gap_iff hg₁ ht₁] at hends₀
    rw [ends_gap_iff hg₂ ht₂] at hends₁
    obtain ⟨tail, rfl⟩ := List.isPrefixOf_iff_prefix.mp hmagic
    rw [show (P6 ++ tail).drop 2 = tail from rfl] at h₀
    refine ⟨_, ?_, ⟨g₀, t₀, g₁, t₁, g₂, t₂, rfl, hg₀, hends₀, hends₁, ht₀, ht₁, ht₂⟩, hends₂⟩
    simp only [h₀, List.append_assoc]
  · rintro ⟨header, rfl, ⟨g₀, t₀, g₁, t₁, g₂, t₂, rfl, hg₀, hg₁, hg₂, ht₀, ht₁, ht₂⟩, hends⟩
    have hgap₁ : Gap g₁ := by
      obtain ⟨c, s, hc, hs, rfl⟩ := hg₁
      exact .space hc hs
    have hgap₂ : Gap g₂ := by
      obtain ⟨c, s, hc, hs, rfl⟩ := hg₂
      exact .space hc hs
    refine ⟨⟨g₁ ++ t₁ ++ (g₂ ++ t₂ ++ rest), g₂ ++ t₂ ++ rest, ⟨g₀, t₀, ?_, hg₀, ht₀, (ends_gap_iff hgap₁ ht₁).mpr hg₁⟩,
      ⟨g₁, t₁, rfl, hgap₁, ht₁, (ends_gap_iff hgap₂ ht₂).mpr hg₂⟩, ⟨g₂, t₂, rfl, hgap₂, ht₂, hends⟩⟩, ?_⟩
    · simp only [List.append_assoc]
      rfl
    · simp only [List.append_assoc]
      exact List.isPrefixOf_iff_prefix.mpr (List.prefix_append P6 _)

/-- What is read of a file: the numbers of its header, and the bytes from the second behind it. -/
theorem readPpm_eq_ok_iff {path : Str} {data raster : Bytes} {width height : ℤ} :
    readPpm path data = .ok (width, height, raster) ↔
      ∃ header rest, data = header ++ rest ∧ Header header width height ∧ Ends rest ∧
        raster = slice data (header.length + 1) (header.length + 1 + width * height * 3) := by
  have hpos : ∀ header rest : Bytes, data = header ++ rest →
      (data.length - rest.length : ℤ) = header.length := by
    rintro header rest rfl
    rw [List.length_append]
    omega
  constructor
  · intro h
    unfold readPpm at h
    split at h
    · cases h
    · rename_i hmagic
      obtain ⟨⟨w, s₀⟩, h₀, h⟩ := bind_eq_ok_iff.mp h
      obtain ⟨⟨v, s₁⟩, h₁, h⟩ := bind_eq_ok_iff.mp h
      obtain ⟨⟨m, rest⟩, h₂, h⟩ := bind_eq_ok_iff.mp h
      dsimp only at h h₁ h₂
      split at h
      · cases h
      · rename_i hmax
        cases h
        rw [not_not.mp hmax] at h₂
        obtain ⟨header, hdata, hheader, hends⟩ := header_iff.mp ⟨⟨s₀, s₁, h₀, h₁, h₂⟩, not_not.mp hmagic⟩
        exact ⟨header, rest, hdata, hheader, hends, by rw [hpos header rest hdata]⟩
  · rintro ⟨header, rest, hdata, hheader, hends, rfl⟩
    obtain ⟨⟨s₀, s₁, h₀, h₁, h₂⟩, hmagic⟩ := header_iff.mpr ⟨header, hdata, hheader, hends⟩
    rw [readPpm, if_neg (not_not.mpr hmagic), ← hpos header rest hdata]
    exact bind_eq_ok_iff.mpr ⟨_, h₀, bind_eq_ok_iff.mpr ⟨_, h₁, bind_eq_ok_iff.mpr ⟨_, h₂, if_neg (not_not.mpr rfl)⟩⟩⟩

end Sirius.CompareFrames
