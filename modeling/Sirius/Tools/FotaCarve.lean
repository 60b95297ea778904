import Mathlib.Data.Nat.Digits.Defs
import Sirius.Tools.DtLoad

/-!
# Device trees out of a recovery image, the loop of tools/split-fota-dtbs.sh

The carver looks for the magic number, reads the size behind it and writes that many bytes, or goes on four bytes
further. The size is read before anything says it is there.
-/
namespace Sirius.FotaCarve

open DtEquiv (Bytes slice word MAGIC)

/-- `data.find(v, pos)` -/
def find (data v : Bytes) (pos : ℕ) : Option ℕ :=
  (List.range data.length).find? fun i => pos ≤ i ∧ slice data i (i + v.length) = v

/-- `struct.error` is all that the loop itself can raise. -/
inductive Ending
  | finished
  | structError
  deriving DecidableEq, Repr

/-- A file written: its number, where its bytes lie in the image, and the bytes. -/
structure Slice where
  found : ℕ
  pos : ℕ
  bytes : Bytes
  deriving DecidableEq, Repr

/-- The digits of `%02d`, from the lowest. -/
def nameDigits (found : ℕ) : List ℕ :=
  let digits := Nat.digits 10 found
  digits ++ List.replicate (2 - digits.length) 0

/-- `"fota-%02d.dtb" % found` -/
def fileName (found : ℕ) : List Char :=
  "fota-".toList ++ ((nameDigits found).map Nat.digitChar).reverse ++ ".dtb".toList

theorem find_eq_some {data v : Bytes} {pos p : ℕ} (h : find data v pos = some p) :
    pos ≤ p ∧ p < data.length ∧ slice data p (p + v.length) = v ∧
      ∀ q, pos ≤ q → q < p → slice data q (q + v.length) ≠ v := by
  obtain ⟨hp, hmem, hfirst⟩ := List.find?_range_eq_some.mp h
  simp only [decide_eq_true_eq] at hp
  refine ⟨hp.1, List.mem_range.mp hmem, hp.2, ?_⟩
  intro q hq hlt heq
  simpa [hq, heq] using hfirst q hlt

theorem find_eq_none {data v : Bytes} {pos : ℕ} (h : find data v pos = none) (hv : v ≠ []) (q : ℕ) (hq : pos ≤ q) :
    slice data q (q + v.length) ≠ v := by
  intro heq
  have hlen : q < data.length := by
    by_contra hout
    apply hv
    rw [← heq, slice, List.drop_eq_nil_of_le (by omega), List.take_nil]
  have hnone := List.find?_range_eq_none.mp h q hlen
  simp [hq, heq] at hnone

/-- The loop from `pos` on: the files it writes, and how it ends. -/
def carveFrom (data : Bytes) (pos found : ℕ) : List Slice × Ending :=
  match _hfind : find data MAGIC pos with
  | none => ([], .finished)
  | some p =>
      match word data (p + 4) with
      | none => ([], .structError)
      | some size =>
          if hsize : ¬ (0x100 ≤ size ∧ size ≤ 0x200000) ∨ data.length < p + size then carveFrom data (p + 4) found
          else
            let rest := carveFrom data (p + size) (found + 1)
            (⟨found, p, slice data p (p + size)⟩ :: rest.1, rest.2)
termination_by data.length - pos
decreasing_by
  all_goals
    obtain ⟨hle, hlt, -⟩ := find_eq_some _hfind
    omega

def carve (data : Bytes) : List Slice × Ending := carveFrom data 0 0

section
variable (data : Bytes)

def HasMagic (p : ℕ) : Prop := slice data p (p + 4) = MAGIC

/-- A header at `p` that declares a length the image has. -/
structure Header (p size : ℕ) : Prop where
  magic : HasMagic data p
  declared : word data (p + 4) = some size
  low : 0x100 ≤ size
  high : size ≤ 0x200000
  inside : p + size ≤ data.length

/-- A magic number too close to the end of the image for a size behind it. -/
def CutOff (p : ℕ) : Prop := HasMagic data p ∧ data.length < p + 8

/-- The trees of an image from `start` on: the first one, and after each the first behind its end. -/
inductive Taken (start : ℕ) : ℕ → ℕ → Prop
  | first {p size : ℕ} (hp : Header data p size) (hstart : start ≤ p)
      (hnone : ∀ q s, start ≤ q → q < p → ¬ Header data q s) : Taken start p size
  | next {p size q s : ℕ} (hq : Taken start q s) (hp : Header data p size) (hle : q + s ≤ p)
      (hnone : ∀ r t, q + s ≤ r → r < p → ¬ Header data r t) : Taken start p size

/-- Every magic number cut off by the end lies in a tree. -/
def EndCovered : Prop := ∀ p, CutOff data p → ∃ q size, Taken data 0 q size ∧ q ≤ p ∧ p < q + size

end

section
variable {data : Bytes} {p q size : ℕ}

theorem slice_getElem? (b : Bytes) (i j k : ℕ) (h : k < j - i) : (slice b i j)[k]? = b[i + k]? := by
  rw [slice, List.getElem?_take_of_lt h, List.getElem?_drop]

theorem slice_length (b : Bytes) {i j : ℕ} (h : j ≤ b.length) : (slice b i j).length = j - i := by
  rw [slice, List.length_take, List.length_drop]
  omega

theorem magic_getElem? (h : HasMagic data p) {k : ℕ} (hk : k < 4) : data[p + k]? = MAGIC[k]? := by
  rw [← h, slice_getElem? data p (p + 4) k (by omega)]

/-- The magic number does not overlap itself. -/
theorem magic_apart (hp : HasMagic data p) (hq : HasMagic data q) (hlt : p < q) : p + 4 ≤ q := by
  by_contra hover
  have hfirst : data[q + 0]? = some 0xd0 := magic_getElem? hq (by decide)
  obtain ⟨k, rfl⟩ := Nat.exists_eq_add_of_lt hlt
  have hsecond := magic_getElem? hp (k := k + 1) (by omega)
  rw [Nat.add_zero, Nat.add_assoc, hsecond] at hfirst
  obtain rfl | rfl | rfl : k = 0 ∨ k = 1 ∨ k = 2 := by omega
  · exact absurd hfirst (by decide)
  · exact absurd hfirst (by decide)
  · exact absurd hfirst (by decide)

theorem unpack_eq_none_iff (v : Bytes) : DtEquiv.unpack v = none ↔ v.length ≠ 4 := by
  match v with
  | [] => decide +revert
  | [_] => simp [DtEquiv.unpack]
  | [_, _] => simp [DtEquiv.unpack]
  | [_, _, _] => simp [DtEquiv.unpack]
  | [_, _, _, _] => simp [DtEquiv.unpack]
  | _ :: _ :: _ :: _ :: _ :: _ => simp [DtEquiv.unpack]

/-- `struct.unpack_from` raises when the image ends before the four bytes do. -/
theorem word_eq_none_iff {i : ℕ} : word data i = none ↔ data.length < i + 4 := by
  rw [word, Option.map_eq_none_iff, unpack_eq_none_iff, slice, List.length_take, List.length_drop]
  omega

theorem header_word (h : Header data p size) : p + 8 ≤ data.length := by
  have hlow := h.low
  have hinside := h.inside
  omega

/-- The four bytes at an offset are the same in a slice that has them. -/
theorem word_slice {i n : ℕ} (h : i + 4 ≤ n) : word (slice data p (p + n)) i = word data (p + i) := by
  have heq : slice (slice data p (p + n)) i (i + 4) = slice data (p + i) (p + i + 4) := by
    rw [slice, slice, slice, List.drop_take, List.drop_drop, List.take_take]
    congr 1
    omega
  rw [word, word, heq]

theorem take_slice (h : 4 ≤ size) : (slice data p (p + size)).take 4 = slice data p (p + 4) := by
  rw [slice, slice, List.take_take]
  congr 1
  omega

theorem taken_header {start : ℕ} (h : Taken data start p size) : start ≤ p ∧ Header data p size := by
  induction h with
  | first hp hstart _ => exact ⟨hstart, hp⟩
  | next _ hp hle _ ih =>
      have := ih.1
      exact ⟨by omega, hp⟩

/-- Positions without a header may be left out. -/
theorem taken_skip {start start' : ℕ} (hle : start ≤ start')
    (hnone : ∀ q s, start ≤ q → q < start' → ¬ Header data q s) :
    Taken data start' p size ↔ Taken data start p size := by
  constructor
  · intro h
    induction h with
    | first hp hstart hfirst =>
        refine Taken.first hp (by omega) fun q s hq hlt => ?_
        by_cases hq' : q < start'
        · exact hnone q s hq hq'
        · exact hfirst q s (by omega) hlt
    | next _ hp hle hbetween ih => exact Taken.next ih hp hle hbetween
  · intro h
    induction h with
    | @first p size hp hstart hfirst =>
        have hge : start' ≤ p := by
          by_contra hlt
          exact hnone p size hstart (by omega) hp
        exact Taken.first hp hge fun q s hq hlt => hfirst q s (by omega) hlt
    | next _ hp hle hbetween ih => exact Taken.next ih hp hle hbetween

/-- Behind a tree that is taken first, those are taken that are from its end on. -/
theorem taken_behind {start q s : ℕ} (hq : Header data q s) (hstart : start ≤ q)
    (hnone : ∀ r t, start ≤ r → r < q → ¬ Header data r t) :
    Taken data start p size ↔ (p = q ∧ size = s) ∨ Taken data (q + s) p size := by
  have hfirst : Taken data start q s := Taken.first hq hstart hnone
  have hsame : ∀ {p size}, Header data p size → p = q → size = s := by
    rintro p size hp rfl
    exact Option.some_inj.mp (hp.declared.symm.trans hq.declared)
  constructor
  · intro h
    induction h with
    | @first p size hp hge hbefore =>
        have hlt : ¬ p < q := fun hlt => hnone p size hge hlt hp
        have hgt : ¬ q < p := fun hgt => hbefore q s hstart hgt hq
        have heq : p = q := by omega
        exact Or.inl ⟨heq, hsame hp heq⟩
    | next _ hp hle hbetween ih =>
        rcases ih with ⟨rfl, rfl⟩ | ih
        · exact Or.inr (Taken.first hp hle hbetween)
        · exact Or.inr (Taken.next ih hp hle hbetween)
  · rintro (⟨rfl, rfl⟩ | h)
    · exact hfirst
    · induction h with
      | first hp hge hbefore => exact Taken.next hfirst hp hge hbefore
      | next _ hp hle hbetween ih => exact Taken.next ih hp hle hbetween

def Slice.stop (s : Slice) : ℕ := s.pos + s.bytes.length

/-- What the loop from `pos` on comes to. -/
structure Carved (data : Bytes) (pos found : ℕ) (out : List Slice × Ending) : Prop where
  slices : ∀ s ∈ out.1, pos ≤ s.pos ∧ Header data s.pos s.bytes.length ∧ s.bytes = slice data s.pos s.stop
  ordered : out.1.Pairwise fun s t => s.stop ≤ t.pos
  numbered : out.1.map Slice.found = List.range' found out.1.length
  complete : out.2 = .finished → ∀ p size, pos ≤ p → Header data p size → ∃ s ∈ out.1, s.pos ≤ p ∧ p < s.stop
  ended : out.2 = .finished ↔
    ∀ p, pos ≤ p → CutOff data p → ∃ q size, Taken data pos q size ∧ q ≤ p ∧ p < q + size

variable {pos found : ℕ}

theorem carved_none (h : find data MAGIC pos = none) : Carved data pos found ([], .finished) := by
  have hnone : ∀ p, pos ≤ p → ¬ HasMagic data p := find_eq_none h (by decide)
  refine ⟨nofun, List.Pairwise.nil, rfl, ?_, ?_⟩
  · intro _ p size hp hheader
    exact absurd hheader.magic (hnone p hp)
  · refine iff_of_true rfl fun p hp hcut => ?_
    exact absurd hcut.1 (hnone p hp)

section
variable (hfind : find data MAGIC pos = some p)
include hfind

theorem found_magic : pos ≤ p ∧ HasMagic data p ∧ ∀ q, pos ≤ q → q < p → ¬ HasMagic data q := by
  obtain ⟨hle, -, hmagic, hfirst⟩ := find_eq_some hfind
  exact ⟨hle, hmagic, hfirst⟩

/-- The size cannot be read: no tree from here on reaches the magic number. -/
theorem carved_error (hword : word data (p + 4) = none) : Carved data pos found ([], .structError) := by
  obtain ⟨hle, hmagic, hfirst⟩ := found_magic hfind
  have hcut : CutOff data p := ⟨hmagic, word_eq_none_iff.mp hword⟩
  refine ⟨nofun, List.Pairwise.nil, rfl, nofun, iff_of_false nofun fun h => ?_⟩
  obtain ⟨q, size, htaken, hq, -⟩ := h p hle hcut
  obtain ⟨hstart, hheader⟩ := taken_header htaken
  by_cases heq : q = p
  · subst q
    exact absurd (header_word hheader) (Nat.not_le.mpr hcut.2)
  · exact hfirst q hstart (by omega) hheader.magic

/-- A header that is refused is no header: nothing lies in the four bytes skipped. -/
theorem skipped_none (hword : word data (p + 4) = some size)
    (hsize : ¬ (0x100 ≤ size ∧ size ≤ 0x200000) ∨ data.length < p + size) :
    ∀ q s, pos ≤ q → q < p + 4 → ¬ Header data q s := by
  intro q s hq hlt hheader
  obtain ⟨-, hmagic, hfirst⟩ := found_magic hfind
  by_cases hbefore : q < p
  · exact hfirst q hq hbefore hheader.magic
  · by_cases heq : q = p
    · subst q
      have hs : s = size := Option.some_inj.mp (hheader.declared.symm.trans hword)
      subst s
      have := hheader.low
      have := hheader.high
      have := hheader.inside
      omega
    · have := magic_apart hmagic hheader.magic (by omega)
      omega

theorem carved_reject (hword : word data (p + 4) = some size)
    (hsize : ¬ (0x100 ≤ size ∧ size ≤ 0x200000) ∨ data.length < p + size) {out : List Slice × Ending}
    (h : Carved data (p + 4) found out) : Carved data pos found out := by
  obtain ⟨hle, hmagic, hfirst⟩ := found_magic hfind
  have hnone := skipped_none hfind hword hsize
  have hroom : ¬ data.length < p + 8 := fun hcut => by
    rw [word_eq_none_iff.mpr (by omega)] at hword
    cases hword
  refine ⟨?_, h.ordered, h.numbered, ?_, ?_⟩
  · intro s hs
    obtain ⟨hpos, hrest⟩ := h.slices s hs
    exact ⟨by omega, hrest⟩
  · intro hend q s hq hheader
    have hge : p + 4 ≤ q := by
      by_contra hlt
      exact hnone q s hq (by omega) hheader
    exact h.complete hend q s hge hheader
  · simp only [h.ended, taken_skip (by omega : pos ≤ p + 4) hnone]
    constructor
    · intro hcovered q hq hcut
      by_cases hge : p + 4 ≤ q
      · exact hcovered q hge hcut
      · have hnot : ¬ q < p := fun hlt => hfirst q hq hlt hcut.1
        by_cases heq : q = p
        · exact absurd hcut.2 (heq ▸ hroom)
        · have := magic_apart hmagic hcut.1 (by omega)
          omega
    · intro hcovered q hq hcut
      exact hcovered q (by omega) hcut

theorem carved_write (hword : word data (p + 4) = some size)
    (hsize : ¬ (¬ (0x100 ≤ size ∧ size ≤ 0x200000) ∨ data.length < p + size)) {out : List Slice × Ending}
    (h : Carved data (p + size) (found + 1) out) :
    Carved data pos found (⟨found, p, slice data p (p + size)⟩ :: out.1, out.2) := by
  obtain ⟨hle, hmagic, hfirst⟩ := found_magic hfind
  have hlength : (slice data p (p + size)).length = size := by
    rw [slice_length data (by omega)]
    omega
  have hheader : Header data p size := ⟨hmagic, hword, by omega, by omega, by omega⟩
  have hnone : ∀ r t, pos ≤ r → r < p → ¬ Header data r t := fun r t hr hlt hr' => hfirst r hr hlt hr'.magic
  refine ⟨?_, ?_, ?_, ?_, ?_⟩
  · intro s hs
    rcases List.mem_cons.mp hs with rfl | hs
    · exact ⟨hle, by rw [hlength]; exact hheader, by rw [Slice.stop, hlength]⟩
    · obtain ⟨hpos, hrest⟩ := h.slices s hs
      exact ⟨by omega, hrest⟩
  · refine List.Pairwise.cons (fun t ht => ?_) h.ordered
    rw [Slice.stop, hlength]
    exact (h.slices t ht).1
  · rw [List.map_cons, h.numbered, List.length_cons, List.range'_succ]
  · intro hend q s hq hq'
    by_cases hin : q < p + size
    · have hge : p ≤ q := Nat.le_of_not_lt fun hlt => hfirst q hq hlt hq'.magic
      exact ⟨_, List.mem_cons_self, hge, by rw [Slice.stop, hlength]; exact hin⟩
    · obtain ⟨t, ht, hcover⟩ := h.complete hend q s (by omega) hq'
      exact ⟨t, List.mem_cons_of_mem _ ht, hcover⟩
  · simp only [h.ended, taken_behind hheader hle hnone]
    constructor
    · intro hcovered q hq hcut
      have hge : p ≤ q := Nat.le_of_not_lt fun hlt => hfirst q hq hlt hcut.1
      by_cases hin : q < p + size
      · exact ⟨p, size, Or.inl ⟨rfl, rfl⟩, hge, hin⟩
      · obtain ⟨r, t, htaken, hr⟩ := hcovered q (by omega) hcut
        exact ⟨r, t, Or.inr htaken, hr⟩
    · intro hcovered q hq hcut
      obtain ⟨r, t, htaken, hr, hlt⟩ := hcovered q (by omega) hcut
      rcases htaken with ⟨rfl, rfl⟩ | htaken
      · omega
      · exact ⟨r, t, htaken, hr, hlt⟩

end

/-- Each case of the loop keeps what the rest of it comes to. -/
theorem carve_from_carved (data : Bytes) (pos found : ℕ) : Carved data pos found (carveFrom data pos found) := by
  fun_induction carveFrom data pos found with
  | case1 pos found hfind => exact carved_none hfind
  | case2 pos found p hfind hword => exact carved_error hfind hword
  | case3 pos found p hfind size hword hsize ih => exact carved_reject hfind hword hsize ih
  | case4 pos found p hfind size hword hsize rest ih => exact carved_write hfind hword hsize ih

end

theorem name_digits_value (found : ℕ) : Nat.ofDigits 10 (nameDigits found) = found := by
  rw [nameDigits, Nat.ofDigits_append_replicate_zero, Nat.ofDigits_digits]

theorem name_digits_lt {found d : ℕ} (h : d ∈ nameDigits found) : d < 10 := by
  rcases List.mem_append.mp h with h | h
  · exact Nat.digits_lt_base (by decide) h
  · rw [List.eq_of_mem_replicate h]
    decide

theorem digit_char_value : ∀ d < 10, (Nat.digitChar d).toNat - 48 = d := by
  decide

/-- Two files have two names: the digits can be read back. -/
theorem file_name_injective : Function.Injective fileName := by
  intro n m h
  have hdigits : (nameDigits n).map Nat.digitChar = (nameDigits m).map Nat.digitChar :=
    List.reverse_injective (List.append_cancel_left (List.append_cancel_right h))
  have hread : ∀ k, ((nameDigits k).map Nat.digitChar).map (fun c => c.toNat - 48) = nameDigits k := by
    intro k
    have hvalue : ∀ d ∈ nameDigits k, ((fun c : Char => c.toNat - 48) ∘ Nat.digitChar) d = id d := fun d hd =>
      digit_char_value d (name_digits_lt hd)
    rw [List.map_map, List.map_congr_left hvalue, List.map_id]
  rw [← name_digits_value n, ← name_digits_value m, ← hread n, ← hread m, hdigits]

/-- The loop ends, and the files are the trees of the image. -/
structure Handled (data : Bytes) : Prop where
  ended : (carve data).2 = .finished
  inside : ∀ s ∈ (carve data).1, s.stop ≤ data.length ∧ s.bytes = slice data s.pos s.stop
  header : ∀ s ∈ (carve data).1, s.bytes.take 4 = MAGIC ∧ word s.bytes 4 = some s.bytes.length ∧
    0x100 ≤ s.bytes.length ∧ s.bytes.length ≤ 0x200000
  ordered : (carve data).1.Pairwise fun s t => s.stop ≤ t.pos
  named : ((carve data).1.map fun s => fileName s.found).Nodup
  complete : ∀ p size, Header data p size →
    (∀ s ∈ (carve data).1, s.pos ≠ p → ¬ (s.pos ≤ p ∧ p < s.stop)) → ∃ s ∈ (carve data).1, s.pos = p

/-- The carver handles an image exactly when no magic number is cut off by its end outside the trees. -/
theorem carve_handled_iff (data : Bytes) : Handled data ↔ EndCovered data := by
  have hcarved := carve_from_carved data 0 0
  rw [← carve] at hcarved
  have hended : (carve data).2 = .finished ↔ EndCovered data :=
    hcarved.ended.trans ⟨fun h p => h p (Nat.zero_le p), fun h p _ => h p⟩
  constructor
  · exact fun h => hended.mp h.ended
  · intro h
    refine ⟨hended.mpr h, ?_, ?_, hcarved.ordered, ?_, ?_⟩
    · intro s hs
      obtain ⟨-, hheader, hbytes⟩ := hcarved.slices s hs
      exact ⟨hheader.inside, hbytes⟩
    · intro s hs
      obtain ⟨-, hheader, hbytes⟩ := hcarved.slices s hs
      have hlow := hheader.low
      refine ⟨?_, ?_, hlow, hheader.high⟩
      · rw [hbytes, Slice.stop, take_slice (by omega)]
        exact hheader.magic
      · rw [← hheader.declared, ← word_slice (n := s.bytes.length) (by omega)]
        exact congrArg (word · 4) hbytes
    · rw [← Function.comp_def fileName, ← List.map_map, List.nodup_map_iff file_name_injective, hcarved.numbered]
      exact List.nodup_range'
    · intro p size hheader hout
      obtain ⟨s, hs, hcover⟩ := hcarved.complete (hended.mpr h) p size (Nat.zero_le p) hheader
      by_contra hne
      exact hout s hs (fun heq => hne ⟨s, hs, heq⟩) hcover

/-- Four bytes are enough: the magic number and nothing behind it. -/
theorem magic_alone : (carve MAGIC).2 = .structError ∧ ¬ Handled MAGIC := by
  have hraised : (carve MAGIC).2 = .structError := by
    rw [carve, carveFrom]
    rfl
  exact ⟨hraised, fun h => nomatch hraised.symm.trans h.ended⟩

end Sirius.FotaCarve
