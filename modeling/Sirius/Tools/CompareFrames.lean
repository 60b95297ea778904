import Mathlib.Data.Finset.Prod
import Mathlib.Data.Finset.Range
import Sirius.Lib.Extent
import Sirius.Tools.Ppm

/-!
# Where two screenshots differ, tools/compare-frames.py

The loop over the pixels keeps how many differ, by how much at most and the box around them, and paints a picture. The
percentage is a floating point number and is left out, the division behind it is not.
-/
namespace Sirius.CompareFrames

open DtEquiv (Str Bytes)
open Extent Loops

/-- `data[i]` -/
def index (data : Bytes) (i : ℕ) : Except Failure ℕ :=
  match data[i]? with
  | none => .error .indexError
  | some c => .ok c.toNat

/-- `abs(a[i] - b[i])` -/
def delta (a b : Bytes) (i : ℕ) : Except Failure ℕ := do
  let m ← index a i
  let n ← index b i
  return ((m : ℤ) - n).natAbs

/-- What a `bytearray` takes. -/
def byte (v : ℕ) : Except Failure (BitVec 8) := if v < 256 then .ok (BitVec.ofNat 8 v) else .error .valueError

structure Tally where
  differing : ℕ
  worst : ℕ
  minx : ℤ
  miny : ℤ
  maxx : ℤ
  maxy : ℤ
  deriving DecidableEq, Repr

/-- A difference, which may be the largest so far. -/
def Tally.raise (t : Tally) (d : ℕ) : Tally := if d > t.worst then { t with worst := d } else t

/-- A pixel that differs, at these coordinates. -/
def Tally.note (t : Tally) (x y : ℤ) : Tally where
  differing := t.differing + 1
  worst := t.worst
  minx := if x < t.minx then x else t.minx
  maxx := if x > t.maxx then x else t.maxx
  miny := if y < t.miny then y else t.miny
  maxy := if y > t.maxy then y else t.maxy

section
variable (tolerance : ℤ) (picture : Bool) (a b : Bytes) (aw : ℕ)

def pixel (y : ℕ) (s : Tally × Bytes) (x : ℕ) : Except Failure (Tally × Bytes) := do
  let i := y * aw * 3 + x * 3
  let d₀ ← delta a b i
  let d₁ ← delta a b (i + 1)
  let d₂ ← delta a b (i + 2)
  let d := max (max d₀ d₁) d₂
  let t := s.1.raise d
  if (d : ℤ) > tolerance then return (t.note x y, if picture then s.2.set (x * 3) 255 else s.2)
  else if picture then
    let grey ← byte (((← index a i) + (← index a (i + 1)) + (← index a (i + 2))) / 6 + 40)
    return (t, ((s.2.set (x * 3) grey).set (x * 3 + 1) grey).set (x * 3 + 2) grey)
  else return (t, s.2)

def line (s : Tally × List Bytes) (y : ℕ) : Except Failure (Tally × List Bytes) := do
  let (t, row) ← (List.range aw).foldlM (pixel tolerance picture a b aw y) (s.1, List.replicate (aw * 3) 0)
  return (t, if picture then s.2 ++ [row] else s.2)

end

structure Result where
  size : ℤ × ℤ
  tolerance : ℤ
  differing : ℕ
  worst : ℕ
  area : Option (ℤ × ℤ × ℤ × ℤ)
  picture : Option (List Bytes)
  deriving DecidableEq, Repr

/-- The comparison of two images of one size; a row of negative length is refused where a picture is wanted. -/
def compare (tolerance : ℤ) (picture : Bool) (aw ah : ℤ) (a b : Bytes) : Except Failure Result := do
  if picture ∧ aw < 0 ∧ 0 < ah then .error .valueError
  else
    let (t, rows) ← (List.range ah.toNat).foldlM (line tolerance picture a b aw.toNat) (⟨0, 0, aw, ah, -1, -1⟩, [])
    if aw * ah = 0 then .error .zeroDivisionError
    else return {
      size := (aw, ah)
      tolerance
      differing := t.differing
      worst := t.worst
      area := if t.maxx < 0 then none else some (t.minx, t.miny, t.maxx - t.minx + 1, t.maxy - t.miny + 1)
      picture := if picture ∧ t.differing ≠ 0 then some rows else none }

/-- `"%dx%d"` -/
def sizeText (w h : ℤ) : Str := (toString w).toList ++ 'x' :: (toString h).toList

/-- `main`, from the two files; the picture is what it hands to `write_png`. -/
def main (tolerance : ℤ) (picture : Bool) (aPath bPath : Str) (aData bData : Bytes) : Except Failure Result := do
  let (aw, ah, a) ← readPpm aPath aData
  let (bw, bh, b) ← readPpm bPath bData
  if (aw, ah) ≠ (bw, bh) then
    .error (.systemExit ("different sizes: ".toList ++ sizeText aw ah ++ " and ".toList ++ sizeText bw bh))
  else compare tolerance picture aw ah a b

section
variable (t : Tally) (d : ℕ)

theorem Tally.raise_worst : (t.raise d).worst = if t.worst < d then d else t.worst := by
  unfold raise
  split <;> rfl

theorem Tally.raise_rest : (t.raise d).differing = t.differing ∧ (t.raise d).minx = t.minx ∧
    (t.raise d).miny = t.miny ∧ (t.raise d).maxx = t.maxx ∧ (t.raise d).maxy = t.maxy := by
  unfold raise
  split <;> exact ⟨rfl, rfl, rfl, rfl, rfl⟩

end

section
variable (tolerance : ℤ) (a b : Bytes) (w h : ℕ)

/-- A channel of the pixel at `x`, `y`. -/
def channel (data : Bytes) (x y c : ℕ) : ℕ := (data.getD (y * w * 3 + x * 3 + c) 0).toNat

/-- The largest difference of a channel of two pixels. -/
def distance (x y : ℕ) : ℕ :=
  let d c := ((channel w a x y c : ℤ) - channel w b x y c).natAbs
  max (max (d 0) (d 1)) (d 2)

def Differs (x y : ℕ) : Prop := (distance a b w x y : ℤ) > tolerance

instance (x y : ℕ) : Decidable (Differs tolerance a b w x y) := inferInstanceAs (Decidable (_ > _))

/-- Red where the images differ, and the first image in grey elsewhere. -/
def colour (x y : ℕ) : Bytes :=
  if Differs tolerance a b w x y then [255, 0, 0]
  else List.replicate 3 (BitVec.ofNat 8 ((channel w a x y 0 + channel w a x y 1 + channel w a x y 2) / 6 + 40))

def differing : Finset (ℕ × ℕ) := (Finset.range w ×ˢ Finset.range h).filter fun p => Differs tolerance a b w p.1 p.2

def OfDiffering (f : ℕ × ℕ → ℤ) : Set ℤ := {v | ∃ p ∈ differing tolerance a b w h, f p = v}

/-- The result says how the images differ. -/
structure Describes (picture : Bool) (r : Result) : Prop where
  size : r.size = ((w : ℤ), (h : ℤ)) ∧ r.tolerance = tolerance
  differing : r.differing = (differing tolerance a b w h).card
  worst : IsGreatest {d | ∃ x < w, ∃ y < h, distance a b w x y = d} r.worst
  area_none : r.area = none ↔ CompareFrames.differing tolerance a b w h = ∅
  area : ∀ x₀ y₀ width height, r.area = some (x₀, y₀, width, height) →
    (IsLeast (OfDiffering tolerance a b w h fun p => p.1) x₀ ∧
      IsGreatest (OfDiffering tolerance a b w h fun p => p.1) (x₀ + width - 1)) ∧
    IsLeast (OfDiffering tolerance a b w h fun p => p.2) y₀ ∧
      IsGreatest (OfDiffering tolerance a b w h fun p => p.2) (y₀ + height - 1)
  picture : r.picture = if picture ∧ CompareFrames.differing tolerance a b w h ≠ ∅ then
    some ((List.range h).map fun y => (List.range w).flatMap fun x => colour tolerance a b w x y) else none

end

section
variable {tolerance : ℤ} {picture : Bool} {a b : Bytes} {w h : ℕ}

def tallyStep (tolerance : ℤ) (a b : Bytes) (w : ℕ) (t : Tally) (p : ℕ × ℕ) : Tally :=
  let t := t.raise (distance a b w p.1 p.2)
  if Differs tolerance a b w p.1 p.2 then t.note p.1 p.2 else t

def paint (tolerance : ℤ) (a b : Bytes) (w y : ℕ) (row : Bytes) (x : ℕ) : Bytes :=
  if Differs tolerance a b w x y then row.set (x * 3) 255
  else
    let grey := BitVec.ofNat 8 ((channel w a x y 0 + channel w a x y 1 + channel w a x y 2) / 6 + 40)
    ((row.set (x * 3) grey).set (x * 3 + 1) grey).set (x * 3 + 2) grey

theorem index_eq_ok {data : Bytes} {i : ℕ} (hi : i < data.length) : index data i = .ok (data.getD i 0).toNat := by
  rw [index, List.getD_eq_getElem?_getD, List.getElem?_eq_getElem hi, Option.getD_some]

theorem delta_eq_ok {i : ℕ} (ha : i < a.length) (hb : i < b.length) :
    delta a b i = .ok (((a.getD i 0).toNat : ℤ) - (b.getD i 0).toNat).natAbs := by
  rw [delta, index_eq_ok ha, index_eq_ok hb]
  rfl

theorem byte_eq_ok (m n k : BitVec 8) :
    byte ((m.toNat + n.toNat + k.toNat) / 6 + 40) = .ok (BitVec.ofNat 8 ((m.toNat + n.toNat + k.toNat) / 6 + 40)) :=
  if_pos (by have := m.isLt; have := n.isLt; have := k.isLt; omega)

theorem pixel_eq_ok {x y : ℕ} (ha : y * w * 3 + x * 3 + 2 < a.length) (hb : y * w * 3 + x * 3 + 2 < b.length)
    (s : Tally × Bytes) : pixel tolerance picture a b w y s x =
      .ok (tallyStep tolerance a b w s.1 (x, y), if picture then paint tolerance a b w y s.2 x else s.2) := by
  have hdelta : ∀ c ≤ 2, delta a b (y * w * 3 + x * 3 + c) =
      .ok ((channel w a x y c : ℤ) - channel w b x y c).natAbs := fun c hc => delta_eq_ok (by omega) (by omega)
  have hgrey : ∀ c ≤ 2, index a (y * w * 3 + x * 3 + c) = .ok (channel w a x y c) :=
    fun c hc => index_eq_ok (by omega)
  have hbyte := byte_eq_ok (a.getD (y * w * 3 + x * 3) 0) (a.getD (y * w * 3 + x * 3 + 1) 0)
    (a.getD (y * w * 3 + x * 3 + 2) 0)
  refine bind_eq_ok_iff.mpr ⟨_, hdelta 0 (by decide), bind_eq_ok_iff.mpr ⟨_, hdelta 1 (by decide),
    bind_eq_ok_iff.mpr ⟨_, hdelta 2 (by decide), ?_⟩⟩⟩
  by_cases h : Differs tolerance a b w x y
  · rw [tallyStep, paint, if_pos h, if_pos h]
    exact if_pos h
  · rw [tallyStep, paint, if_neg h, if_neg h]
    refine (if_neg h).trans ?_
    cases picture with
    | false => rfl
    | true =>
        exact bind_eq_ok_iff.mpr ⟨_, hgrey 0 (by decide), bind_eq_ok_iff.mpr ⟨_, hgrey 1 (by decide),
          bind_eq_ok_iff.mpr ⟨_, hgrey 2 (by decide), bind_eq_ok_iff.mpr ⟨_, hbyte, rfl⟩⟩⟩⟩

def pixels (w h : ℕ) : List (ℕ × ℕ) := (List.range h).flatMap fun y => (List.range w).map fun x => (x, y)

theorem pixel_bound {x y : ℕ} (hx : x < w) (hy : y < h) : y * w * 3 + x * 3 + 2 < w * h * 3 := by
  have hrow : (y + 1) * w ≤ h * w := Nat.mul_le_mul_right w hy
  rw [Nat.add_mul, Nat.one_mul, Nat.mul_comm h w] at hrow
  omega

theorem line_eq_ok {y : ℕ} (hy : y < h) (ha : w * h * 3 ≤ a.length) (hb : w * h * 3 ≤ b.length)
    (s : Tally × List Bytes) : line tolerance picture a b w s y =
      .ok (((List.range w).map fun x => (x, y)).foldl (tallyStep tolerance a b w) s.1,
        if picture then s.2 ++ [(List.range w).foldl (paint tolerance a b w y) (List.replicate (w * 3) 0)]
        else s.2) := by
  have hpixel : ∀ x ∈ List.range w, ∀ s, pixel tolerance picture a b w y s x =
      .ok (tallyStep tolerance a b w s.1 (x, y), if picture then paint tolerance a b w y s.2 x else s.2) := by
    intro x hx s
    have hbound := pixel_bound (List.mem_range.mp hx) hy
    exact pixel_eq_ok (hbound.trans_le ha) (hbound.trans_le hb) s
  refine bind_eq_ok_iff.mpr ⟨_, foldlM_eq_ok hpixel _, ?_⟩
  rw [foldl_pair (fun t x => tallyStep tolerance a b w t (x, y))
    (fun row x => if picture then paint tolerance a b w y row x else row), List.foldl_map]
  cases picture <;> rfl

theorem lines_eq_ok (ha : w * h * 3 ≤ a.length) (hb : w * h * 3 ≤ b.length) (t : Tally) :
    (List.range h).foldlM (line tolerance picture a b w) (t, []) =
      .ok ((pixels w h).foldl (tallyStep tolerance a b w) t,
        if picture then (List.range h).map fun y =>
          (List.range w).foldl (paint tolerance a b w y) (List.replicate (w * 3) 0) else []) := by
  refine (foldlM_eq_ok (fun y hy s => line_eq_ok (List.mem_range.mp hy) ha hb s) _).trans ?_
  rw [foldl_pair (fun t y => ((List.range w).map fun x => (x, y)).foldl (tallyStep tolerance a b w) t)
    (fun rows y => if picture then rows ++ [(List.range w).foldl (paint tolerance a b w y) (List.replicate (w * 3) 0)]
      else rows), pixels, List.foldl_flatMap]
  cases picture with
  | false => simp
  | true =>
      simp only [if_true, List.foldl_append_eq_append, List.nil_append, ← List.flatMap_def]
      rw [← List.map_eq_flatMap]

theorem mem_pixels {p : ℕ × ℕ} : p ∈ pixels w h ↔ p.1 < w ∧ p.2 < h := by
  simp only [pixels, List.mem_flatMap, List.mem_range, List.mem_map]
  constructor
  · rintro ⟨y, hy, x, hx, rfl⟩
    exact ⟨hx, hy⟩
  · rintro ⟨hx, hy⟩
    exact ⟨p.2, hy, p.1, hx, rfl⟩

theorem nodup_pixels (w h : ℕ) : (pixels w h).Nodup := by
  have heq : pixels w h = (List.product (List.range h) (List.range w)).map Prod.swap := by
    rw [List.product, List.map_flatMap]
    simp only [List.map_map]
    rfl
  rw [heq]
  exact (List.nodup_range.product List.nodup_range).map Prod.swap_injective

variable (tolerance a b w)

theorem tally_differing (ps : List (ℕ × ℕ)) (t : Tally) : (ps.foldl (tallyStep tolerance a b w) t).differing =
    t.differing + ps.countP fun p => Differs tolerance a b w p.1 p.2 := by
  induction ps generalizing t with
  | nil => rfl
  | cons p ps ih =>
      have hstep : (tallyStep tolerance a b w t p).differing =
          t.differing + if Differs tolerance a b w p.1 p.2 then 1 else 0 := by
        unfold tallyStep
        have hraise := (t.raise_rest (distance a b w p.1 p.2)).1
        split
        · exact congrArg (· + 1) hraise
        · exact hraise
      rw [List.foldl_cons, ih, hstep, List.countP_cons]
      simp only [decide_eq_true_eq]
      omega

theorem tally_worst (ps : List (ℕ × ℕ)) (t : Tally) :
    IsGreatest (insert t.worst {d | ∃ p ∈ ps, True ∧ distance a b w p.1 p.2 = d})
      (ps.foldl (tallyStep tolerance a b w) t).worst := by
  apply isGreatest_foldl
  intro t p
  have hraise := t.raise_worst (distance a b w p.1 p.2)
  simp only [true_and]
  unfold tallyStep
  split <;> exact hraise

theorem tallyStep_box (t : Tally) (p : ℕ × ℕ) :
    (tallyStep tolerance a b w t p).minx =
        (if Differs tolerance a b w p.1 p.2 ∧ (p.1 : ℤ) < t.minx then (p.1 : ℤ) else t.minx) ∧
      (tallyStep tolerance a b w t p).miny =
        (if Differs tolerance a b w p.1 p.2 ∧ (p.2 : ℤ) < t.miny then (p.2 : ℤ) else t.miny) ∧
      (tallyStep tolerance a b w t p).maxx =
        (if Differs tolerance a b w p.1 p.2 ∧ t.maxx < (p.1 : ℤ) then (p.1 : ℤ) else t.maxx) ∧
      (tallyStep tolerance a b w t p).maxy =
        (if Differs tolerance a b w p.1 p.2 ∧ t.maxy < (p.2 : ℤ) then (p.2 : ℤ) else t.maxy) := by
  obtain ⟨-, hminx, hminy, hmaxx, hmaxy⟩ := t.raise_rest (distance a b w p.1 p.2)
  unfold tallyStep
  by_cases hdiff : Differs tolerance a b w p.1 p.2
  · simp only [hdiff, if_true, true_and, Tally.note, hminx, hminy, hmaxx, hmaxy, and_self]
  · simp only [hdiff, if_false, false_and]
    exact ⟨hminx, hminy, hmaxx, hmaxy⟩

theorem tally_box (ps : List (ℕ × ℕ)) (t : Tally) :
    let r := ps.foldl (tallyStep tolerance a b w) t
    let values (f : ℕ × ℕ → ℤ) : Set ℤ := {v | ∃ p ∈ ps, Differs tolerance a b w p.1 p.2 ∧ f p = v}
    IsLeast (insert t.minx (values fun p => p.1)) r.minx ∧ IsLeast (insert t.miny (values fun p => p.2)) r.miny ∧
      IsGreatest (insert t.maxx (values fun p => p.1)) r.maxx ∧
      IsGreatest (insert t.maxy (values fun p => p.2)) r.maxy := by
  have hstep := tallyStep_box tolerance a b w
  exact ⟨isLeast_foldl _ _ Tally.minx (fun t p => (hstep t p).1) ps t,
    isLeast_foldl _ _ Tally.miny (fun t p => (hstep t p).2.1) ps t,
    isGreatest_foldl _ _ Tally.maxx (fun t p => (hstep t p).2.2.1) ps t,
    isGreatest_foldl _ _ Tally.maxy (fun t p => (hstep t p).2.2.2) ps t⟩

theorem length_colour (x y : ℕ) : (colour tolerance a b w x y).length = 3 := by
  unfold colour
  split <;> rfl

/-- A pixel is painted over three zeros. -/
theorem paint_zeros {y x n : ℕ} {before : Bytes} (hlen : before.length = x * 3) :
    paint tolerance a b w y (before ++ List.replicate (n + 3) 0) x =
      before ++ colour tolerance a b w x y ++ List.replicate n 0 := by
  have hzeros : List.replicate (n + 3) (0 : BitVec 8) = 0 :: 0 :: 0 :: List.replicate n 0 := rfl
  unfold paint colour
  split
  · rw [hzeros, List.set_append_right _ _ hlen.le, hlen, Nat.sub_self, List.append_assoc]
    rfl
  · simp only [hzeros]
    rw [List.set_append_right _ _ hlen.le, List.set_append_right _ _ (by omega), List.set_append_right _ _ (by omega),
      hlen, Nat.sub_self, Nat.add_sub_cancel_left, Nat.add_sub_cancel_left, List.append_assoc]
    rfl

/-- A painted row has the colours of its pixels. -/
theorem foldl_paint (y : ℕ) {k : ℕ} (hk : k ≤ w) :
    (List.range k).foldl (paint tolerance a b w y) (List.replicate (w * 3) 0) =
      (List.range k).flatMap (fun x => colour tolerance a b w x y) ++ List.replicate ((w - k) * 3) 0 := by
  induction k with
  | zero => rfl
  | succ k ih =>
      have hlen : ((List.range k).flatMap fun x => colour tolerance a b w x y).length = k * 3 := by
        rw [List.length_flatMap]
        simp [length_colour]
      have hzeros : (w - k) * 3 = (w - (k + 1)) * 3 + 3 := by omega
      rw [List.range_succ, List.foldl_append, ih (by omega), hzeros, List.foldl_cons, List.foldl_nil,
        paint_zeros tolerance a b w hlen, List.flatMap_append, List.flatMap_singleton]

variable {tolerance a b w}

theorem index_ok {data : Bytes} {i m : ℕ} (h : index data i = .ok m) : i < data.length ∧ m < 256 := by
  unfold index at h
  split at h
  · cases h
  · rename_i c hc
    cases h
    exact ⟨(List.getElem?_eq_some_iff.mp hc).1, c.isLt⟩

theorem index_error {data : Bytes} {i : ℕ} {e : Failure} (h : index data i = .error e) : e = .indexError := by
  unfold index at h
  split at h
  · cases h
    rfl
  · cases h

theorem delta_ok {i d : ℕ} (h : delta a b i = .ok d) : i < a.length ∧ i < b.length := by
  obtain ⟨m, hm, h⟩ := bind_eq_ok_iff.mp h
  obtain ⟨n, hn, -⟩ := bind_eq_ok_iff.mp h
  exact ⟨(index_ok hm).1, (index_ok hn).1⟩

theorem delta_error {i : ℕ} {e : Failure} (h : delta a b i = .error e) : e = .indexError := by
  obtain h | ⟨m, -, h⟩ := bind_eq_error_iff.mp h
  · exact index_error h
  · obtain h | ⟨n, -, h⟩ := bind_eq_error_iff.mp h
    · exact index_error h
    · cases h

theorem pixel_ok {y x : ℕ} {s s' : Tally × Bytes} (h : pixel tolerance picture a b w y s x = .ok s') :
    y * w * 3 + x * 3 + 2 < a.length ∧ y * w * 3 + x * 3 + 2 < b.length := by
  obtain ⟨d₀, -, h⟩ := bind_eq_ok_iff.mp h
  obtain ⟨d₁, -, h⟩ := bind_eq_ok_iff.mp h
  obtain ⟨d₂, hd₂, -⟩ := bind_eq_ok_iff.mp h
  exact delta_ok hd₂

/-- The grey always fits, so what fails is an index. -/
theorem pixel_error {y x : ℕ} {s : Tally × Bytes} {e : Failure}
    (h : pixel tolerance picture a b w y s x = .error e) : e = .indexError := by
  obtain h | ⟨d₀, -, h⟩ := bind_eq_error_iff.mp h
  · exact delta_error h
  obtain h | ⟨d₁, -, h⟩ := bind_eq_error_iff.mp h
  · exact delta_error h
  obtain h | ⟨d₂, -, h⟩ := bind_eq_error_iff.mp h
  · exact delta_error h
  dsimp only at h
  split at h
  · cases h
  · split at h
    · obtain h | ⟨m, hm, h⟩ := bind_eq_error_iff.mp h
      · exact index_error h
      obtain h | ⟨n, hn, h⟩ := bind_eq_error_iff.mp h
      · exact index_error h
      obtain h | ⟨k, hk, h⟩ := bind_eq_error_iff.mp h
      · exact index_error h
      have hgrey : (m + n + k) / 6 + 40 < 256 := by
        have := (index_ok hm).2
        have := (index_ok hn).2
        have := (index_ok hk).2
        omega
      obtain h | ⟨g, -, h⟩ := bind_eq_error_iff.mp h
      · rw [byte, if_pos hgrey] at h
        cases h
      · cases h
    · cases h

theorem line_error {y : ℕ} {s : Tally × List Bytes} {e : Failure} (h : line tolerance picture a b w s y = .error e) :
    e = .indexError := by
  obtain h | ⟨s', -, h⟩ := bind_eq_error_iff.mp h
  · obtain ⟨x, -, t, ht⟩ := exists_of_foldlM_error h
    exact pixel_error ht
  · cases h

/-- Loops that come to their end have seen the last pixel. -/
theorem lines_ok {s s' : Tally × List Bytes} (hw : 0 < w) (hh : 0 < h)
    (hok : (List.range h).foldlM (line tolerance picture a b w) s = .ok s') :
    w * h * 3 ≤ a.length ∧ w * h * 3 ≤ b.length := by
  obtain ⟨t, t', hline⟩ := exists_of_foldlM_ok hok (h - 1) (List.mem_range.mpr (by omega))
  obtain ⟨s'', hrow, -⟩ := bind_eq_ok_iff.mp hline
  obtain ⟨u, u', hpixel⟩ := exists_of_foldlM_ok hrow (w - 1) (List.mem_range.mpr (by omega))
  have hsize : (h - 1) * w + w = w * h := by
    rw [← Nat.succ_mul, Nat.succ_eq_add_one, Nat.sub_add_cancel hh, Nat.mul_comm]
  have := pixel_ok hpixel
  omega

theorem compare_eq_error (hw : 0 < w) (hh : 0 < h) (hshort : ¬(w * h * 3 ≤ a.length ∧ w * h * 3 ≤ b.length)) :
    compare tolerance picture w h a b = .error .indexError := by
  unfold compare
  rw [if_neg fun hneg => by omega, Int.toNat_natCast, Int.toNat_natCast]
  cases hlines : (List.range h).foldlM (line tolerance picture a b w) (⟨0, 0, w, h, -1, -1⟩, []) with
  | ok s => exact absurd (lines_ok hw hh hlines) hshort
  | error e =>
      obtain ⟨y, -, t, ht⟩ := exists_of_foldlM_error hlines
      rw [line_error ht]
      rfl

theorem ofDiffering_eq (f : ℕ × ℕ → ℤ) : OfDiffering tolerance a b w h f =
    {v | ∃ p ∈ pixels w h, Differs tolerance a b w p.1 p.2 ∧ f p = v} := by
  ext v
  simp only [OfDiffering, differing, Finset.mem_filter, Finset.mem_product, Finset.mem_range, mem_pixels,
    Set.mem_ofPred_eq, and_assoc]

theorem card_differing : (differing tolerance a b w h).card =
    (pixels w h).countP fun p => Differs tolerance a b w p.1 p.2 := by
  have heq : differing tolerance a b w h =
      ((pixels w h).filter fun p => Differs tolerance a b w p.1 p.2).toFinset := by
    ext p
    simp only [differing, Finset.mem_filter, Finset.mem_product, Finset.mem_range, List.mem_toFinset, List.mem_filter,
      mem_pixels, decide_eq_true_eq]
  rw [heq, List.toFinset_card_of_nodup ((nodup_pixels w h).filter _), List.countP_eq_length_filter]

/-- The tally of whole images: its box is that of the pixels that differ, if there are any. -/
theorem tally_area (hne : (differing tolerance a b w h).Nonempty) :
    let t := (pixels w h).foldl (tallyStep tolerance a b w) ⟨0, 0, w, h, -1, -1⟩
    (IsLeast (OfDiffering tolerance a b w h fun p => p.1) t.minx ∧
        IsGreatest (OfDiffering tolerance a b w h fun p => p.1) t.maxx) ∧
      IsLeast (OfDiffering tolerance a b w h fun p => p.2) t.miny ∧
        IsGreatest (OfDiffering tolerance a b w h fun p => p.2) t.maxy := by
  intro t
  obtain ⟨p, hp⟩ := hne
  have hbounds : (p.1 : ℤ) ≤ w ∧ (p.2 : ℤ) ≤ h ∧ (-1 : ℤ) ≤ p.1 ∧ (-1 : ℤ) ≤ p.2 := by
    have hmem := (Finset.mem_filter.mp hp).1
    rw [Finset.mem_product, Finset.mem_range, Finset.mem_range] at hmem
    omega
  obtain ⟨hminx, hminy, hmaxx, hmaxy⟩ := tally_box tolerance a b w (pixels w h) ⟨0, 0, w, h, -1, -1⟩
  simp only [← ofDiffering_eq] at hminx hminy hmaxx hmaxy
  exact ⟨⟨isLeast_of_insert hminx ⟨_, ⟨p, hp, rfl⟩, hbounds.1⟩,
      isGreatest_of_insert hmaxx ⟨_, ⟨p, hp, rfl⟩, hbounds.2.2.1⟩⟩,
    isLeast_of_insert hminy ⟨_, ⟨p, hp, rfl⟩, hbounds.2.1⟩,
    isGreatest_of_insert hmaxy ⟨_, ⟨p, hp, rfl⟩, hbounds.2.2.2⟩⟩

theorem maxx_neg_iff : ((pixels w h).foldl (tallyStep tolerance a b w) ⟨0, 0, w, h, -1, -1⟩).maxx < 0 ↔
    differing tolerance a b w h = ∅ := by
  obtain hempty | hne := (differing tolerance a b w h).eq_empty_or_nonempty
  · have hmaxx := (tally_box tolerance a b w (pixels w h) ⟨0, 0, w, h, -1, -1⟩).2.2.1.1
    simp only [← ofDiffering_eq] at hmaxx
    refine iff_of_true ?_ hempty
    obtain hstart | ⟨p, hp, -⟩ := hmaxx
    · rw [hstart]
      decide
    · rw [hempty] at hp
      exact absurd hp (Finset.notMem_empty p)
  · obtain ⟨p, -, hp⟩ := (tally_area hne).1.2.1
    refine iff_of_false ?_ hne.ne_empty
    rw [← hp]
    exact not_lt.mpr (Int.natCast_nonneg p.1)

theorem tally_greatest (hw : 0 < w) (hh : 0 < h) :
    IsGreatest {d | ∃ x < w, ∃ y < h, distance a b w x y = d}
      ((pixels w h).foldl (tallyStep tolerance a b w) ⟨0, 0, w, h, -1, -1⟩).worst := by
  have hworst := tally_worst tolerance a b w (pixels w h) ⟨0, 0, w, h, -1, -1⟩
  have hset : {d | ∃ p ∈ pixels w h, True ∧ distance a b w p.1 p.2 = d} =
      {d | ∃ x < w, ∃ y < h, distance a b w x y = d} := by
    ext d
    constructor
    · rintro ⟨p, hp, -, hd⟩
      exact ⟨p.1, (mem_pixels.mp hp).1, p.2, (mem_pixels.mp hp).2, hd⟩
    · rintro ⟨x, hx, y, hy, hd⟩
      exact ⟨(x, y), mem_pixels.mpr ⟨hx, hy⟩, trivial, hd⟩
  rw [hset] at hworst
  exact isGreatest_of_insert hworst ⟨_, ⟨0, hw, 0, hh, rfl⟩, Nat.zero_le _⟩

/-- A row that is painted has the colours of its pixels. -/
theorem paint_row (y : ℕ) : (List.range w).foldl (paint tolerance a b w y) (List.replicate (w * 3) 0) =
    (List.range w).flatMap fun x => colour tolerance a b w x y := by
  have hpaint := foldl_paint tolerance a b w y (Nat.le_refl w)
  rwa [Nat.sub_self, Nat.zero_mul, List.replicate_zero, List.append_nil] at hpaint

theorem compare_eq_ok (hw : 0 < w) (hh : 0 < h) (ha : w * h * 3 ≤ a.length) (hb : w * h * 3 ≤ b.length) :
    ∃ r, compare tolerance picture w h a b = .ok r ∧ Describes tolerance a b w h picture r := by
  have hsize : ¬(w : ℤ) * h = 0 := by
    have := Nat.mul_pos hw hh
    omega
  have hcount : ((pixels w h).foldl (tallyStep tolerance a b w) ⟨0, 0, w, h, -1, -1⟩).differing =
      (differing tolerance a b w h).card := by
    rw [tally_differing, card_differing, Nat.zero_add]
  unfold compare
  rw [if_neg fun hneg => by omega, Int.toNat_natCast, Int.toNat_natCast, lines_eq_ok ha hb]
  refine ⟨_, if_neg hsize, ⟨rfl, rfl⟩, hcount, ?_, ?_, ?_, ?_⟩
  · exact tally_greatest hw hh
  · dsimp only
    rw [← maxx_neg_iff]
    split <;> simp_all
  · intro x₀ y₀ width height harea
    dsimp only at harea
    split at harea
    · cases harea
    · rename_i hmaxx
      rw [maxx_neg_iff, ← ne_eq, ← Finset.nonempty_iff_ne_empty] at hmaxx
      cases harea
      have hside : ∀ least greatest : ℤ, least + (greatest - least + 1) - 1 = greatest := fun _ _ => by omega
      simpa only [hside] using tally_area hmaxx
  · dsimp only
    simp only [hcount, ne_eq, Finset.card_eq_zero]
    cases picture with
    | false => simp
    | true => simp only [paint_row, if_true]

/-- Two files of one size are compared pixel by pixel if they are whole, and if one is cut off nothing is said. -/
theorem main_spec {aPath bPath : Str} {aData bData : Bytes} (hw : 0 < w) (hh : 0 < h)
    (ha : readPpm aPath aData = .ok (w, h, a)) (hb : readPpm bPath bData = .ok (w, h, b)) :
    if w * h * 3 ≤ a.length ∧ w * h * 3 ≤ b.length then
      ∃ r, main tolerance picture aPath bPath aData bData = .ok r ∧ Describes tolerance a b w h picture r
    else main tolerance picture aPath bPath aData bData = .error .indexError := by
  have hmain : main tolerance picture aPath bPath aData bData = compare tolerance picture w h a b := by
    rw [main, ha, hb]
    exact if_neg (not_not.mpr rfl)
  rw [hmain]
  split
  · rename_i hwhole
    exact compare_eq_ok hw hh hwhole.1 hwhole.2
  · rename_i hshort
    exact compare_eq_error hw hh hshort

end

/-- Two pixels, the second of them other in the second file, which has a comment in its header. -/
theorem main_spec_two :
    if 2 * 1 * 3 ≤ ([10, 10, 10, 10, 10, 10] : Bytes).length ∧
        2 * 1 * 3 ≤ ([10, 10, 10, 90, 10, 10] : Bytes).length then
      ∃ r, main 4 true ['a'] ['b']
          [0x50, 0x36, 0x0a, 0x32, 0x20, 0x31, 0x0a, 0x32, 0x35, 0x35, 0x0a, 10, 10, 10, 10, 10, 10]
          [0x50, 0x36, 0x20, 0x23, 0x78, 0x0a, 0x32, 0x20, 0x31, 0x20, 0x32, 0x35, 0x35, 0x0a, 10, 10, 10, 90, 10, 10] =
          .ok r ∧
        Describes 4 [10, 10, 10, 10, 10, 10] [10, 10, 10, 90, 10, 10] 2 1 true r
    else main 4 true ['a'] ['b']
        [0x50, 0x36, 0x0a, 0x32, 0x20, 0x31, 0x0a, 0x32, 0x35, 0x35, 0x0a, 10, 10, 10, 10, 10, 10]
        [0x50, 0x36, 0x20, 0x23, 0x78, 0x0a, 0x32, 0x20, 0x31, 0x20, 0x32, 0x35, 0x35, 0x0a, 10, 10, 10, 90, 10, 10] =
        .error .indexError :=
  main_spec (by decide) (by decide) (by decide) (by decide)

end Sirius.CompareFrames
