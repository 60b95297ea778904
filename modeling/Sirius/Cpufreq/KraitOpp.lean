import Mathlib.Data.Int.Order.Basic
import Mathlib.Data.List.Sort
import Sirius.Lib.Dict
import Sirius.Lib.PyText

/-!
# The OPP table of the Krait CPUs, drivers/cpufreq/gen-krait-opp.py

`parse` collects the factory tables of a stock device tree, a voltage for each frequency and bin, and `emit` writes an
OPP for each frequency. What Python takes for a space or a digit beyond ASCII is a parameter.
-/
namespace Sirius.KraitOpp

open Dict PyText

section
variable (u : Unicode)

def hexDigit (c : Char) : Option ℕ :=
  if 'a' ≤ c ∧ c ≤ 'f' then some (c.toNat - 'a'.toNat + 10)
  else if 'A' ≤ c ∧ c ≤ 'F' then some (c.toNat - 'A'.toNat + 10)
  else digit u c

/-- The digits of an integer in base 16 behind its first one; a single underscore may stand between two. -/
def hexRest (n : ℕ) : Str → Option ℕ
  | [] => some n
  | '_' :: c :: s => (hexDigit u c).bind fun d => hexRest (16 * n + d) s
  | c :: s => (hexDigit u c).bind fun d => hexRest (16 * n + d) s

def hexDigits : Str → Option ℕ
  | [] => none
  | c :: s => (hexDigit u c).bind fun d => hexRest u d s

def skipUnderscore : Str → Str
  | '_' :: s => s
  | s => s

/-- `int(v, 16)` without its sign. -/
def magnitude : Str → Option ℕ
  | z :: x :: s =>
      if digit u z = some 0 ∧ (x = 'x' ∨ x = 'X') then hexDigits u (skipUnderscore s) else hexDigits u (z :: x :: s)
  | s => hexDigits u s

def int16 : Str → Option ℤ
  | '-' :: s => (magnitude u s).map fun n => -(n : ℤ)
  | '+' :: s => (magnitude u s).map fun n => (n : ℤ)
  | s => (magnitude u s).map fun n => (n : ℤ)

/-- `\d+` with its value. -/
def digits (s : Str) : Option (ℕ × Str) :=
  (many1 (fun c => (digit u c).isSome) s).map fun r =>
    ((r.1.filterMap (digit u)).foldl (fun n d => 10 * n + d) 0, r.2)

structure Match where
  speed : ℕ
  pvs : ℕ
  ver : ℕ
  values : Str
  deriving DecidableEq, Repr

/-- `PROP` at the start of a text, and what is behind the match. -/
def matchProp (s : Str) : Option (Match × Str) := do
  let s ← lit "qcom,speed".toList s
  let (speed, s) ← digits u s
  let s ← lit "-pvs".toList s
  let (pvs, s) ← digits u s
  let s ← lit "-bin-v".toList s
  let (ver, s) ← digits u s
  let s ← lit ['='] (s.dropWhile (isSpace u))
  let s ← lit ['<'] (s.dropWhile (isSpace u))
  let values := s.takeWhile (· ≠ '>')
  let s ← lit ['>'] (s.dropWhile (· ≠ '>'))
  return ({ speed, pvs, ver, values }, s)

end

def VMAX : ℤ := 1120000

structure Bin where
  speed : ℕ
  pvs : ℕ
  ver : ℕ
  deriving DecidableEq, Repr

/-- A factory table: its bin, and its rows of frequency, voltage and current. -/
structure Factory where
  bin : Bin
  rows : List (ℤ × ℤ × ℤ)
  deriving DecidableEq, Repr

/-- How `parse` gives up: `sys.exit` with its text, or what `int` raises. -/
inductive Error
  | exit (text : Str)
  | valueError
  deriving DecidableEq, Repr

def decimal (n : ℕ) : Str := Nat.toDigits 10 n

def integer (n : ℤ) : Str := if n < 0 then '-' :: decimal n.natAbs else decimal n.natAbs

def triplets : List ℤ → List (ℤ × ℤ × ℤ)
  | hz :: uv :: ma :: vals => (hz, uv, ma) :: triplets vals
  | _ => []

def binName (b : Bin) : Str :=
  "speed".toList ++ decimal b.speed ++ "-pvs".toList ++ decimal b.pvs ++ "-v".toList ++ decimal b.ver

/-- What one match gives. -/
def readMatch (u : Unicode) (m : Match) : Except Error Factory := do
  let bin : Bin := { speed := m.speed, pvs := m.pvs, ver := m.ver }
  match (split u m.values).mapM (int16 u) with
  | none => throw .valueError
  | some vals =>
      if vals.length % 3 ≠ 0 then
        throw (.exit (binName bin ++ ": ".toList ++ decimal vals.length ++ " values, not a multiple of 3".toList))
      else return { bin, rows := triplets vals }

/-- The factory tables of a text, in its order: `PROP.finditer(text)` and what each match gives. -/
def factories (u : Unicode) (text : Str) : Except Error (List Factory) :=
  (finditer (matchProp u) 0 text).mapM (readMatch u)

structure Parsed where
  table : Table ℤ (Table Bin ℤ)
  speeds : Table ℕ (List ℤ)
  bins : List Bin

/-- `table[hz][b] = uv`, where an entry that is missing is an empty one. -/
def setVoltage (table : Table ℤ (Table Bin ℤ)) (hz : ℤ) (b : Bin) (uv : ℤ) : Table ℤ (Table Bin ℤ) :=
  setItem table hz (setItem ((table.lookup hz).getD ∅) b uv)

def addRow (b : Bin) (t : Parsed) (row : ℤ × ℤ × ℤ) : Parsed :=
  if row.1 = 0 then t
  else
    { t with
      table := setVoltage t.table row.1 b row.2.1
      speeds := setItem t.speeds b.speed (((t.speeds.lookup b.speed).getD []).insert row.1) }

def addFactory (t : Parsed) (f : Factory) : Parsed := f.rows.foldl (addRow f.bin) { t with bins := t.bins.insert f.bin }

def build (fs : List Factory) : Parsed := fs.foldl addFactory { table := ∅, speeds := ∅, bins := [] }

/-- A match is read before anything of it is kept, and a text that cannot be read leaves nothing. -/
def parse (u : Unicode) (text : Str) : Except Error Parsed := do
  let fs ← factories u text
  return build fs

/-- An `opp-microvolt` property: target, minimum and maximum. -/
structure Window where
  bin : Bin
  target : ℤ
  min : ℤ
  max : ℤ
  deriving DecidableEq, Repr

structure Opp where
  hz : ℤ
  supportedHw : ℕ
  microvolts : List Window
  disabled : Bool
  deriving DecidableEq, Repr

def binLe (a b : Bin) : Bool :=
  a.speed < b.speed || (a.speed == b.speed && (a.pvs < b.pvs || (a.pvs == b.pvs && a.ver ≤ b.ver)))

def speedMask (bins : List Bin) : ℕ := bins.foldl (fun mask b => mask ||| 1 <<< b.speed) 0

def opp (capHz hz : ℤ) (voltages : Table Bin ℤ) : Opp where
  hz := hz
  supportedHw := speedMask voltages.keys
  microvolts :=
    (voltages.entries.mergeSort fun e e' => binLe e.1 e'.1).map fun e =>
      { bin := e.1, target := e.2, min := e.2, max := VMAX }
  disabled := decide (hz > capHz)

def opps (table : Table ℤ (Table Bin ℤ)) (capHz : ℤ) : List Opp :=
  (table.keys.mergeSort fun hz hz' => decide (hz ≤ hz')).map fun hz => opp capHz hz ((table.lookup hz).getD ∅)

def hex (n : ℕ) : Str := Nat.toDigits 16 n

def windowLine (w : Window) : Str :=
  "\t\t\topp-microvolt-".toList ++ binName w.bin ++ " = <".toList ++
    integer w.target ++ [' '] ++ integer w.min ++ [' '] ++ integer w.max ++ ">;".toList

example : windowLine ⟨⟨0, 1, 0⟩, 800000, 800000, VMAX⟩ =
    "\t\t\topp-microvolt-speed0-pvs1-v0 = <800000 800000 1120000>;".toList := by
  decide +kernel

def oppLines (o : Opp) : List Str :=
  ["\t\topp-".toList ++ integer o.hz ++ " \x7b".toList,
    "\t\t\topp-hz = /bits/ 64 <".toList ++ integer o.hz ++ ">;".toList,
    "\t\t\topp-supported-hw = <0x".toList ++ hex o.supportedHw ++ ">;".toList] ++
  o.microvolts.map windowLine ++
  (if o.disabled then ["\t\t\tstatus = \"disabled\";\t/* above the safe rail cap */".toList] else []) ++
  ["\t\t\x7d;".toList, []]

def emitHead : List Str :=
  ["/ \x7b",
    "\tcpu_opp_table: opp-table-cpu \x7b",
    "\t\tcompatible = \"operating-points-v2-krait-cpu\";",
    "\t\tnvmem-cells = <&speedbin_efuse>;",
    ""].map String.toList

def emit (table : Table ℤ (Table Bin ℤ)) (capHz : ℤ) : Str :=
  ['\n'].intercalate (emitHead ++ (opps table capHz).flatMap oppLines ++ ["\t\x7d;".toList, "\x7d;".toList])

/-- The voltages that a list of factory tables gives, in their order. -/
def given (fs : List Factory) : List ((ℤ × Bin) × ℤ) :=
  fs.flatMap fun f => (f.rows.filter fun row => row.1 ≠ 0).map fun row => ((row.1, f.bin), row.2.1)

def voltage (table : Table ℤ (Table Bin ℤ)) (k : ℤ × Bin) : Option ℤ := (table.lookup k.1).bind fun d => d.lookup k.2

theorem voltage_setVoltage (table : Table ℤ (Table Bin ℤ)) (hz : ℤ) (b : Bin) (uv : ℤ) (k : ℤ × Bin) :
    voltage (setVoltage table hz b uv) k = if k = (hz, b) then some uv else voltage table k := by
  obtain ⟨hz', b'⟩ := k
  rw [voltage, setVoltage]
  by_cases hhz : hz' = hz
  · subst hhz
    rw [lookup_setItem_self, Option.bind_some]
    by_cases hb : b' = b
    · rw [hb, lookup_setItem_self, if_pos rfl]
    · rw [lookup_setItem_ne _ _ hb, if_neg fun h => hb (Prod.mk.inj h).2, voltage]
      cases table.lookup hz' with
      | none => exact AList.lookup_empty b'
      | some d => rfl
  · rw [lookup_setItem_ne _ _ hhz, if_neg fun h => hhz (Prod.mk.inj h).1, voltage]

/-- The nested table holds what one table with both keys would. -/
theorem voltage_addRows (b : Bin) (rows : List (ℤ × ℤ × ℤ)) (t : Parsed) (flat : Table (ℤ × Bin) ℤ)
    (h : ∀ k, voltage t.table k = flat.lookup k) (k : ℤ × Bin) :
    voltage (rows.foldl (addRow b) t).table k =
      (assign flat ((rows.filter fun row => row.1 ≠ 0).map fun row => ((row.1, b), row.2.1))).lookup k := by
  induction rows generalizing t flat with
  | nil => exact h k
  | cons row rows ih =>
      rw [List.foldl_cons]
      by_cases hz : row.1 = 0
      · rw [List.filter_cons_of_neg (by simpa using hz), addRow, if_pos hz]
        exact ih t flat h
      · rw [List.filter_cons_of_pos (by simpa using hz), List.map_cons, assign_cons]
        refine ih _ _ fun j => ?_
        rw [addRow, if_neg hz, voltage_setVoltage, h]
        split
        · rw [‹j = _›, lookup_setItem_self]
        · rw [lookup_setItem_ne _ _ ‹_›]

theorem voltage_addFactories (fs : List Factory) (t : Parsed) (flat : Table (ℤ × Bin) ℤ)
    (h : ∀ k, voltage t.table k = flat.lookup k) (k : ℤ × Bin) :
    voltage (fs.foldl addFactory t).table k = (assign flat (given fs)).lookup k := by
  induction fs generalizing t flat with
  | nil => exact h k
  | cons f fs ih =>
      rw [List.foldl_cons, given, List.flatMap_cons, assign, List.foldl_append]
      exact ih _ _ fun j => voltage_addRows f.bin f.rows { t with bins := t.bins.insert f.bin } flat h j

theorem bins_addRows (b : Bin) (rows : List (ℤ × ℤ × ℤ)) (t : Parsed) : (rows.foldl (addRow b) t).bins = t.bins := by
  induction rows generalizing t with
  | nil => rfl
  | cons row rows ih =>
      rw [List.foldl_cons, ih, addRow]
      split <;> rfl

theorem mem_bins_addFactories (fs : List Factory) (t : Parsed) (b : Bin) :
    b ∈ (fs.foldl addFactory t).bins ↔ b ∈ t.bins ∨ ∃ f ∈ fs, f.bin = b := by
  induction fs generalizing t with
  | nil => simp
  | cons f fs ih =>
      rw [List.foldl_cons, ih, addFactory, bins_addRows, List.mem_insert_iff, List.exists_mem_cons_iff,
        or_comm (a := b = _), or_assoc, eq_comm (a := b)]

theorem voltage_build (fs : List Factory) (k : ℤ × Bin) : voltage (build fs).table k = (ofList (given fs)).lookup k :=
  voltage_addFactories fs _ ∅ (fun _ => rfl) k

theorem mem_bins_build (fs : List Factory) (b : Bin) : b ∈ (build fs).bins ↔ ∃ f ∈ fs, f.bin = b := by
  rw [build, mem_bins_addFactories]
  simp

theorem testBit_speedMask (bins : List Bin) (mask s : ℕ) :
    (bins.foldl (fun mask b => mask ||| 1 <<< b.speed) mask).testBit s ↔ mask.testBit s ∨ ∃ b ∈ bins, b.speed = s := by
  induction bins generalizing mask with
  | nil => simp
  | cons b bins ih =>
      rw [List.foldl_cons, ih, Nat.testBit_or, Nat.one_shiftLeft, Nat.testBit_two_pow, List.exists_mem_cons_iff]
      simp only [Bool.or_eq_true, decide_eq_true_eq]
      rw [or_assoc]

section
variable {table : Table ℤ (Table Bin ℤ)} {capHz : ℤ}

theorem mem_opps {o : Opp} : o ∈ opps table capHz ↔ ∃ hz d, table.lookup hz = some d ∧ o = opp capHz hz d := by
  simp only [opps, List.mem_map, List.mem_mergeSort]
  constructor
  · rintro ⟨hz, hmem, rfl⟩
    obtain ⟨d, hd⟩ := mem_iff_lookup.mp (AList.mem_keys.mpr hmem)
    exact ⟨hz, d, hd, by rw [hd]; rfl⟩
  · rintro ⟨hz, d, hd, rfl⟩
    exact ⟨hz, AList.mem_keys.mp (mem_iff_lookup.mpr ⟨d, hd⟩), by rw [hd]; rfl⟩

theorem mem_microvolts {d : Table Bin ℤ} {hz : ℤ} {w : Window} :
    w ∈ (opp capHz hz d).microvolts ↔ d.lookup w.bin = some w.target ∧ w.min = w.target ∧ w.max = VMAX := by
  simp only [opp, List.mem_map, List.mem_mergeSort]
  constructor
  · rintro ⟨e, he, rfl⟩
    exact ⟨mem_entries.mp he, rfl, rfl⟩
  · rintro ⟨hlookup, hmin, hmax⟩
    refine ⟨⟨w.bin, w.target⟩, mem_entries.mpr hlookup, ?_⟩
    obtain ⟨b, target, min, max⟩ := w
    cases hmin
    cases hmax
    rfl

theorem opp_windows {o : Opp} (h : o ∈ opps table capHz) (w : Window) :
    w ∈ o.microvolts ↔ voltage table (o.hz, w.bin) = some w.target ∧ w.min = w.target ∧ w.max = VMAX := by
  obtain ⟨hz, d, hd, rfl⟩ := mem_opps.mp h
  rw [mem_microvolts, voltage, show (opp capHz hz d).hz = hz from rfl, hd, Option.bind_some]

theorem opp_of_voltage (capHz : ℤ) {hz : ℤ} {b : Bin} {uv : ℤ} (h : voltage table (hz, b) = some uv) :
    ∃ o ∈ opps table capHz, o.hz = hz := by
  obtain ⟨d, hd, -⟩ := Option.bind_eq_some_iff.mp h
  exact ⟨opp capHz hz d, mem_opps.mpr ⟨hz, d, hd, rfl⟩, rfl⟩

theorem opp_disabled {o : Opp} (h : o ∈ opps table capHz) : o.disabled = false ↔ o.hz ≤ capHz := by
  obtain ⟨hz, d, -, rfl⟩ := mem_opps.mp h
  simp [opp]

theorem opp_supportedHw {o : Opp} (h : o ∈ opps table capHz) (s : ℕ) :
    o.supportedHw.testBit s ↔ ∃ b uv, voltage table (o.hz, b) = some uv ∧ b.speed = s := by
  obtain ⟨hz, d, hd, rfl⟩ := mem_opps.mp h
  simp only [opp, speedMask, testBit_speedMask, Nat.zero_testBit, Bool.false_eq_true, false_or, voltage, hd,
    Option.bind_some]
  constructor
  · rintro ⟨b, hb, hs⟩
    obtain ⟨uv, huv⟩ := mem_iff_lookup.mp (AList.mem_keys.mpr hb)
    exact ⟨b, uv, huv, hs⟩
  · rintro ⟨b, uv, huv, hs⟩
    exact ⟨b, AList.mem_keys.mp (mem_iff_lookup.mpr ⟨uv, huv⟩), hs⟩

end

/-- A row of the input: a frequency that is not zero, its bin and its voltage. -/
def Given (fs : List Factory) (hz : ℤ) (b : Bin) (uv : ℤ) : Prop :=
  hz ≠ 0 ∧ ∃ f ∈ fs, f.bin = b ∧ ∃ ma, (hz, uv, ma) ∈ f.rows

theorem mem_given {fs : List Factory} {hz uv : ℤ} {b : Bin} : ((hz, b), uv) ∈ given fs ↔ Given fs hz b uv := by
  simp only [given, List.mem_flatMap, List.mem_map, List.mem_filter, decide_eq_true_eq, Given]
  constructor
  · rintro ⟨f, hf, ⟨hz, uv, ma⟩, ⟨hrow, hne⟩, heq⟩
    cases heq
    exact ⟨hne, f, hf, rfl, ma, hrow⟩
  · rintro ⟨hne, f, hf, rfl, ma, hrow⟩
    exact ⟨f, hf, (hz, uv, ma), ⟨hrow, hne⟩, rfl⟩

/-- The OPPs of a parsed table, against the rows it was parsed from. -/
structure UsableOpps (fs : List Factory) (p : Parsed) (capHz : ℤ) : Prop where
  exact : ∀ o ∈ opps p.table capHz, ∀ b uv, (∃ w ∈ o.microvolts, w.bin = b ∧ w.target = uv) ↔ Given fs o.hz b uv
  covered : ∀ o ∈ opps p.table capHz, o.disabled = false → ∀ b ∈ p.bins,
    o.supportedHw.testBit b.speed → ∃ w ∈ o.microvolts, w.bin = b
  ordered : ∀ o ∈ opps p.table capHz, ∀ w ∈ o.microvolts, w.target ≤ w.max
  common : ∀ request : Fin 4 → Window, (∀ cpu, ∃ o ∈ opps p.table capHz, request cpu ∈ o.microvolts) →
    ∃ uv, ∀ cpu, (request cpu).min ≤ uv ∧ uv ≤ (request cpu).max

/-- The input itself: one voltage for a bin and a frequency, no bin that leaves out an enabled frequency of its speed,
and no voltage above the regulator's. -/
structure Consistent (fs : List Factory) (capHz : ℤ) : Prop where
  single : ∀ hz b uv uv', Given fs hz b uv → Given fs hz b uv' → uv = uv'
  complete : ∀ hz b uv, hz ≤ capHz → Given fs hz b uv →
    ∀ f ∈ fs, f.bin.speed = b.speed → ∃ uv', Given fs hz f.bin uv'
  below : ∀ hz b uv, Given fs hz b uv → uv ≤ VMAX

section
variable {fs : List Factory} {capHz : ℤ}

theorem given_of_voltage {hz uv : ℤ} {b : Bin} (h : voltage (build fs).table (hz, b) = some uv) : Given fs hz b uv := by
  rw [voltage_build] at h
  exact mem_given.mp (mem_of_lookup_ofList h)

theorem voltage_of_given {hz uv : ℤ} {b : Bin} (h : Given fs hz b uv) :
    ∃ w, voltage (build fs).table (hz, b) = some w := by
  simp only [voltage_build]
  exact exists_lookup_ofList (mem_given.mpr h)

/-- With one voltage each, nothing is overwritten. -/
theorem voltage_iff (hsingle : ∀ hz b uv uv', Given fs hz b uv → Given fs hz b uv' → uv = uv') {hz uv : ℤ} {b : Bin} :
    voltage (build fs).table (hz, b) = some uv ↔ Given fs hz b uv := by
  refine ⟨given_of_voltage, fun h => ?_⟩
  obtain ⟨w, hw⟩ := voltage_of_given h
  rw [hw, hsingle hz b uv w h (given_of_voltage hw)]

theorem window_given {o : Opp} {w : Window} (ho : o ∈ opps (build fs).table capHz) (hw : w ∈ o.microvolts) :
    Given fs o.hz w.bin w.target ∧ w.min = w.target ∧ w.max = VMAX := by
  obtain ⟨hvoltage, hmin, hmax⟩ := (opp_windows ho w).mp hw
  exact ⟨given_of_voltage hvoltage, hmin, hmax⟩

theorem window_of_given {o : Opp} {b : Bin} {uv : ℤ}
    (hsingle : ∀ hz b uv uv', Given fs hz b uv → Given fs hz b uv' → uv = uv')
    (ho : o ∈ opps (build fs).table capHz) (h : Given fs o.hz b uv) :
    (⟨b, uv, uv, VMAX⟩ : Window) ∈ o.microvolts :=
  (opp_windows ho _).mpr ⟨(voltage_iff hsingle).mpr h, rfl, rfl⟩

theorem opp_of_given (capHz : ℤ) {hz uv : ℤ} {b : Bin} (h : Given fs hz b uv) :
    ∃ o ∈ opps (build fs).table capHz, o.hz = hz ∧ o.supportedHw.testBit b.speed := by
  obtain ⟨v, hv⟩ := voltage_of_given h
  obtain ⟨o, ho, rfl⟩ := opp_of_voltage capHz hv
  exact ⟨o, ho, rfl, (opp_supportedHw ho b.speed).mpr ⟨b, v, hv, rfl⟩⟩

theorem usable_of_consistent (h : Consistent fs capHz) : UsableOpps fs (build fs) capHz := by
  constructor
  case exact =>
    intro o ho b uv
    constructor
    · rintro ⟨w, hw, rfl, rfl⟩
      exact (window_given ho hw).1
    · intro hgiven
      exact ⟨_, window_of_given h.single ho hgiven, rfl, rfl⟩
  case covered =>
    intro o ho henabled b hb hbit
    obtain ⟨b', uv', hv', hspeed⟩ := (opp_supportedHw ho b.speed).mp hbit
    obtain ⟨f, hf, rfl⟩ := (mem_bins_build fs b).mp hb
    obtain ⟨uv, hgiven⟩ :=
      h.complete o.hz b' uv' ((opp_disabled ho).mp henabled) (given_of_voltage hv') f hf hspeed.symm
    exact ⟨_, window_of_given h.single ho hgiven, rfl⟩
  case ordered =>
    intro o ho w hw
    obtain ⟨hgiven, -, hmax⟩ := window_given ho hw
    rw [hmax]
    exact h.below _ _ _ hgiven
  case common =>
    -- the upper end is the same in all windows
    intro request hrequest
    refine ⟨VMAX, fun cpu => ?_⟩
    obtain ⟨o, ho, hw⟩ := hrequest cpu
    obtain ⟨hgiven, hmin, hmax⟩ := window_given ho hw
    rw [hmin, hmax]
    exact ⟨h.below _ _ _ hgiven, le_refl VMAX⟩

theorem consistent_of_usable (h : UsableOpps fs (build fs) capHz) : Consistent fs capHz := by
  constructor
  case single =>
    intro hz b uv uv' hgiven hgiven'
    obtain ⟨o, ho, rfl, -⟩ := opp_of_given capHz hgiven
    obtain ⟨w, hw, rfl, rfl⟩ := (h.exact o ho b uv).mpr hgiven
    obtain ⟨w', hw', hbin, rfl⟩ := (h.exact o ho w.bin uv').mpr hgiven'
    have hvw := ((opp_windows ho w).mp hw).1
    have hvw' := ((opp_windows ho w').mp hw').1
    rw [hbin] at hvw'
    exact Option.some_inj.mp (hvw.symm.trans hvw')
  case complete =>
    intro hz b uv hcap hgiven f hf hspeed
    obtain ⟨o, ho, rfl, hbit⟩ := opp_of_given capHz hgiven
    rw [← hspeed] at hbit
    obtain ⟨w, hw, hbin⟩ :=
      h.covered o ho ((opp_disabled ho).mpr hcap) f.bin ((mem_bins_build fs _).mpr ⟨f, hf, rfl⟩) hbit
    rw [← hbin]
    exact ⟨w.target, (window_given ho hw).1⟩
  case below =>
    intro hz b uv hgiven
    obtain ⟨o, ho, rfl, -⟩ := opp_of_given capHz hgiven
    obtain ⟨w, hw, -, rfl⟩ := (h.exact o ho b uv).mpr hgiven
    obtain ⟨-, -, hmax⟩ := window_given ho hw
    rw [← hmax]
    exact h.ordered o ho w hw

end

/-- What `parse` makes of a text it accepts gives a table usable on every bin. -/
def Usable (u : Unicode) (text : Str) (capHz : ℤ) : Prop :=
  ∀ fs p, factories u text = .ok fs → parse u text = .ok p → UsableOpps fs p capHz

/-- The generated table is usable exactly when the factory tables agree with each other and with the regulator. -/
theorem generated_usable_iff (u : Unicode) (text : Str) (capHz : ℤ) :
    Usable u text capHz ↔ ∀ fs, factories u text = .ok fs → Consistent fs capHz := by
  have hparse : ∀ fs, factories u text = .ok fs → parse u text = .ok (build fs) := by
    intro fs hfs
    rw [parse, hfs]
    rfl
  constructor
  · intro h fs hfs
    exact consistent_of_usable (h fs _ hfs (hparse fs hfs))
  · intro h fs p hfs hp
    rw [hparse fs hfs] at hp
    cases hp
    exact usable_of_consistent (h fs hfs)

/-- Two process bins of one speed, with a frequency each. -/
def unevenText : Str :=
  ("qcom,speed0-pvs0-bin-v0 = < 0x11e1a300 0xc6f98 0x49 >;\n" ++
    "qcom,speed0-pvs1-bin-v0 = < 0x16e36000 0xc6f98 0x5b >;").toList

def unevenFactories : List Factory :=
  [⟨⟨0, 0, 0⟩, [(300000000, 815000, 73)]⟩, ⟨⟨0, 1, 0⟩, [(384000000, 815000, 91)]⟩]

theorem uneven_factories : factories ascii unevenText = .ok unevenFactories := by
  decide +kernel

/-- In each of the two OPPs the other bin has the bit of its speed set and no voltage. -/
theorem uneven_not_usable : ¬ Usable ascii unevenText 576000000 := by
  intro h
  have hparse : parse ascii unevenText = .ok (build unevenFactories) := by
    rw [parse, uneven_factories]
    rfl
  have hconsistent := consistent_of_usable (h _ _ uneven_factories hparse)
  obtain ⟨uv, -, f, hf, hbin, ma, hrow⟩ := hconsistent.complete 300000000 ⟨0, 0, 0⟩ 815000 (by decide)
    ⟨by decide, _, List.mem_cons_self, rfl, 73, List.mem_cons_self⟩ _ (List.mem_cons_of_mem _ List.mem_cons_self) rfl
  simp only [unevenFactories, List.mem_cons, List.not_mem_nil, or_false] at hf
  rcases hf with rfl | rfl
  · cases hbin
  · simp at hrow

end Sirius.KraitOpp
