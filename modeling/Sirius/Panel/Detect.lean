import Mathlib.Data.List.Basic
import Sirius.Lib.Scan
import Sirius.Panel.Model

/-!
# Which panel: sirius_panel_detect

The boot loader names the panel on the kernel command line by a measured voltage. The driver searches the command line
for the text `lcdid_adc=` and scans what follows; a command line is a list of parameters.
-/
namespace Sirius.Panel
open Scan

def ENODEV : ℤ := 19

def SIRIUS_LCD_ID_ADC_SCALE : ℕ := 3

def adcKey : List Char := "lcdid_adc=".toList

/-- `enum sirius_variant` after SIRIUS_AUTO. -/
def variants : List Variant := [.renesasSharp, .renesasAuo, .renesasJdi, .novatekJdi]

/-- `uv`, for what `%i` has read. -/
def microvolts (val : ℤ) : ℕ := (BitVec.ofInt 32 val * BitVec.ofNat 32 SIRIUS_LCD_ID_ADC_SCALE).toNat

/-- The loop of `sirius_panel_detect`. -/
def variantOf (uv : ℕ) : Except ℤ Variant :=
  match variants.find? fun v => uv ≥ (siriusPanels v).lcdIdAdcMin ∧ uv ≤ (siriusPanels v).lcdIdAdcMax with
  | some v => .ok v
  | none => .error (-ENODEV)

/-- `sirius_panel_detect`, on what of_property_read_string gives for /chosen where that node exists. -/
def siriusPanelDetect (chosen : Option (Except ℤ (List Char))) : Except ℤ Variant :=
  match chosen with
  | none => .error (-ENODEV)
  | some (.error ret) => .error ret
  | some (.ok bootargs) =>
      match strstr adcKey bootargs with
      | none => .error (-ENODEV)
      | some p =>
          match scanInteger 0 true none (p.drop adcKey.length) with
          | none => .error (-ENODEV)
          | some adc => variantOf (microvolts adc)

/-- The number that a parameter gives for the voltage. -/
def paramNumber (p : List Char) : Option ℤ :=
  if adcKey.isPrefixOf p then intLiteral (p.drop adcKey.length) else none

/-- The first parameter `lcdid_adc=n` of a command line. -/
def adcParam (bootargs : List Char) : Option ℤ := (bootargs.splitOn ' ').findSome? paramNumber

def InRange (V : Variant) (uv : ℤ) : Prop := (siriusPanels V).lcdIdAdcMin ≤ uv ∧ uv ≤ (siriusPanels V).lcdIdAdcMax

instance (V : Variant) (uv : ℤ) : Decidable (InRange V uv) := inferInstanceAs (Decidable (_ ∧ _))

/-- Detection answers with the variant that the first parameter's number is in the range of. -/
def Detects (bootargs : List Char) : Prop :=
  ∀ V, siriusPanelDetect (some (.ok bootargs)) = .ok V ↔
    ∃ n, adcParam bootargs = some n ∧ InRange V (SIRIUS_LCD_ID_ADC_SCALE * n)

/-- The text `lcdid_adc=` is first found where a parameter begins, and the parameter gives the number n. -/
def FoundAt (bootargs : List Char) (n : ℤ) : Prop :=
  ∃ front rest, bootargs = front ++ (adcKey ++ rest) ∧ strstr adcKey bootargs = some (adcKey ++ rest) ∧
    (front = [] ∨ ∃ before, front = before ++ [' ']) ∧ intLiteral (rest.takeWhile (· ≠ ' ')) = some n

/-- In 32 bits the number is in no range that it is not in. -/
def NoWrap (n : ℤ) : Prop :=
  ∀ V, InRange V (SIRIUS_LCD_ID_ADC_SCALE * n % 2 ^ 32) →
    SIRIUS_LCD_ID_ADC_SCALE * n % 2 ^ 32 = SIRIUS_LCD_ID_ADC_SCALE * n

/-- The number that follows the first `lcdid_adc=`, wherever that is. -/
def scannedNumber (bootargs : List Char) : Option ℤ :=
  (strstr adcKey bootargs).bind fun p => scanInteger 0 true none (p.drop adcKey.length)

/-- What is scanned, in 32 bits, is in the same range as the first parameter's number, or neither is in any. -/
def SameRange (bootargs : List Char) : Prop :=
  ∀ V, (∃ m, scannedNumber bootargs = some m ∧ InRange V (SIRIUS_LCD_ID_ADC_SCALE * m % 2 ^ 32)) ↔
    ∃ n, adcParam bootargs = some n ∧ InRange V (SIRIUS_LCD_ID_ADC_SCALE * n)

theorem eq_of_inRange {V W : Variant} {uv : ℤ} (hV : InRange V uv) (hW : InRange W uv) : V = W := by
  obtain ⟨hV₁, hV₂⟩ := hV
  obtain ⟨hW₁, hW₂⟩ := hW
  cases V <;> cases W <;> first | rfl | (simp only [siriusPanels] at hV₁ hV₂ hW₁ hW₂; omega)

theorem microvolts_eq (m : ℤ) : (microvolts m : ℤ) = SIRIUS_LCD_ID_ADC_SCALE * m % 2 ^ 32 := by
  have hofInt : ((BitVec.ofInt 32 m).toNat : ℤ) = m % 2 ^ 32 := by
    rw [BitVec.toNat_ofInt, Int.toNat_of_nonneg (Int.emod_nonneg _ (by decide))]
    rfl
  rw [microvolts, BitVec.toNat_mul, Int.natCast_emod, Int.natCast_mul, hofInt, BitVec.toNat_ofNat]
  unfold SIRIUS_LCD_ID_ADC_SCALE
  omega

theorem mem_variants (V : Variant) : V ∈ variants := by
  cases V <;> decide

theorem variantOf_iff {uv : ℕ} {V : Variant} : variantOf uv = .ok V ↔ InRange V uv := by
  have hspec : ∀ W, variants.find? (fun v => decide (uv ≥ (siriusPanels v).lcdIdAdcMin ∧
      uv ≤ (siriusPanels v).lcdIdAdcMax)) = some W → InRange W uv := by
    intro W hW
    have hin : uv ≥ (siriusPanels W).lcdIdAdcMin ∧ uv ≤ (siriusPanels W).lcdIdAdcMax := by
      simpa only [decide_eq_true_eq] using List.find?_some hW
    exact ⟨Int.ofNat_le.mpr hin.1, Int.ofNat_le.mpr hin.2⟩
  unfold variantOf
  constructor
  · intro hok
    split at hok
    · rename_i W hW
      rw [← Except.ok.inj hok]
      exact hspec W hW
    · cases hok
  · intro hV
    have hsome : (variants.find? fun v => decide (uv ≥ (siriusPanels v).lcdIdAdcMin ∧
        uv ≤ (siriusPanels v).lcdIdAdcMax)).isSome :=
      List.find?_isSome.mpr ⟨V, mem_variants V, decide_eq_true ⟨Int.ofNat_le.mp hV.1, Int.ofNat_le.mp hV.2⟩⟩
    obtain ⟨W, hW⟩ := Option.isSome_iff_exists.mp hsome
    rw [hW, eq_of_inRange hV (hspec W hW)]

theorem siriusPanelDetect_iff {bootargs : List Char} {V : Variant} :
    siriusPanelDetect (some (.ok bootargs)) = .ok V ↔
      ∃ m, scannedNumber bootargs = some m ∧ InRange V (SIRIUS_LCD_ID_ADC_SCALE * m % 2 ^ 32) := by
  cases hfind : strstr adcKey bootargs with
  | none => simp [siriusPanelDetect, scannedNumber, hfind]
  | some p =>
      cases hscan : scanInteger 0 true none (p.drop adcKey.length) with
      | none => simp [siriusPanelDetect, scannedNumber, hfind, hscan]
      | some m => simp [siriusPanelDetect, scannedNumber, hfind, hscan, variantOf_iff, microvolts_eq]

theorem detects_iff_sameRange (bootargs : List Char) : Detects bootargs ↔ SameRange bootargs := by
  unfold Detects SameRange
  simp only [siriusPanelDetect_iff]

theorem adcKey_ne_nil : adcKey ≠ [] := by decide

theorem paramNumber_eq_none {p s : List Char} (hp : p ∈ s.splitOn ' ') (hs : ¬adcKey <:+: s) : paramNumber p = none :=
  if_neg fun hprefix => hs ((List.isPrefixOf_iff_prefix.mp hprefix).isInfix.trans (infix_of_mem_splitOn hp))

theorem adcParam_of_strstr_eq_none {bootargs : List Char} (h : strstr adcKey bootargs = none) :
    adcParam bootargs = none :=
  List.findSome?_eq_none_iff.mpr fun _ hp => paramNumber_eq_none hp (not_infix_of_strstr_eq_none h adcKey_ne_nil)

theorem adcParam_key_append {rest : List Char} {n : ℤ} (h : intLiteral (rest.takeWhile (· ≠ ' ')) = some n) :
    adcParam (adcKey ++ rest) = some n := by
  obtain ⟨others, hsplit, -⟩ := splitOn_eq_takeWhile_cons ' ' (adcKey ++ rest)
  have hkey : ∀ c ∈ adcKey, (decide (c ≠ ' ')) = true := List.all_eq_true.mp rfl
  have hparam : paramNumber (adcKey ++ rest.takeWhile (· ≠ ' ')) = some n := by
    rw [paramNumber, if_pos (List.isPrefixOf_iff_prefix.mpr (List.prefix_append _ _)), List.drop_left, h]
  rw [adcParam, hsplit, List.takeWhile_append_of_pos hkey, List.findSome?_cons, hparam]

/-- Where the parameter is found, it is the first. -/
theorem adcParam_of_foundAt {bootargs : List Char} {n : ℤ} (h : FoundAt bootargs n) : adcParam bootargs = some n := by
  obtain ⟨front, rest, rfl, hfind, hfront, hnumber⟩ := h
  rcases hfront with rfl | ⟨before, rfl⟩
  · exact adcParam_key_append hnumber
  · have hbefore : ¬adcKey <:+: before := by
      intro hinfix
      obtain ⟨t, ht, hlength⟩ := strstr_append_of_infix hinfix adcKey_ne_nil (' ' :: (adcKey ++ rest))
      rw [List.append_assoc, List.singleton_append] at hfind
      rw [Option.some.inj (ht.symm.trans hfind), List.length_cons] at hlength
      omega
    have hnone : (before.splitOn ' ').findSome? paramNumber = none :=
      List.findSome?_eq_none_iff.mpr fun _ hp => paramNumber_eq_none hp hbefore
    rw [adcParam, List.append_assoc, List.singleton_append, List.splitOn_append_cons_self, List.findSome?_append, hnone,
      Option.none_or]
    exact adcParam_key_append hnumber

theorem endsNumber_dropWhile (s : List Char) : EndsNumber (s.dropWhile (· ≠ ' ')) := by
  intro c hc
  have hspace : c = ' ' := by
    have := List.head?_dropWhile_not (· ≠ ' ') s
    rw [hc] at this
    simpa using this
  rw [hspace]
  decide

theorem scannedNumber_of_foundAt {bootargs : List Char} {n : ℤ} (h : FoundAt bootargs n) :
    ∃ m, scannedNumber bootargs = some m ∧ (2 ^ 64 : ℤ) ∣ m - n := by
  obtain ⟨front, rest, -, hfind, -, hnumber⟩ := h
  obtain ⟨m, hscan, hm⟩ := scan_literal hnumber (endsNumber_dropWhile rest)
  rw [List.takeWhile_append_dropWhile] at hscan
  exact ⟨m, by rw [scannedNumber, hfind, Option.bind_some, List.drop_left, hscan], hm⟩

/-- Where the parameter is found, only wrapping can make a difference. -/
theorem sameRange_iff_of_foundAt {bootargs : List Char} {n : ℤ} (h : FoundAt bootargs n) :
    SameRange bootargs ↔ NoWrap n := by
  obtain ⟨m, hscan, hm⟩ := scannedNumber_of_foundAt h
  have hmod : (SIRIUS_LCD_ID_ADC_SCALE * m : ℤ) % 2 ^ 32 = SIRIUS_LCD_ID_ADC_SCALE * n % 2 ^ 32 := by
    unfold SIRIUS_LCD_ID_ADC_SCALE
    omega
  simp only [SameRange, hscan, adcParam_of_foundAt h, Option.some.injEq, exists_eq_left', hmod]
  constructor
  · intro hsame V hV
    obtain ⟨hmin, hmax⟩ := (hsame V).mp hV
    have hbound : (siriusPanels V).lcdIdAdcMax < 2 ^ 32 := by
      cases V <;> decide
    exact Int.emod_eq_of_lt (by omega) (by omega)
  · intro hwrap V
    constructor
    · intro hV
      exact hwrap V hV ▸ hV
    · intro hV
      obtain ⟨hmin, hmax⟩ := id hV
      have hbound : (siriusPanels V).lcdIdAdcMax < 2 ^ 32 := by
        cases V <;> decide
      rwa [Int.emod_eq_of_lt (by omega) (by omega)]

theorem detects_of_absent {bootargs : List Char} (h : strstr adcKey bootargs = none) : Detects bootargs := by
  rw [detects_iff_sameRange]
  intro V
  rw [adcParam_of_strstr_eq_none h, scannedNumber, h]
  exact ⟨fun ⟨_, hnumber, _⟩ => (nomatch hnumber), fun ⟨_, hnumber, _⟩ => (nomatch hnumber)⟩

theorem detects_iff_of_foundAt {bootargs : List Char} {n : ℤ} (h : FoundAt bootargs n) :
    Detects bootargs ↔ NoWrap n :=
  (detects_iff_sameRange bootargs).trans (sameRange_iff_of_foundAt h)

/-- There is no `lcdid_adc=`, or the first is a whole parameter with a number that does not wrap into a range. -/
def Plain (bootargs : List Char) : Prop := strstr adcKey bootargs = none ∨ ∃ n, FoundAt bootargs n ∧ NoWrap n

theorem Plain.detects {bootargs : List Char} (h : Plain bootargs) : Detects bootargs := by
  obtain hnone | ⟨n, hn, hwrap⟩ := h
  · exact detects_of_absent hnone
  · exact (detects_iff_of_foundAt hn).mpr hwrap

/-- Unless the first `lcdid_adc=` is part of something else, nothing less will do. -/
theorem detects_iff_plain {bootargs : List Char} (h : strstr adcKey bootargs = none ∨ ∃ n, FoundAt bootargs n) :
    Detects bootargs ↔ Plain bootargs := by
  refine ⟨fun hdetects => ?_, Plain.detects⟩
  obtain hnone | ⟨n, hn⟩ := h
  · exact .inl hnone
  · exact .inr ⟨n, hn, (detects_iff_of_foundAt hn).mp hdetects⟩

/-- Where it is part of something else, detection can only be right by coincidence: of two command lines on which the
same number is scanned it is right on both only if their parameters are in the same ranges. -/
theorem Detects.same_inRange {bootargs bootargs' : List Char} {n n' : ℤ} (h : Detects bootargs) (h' : Detects bootargs')
    (hscanned : scannedNumber bootargs = scannedNumber bootargs') (hn : adcParam bootargs = some n)
    (hn' : adcParam bootargs' = some n') (V : Variant) :
    InRange V (SIRIUS_LCD_ID_ADC_SCALE * n) ↔ InRange V (SIRIUS_LCD_ID_ADC_SCALE * n') := by
  have hsame := (detects_iff_sameRange bootargs).mp h V
  have hsame' := (detects_iff_sameRange bootargs').mp h' V
  rw [hn, hscanned, hsame', hn'] at hsame
  simpa using hsame.symm

/-- The ranges are disjoint, and detection is right exactly if there is no `lcdid_adc=`, or the first is a whole
parameter with a number that does not wrap into a range, or the first is something else and the number scanned there
makes no difference. -/
theorem siriusPanelDetect_right_iff (bootargs : List Char) :
    (∀ uv V W, InRange V uv → InRange W uv → V = W) ∧
      (Detects bootargs ↔
        strstr adcKey bootargs = none ∨ (∃ n, FoundAt bootargs n ∧ NoWrap n) ∨
          (¬∃ n, FoundAt bootargs n) ∧ SameRange bootargs) := by
  refine ⟨fun uv V W hV hW => eq_of_inRange hV hW, ?_⟩
  rw [← or_assoc]
  constructor
  · intro hdetects
    by_cases hfound : ∃ n, FoundAt bootargs n
    · exact .inl ((detects_iff_plain (.inr hfound)).mp hdetects)
    · exact .inr ⟨hfound, (detects_iff_sameRange bootargs).mp hdetects⟩
  · rintro (hplain | ⟨-, hsame⟩)
    · exact Plain.detects hplain
    · exact (detects_iff_sameRange bootargs).mpr hsame

example : siriusPanelDetect (some (.ok "quiet lcdid_adc=0x1d4c0 ro".toList)) = .ok .renesasJdi := by decide

/-- The text may end another parameter's name. -/
theorem siriusPanelDetect_inside_parameter : ¬Detects "panel.lcdid_adc=75000".toList := by
  intro hdetects
  obtain ⟨n, hn, -⟩ := (hdetects .renesasAuo).mp (by decide)
  have hnone : adcParam "panel.lcdid_adc=75000".toList = none := by decide
  cases hnone.symm.trans hn

end Sirius.Panel
