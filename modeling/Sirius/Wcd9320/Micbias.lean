import Mathlib.Data.Fintype.OfMap
import Sirius.Lib.Fields
import Sirius.Lib.Runs
import Sirius.Lib.UseCount
import Sirius.Wcd9320.HwParams

/-!
# Microphone bias

Four bias outputs behind three capless filters, and twelve widgets that switch them. The users of a filter are
counted. Those of a bias are not: whichever of its widgets powers down turns it off.
-/
namespace Sirius.Wcd9320
open Fields Runs UseCount

/-- How a widget feeds a microphone. -/
inductive MicFeed
  | external
  | internal1
  | internal2
  | internal3
  | standalone
  deriving DecidableEq, Repr

/-- The widgets "MIC BIAS1 External" to "MIC BIAS4 External". -/
inductive MicBias
  | bias1External
  | bias1Internal1
  | bias1Internal2
  | bias2Standalone
  | bias2External
  | bias2Internal1
  | bias2Internal2
  | bias2Internal3
  | bias3External
  | bias3Internal1
  | bias3Internal2
  | bias4External
  deriving DecidableEq, Repr

instance : Fintype MicBias :=
  Fintype.ofList [.bias1External, .bias1Internal1, .bias1Internal2, .bias2Standalone, .bias2External, .bias2Internal1,
    .bias2Internal2, .bias2Internal3, .bias3External, .bias3Internal1, .bias3Internal2, .bias4External]
    fun w => by cases w <;> decide

/-- The bias the name of the widget names. -/
def MicBias.bias : MicBias → Fin 4
  | .bias1External | .bias1Internal1 | .bias1Internal2 => 0
  | .bias2Standalone | .bias2External | .bias2Internal1 | .bias2Internal2 | .bias2Internal3 => 1
  | .bias3External | .bias3Internal1 | .bias3Internal2 => 2
  | .bias4External => 3

def MicBias.feed : MicBias → MicFeed
  | .bias1External | .bias2External | .bias3External | .bias4External => .external
  | .bias1Internal1 | .bias2Internal1 | .bias3Internal1 => .internal1
  | .bias1Internal2 | .bias2Internal2 | .bias3Internal2 => .internal2
  | .bias2Internal3 => .internal3
  | .bias2Standalone => .standalone

/-- `shift` of the widget. -/
def MicBias.shift (_ : MicBias) : ℕ := 7

/-- The filter of a bias. -/
def cfiltOf : Fin 4 → Fin 3
  | 0 => 0
  | 1 => 1
  | 2 => 2
  | 3 => 0

/-- `cfilt_ctl_reg` -/
def cfiltCtlReg : Fin 3 → ℕ
  | 0 => WCD9320_REG 0x01 0x028
  | 1 => WCD9320_REG 0x01 0x02E
  | 2 => WCD9320_REG 0x01 0x034

/-- `WCD9320_MICB_1_CTL` to `WCD9320_MICB_4_CTL` -/
def micbCtlReg : Fin 4 → ℕ
  | 0 => WCD9320_REG 0x01 0x02B
  | 1 => WCD9320_REG 0x01 0x031
  | 2 => WCD9320_REG 0x01 0x037
  | 3 => WCD9320_REG 0x01 0x03D

/-- `WCD9320_MICB_1_INT_RBIAS` to `WCD9320_MICB_4_INT_RBIAS` -/
def micbIntReg : Fin 4 → ℕ
  | 0 => WCD9320_REG 0x01 0x02C
  | 1 => WCD9320_REG 0x01 0x032
  | 2 => WCD9320_REG 0x01 0x038
  | 3 => WCD9320_REG 0x01 0x03E

/-- The codec as far as the biases go. -/
structure MicChip where
  regmap : ℕ → BitVec 8
  cfiltUsers : Fin 3 → ℤ

/-- The events the widgets ask for. -/
inductive MicEvent
  | prePmu
  | postPmu
  | postPmd
  deriving DecidableEq, Repr

/-- The resistor of an internal feed goes in with the bias. -/
def rbiasOn (n : Fin 4) : MicFeed → List (MaskVal 8)
  | .internal1 => [⟨micbIntReg n, 0xE0, 0xE0⟩]
  | .internal2 => [⟨micbIntReg n, 0x1C, 0x1C⟩]
  | .internal3 => [⟨micbIntReg n, 0x03, 0x03⟩]
  | _ => []

def rbiasOff (n : Fin 4) : MicFeed → List (MaskVal 8)
  | .internal1 => [⟨micbIntReg n, 0x80, 0x00⟩]
  | .internal2 => [⟨micbIntReg n, 0x10, 0x00⟩]
  | .internal3 => [⟨micbIntReg n, 0x02, 0x00⟩]
  | _ => []

def taikoCodecEnableMicbias (chip : MicChip) (w : MicBias) : MicEvent → MicChip
  | .prePmu =>
      let k := cfiltOf w.bias
      let regmap := if chip.cfiltUsers k = 0 then
          updateBits chip.regmap (cfiltCtlReg k) (1 <<< 7) (1 <<< 7)
        else chip.regmap
      let regmap := writeAll regmap (rbiasOn w.bias w.feed)
      { regmap := updateBits regmap (micbCtlReg w.bias) (1 <<< w.shift) (1 <<< w.shift)
        cfiltUsers := Function.update chip.cfiltUsers k (chip.cfiltUsers k + 1) }
  | .postPmu => chip
  | .postPmd =>
      let k := cfiltOf w.bias
      let regmap := updateBits chip.regmap (micbCtlReg w.bias) (1 <<< w.shift) 0
      let regmap := writeAll regmap (rbiasOff w.bias w.feed)
      let users := chip.cfiltUsers k - 1
      { regmap := if users = 0 then updateBits regmap (cfiltCtlReg k) (1 <<< 7) 0 else regmap
        cfiltUsers := Function.update chip.cfiltUsers k (if users < 0 then 0 else users) }

/-- The chip and which widgets are powered. -/
structure MicState where
  chip : MicChip
  powered : MicBias → Bool

/-- A widget powers up if it is down and down if it is up; powered up, it settles. -/
inductive MicAct
  | power (w : MicBias)
  | settle (w : MicBias)
  deriving DecidableEq, Repr

def micStep (s : MicState) : MicAct → MicState
  | .power w =>
      { chip := taikoCodecEnableMicbias s.chip w (if s.powered w then .postPmd else .prePmu)
        powered := Function.update s.powered w (!s.powered w) }
  | .settle w => { s with chip := taikoCodecEnableMicbias s.chip w .postPmu }

/-- The enable bit of a filter. -/
def cfiltEnable (k : Fin 3) : Field 8 := ⟨cfiltCtlReg k, 7, 1, by decide⟩

/-- The enable bit of a bias. -/
def micbEnable (n : Fin 4) : Field 8 := ⟨micbCtlReg n, 7, 1, by decide⟩

/-- The registers before anything is powered: no filter and no bias is on. -/
structure BiasesOff where
  regmap : ℕ → BitVec 8
  cfilt : ∀ k, (cfiltEnable k).get regmap = 0
  micb : ∀ n, (micbEnable n).get regmap = 0

def micRegistered (off : BiasesOff) : MicState := ⟨⟨off.regmap, fun _ => 0⟩, fun _ => false⟩

/-- What is on is what a powered widget uses. -/
structure Biased (s : MicState) : Prop where
  cfilt : ∀ k, (cfiltEnable k).get s.chip.regmap = 1 ↔ ∃ w, s.powered w = true ∧ cfiltOf w.bias = k
  micb : ∀ n, (micbEnable n).get s.chip.regmap = 1 ↔ ∃ w, s.powered w = true ∧ w.bias = n

/-- A widget that powers down is the last of its bias. -/
def LastOfBias (s : MicState) : MicAct → Prop
  | .power w => s.powered w = true → ∀ v, s.powered v = true → v.bias = w.bias → v = w
  | .settle _ => True

theorem cfiltEnable_apart : ∀ k j : Fin 3, k ≠ j → (cfiltEnable k).Apart ((cfiltEnable j).row 0) := by
  decide

theorem micbEnable_apart : ∀ n m : Fin 4, n ≠ m → (micbEnable n).Apart ((micbEnable m).row 0) := by
  decide

theorem cfilt_micb_apart : ∀ (k : Fin 3) (n : Fin 4), (cfiltEnable k).Apart ((micbEnable n).row 0) ∧
    (micbEnable n).Apart ((cfiltEnable k).row 0) := by
  decide

theorem cfiltEnable_mask : ∀ k : Fin 3, 1 &&& (cfiltEnable k).mask = 1 ∧ 0 &&& (cfiltEnable k).mask = 0 := by
  decide

theorem micbEnable_mask : ∀ n : Fin 4, 1 &&& (micbEnable n).mask = 1 ∧ 0 &&& (micbEnable n).mask = 0 := by
  decide

/-- The resistors are in registers of their own. -/
theorem rbias_apart : ∀ w : MicBias, ∀ r ∈ rbiasOn w.bias w.feed ++ rbiasOff w.bias w.feed,
    (∀ k, (cfiltEnable k).Apart r) ∧ ∀ n, (micbEnable n).Apart r := by
  decide

section
variable (chip : MicChip) (w : MicBias)

/-- The registers after a power-up, field by field. -/
theorem prePmu_regmap : (taikoCodecEnableMicbias chip w .prePmu).regmap =
    maskWrite (writeAll (if chip.cfiltUsers (cfiltOf w.bias) = 0 then
        maskWrite chip.regmap ((cfiltEnable (cfiltOf w.bias)).row 1) else chip.regmap) (rbiasOn w.bias w.feed))
      ((micbEnable w.bias).row 1) := rfl

theorem postPmd_regmap : (taikoCodecEnableMicbias chip w .postPmd).regmap =
    if chip.cfiltUsers (cfiltOf w.bias) - 1 = 0 then
      maskWrite (writeAll (maskWrite chip.regmap ((micbEnable w.bias).row 0)) (rbiasOff w.bias w.feed))
        ((cfiltEnable (cfiltOf w.bias)).row 0)
    else writeAll (maskWrite chip.regmap ((micbEnable w.bias).row 0)) (rbiasOff w.bias w.feed) := rfl

variable {w}

theorem get_rbiasOn {f : Field 8} (hf : ∀ r ∈ rbiasOn w.bias w.feed ++ rbiasOff w.bias w.feed, f.Apart r)
    (regmap : ℕ → BitVec 8) : f.get (writeAll regmap (rbiasOn w.bias w.feed)) = f.get regmap :=
  Field.get_writeAll fun r hr => hf r (List.mem_append_left _ hr)

theorem get_rbiasOff {f : Field 8} (hf : ∀ r ∈ rbiasOn w.bias w.feed ++ rbiasOff w.bias w.feed, f.Apart r)
    (regmap : ℕ → BitVec 8) : f.get (writeAll regmap (rbiasOff w.bias w.feed)) = f.get regmap :=
  Field.get_writeAll fun r hr => hf r (List.mem_append_right _ hr)

variable (w)

theorem cfilt_prePmu (k : Fin 3) : (cfiltEnable k).get (taikoCodecEnableMicbias chip w .prePmu).regmap =
    if chip.cfiltUsers (cfiltOf w.bias) = 0 ∧ k = cfiltOf w.bias then 1 else (cfiltEnable k).get chip.regmap := by
  rw [prePmu_regmap, Field.get_row_of_apart (cfilt_micb_apart k _).1,
    get_rbiasOn fun r hr => (rbias_apart w r hr).1 k, apply_ite (cfiltEnable k).get, get_row_family cfiltEnable_apart,
    (cfiltEnable_mask k).1, ite_and]

theorem cfilt_postPmd (k : Fin 3) : (cfiltEnable k).get (taikoCodecEnableMicbias chip w .postPmd).regmap =
    if chip.cfiltUsers (cfiltOf w.bias) - 1 = 0 ∧ k = cfiltOf w.bias then 0 else (cfiltEnable k).get chip.regmap := by
  rw [postPmd_regmap, apply_ite (cfiltEnable k).get, get_row_family cfiltEnable_apart,
    get_rbiasOff fun r hr => (rbias_apart w r hr).1 k, Field.get_row_of_apart (cfilt_micb_apart k _).1,
    (cfiltEnable_mask k).2, ite_and]

theorem micb_prePmu (n : Fin 4) : (micbEnable n).get (taikoCodecEnableMicbias chip w .prePmu).regmap =
    if n = w.bias then 1 else (micbEnable n).get chip.regmap := by
  rw [prePmu_regmap, get_row_family micbEnable_apart, get_rbiasOn fun r hr => (rbias_apart w r hr).2 n,
    apply_ite (micbEnable n).get, Field.get_row_of_apart (cfilt_micb_apart _ n).2, ite_self, (micbEnable_mask n).1]

theorem micb_postPmd (n : Fin 4) : (micbEnable n).get (taikoCodecEnableMicbias chip w .postPmd).regmap =
    if n = w.bias then 0 else (micbEnable n).get chip.regmap := by
  rw [postPmd_regmap, apply_ite (micbEnable n).get, Field.get_row_of_apart (cfilt_micb_apart _ n).2, ite_self,
    get_rbiasOff fun r hr => (rbias_apart w r hr).2 n, get_row_family micbEnable_apart,
    (micbEnable_mask n).2]

end

/-- The powered widgets behind a filter. -/
def cfiltWidgets (s : MicState) (k : Fin 3) : Finset MicBias :=
  Finset.univ.filter fun w => s.powered w = true ∧ cfiltOf w.bias = k

/-- The count of a filter is the number of its powered widgets, and it is on while there are any. -/
def CfiltsCounted (s : MicState) : Prop :=
  ∀ k, Counts (cfiltWidgets s k) (s.chip.cfiltUsers k) ((cfiltEnable k).get s.chip.regmap = 1)

section
variable {s : MicState} {w : MicBias}

theorem mem_cfiltWidgets {k : Fin 3} : w ∈ cfiltWidgets s k ↔ s.powered w = true ∧ cfiltOf w.bias = k := by
  rw [cfiltWidgets, Finset.mem_filter]
  exact and_iff_right (Finset.mem_univ w)

theorem cfiltWidgets_of_ne {k : Fin 3} (hk : k ≠ cfiltOf w.bias) (chip : MicChip) (b : Bool) :
    cfiltWidgets ⟨chip, Function.update s.powered w b⟩ k = cfiltWidgets s k := by
  ext v
  rw [mem_cfiltWidgets, mem_cfiltWidgets]
  by_cases hv : v = w
  · simp [hv, Ne.symm hk]
  · simp [hv]

theorem cfiltWidgets_up (chip : MicChip) : cfiltWidgets ⟨chip, Function.update s.powered w true⟩ (cfiltOf w.bias) =
    insert w (cfiltWidgets s (cfiltOf w.bias)) := by
  ext v
  rw [mem_cfiltWidgets, Finset.mem_insert, mem_cfiltWidgets]
  by_cases hv : v = w <;> simp [hv]

theorem cfiltWidgets_down (chip : MicChip) : cfiltWidgets ⟨chip, Function.update s.powered w false⟩ (cfiltOf w.bias) =
    (cfiltWidgets s (cfiltOf w.bias)).erase w := by
  ext v
  rw [mem_cfiltWidgets, Finset.mem_erase, mem_cfiltWidgets]
  by_cases hv : v = w <;> simp [hv]

theorem micStep_up (hw : s.powered w = false) : micStep s (.power w) =
    ⟨taikoCodecEnableMicbias s.chip w .prePmu, Function.update s.powered w true⟩ := by
  rw [micStep, hw]
  rfl

theorem micStep_down (hw : s.powered w = true) : micStep s (.power w) =
    ⟨taikoCodecEnableMicbias s.chip w .postPmd, Function.update s.powered w false⟩ := by
  rw [micStep, hw]
  rfl

theorem CfiltsCounted.power_up (h : CfiltsCounted s) (hw : s.powered w = false) :
    CfiltsCounted (micStep s (.power w)) := by
  rw [micStep_up hw]
  intro k
  by_cases hk : k = cfiltOf w.bias
  · subst hk
    have hmem : w ∉ cfiltWidgets s (cfiltOf w.bias) := fun h' => by simp [mem_cfiltWidgets, hw] at h'
    have husers : (taikoCodecEnableMicbias s.chip w .prePmu).cfiltUsers (cfiltOf w.bias) =
        s.chip.cfiltUsers (cfiltOf w.bias) + 1 := Function.update_self ..
    rw [cfiltWidgets_up, husers]
    refine ((h (cfiltOf w.bias)).join hmem).congr ?_
    rw [cfilt_prePmu]
    by_cases hzero : s.chip.cfiltUsers (cfiltOf w.bias) = 0 <;> simp [hzero]
  · have husers : (taikoCodecEnableMicbias s.chip w .prePmu).cfiltUsers k = s.chip.cfiltUsers k :=
      Function.update_of_ne hk ..
    rw [cfiltWidgets_of_ne hk, husers]
    refine (h k).congr ?_
    rw [cfilt_prePmu, if_neg fun hand => hk hand.2]

theorem CfiltsCounted.power_down (h : CfiltsCounted s) (hw : s.powered w = true) :
    CfiltsCounted (micStep s (.power w)) := by
  rw [micStep_down hw]
  intro k
  by_cases hk : k = cfiltOf w.bias
  · subst hk
    have hmem : w ∈ cfiltWidgets s (cfiltOf w.bias) := mem_cfiltWidgets.2 ⟨hw, rfl⟩
    have hpos := (h (cfiltOf w.bias)).pos hmem
    -- the count is of the powered widgets, so it is never clamped
    have husers : (taikoCodecEnableMicbias s.chip w .postPmd).cfiltUsers (cfiltOf w.bias) =
        s.chip.cfiltUsers (cfiltOf w.bias) - 1 :=
      (Function.update_self ..).trans (if_neg (by omega))
    rw [cfiltWidgets_down, husers]
    refine ((h (cfiltOf w.bias)).leave hmem).congr ?_
    rw [cfilt_postPmd]
    by_cases hzero : s.chip.cfiltUsers (cfiltOf w.bias) - 1 = 0 <;> simp [hzero]
  · have husers : (taikoCodecEnableMicbias s.chip w .postPmd).cfiltUsers k = s.chip.cfiltUsers k :=
      Function.update_of_ne hk ..
    rw [cfiltWidgets_of_ne hk, husers]
    refine (h k).congr ?_
    rw [cfilt_postPmd, if_neg fun hand => hk hand.2]

theorem CfiltsCounted.step (h : CfiltsCounted s) (a : MicAct) : CfiltsCounted (micStep s a) := by
  cases a with
  | power w =>
      cases hw : s.powered w with
      | false => exact h.power_up hw
      | true => exact h.power_down hw
  | settle w => exact h

/-- Each bias is on while one of its widgets is powered. -/
def BiasesOn (s : MicState) : Prop :=
  ∀ n, (micbEnable n).get s.chip.regmap = 1 ↔ ∃ w, s.powered w = true ∧ w.bias = n

theorem CfiltsCounted.biased_iff_biasesOn (h : CfiltsCounted s) : Biased s ↔ BiasesOn s := by
  refine ⟨Biased.micb, fun hbias => ⟨fun k => (h k).on.trans ?_, hbias⟩⟩
  exact exists_congr fun w => mem_cfiltWidgets

/-- A widget of another bias makes no difference to this one. -/
theorem exists_powered_of_ne {n : Fin 4} (hn : n ≠ w.bias) {b : Bool} :
    (∃ v, Function.update s.powered w b v = true ∧ v.bias = n) ↔ ∃ v, s.powered v = true ∧ v.bias = n := by
  refine exists_congr fun v => and_congr_left fun hv => ?_
  rw [Function.update_of_ne fun heq => hn (hv.symm.trans (congrArg MicBias.bias heq))]

theorem BiasesOn.power_up (h : BiasesOn s) (hw : s.powered w = false) : BiasesOn (micStep s (.power w)) := by
  rw [micStep_up hw]
  intro n
  change (micbEnable n).get _ = 1 ↔ ∃ v, Function.update s.powered w true v = true ∧ v.bias = n
  rw [micb_prePmu]
  by_cases hn : n = w.bias
  · rw [if_pos hn]
    exact iff_of_true rfl ⟨w, Function.update_self .., hn.symm⟩
  · rw [if_neg hn, h n, exists_powered_of_ne hn]

/-- A widget that powers down turns its bias off, whoever else is on it. -/
theorem biasesOn_power_down_iff (h : BiasesOn s) (hw : s.powered w = true) :
    BiasesOn (micStep s (.power w)) ↔ ∀ v, s.powered v = true → v.bias = w.bias → v = w := by
  rw [micStep_down hw]
  constructor
  · intro hon v hv hbias
    by_contra hne
    have hbit := (hon w.bias).2 ⟨v, (Function.update_of_ne hne ..).trans hv, hbias⟩
    rw [micb_postPmd, if_pos rfl] at hbit
    cases hbit
  · intro hlast n
    change (micbEnable n).get _ = 1 ↔ ∃ v, Function.update s.powered w false v = true ∧ v.bias = n
    rw [micb_postPmd]
    by_cases hn : n = w.bias
    · rw [if_pos hn]
      refine iff_of_false nofun ?_
      rintro ⟨v, hv, hbias⟩
      by_cases hvw : v = w
      · rw [hvw, Function.update_self] at hv
        cases hv
      · rw [Function.update_of_ne hvw] at hv
        exact hvw (hlast v hv (hbias.trans hn))
    · rw [if_neg hn, h n, exists_powered_of_ne hn]

theorem biasesOn_step_iff (h : BiasesOn s) (a : MicAct) : BiasesOn (micStep s a) ↔ LastOfBias s a := by
  cases a with
  | power w =>
      cases hw : s.powered w with
      | false => exact iff_of_true (h.power_up hw) fun hon => absurd (hw.symm.trans hon) Bool.false_ne_true
      | true => exact (biasesOn_power_down_iff h hw).trans ⟨fun hlast _ => hlast, fun hlast => hlast hw⟩
  | settle w => exact iff_of_true h trivial

end

/-- Over every order of power events the enable bits are those of the powered widgets, filters and biases, exactly
where every widget that powers down is the last of its bias. -/
theorem biased_iff (off : BiasesOff) (as : List MicAct) :
    Always micStep (fun s a => Biased (micStep s a)) (micRegistered off) as ↔
      Always micStep LastOfBias (micRegistered off) as := by
  have hzero : ∀ x : BitVec 8, x = 0 → ¬x = 1 := by
    rintro x rfl
    decide
  refine always_iff_of_invariant (I := fun s => CfiltsCounted s ∧ BiasesOn s) ?_ ?_ ⟨fun k => ?_, fun n => ?_⟩
  · rintro s a ⟨hcfilt, hbias⟩ hlast
    exact ⟨hcfilt.step a, (biasesOn_step_iff hbias a).2 hlast⟩
  · rintro s a ⟨hcfilt, hbias⟩
    exact (hcfilt.step a).biased_iff_biasesOn.trans (biasesOn_step_iff hbias a)
  · exact counts_none (hzero _ (off.cfilt k))
  · exact iff_of_false (hzero _ (off.micb n)) fun ⟨w, hw, _⟩ => Bool.false_ne_true hw

/-- Two microphones on the first bias; the second is switched off. -/
def twoOnBias1 : List MicAct :=
  [.power .bias1External, .settle .bias1External, .power .bias1Internal1, .settle .bias1Internal1,
    .power .bias1Internal1]

theorem twoOnBias1_not_biased : ¬Always micStep (fun s a => Biased (micStep s a))
    (micRegistered ⟨fun _ => 0, by decide, by decide⟩) twoOnBias1 := by
  intro h
  have hbias := (h.2.2.2.2.1.micb 0).2 ⟨.bias1External, by decide, rfl⟩
  revert hbias
  decide

end Sirius.Wcd9320
