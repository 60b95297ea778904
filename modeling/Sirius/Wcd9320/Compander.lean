import Mathlib.Data.Bool.AllAny
import Mathlib.Data.Fintype.Sum
import Mathlib.Tactic.DeriveFintype
import Mathlib.Tactic.FinCases
import Sirius.Lib.Fields
import Sirius.Lib.Runs
import Sirius.Wcd9320.CaptureEvents

/-!
# Companders

A switch says whether a compander is to be used, and a supply widget of the paths behind it starts and stops it. The
widget looks at the switch both times, so a switch that is turned in between takes effect late.
-/
namespace Sirius.Wcd9320
open Fields Runs

def WCD9320_NCP_DTEST : ℕ := WCD9320_REG 0x01 0x098
def WCD9320_RX_HPH_CHOP_CTL : ℕ := WCD9320_REG 0x01 0x0A5
def WCD9320_RX_HPH_BIAS_WG_OCP : ℕ := WCD9320_REG 0x01 0x0A9
def WCD9320_RX_HPH_CNP_WG_CTL : ℕ := WCD9320_REG 0x01 0x0AC
def WCD9320_RX_HPH_CNP_WG_TIME : ℕ := WCD9320_REG 0x01 0x0AD
def WCD9320_RX_HPH_L_GAIN : ℕ := WCD9320_REG 0x01 0x0AE
def WCD9320_RX_HPH_R_GAIN : ℕ := WCD9320_REG 0x01 0x0B4
def WCD9320_RX_LINE_1_GAIN : ℕ := WCD9320_REG 0x01 0x0CD
def WCD9320_RX_LINE_2_GAIN : ℕ := WCD9320_REG 0x01 0x0D1
def WCD9320_RX_LINE_3_GAIN : ℕ := WCD9320_REG 0x01 0x0D5
def WCD9320_RX_LINE_4_GAIN : ℕ := WCD9320_REG 0x01 0x0D9
def WCD9320_SPKR_DRV_GAIN : ℕ := WCD9320_REG 0x01 0x0E0
def WCD9320_CDC_CLK_OTHR_RESET_B2_CTL : ℕ := WCD9320_REG 0x03 0x009
def WCD9320_CDC_CLK_RX_B2_CTL : ℕ := WCD9320_REG 0x03 0x010
def WCD9320_CDC_COMP0_B1_CTL : ℕ := WCD9320_REG 0x03 0x068
def WCD9320_CDC_COMP0_B2_CTL : ℕ := WCD9320_REG 0x03 0x069
def WCD9320_CDC_COMP0_B3_CTL : ℕ := WCD9320_REG 0x03 0x06A
def WCD9320_CDC_COMP0_B4_CTL : ℕ := WCD9320_REG 0x03 0x06B
def WCD9320_CDC_COMP0_FS_CFG : ℕ := WCD9320_REG 0x03 0x06F
def COMPANDER_FS_48KHZ : ℕ := 3

local instance neZeroThree : NeZero 3 := ⟨by decide⟩

local instance neZeroFour : NeZero 4 := ⟨by decide⟩

/-- `comp_shift` -/
def compShift : Fin 3 → ℕ
  | 0 => 4
  | 1 => 0
  | 2 => 2

/-- `struct comp_sample_dependent_params` -/
structure CompSampleDependentParams where
  peakDetTimeout : BitVec 8
  rmsMeterDivFact : BitVec 8
  rmsMeterResampFact : BitVec 8
  deriving DecidableEq, Repr

/-- `comp_samp_params`, from 8 kHz to 192 kHz. -/
def compSampParams : List CompSampleDependentParams :=
  [⟨0x06, 0x09, 0x06⟩, ⟨0x07, 0x0A, 0x0C⟩, ⟨0x08, 0x0B, 0x1E⟩, ⟨0x09, 0x0B, 0x28⟩, ⟨0x0A, 0x0C, 0x50⟩,
    ⟨0x0B, 0xC, 0x50⟩]

/-- `snd_soc_component_write` -/
def componentWrite (regmap : ℕ → BitVec 8) (reg : ℕ) (val : BitVec 8) : ℕ → BitVec 8 := Function.update regmap reg val

structure CompChip where
  regmap : ℕ → BitVec 8
  compEnabled : Fin 3 → BitVec 32
  compFs : Fin 3 → ℕ

/-- The value of a control is a `long`, and what is kept an `int`. -/
def taikoSetCompander (chip : CompChip) (comp : Fin 3) (value : BitVec 64) : CompChip :=
  let chip := { chip with compEnabled := Function.update chip.compEnabled comp (value.setWidth 32) }
  if comp ≠ 1 then chip
  else if chip.compEnabled comp ≠ 0 then
    -- wavegen to 5 ms, and the chopper on
    let regmap := componentWrite chip.regmap WCD9320_RX_HPH_CNP_WG_CTL 0xDB
    let regmap := componentWrite regmap WCD9320_RX_HPH_CNP_WG_TIME 0x2A
    let regmap := componentWrite regmap WCD9320_RX_HPH_BIAS_WG_OCP 0x2A
    let regmap := updateBits regmap WCD9320_RX_HPH_CHOP_CTL 0x80 0x80
    { chip with regmap := componentWrite regmap WCD9320_NCP_DTEST 0x20 }
  else
    -- wavegen to 20 ms, and the chopper off
    let regmap := componentWrite chip.regmap WCD9320_RX_HPH_CNP_WG_CTL 0xDB
    let regmap := componentWrite regmap WCD9320_RX_HPH_CNP_WG_TIME 0x58
    let regmap := componentWrite regmap WCD9320_RX_HPH_BIAS_WG_OCP 0x1A
    let regmap := updateBits regmap WCD9320_RX_HPH_CHOP_CTL 0x80 0x00
    { chip with regmap := componentWrite regmap WCD9320_NCP_DTEST 0x10 }

def taikoConfigGainCompander (regmap : ℕ → BitVec 8) (comp : Fin 3) (enable : Bool) : ℕ → BitVec 8 :=
  let val : BitVec 8 := if enable then 0 else 1
  match comp with
  | 0 => updateBits regmap WCD9320_SPKR_DRV_GAIN (1 <<< 2) (val <<< 2)
  | 1 =>
      let regmap := updateBits regmap WCD9320_RX_HPH_L_GAIN (1 <<< 5) (val <<< 5)
      updateBits regmap WCD9320_RX_HPH_R_GAIN (1 <<< 5) (val <<< 5)
  | 2 =>
      let regmap := updateBits regmap WCD9320_RX_LINE_1_GAIN (1 <<< 5) (val <<< 5)
      let regmap := updateBits regmap WCD9320_RX_LINE_3_GAIN (1 <<< 5) (val <<< 5)
      let regmap := updateBits regmap WCD9320_RX_LINE_2_GAIN (1 <<< 5) (val <<< 5)
      updateBits regmap WCD9320_RX_LINE_4_GAIN (1 <<< 5) (val <<< 5)

def taikoDischargeComp (regmap : ℕ → BitVec 8) (comp : Fin 3) : ℕ → BitVec 8 :=
  let regmap := updateBits regmap (WCD9320_CDC_COMP0_B2_CTL + comp * 8) 0xF0 (0x05 <<< 4)
  componentWrite regmap (WCD9320_CDC_COMP0_B3_CTL + comp * 8) 0x01

/-- The events that the widgets ask for. -/
inductive CompEvent
  | prePmu
  | prePmd
  deriving DecidableEq, Repr

/-- The voltage of the buck is a constant, so the static gain offset is never set. A rate beyond the table is not
read from it. -/
def taikoConfigCompander (chip : CompChip) (comp : Fin 3) (event : CompEvent) : Option CompChip := do
  let rate := chip.compFs comp
  let compParams ← compSampParams[rate]?
  if chip.compEnabled comp = 0 then return chip
  else
    let mask : BitVec 8 := if comp = 0 then 0x01 else 0x03
    let enableMask : BitVec 8 := if comp = 0 then 0x02 else 0x03
    let buckMv := 2150000
    let shift := compShift comp
    match event with
    | .prePmu =>
        let regmap := updateBits chip.regmap (WCD9320_CDC_COMP0_FS_CFG + comp * 8) 0x07 (BitVec.ofNat 8 rate)
        let regmap := updateBits regmap (WCD9320_CDC_COMP0_B4_CTL + comp * 8) 0x80
          (if comp = 1 ∧ buckMv = 1800000 then 0x80 else 0x00)
        let regmap := updateBits regmap WCD9320_CDC_CLK_RX_B2_CTL (mask <<< shift) (mask <<< shift)
        let regmap := updateBits regmap WCD9320_CDC_CLK_OTHR_RESET_B2_CTL (mask <<< shift) (mask <<< shift)
        let regmap := updateBits regmap WCD9320_CDC_CLK_OTHR_RESET_B2_CTL (mask <<< shift) 0
        let regmap := taikoConfigGainCompander regmap comp true
        let regmap := updateBits regmap (WCD9320_CDC_COMP0_B1_CTL + comp * 8) enableMask enableMask
        let regmap := taikoDischargeComp regmap comp
        let regmap := componentWrite regmap (WCD9320_CDC_COMP0_B3_CTL + comp * 8) compParams.rmsMeterResampFact
        let regmap := updateBits regmap (WCD9320_CDC_COMP0_B2_CTL + comp * 8) 0xF0 (compParams.rmsMeterDivFact <<< 4)
        let regmap := updateBits regmap (WCD9320_CDC_COMP0_B2_CTL + comp * 8) 0x0F compParams.peakDetTimeout
        return { chip with regmap }
    | .prePmd =>
        let regmap := updateBits chip.regmap (WCD9320_CDC_COMP0_B1_CTL + comp * 8) enableMask 0x00
        let regmap := updateBits regmap WCD9320_CDC_CLK_OTHR_RESET_B2_CTL (mask <<< shift) (mask <<< shift)
        let regmap := updateBits regmap WCD9320_CDC_CLK_OTHR_RESET_B2_CTL (mask <<< shift) 0
        let regmap := updateBits regmap WCD9320_CDC_CLK_RX_B2_CTL (mask <<< shift) 0
        return { chip with regmap := taikoConfigGainCompander regmap comp false }

/-- A switch is written, or a widget powers up if it is down and down if it is up. -/
inductive CompAct
  | set (comp : Fin 3) (value : BitVec 64)
  | power (comp : Fin 3)
  deriving DecidableEq, Repr

structure CompState where
  chip : CompChip
  powered : Fin 3 → Bool

def compStep (s : CompState) : CompAct → CompState
  | .set comp value => { s with chip := taikoSetCompander s.chip comp value }
  | .power comp =>
      { chip := (taikoConfigCompander s.chip comp (if s.powered comp then .prePmd else .prePmu)).getD s.chip
        powered := Function.update s.powered comp (!s.powered comp) }

inductive CompLine
  | fs (k : Fin 3)
  | staticGain (k : Fin 3)
  | clock (k : Fin 3)
  | reset (k : Fin 3)
  | enable (k : Fin 3)
  | resamp (k : Fin 3)
  | meterDiv (k : Fin 3)
  | peakDet (k : Fin 3)
  | spkrGain
  | hphGain (right : Bool)
  | lineGain (n : Fin 4)
  deriving DecidableEq, Fintype, Repr

theorem fits_fs : ((7 : BitVec 8) <<< 0) >>> 0 = 7 := by decide

theorem fits_staticGain : ((1 : BitVec 8) <<< 7) >>> 7 = 1 := by decide

theorem fits_channel : ((1 : BitVec 8) <<< 4) >>> 4 = 1 := by decide

theorem fits_channels : ((3 : BitVec 8) <<< 0) >>> 0 = 3 := by decide

theorem fits_line : ((3 : BitVec 8) <<< 2) >>> 2 = 3 := by decide

theorem fits_enable : ((1 : BitVec 8) <<< 1) >>> 1 = 1 := by decide

theorem fits_resamp : ((0xFF : BitVec 8) <<< 0) >>> 0 = 0xFF := by decide

theorem fits_meterDiv : ((0xF : BitVec 8) <<< 4) >>> 4 = 0xF := by decide

theorem fits_peakDet : ((0xF : BitVec 8) <<< 0) >>> 0 = 0xF := by decide

theorem fits_spkrGain : ((1 : BitVec 8) <<< 2) >>> 2 = 1 := by decide

theorem fits_gain : ((1 : BitVec 8) <<< 5) >>> 5 = 1 := by decide

def CompLine.field : CompLine → Field 8
  | .fs k => ⟨WCD9320_CDC_COMP0_FS_CFG + k * 8, 0, 7, fits_fs⟩
  | .staticGain k => ⟨WCD9320_CDC_COMP0_B4_CTL + k * 8, 7, 1, fits_staticGain⟩
  | .clock 0 => ⟨WCD9320_CDC_CLK_RX_B2_CTL, 4, 1, fits_channel⟩
  | .clock 1 => ⟨WCD9320_CDC_CLK_RX_B2_CTL, 0, 3, fits_channels⟩
  | .clock 2 => ⟨WCD9320_CDC_CLK_RX_B2_CTL, 2, 3, fits_line⟩
  | .reset 0 => ⟨WCD9320_CDC_CLK_OTHR_RESET_B2_CTL, 4, 1, fits_channel⟩
  | .reset 1 => ⟨WCD9320_CDC_CLK_OTHR_RESET_B2_CTL, 0, 3, fits_channels⟩
  | .reset 2 => ⟨WCD9320_CDC_CLK_OTHR_RESET_B2_CTL, 2, 3, fits_line⟩
  | .enable 0 => ⟨WCD9320_CDC_COMP0_B1_CTL, 1, 1, fits_enable⟩
  | .enable 1 => ⟨WCD9320_CDC_COMP0_B1_CTL + 8, 0, 3, fits_channels⟩
  | .enable 2 => ⟨WCD9320_CDC_COMP0_B1_CTL + 16, 0, 3, fits_channels⟩
  | .resamp k => ⟨WCD9320_CDC_COMP0_B3_CTL + k * 8, 0, 0xFF, fits_resamp⟩
  | .meterDiv k => ⟨WCD9320_CDC_COMP0_B2_CTL + k * 8, 4, 0xF, fits_meterDiv⟩
  | .peakDet k => ⟨WCD9320_CDC_COMP0_B2_CTL + k * 8, 0, 0xF, fits_peakDet⟩
  | .spkrGain => ⟨WCD9320_SPKR_DRV_GAIN, 2, 1, fits_spkrGain⟩
  | .hphGain false => ⟨WCD9320_RX_HPH_L_GAIN, 5, 1, fits_gain⟩
  | .hphGain true => ⟨WCD9320_RX_HPH_R_GAIN, 5, 1, fits_gain⟩
  | .lineGain 0 => ⟨WCD9320_RX_LINE_1_GAIN, 5, 1, fits_gain⟩
  | .lineGain 1 => ⟨WCD9320_RX_LINE_2_GAIN, 5, 1, fits_gain⟩
  | .lineGain 2 => ⟨WCD9320_RX_LINE_3_GAIN, 5, 1, fits_gain⟩
  | .lineGain 3 => ⟨WCD9320_RX_LINE_4_GAIN, 5, 1, fits_gain⟩

theorem compLine_apart : ∀ i j : CompLine, i ≠ j → i.field.Apart (j.field.row 0) := by
  decide +kernel

/-- The amplifiers behind a compander, which take their gain from it or from their registers. -/
def gainLines : Fin 3 → List CompLine
  | 0 => [.spkrGain]
  | 1 => [.hphGain false, .hphGain true]
  | 2 => [.lineGain 0, .lineGain 2, .lineGain 1, .lineGain 3]

/-- The bits of all the channels of a compander, of which the first has one. -/
def bothChannels (k : Fin 3) : BitVec 8 := if k = 0 then 1 else 3

def compRunning (k : Fin 3) : List (CompLine × BitVec 8) :=
  [(.fs k, 3), (.staticGain k, 0), (.clock k, bothChannels k), (.reset k, 0)] ++ (gainLines k).map (·, 0) ++
    [(.enable k, bothChannels k), (.resamp k, 0x28), (.meterDiv k, 0x0B), (.peakDet k, 0x09)]

def compStopped (k : Fin 3) : List (CompLine × BitVec 8) :=
  [(.enable k, 0), (.reset k, 0), (.clock k, 0)] ++ (gainLines k).map (·, 1)

def LinesHold (regmap : ℕ → BitVec 8) (ws : List (CompLine × BitVec 8)) : Prop := ∀ r ∈ ws, r.1.field.get regmap = r.2

def Wanted (s : CompState) (k : Fin 3) : Prop := s.powered k = true ∧ s.chip.compEnabled k ≠ 0

instance (s : CompState) (k : Fin 3) : Decidable (Wanted s k) := inferInstanceAs (Decidable (_ ∧ _))

/-- The companders run that are powered with their switch on, and the others do not. -/
structure Settled (s : CompState) : Prop where
  fs : s.chip.compFs = fun _ => COMPANDER_FS_48KHZ
  holds : ∀ k, LinesHold s.chip.regmap (if Wanted s k then compRunning k else compStopped k)

/-- A switch is not turned while its compander is powered. -/
def TurnedDown (s : CompState) : CompAct → Prop
  | .set k value => s.powered k = true → (value.setWidth 32 = 0 ↔ s.chip.compEnabled k = 0)
  | .power _ => True

/-- The registers with no compander in use. -/
structure CompandersOff where
  regmap : ℕ → BitVec 8
  holds : ∀ k, LinesHold regmap (compStopped k)

def companderStart (off : CompandersOff) : CompState :=
  ⟨⟨off.regmap, fun _ => 0, fun _ => COMPANDER_FS_48KHZ⟩, fun _ => false⟩

def startWrites (k : Fin 3) : List (CompLine × BitVec 8) :=
  [(.fs k, 3), (.staticGain k, 0), (.clock k, bothChannels k), (.reset k, bothChannels k), (.reset k, 0)] ++
    (gainLines k).map (·, 0) ++
    [(.enable k, bothChannels k), (.meterDiv k, 0x05), (.resamp k, 0x01), (.resamp k, 0x28), (.meterDiv k, 0x0B),
      (.peakDet k, 0x09)]

def stopWrites (k : Fin 3) : List (CompLine × BitVec 8) :=
  [(.enable k, 0), (.reset k, bothChannels k), (.reset k, 0), (.clock k, 0)] ++ (gainLines k).map (·, 1)

theorem componentWrite_eq (regmap : ℕ → BitVec 8) (reg : ℕ) (val : BitVec 8) :
    componentWrite regmap reg val = maskWrite regmap ⟨reg, 0xFF, val⟩ := by
  have hkept : regmap reg &&& ~~~0xFF = 0#8 := BitVec.and_zero
  have hval : val &&& 0xFF = val := BitVec.and_allOnes
  rw [maskWrite, hkept, hval, BitVec.zero_or]
  rfl

def CompChip.write (chip : CompChip) (ws : List (CompLine × BitVec 8)) : CompChip :=
  { chip with regmap := writeAll chip.regmap (rowsOf CompLine.field ws) }

section
variable {chip : CompChip} {k : Fin 3}

theorem configCompander_off (hfs : chip.compFs k = COMPANDER_FS_48KHZ) (h : chip.compEnabled k = 0) (e : CompEvent) :
    taikoConfigCompander chip k e = some chip := by
  rw [taikoConfigCompander, hfs]
  exact if_pos h

theorem configCompander_prePmu (hfs : chip.compFs k = COMPANDER_FS_48KHZ) (h : chip.compEnabled k ≠ 0) :
    taikoConfigCompander chip k .prePmu = some (chip.write (startWrites k)) := by
  rw [taikoConfigCompander, hfs]
  refine (if_neg h).trans ?_
  simp only [taikoDischargeComp, componentWrite_eq]
  fin_cases k <;> rfl

theorem configCompander_prePmd (hfs : chip.compFs k = COMPANDER_FS_48KHZ) (h : chip.compEnabled k ≠ 0) :
    taikoConfigCompander chip k .prePmd = some (chip.write (stopWrites k)) := by
  rw [taikoConfigCompander, hfs]
  refine (if_neg h).trans ?_
  fin_cases k <;> rfl

/-- The compander of a field, or the one behind it. -/
def CompLine.comp : CompLine → Fin 3
  | .fs k | .staticGain k | .clock k | .reset k | .enable k | .resamp k | .meterDiv k | .peakDet k => k
  | .spkrGain => 0
  | .hphGain _ => 1
  | .lineGain _ => 2

theorem comp_lines (k : Fin 3) : (∀ r ∈ startWrites k ++ stopWrites k, r.1.comp = k) ∧
    ∀ r ∈ compRunning k ++ compStopped k, r.1.comp = k := by
  simp only [← List.all_iff_forall_prop]
  revert k
  decide

theorem last_writes (k : Fin 3) :
    (∀ r ∈ compRunning k, r.1 ∈ (startWrites k).map Prod.fst ∧
      lastWritten CompLine.field r.1 (startWrites k) 0 = r.2) ∧
    ∀ r ∈ compStopped k, r.1 ∈ (stopWrites k).map Prod.fst ∧
      lastWritten CompLine.field r.1 (stopWrites k) 0 = r.2 := by
  simp only [← List.all_iff_forall_prop]
  revert k
  decide +kernel

variable {regmap : ℕ → BitVec 8} {ws us : List (CompLine × BitVec 8)}

theorem linesHold_of_last (h : ∀ r ∈ us, r.1 ∈ ws.map Prod.fst ∧ lastWritten CompLine.field r.1 ws 0 = r.2) :
    LinesHold (writeAll regmap (rowsOf CompLine.field ws)) us := by
  intro r hr
  obtain ⟨hmem, hlast⟩ := h r hr
  rw [get_writeAll_family compLine_apart, lastWritten_of_mem hmem _ 0, hlast]

theorem linesHold_of_other {j : Fin 3} (hws : ∀ r ∈ ws, r.1.comp = j) (hus : ∀ r ∈ us, r.1.comp = k) (hkj : k ≠ j)
    (h : LinesHold regmap us) : LinesHold (writeAll regmap (rowsOf CompLine.field ws)) us := by
  intro r hr
  rw [get_writeAll_family compLine_apart, lastWritten_of_ne, h r hr]
  intro r' hr' heq
  exact hkj (by rw [← hus r hr, heq, hws r' hr'])

end

/-- What the switch of the headphones writes besides. -/
def wavegenRows (on : Bool) : List (MaskVal 8) :=
  [⟨WCD9320_RX_HPH_CNP_WG_CTL, 0xFF, 0xDB⟩, ⟨WCD9320_RX_HPH_CNP_WG_TIME, 0xFF, if on then 0x2A else 0x58⟩,
    ⟨WCD9320_RX_HPH_BIAS_WG_OCP, 0xFF, if on then 0x2A else 0x1A⟩,
    ⟨WCD9320_RX_HPH_CHOP_CTL, 0x80, if on then 0x80 else 0x00⟩, ⟨WCD9320_NCP_DTEST, 0xFF, if on then 0x20 else 0x10⟩]

theorem wavegen_apart : ∀ (i : CompLine) (on : Bool), ∀ r ∈ wavegenRows on, i.field.Apart r := by
  decide +kernel

theorem setCompander_regmap (chip : CompChip) (k : Fin 3) (value : BitVec 64) :
    (taikoSetCompander chip k value).regmap = writeAll chip.regmap
      (if k ≠ 1 then [] else if value.setWidth 32 ≠ 0 then wavegenRows true else wavegenRows false) := by
  have henabled : Function.update chip.compEnabled k (value.setWidth 32) k = value.setWidth 32 :=
    Function.update_self ..
  unfold taikoSetCompander
  dsimp only
  simp only [henabled, componentWrite_eq]
  split
  · rfl
  · split <;> rfl

theorem setCompander_fields (chip : CompChip) (k : Fin 3) (value : BitVec 64) :
    (taikoSetCompander chip k value).compEnabled = Function.update chip.compEnabled k (value.setWidth 32) ∧
      (taikoSetCompander chip k value).compFs = chip.compFs := by
  unfold taikoSetCompander
  dsimp only
  split
  · exact ⟨rfl, rfl⟩
  · split <;> exact ⟨rfl, rfl⟩

theorem get_setCompander (chip : CompChip) (k : Fin 3) (value : BitVec 64) (i : CompLine) :
    i.field.get (taikoSetCompander chip k value).regmap = i.field.get chip.regmap := by
  rw [setCompander_regmap]
  refine Field.get_writeAll fun r hr => ?_
  split at hr
  · exact absurd hr List.not_mem_nil
  · split at hr
    · exact wavegen_apart i true r hr
    · exact wavegen_apart i false r hr

section
variable {s : CompState}

theorem not_linesHold_both {regmap : ℕ → BitVec 8} {k : Fin 3} (hrun : LinesHold regmap (compRunning k)) :
    ¬LinesHold regmap (compStopped k) := by
  intro hstop
  have hone : ∀ k : Fin 3, (CompLine.enable k, bothChannels k) ∈ compRunning k ∧
      (CompLine.enable k, 0) ∈ compStopped k ∧ bothChannels k ≠ 0 := by
    decide
  obtain ⟨hr, hs, hne⟩ := hone k
  exact hne ((hrun _ hr).symm.trans (hstop _ hs))

theorem wanted_iff_of_linesHold {regmap : ℕ → BitVec 8} {k : Fin 3} {c d : Prop} [Decidable c] [Decidable d]
    (hc : LinesHold regmap (if c then compRunning k else compStopped k))
    (hd : LinesHold regmap (if d then compRunning k else compStopped k)) : c ↔ d := by
  by_cases hcc : c <;> by_cases hdd : d
  · exact iff_of_true hcc hdd
  · rw [if_pos hcc] at hc
    rw [if_neg hdd] at hd
    exact absurd hd (not_linesHold_both hc)
  · rw [if_neg hcc] at hc
    rw [if_pos hdd] at hd
    exact absurd hc (not_linesHold_both hd)
  · exact iff_of_false hcc hdd

theorem wanted_set (s : CompState) (k : Fin 3) (value : BitVec 64) (j : Fin 3) :
    Wanted (compStep s (.set k value)) j ↔
      s.powered j = true ∧ Function.update s.chip.compEnabled k (value.setWidth 32) j ≠ 0 := by
  rw [← (setCompander_fields s.chip k value).1]
  exact Iff.rfl

theorem Settled.set_iff (h : Settled s) (k : Fin 3) (value : BitVec 64) :
    Settled (compStep s (.set k value)) ↔ TurnedDown s (.set k value) := by
  have hholds : ∀ ws, LinesHold (compStep s (.set k value)).chip.regmap ws ↔ LinesHold s.chip.regmap ws := fun ws =>
    forall₂_congr fun r _ => by rw [show (compStep s (.set k value)).chip = taikoSetCompander s.chip k value from rfl,
      get_setCompander]
  constructor
  · intro hset hpowered
    have hsame := wanted_iff_of_linesHold ((hholds _).mp (hset.holds k)) (h.holds k)
    rw [wanted_set, Function.update_self, Wanted, and_iff_right hpowered, and_iff_right hpowered] at hsame
    exact not_iff_not.mp hsame
  · intro hturn
    refine ⟨(setCompander_fields s.chip k value).2.trans h.fs, fun j => (hholds _).mpr ?_⟩
    have hsame : Wanted (compStep s (.set k value)) j ↔ Wanted s j := by
      rw [wanted_set]
      refine and_congr_right fun hpowered => ?_
      by_cases hj : j = k
      · subst hj
        rw [Function.update_self]
        exact not_congr (hturn hpowered)
      · rw [Function.update_of_ne hj]
    simp only [hsame]
    exact h.holds j

theorem wanted_other {chip : CompChip} (henabled : chip.compEnabled = s.chip.compEnabled) {j k : Fin 3} (hj : j ≠ k)
    (b : Bool) : Wanted ⟨chip, Function.update s.powered k b⟩ j ↔ Wanted s j := by
  unfold Wanted
  dsimp only
  rw [Function.update_of_ne hj, henabled]

/-- A compander is started or stopped, and the others stay as they are. -/
theorem Settled.of_event (h : Settled s) {k : Fin 3} (hon : s.chip.compEnabled k ≠ 0) (up : Bool) :
    Settled ⟨s.chip.write (if up then startWrites k else stopWrites k), Function.update s.powered k up⟩ := by
  refine ⟨h.fs, fun j => ?_⟩
  by_cases hj : j = k
  · subst hj
    have hwanted : Wanted ⟨s.chip.write (if up then startWrites j else stopWrites j),
        Function.update s.powered j up⟩ j ↔ up = true := by
      unfold Wanted
      dsimp only
      rw [Function.update_self]
      exact and_iff_left hon
    simp only [hwanted]
    cases up with
    | false => exact linesHold_of_last (last_writes j).2
    | true => exact linesHold_of_last (last_writes j).1
  · have hwanted : Wanted ⟨s.chip.write (if up then startWrites k else stopWrites k),
        Function.update s.powered k up⟩ j ↔ Wanted s j := wanted_other rfl hj up
    simp only [hwanted]
    refine linesHold_of_other (j := k) (k := j) (fun r hr => ?_) (fun r hr => ?_) hj (h.holds j)
    · cases up with
      | false => exact (comp_lines k).1 r (List.mem_append_right _ hr)
      | true => exact (comp_lines k).1 r (List.mem_append_left _ hr)
    · split at hr
      · exact (comp_lines j).2 r (List.mem_append_left _ hr)
      · exact (comp_lines j).2 r (List.mem_append_right _ hr)

/-- A widget that powers up or down with its switch off does nothing, and with its switch on it starts or stops its
compander and no other. -/
theorem Settled.power (h : Settled s) (k : Fin 3) : Settled (compStep s (.power k)) := by
  have hfs : s.chip.compFs k = COMPANDER_FS_48KHZ := congrFun h.fs k
  by_cases hoff : s.chip.compEnabled k = 0
  · have hstep : compStep s (.power k) = ⟨s.chip, Function.update s.powered k (!s.powered k)⟩ := by
      rw [compStep, configCompander_off hfs hoff, Option.getD_some]
    rw [hstep]
    refine ⟨h.fs, fun j => ?_⟩
    have hsame : Wanted ⟨s.chip, Function.update s.powered k (!s.powered k)⟩ j ↔ Wanted s j := by
      by_cases hj : j = k
      · exact iff_of_false (fun hw => hw.2 (hj ▸ hoff)) fun hw => hw.2 (hj ▸ hoff)
      · exact wanted_other rfl hj _
    simp only [hsame]
    exact h.holds j
  · have hstep : compStep s (.power k) =
        ⟨s.chip.write (if !s.powered k then startWrites k else stopWrites k),
          Function.update s.powered k (!s.powered k)⟩ := by
      rw [compStep]
      cases hpowered : s.powered k with
      | false => rw [if_neg Bool.false_ne_true, configCompander_prePmu hfs hoff]; rfl
      | true => rw [if_pos rfl, configCompander_prePmd hfs hoff]; rfl
    rw [hstep]
    exact h.of_event hoff (!s.powered k)

theorem Settled.step_iff (h : Settled s) (a : CompAct) : Settled (compStep s a) ↔ TurnedDown s a := by
  cases a with
  | set k value => exact h.set_iff k value
  | power k => exact iff_of_true (h.power k) trivial

end

/-- In a run the companders that run are always those that are powered with their switch on, exactly where no switch is
turned while its compander is powered. -/
theorem settled_iff (off : CompandersOff) (as : List CompAct) :
    Always compStep (fun s a => Settled (compStep s a)) (companderStart off) as ↔
      Always compStep TurnedDown (companderStart off) as := by
  have hstart : Settled (companderStart off) := by
    refine ⟨rfl, fun k => ?_⟩
    rw [if_neg fun hwanted => Bool.false_ne_true hwanted.1]
    exact off.holds k
  exact always_iff_of_invariant (I := Settled) (fun _ a h hturn => (h.step_iff a).mpr hturn) (fun _ a h => h.step_iff a)
    hstart

def allStopWrites : List (CompLine × BitVec 8) := stopWrites 0 ++ stopWrites 1 ++ stopWrites 2

theorem last_allStopWrites (k : Fin 3) : ∀ r ∈ compStopped k, r.1 ∈ allStopWrites.map Prod.fst ∧
    lastWritten CompLine.field r.1 allStopWrites 0 = r.2 := by
  simp only [← List.all_iff_forall_prop]
  revert k
  decide +kernel

/-- Whatever is in the registers, with every compander stopped. -/
def allStopped (regmap : ℕ → BitVec 8) : CompandersOff where
  regmap := writeAll regmap (rowsOf CompLine.field allStopWrites)
  holds k := linesHold_of_last (last_allStopWrites k)

/-- The headphone compander is switched on, powers up, goes down and is switched off; the speaker's powers up
without its switch. -/
def headphonesOnce : List CompAct := [.set 1 1, .power 1, .power 0, .power 1, .set 1 0]

theorem settled_headphonesOnce :
    Always compStep (fun s a => Settled (compStep s a)) (companderStart (allStopped fun _ => 0)) headphonesOnce :=
  (settled_iff (allStopped fun _ => 0) headphonesOnce).mpr ⟨nofun, trivial, trivial, trivial, nofun, trivial⟩

end Sirius.Wcd9320
