import Mathlib.Data.List.Count
import Sirius.Lib.Fields
import Sirius.Lib.Runs
import Sirius.Lib.UseCount
import Sirius.Wcd9320.HwParams

/-!
# Class H

The headphone outputs share the class-H block and the charge pump, each with a count of its users, and each output
has a bit of its own. The controller remembers the last state it was given and does nothing when it is given that
state again.
-/
namespace Sirius.Wcd9320
open Fields Runs UseCount

def WCD9320_CDC_CLSH_B1_CTL : ℕ := WCD9320_REG 0x03 0x020
def WCD9320_CDC_CLK_OTHR_CTL : ℕ := WCD9320_REG 0x03 0x00C

/-- `reg_set` of `wcd_clsh_common_init` -/
def clshRegSet : List (MaskVal 8) :=
  [⟨WCD9320_REG 0x01 0x08C, 0x0B, 0x00⟩, ⟨WCD9320_REG 0x01 0x089, 0xF0, 0x50⟩, ⟨WCD9320_REG 0x01 0x08B, 0x03, 0x00⟩,
    ⟨WCD9320_REG 0x01 0x08B, 0x0B, 0x00⟩, ⟨WCD9320_REG 0x03 0x023, 0x03, 0x00⟩, ⟨WCD9320_REG 0x03 0x023, 0x0C, 0x04⟩,
    ⟨WCD9320_REG 0x03 0x023, 0x10, 0x00⟩, ⟨WCD9320_REG 0x03 0x021, 0x03, 0x01⟩, ⟨WCD9320_REG 0x03 0x021, 0x0C, 0x04⟩,
    ⟨WCD9320_REG 0x03 0x021, 0xF0, 0x30⟩, ⟨WCD9320_REG 0x03 0x022, 0xF0, 0x30⟩, ⟨WCD9320_REG 0x03 0x022, 0x0F, 0x0B⟩,
    ⟨WCD9320_CDC_CLSH_B1_CTL, 0x20, 0x20⟩, ⟨WCD9320_CDC_CLSH_B1_CTL, 0x02, 0x02⟩]

/-- `reg_hph`; the coefficients go through one data register in turn. -/
def clshRegHph : List (MaskVal 8) :=
  [⟨WCD9320_CDC_CLSH_B1_CTL, 0x40, 0x00⟩, ⟨WCD9320_REG 0x03 0x02F, 0x3F, 0x0D⟩, ⟨WCD9320_REG 0x03 0x031, 0x3F, 0x1D⟩,
    ⟨WCD9320_REG 0x03 0x024, 0x3F, 0x13⟩, ⟨WCD9320_REG 0x03 0x026, 0x1F, 0x19⟩, ⟨WCD9320_REG 0x03 0x02A, 0xFF, 0x97⟩,
    ⟨WCD9320_REG 0x03 0x02B, 0xFF, 0x05⟩, ⟨WCD9320_REG 0x03 0x028, 0x80, 0x00⟩, ⟨WCD9320_REG 0x03 0x028, 0x0F, 0x00⟩,
    ⟨WCD9320_REG 0x03 0x029, 0xFF, 0xAE⟩, ⟨WCD9320_REG 0x03 0x029, 0xFF, 0x01⟩, ⟨WCD9320_REG 0x03 0x029, 0xFF, 0x1C⟩,
    ⟨WCD9320_REG 0x03 0x029, 0xFF, 0x00⟩, ⟨WCD9320_REG 0x03 0x029, 0xFF, 0x24⟩, ⟨WCD9320_REG 0x03 0x029, 0xFF, 0x00⟩,
    ⟨WCD9320_REG 0x03 0x029, 0xFF, 0x25⟩, ⟨WCD9320_REG 0x03 0x029, 0xFF, 0x00⟩]

/-- `reg_ear` -/
def clshRegEar : List (MaskVal 8) :=
  [⟨WCD9320_CDC_CLSH_B1_CTL, 0x80, 0x00⟩, ⟨WCD9320_REG 0x03 0x02E, 0x3F, 0x0D⟩, ⟨WCD9320_REG 0x03 0x030, 0x3F, 0x3A⟩,
    ⟨WCD9320_REG 0x03 0x025, 0x3F, 0x26⟩, ⟨WCD9320_REG 0x03 0x027, 0x3F, 0x2C⟩, ⟨WCD9320_REG 0x03 0x02C, 0xFF, 0xA9⟩,
    ⟨WCD9320_REG 0x03 0x02D, 0xFF, 0x07⟩, ⟨WCD9320_REG 0x03 0x028, 0x80, 0x00⟩, ⟨WCD9320_REG 0x03 0x028, 0x0F, 0x08⟩,
    ⟨WCD9320_REG 0x03 0x029, 0xFF, 0x1B⟩, ⟨WCD9320_REG 0x03 0x029, 0xFF, 0x00⟩, ⟨WCD9320_REG 0x03 0x029, 0xFF, 0x2D⟩,
    ⟨WCD9320_REG 0x03 0x029, 0xFF, 0x00⟩, ⟨WCD9320_REG 0x03 0x029, 0xFF, 0x36⟩, ⟨WCD9320_REG 0x03 0x029, 0xFF, 0x00⟩,
    ⟨WCD9320_REG 0x03 0x029, 0xFF, 0x37⟩, ⟨WCD9320_REG 0x03 0x029, 0xFF, 0x00⟩]

/-- `reg_set` of `wcd_enable_buck_mode` -/
def buckRegSet : List (MaskVal 8) :=
  [⟨WCD9320_REG 0x01 0x085, 0x02, 0x03⟩, ⟨WCD9320_REG 0x01 0x084, 0xFF, 0xFF⟩, ⟨WCD9320_REG 0x01 0x081, 0x04, 0x04⟩,
    ⟨WCD9320_REG 0x01 0x081, 0x08, 0x00⟩, ⟨WCD9320_REG 0x01 0x083, 0x04, 0x00⟩, ⟨WCD9320_REG 0x01 0x083, 0x08, 0x00⟩,
    ⟨WCD9320_REG 0x01 0x081, 0x80, 0x80⟩]

/-- What `wcd_set_fclk_enable_ncp` writes, in its order. -/
def ncpRegSet : List (MaskVal 8) :=
  [⟨WCD9320_REG 0x01 0x094, 0x10, 0x00⟩, ⟨WCD9320_REG 0x01 0x094, 0x0F, 0x08⟩, ⟨WCD9320_REG 0x01 0x094, 0x20, 0x20⟩,
    ⟨WCD9320_REG 0x01 0x092, 0x01, 0x01⟩]

/-- `struct wcd_clsh_ctrl`, with the registers of its component. -/
structure ClshCtrl where
  state : ℤ
  clshUsers : ℤ
  cpUsers : ℤ
  regmap : ℕ → BitVec 8

inductive ClshEvent
  | preDac
  | postPa
  deriving DecidableEq, Repr

def WCD_CLSH_STATE_IDLE : ℤ := 0
def WCD_CLSH_STATE_EAR : ℤ := 1
def WCD_CLSH_STATE_HPHL : ℤ := 2
def WCD_CLSH_STATE_HPHR : ℤ := 4
def WCD_CLSH_STATE_LO : ℤ := 8

def wcdClshCommonInit (regmap : ℕ → BitVec 8) (hph : Bool) : ℕ → BitVec 8 :=
  writeAll (writeAll regmap clshRegSet) (if hph then clshRegHph else clshRegEar)

def wcdEnableClshBlock (ctrl : ClshCtrl) (enable : Bool) : ClshCtrl :=
  let users := if enable then ctrl.clshUsers + 1 else ctrl.clshUsers - 1
  { ctrl with
    regmap := if (enable = true ∧ users = 1) ∨ (enable = false ∧ users = 0) then
        updateBits ctrl.regmap WCD9320_CDC_CLSH_B1_CTL 0x01 (if enable then 1 else 0)
      else ctrl.regmap
    clshUsers := if users < 0 then 0 else users }

def wcdEnableChargepump (ctrl : ClshCtrl) (enable : Bool) : ClshCtrl :=
  let users := if enable then ctrl.cpUsers + 1 else ctrl.cpUsers - 1
  { ctrl with
    regmap := if (enable = true ∧ users = 1) ∨ (enable = false ∧ users = 0) then
        updateBits ctrl.regmap WCD9320_CDC_CLK_OTHR_CTL 0x01 (if enable then 1 else 0)
      else ctrl.regmap
    cpUsers := if users < 0 then 0 else users }

/-- The two headphone functions differ in the bit of their channel. Switching off gives nothing back. -/
def wcdClshStateHph (channel : BitVec 8) (ctrl : ClshCtrl) (isEnable : Bool) : ClshCtrl :=
  if isEnable then
    let ctrl := { ctrl with regmap := wcdClshCommonInit ctrl.regmap true }
    let ctrl := wcdEnableClshBlock ctrl true
    let ctrl := wcdEnableChargepump ctrl true
    let regmap := updateBits ctrl.regmap WCD9320_CDC_CLSH_B1_CTL channel channel
    { ctrl with regmap := writeAll (writeAll regmap buckRegSet) ncpRegSet }
  else { ctrl with regmap := updateBits ctrl.regmap WCD9320_CDC_CLSH_B1_CTL channel 0 }

def wcdClshStateHphR : ClshCtrl → Bool → ClshCtrl := wcdClshStateHph 0x4

def wcdClshStateHphL : ClshCtrl → Bool → ClshCtrl := wcdClshStateHph 0x8

/-- `_wcd_clsh_ctrl_set_state`; the earpiece and the line outputs are unimplemented. -/
def clshCtrlSetState (ctrl : ClshCtrl) (reqState : ℤ) (isEnable : Bool) : ClshCtrl :=
  if reqState = WCD_CLSH_STATE_HPHL then wcdClshStateHphL ctrl isEnable
  else if reqState = WCD_CLSH_STATE_HPHR then wcdClshStateHphR ctrl isEnable
  else ctrl

def wcdClshIsStateValid (state : ℤ) : Bool :=
  state = WCD_CLSH_STATE_IDLE || state = WCD_CLSH_STATE_EAR || state = WCD_CLSH_STATE_HPHL ||
    state = WCD_CLSH_STATE_HPHR || state = WCD_CLSH_STATE_LO

def wcdClshCtrlSetState (ctrl : ClshCtrl) (event : ClshEvent) (nstate : ℤ) : ClshCtrl × ℤ :=
  if nstate = ctrl.state then (ctrl, 0)
  else if wcdClshIsStateValid nstate = false then (ctrl, -EINVAL)
  else ({ clshCtrlSetState ctrl nstate (event = .preDac) with state := nstate }, 0)

def wcdClshCtrlAlloc (regmap : ℕ → BitVec 8) : ClshCtrl := ⟨WCD_CLSH_STATE_IDLE, 0, 0, regmap⟩

/-- The headphone outputs. -/
inductive HphSide
  | l
  | r
  deriving DecidableEq, Repr

def HphSide.state : HphSide → ℤ
  | .l => WCD_CLSH_STATE_HPHL
  | .r => WCD_CLSH_STATE_HPHR

/-- The bits of the class-H block, of the charge pump and of the channels. -/
inductive ClshBit
  | block
  | pump
  | channel (side : HphSide)
  deriving DecidableEq, Repr

def clshField : ClshBit → Field 8
  | .block => ⟨WCD9320_CDC_CLSH_B1_CTL, 0, 1, by decide⟩
  | .pump => ⟨WCD9320_CDC_CLK_OTHR_CTL, 0, 1, by decide⟩
  | .channel .r => ⟨WCD9320_CDC_CLSH_B1_CTL, 2, 1, by decide⟩
  | .channel .l => ⟨WCD9320_CDC_CLSH_B1_CTL, 3, 1, by decide⟩

/-- The registers with none of these bits set. -/
structure ClshOff where
  regmap : ℕ → BitVec 8
  off : ∀ b, (clshField b).get regmap = 0

/-- The controller and the outputs between their PRE_DAC and their POST_PA. -/
structure ClshState where
  ctrl : ClshCtrl
  active : Finset HphSide

/-- An output is given PRE_DAC and POST_PA in turn; calls for the other states come in between. -/
inductive ClshCall
  | hph (side : HphSide)
  | other (event : ClshEvent) (nstate : { n : ℤ // n ≠ WCD_CLSH_STATE_HPHL ∧ n ≠ WCD_CLSH_STATE_HPHR })

def clshStep (s : ClshState) : ClshCall → ClshState
  | .hph side =>
      if side ∈ s.active then ⟨(wcdClshCtrlSetState s.ctrl .postPa side.state).1, s.active.erase side⟩
      else ⟨(wcdClshCtrlSetState s.ctrl .preDac side.state).1, insert side s.active⟩
  | .other event nstate => { s with ctrl := (wcdClshCtrlSetState s.ctrl event nstate).1 }

/-- Class H follows the outputs: what is enabled, the channels and the counts. -/
structure Follows (s : ClshState) : Prop where
  block : Counts s.active s.ctrl.clshUsers ((clshField .block).get s.ctrl.regmap = 1)
  pump : Counts s.active s.ctrl.cpUsers ((clshField .pump).get s.ctrl.regmap = 1)
  channel : ∀ side, (clshField (.channel side)).get s.ctrl.regmap = 1 ↔ side ∈ s.active

/-- The call does not end the use of an output. -/
def NoPostPa (s : ClshState) : ClshCall → Prop
  | .hph side => side ∉ s.active
  | .other .. => True

inductive DacEvent
  | prePmu
  | postPmd
  deriving DecidableEq, Repr

def WCD9320_CDC_CLK_RDAC_CLK_EN_CTL : ℕ := WCD9320_REG 0x03 0x00D
def WCD9320_RX_HPH_R_DAC_CTL : ℕ := WCD9320_REG 0x01 0x0B7

/-- The controller, and the calls that were made to it. -/
structure DacCtrl where
  ctrl : ClshCtrl
  calls : List (ClshEvent × ℤ)

def DacCtrl.updateBits (dac : DacCtrl) (reg : ℕ) (mask val : BitVec 8) : DacCtrl :=
  { dac with ctrl := { dac.ctrl with regmap := Wcd9320.updateBits dac.ctrl.regmap reg mask val } }

def DacCtrl.setState (dac : DacCtrl) (event : ClshEvent) (nstate : ℤ) : DacCtrl :=
  ⟨(wcdClshCtrlSetState dac.ctrl event nstate).1, dac.calls ++ [(event, nstate)]⟩

def taikoHphlDacEvent (dac : DacCtrl) : DacEvent → DacCtrl
  | .prePmu =>
      (dac.updateBits WCD9320_CDC_CLK_RDAC_CLK_EN_CTL 0x02 0x02).setState .preDac WCD_CLSH_STATE_HPHL
  | .postPmd => dac.updateBits WCD9320_CDC_CLK_RDAC_CLK_EN_CTL 0x02 0x00

def taikoHphrDacEvent (dac : DacCtrl) : DacEvent → DacCtrl
  | .prePmu =>
      ((dac.updateBits WCD9320_CDC_CLK_RDAC_CLK_EN_CTL 0x04 0x04).updateBits
        WCD9320_RX_HPH_R_DAC_CTL 0x40 0x40).setState .preDac WCD_CLSH_STATE_HPHR
  | .postPmd =>
      (dac.updateBits WCD9320_CDC_CLK_RDAC_CLK_EN_CTL 0x04 0x00).updateBits WCD9320_RX_HPH_R_DAC_CTL 0x40 0x00

def HphSide.dacEvent : HphSide → DacCtrl → DacEvent → DacCtrl
  | .l => taikoHphlDacEvent
  | .r => taikoHphrDacEvent

structure DacState where
  dac : DacCtrl
  powered : Finset HphSide

/-- A DAC powers up if it is down and down if it is up. -/
def dacStep (s : DacState) (side : HphSide) : DacState :=
  if side ∈ s.powered then ⟨side.dacEvent s.dac .postPmd, s.powered.erase side⟩
  else ⟨side.dacEvent s.dac .prePmu, insert side s.powered⟩

/-- Every PRE_DAC has its POST_PA, but those of the outputs that are powered. -/
def Matched (s : DacState) : Prop :=
  ∀ side : HphSide, s.dac.calls.count (.preDac, side.state) =
    s.dac.calls.count (.postPa, side.state) + if side ∈ s.powered then 1 else 0

def NoPowerDown (s : DacState) (side : HphSide) : Prop := side ∉ s.powered

theorem clshField_apart : ∀ b c : ClshBit, b ≠ c → (clshField b).Apart ((clshField c).row 0) := by
  rintro (_ | _ | _ | _) (_ | _ | _ | _) hne <;> first | exact absurd rfl hne | decide

theorem clshField_mask (b : ClshBit) : 1 &&& (clshField b).mask = 1 ∧ 0 &&& (clshField b).mask = 0 := by
  rcases b with _ | _ | _ | _ <;> decide

/-- The tables leave these bits alone. -/
theorem tables_apart (b : ClshBit) :
    ∀ r ∈ clshRegSet ++ clshRegHph ++ buckRegSet ++ ncpRegSet, (clshField b).Apart r := by
  rcases b with _ | _ | _ | _ <;> decide

theorem get_tables (b : ClshBit) (regmap : ℕ → BitVec 8) :
    (clshField b).get (wcdClshCommonInit regmap true) = (clshField b).get regmap ∧
      (clshField b).get (writeAll (writeAll regmap buckRegSet) ncpRegSet) = (clshField b).get regmap := by
  have h := tables_apart b
  simp only [List.forall_mem_append] at h
  obtain ⟨⟨⟨hset, hhph⟩, hbuck⟩, hncp⟩ := h
  constructor
  · exact (Field.get_writeAll hhph).trans (Field.get_writeAll hset)
  · exact (Field.get_writeAll hncp).trans (Field.get_writeAll hbuck)

section
variable (ctrl : ClshCtrl)

theorem wcdEnableClshBlock_true (h : 0 ≤ ctrl.clshUsers) : wcdEnableClshBlock ctrl true =
    { ctrl with
      regmap := if ctrl.clshUsers = 0 then maskWrite ctrl.regmap ((clshField .block).row 1) else ctrl.regmap
      clshUsers := ctrl.clshUsers + 1 } := by
  have hone : ctrl.clshUsers + 1 = 1 ↔ ctrl.clshUsers = 0 := by omega
  have hneg : ¬ctrl.clshUsers + 1 < 0 := by omega
  rw [wcdEnableClshBlock]
  simp only [if_true, hone, true_and, Bool.true_eq_false, false_and, or_false, if_neg hneg]
  rfl

theorem wcdEnableChargepump_true (h : 0 ≤ ctrl.cpUsers) : wcdEnableChargepump ctrl true =
    { ctrl with
      regmap := if ctrl.cpUsers = 0 then maskWrite ctrl.regmap ((clshField .pump).row 1) else ctrl.regmap
      cpUsers := ctrl.cpUsers + 1 } := by
  have hone : ctrl.cpUsers + 1 = 1 ↔ ctrl.cpUsers = 0 := by omega
  have hneg : ¬ctrl.cpUsers + 1 < 0 := by omega
  rw [wcdEnableChargepump]
  simp only [if_true, hone, true_and, Bool.true_eq_false, false_and, or_false, if_neg hneg]
  rfl

/-- What PRE_DAC of an output comes to. -/
structure PreDac (side : HphSide) (ctrl ctrl' : ClshCtrl) : Prop where
  clshUsers : ctrl'.clshUsers = ctrl.clshUsers + 1
  cpUsers : ctrl'.cpUsers = ctrl.cpUsers + 1
  bits : ∀ b, (clshField b).get ctrl'.regmap =
    if b = .channel side then 1 else if ctrl.cpUsers = 0 ∧ b = .pump then 1
    else if ctrl.clshUsers = 0 ∧ b = .block then 1 else (clshField b).get ctrl.regmap

theorem clshCtrlSetState_preDac (side : HphSide) (hclsh : 0 ≤ ctrl.clshUsers) (hcp : 0 ≤ ctrl.cpUsers) :
    PreDac side ctrl (clshCtrlSetState ctrl side.state true) := by
  have heq : clshCtrlSetState ctrl side.state true =
      let ctrl₁ := wcdEnableChargepump
        (wcdEnableClshBlock { ctrl with regmap := wcdClshCommonInit ctrl.regmap true } true) true
      { ctrl₁ with
        regmap := writeAll (writeAll (maskWrite ctrl₁.regmap ((clshField (.channel side)).row 1)) buckRegSet)
          ncpRegSet } := by
    cases side <;> rfl
  have hblock := wcdEnableClshBlock_true { ctrl with regmap := wcdClshCommonInit ctrl.regmap true } hclsh
  have hpump := wcdEnableChargepump_true
    (wcdEnableClshBlock { ctrl with regmap := wcdClshCommonInit ctrl.regmap true } true) (by rwa [hblock])
  rw [heq, hpump, hblock]
  refine ⟨rfl, rfl, fun b => ?_⟩
  simp only [(get_tables b _).2, get_row_family clshField_apart, (clshField_mask b).1, apply_ite (clshField b).get,
    (get_tables b _).1, ite_and]

theorem clshCtrlSetState_postPa (side : HphSide) : clshCtrlSetState ctrl side.state false =
    { ctrl with regmap := maskWrite ctrl.regmap ((clshField (.channel side)).row 0) } := by
  cases side <;> rfl

end

theorem HphSide.state_inj : ∀ {side side' : HphSide}, side.state = side'.state → side = side' := by
  rintro (_ | _) (_ | _) h <;> first | rfl | exact absurd h (by decide)

/-- A call with a new state does what its event says. -/
theorem setState_side {ctrl : ClshCtrl} {side : HphSide} (hne : side.state ≠ ctrl.state) (event : ClshEvent) :
    (wcdClshCtrlSetState ctrl event side.state).1 =
      { clshCtrlSetState ctrl side.state (event = .preDac) with state := side.state } := by
  have hvalid : wcdClshIsStateValid side.state = true := by
    cases side <;> decide
  rw [wcdClshCtrlSetState, if_neg hne, if_neg (by simp [hvalid])]

/-- The other states change nothing but the state, to one that is no output's. -/
theorem setState_other (ctrl : ClshCtrl) (event : ClshEvent)
    (nstate : { n : ℤ // n ≠ WCD_CLSH_STATE_HPHL ∧ n ≠ WCD_CLSH_STATE_HPHR }) :
    ∃ state, (wcdClshCtrlSetState ctrl event nstate).1 = { ctrl with state } ∧
      ∀ side : HphSide, state = side.state → ctrl.state = side.state := by
  obtain ⟨n, hl, hr⟩ := nstate
  have hside : ∀ side : HphSide, n ≠ side.state := by
    rintro (_ | _)
    · exact hl
    · exact hr
  by_cases hsame : n = ctrl.state
  · exact ⟨ctrl.state, by rw [wcdClshCtrlSetState, if_pos hsame], fun _ h => h⟩
  · by_cases hvalid : wcdClshIsStateValid n = false
    · exact ⟨ctrl.state, by rw [wcdClshCtrlSetState, if_neg hsame, if_pos hvalid], fun _ h => h⟩
    · refine ⟨n, ?_, fun side h => absurd h (hside side)⟩
      rw [wcdClshCtrlSetState, if_neg hsame, if_neg hvalid, clshCtrlSetState, if_neg hl, if_neg hr]

/-- The state is that of an active output, if it is an output's. -/
def LastActive (s : ClshState) : Prop := ∀ side : HphSide, s.ctrl.state = side.state → side ∈ s.active

section
variable {s : ClshState} {side : HphSide}

theorem Follows.preDac (h : Follows s) (hside : side ∉ s.active) (hlast : LastActive s) :
    Follows (clshStep s (.hph side)) := by
  have hpre := clshCtrlSetState_preDac s.ctrl side h.block.nonneg h.pump.nonneg
  rw [clshStep, if_neg hside, setState_side fun hne => hside (hlast side hne.symm)]
  constructor
  case block =>
    change Counts (insert side s.active) (clshCtrlSetState s.ctrl side.state true).clshUsers _
    rw [hpre.clshUsers]
    refine (h.block.join hside).congr ?_
    change (clshField .block).get (clshCtrlSetState s.ctrl side.state true).regmap = 1 ↔ _
    rw [hpre.bits]
    by_cases hzero : s.ctrl.clshUsers = 0 <;> simp [hzero]
  case pump =>
    change Counts (insert side s.active) (clshCtrlSetState s.ctrl side.state true).cpUsers _
    rw [hpre.cpUsers]
    refine (h.pump.join hside).congr ?_
    change (clshField .pump).get (clshCtrlSetState s.ctrl side.state true).regmap = 1 ↔ _
    rw [hpre.bits]
    by_cases hzero : s.ctrl.cpUsers = 0 <;> simp [hzero]
  case channel =>
    intro side'
    change (clshField (.channel side')).get (clshCtrlSetState s.ctrl side.state true).regmap = 1 ↔ _
    rw [hpre.bits, Finset.mem_insert, ← h.channel side']
    by_cases heq : side' = side <;> simp [heq]

/-- The users are not given back, so POST_PA leaves class H behind. -/
theorem not_follows_postPa (h : Follows s) (hside : side ∈ s.active) : ¬Follows (clshStep s (.hph side)) := by
  intro h'
  have hcount : (clshStep s (.hph side)).ctrl.clshUsers = s.ctrl.clshUsers := by
    rw [clshStep, if_pos hside]
    by_cases hne : side.state = s.ctrl.state
    · rw [wcdClshCtrlSetState, if_pos hne]
    · rw [setState_side hne]
      change (clshCtrlSetState s.ctrl side.state false).clshUsers = _
      rw [clshCtrlSetState_postPa]
  have hactive : (clshStep s (.hph side)).active = s.active.erase side := by
    rw [clshStep, if_pos hside]
  have hcard := h'.block.count
  rw [hcount, h.block.count, hactive, Int.natCast_inj] at hcard
  exact absurd hcard (Finset.card_erase_lt_of_mem hside).ne'

theorem Follows.other (h : Follows s) (event : ClshEvent)
    (nstate : { n : ℤ // n ≠ WCD_CLSH_STATE_HPHL ∧ n ≠ WCD_CLSH_STATE_HPHR }) :
    Follows (clshStep s (.other event nstate)) := by
  obtain ⟨state, heq, -⟩ := setState_other s.ctrl event nstate
  rw [clshStep, heq]
  exact ⟨h.block, h.pump, h.channel⟩

theorem follows_step_iff (h : Follows s) (hlast : LastActive s) (c : ClshCall) :
    Follows (clshStep s c) ↔ NoPostPa s c := by
  cases c with
  | hph side =>
      by_cases hside : side ∈ s.active
      · exact iff_of_false (not_follows_postPa h hside) fun hno => hno hside
      · exact iff_of_true (h.preDac hside hlast) hside
  | other event nstate => exact iff_of_true (h.other event nstate) trivial

theorem LastActive.step (hlast : LastActive s) {c : ClshCall} (hno : NoPostPa s c) : LastActive (clshStep s c) := by
  cases c with
  | hph side =>
      intro side' hstate
      rw [clshStep, if_neg hno, setState_side fun hne => hno (hlast side hne.symm)] at hstate ⊢
      exact HphSide.state_inj hstate ▸ Finset.mem_insert_self ..
  | other event nstate =>
      obtain ⟨state, heq, hold⟩ := setState_other s.ctrl event nstate
      intro side' hstate
      rw [clshStep, heq] at hstate ⊢
      exact hlast side' (hold side' hstate)

end

section
variable {s : DacState} {side : HphSide}

theorem calls_prePmu (dac : DacCtrl) (side : HphSide) :
    (side.dacEvent dac .prePmu).calls = dac.calls ++ [(.preDac, side.state)] := by
  cases side <;> rfl

theorem calls_postPmd (dac : DacCtrl) (side : HphSide) : (side.dacEvent dac .postPmd).calls = dac.calls := by
  cases side <;> rfl

theorem Matched.prePmu (h : Matched s) (hside : side ∉ s.powered) : Matched (dacStep s side) := by
  intro side'
  rw [dacStep, if_neg hside, calls_prePmu, List.count_append, List.count_append, h side']
  by_cases heq : side' = side
  · subst heq
    simp [hside]
  · have hstate : side.state ≠ side'.state := fun hstate => heq (HphSide.state_inj hstate).symm
    simp [heq, hstate]

/-- No power-down makes a call. -/
theorem not_matched_postPmd (h : Matched s) (hside : side ∈ s.powered) : ¬Matched (dacStep s side) := by
  intro h'
  have hcount := h' side
  rw [dacStep, if_pos hside, calls_postPmd, h side, if_pos hside, if_neg (Finset.notMem_erase side s.powered)] at hcount
  omega

end

def clshRegistered (off : ClshOff) : ClshState := ⟨wcdClshCtrlAlloc off.regmap, ∅⟩

def dacRegistered (regmap : ℕ → BitVec 8) : DacState := ⟨⟨wcdClshCtrlAlloc regmap, []⟩, ∅⟩

/-- Class H follows the headphone outputs exactly in the runs in which no output is given POST_PA, and the power
events of the DACs match their calls exactly while none powers down. -/
theorem clsh_follows_iff (off : ClshOff) (calls : List ClshCall) (regmap : ℕ → BitVec 8) (sides : List HphSide) :
    (Always clshStep (fun s c => Follows (clshStep s c)) (clshRegistered off) calls ↔
        Always clshStep NoPostPa (clshRegistered off) calls) ∧
      (Always dacStep (fun s side => Matched (dacStep s side)) (dacRegistered regmap) sides ↔
        Always dacStep NoPowerDown (dacRegistered regmap) sides) := by
  constructor
  · refine always_iff_of_invariant (I := fun s => Follows s ∧ LastActive s) ?_ ?_ ⟨⟨?_, ?_, fun side => ?_⟩, ?_⟩
    · rintro s c ⟨hfollows, hlast⟩ hno
      exact ⟨(follows_step_iff hfollows hlast c).2 hno, hlast.step hno⟩
    · rintro s c ⟨hfollows, hlast⟩
      exact follows_step_iff hfollows hlast c
    · exact counts_none fun hone => absurd ((off.off .block).symm.trans hone) (by decide)
    · exact counts_none fun hone => absurd ((off.off .pump).symm.trans hone) (by decide)
    · exact iff_of_false (fun hone => absurd ((off.off (.channel side)).symm.trans hone) (by decide))
        (Finset.notMem_empty side)
    · intro side hstate
      have hidle : WCD_CLSH_STATE_IDLE ≠ side.state := by
        cases side <;> decide
      exact absurd hstate hidle
  · refine always_iff_of_invariant (I := Matched) (fun s side h hno => h.prePmu hno) ?_ fun side => rfl
    intro s side h
    by_cases hside : side ∈ s.powered
    · exact iff_of_false (not_matched_postPmd h hside) fun hno => hno hside
    · exact iff_of_true (h.prePmu hside) hside

/-- The left output is used once. -/
theorem left_once_not_follows : ¬Always clshStep (fun s c => Follows (clshStep s c))
    (clshRegistered ⟨fun _ => 0, by rintro (_ | _ | _ | _) <;> decide⟩) [.hph .l, .hph .l] := by
  intro h
  have hchannel := (h.2.1.channel .l).1 (by decide)
  revert hchannel
  decide

end Sirius.Wcd9320
