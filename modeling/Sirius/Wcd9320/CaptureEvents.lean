import Mathlib.Data.Fintype.Sum
import Mathlib.Tactic.DeriveFintype
import Mathlib.Tactic.FinCases
import Sirius.Lib.Fields
import Sirius.Lib.Runs
import Sirius.Lib.UseCount
import Sirius.Wcd9320.Clsh
import Sirius.Wcd9320.Decimators

/-!
# Powering the capture path

The converters, the decimators and the high supply are widgets: each goes through its own power cycle, and the cycles
of different widgets come in any order. The converters share a clock, which their users are counted for.
-/
namespace Sirius.Wcd9320
open Fields Runs UseCount

def WCD9320_LDO_H_MODE_1 : ℕ := WCD9320_REG 0x01 0x010
def WCD9320_TX_1_2_TEST_CTL : ℕ := WCD9320_REG 0x01 0x058
def WCD9320_TX_3_4_TEST_CTL : ℕ := WCD9320_REG 0x01 0x062
def WCD9320_TX_5_6_TEST_CTL : ℕ := WCD9320_REG 0x01 0x06C
def WCD9320_CDC_TX_1_GAIN : ℕ := WCD9320_REG 0x01 0x053
def WCD9320_CDC_TX_2_GAIN : ℕ := WCD9320_REG 0x01 0x055
def WCD9320_CDC_TX_3_GAIN : ℕ := WCD9320_REG 0x01 0x05D
def WCD9320_CDC_TX_4_GAIN : ℕ := WCD9320_REG 0x01 0x05F
def WCD9320_CDC_TX_5_GAIN : ℕ := WCD9320_REG 0x01 0x067
def WCD9320_CDC_TX_6_GAIN : ℕ := WCD9320_REG 0x01 0x069
def WCD9320_CDC_TX1_VOL_CTL_CFG : ℕ := WCD9320_REG 0x02 0x022
def WCD9320_CDC_CLK_TX_RESET_B1_CTL : ℕ := WCD9320_REG 0x03 0x002
def WCD9320_CDC_CLK_TX_RESET_B2_CTL : ℕ := WCD9320_REG 0x03 0x003
def WCD9320_CDC_CLK_TX_CLK_EN_B1_CTL : ℕ := WCD9320_REG 0x03 0x00A
def WCD9320_CDC_CLK_TX_CLK_EN_B2_CTL : ℕ := WCD9320_REG 0x03 0x00B
def NUM_DECIMATORS : ℕ := 10

inductive WidgetEvent
  | prePmu
  | postPmu
  | prePmd
  | postPmd
  deriving DecidableEq, Repr

structure CaptureChip where
  regmap : ℕ → BitVec 8
  adcUsers : ℤ
  ldoHUsers : ℤ

/-- `adc_reg` and `init_bit` -/
def adcInitBit (wreg : ℕ) : Option (ℕ × ℕ) :=
  if wreg = WCD9320_CDC_TX_1_GAIN then some (WCD9320_TX_1_2_TEST_CTL, 7)
  else if wreg = WCD9320_CDC_TX_2_GAIN then some (WCD9320_TX_1_2_TEST_CTL, 6)
  else if wreg = WCD9320_CDC_TX_3_GAIN then some (WCD9320_TX_3_4_TEST_CTL, 7)
  else if wreg = WCD9320_CDC_TX_4_GAIN then some (WCD9320_TX_3_4_TEST_CTL, 6)
  else if wreg = WCD9320_CDC_TX_5_GAIN then some (WCD9320_TX_5_6_TEST_CTL, 7)
  else if wreg = WCD9320_CDC_TX_6_GAIN then some (WCD9320_TX_5_6_TEST_CTL, 6)
  else none

def taikoCodecEnableAdc (chip : CaptureChip) (wreg : ℕ) (event : WidgetEvent) : CaptureChip × ℤ :=
  match adcInitBit wreg with
  | none => (chip, -EINVAL)
  | some (adcReg, initBit) =>
      match event with
      | .prePmu =>
          let regmap := if chip.adcUsers = 0 then updateBits chip.regmap WCD9320_CDC_CLK_OTHR_CTL 0x02 0x02
            else chip.regmap
          ({ chip with
            adcUsers := chip.adcUsers + 1
            regmap := updateBits regmap adcReg (1 <<< initBit) (1 <<< initBit) }, 0)
      | .postPmu => ({ chip with regmap := updateBits chip.regmap adcReg (1 <<< initBit) 0 }, 0)
      | .prePmd => (chip, 0)
      | .postPmd =>
          let users := chip.adcUsers - 1
          ({ chip with
            adcUsers := if users < 0 then 0 else users
            regmap := if users = 0 then updateBits chip.regmap WCD9320_CDC_CLK_OTHR_CTL 0x02 0x00 else chip.regmap }, 0)

def taikoCodecEnableLdoH (chip : CaptureChip) (event : WidgetEvent) : CaptureChip × ℤ :=
  match event with
  | .prePmu =>
      ({ chip with
        ldoHUsers := chip.ldoHUsers + 1
        regmap := if chip.ldoHUsers + 1 = 1 then updateBits chip.regmap WCD9320_LDO_H_MODE_1 (1 <<< 7) (1 <<< 7)
          else chip.regmap }, 0)
  | .postPmd =>
      let users := chip.ldoHUsers - 1
      ({ chip with
        ldoHUsers := if users < 0 then 0 else users
        regmap := if users = 0 then updateBits chip.regmap WCD9320_LDO_H_MODE_1 (1 <<< 7) 0 else chip.regmap }, 0)
  | _ => (chip, 0)

/-- `kstrtouint(s, 10, &n)` of digits, which a newline may end. -/
def kstrtouint (s : List Char) : Option ℕ :=
  let s := if s.getLast? = some '\n' then s.dropLast else s
  let n := s.foldl (fun n c => 10 * n + (c.toNat - '0'.toNat)) 0
  if s ≠ [] ∧ s.all Char.isDigit ∧ n < 2 ^ 32 then some n else none

/-- The number from the first digit of the name to the next space, in 15 characters. -/
def decimatorIn (name : List Char) : Option ℕ :=
  match (name.take 15).dropWhile fun c => !("123456789".toList.contains c) with
  | [] => none
  | num => kstrtouint (num.takeWhile (· ≠ ' '))

def taikoCodecEnableDec (chip : CaptureChip) (name : List Char) (wreg shift : ℕ) (event : WidgetEvent) :
    CaptureChip × ℤ :=
  match decimatorIn name with
  | none => (chip, -EINVAL)
  | some decimator =>
      if decimator < 1 ∨ decimator > NUM_DECIMATORS then (chip, -EINVAL)
      else
        let decResetReg :=
          if wreg = WCD9320_CDC_CLK_TX_CLK_EN_B1_CTL then some WCD9320_CDC_CLK_TX_RESET_B1_CTL
          else if wreg = WCD9320_CDC_CLK_TX_CLK_EN_B2_CTL then some WCD9320_CDC_CLK_TX_RESET_B2_CTL
          else none
        match decResetReg with
        | none => (chip, -EINVAL)
        | some decResetReg =>
            let txVolCtlReg := WCD9320_CDC_TX1_VOL_CTL_CFG + 8 * (decimator - 1)
            let txMuxCtlReg := WCD9320_CDC_TX1_MUX_CTL + 8 * (decimator - 1)
            match event with
            | .prePmu =>
                let regmap := updateBits chip.regmap txVolCtlReg 0x01 0x01
                let regmap := updateBits regmap decResetReg (1 <<< shift) (1 <<< shift)
                let regmap := updateBits regmap decResetReg (1 <<< shift) 0x00
                -- 150 Hz corner, high pass enabled
                let regmap := updateBits regmap txMuxCtlReg 0x30 0x10
                ({ chip with regmap := updateBits regmap txMuxCtlReg 0x08 0x00 }, 0)
            | .postPmu => ({ chip with regmap := updateBits chip.regmap txVolCtlReg 0x01 0x00 }, 0)
            | .prePmd => ({ chip with regmap := updateBits chip.regmap txVolCtlReg 0x01 0x01 }, 0)
            | .postPmd => ({ chip with regmap := updateBits chip.regmap txMuxCtlReg 0x08 0x08 }, 0)

inductive CaptureWidget
  | adc (n : Fin 6)
  | dec (n : Fin 10)
  | ldoH
  deriving DecidableEq, Repr

/-- The register and the bit that a widget is switched with; the supply has none. -/
def CaptureWidget.power : CaptureWidget → Option (ℕ × ℕ)
  | .adc 0 => some (WCD9320_CDC_TX_1_GAIN, 7)
  | .adc 1 => some (WCD9320_CDC_TX_2_GAIN, 7)
  | .adc 2 => some (WCD9320_CDC_TX_3_GAIN, 7)
  | .adc 3 => some (WCD9320_CDC_TX_4_GAIN, 7)
  | .adc 4 => some (WCD9320_CDC_TX_5_GAIN, 7)
  | .adc 5 => some (WCD9320_CDC_TX_6_GAIN, 7)
  | .dec n => if (n : ℕ) < 8 then some (WCD9320_CDC_CLK_TX_CLK_EN_B1_CTL, n) else
      some (WCD9320_CDC_CLK_TX_CLK_EN_B2_CTL, n - 8)
  | .ldoH => none

/-- The events a widget asks for. -/
def CaptureWidget.eventFlags : CaptureWidget → List WidgetEvent
  | .adc n => if n < 4 then [.prePmu, .postPmu, .postPmd] else [.postPmu]
  | .dec _ => [.prePmu, .postPmu, .prePmd, .postPmd]
  | .ldoH => [.prePmu, .postPmd]

/-- `w->event`, for the widgets in the table; what it returns is logged. -/
def CaptureWidget.handle (chip : CaptureChip) (event : WidgetEvent) (w : CaptureWidget) : CaptureChip × ℤ :=
  let (wreg, shift) := w.power.getD (0, 7)
  match w with
  | .adc _ => taikoCodecEnableAdc chip wreg event
  | .dec n => taikoCodecEnableDec chip (decWidgetName n) wreg shift event
  | .ldoH => taikoCodecEnableLdoH chip event

def sendEvent (chip : CaptureChip) (event : WidgetEvent) (w : CaptureWidget) : CaptureChip :=
  if event ∈ w.eventFlags then (w.handle chip event).1 else chip

/-- The widget's own bit. -/
def switch (chip : CaptureChip) (on : Bool) (w : CaptureWidget) : CaptureChip :=
  match w.power with
  | none => chip
  | some (reg, shift) =>
      { chip with regmap := updateBits chip.regmap reg (1 <<< shift) (if on then 1 <<< shift else 0) }

/-- How far a widget has come in its power cycle: `fresh` before the first one, `off` between two. -/
inductive PowerPhase
  | fresh
  | opening
  | starting
  | on
  | stopping
  | closing
  | off
  deriving DecidableEq, Repr

def PowerPhase.Down (p : PowerPhase) : Prop := p = .fresh ∨ p = .off

instance (p : PowerPhase) : Decidable p.Down := inferInstanceAs (Decidable (_ ∨ _))

def PowerPhase.next : PowerPhase → PowerPhase
  | .fresh => .opening
  | .opening => .starting
  | .starting => .on
  | .on => .stopping
  | .stopping => .closing
  | .closing => .off
  | .off => .opening

/-- What is done when a widget goes on from a phase: an event, its bit, and the event after. -/
def advance (chip : CaptureChip) (w : CaptureWidget) : PowerPhase → CaptureChip
  | .fresh | .off => sendEvent chip .prePmu w
  | .opening => switch chip true w
  | .starting => sendEvent chip .postPmu w
  | .on => sendEvent chip .prePmd w
  | .stopping => switch chip false w
  | .closing => sendEvent chip .postPmd w

/-- A widget goes on, or a mux is written. -/
inductive CaptureAct
  | advance (w : CaptureWidget)
  | decMux (n : Fin 10) (item : ℕ)
  | slimTxMux (p : Fin 10) (item : ℕ)
  deriving DecidableEq, Repr

structure CaptureState where
  chip : CaptureChip
  phase : CaptureWidget → PowerPhase

def captureStep (s : CaptureState) : CaptureAct → CaptureState
  | .advance w => ⟨advance s.chip w (s.phase w), Function.update s.phase w (s.phase w).next⟩
  | .decMux n item => { s with chip := { s.chip with regmap := wcd9320PutDecEnum s.chip.regmap n item } }
  | .slimTxMux p item =>
      { s with chip := { s.chip with
        regmap := sndSocDapmPutEnumDouble s.chip.regmap (sbTxMuxEnum p) (sbTxMuxText p).length item } }

/-- The bits of the capture path that its power cycles are about. -/
inductive CaptureLine
  | adcClock
  | ldoH
  | adcInit (n : Fin 6)
  | adcPower (n : Fin 6)
  | decClock (n : Fin 10)
  | decReset (n : Fin 10)
  | mute (n : Fin 10)
  | highPassOff (n : Fin 10)
  | corner (n : Fin 10)
  deriving DecidableEq, Fintype, Repr

theorem bit_fits : ∀ i : Fin 8, ((1 : BitVec 8) <<< (i : ℕ)) >>> (i : ℕ) = 1 := by
  decide

def bitField (reg : ℕ) (i : Fin 8) : Field 8 := ⟨reg, i, 1, bit_fits i⟩

theorem corner_fits : ((3 : BitVec 8) <<< 4) >>> 4 = 3 := by decide

def CaptureLine.field : CaptureLine → Field 8
  | .adcClock => bitField WCD9320_CDC_CLK_OTHR_CTL 1
  | .ldoH => bitField WCD9320_LDO_H_MODE_1 7
  | .adcInit 0 => bitField WCD9320_TX_1_2_TEST_CTL 7
  | .adcInit 1 => bitField WCD9320_TX_1_2_TEST_CTL 6
  | .adcInit 2 => bitField WCD9320_TX_3_4_TEST_CTL 7
  | .adcInit 3 => bitField WCD9320_TX_3_4_TEST_CTL 6
  | .adcInit 4 => bitField WCD9320_TX_5_6_TEST_CTL 7
  | .adcInit 5 => bitField WCD9320_TX_5_6_TEST_CTL 6
  | .adcPower 0 => bitField WCD9320_CDC_TX_1_GAIN 7
  | .adcPower 1 => bitField WCD9320_CDC_TX_2_GAIN 7
  | .adcPower 2 => bitField WCD9320_CDC_TX_3_GAIN 7
  | .adcPower 3 => bitField WCD9320_CDC_TX_4_GAIN 7
  | .adcPower 4 => bitField WCD9320_CDC_TX_5_GAIN 7
  | .adcPower 5 => bitField WCD9320_CDC_TX_6_GAIN 7
  | .decClock n => if (n : ℕ) < 8 then bitField WCD9320_CDC_CLK_TX_CLK_EN_B1_CTL (Fin.ofNat 8 n) else
      bitField WCD9320_CDC_CLK_TX_CLK_EN_B2_CTL (Fin.ofNat 8 (n - 8))
  | .decReset n => if (n : ℕ) < 8 then bitField WCD9320_CDC_CLK_TX_RESET_B1_CTL (Fin.ofNat 8 n) else
      bitField WCD9320_CDC_CLK_TX_RESET_B2_CTL (Fin.ofNat 8 (n - 8))
  | .mute n => bitField (WCD9320_CDC_TX1_VOL_CTL_CFG + 8 * n) 0
  | .highPassOff n => bitField (WCD9320_CDC_TX1_MUX_CTL + 8 * n) 3
  | .corner n => ⟨WCD9320_CDC_TX1_MUX_CTL + 8 * n, 4, 3, corner_fits⟩

theorem captureLine_apart : ∀ i j : CaptureLine, i ≠ j → i.field.Apart (j.field.row 0) := by
  decide +kernel

/-- The first four converters ask for the clock that they share, the other two only for the event after power-up. -/
def sharesClock (n : Fin 6) : Bool := n < 4

/-- What is written when a widget goes on from a phase, apart from the bits that are shared. -/
def CaptureWidget.writes : CaptureWidget → PowerPhase → List (CaptureLine × BitVec 8)
  | .adc n, .fresh | .adc n, .off => if sharesClock n then [(.adcInit n, 1)] else []
  | .adc n, .opening => [(.adcPower n, 1)]
  | .adc n, .starting => [(.adcInit n, 0)]
  | .adc n, .stopping => [(.adcPower n, 0)]
  | .dec n, .fresh | .dec n, .off =>
      [(.mute n, 1), (.decReset n, 1), (.decReset n, 0), (.corner n, 1), (.highPassOff n, 0)]
  | .dec n, .opening => [(.decClock n, 1)]
  | .dec n, .starting => [(.mute n, 0)]
  | .dec n, .on => [(.mute n, 1)]
  | .dec n, .stopping => [(.decClock n, 0)]
  | .dec n, .closing => [(.highPassOff n, 1)]
  | _, _ => []

/-- What is written of the bits that are shared. -/
def CaptureWidget.sharedWrites (chip : CaptureChip) : CaptureWidget → PowerPhase → List (CaptureLine × BitVec 8)
  | .adc n, .fresh | .adc n, .off => if sharesClock n then (if chip.adcUsers = 0 then [(.adcClock, 1)] else []) else []
  | .adc n, .closing => if sharesClock n then (if chip.adcUsers - 1 = 0 then [(.adcClock, 0)] else []) else []
  | .ldoH, .fresh | .ldoH, .off => if chip.ldoHUsers + 1 = 1 then [(.ldoH, 1)] else []
  | .ldoH, .closing => if chip.ldoHUsers - 1 = 0 then [(.ldoH, 0)] else []
  | _, _ => []

theorem writeAll_if (c : Prop) [Decidable c] (regmap : ℕ → BitVec 8) (r : CaptureLine × BitVec 8)
    (ws : List (CaptureLine × BitVec 8)) : writeAll regmap (rowsOf CaptureLine.field ((if c then [r] else []) ++ ws)) =
      writeAll (if c then maskWrite regmap (r.1.field.row r.2) else regmap) (rowsOf CaptureLine.field ws) := by
  split <;> rfl

theorem advance_regmap (chip : CaptureChip) (w : CaptureWidget) (p : PowerPhase) :
    (advance chip w p).regmap =
      writeAll chip.regmap (rowsOf CaptureLine.field (w.sharedWrites chip p ++ w.writes p)) := by
  cases w with
  | adc n =>
      symm
      fin_cases n <;> cases p <;> first
        | rfl
        | exact writeAll_if (chip.adcUsers = 0) chip.regmap (.adcClock, 1) _
        | exact writeAll_if (chip.adcUsers - 1 = 0) chip.regmap (.adcClock, 0) _
  | dec n => fin_cases n <;> cases p <;> rfl
  | ldoH =>
      cases p with
      | fresh | off => exact (writeAll_if (chip.ldoHUsers + 1 = 1) chip.regmap (.ldoH, 1) []).symm
      | closing => exact (writeAll_if (chip.ldoHUsers - 1 = 0) chip.regmap (.ldoH, 0) []).symm
      | opening | starting | on | stopping => rfl

/-- The widget whose power cycle the bit follows; the others have users to count. -/
def CaptureLine.owner : CaptureLine → Option CaptureWidget
  | .adcClock | .ldoH => none
  | .adcInit n | .adcPower n => some (.adc n)
  | .decClock n | .decReset n | .mute n | .highPassOff n | .corner n => some (.dec n)

/-- The bit in a phase of its widget, where it is known. The clock of a decimator is only switched while it is mute,
and the first four converters are switched on while they are held. -/
def CaptureLine.value : CaptureLine → PowerPhase → Option (BitVec 8)
  | .adcClock, _ | .ldoH, _ => none
  | .adcInit n, p => some (if sharesClock n ∧ (p = .opening ∨ p = .starting) then 1 else 0)
  | .adcPower _, p | .decClock _, p => some (if p = .starting ∨ p = .on ∨ p = .stopping then 1 else 0)
  | .decReset _, _ => some 0
  | .mute _, p => if p = .fresh then none else some (if p = .on then 0 else 1)
  | .highPassOff _, p => if p = .fresh then none else some (if p = .off then 1 else 0)
  | .corner _, p => if p = .fresh then none else some 1

/-- The converters that share the clock and are not down. -/
def clockUsers (phase : CaptureWidget → PowerPhase) : Finset (Fin 6) :=
  Finset.univ.filter fun n => sharesClock n = true ∧ ¬(phase (.adc n)).Down

def ldoHUsers (phase : CaptureWidget → PowerPhase) : Finset Unit :=
  Finset.univ.filter fun _ => ¬(phase .ldoH).Down

/-- Every bit is what the phases say, the shared ones on exactly while somebody uses them. -/
structure CaptureKept (s : CaptureState) : Prop where
  lines : ∀ (i : CaptureLine) w, i.owner = some w → ∀ v, i.value (s.phase w) = some v → i.field.get s.chip.regmap = v
  adcClock : Counts (clockUsers s.phase) s.chip.adcUsers (CaptureLine.adcClock.field.get s.chip.regmap = 1)
  ldoH : Counts (ldoHUsers s.phase) s.chip.ldoHUsers (CaptureLine.ldoH.field.get s.chip.regmap = 1)

/-- The registers before anything is powered. -/
structure CaptureOff where
  regmap : ℕ → BitVec 8
  lines : ∀ (i : CaptureLine) v, i.value .fresh = some v → i.field.get regmap = v
  adcClock : CaptureLine.adcClock.field.get regmap = 0
  ldoH : CaptureLine.ldoH.field.get regmap = 0

def captureStart (found : CaptureOff) : CaptureState := ⟨⟨found.regmap, 0, 0⟩, fun _ => .fresh⟩

theorem one_and_mask : ∀ i : CaptureLine, 1 &&& i.field.mask = 1 := by
  decide +kernel

theorem mem_of_mem_if {α : Type} {c : Prop} [Decidable c] {r : α} {rs : List α} (h : r ∈ if c then rs else []) :
    r ∈ rs := by
  split at h
  · exact h
  · exact absurd h List.not_mem_nil

section
variable {chip : CaptureChip} {i : CaptureLine} {w : CaptureWidget} {p : PowerPhase}

theorem line_advance : i.field.get (advance chip w p).regmap =
    lastWritten CaptureLine.field i (w.writes p)
      (lastWritten CaptureLine.field i (w.sharedWrites chip p) (i.field.get chip.regmap)) := by
  rw [advance_regmap, get_writeAll_family captureLine_apart, lastWritten, List.foldl_append]
  rfl

theorem owner_writes : ∀ r ∈ w.writes p, r.1.owner = some w := by
  intro r hr
  cases w with
  | adc n =>
      cases p with
      | fresh | off => cases List.mem_singleton.mp (mem_of_mem_if hr); rfl
      | opening | starting | stopping => cases List.mem_singleton.mp hr; rfl
      | on | closing => exact absurd hr List.not_mem_nil
  | dec n => cases p <;> simp [CaptureWidget.writes] at hr <;> grind [CaptureLine.owner]
  | ldoH => cases p <;> exact absurd hr List.not_mem_nil

theorem sharedWrites_spec : ∀ r ∈ w.sharedWrites chip p,
    (r.1 = .adcClock ∧ ∃ n, sharesClock n = true ∧ w = .adc n) ∨ (r.1 = .ldoH ∧ w = .ldoH) := by
  intro r hr
  cases w with
  | adc n =>
      have hn : sharesClock n = true := by
        cases hn : sharesClock n with
        | true => rfl
        | false => cases p <;> simp [CaptureWidget.sharedWrites, hn] at hr
      cases p with
      | fresh | off | closing =>
          cases List.mem_singleton.mp (mem_of_mem_if (mem_of_mem_if hr))
          exact .inl ⟨rfl, n, hn, rfl⟩
      | opening | starting | on | stopping => exact absurd hr List.not_mem_nil
  | dec n => cases p <;> exact absurd hr List.not_mem_nil
  | ldoH =>
      cases p with
      | fresh | off | closing => cases List.mem_singleton.mp (mem_of_mem_if hr); exact .inr ⟨rfl, rfl⟩
      | opening | starting | on | stopping => exact absurd hr List.not_mem_nil

theorem lastWritten_value (hi : i.owner = some w) {old : BitVec 8} (hold : ∀ v, i.value p = some v → old = v) :
    ∀ v, i.value p.next = some v → lastWritten CaptureLine.field i (w.writes p) old = v := by
  have hone : ∀ i : CaptureLine, 1#8 &&& i.field.mask = 1#8 := one_and_mask
  cases i with
  | adcClock | ldoH => cases hi
  | adcInit n | adcPower n =>
      cases hi
      cases hn : sharesClock n <;> cases p <;>
        simp_all [CaptureLine.value, CaptureWidget.writes, lastWritten, PowerPhase.next]
  | decClock n | decReset n | mute n | highPassOff n | corner n =>
      cases hi
      cases p <;> simp_all [CaptureLine.value, CaptureWidget.writes, lastWritten, PowerPhase.next]

theorem lastWritten_other (hi : i.owner ≠ some w) (old : BitVec 8) :
    lastWritten CaptureLine.field i (w.writes p) old = old := by
  refine lastWritten_of_ne (fun r hr heq => hi ?_) old
  rw [heq]
  exact owner_writes r hr

theorem lastWritten_shared (hi : i.owner ≠ none) (old : BitVec 8) :
    lastWritten CaptureLine.field i (w.sharedWrites chip p) old = old := by
  refine lastWritten_of_ne (fun r hr heq => hi ?_) old
  obtain ⟨hline, -⟩ | ⟨hline, -⟩ := sharedWrites_spec r hr
  · rw [heq, hline]
    rfl
  · rw [heq, hline]
    rfl

end

theorem counts_advance {ι : Type} [DecidableEq ι] {users : Finset ι} {count : ℤ} {on : Prop} {u : ι} (p : PowerPhase)
    (h : Counts users count on) (hu : u ∈ users ↔ ¬p.Down) :
    Counts (if p.next.Down then users.erase u else insert u users)
      (if p.Down then count + 1 else if p = .closing then (if count - 1 < 0 then 0 else count - 1) else count)
      (if p.Down then count = 0 ∨ on else if p = .closing then count - 1 ≠ 0 ∧ on else on) := by
  by_cases hdown : p.Down
  · have hnext : ¬p.next.Down := by
      obtain rfl | rfl := hdown <;> decide
    rw [if_neg hnext, if_pos hdown, if_pos hdown]
    exact h.join (mt hu.mp (not_not.mpr hdown))
  · have hmem := hu.mpr hdown
    rw [if_neg hdown, if_neg hdown]
    by_cases hclosing : p = .closing
    · have hnext : p.next.Down := hclosing ▸ .inr rfl
      have hpos := h.pos hmem
      rw [if_pos hnext, if_pos hclosing, if_pos hclosing, if_neg (by omega)]
      exact h.leave hmem
    · have hnext : ¬p.next.Down := by
        cases p <;> simp_all [PowerPhase.Down, PowerPhase.next]
      rw [if_neg hnext, if_neg hclosing, if_neg hclosing, Finset.insert_eq_of_mem hmem]
      exact h

theorem mem_clockUsers {phase : CaptureWidget → PowerPhase} {n : Fin 6} :
    n ∈ clockUsers phase ↔ sharesClock n = true ∧ ¬(phase (.adc n)).Down := by
  rw [clockUsers, Finset.mem_filter]
  exact and_iff_right (Finset.mem_univ n)

theorem clockUsers_update (phase : CaptureWidget → PowerPhase) {n : Fin 6} (hn : sharesClock n = true)
    (p : PowerPhase) : clockUsers (Function.update phase (.adc n) p) =
      if p.Down then (clockUsers phase).erase n else insert n (clockUsers phase) := by
  ext m
  split <;> simp only [mem_clockUsers, Finset.mem_insert, Finset.mem_erase] <;> by_cases hm : m = n <;> simp_all

theorem clockUsers_congr {phase : CaptureWidget → PowerPhase} {w : CaptureWidget}
    (hw : ∀ n, sharesClock n = true → w ≠ .adc n) (p : PowerPhase) :
    clockUsers (Function.update phase w p) = clockUsers phase := by
  ext m
  rw [mem_clockUsers, mem_clockUsers]
  refine and_congr_right fun hm => ?_
  rw [Function.update_of_ne (hw m hm).symm]

theorem ldoHUsers_update (phase : CaptureWidget → PowerPhase) (p : PowerPhase) :
    ldoHUsers (Function.update phase .ldoH p) =
      if p.Down then (ldoHUsers phase).erase () else insert () (ldoHUsers phase) := by
  ext u
  split <;> simp_all [ldoHUsers]

section
variable (chip : CaptureChip) (p : PowerPhase)

theorem advance_adcUsers (n : Fin 6) : (advance chip (.adc n) p).adcUsers =
    if sharesClock n then
      (if p.Down then chip.adcUsers + 1
        else if p = .closing then (if chip.adcUsers - 1 < 0 then 0 else chip.adcUsers - 1) else chip.adcUsers)
    else chip.adcUsers := by
  fin_cases n <;> cases p <;> rfl

theorem advance_ldoHUsers : (advance chip .ldoH p).ldoHUsers =
    if p.Down then chip.ldoHUsers + 1
    else if p = .closing then (if chip.ldoHUsers - 1 < 0 then 0 else chip.ldoHUsers - 1) else chip.ldoHUsers := by
  cases p <;> rfl

/-- Only the converters count the clock, and only the supply itself. -/
theorem advance_users (w : CaptureWidget) :
    ((∀ n, w ≠ .adc n) → (advance chip w p).adcUsers = chip.adcUsers) ∧
      (w ≠ .ldoH → (advance chip w p).ldoHUsers = chip.ldoHUsers) := by
  cases w with
  | adc n => exact ⟨fun h => absurd rfl (h n), fun _ => by fin_cases n <;> cases p <;> rfl⟩
  | dec n => exact ⟨fun _ => by fin_cases n <;> cases p <;> rfl, fun _ => by fin_cases n <;> cases p <;> rfl⟩
  | ldoH => exact ⟨fun _ => by cases p <;> rfl, fun h => absurd rfl h⟩

/-- A shared bit is set by the first to come. -/
theorem lastWritten_set (i : CaptureLine) (c : Prop) [Decidable c] (old : BitVec 8) :
    lastWritten CaptureLine.field i (if c then [(i, 1)] else []) old = 1 ↔ c ∨ old = 1 := by
  by_cases hc : c
  · rw [if_pos hc]
    exact iff_of_true ((if_pos rfl).trans (one_and_mask i)) (.inl hc)
  · rw [if_neg hc]
    exact (or_iff_right hc).symm

/-- A shared bit is cleared by the last to leave. -/
theorem lastWritten_clear (i : CaptureLine) (c : Prop) [Decidable c] (old : BitVec 8) :
    lastWritten CaptureLine.field i (if c then [(i, 0)] else []) old = 1 ↔ ¬c ∧ old = 1 := by
  by_cases hc : c
  · rw [if_pos hc, show lastWritten CaptureLine.field i [(i, 0)] old = 0 from (if_pos rfl).trans BitVec.zero_and]
    exact iff_of_false (by decide) fun h => h.1 hc
  · rw [if_neg hc]
    exact (and_iff_right hc).symm

/-- The clock goes on with the first user and off with the last. -/
theorem clock_advance {n : Fin 6} (hn : sharesClock n = true) :
    CaptureLine.adcClock.field.get (advance chip (.adc n) p).regmap = 1 ↔
      if p.Down then chip.adcUsers = 0 ∨ CaptureLine.adcClock.field.get chip.regmap = 1
      else if p = .closing then chip.adcUsers - 1 ≠ 0 ∧ CaptureLine.adcClock.field.get chip.regmap = 1
      else CaptureLine.adcClock.field.get chip.regmap = 1 := by
  rw [line_advance, lastWritten_other (w := .adc n) (by simp [CaptureLine.owner])]
  cases p with
  | fresh | off =>
      rw [CaptureWidget.sharedWrites, if_pos hn]
      exact lastWritten_set _ _ _
  | closing =>
      rw [CaptureWidget.sharedWrites, if_pos hn]
      exact lastWritten_clear _ _ _
  | opening | starting | on | stopping => exact Iff.rfl

theorem ldoH_advance : CaptureLine.ldoH.field.get (advance chip .ldoH p).regmap = 1 ↔
    if p.Down then chip.ldoHUsers = 0 ∨ CaptureLine.ldoH.field.get chip.regmap = 1
    else if p = .closing then chip.ldoHUsers - 1 ≠ 0 ∧ CaptureLine.ldoH.field.get chip.regmap = 1
    else CaptureLine.ldoH.field.get chip.regmap = 1 := by
  have hfirst : chip.ldoHUsers + 1 = 1 ↔ chip.ldoHUsers = 0 := by omega
  rw [line_advance, lastWritten_other (w := .ldoH) (by simp [CaptureLine.owner])]
  cases p with
  | fresh | off =>
      rw [CaptureWidget.sharedWrites, lastWritten_set, hfirst]
      exact Iff.rfl
  | closing => exact lastWritten_clear _ _ _
  | opening | starting | on | stopping => exact Iff.rfl

end

theorem captureLine_mux_apart : ∀ (i : CaptureLine) (n : Fin 10), i.field.Apart ((decMuxEnum n).row 0) ∧
    i.field.Apart ((dmicBit n).row 0) ∧ i.field.Apart ((sbTxMuxEnum n).row 0) := by
  decide +kernel

section
variable {s : CaptureState}

/-- A step that leaves the bits, the counts and the phases alone. -/
theorem CaptureKept.of_bits (h : CaptureKept s) {regmap : ℕ → BitVec 8}
    (hbits : ∀ i : CaptureLine, i.field.get regmap = i.field.get s.chip.regmap) :
    CaptureKept { s with chip := { s.chip with regmap } } := by
  refine ⟨fun i w hi v hv => ?_, h.adcClock.congr ?_, h.ldoH.congr ?_⟩
  · exact (hbits i).trans (h.lines i w hi v hv)
  · rw [hbits]
  · rw [hbits]

theorem CaptureKept.advance_lines (h : CaptureKept s) (w : CaptureWidget) (i : CaptureLine) (u : CaptureWidget)
    (hi : i.owner = some u) (v : BitVec 8) (hv : i.value (Function.update s.phase w (s.phase w).next u) = some v) :
    i.field.get (advance s.chip w (s.phase w)).regmap = v := by
  rw [line_advance, lastWritten_shared fun hnone => by rw [hi] at hnone; cases hnone]
  by_cases hu : u = w
  · subst hu
    rw [Function.update_self] at hv
    exact lastWritten_value hi (h.lines i u hi) v hv
  · rw [Function.update_of_ne hu] at hv
    rw [lastWritten_other fun hw => hu (Option.some.inj (hi.symm.trans hw))]
    exact h.lines i u hi v hv

theorem CaptureKept.advance_clock (h : CaptureKept s) (w : CaptureWidget) :
    Counts (clockUsers (Function.update s.phase w (s.phase w).next)) (advance s.chip w (s.phase w)).adcUsers
      (CaptureLine.adcClock.field.get (advance s.chip w (s.phase w)).regmap = 1) := by
  by_cases hw : ∃ n, sharesClock n = true ∧ w = .adc n
  · obtain ⟨n, hn, rfl⟩ := hw
    rw [clockUsers_update _ hn, advance_adcUsers, if_pos hn]
    exact (counts_advance (s.phase (.adc n)) h.adcClock (mem_clockUsers.trans (and_iff_right hn))).congr
      (clock_advance s.chip _ hn)
  · have hother : ∀ n, sharesClock n = true → w ≠ .adc n := fun n hn heq => hw ⟨n, hn, heq⟩
    have hcount : (advance s.chip w (s.phase w)).adcUsers = s.chip.adcUsers := by
      by_cases hadc : ∃ n, w = .adc n
      · obtain ⟨n, rfl⟩ := hadc
        rw [advance_adcUsers, if_neg fun hn => hother n hn rfl]
      · exact (advance_users s.chip _ w).1 fun n heq => hadc ⟨n, heq⟩
    rw [clockUsers_congr hother, hcount, line_advance,
      lastWritten_other (w := w) (by simp [CaptureLine.owner]), lastWritten_of_ne]
    · exact h.adcClock
    · intro r hr heq
      obtain ⟨-, hsharing⟩ | ⟨hline, -⟩ := sharedWrites_spec r hr
      · exact hw hsharing
      · rw [hline] at heq
        cases heq

theorem CaptureKept.advance_ldoH (h : CaptureKept s) (w : CaptureWidget) :
    Counts (ldoHUsers (Function.update s.phase w (s.phase w).next)) (advance s.chip w (s.phase w)).ldoHUsers
      (CaptureLine.ldoH.field.get (advance s.chip w (s.phase w)).regmap = 1) := by
  by_cases hw : w = .ldoH
  · subst hw
    have hmem : () ∈ ldoHUsers s.phase ↔ ¬(s.phase .ldoH).Down := by
      rw [ldoHUsers, Finset.mem_filter]
      exact and_iff_right (Finset.mem_univ _)
    rw [ldoHUsers_update, advance_ldoHUsers]
    exact (counts_advance (s.phase .ldoH) h.ldoH hmem).congr (ldoH_advance s.chip _)
  · have husers : ldoHUsers (Function.update s.phase w (s.phase w).next) = ldoHUsers s.phase := by
      rw [ldoHUsers, Function.update_of_ne (Ne.symm hw)]
      rfl
    rw [husers, (advance_users s.chip _ w).2 hw, line_advance,
      lastWritten_other (w := w) (by simp [CaptureLine.owner]), lastWritten_of_ne]
    · exact h.ldoH
    · intro r hr heq
      obtain ⟨hline, -⟩ | ⟨-, hldoH⟩ := sharedWrites_spec r hr
      · rw [hline] at heq
        cases heq
      · exact hw hldoH

theorem CaptureKept.step (h : CaptureKept s) (a : CaptureAct) : CaptureKept (captureStep s a) := by
  cases a with
  | advance w => exact ⟨h.advance_lines w, h.advance_clock w, h.advance_ldoH w⟩
  | decMux n item =>
      refine h.of_bits fun i => ?_
      obtain ⟨hmux, hdmic, -⟩ := captureLine_mux_apart i n
      rw [wcd9320PutDecEnum_eq, get_putEnum_of_apart hmux, Field.get_row_of_apart hdmic]
  | slimTxMux p item => exact h.of_bits fun i => get_putEnum_of_apart (captureLine_mux_apart i p).2.2

end

/-- In every order of power cycles and mux writes each bit is what the phases of the widgets say, and the clock and the
supply are on exactly while one of their users is not down. -/
theorem capture_kept (found : CaptureOff) (as : List CaptureAct) :
    CaptureKept (run captureStep (captureStart found) as) := by
  refine run_keeps (I := CaptureKept) (fun _ a h => h.step a) ⟨fun i w _ v hv => found.lines i v hv, ?_, ?_⟩ as
  · have hoff : ¬CaptureLine.adcClock.field.get found.regmap = 1 := by
      rw [found.adcClock]
      decide
    have hnone : clockUsers (fun _ => .fresh) = ∅ := by decide
    rw [show (captureStart found).phase = fun _ => .fresh from rfl, hnone]
    exact counts_none hoff
  · have hoff : ¬CaptureLine.ldoH.field.get found.regmap = 1 := by
      rw [found.ldoH]
      decide
    have hnone : ldoHUsers (fun _ => .fresh) = ∅ := by decide
    rw [show (captureStart found).phase = fun _ => .fresh from rfl, hnone]
    exact counts_none hoff

def clearedRegisters : CaptureOff where
  regmap := fun _ => 0
  lines i v hv := by
    cases i with
    | adcClock | ldoH | mute | highPassOff | corner => cases hv
    | adcInit | adcPower | decClock | decReset => simpa [CaptureLine.value] using hv
  adcClock := rfl
  ldoH := rfl

local instance neZeroSix : NeZero 6 := ⟨by decide⟩

local instance neZeroTen : NeZero 10 := ⟨by decide⟩

/-- The first two converters come up, the first as far as its event after, and the second goes down again. -/
def secondConverterGoes : List CaptureAct :=
  [.advance (.adc 0), .advance (.adc 1), .advance (.adc 0), .advance (.adc 0), .decMux 2 1, .advance (.adc 1),
    .advance (.adc 1), .advance (.adc 1), .advance (.adc 1), .advance (.adc 1)]

theorem capture_kept_one_converter :
    (run captureStep (captureStart clearedRegisters) secondConverterGoes).chip.adcUsers = 1 ∧
      CaptureLine.adcClock.field.get
        (run captureStep (captureStart clearedRegisters) secondConverterGoes).chip.regmap = 1 ∧
      CaptureKept (run captureStep (captureStart clearedRegisters) secondConverterGoes) :=
  ⟨by decide +kernel, by decide +kernel, capture_kept clearedRegisters secondConverterGoes⟩

end Sirius.Wcd9320
