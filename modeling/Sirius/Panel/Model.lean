import Mathlib.Data.Int.Order.Basic

/-!
# The display panel, panel-sony-sirius.c

The variants, and the panel between its two supplies. Times are in nanoseconds; a sleep takes at least what it is
asked for.
-/
namespace Sirius.Panel

inductive Variant
  | renesasSharp
  | renesasAuo
  | renesasJdi
  | novatekJdi
  deriving DecidableEq, Repr

/-- `struct sirius_reset_step` -/
structure ResetStep where
  release : Bool
  delayMs : ℕ
  deriving DecidableEq, Repr

/-- `struct sirius_panel_desc` -/
structure PanelDesc where
  lcdIdAdcMin : ℕ
  lcdIdAdcMax : ℕ
  vspOnPreMs : ℕ
  vspOnPostMs : ℕ
  resetOn : List ResetStep
  resetOffPre : List ResetStep
  vspOffPostMs : ℕ
  resetOff : List ResetStep
  powerDownMs : ℕ
  deriving DecidableEq, Repr

def siriusResetRelease10ms : List ResetStep := [⟨true, 10⟩]
def siriusResetAssert : List ResetStep := [⟨false, 0⟩]
def siriusSharpResetOn : List ResetStep := [⟨false, 60⟩, ⟨true, 10⟩]
def siriusSharpResetOffPre : List ResetStep := [⟨false, 10⟩]
def siriusAuoResetOn : List ResetStep := [⟨true, 10⟩, ⟨false, 1⟩, ⟨true, 10⟩]

def siriusPanels : Variant → PanelDesc
  | .renesasSharp =>
      { lcdIdAdcMin := 0
        lcdIdAdcMax := 57000
        vspOnPreMs := 25
        vspOnPostMs := 0
        resetOn := siriusSharpResetOn
        resetOffPre := siriusSharpResetOffPre
        vspOffPostMs := 50
        resetOff := []
        powerDownMs := 0 }
  | .renesasAuo =>
      { lcdIdAdcMin := 215000
        lcdIdAdcMax := 256000
        vspOnPreMs := 0
        vspOnPostMs := 0
        resetOn := siriusAuoResetOn
        resetOffPre := []
        vspOffPostMs := 0
        resetOff := siriusResetAssert
        powerDownMs := 0 }
  | .renesasJdi =>
      { lcdIdAdcMin := 353000
        lcdIdAdcMax := 414000
        vspOnPreMs := 5
        vspOnPostMs := 15
        resetOn := siriusResetRelease10ms
        resetOffPre := []
        vspOffPostMs := 70
        resetOff := siriusResetAssert
        powerDownMs := 0 }
  | .novatekJdi =>
      { lcdIdAdcMin := 1087000
        lcdIdAdcMax := 1231000
        vspOnPreMs := 5
        vspOnPostMs := 20
        resetOn := siriusResetRelease10ms
        resetOffPre := []
        vspOffPostMs := 70
        resetOff := siriusResetAssert
        powerDownMs := 200 }

def NSEC_PER_MSEC : ℕ := 1000000

/-- What disabled vddio. -/
inductive OffPath
  | powerOff
  | vspFailed
  deriving DecidableEq, Repr

/-- `struct sirius_panel` with its surroundings: the clock, how often each supply is enabled, the reset line, the
flag of drm_panel. `lastOff` is how and when vddio was disabled last; `gaps` has, for each time it was enabled since,
when it had been disabled and when it was enabled. -/
structure SiriusPanel where
  now : ℕ
  vddio : ℤ
  vsp : ℤ
  reset : Bool
  offTime : ℕ
  prepared : Bool
  lastOff : Option (OffPath × ℕ)
  gaps : List (ℕ × ℕ)
  deriving DecidableEq, Repr

/-- After probe, on a clock that has started. -/
def siriusPanelProbe (start : ℕ) : SiriusPanel where
  now := start + 1
  vddio := 0
  vsp := 0
  reset := true
  offTime := 0
  prepared := false
  lastOff := none
  gaps := []

namespace SiriusPanel
variable (s : SiriusPanel)

/-- `fsleep`, and what else the time passes with. -/
def sleep (ms spent : ℕ) : SiriusPanel := { s with now := s.now + ms * NSEC_PER_MSEC + spent }

def enableVddio : SiriusPanel :=
  { s with
    vddio := s.vddio + 1
    gaps := match s.lastOff with
      | none => s.gaps
      | some (_, off) => s.gaps ++ [(off, s.now)] }

def disableVddio (path : OffPath) : SiriusPanel := { s with vddio := s.vddio - 1, lastOff := some (path, s.now) }

end SiriusPanel

/-- The GPIO is active low. -/
def siriusPanelRunResetSeq (seq : List ResetStep) (s : SiriusPanel) : SiriusPanel :=
  seq.foldl (fun s step => { s with reset := !step.release }.sleep step.delayMs 0) s

/-- What the calls of a prepare return, as errno values, and the time that passes at its points. -/
structure PrepareEnv where
  vddio : ℕ
  vsp : ℕ
  init : ℕ
  spent : ℕ → ℕ

section
variable (desc : PanelDesc)

/-- What is left of the time that vddio has to stay off. -/
def powerDownWait (s : SiriusPanel) : ℕ :=
  if desc.powerDownMs ≠ 0 ∧ s.offTime ≠ 0 then
    let sinceOff := (s.now - s.offTime) / NSEC_PER_MSEC
    if sinceOff < desc.powerDownMs then desc.powerDownMs - sinceOff else 0
  else 0

/-- `sirius_panel_power_on` up to where it enables vddio. -/
def powerDownPeriod (env : PrepareEnv) (s : SiriusPanel) : SiriusPanel :=
  let s := s.sleep 0 (env.spent 0)
  s.sleep (powerDownWait desc s) (env.spent 1)

def siriusPanelPowerOn (env : PrepareEnv) (s : SiriusPanel) : SiriusPanel × ℤ :=
  let s := powerDownPeriod desc env s
  if env.vddio ≠ 0 then (s, -env.vddio)
  else
    let s := s.enableVddio.sleep desc.vspOnPreMs (env.spent 2)
    if env.vsp ≠ 0 then (s.disableVddio .vspFailed, -env.vsp)
    else
      let s := { s with vsp := s.vsp + 1 }.sleep desc.vspOnPostMs (env.spent 3)
      (siriusPanelRunResetSeq desc.resetOn s, 0)

def siriusPanelPowerOff (spent : ℕ → ℕ) (s : SiriusPanel) : SiriusPanel :=
  let s := siriusPanelRunResetSeq desc.resetOffPre s
  let s := { s with vsp := s.vsp - 1 }.sleep desc.vspOffPostMs (spent 5)
  let s := (siriusPanelRunResetSeq desc.resetOff s).disableVddio .powerOff
  let s := s.sleep 0 (spent 6)
  { s with offTime := s.now }

def siriusPanelPrepare (env : PrepareEnv) (s : SiriusPanel) : SiriusPanel × ℤ :=
  let (s, ret) := siriusPanelPowerOn desc env s
  if ret ≠ 0 then (s, ret)
  else
    let s := s.sleep 0 (env.spent 4)
    if env.init ≠ 0 then (siriusPanelPowerOff desc env.spent s, -env.init) else (s, 0)

inductive PanelAct
  | wait (ns : ℕ)
  | prepare (env : PrepareEnv)
  | unprepare (spent : ℕ → ℕ)

/-- `drm_panel_prepare` and `drm_panel_unprepare` do nothing to a panel that is, or is not, prepared. -/
def panelStep (s : SiriusPanel) : PanelAct → SiriusPanel
  | .wait ns => s.sleep 0 ns
  | .prepare env =>
      if s.prepared then s
      else
        let (s, ret) := siriusPanelPrepare desc env s
        if ret < 0 then s else { s with prepared := true }
  | .unprepare spent => if s.prepared then { siriusPanelPowerOff desc spent s with prepared := false } else s

end
end Sirius.Panel
