import Mathlib.Data.Finset.Lattice.Lemmas
import Sirius.Camera.BayerOrder
import Sirius.Lib.Ledger

/-!
# The life of the sensor

From `imx132_probe` to `imx132_remove`: the supplies come before the reset line and the clock and go after them, and
between the two runtime power management has the sensor on while anyone uses it.
-/
namespace Sirius.Camera
open Controls Ledgers Runs

@[simp] def ENOMEM : ℤ := 12
@[simp] def ENODEV : ℤ := 19
def IMX132_CHIP_ID : ℕ := 0x0132
def IMX132_XCLK_FREQ : ℕ := 19200000

/-- What the driver has, besides what is given back for it. The reset line is had while it is high. -/
inductive Resource
  | supplies
  | reset
  | xclk
  | ctrlHandler
  | entity
  | subdev
  | async
  deriving DecidableEq, Repr

/-- The clock runs with the reset line high only, and that is high with the supplies on only. What is registered is
all there. -/
def InOrder (held : Finset Resource) : Prop :=
  (.xclk ∈ held → .reset ∈ held) ∧ (.reset ∈ held → .supplies ∈ held) ∧
    (.async ∈ held → .ctrlHandler ∈ held ∧ .entity ∈ held ∧ .subdev ∈ held)

instance : DecidablePred InOrder := fun _ => inferInstanceAs (Decidable (_ ∧ _))

/-- An error number of the kernel, zero for none. -/
abbrev Ret := { ret : ℤ // ret ≤ 0 }

/-- The device next to its sensor. The count of references is the one of the sensor. `active` and `enabled` are of
runtime power management, `holders` has the references that others than the driver have taken. -/
structure Client where
  log : List (Event Resource)
  active : Bool
  enabled : Bool
  bound : Bool
  holders : ℕ
  sensor : Sensor

namespace Client

def acquire (c : Client) (r : Resource) : Client := { c with log := c.log ++ [.acquire r] }

def release (c : Client) (r : Resource) : Client := { c with log := c.log ++ [.release r] }

def setUsage (c : Client) (usage : ℕ) : Client :=
  { c with sensor := { c.sensor with dev := { c.sensor.dev with usage } } }

structure PowerEnv where
  supplies : Ret
  xclk : Ret

def imx132PowerOn (env : PowerEnv) (c : Client) : ℤ × Client :=
  if env.supplies.1 ≠ 0 then (env.supplies, c)
  else
    let c := (c.acquire .supplies).acquire .reset
    if env.xclk.1 ≠ 0 then (env.xclk, (c.release .reset).release .supplies) else (0, c.acquire .xclk)

def imx132PowerOff (c : Client) : Client := ((c.release .xclk).release .reset).release .supplies

/-- What `rpm_resume` gets, unless it refuses. -/
structure ResumeEnv where
  refused : Ret
  power : PowerEnv

/-- `rpm_resume` of a device whose power management is enabled. -/
def rpmResume (env : ResumeEnv) (c : Client) : ℤ × Client :=
  if c.active then (1, c)
  else if env.refused.1 ≠ 0 then (env.refused, c)
  else
    let (ret, c) := imx132PowerOn env.power c
    if ret ≠ 0 then (ret, c) else (0, { c with active := true })

/-- `pm_runtime_resume_and_get` as others call it. -/
def hold (env : ResumeEnv) (c : Client) : Client :=
  let (ret, c) := rpmResume env c
  if ret < 0 then c else { c.setUsage (c.sensor.dev.usage + 1) with holders := c.holders + 1 }

def unhold (c : Client) : Client :=
  if c.holders = 0 then c else { c.setUsage (c.sensor.dev.usage - 1) with holders := c.holders - 1 }

/-- The timer of `pm_runtime_use_autosuspend`. -/
def autosuspend (c : Client) : Client :=
  if c.active ∧ c.sensor.dev.usage = 0 then { imx132PowerOff c with active := false } else c

structure ProbeEnv where
  allocated : Bool
  endpoint : Bool
  parse : Ret
  lanes : ℕ
  regmap : Ret
  xclk : Ret
  xclkFreq : ℕ
  supplies : Ret
  resetGpio : Ret
  power : PowerEnv
  idRead : Ret
  chipId : ℕ
  handlerInit : Ret
  handler : Ret
  fwnodeParse : Ret
  fwnodeProperties : Ret
  padsInit : Ret
  initFinalize : Ret
  register : Ret

def imx132CheckHwcfg (env : ProbeEnv) : ℤ :=
  if env.endpoint = false then - EINVAL
  else if env.parse.1 ≠ 0 then env.parse
  else if env.lanes ≠ 2 then - EINVAL
  else 0

def imx132IdentifyModule (env : ProbeEnv) : ℤ :=
  if env.idRead.1 ≠ 0 then env.idRead
  else if env.chipId ≠ IMX132_CHIP_ID then - ENODEV
  else 0

/-- The handler of `imx132_init_controls`, which has the controls of `Camera.imx132InitControls`. -/
def imx132InitControls (env : ProbeEnv) (c : Client) : ℤ × Client :=
  if env.handlerInit.1 ≠ 0 then (env.handlerInit, c)
  else
    let c := c.acquire .ctrlHandler
    if env.handler.1 ≠ 0 then (env.handler, c.release .ctrlHandler)
    else if env.fwnodeParse.1 ≠ 0 then (env.fwnodeParse, c.release .ctrlHandler)
    else if env.fwnodeProperties.1 ≠ 0 then (env.fwnodeProperties, c.release .ctrlHandler)
    else (0, c)

def errPowerOff (ret : ℤ) (c : Client) : ℤ × Client := (ret, imx132PowerOff c)

def errFreeCtrls (ret : ℤ) (c : Client) : ℤ × Client := errPowerOff ret (c.release .ctrlHandler)

def errMediaCleanup (ret : ℤ) (c : Client) : ℤ × Client := errFreeCtrls ret (c.release .entity)

/-- Behind the label, the driver core takes a device that is active for suspended again. -/
def errPm (ret : ℤ) (c : Client) : ℤ × Client :=
  let c := { c.setUsage (c.sensor.dev.usage - 1) with enabled := false }
  let (ret, c) := errMediaCleanup ret (c.release .subdev)
  (ret, { c with active := false })

/-- `imx132_probe` from where the subdev is there. -/
def probeRegister (env : ProbeEnv) (c : Client) : ℤ × Client :=
  let c := { c.setUsage (c.sensor.dev.usage + 1) with active := true, enabled := true }
  if env.register.1 < 0 then errPm env.register c
  else
    let c := c.acquire .async
    (0, { c.setUsage (c.sensor.dev.usage - 1) with bound := true })

/-- `imx132_probe` from where the controls are there. -/
def probePads (env : ProbeEnv) (c : Client) : ℤ × Client :=
  if env.padsInit.1 ≠ 0 then errFreeCtrls env.padsInit c
  else
    let c := c.acquire .entity
    if env.initFinalize.1 < 0 then errMediaCleanup env.initFinalize c else probeRegister env (c.acquire .subdev)

/-- `imx132_probe` with the sensor on. -/
def probePowered (env : ProbeEnv) (c : Client) : ℤ × Client :=
  let ret := imx132IdentifyModule env
  if ret ≠ 0 then errPowerOff ret c
  else
    let (ret, c) := imx132InitControls env c
    if ret ≠ 0 then errPowerOff ret c else probePads env c

/-- The driver has new controls. What was written stays. -/
def imx132Probe (env : ProbeEnv) (c : Client) : ℤ × Client :=
  if env.allocated = false then (- ENOMEM, c)
  else
    let c := { c with sensor := ⟨Camera.imx132InitControls, c.sensor.dev⟩ }
    let ret := imx132CheckHwcfg env
    if ret ≠ 0 then (ret, c)
    else if env.regmap.1 ≠ 0 then (env.regmap, c)
    else if env.xclk.1 ≠ 0 then (env.xclk, c)
    else if env.xclkFreq ≠ IMX132_XCLK_FREQ then (- EINVAL, c)
    else if env.supplies.1 ≠ 0 then (env.supplies, c)
    else if env.resetGpio.1 ≠ 0 then (env.resetGpio, c)
    else
      let (ret, c) := imx132PowerOn env.power c
      if ret ≠ 0 then (ret, c) else probePowered env c

def imx132Remove (c : Client) : Client :=
  let c := (((c.release .async).release .subdev).release .entity).release .ctrlHandler
  let c := { c with enabled := false }
  let c := if c.active then imx132PowerOff c else c
  { c with
    active := false
    bound := false
    sensor := { c.sensor with dev := { c.sensor.dev with enabled := false } } }

/-- The sensor as `pm_runtime_get_if_in_use` has it: nobody uses it while it is suspended. -/
def inUse (c : Client) : Sensor := if c.active then c.sensor else (c.setUsage 0).sensor

def setCtrl (id : CtrlId) (value : ℤ) (c : Client) : Client :=
  { c with sensor := (write imx132SetCtrl id value c.inUse).2 }.setUsage c.sensor.dev.usage

def enableStreams (env : ResumeEnv) (c : Client) : Client :=
  let (ret, c) := rpmResume env c
  { c with sensor := finish true (imx132EnableStreams ret c.sensor) }

def disableStreams (c : Client) : Client := { c with sensor := finish false (imx132DisableStreams c.sensor) }

inductive LifeAct
  | probe (env : ProbeEnv)
  | remove
  | hold (env : ResumeEnv)
  | unhold
  | autosuspend
  | setCtrl (id : CtrlId) (value : ℤ) (bus : List ℤ)
  | enableStreams (env : ResumeEnv) (bus : List ℤ)
  | disableStreams (bus : List ℤ)

def LifeAct.bus : LifeAct → List ℤ
  | .setCtrl _ _ bus | .enableStreams _ bus | .disableStreams bus => bus
  | _ => []

/-- A driver is only probed where it is not bound, and all else happens while it is. The subdev core starts no stream
twice and stops none that is not enabled. -/
def act (c : Client) : LifeAct → Client
  | .probe env => if c.bound then c else (imx132Probe env c).2
  | .remove => if c.bound then imx132Remove c else c
  | .hold env => if c.bound then hold env c else c
  | .unhold => unhold c
  | .autosuspend => if c.bound then autosuspend c else c
  | .setCtrl id value _ => if c.bound then setCtrl id value c else c
  | .enableStreams env _ => if c.bound ∧ c.sensor.dev.enabled = false then enableStreams env c else c
  | .disableStreams _ => if c.bound ∧ c.sensor.dev.enabled then disableStreams c else c

def live (c : Client) (a : LifeAct) : Client := act { c with sensor := onBus a.bus c.sensor } a

def unbound : Client :=
  { log := [], active := false, enabled := false, bound := false, holders := 0, sensor := Camera.imx132Probe }

def rails : Finset Resource := {.supplies, .reset, .xclk}

def published : Finset Resource := {.ctrlHandler, .entity, .subdev, .async}

def had (c : Client) : Finset Resource :=
  if c.bound then if c.active then published ∪ rails else published else ∅

/-- The driver has what it is to have, with everything in order on the way, and the sensor is on while it is used. -/
structure Sound (c : Client) : Prop where
  had : replay InOrder c.log = some c.had
  managed : c.enabled = c.bound
  off : c.bound = false → c.active = false ∧ c.sensor.dev.enabled = false
  used : c.bound = true → c.sensor.dev.usage ≠ 0 → c.active = true

/-- Every reference is one that somebody uses. -/
def Counted (c : Client) : Prop := c.sensor.dev.usage = c.holders + if c.sensor.dev.enabled then 1 else 0

def Silent (c : Client) (a : LifeAct) : Prop :=
  (live c a).sensor.dev.writes = c.sensor.dev.writes ∧ (live c a).sensor.dev.bus = a.bus

/-- The references are those of the users, and a sensor that is off is not spoken to. -/
def Minded (c : Client) (a : LifeAct) : Prop := Counted (live c a) ∧ ((live c a).active = false → Silent c a)

/-- No stop of a stream fails on the bus, and no driver is removed with a stream. -/
def Orderly (c : Client) : LifeAct → Prop
  | .disableStreams bus => c.bound = true → c.sensor.dev.enabled = true → bus.headD 0 = 0
  | .remove => c.bound = true → c.sensor.dev.enabled = false
  | _ => True

section
variable {c : Client} {held : Finset Resource} {r : Resource}

def Has (c : Client) (held : Finset Resource) : Prop := replay InOrder c.log = some held

theorem Has.acquire {t : Finset Resource} (h : c.Has held)
    (hr : record InOrder held (.acquire r) = some t) : (c.acquire r).Has t := by
  rw [Has, Client.acquire, replay_concat, h]
  exact hr

theorem Has.release {t : Finset Resource} (h : c.Has held)
    (hr : record InOrder held (.release r) = some t) : (c.release r).Has t := by
  rw [Has, Client.release, replay_concat, h]
  exact hr

theorem powerOn_has (env : PowerEnv) (hheld : held = ∅ ∨ held = published) (h : c.Has held) :
    ∃ log, (imx132PowerOn env c).2 = { c with log } ∧ (imx132PowerOn env c).1 ≤ 0 ∧
      replay InOrder log = some (if (imx132PowerOn env c).1 = 0 then held ∪ rails else held) := by
  unfold imx132PowerOn
  split
  · exact ⟨c.log, rfl, env.supplies.2, h⟩
  · have hup : ((c.acquire .supplies).acquire .reset).Has (held ∪ {.supplies, .reset}) := by
      rcases hheld with rfl | rfl
      · exact (h.acquire (t := {.supplies}) (by decide)).acquire (by decide)
      · exact (h.acquire (t := published ∪ {.supplies}) (by decide)).acquire (by decide)
    dsimp only
    split
    · refine ⟨_, rfl, env.xclk.2, ?_⟩
      rcases hheld with rfl | rfl
      · exact (hup.release (t := {.supplies}) (by decide)).release (by decide)
      · exact (hup.release (t := published ∪ {.supplies}) (by decide)).release (by decide)
    · refine ⟨_, rfl, Int.le_refl 0, ?_⟩
      rw [if_pos rfl]
      rcases hheld with rfl | rfl <;> exact hup.acquire (by decide)

theorem powerOff_has (hheld : held = ∅ ∨ held = published) (h : c.Has (held ∪ rails)) :
    (imx132PowerOff c).Has held := by
  rcases hheld with rfl | rfl
  · exact ((h.release (t := {.supplies, .reset}) (by decide)).release (t := {.supplies}) (by decide)).release
      (by decide)
  · exact ((h.release (t := published ∪ {.supplies, .reset}) (by decide)).release
      (t := published ∪ {.supplies}) (by decide)).release (by decide)

/-- A sensor that is on stays so, and one that is not is on where nothing is refused. -/
theorem Sound.rpmResume (h : c.Sound) (hbound : c.bound = true) (env : ResumeEnv) :
    ∃ log, (rpmResume env c).2 = { c with log, active := decide (0 ≤ (Client.rpmResume env c).1) } ∧
      replay InOrder log = some (if 0 ≤ (Client.rpmResume env c).1 then published ∪ rails else published) := by
  have hhad := h.had
  unfold Client.had at hhad
  rw [if_pos hbound] at hhad
  unfold Client.rpmResume
  split
  · rename_i hactive
    rw [if_pos hactive] at hhad
    refine ⟨c.log, ?_, hhad⟩
    dsimp only
    rw [decide_eq_true (by decide), ← hactive]
  · rename_i hactive
    rw [if_neg hactive] at hhad
    have hoff : c.active = false := (Bool.not_eq_true _).mp hactive
    split
    · rename_i hrefused
      have hneg : ¬(0 ≤ env.refused.1) := fun hle => hrefused (Int.le_antisymm env.refused.2 hle)
      refine ⟨c.log, ?_, ?_⟩
      · dsimp only
        rw [decide_eq_false hneg, ← hoff]
      · rw [if_neg hneg]
        exact hhad
    · obtain ⟨log, heq, hle, hlog⟩ := powerOn_has env.power (.inr rfl) hhad
      dsimp only
      split
      · rename_i hne
        have hneg : ¬(0 ≤ (imx132PowerOn env.power c).1) := fun hle' => hne (Int.le_antisymm hle hle')
        rw [if_neg hne] at hlog
        refine ⟨log, ?_, ?_⟩
        · dsimp only
          rw [decide_eq_false hneg, heq, ← hoff]
        · rw [if_neg hneg]
          exact hlog
      · rename_i hzero
        rw [if_pos (not_not.mp hzero)] at hlog
        refine ⟨log, ?_, hlog⟩
        dsimp only
        rw [heq]
        rfl

inductive Probed (c : Client) : Client → Prop
  | failed (log : List (Event Resource)) (ctrl : CtrlId → Control) (hlog : replay InOrder log = some ∅) :
      Probed c { c with log, sensor := ⟨ctrl, c.sensor.dev⟩ }
  | bound (log : List (Event Resource)) (ctrl : CtrlId → Control)
      (hlog : replay InOrder log = some (published ∪ rails)) :
      Probed c { c with log, active := true, enabled := true, bound := true, sensor := ⟨ctrl, c.sensor.dev⟩ }

theorem errPowerOff_has (ret : ℤ) (h : c.Has rails) : (errPowerOff ret c).2.Has ∅ :=
  powerOff_has (.inl rfl) (by rwa [Finset.empty_union])

theorem errFreeCtrls_has (ret : ℤ) (h : c.Has ({.ctrlHandler} ∪ rails)) : (errFreeCtrls ret c).2.Has ∅ :=
  errPowerOff_has ret (h.release (by decide))

theorem errMediaCleanup_has (ret : ℤ) (h : c.Has ({.ctrlHandler, .entity} ∪ rails)) :
    (errMediaCleanup ret c).2.Has ∅ :=
  errFreeCtrls_has ret (h.release (by decide))

structure Free (c : Client) : Prop where
  active : c.active = false
  enabled : c.enabled = false

theorem Free.failed (h : c.Free) {log : List (Event Resource)} (ctrl : CtrlId → Control)
    (hlog : replay InOrder log = some ∅) : Probed c ⟨log, false, false, c.bound, c.holders, ⟨ctrl, c.sensor.dev⟩⟩ := by
  have hfailed := Probed.failed (c := c) log ctrl hlog
  rwa [h.active, h.enabled] at hfailed

theorem probeRegister_probed (env : ProbeEnv) (hfree : c.Free) (h : c.Has ({.ctrlHandler, .entity, .subdev} ∪ rails)) :
    Probed c (probeRegister env c).2 := by
  unfold probeRegister
  dsimp only
  split
  · have hcleanup := errMediaCleanup_has 0 (h.release (r := .subdev) (by decide))
    exact hfree.failed c.sensor.ctrl hcleanup
  · exact .bound _ c.sensor.ctrl (h.acquire (r := .async) (by decide))

/-- What the probe has done before does not show in what it comes to. -/
theorem Probed.before {c' : Client} {log : List (Event Resource)} {ctrl : CtrlId → Control}
    (h : Probed { c with log, sensor := ⟨ctrl, c.sensor.dev⟩ } c') : Probed c c' := by
  cases h with
  | failed log' ctrl' hlog => exact .failed log' ctrl' hlog
  | bound log' ctrl' hlog => exact .bound log' ctrl' hlog

theorem probePads_probed (env : ProbeEnv) (hfree : c.Free) (h : c.Has ({.ctrlHandler} ∪ rails)) :
    Probed c (probePads env c).2 := by
  have hentity : (c.acquire .entity).Has ({.ctrlHandler, .entity} ∪ rails) := h.acquire (by decide)
  unfold probePads
  split
  · exact .failed _ c.sensor.ctrl (errFreeCtrls_has 0 h)
  dsimp only
  split
  · exact .failed _ c.sensor.ctrl (errMediaCleanup_has 0 hentity)
  · exact Probed.before (c := c) (probeRegister_probed env (c := (c.acquire .entity).acquire .subdev)
      ⟨hfree.active, hfree.enabled⟩ (hentity.acquire (by decide)))

theorem initControls_has (env : ProbeEnv) (h : c.Has rails) :
    ∃ log, (imx132InitControls env c).2 = { c with log } ∧
      replay InOrder log = some (if (imx132InitControls env c).1 = 0 then {.ctrlHandler} ∪ rails else rails) := by
  have hinit : (c.acquire .ctrlHandler).Has ({.ctrlHandler} ∪ rails) := h.acquire (by decide)
  have hfree : ((c.acquire .ctrlHandler).release .ctrlHandler).Has rails := hinit.release (by decide)
  unfold imx132InitControls
  dsimp only
  split
  · exact ⟨c.log, rfl, h⟩
  split
  · exact ⟨_, rfl, hfree⟩
  split
  · exact ⟨_, rfl, hfree⟩
  split
  · exact ⟨_, rfl, hfree⟩
  · exact ⟨_, rfl, hinit⟩

theorem probePowered_probed (env : ProbeEnv) (hfree : c.Free) (h : c.Has rails) :
    Probed c (probePowered env c).2 := by
  obtain ⟨log, heq, hlog⟩ := initControls_has env h
  unfold probePowered
  dsimp only
  split
  · exact .failed _ c.sensor.ctrl (errPowerOff_has 0 h)
  rw [heq]
  split
  · rename_i hne
    rw [if_neg hne] at hlog
    exact .failed _ c.sensor.ctrl (errPowerOff_has (c := { c with log }) 0 hlog)
  · rename_i hzero
    rw [if_pos (not_not.mp hzero)] at hlog
    exact (probePads_probed env (c := { c with log }) ⟨hfree.active, hfree.enabled⟩ hlog).before

theorem probe_probed (env : ProbeEnv) (hfree : c.Free) (h : c.Has ∅) : Probed c (imx132Probe env c).2 := by
  have hsame : ∀ ctrl, Probed c { c with sensor := ⟨ctrl, c.sensor.dev⟩ } := fun ctrl => .failed c.log ctrl h
  obtain ⟨log, heq, -, hlog⟩ := powerOn_has (c := { c with sensor := ⟨Camera.imx132InitControls, c.sensor.dev⟩ })
    env.power (.inl rfl) h
  unfold imx132Probe
  dsimp only
  split
  · exact hsame c.sensor.ctrl
  split
  · exact hsame _
  split
  · exact hsame _
  split
  · exact hsame _
  split
  · exact hsame _
  split
  · exact hsame _
  split
  · exact hsame _
  rw [heq]
  split
  · rename_i hne
    rw [if_neg hne] at hlog
    exact .failed log _ hlog
  · rename_i hon
    rw [if_pos (not_not.mp hon), Finset.empty_union] at hlog
    exact (probePowered_probed env (c := { c with log, sensor := ⟨Camera.imx132InitControls, c.sensor.dev⟩ })
      ⟨hfree.active, hfree.enabled⟩ hlog).before

theorem Sound.probe (h : c.Sound) (hbound : c.bound = false) (env : ProbeEnv) :
    (imx132Probe env c).2.Sound ∧ (imx132Probe env c).2.sensor.dev = c.sensor.dev ∧
      (imx132Probe env c).2.holders = c.holders := by
  have hhad := h.had
  unfold Client.had at hhad
  rw [hbound, if_neg Bool.false_ne_true] at hhad
  have hprobed := probe_probed env ⟨(h.off hbound).1, h.managed.trans hbound⟩ hhad
  generalize (imx132Probe env c).2 = c' at hprobed
  cases hprobed with
  | failed log ctrl hlog =>
      refine ⟨⟨?_, h.managed, h.off, fun hb => ?_⟩, rfl, rfl⟩
      · unfold Client.had
        dsimp only
        rw [hbound, if_neg Bool.false_ne_true]
        exact hlog
      · exact absurd (hbound.symm.trans hb) Bool.false_ne_true
  | bound log ctrl hlog =>
      refine ⟨⟨hlog, rfl, fun hb => absurd hb.symm Bool.false_ne_true, fun _ _ => rfl⟩, rfl, rfl⟩

/-- What is registered is taken back first, whether the sensor is on or off. -/
theorem unpublish_has {power : Finset Resource} (hpower : power = ∅ ∨ power = rails) (h : c.Has (published ∪ power)) :
    ((((c.release .async).release .subdev).release .entity).release .ctrlHandler).Has power := by
  rcases hpower with rfl | rfl
  · exact (((h.release (t := {.ctrlHandler, .entity, .subdev}) (by decide)).release
      (t := {.ctrlHandler, .entity}) (by decide)).release (t := {.ctrlHandler}) (by decide)).release (by decide)
  · exact (((h.release (t := {.ctrlHandler, .entity, .subdev} ∪ rails) (by decide)).release
      (t := {.ctrlHandler, .entity} ∪ rails) (by decide)).release (t := {.ctrlHandler} ∪ rails)
        (by decide)).release (by decide)

theorem Sound.remove (h : c.Sound) (hbound : c.bound = true) : (imx132Remove c).Sound := by
  have hhad := h.had
  unfold Client.had at hhad
  rw [if_pos hbound] at hhad
  have hnone : replay InOrder (imx132Remove c).log = some ∅ := by
    unfold imx132Remove
    dsimp only
    split
    · rename_i hactive
      change c.active = true at hactive
      rw [if_pos hactive] at hhad
      have hrails := unpublish_has (.inr rfl) hhad
      refine powerOff_has (.inl rfl) ?_
      rw [Finset.empty_union]
      exact hrails
    · rename_i hactive
      change ¬c.active = true at hactive
      rw [if_neg hactive] at hhad
      exact unpublish_has (.inl rfl) (by rwa [Finset.union_empty])
  have hmanaged : (imx132Remove c).enabled = false := by
    unfold imx132Remove
    dsimp only
    split <;> rfl
  exact ⟨hnone, hmanaged, fun _ => ⟨rfl, rfl⟩, fun hb => absurd hb Bool.false_ne_true⟩

theorem Sound.autosuspend (h : c.Sound) (hbound : c.bound = true) : (autosuspend c).Sound := by
  have hhad := h.had
  unfold Client.had at hhad
  rw [if_pos hbound] at hhad
  unfold Client.autosuspend
  split
  · rename_i hidle
    rw [if_pos hidle.1] at hhad
    have hoff := powerOff_has (.inr rfl) hhad
    refine ⟨?_, h.managed, fun hb => ?_, fun _ hne => absurd hidle.2 hne⟩
    · unfold Client.had
      rw [if_pos (show (imx132PowerOff c).bound = true from hbound)]
      exact hoff
    · exact ⟨rfl, (h.off hb).2⟩
  · exact h

/-- A device that resumes where it can, with a sensor that is used only where it did. -/
theorem Sound.resumed (h : c.Sound) (hbound : c.bound = true) (env : ResumeEnv) {holders : ℕ} {sensor : Sensor}
    (hused : sensor.dev.usage ≠ 0 → 0 ≤ (Client.rpmResume env c).1) :
    ({ (Client.rpmResume env c).2 with holders, sensor } : Client).Sound := by
  obtain ⟨log, heq, hlog⟩ := h.rpmResume hbound env
  rw [heq]
  refine ⟨?_, h.managed, fun hb => absurd (hbound.symm.trans hb).symm Bool.false_ne_true, fun _ hne => ?_⟩
  · unfold Client.had
    dsimp only
    rw [if_pos hbound]
    simp only [decide_eq_true_eq]
    exact hlog
  · exact decide_eq_true (hused hne)

theorem Sound.resume_used (h : c.Sound) (hbound : c.bound = true) (env : ResumeEnv) (hused : c.sensor.dev.usage ≠ 0) :
    0 ≤ (Client.rpmResume env c).1 := by
  rw [Client.rpmResume, if_pos (h.used hbound hused)]
  exact Int.one_nonneg

theorem rpmResume_kept (h : c.Sound) (hbound : c.bound = true) (env : ResumeEnv) :
    (rpmResume env c).2.sensor = c.sensor ∧ (rpmResume env c).2.holders = c.holders ∧
      (rpmResume env c).2.bound = true ∧ (rpmResume env c).2.active = decide (0 ≤ (rpmResume env c).1) := by
  obtain ⟨log, heq, -⟩ := h.rpmResume hbound env
  rw [heq]
  exact ⟨rfl, rfl, hbound, rfl⟩

theorem Sound.hold (h : c.Sound) (hbound : c.bound = true) (env : ResumeEnv) : (hold env c).Sound := by
  unfold Client.hold
  dsimp only
  split
  · obtain ⟨hsensor, -, -, -⟩ := rpmResume_kept h hbound env
    have hused : (Client.rpmResume env c).2.sensor.dev.usage ≠ 0 → 0 ≤ (Client.rpmResume env c).1 := by
      rw [hsensor]
      exact h.resume_used hbound env
    exact h.resumed hbound env hused
  · rename_i hle
    exact h.resumed hbound env fun _ => not_lt.mp hle

/-- A stream that starts takes one reference, and one that does not takes none. -/
theorem enableStreams_counts (resume : ℤ) (s : Sensor) :
    let s' := finish true (imx132EnableStreams resume s)
    (resume < 0 → s' = s) ∧
      (s'.dev.usage = s.dev.usage + 1 ∧ s'.dev.enabled = true ∨
        s'.dev.usage = s.dev.usage ∧ s'.dev.enabled = s.dev.enabled) := by
  have hconfigured := imx132Configure_kept { s.dev with usage := s.dev.usage + 1 }
  have hsetup := setup_keeps (P := fun h : Sensor => h.dev.usage = s.dev.usage + 1 ∧ h.dev.enabled = s.dev.enabled)
    (fun id h hh => ⟨(sameFlips_setCtrl id _).usage.trans hh.1, (sameFlips_setCtrl id _).enabled.trans hh.2⟩)
    (h := ⟨s.ctrl, (imx132Configure { s.dev with usage := s.dev.usage + 1 }).2⟩)
    ⟨hconfigured.usage, hconfigured.enabled⟩ ctrls
  unfold imx132EnableStreams
  dsimp only
  split
  · rename_i hneg
    have hne : resume ≠ 0 := by omega
    rw [finish, if_neg hne]
    exact ⟨fun _ => rfl, .inr ⟨rfl, rfl⟩⟩
  rename_i hneg
  refine ⟨fun h => absurd h hneg, ?_⟩
  split
  · rename_i hne
    rw [finish, if_neg hne]
    exact .inr ⟨congrArg (· - 1) hconfigured.usage, hconfigured.enabled⟩
  split
  · rename_i hne
    rw [finish, if_neg hne]
    exact .inr ⟨congrArg (· - 1) hsetup.1, hsetup.2⟩
  generalize Controls.setup imx132SetCtrl ctrls _ = r at hsetup
  have hstarted := modeSelect_kept IMX132_MODE_STREAMING r.2.dev
  split
  · rename_i hne
    rw [finish, if_neg hne]
    exact .inr ⟨congrArg (· - 1) (hstarted.usage.trans hsetup.1), hstarted.enabled.trans hsetup.2⟩
  · exact .inl ⟨hstarted.usage.trans hsetup.1, rfl⟩

theorem disableStreams_counts (s : Sensor) :
    let s' := finish false (imx132DisableStreams s)
    s'.dev.usage = s.dev.usage - 1 ∧ s'.dev.enabled = if s.dev.bus.headD 0 = 0 then false else s.dev.enabled := by
  unfold imx132DisableStreams cciWrite finish
  dsimp only
  split
  · exact ⟨rfl, rfl⟩
  · rename_i hzero
    rw [if_pos rfl, if_pos (not_not.mp hzero)]
    exact ⟨rfl, rfl⟩

/-- What a setter leaves of the device is left by a write from outside. -/
theorem write_dev {P : Imx132 → Prop} {s : Sensor} (hs : P s.dev) (id : CtrlId)
    (hset : ∀ h : Sensor, P h.dev → P (imx132SetCtrl id h).2.dev) (v : ℤ) : P (write imx132SetCtrl id v s).2.dev := by
  unfold write
  split
  · exact hs
  · exact request_frame (P := fun h : Sensor => P h.dev) hs hset fun _ h => h

theorem applyCtrl_off {d : Imx132} (husage : d.usage = 0) (id : CtrlId) {s : Sensor} (hdev : s.dev = d) :
    (applyCtrl id s).2.dev = d := by
  rw [applyCtrl, hdev, if_pos husage]
  exact hdev

theorem modifyRange_off {d : Imx132} (husage : d.usage = 0) (minimum maximum defaultValue : ℤ) {s : Sensor}
    (hdev : s.dev = d) : (modifyRange applyCtrl .exposure minimum maximum defaultValue s).2.dev = d := by
  unfold modifyRange
  split
  · exact hdev
  · exact request_frame (P := fun h : Sensor => h.dev = d) hdev (fun h hh => applyCtrl_off husage .exposure hh)
      fun _ h => h

theorem setCtrl_off {d : Imx132} (husage : d.usage = 0) (id : CtrlId) {s : Sensor} (hdev : s.dev = d) :
    (imx132SetCtrl id s).2.dev = d := by
  unfold imx132SetCtrl
  split
  · exact applyCtrl_off husage id (modifyRange_off husage _ _ _ hdev)
  · exact applyCtrl_off husage id hdev

theorem Sound.setCtrl (h : c.Sound) (id : CtrlId) (v : ℤ) :
    (setCtrl id v c).Sound ∧ (setCtrl id v c).sensor.dev.usage = c.sensor.dev.usage ∧
      (setCtrl id v c).sensor.dev.enabled = c.sensor.dev.enabled ∧
      (c.active = false → (setCtrl id v c).sensor.dev = c.sensor.dev) := by
  have henabled : (write imx132SetCtrl id v c.inUse).2.dev.enabled = c.sensor.dev.enabled := by
    apply write_dev (P := fun d => d.enabled = c.sensor.dev.enabled)
    · unfold inUse
      split <;> rfl
    · exact fun h hh => (sameFlips_setCtrl id h).enabled.trans hh
  refine ⟨⟨h.had, h.managed, fun hb => ⟨(h.off hb).1, henabled.trans (h.off hb).2⟩, h.used⟩, rfl, henabled, ?_⟩
  intro hoff
  have hdev : (write imx132SetCtrl id v c.inUse).2.dev = { c.sensor.dev with usage := 0 } := by
    apply write_dev (P := fun d => d = { c.sensor.dev with usage := 0 })
    · rw [inUse, hoff]
      rfl
    · exact fun h hh => setCtrl_off rfl id hh
  unfold Client.setCtrl Client.setUsage
  dsimp only
  rw [hdev]

theorem Sound.disableStreams (h : c.Sound) (hbound : c.bound = true) : (disableStreams c).Sound := by
  obtain ⟨husage, -⟩ := disableStreams_counts c.sensor
  refine ⟨h.had, h.managed, fun hb => absurd (hbound.symm.trans hb).symm Bool.false_ne_true, fun _ hne => ?_⟩
  apply h.used hbound
  intro hzero
  rw [hzero] at husage
  exact hne husage

theorem Sound.enableStreams (h : c.Sound) (hbound : c.bound = true) (env : ResumeEnv) :
    (enableStreams env c).Sound := by
  obtain ⟨hsensor, hholders, -, -⟩ := rpmResume_kept h hbound env
  obtain ⟨hneg, hcounts⟩ := enableStreams_counts (Client.rpmResume env c).1 (Client.rpmResume env c).2.sensor
  have hused : (finish true (imx132EnableStreams (Client.rpmResume env c).1
      (Client.rpmResume env c).2.sensor)).dev.usage ≠ 0 → 0 ≤ (Client.rpmResume env c).1 := by
    intro hne
    by_contra hlt
    rw [hneg (not_le.mp hlt), hsensor] at hne
    exact hlt (h.resume_used hbound env hne)
  exact h.resumed hbound env hused

theorem Sound.act (h : c.Sound) (a : LifeAct) : (act c a).Sound := by
  cases a with
  | probe env =>
      unfold Client.act
      dsimp only
      split
      · exact h
      · rename_i hbound
        exact (h.probe ((Bool.not_eq_true _).mp hbound) env).1
  | remove =>
      unfold Client.act
      dsimp only
      split
      · exact h.remove ‹_›
      · exact h
  | hold env =>
      unfold Client.act
      dsimp only
      split
      · exact h.hold ‹_› env
      · exact h
  | unhold =>
      unfold Client.act unhold
      dsimp only
      split
      · exact h
      · refine ⟨h.had, h.managed, h.off, fun hb hne => h.used hb fun hzero => hne ?_⟩
        exact congrArg (· - 1) hzero
  | autosuspend =>
      unfold Client.act
      dsimp only
      split
      · exact h.autosuspend ‹_›
      · exact h
  | setCtrl id value bus =>
      unfold Client.act
      dsimp only
      split
      · exact (h.setCtrl id value).1
      · exact h
  | enableStreams env bus =>
      unfold Client.act
      dsimp only
      split
      · rename_i hguard
        exact h.enableStreams hguard.1 env
      · exact h
  | disableStreams bus =>
      unfold Client.act
      dsimp only
      split
      · rename_i hguard
        exact h.disableStreams hguard.1
      · exact h

theorem Sound.onBus (h : c.Sound) (a : LifeAct) :
    ({ c with sensor := Camera.onBus a.bus c.sensor } : Client).Sound :=
  ⟨h.had, h.managed, h.off, h.used⟩

theorem Sound.live (h : c.Sound) (a : LifeAct) : (live c a).Sound := (h.onBus a).act a

theorem unbound_sound : Sound unbound :=
  ⟨rfl, rfl, fun _ => ⟨rfl, rfl⟩, fun hb => absurd hb Bool.false_ne_true⟩

theorem minded_of_dev {c' : Client} {bus : List ℤ} (hcounted : Counted c)
    (hdev : c'.sensor.dev = (onBus bus c.sensor).dev) (hholders : c'.holders = c.holders) :
    Counted c' ∧ (c'.active = false → c'.sensor.dev.writes = c.sensor.dev.writes ∧ c'.sensor.dev.bus = bus) := by
  constructor
  · rw [Counted, hdev, hholders]
    exact hcounted
  · rw [hdev]
    exact fun _ => ⟨rfl, rfl⟩

theorem minded_hold (h : c.Sound) (hcounted : Counted c) (hbound : c.bound = true) (env : ResumeEnv) :
    Counted (hold env c) ∧ (hold env c).sensor.dev.writes = c.sensor.dev.writes ∧
      (hold env c).sensor.dev.bus = c.sensor.dev.bus := by
  obtain ⟨hsensor, hholders, -, -⟩ := rpmResume_kept h hbound env
  unfold hold Counted Client.setUsage
  dsimp only
  split
  · rw [hsensor, hholders]
    exact ⟨hcounted, rfl, rfl⟩
  · dsimp only
    rw [hsensor, hholders, hcounted]
    exact ⟨by omega, rfl, rfl⟩

theorem counted_unhold (hcounted : Counted c) : Counted (unhold c) := by
  unfold unhold
  split
  · exact hcounted
  · rename_i hne
    unfold Counted at hcounted ⊢
    simp only [setUsage]
    rw [hcounted]
    exact Nat.sub_add_comm (Nat.one_le_iff_ne_zero.mpr hne)

theorem minded_enable (h : c.Sound) (hcounted : Counted c) (hbound : c.bound = true)
    (henabled : c.sensor.dev.enabled = false) (env : ResumeEnv) :
    Counted (enableStreams env c) ∧
      ((enableStreams env c).active = false → (enableStreams env c).sensor = c.sensor) := by
  obtain ⟨hsensor, hholders, -, hactive⟩ := rpmResume_kept h hbound env
  obtain ⟨hneg, hcounts⟩ := enableStreams_counts (rpmResume env c).1 (rpmResume env c).2.sensor
  unfold enableStreams
  dsimp only
  refine ⟨?_, fun hoff => ?_⟩
  · rw [hsensor] at hcounts ⊢
    unfold Counted at hcounted ⊢
    dsimp only
    rw [henabled] at hcounted hcounts
    rw [hholders]
    rcases hcounts with ⟨husage, hon⟩ | ⟨husage, hon⟩
    · rw [husage, hon, hcounted]
      rfl
    · rw [husage, hon, hcounted]
  · rw [hactive, decide_eq_false_iff_not, not_le] at hoff
    rw [hneg hoff, hsensor]

/-- A stop of a stream is counted exactly where it does not fail, and the sensor is on for it. -/
theorem minded_disable (h : c.Sound) (hcounted : Counted c) (hbound : c.bound = true)
    (henabled : c.sensor.dev.enabled = true) :
    (Counted (disableStreams c) ↔ c.sensor.dev.bus.headD 0 = 0) ∧ (disableStreams c).active = true := by
  obtain ⟨husage, hon⟩ := disableStreams_counts c.sensor
  unfold Counted at hcounted
  rw [henabled, if_pos rfl] at hcounted
  constructor
  · unfold Counted disableStreams
    dsimp only
    rw [husage, hon, henabled]
    split
    · rename_i hzero
      refine iff_of_true ?_ hzero
      rw [if_neg Bool.false_ne_true]
      omega
    · rename_i hne
      refine iff_of_false ?_ hne
      rw [if_pos rfl]
      omega
  · exact h.used hbound (by omega)

theorem remove_kept (c : Client) :
    (imx132Remove c).sensor.dev = { c.sensor.dev with enabled := false } ∧ (imx132Remove c).holders = c.holders := by
  unfold imx132Remove
  dsimp only
  split <;> exact ⟨rfl, rfl⟩

/-- A stream that is left behind leaves its reference. -/
theorem counted_remove_iff (hcounted : Counted c) : Counted (imx132Remove c) ↔ c.sensor.dev.enabled = false := by
  obtain ⟨hdev, hholders⟩ := remove_kept c
  unfold Counted at hcounted ⊢
  rw [hdev, hholders, hcounted]
  cases c.sensor.dev.enabled with
  | false => exact iff_of_true rfl rfl
  | true => exact iff_of_false (Nat.succ_ne_self c.holders) fun h => Bool.false_ne_true h.symm

theorem autosuspend_kept (c : Client) :
    (autosuspend c).sensor = c.sensor ∧ (autosuspend c).holders = c.holders := by
  unfold autosuspend
  split <;> exact ⟨rfl, rfl⟩

theorem unhold_silent (c : Client) :
    (unhold c).sensor.dev.writes = c.sensor.dev.writes ∧ (unhold c).sensor.dev.bus = c.sensor.dev.bus := by
  unfold unhold
  split <;> exact ⟨rfl, rfl⟩

theorem Sound.minded_setCtrl (h : c.Sound) (hcounted : Counted c) (id : CtrlId) (value : ℤ) :
    Counted (Client.setCtrl id value c) ∧
      (c.active = false → (Client.setCtrl id value c).sensor.dev = c.sensor.dev) := by
  obtain ⟨-, husage, henabled, hoff⟩ := h.setCtrl id value
  refine ⟨?_, hoff⟩
  unfold Counted at hcounted ⊢
  rw [husage, henabled]
  exact hcounted

theorem Sound.probe_minded (h : c.Sound) (hcounted : Counted c) (env : ProbeEnv) : Minded c (.probe env) := by
  unfold Minded Silent Client.live Client.act
  dsimp only
  split
  · exact minded_of_dev hcounted rfl rfl
  · rename_i hbound
    obtain ⟨-, hdev, hholders⟩ := (h.onBus (.probe env)).probe ((Bool.not_eq_true _).mp hbound) env
    exact minded_of_dev hcounted hdev hholders

/-- The reference of a stream that runs is not given back when the driver goes. -/
theorem remove_minded_iff (hcounted : Counted c) : Minded c .remove ↔ Orderly c .remove := by
  unfold Minded Silent Client.live Client.act
  dsimp only
  split
  · rename_i hbound
    have hleft := counted_remove_iff (c := { c with sensor := Camera.onBus LifeAct.remove.bus c.sensor }) hcounted
    rw [(remove_kept _).1]
    constructor
    · exact fun hminded _ => hleft.mp hminded.1
    · exact fun horderly => ⟨hleft.mpr (horderly hbound), fun _ => ⟨rfl, rfl⟩⟩
  · rename_i hbound
    exact iff_of_true (minded_of_dev hcounted rfl rfl) fun hb => absurd hb hbound

theorem Sound.hold_minded (h : c.Sound) (hcounted : Counted c) (env : ResumeEnv) : Minded c (.hold env) := by
  unfold Minded Silent Client.live Client.act
  dsimp only
  split
  · rename_i hbound
    obtain ⟨hholds, hwrites, hsaid⟩ := minded_hold (h.onBus (.hold env)) hcounted hbound env
    exact ⟨hholds, fun _ => ⟨hwrites, hsaid⟩⟩
  · exact minded_of_dev hcounted rfl rfl

theorem unhold_minded (hcounted : Counted c) : Minded c .unhold :=
  ⟨counted_unhold (c := { c with sensor := Camera.onBus _ c.sensor }) hcounted, fun _ => unhold_silent _⟩

theorem autosuspend_minded (hcounted : Counted c) : Minded c .autosuspend := by
  unfold Minded Silent Client.live Client.act
  dsimp only
  split
  · obtain ⟨hsensor, hholders⟩ := autosuspend_kept { c with sensor := Camera.onBus LifeAct.autosuspend.bus c.sensor }
    exact minded_of_dev hcounted (by rw [hsensor]) hholders
  · exact minded_of_dev hcounted rfl rfl

theorem Sound.setCtrl_minded (h : c.Sound) (hcounted : Counted c) (id : CtrlId) (value : ℤ) (bus : List ℤ) :
    Minded c (.setCtrl id value bus) := by
  unfold Minded Silent Client.live Client.act
  dsimp only
  split
  · obtain ⟨hset, hoff⟩ := (h.onBus (.setCtrl id value bus)).minded_setCtrl hcounted id value
    refine ⟨hset, fun hactive => ?_⟩
    rw [hoff hactive]
    exact ⟨rfl, rfl⟩
  · exact minded_of_dev hcounted rfl rfl

theorem Sound.enableStreams_minded (h : c.Sound) (hcounted : Counted c) (env : ResumeEnv) (bus : List ℤ) :
    Minded c (.enableStreams env bus) := by
  unfold Minded Silent Client.live Client.act
  dsimp only
  split
  · rename_i hguard
    obtain ⟨hstarted, hoff⟩ := minded_enable (h.onBus (.enableStreams env bus)) hcounted hguard.1 hguard.2 env
    refine ⟨hstarted, fun hactive => ?_⟩
    rw [hoff hactive]
    exact ⟨rfl, rfl⟩
  · exact minded_of_dev hcounted rfl rfl

/-- The reference of a stream that does not stop is not given back. -/
theorem Sound.disableStreams_minded_iff (h : c.Sound) (hcounted : Counted c) (bus : List ℤ) :
    Minded c (.disableStreams bus) ↔ Orderly c (.disableStreams bus) := by
  unfold Minded Silent Client.live Client.act
  dsimp only
  split
  · rename_i hguard
    obtain ⟨hstopped, hactive⟩ := minded_disable (h.onBus (.disableStreams bus)) hcounted hguard.1 hguard.2
    constructor
    · exact fun hminded _ _ => hstopped.mp hminded.1
    · exact fun horderly => ⟨hstopped.mpr (horderly hguard.1 hguard.2), fun hoff =>
        absurd (hactive.symm.trans hoff).symm Bool.false_ne_true⟩
  · rename_i hguard
    exact iff_of_true (minded_of_dev hcounted rfl rfl) fun hbound henabled => absurd ⟨hbound, henabled⟩ hguard

theorem Sound.step_minded_iff (h : c.Sound) (hcounted : Counted c) (a : LifeAct) : Minded c a ↔ Orderly c a := by
  cases a with
  | probe env => exact iff_of_true (h.probe_minded hcounted env) trivial
  | remove => exact remove_minded_iff hcounted
  | hold env => exact iff_of_true (h.hold_minded hcounted env) trivial
  | unhold => exact iff_of_true (unhold_minded hcounted) trivial
  | autosuspend => exact iff_of_true (autosuspend_minded hcounted) trivial
  | setCtrl id value bus => exact iff_of_true (h.setCtrl_minded hcounted id value bus) trivial
  | enableStreams env bus => exact iff_of_true (h.enableStreams_minded hcounted env bus) trivial
  | disableStreams bus => exact h.disableStreams_minded_iff hcounted bus

end

/-- In every life of a device, with whatever fails, the supplies, the reset line and the clock go on and off in their
order, what is registered is registered on top of all it needs, and what was had is given back. -/
theorem life_sound (as : List LifeAct) : Sound (run live unbound as) :=
  run_keeps (I := Sound) (fun _ a h => Sound.live h a) unbound_sound as

/-- In a life every reference is one that somebody uses and a sensor that is off is never spoken to, exactly where no
stop of a stream fails on the bus and no driver is removed with a stream. -/
theorem minded_iff (as : List LifeAct) : Always live Minded unbound as ↔ Always live Orderly unbound as := by
  refine always_iff_of_invariant (I := fun c => Sound c ∧ Counted c) (fun c a h ha => ?_)
    (fun c a h => h.1.step_minded_iff h.2 a) ⟨unbound_sound, rfl⟩
  exact ⟨h.1.live a, ((h.1.step_minded_iff h.2 a).mpr ha).1⟩

end Client
end Sirius.Camera
