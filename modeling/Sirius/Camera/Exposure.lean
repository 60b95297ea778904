import Sirius.Lib.Runs
import Sirius.Camera.Model

/-!
# The exposure and the frame

The exposure stays below the frame length as the vertical blanking moves, and so does its register while a stream is on.
A sensor that is not in use takes no writes, so its register may lag behind.
-/
namespace Sirius.Camera
open Controls Runs

/-- The committed exposure and its range follow the committed blanking, the register does while the sensor is in use. -/
structure ExposureFits (s : Sensor) : Prop where
  committed : (s.ctrl .exposure).cur ≤ exposureMax (s.ctrl .vblank).cur
  maximum : (s.ctrl .exposure).maximum = exposureMax (s.ctrl .vblank).cur
  written : s.dev.usage ≠ 0 → ∀ v, lastWritten IMX132_REG_EXPOSURE s = some v → v ≤ exposureMax (s.ctrl .vblank).cur

def FrameLengthFits (s : Sensor) : Prop :=
  ∀ v, (IMX132_REG_FRAME_LENGTH, v) ∈ s.dev.writes → v ≤ IMX132_FRAME_LENGTH_MAX

/-- No bus write fails in a write of the vertical blanking to a sensor in use. -/
def Undisturbed (s : Sensor) : Action → Prop
  | .setCtrl .vblank _ bus => s.dev.usage ≠ 0 → ∀ ret ∈ bus, ret = 0
  | _ => True

theorem exposureMax_eq (vblank : ℤ) : exposureMax vblank = vblank + 1140 := by
  simp only [exposureMax, imx132Mode1976x1144, IMX132_EXPOSURE_MARGIN]
  omega

/-- What a bus write comes to. -/
inductive Wrote (reg : ℕ) (val : ℤ) (d : Imx132) : ℤ × Imx132 → Prop
  | failed (ret : ℤ) (hret : ret ≠ 0) (hmem : ret ∈ d.bus) : Wrote reg val d (ret, { d with bus := d.bus.tail })
  | written : Wrote reg val d (0, { d with bus := d.bus.tail, writes := (reg, val) :: d.writes })

theorem cciWrite_wrote (reg : ℕ) (val : ℤ) (d : Imx132) : Wrote reg val d (cciWrite reg val d) := by
  unfold cciWrite
  dsimp only
  split
  · rename_i hret
    refine .failed _ hret ?_
    cases hbus : d.bus with
    | nil =>
        rw [hbus] at hret
        exact absurd rfl hret
    | cons ret bus => exact List.mem_cons_self
  · exact .written

/-- What a setter comes to after the range update. -/
inductive Applied (id : CtrlId) (s : Sensor) : ℤ × Sensor → Prop
  | off (husage : s.dev.usage = 0) : Applied id s (0, s)
  | unhandled (hcommand : command s id = none) : Applied id s (- EINVAL, s)
  | failed (ret : ℤ) (husage : s.dev.usage ≠ 0) (hret : ret ≠ 0) (hmem : ret ∈ s.dev.bus) :
      Applied id s (ret, { s with dev := { s.dev with bus := s.dev.bus.tail } })
  | written (reg : ℕ) (val : ℤ) (hcommand : command s id = some (reg, val)) :
      Applied id s (0, { s with dev := { s.dev with bus := s.dev.bus.tail, writes := (reg, val) :: s.dev.writes } })

theorem applyCtrl_applied (id : CtrlId) (s : Sensor) : Applied id s (applyCtrl id s) := by
  unfold applyCtrl
  split
  · exact .off ‹_›
  · rename_i husage
    split
    · exact .unhandled ‹_›
    · rename_i reg val hcommand
      have hwrote := cciWrite_wrote reg val s.dev
      generalize cciWrite reg val s.dev = r at hwrote
      cases hwrote with
      | failed ret hret hmem => exact .failed ret husage hret hmem
      | written => exact .written reg val hcommand

/-- Only the bus and the registers change. -/
structure SameControls (s s' : Sensor) : Prop where
  ctrl : s'.ctrl = s.ctrl
  usage : s'.dev.usage = s.dev.usage
  enabled : s'.dev.enabled = s.dev.enabled

section
variable {id : CtrlId} {s : Sensor} {r : ℤ × Sensor}

theorem Applied.sameControls (h : Applied id s r) : SameControls s r.2 := by
  cases h <;> exact ⟨rfl, rfl, rfl⟩

theorem Applied.bus (h : Applied id s r) (hbus : ∀ ret ∈ s.dev.bus, ret = 0) : ∀ ret ∈ r.2.dev.bus, ret = 0 := by
  cases h with
  | off husage => exact hbus
  | unhandled hcommand => exact hbus
  | failed ret husage hret hmem => exact fun ret' hret' => hbus ret' (List.mem_of_mem_tail hret')
  | written reg val hcommand => exact fun ret' hret' => hbus ret' (List.mem_of_mem_tail hret')

/-- The frame length is written from the vertical blanking only. -/
theorem command_frameLength {val : ℤ} (h : command s id = some (IMX132_REG_FRAME_LENGTH, val)) :
    val = imx132Mode1976x1144.height + (s.ctrl .vblank).val := by
  cases id <;> simp_all [command, IMX132_REG_FRAME_LENGTH, IMX132_REG_EXPOSURE, IMX132_REG_ANALOGUE_GAIN,
    IMX132_REG_LINE_LENGTH, IMX132_REG_IMAGE_ORIENTATION]

theorem command_exposure {val : ℤ} (h : command s id = some (IMX132_REG_EXPOSURE, val)) :
    id = .exposure ∧ val = (s.ctrl .exposure).val := by
  cases id <;> simp_all [command, IMX132_REG_FRAME_LENGTH, IMX132_REG_EXPOSURE, IMX132_REG_ANALOGUE_GAIN,
    IMX132_REG_LINE_LENGTH, IMX132_REG_IMAGE_ORIENTATION]

end

/-- The vertical blanking is in its range, which does not change. -/
structure Ranged (s : Sensor) : Prop where
  vblankRange : (s.ctrl .vblank).minimum = 16 ∧ (s.ctrl .vblank).maximum = 64391
  vblankCur : 16 ≤ (s.ctrl .vblank).cur ∧ (s.ctrl .vblank).cur ≤ 64391
  vblankVal : 16 ≤ (s.ctrl .vblank).val ∧ (s.ctrl .vblank).val ≤ 64391
  exposureMinimum : (s.ctrl .exposure).minimum = 1
  exposureWritable : (s.ctrl .exposure).readOnly = false
  frameLength : FrameLengthFits s

section
variable {s s' : Sensor} {id : CtrlId} {r : ℤ × Sensor}

theorem Ranged.of_sameControls (h : Ranged s) (hsame : SameControls s s') (hframe : FrameLengthFits s') :
    Ranged s' := by
  obtain ⟨hctrl, -, -⟩ := hsame
  constructor <;> first | rw [hctrl] | exact hframe
  · exact h.vblankRange
  · exact h.vblankCur
  · exact h.vblankVal
  · exact h.exposureMinimum
  · exact h.exposureWritable

/-- The device may change as long as no other frame length is written. -/
theorem Ranged.dev (h : Ranged s) {d : Imx132}
    (hframe : ∀ v, (IMX132_REG_FRAME_LENGTH, v) ∈ d.writes → (IMX132_REG_FRAME_LENGTH, v) ∈ s.dev.writes) :
    Ranged { s with dev := d } :=
  ⟨h.vblankRange, h.vblankCur, h.vblankVal, h.exposureMinimum, h.exposureWritable,
    fun v hv => h.frameLength v (hframe v hv)⟩

theorem Ranged.clamp_vblank (h : Ranged s) (v : ℤ) :
    16 ≤ (s.ctrl .vblank).clamp v ∧ (s.ctrl .vblank).clamp v ≤ 64391 := by
  obtain ⟨hmin, hmax⟩ := h.vblankRange
  have hbounds := Control.clamp_bounds (c := s.ctrl .vblank) (by omega) v
  omega

theorem Ranged.setNew (h : Ranged s) {v : ℤ} (hv : id = .vblank → 16 ≤ v ∧ v ≤ 64391) : Ranged (s.setNew id v) := by
  refine ⟨?_, ?_, ?_, ?_, ?_, h.frameLength⟩
  · rw [setNew_minimum, setNew_maximum]
    exact h.vblankRange
  · rw [setNew_cur]
    exact h.vblankCur
  · by_cases hid : id = .vblank
    · subst hid
      rw [setNew_self]
      exact hv rfl
    · rw [setNew_ne (Ne.symm hid)]
      exact h.vblankVal
  · rw [setNew_minimum]
    exact h.exposureMinimum
  · rw [setNew_readOnly]
    exact h.exposureWritable

theorem Ranged.commit (h : Ranged s) (id : CtrlId) : Ranged (s.commit id) := by
  refine ⟨?_, ?_, ?_, ?_, ?_, h.frameLength⟩
  · rw [commit_minimum, commit_maximum]
    exact h.vblankRange
  · by_cases hid : id = .vblank
    · subst hid
      rw [commit_self]
      exact h.vblankVal
    · rw [commit_ne (Ne.symm hid)]
      exact h.vblankCur
  · rw [commit_val]
    exact h.vblankVal
  · rw [commit_minimum]
    exact h.exposureMinimum
  · rw [commit_readOnly]
    exact h.exposureWritable

theorem Ranged.setRange (h : Ranged s) (maximum defaultValue : ℤ) :
    Ranged (s.setRange .exposure 1 maximum defaultValue) := by
  have hvblank : (s.setRange .exposure 1 maximum defaultValue).ctrl .vblank = s.ctrl .vblank :=
    setRange_ne (by decide) ..
  refine ⟨?_, ?_, ?_, ?_, ?_, h.frameLength⟩
  · rw [hvblank]
    exact h.vblankRange
  · rw [hvblank]
    exact h.vblankCur
  · rw [hvblank]
    exact h.vblankVal
  · rw [setRange_self]
  · rw [setRange_self]
    exact h.exposureWritable

theorem Applied.ranged (h : Applied id s r) (hs : Ranged s) : Ranged r.2 := by
  refine hs.of_sameControls h.sameControls ?_
  cases h with
  | off husage => exact hs.frameLength
  | unhandled hcommand => exact hs.frameLength
  | failed ret husage hret hmem => exact hs.frameLength
  | written reg val hcommand =>
      intro v hv
      rcases List.mem_cons.mp hv with heq | hv
      · cases heq
        have hval := command_frameLength hcommand
        have hvblank := hs.vblankVal
        simp only [imx132Mode1976x1144] at hval
        simp only [IMX132_FRAME_LENGTH_MAX]
        omega
      · exact hs.frameLength v hv

/-- The range update of the setter is a valid one. -/
theorem Ranged.modifyRange_eq (h : Ranged s) :
    modifyRange applyCtrl .exposure (s.ctrl .exposure).minimum (exposureMax (s.ctrl .vblank).val)
        (min (exposureMax (s.ctrl .vblank).val) IMX132_EXPOSURE_DEFAULT) s =
      request applyCtrl .exposure (s.ctrl .exposure).cur
        (s.setRange .exposure 1 (exposureMax (s.ctrl .vblank).val)
          (min (exposureMax (s.ctrl .vblank).val) IMX132_EXPOSURE_DEFAULT)) := by
  have hvblank := h.vblankVal
  have hmax := exposureMax_eq (s.ctrl .vblank).val
  rw [h.exposureMinimum]
  apply modifyRange_of_valid
  simp only [IMX132_EXPOSURE_DEFAULT]
  omega

theorem Ranged.request (h : Ranged s) (hid : id ≠ .vblank) (v : ℤ) : Ranged (request applyCtrl id v s).2 := by
  apply request_frame
  · exact h.setNew fun heq => absurd heq hid
  · exact fun _ h => (applyCtrl_applied ..).ranged h
  · exact fun _ h => h.commit id

theorem Ranged.imx132SetCtrl (h : Ranged s) (id : CtrlId) : Ranged (Camera.imx132SetCtrl id s).2 := by
  unfold Camera.imx132SetCtrl
  split
  · dsimp only
    rw [h.modifyRange_eq]
    exact (applyCtrl_applied ..).ranged ((h.setRange _ _).request (by decide) _)
  · exact (applyCtrl_applied ..).ranged h

theorem Ranged.call (h : Ranged s) (id : CtrlId) :
    Ranged (Camera.imx132SetCtrl id (s.setNew id (s.ctrl id).cur)).2 := by
  refine (h.setNew fun hid => ?_).imx132SetCtrl id
  rw [hid]
  exact h.vblankCur

end

/-- The register has the committed exposure. -/
def Shown (s : Sensor) : Prop := lastWritten IMX132_REG_EXPOSURE s = some (s.ctrl .exposure).cur

/-- The exposure is within the limit, which is its maximum. -/
structure Limited (limit : ℤ) (s : Sensor) : Prop where
  maximum : (s.ctrl .exposure).maximum = limit
  cur : 1 ≤ (s.ctrl .exposure).cur ∧ (s.ctrl .exposure).cur ≤ limit

/-- The exposure and its register are within the limit after what was done. -/
structure Relimited (limit : ℤ) (s s' : Sensor) : Prop where
  limited : Limited limit s'
  ranged : Ranged s'
  vblank : s'.ctrl .vblank = s.ctrl .vblank
  usage : s'.dev.usage = s.dev.usage
  enabled : s'.dev.enabled = s.dev.enabled
  bus : (∀ ret ∈ s.dev.bus, ret = 0) → ∀ ret ∈ s'.dev.bus, ret = 0
  shown : s.dev.usage ≠ 0 → Shown s → Shown s'

section
variable {s : Sensor} {id : CtrlId} {r : ℤ × Sensor} {limit : ℤ}

theorem Shown.setNew (h : Shown s) (id : CtrlId) (v : ℤ) : Shown (s.setNew id v) := by
  unfold Shown
  rw [setNew_cur]
  exact h

theorem Applied.limited (h : Applied id s r) (hs : Limited limit s) : Limited limit r.2 := by
  have hctrl := h.sameControls.ctrl
  constructor <;> rw [hctrl]
  · exact hs.maximum
  · exact hs.cur

/-- The setter of a control that has its committed value, or is not the exposure, keeps the register as it should be. -/
theorem Applied.shown (h : Applied id s r) (hval : id = .exposure → (s.ctrl .exposure).val = (s.ctrl .exposure).cur)
    (hs : Shown s) : Shown r.2 := by
  cases h with
  | off husage => exact hs
  | unhandled hcommand => exact hs
  | failed ret husage hret hmem => exact hs
  | written reg val hcommand =>
      unfold Shown lastWritten at hs ⊢
      dsimp only
      rw [List.lookup_cons]
      split
      · rename_i hreg
        rw [← eq_of_beq hreg] at hcommand
        obtain ⟨hid, hcommand⟩ := command_exposure hcommand
        rw [hcommand, hval hid]
      · exact hs

/-- The setter of the exposure writes it, if the sensor is in use and nothing fails. -/
theorem Applied.exposure (h : Applied .exposure s r) (husage : s.dev.usage ≠ 0) (hret : r.1 = 0) :
    lastWritten IMX132_REG_EXPOSURE r.2 = some (s.ctrl .exposure).val := by
  cases h with
  | off hoff => exact absurd hoff husage
  | unhandled hcommand => cases hcommand
  | failed ret husage hne hmem => exact absurd hret hne
  | written reg val hcommand =>
      cases hcommand
      exact List.lookup_cons_self

theorem Applied.refused (h : Applied id s r) (hret : r.1 ≠ 0) : r.2.dev.writes = s.dev.writes := by
  cases h with
  | off husage => rfl
  | unhandled hcommand => rfl
  | failed ret husage hne hmem => rfl
  | written reg val hcommand => exact absurd rfl hret

/-- The setter of a control with a register fails only on the bus. -/
theorem Applied.calm (h : Applied id s r) {c : ℕ × ℤ} (hcommand : command s id = some c)
    (hbus : s.dev.usage ≠ 0 → ∀ ret ∈ s.dev.bus, ret = 0) : r.1 = 0 := by
  cases h with
  | off husage => rfl
  | unhandled hnone => cases hcommand.symm.trans hnone
  | failed ret hused hne hmem => exact hbus hused ret hmem
  | written reg val hcommand => rfl

theorem relimited_refused {s' : Sensor} (hid : id ≠ .vblank) {v ret : ℤ} (hranged : Ranged s')
    (hmaximum : (s.ctrl .exposure).maximum = limit)
    (hcur : 1 ≤ (s.ctrl .exposure).cur ∧ (s.ctrl .exposure).cur ≤ limit)
    (happlied : Applied id (s.setNew id v) (ret, s')) (hret : ret ≠ 0) : Relimited limit s s' := by
  obtain ⟨hctrl, husage, henabled⟩ := happlied.sameControls
  have hwrites := happlied.refused hret
  refine ⟨⟨?_, ?_⟩, hranged, ?_, husage, henabled, happlied.bus, fun _ hs => ?_⟩
  · rw [hctrl, setNew_maximum, hmaximum]
  · rw [hctrl, setNew_cur]
    exact hcur
  · rw [hctrl, setNew_ne (Ne.symm hid)]
  · unfold Shown lastWritten
    rw [hctrl, hwrites, setNew_cur]
    exact hs

theorem relimited_committed {s' : Sensor} (hid : id ≠ .vblank) {v : ℤ} (hranged : Ranged (s'.commit id))
    (hmaximum : (s.ctrl .exposure).maximum = limit) (hv : id = .exposure → 1 ≤ v ∧ v ≤ limit)
    (hcur : id ≠ .exposure → 1 ≤ (s.ctrl .exposure).cur ∧ (s.ctrl .exposure).cur ≤ limit)
    (happlied : Applied id (s.setNew id v) (0, s')) : Relimited limit s (s'.commit id) := by
  obtain ⟨hctrl, husage, henabled⟩ := happlied.sameControls
  refine ⟨⟨?_, ?_⟩, hranged, ?_, husage, henabled, happlied.bus, fun hused hs => ?_⟩
  · rw [commit_maximum, hctrl, setNew_maximum, hmaximum]
  · by_cases hexposure : id = .exposure
    · subst hexposure
      rw [commit_self, hctrl, setNew_self]
      exact hv rfl
    · rw [commit_ne (Ne.symm hexposure), hctrl, setNew_cur]
      exact hcur hexposure
  · rw [commit_ne (Ne.symm hid), hctrl, setNew_ne (Ne.symm hid)]
  · unfold Shown
    by_cases hexposure : id = .exposure
    · subst hexposure
      rw [commit_self, hctrl]
      exact happlied.exposure hused rfl
    · rw [commit_ne (Ne.symm hexposure)]
      exact happlied.shown (fun h => absurd h hexposure) (hs.setNew id _)

/-- A write of a control other than the blanking. An exposure that is not within the limit is brought back, unless the
bus fails. -/
theorem relimited_request (hid : id ≠ .vblank) (v : ℤ) (h : Ranged s) (hlimit : 1 ≤ limit)
    (hmaximum : (s.ctrl .exposure).maximum = limit)
    (hcur : 1 ≤ (s.ctrl .exposure).cur ∧ (s.ctrl .exposure).cur ≤ limit ∨
      id = .exposure ∧ (s.dev.usage ≠ 0 → ∀ ret ∈ s.dev.bus, ret = 0)) :
    Relimited limit s (request applyCtrl id v s).2 := by
  have hranged := h.request hid v
  have hbounds := Control.clamp_bounds (c := s.ctrl .exposure) (by rw [h.exposureMinimum, hmaximum]; exact hlimit)
  rw [h.exposureMinimum, hmaximum] at hbounds
  have hrequested := requested_request applyCtrl id v s
  have happlied := applyCtrl_applied id (s.setNew id ((s.ctrl id).clamp v))
  generalize request applyCtrl id v s = r at hrequested hranged ⊢
  cases hrequested with
  | unchanged hv =>
      refine ⟨⟨?_, ?_⟩, hranged, setNew_ne (Ne.symm hid) _, rfl, rfl, fun h => h, fun _ hs => hs.setNew id _⟩
      · rw [setNew_maximum, hmaximum]
      · rw [setNew_cur]
        rcases hcur with hcur | ⟨rfl, -⟩
        · exact hcur
        · exact hv ▸ hbounds v
  | refused ret s' hv hret hset =>
      rw [hset] at happlied
      rcases hcur with hcur | ⟨rfl, hcalm⟩
      · exact relimited_refused hid hranged hmaximum hcur happlied hret
      · exact absurd (happlied.calm rfl hcalm) hret
  | committed s' hv hset =>
      rw [hset] at happlied
      refine relimited_committed hid hranged hmaximum (fun hexposure => ?_) (fun hexposure => ?_) happlied
      · subst hexposure
        exact hbounds v
      · exact hcur.resolve_right fun h => hexposure h.1

theorem Relimited.refl (h : Ranged s) (hlimited : Limited limit s) : Relimited limit s s :=
  ⟨hlimited, h, rfl, rfl, rfl, fun hbus => hbus, fun _ hs => hs⟩

theorem Relimited.applied {s' : Sensor} (h : Relimited limit s s') (happlied : Applied id s' r)
    (hval : id = .exposure → (s'.ctrl .exposure).val = (s'.ctrl .exposure).cur) : Relimited limit s r.2 := by
  obtain ⟨hctrl, husage, henabled⟩ := happlied.sameControls
  constructor
  · exact happlied.limited h.limited
  · exact happlied.ranged h.ranged
  · rw [hctrl, h.vblank]
  · exact husage.trans h.usage
  · exact henabled.trans h.enabled
  · exact fun hbus => happlied.bus (h.bus hbus)
  · exact fun hused hs => happlied.shown hval (h.shown hused hs)

/-- The range update in the setter of the blanking. -/
theorem relimited_setRange {defaultValue : ℤ} (h : Ranged s) (hlimit : 1 ≤ limit)
    (hcur : 1 ≤ (s.ctrl .exposure).cur ∧ (s.ctrl .exposure).cur ≤ limit ∨
      (s.dev.usage ≠ 0 → ∀ ret ∈ s.dev.bus, ret = 0)) :
    Relimited limit s
      (request applyCtrl .exposure (s.ctrl .exposure).cur (s.setRange .exposure 1 limit defaultValue)).2 := by
  have hself := setRange_self (h := s) (i := CtrlId.exposure) 1 limit defaultValue
  have hmaximum : ((s.setRange .exposure 1 limit defaultValue).ctrl .exposure).maximum = limit := by rw [hself]
  have hrequest := relimited_request (by decide) (s.ctrl .exposure).cur (h.setRange limit defaultValue) hlimit hmaximum
    (hcur.imp (by rw [hself]; exact fun h => h) fun h => ⟨rfl, h⟩)
  constructor
  · exact hrequest.limited
  · exact hrequest.ranged
  · rw [hrequest.vblank, setRange_ne (by decide)]
  · exact hrequest.usage
  · exact hrequest.enabled
  · exact hrequest.bus
  · intro hused hs
    apply hrequest.shown hused
    unfold Shown
    rw [hself]
    exact hs

/-- The setter of the blanking, with an exposure that fits or a bus that does not fail. -/
theorem relimited_vblank (h : Ranged s)
    (hcur : 1 ≤ (s.ctrl .exposure).cur ∧ (s.ctrl .exposure).cur ≤ exposureMax (s.ctrl .vblank).val ∨
      (s.dev.usage ≠ 0 → ∀ ret ∈ s.dev.bus, ret = 0)) :
    Relimited (exposureMax (s.ctrl .vblank).val) s (imx132SetCtrl .vblank s).2 := by
  have hvblank := h.vblankVal
  have hmax := exposureMax_eq (s.ctrl .vblank).val
  unfold imx132SetCtrl
  rw [if_pos rfl]
  dsimp only
  rw [h.modifyRange_eq]
  exact (relimited_setRange h (by omega) hcur).applied (applyCtrl_applied ..) fun hid => absurd hid (by decide)

theorem imx132SetCtrl_vblank_fst (h : Ranged s) (hbus : s.dev.usage ≠ 0 → ∀ ret ∈ s.dev.bus, ret = 0) :
    (imx132SetCtrl .vblank s).1 = 0 := by
  have hvblank := h.vblankVal
  have hmax := exposureMax_eq (s.ctrl .vblank).val
  have hlimit : 1 ≤ exposureMax (s.ctrl .vblank).val := by omega
  unfold imx132SetCtrl
  rw [if_pos rfl]
  dsimp only
  rw [h.modifyRange_eq]
  apply (applyCtrl_applied ..).calm rfl
  intro hused
  rw [(relimited_setRange h hlimit (.inr hbus)).usage] at hused
  exact (relimited_setRange h hlimit (.inr hbus)).bus (hbus hused)

end

structure Fitted (s : Sensor) : Prop extends Ranged s, Limited (exposureMax (s.ctrl .vblank).cur) s

structure Inv (s : Sensor) : Prop extends Fitted s where
  shown : s.dev.usage ≠ 0 → Shown s
  usage : s.dev.usage ≤ 1
  enabled : s.dev.usage ≠ 0 → s.dev.enabled = true

section
variable {s s' : Sensor} {id : CtrlId}

theorem Fitted.off (h : Fitted s) (husage : s.dev.usage = 0) : Inv s :=
  ⟨h, fun hne => absurd husage hne, by omega, fun hne => absurd husage hne⟩

theorem Inv.exposureFits (h : Inv s) : ExposureFits s := by
  refine ⟨h.cur.2, h.maximum, fun husage v hv => ?_⟩
  have hshown := h.shown husage
  unfold Shown at hshown
  rw [hshown] at hv
  cases hv
  exact h.cur.2

theorem Relimited.inv (h : Inv s) (hrelimited : Relimited (exposureMax (s.ctrl .vblank).cur) s s') : Inv s' := by
  obtain ⟨hlimited, hranged, hvblank, husage, henabled, -, hshown⟩ := hrelimited
  rw [← hvblank] at hlimited
  refine ⟨⟨hranged, hlimited⟩, fun hne => ?_, ?_, fun hne => ?_⟩
  · rw [husage] at hne
    exact hshown hne (h.shown hne)
  · rw [husage]
    exact h.usage
  · rw [husage] at hne
    rw [henabled]
    exact h.enabled hne

theorem Fitted.setNew (h : Fitted s) {v : ℤ} (hv : id = .vblank → 16 ≤ v ∧ v ≤ 64391) : Fitted (s.setNew id v) := by
  refine ⟨h.toRanged.setNew hv, ?_, ?_⟩ <;> rw [setNew_cur]
  · rw [setNew_maximum]
    exact h.maximum
  · rw [setNew_cur]
    exact h.cur

theorem Fitted.dev (h : Fitted s) {d : Imx132}
    (hframe : ∀ v, (IMX132_REG_FRAME_LENGTH, v) ∈ d.writes → (IMX132_REG_FRAME_LENGTH, v) ∈ s.dev.writes) :
    Fitted { s with dev := d } :=
  ⟨h.toRanged.dev hframe, h.maximum, h.cur⟩

theorem onBus_inv (h : Inv s) (bus : List ℤ) : Inv (onBus bus s) :=
  ⟨h.toFitted.dev fun _ hv => hv, h.shown, h.usage, h.enabled⟩

theorem one_le_exposureMax (h : Ranged s) : 1 ≤ exposureMax (s.ctrl .vblank).cur := by
  have hvblank := h.vblankCur
  have hmax := exposureMax_eq (s.ctrl .vblank).cur
  omega

/-- The blanking is committed with the exposure brought within it. -/
theorem request_vblank_inv (h : Inv s) (hbus : s.dev.usage ≠ 0 → ∀ ret ∈ s.dev.bus, ret = 0) (v : ℤ) :
    Inv (request imx132SetCtrl .vblank v s).2 := by
  have hranged : Ranged (s.setNew .vblank ((s.ctrl .vblank).clamp v)) := h.toRanged.setNew fun _ => h.clamp_vblank v
  have hzero := imx132SetCtrl_vblank_fst hranged hbus
  have hrelimited := relimited_vblank hranged (.inr hbus)
  have hrequested := requested_request imx132SetCtrl .vblank v s
  generalize request imx132SetCtrl .vblank v s = r at hrequested ⊢
  cases hrequested with
  | unchanged hv =>
      have hfitted : Fitted (s.setNew .vblank (s.ctrl .vblank).cur) := h.toFitted.setNew fun _ => h.vblankCur
      exact ⟨hfitted, fun hused => (h.shown hused).setNew _ _, h.usage, h.enabled⟩
  | refused ret s' hv hret hset =>
      rw [hset] at hzero
      exact absurd hzero hret
  | committed s' hv hset =>
      rw [hset] at hrelimited
      obtain ⟨hlimited, hranged', hvblank, husage, henabled, -, hshown⟩ := hrelimited
      have hexposure : (s'.commit .vblank).ctrl .exposure = s'.ctrl .exposure := commit_ne (by decide)
      rw [← hvblank] at hlimited
      refine ⟨⟨hranged'.commit .vblank, ?_, ?_⟩, fun hused => ?_, ?_, fun hused => ?_⟩
      · rw [hexposure, commit_self]
        exact hlimited.maximum
      · rw [hexposure, commit_self]
        exact hlimited.cur
      · rw [commit_dev, husage] at hused
        unfold Shown
        rw [hexposure]
        exact hshown hused ((h.shown hused).setNew _ _)
      · rw [commit_dev, husage]
        exact h.usage
      · rw [commit_dev, husage] at hused
        rw [commit_dev, henabled]
        exact h.enabled hused

theorem imx132SetCtrl_of_ne (hid : id ≠ .vblank) (s : Sensor) : imx132SetCtrl id s = applyCtrl id s := if_neg hid

theorem write_inv (h : Inv s) (hbus : id = .vblank → s.dev.usage ≠ 0 → ∀ ret ∈ s.dev.bus, ret = 0) (v : ℤ) :
    Inv (write imx132SetCtrl id v s).2 := by
  unfold write
  split
  · exact h
  · by_cases hid : id = .vblank
    · subst hid
      exact request_vblank_inv h (hbus rfl) v
    · rw [request_congr (imx132SetCtrl_of_ne hid)]
      exact (relimited_request hid v h.toRanged (one_le_exposureMax h.toRanged) h.maximum (.inl h.cur)).inv h

/-- What writes to other registers leave. -/
structure Kept (d d' : Imx132) : Prop where
  usage : d'.usage = d.usage
  enabled : d'.enabled = d.enabled
  frameLength : ∀ v, (IMX132_REG_FRAME_LENGTH, v) ∈ d'.writes → (IMX132_REG_FRAME_LENGTH, v) ∈ d.writes
  exposure : d.writes.lookup IMX132_REG_EXPOSURE = d'.writes.lookup IMX132_REG_EXPOSURE

theorem cciWrite_kept {reg : ℕ} (hframe : reg ≠ IMX132_REG_FRAME_LENGTH) (hexposure : reg ≠ IMX132_REG_EXPOSURE)
    (val : ℤ) (d : Imx132) : Kept d (cciWrite reg val d).2 := by
  have hwrote := cciWrite_wrote reg val d
  generalize cciWrite reg val d = r at hwrote ⊢
  cases hwrote with
  | failed ret hret hmem => exact ⟨rfl, rfl, fun v hv => hv, rfl⟩
  | written =>
      refine ⟨rfl, rfl, fun v hv => ?_, ?_⟩
      · rcases List.mem_cons.mp hv with heq | hv
        · cases heq
          exact absurd rfl hframe
        · exact hv
      · dsimp only
        rw [List.lookup_cons]
        split
        · rename_i hreg
          exact absurd (eq_of_beq hreg).symm hexposure
        · rfl

theorem modeSelect_kept (val : ℤ) (d : Imx132) : Kept d (cciWrite IMX132_REG_MODE_SELECT val d).2 :=
  cciWrite_kept (by decide) (by decide) val d

theorem cciWriteAll_kept {regs : List (ℕ × ℤ)}
    (hregs : ∀ reg ∈ regs, reg.1 ≠ IMX132_REG_FRAME_LENGTH ∧ reg.1 ≠ IMX132_REG_EXPOSURE) (d : Imx132) :
    Kept d (cciWriteAll regs d).2 := by
  induction regs generalizing d with
  | nil => exact ⟨rfl, rfl, fun v hv => hv, rfl⟩
  | cons reg regs ih =>
      obtain ⟨hframe, hexposure⟩ := hregs reg List.mem_cons_self
      have hkept := cciWrite_kept hframe hexposure reg.2 d
      have hrest := ih (fun reg hmem => hregs reg (List.mem_cons_of_mem _ hmem)) (cciWrite reg.1 reg.2 d).2
      unfold cciWriteAll
      dsimp only
      split
      · exact hkept
      · exact ⟨hrest.usage.trans hkept.usage, hrest.enabled.trans hkept.enabled,
          fun v hv => hkept.frameLength v (hrest.frameLength v hv), hkept.exposure.trans hrest.exposure⟩

theorem imx132Configure_kept (d : Imx132) : Kept d (imx132Configure d).2 := cciWriteAll_kept (by decide) d

/-- A setter called from the setup, where the exposure fits. -/
theorem Fitted.call (h : Fitted s) (id : CtrlId) :
    Relimited (exposureMax (s.ctrl .vblank).cur) (s.setNew id (s.ctrl id).cur)
      (imx132SetCtrl id (s.setNew id (s.ctrl id).cur)).2 := by
  have hfitted : Fitted (s.setNew id (s.ctrl id).cur) := h.setNew fun hid => hid ▸ h.vblankCur
  have hcur := hfitted.cur
  have hlimited := hfitted.toLimited
  rw [setNew_cur] at hcur hlimited
  by_cases hid : id = .vblank
  · subst hid
    have hrelimited := relimited_vblank hfitted.toRanged (.inl (by rw [setNew_self]; exact hcur))
    rw [setNew_self] at hrelimited
    exact hrelimited
  · rw [imx132SetCtrl_of_ne hid]
    refine (Relimited.refl hfitted.toRanged hlimited).applied (applyCtrl_applied ..) fun hid => ?_
    subst hid
    rw [setNew_self]

/-- What is kept while all setters are called at the start of a stream. -/
structure Starting (s : Sensor) : Prop extends Fitted s where
  usage : s.dev.usage = 1

theorem Starting.call (h : Starting s) (id : CtrlId) :
    Starting (imx132SetCtrl id (s.setNew id (s.ctrl id).cur)).2 ∧
      (Shown s → Shown (imx132SetCtrl id (s.setNew id (s.ctrl id).cur)).2) := by
  obtain ⟨hlimited, hranged, hvblank, husage, -, -, hshown⟩ := h.toFitted.call id
  rw [setNew_dev, h.usage] at husage
  have hcur : ((imx132SetCtrl id (s.setNew id (s.ctrl id).cur)).2.ctrl .vblank).cur = (s.ctrl .vblank).cur := by
    rw [hvblank, setNew_cur]
  rw [← hcur] at hlimited
  refine ⟨⟨⟨hranged, hlimited⟩, husage⟩, fun hs => hshown ?_ (hs.setNew id _)⟩
  rw [setNew_dev, h.usage]
  decide

theorem Starting.exposure {s' : Sensor} (h : Starting s)
    (hset : imx132SetCtrl .exposure (s.setNew .exposure (s.ctrl .exposure).cur) = (0, s')) : Shown s' := by
  have happlied := applyCtrl_applied .exposure (s.setNew .exposure (s.ctrl .exposure).cur)
  rw [← imx132SetCtrl_exposure, hset] at happlied
  have hused : (s.setNew .exposure (s.ctrl .exposure).cur).dev.usage ≠ 0 := by
    rw [setNew_dev, h.usage]
    decide
  have hwritten := happlied.exposure hused rfl
  have hctrl := happlied.sameControls.ctrl
  unfold Shown
  rw [hwritten, hctrl, setNew_self]

/-- The setup of a start leaves the exposure in its register. -/
theorem Starting.setup (h : Starting s) :
    Starting (setup imx132SetCtrl ctrls s).2 ∧
      ((Controls.setup imx132SetCtrl ctrls s).1 = 0 → Shown (Controls.setup imx132SetCtrl ctrls s).2) := by
  refine ⟨setup_keeps (P := Starting) (fun id s h => (Starting.call h id).1) h ctrls, fun hok => ?_⟩
  exact setup_establishes (P := Starting) (Q := Shown) (i := .exposure) (fun id s h => (Starting.call h id).1)
    (fun id s h => (Starting.call h id).2) (fun s h => h.exposureWritable) (fun s s' h hset => h.exposure hset) h
    (by decide) hok

theorem Starting.put_usage (h : Starting s) : (pmRuntimePut s).dev.usage = 0 := by rw [pmRuntimePut, h.usage]

theorem Starting.put (h : Starting s) : Inv (pmRuntimePut s) := by
  have hfitted : Fitted (pmRuntimePut s) := h.toFitted.dev fun _ hv => hv
  exact hfitted.off h.put_usage

theorem Kept.starting {d : Imx132} (h : Starting s) (hkept : Kept s.dev d) : Starting { s with dev := d } :=
  ⟨h.toFitted.dev hkept.frameLength, hkept.usage.trans h.usage⟩

theorem Kept.shown {d : Imx132} (h : Shown s) (hkept : Kept s.dev d) : Shown { s with dev := d } :=
  hkept.exposure.symm.trans h

/-- Off the sensor it does not matter what the subdev core has. -/
theorem finish_off {r : ℤ × Sensor} (h : Fitted r.2) (husage : r.2.dev.usage = 0) (enabled : Bool) :
    Inv (finish enabled r) := by
  unfold finish
  split
  · exact Fitted.off (s := { r.2 with dev := { r.2.dev with enabled } }) (h.dev fun _ hv => hv) husage
  · exact h.off husage

theorem enableStreams_inv (h : Inv s) (henabled : s.dev.enabled = false) (resume : ℤ) :
    Inv (finish true (imx132EnableStreams resume s)) := by
  have husage : s.dev.usage = 0 := by
    by_contra hne
    exact absurd (h.enabled hne) (by rw [henabled]; decide)
  have hstarting : Starting { s with dev := { s.dev with usage := s.dev.usage + 1 } } :=
    ⟨h.toFitted.dev fun _ hv => hv, by rw [husage]⟩
  have hconfigured := (imx132Configure_kept _).starting hstarting
  have hsetup := hconfigured.setup
  unfold imx132EnableStreams
  dsimp only at hconfigured hsetup ⊢
  split
  · exact finish_off h.toFitted husage true
  split
  · exact finish_off hconfigured.put.toFitted hconfigured.put_usage true
  split
  · exact finish_off hsetup.1.put.toFitted hsetup.1.put_usage true
  rename_i hret
  have hkept := modeSelect_kept IMX132_MODE_STREAMING
    (Controls.setup imx132SetCtrl ctrls
      { ctrl := s.ctrl, dev := (imx132Configure { s.dev with usage := s.dev.usage + 1 }).2 }).2.dev
  have hstreaming := hkept.starting hsetup.1
  split
  · exact finish_off hstreaming.put.toFitted hstreaming.put_usage true
  · have hshown := hkept.shown (hsetup.2 (Decidable.not_not.mp hret))
    exact ⟨hstreaming.toFitted.dev fun _ hv => hv, fun _ => hshown, Nat.le_of_eq hstreaming.usage, fun _ => rfl⟩

theorem disableStreams_inv (h : Inv s) : Inv (finish false (imx132DisableStreams s)) := by
  have hkept := modeSelect_kept IMX132_MODE_STANDBY s.dev
  have husage := hkept.usage
  have hle := h.usage
  have hfitted : Fitted (imx132DisableStreams s).2 := h.toFitted.dev hkept.frameLength
  refine finish_off hfitted ?_ false
  unfold imx132DisableStreams pmRuntimePut
  dsimp only
  omega

theorem step_inv (h : Inv s) (a : Action) (ha : Undisturbed s a) : Inv (step s a) := by
  cases a with
  | setCtrl id value bus =>
      refine write_inv (onBus_inv h bus) (fun hid => ?_) value
      subst hid
      exact ha
  | enableStreams resume bus =>
      unfold step
      dsimp only
      split
      · exact h
      · rename_i henabled
        exact enableStreams_inv (onBus_inv h bus) ((Bool.not_eq_true _).mp henabled) resume
  | disableStreams bus =>
      unfold step
      dsimp only
      split
      · exact disableStreams_inv (onBus_inv h bus)
      · exact h

theorem imx132Probe_inv : Inv imx132Probe := by
  have hfitted : Fitted imx132Probe :=
    ⟨⟨by decide, by decide, by decide, rfl, rfl, fun v hv => absurd hv List.not_mem_nil⟩, ⟨by decide, by decide⟩⟩
  exact hfitted.off rfl

end

section
variable {s : Sensor}

theorem finish_ranged {r : ℤ × Sensor} (h : Ranged r.2) (enabled : Bool) : Ranged (finish enabled r) := by
  unfold finish
  split
  · exact h.dev fun _ hv => hv
  · exact h

theorem imx132EnableStreams_ranged (h : Ranged s) (resume : ℤ) : Ranged (imx132EnableStreams resume s).2 := by
  have hconfigured : Ranged { s with dev := (imx132Configure { s.dev with usage := s.dev.usage + 1 }).2 } :=
    h.dev (imx132Configure_kept _).frameLength
  have hsetup := setup_keeps (P := Ranged) (fun id s h => Ranged.call h id) hconfigured ctrls
  unfold imx132EnableStreams
  dsimp only
  split
  · exact h
  split
  · exact hconfigured.dev fun _ hv => hv
  split
  · exact hsetup.dev fun _ hv => hv
  have hstreaming := hsetup.dev (modeSelect_kept IMX132_MODE_STREAMING _).frameLength
  split
  · exact hstreaming.dev fun _ hv => hv
  · exact hstreaming

theorem onBus_ranged (h : Ranged s) (bus : List ℤ) : Ranged (onBus bus s) := h.dev fun _ hv => hv

theorem step_ranged (h : Ranged s) (a : Action) : Ranged (step s a) := by
  cases a with
  | setCtrl id value bus =>
      have hbus := onBus_ranged h bus
      unfold step write
      dsimp only
      split
      · exact hbus
      · refine request_frame (P := Ranged) (hbus.setNew fun hid => ?_) (fun s h => h.imx132SetCtrl id)
          fun s h => h.commit id
        subst hid
        exact hbus.clamp_vblank value
  | enableStreams resume bus =>
      unfold step
      dsimp only
      split
      · exact h
      · exact finish_ranged (imx132EnableStreams_ranged (onBus_ranged h bus) resume) true
  | disableStreams bus =>
      unfold step
      dsimp only
      split
      · refine finish_ranged (r := imx132DisableStreams (onBus bus s)) ?_ false
        exact (onBus_ranged h bus).dev (modeSelect_kept IMX132_MODE_STANDBY _).frameLength
      · exact h

end

/-- No frame length is out of range, and where no write of the blanking is disturbed the exposure fits. -/
theorem exposure_fits (as : List Action) :
    FrameLengthFits (run step imx132Probe as) ∧
      (Always step Undisturbed imx132Probe as → ExposureFits (run step imx132Probe as)) := by
  constructor
  · exact (run_keeps (I := Ranged) (fun _ a h => step_ranged h a) imx132Probe_inv.toRanged as).frameLength
  · intro h
    exact (run_invariant (I := Inv) (fun _ a hs ha => step_inv hs a ha) imx132Probe_inv h).exposureFits

/-- A stream with its longest exposure, stopped; then the blanking is shortened. -/
def shortened : List Action :=
  [.enableStreams 0 [], .setCtrl .exposure 1196 [], .disableStreams [], .setCtrl .vblank 16 []]

/-- The sensor is started again, and takes a longer blanking. -/
def restarted : List Action := shortened ++ [.enableStreams 0 [], .setCtrl .vblank 20 []]

theorem restarted_exposureFits :
    (run step imx132Probe restarted).dev.usage ≠ 0 ∧
      lastWritten IMX132_REG_EXPOSURE (run step imx132Probe restarted) = some 1156 ∧
      ExposureFits (run step imx132Probe restarted) :=
  ⟨by decide +kernel, by decide +kernel,
    (exposure_fits restarted).2
      ⟨trivial, trivial, trivial, fun _ _ hret => absurd hret List.not_mem_nil, trivial,
        fun _ _ hret => absurd hret List.not_mem_nil, trivial⟩⟩

/-- The bus fails in the middle of a stream. -/
def refused : List Action := [.enableStreams 0 [], .setCtrl .vblank 16 [-5]]

/-- The register of a sensor that is off is behind, and a blanking that is refused has moved the range. -/
theorem exposure_behind :
    (∃ v, lastWritten IMX132_REG_EXPOSURE (run step imx132Probe shortened) = some v ∧
      exposureMax ((run step imx132Probe shortened).ctrl .vblank).cur < v) ∧
    ((run step imx132Probe refused).ctrl .exposure).maximum ≠
      exposureMax ((run step imx132Probe refused).ctrl .vblank).cur :=
  ⟨⟨1196, by decide +kernel, by decide +kernel⟩, by decide +kernel⟩

end Sirius.Camera
