import Mathlib.Algebra.Order.Group.Nat
import Sirius.Camera.Exposure

/-!
# The order of the colours

A flip turns the colours of the picture around, and the format that the driver names has to say so. The sensor flips by
its register and the driver names the format by the controls, so the two differ once a write of a flip has failed.
-/
namespace Sirius.Camera
open Controls Runs

def MEDIA_BUS_FMT_SBGGR10_1X10 : ℕ := 0x3007
def MEDIA_BUS_FMT_SGBRG10_1X10 : ℕ := 0x300e
def MEDIA_BUS_FMT_SGRBG10_1X10 : ℕ := 0x300a
def MEDIA_BUS_FMT_SRGGB10_1X10 : ℕ := 0x300f

/-- One entry per flip combination: none, hflip, vflip, both. -/
def imx132MbusFormats : List ℕ :=
  [MEDIA_BUS_FMT_SBGGR10_1X10, MEDIA_BUS_FMT_SGBRG10_1X10, MEDIA_BUS_FMT_SGRBG10_1X10, MEDIA_BUS_FMT_SRGGB10_1X10]

def imx132GetFormatCode (s : Sensor) : ℕ :=
  let i := (if (s.ctrl .vflip).val ≠ 0 then 2 else 0) ||| if (s.ctrl .hflip).val ≠ 0 then 1 else 0
  imx132MbusFormats.getD i 0

inductive Colour
  | red
  | green
  | blue
  deriving DecidableEq, Repr

/-- The colours of a cell of two by two pixels, row by row. -/
def cell (code : ℕ) : List Colour :=
  if code = MEDIA_BUS_FMT_SBGGR10_1X10 then [.blue, .green, .green, .red]
  else if code = MEDIA_BUS_FMT_SGBRG10_1X10 then [.green, .blue, .red, .green]
  else if code = MEDIA_BUS_FMT_SGRBG10_1X10 then [.green, .red, .blue, .green]
  else if code = MEDIA_BUS_FMT_SRGGB10_1X10 then [.red, .green, .green, .blue]
  else []

def colourAt (code x y : ℕ) : Option Colour := (cell code)[2 * (y % 2) + x % 2]?

/-- The orientation register, which a software reset clears. -/
def orientation (s : Sensor) : ℤ :=
  ((s.dev.writes.takeWhile fun w => w.1 ≠ IMX132_REG_SOFTWARE_RESET).lookup IMX132_REG_IMAGE_ORIENTATION).getD 0

/-- What `imx132_set_ctrl` writes for two flips. -/
def orient (hflip vflip : ℤ) : ℕ :=
  (if hflip ≠ 0 then IMX132_ORIENTATION_HFLIP else 0) ||| if vflip ≠ 0 then IMX132_ORIENTATION_VFLIP else 0

/-- The pixels are read the other way round along a flipped axis. The native order is BGGR. -/
def sentAt (orientation width height x y : ℕ) : Option Colour :=
  colourAt MEDIA_BUS_FMT_SBGGR10_1X10 (if orientation.testBit 0 then width - 1 - x else x)
    (if orientation.testBit 1 then height - 1 - y else y)

/-- The format that the driver names has the colours that the sensor sends. -/
def Named (s : Sensor) : Prop :=
  ∀ x < imx132Mode1976x1144.width.toNat, ∀ y < imx132Mode1976x1144.height.toNat,
    colourAt (imx132GetFormatCode s) x y =
      sentAt (orientation s).toNat imx132Mode1976x1144.width.toNat imx132Mode1976x1144.height.toNat x y

def IsFlip (id : CtrlId) : Prop := id = .hflip ∨ id = .vflip

instance (id : CtrlId) : Decidable (IsFlip id) := inferInstanceAs (Decidable (_ ∨ _))

/-- No write of a flip to a sensor in use fails, where the value changes. -/
def FlipWritten (s : Sensor) : Action → Prop
  | .setCtrl id value bus =>
      IsFlip id → s.dev.usage ≠ 0 → (s.ctrl id).clamp value ≠ (s.ctrl id).cur → bus.headD 0 = 0
  | _ => True

theorem mod_two_reflect {n x : ℕ} (hn : n % 2 = 0) (hx : x < n) : (n - 1 - x) % 2 = 1 - x % 2 := by omega

/-- The colours of a format for two flips are the native ones read with two flips, exactly where the flips are the
same. -/
theorem cell_flipped : ∀ h v h' v' : Bool,
    (∀ x < 2, ∀ y < 2, (cell (imx132MbusFormats.getD ((if v then 2 else 0) ||| if h then 1 else 0) 0))[2 * y + x]? =
      (cell MEDIA_BUS_FMT_SBGGR10_1X10)[2 * (if v' then 1 - y else y) + if h' then 1 - x else x]?) ↔
      h = h' ∧ v = v' := by
  decide

theorem testBit_orient (hflip vflip : ℤ) :
    (orient hflip vflip).testBit 0 = decide (hflip ≠ 0) ∧ (orient hflip vflip).testBit 1 = decide (vflip ≠ 0) := by
  by_cases hh : hflip ≠ 0 <;> by_cases hv : vflip ≠ 0 <;> simp [orient, hh, hv] <;> decide

theorem colours_iff {n m : ℕ} (hn : n % 2 = 0) (hm : m % 2 = 0) (hn0 : 0 < n) (hm0 : 0 < m) (h v h' v' : Bool) :
    (∀ x < n, ∀ y < m,
        colourAt (imx132MbusFormats.getD ((if v then 2 else 0) ||| if h then 1 else 0) 0) x y =
          colourAt MEDIA_BUS_FMT_SBGGR10_1X10 (if h' then n - 1 - x else x) (if v' then m - 1 - y else y)) ↔
      h = h' ∧ v = v' := by
  rw [← cell_flipped]
  have hmod : ∀ x < n, (if h' then n - 1 - x else x) % 2 = if h' then 1 - x % 2 else x % 2 := by
    intro x hx
    split
    · exact mod_two_reflect hn hx
    · rfl
  have hmod' : ∀ y < m, (if v' then m - 1 - y else y) % 2 = if v' then 1 - y % 2 else y % 2 := by
    intro y hy
    split
    · exact mod_two_reflect hm hy
    · rfl
  constructor
  · intro hall x hx y hy
    have hcell := hall x (by omega) y (by omega)
    unfold colourAt at hcell
    rw [hmod x (by omega), hmod' y (by omega), Nat.mod_eq_of_lt hx, Nat.mod_eq_of_lt hy] at hcell
    exact hcell
  · intro hcell x hx y hy
    unfold colourAt
    rw [hmod x hx, hmod' y hy]
    exact hcell (x % 2) (Nat.mod_lt x Nat.two_pos) (y % 2) (Nat.mod_lt y Nat.two_pos)

section
variable {s s' : Sensor} {id : CtrlId}

theorem named_iff {hflip vflip : ℤ} (h : orientation s = orient hflip vflip) :
    Named s ↔ ((s.ctrl .hflip).val ≠ 0 ↔ hflip ≠ 0) ∧ ((s.ctrl .vflip).val ≠ 0 ↔ vflip ≠ 0) := by
  obtain ⟨hbit, vbit⟩ := testBit_orient hflip vflip
  have hcolours := colours_iff (n := 1976) (m := 1144) rfl rfl (by decide) (by decide)
    (decide ((s.ctrl .hflip).val ≠ 0)) (decide ((s.ctrl .vflip).val ≠ 0)) (decide (hflip ≠ 0)) (decide (vflip ≠ 0))
  rw [decide_eq_decide, decide_eq_decide] at hcolours
  rw [← hcolours]
  unfold Named sentAt imx132GetFormatCode
  rw [h, Int.toNat_natCast, hbit, vbit]
  simp only [decide_eq_true_eq]
  rfl

/-- Both flips are bits. -/
structure FlipRange (s : Sensor) : Prop where
  range : ∀ id, IsFlip id → (s.ctrl id).minimum = 0 ∧ (s.ctrl id).maximum = 1 ∧ (s.ctrl id).readOnly = false
  cur : ∀ id, IsFlip id → 0 ≤ (s.ctrl id).cur ∧ (s.ctrl id).cur ≤ 1

/-- The flips are as they were, and so is whether the sensor is in use. What keeps the register too has `reg`. -/
structure SameFlips (reg : Prop) (s s' : Sensor) : Prop where
  ctrl : ∀ id, IsFlip id → s'.ctrl id = s.ctrl id
  usage : s'.dev.usage = s.dev.usage
  enabled : s'.dev.enabled = s.dev.enabled
  orientation : reg → orientation s' = orientation s

variable {reg reg' : Prop}

theorem SameFlips.refl (s : Sensor) : SameFlips reg s s := ⟨fun _ _ => rfl, rfl, rfl, fun _ => rfl⟩

theorem SameFlips.trans {s'' : Sensor} (h : SameFlips reg s s') (h' : SameFlips reg s' s'') : SameFlips reg s s'' :=
  ⟨fun id hid => (h'.ctrl id hid).trans (h.ctrl id hid), h'.usage.trans h.usage, h'.enabled.trans h.enabled,
    fun hreg => (h'.orientation hreg).trans (h.orientation hreg)⟩

theorem SameFlips.mono (h : SameFlips reg s s') (himp : reg' → reg) : SameFlips reg' s s' :=
  ⟨h.ctrl, h.usage, h.enabled, fun hreg => h.orientation (himp hreg)⟩

theorem FlipRange.congr (h : FlipRange s) (hsame : SameFlips reg s s') : FlipRange s' := by
  constructor
  · intro id hid
    rw [hsame.ctrl id hid]
    exact h.range id hid
  · intro id hid
    rw [hsame.ctrl id hid]
    exact h.cur id hid

theorem sameFlips_put {c : Control} (hid : ¬IsFlip id) : SameFlips reg s (s.put id c) := by
  refine ⟨fun id' hid' => put_ne ?_ c, rfl, rfl, fun _ => rfl⟩
  rintro rfl
  exact hid hid'

theorem orientation_write {reg : ℕ} (hreset : reg ≠ IMX132_REG_SOFTWARE_RESET) (val : ℤ) (d : Imx132)
    (hwrites : d.writes = (reg, val) :: s.dev.writes) :
    orientation { s with dev := d } = if reg = IMX132_REG_IMAGE_ORIENTATION then val else orientation s := by
  unfold orientation
  rw [hwrites, List.takeWhile_cons, if_pos (decide_eq_true hreset), List.lookup_cons]
  split
  · rename_i heq
    rw [if_pos (eq_of_beq heq).symm]
    rfl
  · rename_i hne
    rw [if_neg fun heq => beq_eq_false_iff_ne.mp hne heq.symm]

theorem command_reg {reg : ℕ} {val : ℤ} (h : command s id = some (reg, val)) :
    reg ≠ IMX132_REG_SOFTWARE_RESET ∧ (reg = IMX132_REG_IMAGE_ORIENTATION ↔ IsFlip id) := by
  cases id <;> simp only [command, reduceCtorEq, Option.some.injEq, Prod.mk.injEq] at h <;> obtain ⟨rfl, -⟩ := h <;>
    decide

theorem command_flip (hid : IsFlip id) (s : Sensor) :
    command s id = some (IMX132_REG_IMAGE_ORIENTATION, (orient (s.ctrl .hflip).val (s.ctrl .vflip).val : ℤ)) := by
  rcases hid with rfl | rfl <;> rfl

theorem Applied.sameFlips {r : ℤ × Sensor} (h : Applied id s r) : SameFlips (¬IsFlip id) s r.2 := by
  obtain ⟨hctrl, husage, henabled⟩ := h.sameControls
  refine ⟨fun id _ => by rw [hctrl], husage, henabled, fun hid => ?_⟩
  cases h with
  | off husage => rfl
  | unhandled hcommand => rfl
  | failed ret husage hret hmem => rfl
  | written reg val hcommand =>
      obtain ⟨hreset, hreg⟩ := command_reg hcommand
      rw [orientation_write hreset val _ rfl, if_neg fun heq => hid (hreg.mp heq)]

theorem sameFlips_request (hid : ¬IsFlip id) {set : Setter CtrlId Imx132} (hset : ∀ s, SameFlips reg s (set id s).2)
    (v : ℤ) : SameFlips reg s (request set id v s).2 := by
  refine request_frame (P := SameFlips reg s) (sameFlips_put hid) (fun h hs => hs.trans (hset h)) fun h hs => ?_
  exact hs.trans (sameFlips_put hid)

theorem sameFlips_modifyRange (minimum maximum defaultValue : ℤ) :
    SameFlips reg s (modifyRange applyCtrl .exposure minimum maximum defaultValue s).2 := by
  have hexposure : ∀ s, SameFlips reg s (applyCtrl .exposure s).2 := fun s =>
    (applyCtrl_applied .exposure s).sameFlips.mono fun _ => by decide
  unfold modifyRange
  split
  · exact .refl s
  · exact (sameFlips_put (by decide)).trans (sameFlips_request (by decide) hexposure _)

/-- No setter changes a flip, nor whether the sensor is in use. -/
theorem sameFlips_setCtrl (id : CtrlId) (s : Sensor) : SameFlips (¬IsFlip id) s (imx132SetCtrl id s).2 := by
  unfold imx132SetCtrl
  split
  · exact (sameFlips_modifyRange _ _ _).trans (applyCtrl_applied id _).sameFlips
  · exact (applyCtrl_applied id s).sameFlips

/-- The register of a sensor in use has its flips. -/
structure FlipsShown (s : Sensor) : Prop extends FlipRange s where
  usage : s.dev.usage ≤ 1
  enabled : s.dev.usage ≠ 0 → s.dev.enabled = true
  vals : s.dev.usage ≠ 0 → ∀ id, IsFlip id → (s.ctrl id).val = (s.ctrl id).cur
  shown : s.dev.usage ≠ 0 → orientation s = orient (s.ctrl .hflip).cur (s.ctrl .vflip).cur

theorem FlipsShown.off (h : FlipRange s) (husage : s.dev.usage = 0) : FlipsShown s :=
  ⟨h, by omega, fun hne => absurd husage hne, fun hne => absurd husage hne, fun hne => absurd husage hne⟩

theorem FlipsShown.congr (h : FlipsShown s) (hsame : SameFlips True s s') : FlipsShown s' := by
  have husage := hsame.usage
  refine ⟨h.toFlipRange.congr hsame, husage ▸ h.usage, fun hne => ?_, fun hne id hid => ?_, fun hne => ?_⟩ <;>
    rw [husage] at hne
  · rw [hsame.enabled]
    exact h.enabled hne
  · rw [hsame.ctrl id hid]
    exact h.vals hne id hid
  · rw [hsame.orientation trivial, hsame.ctrl .hflip (.inl rfl), hsame.ctrl .vflip (.inr rfl)]
    exact h.shown hne

theorem FlipsShown.named (h : FlipsShown s) (husage : s.dev.usage ≠ 0) : Named s := by
  rw [named_iff (h.shown husage), h.vals husage .hflip (.inl rfl), h.vals husage .vflip (.inr rfl)]
  exact ⟨Iff.rfl, Iff.rfl⟩

theorem FlipRange.setNew (h : FlipRange s) (id : CtrlId) (v : ℤ) : FlipRange (s.setNew id v) := by
  constructor
  · intro id' hid'
    rw [setNew_minimum, setNew_maximum, setNew_readOnly]
    exact h.range id' hid'
  · intro id' hid'
    rw [setNew_cur]
    exact h.cur id' hid'

theorem FlipRange.clamp (h : FlipRange s) (hid : IsFlip id) (v : ℤ) :
    0 ≤ (s.ctrl id).clamp v ∧ (s.ctrl id).clamp v ≤ 1 := by
  obtain ⟨hmin, hmax, -⟩ := h.range id hid
  have hbounds := Control.clamp_bounds (c := s.ctrl id) (by omega) v
  rwa [hmin, hmax] at hbounds

theorem request_usage (id : CtrlId) (v : ℤ) (s : Sensor) :
    (request imx132SetCtrl id v s).2.dev.usage = s.dev.usage := by
  apply request_frame (P := fun h : Sensor => h.dev.usage = s.dev.usage)
  · rfl
  · exact fun h hs => (sameFlips_setCtrl id h).usage.trans hs
  · exact fun _ hs => hs

theorem FlipRange.commit (h : FlipRange s) {v : ℤ} (hv : 0 ≤ v ∧ v ≤ 1) (hsame : SameFlips reg (s.setNew id v) s') :
    FlipRange (s'.commit id) := by
  have hrange := (h.setNew id v).congr hsame
  constructor
  · intro id' hid'
    rw [commit_minimum, commit_maximum, commit_readOnly]
    exact hrange.range id' hid'
  · intro id' hid'
    by_cases heq : id' = id
    · subst heq
      rw [commit_self, hsame.ctrl id' hid', setNew_self]
      exact hv
    · rw [commit_ne heq]
      exact hrange.cur id' hid'

/-- Behind a new value that is made permanent, all flips have permanent values. -/
theorem commit_vals (hvals : ∀ id, IsFlip id → (s.ctrl id).val = (s.ctrl id).cur) {v : ℤ}
    (hsame : SameFlips reg (s.setNew id v) s') : ∀ id', IsFlip id' →
      ((s'.commit id).ctrl id').cur = ((s.setNew id v).ctrl id').val ∧
        ((s'.commit id).ctrl id').val = ((s.setNew id v).ctrl id').val := by
  intro id' hid'
  rw [commit_val, hsame.ctrl id' hid']
  refine ⟨?_, rfl⟩
  by_cases heq : id' = id
  · subst heq
    rw [commit_self, hsame.ctrl id' hid']
  · rw [commit_ne heq, hsame.ctrl id' hid', setNew_ne heq]
    exact (hvals id' hid').symm

inductive FlipSet (s : Sensor) : ℤ × Sensor → Prop
  | off (husage : s.dev.usage = 0) : FlipSet s (0, s)
  | failed (ret : ℤ) (husage : s.dev.usage ≠ 0) (hbus : ret = s.dev.bus.headD 0) (hret : ret ≠ 0) :
      FlipSet s (ret, { s with dev := { s.dev with bus := s.dev.bus.tail } })
  | written (s' : Sensor) (husage : s.dev.usage ≠ 0) (hbus : s.dev.bus.headD 0 = 0) (hsame : SameFlips False s s')
      (hshown : orientation s' = orient (s.ctrl .hflip).val (s.ctrl .vflip).val) : FlipSet s (0, s')

theorem setCtrl_flipSet (hid : IsFlip id) (s : Sensor) : FlipSet s (imx132SetCtrl id s) := by
  have hne : id ≠ .vblank := by
    rintro rfl
    exact absurd hid (by decide)
  rw [imx132SetCtrl_of_ne hne, applyCtrl, command_flip hid]
  unfold cciWrite
  dsimp only
  split
  · exact .off ‹_›
  · rename_i husage
    split
    · exact .failed _ husage rfl ‹_›
    · rename_i hbus
      refine .written _ husage (not_not.mp hbus) ⟨fun _ _ => rfl, rfl, rfl, fun h => h.elim⟩ ?_
      rw [orientation_write (s := s) (by decide) _ _ rfl, if_pos rfl]

/-- A flip that is written where it has to be is shown. -/
theorem FlipsShown.request (h : FlipsShown s) (hid : IsFlip id) {v : ℤ}
    (hwritten : s.dev.usage ≠ 0 → (s.ctrl id).clamp v ≠ (s.ctrl id).cur → s.dev.bus.headD 0 = 0) :
    FlipsShown (request imx132SetCtrl id v s).2 := by
  have hclamp := h.toFlipRange.clamp hid v
  have hrequested := requested_request imx132SetCtrl id v s
  generalize Controls.request imx132SetCtrl id v s = r at hrequested ⊢
  cases hrequested with
  | unchanged hv =>
      refine ⟨h.toFlipRange.setNew id _, h.usage, h.enabled, fun hused id' hid' => ?_, fun hused => ?_⟩
      · rw [setNew_cur]
        by_cases heq : id' = id
        · subst heq
          rw [setNew_self]
        · rw [setNew_ne heq]
          exact h.vals hused id' hid'
      · rw [setNew_cur, setNew_cur]
        exact h.shown hused
  | refused ret s' hv hret hset =>
      have hflip := setCtrl_flipSet hid (s.setNew id ((s.ctrl id).clamp v))
      rw [hset] at hflip
      cases hflip with
      | off husage => exact absurd rfl hret
      | failed ret husage hbus hne => exact absurd (hbus.trans (hwritten husage hv)) hne
      | written s' husage hbus hsame hshown => exact absurd rfl hret
  | committed s' hv hset =>
      have hflip := setCtrl_flipSet hid (s.setNew id ((s.ctrl id).clamp v))
      rw [hset] at hflip
      cases hflip with
      | off husage =>
          have hsame : SameFlips True (s.setNew id ((s.ctrl id).clamp v)) _ := .refl _
          exact .off (h.toFlipRange.commit hclamp hsame) husage
      | failed ret husage hbus hne => exact absurd rfl hne
      | written s' husage hbus hsame hshown =>
          have hnew := commit_vals (h.vals husage) hsame
          refine ⟨h.toFlipRange.commit hclamp hsame, ?_, fun _ => ?_, fun _ id' hid' => ?_, fun _ => ?_⟩
          · exact hsame.usage.trans_le h.usage
          · exact hsame.enabled.trans (h.enabled husage)
          · rw [(hnew id' hid').1, (hnew id' hid').2]
          · rw [(hnew .hflip (.inl rfl)).1, (hnew .vflip (.inr rfl)).1]
            exact hshown

theorem FlipsShown.written (h : FlipsShown s) (hid : IsFlip id) {v : ℤ} (husage : s.dev.usage ≠ 0)
    (hv : (s.ctrl id).clamp v ≠ (s.ctrl id).cur) (hnamed : Named (Controls.request imx132SetCtrl id v s).2) :
    s.dev.bus.headD 0 = 0 := by
  have hrequested := requested_request imx132SetCtrl id v s
  generalize Controls.request imx132SetCtrl id v s = r at hrequested hnamed
  have hflip := setCtrl_flipSet hid (s.setNew id ((s.ctrl id).clamp v))
  cases hrequested with
  | unchanged hv' => exact absurd hv' hv
  | refused ret s' hv' hret hset =>
      rw [hset] at hflip
      cases hflip with
      | off hoff => exact absurd rfl hret
      | failed ret husage hbus hne =>
          have hregister : orientation (s.setNew id ((s.ctrl id).clamp v)) = _ := h.shown husage
          obtain ⟨hhflip, hvflip⟩ := (named_iff hregister).mp hnamed
          have hclamp := h.toFlipRange.clamp hid v
          have hcur := h.cur id hid
          rcases hid with rfl | rfl
          · rw [setNew_self] at hhflip
            dsimp only at hhflip
            omega
          · rw [setNew_self] at hvflip
            dsimp only at hvflip
            omega
      | written s' husage hbus hsame hshown => exact absurd rfl hret
  | committed s' hv' hset =>
      rw [hset] at hflip
      cases hflip with
      | off hoff => exact absurd hoff husage
      | failed ret husage hbus hne => exact absurd rfl hne
      | written s' husage hbus hsame hshown => exact hbus

/-- A write of another control leaves what the register has. -/
theorem sameFlips_write (hid : ¬IsFlip id) (v : ℤ) : SameFlips True s (write imx132SetCtrl id v s).2 := by
  unfold write
  split
  · exact .refl s
  · exact sameFlips_request hid (fun s => (sameFlips_setCtrl id s).mono fun _ => hid) v

theorem FlipsShown.onBus (h : FlipsShown s) (bus : List ℤ) : FlipsShown (onBus bus s) :=
  h.congr ⟨fun _ _ => rfl, rfl, rfl, fun _ => rfl⟩

theorem write_flip (h : FlipRange s) (hid : IsFlip id) (v : ℤ) :
    write imx132SetCtrl id v s = Controls.request imx132SetCtrl id v s := by
  rw [write, (h.range id hid).2.2, if_neg Bool.false_ne_true]

structure FlipStart (s : Sensor) : Prop extends FlipRange s where
  usage : s.dev.usage = 1

theorem FlipStart.dev (h : FlipStart s) {d : Imx132} (hkept : Kept s.dev d) : FlipStart { s with dev := d } :=
  ⟨⟨h.range, h.cur⟩, hkept.usage.trans h.usage⟩

theorem FlipStart.call (h : FlipStart s) (id : CtrlId) :
    FlipStart (imx132SetCtrl id (s.setNew id (s.ctrl id).cur)).2 := by
  have hsame := sameFlips_setCtrl id (s.setNew id (s.ctrl id).cur)
  exact ⟨(h.toFlipRange.setNew id _).congr hsame, hsame.usage.trans h.usage⟩

theorem FlipStart.setup (h : FlipStart s) (is : List CtrlId) : FlipStart (setup imx132SetCtrl is s).2 :=
  setup_keeps (P := FlipStart) (fun id _ h => FlipStart.call h id) h is

/-- A setter of a flip that succeeds at the start of a stream. -/
theorem FlipStart.flip (h : FlipStart s) (hid : IsFlip id)
    (hset : imx132SetCtrl id (s.setNew id (s.ctrl id).cur) = (0, s')) :
    FlipStart s' ∧ SameFlips False (s.setNew id (s.ctrl id).cur) s' ∧
      orientation s' = orient (s'.ctrl .hflip).val (s'.ctrl .vflip).val := by
  have hstart := h.call id
  have hflip := setCtrl_flipSet hid (s.setNew id (s.ctrl id).cur)
  rw [hset] at hstart hflip
  have husage : (s.setNew id (s.ctrl id).cur).dev.usage ≠ 0 := by
    rw [setNew_dev, h.usage]
    decide
  cases hflip with
  | off hoff => exact absurd hoff husage
  | failed ret husage hbus hne => exact absurd rfl hne
  | written s' husage hbus hsame hshown =>
      refine ⟨hstart, hsame, ?_⟩
      rw [hsame.ctrl .hflip (.inl rfl), hsame.ctrl .vflip (.inr rfl)]
      exact hshown

/-- The setup of a start leaves the flips in their register. -/
theorem FlipStart.shown (h : FlipStart s) (hok : (Controls.setup imx132SetCtrl ctrls s).1 = 0) :
    (∀ id, IsFlip id → ((Controls.setup imx132SetCtrl ctrls s).2.ctrl id).val =
        ((Controls.setup imx132SetCtrl ctrls s).2.ctrl id).cur) ∧
      orientation (Controls.setup imx132SetCtrl ctrls s).2 =
        orient ((Controls.setup imx132SetCtrl ctrls s).2.ctrl .hflip).cur
          ((Controls.setup imx132SetCtrl ctrls s).2.ctrl .vflip).cur := by
  rw [show ctrls = [.linkFreq, .pixelRate, .vblank, .hblank, .exposure, .analogueGain] ++ [.hflip, .vflip] from rfl,
    setup_append] at hok ⊢
  have hfront := h.setup [.linkFreq, .pixelRate, .vblank, .hblank, .exposure, .analogueGain]
  generalize Controls.setup imx132SetCtrl [.linkFreq, .pixelRate, .vblank, .hblank, .exposure, .analogueGain] s = front
    at hfront hok ⊢
  split at hok
  · rename_i hret
    exact absurd hok hret
  rename_i hret
  rw [if_neg hret]
  obtain ⟨s₁, hset₁, heq₁⟩ := setup_cons_ok (hfront.range .hflip (.inl rfl)).2.2 hok
  rw [heq₁] at hok ⊢
  obtain ⟨hstart₁, hsame₁, -⟩ := hfront.flip (.inl rfl) hset₁
  obtain ⟨s₂, hset₂, heq₂⟩ := setup_cons_ok (hstart₁.range .vflip (.inr rfl)).2.2 hok
  rw [heq₂]
  obtain ⟨hstart₂, hsame₂, hshown₂⟩ := hstart₁.flip (.inr rfl) hset₂
  have hvals : ∀ id, IsFlip id → (s₂.ctrl id).val = (s₂.ctrl id).cur := by
    intro id hid
    rw [hsame₂.ctrl id hid]
    rcases hid with rfl | rfl
    · rw [setNew_ne (by decide), hsame₁.ctrl .hflip (.inl rfl), setNew_self]
    · rw [setNew_self]
  refine ⟨hvals, ?_⟩
  rw [Controls.setup, ← hvals .hflip (.inl rfl), ← hvals .vflip (.inr rfl)]
  exact hshown₂

theorem FlipStart.put (h : FlipStart s) : FlipsShown (pmRuntimePut s) := by
  refine .off ⟨h.range, h.cur⟩ ?_
  rw [pmRuntimePut, h.usage]

theorem FlipsShown.finish {r : ℤ × Sensor} (h : FlipsShown r.2) (husage : r.2.dev.usage = 0) (enabled : Bool) :
    FlipsShown (finish enabled r) := by
  unfold Camera.finish
  split
  · exact .off ⟨h.range, h.cur⟩ husage
  · exact h

theorem orientation_modeSelect (val : ℤ) (s : Sensor) :
    orientation { s with dev := (cciWrite IMX132_REG_MODE_SELECT val s.dev).2 } = orientation s := by
  have hwrote := cciWrite_wrote IMX132_REG_MODE_SELECT val s.dev
  generalize cciWrite IMX132_REG_MODE_SELECT val s.dev = w at hwrote
  cases hwrote with
  | failed ret hret hmem => rfl
  | written => rw [orientation_write (s := s) (by decide) val _ rfl, if_neg (by decide)]

theorem FlipsShown.enableStreams (h : FlipsShown s) (henabled : s.dev.enabled = false) (resume : ℤ) :
    FlipsShown (Camera.finish true (imx132EnableStreams resume s)) := by
  have husage : s.dev.usage = 0 := by
    by_contra hne
    exact absurd (h.enabled hne) (by rw [henabled]; decide)
  have hstart : FlipStart { s with dev := { s.dev with usage := s.dev.usage + 1 } } :=
    ⟨⟨h.range, h.cur⟩, by rw [husage]⟩
  have hconfigured := hstart.dev (imx132Configure_kept _)
  have hsetup := hconfigured.setup ctrls
  have hshown := hconfigured.shown
  have hput : ∀ s, FlipStart s → (pmRuntimePut s).dev.usage = 0 := fun s h => by rw [pmRuntimePut, h.usage]
  unfold imx132EnableStreams
  dsimp only at hconfigured hsetup hshown ⊢
  split
  · exact h.finish husage true
  split
  · exact hconfigured.put.finish (hput _ hconfigured) true
  split
  · exact hsetup.put.finish (hput _ hsetup) true
  rename_i hret
  obtain ⟨hvals, hregister⟩ := hshown (Decidable.not_not.mp hret)
  generalize Controls.setup imx132SetCtrl ctrls _ = r at hsetup hvals hregister ⊢
  have hstreaming := hsetup.dev (modeSelect_kept IMX132_MODE_STREAMING r.2.dev)
  split
  · exact hstreaming.put.finish (hput _ hstreaming) true
  · have hstream := (orientation_modeSelect IMX132_MODE_STREAMING r.2).trans hregister
    exact ⟨⟨hsetup.range, hsetup.cur⟩, Nat.le_of_eq hstreaming.usage, fun _ => rfl, fun _ => hvals, fun _ => hstream⟩

theorem FlipsShown.disableStreams (h : FlipsShown s) : FlipsShown (Camera.finish false (imx132DisableStreams s)) := by
  have husage := (modeSelect_kept IMX132_MODE_STANDBY s.dev).usage
  have hle := h.usage
  have hoff : (imx132DisableStreams s).2.dev.usage = 0 := by
    unfold imx132DisableStreams pmRuntimePut
    dsimp only
    omega
  exact FlipsShown.finish (.off ⟨h.range, h.cur⟩ hoff) hoff false

theorem FlipsShown.step (h : FlipsShown s) (a : Action) (ha : FlipWritten s a) : FlipsShown (Camera.step s a) := by
  cases a with
  | setCtrl id value bus =>
      by_cases hid : IsFlip id
      · have hstep : Camera.step s (.setCtrl id value bus) = _ :=
          congrArg Prod.snd (write_flip (h.onBus bus).toFlipRange hid value)
        rw [hstep]
        exact (h.onBus bus).request hid (ha hid)
      · exact (h.onBus bus).congr (sameFlips_write hid value)
  | enableStreams resume bus =>
      unfold Camera.step
      dsimp only
      split
      · exact h
      · rename_i henabled
        exact (h.onBus bus).enableStreams ((Bool.not_eq_true _).mp henabled) resume
  | disableStreams bus =>
      unfold Camera.step
      dsimp only
      split
      · exact (h.onBus bus).disableStreams
      · exact h

theorem FlipsShown.step_iff (h : FlipsShown s) (a : Action) :
    ((Camera.step s a).dev.usage ≠ 0 → Named (Camera.step s a)) ↔ FlipWritten s a := by
  constructor
  · intro hnamed
    cases a with
    | setCtrl id value bus =>
        intro hid husage hv
        unfold Camera.step at hnamed
        dsimp only at hnamed
        rw [write_flip (h.onBus bus).toFlipRange hid, request_usage] at hnamed
        exact (h.onBus bus).written hid husage hv (hnamed husage)
    | enableStreams resume bus => trivial
    | disableStreams bus => trivial
  · intro ha husage
    exact (h.step a ha).named husage

theorem imx132Probe_flipsShown : FlipsShown imx132Probe := by
  refine .off ⟨?_, ?_⟩ rfl <;> rintro id (rfl | rfl) <;> decide

end

/-- In a run the format that the driver names always has the colours that the sensor sends, as long as it is in use,
exactly where no write of a flip fails. -/
theorem named_iff_flipWritten (as : List Action) :
    Always step (fun s a => (step s a).dev.usage ≠ 0 → Named (step s a)) imx132Probe as ↔
      Always step FlipWritten imx132Probe as :=
  always_iff_of_invariant (I := FlipsShown) (fun _ a h ha => h.step a ha) (fun _ a h => h.step_iff a)
    imx132Probe_flipsShown

end Sirius.Camera
