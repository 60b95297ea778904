import Sirius.Lib.Controls

/-!
# The controls and streams of the IMX132

The setter goes to the registers only while the sensor is in use. The range of the exposure follows the vertical
blanking before that is asked. Every control has steps of one.
-/
namespace Sirius.Camera
open Controls

@[simp] def EINVAL : ℤ := 22
def IMX132_REG_MODE_SELECT : ℕ := 0x0100
def IMX132_MODE_STANDBY : ℤ := 0x00
def IMX132_MODE_STREAMING : ℤ := 0x01
def IMX132_REG_IMAGE_ORIENTATION : ℕ := 0x0101
def IMX132_ORIENTATION_HFLIP : ℕ := 1
def IMX132_ORIENTATION_VFLIP : ℕ := 2
def IMX132_REG_SOFTWARE_RESET : ℕ := 0x0103
def IMX132_REG_CSI_DATA_FORMAT : ℕ := 0x0112
def IMX132_CSI_DATA_FORMAT_RAW10 : ℤ := 0x0a0a
def IMX132_REG_EXPOSURE : ℕ := 0x0202
def IMX132_EXPOSURE_MIN : ℤ := 1
def IMX132_EXPOSURE_MARGIN : ℤ := 4
def IMX132_EXPOSURE_DEFAULT : ℤ := 800
def IMX132_REG_ANALOGUE_GAIN : ℕ := 0x0204
def IMX132_ANA_GAIN_MIN : ℤ := 0
def IMX132_ANA_GAIN_MAX : ℤ := 224
def IMX132_ANA_GAIN_DEFAULT : ℤ := 0
def IMX132_REG_VT_PIX_CLK_DIV : ℕ := 0x0300
def IMX132_REG_VT_SYS_CLK_DIV : ℕ := 0x0302
def IMX132_REG_PRE_PLL_CLK_DIV : ℕ := 0x0304
def IMX132_REG_PLL_MULTIPLIER : ℕ := 0x0306
def IMX132_REG_FRAME_LENGTH : ℕ := 0x0340
def IMX132_REG_LINE_LENGTH : ℕ := 0x0342
def IMX132_REG_X_ADDR_START : ℕ := 0x0344
def IMX132_REG_Y_ADDR_START : ℕ := 0x0346
def IMX132_REG_X_ADDR_END : ℕ := 0x0348
def IMX132_REG_Y_ADDR_END : ℕ := 0x034a
def IMX132_REG_X_OUTPUT_SIZE : ℕ := 0x034c
def IMX132_REG_Y_OUTPUT_SIZE : ℕ := 0x034e
def IMX132_REG_X_EVEN_INC : ℕ := 0x0380
def IMX132_VBLANK_MIN : ℤ := 16
def IMX132_FRAME_LENGTH_MAX : ℤ := 0xffff
def IMX132_PRE_PLL_CLK_DIV : ℤ := 2
def IMX132_PLL_MULTIPLIER : ℤ := 80
def IMX132_PIXEL_RATE : ℤ := 76800000
def IMX132_REG_LANE_SEL : ℕ := 0x3301
def IMX132_LANE_SEL_2LANES : ℤ := 0x00

structure Rect where
  left : ℤ
  top : ℤ
  width : ℤ
  height : ℤ

structure Mode where
  width : ℤ
  height : ℤ
  lineLength : ℤ
  frameLength : ℤ
  crop : Rect

def imx132Mode1976x1144 : Mode :=
  { width := 1976, height := 1144, lineLength := 2250, frameLength := 1200,
    crop := { left := 0, top := 28, width := 1976, height := 1144 } }

def imx132VendorInit : List (ℕ × ℤ) :=
  [(0x3087, 0x53), (0x308b, 0x5a), (0x3094, 0x11), (0x309d, 0xa4), (0x30aa, 0x01), (0x30c6, 0x00), (0x30c7, 0x00),
    (0x3118, 0x2f), (0x312a, 0x00), (0x312b, 0x0b), (0x312c, 0x0b), (0x312d, 0x13), (0x30a4, 0x02), (0x303c, 0x3c),
    (0x303d, 0x10), (0x303e, 0x5a), (0x3040, 0x00), (0x3041, 0x00), (0x3048, 0x00), (0x304c, 0x2f), (0x304d, 0x02),
    (0x3064, 0x92), (0x306a, 0x10), (0x309b, 0x00), (0x309e, 0x41), (0x30a0, 0x10), (0x30a1, 0x0b), (0x30b2, 0x00),
    (0x30d5, 0x00), (0x30d6, 0x00), (0x30d7, 0x00), (0x30d8, 0x00), (0x30d9, 0x00), (0x30da, 0x00), (0x30db, 0x00),
    (0x30dc, 0x00), (0x30dd, 0x00), (0x30de, 0x00), (0x3102, 0x0c), (0x3103, 0x33), (0x3104, 0x18), (0x3105, 0x00),
    (0x3106, 0x65), (0x3107, 0x00), (0x3108, 0x06), (0x3109, 0x04), (0x310a, 0x04), (0x315c, 0x3d), (0x315d, 0x3c),
    (0x316e, 0x3e), (0x316f, 0x3d), (0x3304, 0x07), (0x3305, 0x06), (0x3306, 0x19), (0x3307, 0x03), (0x3308, 0x0f),
    (0x3309, 0x07), (0x330a, 0x0c), (0x330b, 0x06), (0x330c, 0x0b), (0x330d, 0x07), (0x330e, 0x03), (0x3318, 0x62),
    (0x3322, 0x09), (0x3342, 0x00), (0x3348, 0xe0)]

inductive CtrlId
  | linkFreq
  | pixelRate
  | vblank
  | hblank
  | exposure
  | analogueGain
  | hflip
  | vflip
  deriving DecidableEq, Repr

/-- The sensor next to its controls. `usage` counts the references that keep it powered, `enabled` is the stream as
the subdev core has it. Bus writes are answered from `bus`, then with success; `writes` has what was written, the last
first. -/
structure Imx132 where
  usage : ℕ
  enabled : Bool
  bus : List ℤ
  writes : List (ℕ × ℤ)
  deriving DecidableEq, Repr

abbrev Sensor := Handler CtrlId Imx132

def cciWrite (reg : ℕ) (val : ℤ) (imx132 : Imx132) : ℤ × Imx132 :=
  let ret := imx132.bus.headD 0
  let imx132 := { imx132 with bus := imx132.bus.tail }
  if ret ≠ 0 then (ret, imx132) else (0, { imx132 with writes := (reg, val) :: imx132.writes })

/-- Writes one after another, up to the first that fails. -/
def cciWriteAll : List (ℕ × ℤ) → Imx132 → ℤ × Imx132
  | [], imx132 => (0, imx132)
  | (reg, val) :: regs, imx132 =>
      let (ret, imx132) := cciWrite reg val imx132
      if ret ≠ 0 then (ret, imx132) else cciWriteAll regs imx132

def exposureMax (vblank : ℤ) : ℤ := imx132Mode1976x1144.height + vblank - IMX132_EXPOSURE_MARGIN

/-- The register and the value of `imx132_set_ctrl`, by the control. -/
def command (s : Sensor) : CtrlId → Option (ℕ × ℤ)
  | .exposure => some (IMX132_REG_EXPOSURE, (s.ctrl .exposure).val)
  | .analogueGain => some (IMX132_REG_ANALOGUE_GAIN, (s.ctrl .analogueGain).val)
  | .vblank => some (IMX132_REG_FRAME_LENGTH, imx132Mode1976x1144.height + (s.ctrl .vblank).val)
  | .hblank => some (IMX132_REG_LINE_LENGTH, imx132Mode1976x1144.width + (s.ctrl .hblank).val)
  | .hflip | .vflip =>
      let orient := (if (s.ctrl .hflip).val ≠ 0 then IMX132_ORIENTATION_HFLIP else 0) |||
        if (s.ctrl .vflip).val ≠ 0 then IMX132_ORIENTATION_VFLIP else 0
      some (IMX132_REG_IMAGE_ORIENTATION, (orient : ℤ))
  | .linkFreq | .pixelRate => none

/-- `imx132_set_ctrl` after the range update. -/
def applyCtrl (id : CtrlId) (s : Sensor) : ℤ × Sensor :=
  if s.dev.usage = 0 then (0, s)
  else
    match command s id with
    | none => (- EINVAL, s)
    | some (reg, val) =>
        let (ret, dev) := cciWrite reg val s.dev
        (ret, { s with dev })

/-- The setter that the range update calls is this one, and gets the exposure. -/
def imx132SetCtrl (id : CtrlId) (s : Sensor) : ℤ × Sensor :=
  if id = .vblank then
    let exposureMax := exposureMax (s.ctrl .vblank).val
    let exposureDef := min exposureMax IMX132_EXPOSURE_DEFAULT
    let (_, s) := modifyRange applyCtrl .exposure (s.ctrl .exposure).minimum exposureMax exposureDef s
    applyCtrl id s
  else applyCtrl id s

theorem imx132SetCtrl_exposure (s : Sensor) : imx132SetCtrl .exposure s = applyCtrl .exposure s := rfl

def newStd (minimum maximum defaultValue : ℤ) : Control :=
  { minimum, maximum, defaultValue, val := defaultValue, cur := defaultValue, readOnly := false }

/-- `imx132_init_controls` -/
def imx132InitControls : CtrlId → Control
  | .linkFreq => { newStd 0 0 0 with readOnly := true }
  | .pixelRate => { newStd IMX132_PIXEL_RATE IMX132_PIXEL_RATE IMX132_PIXEL_RATE with readOnly := true }
  | .vblank =>
      let vblankDef := imx132Mode1976x1144.frameLength - imx132Mode1976x1144.height
      let vblankMax := IMX132_FRAME_LENGTH_MAX - imx132Mode1976x1144.height
      newStd IMX132_VBLANK_MIN vblankMax vblankDef
  | .hblank =>
      let hblank := imx132Mode1976x1144.lineLength - imx132Mode1976x1144.width
      { newStd hblank hblank hblank with readOnly := true }
  | .exposure =>
      let exposureMax := imx132Mode1976x1144.frameLength - IMX132_EXPOSURE_MARGIN
      newStd IMX132_EXPOSURE_MIN exposureMax (min exposureMax IMX132_EXPOSURE_DEFAULT)
  | .analogueGain => newStd IMX132_ANA_GAIN_MIN IMX132_ANA_GAIN_MAX IMX132_ANA_GAIN_DEFAULT
  | .hflip | .vflip => newStd 0 1 0

/-- The controls in the order they are created. -/
def ctrls : List CtrlId := [.linkFreq, .pixelRate, .vblank, .hblank, .exposure, .analogueGain, .hflip, .vflip]

def imx132Probe : Sensor :=
  { ctrl := imx132InitControls, dev := { usage := 0, enabled := false, bus := [], writes := [] } }

/-- What `imx132_configure` writes. -/
def configureWrites : List (ℕ × ℤ) :=
  let mode := imx132Mode1976x1144
  [(IMX132_REG_MODE_SELECT, IMX132_MODE_STANDBY), (IMX132_REG_SOFTWARE_RESET, 1), (IMX132_REG_SOFTWARE_RESET, 0)] ++
    imx132VendorInit ++
    [(IMX132_REG_LANE_SEL, IMX132_LANE_SEL_2LANES),
      (IMX132_REG_CSI_DATA_FORMAT, IMX132_CSI_DATA_FORMAT_RAW10),
      (IMX132_REG_PRE_PLL_CLK_DIV, IMX132_PRE_PLL_CLK_DIV), (IMX132_REG_PLL_MULTIPLIER, IMX132_PLL_MULTIPLIER),
      (IMX132_REG_VT_PIX_CLK_DIV, 10), (IMX132_REG_VT_SYS_CLK_DIV, 1),
      (IMX132_REG_X_ADDR_START, mode.crop.left), (IMX132_REG_Y_ADDR_START, mode.crop.top),
      (IMX132_REG_X_ADDR_END, mode.crop.left + mode.crop.width - 1),
      (IMX132_REG_Y_ADDR_END, mode.crop.top + mode.crop.height - 1),
      (IMX132_REG_X_OUTPUT_SIZE, mode.width), (IMX132_REG_Y_OUTPUT_SIZE, mode.height),
      (IMX132_REG_X_EVEN_INC, 1), (IMX132_REG_LINE_LENGTH, mode.lineLength)]

def imx132Configure (imx132 : Imx132) : ℤ × Imx132 := cciWriteAll configureWrites imx132

def pmRuntimePut (s : Sensor) : Sensor := { s with dev := { s.dev with usage := s.dev.usage - 1 } }

/-- `resume` is what `pm_runtime_resume_and_get` returns. -/
def imx132EnableStreams (resume : ℤ) (s : Sensor) : ℤ × Sensor :=
  if resume < 0 then (resume, s)
  else
    let s : Sensor := { s with dev := { s.dev with usage := s.dev.usage + 1 } }
    let (ret, dev) := imx132Configure s.dev
    let s : Sensor := { s with dev }
    if ret ≠ 0 then (ret, pmRuntimePut s)
    else
      let (ret, s) := setup imx132SetCtrl ctrls s
      if ret ≠ 0 then (ret, pmRuntimePut s)
      else
        let (ret, dev) := cciWrite IMX132_REG_MODE_SELECT IMX132_MODE_STREAMING s.dev
        let s : Sensor := { s with dev }
        if ret ≠ 0 then (ret, pmRuntimePut s) else (0, s)

def imx132DisableStreams (s : Sensor) : ℤ × Sensor :=
  let (ret, dev) := cciWrite IMX132_REG_MODE_SELECT IMX132_MODE_STANDBY s.dev
  (ret, pmRuntimePut { s with dev })

/-- What comes from outside, each with the answers of the bus. -/
inductive Action
  | setCtrl (id : CtrlId) (value : ℤ) (bus : List ℤ)
  | enableStreams (resume : ℤ) (bus : List ℤ)
  | disableStreams (bus : List ℤ)
  deriving DecidableEq, Repr

def onBus (bus : List ℤ) (s : Sensor) : Sensor := { s with dev := { s.dev with bus } }

/-- The stream is enabled or disabled for the subdev core where the driver did not fail. -/
def finish (enabled : Bool) (r : ℤ × Sensor) : Sensor :=
  if r.1 = 0 then { r.2 with dev := { r.2.dev with enabled } } else r.2

/-- The subdev core starts no stream twice and stops none that is not enabled. -/
def step (s : Sensor) : Action → Sensor
  | .setCtrl id value bus => (write imx132SetCtrl id value (onBus bus s)).2
  | .enableStreams resume bus => if s.dev.enabled then s else finish true (imx132EnableStreams resume (onBus bus s))
  | .disableStreams bus => if s.dev.enabled then finish false (imx132DisableStreams (onBus bus s)) else s

/-- The value last written to a register. -/
def lastWritten (reg : ℕ) (s : Sensor) : Option ℤ := s.dev.writes.lookup reg

end Sirius.Camera
