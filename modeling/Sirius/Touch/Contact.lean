import Mathlib.Data.Int.Order.Basic
import Mathlib.Algebra.Group.Int.Defs
import Mathlib.Algebra.Group.Nat.Defs
import Sirius.Touch.Probe

/-!
# A contact on its way to the input core: report_down

The pressure goes through a square root and a clamp, the size of a contact is a signed product in 16 bits. What the
input core is told to expect is set in probe.
-/
namespace Sirius.Touch

@[simp] def MXM_PRESSURE_Z_MIN_TO_SQRT : ℕ := 2
@[simp] def MXM_PRESSURE_SQRT_MAX : ℕ := 181
@[simp] def MXM_LCD_X_MIN : ℕ := 480
@[simp] def MXM_LCD_Y_MIN : ℕ := 240
@[simp] def MXM_LCD_SIZE_MAX : ℕ := 0x7FFF
@[simp] def MXM_NUM_SENSOR_MAX : ℕ := 40
@[simp] def MXM_REVERSE_X : BitVec 32 := 0x0001
@[simp] def MXM_REVERSE_Y : BitVec 32 := 0x0002
@[simp] def MXM_SWAP_XY : BitVec 32 := 0x0004
@[simp] def MXM_TOOL_PEN : BitVec 4 := 0x01
@[simp] def MXM_TOOL_GLOVE : BitVec 4 := 0x03
@[simp] def MT_TOOL_FINGER : ℤ := 0
@[simp] def MT_TOOL_PEN : ℤ := 1

/-- Of `struct max1187x_pdata` what is used here. -/
structure Pdata where
  gpioTirq : BitVec 32
  coordinateSettings : BitVec 32
  panelMarginXl : BitVec 32
  lcdX : BitVec 32
  panelMarginXh : BitVec 32
  panelMarginYl : BitVec 32
  lcdY : BitVec 32
  panelMarginYh : BitVec 32
  numSensorX : BitVec 32
  numSensorY : BitVec 32
  pressureEnabled : BitVec 32
  sizeEnabled : BitVec 32
  orientationEnabled : BitVec 32
  gloveEnabled : BitVec 32
  reportPenAsFinger : BitVec 32
  deriving DecidableEq, Repr

/-- Of `struct max1187x_touch_report_extended` what is used here. -/
structure Contact where
  fingerId : BitVec 4
  toolType : BitVec 4
  x : BitVec 12
  y : BitVec 12
  z : BitVec 16
  xpixel : BitVec 8
  ypixel : BitVec 8
  deriving DecidableEq, Repr

inductive AbsCode
  | mtTrackingId
  | mtToolType
  | mtPositionX
  | mtPositionY
  | mtPressure
  | mtOrientation
  | mtTouchMajor
  | mtTouchMinor
  deriving DecidableEq, Repr

/-- `validate_pdata` -/
def validatePdata (pdata : Option Pdata) : ℤ :=
  match pdata with
  | none => - ENXIO
  | some pdata =>
      if pdata.gpioTirq = 0 then - ENXIO
      else if pdata.lcdX.toNat < MXM_LCD_X_MIN ∨ MXM_LCD_SIZE_MAX < pdata.lcdX.toNat then - ENXIO
      else if pdata.lcdY.toNat < MXM_LCD_Y_MIN ∨ MXM_LCD_SIZE_MAX < pdata.lcdY.toNat then - ENXIO
      else if pdata.numSensorX = 0 ∨ MXM_NUM_SENSOR_MAX < pdata.numSensorX.toNat then - ENXIO
      else if pdata.numSensorY = 0 ∨ MXM_NUM_SENSOR_MAX < pdata.numSensorY.toNat then - ENXIO
      else 0

/-- The loop of `max1187x_sqrt`, with the number of its rounds; the mask is zero after sixteen. -/
def sqrtLoop (num : BitVec 32) : (rounds : ℕ) → (mask guess : BitVec 16) → BitVec 16
  | 0, _, guess => guess
  | rounds + 1, mask, guess =>
      let guess := guess ^^^ mask
      let prod := guess.setWidth 32 * guess.setWidth 32
      sqrtLoop num rounds (mask >>> 1) (if num < prod then guess ^^^ mask else guess)

def max1187xSqrt (num : BitVec 32) : BitVec 16 :=
  if num.toNat < MXM_PRESSURE_Z_MIN_TO_SQRT then num.setWidth 16
  else
    let guess := sqrtLoop num 16 0x8000 0
    if guess ≠ 0xFFFF then
      let prod := guess.setWidth 32 * guess.setWidth 32
      if num - prod > prod + 2 * guess.setWidth 32 + 1 - num then guess + 1 else guess
    else guess

section
variable (pdata : Pdata) (e : Contact)

def xcell : BitVec 32 := pdata.lcdX / pdata.numSensorX
def ycell : BitVec 32 := pdata.lcdY / pdata.numSensorY

/-- `x` and `y`, and `xpixel` and `ypixel`, after the swap. -/
def swappedPoint : BitVec 16 × BitVec 16 :=
  if pdata.coordinateSettings &&& MXM_SWAP_XY ≠ 0 then (e.y.setWidth 16, e.x.setWidth 16)
  else (e.x.setWidth 16, e.y.setWidth 16)

def swappedPixels : BitVec 8 × BitVec 8 :=
  if pdata.coordinateSettings &&& MXM_SWAP_XY ≠ 0 then (e.ypixel, e.xpixel) else (e.xpixel, e.ypixel)

/-- The position on an axis, as it is or reversed. -/
def position (reverse marginLow lcd marginHigh : BitVec 32) (p : BitVec 16) : BitVec 16 :=
  if pdata.coordinateSettings &&& reverse ≠ 0 then (marginLow + lcd + marginHigh - 1 - p.setWidth 32).setWidth 16
  else p

def pixel (reverse : BitVec 32) (p : BitVec 8) : BitVec 8 :=
  if pdata.coordinateSettings &&& reverse ≠ 0 then -p else p

def xpixel : BitVec 8 := pixel pdata MXM_REVERSE_X (swappedPixels pdata e).1
def ypixel : BitVec 8 := pixel pdata MXM_REVERSE_Y (swappedPixels pdata e).2

/-- `xpixel * (s16)xcell` -/
def product (p : BitVec 8) (cell : BitVec 32) : BitVec 16 := BitVec.ofInt 16 (p.toInt * (cell.setWidth 16).toInt)

def magnitude (size : BitVec 16) : BitVec 16 := if size.toInt < 0 then -size else size

def xsize : BitVec 16 := magnitude (product (xpixel pdata e) (xcell pdata))
def ysize : BitVec 16 := magnitude (product (ypixel pdata e) (ycell pdata))

/-- `z` after the clamp. -/
def pressure (z : BitVec 16) : BitVec 16 :=
  let z := BitVec.ofNat 16 (MXM_PRESSURE_SQRT_MAX >>> 2 + (max1187xSqrt (z.setWidth 32)).toNat)
  if z.toNat > MXM_PRESSURE_SQRT_MAX then BitVec.ofNat 16 MXM_PRESSURE_SQRT_MAX else z

/-- What is reported where the contact is not ignored. -/
def absEvents (z : BitVec 16) (toolType : ℤ) : List (AbsCode × ℤ) :=
  let (x, y) := swappedPoint pdata e
  let x := position pdata MXM_REVERSE_X pdata.panelMarginXl pdata.lcdX pdata.panelMarginXh x
  let y := position pdata MXM_REVERSE_Y pdata.panelMarginYl pdata.lcdY pdata.panelMarginYh y
  let xsize := (xsize pdata e).toInt
  let ysize := (ysize pdata e).toInt
  [(.mtTrackingId, (e.fingerId.toNat : ℤ)), (.mtToolType, toolType), (.mtPositionX, (x.toNat : ℤ)),
      (.mtPositionY, (y.toNat : ℤ))] ++
    (if pdata.pressureEnabled ≠ 0 then [(.mtPressure, (z.toNat : ℤ))] else []) ++
    (if pdata.orientationEnabled ≠ 0 then [(.mtOrientation, if xsize > ysize then 0 else 90)] else []) ++
    if pdata.sizeEnabled ≠ 0 then
      [(.mtTouchMajor, if xsize > ysize then xsize else ysize), (.mtTouchMinor, if xsize > ysize then ysize else xsize)]
    else []

/-- `report_down`: what it passes to the input core and `curr_finger_ids`. -/
def reportDown (users : ℕ) (currFingerIds : BitVec 16) : List (AbsCode × ℤ) × BitVec 16 :=
  let z := pressure e.z
  let down := currFingerIds ||| (1 <<< e.fingerId.toNat)
  let report (z : BitVec 16) (toolType : ℤ) : List (AbsCode × ℤ) × BitVec 16 :=
    (if 0 < users then absEvents pdata e z toolType else [], down)
  if e.toolType = MXM_TOOL_PEN then
    report z (if pdata.reportPenAsFinger ≠ 0 then MT_TOOL_FINGER else MT_TOOL_PEN)
  else if e.toolType = MXM_TOOL_GLOVE then
    if pdata.gloveEnabled ≠ 0 then report (z + BitVec.ofNat 16 (MXM_PRESSURE_SQRT_MAX + 1)) MT_TOOL_FINGER
    else ([], currFingerIds)
  else report z MT_TOOL_FINGER

/-- What probe announces for pressure and sizes. -/
def announced : AbsCode → Option (ℤ × ℤ)
  | .mtPressure => if pdata.pressureEnabled ≠ 0 then some (0, MXM_PRESSURE_SQRT_MAX) else none
  | .mtTouchMajor | .mtTouchMinor =>
      if pdata.sizeEnabled ≠ 0 then some (0, (pdata.lcdX + pdata.lcdY).toInt) else none
  | _ => none

end

section
variable (pdata : Pdata) (e : Contact)

/-- After the swap the size in pixels is at most the number of sensors. -/
structure OnSensors : Prop where
  x : (swappedPixels pdata e).1.toInt.natAbs ≤ pdata.numSensorX.toNat
  y : (swappedPixels pdata e).2.toInt.natAbs ≤ pdata.numSensorY.toNat

/-- The narrow products and negations are those of the numbers. -/
structure Exact : Prop where
  xcell : ((xcell pdata).setWidth 16).toInt = (xcell pdata).toNat
  ycell : ((ycell pdata).setWidth 16).toInt = (ycell pdata).toNat
  xnegated : (-(swappedPixels pdata e).1).toInt = -(swappedPixels pdata e).1.toInt
  ynegated : (-(swappedPixels pdata e).2).toInt = -(swappedPixels pdata e).2.toInt
  xproduct : (product (xpixel pdata e) (Touch.xcell pdata)).toInt = (xpixel pdata e).toInt * (Touch.xcell pdata).toNat
  yproduct : (product (ypixel pdata e) (Touch.ycell pdata)).toInt = (ypixel pdata e).toInt * (Touch.ycell pdata).toNat
  xsize : (xsize pdata e).toInt = (product (xpixel pdata e) (Touch.xcell pdata)).toInt.natAbs
  ysize : (ysize pdata e).toInt = (product (ypixel pdata e) (Touch.ycell pdata)).toInt.natAbs

/-- What is passed to the input core is in the announced ranges, and no contact is wider than long. -/
structure InAnnounced (events : List (AbsCode × ℤ)) : Prop where
  range : ∀ code value low high, (code, value) ∈ events → announced pdata code = some (low, high) →
    low ≤ value ∧ value ≤ high
  order : ∀ major minor, (AbsCode.mtTouchMajor, major) ∈ events → (AbsCode.mtTouchMinor, minor) ∈ events →
    minor ≤ major

end

section
variable {pdata : Pdata} {e : Contact}

structure Accepted (pdata : Pdata) : Prop where
  lcdX : pdata.lcdX.toNat ≤ 0x7FFF
  lcdY : pdata.lcdY.toNat ≤ 0x7FFF
  numSensorX : 1 ≤ pdata.numSensorX.toNat ∧ pdata.numSensorX.toNat ≤ 40
  numSensorY : 1 ≤ pdata.numSensorY.toNat ∧ pdata.numSensorY.toNat ≤ 40

theorem one_le_toNat {n : BitVec 32} (hn : n ≠ 0) : 1 ≤ n.toNat :=
  Nat.one_le_iff_ne_zero.mpr fun hzero => hn (BitVec.eq_of_toNat_eq hzero)

theorem of_guard {p : Prop} [Decidable p] {x : ℤ} (h : (if p then - ENXIO else x) = 0) : ¬p ∧ x = 0 := by
  split at h
  · cases h
  · exact ⟨‹_›, h⟩

theorem accepted_of_validatePdata (h : validatePdata (some pdata) = 0) : Accepted pdata := by
  simp only [validatePdata] at h
  obtain ⟨-, h⟩ := of_guard h
  obtain ⟨hx, h⟩ := of_guard h
  obtain ⟨hy, h⟩ := of_guard h
  obtain ⟨hnx, h⟩ := of_guard h
  obtain ⟨hny, -⟩ := of_guard h
  simp only [MXM_LCD_X_MIN, MXM_LCD_Y_MIN, MXM_LCD_SIZE_MAX, MXM_NUM_SENSOR_MAX] at hx hy hnx hny
  obtain ⟨hx₀, hnx⟩ := not_or.mp hnx
  obtain ⟨hy₀, hny⟩ := not_or.mp hny
  exact ⟨by omega, by omega, ⟨one_le_toNat hx₀, by omega⟩, ⟨one_le_toNat hy₀, by omega⟩⟩

/-- A pixel count within the sensors times the size of a cell is within the display. -/
theorem natAbs_mul_cell_le {p : ℤ} {lcd num : BitVec 32} (hp : p.natAbs ≤ num.toNat) :
    (p * ((lcd / num).toNat : ℤ)).natAbs ≤ lcd.toNat := by
  rw [Int.natAbs_mul, Int.natAbs_natCast, BitVec.toNat_udiv]
  exact Nat.le_trans (Nat.mul_le_mul_right _ hp) (Nat.mul_div_le _ _)

theorem toInt_cell {lcd num : BitVec 32} (hlcd : lcd.toNat ≤ 0x7FFF) :
    ((lcd / num).setWidth 16).toInt = (lcd / num).toNat := by
  have hcell : (lcd / num).toNat ≤ 0x7FFF := by
    rw [BitVec.toNat_udiv]
    exact Nat.le_trans (Nat.div_le_self _ _) hlcd
  have hnarrow : ((lcd / num).setWidth 16).toNat = (lcd / num).toNat := by
    rw [BitVec.toNat_setWidth]
    exact Nat.mod_eq_of_lt (by omega)
  rw [BitVec.toInt_eq_toNat_of_lt (by omega), hnarrow]

theorem toInt_ofInt_of_natAbs {z : ℤ} (h : z.natAbs ≤ 0x7FFF) : (BitVec.ofInt 16 z).toInt = z :=
  BitVec.toInt_ofInt_eq_self (by decide) (by omega) (by omega)

theorem toInt_neg_of_natAbs {n : ℕ} {p : BitVec n} (hn : 0 < n) (h : p.toInt.natAbs < 2 ^ (n - 1)) :
    (-p).toInt = -p.toInt := by
  apply BitVec.toInt_neg_of_ne_intMin
  rintro rfl
  rw [BitVec.toInt_intMin_of_pos hn, Int.natAbs_neg, Int.natAbs_pow] at h
  exact Nat.lt_irrefl _ h

/-- Reversed or not, the pixels are as many. -/
theorem natAbs_pixel_le {reverse num : BitVec 32} {p : BitVec 8} (hnum : num.toNat ≤ 40)
    (h : p.toInt.natAbs ≤ num.toNat) : (pixel pdata reverse p).toInt.natAbs ≤ num.toNat := by
  unfold pixel
  split
  · rw [toInt_neg_of_natAbs (by decide) (by omega), Int.natAbs_neg]
    exact h
  · exact h

/-- The size of a contact along an axis, in all steps. -/
theorem product_exact {p : BitVec 8} {lcd num : BitVec 32} (hlcd : lcd.toNat ≤ 0x7FFF)
    (hp : p.toInt.natAbs ≤ num.toNat) :
    (product p (lcd / num)).toInt = p.toInt * (lcd / num).toNat ∧
      (magnitude (product p (lcd / num))).toInt = (product p (lcd / num)).toInt.natAbs ∧
      (product p (lcd / num)).toInt.natAbs ≤ lcd.toNat := by
  have hmul : (p.toInt * ((lcd / num).toNat : ℤ)).natAbs ≤ lcd.toNat := natAbs_mul_cell_le hp
  have hproduct : (product p (lcd / num)).toInt = p.toInt * (lcd / num).toNat := by
    rw [product, toInt_cell hlcd]
    exact toInt_ofInt_of_natAbs (Nat.le_trans hmul hlcd)
  rw [← hproduct] at hmul
  refine ⟨hproduct, ?_, hmul⟩
  unfold magnitude
  split
  · rw [toInt_neg_of_natAbs (by decide) (by omega)]
    omega
  · omega

theorem OnSensors.xpixel (hsensors : OnSensors pdata e) (hpdata : Accepted pdata) :
    (Touch.xpixel pdata e).toInt.natAbs ≤ pdata.numSensorX.toNat :=
  natAbs_pixel_le hpdata.numSensorX.2 hsensors.x

theorem OnSensors.ypixel (hsensors : OnSensors pdata e) (hpdata : Accepted pdata) :
    (Touch.ypixel pdata e).toInt.natAbs ≤ pdata.numSensorY.toNat :=
  natAbs_pixel_le hpdata.numSensorY.2 hsensors.y

theorem exact_of_onSensors (hpdata : Accepted pdata) (hsensors : OnSensors pdata e) : Exact pdata e := by
  have hxproduct := product_exact hpdata.lcdX (hsensors.xpixel hpdata)
  have hyproduct := product_exact hpdata.lcdY (hsensors.ypixel hpdata)
  have hx : (swappedPixels pdata e).1.toInt.natAbs ≤ 40 := Nat.le_trans hsensors.x hpdata.numSensorX.2
  have hy : (swappedPixels pdata e).2.toInt.natAbs ≤ 40 := Nat.le_trans hsensors.y hpdata.numSensorY.2
  exact {
    xcell := toInt_cell hpdata.lcdX
    ycell := toInt_cell hpdata.lcdY
    xnegated := toInt_neg_of_natAbs (by decide) (by omega)
    ynegated := toInt_neg_of_natAbs (by decide) (by omega)
    xproduct := hxproduct.1
    yproduct := hyproduct.1
    xsize := hxproduct.2.1
    ysize := hyproduct.2.1
  }

/-- Both sizes lie within the display. -/
theorem size_le (hpdata : Accepted pdata) (hsensors : OnSensors pdata e) :
    (0 ≤ (xsize pdata e).toInt ∧ (xsize pdata e).toInt ≤ pdata.lcdX.toNat) ∧
      0 ≤ (ysize pdata e).toInt ∧ (ysize pdata e).toInt ≤ pdata.lcdY.toNat := by
  have hexact := exact_of_onSensors hpdata hsensors
  obtain ⟨-, -, hx⟩ := product_exact hpdata.lcdX (hsensors.xpixel hpdata)
  obtain ⟨-, -, hy⟩ := product_exact hpdata.lcdY (hsensors.ypixel hpdata)
  rw [hexact.xsize, hexact.ysize]
  exact ⟨⟨Int.natCast_nonneg _, Int.ofNat_le.mpr hx⟩, Int.natCast_nonneg _, Int.ofNat_le.mpr hy⟩

theorem toInt_lcd_add (hpdata : Accepted pdata) :
    (pdata.lcdX + pdata.lcdY).toInt = pdata.lcdX.toNat + pdata.lcdY.toNat := by
  have hx := hpdata.lcdX
  have hy := hpdata.lcdY
  have hsum : (pdata.lcdX + pdata.lcdY).toNat = pdata.lcdX.toNat + pdata.lcdY.toNat := by
    rw [BitVec.toNat_add]
    exact Nat.mod_eq_of_lt (by omega)
  rw [BitVec.toInt_eq_toNat_of_lt (by omega), hsum]
  rfl

theorem pressure_le (z : BitVec 16) : (pressure z).toNat ≤ MXM_PRESSURE_SQRT_MAX := by
  unfold pressure
  dsimp only
  split
  · decide
  · omega

theorem mem_absEvents_pressure {z : BitVec 16} {toolType value : ℤ} :
    (AbsCode.mtPressure, value) ∈ absEvents pdata e z toolType ↔ pdata.pressureEnabled ≠ 0 ∧ value = z.toNat := by
  simp only [absEvents]
  split_ifs <;> simp_all

theorem mem_absEvents_touchMajor {z : BitVec 16} {toolType value : ℤ} :
    (AbsCode.mtTouchMajor, value) ∈ absEvents pdata e z toolType ↔
      pdata.sizeEnabled ≠ 0 ∧ value = max (xsize pdata e).toInt (ysize pdata e).toInt := by
  simp only [absEvents]
  split_ifs <;> simp_all <;> omega

theorem mem_absEvents_touchMinor {z : BitVec 16} {toolType value : ℤ} :
    (AbsCode.mtTouchMinor, value) ∈ absEvents pdata e z toolType ↔
      pdata.sizeEnabled ≠ 0 ∧ value = min (xsize pdata e).toInt (ysize pdata e).toInt := by
  simp only [absEvents]
  split_ifs <;> simp_all <;> omega

/-- The two ranges that matter, and what is reported in them. -/
theorem inAnnounced_absEvents (hpdata : Accepted pdata) (hsensors : OnSensors pdata e) {z : BitVec 16} {toolType : ℤ}
    (hz : pdata.pressureEnabled ≠ 0 → z.toNat ≤ MXM_PRESSURE_SQRT_MAX) :
    InAnnounced pdata (absEvents pdata e z toolType) := by
  have hsize := size_le hpdata hsensors
  have hsum := toInt_lcd_add hpdata
  constructor
  · intro code value low high hmem hannounced
    cases code <;> simp only [announced, reduceCtorEq] at hannounced
    · obtain ⟨henabled, hvalue⟩ := mem_absEvents_pressure.mp hmem
      rw [if_pos henabled, Option.some.injEq, Prod.mk.injEq] at hannounced
      have hle := hz henabled
      omega
    · obtain ⟨henabled, hvalue⟩ := mem_absEvents_touchMajor.mp hmem
      rw [if_pos henabled, Option.some.injEq, Prod.mk.injEq] at hannounced
      omega
    · obtain ⟨henabled, hvalue⟩ := mem_absEvents_touchMinor.mp hmem
      rw [if_pos henabled, Option.some.injEq, Prod.mk.injEq] at hannounced
      omega
  · intro major minor hmajor hminor
    have hmajor := (mem_absEvents_touchMajor.mp hmajor).2
    have hminor := (mem_absEvents_touchMinor.mp hminor).2
    omega

theorem inAnnounced_nil : InAnnounced pdata [] :=
  ⟨fun _ _ _ _ hmem => absurd hmem List.not_mem_nil, fun _ _ hmem => absurd hmem List.not_mem_nil⟩

/-- The pressure of a glove starts above what is announced. -/
theorem lt_toNat_glove (z : BitVec 16) :
    MXM_PRESSURE_SQRT_MAX < (pressure z + BitVec.ofNat 16 (MXM_PRESSURE_SQRT_MAX + 1)).toNat := by
  have hle := pressure_le z
  simp only [MXM_PRESSURE_SQRT_MAX] at hle ⊢
  rw [BitVec.toNat_add]
  simp only [BitVec.toNat_ofNat]
  omega

/-- A contact off the glove branch passes the clamped pressure, or nothing at all. -/
theorem reportDown_of_not_glove (users : ℕ) (currFingerIds : BitVec 16)
    (h : ¬(e.toolType = MXM_TOOL_GLOVE ∧ pdata.gloveEnabled ≠ 0 ∧ 0 < users)) :
    (reportDown pdata e users currFingerIds).1 = [] ∨
      ∃ toolType, (reportDown pdata e users currFingerIds).1 = absEvents pdata e (pressure e.z) toolType := by
  by_cases husers : 0 < users
  · simp only [reportDown, if_pos husers]
    split
    · exact .inr ⟨_, rfl⟩
    · split
      · rename_i hglove
        rw [if_neg fun henabled => h ⟨hglove, henabled, husers⟩]
        exact .inl rfl
      · exact .inr ⟨_, rfl⟩
  · left
    simp only [reportDown, if_neg husers]
    split
    · rfl
    · split
      · split <;> rfl
      · rfl

theorem reportDown_of_glove {users : ℕ} {currFingerIds : BitVec 16} (htool : e.toolType = MXM_TOOL_GLOVE)
    (henabled : pdata.gloveEnabled ≠ 0) (husers : 0 < users) :
    (reportDown pdata e users currFingerIds).1 =
      absEvents pdata e (pressure e.z + BitVec.ofNat 16 (MXM_PRESSURE_SQRT_MAX + 1)) MT_TOOL_FINGER := by
  have hpen : e.toolType ≠ MXM_TOOL_PEN := by
    rw [htool]
    decide
  simp only [reportDown, if_neg hpen, if_pos htool, if_pos henabled, if_pos husers]

end

/-- Of the ranges announced in probe only the pressure of a reported glove is missed. -/
theorem reportDown_inAnnounced_iff (pdata : Pdata) (e : Contact) (users : ℕ) (currFingerIds : BitVec 16)
    (hpdata : validatePdata (some pdata) = 0) (hsensors : OnSensors pdata e) :
    (InAnnounced pdata (reportDown pdata e users currFingerIds).1 ∧ Exact pdata e) ↔
      ¬(e.toolType = MXM_TOOL_GLOVE ∧ pdata.gloveEnabled ≠ 0 ∧ 0 < users ∧ pdata.pressureEnabled ≠ 0) := by
  have haccepted := accepted_of_validatePdata hpdata
  constructor
  · rintro ⟨hin, -⟩ ⟨htool, henabled, husers, hpressure⟩
    rw [reportDown_of_glove htool henabled husers] at hin
    have hle := (hin.range _ _ 0 MXM_PRESSURE_SQRT_MAX (mem_absEvents_pressure.mpr ⟨hpressure, rfl⟩)
      (if_pos hpressure)).2
    have hlt := lt_toNat_glove e.z
    omega
  · intro hnot
    refine ⟨?_, exact_of_onSensors haccepted hsensors⟩
    by_cases hglove : e.toolType = MXM_TOOL_GLOVE ∧ pdata.gloveEnabled ≠ 0 ∧ 0 < users
    · obtain ⟨htool, henabled, husers⟩ := hglove
      rw [reportDown_of_glove htool henabled husers]
      exact inAnnounced_absEvents haccepted hsensors fun hpressure =>
        absurd ⟨htool, henabled, husers, hpressure⟩ hnot
    · rcases reportDown_of_not_glove users currFingerIds hglove with hnil | ⟨toolType, hevents⟩
      · rw [hnil]
        exact inAnnounced_nil
      · rw [hevents]
        exact inAnnounced_absEvents haccepted hsensors fun _ => pressure_le e.z

/-- The panel of the phone with sizes and gloves enabled. -/
def siriusPdata : Pdata :=
  { gpioTirq := 86, coordinateSettings := MXM_SWAP_XY, panelMarginXl := 0, lcdX := 1080, panelMarginXh := 0,
    panelMarginYl := 0, lcdY := 1920, panelMarginYh := 0, numSensorX := 20, numSensorY := 34,
    pressureEnabled := 1, sizeEnabled := 1, orientationEnabled := 0, gloveEnabled := 1, reportPenAsFinger := 1 }

def contact (toolType : BitVec 4) : Contact :=
  { fingerId := 0, toolType, x := 960, y := 540, z := 100, xpixel := 2, ypixel := 3 }

theorem reportDown_finger :
    InAnnounced siriusPdata (reportDown siriusPdata (contact 0) 1 0).1 ∧ Exact siriusPdata (contact 0) :=
  (reportDown_inAnnounced_iff siriusPdata (contact 0) 1 0 (by decide) ⟨by decide, by decide⟩).mpr
    fun h => absurd h.1 (by decide)

theorem reportDown_glove : validatePdata (some siriusPdata) = 0 ∧ OnSensors siriusPdata (contact MXM_TOOL_GLOVE) ∧
    (AbsCode.mtPressure, (237 : ℤ)) ∈ (reportDown siriusPdata (contact MXM_TOOL_GLOVE) 1 0).1 ∧
    ¬InAnnounced siriusPdata (reportDown siriusPdata (contact MXM_TOOL_GLOVE) 1 0).1 := by
  have hmem : (AbsCode.mtPressure, (237 : ℤ)) ∈ (reportDown siriusPdata (contact MXM_TOOL_GLOVE) 1 0).1 := by
    decide +kernel
  refine ⟨by decide, ⟨by decide, by decide⟩, hmem, fun hin => ?_⟩
  exact absurd (hin.range _ _ 0 181 hmem rfl).2 (by decide)

end Sirius.Touch
