import Mathlib.Data.List.FinRange
import Sirius.Lib.Ledger
import Sirius.Touch.Packets

/-!
# Probe and remove

What `probe` acquires, with every point at which it can fail, and what it and `shutdown` release. A ledger
says what is held; it is good as long as the interrupt handler is not registered without `struct data`.
-/
namespace Sirius.Touch
open Ledgers

@[simp] def EPERM : ℤ := 1
@[simp] def ENXIO : ℤ := 6
@[simp] def ENOMEM : ℤ := 12
@[simp] def EPROBE_DEFER : ℤ := 517

/-- `ARRAY_SIZE(dev_attrs)` -/
def DEV_ATTRS : ℕ := 13

/-- What can be acquired. An input device is allocated, and then registered; a regulator is got, and then
enabled. -/
inductive Resource
  | data
  | regulator
  | vdd
  | tirq
  | reset
  | input
  | registered
  | irq
  | file (i : Fin DEV_ATTRS)
  | report
  | link
  deriving DecidableEq

/-- The calls of `probe` that can fail. -/
inductive Call
  | i2cCheckFunctionality
  | kzalloc
  | validatePdata
  | regulatorGet
  | regulatorSetVoltage
  | regulatorEnable
  | regulatorSetLoad
  | gpioRequestTirq
  | gpioDirectionInput
  | gpioRequestReset
  | gpioDirectionOutput
  | inputAllocateDevice
  | inputRegisterDevice
  | requestThreadedIrq
  | deviceCreateFile (i : Fin DEV_ATTRS)
  | deviceCreateBinFile
  | sysfsCreateLink
  deriving DecidableEq

/-- What `probe` meets: the number of the error that a call fails with, zero if it succeeds; whether the
regulator is on after `regulator_enable` has failed; the reset GPIO and the interrupt of the device. -/
structure ProbeEnv where
  errno : Call → ℕ
  isEnabled : Bool
  gpioReset : BitVec 32
  irq : ℕ

/-- What the call returns. -/
def ProbeEnv.ret (env : ProbeEnv) (call : Call) : ℤ := - (env.errno call : ℤ)

/-- `struct data`, and what has been acquired and released. -/
structure Device where
  log : List (Event Resource)
  sysfsCreated : BitVec 8
  vregTouchVdd : Bool

namespace Device

def acquire (s : Device) (r : Resource) : Device := { s with log := s.log ++ [.acquire r] }
def release (s : Device) (r : Resource) : Device := { s with log := s.log ++ [.release r] }

/-- `regulator_handler`. A regulator that is on counts as enabled; no caller looks at the result of a disable. -/
def regulatorHandler (env : ProbeEnv) (s : Device) (sw : Bool) : Device × ℤ :=
  if sw then
    if env.errno .regulatorEnable = 0 then (s.acquire .vdd, 0)
    else (s, if env.isEnabled then 0 else env.ret .regulatorEnable)
  else (s.release .vdd, 0)

/-- `vreg_suspend(ts, false)` -/
def vregSuspend (env : ProbeEnv) : ℤ := env.ret .regulatorSetLoad

def vregConfigure (env : ProbeEnv) (s : Device) (enable : Bool) : Device × ℤ :=
  if enable then
    if env.errno .regulatorGet ≠ 0 then ({ s with vregTouchVdd := false }, - EPROBE_DEFER)
    else
      let s := { s.acquire .regulator with vregTouchVdd := true }
      if env.errno .regulatorSetVoltage ≠ 0 then (s.release .regulator, env.ret .regulatorSetVoltage)
      else
        let (s, rc) := regulatorHandler env s true
        if rc ≠ 0 then (s.release .regulator, rc)
        else
          let rc := vregSuspend env
          if rc ≠ 0 then ((regulatorHandler env s false).1.release .regulator, rc) else (s, 0)
  else if s.vregTouchVdd then ((regulatorHandler env s false).1.release .regulator, 0)
  else (s, 0)

def max1187xChipInit (env : ProbeEnv) (s : Device) (enable : Bool) : Device × ℤ :=
  if enable then
    if env.errno .gpioRequestTirq ≠ 0 then (s, - EIO)
    else
      let s := s.acquire .tirq
      if env.errno .gpioDirectionInput ≠ 0 then (s.release .tirq, - EIO) else (s, 0)
  else (s.release .tirq, 0)

/-- `max1187x_gpio_init`; without `enable` the line is driven and nothing else. -/
def max1187xGpioInit (env : ProbeEnv) (s : Device) (enable : Bool) : Device :=
  if env.gpioReset = 0 then s
  else if enable then
    if env.errno .gpioRequestReset ≠ 0 then s
    else
      let s := s.acquire .reset
      if env.errno .gpioDirectionOutput ≠ 0 then s.release .reset else s
  else s

/-- The loop that undoes `create_sysfs_entries`, from the file that failed downwards. -/
def undoSysfsEntries (s : Device) (files : List (Fin DEV_ATTRS)) : Device :=
  files.foldl (fun s i => { s.release (.file i) with sysfsCreated := s.sysfsCreated - 1 }) s

/-- `create_sysfs_entries` from a file on, the last one `created` first. -/
def createFrom (env : ProbeEnv) (created : List (Fin DEV_ATTRS)) (s : Device) : List (Fin DEV_ATTRS) → Device × ℤ
  | [] => (s, 0)
  | i :: files =>
      if env.errno (.deviceCreateFile i) ≠ 0 then (s.undoSysfsEntries (i :: created), env.ret (.deviceCreateFile i))
      else createFrom env (i :: created) { s.acquire (.file i) with sysfsCreated := s.sysfsCreated + 1 } files

def createSysfsEntries (env : ProbeEnv) (s : Device) : Device × ℤ :=
  createFrom env [] s (List.finRange DEV_ATTRS)

/-- One turn of the loop of `remove_sysfs_entries`. -/
def removeFile (s : Device) (i : Fin DEV_ATTRS) : Device :=
  if s.sysfsCreated ≠ 0 then { s with sysfsCreated := s.sysfsCreated - 1 }.release (.file i) else s

def removeSysfsEntries (s : Device) : Device := (List.finRange DEV_ATTRS).foldl removeFile s

/-! The labels of `probe`, each with what is behind it. -/

def errDeviceInitPdata (s : Device) : Device := s.release .data

def errDeviceInitGpio (env : ProbeEnv) (s : Device) : Device := (vregConfigure env s false).1.errDeviceInitPdata

def errDeviceInitInputdev (env : ProbeEnv) (s : Device) : Device :=
  (max1187xGpioInit env (max1187xChipInit env s false).1 false).errDeviceInitGpio env

/-- `input_unregister_device` also frees the device. -/
def errDeviceInitIrq (env : ProbeEnv) (s : Device) : Device :=
  ((s.release .registered).release .input).errDeviceInitInputdev env

def errDeviceInitSysfsRemoveGroup (env : ProbeEnv) (s : Device) : Device :=
  s.removeSysfsEntries.errDeviceInitIrq env

/-- `probe` from `create_sysfs_entries` on. `ret` is not set where the file of the reports fails. -/
def probeSysfs (env : ProbeEnv) (s : Device) : Device × ℤ :=
  let (s, ret) := s.createSysfsEntries env
  if ret ≠ 0 then (s.errDeviceInitIrq env, ret)
  else if env.errno .deviceCreateBinFile ≠ 0 then (s.errDeviceInitSysfsRemoveGroup env, ret)
  else
    let s := { s.acquire .report with sysfsCreated := s.sysfsCreated + 1 }
    (if env.errno .sysfsCreateLink ≠ 0 then s else s.acquire .link, 0)

/-- `probe` from `input_allocate_device` on. -/
def probeInput (env : ProbeEnv) (s : Device) : Device × ℤ :=
  if env.errno .inputAllocateDevice ≠ 0 then (s.errDeviceInitInputdev env, - ENOMEM)
  else
    let s := s.acquire .input
    if env.errno .inputRegisterDevice ≠ 0 then ((s.release .input).errDeviceInitInputdev env, - EPERM)
    else
      let s := s.acquire .registered
      if env.errno .requestThreadedIrq ≠ 0 then (s.errDeviceInitIrq env, - EIO)
      else (s.acquire .irq).probeSysfs env

/-- `probe` from `max1187x_chip_init` on. -/
def probeGpio (env : ProbeEnv) (s : Device) : Device × ℤ :=
  let (s, ret) := max1187xChipInit env s true
  if ret < 0 then (s.errDeviceInitGpio env, - EIO) else (max1187xGpioInit env s true).probeInput env

def probe (env : ProbeEnv) : Device × ℤ :=
  let s : Device := ⟨[], 0, false⟩
  if env.errno .i2cCheckFunctionality ≠ 0 then (s, - ENXIO)
  else if env.errno .kzalloc ≠ 0 then (s, - ENOMEM)
  else
    let s := s.acquire .data
    if env.errno .validatePdata ≠ 0 then (s.errDeviceInitPdata, - ENXIO)
    else
      let (s, ret) := vregConfigure env s true
      if ret < 0 then (s.errDeviceInitPdata, ret) else s.probeGpio env

/-- `shutdown` as far as the file of the reports. -/
def removeFiles (s : Device) : Device :=
  let s := s.removeSysfsEntries
  if s.sysfsCreated ≠ 0 then { s with sysfsCreated := s.sysfsCreated - 1 }.release .report else s

def shutdown (env : ProbeEnv) (s : Device) : Device :=
  let s := s.removeFiles
  let s := if env.irq ≠ 0 then s.release .irq else s
  let s := s.release .link
  let s := (s.release .registered).release .input
  let s := (max1187xChipInit env s false).1
  let s := max1187xGpioInit env s false
  (vregConfigure env s false).1.release .data

/-- A device that is removed if `probe` has returned zero. -/
def removed (env : ProbeEnv) (s : Device × ℤ) : Device := if s.2 = 0 then s.1.shutdown env else s.1

end Device

/-- The interrupt handler is not registered with freed data. -/
def HandlerSafe (held : Finset Resource) : Prop := .irq ∈ held → .data ∈ held

instance : DecidablePred HandlerSafe := fun _ => inferInstanceAs (Decidable (_ → _))

namespace Device

def Held (s : Device) (held : Finset Resource) : Prop := replay HandlerSafe s.log = some held

instance (s : Device) (held : Finset Resource) : Decidable (s.Held held) := inferInstanceAs (Decidable (_ = _))

end Device

namespace ProbeEnv

/-- All that a probe acquires is released once by it or by the remove behind it, nothing else is, and no handler
is left with freed data. -/
def Balanced (env : ProbeEnv) : Prop := (Device.removed env (Device.probe env)).Held ∅

instance (env : ProbeEnv) : Decidable env.Balanced := inferInstanceAs (Decidable (Device.Held _ _))

variable (env : ProbeEnv)

def Ok (call : Call) : Prop := env.errno call = 0

instance (call : Call) : Decidable (env.Ok call) := inferInstanceAs (Decidable (_ = _))

/-- `probe` comes to `regulator_enable`. -/
def GetsRegulator : Prop :=
  env.Ok .i2cCheckFunctionality ∧ env.Ok .kzalloc ∧ env.Ok .validatePdata ∧ env.Ok .regulatorGet ∧
    env.Ok .regulatorSetVoltage

/-- `probe` comes to `max1187x_gpio_init`. -/
def GetsTirq : Prop :=
  env.GetsRegulator ∧ (env.Ok .regulatorEnable ∨ env.isEnabled = true) ∧ env.Ok .regulatorSetLoad ∧
    env.Ok .gpioRequestTirq ∧ env.Ok .gpioDirectionInput

/-- `probe` has the interrupt and comes to the files. -/
def GetsIrq : Prop :=
  env.GetsTirq ∧ env.Ok .inputAllocateDevice ∧ env.Ok .inputRegisterDevice ∧ env.Ok .requestThreadedIrq

/-- No regulator that is on counts as enabled, the reset GPIO is not kept, and behind the interrupt nothing fails;
the interrupt is not number zero. -/
structure Unwinds : Prop where
  vdd : env.GetsRegulator → ¬env.Ok .regulatorEnable → env.isEnabled = false
  reset : env.GetsTirq → env.gpioReset ≠ 0 → env.Ok .gpioRequestReset → ¬env.Ok .gpioDirectionOutput
  files : env.GetsIrq → ∀ i, env.Ok (.deviceCreateFile i)
  report : env.GetsIrq → env.Ok .deviceCreateBinFile
  link : env.GetsIrq → env.Ok .sysfsCreateLink
  irq : env.GetsIrq → env.irq ≠ 0

end ProbeEnv
end Sirius.Touch
