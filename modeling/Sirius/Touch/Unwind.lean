import Mathlib.Data.Finset.Dedup
import Mathlib.Data.Finset.SDiff
import Mathlib.Data.Finset.Lattice.Basic
import Sirius.Touch.Probe

/-!
# What is left behind

Where the condition holds, what is held is known at each label of `probe`. Where it does not, either a resource
is never released or the ledger refuses a release, whatever comes behind it.
-/
namespace Sirius.Touch
open Ledgers

namespace HandlerSafe
variable {held : Finset Resource} {r : Resource}

theorem insert (h : HandlerSafe held) (hr : r ≠ .irq) : HandlerSafe (insert r held) := by
  intro hirq
  exact Finset.mem_insert_of_mem (h (Finset.mem_of_mem_insert_of_ne hirq hr.symm))

theorem erase (h : HandlerSafe held) (hr : r ≠ .data) : HandlerSafe (held.erase r) := by
  intro hirq
  exact Finset.mem_erase.2 ⟨hr.symm, h (Finset.mem_of_mem_erase hirq)⟩

end HandlerSafe

namespace Device
variable {s s' s'' : Device} {held : Finset Resource} {r : Resource} {env : ProbeEnv}

/-- The ledger has been refused. -/
def Refused (s : Device) : Prop := replay HandlerSafe s.log = none

theorem Refused.not_held (h : s.Refused) : ¬s.Held held := by
  intro hheld
  rw [Held, h] at hheld
  cases hheld

theorem Held.acquire (h : s.Held held) (hr : r ∉ held) (hsafe : HandlerSafe (insert r held)) :
    (s.acquire r).Held (insert r held) := replay_acquire h hr hsafe

theorem Held.release (h : s.Held held) (hr : r ∈ held) (hsafe : HandlerSafe (held.erase r)) :
    (s.release r).Held (held.erase r) := replay_release h hr hsafe

theorem refused_release (h : ∀ held, s.Held held → r ∉ held) : (s.release r).Refused := replay_release_none h

/-- The function has only acquired and released what is in `A`. -/
structure Extends (A : Resource → Prop) (s s' : Device) : Prop where
  log : ∃ new, s'.log = s.log ++ new ∧ ∀ e ∈ new, A e.resource
  vreg : s'.vregTouchVdd = s.vregTouchVdd

section
variable {A : Resource → Prop}

theorem Extends.refl : Extends A s s := ⟨⟨[], (List.append_nil _).symm, fun _ he => by cases he⟩, rfl⟩

theorem Extends.trans (h : Extends A s s') (h' : Extends A s' s'') : Extends A s s'' := by
  obtain ⟨⟨new, hlog, hnew⟩, hvreg⟩ := h
  obtain ⟨⟨new', hlog', hnew'⟩, hvreg'⟩ := h'
  refine ⟨⟨new ++ new', by rw [hlog', hlog, List.append_assoc], fun e he => ?_⟩, hvreg'.trans hvreg⟩
  rcases List.mem_append.1 he with he | he
  · exact hnew e he
  · exact hnew' e he

theorem Extends.mono {B : Resource → Prop} (h : Extends A s s') (hAB : ∀ r, A r → B r) : Extends B s s' := by
  obtain ⟨⟨new, hlog, hnew⟩, hvreg⟩ := h
  exact ⟨⟨new, hlog, fun e he => hAB _ (hnew e he)⟩, hvreg⟩

theorem extends_acquire (hr : A r) : Extends A s (s.acquire r) :=
  ⟨⟨[.acquire r], rfl, fun e he => by rwa [List.mem_singleton.1 he]⟩, rfl⟩

theorem extends_release (hr : A r) : Extends A s (s.release r) :=
  ⟨⟨[.release r], rfl, fun e he => by rwa [List.mem_singleton.1 he]⟩, rfl⟩

theorem Refused.extends (h : s.Refused) (hext : Extends A s s') : s'.Refused := by
  obtain ⟨⟨new, hlog, -⟩, -⟩ := hext
  rw [Refused, hlog]
  exact replay_append_none h new

/-- A resource that the function does not touch is held as before. -/
theorem Extends.mem (hext : Extends A s s') (hr : ¬A r) (h : s'.Held held) :
    ∃ held', s.Held held' ∧ (r ∈ held ↔ r ∈ held') := by
  obtain ⟨⟨new, hlog, hnew⟩, -⟩ := hext
  rw [Held, hlog] at h
  exact mem_replay_append (fun e he heq => hr (heq ▸ hnew e he)) h

theorem extends_chipInit (hA : A .tirq) (enable : Bool) : Extends A s (max1187xChipInit env s enable).1 := by
  cases enable with
  | false => exact extends_release hA
  | true =>
      rw [max1187xChipInit, if_pos rfl]
      split
      · exact Extends.refl
      split
      · exact (extends_acquire hA).trans (extends_release hA)
      · exact extends_acquire hA

theorem gpioInit_false : max1187xGpioInit env s false = s := by simp [max1187xGpioInit]

theorem extends_gpioInit (env : ProbeEnv) (hA : A .reset) : Extends A s (max1187xGpioInit env s true) := by
  rw [max1187xGpioInit]
  split
  · exact Extends.refl
  rw [if_pos rfl]
  split
  · exact Extends.refl
  split
  · exact (extends_acquire hA).trans (extends_release hA)
  · exact extends_acquire hA

theorem vregConfigure_false (h : s.vregTouchVdd = true) :
    (vregConfigure env s false).1 = (s.release .vdd).release .regulator := by simp [vregConfigure, h, regulatorHandler]

theorem extends_vregConfigure (hvdd : A .vdd) (hregulator : A .regulator) :
    Extends A s (vregConfigure env s false).1 := by
  cases h : s.vregTouchVdd with
  | true =>
      rw [vregConfigure_false h]
      exact (extends_release hvdd).trans (extends_release hregulator)
  | false =>
      simp only [vregConfigure, h, Bool.false_eq_true, if_false]
      exact Extends.refl

theorem Extends.count (h : Extends A s s') (count : BitVec 8) : Extends A s { s' with sysfsCreated := count } :=
  ⟨h.log, h.vreg⟩

theorem extends_foldl {f : Device → Fin DEV_ATTRS → Device} (hf : ∀ s i, Extends A s (f s i))
    (files : List (Fin DEV_ATTRS)) (s : Device) : Extends A s (files.foldl f s) := by
  induction files generalizing s with
  | nil => exact Extends.refl
  | cons i files ih => exact (hf s i).trans (ih (f s i))

section
variable (hfile : ∀ i, A (.file i))
include hfile

theorem extends_undoSysfsEntries (files : List (Fin DEV_ATTRS)) : Extends A s (s.undoSysfsEntries files) :=
  extends_foldl (fun s i => (extends_release (s := s) (hfile i)).count _) files s

theorem extends_createFrom (created files : List (Fin DEV_ATTRS)) : Extends A s (createFrom env created s files).1 := by
  induction files generalizing s created with
  | nil => exact Extends.refl
  | cons i files ih =>
      rw [createFrom]
      split
      · exact extends_undoSysfsEntries hfile _
      · exact ((extends_acquire (hfile i)).count _).trans (ih _)

theorem extends_removeSysfsEntries : Extends A s s.removeSysfsEntries := by
  refine extends_foldl (fun s i => ?_) _ s
  rw [removeFile]
  split
  · have hext := extends_release (s := s) (hfile i)
    exact ⟨hext.log, hext.vreg⟩
  · exact Extends.refl

end

section
variable (hA : ∀ r, r ≠ .reset → A r)
include hA

theorem extends_errDeviceInitGpio : Extends A s (s.errDeviceInitGpio env) :=
  (extends_vregConfigure (hA _ (by decide)) (hA _ (by decide))).trans (extends_release (hA _ (by decide)))

theorem extends_errDeviceInitInputdev : Extends A s (s.errDeviceInitInputdev env) := by
  rw [errDeviceInitInputdev, gpioInit_false]
  exact (extends_chipInit (hA _ (by decide)) false).trans (extends_errDeviceInitGpio hA)

theorem extends_errDeviceInitIrq : Extends A s (s.errDeviceInitIrq env) :=
  ((extends_release (hA _ (by decide))).trans (extends_release (hA _ (by decide)))).trans
    (extends_errDeviceInitInputdev hA)

end

end

/-- `probe` from `input_allocate_device` on, and the remove. -/
def finish (env : ProbeEnv) (s : Device) : Device := removed env (s.probeInput env)

/-- Neither the reset GPIO nor the enabled regulator. -/
def Others (r : Resource) : Prop := r ≠ .reset ∧ r ≠ .vdd

theorem extends_removeFiles {A : Resource → Prop} (hfile : ∀ i, A (.file i)) (hreport : A .report) :
    Extends A s s.removeFiles := by
  refine (extends_removeSysfsEntries hfile).trans ?_
  rw [removeFiles]
  generalize s.removeSysfsEntries = s
  split
  · have hext := extends_release (s := s) hreport
    exact ⟨hext.log, hext.vreg⟩
  · exact Extends.refl

theorem extends_freeIrq {A : Resource → Prop} (env : ProbeEnv) (hirq : A .irq) :
    Extends A s (if env.irq ≠ 0 then s.release .irq else s) := by
  split
  · exact extends_release hirq
  · exact Extends.refl

/-- `shutdown` up to `input_unregister_device` -/
def unpublish (env : ProbeEnv) (s : Device) : Device :=
  (if env.irq ≠ 0 then s.removeFiles.release .irq else s.removeFiles).release .link

theorem shutdown_eq (env : ProbeEnv) (s : Device) : s.shutdown env = (s.unpublish env).errDeviceInitIrq env := rfl

theorem extends_unpublish : Extends Others s (s.unpublish env) :=
  (extends_removeFiles (fun i => by simp [Others]) (by simp [Others])).trans
    ((extends_freeIrq env (by simp [Others])).trans (extends_release (by simp [Others])))

/-- From this label on the regulator is released. -/
theorem inputdev_eq (env : ProbeEnv) (h : Extends Others s s') : ∃ s'', Extends Others s s'' ∧
    s'.errDeviceInitInputdev env = s''.errDeviceInitGpio env := by
  refine ⟨(max1187xChipInit env s' false).1, h.trans (extends_chipInit (by simp [Others]) false), ?_⟩
  rw [errDeviceInitInputdev, gpioInit_false]

theorem irq_eq (env : ProbeEnv) (h : Extends Others s s') : ∃ s'', Extends Others s s'' ∧
    s'.errDeviceInitIrq env = s''.errDeviceInitGpio env :=
  inputdev_eq env (h.trans ((extends_release (by simp [Others])).trans (extends_release (by simp [Others]))))

theorem extends_shutdown : Extends (· ≠ .reset) s (s.shutdown env) := by
  rw [shutdown_eq]
  exact (extends_unpublish.mono fun r hr => hr.1).trans (extends_errDeviceInitIrq fun _ hr => hr)

theorem removed_fail {ret : ℤ} (h : ret ≠ 0) : removed env (s, ret) = s := if_neg h

theorem removed_zero : removed env (s, 0) = s.shutdown env := if_pos rfl

/-- The release of the regulator comes behind the one and before the other. -/
def Passes (env : ProbeEnv) (s s' : Device) : Prop :=
  ∃ mid, Extends Others s mid ∧ Extends (· ≠ .reset) (mid.errDeviceInitGpio env) s'

theorem passes_inputdev (h : Extends Others s s') : Passes env s (s'.errDeviceInitInputdev env) := by
  obtain ⟨mid, hmid, heq⟩ := inputdev_eq env h
  exact ⟨mid, hmid, heq ▸ Extends.refl⟩

theorem passes_irq (h : Extends Others s s') : Passes env s (s'.errDeviceInitIrq env) := by
  obtain ⟨mid, hmid, heq⟩ := irq_eq env h
  exact ⟨mid, hmid, heq ▸ Extends.refl⟩

theorem Passes.extends (h : Passes env s s') (hext : Extends (· ≠ .reset) s' s'') : Passes env s s'' := by
  obtain ⟨mid, hmid, hend⟩ := h
  exact ⟨mid, hmid, hend.trans hext⟩

theorem passes_shutdown (h : Extends Others s s') : Passes env s (s'.shutdown env) :=
  passes_irq (h.trans extends_unpublish)

theorem passes_sysfs (h : Extends Others s s') : Passes env s (removed env (s'.probeSysfs env)) := by
  have hcreate : Extends Others s (s'.createSysfsEntries env).1 :=
    h.trans (extends_createFrom (fun i => by simp [Others]) _ _)
  rw [probeSysfs]
  generalize s'.createSysfsEntries env = created at hcreate ⊢
  dsimp only
  split
  next hret =>
    rw [removed_fail hret]
    exact passes_irq hcreate
  next hret =>
    rw [not_not.1 hret]
    split
    · rw [removed_zero, errDeviceInitSysfsRemoveGroup]
      exact (passes_irq (hcreate.trans (extends_removeSysfsEntries fun i => by simp [Others]))).extends extends_shutdown
    · rw [removed_zero]
      have hreport : Extends Others s { created.1.acquire .report with sysfsCreated := created.1.sysfsCreated + 1 } :=
        hcreate.trans ((extends_acquire (by simp [Others])).count _)
      refine passes_shutdown ?_
      split
      · exact hreport
      · exact hreport.trans (extends_acquire (by simp [Others]))

/-- What `probe` does behind `max1187x_gpio_init` passes the release of the regulator, and nothing touches the
reset GPIO. -/
theorem passes_finish (env : ProbeEnv) (s : Device) : Passes env s (s.finish env) := by
  have hinput : Extends Others s (s.acquire .input) := extends_acquire (by simp [Others])
  have hregistered := hinput.trans (extends_acquire (A := Others) (r := .registered) (by simp [Others]))
  rw [finish, probeInput]
  split
  · rw [removed_fail (by decide)]
    exact passes_inputdev Extends.refl
  split
  · rw [removed_fail (by decide)]
    exact passes_inputdev (hinput.trans (extends_release (by simp [Others])))
  split
  · rw [removed_fail (by decide)]
    exact passes_irq hregistered
  · exact passes_sysfs (hregistered.trans (extends_acquire (by simp [Others])))

/-- A regulator that is released without having been enabled. -/
theorem Passes.refused (h : Passes env s s') (hvreg : s.vregTouchVdd = true)
    (hvdd : ∀ held, s.Held held → .vdd ∉ held) : s'.Refused := by
  obtain ⟨mid, hmid, hend⟩ := h
  refine Refused.extends ?_ hend
  refine Refused.extends (A := fun _ => True) ?_ (extends_release trivial)
  rw [vregConfigure_false (hmid.vreg.trans hvreg)]
  refine Refused.extends (A := fun _ => True) (refused_release fun held hheld hmem => ?_) (extends_release trivial)
  obtain ⟨held', hheld', hiff⟩ := hmid.mem (r := .vdd) (fun hothers => hothers.2 rfl) hheld
  exact hvdd held' hheld' (hiff.1 hmem)

theorem Passes.keeps_reset (h : Passes env s s') (hreset : ∀ held, s.Held held → .reset ∈ held) : ¬s'.Held ∅ := by
  obtain ⟨mid, hmid, hend⟩ := h
  intro hempty
  have hext : Extends (· ≠ .reset) s s' := by
    refine (hmid.mono fun r hr => hr.1).trans (Extends.trans ?_ hend)
    exact extends_errDeviceInitGpio fun _ hr => hr
  obtain ⟨held, hheld, hiff⟩ := hext.mem (r := .reset) (fun hne => hne rfl) hempty
  exact Finset.notMem_empty _ (hiff.2 (hreset held hheld))

theorem Held.eq {held' : Finset Resource} (h : s.Held held) (heq : held = held') : s.Held held' := heq ▸ h

/-- What is held at the label `err_device_init_gpio`, without the interrupt or with it. -/
def powered (irq : Bool) : Finset Resource := if irq then {.irq, .data, .regulator, .vdd} else {.data, .regulator, .vdd}

/-- What is held at the label `err_device_init_irq`. -/
def opened (irq : Bool) : Finset Resource := insert .registered (insert .input (insert .tirq (powered irq)))

/-- What is held before the data is freed. -/
def last (irq : Bool) : Finset Resource := if irq then {.irq, .data} else {.data}

section
variable {irq : Bool}

theorem Held.powered (env : ProbeEnv) (h : s.Held (powered irq)) (hvreg : s.vregTouchVdd = true) :
    ∃ s' : Device, s'.Held (last irq) ∧ s.errDeviceInitGpio env = s'.release .data := by
  have hvdd : (s.release .vdd).Held (insert .regulator (last irq)) :=
    (h.release (by cases irq <;> decide) (by cases irq <;> decide)).eq (by cases irq <;> decide)
  have hregulator : ((s.release .vdd).release .regulator).Held (last irq) :=
    (hvdd.release (by cases irq <;> decide) (by cases irq <;> decide)).eq (by cases irq <;> decide)
  refine ⟨_, hregulator, ?_⟩
  rw [errDeviceInitGpio, errDeviceInitPdata, vregConfigure_false hvreg]

theorem Held.tirq (env : ProbeEnv) (h : s.Held (insert .tirq (Device.powered irq))) (hvreg : s.vregTouchVdd = true) :
    ∃ s' : Device, s'.Held (last irq) ∧ s.errDeviceInitInputdev env = s'.release .data := by
  have htirq : (s.release .tirq).Held (Device.powered irq) :=
    (h.release (by cases irq <;> decide) (by cases irq <;> decide)).eq (by cases irq <;> decide)
  rw [errDeviceInitInputdev, gpioInit_false]
  exact htirq.powered env hvreg

theorem Held.opened (env : ProbeEnv) (h : s.Held (opened irq)) (hvreg : s.vregTouchVdd = true) :
    ∃ s' : Device, s'.Held (last irq) ∧ s.errDeviceInitIrq env = s'.release .data := by
  have hregistered : (s.release .registered).Held (insert .input (insert .tirq (Device.powered irq))) :=
    (h.release (by cases irq <;> decide) (by cases irq <;> decide)).eq (by cases irq <;> decide)
  have hinput : ((s.release .registered).release .input).Held (insert .tirq (Device.powered irq)) :=
    (hregistered.release (by cases irq <;> decide) (by cases irq <;> decide)).eq (by cases irq <;> decide)
  exact hinput.tirq env hvreg

end

theorem Held.freed (h : s.Held (last false)) : (s.release .data).Held ∅ :=
  (h.release (r := .data) (by decide) (by decide)).eq (by decide)

/-- With the interrupt, the data must not be freed. -/
theorem Held.refused (h : s.Held (last true)) : (s.release .data).Refused := replay_release_bad h (by decide)

theorem Held.errDeviceInitGpio (env : ProbeEnv) (h : s.Held (Device.powered false)) (hvreg : s.vregTouchVdd = true) :
    (s.errDeviceInitGpio env).Held ∅ := by
  obtain ⟨s', hlast, heq⟩ := h.powered env hvreg
  rw [heq]
  exact hlast.freed

theorem Held.errDeviceInitInputdev (env : ProbeEnv) (h : s.Held (insert .tirq (Device.powered false)))
    (hvreg : s.vregTouchVdd = true) : (s.errDeviceInitInputdev env).Held ∅ := by
  obtain ⟨s', hlast, heq⟩ := h.tirq env hvreg
  rw [heq]
  exact hlast.freed

theorem Held.errDeviceInitIrq (env : ProbeEnv) (h : s.Held (Device.opened false)) (hvreg : s.vregTouchVdd = true) :
    (s.errDeviceInitIrq env).Held ∅ := by
  obtain ⟨s', hlast, heq⟩ := h.opened env hvreg
  rw [heq]
  exact hlast.freed

theorem Held.errDeviceInitIrq_refused (env : ProbeEnv) (h : s.Held (Device.opened true))
    (hvreg : s.vregTouchVdd = true) : (s.errDeviceInitIrq env).Refused := by
  obtain ⟨s', hlast, heq⟩ := h.opened env hvreg
  rw [heq]
  exact hlast.refused

def fileSet (files : List (Fin DEV_ATTRS)) : Finset Resource := (files.map .file).toFinset

theorem fileSet_cons (i : Fin DEV_ATTRS) (files : List (Fin DEV_ATTRS)) :
    fileSet (i :: files) = insert (.file i) (fileSet files) := by simp [fileSet]

theorem createFrom_ok {files : List (Fin DEV_ATTRS)} (created : List (Fin DEV_ATTRS))
    (hok : ∀ i ∈ files, env.Ok (.deviceCreateFile i))
    (hnodup : files.Nodup) (h : s.Held held) (hsafe : HandlerSafe held) (hnot : ∀ i ∈ files, .file i ∉ held) :
    ∃ s', createFrom env created s files = (s', 0) ∧ s'.Held (held ∪ fileSet files) ∧
      s'.sysfsCreated = s.sysfsCreated + BitVec.ofNat 8 files.length ∧ s'.vregTouchVdd = s.vregTouchVdd := by
  induction files generalizing s held created with
  | nil => exact ⟨s, rfl, h.eq (by simp [fileSet]), by simp, rfl⟩
  | cons i files ih =>
      obtain ⟨hi, hnodup⟩ := List.nodup_cons.1 hnodup
      have hfile := hsafe.insert (r := .file i) (by simp)
      have hstep : ({ s.acquire (.file i) with sysfsCreated := s.sysfsCreated + 1 } : Device).Held
          (insert (.file i) held) := h.acquire (hnot i List.mem_cons_self) hfile
      obtain ⟨s', heq, hheld, hcount, hvreg⟩ := ih (i :: created)
        (fun j hj => hok j (List.mem_cons_of_mem _ hj)) hnodup hstep hfile fun j hj => by
          have hne : j ≠ i := ne_of_mem_of_not_mem hj hi
          simp [hne, hnot j (List.mem_cons_of_mem _ hj)]
      refine ⟨s', ?_, hheld.eq ?_, ?_, hvreg⟩
      · rw [createFrom]
        exact (if_neg (not_not.2 (hok i List.mem_cons_self))).trans heq
      · rw [fileSet_cons]
        ext r
        simp only [Finset.mem_union, Finset.mem_insert]
        tauto
      · rw [hcount, List.length_cons, Nat.add_comm, BitVec.ofNat_add, ← BitVec.add_assoc]
        rfl

/-- A file that cannot be created is removed all the same. -/
theorem createFrom_refused {files : List (Fin DEV_ATTRS)} (created : List (Fin DEV_ATTRS))
    (hfail : ∃ i ∈ files, ¬env.Ok (.deviceCreateFile i))
    (hnodup : files.Nodup) (h : s.Held held) (hsafe : HandlerSafe held) (hnot : ∀ i ∈ files, .file i ∉ held) :
    (createFrom env created s files).1.Refused ∧ (createFrom env created s files).2 ≠ 0 := by
  induction files generalizing s held created with
  | nil => simp at hfail
  | cons i files ih =>
      obtain ⟨hi, hnodup⟩ := List.nodup_cons.1 hnodup
      rw [createFrom]
      split
      next herrno =>
        refine ⟨?_, by simpa [ProbeEnv.ret] using herrno⟩
        have hrelease : (s.release (.file i)).Refused := refused_release fun held' hheld' hmem => by
          cases Option.some.inj (h.symm.trans hheld')
          exact hnot i List.mem_cons_self hmem
        have hstep : ({ s.release (.file i) with sysfsCreated := s.sysfsCreated - 1 } : Device).Refused := hrelease
        exact hstep.extends (extends_undoSysfsEntries (A := fun _ => True) (fun _ => trivial) created)
      next hok =>
        have hfile := hsafe.insert (r := .file i) (by simp)
        have hstep : ({ s.acquire (.file i) with sysfsCreated := s.sysfsCreated + 1 } : Device).Held
            (insert (.file i) held) := h.acquire (hnot i List.mem_cons_self) hfile
        refine ih (i :: created) ?_ hnodup hstep hfile fun j hj => ?_
        · obtain ⟨j, hj, hfail⟩ := hfail
          rcases List.mem_cons.1 hj with rfl | hj
          · exact absurd (not_not.1 hok) hfail
          · exact ⟨j, hj, hfail⟩
        · have hne : j ≠ i := ne_of_mem_of_not_mem hj hi
          simp [hne, hnot j (List.mem_cons_of_mem _ hj)]

/-- As many files are removed as have been counted. -/
theorem held_removeFile {files : List (Fin DEV_ATTRS)} (hnodup : files.Nodup) (h : s.Held held)
    (hsafe : HandlerSafe held) (hmem : ∀ i ∈ files, .file i ∈ held) (hcount : files.length ≤ s.sysfsCreated.toNat) :
    (files.foldl removeFile s).Held (held \ fileSet files) ∧
      (files.foldl removeFile s).sysfsCreated = s.sysfsCreated - BitVec.ofNat 8 files.length := by
  induction files generalizing s held with
  | nil => exact ⟨h.eq (by simp [fileSet]), by simp⟩
  | cons i files ih =>
      obtain ⟨hi, hnodup⟩ := List.nodup_cons.1 hnodup
      rw [List.length_cons] at hcount
      have hne : s.sysfsCreated ≠ 0 := by
        rintro hzero
        rw [hzero] at hcount
        exact absurd hcount (Nat.not_succ_le_zero _)
      have hfile := hsafe.erase (r := .file i) (by simp)
      have hremove : removeFile s i = { s with sysfsCreated := s.sysfsCreated - 1 }.release (.file i) := if_pos hne
      have hstep : (removeFile s i).Held (held.erase (.file i)) := by
        rw [hremove]
        exact h.release (hmem i List.mem_cons_self) hfile
      have hcreated : (removeFile s i).sysfsCreated = s.sysfsCreated - 1 := by rw [hremove, Device.release]
      have hrest : ∀ j ∈ files, .file j ∈ held.erase (.file i) := fun j hj => by
        have hne' : j ≠ i := ne_of_mem_of_not_mem hj hi
        simp [hne', hmem j (List.mem_cons_of_mem _ hj)]
      have hlength : files.length ≤ (removeFile s i).sysfsCreated.toNat := by
        rw [hcreated]
        bv_omega
      obtain ⟨hheld, hleft⟩ := ih hnodup hstep hfile hrest hlength
      refine ⟨hheld.eq ?_, ?_⟩
      · rw [fileSet_cons]
        ext r
        simp only [Finset.mem_sdiff, Finset.mem_erase, Finset.mem_insert]
        tauto
      · rw [List.foldl_cons, hleft, hcreated, List.length_cons, BitVec.ofNat_add]
        generalize BitVec.ofNat 8 files.length = n
        bv_omega

theorem held_gpioInit (h : s.Held held) (hr : .reset ∉ held) (hsafe : HandlerSafe held)
    (hkept : env.gpioReset ≠ 0 → env.Ok .gpioRequestReset → ¬env.Ok .gpioDirectionOutput) :
    (max1187xGpioInit env s true).Held held := by
  rw [max1187xGpioInit]
  split
  · exact h
  next hreset =>
    rw [if_pos rfl]
    split
    · exact h
    next hrequest =>
      have hinsert := hsafe.insert (r := .reset) (by decide)
      have herase := hinsert.erase (r := .reset) (by decide)
      refine Eq.subst (motive := fun s : Device => s.Held held) (if_pos (hkept hreset (not_not.1 hrequest))).symm ?_
      refine ((h.acquire hr hinsert).release (Finset.mem_insert_self _ _) herase).eq ?_
      ext r
      by_cases heq : r = .reset <;> simp [heq, hr]

theorem gpioInit_kept (hreset : env.gpioReset ≠ 0) (hrequest : env.Ok .gpioRequestReset)
    (hdirection : env.Ok .gpioDirectionOutput) : max1187xGpioInit env s true = s.acquire .reset := by
  rw [max1187xGpioInit, if_neg hreset, if_pos rfl]
  exact (if_neg (not_not.2 hrequest)).trans (if_neg (not_not.2 hdirection))

theorem gpioInit_sysfsCreated : (max1187xGpioInit env s true).sysfsCreated = s.sysfsCreated := by
  rw [max1187xGpioInit]
  split
  · rfl
  rw [if_pos rfl]
  split
  · rfl
  split <;> rfl

/-- All files, and the interrupt with what is behind it. -/
theorem held_createSysfsEntries (hok : ∀ i, env.Ok (.deviceCreateFile i)) (h : s.Held (opened true))
    (hcount : s.sysfsCreated = 0) : ∃ s', s.createSysfsEntries env = (s', 0) ∧
      s'.Held (opened true ∪ fileSet (List.finRange DEV_ATTRS)) ∧ s'.sysfsCreated = 13 ∧
        s'.vregTouchVdd = s.vregTouchVdd := by
  obtain ⟨s', heq, hheld, hcreated, hvreg⟩ := createFrom_ok [] (fun i _ => hok i)
    (List.nodup_finRange DEV_ATTRS) h (by decide) (by decide)
  refine ⟨s', heq, hheld, ?_, hvreg⟩
  rw [hcreated, hcount]
  decide

/-- What is held with the files, and what without them; the link if it has been made. -/
def linked (link : Bool) : Finset Resource := if link then insert .link (opened true) else opened true

def published (link : Bool) : Finset Resource := insert .report (linked link) ∪ fileSet (List.finRange DEV_ATTRS)

theorem mem_published (link : Bool) (i : Fin DEV_ATTRS) : .file i ∈ published link := by
  simp [published, fileSet]

theorem published_sdiff (link : Bool) :
    published link \ fileSet (List.finRange DEV_ATTRS) = insert .report (linked link) := by
  cases link <;> decide +kernel

theorem held_removeSysfsEntries (h : s.Held held) (hsafe : HandlerSafe held) (hmem : ∀ i, .file i ∈ held)
    (hcount : DEV_ATTRS ≤ s.sysfsCreated.toNat) :
    s.removeSysfsEntries.Held (held \ fileSet (List.finRange DEV_ATTRS)) ∧
      s.removeSysfsEntries.sysfsCreated = s.sysfsCreated - 13 := by
  have hlength : (List.finRange DEV_ATTRS).length = 13 := List.length_finRange
  obtain ⟨hheld, hcreated⟩ := held_removeFile (List.nodup_finRange DEV_ATTRS) h hsafe (fun i _ => hmem i)
    (hlength ▸ hcount)
  rw [hlength] at hcreated
  exact ⟨hheld, hcreated⟩

theorem held_removeFiles {link : Bool} (h : s.Held (published link)) (hcount : s.sysfsCreated = 14) :
    s.removeFiles.Held (linked link) := by
  have hsafe : HandlerSafe (published link) := fun _ => by cases link <;> decide +kernel
  obtain ⟨hheld, hcreated⟩ := held_removeSysfsEntries h hsafe (mem_published link) (by rw [hcount]; decide)
  rw [published_sdiff] at hheld
  rw [removeFiles]
  generalize s.removeSysfsEntries = s' at hheld hcreated ⊢
  have hone : s'.sysfsCreated ≠ 0 := by
    rw [hcreated, hcount]
    decide
  have hreport : ({ s' with sysfsCreated := s'.sysfsCreated - 1 } : Device).Held (insert .report (linked link)) := hheld
  rw [if_pos hone]
  exact (hreport.release (by cases link <;> decide) (by cases link <;> decide)).eq (by cases link <;> decide)

/-- `free_irq`, which is left out for the interrupt number zero. -/
theorem held_unpublish (env : ProbeEnv) (h : s.Held (published true)) (hcount : s.sysfsCreated = 14) :
    (s.unpublish env).Held (opened (decide (env.irq = 0))) := by
  have hfiles := held_removeFiles h hcount
  rw [unpublish]
  by_cases hirq : env.irq = 0
  · rw [if_neg (not_not.2 hirq), decide_eq_true hirq]
    exact (hfiles.release (by decide) (by decide)).eq (by decide)
  · rw [if_pos hirq, decide_eq_false hirq]
    have hfree : (s.removeFiles.release .irq).Held (insert .link (opened false)) :=
      (hfiles.release (by decide) (by decide)).eq (by decide)
    exact (hfree.release (by decide) (by decide)).eq (by decide)

theorem vreg_unpublish (hvreg : s.vregTouchVdd = true) : (s.unpublish env).vregTouchVdd = true :=
  extends_unpublish.vreg.trans hvreg

theorem shutdown_held (h : s.Held (published true)) (hcount : s.sysfsCreated = 14) (hvreg : s.vregTouchVdd = true)
    (hirq : env.irq ≠ 0) : (s.shutdown env).Held ∅ := by
  have hopened := held_unpublish env h hcount
  rw [decide_eq_false hirq] at hopened
  rw [shutdown_eq]
  exact hopened.errDeviceInitIrq env (vreg_unpublish hvreg)

/-- An interrupt that is not freed outlives the data. -/
theorem shutdown_refused_irq (h : s.Held (published true)) (hcount : s.sysfsCreated = 14)
    (hvreg : s.vregTouchVdd = true) (hirq : env.irq = 0) : (s.shutdown env).Refused := by
  have hopened := held_unpublish env h hcount
  rw [decide_eq_true hirq] at hopened
  rw [shutdown_eq]
  exact hopened.errDeviceInitIrq_refused env (vreg_unpublish hvreg)

/-- A link that has not been made is removed. -/
theorem shutdown_refused_link (h : s.Held (published false)) (hcount : s.sysfsCreated = 14) :
    (s.shutdown env).Refused := by
  have hfiles := held_removeFiles h hcount
  refine Refused.extends (A := fun _ => True) ?_ (extends_errDeviceInitIrq fun _ _ => trivial)
  refine refused_release fun held hheld hmem => ?_
  obtain ⟨held', hheld', hiff⟩ := (extends_freeIrq (A := (· = .irq)) env rfl).mem (r := .link) (by simp) hheld
  cases Option.some.inj (hfiles.symm.trans hheld')
  exact absurd (hiff.1 hmem) (by decide)

/-- A file fails: it is removed without having been created. -/
theorem probeSysfs_refused_file (h : s.Held (opened true)) (hfail : ¬∀ i, env.Ok (.deviceCreateFile i)) :
    (removed env (s.probeSysfs env)).Refused := by
  have hexists : ∃ i ∈ List.finRange DEV_ATTRS, ¬env.Ok (.deviceCreateFile i) := by
    obtain ⟨i, hi⟩ := not_forall.1 hfail
    exact ⟨i, List.mem_finRange i, hi⟩
  obtain ⟨hrefused, hret⟩ := createFrom_refused [] hexists (List.nodup_finRange _) h (by decide)
    (by decide)
  have hret : (s.createSysfsEntries env).2 ≠ 0 := hret
  have hprobe : s.probeSysfs env = ((s.createSysfsEntries env).1.errDeviceInitIrq env, (s.createSysfsEntries env).2) :=
    if_pos hret
  rw [hprobe, removed_fail hret]
  exact hrefused.extends (A := fun _ => True) (extends_errDeviceInitIrq fun _ _ => trivial)

section
variable (hok : ∀ i, env.Ok (.deviceCreateFile i)) (h : s.Held (opened true)) (hcount : s.sysfsCreated = 0)
  (hvreg : s.vregTouchVdd = true)
include hok h hcount hvreg

/-- The file of the reports fails: the interrupt is not freed, and the data is. -/
theorem probeSysfs_refused_report (hfail : ¬env.Ok .deviceCreateBinFile) :
    (removed env (s.probeSysfs env)).Refused := by
  obtain ⟨s', heq, hheld, hcreated, hvreg'⟩ := held_createSysfsEntries hok h hcount
  have hprobe : s.probeSysfs env = (s'.errDeviceInitSysfsRemoveGroup env, 0) := by
    rw [probeSysfs, heq]
    exact (if_neg (not_not.2 rfl)).trans (if_pos hfail)
  have hsafe : HandlerSafe (opened true ∪ fileSet (List.finRange DEV_ATTRS)) := fun _ => by decide +kernel
  obtain ⟨hremoved, -⟩ := held_removeSysfsEntries hheld hsafe (fun i => by simp [fileSet]) (by rw [hcreated]; decide)
  have hopened : s'.removeSysfsEntries.Held (opened true) := hremoved.eq (by decide +kernel)
  have hvreg'' : s'.removeSysfsEntries.vregTouchVdd = true :=
    (extends_removeSysfsEntries (A := fun _ => True) fun _ => trivial).vreg.trans (hvreg'.trans hvreg)
  rw [hprobe, removed_zero, errDeviceInitSysfsRemoveGroup]
  exact (hopened.errDeviceInitIrq_refused env hvreg'').extends extends_shutdown

/-- Probe returns zero with the files, and with the link if it could be made. -/
theorem probeSysfs_done (hbin : env.Ok .deviceCreateBinFile) : ∃ s',
    s.probeSysfs env = (s', 0) ∧ s'.Held (published (decide (env.Ok .sysfsCreateLink))) ∧
      s'.sysfsCreated = 14 ∧ s'.vregTouchVdd = true := by
  obtain ⟨s', heq, hheld, hcreated, hvreg'⟩ := held_createSysfsEntries hok h hcount
  have hreport : ({ s'.acquire .report with sysfsCreated := s'.sysfsCreated + 1 } : Device).Held (published false) :=
    (Held.acquire hheld (by decide +kernel) (fun _ => by decide +kernel)).eq (by decide +kernel)
  have hprobe : s.probeSysfs env = (if env.errno .sysfsCreateLink ≠ 0 then
      { s'.acquire .report with sysfsCreated := s'.sysfsCreated + 1 }
      else ({ s'.acquire .report with sysfsCreated := s'.sysfsCreated + 1 } : Device).acquire .link, 0) := by
    rw [probeSysfs, heq]
    exact (if_neg (not_not.2 rfl)).trans (if_neg (not_not.2 hbin))
  have hfourteen : s'.sysfsCreated + 1 = 14 := by
    rw [hcreated]
    decide
  by_cases hlink : env.Ok .sysfsCreateLink
  · refine ⟨_, hprobe.trans (congrArg (·, 0) (if_neg (not_not.2 hlink))), ?_, hfourteen, hvreg'.trans hvreg⟩
    rw [decide_eq_true hlink]
    exact (hreport.acquire (by decide +kernel) (fun _ => by decide +kernel)).eq (by decide +kernel)
  · refine ⟨_, hprobe.trans (congrArg (·, 0) (if_pos hlink)), ?_, hfourteen, hvreg'.trans hvreg⟩
    rw [decide_eq_false hlink]
    exact hreport

end

/-- From `create_sysfs_entries` on all is well if nothing fails and the interrupt is not number zero. -/
theorem probeSysfs_held_iff (h : s.Held (opened true)) (hcount : s.sysfsCreated = 0) (hvreg : s.vregTouchVdd = true) :
    (removed env (s.probeSysfs env)).Held ∅ ↔ (∀ i, env.Ok (.deviceCreateFile i)) ∧ env.Ok .deviceCreateBinFile ∧
      env.Ok .sysfsCreateLink ∧ env.irq ≠ 0 := by
  by_cases hok : ∀ i, env.Ok (.deviceCreateFile i)
  · by_cases hbin : env.Ok .deviceCreateBinFile
    · obtain ⟨s', heq, hheld, hcreated, hvreg'⟩ := probeSysfs_done hok h hcount hvreg hbin
      rw [heq, removed_zero, and_iff_right hok, and_iff_right hbin]
      by_cases hlink : env.Ok .sysfsCreateLink
      · rw [decide_eq_true hlink] at hheld
        rw [and_iff_right hlink]
        refine ⟨fun hempty hirq => ?_, fun hirq => shutdown_held hheld hcreated hvreg' hirq⟩
        exact (shutdown_refused_irq hheld hcreated hvreg' hirq).not_held hempty
      · rw [decide_eq_false hlink] at hheld
        exact iff_of_false (shutdown_refused_link hheld hcreated).not_held fun hand => hlink hand.1
    · exact iff_of_false (probeSysfs_refused_report hok h hcount hvreg hbin).not_held fun hand => hbin hand.2.1
  · exact iff_of_false (probeSysfs_refused_file h hok).not_held fun hand => hok hand.1

/-- From `input_allocate_device` on, with the regulator enabled and without the reset GPIO. -/
theorem finish_held_iff (h : s.Held (insert .tirq (Device.powered false))) (hcount : s.sysfsCreated = 0)
    (hvreg : s.vregTouchVdd = true) : (s.finish env).Held ∅ ↔
      (env.Ok .inputAllocateDevice ∧ env.Ok .inputRegisterDevice ∧ env.Ok .requestThreadedIrq →
        (∀ i, env.Ok (.deviceCreateFile i)) ∧ env.Ok .deviceCreateBinFile ∧ env.Ok .sysfsCreateLink ∧ env.irq ≠ 0) := by
  have hinput : (s.acquire .input).Held (insert .input (insert .tirq (Device.powered false))) :=
    h.acquire (by decide) (by decide)
  have hregistered : ((s.acquire .input).acquire .registered).Held (opened false) :=
    hinput.acquire (by decide) (by decide)
  have hirq : (((s.acquire .input).acquire .registered).acquire .irq).Held (opened true) :=
    (hregistered.acquire (by decide) (by decide)).eq (by decide)
  rw [finish, probeInput]
  split
  next hallocate =>
    rw [removed_fail (by decide)]
    exact iff_of_true (h.errDeviceInitInputdev env hvreg) fun hand => absurd hand.1 hallocate
  dsimp only
  split
  next hregister =>
    rw [removed_fail (by decide)]
    have hfree : ((s.acquire .input).release .input).Held (insert .tirq (Device.powered false)) :=
      (hinput.release (by decide) (by decide)).eq (by decide)
    exact iff_of_true (hfree.errDeviceInitInputdev env hvreg) fun hand => absurd hand.2.1 hregister
  split
  next hrequest =>
    rw [removed_fail (by decide)]
    exact iff_of_true (hregistered.errDeviceInitIrq env hvreg) fun hand => absurd hand.2.2 hrequest
  next hallocate hregister hrequest =>
    have hall : env.Ok .inputAllocateDevice ∧ env.Ok .inputRegisterDevice ∧ env.Ok .requestThreadedIrq :=
      ⟨not_not.1 hallocate, not_not.1 hregister, not_not.1 hrequest⟩
    rw [probeSysfs_held_iff hirq hcount hvreg]
    exact ⟨fun hrest _ => hrest, fun himp => himp hall⟩

/-- `struct data` behind `regulator_get`, and behind `regulator_enable` if that has succeeded. -/
def got (enabled : Bool) : Device :=
  ⟨[.acquire .data, .acquire .regulator] ++ (if enabled then [.acquire .vdd] else []), 0, true⟩

theorem held_got : (got true).Held (Device.powered false) := by decide

section
variable (hget : env.GetsRegulator) (henable : env.Ok .regulatorEnable ∨ env.isEnabled = true)
include hget henable

/-- A regulator that counts as enabled. -/
theorem vregConfigure_got : vregConfigure env ⟨[.acquire .data], 0, false⟩ true =
    if env.Ok .regulatorSetLoad then (got (decide (env.Ok .regulatorEnable)), 0)
    else (((got (decide (env.Ok .regulatorEnable))).release .vdd).release .regulator, env.ret .regulatorSetLoad) := by
  obtain ⟨-, -, -, hget, hvoltage⟩ := hget
  simp only [ProbeEnv.Ok] at *
  by_cases hok : env.errno .regulatorEnable = 0
  · by_cases hload : env.errno .regulatorSetLoad = 0 <;>
      simp [vregConfigure, regulatorHandler, vregSuspend, ProbeEnv.ret, got, acquire, release, hget, hvoltage, hok,
        hload]
  · have hon := henable.resolve_left hok
    by_cases hload : env.errno .regulatorSetLoad = 0 <;>
      simp [vregConfigure, regulatorHandler, vregSuspend, ProbeEnv.ret, got, acquire, release, hget, hvoltage, hok, hon,
        hload]

theorem removed_probe_got : removed env (probe env) =
    if env.Ok .regulatorSetLoad then
      if env.Ok .gpioRequestTirq then
        if env.Ok .gpioDirectionInput then
          (max1187xGpioInit env ((got (decide (env.Ok .regulatorEnable))).acquire .tirq) true).finish env
        else (((got (decide (env.Ok .regulatorEnable))).acquire .tirq).release .tirq).errDeviceInitGpio env
      else (got (decide (env.Ok .regulatorEnable))).errDeviceInitGpio env
    else (got (decide (env.Ok .regulatorEnable))).errDeviceInitGpio env := by
  have hvreg := vregConfigure_got hget henable
  obtain ⟨hi2c, halloc, hpdata, -, -⟩ := hget
  have hprobe : probe env = (if (vregConfigure env ⟨[.acquire .data], 0, false⟩ true).2 < 0 then
      ((vregConfigure env ⟨[.acquire .data], 0, false⟩ true).1.errDeviceInitPdata,
        (vregConfigure env ⟨[.acquire .data], 0, false⟩ true).2)
      else probeGpio env (vregConfigure env ⟨[.acquire .data], 0, false⟩ true).1) :=
    (if_neg (not_not.2 hi2c)).trans ((if_neg (not_not.2 halloc)).trans (if_neg (not_not.2 hpdata)))
  rw [hprobe, hvreg]
  by_cases hload : env.Ok .regulatorSetLoad
  · rw [if_pos hload, if_pos hload, if_neg (lt_irrefl _), probeGpio]
    by_cases hrequest : env.Ok .gpioRequestTirq
    · rw [if_pos hrequest]
      by_cases hdirection : env.Ok .gpioDirectionInput
      · have hchip : max1187xChipInit env (got (decide (env.Ok .regulatorEnable))) true =
            ((got (decide (env.Ok .regulatorEnable))).acquire .tirq, 0) :=
          (if_pos rfl).trans ((if_neg (not_not.2 hrequest)).trans (if_neg (not_not.2 hdirection)))
        rw [if_pos hdirection, hchip]
        rfl
      · have hchip : max1187xChipInit env (got (decide (env.Ok .regulatorEnable))) true =
            (((got (decide (env.Ok .regulatorEnable))).acquire .tirq).release .tirq, - EIO) :=
          (if_pos rfl).trans ((if_neg (not_not.2 hrequest)).trans (if_pos hdirection))
        rw [if_neg hdirection, hchip]
        rfl
    · have hchip : max1187xChipInit env (got (decide (env.Ok .regulatorEnable))) true =
          (got (decide (env.Ok .regulatorEnable)), - EIO) := (if_pos rfl).trans (if_pos hrequest)
      rw [if_neg hrequest, hchip]
      rfl
  · have hret : env.ret .regulatorSetLoad < 0 := by
      have hpos := Nat.pos_of_ne_zero hload
      rw [ProbeEnv.ret]
      omega
    rw [if_neg hload, if_neg hload, if_pos hret, removed_fail hret.ne, errDeviceInitGpio, vregConfigure_false rfl]

end

/-- The regulator cannot be had, or probe does not come so far. -/
theorem held_off (h : ¬(env.GetsRegulator ∧ (env.Ok .regulatorEnable ∨ env.isEnabled = true))) :
    (removed env (probe env)).Held ∅ := by
  have hlog : (removed env (probe env)).log ∈ [[], [.acquire .data, .release .data],
      [.acquire .data, .acquire .regulator, .release .regulator, .release .data]] := by
    simp only [ProbeEnv.GetsRegulator, ProbeEnv.Ok] at h
    by_cases hi2c : env.errno .i2cCheckFunctionality = 0
    swap
    · simp [probe, removed, hi2c]
    by_cases halloc : env.errno .kzalloc = 0
    swap
    · simp [probe, removed, hi2c, halloc]
    by_cases hpdata : env.errno .validatePdata = 0
    swap
    · simp [probe, removed, hi2c, halloc, hpdata, errDeviceInitPdata, acquire, release]
    by_cases hget : env.errno .regulatorGet = 0
    swap
    · simp [probe, removed, hi2c, halloc, hpdata, hget, vregConfigure, errDeviceInitPdata, acquire, release]
    by_cases hvoltage : env.errno .regulatorSetVoltage = 0
    swap
    · simp [probe, removed, ProbeEnv.ret, hi2c, halloc, hpdata, hget, hvoltage, vregConfigure, errDeviceInitPdata,
        acquire, release, Nat.pos_iff_ne_zero]
    have henable : ¬env.errno .regulatorEnable = 0 ∧ ¬env.isEnabled = true := by simpa [*] using h
    simp [probe, removed, ProbeEnv.ret, hi2c, halloc, hpdata, hget, hvoltage, henable.1, henable.2, vregConfigure,
      regulatorHandler, errDeviceInitPdata, acquire, release, Nat.pos_iff_ne_zero]
  have hall : ∀ log ∈ [[], [.acquire .data, .release .data],
      [.acquire .data, .acquire .regulator, .release .regulator, .release .data]],
      replay HandlerSafe log = some ∅ := by decide
  exact hall _ hlog

/-- A regulator that is on but has not been enabled is disabled all the same. -/
theorem refused_assumed (hget : env.GetsRegulator) (hok : ¬env.Ok .regulatorEnable) (hon : env.isEnabled = true) :
    (removed env (probe env)).Refused := by
  have hvdd : ∀ {s}, Extends (· ≠ .vdd) (got false) s → ∀ held, s.Held held → .vdd ∉ held := by
    intro s hext held hheld hmem
    obtain ⟨held', hheld', hiff⟩ := hext.mem (r := .vdd) (fun hne => hne rfl) hheld
    have hgot : (got false).Held {.data, .regulator} := by decide
    cases Option.some.inj (hgot.symm.trans hheld')
    exact absurd (hiff.1 hmem) (by decide)
  -- every way from here on passes the release of the regulator
  have hgpio : ∀ {s}, Extends (· ≠ .vdd) (got false) s → (s.errDeviceInitGpio env).Refused := fun hext =>
    Passes.refused ⟨_, Extends.refl, Extends.refl⟩ hext.vreg (hvdd hext)
  have htirq : Extends (· ≠ .vdd) (got false) ((got false).acquire .tirq) := extends_acquire (by decide)
  rw [removed_probe_got hget (Or.inr hon), decide_eq_false hok]
  split
  · split
    · split
      · have hreset := htirq.trans (extends_gpioInit env (by decide))
        exact (passes_finish env _).refused hreset.vreg (hvdd hreset)
      · exact hgpio (htirq.trans (extends_release (by decide)))
    · exact hgpio Extends.refl
  · exact hgpio Extends.refl

theorem held_tirq : ((got true).acquire .tirq).Held (insert .tirq (Device.powered false)) :=
  held_got.acquire (by decide) (by decide)

end Device

namespace ProbeEnv
open Device
variable {env : ProbeEnv}

theorem unwinds_of_off (hvdd : env.GetsRegulator → ¬env.Ok .regulatorEnable → env.isEnabled = false)
    (htirq : ¬env.GetsTirq) : env.Unwinds :=
  ⟨hvdd, fun h => absurd h htirq, fun h => absurd h.1 htirq, fun h => absurd h.1 htirq, fun h => absurd h.1 htirq,
    fun h => absurd h.1 htirq⟩

theorem balanced_of_enabled (hget : env.GetsRegulator) (hok : env.Ok .regulatorEnable) :
    env.Balanced ↔ env.Unwinds := by
  rw [Balanced, removed_probe_got hget (Or.inl hok), decide_eq_true hok]
  by_cases htirq : env.GetsTirq
  · have hon : env.GetsIrq ↔ env.Ok .inputAllocateDevice ∧ env.Ok .inputRegisterDevice ∧ env.Ok .requestThreadedIrq :=
      and_iff_right htirq
    rw [if_pos htirq.2.2.1, if_pos htirq.2.2.2.1, if_pos htirq.2.2.2.2]
    by_cases hkept : env.gpioReset ≠ 0 → env.Ok .gpioRequestReset → ¬env.Ok .gpioDirectionOutput
    · rw [finish_held_iff (held_gpioInit held_tirq (by decide) (by decide) hkept) gpioInit_sysfsCreated
        (extends_gpioInit (A := fun _ => True) env trivial).vreg, ← hon]
      refine ⟨fun h => ?_, fun h hirq => ⟨h.files hirq, h.report hirq, h.link hirq, h.irq hirq⟩⟩
      exact ⟨fun _ hnot => absurd hok hnot, fun _ => hkept, fun hirq => (h hirq).1, fun hirq => (h hirq).2.1,
        fun hirq => (h hirq).2.2.1, fun hirq => (h hirq).2.2.2⟩
    · refine iff_of_false ?_ fun h => hkept (h.reset htirq)
      obtain ⟨hreset, hrest⟩ := Classical.not_imp.1 hkept
      obtain ⟨hrequest, hdirection⟩ := Classical.not_imp.1 hrest
      rw [gpioInit_kept hreset hrequest (not_not.1 hdirection)]
      refine (passes_finish env _).keeps_reset fun held hheld => ?_
      have hacquire : (((got true).acquire .tirq).acquire .reset).Held
          (insert .reset (insert .tirq (Device.powered false))) := held_tirq.acquire (by decide) (by decide)
      cases Option.some.inj (hacquire.symm.trans hheld)
      decide
  · refine iff_of_true ?_ (unwinds_of_off (fun _ hnot => absurd hok hnot) htirq)
    split
    · split
      · split
        next hload hrequest hdirection => exact absurd ⟨hget, Or.inl hok, hload, hrequest, hdirection⟩ htirq
        · have hfree : (((got true).acquire .tirq).release .tirq).Held (Device.powered false) :=
            (held_tirq.release (by decide) (by decide)).eq (by decide)
          exact hfree.errDeviceInitGpio env rfl
      · exact held_got.errDeviceInitGpio env rfl
    · exact held_got.errDeviceInitGpio env rfl

/-- Probe and remove balance their resources just if what fails is undone. -/
theorem balanced_iff (env : ProbeEnv) : env.Balanced ↔ env.Unwinds := by
  by_cases hget : env.GetsRegulator
  · by_cases hok : env.Ok .regulatorEnable
    · exact balanced_of_enabled hget hok
    · cases hon : env.isEnabled with
      | true =>
          refine iff_of_false (refused_assumed hget hok hon).not_held fun h => ?_
          exact absurd (hon.symm.trans (h.vdd hget hok)) (by decide)
      | false =>
          have hoff : ¬(env.Ok .regulatorEnable ∨ env.isEnabled = true) := by simp [hok, hon]
          exact iff_of_true (held_off fun h => hoff h.2) (unwinds_of_off (fun _ _ => hon) fun h => hoff h.2.1)
  · exact iff_of_true (held_off fun h => hget h.1) (unwinds_of_off (fun h => absurd h hget) fun h => hget h.1)

/-- The device of the board, where all calls of `probe` succeed: the reset GPIO is kept. -/
def board : ProbeEnv where
  errno _ := 0
  isEnabled := false
  gpioReset := 85
  irq := 86

theorem board_not_balanced : ¬board.Balanced := by decide +kernel

end ProbeEnv
end Sirius.Touch
