import Sirius.Lib.Runs
import Sirius.Touch.FwLoad

/-!
# Which firmware: validate_fw

The chip tells its id and that of its configuration one after the other, and the file with the firmware is named after
both. A reading that breaks off in between leaves the one id new and the other as it was.
-/
namespace Sirius.Touch.Identity
open Runs Boot

structure Ids where
  chipId : BitVec 16
  configId : BitVec 16
  deriving DecidableEq, Repr

/-- What `struct max1187x_pdata` has instead of ids that are not known. -/
structure Defaults where
  allow : BitVec 32
  configId : BitVec 32
  chipId : BitVec 32
  deriving DecidableEq, Repr

/-- `rpt_buf` after a call of `rbcmd_send_receive`, nothing where it fails. -/
abbrev Reply := Option (ℕ → BitVec 16)

/-- A command is sent `n` times at most, until it is answered. -/
def receive : ℕ → List Reply → Reply × List Reply
  | 0, rs => (none, rs)
  | _ + 1, [] => (none, [])
  | n + 1, none :: rs => receive n rs
  | _ + 1, some buf :: rs => (some buf, rs)

def readIds (n : ℕ) (ids : Ids) (rs : List Reply) : Bool × Ids :=
  match receive n rs with
  | (none, _) => (false, ids)
  | (some version, rs) =>
      match receive n rs with
      | (none, _) => (false, { ids with chipId := BYTEH (version 4) })
      | (some config, _) => (true, ⟨BYTEH (version 4), config 3⟩)

/-- How the ids are read, with the times that a command is sent at most; in the driver it is `readIds`. -/
abbrev Reading := ℕ → Ids → List Reply → Bool × Ids

section
variable (read : Reading)

def readChipData : Ids → List Reply → Bool × Ids := read MXM_FW_RETRIES_MAX

/-- `fw_ver_show`, as far as it reads. -/
def fwVerShow (ids : Ids) (rs : List Reply) : Ids := (read 1 ids rs).2

structure UpdateEnv where
  replies : List Reply
  found : Bool
  loaded : Bool
  replies' : List Reply

/-- `validate_fw` up to `set_id`. -/
def identify (force : Bool) (ids : Ids) (rs : List Reply) : Bool × Ids :=
  if force then (true, ⟨0, 0⟩) else readChipData read ids rs

/-- The ids that are kept, and those that a file is asked for by. -/
def validateFw (defaults : Defaults) (force : Bool) (env : UpdateEnv) (ids : Ids) : Ids × Option Ids :=
  let (ok, ids) := identify read force ids env.replies
  if ok = false ∧ defaults.allow = 0 then (ids, none)
  else if env.found = false ∨ env.loaded = false then (ids, some ids)
  else ((readChipData read ids env.replies').2, some ids)

/-- What a C function reads of a buffer: the characters in front of the first NUL. -/
def cString (buf : List Char) : List Char := buf.takeWhile (· ≠ Char.ofNat 0)

/-- `sysfs_streq` with a text that has no newline and no NUL. -/
def sysfsStreq (s t : List Char) : Bool := cString s = t ∨ cString s = t ++ ['\n']

/-- `ts->fw_update_mode` while the firmware is updated. -/
def fwUpdateMode (buf : List Char) : Option Bool :=
  if sysfsStreq buf "default".toList then some false
  else if sysfsStreq buf "force".toList then some true
  else none

def fwUpdateStore (defaults : Defaults) (buf : List Char) (env : UpdateEnv) (ids : Ids) : ℤ × Ids × Option Ids :=
  match fwUpdateMode buf with
  | none => (- EINVAL, ids, none)
  | some force => (buf.length, validateFw read defaults force env ids)

def fileIds (defaults : Defaults) (ids : Ids) : Ids where
  chipId := if ids.chipId ≠ 0 then ids.chipId else defaults.chipId.setWidth 16
  configId := if ids.configId ≠ 0 then ids.configId else defaults.configId.setWidth 16

structure State where
  ids : Ids
  defaults : Defaults
  deriving DecidableEq, Repr

inductive Act
  | probe (rs : List Reply)
  | fwVer (rs : List Reply)
  | update (buf : List Char) (env : UpdateEnv)
  | dfltCfg (defaults : Defaults)

def step (s : State) : Act → State
  | .probe rs => { s with ids := (readChipData read s.ids rs).2 }
  | .fwVer rs => { s with ids := fwVerShow read s.ids rs }
  | .update buf env => { s with ids := (fwUpdateStore read s.defaults buf env s.ids).2.1 }
  | .dfltCfg defaults => { s with defaults }

def asked (s : State) : Act → Option (Ids × Ids)
  | .update buf env => (fwUpdateStore read s.defaults buf env s.ids).2.2.map fun ids => (ids, fileIds s.defaults ids)
  | _ => none

end

def readAtOnce : Reading := fun n ids rs => if (readIds n ids rs).1 then readIds n ids rs else (false, ids)

/-- A reading that breaks off behind the version has got the id that is kept. -/
def Same (n : ℕ) (ids : Ids) (rs : List Reply) : Prop :=
  ∀ version rest, receive n rs = (some version, rest) → (receive n rest).1 = none → BYTEH (version 4) = ids.chipId

/-- An update comes to read the ids of the new firmware. -/
def Reads (defaults : Defaults) (force : Bool) (env : UpdateEnv) (ids : Ids) : Prop :=
  ¬((identify readIds force ids env.replies).1 = false ∧ defaults.allow = 0) ∧
    ¬(env.found = false ∨ env.loaded = false)

/-- No reading breaks off with the id of another chip. -/
def Uninterrupted (s : State) : Act → Prop
  | .probe rs => Same MXM_FW_RETRIES_MAX s.ids rs
  | .fwVer rs => Same 1 s.ids rs
  | .update buf env => ∀ force, fwUpdateMode buf = some force →
      (force = false → Same MXM_FW_RETRIES_MAX s.ids env.replies) ∧
        (Reads s.defaults force env s.ids →
          Same MXM_FW_RETRIES_MAX (identify readIds force s.ids env.replies).2 env.replies')
  | .dfltCfg _ => True

section
variable {n : ℕ} {ids : Ids} {rs : List Reply} {defaults : Defaults} {force : Bool} {env : UpdateEnv}

theorem readAtOnce_fst : (readAtOnce n ids rs).1 = (readIds n ids rs).1 := by
  unfold readAtOnce
  split
  · rfl
  · rename_i hfail
    exact ((Bool.not_eq_true _).mp hfail).symm

section
variable {version config : ℕ → BitVec 16} {rest rest' : List Reply}

theorem readIds_of_none (hversion : receive n rs = (none, rest)) : readIds n ids rs = (false, ids) := by
  rw [readIds, hversion]

theorem readIds_of_break (hversion : receive n rs = (some version, rest)) (hconfig : receive n rest = (none, rest')) :
    readIds n ids rs = (false, { ids with chipId := BYTEH (version 4) }) := by
  rw [readIds, hversion]
  dsimp only
  rw [hconfig]

theorem readIds_of_whole (hversion : receive n rs = (some version, rest))
    (hconfig : receive n rest = (some config, rest')) :
    readIds n ids rs = (true, ⟨BYTEH (version 4), config 3⟩) := by
  rw [readIds, hversion]
  dsimp only
  rw [hconfig]

end

/-- Only a reading that breaks off behind the version makes a difference, and only with another chip. -/
theorem readIds_snd_iff : (readIds n ids rs).2 = (readAtOnce n ids rs).2 ↔ Same n ids rs := by
  rw [readAtOnce]
  rcases hversion : receive n rs with ⟨_ | version, rest⟩
  · rw [readIds_of_none hversion]
    refine iff_of_true rfl fun version rest h => ?_
    rw [hversion] at h
    cases h
  · rcases hconfig : receive n rest with ⟨_ | config, rest'⟩
    · rw [readIds_of_break hversion hconfig, if_neg Bool.false_ne_true]
      constructor
      · intro h version' rest'' heq hnone
        rw [hversion] at heq
        cases heq
        exact congrArg Ids.chipId h
      · intro h
        have hsame := h version rest hversion (by rw [hconfig])
        exact congrArg (fun chipId => Ids.mk chipId ids.configId) hsame
    · rw [readIds_of_whole hversion hconfig, if_pos rfl]
      refine iff_of_true rfl fun version' rest'' heq hnone => ?_
      rw [hversion] at heq
      cases heq
      rw [hconfig] at hnone
      cases hnone

theorem identify_eq_iff : identify readIds force ids rs = identify readAtOnce force ids rs ↔
    (force = false → Same MXM_FW_RETRIES_MAX ids rs) := by
  cases force with
  | true => exact iff_of_true rfl fun h => absurd h.symm Bool.false_ne_true
  | false =>
      rw [forall_prop_of_true rfl, ← readIds_snd_iff]
      exact Prod.ext_iff.trans (and_iff_right readAtOnce_fst.symm)

/-- A file is asked for by the ids that were read, and where none is, these are kept. -/
theorem validateFw_getD (read : Reading) :
    (validateFw read defaults force env ids).2.getD (validateFw read defaults force env ids).1 =
      (identify read force ids env.replies).2 := by
  unfold validateFw
  dsimp only
  split
  · rfl
  · split <;> rfl

theorem validateFw_eq_iff :
    validateFw readIds defaults force env ids = validateFw readAtOnce defaults force env ids ↔
      (force = false → Same MXM_FW_RETRIES_MAX ids env.replies) ∧
        (Reads defaults force env ids →
          Same MXM_FW_RETRIES_MAX (identify readIds force ids env.replies).2 env.replies') := by
  rw [← identify_eq_iff]
  by_cases hfirst : identify readIds force ids env.replies = identify readAtOnce force ids env.replies
  · rw [and_iff_right hfirst]
    unfold validateFw Reads
    rw [← hfirst]
    dsimp only
    split
    · exact iff_of_true rfl fun h => absurd ‹_› h.1
    · split
      · exact iff_of_true rfl fun h => absurd ‹_› h.2
      · rename_i hgoes hloaded
        rw [Prod.mk.injEq, and_iff_left rfl, forall_prop_of_true ⟨hgoes, hloaded⟩]
        exact readIds_snd_iff
  · refine iff_of_false (fun heq => hfirst ?_) fun h => hfirst h.1
    have hids : (identify readIds force ids env.replies).2 = (identify readAtOnce force ids env.replies).2 := by
      rw [← @validateFw_getD ids defaults force env readIds, heq, validateFw_getD]
    refine Prod.ext ?_ hids
    cases force with
    | true => rfl
    | false => exact readAtOnce_fst.symm

theorem step_eq_iff (s : State) (a : Act) :
    (step readIds s a = step readAtOnce s a ∧ asked readIds s a = asked readAtOnce s a) ↔ Uninterrupted s a := by
  have hids {ids ids' : Ids} : State.mk ids s.defaults = State.mk ids' s.defaults ↔ ids = ids' :=
    ⟨congrArg State.ids, congrArg (State.mk · s.defaults)⟩
  cases a with
  | probe rs => exact (and_iff_left rfl).trans (hids.trans readIds_snd_iff)
  | fwVer rs => exact (and_iff_left rfl).trans (hids.trans readIds_snd_iff)
  | dfltCfg defaults => exact iff_of_true ⟨rfl, rfl⟩ trivial
  | update buf env =>
      unfold step asked Uninterrupted fwUpdateStore
      dsimp only
      cases hmode : fwUpdateMode buf with
      | none =>
          refine iff_of_true ⟨rfl, rfl⟩ fun force h => ?_
          cases h
      | some force =>
          have hfile : Function.Injective fun ids => (ids, fileIds s.defaults ids) := fun _ _ h => congrArg Prod.fst h
          rw [hids, (Option.map_injective hfile).eq_iff, ← Prod.ext_iff, validateFw_eq_iff]
          exact ⟨fun h force' heq => Option.some.inj heq ▸ h, fun h => h force rfl⟩

end

/-- In a run the driver keeps the ids and asks for the files that one would which always gets both ids of a chip or
none, exactly where no reading breaks off with the id of another chip. -/
theorem outputs_atOnce_iff (s : State) (as : List Act) :
    outputs (step readIds) (fun s a => (step readIds s a, asked readIds s a)) s as =
        outputs (step readAtOnce) (fun s a => (step readAtOnce s a, asked readAtOnce s a)) s as ↔
      Always (step readIds) Uninterrupted s as :=
  outputs_eq_iff_always.trans
    (always_iff_of_invariant (I := fun _ => True) (fun _ _ _ _ => trivial) (fun s a _ => step_eq_iff s a) trivial)

end Sirius.Touch.Identity
