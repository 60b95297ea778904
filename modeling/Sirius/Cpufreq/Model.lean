import Mathlib.Data.List.Nodup
import Mathlib.Logic.Function.Basic
import Mathlib.Algebra.Group.Nat.Defs
import Sirius.Lib.Runs

/-!
# The L2 clock, drivers/cpufreq/krait-l2-cache.c

The steps of `krait_l2_probe`, of the cpufreq transitions and of the work item, one access to a shared
value each. A transition runs its POSTCHANGE notifiers before the core writes `policy->cur`; the driver's
notifier is among them once it is registered.
-/
namespace Sirius.Cpufreq

variable {κ ρ : Type}

structure Krait (κ ρ : Type) where
  possible : List κ
  online : List κ
  policyOf : κ → ρ
  map : List (ℕ × ℕ)
  bitsPerLong : ℕ
  online_possible : ∀ c ∈ online, c ∈ possible
  nodup : online.Nodup
  map_ne_nil : map ≠ []
  ascending : map.Pairwise fun a b => a.1 ≤ b.1

/-- How far a transition of a policy to the rate `new` has come. -/
inductive Transition (κ : Type)
  | idle
  | changing (new : ℕ)
  | notifying (new : ℕ) (left : List κ)
  | notified (new : ℕ)
  deriving DecidableEq

/-- How far `krait_l2_probe` has come; what is left of the loop over the CPUs it is in. -/
inductive Probe (κ : Type)
  | snapshot (left : List κ)
  | updating (left : List κ) (maxKhz : ℕ)
  | register
  | registered
  | returned
  | failed
  deriving DecidableEq

/-- `completed` is the rate of the last transition of a policy whose POSTCHANGE notifiers have run. -/
structure L2 (κ ρ : Type) where
  policyCur : ρ → ℕ
  completed : ρ → ℕ
  transition : ρ → Transition κ
  khz : κ → ℕ
  curHz : ℕ
  probe : Probe κ
  pending : Bool
  running : Option (List κ × ℕ)

inductive Act (ρ : Type)
  | begin (p : ρ) (new : ℕ)
  | postchange (p : ρ)
  | notifier (p : ρ)
  | setCur (p : ρ)
  | probe (registers : Bool)
  | startWork
  | work

def L2.Registered (s : L2 κ ρ) : Prop := s.probe = .registered ∨ s.probe = .returned

instance [DecidableEq κ] (s : L2 κ ρ) : Decidable s.Registered := inferInstanceAs (Decidable (_ ∨ _))

namespace Krait
variable (k : Krait κ ρ)

def target (maxKhz : ℕ) : ℕ :=
  k.map.foldl (fun target e => if e.1 ≤ maxKhz then e.2 else target) (k.map.head k.map_ne_nil).2

/-- `krait_l2_target_hz` behind its loop over the CPUs, in an unsigned long. -/
def targetHz (maxKhz : ℕ) : ℕ := k.target maxKhz * 1000 % 2 ^ k.bitsPerLong

/-- `krait_l2_update` with one rate read, or behind the last of them; `dev_pm_opp_set_rate` succeeds. -/
def update (s : L2 κ ρ) : List κ → ℕ → L2 κ ρ × Option (List κ × ℕ)
  | cpu :: left, maxKhz => (s, some (left, if maxKhz < s.khz cpu then s.khz cpu else maxKhz))
  | [], maxKhz =>
    if k.targetHz maxKhz ≠ s.curHz then ({ s with curHz := k.targetHz maxKhz }, none) else (s, none)

variable [DecidableEq κ] [DecidableEq ρ]

def cpus (p : ρ) : List κ := k.online.filter fun cpu => k.policyOf cpu = p

/-- `cpufreq_quick_get`, which knows no policy for a CPU that is not online. -/
def quickGet (s : L2 κ ρ) (cpu : κ) : ℕ := if cpu ∈ k.online then s.policyCur (k.policyOf cpu) else 0

/-- `krait_l2_probe`; `registers` is what `cpufreq_register_notifier` answers. -/
def probeStep (registers : Bool) (s : L2 κ ρ) : L2 κ ρ :=
  match s.probe with
  | .snapshot (cpu :: left) =>
      { s with khz := Function.update s.khz cpu (k.quickGet s cpu), probe := .snapshot left }
  | .snapshot [] => { s with probe := .updating k.online 0 }
  | .updating left maxKhz =>
    match k.update s left maxKhz with
    | (s, some (left, maxKhz)) => { s with probe := .updating left maxKhz }
    | (s, none) => { s with probe := .register }
  | .register => { s with probe := if registers then .registered else .failed }
  | .registered => { s with probe := .returned }
  | .returned | .failed => s

def postchange (p : ρ) (s : L2 κ ρ) : L2 κ ρ :=
  match s.transition p with
  | .changing new =>
    if s.Registered then { s with transition := Function.update s.transition p (.notifying new (k.cpus p)) }
    else
      { s with
        transition := Function.update s.transition p (.notified new)
        completed := Function.update s.completed p new }
  | _ => s

/-- `krait_l2_cpufreq_notifier`: one rate written, or `schedule_work` behind the last of them. -/
def notifierStep (p : ρ) (s : L2 κ ρ) : L2 κ ρ :=
  match s.transition p with
  | .notifying new (cpu :: left) =>
      { s with
        khz := Function.update s.khz cpu new
        transition := Function.update s.transition p (.notifying new left) }
  | .notifying new [] =>
      { s with
        pending := true
        transition := Function.update s.transition p (.notified new)
        completed := Function.update s.completed p new }
  | _ => s

def workStep (s : L2 κ ρ) : L2 κ ρ :=
  match s.running with
  | some (left, maxKhz) =>
    match k.update s left maxKhz with
    | (s, running) => { s with running := running }
  | none => s

def step (s : L2 κ ρ) : Act ρ → L2 κ ρ
  | .begin p new =>
      match s.transition p with
      | .idle => { s with transition := Function.update s.transition p (.changing new) }
      | _ => s
  | .postchange p => k.postchange p s
  | .notifier p => notifierStep p s
  | .setCur p =>
      match s.transition p with
      | .notified new =>
          { s with
            policyCur := Function.update s.policyCur p new
            transition := Function.update s.transition p .idle }
      | _ => s
  | .probe registers => k.probeStep registers s
  | .startWork =>
      if s.pending ∧ s.running = none then { s with pending := false, running := some (k.online, 0) } else s
  | .work => k.workStep s

def boot (cur : ρ → ℕ) : L2 κ ρ where
  policyCur := cur
  completed := cur
  transition := fun _ => .idle
  khz := fun _ => 0
  curHz := 0
  probe := .snapshot k.possible
  pending := false
  running := none

def fastest (cpus : List κ) (rate : κ → ℕ) : ℕ := cpus.foldl (fun fastest cpu => max fastest (rate cpu)) 0

/-- The L2 rate of the highest entry that does not exceed `khz`, of the first one if there is none. -/
def Highest (khz l2 : ℕ) : Prop :=
  (∃ below e above, k.map = below ++ e :: above ∧ e.1 ≤ khz ∧ (∀ e' ∈ below, e'.1 ≤ e.1) ∧
      (∀ e' ∈ above, khz < e'.1) ∧ l2 = e.2) ∨
    (∀ e ∈ k.map, khz < e.1) ∧ l2 = (k.map.head k.map_ne_nil).2

/-- A core counts with the rate of its last completed transition; while the driver's notifier is being
called for the next one, it may count with that one's. -/
def Counts (s : L2 κ ρ) (cpu : κ) (rate : ℕ) : Prop :=
  rate = s.completed (k.policyOf cpu) ∨ ∃ left, s.transition (k.policyOf cpu) = .notifying rate left

/-- With the probe done and no work pending or running, the clock has the rate for the fastest core. -/
def Follows (s : L2 κ ρ) : Prop :=
  s.probe = .returned → s.pending = false → s.running = none →
    ∃ rate : κ → ℕ, (∀ cpu ∈ k.online, k.Counts s cpu (rate cpu)) ∧
      ∃ l2, k.Highest (fastest k.online rate) l2 ∧ s.curHz = 1000 * l2

end Krait
end Sirius.Cpufreq
