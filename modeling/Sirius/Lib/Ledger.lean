import Mathlib.Data.Finset.Insert
import Mathlib.Data.Finset.Erase

/-!
# A ledger of resources

What a program acquires and releases, in order. The ledger is refused where something is acquired that is
held, something is released that is not held, or what is held behind an event is not good.
-/
namespace Ledgers

inductive Event (ρ : Type*)
  | acquire (r : ρ)
  | release (r : ρ)
  deriving DecidableEq

variable {ρ : Type*}

def Event.resource : Event ρ → ρ
  | .acquire r | .release r => r

section
variable [DecidableEq ρ] (good : Finset ρ → Prop) [DecidablePred good]

/-- What is held behind an event. -/
def record (held : Finset ρ) : Event ρ → Option (Finset ρ)
  | .acquire r => if r ∉ held ∧ good (insert r held) then some (insert r held) else none
  | .release r => if r ∈ held ∧ good (held.erase r) then some (held.erase r) else none

/-- What is held behind a log, nothing before it. -/
def replay (log : List (Event ρ)) : Option (Finset ρ) := log.foldlM (record good) ∅

variable {good} {log new : List (Event ρ)} {held held' : Finset ρ} {r : ρ}

theorem replay_append (log new : List (Event ρ)) :
    replay good (log ++ new) = (replay good log).bind fun held => new.foldlM (record good) held := by
  rw [replay, List.foldlM_append]
  rfl

theorem replay_concat (log : List (Event ρ)) (e : Event ρ) :
    replay good (log ++ [e]) = (replay good log).bind fun held => record good held e := by
  rw [replay_append]
  cases replay good log with
  | none => rfl
  | some held => simp

theorem replay_acquire (h : replay good log = some held) (hr : r ∉ held) (hgood : good (insert r held)) :
    replay good (log ++ [.acquire r]) = some (insert r held) := by
  rw [replay_concat, h, Option.bind_some, record, if_pos ⟨hr, hgood⟩]

theorem replay_release (h : replay good log = some held) (hr : r ∈ held) (hgood : good (held.erase r)) :
    replay good (log ++ [.release r]) = some (held.erase r) := by
  rw [replay_concat, h, Option.bind_some, record, if_pos ⟨hr, hgood⟩]

/-- A log that is refused stays so. -/
theorem replay_append_none (h : replay good log = none) (new : List (Event ρ)) :
    replay good (log ++ new) = none := by
  rw [replay_append, h]
  rfl

/-- A release of what is not held is refused. -/
theorem replay_release_none (h : ∀ held, replay good log = some held → r ∉ held) :
    replay good (log ++ [.release r]) = none := by
  rw [replay_concat]
  cases hlog : replay good log with
  | none => rfl
  | some held => rw [Option.bind_some, record, if_neg fun hand => h held hlog hand.1]

theorem replay_release_bad (h : replay good log = some held) (hbad : ¬good (held.erase r)) :
    replay good (log ++ [.release r]) = none := by
  rw [replay_concat, h, Option.bind_some, record, if_neg fun hand => hbad hand.2]

theorem mem_record {e : Event ρ} (h : record good held e = some held') (he : e.resource ≠ r) :
    r ∈ held' ↔ r ∈ held := by
  cases e with
  | acquire r' =>
      rw [record] at h
      split at h <;> cases h
      simp [show r ≠ r' from fun heq => he heq.symm]
  | release r' =>
      rw [record] at h
      split at h <;> cases h
      simp [show r ≠ r' from fun heq => he heq.symm]

/-- Events about other resources leave a resource held or not. -/
theorem mem_replay_append (hnew : ∀ e ∈ new, e.resource ≠ r) (h : replay good (log ++ new) = some held') :
    ∃ held, replay good log = some held ∧ (r ∈ held' ↔ r ∈ held) := by
  induction new using List.reverseRecOn generalizing held' with
  | nil => exact ⟨held', by rwa [List.append_nil] at h, Iff.rfl⟩
  | append_singleton new e ih =>
      rw [← List.append_assoc, replay_concat] at h
      obtain ⟨mid, hmid, he⟩ := Option.bind_eq_some_iff.1 h
      obtain ⟨held, hheld, hiff⟩ := ih (fun e he => hnew e (List.mem_append_left _ he)) hmid
      exact ⟨held, hheld, (mem_record he (hnew e (by simp))).trans hiff⟩

end
end Ledgers
