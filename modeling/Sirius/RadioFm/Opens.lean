import Sirius.Lib.Runs
import Sirius.RadioFm.Model

/-!
# Opening and releasing the radio

The first-opener and last-closer tests look at the list of registered file handles, which
changes outside the lock. An open that finds another handle relies on the tuner being on, and a
release that finds one relies on its file being open or about to be; where both hold, the tuner
follows the files.
-/
namespace Sirius.RadioFm
open Runs

/-- No command of the step fails. -/
def Step.Succeeds : Step → Prop
  | .openLocked _ cmd | .releaseLocked _ cmd => ∀ opcode, cmd opcode = 0
  | _ => True

/-- The driver's flag and the receiver say the same. -/
def Tuner.Is (t : Tuner) (on : Bool) : Prop := t.fm.enabled = on ∧ t.receiving = on

theorem command_antenna (b : Bool) : command (fmOpcode FM_OGF_RECV_CTRL FM_OCF_SET_ANTENNA) b = b := by
  cases b <;> decide

theorem wcnssFmEnable_on {cmd : BitVec 16 → ℤ} (h : ∀ opcode, cmd opcode = 0) (t : Tuner) :
    (wcnssFmEnable cmd t).2 = 0 ∧ (wcnssFmEnable cmd t).1.Is true := by
  simp only [wcnssFmEnable, wcnssFmCmd, h, if_true, ne_eq, not_true_eq_false, if_false, command_antenna]
  exact ⟨trivial, rfl, rfl⟩

theorem wcnssFmDisable_off {cmd : BitVec 16 → ℤ} (h : ∀ opcode, cmd opcode = 0) {t : Tuner} {on : Bool}
    (ht : t.Is on) : (wcnssFmDisable cmd t).1.Is false := by
  unfold wcnssFmDisable
  split_ifs with hoff
  · exact ⟨hoff, ht.2.trans (ht.1.symm.trans hoff)⟩
  · simp only [wcnssFmCmd, h, if_true]
    exact ⟨rfl, rfl⟩

/-- Some file is open. -/
def Radio.Used (r : Radio) : Prop := ∃ file, r.phase file = .opened

/-- Some file is open or about to be. -/
def Radio.Wanted (r : Radio) : Prop := ∃ file, r.phase file = .opened ∨ r.phase file = .opening

/-- The registered handles are those of the files that are not closed; the tuner is on while a file is
open, and only while one is open or about to be. -/
structure Follows (r : Radio) : Prop where
  nodup : r.fhList.Nodup
  registered : ∀ file, file ∈ r.fhList ↔ r.phase file ≠ .closed
  tuner : ∃ on, r.tuner.Is on ∧ (r.Used → on = true) ∧ (on = true → r.Wanted)

theorem registerRadio_follows : Follows registerRadio := by
  refine ⟨List.nodup_nil, fun file => ?_, false, ⟨rfl, rfl⟩, ?_, nofun⟩
  · exact iff_of_false List.not_mem_nil fun h => h rfl
  · rintro ⟨file, h⟩
    cases h

/-- An open that is not the first finds the tuner on; a release that is not the last leaves a file that
is open or about to be. -/
def Alone (r : Radio) : Step → Prop
  | .openLocked file _ => r.phase file = .opening →
      (∀ g, g ≠ file → r.phase g = .closed) ∨ r.tuner.fm.enabled = true
  | .releaseLocked file _ => r.phase file = .opened →
      (∀ g, g ≠ file → r.phase g = .closed) ∨ ∃ g, g ≠ file ∧ (r.phase g = .opened ∨ r.phase g = .opening)
  | _ => True

section
variable {r : Radio} {file : ℕ}

/-- The only registered handle belongs to the only file that is not closed. -/
theorem Follows.singular (h : Follows r) (hfile : r.phase file ≠ .closed) :
    r.isSingularFile = true ↔ ∀ g, g ≠ file → r.phase g = .closed := by
  rw [Radio.isSingularFile, decide_eq_true_iff]
  constructor
  · intro hlen g hg
    obtain ⟨a, ha⟩ := List.length_eq_one_iff.mp hlen
    have hmem := (h.registered file).mpr hfile
    by_contra hopen
    have hg' := (h.registered g).mpr hopen
    rw [ha, List.mem_singleton] at hmem hg'
    exact hg (hg'.trans hmem.symm)
  · intro hothers
    have hperm : r.fhList.Perm [file] := by
      rw [List.perm_ext_iff_of_nodup h.nodup (List.nodup_singleton file)]
      intro g
      rw [h.registered, List.mem_singleton]
      exact ⟨fun hg => by_contra fun hne => hg (hothers g hne), fun he => he ▸ hfile⟩
    exact hperm.length_eq

/-- Who is registered does not change where a file stays open or on its way. -/
theorem registered_update {r : Radio} {p : Phase} (h : ∀ g, g ∈ r.fhList ↔ r.phase g ≠ .closed)
    (hfile : r.phase file ≠ .closed) (hp : p ≠ .closed) (g : ℕ) :
    g ∈ r.fhList ↔ Function.update r.phase file p g ≠ .closed := by
  by_cases hg : g = file
  · rw [hg, Function.update_self]
    exact iff_of_true ((h file).mpr hfile) hp
  · rw [Function.update_of_ne hg]
    exact h g

/-- Where the file that changes is in a phase of no interest, some other file is. -/
theorem exists_phase_update {P : Phase → Prop} {p : Phase} (hfile : ¬ P (r.phase file)) (hp : ¬ P p) :
    (∃ g, P (Function.update r.phase file p g)) ↔ ∃ g, P (r.phase g) := by
  refine exists_congr fun g => ?_
  by_cases hg : g = file
  · rw [hg, Function.update_self]
    exact iff_of_false hp hfile
  · rw [Function.update_of_ne hg]

theorem openLocked_follows (h : Follows r) (hfile : r.phase file = .opening) {cmd : BitVec 16 → ℤ}
    (hcmd : ∀ opcode, cmd opcode = 0) (halone : Alone r (.openLocked file cmd)) :
    Follows (openLocked r file cmd) := by
  have hnot : r.phase file ≠ .closed := by rw [hfile]; decide
  have hregistered := registered_update (p := .opened) h.registered hnot (by decide)
  have hwanted : ∃ g, Function.update r.phase file .opened g = .opened ∨
      Function.update r.phase file .opened g = .opening := ⟨file, Or.inl (Function.update_self ..)⟩
  unfold openLocked
  split_ifs with hsingular
  · obtain ⟨hret, hon⟩ := wcnssFmEnable_on hcmd r.tuner
    dsimp only
    rw [if_neg (not_not.mpr hret)]
    exact ⟨h.nodup, hregistered, true, hon, fun _ => rfl, fun _ => hwanted⟩
  · -- not the first: the tuner is on already
    obtain ⟨on, hon, -, -⟩ := h.tuner
    have henabled : on = true := by
      rcases halone hfile with hothers | henabled
      · exact absurd ((h.singular hnot).mpr hothers) hsingular
      · exact hon.1.symm.trans henabled
    exact ⟨h.nodup, hregistered, on, hon, fun _ => henabled, fun _ => hwanted⟩

theorem releaseLocked_follows (h : Follows r) (hfile : r.phase file = .opened) {cmd : BitVec 16 → ℤ}
    (hcmd : ∀ opcode, cmd opcode = 0) (halone : Alone r (.releaseLocked file cmd)) :
    Follows (releaseLocked r file cmd) := by
  have hnot : r.phase file ≠ .closed := by rw [hfile]; decide
  have hregistered := registered_update (p := .closing) h.registered hnot (by decide)
  obtain ⟨on, hon, hused, -⟩ := h.tuner
  unfold releaseLocked
  split_ifs with hsingular
  · have hothers := (h.singular hnot).mp hsingular
    refine ⟨h.nodup, hregistered, false, wcnssFmDisable_off hcmd hon, ?_, nofun⟩
    rintro ⟨g, hg⟩
    by_cases hgf : g = file
    · rw [hgf] at hg
      exact absurd ((Function.update_self ..).symm.trans hg) (by decide)
    · have := (Function.update_of_ne hgf _ _).symm.trans hg
      exact absurd ((hothers g hgf).symm.trans this) (by decide)
  · -- not the last: another file wants the tuner on
    refine ⟨h.nodup, hregistered, on, hon, fun _ => hused ⟨file, hfile⟩, fun _ => ?_⟩
    rcases halone hfile with hothers | ⟨g, hg, hwanted⟩
    · exact absurd ((h.singular hnot).mpr hothers) hsingular
    · refine ⟨g, ?_⟩
      dsimp only
      rwa [Function.update_of_ne hg]

/-- The two steps on the list of handles leave the tuner alone. -/
theorem fhOpen_follows (h : Follows r) (hfile : r.phase file = .closed) (ret : ℤ) :
    Follows (v4l2FhOpen r file ret) := by
  unfold v4l2FhOpen
  split_ifs with hret
  · exact h
  · obtain ⟨on, hon, hused, hwanted⟩ := h.tuner
    refine ⟨List.nodup_cons.mpr ⟨fun hmem => (h.registered file).mp hmem hfile, h.nodup⟩, ?_, on, hon, ?_, ?_⟩
    · intro g
      dsimp only
      rw [List.mem_cons]
      by_cases hg : g = file
      · rw [hg, Function.update_self]
        exact iff_of_true (Or.inl rfl) (by decide)
      · rw [Function.update_of_ne hg, or_iff_right hg]
        exact h.registered g
    · intro hopen
      exact hused ((exists_phase_update (P := (· = .opened)) (by rw [hfile]; decide) (by decide)).mp hopen)
    · exact fun _ => ⟨file, Or.inr (Function.update_self ..)⟩

theorem fhRelease_follows (h : Follows r) (hfile : r.phase file = .closing) : Follows (v4l2FhRelease r file) := by
  obtain ⟨on, hon, hused, hwanted⟩ := h.tuner
  unfold v4l2FhRelease
  refine ⟨h.nodup.erase file, ?_, on, hon, ?_, ?_⟩
  · intro g
    dsimp only
    rw [h.nodup.mem_erase_iff, h.registered]
    by_cases hg : g = file
    · rw [hg]
      exact iff_of_false (fun hmem => hmem.1 rfl) (not_not.mpr (Function.update_self ..))
    · rw [and_iff_right hg, Function.update_of_ne hg]
  · intro hopen
    exact hused ((exists_phase_update (P := (· = .opened)) (by rw [hfile]; decide) (by decide)).mp hopen)
  · intro henabled
    exact (exists_phase_update (P := fun p => p = .opened ∨ p = .opening) (by rw [hfile]; decide)
      (by decide)).mpr (hwanted henabled)

theorem step_follows (h : Follows r) {s : Step} (hs : s.Succeeds) (halone : Alone r s) : Follows (step r s) := by
  cases s with
  | fhOpen file ret =>
      rw [step]
      split_ifs with hfile
      · exact fhOpen_follows h hfile ret
      · exact h
  | openLocked file cmd =>
      rw [step]
      split_ifs with hfile
      · exact openLocked_follows h hfile hs halone
      · exact h
  | releaseLocked file cmd =>
      rw [step]
      split_ifs with hfile
      · exact releaseLocked_follows h hfile hs halone
      · exact h
  | fhRelease file =>
      rw [step]
      split_ifs with hfile
      · exact fhRelease_follows h hfile
      · exact h

end

abbrev SuccessfulStep := { s : Step // s.Succeeds }

def SuccessfulStep.run (r : Radio) (s : SuccessfulStep) : Radio := step r s.1

/-- No open and no release is in progress. -/
def Radio.Quiet (r : Radio) : Prop := ∀ file, r.phase file = .closed ∨ r.phase file = .opened

/-- Between opens and releases, the tuner is on exactly while a file is open. -/
def OnWhileUsed (r : Radio) : Prop :=
  r.Quiet → (r.tuner.fm.enabled = true ↔ r.Used) ∧ (r.tuner.receiving = true ↔ r.Used)

theorem Follows.onWhileUsed {r : Radio} (h : Follows r) : OnWhileUsed r := by
  obtain ⟨on, ⟨henabled, hreceiving⟩, hused, hwanted⟩ := h.tuner
  intro hquiet
  have hiff : on = true ↔ r.Used := by
    refine ⟨fun hon => ?_, hused⟩
    obtain ⟨file, hopen | hopening⟩ := hwanted hon
    · exact ⟨file, hopen⟩
    · rcases hquiet file with h' | h' <;> exact absurd (hopening.symm.trans h') (by decide)
  rw [henabled, hreceiving]
  exact ⟨hiff, hiff⟩

/-- In every run in which each locked region that is not the first open or the last release has a
tuner to rely on, the tuner follows the files. -/
theorem alone_onWhileUsed {steps : List SuccessfulStep}
    (h : Always SuccessfulStep.run (fun r s => Alone r s.1) registerRadio steps) :
    OnWhileUsed (run SuccessfulStep.run registerRadio steps) := by
  apply Follows.onWhileUsed
  exact run_invariant (I := Follows) (fun r s hr hs => step_follows hr s.2 hs) registerRadio_follows h

/-- A step whose commands all succeed. -/
def opens (file : ℕ) : SuccessfulStep := ⟨.fhOpen file 0, trivial⟩

def locks (file : ℕ) : SuccessfulStep := ⟨.openLocked file fun _ => 0, fun _ => rfl⟩

/-- Two files opened one after the other. -/
theorem alone_onWhileUsed_two :
    OnWhileUsed (run SuccessfulStep.run registerRadio [opens 0, locks 0, opens 1, locks 1]) := by
  apply alone_onWhileUsed
  refine ⟨trivial, fun _ => Or.inl fun g hg => ?_, trivial, fun _ => Or.inr (by decide), trivial⟩
  exact Function.update_of_ne hg _ _

/-- Two files whose handles are registered before either takes the lock: neither is the first. -/
theorem two_openers_leave_it_off :
    ¬ ∀ steps : List SuccessfulStep, OnWhileUsed (run SuccessfulStep.run registerRadio steps) := by
  intro h
  have hquiet : (run SuccessfulStep.run registerRadio [opens 0, opens 1, locks 0, locks 1]).Quiet := by
    intro file
    match file with
    | 0 => exact Or.inr rfl
    | 1 => exact Or.inr rfl
    | file + 2 => exact Or.inl rfl
  have hon := (h _ hquiet).1.mpr ⟨0, rfl⟩
  exact absurd hon (by decide)

end Sirius.RadioFm
