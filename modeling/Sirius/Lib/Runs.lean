import Mathlib.Data.List.Basic

/-!
# Runs of a state machine

A run is a list of actions applied one after another. A property of its steps speaks of
the state before an action and the action; conditions on the steps of a run and what
they guarantee are both such properties.
-/
namespace Runs

variable {σ α : Type*} (step : σ → α → σ)

def run (s : σ) (as : List α) : σ := as.foldl step s

def Always (P : σ → α → Prop) : σ → List α → Prop
  | _, [] => True
  | s, a :: as => P s a ∧ Always P (step s a) as

variable {step}

theorem always_append {P : σ → α → Prop} {s : σ} {as bs : List α} :
    Always step P s (as ++ bs) ↔ Always step P s as ∧ Always step P (run step s as) bs := by
  induction as generalizing s with
  | nil => exact (and_iff_right trivial).symm
  | cons a as ih => exact (and_congr_right fun _ => ih).trans and_assoc.symm

theorem always_of_forall {Q : α → Prop} {as : List α} (h : ∀ a ∈ as, Q a) (s : σ) :
    Always step (fun _ a => Q a) s as := by
  induction as generalizing s with
  | nil => trivial
  | cons a as ih => exact ⟨h a List.mem_cons_self, ih (fun b hb => h b (List.mem_cons_of_mem a hb)) (step s a)⟩

section
variable {I : σ → Prop} {C P : σ → α → Prop}

/-- An invariant that the permitted steps keep holds at the end of every permitted run. -/
theorem run_invariant (hstep : ∀ s a, I s → C s a → I (step s a)) {s : σ} (hs : I s) {as : List α}
    (h : Always step C s as) : I (run step s as) := by
  induction as generalizing s with
  | nil => exact hs
  | cons a as ih => exact ih (hstep s a hs h.1) h.2

theorem run_keeps (hstep : ∀ s a, I s → I (step s a)) {s : σ} (hs : I s) (as : List α) : I (run step s as) := by
  induction as generalizing s with
  | nil => exact hs
  | cons a as ih => exact ih (hstep s a hs)

/-- A property of the permitted steps from invariant states holds of every step of a permitted run. -/
theorem always_of_invariant (hstep : ∀ s a, I s → C s a → I (step s a))
    (hP : ∀ s a, I s → C s a → P s a) {s : σ} (hs : I s) {as : List α} (h : Always step C s as) :
    Always step P s as := by
  induction as generalizing s with
  | nil => trivial
  | cons a as ih => exact ⟨hP s a hs h.1, ih (hstep s a hs h.1) h.2⟩

/-- Where a property of a step and a condition on it agree on invariant states, they agree on runs. -/
theorem always_iff_of_invariant (hstep : ∀ s a, I s → C s a → I (step s a))
    (hP : ∀ s a, I s → (P s a ↔ C s a)) {s : σ} (hs : I s) {as : List α} :
    Always step P s as ↔ Always step C s as := by
  induction as generalizing s with
  | nil => exact Iff.rfl
  | cons a as ih =>
      rw [Always, Always, hP s a hs]
      exact and_congr_right fun hC => ih (hstep s a hs hC)

end

section
variable {τ β : Type*} {step' : τ → α → τ} {out : σ → α → β} {out' : τ → α → β} {R : σ → τ → Prop}

variable (step out) in
/-- What each step of a run puts out. -/
def outputs : σ → List α → List β
  | _, [] => []
  | s, a :: as => out s a :: outputs (step s a) as

/-- What holds of all that is put out holds of every step, and the other way round. -/
theorem forall_mem_outputs {Q : β → Prop} {s : σ} {as : List α} :
    (∀ b ∈ outputs step out s as, Q b) ↔ Always step (fun s a => Q (out s a)) s as := by
  induction as generalizing s with
  | nil => simp [outputs, Always]
  | cons a as ih => rw [outputs, List.forall_mem_cons, ih, Always]

theorem run_simulation (hstep : ∀ s t a, R s t → R (step s a) (step' t a)) {s : σ} {t : τ} (h : R s t) (as : List α) :
    R (run step s as) (run step' t as) := by
  induction as generalizing s t with
  | nil => exact h
  | cons a as ih => exact ih (hstep s t a h)

/-- Two machines put out the same if related states do and their steps keep them related. -/
theorem outputs_eq_of_simulation (hout : ∀ s t a, R s t → out s a = out' t a)
    (hstep : ∀ s t a, R s t → R (step s a) (step' t a)) {s : σ} {t : τ} (h : R s t) (as : List α) :
    outputs step out s as = outputs step' out' t as := by
  induction as generalizing s t with
  | nil => rfl
  | cons a as ih => rw [outputs, outputs, hout s t a h, ih (hstep s t a h)]

end

section
variable {β : Type*} {step' : σ → α → σ} {out out' : σ → α → β}

/-- Two machines on the same states show the same exactly where every step of a run is the same for both. -/
theorem outputs_eq_iff_always {s : σ} {as : List α} :
    outputs step (fun s a => (step s a, out s a)) s as = outputs step' (fun s a => (step' s a, out' s a)) s as ↔
      Always step (fun s a => step s a = step' s a ∧ out s a = out' s a) s as := by
  induction as generalizing s with
  | nil => exact iff_of_true rfl trivial
  | cons a as ih =>
      rw [outputs, outputs, List.cons_eq_cons, Prod.mk.injEq, Always]
      refine and_congr_right fun hsame => ?_
      rw [← hsame.1]
      exact ih

end
end Runs
