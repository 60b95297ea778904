import Mathlib.Data.List.Basic

/-!
# Programs that talk to another party

A program asks one thing after another and the other party answers from a list. A program returns a value or fails; it
leaves the answers it has not used, and a transcript of what it did.
-/
namespace Dialog

/-- Programs over answers `A` with transcripts of `E` that may fail with `ε`. -/
structure Talk (A E ε α : Type) where
  run : List A → Except ε α × List A × List E

variable {A E ε ε' α β : Type}

instance : Monad (Talk A E ε) where
  pure a := ⟨fun as => (.ok a, as, [])⟩
  bind x f := ⟨fun as =>
    match x.run as with
    | (.ok a, as₁, es₁) =>
        let (r, as₂, es₂) := (f a).run as₁
        (r, as₂, es₁ ++ es₂)
    | (.error e, as₁, es₁) => (.error e, as₁, es₁)⟩

def fail (e : ε) : Talk A E ε α := ⟨fun as => (.error e, as, [])⟩

/-- Fails unless the condition holds. -/
def check (p : Prop) [Decidable p] (e : ε) : Talk A E ε Unit := if p then pure () else fail e

/-- What a program returns or fails with. -/
def attempt (x : Talk A E ε α) : Talk A E ε' (Except ε α) := ⟨fun as =>
  let (r, as', es) := x.run as
  (.ok r, as', es)⟩

section
variable {x : Talk A E ε α} {f : α → Talk A E ε β} {as as₁ as₂ : List A} {es₁ es₂ : List E}

@[simp] theorem run_pure (a : α) : (pure a : Talk A E ε α).run as = (.ok a, as, []) := rfl

@[simp] theorem run_fail (e : ε) : (fail e : Talk A E ε α).run as = (.error e, as, []) := rfl

theorem run_bind_ok {a : α} {r : Except ε β} (hx : x.run as = (.ok a, as₁, es₁))
    (hf : (f a).run as₁ = (r, as₂, es₂)) : (x >>= f).run as = (r, as₂, es₁ ++ es₂) := by
  simp only [Bind.bind, hx, hf]

theorem run_bind_error {e : ε} (hx : x.run as = (.error e, as₁, es₁)) :
    (x >>= f).run as = (.error e, as₁, es₁) := by
  simp only [Bind.bind, hx]

theorem run_attempt {r : Except ε α} (hx : x.run as = (r, as₁, es₁)) :
    (attempt x : Talk A E ε' _).run as = (.ok r, as₁, es₁) := by
  simp only [attempt, hx]

end

section
variable {x : Talk A E ε α} {f : α → Talk A E ε β} {as as' : List A} {es : List E}

theorem bind_eq_ok {b : β} (h : (x >>= f).run as = (.ok b, as', es)) :
    ∃ a as₁ es₁ es₂, x.run as = (.ok a, as₁, es₁) ∧ (f a).run as₁ = (.ok b, as', es₂) ∧ es = es₁ ++ es₂ := by
  rcases hx : x.run as with ⟨_ | a, as₁, es₁⟩
  · cases (run_bind_error hx).symm.trans h
  · rcases hf : (f a).run as₁ with ⟨r, as₂, es₂⟩
    cases (run_bind_ok hx hf).symm.trans h
    exact ⟨a, as₁, es₁, es₂, rfl, hf, rfl⟩

theorem pure_eq_ok {a b : α} (h : (pure a : Talk A E ε α).run as = (.ok b, as', es)) :
    a = b ∧ as = as' ∧ es = [] := by
  cases h
  exact ⟨rfl, rfl, rfl⟩

theorem check_eq_ok {p : Prop} [Decidable p] {e : ε} {u : Unit} (h : (check p e).run as = (.ok u, as', es)) :
    p ∧ as = as' ∧ es = [] := by
  unfold check at h
  split at h
  · rename_i hp
    exact ⟨hp, (pure_eq_ok h).2⟩
  · cases h

theorem check_bind_eq_ok {p : Prop} [Decidable p] {e : ε} {f : Unit → Talk A E ε β} {b : β}
    (h : (check p e >>= f).run as = (.ok b, as', es)) : p ∧ (f ()).run as = (.ok b, as', es) := by
  obtain ⟨u, as₁, es₁, es₂, hcheck, hrest, rfl⟩ := bind_eq_ok h
  obtain ⟨hp, rfl, rfl⟩ := check_eq_ok hcheck
  exact ⟨hp, hrest⟩

theorem attempt_eq_ok {r : Except ε α} (h : (attempt x : Talk A E ε' _).run as = (.ok r, as', es)) :
    x.run as = (r, as', es) := by
  rcases hx : x.run as with ⟨r', as₁, es₁⟩
  cases (run_attempt hx).symm.trans h
  rfl

end

/-- The program's transcripts are of `P` only, whether it returns or fails. -/
def Only (P : E → Prop) (x : Talk A E ε α) : Prop := ∀ as, ∀ e ∈ (x.run as).2.2, P e

section
variable {P : E → Prop} {x : Talk A E ε α} {f : α → Talk A E ε β}

theorem Only.pure (a : α) : Only P (pure a : Talk A E ε α) := fun _ _ h => absurd h List.not_mem_nil

theorem Only.fail (e : ε) : Only P (fail e : Talk A E ε α) := fun _ _ h => absurd h List.not_mem_nil

theorem Only.bind (hx : Only P x) (hf : ∀ a, Only P (f a)) : Only P (x >>= f) := by
  intro as e he
  have hxas := hx as
  rcases hrun : x.run as with ⟨_ | a, as₁, es₁⟩
  · rw [hrun] at hxas
    rw [run_bind_error hrun] at he
    exact hxas e he
  · rw [hrun] at hxas
    have hfas := hf a as₁
    rcases hrest : (f a).run as₁ with ⟨r, as₂, es₂⟩
    rw [hrest] at hfas
    rw [run_bind_ok hrun hrest] at he
    exact (List.mem_append.mp he).elim (hxas e) (hfas e)

theorem Only.check (p : Prop) [Decidable p] (e : ε) : Only P (check p e : Talk A E ε Unit) := by
  unfold Dialog.check
  split
  · exact Only.pure ()
  · exact Only.fail e

/-- What comes after a check may use it. -/
theorem Only.check_bind {p : Prop} [Decidable p] {e : ε} {f : Unit → Talk A E ε β} (hf : p → Only P (f ())) :
    Only P (Dialog.check p e >>= f) := by
  unfold Dialog.check
  by_cases hp : p
  · rw [if_pos hp]
    exact Only.bind (Only.pure ()) fun _ => hf hp
  · rw [if_neg hp]
    intro as b hb
    rw [run_bind_error (run_fail e)] at hb
    exact absurd hb List.not_mem_nil

theorem Only.attempt (hx : Only P x) : Only P (attempt x : Talk A E ε' _) := fun as e he => hx as e he

end

/-- Some answers, whatever comes after them, make the program return `a`, with a transcript of `P` only. -/
def CanReturn (P : E → Prop) (x : Talk A E ε α) (a : α) : Prop :=
  ∃ as es, (∀ rest, x.run (as ++ rest) = (.ok a, rest, es)) ∧ ∀ e ∈ es, P e

section
variable {P : E → Prop} {x : Talk A E ε α} {f : α → Talk A E ε β} {a : α} {b : β}

theorem CanReturn.pure (a : α) : CanReturn P (pure a : Talk A E ε α) a :=
  ⟨[], [], fun _ => rfl, fun _ h => absurd h List.not_mem_nil⟩

theorem CanReturn.bind (hx : CanReturn P x a) (hf : CanReturn P (f a) b) : CanReturn P (x >>= f) b := by
  obtain ⟨as₁, es₁, hx, hes₁⟩ := hx
  obtain ⟨as₂, es₂, hf, hes₂⟩ := hf
  refine ⟨as₁ ++ as₂, es₁ ++ es₂, fun rest => ?_, fun e he => ?_⟩
  · rw [List.append_assoc]
    exact run_bind_ok (hx (as₂ ++ rest)) (hf rest)
  · exact (List.mem_append.mp he).elim (hes₁ e) (hes₂ e)

theorem CanReturn.check {p : Prop} [Decidable p] (hp : p) (e : ε) :
    CanReturn P (check p e : Talk A E ε Unit) () := by
  unfold Dialog.check
  rw [if_pos hp]
  exact CanReturn.pure ()

theorem CanReturn.attempt (hx : CanReturn P x a) : CanReturn P (attempt x : Talk A E ε' _) (.ok a) := by
  obtain ⟨as, es, hx, hes⟩ := hx
  exact ⟨as, es, fun rest => run_attempt (hx rest), hes⟩

end

end Dialog
