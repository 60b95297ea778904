import Mathlib.Data.Int.Order.Basic

/-!
# Controls with ranges

Values asked for are clamped, a setter of the device is called where that changes the control, and the change is made
permanent unless the setter refuses. Setters may change the range of another control.
-/
namespace Controls

/-- `val` is what the setter reads, `cur` what is permanent. -/
structure Control where
  minimum : ℤ
  maximum : ℤ
  defaultValue : ℤ
  val : ℤ
  cur : ℤ
  readOnly : Bool
  deriving DecidableEq, Repr

def Control.clamp (c : Control) (v : ℤ) : ℤ := max c.minimum (min v c.maximum)

structure Handler (ι σ : Type) where
  ctrl : ι → Control
  dev : σ

/-- An error number, zero for none. -/
abbrev Setter (ι σ : Type) := ι → Handler ι σ → ℤ × Handler ι σ

variable {ι σ : Type} [DecidableEq ι]

namespace Handler
variable (h : Handler ι σ) (i : ι)

def put (c : Control) : Handler ι σ := { h with ctrl := fun j => if j = i then c else h.ctrl j }

def setNew (v : ℤ) : Handler ι σ := h.put i { h.ctrl i with val := v }

def setRange (minimum maximum defaultValue : ℤ) : Handler ι σ :=
  h.put i { h.ctrl i with minimum, maximum, defaultValue }

def commit : Handler ι σ := h.put i { h.ctrl i with cur := (h.ctrl i).val }

end Handler

@[simp] def EACCES : ℤ := 13
@[simp] def ERANGE : ℤ := 34

section
variable (set : Setter ι σ)

/-- Nothing to do where the clamped value is the permanent one. -/
def request (i : ι) (v : ℤ) (h : Handler ι σ) : ℤ × Handler ι σ :=
  let h := h.setNew i ((h.ctrl i).clamp v)
  if (h.ctrl i).val = (h.ctrl i).cur then (0, h)
  else
    let (ret, h) := set i h
    if ret ≠ 0 then (ret, h) else (0, h.commit i)

/-- A write from outside. -/
def write (i : ι) (v : ℤ) (h : Handler ι σ) : ℤ × Handler ι σ :=
  if (h.ctrl i).readOnly then (- EACCES, h) else request set i v h

/-- A value that falls out of the new range is brought back into it, through the setter. -/
def modifyRange (i : ι) (minimum maximum defaultValue : ℤ) (h : Handler ι σ) : ℤ × Handler ι σ :=
  if maximum < minimum ∨ defaultValue < minimum ∨ maximum < defaultValue then (- ERANGE, h)
  else
    let h := h.setRange i minimum maximum defaultValue
    request set i (h.ctrl i).cur h

/-- All setters in order, with the permanent values. -/
def setup : List ι → Handler ι σ → ℤ × Handler ι σ
  | [], h => (0, h)
  | i :: is, h =>
      if (h.ctrl i).readOnly then setup is h
      else
        let (ret, h) := set i (h.setNew i (h.ctrl i).cur)
        if ret ≠ 0 then (ret, h) else setup is h

end

section
variable {h : Handler ι σ} {i j : ι}

@[simp] theorem put_dev (c : Control) : (h.put i c).dev = h.dev := rfl

@[simp] theorem put_self (c : Control) : (h.put i c).ctrl i = c := if_pos rfl

/-- A part of the controls that the new one has in common with the old one. -/
theorem put_of_eq {β : Type} (f : Control → β) {c : Control} (hc : f c = f (h.ctrl i)) :
    f ((h.put i c).ctrl j) = f (h.ctrl j) := by
  unfold Handler.put
  dsimp only
  split
  · rename_i hij
    rw [hc, hij]
  · rfl

theorem put_ne (hij : j ≠ i) (c : Control) : (h.put i c).ctrl j = h.ctrl j := if_neg hij

@[simp] theorem setNew_dev (v : ℤ) : (h.setNew i v).dev = h.dev := rfl

@[simp] theorem setNew_self (v : ℤ) : (h.setNew i v).ctrl i = { h.ctrl i with val := v } := put_self _

theorem setNew_ne (hij : j ≠ i) (v : ℤ) : (h.setNew i v).ctrl j = h.ctrl j := put_ne hij _

@[simp] theorem setNew_minimum (v : ℤ) : ((h.setNew i v).ctrl j).minimum = (h.ctrl j).minimum :=
  put_of_eq (·.minimum) rfl

@[simp] theorem setNew_maximum (v : ℤ) : ((h.setNew i v).ctrl j).maximum = (h.ctrl j).maximum :=
  put_of_eq (·.maximum) rfl

@[simp] theorem setNew_cur (v : ℤ) : ((h.setNew i v).ctrl j).cur = (h.ctrl j).cur :=
  put_of_eq (·.cur) rfl

@[simp] theorem setNew_readOnly (v : ℤ) : ((h.setNew i v).ctrl j).readOnly = (h.ctrl j).readOnly :=
  put_of_eq (·.readOnly) rfl

@[simp] theorem setRange_dev (minimum maximum defaultValue : ℤ) :
    (h.setRange i minimum maximum defaultValue).dev = h.dev := rfl

@[simp] theorem setRange_self (minimum maximum defaultValue : ℤ) :
    (h.setRange i minimum maximum defaultValue).ctrl i = { h.ctrl i with minimum, maximum, defaultValue } := put_self _

theorem setRange_ne (hij : j ≠ i) (minimum maximum defaultValue : ℤ) :
    (h.setRange i minimum maximum defaultValue).ctrl j = h.ctrl j := put_ne hij _

@[simp] theorem commit_dev : (h.commit i).dev = h.dev := rfl

@[simp] theorem commit_self : (h.commit i).ctrl i = { h.ctrl i with cur := (h.ctrl i).val } := put_self _

@[simp] theorem commit_minimum : ((h.commit i).ctrl j).minimum = (h.ctrl j).minimum :=
  put_of_eq (·.minimum) rfl

@[simp] theorem commit_maximum : ((h.commit i).ctrl j).maximum = (h.ctrl j).maximum :=
  put_of_eq (·.maximum) rfl

@[simp] theorem commit_val : ((h.commit i).ctrl j).val = (h.ctrl j).val :=
  put_of_eq (·.val) rfl

@[simp] theorem commit_readOnly : ((h.commit i).ctrl j).readOnly = (h.ctrl j).readOnly :=
  put_of_eq (·.readOnly) rfl

theorem commit_ne (hij : j ≠ i) : (h.commit i).ctrl j = h.ctrl j := put_ne hij _

end

section
variable {c : Control}

theorem Control.clamp_bounds (h : c.minimum ≤ c.maximum) (v : ℤ) : c.minimum ≤ c.clamp v ∧ c.clamp v ≤ c.maximum := by
  unfold clamp
  omega

end

section
variable {set : Setter ι σ} {i : ι} {h : Handler ι σ}

/-- What a request for a value comes to. -/
inductive Requested (set : Setter ι σ) (i : ι) (v : ℤ) (h : Handler ι σ) : ℤ × Handler ι σ → Prop
  | unchanged (hv : (h.ctrl i).clamp v = (h.ctrl i).cur) : Requested set i v h (0, h.setNew i (h.ctrl i).cur)
  | refused (ret : ℤ) (h' : Handler ι σ) (hv : (h.ctrl i).clamp v ≠ (h.ctrl i).cur) (hret : ret ≠ 0)
      (hset : set i (h.setNew i ((h.ctrl i).clamp v)) = (ret, h')) : Requested set i v h (ret, h')
  | committed (h' : Handler ι σ) (hv : (h.ctrl i).clamp v ≠ (h.ctrl i).cur)
      (hset : set i (h.setNew i ((h.ctrl i).clamp v)) = (0, h')) : Requested set i v h (0, h'.commit i)

theorem requested_request (set : Setter ι σ) (i : ι) (v : ℤ) (h : Handler ι σ) :
    Requested set i v h (request set i v h) := by
  unfold request
  simp only [setNew_self]
  split
  · rename_i hv
    rw [hv]
    exact .unchanged hv
  · rename_i hv
    rcases hset : set i (h.setNew i ((h.ctrl i).clamp v)) with ⟨ret, h'⟩
    by_cases hret : ret = 0
    · subst hret
      exact .committed h' hv hset
    · dsimp only
      rw [if_pos hret]
      exact .refused ret h' hv hret hset

/-- What the setter and making permanent keep is kept by a request. -/
theorem request_frame {P : Handler ι σ → Prop} {v : ℤ} (hnew : P (h.setNew i ((h.ctrl i).clamp v)))
    (hset : ∀ h, P h → P (set i h).2) (hcommit : ∀ h, P h → P (h.commit i)) : P (request set i v h).2 := by
  have hcall := hset _ hnew
  have hrequested := requested_request set i v h
  generalize request set i v h = r at hrequested
  cases hrequested with
  | unchanged hv =>
      rw [hv] at hnew
      exact hnew
  | refused ret h' hv hret hset' =>
      rw [hset'] at hcall
      exact hcall
  | committed h' hv hset' =>
      rw [hset'] at hcall
      exact hcommit _ hcall

/-- A request calls the setter of its control only. -/
theorem request_congr {set' : Setter ι σ} (hset : ∀ h, set i h = set' i h) (v : ℤ) :
    request set i v h = request set' i v h := by
  unfold request
  dsimp only
  rw [hset]

theorem modifyRange_of_valid {minimum maximum defaultValue : ℤ}
    (hrange : minimum ≤ defaultValue ∧ defaultValue ≤ maximum) :
    modifyRange set i minimum maximum defaultValue h =
      request set i (h.ctrl i).cur (h.setRange i minimum maximum defaultValue) := by
  have hvalid : ¬(maximum < minimum ∨ defaultValue < minimum ∨ maximum < defaultValue) := by omega
  rw [modifyRange, if_neg hvalid]
  dsimp only
  rw [setRange_self]

/-- What every setter keeps is kept by all of them. -/
theorem setup_keeps {P : Handler ι σ → Prop} (hset : ∀ i h, P h → P (set i (h.setNew i (h.ctrl i).cur)).2)
    (hs : P h) (is : List ι) : P (setup set is h).2 := by
  induction is generalizing h with
  | nil => exact hs
  | cons i is ih =>
      have hcall := hset i h hs
      unfold setup
      dsimp only
      split
      · exact ih hs
      · split
        · exact hcall
        · exact ih hcall

/-- What one setter brings about and all of them keep holds after all of them. -/
theorem setup_establishes {P Q : Handler ι σ → Prop} (hP : ∀ j h, P h → P (set j (h.setNew j (h.ctrl j).cur)).2)
    (hQ : ∀ j h, P h → Q h → Q (set j (h.setNew j (h.ctrl j).cur)).2)
    (hi : ∀ h, P h → (h.ctrl i).readOnly = false)
    (hset : ∀ h h', P h → set i (h.setNew i (h.ctrl i).cur) = (0, h') → Q h') (hs : P h) {is : List ι} (hmem : i ∈ is)
    (hok : (setup set is h).1 = 0) : Q (setup set is h).2 := by
  induction is generalizing h with
  | nil => cases hmem
  | cons j is ih =>
      have hcall := hP j h hs
      have hestablished := hset h
      unfold setup at hok ⊢
      dsimp only at hok ⊢
      split at hok
      · rename_i hro
        rw [if_pos hro]
        rcases List.mem_cons.mp hmem with rfl | hmem
        · cases hro.symm.trans (hi h hs)
        · exact ih hs hmem hok
      · rename_i hro
        rw [if_neg hro]
        split at hok
        · rename_i hret
          exact absurd hok hret
        · rename_i hret
          rw [if_neg hret]
          rcases List.mem_cons.mp hmem with rfl | hmem
          · have hboth := hestablished _ hs (Prod.ext (Decidable.not_not.mp hret) rfl)
            exact (setup_keeps (P := fun h => P h ∧ Q h) (fun j h hPQ => ⟨hP j h hPQ.1, hQ j h hPQ.1 hPQ.2⟩)
              ⟨hcall, hboth⟩ is).2
          · exact ih hcall hmem hok

theorem setup_cons (i : ι) (is : List ι) (h : Handler ι σ) :
    setup set (i :: is) h =
      if (h.ctrl i).readOnly then setup set is h
      else if (set i (h.setNew i (h.ctrl i).cur)).1 ≠ 0 then set i (h.setNew i (h.ctrl i).cur)
      else setup set is (set i (h.setNew i (h.ctrl i).cur)).2 := rfl

theorem setup_append (is js : List ι) (h : Handler ι σ) :
    setup set (is ++ js) h =
      if (setup set is h).1 ≠ 0 then setup set is h else setup set js (setup set is h).2 := by
  induction is generalizing h with
  | nil => rfl
  | cons i is ih =>
      rw [List.cons_append, setup_cons, setup_cons]
      split
      · exact ih h
      · split
        · rfl
        · exact ih _

/-- A setup that succeeds has begun with a setter that did. -/
theorem setup_cons_ok {is : List ι} (hro : (h.ctrl i).readOnly = false) (hok : (setup set (i :: is) h).1 = 0) :
    ∃ h', set i (h.setNew i (h.ctrl i).cur) = (0, h') ∧ setup set (i :: is) h = setup set is h' := by
  rw [setup_cons, hro, if_neg Bool.false_ne_true] at hok ⊢
  split at hok
  · rename_i hret
    exact absurd hok hret
  · rename_i hret
    rw [if_neg hret]
    exact ⟨_, Prod.ext (not_not.mp hret) rfl, rfl⟩

end
end Controls
