import Mathlib.Logic.Function.Basic
import Mathlib.Data.Nat.Basic

/-!
# Counted objects behind shared slots

The owner of an object enters it in the slot of its key; whoever finds it there may borrow a
reference. The owner takes it out of the slot before it drops its own reference, and the
last reference to go frees the object.
-/
namespace SharedSlots

variable {κ : Type*}

inductive Stage
  | fresh
  | resident
  | retired
  | gone
  | refused
  deriving DecidableEq, Repr

structure Obj (κ : Type*) where
  key : κ
  refs : ℕ
  stage : Stage
  freed : ℕ

/-- `borrowed i` counts the references to object `i` that are out. -/
structure Table (κ : Type*) where
  slots : κ → Option ℕ
  heap : ℕ → Option (Obj κ)
  next : ℕ
  borrowed : ℕ → ℕ

def empty : Table κ := ⟨fun _ => none, fun _ => none, 0, fun _ => 0⟩

/-- One reference less; the last one frees the object. -/
def Obj.release (o : Obj κ) : Obj κ :=
  { o with refs := o.refs - 1, freed := if o.refs = 1 then o.freed + 1 else o.freed }

def Table.set (t : Table κ) (i : ℕ) (o : Obj κ) : Table κ :=
  { t with heap := Function.update t.heap i (some o) }

inductive Step [DecidableEq κ] : Table κ → Table κ → Prop
  | alloc (t : Table κ) (k : κ) : Step t { t.set t.next ⟨k, 1, .fresh, 0⟩ with next := t.next + 1 }
  | enter {t : Table κ} {i : ℕ} {o : Obj κ} (h : t.heap i = some o) (hs : o.stage = .fresh)
      (hslot : t.slots o.key = none) :
      Step t { t.set i { o with stage := .resident } with slots := Function.update t.slots o.key (some i) }
  | refuse {t : Table κ} {i j : ℕ} {o : Obj κ} (h : t.heap i = some o) (hs : o.stage = .fresh)
      (hslot : t.slots o.key = some j) : Step t (t.set i { o with stage := .refused, freed := o.freed + 1 })
  | retire {t : Table κ} {i : ℕ} {o : Obj κ} (h : t.heap i = some o) (hs : o.stage = .resident) :
      Step t { t.set i { o with stage := .retired } with
        slots := if t.slots o.key = some i then Function.update t.slots o.key none else t.slots }
  | drop {t : Table κ} {i : ℕ} {o : Obj κ} (h : t.heap i = some o) (hs : o.stage = .retired) :
      Step t (t.set i { o.release with stage := .gone })
  | borrow {t : Table κ} {i : ℕ} {o : Obj κ} {k : κ} (hslot : t.slots k = some i) (h : t.heap i = some o) :
      Step t { t.set i { o with refs := o.refs + 1 } with
        borrowed := Function.update t.borrowed i (t.borrowed i + 1) }
  | giveBack {t : Table κ} {i : ℕ} {o : Obj κ} (h : t.heap i = some o) (hb : t.borrowed i ≠ 0) :
      Step t { t.set i o.release with borrowed := Function.update t.borrowed i (t.borrowed i - 1) }

/-- The owner still has its reference. -/
def Stage.owned : Stage → Bool
  | .fresh | .resident | .retired => true
  | .gone | .refused => false

/-- The references of an object of which `n` are borrowed, by its stage. -/
def Obj.Counted (o : Obj κ) (n : ℕ) : Prop :=
  match o.stage with
  | .fresh => n = 0 ∧ o.refs = 1 ∧ o.freed = 0
  | .resident | .retired => o.refs = n + 1 ∧ o.freed = 0
  | .gone => o.refs = n ∧ o.freed = if n = 0 then 1 else 0
  | .refused => n = 0 ∧ o.freed = 1

/-- The owner drops its reference while `n` are borrowed. -/
theorem release_gone {o : Obj κ} {n : ℕ} (hrefs : o.refs = n + 1) (hfreed : o.freed = 0) :
    { o.release with stage := .gone }.Counted n := by
  refine ⟨congrArg (· - 1) hrefs, ?_⟩
  change (if o.refs = 1 then o.freed + 1 else o.freed) = _
  rw [hfreed, hrefs]
  cases n with
  | zero => rfl
  | succ n => exact if_neg (by simp)

/-- A borrowed reference is given back. -/
theorem Obj.Counted.release {o : Obj κ} {n : ℕ} (hc : o.Counted (n + 1)) : o.release.Counted n := by
  have hlast : ∀ {m : ℕ}, o.refs = m + 2 → o.release.freed = o.freed := fun h => if_neg (by simp [h])
  cases hs : o.stage with
  | fresh | refused =>
      simp only [Obj.Counted, hs] at hc
      exact absurd hc.1 (Nat.succ_ne_zero n)
  | resident | retired =>
      simp only [Obj.Counted, hs] at hc
      have hc' : o.release.refs = n + 1 ∧ o.release.freed = 0 :=
        ⟨congrArg (· - 1) hc.1, (hlast hc.1).trans hc.2⟩
      simpa only [Obj.Counted, Obj.release, hs] using hc'
  | gone =>
      simp only [Obj.Counted, hs] at hc
      rw [if_neg (Nat.succ_ne_zero n)] at hc
      have hgone := release_gone hc.1 hc.2
      simpa only [Obj.Counted, Obj.release, hs] using hgone

/-- One reference for the owner, the others borrowed; freed once when there are none. -/
theorem Obj.Counted.total {o : Obj κ} {n : ℕ} (hc : o.Counted n) :
    (o.freed = 0 → o.refs = (if o.stage.owned then 1 else 0) + n) ∧
      o.freed = if o.stage.owned ∨ n ≠ 0 then 0 else 1 := by
  cases hs : o.stage with
  | fresh =>
      simp only [Obj.Counted, hs] at hc
      obtain ⟨rfl, hrefs, hfreed⟩ := hc
      exact ⟨fun _ => hrefs, hfreed⟩
  | resident | retired =>
      simp only [Obj.Counted, hs] at hc
      obtain ⟨hrefs, hfreed⟩ := hc
      exact ⟨fun _ => hrefs.trans (Nat.add_comm n 1), hfreed.trans (if_pos (Or.inl rfl)).symm⟩
  | gone =>
      simp only [Obj.Counted, hs] at hc
      obtain ⟨hrefs, hfreed⟩ := hc
      refine ⟨fun _ => hrefs.trans (Nat.zero_add n).symm, ?_⟩
      rw [hfreed]
      cases n with
      | zero => rfl
      | succ n => rfl
  | refused =>
      simp only [Obj.Counted, hs] at hc
      obtain ⟨rfl, hfreed⟩ := hc
      exact ⟨fun h => absurd (h.symm.trans hfreed) (by decide), hfreed⟩

structure Inv (t : Table κ) : Prop where
  unallocated : ∀ i, t.next ≤ i → t.heap i = none
  slot : ∀ k i, t.slots k = some i ↔ ∃ o, t.heap i = some o ∧ o.key = k ∧ o.stage = .resident
  counted : ∀ i o, t.heap i = some o → o.Counted (t.borrowed i)
  unborrowed : ∀ i, t.heap i = none → t.borrowed i = 0

theorem empty_inv : Inv (empty : Table κ) := by
  refine ⟨fun _ _ => rfl, fun k i => ⟨nofun, ?_⟩, nofun, fun _ _ => rfl⟩
  rintro ⟨o, h, -⟩
  cases h

@[simp] theorem set_self (t : Table κ) (i : ℕ) (o : Obj κ) : (t.set i o).heap i = some o :=
  Function.update_self ..

theorem set_ne (t : Table κ) {i j : ℕ} (hj : j ≠ i) (o : Obj κ) : (t.set i o).heap j = t.heap j :=
  Function.update_of_ne hj ..

/-- The object is in the slot of the key, as the heap has it. -/
def Table.Resides (t : Table κ) (k : κ) (i : ℕ) : Prop :=
  ∃ o, t.heap i = some o ∧ o.key = k ∧ o.stage = .resident

theorem resides_iff {t : Table κ} {i : ℕ} {o : Obj κ} (h : t.heap i = some o) (k : κ) :
    t.Resides k i ↔ o.key = k ∧ o.stage = .resident := by
  constructor
  · rintro ⟨o', h', hk⟩
    rw [h] at h'
    cases h'
    exact hk
  · exact fun hk => ⟨o, h, hk⟩

theorem resides_ne (t : Table κ) {i j : ℕ} (hj : j ≠ i) (o : Obj κ) (k : κ) :
    (t.set i o).Resides k j ↔ t.Resides k j := by
  unfold Table.Resides
  rw [set_ne t hj]

/-- A key has at most one resident. -/
theorem Inv.resident_unique {t : Table κ} (hi : Inv t) {k : κ} {i j : ℕ} (h : t.Resides k i)
    (h' : t.Resides k j) : i = j :=
  Option.some.inj (((hi.slot k i).mpr h).symm.trans ((hi.slot k j).mpr h'))

section
variable {t : Table κ} (hi : Inv t) {i n : ℕ} {o o' : Obj κ}

include hi in
theorem unallocated_set (h : t.heap i = some o) (j : ℕ) (hj : t.next ≤ j) : (t.set i o').heap j = none := by
  have hne : j ≠ i := by
    rintro rfl
    rw [hi.unallocated j hj] at h
    cases h
  rw [set_ne t hne]
  exact hi.unallocated j hj

include hi in
theorem counted_set (hc : o'.Counted n) (j : ℕ) (o : Obj κ) (hj : (t.set i o').heap j = some o) :
    o.Counted (Function.update t.borrowed i n j) := by
  by_cases hji : j = i
  · rw [hji, set_self] at hj
    cases hj
    rw [hji, Function.update_self]
    exact hc
  · rw [set_ne t hji] at hj
    rw [Function.update_of_ne hji]
    exact hi.counted j o hj

include hi in
theorem unborrowed_set (j : ℕ) (hj : (t.set i o').heap j = none) : Function.update t.borrowed i n j = 0 := by
  have hne : j ≠ i := by
    rintro rfl
    rw [set_self] at hj
    cases hj
  rw [set_ne t hne] at hj
  rw [Function.update_of_ne hne]
  exact hi.unborrowed j hj

include hi in
/-- One object changes where it is, together with what is borrowed of it. -/
theorem Inv.set (h : t.heap i = some o) (hc : o'.Counted n) (hkey : o'.key = o.key)
    (hstage : o'.stage = .resident ↔ o.stage = .resident) :
    Inv { t.set i o' with borrowed := Function.update t.borrowed i n } := by
  refine ⟨unallocated_set hi h, ?_, counted_set hi hc, unborrowed_set hi⟩
  intro k j
  refine (hi.slot k j).trans ?_
  by_cases hj : j = i
  · subst hj
    exact (resides_iff h k).trans ((by rw [hkey, hstage] : _ ↔ _).trans (resides_iff (set_self t j o') k).symm)
  · exact (resides_ne t hj o' k).symm

end

/-- What is borrowed of the object stays as it is. -/
theorem Inv.set_same {t : Table κ} (hi : Inv t) {i : ℕ} {o o' : Obj κ} (h : t.heap i = some o)
    (hc : o'.Counted (t.borrowed i)) (hkey : o'.key = o.key)
    (hstage : o'.stage = .resident ↔ o.stage = .resident) : Inv (t.set i o') := by
  have hset := hi.set h hc hkey hstage
  rw [Function.update_eq_self] at hset
  exact hset

theorem counted_same {t : Table κ} (hi : Inv t) {i : ℕ} {o' : Obj κ} (hc : o'.Counted (t.borrowed i)) (j : ℕ)
    (o : Obj κ) (hj : (t.set i o').heap j = some o) : o.Counted (t.borrowed j) := by
  have hset := counted_set hi hc j o hj
  rw [Function.update_eq_self] at hset
  exact hset

theorem alloc_inv {t : Table κ} (hi : Inv t) (k : κ) :
    Inv { t.set t.next ⟨k, 1, .fresh, 0⟩ with next := t.next + 1 } := by
  have hnone : t.heap t.next = none := hi.unallocated _ le_rfl
  constructor
  case unallocated =>
    intro j hj
    exact (set_ne t (Nat.ne_of_gt hj) _).trans (hi.unallocated j (Nat.le_of_lt hj))
  case slot =>
    intro k' j
    refine (hi.slot k' j).trans ?_
    by_cases hj : j = t.next
    · subst hj
      constructor
      · rintro ⟨o, h, -⟩
        rw [hnone] at h
        cases h
      · intro h
        exact absurd ((resides_iff (set_self t _ _) k').mp h).2 nofun
    · exact (resides_ne t hj _ k').symm
  case counted => exact counted_same hi ⟨hi.unborrowed _ hnone, rfl, rfl⟩
  case unborrowed =>
    intro j hj
    have hne : j ≠ t.next := by
      rintro rfl
      exact absurd ((set_self t t.next _).symm.trans hj) nofun
    exact hi.unborrowed j ((set_ne t hne _).symm.trans hj)

section
variable [DecidableEq κ] {t : Table κ} {i : ℕ} {o : Obj κ}

/-- An object enters the empty slot of its key or leaves it: the other slots stay as they are. -/
theorem Inv.set_slot (hi : Inv t) (h : t.heap i = some o) {o' : Obj κ} {x : Option ℕ}
    (hc : o'.Counted (t.borrowed i)) (hkey : o'.key = o.key)
    (hx : ∀ j, x = some j ↔ j = i ∧ o'.stage = .resident) (hslot : ∀ j, t.slots o.key = some j → j = i) :
    Inv { t.set i o' with slots := Function.update t.slots o.key x } := by
  constructor
  case unallocated => exact unallocated_set hi h
  case slot =>
    intro k j
    change Function.update t.slots o.key x k = some j ↔ (t.set i o').Resides k j
    by_cases hk : k = o.key
    · rw [hk, Function.update_self, hx]
      by_cases hj : j = i
      · rw [hj, resides_iff (set_self t i o')]
        exact ⟨fun h => ⟨hkey, h.2⟩, fun h => ⟨rfl, h.2⟩⟩
      · rw [resides_ne t hj]
        refine iff_of_false (fun h => hj h.1) fun h => hj ?_
        exact hslot j ((hi.slot _ _).mpr h)
    · rw [Function.update_of_ne hk, hi.slot]
      by_cases hj : j = i
      · rw [hj, resides_iff (set_self t i o')]
        refine iff_of_false (fun hr => hk ?_) fun hr => hk ?_
        · exact ((resides_iff h k).mp hr).1.symm
        · exact hr.1.symm.trans hkey
      · exact (resides_ne t hj o' k).symm
  case counted => exact counted_same hi hc
  case unborrowed =>
    intro j hj
    have hset := unborrowed_set hi (n := t.borrowed i) j hj
    rw [Function.update_eq_self] at hset
    exact hset

theorem Step.inv {u : Table κ} (hstep : Step t u) (hi : Inv t) : Inv u := by
  cases hstep with
  | alloc k => exact alloc_inv hi k
  | @enter i o h hs hslot =>
      have hc := hi.counted i o h
      simp only [Obj.Counted, hs] at hc
      refine hi.set_slot h ?_ rfl ?_ ?_
      · exact ⟨by rw [hc.1, hc.2.1], hc.2.2⟩
      · exact fun j => ⟨fun hj => ⟨(Option.some.inj hj).symm, rfl⟩, fun hj => congrArg some hj.1.symm⟩
      · intro j hj
        rw [hslot] at hj
        cases hj
  | @refuse i j o h hs hslot =>
      have hc := hi.counted i o h
      simp only [Obj.Counted, hs] at hc
      refine hi.set_same h ⟨hc.1, by rw [hc.2.2]⟩ rfl (iff_of_false nofun ?_)
      rw [hs]
      nofun
  | @retire i o h hs =>
      have hc := hi.counted i o h
      simp only [Obj.Counted, hs] at hc
      have hslot : t.slots o.key = some i := (hi.slot _ _).mpr ⟨o, h, rfl, hs⟩
      rw [if_pos hslot]
      refine hi.set_slot h hc rfl (fun j => iff_of_false nofun ?_) ?_
      · rintro ⟨-, hr⟩
        cases hr
      · intro j hj
        exact Option.some.inj (hj.symm.trans hslot)
  | @drop i o h hs =>
      have hc := hi.counted i o h
      simp only [Obj.Counted, hs] at hc
      refine hi.set_same h (release_gone hc.1 hc.2) rfl (iff_of_false nofun ?_)
      rw [hs]
      nofun
  | @borrow i o k hslot h =>
      obtain ⟨o', h', -, hs⟩ := (hi.slot _ _).mp hslot
      rw [h] at h'
      cases h'
      have hc := hi.counted i o h
      simp only [Obj.Counted, hs] at hc
      refine hi.set h ?_ rfl Iff.rfl
      simp only [Obj.Counted, hs]
      exact ⟨congrArg (· + 1) hc.1, hc.2⟩
  | @giveBack i o h hb =>
      have hc := hi.counted i o h
      obtain ⟨n, hn⟩ := Nat.exists_eq_succ_of_ne_zero hb
      rw [hn] at hc ⊢
      exact hi.set h hc.release rfl Iff.rfl

end
end SharedSlots
