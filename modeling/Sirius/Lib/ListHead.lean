import Mathlib.GroupTheory.Perm.List

/-!
# Circular doubly linked lists with embedded links

The kernel's `struct list_head`: a list is a head and the nodes linked behind it, and
an unlinked node is linked to itself. While every `prev` undoes every `next`, the links
are a permutation of the nodes; unlinking and linking at the tail multiply it by a
transposition.
-/
namespace ListHead
open Equiv

/-- The two links of every node; `none` is the null pointer. -/
structure Links (ν : Type*) where
  next : ν → Option ν
  prev : ν → Option ν

section
variable {ν : Type*} [DecidableEq ν]

def Links.setNext (s : Links ν) (n m : ν) : Links ν :=
  { s with next := Function.update s.next n (some m) }

def Links.setPrev (s : Links ν) (n m : ν) : Links ν :=
  { s with prev := Function.update s.prev n (some m) }

def initListHead (s : Links ν) (n : ν) : Links ν := (s.setNext n n).setPrev n n

/-- `__list_add`: link `n` between two neighbours. -/
def listAdd (s : Links ν) (n p q : ν) : Links ν :=
  (((s.setPrev q n).setNext n q).setPrev n p).setNext p n

/-- `__list_del`: link two neighbours to each other. -/
def listDel (s : Links ν) (p q : ν) : Links ν := (s.setPrev q p).setNext p q

/-- `list_add_tail`; following a null pointer faults. -/
def listAddTail (s : Links ν) (n head : ν) : Option (Links ν) := do
  let p ← s.prev head
  return listAdd s n p head

/-- `list_del_init`; following a null pointer faults. -/
def listDelInit (s : Links ν) (n : ν) : Option (Links ν) := do
  let p ← s.prev n
  let q ← s.next n
  return initListHead (listDel s p q) n

variable {β : Type*}

/-- The loop of `list_for_each_entry` from `pos`; the body can break out or fault. -/
def walk (s : Links ν) (head : ν) (body : β → ν → Option (ForInStep β)) : ℕ → ν → β → Option β
  | 0, _, _ => none
  | fuel + 1, pos, b =>
      if pos = head then some b
      else
        (body b pos).bind fun
          | .done b => some b
          | .yield b => (s.next pos).bind fun next => walk s head body fuel next b

/-- `list_for_each_entry`, in at most `fuel` turns. -/
def listForEachEntry (s : Links ν) (head : ν) (body : β → ν → Option (ForInStep β)) (fuel : ℕ) (b : β) :
    Option β :=
  (s.next head).bind fun first => walk s head body fuel first b

/-- The same loop over a list of nodes. -/
def forEach (body : β → ν → Option (ForInStep β)) : List ν → β → Option β
  | [], b => some b
  | x :: xs, b =>
      (body b x).bind fun
        | .done b => some b
        | .yield b => forEach body xs b

/-- The links are those of a permutation: each node has a successor, and `prev` undoes `next`. -/
structure Consistent (s : Links ν) (σ : Perm ν) : Prop where
  next : ∀ x, s.next x = some (σ x)
  prev : ∀ x, s.prev x = some (σ.symm x)

omit [DecidableEq ν] in
/-- It is enough to know the successors. -/
theorem Consistent.of_inverse {s : Links ν} {σ : Perm ν} (hn : ∀ x, s.next x = some (σ x))
    (hp : ∀ x, s.prev (σ x) = some x) : Consistent s σ := by
  refine ⟨hn, fun x => ?_⟩
  have := hp (σ.symm x)
  rwa [apply_symm_apply] at this

theorem Consistent.addTail {s : Links ν} {σ : Perm ν} {n head : ν} (h : Consistent s σ)
    (hn : σ n = n) (hne : n ≠ head) :
    ∃ s', listAddTail s n head = some s' ∧ Consistent s' (swap n head * σ) := by
  have hlast : n ≠ σ.symm head := by
    intro he
    rw [he, apply_symm_apply] at hn
    exact hne (he.trans hn.symm)
  refine ⟨listAdd s n (σ.symm head) head, by rw [listAddTail, h.prev]; rfl, Consistent.of_inverse ?_ ?_⟩
  · intro x
    by_cases hx : x = σ.symm head
    · rw [hx, Perm.mul_apply, apply_symm_apply, swap_apply_right]
      simp [listAdd, Links.setNext, Links.setPrev]
    · by_cases hxn : x = n
      · rw [hxn, Perm.mul_apply, hn, swap_apply_left]
        simp [listAdd, Links.setNext, Links.setPrev, hlast]
      · have hhead : σ x ≠ head := fun he => hx (he ▸ (symm_apply_apply σ x).symm)
        have hnode : σ x ≠ n := fun he => hxn (σ.injective (he.trans hn.symm))
        rw [Perm.mul_apply, swap_apply_of_ne_of_ne hnode hhead]
        simp [listAdd, Links.setNext, Links.setPrev, hx, hxn, h.next]
  · intro x
    by_cases hx : x = σ.symm head
    · rw [hx, Perm.mul_apply, apply_symm_apply, swap_apply_right]
      simp [listAdd, Links.setNext, Links.setPrev]
    · by_cases hxn : x = n
      · rw [hxn, Perm.mul_apply, hn, swap_apply_left]
        simp [listAdd, Links.setNext, Links.setPrev, hne.symm]
      · have hhead : σ x ≠ head := fun he => hx (he ▸ (symm_apply_apply σ x).symm)
        have hnode : σ x ≠ n := fun he => hxn (σ.injective (he.trans hn.symm))
        rw [Perm.mul_apply, swap_apply_of_ne_of_ne hnode hhead]
        simp [listAdd, Links.setNext, Links.setPrev, hhead, hnode, h.prev]

theorem Consistent.delInit {s : Links ν} {σ : Perm ν} (h : Consistent s σ) (n : ν) :
    ∃ s', listDelInit s n = some s' ∧ Consistent s' (swap n (σ n) * σ) := by
  refine ⟨initListHead (listDel s (σ.symm n) (σ n)) n, by rw [listDelInit, h.prev, h.next]; rfl,
    Consistent.of_inverse ?_ ?_⟩
  · intro x
    by_cases hxn : x = n
    · rw [hxn, Perm.mul_apply, swap_apply_right]
      simp [initListHead, listDel, Links.setNext, Links.setPrev]
    · have hafter : σ x ≠ σ n := fun he => hxn (σ.injective he)
      by_cases hx : x = σ.symm n
      · rw [Perm.mul_apply, hx, apply_symm_apply, swap_apply_left]
        have hne : σ.symm n ≠ n := hx ▸ hxn
        simp [initListHead, listDel, Links.setNext, Links.setPrev, hne]
      · have hnode : σ x ≠ n := fun he => hx (he ▸ (symm_apply_apply σ x).symm)
        rw [Perm.mul_apply, swap_apply_of_ne_of_ne hnode hafter]
        simp [initListHead, listDel, Links.setNext, Links.setPrev, hx, hxn, h.next]
  · intro x
    by_cases hxn : x = n
    · rw [hxn, Perm.mul_apply, swap_apply_right]
      simp [initListHead, listDel, Links.setNext, Links.setPrev]
    · have hafter : σ x ≠ σ n := fun he => hxn (σ.injective he)
      by_cases hx : x = σ.symm n
      · rw [Perm.mul_apply, hx, apply_symm_apply, swap_apply_left]
        have hne : σ n ≠ n := fun he => hxn (hx.trans (σ.symm_apply_eq.mpr he.symm))
        simp [initListHead, listDel, Links.setNext, Links.setPrev, hne]
      · have hnode : σ x ≠ n := fun he => hx (he ▸ (symm_apply_apply σ x).symm)
        rw [Perm.mul_apply, swap_apply_of_ne_of_ne hnode hafter]
        simp [initListHead, listDel, Links.setNext, Links.setPrev, hafter, hnode, h.prev]

/-- Behind the head of each list are its nodes, in order; the lists share no node, and a node
on no list is unlinked. -/
structure Lists {κ : Type*} (σ : Perm ν) (head : κ → ν) (L : κ → List ν) : Prop where
  nodup : ∀ k, (head k :: L k).Nodup
  apart : ∀ j k, j ≠ k → (head j :: L j).Disjoint (head k :: L k)
  cycle : ∀ k, ∀ x ∈ head k :: L k, σ x = (head k :: L k).formPerm x
  loose : ∀ x, (∀ k, x ∉ head k :: L k) → σ x = x

variable {κ : Type*} {σ : Perm ν} {head : κ → ν} {L : κ → List ν}

theorem Lists.empty (hhead : Function.Injective head) : Lists 1 head fun _ => [] := by
  refine ⟨fun k => List.nodup_singleton _, ?_, ?_, fun x _ => rfl⟩
  · intro j k hjk
    rw [List.disjoint_singleton, List.mem_singleton]
    exact fun he => hjk (hhead he.symm)
  · intro k x _
    rw [List.formPerm_singleton]

theorem Lists.mem_of_mem (h : Lists σ head L) {k : κ} {x : ν} (hx : x ∈ head k :: L k) :
    σ x ∈ head k :: L k := by
  rw [h.cycle k x hx]
  exact List.formPerm_apply_mem_of_mem hx

theorem Lists.ne_of_mem (h : Lists σ head L) {j k : κ} (hjk : j ≠ k) {x y : ν} (hx : x ∈ head j :: L j)
    (hy : y ∈ head k :: L k) : x ≠ y := by
  intro he
  exact h.apart j k hjk hx (he ▸ hy)

omit [DecidableEq ν] in
theorem mem_update_append [DecidableEq κ] {L : κ → List ν} {j k : κ} {n x : ν} :
    x ∈ Function.update L k (L k ++ [n]) j ↔ x ∈ L j ∨ j = k ∧ x = n := by
  by_cases hj : j = k
  · simp [hj]
  · simp [hj]

theorem Lists.addTail [DecidableEq κ] (h : Lists σ head L) {n : ν} (hn : ∀ k, n ∉ head k :: L k) (k : κ) :
    Lists (swap n (head k) * σ) head (Function.update L k (L k ++ [n])) := by
  have hnodup : (n :: head k :: L k).Nodup := List.nodup_cons.mpr ⟨hn k, h.nodup k⟩
  have hrotated : (n :: head k :: L k) ~r (head k :: (L k ++ [n])) := ⟨1, by simp⟩
  have hrot : (head k :: (L k ++ [n])).formPerm = swap n (head k) * (head k :: L k).formPerm := by
    rw [← List.formPerm_cons_cons]
    exact (List.formPerm_eq_of_isRotated hnodup hrotated).symm
  have hmem : ∀ j x, x ∈ head j :: Function.update L k (L k ++ [n]) j ↔
      x ∈ head j :: L j ∨ j = k ∧ x = n := by
    intro j x
    rw [List.mem_cons, List.mem_cons, mem_update_append, or_assoc]
  refine ⟨?_, ?_, ?_, ?_⟩
  · intro j
    by_cases hj : j = k
    · rw [hj, Function.update_self]
      exact hrotated.nodup_iff.mp hnodup
    · rw [Function.update_of_ne hj]
      exact h.nodup j
  · intro i j hij x hi hj
    rw [hmem] at hi hj
    rcases hi with hi | ⟨hi, rfl⟩
    · rcases hj with hj | ⟨-, rfl⟩
      · exact h.apart i j hij hi hj
      · exact hn i hi
    · rcases hj with hj | ⟨hj, -⟩
      · exact hn j hj
      · exact hij (hi.trans hj.symm)
  · intro j x hx
    rw [hmem] at hx
    by_cases hj : j = k
    · rw [hj, Function.update_self, hrot, Perm.mul_apply, Perm.mul_apply]
      rcases hx with hx | ⟨-, rfl⟩
      · rw [h.cycle k x (hj ▸ hx)]
      · rw [h.loose x hn, List.formPerm_apply_of_notMem (hn k)]
    · have hx := hx.resolve_right fun hx => hj hx.1
      have hnext := h.mem_of_mem hx
      rw [Function.update_of_ne hj, Perm.mul_apply, swap_apply_of_ne_of_ne, h.cycle j x hx]
      · exact fun he => hn j (he ▸ hnext)
      · exact h.ne_of_mem hj hnext List.mem_cons_self
  · intro x hx
    have hold : ∀ j, x ∉ head j :: L j := fun j hj => hx j ((hmem j x).mpr (Or.inl hj))
    rw [Perm.mul_apply, h.loose x hold, swap_apply_of_ne_of_ne]
    · exact fun he => hx k ((hmem k x).mpr (Or.inr ⟨rfl, he⟩))
    · exact fun he => hold k (he ▸ List.mem_cons_self)

/-- Taking the first node out of a cycle. -/
theorem formPerm_remove {n : ν} {l : List ν} (h : (n :: l).Nodup) :
    swap n ((n :: l).formPerm n) * (n :: l).formPerm = l.formPerm := by
  cases l with
  | nil =>
      rw [List.formPerm_singleton, List.formPerm_nil, Perm.one_apply, swap_self]
      rfl
  | cons m l => rw [List.formPerm_apply_head n m l h, List.formPerm_cons_cons, swap_mul_self_mul]

theorem Lists.delInit_loose (h : Lists σ head L) {n : ν} (hn : ∀ k, n ∉ head k :: L k) :
    Lists (swap n (σ n) * σ) head fun k => (L k).erase n := by
  have hL : (fun k => (L k).erase n) = L := by
    funext k
    exact List.erase_of_not_mem fun hk => hn k (List.mem_cons_of_mem _ hk)
  have hσ : swap n (σ n) * σ = σ := by
    rw [h.loose n hn, swap_self]
    rfl
  rw [hL, hσ]
  exact h

theorem Lists.delInit_linked (h : Lists σ head L) {n : ν} {k : κ} (hk : n ∈ L k) :
    Lists (swap n (σ n) * σ) head fun k => (L k).erase n := by
  obtain ⟨as, bs, hfresh, hL, herase⟩ := List.exists_erase_eq hk
  have hold : (head k :: L k) ~r (n :: (bs ++ head k :: as)) := by
    rw [hL]
    exact ⟨as.length + 1, by simp⟩
  have hnew : (bs ++ head k :: as) ~r (head k :: (L k).erase n) := by
    rw [herase]
    exact ⟨bs.length, by simp⟩
  have hnodup := hold.nodup_iff.mp (h.nodup k)
  have hmem : n ∈ head k :: L k := List.mem_cons_of_mem _ hk
  have hafter := h.mem_of_mem hmem
  have hcycle : swap n (σ n) * (head k :: L k).formPerm = (head k :: (L k).erase n).formPerm := by
    rw [h.cycle k n hmem, List.formPerm_eq_of_isRotated (h.nodup k) hold, formPerm_remove hnodup]
    exact List.formPerm_eq_of_isRotated (List.nodup_cons.mp hnodup).2 hnew
  have hsub : ∀ j, (head j :: (L j).erase n) ⊆ (head j :: L j) := fun j =>
    List.cons_subset_cons _ List.erase_subset
  have hother : ∀ j, j ≠ k → (L j).erase n = L j := fun j hj =>
    List.erase_of_not_mem fun hn => h.ne_of_mem hj (List.mem_cons_of_mem _ hn) hmem rfl
  refine ⟨?_, ?_, ?_, ?_⟩
  · intro j
    exact (h.nodup j).sublist (List.erase_sublist.cons_cons _)
  · intro i j hij x hi hj
    exact h.apart i j hij (hsub i hi) (hsub j hj)
  · intro j x hx
    by_cases hj : j = k
    · rw [hj] at hx ⊢
      rw [Perm.mul_apply, h.cycle k x (hsub k hx), ← hcycle, Perm.mul_apply]
    · have hnext := h.mem_of_mem (hsub j hx)
      rw [Perm.mul_apply, swap_apply_of_ne_of_ne, h.cycle j x (hsub j hx), hother j hj]
      · exact h.ne_of_mem hj hnext hmem
      · exact h.ne_of_mem hj hnext hafter
  · intro x hx
    by_cases hxn : x = n
    · rw [hxn, Perm.mul_apply, swap_apply_right]
    · have hloose : ∀ j, x ∉ head j :: L j := by
        intro j hj
        rcases List.mem_cons.mp hj with hj | hj
        · exact hx j (hj ▸ List.mem_cons_self)
        · exact hx j (List.mem_cons_of_mem _ ((List.mem_erase_of_ne hxn).mpr hj))
      rw [Perm.mul_apply, h.loose x hloose, swap_apply_of_ne_of_ne hxn]
      exact fun he => hloose k (he ▸ hafter)

theorem Lists.delInit (h : Lists σ head L) {n : ν} (hn : ∀ k, n ≠ head k) :
    Lists (swap n (σ n) * σ) head fun k => (L k).erase n := by
  by_cases hlinked : ∃ k, n ∈ L k
  · obtain ⟨k, hk⟩ := hlinked
    exact h.delInit_linked hk
  · apply h.delInit_loose
    intro k hk
    rcases List.mem_cons.mp hk with hk | hk
    · exact hn k hk
    · exact hlinked ⟨k, hk⟩

/-- The successor of a node is the one behind it, or the head. -/
theorem Lists.next_of_append (h : Lists σ head L) {k : κ} (as : List ν) {bs : List ν} {x : ν}
    (hL : head k :: L k = as ++ x :: bs) : σ x = bs.headD (head k) := by
  have hrot : (head k :: L k) ~r (x :: (bs ++ as)) := by
    rw [hL]
    exact ⟨as.length, by simp⟩
  have hnodup := hrot.nodup_iff.mp (h.nodup k)
  rw [h.cycle k x (by simp [hL]), List.formPerm_eq_of_isRotated (h.nodup k) hrot]
  cases bs with
  | nil =>
      cases as with
      | nil =>
          rw [List.nil_append, List.cons.injEq] at hL
          rw [List.nil_append, List.formPerm_singleton, hL.1]
          rfl
      | cons y as =>
          rw [List.cons_append, List.cons.injEq] at hL
          rw [hL.1]
          exact List.formPerm_apply_head x y as hnodup
  | cons y bs => exact List.formPerm_apply_head x y (bs ++ as) hnodup

theorem Lists.walk_eq (h : Lists σ head L) {s : Links ν} (hs : Consistent s σ)
    (body : β → ν → Option (ForInStep β)) {k : κ} (as : List ν) {bs : List ν} (hL : head k :: L k = as ++ bs)
    (has : as ≠ []) {fuel : ℕ} (hfuel : bs.length < fuel) (b : β) :
    walk s (head k) body fuel (bs.headD (head k)) b = forEach body bs b := by
  induction bs generalizing as fuel b with
  | nil =>
      cases fuel with
      | zero => exact absurd hfuel (Nat.not_lt_zero _)
      | succ fuel => rw [List.headD_nil, walk, if_pos rfl, forEach]
  | cons x bs ih =>
      cases fuel with
      | zero => exact absurd hfuel (Nat.not_lt_zero _)
      | succ fuel =>
          have hne : x ≠ head k := by
            cases as with
            | nil => exact absurd rfl has
            | cons y as =>
                rw [List.cons_append, List.cons.injEq] at hL
                intro hx
                exact (List.nodup_cons.mp (h.nodup k)).1 (by simp [hL.2, ← hx])
          rw [List.headD_cons, walk, if_neg hne, forEach]
          congr 1
          funext r
          cases r with
          | done b => rfl
          | yield b =>
              dsimp only
              rw [hs.next, h.next_of_append as hL, Option.bind_some]
              exact ih (as ++ [x]) (by simp [hL]) (by simp) (Nat.lt_of_succ_lt_succ hfuel) b

/-- Enough fuel makes the loop run over the nodes of the list. -/
theorem Lists.listForEachEntry_eq (h : Lists σ head L) {s : Links ν} (hs : Consistent s σ)
    (body : β → ν → Option (ForInStep β)) (k : κ) {fuel : ℕ} (hfuel : (L k).length < fuel) (b : β) :
    listForEachEntry s (head k) body fuel b = forEach body (L k) b := by
  have hfirst : σ (head k) = (L k).headD (head k) := h.next_of_append [] rfl
  rw [listForEachEntry, hs.next, Option.bind_some, hfirst]
  exact h.walk_eq hs body [head k] rfl (by simp) hfuel b

/-- In the links, the heads carry these lists and every other node is unlinked. -/
def Linked (s : Links ν) (head : κ → ν) (L : κ → List ν) : Prop :=
  ∃ σ, Consistent s σ ∧ Lists σ head L

section
variable {s : Links ν}

theorem Linked.nodup (h : Linked s head L) (k : κ) : (head k :: L k).Nodup :=
  h.choose_spec.2.nodup k

theorem Linked.apart (h : Linked s head L) {j k : κ} {x : ν} (hj : x ∈ head j :: L j)
    (hk : x ∈ head k :: L k) : j = k := by
  by_contra hjk
  exact h.choose_spec.2.apart j k hjk hj hk

theorem Linked.empty (hhead : Function.Injective head) (hn : ∀ x, s.next x = some x)
    (hp : ∀ x, s.prev x = some x) : Linked s head fun _ => [] :=
  ⟨1, ⟨hn, hp⟩, Lists.empty hhead⟩

theorem Linked.addTail [DecidableEq κ] (h : Linked s head L) {n : ν} (hn : ∀ k, n ∉ head k :: L k) (k : κ) :
    ∃ s', listAddTail s n (head k) = some s' ∧ Linked s' head (Function.update L k (L k ++ [n])) := by
  obtain ⟨σ, hs, hL⟩ := h
  have hne : n ≠ head k := fun he => hn k (he ▸ List.mem_cons_self)
  obtain ⟨s', hadd, hs'⟩ := hs.addTail (hL.loose n hn) hne
  exact ⟨s', hadd, _, hs', hL.addTail hn k⟩

theorem Linked.delInit (h : Linked s head L) {n : ν} (hn : ∀ k, n ≠ head k) :
    ∃ s', listDelInit s n = some s' ∧ Linked s' head fun k => (L k).erase n := by
  obtain ⟨σ, hs, hL⟩ := h
  obtain ⟨s', hdel, hs'⟩ := hs.delInit n
  exact ⟨s', hdel, _, hs', hL.delInit hn⟩

theorem Linked.listForEachEntry_eq (h : Linked s head L) (body : β → ν → Option (ForInStep β)) (k : κ)
    {fuel : ℕ} (hfuel : (L k).length < fuel) (b : β) :
    listForEachEntry s (head k) body fuel b = forEach body (L k) b := by
  obtain ⟨σ, hs, hL⟩ := h
  exact hL.listForEachEntry_eq hs body k hfuel b

end

omit [DecidableEq ν] in
/-- A loop whose body never faults and keeps an invariant returns, and keeps it. -/
theorem forEach_invariant {P : β → Prop} {body : β → ν → Option (ForInStep β)} (xs : List ν)
    (hbody : ∀ b, P b → ∀ x ∈ xs, ∃ r, body b x = some r ∧ P r.value) {b : β} (hb : P b) :
    ∃ b', forEach body xs b = some b' ∧ P b' := by
  induction xs generalizing b with
  | nil => exact ⟨b, rfl, hb⟩
  | cons x xs ih =>
      obtain ⟨r, hr, hP⟩ := hbody b hb x List.mem_cons_self
      rw [forEach, hr, Option.bind_some]
      cases r with
      | done b => exact ⟨b, rfl, hP⟩
      | yield b => exact ih (fun b hb x hx => hbody b hb x (List.mem_cons_of_mem _ hx)) hP

end

section
variable {ν : Type*} [DecidableEq ν]

/-- Initialising nodes links each of them to itself. -/
theorem foldl_initListHead (s : Links ν) (ns : List ν) (x : ν) :
    (ns.foldl initListHead s).next x = (if x ∈ ns then some x else s.next x) ∧
      (ns.foldl initListHead s).prev x = if x ∈ ns then some x else s.prev x := by
  induction ns generalizing s with
  | nil => simp
  | cons n ns ih =>
      rw [List.foldl_cons, (ih _).1, (ih _).2]
      by_cases hx : x = n
      · simp [hx, initListHead, Links.setNext, Links.setPrev]
      · simp [hx, initListHead, Links.setNext, Links.setPrev]

end

section
variable {ν β : Type*} [DecidableEq ν] {s : Links ν} {head : ν}

/-- A walk that has ended ends the same way in more turns. -/
theorem walk_succ {body : β → ν → Option (ForInStep β)} {fuel : ℕ} {pos : ν} {b b' : β}
    (h : walk s head body fuel pos b = some b') : walk s head body (fuel + 1) pos b = some b' := by
  induction fuel generalizing pos b with
  | zero => cases h
  | succ fuel ih =>
      rw [walk] at h ⊢
      split_ifs at h ⊢ with hpos
      · exact h
      · obtain ⟨r, hr, h⟩ := Option.bind_eq_some_iff.mp h
        rw [hr, Option.bind_some]
        cases r with
        | done b => exact h
        | yield b =>
            obtain ⟨next, hnext, h⟩ := Option.bind_eq_some_iff.mp h
            dsimp only
            rw [hnext, Option.bind_some]
            exact ih h

theorem walk_mono {body : β → ν → Option (ForInStep β)} {fuel more : ℕ} (hle : fuel ≤ more) {pos : ν} {b b' : β}
    (h : walk s head body fuel pos b = some b') : walk s head body more pos b = some b' := by
  induction hle with
  | refl => exact h
  | step _ ih => exact walk_succ ih

omit [DecidableEq ν] in
def collect (xs : List ν) (x : ν) : Option (ForInStep (List ν)) := some (.yield (xs ++ [x]))

/-- The walk over the list ends, after these nodes. -/
def Reads (s : Links ν) (head : ν) (xs : List ν) : Prop :=
  ∃ fuel, listForEachEntry s head collect fuel [] = some xs

theorem Reads.unique {xs ys : List ν} (hx : Reads s head xs) (hy : Reads s head ys) : xs = ys := by
  obtain ⟨fuel, hx⟩ := hx
  obtain ⟨more, hy⟩ := hy
  obtain ⟨first, hfirst, hx⟩ := Option.bind_eq_some_iff.mp hx
  obtain ⟨first', hfirst', hy⟩ := Option.bind_eq_some_iff.mp hy
  rw [hfirst] at hfirst'
  cases hfirst'
  have hx' := walk_mono (Nat.le_max_left fuel more) hx
  rw [walk_mono (Nat.le_max_right fuel more) hy] at hx'
  exact (Option.some.inj hx').symm

omit [DecidableEq ν] in
theorem forEach_collect (xs acc : List ν) : forEach collect xs acc = some (acc ++ xs) := by
  induction xs generalizing acc with
  | nil => rw [forEach, List.append_nil]
  | cons x xs ih =>
      rw [forEach, collect, Option.bind_some]
      dsimp only
      rw [ih, List.append_assoc, List.singleton_append]

theorem Linked.reads_iff {κ : Type*} {head : κ → ν} {L : κ → List ν} (h : Linked s head L) (k : κ) {xs : List ν} :
    Reads s (head k) xs ↔ xs = L k := by
  have hreads : Reads s (head k) (L k) := by
    refine ⟨(L k).length + 1, ?_⟩
    rw [h.listForEachEntry_eq _ k (Nat.lt_succ_self _), forEach_collect, List.nil_append]
  constructor
  · exact fun hxs => hxs.unique hreads
  · rintro rfl
    exact hreads

end

section
variable {ν : Type*} [DecidableEq ν] {s : Links ν}

def Unlinked (s : Links ν) (n : ν) : Prop := s.next n = some n ∧ s.prev n = some n

theorem reinit_unlinked {ns : List ν} (h : ∀ n ∈ ns, Unlinked s n) : ns.foldl initListHead s = s := by
  have hnext : (ns.foldl initListHead s).next = s.next := by
    funext x
    rw [(foldl_initListHead s ns x).1]
    split_ifs with hx
    · exact (h x hx).1.symm
    · rfl
  have hprev : (ns.foldl initListHead s).prev = s.prev := by
    funext x
    rw [(foldl_initListHead s ns x).2]
    split_ifs with hx
    · exact (h x hx).2.symm
    · rfl
  calc ns.foldl initListHead s
      = ⟨(ns.foldl initListHead s).next, (ns.foldl initListHead s).prev⟩ := rfl
    _ = s := by rw [hnext, hprev]

variable {κ : Type*} {head : κ → ν} {L : κ → List ν}

theorem Linked.unlinked (h : Linked s head L) {n : ν} (hn : ∀ k, n ∉ head k :: L k) : Unlinked s n := by
  obtain ⟨σ, hs, hL⟩ := h
  have hσ := hL.loose n hn
  refine ⟨by rw [hs.next, hσ], ?_⟩
  rw [hs.prev, σ.symm_apply_eq.mpr hσ.symm]

theorem Linked.unlinked_head (h : Linked s head L) {k : κ} (hk : L k = []) : Unlinked s (head k) := by
  obtain ⟨σ, hs, hL⟩ := h
  have hσ : σ (head k) = head k := by
    rw [hL.cycle k _ List.mem_cons_self, hk, List.formPerm_singleton, Perm.one_apply]
  refine ⟨by rw [hs.next, hσ], ?_⟩
  rw [hs.prev, σ.symm_apply_eq.mpr hσ.symm]

/-- A node linked to itself that is not the head is never left. -/
theorem walk_self {head n : ν} (hn : s.next n = some n) (hne : n ≠ head) (fuel : ℕ) (xs : List ν) :
    walk s head collect fuel n xs = none := by
  induction fuel generalizing xs with
  | zero => rfl
  | succ fuel ih =>
      rw [walk, if_neg hne, collect, Option.bind_some]
      dsimp only
      rw [hn, Option.bind_some]
      exact ih _

/-- The walk over a list some of whose nodes have been initialised again never ends. -/
theorem Lists.walk_reinit {σ : Perm ν} (h : Lists σ head L) (hs : Consistent s σ) {ns : List ν} {k : κ}
    (as : List ν) {bs : List ν} (hL : head k :: L k = as ++ bs) (has : as ≠ []) {n : ν} (hn : n ∈ ns) (hbs : n ∈ bs)
    (fuel : ℕ) (xs : List ν) :
    walk (ns.foldl initListHead s) (head k) collect fuel (bs.headD (head k)) xs = none := by
  induction bs generalizing as fuel xs with
  | nil => cases hbs
  | cons x bs ih =>
      have hne : x ≠ head k := by
        cases as with
        | nil => exact absurd rfl has
        | cons y as =>
            rw [List.cons_append, List.cons.injEq] at hL
            intro hx
            exact (List.nodup_cons.mp (h.nodup k)).1 (by simp [hL.2, ← hx])
      rw [List.headD_cons]
      by_cases hx : x ∈ ns
      · exact walk_self (by rw [(foldl_initListHead s ns x).1, if_pos hx]) hne fuel xs
      · cases fuel with
        | zero => rfl
        | succ fuel =>
            have hrest : n ∈ bs := (List.mem_cons.mp hbs).resolve_left fun he => hx (he ▸ hn)
            have hnext : (ns.foldl initListHead s).next x = some (bs.headD (head k)) := by
              rw [(foldl_initListHead s ns x).1, if_neg hx, hs.next, h.next_of_append as hL]
            rw [walk, if_neg hne, collect, Option.bind_some]
            dsimp only
            rw [hnext, Option.bind_some]
            exact ih (as ++ [x]) (by simp [hL]) (by simp) hrest fuel _

/-- A list that has had a node initialised under it cannot be read. -/
theorem Linked.not_reads_reinit (h : Linked s head L) {ns : List ν} {k : κ} (hhead : head k ∉ ns) {n : ν}
    (hk : n ∈ L k) (hn : n ∈ ns) (xs : List ν) : ¬ Reads (ns.foldl initListHead s) (head k) xs := by
  obtain ⟨σ, hs, hL⟩ := h
  rintro ⟨fuel, hread⟩
  have hfirst : (ns.foldl initListHead s).next (head k) = some ((L k).headD (head k)) := by
    rw [(foldl_initListHead s ns _).1, if_neg hhead, hs.next, hL.next_of_append [] rfl]
  rw [listForEachEntry, hfirst, Option.bind_some, hL.walk_reinit hs [head k] rfl (by simp) hn hk] at hread
  cases hread

/-- A head that has been initialised reads as empty. -/
theorem reads_reinit_head {head : ν} {ns : List ν} (hhead : head ∈ ns) :
    Reads (ns.foldl initListHead s) head [] := by
  refine ⟨1, ?_⟩
  rw [listForEachEntry, (foldl_initListHead s ns _).1, if_pos hhead, Option.bind_some, walk, if_pos rfl]

end
end ListHead
