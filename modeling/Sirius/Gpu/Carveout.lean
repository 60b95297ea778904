import Mathlib.Data.List.Nodup
import Mathlib.Logic.Function.Basic

/-!
# The carveout allocator

`get_pages_vram` with the reclaim patch applied: an insertion that fails is followed by one scan of
the objects marked DONTNEED and by one more insertion. The scan counts pages, the insertion needs
them in one piece.
-/
namespace Sirius.Gpu

structure Node where
  start : ℕ
  size : ℕ
  deriving DecidableEq, Repr

def Node.Apart (a b : Node) : Prop := a.start + a.size ≤ b.start ∨ b.start + b.size ≤ a.start

instance (a b : Node) : Decidable (a.Apart b) := inferInstanceAs (Decidable (_ ∨ _))

theorem Node.Apart.symm {a b : Node} (h : a.Apart b) : b.Apart a := Or.symm h

def Hole (size : ℕ) (used : List Node) (npages a : ℕ) : Prop :=
  a + npages ≤ size ∧ ∀ b ∈ used, b.Apart ⟨a, npages⟩

instance (size : ℕ) (used : List Node) (npages a : ℕ) : Decidable (Hole size used npages a) :=
  inferInstanceAs (Decidable (_ ∧ _))

/-- `drm_mm_insert_node`, which finds a hole exactly when there is one. -/
structure DrmMm where
  find : ℕ → List Node → ℕ → Option ℕ
  sound : ∀ {size used npages a}, find size used npages = some a → Hole size used npages a
  complete : ∀ {size used npages}, find size used npages = none → ∀ a, ¬Hole size used npages a

def firstFit : DrmMm where
  find size used npages := (List.range (size + 1)).find? fun a => Hole size used npages a
  sound h := by simpa using List.find?_some h
  complete {size used npages} h a hole := by
    have := List.find?_eq_none.1 h a (List.mem_range.2 (by have := hole.1; omega))
    exact this (by simpa using hole)

inductive Madv
  | willneed
  | dontneed
  | purged
  deriving DecidableEq, Repr

/-- The fields of a `msm_gem_object` that reclaim looks at; `size` in pages. -/
structure MsmGemObject where
  filp : Bool
  madv : Madv
  sgt : Bool
  imported : Bool
  pinCount : ℕ
  active : Bool
  size : ℕ
  vramNode : Option Node
  deriving DecidableEq, Repr

namespace MsmGemObject
variable (o : MsmGemObject)

def isVramPurgeable : Bool :=
  !o.filp && o.madv = .dontneed && o.sgt && !o.imported && o.pinCount = 0

/-- `msm_gem_purge` of an object without a file: `put_pages` returns its space to the carveout. -/
def purge : MsmGemObject := { o with sgt := false, vramNode := none, madv := .purged }

/-- What the comment of the allocator speaks of: marked DONTNEED, unpinned, idle and not imported, and of these only
the ones that `isVramPurgeable` takes, without a file and with an `sgt`. -/
def reclaimable : Bool := o.isVramPurgeable && !o.active

end MsmGemObject

variable {ι : Type} [DecidableEq ι]

structure Msm (ι : Type) where
  size : ℕ
  objs : List ι
  object : ι → MsmGemObject
  dontneed : List ι
  resvHeld : ι → Bool
  nodup : dontneed.Nodup
  apart : ∀ i ∈ objs, ∀ j ∈ objs, i ≠ j →
    ∀ a ∈ (object i).vramNode, ∀ b ∈ (object j).vramNode, a.Apart b

namespace Msm
variable (c : Msm ι)

def layoutWithout (gone : ι → Bool) : List Node :=
  c.objs.filterMap fun i => if gone i then none else (c.object i).vramNode

def layout : List Node := c.objs.filterMap fun i => (c.object i).vramNode

def purgeAt (i : ι) : Msm ι where
  size := c.size
  objs := c.objs
  object := Function.update c.object i (c.object i).purge
  dontneed := c.dontneed.erase i
  resvHeld := c.resvHeld
  nodup := c.nodup.erase i
  apart := by
    intro j hj k hk hjk a ha b hb
    by_cases hji : j = i
    · subst hji
      simp [MsmGemObject.purge] at ha
    · by_cases hki : k = i
      · subst hki
        simp [MsmGemObject.purge] at hb
      · rw [Function.update_of_ne hji] at ha
        rw [Function.update_of_ne hki] at hb
        exact c.apart j hj k hk hjk a ha b hb

def purgeVram (i : ι) : Option (Msm ι) :=
  if !(c.object i).isVramPurgeable then none
  else if (c.object i).active then none
  else some (c.purgeAt i)

/-- An object the scan has passed over ends behind those it has not come to. -/
def moveTail (i : ι) : Msm ι :=
  { c with
    dontneed := c.dontneed.erase i ++ [i]
    nodup := by
      refine List.nodup_append.2 ⟨c.nodup.erase i, List.nodup_singleton i, ?_⟩
      rintro a ha b hb rfl
      exact c.nodup.not_mem_erase (by rwa [List.mem_singleton.1 hb] at ha) }

/-- The lock of `obj` is held by the caller of the allocator. -/
def trylock (obj i : ι) : Bool := !(i = obj || c.resvHeld i)

/-- `drm_gem_lru_scan` over what is left of the LRU, for the allocation of `obj`. -/
def lruScan (obj : ι) (nrToScan : ℕ) : List ι → ℕ → Msm ι → Msm ι
  | [], _, c => c
  | i :: lru, freed, c =>
    if freed < nrToScan then
      if c.trylock obj i then
        match c.purgeVram i with
        | some c' => lruScan obj nrToScan lru (freed + (c.object i).size) c'
        | none => lruScan obj nrToScan lru freed (c.moveTail i)
      else lruScan obj nrToScan lru freed (c.moveTail i)
    else c

def place (obj : ι) (npages a : ℕ) (h : Hole c.size c.layout npages a) : Msm ι :=
  { c with
    object := Function.update c.object obj { c.object obj with vramNode := some ⟨a, npages⟩ }
    apart := by
      have free : ∀ k ∈ c.objs, ∀ b ∈ (c.object k).vramNode, b.Apart ⟨a, npages⟩ :=
        fun k hk b hb => h.2 b (List.mem_filterMap.2 ⟨k, hk, hb⟩)
      intro j hj k hk hjk x hx y hy
      by_cases hjo : j = obj
      · subst hjo
        rw [Function.update_of_ne (Ne.symm hjk)] at hy
        obtain rfl : ⟨a, npages⟩ = x := by simpa using hx
        exact (free k hk y hy).symm
      · rw [Function.update_of_ne hjo] at hx
        by_cases hko : k = obj
        · subst hko
          obtain rfl : ⟨a, npages⟩ = y := by simpa using hy
          exact free j hj x hx
        · rw [Function.update_of_ne hko] at hy
          exact c.apart j hj k hk hjk x hx y hy }

def insertNode (mm : DrmMm) (obj : ι) (npages : ℕ) : Option (Msm ι) :=
  match h : mm.find c.size c.layout npages with
  | some a => some (c.place obj npages a (mm.sound h))
  | none => none

/-- `get_pages_vram`: whether it returns pages, and the device it leaves. -/
def getPagesVram (mm : DrmMm) (obj : ι) (npages : ℕ) : Bool × Msm ι :=
  match c.insertNode mm obj npages with
  | some c' => (true, c')
  | none =>
    let c := lruScan obj npages c.dontneed 0 c
    match c.insertNode mm obj npages with
    | some c' => (true, c')
    | none => (false, c)

end Msm
end Sirius.Gpu
