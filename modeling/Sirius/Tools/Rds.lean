import Mathlib.Data.Int.Order.Basic
import Mathlib.Logic.Function.Basic

/-!
# The station name, tools/bcm-fm-rds.py

The tuner hands out blocks, each with its kind and the quality of its reception. Four blocks in a row make a group,
and a group of type 0 carries two letters of the name of the station.
-/
namespace Sirius.Rds

/-- Three bytes from the FIFO. -/
structure Tuple where
  t : ℕ
  hi : ℕ
  lo : ℕ
  deriving DecidableEq, Repr, Inhabited

def Tuple.blk (x : Tuple) : ℕ := x.t >>> 4

def Tuple.q (x : Tuple) : ℕ := (x.t >>> 2) &&& 3

def Tuple.word (x : Tuple) : ℕ := x.hi <<< 8 ||| x.lo

structure State where
  ps : ℕ → Char
  seen : ℕ → Bool
  pi : Option ℕ
  blocks : ℕ → Option ℕ
  good : ℕ
  bad : ℕ

def start : State := ⟨fun _ => ' ', fun _ => false, none, fun _ => none, 0, 0⟩

/-- `chr(b) if 32 <= b < 127 else "?"` -/
def printable (b : ℕ) : Char := if 32 ≤ b ∧ b < 127 then Char.ofNat b else '?'

def group0 (s : State) (b hi lo : ℕ) : State :=
  let seg := b &&& 3
  { s with
    ps := Function.update (Function.update s.ps (seg * 2) (printable hi)) (seg * 2 + 1) (printable lo)
    seen := Function.update s.seen seg true }

/-- The body of the inner loop. -/
def step (s : State) (x : Tuple) : State :=
  if x.q = 3 then { s with bad := s.bad + 1, blocks := fun _ => none }
  else
    let s := { s with good := s.good + 1 }
    if x.blk = 0 then { s with blocks := Function.update (fun _ => none) 0 (some x.word), pi := some x.word }
    else if (x.blk = 1 ∨ x.blk = 2 ∨ x.blk = 3 ∨ x.blk = 4) ∧ s.blocks 0 ≠ none then
      let s := { s with blocks := Function.update s.blocks x.blk (some x.word) }
      match s.blocks 1 with
      | some b =>
          if x.blk = 3 then
            { (if b >>> 12 = 0 then group0 s b x.hi x.lo else s) with blocks := fun _ => none }
          else s
      | none => s
    else s

/-- `for i in range(0, len(data) - 2, 3)` -/
def tuples : List ℕ → List Tuple
  | t :: hi :: lo :: data => ⟨t, hi, lo⟩ :: tuples data
  | _ => []

/-- `all(seen)` -/
def State.allSeen (s : State) : Bool := s.seen 0 && s.seen 1 && s.seen 2 && s.seen 3

/-- The reads of the FIFO until the name is complete or the time is over. -/
def decode : State → List (List ℕ) → State
  | s, [] => s
  | s, data :: reads =>
      let s := (tuples data).foldl step s
      if s.allSeen then s else decode s reads

/-- A block of that kind that was received. -/
def Tuple.Is (x : Tuple) (k : ℕ) : Prop := x.q ≠ 3 ∧ x.blk = k

/-- From the block `a`, of kind A, up to `n` no block is lost, none starts another group, and no D comes after a B. A D
before the first B ends nothing: the script keeps it and waits for a B and another D. -/
structure Sync (ts : ℕ → Tuple) (a n : ℕ) : Prop where
  lt : a < n
  isA : (ts a).Is 0
  since : ∀ j, a < j → j < n → (ts j).q ≠ 3 ∧ (ts j).blk ≠ 0
  first : ∀ c, a < c → c < n → (ts c).Is 3 → ∀ j, a < j → j < c → ¬(ts j).Is 1

/-- In such a group the block `b` is the last B. -/
structure Open (ts : ℕ → Tuple) (b n : ℕ) : Prop where
  lt : b < n
  isB : (ts b).Is 1
  last : ∀ j, b < j → j < n → ¬(ts j).Is 1
  sync : ∃ a < b, Sync ts a n

/-- The D at `m` completes a group whose last B is at `b`. -/
def Complete (ts : ℕ → Tuple) (b m : ℕ) : Prop := Open ts b m ∧ (ts m).Is 3

/-- The group completed at `m` is of type 0 and carries that segment of the name. -/
def Segment (ts : ℕ → Tuple) (m seg : ℕ) : Prop :=
  ∃ b, Complete ts b m ∧ (ts b).word >>> 12 = 0 ∧ (ts b).word &&& 3 = seg

section
variable {ts : ℕ → Tuple}

theorem Open.unique {b b' n : ℕ} (h : Open ts b n) (h' : Open ts b' n) : b = b' := by
  obtain hlt | heq | hgt := Nat.lt_trichotomy b b'
  · exact absurd h'.isB (h.last b' hlt h'.lt)
  · exact heq
  · exact absurd h.isB (h'.last b hgt h.lt)

theorem Sync.unique {a a' n : ℕ} (h : Sync ts a n) (h' : Sync ts a' n) : a = a' := by
  obtain hlt | heq | hgt := Nat.lt_trichotomy a a'
  · exact absurd h'.isA.2 (h.since a' hlt h'.lt).2
  · exact heq
  · exact absurd h.isA.2 (h'.since a hgt h.lt).2

theorem Sync.exists_open {a n : ℕ} (h : Sync ts a n) {j : ℕ} (haj : a < j) (hjn : j < n) (hj : (ts j).Is 1) :
    ∃ b, Open ts b n := by
  induction hk : n - j using Nat.strongRecOn generalizing j with
  | ind k ih =>
      by_cases hlater : ∃ i, j < i ∧ i < n ∧ (ts i).Is 1
      · obtain ⟨i, hji, hin, hi⟩ := hlater
        exact ih (n - i) (by omega) (by omega) hin hi rfl
      · exact ⟨j, hjn, hj, fun i hji hin hi => hlater ⟨i, hji, hin, hi⟩, a, haj, h⟩

/-- One more block: it starts a group, or goes on with one that it does not lose or complete. -/
theorem sync_succ_iff {a n : ℕ} :
    Sync ts a (n + 1) ↔ a = n ∧ (ts n).Is 0 ∨
      Sync ts a n ∧ (ts n).q ≠ 3 ∧ (ts n).blk ≠ 0 ∧ ¬∃ b, Complete ts b n := by
  constructor
  · intro h
    by_cases han : a = n
    · exact .inl ⟨han, han ▸ h.isA⟩
    · have hlt := h.lt
      have hsync : Sync ts a n :=
        ⟨by omega, h.isA, fun j hj hjn => h.since j hj (by omega), fun c hc hcn => h.first c hc (by omega)⟩
      obtain ⟨hq, hblk⟩ := h.since n hsync.lt (Nat.lt_succ_self n)
      refine .inr ⟨hsync, hq, hblk, fun ⟨b, hopen, hD⟩ => ?_⟩
      obtain ⟨a', hab, hsync'⟩ := hopen.sync
      rw [← hsync.unique hsync'] at hab
      exact h.first n hsync.lt (Nat.lt_succ_self n) hD b hab hopen.lt hopen.isB
  · rintro (⟨rfl, hA⟩ | ⟨h, hq, hblk, hcomplete⟩)
    · exact ⟨Nat.lt_succ_self a, hA, fun j hj hja => by omega, fun c hc hca => by omega⟩
    · refine ⟨by have := h.lt; omega, h.isA, fun j hj hjn => ?_, fun c hc hcn hD j hj hjc hB => ?_⟩
      · obtain hjn | rfl := Nat.lt_succ_iff_lt_or_eq.mp hjn
        · exact h.since j hj hjn
        · exact ⟨hq, hblk⟩
      · obtain hcn | rfl := Nat.lt_succ_iff_lt_or_eq.mp hcn
        · exact h.first c hc hcn hD j hj hjc hB
        · obtain ⟨b, hopen⟩ := h.exists_open hj hjc hB
          exact hcomplete ⟨b, hopen, hD⟩

theorem open_succ_iff {b n : ℕ} :
    Open ts b (n + 1) ↔ b = n ∧ (ts n).Is 1 ∧ (∃ a, Sync ts a n) ∨
      Open ts b n ∧ (ts n).q ≠ 3 ∧ (ts n).blk ≠ 0 ∧ (ts n).blk ≠ 1 ∧ (ts n).blk ≠ 3 := by
  constructor
  · intro h
    obtain ⟨a, hab, hsync⟩ := h.sync
    have hbn := h.lt
    obtain ⟨rfl, -⟩ | ⟨hsync, hq, hblk, hcomplete⟩ := sync_succ_iff.mp hsync
    · omega
    by_cases heq : b = n
    · exact .inl ⟨heq, heq ▸ h.isB, a, hsync⟩
    · have hopen : Open ts b n :=
        ⟨by omega, h.isB, fun j hj hjn => h.last j hj (by omega), a, hab, hsync⟩
      refine .inr ⟨hopen, hq, hblk, fun h1 => ?_, fun h3 => ?_⟩
      · exact h.last n hopen.lt (Nat.lt_succ_self n) ⟨hq, h1⟩
      · exact hcomplete ⟨b, hopen, hq, h3⟩
  · rintro (⟨rfl, hB, a, hsync⟩ | ⟨h, hq, h0, h1, h3⟩)
    · have hnot : ¬∃ b', Complete ts b' b := fun ⟨_, _, hD⟩ => absurd (hB.2.symm.trans hD.2) (by decide)
      have hsucc := sync_succ_iff.mpr (.inr ⟨hsync, hB.1, by rw [hB.2]; decide, hnot⟩)
      exact ⟨Nat.lt_succ_self b, hB, fun j hj hjb => by omega, a, hsync.lt, hsucc⟩
    · obtain ⟨a, hab, hsync⟩ := h.sync
      have hsucc := sync_succ_iff.mpr (.inr ⟨hsync, hq, h0, fun ⟨_, _, hD⟩ => h3 hD.2⟩)
      refine ⟨by have := h.lt; omega, h.isB, fun j hj hjn hj1 => ?_, a, hab, hsucc⟩
      obtain hjn | rfl := Nat.lt_succ_iff_lt_or_eq.mp hjn
      · exact h.last j hj hjn hj1
      · exact h1 hj1.2

end

/-- A block is lost, starts a group, is passed over, is kept, or completes a group. -/
theorem step_cases (s : State) (x : Tuple) :
    (x.q = 3 ∧ step s x = { s with bad := s.bad + 1, blocks := fun _ => none }) ∨
    (x.Is 0 ∧ step s x =
      { s with good := s.good + 1, blocks := Function.update (fun _ => none) 0 (some x.word), pi := some x.word }) ∨
    (x.q ≠ 3 ∧ x.blk ≠ 0 ∧ (s.blocks 0 = none ∨ 4 < x.blk) ∧ step s x = { s with good := s.good + 1 }) ∨
    (x.q ≠ 3 ∧ x.blk ≠ 0 ∧ s.blocks 0 ≠ none ∧ (x.blk = 3 → s.blocks 1 = none) ∧ step s x =
      { s with good := s.good + 1, blocks := Function.update s.blocks x.blk (some x.word) }) ∨
    ∃ b, x.Is 3 ∧ s.blocks 0 ≠ none ∧ s.blocks 1 = some b ∧ step s x =
      { (if b >>> 12 = 0 then group0 s b x.hi x.lo else s) with good := s.good + 1, blocks := fun _ => none } := by
  by_cases hq : x.q = 3
  · exact .inl ⟨hq, if_pos hq⟩
  have hstep := show step s x = _ from if_neg hq
  by_cases h0 : x.blk = 0
  · exact .inr (.inl ⟨⟨hq, h0⟩, hstep.trans (if_pos h0)⟩)
  replace hstep := hstep.trans (if_neg h0)
  by_cases hkept : (x.blk = 1 ∨ x.blk = 2 ∨ x.blk = 3 ∨ x.blk = 4) ∧ s.blocks 0 ≠ none
  · replace hstep := hstep.trans (if_pos hkept)
    by_cases h3 : x.blk = 3
    · cases h1 : s.blocks 1 with
      | none =>
          refine .inr (.inr (.inr (.inl ⟨hq, h0, hkept.2, fun _ => rfl, ?_⟩)))
          simp [hstep, h3, h1]
      | some b =>
          refine .inr (.inr (.inr (.inr ⟨b, ⟨hq, h3⟩, hkept.2, rfl, ?_⟩)))
          by_cases hgroup : b >>> 12 = 0 <;> simp [hstep, h3, h1, hgroup, group0]
    · refine .inr (.inr (.inr (.inl ⟨hq, h0, hkept.2, fun h => absurd h h3, ?_⟩)))
      rw [hstep]
      dsimp only
      cases Function.update s.blocks x.blk (some x.word) 1 with
      | none => rfl
      | some b => exact if_neg h3
  · refine .inr (.inr (.inl ⟨hq, h0, ?_, hstep.trans (if_neg hkept)⟩))
    by_contra hnot
    rw [not_or] at hnot
    exact hkept ⟨by omega, hnot.1⟩

/-- The name after `n` blocks: a segment has what the last group with it carried, or is still blank. -/
structure Named (ts : ℕ → Tuple) (n : ℕ) (ps : ℕ → Char) (seen : ℕ → Bool) : Prop where
  seen : ∀ seg, seen seg = true ↔ ∃ m < n, Segment ts m seg
  last : ∀ m < n, ∀ seg, Segment ts m seg → (∀ m', m < m' → m' < n → ¬Segment ts m' seg) →
    ps (seg * 2) = printable (ts m).hi ∧ ps (seg * 2 + 1) = printable (ts m).lo
  blank : ∀ seg, (∀ m < n, ¬Segment ts m seg) → ps (seg * 2) = ' ' ∧ ps (seg * 2 + 1) = ' '

/-- The blocks kept after `n` blocks: an A of the group that is on, and its last B. -/
structure Kept (ts : ℕ → Tuple) (n : ℕ) (blocks : ℕ → Option ℕ) : Prop where
  sync : blocks 0 ≠ none ↔ ∃ a, Sync ts a n
  group : ∀ w, blocks 1 = some w ↔ ∃ b, Open ts b n ∧ (ts b).word = w

structure Matches (ts : ℕ → Tuple) (n : ℕ) (s : State) : Prop where
  kept : Kept ts n s.blocks
  named : Named ts n s.ps s.seen
  identity : ∀ w, s.pi = some w ↔ ∃ a < n, (ts a).Is 0 ∧ (ts a).word = w ∧ ∀ j, a < j → j < n → ¬(ts j).Is 0
  counts : s.bad = ((List.range n).filter fun j => (ts j).q = 3).length ∧ s.good + s.bad = n

theorem matches_start (ts : ℕ → Tuple) : Matches ts 0 start where
  kept :=
    { sync := ⟨fun h => absurd rfl h, fun ⟨_, h⟩ => absurd h.lt (Nat.not_lt_zero _)⟩
      group := fun _ =>
        ⟨fun h => absurd h.symm (Option.some_ne_none _), fun ⟨_, h, _⟩ => absurd h.lt (Nat.not_lt_zero _)⟩ }
  named :=
    { seen := fun _ => ⟨fun h => absurd h Bool.false_ne_true, fun ⟨_, h, _⟩ => absurd h (Nat.not_lt_zero _)⟩
      last := fun _ h => absurd h (Nat.not_lt_zero _)
      blank := fun _ _ => ⟨rfl, rfl⟩ }
  identity := fun _ => ⟨fun h => absurd h.symm (Option.some_ne_none _), fun ⟨_, h, _⟩ => absurd h (Nat.not_lt_zero _)⟩
  counts := ⟨rfl, rfl⟩

section
variable {ts : ℕ → Tuple} {n : ℕ} {s : State} {ps : ℕ → Char} {seen : ℕ → Bool} {blocks : ℕ → Option ℕ}

theorem exists_lt_succ {p : ℕ → Prop} : (∃ m < n + 1, p m) ↔ (∃ m < n, p m) ∨ p n := by
  constructor
  · rintro ⟨m, hm, hp⟩
    obtain hm | rfl := Nat.lt_succ_iff_lt_or_eq.mp hm
    · exact .inl ⟨m, hm, hp⟩
    · exact .inr hp
  · rintro (⟨m, hm, hp⟩ | hp)
    · exact ⟨m, Nat.lt_succ_of_lt hm, hp⟩
    · exact ⟨n, Nat.lt_succ_self n, hp⟩

theorem Named.keep (h : Named ts n ps seen) (hno : ∀ seg, ¬Segment ts n seg) : Named ts (n + 1) ps seen where
  seen seg := by
    rw [h.seen, exists_lt_succ]
    exact (or_iff_left (hno seg)).symm
  last m hm seg hseg hlast := by
    obtain hm | rfl := Nat.lt_succ_iff_lt_or_eq.mp hm
    · exact h.last m hm seg hseg fun m' hmm' hm' => hlast m' hmm' (Nat.lt_succ_of_lt hm')
    · exact absurd hseg (hno seg)
  blank seg hblank := h.blank seg fun m hm => hblank m (Nat.lt_succ_of_lt hm)

theorem Segment.unique {m seg seg' : ℕ} (h : Segment ts m seg) (h' : Segment ts m seg') : seg = seg' := by
  obtain ⟨b, hb, -, rfl⟩ := h
  obtain ⟨b', hb', -, rfl⟩ := h'
  rw [hb.1.unique hb'.1]

theorem Named.put (h : Named ts n ps seen) {seg : ℕ} (hseg : Segment ts n seg) :
    Named ts (n + 1)
      (Function.update (Function.update ps (seg * 2) (printable (ts n).hi)) (seg * 2 + 1) (printable (ts n).lo))
      (Function.update seen seg true) where
  seen seg' := by
    rw [exists_lt_succ]
    by_cases heq : seg' = seg
    · subst heq
      rw [Function.update_self]
      exact iff_of_true rfl (.inr hseg)
    · rw [Function.update_of_ne heq, h.seen]
      exact (or_iff_left fun h' => heq (h'.unique hseg)).symm
  last m hm seg' hseg' hlast := by
    obtain hm | rfl := Nat.lt_succ_iff_lt_or_eq.mp hm
    · have hne : seg' ≠ seg := fun heq => hlast n hm (Nat.lt_succ_self n) (heq ▸ hseg)
      rw [Function.update_of_ne (by omega), Function.update_of_ne (by omega), Function.update_of_ne (by omega),
        Function.update_of_ne (by omega)]
      exact h.last m hm seg' hseg' fun m' hmm' hm' => hlast m' hmm' (Nat.lt_succ_of_lt hm')
    · rw [hseg'.unique hseg, Function.update_self, Function.update_of_ne (by omega), Function.update_self]
      exact ⟨rfl, rfl⟩
  blank seg' hblank := by
    have hne : seg' ≠ seg := fun heq => hblank n (Nat.lt_succ_self n) (heq ▸ hseg)
    rw [Function.update_of_ne (by omega), Function.update_of_ne (by omega), Function.update_of_ne (by omega),
      Function.update_of_ne (by omega)]
    exact h.blank seg' fun m hm => hblank m (Nat.lt_succ_of_lt hm)

/-- Whether a block completes a group can be told from the blocks that are kept. -/
theorem Kept.complete_iff (h : Kept ts n blocks) : (∃ b, Complete ts b n) ↔ (ts n).Is 3 ∧ blocks 1 ≠ none := by
  constructor
  · rintro ⟨b, hopen, hD⟩
    rw [(h.group _).mpr ⟨b, hopen, rfl⟩]
    exact ⟨hD, Option.some_ne_none _⟩
  · rintro ⟨hD, hne⟩
    obtain ⟨w, hw⟩ := Option.ne_none_iff_exists'.mp hne
    obtain ⟨b, hopen, -⟩ := (h.group w).mp hw
    exact ⟨b, hopen, hD⟩

/-- A B is kept only with its A. -/
theorem Kept.sync_of_group (h : Kept ts n blocks) (hne : blocks 1 ≠ none) : blocks 0 ≠ none := by
  obtain ⟨w, hw⟩ := Option.ne_none_iff_exists'.mp hne
  obtain ⟨b, hopen, -⟩ := (h.group w).mp hw
  obtain ⟨a, -, hsync⟩ := hopen.sync
  exact h.sync.mpr ⟨a, hsync⟩

theorem Kept.no_segment (h : Kept ts n blocks) (hno : ¬((ts n).Is 3 ∧ blocks 1 ≠ none)) (seg : ℕ) :
    ¬Segment ts n seg := fun ⟨b, hb, _⟩ => hno (h.complete_iff.mp ⟨b, hb⟩)

theorem Matches.identity_succ (h : Matches ts n s) (w : ℕ) :
    (if (ts n).q ≠ 3 ∧ (ts n).blk = 0 then some (ts n).word else s.pi) = some w ↔
      ∃ a < n + 1, (ts a).Is 0 ∧ (ts a).word = w ∧ ∀ j, a < j → j < n + 1 → ¬(ts j).Is 0 := by
  by_cases hA : (ts n).q ≠ 3 ∧ (ts n).blk = 0
  · rw [if_pos hA, Option.some_inj]
    constructor
    · exact fun hw => ⟨n, Nat.lt_succ_self n, hA, hw, fun j hj hjn => by omega⟩
    · rintro ⟨a, ha, -, hw, hlast⟩
      obtain ha | rfl := Nat.lt_succ_iff_lt_or_eq.mp ha
      · exact absurd hA (hlast n ha (Nat.lt_succ_self n))
      · exact hw
  · rw [if_neg hA, h.identity]
    constructor
    · rintro ⟨a, ha, haA, hw, hlast⟩
      refine ⟨a, Nat.lt_succ_of_lt ha, haA, hw, fun j hj hjn => ?_⟩
      obtain hjn | rfl := Nat.lt_succ_iff_lt_or_eq.mp hjn
      · exact hlast j hj hjn
      · exact hA
    · rintro ⟨a, ha, haA, hw, hlast⟩
      obtain ha | rfl := Nat.lt_succ_iff_lt_or_eq.mp ha
      · exact ⟨a, ha, haA, hw, fun j hj hjn => hlast j hj (Nat.lt_succ_of_lt hjn)⟩
      · exact absurd haA hA

theorem Matches.counts_succ (h : Matches ts n s) :
    (if (ts n).q = 3 then s.bad + 1 else s.bad) = ((List.range (n + 1)).filter fun j => (ts j).q = 3).length ∧
      (if (ts n).q = 3 then s.good else s.good + 1) + (if (ts n).q = 3 then s.bad + 1 else s.bad) = n + 1 := by
  obtain ⟨hbad, hsum⟩ := h.counts
  rw [List.range_succ, List.filter_append, List.length_append, ← hbad]
  by_cases hq : (ts n).q = 3
  · simp [hq]
    omega
  · simp [hq]
    omega

theorem exists_sync_succ :
    (∃ a, Sync ts a (n + 1)) ↔
      (ts n).Is 0 ∨ (∃ a, Sync ts a n) ∧ (ts n).q ≠ 3 ∧ (ts n).blk ≠ 0 ∧ ¬∃ b, Complete ts b n := by
  simp only [sync_succ_iff, exists_or, exists_eq_left, exists_and_right]

theorem exists_open_succ {w : ℕ} :
    (∃ b, Open ts b (n + 1) ∧ (ts b).word = w) ↔
      ((ts n).Is 1 ∧ ∃ a, Sync ts a n) ∧ (ts n).word = w ∨
        (∃ b, Open ts b n ∧ (ts b).word = w) ∧
          (ts n).q ≠ 3 ∧ (ts n).blk ≠ 0 ∧ (ts n).blk ≠ 1 ∧ (ts n).blk ≠ 3 := by
  constructor
  · rintro ⟨b, hb, hw⟩
    obtain ⟨rfl, hB⟩ | ⟨hopen, hrest⟩ := open_succ_iff.mp hb
    · exact .inl ⟨hB, hw⟩
    · exact .inr ⟨⟨b, hopen, hw⟩, hrest⟩
  · rintro (⟨hB, hw⟩ | ⟨⟨b, hopen, hw⟩, hrest⟩)
    · exact ⟨n, open_succ_iff.mpr (.inl ⟨rfl, hB⟩), hw⟩
    · exact ⟨b, open_succ_iff.mpr (.inr ⟨hopen, hrest⟩), hw⟩

/-- After a block that is lost or completes a group nothing is kept. -/
theorem Kept.clear (h : Kept ts n blocks) (hend : (ts n).q = 3 ∨ (ts n).Is 3 ∧ blocks 1 ≠ none) :
    Kept ts (n + 1) fun _ => none where
  sync := by
    rw [exists_sync_succ, h.complete_iff]
    refine iff_of_false (fun h => h rfl) ?_
    rintro (hA | ⟨-, hq, -, hno⟩)
    · exact hend.elim hA.1 fun hD => absurd (hA.2.symm.trans hD.1.2) (by decide)
    · exact hend.elim hq hno
  group w := by
    rw [exists_open_succ]
    refine iff_of_false (Option.some_ne_none _).symm ?_
    rintro (⟨⟨hB, -⟩, -⟩ | ⟨-, hq, -, -, hne⟩)
    · exact hend.elim hB.1 fun hD => absurd (hB.2.symm.trans hD.1.2) (by decide)
    · exact hend.elim hq fun hD => hne hD.1.2

theorem Kept.first (hA : (ts n).Is 0) :
    Kept ts (n + 1) (Function.update (fun _ => none) 0 (some (ts n).word)) where
  sync := by
    rw [exists_sync_succ, Function.update_self]
    exact iff_of_true (Option.some_ne_none _) (.inl hA)
  group w := by
    rw [exists_open_succ, Function.update_of_ne Nat.one_ne_zero]
    refine iff_of_false (Option.some_ne_none _).symm ?_
    rintro (⟨⟨hB, -⟩, -⟩ | ⟨-, -, hne, -⟩)
    · exact absurd (hA.2.symm.trans hB.2) (by decide)
    · exact hne hA.2

/-- Without an A, or of no known kind, a block changes nothing. -/
theorem Kept.skip (h : Kept ts n blocks) (hq : (ts n).q ≠ 3) (h0 : (ts n).blk ≠ 0)
    (hskip : blocks 0 = none ∨ 4 < (ts n).blk) : Kept ts (n + 1) blocks := by
  have hgroup := h.sync_of_group
  constructor
  · rw [exists_sync_succ, h.complete_iff, ← h.sync]
    unfold Tuple.Is
    grind
  · intro w
    rw [exists_open_succ, ← h.group, ← h.sync]
    unfold Tuple.Is
    grind

theorem Kept.keep (h : Kept ts n blocks) (hq : (ts n).q ≠ 3) (h0 : (ts n).blk ≠ 0) (hsync : blocks 0 ≠ none)
    (h3 : (ts n).blk = 3 → blocks 1 = none) :
    Kept ts (n + 1) (Function.update blocks (ts n).blk (some (ts n).word)) := by
  constructor
  · rw [exists_sync_succ, h.complete_iff, ← h.sync, Function.update_of_ne (Ne.symm h0)]
    unfold Tuple.Is
    grind
  · intro w
    rw [exists_open_succ, ← h.group, ← h.sync]
    unfold Tuple.Is
    by_cases h1 : (ts n).blk = 1
    · rw [h1, Function.update_self]
      grind
    · rw [Function.update_of_ne (Ne.symm h1)]
      grind

theorem matches_step (h : Matches ts n s) : Matches ts (n + 1) (step s (ts n)) := by
  have hident := h.identity_succ
  have hcounts := h.counts_succ
  obtain ⟨hq, hstep⟩ | ⟨hA, hstep⟩ | ⟨hq, h0, hskip, hstep⟩ | ⟨hq, h0, hsync, h3, hstep⟩ |
    ⟨w, hD, hsync, hw, hstep⟩ := step_cases s (ts n)
  · rw [if_neg fun h => h.1 hq] at hident
    rw [if_pos hq, if_pos hq] at hcounts
    rw [hstep]
    exact ⟨h.kept.clear (.inl hq), h.named.keep (h.kept.no_segment fun hD => hD.1.1 hq), hident, hcounts⟩
  · rw [if_pos (show (ts n).q ≠ 3 ∧ (ts n).blk = 0 from hA)] at hident
    rw [if_neg hA.1, if_neg hA.1] at hcounts
    have hno : ¬((ts n).Is 3 ∧ s.blocks 1 ≠ none) := fun hD => absurd (hA.2.symm.trans hD.1.2) (by decide)
    rw [hstep]
    exact ⟨.first hA, h.named.keep (h.kept.no_segment hno), hident, hcounts⟩
  · rw [if_neg fun h => h0 h.2] at hident
    rw [if_neg hq, if_neg hq] at hcounts
    have hno : ¬((ts n).Is 3 ∧ s.blocks 1 ≠ none) := fun hD =>
      hskip.elim (h.kept.sync_of_group hD.2) fun hfour => by have := hD.1.2; omega
    rw [hstep]
    exact ⟨h.kept.skip hq h0 hskip, h.named.keep (h.kept.no_segment hno), hident, hcounts⟩
  · rw [if_neg fun h => h0 h.2] at hident
    rw [if_neg hq, if_neg hq] at hcounts
    rw [hstep]
    exact ⟨h.kept.keep hq h0 hsync h3, h.named.keep (h.kept.no_segment fun hD => hD.2 (h3 hD.1.2)), hident, hcounts⟩
  · rw [if_neg fun h => absurd (hD.2.symm.trans h.2) (by decide)] at hident
    rw [if_neg hD.1, if_neg hD.1] at hcounts
    have hne : s.blocks 1 ≠ none := by rw [hw]; exact Option.some_ne_none w
    have hkept := h.kept.clear (.inr ⟨hD, hne⟩)
    obtain ⟨b, hopen, hword⟩ := (h.kept.group w).mp hw
    rw [hstep]
    by_cases htype : w >>> 12 = 0
    · rw [if_pos htype]
      exact ⟨hkept, h.named.put ⟨b, ⟨hopen, hD⟩, hword ▸ htype, congrArg (· &&& 3) hword⟩, hident, hcounts⟩
    · rw [if_neg htype]
      refine ⟨hkept, h.named.keep fun seg hseg => ?_, hident, hcounts⟩
      obtain ⟨b', hb', htype', -⟩ := hseg
      rw [← hopen.unique hb'.1, hword] at htype'
      exact htype htype'

end

def stream (xs : List Tuple) (j : ℕ) : Tuple := xs.getD j default

theorem matches_take (xs : List Tuple) {n : ℕ} (hn : n ≤ xs.length) :
    Matches (stream xs) n ((xs.take n).foldl step start) := by
  induction n with
  | zero => exact matches_start _
  | succ n ih =>
      have hlt : n < xs.length := hn
      have hx : stream xs n = xs[n] := by
        rw [stream, List.getD_eq_getElem?_getD, List.getElem?_eq_getElem hlt, Option.getD_some]
      rw [List.take_succ_eq_append_getElem hlt, List.foldl_append, List.foldl_cons, List.foldl_nil, ← hx]
      exact matches_step (ih (Nat.le_of_lt hlt))

/-- The loop ends with the reads it has made, before the last one only with the whole name. -/
theorem decode_reads (s : State) (reads : List (List ℕ)) :
    ∃ k ≤ reads.length, decode s reads = ((reads.take k).flatMap tuples).foldl step s ∧
      (k < reads.length → (decode s reads).allSeen = true) := by
  induction reads generalizing s with
  | nil => exact ⟨0, Nat.le_refl 0, rfl, fun h => absurd h (Nat.not_lt_zero 0)⟩
  | cons data reads ih =>
      rw [decode]
      by_cases hall : ((tuples data).foldl step s).allSeen = true
      · rw [if_pos hall]
        refine ⟨1, Nat.succ_pos _, ?_, fun _ => hall⟩
        rw [List.take_succ_cons, List.take_zero, List.flatMap_cons, List.flatMap_nil, List.append_nil]
      · rw [if_neg hall]
        obtain ⟨k, hk, heq, hseen⟩ := ih ((tuples data).foldl step s)
        refine ⟨k + 1, Nat.succ_le_succ hk, ?_, fun h => hseen (Nat.lt_of_succ_lt_succ h)⟩
        rw [List.take_succ_cons, List.flatMap_cons, List.foldl_append, heq]

/-- In any stream of blocks the name is that of the completed groups, the identity the word of the last A alone, and the
counts are of single blocks, up to the read after which the loop stopped. -/
theorem decode_matches (reads : List (List ℕ)) :
    ∃ k ≤ reads.length, (k < reads.length → (decode start reads).allSeen = true) ∧
      Matches (stream ((reads.take k).flatMap tuples)) ((reads.take k).flatMap tuples).length (decode start reads) := by
  obtain ⟨k, hk, heq, hseen⟩ := decode_reads start reads
  refine ⟨k, hk, hseen, ?_⟩
  have hmatches := matches_take ((reads.take k).flatMap tuples) (Nat.le_refl _)
  rwa [List.take_length, ← heq] at hmatches

/-- The group of a station whose first letters are "FM", with a block of the wrong kind between. -/
example :
    (decode start [[0x00, 0xd3, 0x11, 0x10, 0x05, 0x40, 0xf0, 1, 2, 0x20, 0, 0, 0x30, 0x46, 0x4d]]).ps 1 = 'M' := by
  decide

end Sirius.Rds
