import Sirius.Touch.Readers

/-!
# The readers and `report_sem`

Either the readers that the counter counts have `report_sem`, or the one who propagates, or no one. A step
keeps this as long as a reader that has the report gives it back.
-/
namespace Sirius.Touch.Reports
open Runs Function

variable {ι : Type*}

/-- A slot is taken by one reader, and a reader that its semaphore lets go has a report or a status. -/
structure Slots (s : Reports ι) : Prop where
  busy : ∀ i, (s.reportReaders i).reportId ≠ 0 ↔ ∃ r, s.slot r = some i
  inj : ∀ r r' i, s.slot r = some i → s.slot r' = some i → r = r'
  up : ∀ r i, s.slot r = some i → 0 < (s.reportReaders i).sem ∨ (s.readers r).pc = .woken i 0 →
    (s.reportReaders i).reportsPassed ≠ 0 ∨ (s.reportReaders i).status ≠ 0

/-- `report_sem` is with the readers that have the report, or with the one who propagates, or free. -/
structure Counts [Fintype ι] (s : Reports ι) : Prop where
  outstanding : s.reportReadersOutstanding.toNat = s.handed.card
  free : s.reportSem ≠ 0 → s.reportSem = 1 ∧ s.handed = ∅ ∧ ∀ who, ¬s.Taken who
  taken : ∀ who, s.Taken who → s.handed = ∅ ∧ ∀ who', s.Taken who' → who' = who
  available : s.handed = ∅ → (∀ who, ¬s.Taken who) → s.reportSem ≠ 0

section
variable [Fintype ι] {s s' : Reports ι}

theorem mem_handed {r : ι} : r ∈ s.handed ↔ s.Handed r := by simp [handed]

theorem Counts.neverStalls (h : s.Counts) : s.NeverStalls :=
  ⟨h.outstanding, fun hempty hnone => Nat.pos_of_ne_zero (h.available hempty hnone)⟩

theorem handed_congr (h : ∀ r, s'.Handed r ↔ s.Handed r) : s'.handed = s.handed := by
  ext r
  rw [mem_handed, mem_handed, h]

/-- A step that hands nothing over and takes no semaphore. -/
theorem Counts.frame (h : s.Counts) (hhanded : ∀ r, s'.Handed r ↔ s.Handed r)
    (hout : s'.reportReadersOutstanding = s.reportReadersOutstanding) (hsem : s'.reportSem = s.reportSem)
    (htaken : ∀ who, s'.Taken who ↔ s.Taken who) : s'.Counts := by
  refine ⟨?_, ?_, ?_, ?_⟩
  · rw [hout, handed_congr hhanded, h.outstanding]
  · simp only [hsem, handed_congr hhanded, htaken]
    exact h.free
  · simp only [handed_congr hhanded, htaken]
    exact h.taken
  · simp only [hsem, handed_congr hhanded, htaken]
    exact h.available

theorem handed_erase [DecidableEq ι] {r : ι} (hr : ¬s'.Handed r) (h : ∀ r' ≠ r, s'.Handed r' ↔ s.Handed r') :
    s'.handed = s.handed.erase r := by
  ext r'
  rw [Finset.mem_erase, mem_handed, mem_handed]
  by_cases hr' : r' = r
  · subst hr'
    simp [hr]
  · simp [hr', h r' hr']

theorem Counts.releaseReport [DecidableEq ι] (h : s.Counts) {r : ι} (hr : s.Handed r) (hr' : ¬s'.Handed r)
    (hhanded : ∀ r' ≠ r, s'.Handed r' ↔ s.Handed r')
    (hout : s'.reportReadersOutstanding = s.releaseReport.reportReadersOutstanding)
    (hsem : s'.reportSem = s.releaseReport.reportSem) (htaken : ∀ who, s'.Taken who ↔ s.Taken who) : s'.Counts := by
  have hmem := mem_handed.2 hr
  have hnone : ∀ who, ¬s.Taken who := fun who hwho => by
    rw [(h.taken who hwho).1] at hmem
    exact Finset.notMem_empty r hmem
  have hzero : s.reportSem = 0 := by
    by_contra hne
    rw [(h.free hne).2.1] at hmem
    exact Finset.notMem_empty r hmem
  have hcard := Finset.card_pos.2 ⟨r, hmem⟩
  have hnat : (s.reportReadersOutstanding - 1).toNat = (s.handed.erase r).card := by
    rw [Finset.card_erase_of_mem hmem, ← h.outstanding]
    have := h.outstanding
    bv_omega
  have hiff : s.reportReadersOutstanding - 1 = 0 ↔ s.handed.erase r = ∅ := by
    rw [← Finset.card_eq_zero, ← hnat]
    bv_omega
  rw [Reports.releaseReport] at hout hsem
  refine ⟨?_, ?_, fun who hwho => absurd ((htaken who).1 hwho) (hnone who), ?_⟩
  · rw [hout, handed_erase hr' hhanded]
    exact hnat
  · rw [hsem, handed_erase hr' hhanded]
    intro hne
    by_cases hlast : s.reportReadersOutstanding - 1 = 0
    · refine ⟨?_, hiff.1 hlast, fun who hwho => hnone who ((htaken who).1 hwho)⟩
      rw [if_pos hlast, hzero]
    · rw [if_neg hlast] at hne
      exact absurd hzero hne
  · rw [hsem, handed_erase hr' hhanded]
    intro hempty _
    rw [if_pos (hiff.2 hempty)]
    exact Nat.succ_ne_zero _

/-- A reader that has the report is lost. -/
theorem not_neverStalls_of_lost [DecidableEq ι] (h : s.Counts) {r : ι} (hr : s.Handed r) (hr' : ¬s'.Handed r)
    (hhanded : ∀ r' ≠ r, s'.Handed r' ↔ s.Handed r')
    (hout : s'.reportReadersOutstanding = s.reportReadersOutstanding) : ¬s'.NeverStalls := by
  intro hnever
  have hcard := hnever.outstanding
  rw [hout, h.outstanding, handed_erase hr' hhanded] at hcard
  exact (Finset.card_erase_lt_of_mem (mem_handed.2 hr)).ne' hcard

end

section
variable [Fintype ι] {s : Reports ι} {status : ℤ}

/-- The one who propagates has `report_sem`. -/
structure Propagates (s : Reports ι) : Prop where
  outstanding : s.reportReadersOutstanding = 0
  handed : s.handed = ∅
  sem : s.reportSem = 0
  none : ∀ who, ¬s.Taken who

theorem Propagates.passed (h : s.Propagates) {r : ι} {i : Fin MXM_REPORT_READERS_MAX} (hslot : s.slot r = some i) :
    (s.reportReaders i).reportsPassed = 0 := by
  by_contra hne
  have hmem : r ∈ s.handed := mem_handed.2 (Or.inr ⟨i, hslot, hne⟩)
  rw [h.handed] at hmem
  exact Finset.notMem_empty r hmem

theorem Propagates.not_reads (h : s.Propagates) (r : ι) : ¬(s.readers r).pc.Reads := by
  intro hreads
  have hmem : r ∈ s.handed := mem_handed.2 (Or.inl hreads)
  rw [h.handed] at hmem
  exact Finset.notMem_empty r hmem

/-- The report is given up without a reader that has it. -/
theorem Propagates.giveUp (h : s.Propagates) (rx : Rx) :
    ({ s with rx := rx, reportSem := s.reportSem + 1 } : Reports ι).Counts where
  outstanding := by
    have hhanded : ({ s with rx := rx, reportSem := s.reportSem + 1 } : Reports ι).handed = ∅ := h.handed
    rw [hhanded, h.outstanding]
    rfl
  free _ := ⟨congrArg (· + 1) h.sem, h.handed, h.none⟩
  taken who hwho := absurd hwho (h.none who)
  available _ _ := Nat.succ_ne_zero _

theorem Propagates.slots_notifyAll (h : s.Propagates) (hslots : s.Slots) (status : ℤ) : (s.notifyAll status).Slots where
  busy i := by
    simp only [reportReaders_notifyAll, notified_reportId, slot_notifyAll]
    exact hslots.busy i
  inj r r' i := by
    simp only [slot_notifyAll]
    exact hslots.inj r r' i
  up r i hslot hup := by
    rw [slot_notifyAll] at hslot
    rw [readers_notifyAll] at hup
    rw [reportReaders_notifyAll] at hup ⊢
    have hpassed := h.passed hslot
    rw [notified_reportsPassed, hpassed]
    by_cases hpass : s.Passes status i
    · left
      rw [if_pos hpass]
      decide
    · right
      rw [notified, if_neg hpass] at hup ⊢
      have hid := (hslots.busy i).2 ⟨r, hslot⟩
      by_cases hstatus : status = 0
      · rw [if_neg fun hand => hand.1 hstatus] at hup ⊢
        exact (hslots.up r i hslot hup).resolve_left fun hne => hne hpassed
      · rw [if_pos ⟨hstatus, hid⟩]
        exact hstatus

theorem Propagates.handed_notifyAll (h : s.Propagates) (r : ι) :
    (s.notifyAll status).Handed r ↔ ∃ i, s.slot r = some i ∧ s.Passes status i := by
  rw [Handed, readers_notifyAll, or_iff_right (h.not_reads r)]
  refine exists_congr fun i => ?_
  rw [slot_notifyAll, reportReaders_notifyAll]
  refine and_congr_right fun hslot => ?_
  rw [notified_reportsPassed, h.passed hslot]
  by_cases hpass : s.Passes status i <;> simp [hpass]

/-- The report is handed to one reader in each slot that it is for. -/
theorem Propagates.card_handed (h : s.Propagates) (hslots : s.Slots) :
    (s.notifyAll status).handed.card = (s.passers status).card := by
  have himage : (s.notifyAll status).handed.image s.slot = (s.passers status).map Embedding.some := by
    ext slot
    simp only [Finset.mem_image, mem_handed, h.handed_notifyAll, Finset.mem_map, passers, Finset.mem_filter_univ]
    constructor
    · rintro ⟨r, ⟨i, hslot, hpass⟩, rfl⟩
      exact ⟨i, hpass, hslot.symm⟩
    · rintro ⟨i, hpass, rfl⟩
      obtain ⟨r, hslot⟩ := (hslots.busy i).1 hpass.reportId_ne
      exact ⟨r, ⟨i, hslot, hpass⟩, hslot⟩
  rw [← Finset.card_map Embedding.some (s := s.passers status), ← himage]
  refine (Finset.card_image_of_injOn fun r hr r' hr' heq => ?_).symm
  obtain ⟨i, hslot, -⟩ := (h.handed_notifyAll r).1 (mem_handed.1 hr)
  exact hslots.inj r r' i hslot (heq ▸ hslot)

theorem Propagates.notifyAll (h : s.Propagates) (hslots : s.Slots) (status : ℤ) :
    (s.notifyAll status).Counts := by
  have hle : (s.passers status).card ≤ 5 := (Finset.card_le_univ _).trans_eq (Fintype.card_fin _)
  have hcard : (s.notifyAll status).handed.card = (s.passers status).card := h.card_handed hslots
  have hout : (s.notifyAll status).reportReadersOutstanding = BitVec.ofNat 8 (s.passers status).card := by
    rw [notifyAll_eq, h.outstanding]
    exact BitVec.zero_add _
  have hnat : (s.notifyAll status).reportReadersOutstanding.toNat = (s.notifyAll status).handed.card := by
    rw [hout, hcard, BitVec.toNat_ofNat]
    omega
  have hzero : (s.notifyAll status).reportReadersOutstanding = 0 ↔ (s.notifyAll status).handed = ∅ := by
    rw [← Finset.card_eq_zero, ← hnat, ← BitVec.toNat_inj]
    exact Iff.rfl
  have hsem : (s.notifyAll status).reportSem =
      if (s.notifyAll status).reportReadersOutstanding = 0 then 1 else 0 := by
    rw [reportSem_notifyAll, h.sem]
  have hnone : ∀ who, ¬(s.notifyAll status).Taken who := by
    simp only [Taken, propagating_notifyAll]
    exact h.none
  refine ⟨hnat, fun hne => ?_, fun who hwho => absurd hwho (hnone who), fun hempty _ => ?_⟩
  · by_cases hout : (s.notifyAll status).reportReadersOutstanding = 0
    · exact ⟨by rw [hsem, if_pos hout], hzero.1 hout, hnone⟩
    · exact absurd (by rw [hsem, if_neg hout]) hne
  · rw [hsem, if_pos (hzero.2 hempty)]
    exact Nat.one_ne_zero

end

section
variable {s : Reports ι}

theorem taken_setCall_self {who : Propagator} {call : Option Propagation} :
    (s.setCall who call).Taken who ↔ ∃ c, call = some c ∧ c.taken = true := by simp [Taken, setCall]

theorem taken_setCall_of_ne {who who' : Propagator} {call : Option Propagation} (h : who' ≠ who) :
    (s.setCall who call).Taken who' ↔ s.Taken who' := by simp [Taken, setCall, h]

theorem Slots.setCall (h : s.Slots) (who : Propagator) (call : Option Propagation) : (s.setCall who call).Slots :=
  ⟨h.busy, h.inj, h.up⟩

end

section
variable [Fintype ι] {s : Reports ι}

structure Inv (s : Reports ι) : Prop where
  slots : s.Slots
  counts : s.Counts

theorem Inv.deliver (hslots : s.Slots) (h : s.Propagates) (status : ℤ) (report : Option (ℕ → BitVec 16)) :
    (s.deliver status report).Inv := by
  match report with
  | none => exact ⟨h.slots_notifyAll hslots status, h.notifyAll hslots status⟩
  | some report =>
      rw [Reports.deliver]
      have hslots' : ({ s with rx := (combineMultipacketreport s.rx report).1 } : Reports ι).Slots :=
        ⟨hslots.busy, hslots.inj, hslots.up⟩
      have h' : ({ s with rx := (combineMultipacketreport s.rx report).1 } : Reports ι).Propagates :=
        ⟨h.outstanding, h.handed, h.sem, h.none⟩
      dsimp only
      split
      · exact ⟨⟨hslots.busy, hslots.inj, hslots.up⟩, h.giveUp _⟩
      · exact ⟨h'.slots_notifyAll hslots' status, h'.notifyAll hslots' status⟩

/-- The call that has `report_sem` goes on. -/
theorem Counts.propagates (h : s.Counts) {who : Propagator} (htaken : s.Taken who) :
    (s.setCall who none).Propagates := by
  obtain ⟨hempty, hone⟩ := h.taken who htaken
  refine ⟨?_, hempty, ?_, fun who' htaken' => ?_⟩
  · have hzero := h.outstanding
    rw [hempty, Finset.card_empty] at hzero
    exact BitVec.toNat_inj.1 hzero
  · by_contra hne
    exact (h.free hne).2.2 who htaken
  · by_cases heq : who' = who
    · subst who'
      obtain ⟨c, hc, -⟩ := taken_setCall_self.1 htaken'
      cases hc
    · exact heq (hone who' ((taken_setCall_of_ne heq).1 htaken'))

theorem Counts.down (h : s.Counts) (hpos : 0 < s.reportSem) (who : Propagator) (call : Propagation) :
    ({ s with reportSem := s.reportSem - 1 }.setCall who (some { call with taken := true })).Counts := by
  obtain ⟨hsem, hempty, hnone⟩ := h.free hpos.ne'
  have hone : ∀ who',
      ({ s with reportSem := s.reportSem - 1 }.setCall who (some { call with taken := true })).Taken who' →
        who' = who := by
    intro who' htaken
    by_contra hne
    exact hnone who' ((taken_setCall_of_ne hne).1 htaken)
  refine ⟨h.outstanding, fun hne => ?_, fun who' htaken => ⟨hempty, fun who'' htaken' => ?_⟩, fun _ hnone' => ?_⟩
  · exact absurd (congrArg (· - 1) hsem) hne
  · rw [hone who' htaken, hone who'' htaken']
  · exact absurd (taken_setCall_self.2 ⟨_, rfl, rfl⟩) (hnone' who)

theorem Inv.propagate (h : s.Inv) (who : Propagator) : (s.propagate who).Inv := by
  rw [Reports.propagate]
  split
  · exact h
  next call hcall =>
    split
    next htaken =>
      exact Inv.deliver (h.slots.setCall who none) (h.counts.propagates ⟨call, hcall, htaken⟩) _ _
    next htaken =>
      split
      next hpos => exact ⟨⟨h.slots.busy, h.slots.inj, h.slots.up⟩, h.counts.down hpos who call⟩
      · exact h

theorem Inv.start (h : s.Inv) (who : Propagator) (status : ℤ) (report : Option (ℕ → BitVec 16)) :
    (s.start who status report).Inv := by
  rw [Reports.start]
  split
  next hnone =>
    refine ⟨h.slots.setCall _ _, h.counts.frame (fun _ => Iff.rfl) rfl rfl fun who' => ?_⟩
    by_cases heq : who' = who
    · subst who'
      rw [taken_setCall_self]
      simp [Taken, hnone]
    · exact taken_setCall_of_ne heq
  · exact h

end

section
variable {s s' : Reports ι} {r : ι} {i : Fin MXM_REPORT_READERS_MAX}

theorem Slots.stay (h : s.Slots) (hslot : ∀ r, s'.slot r = s.slot r)
    (hid : ∀ i, (s'.reportReaders i).reportId = (s.reportReaders i).reportId)
    (hup : ∀ r i, s.slot r = some i → 0 < (s'.reportReaders i).sem ∨ (s'.readers r).pc = .woken i 0 →
      (s'.reportReaders i).reportsPassed ≠ 0 ∨ (s'.reportReaders i).status ≠ 0) : s'.Slots where
  busy i := by
    simp only [hslot, hid]
    exact h.busy i
  inj r r' i := by
    simp only [hslot]
    exact h.inj r r' i
  up r i hr := hup r i (hslot r ▸ hr)

theorem Slots.leave (h : s.Slots) (hr : s.slot r = some i) (hr' : s'.slot r = none)
    (hreaders : ∀ r' ≠ r, s'.readers r' = s.readers r') (hi : (s'.reportReaders i).reportId = 0)
    (hslots : ∀ j ≠ i, s'.reportReaders j = s.reportReaders j) : s'.Slots := by
  have hslot : ∀ r' ≠ r, s'.slot r' = s.slot r' := fun r' hne => by rw [slot, hreaders r' hne, slot]
  have hsome : ∀ r' j, s'.slot r' = some j → r' ≠ r ∧ j ≠ i ∧ s.slot r' = some j := by
    intro r' j hj
    have hne : r' ≠ r := by
      rintro rfl
      rw [hr'] at hj
      cases hj
    rw [hslot r' hne] at hj
    refine ⟨hne, ?_, hj⟩
    rintro rfl
    exact hne (h.inj r' r j hj hr)
  refine ⟨fun j => ?_, fun r' r'' j h' h'' => ?_, fun r' j hj hup => ?_⟩
  · by_cases hj : j = i
    · subst j
      refine iff_of_false (fun hne => hne hi) ?_
      rintro ⟨r', hr'⟩
      exact (hsome r' i hr').2.1 rfl
    · rw [hslots j hj, h.busy j]
      constructor
      · rintro ⟨r', hr''⟩
        have hne : r' ≠ r := by
          rintro rfl
          rw [hr] at hr''
          exact hj (Option.some.inj hr'').symm
        exact ⟨r', (hslot r' hne).trans hr''⟩
      · rintro ⟨r', hr''⟩
        exact ⟨r', (hsome r' j hr'').2.2⟩
  · exact h.inj r' r'' j (hsome r' j h').2.2 (hsome r'' j h'').2.2
  · obtain ⟨hne, hj', hs⟩ := hsome r' j hj
    rw [hslots j hj', hreaders r' hne] at hup
    rw [hslots j hj']
    exact h.up r' j hs hup

theorem Slots.enter (h : s.Slots) (hr : s.slot r = none) (hi : (s.reportReaders i).reportId = 0)
    (hreaders : ∀ r' ≠ r, s'.readers r' = s.readers r') (hr' : (s'.readers r).pc = .waiting i)
    (hi' : (s'.reportReaders i).reportId ≠ 0) (hsem : (s'.reportReaders i).sem = 0)
    (hslots : ∀ j ≠ i, s'.reportReaders j = s.reportReaders j) : s'.Slots := by
  have hself : s'.slot r = some i := by rw [slot, hr', ReadPc.slot]
  have hslot : ∀ r' ≠ r, s'.slot r' = s.slot r' := fun r' hne => by rw [slot, hreaders r' hne, slot]
  have hfree : ∀ r', s.slot r' ≠ some i := fun r' hr' => (h.busy i).2 ⟨r', hr'⟩ hi
  -- the reader in slot `i` is the new one, and the others are in the slots they were in
  have hsome : ∀ r' j, s'.slot r' = some j ↔ r' = r ∧ j = i ∨ j ≠ i ∧ s.slot r' = some j := by
    intro r' j
    by_cases heq : r' = r
    · subst r'
      rw [hself, hr, Option.some.injEq]
      simp [eq_comm]
    · rw [hslot r' heq]
      simp only [heq, false_and, false_or, iff_and_self]
      rintro hj rfl
      exact hfree r' hj
  refine ⟨fun j => ?_, fun r' r'' j h' h'' => ?_, fun r' j hj hup => ?_⟩
  · by_cases hj : j = i
    · subst j
      exact iff_of_true hi' ⟨r, hself⟩
    · rw [hslots j hj, h.busy j]
      refine exists_congr fun r' => ?_
      simp [hsome, hj]
  · rcases (hsome r' j).1 h' with ⟨rfl, rfl⟩ | ⟨hj, h'⟩ <;> rcases (hsome r'' _).1 h'' with ⟨rfl, heq⟩ | ⟨hj', h''⟩
    · rfl
    · exact absurd rfl hj'
    · exact absurd heq hj
    · exact h.inj r' r'' j h' h''
  · rcases (hsome r' j).1 hj with ⟨rfl, rfl⟩ | ⟨hne, hs⟩
    · rw [hsem, hr'] at hup
      simp at hup
    · rw [hslots j hne] at hup ⊢
      have hr'' : r' ≠ r := by
        rintro rfl
        rw [hr] at hs
        cases hs
      rw [hreaders r' hr''] at hup
      exact h.up r' j hs hup

/-- A reader that stays where it is has the report or not as before. -/
theorem handed_iff (hreader : s'.readers r = s.readers r)
    (hpassed : ∀ i, s.slot r = some i → (s'.reportReaders i).reportsPassed = (s.reportReaders i).reportsPassed) :
    s'.Handed r ↔ s.Handed r := by
  have hslot : s'.slot r = s.slot r := by rw [slot, hreader, slot]
  rw [Handed, Handed, hreader, hslot]
  refine or_congr_right (exists_congr fun i => and_congr_right fun hi => ?_)
  rw [hpassed i hi]

theorem handed_of_slot (hslot : s.slot r = some i) : s.Handed r ↔ (s.reportReaders i).reportsPassed ≠ 0 := by
  have hreads : ¬(s.readers r).pc.Reads := by
    rintro (h | h) <;> rw [slot, h] at hslot <;> cases hslot
  rw [Handed, or_iff_right hreads, hslot]
  simp

theorem handed_of_returned {value : ℤ} (h : (s.readers r).pc = .returned value) : ¬s.Handed r := by
  rintro (hreads | ⟨i, hi, -⟩)
  · rw [h] at hreads
    rcases hreads with h | h <;> cases h
  · rw [slot, h] at hi
    cases hi

end

section
variable {s : Reports ι} {i : Fin MXM_REPORT_READERS_MAX}

theorem reportReaders_setSlot_self (s : Reports ι) (i : Fin MXM_REPORT_READERS_MAX) (reader : ReportReader) :
    (s.setSlot i reader).reportReaders i = reader := update_self ..

theorem reportReaders_setSlot_of_ne (s : Reports ι) (reader : ReportReader) {i j : Fin MXM_REPORT_READERS_MAX}
    (h : j ≠ i) : (s.setSlot i reader).reportReaders j = s.reportReaders j := update_of_ne h ..

/-- What a slot is set to agrees with what it was on everything but what is written. -/
theorem field_setSlot {β : Type*} (f : ReportReader → β) {reader : ReportReader} (h : f reader = f (s.reportReaders i))
    (j : Fin MXM_REPORT_READERS_MAX) : f ((s.setSlot i reader).reportReaders j) = f (s.reportReaders j) := by
  by_cases heq : j = i
  · subst j
    rw [reportReaders_setSlot_self, h]
  · rw [reportReaders_setSlot_of_ne _ _ heq]

end

section
variable [DecidableEq ι] {s : Reports ι} {r : ι} {i : Fin MXM_REPORT_READERS_MAX} {ret : ℤ}

theorem reportReaders_setReader (s : Reports ι) (r : ι) (reader : Reader) :
    (s.setReader r reader).reportReaders = s.reportReaders := rfl

theorem readers_setReader_self (s : Reports ι) (r : ι) (reader : Reader) :
    (s.setReader r reader).readers r = reader := update_self ..

theorem readers_setReader_of_ne (s : Reports ι) (reader : Reader) {r r' : ι} (h : r' ≠ r) :
    (s.setReader r reader).readers r' = s.readers r' := update_of_ne h ..

theorem readers_setPc_self (s : Reports ι) (r : ι) (pc : ReadPc) :
    (s.setPc r pc).readers r = { s.readers r with pc := pc } := readers_setReader_self ..

theorem readers_setPc_of_ne (s : Reports ι) (pc : ReadPc) {r r' : ι} (h : r' ≠ r) :
    (s.setPc r pc).readers r' = s.readers r' := readers_setReader_of_ne _ _ h

/-- A reader that leaves its slot with the report is handed it, one that returns is not. -/
theorem handed_setPc_self {pc : ReadPc} (h : pc.slot = none) : (s.setPc r pc).Handed r ↔ pc.Reads := by
  rw [Handed, slot, readers_setPc_self, h]
  simp

theorem readers_leaveSlot : (s.leaveSlot r i ret).readers = (s.setPc r
    (if (if (s.reportReaders i).status = 0 then ret else (s.reportReaders i).status) ≠ 0 then .returned 0
      else .given)).readers := by
  rw [leaveSlot]
  split <;> rfl

theorem reportReaders_leaveSlot : (s.leaveSlot r i ret).reportReaders =
    (s.setSlot i { s.reportReaders i with reportId := 0 }).reportReaders := by
  rw [leaveSlot]
  split <;> rfl

theorem slot_leaveSlot : (s.leaveSlot r i ret).slot r = none := by
  rw [slot, readers_leaveSlot, readers_setPc_self]
  exact (apply_ite ReadPc.slot _ _ _).trans (ite_self _)

theorem readers_leaveSlot_of_ne {r' : ι} (h : r' ≠ r) : (s.leaveSlot r i ret).readers r' = s.readers r' := by
  rw [readers_leaveSlot, readers_setPc_of_ne _ _ h]

theorem Slots.leaveSlot (h : s.Slots) (hr : (s.readers r).pc = .woken i ret) : (s.leaveSlot r i ret).Slots := by
  have hslot : s.slot r = some i := by rw [slot, hr, ReadPc.slot]
  refine h.leave hslot slot_leaveSlot (fun r' hne => readers_leaveSlot_of_ne hne) ?_ fun j hne => ?_
  · rw [reportReaders_leaveSlot, reportReaders_setSlot_self]
  · rw [reportReaders_leaveSlot, reportReaders_setSlot_of_ne _ _ hne]

theorem handed_leaveSlot_of_ne {r' : ι} (hne : r' ≠ r) :
    (s.leaveSlot r i ret).Handed r' ↔ s.Handed r' := by
  refine handed_iff (readers_leaveSlot_of_ne hne) fun j hj => ?_
  rw [reportReaders_leaveSlot]
  exact field_setSlot ReportReader.reportsPassed (by rfl) j

/-- Only a reader without an error and without a status is given the report. -/
theorem handed_leaveSlot_self : (s.leaveSlot r i ret).Handed r ↔ ret = 0 ∧ (s.reportReaders i).status = 0 := by
  rw [Handed, slot_leaveSlot, readers_leaveSlot, readers_setPc_self]
  by_cases hstatus : (s.reportReaders i).status = 0 <;> by_cases hret : ret = 0 <;> simp [hstatus, hret, ReadPc.Reads]

theorem not_handed_setPc_returned (value : ℤ) : ¬(s.setPc r (.returned value)).Handed r := by
  rw [handed_setPc_self rfl]
  simp [ReadPc.Reads]

theorem Slots.setPc (h : s.Slots) (hr : s.slot r = none) {pc : ReadPc} (hpc : pc.slot = none) :
    (s.setPc r pc).Slots := by
  have hslots : ∀ r', (s.setPc r pc).slot r' = s.slot r' := fun r' => by
    by_cases heq : r' = r
    · subst r'
      rw [slot, readers_setPc_self, hr]
      exact hpc
    · rw [slot, readers_setPc_of_ne _ _ heq, slot]
  refine h.stay hslots (fun _ => rfl) fun r' i hi => ?_
  by_cases heq : r' = r
  · subst r'
    rw [hr] at hi
    cases hi
  · rw [readers_setPc_of_ne _ _ heq]
    exact h.up r' i hi

theorem handed_setPc_of_ne {pc : ReadPc} {r' : ι} (h : r' ≠ r) : (s.setPc r pc).Handed r' ↔ s.Handed r' :=
  handed_iff (readers_setPc_of_ne _ _ h) fun _ _ => rfl

end

section
variable [Fintype ι] {s : Reports ι}

theorem Inv.probed (rx : Rx) : (probed rx : Reports ι).Inv := by
  have hnone : ∀ r, ¬(Reports.probed rx : Reports ι).Handed r := fun r => handed_of_returned (by rfl)
  have hempty : (Reports.probed rx : Reports ι).handed = ∅ := Finset.filter_false_of_mem fun r _ => hnone r
  have hfree : ∀ who, ¬(Reports.probed rx : Reports ι).Taken who := by
    rintro who ⟨call, hcall, -⟩
    cases hcall
  refine ⟨⟨fun i => ?_, ?_, ?_⟩, ?_, fun _ => ⟨rfl, hempty, hfree⟩, fun who hwho => absurd hwho (hfree who),
    fun _ _ => Nat.one_ne_zero⟩
  · refine iff_of_false (fun hne => hne rfl) ?_
    rintro ⟨r, hr⟩
    cases hr
  · rintro r r' i hr
    cases hr
  · rintro r i hr
    cases hr
  · rw [hempty]
    rfl

theorem Inv.takeSem (h : s.Inv) (i : Fin MXM_REPORT_READERS_MAX) :
    (s.setSlot i { s.reportReaders i with sem := (s.reportReaders i).sem - 1 }).Inv := by
  refine ⟨h.slots.stay (fun _ => rfl) (field_setSlot ReportReader.reportId (by rfl)) fun r j hj => ?_,
    h.counts.frame (fun r => handed_iff rfl fun j _ => field_setSlot ReportReader.reportsPassed (by rfl) j) rfl rfl
      fun _ => Iff.rfl⟩
  by_cases heq : j = i
  · subst j
    rw [reportReaders_setSlot_self]
    exact fun hup => h.slots.up r i hj (hup.imp_left fun hsem => Nat.lt_of_lt_of_le hsem (Nat.sub_le _ _))
  · rw [reportReaders_setSlot_of_ne _ _ heq]
    exact h.slots.up r j hj

end

section
variable [Fintype ι] [DecidableEq ι] {s : Reports ι} {r : ι} {i : Fin MXM_REPORT_READERS_MAX} {ret : ℤ}

/-- A reader goes on without leaving its slot or the report. -/
theorem Inv.setReader (h : s.Inv) (reader : Reader) (hslot : reader.pc.slot = s.slot r)
    (hreads : reader.pc.Reads ↔ (s.readers r).pc.Reads)
    (hup : ∀ i, reader.pc = .woken i 0 → (s.reportReaders i).reportsPassed ≠ 0 ∨ (s.reportReaders i).status ≠ 0) :
    (s.setReader r reader).Inv := by
  have hslots : ∀ r', (s.setReader r reader).slot r' = s.slot r' := fun r' => by
    by_cases heq : r' = r
    · subst r'
      rw [slot, readers_setReader_self, hslot]
    · rw [slot, readers_setReader_of_ne _ _ heq, slot]
  refine ⟨h.slots.stay hslots (fun _ => rfl) fun r' i hi => ?_, h.counts.frame (fun r' => ?_) rfl rfl
    fun _ => Iff.rfl⟩ <;> by_cases heq : r' = r
  · subst r'
    rw [readers_setReader_self]
    rintro (hsem | hpc)
    · exact h.slots.up r i hi (Or.inl hsem)
    · exact hup i hpc
  · rw [readers_setReader_of_ne _ _ heq]
    exact h.slots.up r' i hi
  · subst r'
    rw [Handed, Handed, hslots, readers_setReader_self, hreads]
    exact Iff.rfl
  · exact handed_iff (readers_setReader_of_ne _ _ heq) fun _ _ => rfl

theorem Inv.getReport (h : s.Inv) {value : ℤ} (hr : (s.readers r).pc = .returned value) (count : ℕ)
    {reportId : BitVec 16} (hid : reportId ≠ 0) : (s.getReport r count reportId).Inv := by
  have hslot : s.slot r = none := by rw [slot, hr, ReadPc.slot]
  rw [Reports.getReport]
  split
  · refine h.setReader _ hslot.symm ?_ fun i hi => by cases hi
    rw [hr]
    simp [ReadPc.Reads]
  next i hi =>
    have hfree : (s.reportReaders i).reportId = 0 := by simpa using List.find?_some hi
    refine ⟨h.slots.enter hslot hfree (fun r' hne => readers_setReader_of_ne _ _ hne) ?_ ?_ ?_
      fun j hne => reportReaders_setSlot_of_ne _ _ hne, h.counts.frame (fun r' => ?_) rfl rfl fun _ => Iff.rfl⟩
    · rw [readers_setReader_self]
    · rwa [reportReaders_setReader, reportReaders_setSlot_self]
    · rw [reportReaders_setReader, reportReaders_setSlot_self]
    · by_cases heq : r' = r
      · subst r'
        refine iff_of_false ?_ (handed_of_returned hr)
        rw [handed_of_slot (i := i) (by rw [slot, readers_setReader_self, ReadPc.slot]), reportReaders_setReader,
          reportReaders_setSlot_self]
        exact not_not.2 rfl
      · refine handed_iff (readers_setReader_of_ne _ _ heq) fun j hj => ?_
        have hne : j ≠ i := by
          rintro rfl
          exact (h.slots.busy j).2 ⟨r', hj⟩ hfree
        rw [reportReaders_setReader, reportReaders_setSlot_of_ne _ _ hne]

theorem Inv.downReader (h : s.Inv) (hr : (s.readers r).pc = .waiting i) (ret : ℤ) : (s.downReader r i ret).Inv := by
  have hslot : s.slot r = some i := by rw [slot, hr, ReadPc.slot]
  have hreads : ∀ ret, (ReadPc.woken i ret).Reads ↔ (s.readers r).pc.Reads := fun ret => by
    rw [hr]
    simp [ReadPc.Reads]
  rw [Reports.downReader]
  split
  next hsem =>
    refine (h.takeSem i).setReader _ hslot.symm (hreads 0) fun j hj => ?_
    cases hj
    rw [reportReaders_setSlot_self]
    exact h.slots.up r i hslot (Or.inl hsem)
  · split
    next hret =>
      refine h.setReader _ hslot.symm (hreads ret) fun j hj => ?_
      cases hj
      exact absurd rfl hret
    · exact h

theorem Inv.leaveSlot (h : s.Inv) (hr : (s.readers r).pc = .woken i ret)
    (hgives : ret = 0 → (s.reportReaders i).reportsPassed ≠ 0 → (s.reportReaders i).status = 0) :
    (s.leaveSlot r i ret).Inv := by
  have hslot : s.slot r = some i := by rw [slot, hr, ReadPc.slot]
  have htaken : ∀ who, (s.leaveSlot r i ret).Taken who ↔ s.Taken who := fun who => by
    rw [Reports.leaveSlot]
    split <;> exact Iff.rfl
  refine ⟨h.slots.leaveSlot hr, ?_⟩
  by_cases hback : ret ≠ 0 ∧ 0 < (s.reportReaders i).reportsPassed
  · refine h.counts.releaseReport (r := r) ((handed_of_slot hslot).2 ?_) ?_
      (fun r' hne => handed_leaveSlot_of_ne hne) ?_ ?_ htaken
    · bv_omega
    · exact fun hself => hback.1 (handed_leaveSlot_self.1 hself).1
    · rw [Reports.leaveSlot, if_pos hback]
      rfl
    · rw [Reports.leaveSlot, if_pos hback]
      rfl
  · refine h.counts.frame (fun r' => ?_) ?_ ?_ htaken
    · by_cases heq : r' = r
      · subst r'
        rw [handed_leaveSlot_self, handed_of_slot hslot]
        constructor
        · rintro ⟨rfl, hstatus⟩
          exact (h.slots.up r i hslot (Or.inr hr)).resolve_right (not_not.2 hstatus)
        · intro hpassed
          have hret : ret = 0 := by
            by_contra hne
            exact hback ⟨hne, by bv_omega⟩
          exact ⟨hret, hgives hret hpassed⟩
      · exact handed_leaveSlot_of_ne heq
    · rw [Reports.leaveSlot, if_neg hback]
      rfl
    · rw [Reports.leaveSlot, if_neg hback]
      rfl

theorem Inv.print (h : s.Inv) (hr : (s.readers r).pc = .given) : (s.setPc r .printed).Inv := by
  have hslot : s.slot r = none := by rw [slot, hr, ReadPc.slot]
  refine h.setReader _ hslot.symm ?_ fun i hi => by cases hi
  rw [hr]
  simp [ReadPc.Reads]

theorem Inv.release (h : s.Inv) (hr : (s.readers r).pc = .printed) (value : ℤ) :
    (s.releaseReport.setPc r (.returned value)).Inv := by
  have hslot : s.slot r = none := by rw [slot, hr, ReadPc.slot]
  have hslots : s.releaseReport.Slots := ⟨h.slots.busy, h.slots.inj, h.slots.up⟩
  refine ⟨hslots.setPc hslot rfl, ?_⟩
  refine h.counts.releaseReport (r := r) (Or.inl (Or.inr hr)) (not_handed_setPc_returned value) (fun r' hne => ?_) rfl
    rfl fun _ => Iff.rfl
  exact handed_setPc_of_ne hne

theorem Inv.step (h : s.Inv) {act : Act ι} (hgives : s.GivesBack act) : (s.step act).Inv := by
  cases act with
  | interrupt packet => exact h.start _ _ _
  | shutdown => exact h.start _ _ _
  | propagate who => exact h.propagate who
  | read r count =>
      rw [Reports.step]
      split
      next value hr => exact h.getReport hr count (by decide)
      · exact h
  | reader r ret =>
      rw [Reports.step, Reports.reportRead]
      split
      · exact h
      next i hr => exact h.downReader hr ret
      next i ret hr => exact h.leaveSlot hr fun hret => hgives.2 i (hret ▸ hr)
      next hr =>
        rw [if_neg (hgives.1 hr).not_gt]
        exact h.print hr
      next hr => exact h.release hr _

/-- A reader that does not give the report back leaves the counter behind. -/
theorem Inv.givesBack_of_neverStalls (h : s.Inv) {act : Act ι} (hnever : (s.step act).NeverStalls) :
    s.GivesBack act := by
  cases act with
  | reader r ret =>
      rw [Reports.step, Reports.reportRead] at hnever
      refine ⟨fun hr => ?_, fun i hr hpassed => ?_⟩
      · by_contra hlt
        rw [hr] at hnever
        dsimp only at hnever
        rw [if_pos (not_le.1 hlt)] at hnever
        exact not_neverStalls_of_lost h.counts (Or.inl (Or.inl hr)) (not_handed_setPc_returned _)
          (fun r' hne => handed_setPc_of_ne hne) rfl hnever
      · by_contra hstatus
        rw [hr] at hnever
        dsimp only at hnever
        have hslot : s.slot r = some i := by rw [slot, hr, ReadPc.slot]
        refine not_neverStalls_of_lost h.counts (r := r) ((handed_of_slot hslot).2 hpassed) ?_
          (fun r' hne => handed_leaveSlot_of_ne hne) ?_ hnever
        · exact fun hself => hstatus (handed_leaveSlot_self.1 hself).2
        · rw [Reports.leaveSlot, if_neg fun hand => hand.1 rfl]
          rfl
  | interrupt | shutdown | propagate | read => trivial

variable (ι) in
/-- Readers never stall the touchscreen just if every reader that has a report gives it back. -/
theorem neverStalls_iff (rx : Rx) (acts : List (Act ι)) :
    Always step (fun s act => (s.step act).NeverStalls) (Reports.probed rx) acts ↔
      Always step GivesBack (Reports.probed rx) acts :=
  always_iff_of_invariant (I := Inv) (fun _ _ h hgives => h.step hgives)
    (fun _ _ h => ⟨h.givesBack_of_neverStalls, fun hgives => (h.step hgives).counts.neverStalls⟩) (Inv.probed rx)

/-- A reader with no room for the report it waits for. -/
def shortRead : List (Act Unit) :=
  [.read () 1, .interrupt fun _ => 0x1101, .propagate .interrupt, .propagate .interrupt, .reader () 0, .reader () 0,
    .reader () 0]

theorem shortRead_stalls : ¬Always step (fun s act => (s.step act).NeverStalls)
    (Reports.probed ⟨fun _ => 0, 0, 0, false⟩) shortRead := by
  rintro ⟨-, -, -, -, -, -, hlast, -⟩
  have hcount := hlast.outstanding
  revert hcount
  decide +kernel

end

end Sirius.Touch.Reports
