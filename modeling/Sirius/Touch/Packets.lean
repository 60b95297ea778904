import Sirius.Lib.Runs
import Sirius.Touch.Model

/-!
# Reports of several packets

`combine_multipacketreport` puts the packets of a report together. It counts the packets it has taken and
takes the next number, whichever report that belongs to, at an offset that the number names.
-/
namespace Sirius.Touch
open Runs

@[simp] def MXM_RPT_LEN_PACKET_MAX : ℕ := 245
@[simp] def MXM_RPT_LEN_MAX : ℕ := 1000
@[simp] def MXM_RPT_MAX_WORDS_PER_PKT : ℕ := 0xF4
@[simp] def MXM_RPT_ID_TOUCH_RAW_IMAGE : BitVec 16 := 0x0800
@[simp] def EAGAIN : ℤ := 11
@[simp] def EIO : ℤ := 5

/-- `BYTEL(a)` -/
def BYTEL (a : BitVec 16) : BitVec 16 := a &&& 0xFF

/-- `HI_NIBBLE(a)` -/
def HI_NIBBLE (a : BitVec 16) : BitVec 16 := (a &&& 0xF0) >>> 4

/-- `LO_NIBBLE(a)` -/
def LO_NIBBLE (a : BitVec 16) : BitVec 16 := a &&& 0x0F

/-- `rx_report` with its length and the static counter. `overrun` notes a write behind the array. -/
structure Rx where
  rxReport : ℕ → BitVec 16
  rxReportLen : BitVec 16
  packetSeqCombined : BitVec 16
  overrun : Bool

/-- `memcpy(ts->rx_report + dst, src, n << 1)` -/
def Rx.memcpy (ts : Rx) (dst : ℕ) (src : ℕ → BitVec 16) (n : ℕ) : Rx :=
  { ts with
    rxReport := fun i => if dst ≤ i ∧ i < dst + n then src (i - dst) else ts.rxReport i
    overrun := ts.overrun || decide (0 < n ∧ MXM_RPT_LEN_MAX < dst + n) }

def combineMultipacketreport (ts : Rx) (report : ℕ → BitVec 16) : Rx × ℤ :=
  let packetSeqNum := BYTEH (report 0)
  let packetSize := (BYTEL (report 0)).toNat
  if packetSeqNum = MXM_ONE_PACKET_RPT then
    ({ ts.memcpy 0 report (packetSize + 1) with
        rxReportLen := BYTEL (report 0)
        packetSeqCombined := 1 }, 0)
  else
    let totalPackets := HI_NIBBLE packetSeqNum
    let thisPacketNum := LO_NIBBLE packetSeqNum
    if thisPacketNum = 1 then
      if report 1 = MXM_RPT_ID_TOUCH_RAW_IMAGE then
        (({ ts with rxReportLen := report 2 + 2, packetSeqCombined := 1 } : Rx).memcpy 0 report (packetSize + 1),
          - EAGAIN)
      else (ts, - EIO)
    else if thisPacketNum.toNat = ts.packetSeqCombined.toNat + 1 then
      let offset := (thisPacketNum.toNat - 1) * MXM_RPT_MAX_WORDS_PER_PKT + 1
      (({ ts with packetSeqCombined := ts.packetSeqCombined + 1 } : Rx).memcpy offset (fun i => report (i + 1))
          packetSize,
        if totalPackets = thisPacketNum then 0 else - EIO)
    else (ts, - EIO)

/-- A packet as `read_mtp_report` hands it over, and the report of the chip that it is part of. -/
structure Packet where
  report : ℕ
  buf : ℕ → BitVec 16
  size_le : (BYTEL (buf 0)).toNat ≤ MXM_RPT_LEN_PACKET_MAX

namespace Packet
variable (p : Packet)

def size : ℕ := (BYTEL (p.buf 0)).toNat
def num : ℕ := (LO_NIBBLE (BYTEH (p.buf 0))).toNat
def total : ℕ := (HI_NIBBLE (BYTEH (p.buf 0))).toNat
def words : List (BitVec 16) := (List.range p.size).map fun k => p.buf (k + 1)

/-- A report of one packet. -/
def Single : Prop := BYTEH (p.buf 0) = MXM_ONE_PACKET_RPT

instance : Decidable p.Single := inferInstanceAs (Decidable (_ = _))

/-- The first packet of a report of several that the driver takes. -/
def Opens : Prop := p.num = 1 ∧ p.buf 1 = MXM_RPT_ID_TOUCH_RAW_IMAGE

instance : Decidable p.Opens := inferInstanceAs (Decidable (_ ∧ _))

/-- The number that the counter asks for. -/
def Follows (ts : Rx) : Prop := p.num ≠ 1 ∧ p.num = ts.packetSeqCombined.toNat + 1

instance (ts : Rx) : Decidable (p.Follows ts) := inferInstanceAs (Decidable (_ ∧ _))

@[simp] theorem length_words : p.words.length = p.size := by
  rw [words, List.length_map, List.length_range]

end Packet

/-- The driver's state, the packets passed to it so far, of these the ones of a report that is being put
together, and all that came since the first of them. -/
structure Reassembly where
  rx : Rx
  history : List Packet
  group : List Packet
  since : List Packet

namespace Reassembly
variable (s : Reassembly) (p : Packet)

/-- The packet is the next one of the report that is being put together. -/
def Continues : Prop :=
  s.group ≠ [] ∧ p.num = s.group.length + 1 ∧ ∀ q ∈ s.group, q.report = p.report ∧ q.total = p.total

instance : Decidable (s.Continues p) := inferInstanceAs (Decidable (_ ∧ _ ∧ _))

/-- What is put together behind the packet: a packet that is not taken breaks a report it is not part of. -/
def collect : List Packet × List Packet :=
  if p.Single then ([], [])
  else if p.Opens then ([p], [p])
  else if p.Follows s.rx then
    if s.Continues p then (s.group ++ [p], s.since ++ [p]) else ([], [])
  else if ∀ q ∈ s.group, q.report = p.report then (s.group, s.since ++ [p])
  else ([], [])

def step : Reassembly where
  rx := (combineMultipacketreport s.rx p.buf).1
  history := s.history ++ [p]
  group := (s.collect p).1
  since := (s.collect p).2

/-- The words are in memory from `start` on. -/
def Stored (mem : ℕ → BitVec 16) (start : ℕ) (words : List (BitVec 16)) : Prop :=
  ∀ k (h : k < words.length), mem (start + k) = words[k]

/-- `rx_report` holds the words of these packets, which are one whole report, with no packet of another one
in between. -/
structure Whole (history group : List Packet) (rx : Rx) : Prop where
  numbered : group.map Packet.num = List.range' 1 group.length
  total : ∀ q ∈ group, q.total = group.length
  unbroken : ∃ front back, history = front ++ back ∧ group.Sublist back ∧
    ∀ q ∈ back, ∀ q' ∈ group, q.report = q'.report
  stored : Stored rx.rxReport 1 (group.flatMap Packet.words)
  length : rx.rxReportLen.toNat = (group.flatMap Packet.words).length

/-- No write leaves the array, and a call that returns zero leaves a whole report, the packet its last one. -/
def Combined : Prop :=
  (s.step p).rx.overrun = false ∧
    ((combineMultipacketreport s.rx p.buf).2 = 0 →
      ∃ group, group.getLast? = some p ∧ Whole (s.history ++ [p]) group (s.step p).rx)

/-- A packet with the number that the counter asks for fits the array. If it is the last of its report, it
is the next packet of the report being put together, the packets before it are full, and the length in the
first one is that of all words. -/
def InOrder : Prop :=
  ¬p.Single → p.Follows s.rx →
    (p.size = 0 ∨ (p.num - 1) * MXM_RPT_MAX_WORDS_PER_PKT + 1 + p.size ≤ MXM_RPT_LEN_MAX) ∧
      (p.num = p.total → s.Continues p ∧ (∀ q ∈ s.group, q.size = MXM_RPT_MAX_WORDS_PER_PKT) ∧
        ∀ q ∈ s.group.head?, (q.buf 2 + 2).toNat = ((s.group ++ [p]).flatMap Packet.words).length)

instance : Decidable (s.InOrder p) := inferInstanceAs (Decidable (_ → _ → _ ∧ (_ → _ ∧ _ ∧ _)))

/-- Before the first packet. -/
def empty (rxReport : ℕ → BitVec 16) : Reassembly where
  rx := ⟨rxReport, 0, 0, false⟩
  history := []
  group := []
  since := []

section
variable {s p} {ts : Rx}

theorem num_le (p : Packet) : p.num ≤ 15 := by
  rw [Packet.num, LO_NIBBLE, BitVec.toNat_and]
  exact Nat.and_le_right

theorem num_eq_one : p.num = 1 ↔ LO_NIBBLE (BYTEH (p.buf 0)) = 1 := by
  rw [← BitVec.toNat_inj]
  exact Iff.rfl

theorem combine_single (h : p.Single) : combineMultipacketreport ts p.buf =
    ({ ts.memcpy 0 p.buf (p.size + 1) with rxReportLen := BYTEL (p.buf 0), packetSeqCombined := 1 }, 0) := by
  rw [combineMultipacketreport]
  exact if_pos h

theorem combine_opens (h : ¬p.Single) (hopens : p.Opens) : combineMultipacketreport ts p.buf =
    (({ ts with rxReportLen := p.buf 2 + 2, packetSeqCombined := 1 } : Rx).memcpy 0 p.buf (p.size + 1), - EAGAIN) := by
  refine (if_neg h).trans ?_
  exact (if_pos (num_eq_one.1 hopens.1)).trans (if_pos hopens.2)

theorem combine_follows (h : ¬p.Single) (hfollows : p.Follows ts) : combineMultipacketreport ts p.buf =
    (({ ts with packetSeqCombined := ts.packetSeqCombined + 1 } : Rx).memcpy
        ((p.num - 1) * MXM_RPT_MAX_WORDS_PER_PKT + 1) (fun i => p.buf (i + 1)) p.size,
      if p.num = p.total then 0 else - EIO) := by
  refine (if_neg h).trans ?_
  refine (if_neg fun hone => hfollows.1 (num_eq_one.2 hone)).trans ((if_pos hfollows.2).trans ?_)
  refine congrArg (Prod.mk _) (if_congr ?_ rfl rfl)
  rw [eq_comm, ← BitVec.toNat_inj]
  exact Iff.rfl

theorem combine_other (h : ¬p.Single) (hopens : ¬p.Opens) (hfollows : ¬p.Follows ts) :
    combineMultipacketreport ts p.buf = (ts, - EIO) := by
  refine (if_neg h).trans ?_
  by_cases hone : p.num = 1
  · exact (if_pos (num_eq_one.1 hone)).trans (if_neg fun hid => hopens ⟨hone, hid⟩)
  · exact (if_neg fun h => hone (num_eq_one.2 h)).trans (if_neg fun hnext => hfollows ⟨hone, hnext⟩)

theorem seq_succ (h : p.Follows ts) : (ts.packetSeqCombined + 1).toNat = p.num := by
  have := num_le p
  rw [BitVec.toNat_add, h.2]
  exact Nat.mod_eq_of_lt (by have := h.2; simp; omega)

theorem Stored.append {mem : ℕ → BitVec 16} {start : ℕ} {as bs : List (BitVec 16)} (ha : Stored mem start as)
    (hb : Stored mem (start + as.length) bs) : Stored mem start (as ++ bs) := by
  intro k hk
  rw [List.length_append] at hk
  by_cases hlt : k < as.length
  · rw [List.getElem_append_left hlt]
    exact ha k hlt
  · rw [List.getElem_append_right (by omega), ← hb (k - as.length) (by omega)]
    congr 1
    omega

/-- A copy leaves in memory what is before it. -/
theorem Stored.memcpy {dst start n : ℕ} {src : ℕ → BitVec 16} {as : List (BitVec 16)}
    (h : Stored ts.rxReport start as) (hle : start + as.length ≤ dst) :
    Stored (ts.memcpy dst src n).rxReport start as := by
  intro k hk
  rw [← h k hk]
  exact if_neg fun hin => by omega

theorem Stored.copied (ts : Rx) (dst : ℕ) (p : Packet) :
    Stored (ts.memcpy dst (fun i => p.buf (i + 1)) p.size).rxReport dst p.words := by
  intro k hk
  rw [Packet.length_words] at hk
  simp only [Packet.words, List.getElem_map, List.getElem_range, Rx.memcpy]
  rw [if_pos ⟨by omega, by omega⟩]
  congr 1
  omega

theorem Stored.copied_header (ts : Rx) (p : Packet) :
    Stored (ts.memcpy 0 p.buf (p.size + 1)).rxReport 1 p.words := by
  intro k hk
  rw [Packet.length_words] at hk
  simp only [Packet.words, List.getElem_map, List.getElem_range, Rx.memcpy]
  rw [if_pos ⟨by omega, by omega⟩]
  congr 1
  omega

theorem length_flatMap_words {l : List Packet} {n : ℕ} (h : ∀ q ∈ l, q.size = n) :
    (l.flatMap Packet.words).length = l.length * n := by
  induction l with
  | nil => simp
  | cons q l ih =>
      rw [List.flatMap_cons, List.length_append, ih fun q' hq' => h q' (List.mem_cons_of_mem _ hq'),
        Packet.length_words, h q List.mem_cons_self, List.length_cons, Nat.succ_mul, Nat.add_comm]

/-- What the driver has taken of the report being put together. -/
structure Sound (s : Reassembly) : Prop where
  overrun : s.rx.overrun = false
  unbroken : ∃ front, s.history = front ++ s.since
  sublist : s.group.Sublist s.since
  same : ∀ q ∈ s.since, ∀ q' ∈ s.group, q.report = q'.report
  total : ∀ q ∈ s.group, ∀ q' ∈ s.group, q.total = q'.total
  numbered : s.group.map Packet.num = List.range' 1 s.group.length
  counter : s.group ≠ [] → s.rx.packetSeqCombined.toNat = s.group.length
  length : ∀ q ∈ s.group.head?, s.rx.rxReportLen = q.buf 2 + 2
  stored : (∀ q ∈ s.group.dropLast, q.size = MXM_RPT_MAX_WORDS_PER_PKT) →
    Stored s.rx.rxReport 1 (s.group.flatMap Packet.words)

theorem Sound.broken {rx : Rx} (h : rx.overrun = false) (history : List Packet) : Sound ⟨rx, history, [], []⟩ where
  overrun := h
  unbroken := ⟨history, (List.append_nil _).symm⟩
  sublist := List.Sublist.refl _
  same q hq := by cases hq
  total q hq := by cases hq
  numbered := rfl
  counter hne := absurd rfl hne
  length q hq := by cases hq
  stored _ k hk := by simp at hk

theorem overrun_memcpy {ts : Rx} (h : ts.overrun = false) {dst n : ℕ} (src : ℕ → BitVec 16)
    (hle : n = 0 ∨ dst + n ≤ MXM_RPT_LEN_MAX) : (ts.memcpy dst src n).overrun = false := by
  rw [Rx.memcpy, h, Bool.false_or, decide_eq_false_iff_not]
  omega

theorem header_fits (p : Packet) : p.size + 1 = 0 ∨ 0 + (p.size + 1) ≤ MXM_RPT_LEN_MAX := by
  have := p.size_le
  simp only [Packet.size, MXM_RPT_LEN_PACKET_MAX, MXM_RPT_LEN_MAX] at this ⊢
  omega

theorem Sound.step_single (h : Sound s) (hsingle : p.Single) : Sound (s.step p) := by
  rw [step, collect, if_pos hsingle, combine_single hsingle]
  refine Sound.broken ?_ _
  exact overrun_memcpy h.overrun p.buf (header_fits p)

theorem Sound.step_opens (h : Sound s) (hsingle : ¬p.Single) (hopens : p.Opens) : Sound (s.step p) := by
  rw [step, collect, if_neg hsingle, if_pos hopens, combine_opens hsingle hopens]
  refine ⟨?_, ⟨s.history, rfl⟩, List.Sublist.refl _, ?_, ?_, ?_, fun _ => rfl, ?_, fun _ => ?_⟩
  · exact overrun_memcpy h.overrun p.buf (header_fits p)
  · intro q hq q' hq'
    rw [List.mem_singleton.1 hq, List.mem_singleton.1 hq']
  · intro q hq q' hq'
    rw [List.mem_singleton.1 hq, List.mem_singleton.1 hq']
  · rw [List.map_singleton, hopens.1]
    rfl
  · rintro q ⟨⟩
    rfl
  · rw [List.flatMap_singleton]
    exact Stored.copied_header _ p

/-- The next packet of the report is put behind the ones before it. -/
theorem Sound.step_continues (h : Sound s) (hsingle : ¬p.Single) (hopens : ¬p.Opens) (hfollows : p.Follows s.rx)
    (hfits : p.size = 0 ∨ (p.num - 1) * MXM_RPT_MAX_WORDS_PER_PKT + 1 + p.size ≤ MXM_RPT_LEN_MAX)
    (hnext : s.Continues p) : Sound (s.step p) := by
  rw [step, collect, if_neg hsingle, if_neg hopens, if_pos hfollows, if_pos hnext, combine_follows hsingle hfollows]
  obtain ⟨hne, hnum, hsame⟩ := hnext
  have hlast : ∀ q, q ∈ s.group ++ [p] ↔ q ∈ s.group ∨ q = p := by simp
  refine ⟨?_, ?_, h.sublist.append (List.Sublist.refl _), ?_, ?_, ?_, fun _ => ?_, ?_, ?_⟩
  · exact overrun_memcpy h.overrun (fun i => p.buf (i + 1)) hfits
  · obtain ⟨front, hfront⟩ := h.unbroken
    exact ⟨front, by rw [hfront, List.append_assoc]⟩
  · obtain ⟨q₀, hq₀⟩ := List.exists_mem_of_ne_nil _ hne
    have hsince : ∀ q ∈ s.since ++ [p], q.report = p.report := by
      intro q hq
      rcases List.mem_append.1 hq with hq | hq
      · rw [h.same q hq q₀ hq₀]
        exact (hsame q₀ hq₀).1
      · rw [List.mem_singleton.1 hq]
    intro q hq q' hq'
    rw [hsince q hq]
    rcases (hlast q').1 hq' with hq' | rfl
    · exact (hsame q' hq').1.symm
    · rfl
  · have htotal : ∀ q ∈ s.group ++ [p], q.total = p.total := by
      intro q hq
      rcases (hlast q).1 hq with hq | rfl
      · exact (hsame q hq).2
      · rfl
    intro q hq q' hq'
    rw [htotal q hq, htotal q' hq']
  · rw [List.map_append, List.map_singleton, h.numbered, hnum, List.length_append, List.length_singleton,
      List.range'_concat, Nat.one_mul, Nat.add_comm 1]
  · rw [List.length_append, List.length_singleton, ← hnum]
    exact seq_succ hfollows
  · intro q hq
    rw [List.head?_append_of_ne_nil _ hne] at hq
    exact h.length q hq
  · intro hfull
    rw [List.dropLast_concat] at hfull
    have hsize := length_flatMap_words hfull
    have hstored := h.stored fun q hq => hfull q ((List.dropLast_sublist _).subset hq)
    have hstart : (p.num - 1) * MXM_RPT_MAX_WORDS_PER_PKT + 1 = 1 + (s.group.flatMap Packet.words).length := by
      rw [hsize, hnum, Nat.add_sub_cancel, Nat.add_comm]
    rw [List.flatMap_append, List.flatMap_singleton, hstart]
    refine Stored.append (Stored.memcpy ?_ (Nat.le_refl _)) (Stored.copied _ _ p)
    exact hstored

theorem Sound.step (h : Sound s) (horder : s.InOrder p) : Sound (s.step p) := by
  by_cases hsingle : p.Single
  · exact h.step_single hsingle
  by_cases hopens : p.Opens
  · exact h.step_opens hsingle hopens
  by_cases hfollows : p.Follows s.rx
  · have hfits := (horder hsingle hfollows).1
    by_cases hnext : s.Continues p
    · exact h.step_continues hsingle hopens hfollows hfits hnext
    · rw [Reassembly.step, collect, if_neg hsingle, if_neg hopens, if_pos hfollows, if_neg hnext,
        combine_follows hsingle hfollows]
      refine Sound.broken ?_ _
      exact overrun_memcpy h.overrun (fun i => p.buf (i + 1)) hfits
  · rw [Reassembly.step, collect, if_neg hsingle, if_neg hopens, if_neg hfollows, combine_other hsingle hopens hfollows]
    by_cases hpart : ∀ q ∈ s.group, q.report = p.report
    · rw [if_pos hpart]
      refine ⟨h.overrun, ?_, h.sublist.trans (List.sublist_append_left _ _), ?_, h.total, h.numbered, h.counter,
        h.length, h.stored⟩
      · obtain ⟨front, hfront⟩ := h.unbroken
        exact ⟨front, by rw [hfront, List.append_assoc]⟩
      · intro q hq q' hq'
        rcases List.mem_append.1 hq with hq | hq
        · exact h.same q hq q' hq'
        · rw [List.mem_singleton.1 hq]
          exact (hpart q' hq').symm
    · rw [if_neg hpart]
      exact Sound.broken h.overrun _

theorem whole_single (hsingle : p.Single) : Whole (s.history ++ [p]) [p] (s.step p).rx := by
  have hnum : p.num = 1 := num_eq_one.2 (by rw [hsingle]; rfl)
  have htotal : p.total = 1 := by
    rw [Packet.total, hsingle]
    rfl
  rw [Reassembly.step, combine_single hsingle]
  refine ⟨by rw [List.map_singleton, hnum]; rfl, ?_, ⟨s.history, [p], rfl, List.Sublist.refl _, ?_⟩, ?_, ?_⟩
  · intro q hq
    rw [List.mem_singleton.1 hq, htotal]
    rfl
  · intro q hq q' hq'
    rw [List.mem_singleton.1 hq, List.mem_singleton.1 hq']
  · rw [List.flatMap_singleton]
    exact Stored.copied_header _ p
  · rw [List.flatMap_singleton, Packet.length_words]
    rfl

/-- The last packet of a report that has come in order makes it whole. -/
theorem Sound.whole (hstep : Sound (s.step p)) (hsingle : ¬p.Single) (hopens : ¬p.Opens) (hfollows : p.Follows s.rx)
    (hlast : p.num = p.total) (horder : s.InOrder p) : Whole (s.history ++ [p]) (s.group ++ [p]) (s.step p).rx := by
  obtain ⟨hnext, hfull, hlength⟩ := (horder hsingle hfollows).2 hlast
  have hgroup : (s.step p).group = s.group ++ [p] := by
    rw [Reassembly.step, collect, if_neg hsingle, if_neg hopens, if_pos hfollows, if_pos hnext]
  rw [← hgroup]
  refine ⟨hstep.numbered, ?_, ?_, ?_, ?_⟩
  · intro q hq
    have hp : p ∈ (s.step p).group := by
      rw [hgroup]
      exact List.mem_append_right _ List.mem_cons_self
    rw [hstep.total q hq p hp, ← hlast, hnext.2.1, hgroup, List.length_append, List.length_singleton]
  · obtain ⟨front, hfront⟩ := hstep.unbroken
    exact ⟨front, (s.step p).since, hfront, hstep.sublist, hstep.same⟩
  · refine hstep.stored ?_
    rw [hgroup, List.dropLast_concat]
    exact hfull
  · obtain ⟨q, hq⟩ := Option.isSome_iff_exists.1 (List.isSome_head?.2 hnext.1)
    have hhead : q ∈ (s.step p).group.head? := by
      rw [hgroup, List.head?_append_of_ne_nil _ hnext.1]
      exact hq
    rw [hstep.length q hhead, hgroup]
    exact hlength q hq

/-- A packet that comes in order leaves a whole report if the call returns zero. -/
theorem Sound.combined (h : Sound s) (horder : s.InOrder p) : s.Combined p := by
  have hstep := h.step horder
  refine ⟨hstep.overrun, fun hret => ?_⟩
  by_cases hsingle : p.Single
  · exact ⟨[p], rfl, whole_single hsingle⟩
  by_cases hopens : p.Opens
  · rw [combine_opens hsingle hopens] at hret
    cases hret
  by_cases hfollows : p.Follows s.rx
  · rw [combine_follows hsingle hfollows] at hret
    have hlast : p.num = p.total := by
      by_contra hne
      rw [if_neg hne] at hret
      cases hret
    exact ⟨s.group ++ [p], List.getLast?_concat, hstep.whole hsingle hopens hfollows hlast horder⟩
  · rw [combine_other hsingle hopens hfollows] at hret
    cases hret

end

/-- In every sequence of packets in order, each call that returns zero leaves a whole report, and none writes
behind the array. -/
theorem combined_of_inOrder (rxReport : ℕ → BitVec 16) (ps : List Packet)
    (h : Always step InOrder (empty rxReport) ps) : Always step Combined (empty rxReport) ps :=
  always_of_invariant (I := Sound) (fun _ _ hs horder => hs.step horder) (fun _ _ hs horder => hs.combined horder)
    (Sound.broken rfl []) h

/-- A packet of the report `report` with this header, identifier and length, its other words zero. -/
def packet (report : ℕ) (header id length : BitVec 16) (h : (BYTEL header).toNat ≤ MXM_RPT_LEN_PACKET_MAX) :
    Packet where
  report
  buf := fun
    | 0 => header
    | 1 => id
    | 2 => length
    | _ => 0
  size_le := h

/-- A raw image of 247 words in two packets, and a report of one packet. -/
def rawImage : List Packet :=
  [packet 0 0x21F4 MXM_RPT_ID_TOUCH_RAW_IMAGE 245 (by decide), packet 0 0x2203 0 0 (by decide),
    packet 1 0x1102 0x0801 0 (by decide)]

theorem rawImage_combined : Always step Combined (empty fun _ => 0) rawImage :=
  combined_of_inOrder (fun _ => 0) rawImage ⟨by decide +kernel, by decide +kernel, by decide +kernel, trivial⟩

/-- A report of one packet, and the second packet of a report whose first one was lost. -/
def lostFirst : List Packet := [packet 0 0x1102 0x0801 0 (by decide), packet 1 0x2203 0 0 (by decide)]

theorem lostFirst_not_combined : ¬Always step Combined (empty fun _ => 0) lostFirst := by
  intro h
  obtain ⟨group, hlast, hwhole⟩ := h.2.1.2 (by decide +kernel)
  have hmem := List.mem_of_getLast? hlast
  obtain ⟨front, back, hhistory, hsub, -⟩ := hwhole.unbroken
  have hall : group.Sublist lostFirst := by
    rw [show lostFirst = front ++ back from hhistory]
    exact hsub.trans (List.sublist_append_right front back)
  -- the last packet asks for two, and there are no others than these
  have hlength : group.length = 2 := (hwhole.total _ hmem).symm
  have hgroup := hall.eq_of_length hlength
  have htotal := hwhole.total (packet 0 0x1102 0x0801 0 (by decide)) (by rw [hgroup]; exact List.mem_cons_self)
  rw [hlength] at htotal
  revert htotal
  decide

end Reassembly
end Sirius.Touch
