import Sirius.Touch.Bootloader

/-!
# The handshake with the boot loader

What the driver takes from the data register: it takes a read where one of the two status bytes is that of a ready
register, and it takes the two bytes of a CRC from the first two reads after the command and then awaits the
confirmation.
-/
namespace Sirius.Touch.Boot
open Dialog

/-- What a read of the data register brings: the data and the status. -/
structure Reg where
  lo : BitVec 8
  hi : BitVec 8
  statusL : BitVec 8
  statusH : BitVec 8
  deriving DecidableEq, Repr

namespace Reg
variable (r : Reg)

/-- The status word is 0xABCC. -/
def Ready : Prop := r.statusL = MXM_BL_STATUS_READY_L ∧ r.statusH = MXM_BL_STATUS_READY_H

/-- One byte of the status word is that of a ready register, and the other one is not. -/
def HalfReady : Prop := ¬(r.statusL = MXM_BL_STATUS_READY_L ↔ r.statusH = MXM_BL_STATUS_READY_H)

/-- What the driver tests. -/
def Taken : Prop := r.statusL = MXM_BL_STATUS_READY_L ∨ r.statusH = MXM_BL_STATUS_READY_H

def Confirms : Prop := r.lo = MXM_BL_DATA_READY_L ∧ r.hi = MXM_BL_DATA_READY_H

instance : Decidable r.HalfReady := inferInstanceAs (Decidable (¬_))

theorem ready_of_taken (htaken : r.Taken) (hhalf : ¬r.HalfReady) : r.Ready := by
  have hiff := not_not.mp hhalf
  exact htaken.elim (fun h => ⟨h, hiff.mp h⟩) fun h => ⟨hiff.mpr h, h⟩

theorem not_halfReady_of_ready (h : r.Ready) : ¬r.HalfReady := not_not.mpr (iff_of_true h.1 h.2)

end Reg

/-- That an access is complete, written to the status register. -/
def acknowledge : Transfer :=
  .tx [MXM_BL_STATUS_ADDR_L, MXM_BL_STATUS_ADDR_H, MXM_BL_RXTX_COMPLETE_L, MXM_BL_RXTX_COMPLETE_H] 4

/-- A read of the data register and its acknowledgement. -/
def readOf (r : Reg) : List Transfer :=
  [.tx [MXM_BL_DATA_ADDR_L, MXM_BL_DATA_ADDR_H] 2, .rx [r.lo, r.hi, r.statusL, r.statusH] 4, acknowledge]

def regOf : Transfer → Option Reg
  | .rx [lo, hi, statusL, statusH] 4 => some ⟨lo, hi, statusL, statusH⟩
  | _ => none

/-- What the data register presented, read by read. -/
def presented (es : List Transfer) : List Reg := es.filterMap regOf

/-- Of these the bytes of a CRC and the last one. -/
def takenForCrc (es : List Transfer) : List Reg := (presented es).take 2 ++ (presented es).getLast?.toList

/-- A transcript that ends with an acknowledged read of the confirmation from a ready register. -/
def ConfirmedFresh (es : List Transfer) : Prop :=
  ∃ tries conf, es = tries ++ readOf conf ∧ conf.Ready ∧ conf.Confirms

/-- After the command, acknowledged reads of the bytes of `c` and, in the end, of the confirmation. -/
structure CrcReads (es : List Transfer) (c : BitVec 16) (low high conf : Reg) (tries : List Transfer) : Prop where
  split : ∃ command, es = command ++ (readOf low ++ (readOf high ++ (tries ++ readOf conf))) ∧
    presented command = [] ∧ acknowledge ∉ command
  value : c = high.lo.setWidth 16 <<< 8 ||| low.lo.setWidth 16
  confirms : conf.Confirms

/-- All three from a ready register. -/
def CrcFresh (es : List Transfer) (c : BitVec 16) : Prop :=
  ∃ low high conf tries, CrcReads es c low high conf tries ∧ low.Ready ∧ high.Ready ∧ conf.Ready

/-- And no other read was acknowledged between them. -/
def CrcSuccessive (es : List Transfer) (c : BitVec 16) : Prop :=
  ∃ low high conf tries, CrcReads es c low high conf tries ∧ low.Ready ∧ high.Ready ∧ conf.Ready ∧
    acknowledge ∉ tries

theorem presented_append (es es' : List Transfer) : presented (es ++ es') = presented es ++ presented es' :=
  List.filterMap_append

@[simp] theorem presented_readOf (r : Reg) : presented (readOf r) = [r] := rfl

theorem count_readOf (r : Reg) : (readOf r).count acknowledge = 1 := by
  have htx : (Transfer.tx [MXM_BL_DATA_ADDR_L, MXM_BL_DATA_ADDR_H] 2 == acknowledge) = false := rfl
  have hrx : (Transfer.rx [r.lo, r.hi, r.statusL, r.statusH] 4 == acknowledge) = false := rfl
  rw [readOf, List.count_cons, List.count_cons, List.count_singleton_self, htx, hrx]
  rfl

namespace CrcReads
variable {es : List Transfer} {c : BitVec 16} {low high conf : Reg} {tries : List Transfer}

theorem presented_eq (h : CrcReads es c low high conf tries) :
    presented es = low :: high :: (presented tries ++ [conf]) := by
  obtain ⟨command, rfl, hcommand, -⟩ := h.split
  simp only [presented_append, hcommand, presented_readOf, List.nil_append, List.singleton_append]

theorem takenForCrc_eq (h : CrcReads es c low high conf tries) : takenForCrc es = [low, high, conf] := by
  have hlast : (presented es).getLast? = some conf := by
    rw [h.presented_eq, ← List.cons_append, ← List.cons_append, List.getLast?_append, List.getLast?_singleton]
    rfl
  rw [takenForCrc, hlast, h.presented_eq]
  rfl

theorem count_acknowledge (h : CrcReads es c low high conf tries) :
    es.count acknowledge = 3 ↔ acknowledge ∉ tries := by
  obtain ⟨command, rfl, -, hcommand⟩ := h.split
  simp only [List.count_append, count_readOf, List.count_eq_zero_of_not_mem hcommand]
  rw [← List.count_eq_zero]
  omega

end CrcReads

theorem countOf_eq {ret k : ℤ} (h : countOf ret = k) (hle : ret ≤ k) : ret = k := by
  unfold countOf at h
  split at h
  · exact h
  · rw [BitVec.toNat_ofInt] at h
    omega

theorem i2cMaster_eq_ok {n : ℕ} {transfer : Answer → ℤ → Transfer} {as as' : List Answer} {es : List Transfer}
    {ret : ℤ} {data : ℕ → BitVec 8} (h : (i2cMaster n transfer).run as = (.ok (ret, data), as', es)) :
    ret ≤ n ∧ ∃ a : Answer, a.data = data ∧ es = [transfer a ret] := by
  simp only [i2cMaster] at h
  split at h
  · cases h
    exact ⟨by simp only [ EIO]; omega, _, rfl, rfl⟩
  · cases h
    exact ⟨min_le_right _ _, _, rfl, rfl⟩

theorem i2cTxBytes_eq_ok {buf : List (BitVec 8)} {as as' : List Answer} {es : List Transfer} {k : ℤ}
    (h : (i2cTxBytes buf).run as = (.ok k, as', es)) (hk : k = buf.length) :
    es = [.tx buf k] := by
  obtain ⟨⟨ret, data⟩, as₁, es₁, es₂, hrun, hrest, rfl⟩ := bind_eq_ok h
  obtain ⟨hcount, -, rfl⟩ := pure_eq_ok hrest
  obtain ⟨hle, a, -, rfl⟩ := i2cMaster_eq_ok hrun
  rw [countOf_eq hcount (hk ▸ hle), List.append_nil]

theorem i2cRxBytes_eq_ok {n : ℕ} {as as' : List Answer} {es : List Transfer} {k : ℤ} {data : ℕ → BitVec 8}
    (h : (i2cRxBytes n).run as = (.ok (k, data), as', es)) (hk : k = n) :
    es = [.rx ((List.range n).map data) k] := by
  obtain ⟨⟨ret, data'⟩, as₁, es₁, es₂, hrun, hrest, rfl⟩ := bind_eq_ok h
  obtain ⟨hpair, -, rfl⟩ := pure_eq_ok hrest
  obtain ⟨hcount, rfl⟩ := Prod.mk.inj hpair
  obtain ⟨hle, a, rfl, rfl⟩ := i2cMaster_eq_ok hrun
  rw [countOf_eq hcount (hk ▸ hle), List.append_nil]

theorem bootloaderRxtxComplete_eq_ok {as as' : List Answer} {es : List Transfer} {u : Unit}
    (h : bootloaderRxtxComplete.run as = (.ok u, as', es)) : es = [acknowledge] := by
  obtain ⟨sent, as₁, es₁, es₂, hrun, hcheck, rfl⟩ := bind_eq_ok h
  obtain ⟨hsent, -, rfl⟩ := check_eq_ok hcheck
  rw [hsent] at hrun
  rw [i2cTxBytes_eq_ok hrun rfl, List.append_nil]
  rfl

/-- A read that succeeds has taken what the register presented. -/
theorem bootloaderReadDataReg_eq_ok {as as' : List Answer} {es : List Transfer} {lo hi : BitVec 8}
    (h : bootloaderReadDataReg.run as = (.ok (lo, hi), as', es)) :
    ∃ r : Reg, r.lo = lo ∧ r.hi = hi ∧ r.Taken ∧ es = readOf r := by
  obtain ⟨sent, as₁, es₁, es₂, hsend, h₁, rfl⟩ := bind_eq_ok h
  obtain ⟨rfl, h₂⟩ := check_bind_eq_ok h₁
  obtain ⟨⟨received, buffer⟩, as₂, es₃, es₄, hreceive, h₃, rfl⟩ := bind_eq_ok h₂
  obtain ⟨rfl, h₄⟩ := check_bind_eq_ok h₃
  obtain ⟨hstatus, h₅⟩ := check_bind_eq_ok h₄
  obtain ⟨_, as₃, es₅, es₆, hcomplete, h₆, rfl⟩ := bind_eq_ok h₅
  obtain ⟨hpair, -, rfl⟩ := pure_eq_ok h₆
  obtain ⟨rfl, rfl⟩ := Prod.mk.inj hpair
  have htaken : buffer 2 = MXM_BL_STATUS_READY_L ∨ buffer 3 = MXM_BL_STATUS_READY_H := by
    by_contra hnone
    exact hstatus (not_or.mp hnone)
  refine ⟨⟨buffer 0, buffer 1, buffer 2, buffer 3⟩, rfl, rfl, htaken, ?_⟩
  rw [i2cTxBytes_eq_ok hsend rfl, i2cRxBytes_eq_ok hreceive rfl,
    bootloaderRxtxComplete_eq_ok hcomplete]
  rfl

theorem bootloaderRxtx_read_eq_ok {as as' : List Answer} {es : List Transfer} {lo hi lo' hi' : BitVec 8}
    (h : (bootloaderRxtx lo' hi' 0).run as = (.ok (lo, hi), as', es)) :
    ∃ r : Reg, r.lo = lo ∧ r.hi = hi ∧ r.Taken ∧ es = readOf r :=
  bootloaderReadDataReg_eq_ok h

/-- The last read is the confirmation. -/
theorem getCmdConf_eq_ok {rounds : ℕ} {as as' : List Answer} {es : List Transfer} {u : Unit}
    (h : (getCmdConf rounds).run as = (.ok u, as', es)) :
    ∃ tries conf, es = tries ++ readOf conf ∧ conf.Taken ∧ conf.Confirms := by
  induction rounds generalizing as es with
  | zero => cases h
  | succ rounds ih =>
      obtain ⟨bytes, as₁, es₁, es₂, hread, hrest, rfl⟩ := bind_eq_ok h
      split at hrest
      · rename_i hbytes
        obtain ⟨-, -, rfl⟩ := pure_eq_ok hrest
        rw [hbytes] at hread
        obtain ⟨r, hlo, hhi, htaken, rfl⟩ := bootloaderReadDataReg_eq_ok (attempt_eq_ok hread)
        exact ⟨[], r, List.append_nil _, htaken, hlo, hhi⟩
      · obtain ⟨tries, conf, rfl, hconf⟩ := ih hrest
        exact ⟨es₁ ++ tries, conf, (List.append_assoc _ _ _).symm, hconf⟩

/-- A transfer of another size than four bytes is neither a read of the data register nor an acknowledgement. -/
theorem regOf_eq_none {e : Transfer} (h : Sizes (· ≠ 4) (· ≠ 4) e) : regOf e = none := by
  unfold regOf
  split
  · exact absurd rfl h
  · rfl

theorem ne_acknowledge {e : Transfer} (h : Sizes (· ≠ 4) (· ≠ 4) e) : e ≠ acknowledge := by
  rintro rfl
  exact absurd rfl h

/-- Nothing is read from the data register while a command is written, and nothing is acknowledged. -/
theorem bootloaderWriteBuffer_silent {buffer : List (BitVec 8)} {as as' : List Answer} {es : List Transfer}
    {r : Except ℤ Unit} (h : (bootloaderWriteBuffer buffer).run as = (r, as', es)) :
    presented es = [] ∧ acknowledge ∉ es := by
  have hsizes : ∀ e ∈ es, Sizes (· ≠ 4) (· ≠ 4) e := by
    have := only_writeBuffer (T := (· ≠ 4)) (R := (· ≠ 4)) (by decide) (by decide) (by decide) buffer as
    rwa [h] at this
  exact ⟨List.filterMap_eq_nil_iff.mpr fun e he => regOf_eq_none (hsizes e he),
    fun he => ne_acknowledge (hsizes _ he) rfl⟩

/-- A CRC that is returned was read byte after byte, and then the confirmation. -/
theorem bootloaderGetCrc_eq_ok {addr len c : BitVec 16} {as as' : List Answer} {es : List Transfer}
    (h : (bootloaderGetCrc addr len).run as = (.ok c, as', es)) :
    ∃ low high conf tries, CrcReads es c low high conf tries ∧ low.Taken ∧ high.Taken ∧ conf.Taken := by
  obtain ⟨_, as₁, es₁, es₂, hcommand, h₁, rfl⟩ := bind_eq_ok h
  obtain ⟨⟨lo, hi⟩, as₂, es₃, es₄, hlow, h₂, rfl⟩ := bind_eq_ok h₁
  obtain ⟨⟨lo', hi'⟩, as₃, es₅, es₆, hhigh, h₃, rfl⟩ := bind_eq_ok h₂
  obtain ⟨_, as₄, es₇, es₈, hconf, h₄, rfl⟩ := bind_eq_ok h₃
  obtain ⟨rfl, -, rfl⟩ := pure_eq_ok h₄
  obtain ⟨low, rfl, -, hlowTaken, rfl⟩ := bootloaderRxtx_read_eq_ok hlow
  obtain ⟨high, rfl, -, hhighTaken, rfl⟩ := bootloaderRxtx_read_eq_ok hhigh
  obtain ⟨tries, conf, rfl, hconfTaken, hconfirms⟩ := getCmdConf_eq_ok hconf
  obtain ⟨hpresented, hacknowledge⟩ := bootloaderWriteBuffer_silent hcommand
  refine ⟨low, high, conf, tries, ⟨⟨es₁, ?_, hpresented, hacknowledge⟩, rfl, hconfirms⟩, hlowTaken, hhighTaken,
    hconfTaken⟩
  rw [List.append_nil]

theorem confirmedFresh_iff {retries : ℤ} {as as' : List Answer} {es : List Transfer}
    (h : (bootloaderGetCmdConf retries).run as = (.ok (), as', es)) :
    ConfirmedFresh es ↔ ∀ r ∈ (presented es).getLast?, ¬r.HalfReady := by
  have hlast : ∀ tries conf, es = tries ++ readOf conf → (presented es).getLast? = some conf := by
    rintro tries conf rfl
    rw [presented_append, presented_readOf, List.getLast?_append, List.getLast?_singleton]
    rfl
  constructor
  · rintro ⟨tries, conf, hsplit, hready, -⟩ r hr
    rw [hlast tries conf hsplit] at hr
    exact Option.some.inj hr ▸ conf.not_halfReady_of_ready hready
  · intro hwhole
    obtain ⟨tries, conf, hsplit, htaken, hconfirms⟩ := getCmdConf_eq_ok h
    exact ⟨tries, conf, hsplit, conf.ready_of_taken htaken (hwhole conf (hlast tries conf hsplit)), hconfirms⟩

theorem crcFresh_iff {addr len c : BitVec 16} {as as' : List Answer} {es : List Transfer}
    (h : (bootloaderGetCrc addr len).run as = (.ok c, as', es)) :
    (CrcFresh es c ↔ ∀ r ∈ takenForCrc es, ¬r.HalfReady) ∧
      (CrcSuccessive es c ↔ (∀ r ∈ takenForCrc es, ¬r.HalfReady) ∧ es.count acknowledge = 3) := by
  obtain ⟨low, high, conf, tries, hreads, hlow, hhigh, hconf⟩ := bootloaderGetCrc_eq_ok h
  have hready : (∀ r ∈ takenForCrc es, ¬r.HalfReady) → low.Ready ∧ high.Ready ∧ conf.Ready := by
    rw [hreads.takenForCrc_eq]
    intro hwhole
    exact ⟨low.ready_of_taken hlow (hwhole low (by simp)), high.ready_of_taken hhigh (hwhole high (by simp)),
      conf.ready_of_taken hconf (hwhole conf (by simp))⟩
  have hwhole : ∀ low high conf tries, CrcReads es c low high conf tries → low.Ready → high.Ready → conf.Ready →
      ∀ r ∈ takenForCrc es, ¬r.HalfReady := by
    intro low high conf tries hreads hlow hhigh hconf r hr
    rw [hreads.takenForCrc_eq, List.mem_cons, List.mem_cons, List.mem_singleton] at hr
    rcases hr with rfl | rfl | rfl
    · exact r.not_halfReady_of_ready hlow
    · exact r.not_halfReady_of_ready hhigh
    · exact r.not_halfReady_of_ready hconf
  constructor
  · constructor
    · rintro ⟨low, high, conf, tries, hreads, hlow, hhigh, hconf⟩
      exact hwhole low high conf tries hreads hlow hhigh hconf
    · intro h
      exact ⟨low, high, conf, tries, hreads, hready h⟩
  · constructor
    · rintro ⟨low, high, conf, tries, hreads, hlow, hhigh, hconf, hnone⟩
      exact ⟨hwhole low high conf tries hreads hlow hhigh hconf, hreads.count_acknowledge.mpr hnone⟩
    · rintro ⟨h, hcount⟩
      obtain ⟨hl, hh, hc⟩ := hready h
      exact ⟨low, high, conf, tries, hreads, hl, hh, hc, hreads.count_acknowledge.mp hcount⟩

/-- For all answers: a confirmation and a CRC that are returned were read from a ready register exactly if no register
they were taken from was half ready; and the reads of a CRC are successive exactly if besides no read of anything else
was acknowledged before the confirmation. -/
theorem bootloader_reads_fresh_iff (answers : List Answer) (retries : ℤ) (addr len : BitVec 16) :
    ((∀ as' es, (bootloaderGetCmdConf retries).run answers = (.ok (), as', es) → ConfirmedFresh es) ↔
      ∀ as' es, (bootloaderGetCmdConf retries).run answers = (.ok (), as', es) →
        ∀ r ∈ (presented es).getLast?, ¬r.HalfReady) ∧
    ((∀ c as' es, (bootloaderGetCrc addr len).run answers = (.ok c, as', es) → CrcFresh es c) ↔
      ∀ c as' es, (bootloaderGetCrc addr len).run answers = (.ok c, as', es) →
        ∀ r ∈ takenForCrc es, ¬r.HalfReady) ∧
    ((∀ c as' es, (bootloaderGetCrc addr len).run answers = (.ok c, as', es) → CrcSuccessive es c) ↔
      ∀ c as' es, (bootloaderGetCrc addr len).run answers = (.ok c, as', es) →
        (∀ r ∈ takenForCrc es, ¬r.HalfReady) ∧ es.count acknowledge = 3) := by
  refine ⟨?_, ?_, ?_⟩
  · exact forall_congr' fun as' => forall_congr' fun es => imp_congr_right fun h => confirmedFresh_iff h
  · exact forall_congr' fun c => forall_congr' fun as' => forall_congr' fun es => imp_congr_right fun h =>
      (crcFresh_iff h).1
  · exact forall_congr' fun c => forall_congr' fun as' => forall_congr' fun es => imp_congr_right fun h =>
      (crcFresh_iff h).2

/-- A transfer that succeeds, and what the chip sends in it. -/
def sends (bytes : List (BitVec 8)) : Answer := ⟨130, fun i => bytes.getD i 0⟩

/-- The six bytes of the command are written; the register is not ready when the low byte is read. -/
def staleLow : List Answer :=
  (List.replicate 6 [sends [], sends [0xCC, 0xAB], sends []]).flatten ++
    [sends [], sends [0x12, 0x00, 0xCC, 0x00], sends [], sends [], sends [0x34, 0x00, 0xCC, 0xAB], sends [],
      sends [], sends [0x3E, 0x00, 0xCC, 0xAB], sends []]

theorem bootloaderGetCrc_stale :
    ¬∀ c as' es, (bootloaderGetCrc 0 128).run staleLow = (.ok c, as', es) → CrcFresh es c := by
  intro hfresh
  have hrun : (bootloaderGetCrc 0 128).run staleLow =
      (.ok 0x3412, [], ((bootloaderGetCrc 0 128).run staleLow).2.2) := rfl
  have hhalf : (⟨0x12, 0x00, 0xCC, 0x00⟩ : Reg) ∈ takenForCrc ((bootloaderGetCrc 0 128).run staleLow).2.2 := by decide
  exact (crcFresh_iff hrun).1.mp (hfresh _ _ _ hrun) _ hhalf (by decide)

end Sirius.Touch.Boot
