import Mathlib.Data.Fintype.Card
import Sirius.Touch.Packets

/-!
# Readers of reports

A report is handed to every reader that waits in a slot of `report_readers`, and `report_sem` is not given
up before all of them have given it back. A reader is a call of `report_read`; the regions under
`report_mutex` are single steps.
-/
namespace Sirius.Touch
open Runs Function

def MXM_REPORT_READERS_MAX : ℕ := 5

/-- `struct report_reader` -/
structure ReportReader where
  reportId : BitVec 16
  reportsPassed : BitVec 16
  sem : ℕ
  status : ℤ

/-- How far a `report_read` has come: it waits, `down` has returned, `get_report` has returned zero, the
report is printed. -/
inductive ReadPc
  | returned (value : ℤ)
  | waiting (i : Fin MXM_REPORT_READERS_MAX)
  | woken (i : Fin MXM_REPORT_READERS_MAX) (ret : ℤ)
  | given
  | printed
  deriving DecidableEq

structure Reader where
  count : ℕ
  pc : ReadPc

/-- Who calls `propagate_report`: the interrupt thread or `shutdown`. -/
inductive Propagator
  | interrupt
  | shutdown
  deriving DecidableEq

/-- A call of `propagate_report`, and whether it has taken `report_sem`. -/
structure Propagation where
  status : ℤ
  report : Option (ℕ → BitVec 16)
  taken : Bool

structure Reports (ι : Type*) where
  reportReaders : Fin MXM_REPORT_READERS_MAX → ReportReader
  reportReadersOutstanding : BitVec 8
  reportSem : ℕ
  rx : Rx
  propagating : Propagator → Option Propagation
  readers : ι → Reader

/-- The reader waits for the report that has come. -/
def ReportReader.Takes (reader : ReportReader) (word : BitVec 16) : Prop :=
  reader.reportId = 0xFFFF ∨ word ≠ 0 ∧ reader.reportId = word

instance (reader : ReportReader) (word : BitVec 16) : Decidable (reader.Takes word) :=
  inferInstanceAs (Decidable (_ ∨ _ ∧ _))

def ReportReader.pass (reader : ReportReader) : ReportReader :=
  { reader with sem := reader.sem + 1, reportsPassed := reader.reportsPassed + 1 }

def ReportReader.tell (reader : ReportReader) (status : ℤ) : ReportReader :=
  { reader with status := status, sem := reader.sem + 1 }

namespace Reports
variable {ι : Type*}

def setSlot (s : Reports ι) (i : Fin MXM_REPORT_READERS_MAX) (reader : ReportReader) : Reports ι :=
  { s with reportReaders := update s.reportReaders i reader }

/-- One turn of the loop of `propagate_report`. -/
def notify (status : ℤ) (s : Reports ι) (i : Fin MXM_REPORT_READERS_MAX) : Reports ι :=
  let reader := s.reportReaders i
  if status = 0 then
    if reader.Takes (s.rx.rxReport 1) then
      { s.setSlot i reader.pass with reportReadersOutstanding := s.reportReadersOutstanding + 1 }
    else s
  else if reader.reportId ≠ 0 then s.setSlot i (reader.tell status)
  else s

/-- The loop, and `report_sem` if no reader has the report. -/
def notifyAll (s : Reports ι) (status : ℤ) : Reports ι :=
  let s := (List.finRange MXM_REPORT_READERS_MAX).foldl (notify status) s
  if s.reportReadersOutstanding = 0 then { s with reportSem := s.reportSem + 1 } else s

/-- `propagate_report` under `report_mutex` -/
def deliver (s : Reports ι) (status : ℤ) (report : Option (ℕ → BitVec 16)) : Reports ι :=
  match report with
  | none => s.notifyAll status
  | some report =>
      let (rx, ret) := combineMultipacketreport s.rx report
      let s := { s with rx := rx }
      if ret ≠ 0 then { s with reportSem := s.reportSem + 1 } else s.notifyAll status

def setCall (s : Reports ι) (who : Propagator) (call : Option Propagation) : Reports ι :=
  { s with propagating := update s.propagating who call }

/-- The next step of `propagate_report`: `down`, or what is behind it. -/
def propagate (s : Reports ι) (who : Propagator) : Reports ι :=
  match s.propagating who with
  | none => s
  | some call =>
      if call.taken then (s.setCall who none).deliver call.status call.report
      else if 0 < s.reportSem then
        { s with reportSem := s.reportSem - 1 }.setCall who (some { call with taken := true })
      else s

section
variable [DecidableEq ι]

def setReader (s : Reports ι) (r : ι) (reader : Reader) : Reports ι := { s with readers := update s.readers r reader }

def setPc (s : Reports ι) (r : ι) (pc : ReadPc) : Reports ι := s.setReader r { s.readers r with pc := pc }

/-- `get_report` until it waits. Without a free slot it returns `-EBUSY`, and `report_read` zero. -/
def getReport (s : Reports ι) (r : ι) (count : ℕ) (reportId : BitVec 16) : Reports ι :=
  match (List.finRange MXM_REPORT_READERS_MAX).find? fun i => decide ((s.reportReaders i).reportId = 0) with
  | none => s.setReader r ⟨count, .returned 0⟩
  | some i =>
      (s.setSlot i { reportId, reportsPassed := 0, sem := 0, status := 0 }).setReader r ⟨count, .waiting i⟩

/-- The report is given back, as `release_report` does. -/
def releaseReport (s : Reports ι) : Reports ι :=
  { s with
    reportReadersOutstanding := s.reportReadersOutstanding - 1
    reportSem := if s.reportReadersOutstanding - 1 = 0 then s.reportSem + 1 else s.reportSem }

/-- `down_interruptible` or `down_timeout`; `ret` is what ends the wait if the semaphore is not up. -/
def downReader (s : Reports ι) (r : ι) (i : Fin MXM_REPORT_READERS_MAX) (ret : ℤ) : Reports ι :=
  let reader := s.reportReaders i
  if 0 < reader.sem then
    (s.setSlot i { reader with sem := reader.sem - 1 }).setPc r (.woken i 0)
  else if ret ≠ 0 then s.setPc r (.woken i ret)
  else s

/-- `get_report` behind the wait, and the test of its result in `report_read`. -/
def leaveSlot (s : Reports ι) (r : ι) (i : Fin MXM_REPORT_READERS_MAX) (ret : ℤ) : Reports ι :=
  let reader := s.reportReaders i
  let s := if ret ≠ 0 ∧ 0 < reader.reportsPassed then s.releaseReport else s
  let result := if reader.status = 0 then ret else reader.status
  (s.setSlot i { reader with reportId := 0 }).setPc r (if result ≠ 0 then .returned 0 else .given)

/-- The bytes that `report_read` prints. -/
def size (s : Reports ι) : ℕ := 4 * s.rx.rxReportLen.toNat + 2

/-- The next step of a `report_read`. -/
def reportRead (s : Reports ι) (r : ι) (ret : ℤ) : Reports ι :=
  match (s.readers r).pc with
  | .returned _ => s
  | .waiting i => s.downReader r i ret
  | .woken i ret => s.leaveSlot r i ret
  | .given => s.setPc r (if (s.readers r).count < s.size then .returned (- EIO) else .printed)
  | .printed => s.releaseReport.setPc r (.returned s.size)

/-- The interrupt thread has read a packet, `shutdown` is called, one of the two goes on, a `report_read` is
called, or one goes on. -/
inductive Act (ι : Type*)
  | interrupt (packet : ℕ → BitVec 16)
  | shutdown
  | propagate (who : Propagator)
  | read (r : ι) (count : ℕ)
  | reader (r : ι) (ret : ℤ)

def start (s : Reports ι) (who : Propagator) (status : ℤ) (report : Option (ℕ → BitVec 16)) : Reports ι :=
  if s.propagating who = none then s.setCall who (some ⟨status, report, false⟩) else s

def step (s : Reports ι) : Act ι → Reports ι
  | .interrupt packet => s.start .interrupt 0 (some packet)
  | .shutdown => s.start .shutdown (-1) none
  | .propagate who => s.propagate who
  | .read r count =>
      match (s.readers r).pc with
      | .returned _ => s.getReport r count 0xFFFF
      | _ => s
  | .reader r ret => s.reportRead r ret

end

/-- After `probe`, with no reader. -/
def probed (rx : Rx) : Reports ι where
  reportReaders _ := ⟨0, 0, 0, 0⟩
  reportReadersOutstanding := 0
  reportSem := 1
  rx := rx
  propagating _ := none
  readers _ := ⟨0, .returned 0⟩

end Reports

/-- The slot of a reader in `get_report`. -/
def ReadPc.slot : ReadPc → Option (Fin MXM_REPORT_READERS_MAX)
  | .waiting i | .woken i _ => some i
  | .returned _ | .given | .printed => none

/-- `get_report` has returned zero. -/
def ReadPc.Reads (pc : ReadPc) : Prop := pc = .given ∨ pc = .printed

instance (pc : ReadPc) : Decidable pc.Reads := inferInstanceAs (Decidable (_ ∨ _))

namespace Reports
variable {ι : Type*}

def slot (s : Reports ι) (r : ι) : Option (Fin MXM_REPORT_READERS_MAX) := (s.readers r).pc.slot

/-- A reader in `report_read` that has been handed a report and has not given it back. -/
def Handed (s : Reports ι) (r : ι) : Prop :=
  (s.readers r).pc.Reads ∨ ∃ i, s.slot r = some i ∧ (s.reportReaders i).reportsPassed ≠ 0

instance (s : Reports ι) (r : ι) : Decidable (s.Handed r) := inferInstanceAs (Decidable (_ ∨ _))

def Taken (s : Reports ι) (who : Propagator) : Prop := ∃ call, s.propagating who = some call ∧ call.taken = true

section
variable [Fintype ι]

def handed (s : Reports ι) : Finset ι := Finset.univ.filter s.Handed

/-- The counter counts the readers that have the report, and without one the next report can be taken,
unless one is being propagated. -/
structure NeverStalls (s : Reports ι) : Prop where
  outstanding : s.reportReadersOutstanding.toNat = s.handed.card
  available : s.handed = ∅ → (∀ who, ¬s.Taken who) → 0 < s.reportSem

end

/-- A reader that has the report gives it back: its buffer is large enough, and it has not been told of
`shutdown` before. -/
def GivesBack (s : Reports ι) : Act ι → Prop
  | .reader r _ =>
      ((s.readers r).pc = .given → s.size ≤ (s.readers r).count) ∧
        ∀ i, (s.readers r).pc = .woken i 0 → (s.reportReaders i).reportsPassed ≠ 0 → (s.reportReaders i).status = 0
  | _ => True

section
variable {s s' : Reports ι} {status : ℤ}

/-- A propagation with this status hands the report to the reader. -/
def Passes (s : Reports ι) (status : ℤ) (i : Fin MXM_REPORT_READERS_MAX) : Prop :=
  status = 0 ∧ (s.reportReaders i).Takes (s.rx.rxReport 1)

instance (i : Fin MXM_REPORT_READERS_MAX) : Decidable (s.Passes status i) := inferInstanceAs (Decidable (_ ∧ _))

/-- What a propagation with this status makes of the reader. -/
def notified (s : Reports ι) (status : ℤ) (i : Fin MXM_REPORT_READERS_MAX) : ReportReader :=
  if s.Passes status i then (s.reportReaders i).pass
  else if status ≠ 0 ∧ (s.reportReaders i).reportId ≠ 0 then (s.reportReaders i).tell status
  else s.reportReaders i

theorem notify_eq (s : Reports ι) (status : ℤ) (i : Fin MXM_REPORT_READERS_MAX) : notify status s i = { s with
    reportReaders := update s.reportReaders i (s.notified status i)
    reportReadersOutstanding := s.reportReadersOutstanding + BitVec.ofNat 8 (if s.Passes status i then 1 else 0) } := by
  simp only [notify, notified, Passes, setSlot]
  by_cases hstatus : status = 0
  · by_cases htakes : (s.reportReaders i).Takes (s.rx.rxReport 1) <;> simp [hstatus, htakes]
  · by_cases hid : (s.reportReaders i).reportId = 0#16 <;> simp [hstatus, hid]

section
variable {a i : Fin MXM_REPORT_READERS_MAX}

theorem reportReaders_notify (h : i ≠ a) : (notify status s a).reportReaders i = s.reportReaders i := by
  simp only [notify_eq, update_of_ne h]

theorem passes_notify (h : i ≠ a) : (notify status s a).Passes status i ↔ s.Passes status i := by
  rw [Passes, reportReaders_notify h, notify_eq]
  exact Iff.rfl

theorem notified_notify (h : i ≠ a) : (notify status s a).notified status i = s.notified status i := by
  simp only [notified, passes_notify h, reportReaders_notify h]

end

theorem foldl_notify {l : List (Fin MXM_REPORT_READERS_MAX)} (hl : l.Nodup) : l.foldl (notify status) s = { s with
    reportReaders := fun i => if i ∈ l then s.notified status i else s.reportReaders i
    reportReadersOutstanding :=
      s.reportReadersOutstanding + BitVec.ofNat 8 (l.countP fun i => decide (s.Passes status i)) } := by
  induction l generalizing s with
  | nil => simp
  | cons a l ih =>
      obtain ⟨ha, hl⟩ := List.nodup_cons.1 hl
      have hcount : (l.countP fun i => decide ((notify status s a).Passes status i)) =
          l.countP fun i => decide (s.Passes status i) := by
        refine List.countP_congr fun i hi => ?_
        simp only [passes_notify (ne_of_mem_of_not_mem hi ha)]
      have hreaders : (fun i => if i ∈ l then (notify status s a).notified status i
          else (notify status s a).reportReaders i) =
          fun i => if i ∈ a :: l then s.notified status i else s.reportReaders i := by
        funext i
        by_cases h : i = a
        · subst i
          simp [ha, notify_eq]
        · by_cases hi : i ∈ l <;> simp [hi, h, notified_notify h, reportReaders_notify h]
      rw [List.foldl_cons, ih hl, hcount, hreaders, List.countP_cons, notify_eq]
      simp only [BitVec.ofNat_add, decide_eq_true_eq]
      rw [BitVec.add_assoc, BitVec.add_comm (BitVec.ofNat 8 (ite _ _ _))]

theorem countP_finRange (n : ℕ) (p : Fin n → Prop) [DecidablePred p] :
    (List.finRange n).countP (fun i => decide (p i)) = (Finset.univ.filter p).card := by
  rw [List.countP_eq_length_filter]
  rfl

/-- The slots that a propagation with this status hands the report to. -/
def passers (s : Reports ι) (status : ℤ) : Finset (Fin MXM_REPORT_READERS_MAX) := Finset.univ.filter (s.Passes status)

theorem notifyAll_eq (s : Reports ι) (status : ℤ) : s.notifyAll status = { s with
    reportReaders := s.notified status
    reportReadersOutstanding := s.reportReadersOutstanding + BitVec.ofNat 8 (s.passers status).card
    reportSem := if s.reportReadersOutstanding + BitVec.ofNat 8 (s.passers status).card = 0 then s.reportSem + 1
      else s.reportSem } := by
  have hcount := countP_finRange _ (s.Passes status)
  simp only [notifyAll, foldl_notify (List.nodup_finRange _), List.mem_finRange, if_true, hcount]
  by_cases hlast : s.reportReadersOutstanding + BitVec.ofNat 8 (s.passers status).card = 0
  · rw [if_pos hlast]
    exact if_pos hlast
  · rw [if_neg hlast]
    exact if_neg hlast

theorem reportReaders_notifyAll : (s.notifyAll status).reportReaders = s.notified status := by rw [notifyAll_eq]

theorem readers_notifyAll : (s.notifyAll status).readers = s.readers := by rw [notifyAll_eq]

theorem propagating_notifyAll : (s.notifyAll status).propagating = s.propagating := by rw [notifyAll_eq]

theorem reportSem_notifyAll : (s.notifyAll status).reportSem =
    if (s.notifyAll status).reportReadersOutstanding = 0 then s.reportSem + 1 else s.reportSem := by rw [notifyAll_eq]

theorem slot_notifyAll (r : ι) : (s.notifyAll status).slot r = s.slot r := by rw [slot, slot, readers_notifyAll]

theorem notified_reportId (i : Fin MXM_REPORT_READERS_MAX) :
    (s.notified status i).reportId = (s.reportReaders i).reportId := by
  rw [notified]
  split
  · rfl
  · split <;> rfl

theorem notified_reportsPassed (i : Fin MXM_REPORT_READERS_MAX) : (s.notified status i).reportsPassed =
    if s.Passes status i then (s.reportReaders i).reportsPassed + 1 else (s.reportReaders i).reportsPassed := by
  rw [notified]
  split
  · rfl
  · split <;> rfl

/-- A slot that a report is for has a reader. -/
theorem Passes.reportId_ne {i : Fin MXM_REPORT_READERS_MAX} (h : s.Passes status i) :
    (s.reportReaders i).reportId ≠ 0 := by
  obtain ⟨-, hall | ⟨hne, hid⟩⟩ := h
  · rw [hall]
    decide
  · rwa [hid]

end

end Reports
end Sirius.Touch
