import Mathlib.Logic.Function.Basic
import Sirius.Lib.Runs
import Sirius.Touch.Model

/-!
# Replies to commands: rbcmd_send_receive and process_rbcmd

A caller gives the driver a buffer and its size, sends a command and waits; the interrupt thread tests whether somebody
waits and whether the report is the one, and copies it. The semaphore keeps the callers apart, and nothing keeps a
caller from leaving while the interrupt thread is between its tests and the end of the copy.
-/
namespace Sirius.Touch.Rbcmd
open Runs

@[simp] def ERESTARTSYS : ℤ := 512

/-- How far a caller has come in `rbcmd_send_receive`. -/
inductive CallPc
  | idle
  | pending
  | setId
  | setReport
  | setLen
  | clearReceived
  | setWaiting
  | sending
  | awaiting
  | clearing
  | releasing
  deriving DecidableEq, Repr

/-- A caller: what it asks for, the size of its buffer, `*rpt_len`, the buffer and what it was returned. -/
structure Caller where
  pc : CallPc
  rptId : BitVec 16
  size : BitVec 16
  rptLen : BitVec 16
  rptBuf : ℕ → BitVec 16
  ret : ℤ

/-- `rx_report` and its length. -/
structure RxReport where
  words : ℕ → BitVec 16
  len : BitVec 16

/-- How far the interrupt thread has come in `process_rbcmd`. `memcpy` has its destination from the start. -/
inductive IrqPc (ι : Type)
  | idle
  | testWaiting (r : RxReport)
  | testId (r : RxReport)
  | testLen (r : RxReport)
  | setReceived (r : RxReport)
  | startCopy (r : RxReport)
  | copying (r : RxReport) (dst : Option ι) (k : ℕ)
  | setLen (r : RxReport)

structure Driver (ι : Type) where
  holder : Option ι
  rbcmdReportId : BitVec 16
  rbcmdRxReport : Option ι
  rbcmdRxReportLen : Option ι
  rbcmdReceived : Bool
  rbcmdWaiting : Bool
  callers : ι → Caller
  irq : IrqPc ι

/-- A call, its steps (`down_interruptible` that succeeds or is interrupted, a statement, the command that is sent or
not, the end of the wait with or without a signal) and those of the interrupt thread. -/
inductive Act (ι : Type)
  | call (c : ι) (rptId size : BitVec 16)
  | down (c : ι)
  | interrupt (c : ι)
  | statement (c : ι)
  | sent (c : ι) (ok : Bool)
  | endWait (c : ι) (signal : Bool)
  | report (r : RxReport)
  | irq

namespace Driver
variable {ι : Type} [DecidableEq ι] (s : Driver ι)

def setCaller (c : ι) (caller : Caller) : Driver ι := { s with callers := Function.update s.callers c caller }

def setPc (c : ι) (pc : CallPc) : Driver ι := s.setCaller c { s.callers c with pc }

@[grind =] theorem setPc_rbcmdRxReport (c : ι) (pc : CallPc) : (s.setPc c pc).rbcmdRxReport = s.rbcmdRxReport := rfl
@[grind =] theorem setPc_rbcmdRxReportLen (c : ι) (pc : CallPc) :
    (s.setPc c pc).rbcmdRxReportLen = s.rbcmdRxReportLen := rfl
@[grind =] theorem setPc_rbcmdWaiting (c : ι) (pc : CallPc) : (s.setPc c pc).rbcmdWaiting = s.rbcmdWaiting := rfl

/-- The next statement of a caller that does not wait. -/
def statement (c : ι) : Driver ι :=
  match (s.callers c).pc with
  | .setId => { s.setPc c .setReport with rbcmdReportId := (s.callers c).rptId }
  | .setReport => { s.setPc c .setLen with rbcmdRxReport := some c }
  | .setLen => { s.setPc c .clearReceived with rbcmdRxReportLen := some c }
  | .clearReceived => { s.setPc c .setWaiting with rbcmdReceived := false }
  | .setWaiting => { s.setPc c .sending with rbcmdWaiting := true }
  | .clearing => { s.setPc c .releasing with rbcmdWaiting := false }
  | .releasing => { s.setPc c .idle with holder := none }
  | _ => s

/-- `rx_report_len > *ts->rbcmd_rx_report_len` -/
def tooLong (r : RxReport) : Prop :=
  match s.rbcmdRxReportLen with
  | none => True
  | some c => r.len > (s.callers c).rptLen

instance (r : RxReport) : Decidable (s.tooLong r) := by
  unfold tooLong
  split <;> infer_instance

/-- A word of the copy. -/
def storeWord (dst : Option ι) (k : ℕ) (word : BitVec 16) : Driver ι :=
  match dst with
  | none => s
  | some c => s.setCaller c { s.callers c with rptBuf := Function.update (s.callers c).rptBuf k word }

/-- `*ts->rbcmd_rx_report_len = ..` -/
def storeLen (len : BitVec 16) : Driver ι :=
  match s.rbcmdRxReportLen with
  | none => s
  | some c => s.setCaller c { s.callers c with rptLen := len }

/-- `process_rbcmd`, step by step. -/
def processRbcmd : Driver ι :=
  match s.irq with
  | .idle => s
  | .testWaiting r => { s with irq := if s.rbcmdWaiting = false then .idle else .testId r }
  | .testId r => { s with irq := if s.rbcmdReportId ≠ r.words 1 then .idle else .testLen r }
  | .testLen r => { s with irq := if s.tooLong r then .idle else .setReceived r }
  | .setReceived r => { s with rbcmdReceived := true, irq := .startCopy r }
  | .startCopy r => { s with irq := .copying r s.rbcmdRxReport 0 }
  | .copying r dst k =>
      { s.storeWord dst k (r.words k) with irq := if k < r.len.toNat then .copying r dst (k + 1) else .setLen r }
  | .setLen r => { s.storeLen r.len with irq := .idle }

def step : Act ι → Driver ι
  | .call c rptId size =>
      if (s.callers c).pc = .idle then
        s.setCaller c { s.callers c with pc := .pending, rptId, size, rptLen := size }
      else s
  | .down c => if (s.callers c).pc = .pending ∧ s.holder = none then { s.setPc c .setId with holder := some c } else s
  | .interrupt c =>
      if (s.callers c).pc = .pending then s.setCaller c { s.callers c with pc := .idle, ret := - ERESTARTSYS } else s
  | .statement c => s.statement c
  | .sent c ok =>
      if (s.callers c).pc = .sending then
        if ok then s.setPc c .awaiting
        else s.setCaller c { s.callers c with pc := .clearing, ret := - ERESTARTSYS }
      else s
  | .endWait c signal =>
      if (s.callers c).pc = .awaiting then
        s.setCaller c
          { s.callers c with
            pc := .clearing
            ret := if signal ∨ s.rbcmdReceived = false then - ERESTARTSYS else 0 }
      else s
  | .report r =>
      match s.irq with
      | .idle => { s with irq := .testWaiting r }
      | _ => s
  | .irq => s.processRbcmd

end Driver

/-- After probe. -/
def probed (ι : Type) (buffers : ι → ℕ → BitVec 16) : Driver ι where
  holder := none
  rbcmdReportId := 0
  rbcmdRxReport := none
  rbcmdRxReportLen := none
  rbcmdReceived := false
  rbcmdWaiting := false
  callers c := ⟨.idle, 0, 0, 0, buffers c, 0⟩
  irq := .idle

namespace CallPc

/-- The caller has the semaphore. -/
@[grind] def Inside (pc : CallPc) : Prop := pc ≠ .idle ∧ pc ≠ .pending

/-- Its buffer is set, and its length. -/
@[grind] def Reported (pc : CallPc) : Prop := pc.Inside ∧ pc ≠ .setId ∧ pc ≠ .setReport
@[grind] def Measured (pc : CallPc) : Prop := pc.Reported ∧ pc ≠ .setLen

@[grind] def Flagged (pc : CallPc) : Prop := pc = .sending ∨ pc = .awaiting ∨ pc = .clearing

/-- The caller waits for its report. -/
@[grind] def Waits (pc : CallPc) : Prop := pc = .sending ∨ pc = .awaiting

end CallPc

namespace IrqPc
variable {ι : Type}

/-- Between the test whether somebody waits and the end of what is stored for it. -/
@[grind] def Handling : IrqPc ι → Prop
  | .idle | .testWaiting _ => False
  | _ => True

/-- What has been tested so far suits this caller. -/
@[grind] def Suits (c : ι) (size : BitVec 16) : IrqPc ι → Prop
  | .setReceived r | .startCopy r | .setLen r => r.len < size
  | .copying r dst k => dst = some c ∧ k ≤ r.len.toNat ∧ r.len < size
  | _ => True

end IrqPc

namespace Driver
variable {ι : Type} [DecidableEq ι] (s : Driver ι)

/-- A word is copied inside the buffer of a caller that waits. -/
def CopiesRight : Act ι → Prop
  | .irq =>
      match s.irq with
      | .copying _ dst k => ∃ c, dst = some c ∧ k < (s.callers c).size.toNat ∧ (s.callers c).pc.Waits
      | _ => True
  | _ => True

/-- No caller leaves its wait while a report is handled, none has left it when the flag is tested, and no report is as
long as the buffer. -/
def Permitted : Act ι → Prop
  | .sent c ok => (s.callers c).pc = .sending → ok = false → ¬s.irq.Handling
  | .endWait c _ => (s.callers c).pc = .awaiting → ¬s.irq.Handling
  | .irq =>
      match s.irq with
      | .testWaiting _ => ∀ c, (s.callers c).pc ≠ .clearing
      | .testLen r => ∀ c, s.rbcmdRxReport = some c → r.len ≠ (s.callers c).size
      | _ => True
  | _ => True

/-- The fields are those of the caller that has the semaphore, and the tests that were passed suit one that waits. -/
structure Inv : Prop where
  outside : ∀ c, s.holder ≠ some c → ¬(s.callers c).pc.Inside
  inside : ∀ c, s.holder = some c → (s.callers c).pc.Inside
  report : ∀ c, (s.callers c).pc.Reported → s.rbcmdRxReport = some c
  len : ∀ c, (s.callers c).pc.Measured → s.rbcmdRxReportLen = some c
  flag : s.rbcmdWaiting = true ↔ ∃ c, (s.callers c).pc.Flagged
  bound : ∀ c, (s.callers c).rptLen ≤ (s.callers c).size
  handling : s.irq.Handling → ∃ c, (s.callers c).pc.Waits ∧ s.irq.Suits c (s.callers c).size

section
variable {s}

theorem Inv.holds (h : s.Inv) {c : ι} (hc : (s.callers c).pc.Inside) : s.holder = some c := by
  by_contra hne
  exact h.outside c hne hc

/-- Only one caller is inside. -/
theorem Inv.unique (h : s.Inv) {c c' : ι} (hc : (s.callers c).pc.Inside) (hc' : (s.callers c').pc.Inside) : c = c' :=
  Option.some.inj ((h.holds hc).symm.trans (h.holds hc'))

/-- The flag is that of the caller inside. -/
theorem Inv.flag_iff (h : s.Inv) {c : ι} (hc : (s.callers c).pc.Inside) :
    s.rbcmdWaiting = true ↔ (s.callers c).pc.Flagged := by
  refine h.flag.trans ⟨?_, fun hflagged => ⟨c, hflagged⟩⟩
  rintro ⟨c', hflagged⟩
  have hinside : (s.callers c').pc.Inside := by grind
  rwa [h.unique hc hinside]

omit [DecidableEq ι] in
/-- The fields are those of a caller that waits. -/
theorem Inv.fields (h : s.Inv) {c : ι} (hc : (s.callers c).pc.Waits) :
    s.rbcmdRxReport = some c ∧ s.rbcmdRxReportLen = some c := by
  have hmeasured : (s.callers c).pc.Measured := by grind
  exact ⟨h.report c hmeasured.1, h.len c hmeasured⟩

/-- A caller that stays outside may do what it likes. -/
theorem Inv.stayOutside (h : s.Inv) {c : ι} (hc : ¬(s.callers c).pc.Inside) {x : Caller} (hx : ¬x.pc.Inside)
    (hbound : x.rptLen ≤ x.size) : (s.setCaller c x).Inv := by
  obtain ⟨houtside, hinside, hreport, hlen, hflag, hrptLen, hhandling⟩ := h
  constructor <;> simp only [setCaller, Function.update_apply] <;> grind

/-- The caller inside goes on: nobody else is, so that the fields only have to be its own. -/
theorem Inv.goOn (h : s.Inv) {c : ι} (hc : (s.callers c).pc.Inside) {t : Driver ι} {x : Caller}
    (hcallers : t.callers = Function.update s.callers c x) (hholder : t.holder = s.holder) (hirq : t.irq = s.irq)
    (hx : x.pc.Inside) (hbound : x.rptLen ≤ x.size) (hreport : x.pc.Reported → t.rbcmdRxReport = some c)
    (hlen : x.pc.Measured → t.rbcmdRxReportLen = some c) (hflag : t.rbcmdWaiting = true ↔ x.pc.Flagged)
    (hwaits : s.irq.Handling → (s.callers c).pc.Waits → x.pc.Waits ∧ x.size = (s.callers c).size) : t.Inv := by
  have hself : t.callers c = x := by rw [hcallers, Function.update_self]
  have hother : ∀ c', c' ≠ c → t.callers c' = s.callers c' := fun c' hne => by
    rw [hcallers, Function.update_of_ne hne]
  have honly : ∀ c', (t.callers c').pc.Inside → c' = c := by
    intro c' hc'
    by_contra hne
    rw [hother c' hne] at hc'
    exact hne (h.unique hc' hc)
  constructor
  case outside =>
    intro c' hne hc'
    rw [hholder, honly c' hc'] at hne
    exact hne (h.holds hc)
  case inside =>
    intro c' hc'
    rw [hholder, h.holds hc, Option.some_inj] at hc'
    rwa [← hc', hself]
  case report =>
    intro c' hc'
    obtain rfl := honly c' hc'.1
    exact hreport (hself ▸ hc')
  case len =>
    intro c' hc'
    obtain rfl := honly c' hc'.1.1
    exact hlen (hself ▸ hc')
  case flag =>
    refine hflag.trans ⟨fun hflagged => ⟨c, hself.symm ▸ hflagged⟩, ?_⟩
    rintro ⟨c', hflagged⟩
    have hinside : (t.callers c').pc.Inside := by grind
    rwa [honly c' hinside, hself] at hflagged
  case bound =>
    intro c'
    by_cases heq : c' = c
    · rwa [heq, hself]
    · rw [hother c' heq]
      exact h.bound c'
  case handling =>
    intro hhandles
    rw [hirq] at hhandles ⊢
    obtain ⟨c', hc', hsuits⟩ := h.handling hhandles
    have hinside : (s.callers c').pc.Inside := by grind
    obtain rfl := h.unique hinside hc
    obtain ⟨hxWaits, hsize⟩ := hwaits hhandles hc'
    rw [← hsize] at hsuits
    exact ⟨c', hself.symm ▸ hxWaits, hself.symm ▸ hsuits⟩

theorem Inv.call (h : s.Inv) (c : ι) (rptId size : BitVec 16) : (s.step (.call c rptId size)).Inv := by
  rw [step]
  split
  · exact h.stayOutside (by grind) (by grind) (BitVec.le_refl size)
  · exact h

theorem Inv.interrupt (h : s.Inv) (c : ι) : (s.step (.interrupt c)).Inv := by
  rw [step]
  split
  · exact h.stayOutside (by grind) (by grind) (h.bound c)
  · exact h

theorem Inv.down (h : s.Inv) (c : ι) : (s.step (.down c)).Inv := by
  have hkeep := h
  obtain ⟨houtside, hinside, hreport, hlen, hflag, hbound, hhandling⟩ := h
  rw [step]
  split
  · constructor <;> simp only [setCaller, setPc, Function.update_apply] <;> grind
  · exact hkeep

/-- The caller that leaves does not wait any more. -/
theorem Inv.release (h : s.Inv) {c : ι} (hpc : (s.callers c).pc = .releasing) :
    ({ s.setPc c .idle with holder := none } : Driver ι).Inv := by
  have hunique : ∀ c', (s.callers c').pc.Inside → (s.callers c).pc.Inside → c' = c := fun _ => h.unique
  obtain ⟨houtside, hinside, hreport, hlen, hflag, hbound, hhandling⟩ := h
  constructor <;> simp only [setCaller, setPc, Function.update_apply] <;> grind

theorem Inv.statement (h : s.Inv) (c : ι) : (s.step (.statement c)).Inv := by
  rw [step, Driver.statement]
  have hflag := fun hc => h.flag_iff (c := c) hc
  have hreport := h.report c
  have hlen := h.len c
  split
  · exact h.goOn (c := c) (by grind) rfl rfl rfl (by grind) (h.bound c) (by grind) (by grind) (by grind) (by grind)
  · exact h.goOn (c := c) (by grind) rfl rfl rfl (by grind) (h.bound c) (by grind) (by grind) (by grind) (by grind)
  · exact h.goOn (c := c) (by grind) rfl rfl rfl (by grind) (h.bound c) (by grind) (by grind) (by grind) (by grind)
  · exact h.goOn (c := c) (by grind) rfl rfl rfl (by grind) (h.bound c) (by grind) (by grind) (by grind) (by grind)
  · exact h.goOn (c := c) (by grind) rfl rfl rfl (by grind) (h.bound c) (by grind) (by grind) (by grind) (by grind)
  · exact h.goOn (c := c) (by grind) rfl rfl rfl (by grind) (h.bound c) (by grind) (by grind) (by grind) (by grind)
  · exact h.release ‹_›
  · exact h

theorem Inv.sent (h : s.Inv) (c : ι) (ok : Bool) (hleave : s.Permitted (.sent c ok)) : (s.step (.sent c ok)).Inv := by
  rw [step]
  split
  · rename_i hpc
    have hc : (s.callers c).pc.Inside := by grind
    have hflag := h.flag_iff hc
    have hfields := h.fields (c := c) (by grind)
    split
    · exact h.goOn hc rfl rfl rfl (by grind) (h.bound c) (by grind) (by grind) (by grind) (by grind)
    · rename_i hok
      have hidle := hleave hpc (by simpa using hok)
      exact h.goOn hc rfl rfl rfl (by grind) (h.bound c) (fun _ => hfields.1) (fun _ => hfields.2)
        (hflag.trans (by grind)) (fun hhandles => absurd hhandles hidle)
  · exact h

theorem Inv.endWait (h : s.Inv) (c : ι) (signal : Bool) (hleave : s.Permitted (.endWait c signal)) :
    (s.step (.endWait c signal)).Inv := by
  rw [step]
  split
  · rename_i hpc
    have hc : (s.callers c).pc.Inside := by grind
    have hflag := h.flag_iff hc
    have hfields := h.fields (c := c) (by grind)
    exact h.goOn hc rfl rfl rfl (by grind) (h.bound c) (fun _ => hfields.1) (fun _ => hfields.2)
      (hflag.trans (by grind)) (fun hhandles => absurd hhandles (hleave hpc))
  · exact h

omit [DecidableEq ι] in
theorem Inv.setIrq (h : s.Inv) {irq : IrqPc ι}
    (hirq : irq.Handling → ∃ c, (s.callers c).pc.Waits ∧ irq.Suits c (s.callers c).size) :
    ({ s with irq } : Driver ι).Inv :=
  ⟨h.outside, h.inside, h.report, h.len, h.flag, h.bound, hirq⟩

/-- Where a report is handled for a caller, storing into it changes nothing else. -/
theorem Inv.store (h : s.Inv) (c : ι) {rptBuf : ℕ → BitVec 16} {rptLen : BitVec 16}
    (hlen : rptLen ≤ (s.callers c).size) : (s.setCaller c { s.callers c with rptBuf, rptLen }).Inv := by
  obtain ⟨houtside, hinside, hreport, hmeasured, hflag, hbound, hhandling⟩ := h
  constructor <;> simp only [setCaller, Function.update_apply] <;> grind

theorem Inv.processRbcmd (h : s.Inv) (hpermitted : s.Permitted .irq) : s.processRbcmd.Inv := by
  have hhandling := h.handling
  simp only [Permitted] at hpermitted
  unfold Driver.processRbcmd
  cases hirq : s.irq with
  | idle => exact h
  | testWaiting r =>
      rw [hirq] at hpermitted
      refine h.setIrq fun hhandles => ?_
      split at hhandles
      · exact hhandles.elim
      · rename_i hwaiting
        obtain ⟨c, hc⟩ := h.flag.mp (Bool.not_eq_false _ ▸ hwaiting)
        rw [if_neg hwaiting]
        exact ⟨c, by grind, trivial⟩
  | testId r =>
      rw [hirq] at hhandling
      obtain ⟨c, hc, -⟩ := hhandling trivial
      refine h.setIrq fun hhandles => ⟨c, hc, ?_⟩
      split <;> trivial
  | testLen r =>
      rw [hirq] at hhandling hpermitted
      obtain ⟨c, hc, -⟩ := hhandling trivial
      obtain ⟨hreport, hlen⟩ := h.fields hc
      have hne := hpermitted c hreport
      have hbound := h.bound c
      refine h.setIrq fun hhandles => ⟨c, hc, ?_⟩
      split
      · trivial
      · rename_i hfits
        change r.len < (s.callers c).size
        rw [tooLong, hlen] at hfits
        bv_omega
  | setReceived r =>
      rw [hirq] at hhandling
      obtain ⟨c, hc, hlen⟩ := hhandling trivial
      exact ⟨h.outside, h.inside, h.report, h.len, h.flag, h.bound, fun _ => ⟨c, hc, hlen⟩⟩
  | startCopy r =>
      rw [hirq] at hhandling
      obtain ⟨c, hc, hlen⟩ := hhandling trivial
      exact h.setIrq fun _ => ⟨c, hc, (h.fields hc).1, Nat.zero_le _, hlen⟩
  | copying r dst k =>
      rw [hirq] at hhandling
      obtain ⟨c, hc, rfl, hk, hlen⟩ := hhandling trivial
      have hstore : (s.storeWord (some c) k (r.words k)).Inv := h.store c (h.bound c)
      refine hstore.setIrq fun _ => ⟨c, ?_, ?_⟩
      · simpa [storeWord, setCaller] using hc
      · split
        · rename_i hmore
          exact ⟨rfl, hmore, by simpa [storeWord, setCaller] using hlen⟩
        · change r.len < _
          simpa [storeWord, setCaller] using hlen
  | setLen r =>
      rw [hirq] at hhandling
      obtain ⟨c, hc, hlen⟩ := hhandling trivial
      have hstore : (s.storeLen r.len).Inv := by
        rw [storeLen, (h.fields hc).2]
        exact h.store c (show r.len ≤ (s.callers c).size from BitVec.le_of_lt hlen)
      exact hstore.setIrq fun hidle => hidle.elim

theorem Inv.step (h : s.Inv) (a : Act ι) (hpermitted : s.Permitted a) : (s.step a).Inv := by
  cases a with
  | call c rptId size => exact h.call c rptId size
  | down c => exact h.down c
  | interrupt c => exact h.interrupt c
  | statement c => exact h.statement c
  | sent c ok => exact h.sent c ok hpermitted
  | endWait c signal => exact h.endWait c signal hpermitted
  | report r =>
      rw [Driver.step]
      split
      · exact h.setIrq fun hhandles => hhandles.elim
      · exact h
  | irq => exact h.processRbcmd hpermitted

omit [DecidableEq ι] in
theorem Inv.copiesRight (h : s.Inv) (a : Act ι) : s.CopiesRight a := by
  cases a with
  | irq =>
      simp only [CopiesRight]
      split
      · rename_i r dst k hirq
        have hhandling := h.handling
        rw [hirq] at hhandling
        obtain ⟨c, hc, rfl, hk, hlen⟩ := hhandling trivial
        exact ⟨c, rfl, Nat.lt_of_le_of_lt hk hlen, hc⟩
      · trivial
  | _ => trivial

end

omit [DecidableEq ι] in
theorem Inv.probed (buffers : ι → ℕ → BitVec 16) : (probed ι buffers).Inv := by
  constructor <;> simp only [Rbcmd.probed] <;> grind

/-- In every run, for all callers, buffers, reports and orders of the steps: where no report is as long as the buffer
and no caller leaves its wait while one is handled, each word is copied inside the buffer of a caller that waits. -/
theorem process_rbcmd_copies_right (buffers : ι → ℕ → BitVec 16) (as : List (Act ι))
    (h : Always step Permitted (Rbcmd.probed ι buffers) as) : Always step CopiesRight (Rbcmd.probed ι buffers) as :=
  always_of_invariant (fun _ a hs hpermitted => hs.step a hpermitted) (fun _ a hs _ => hs.copiesRight a)
    (Inv.probed buffers) h

/-- A caller sends its command with a buffer of one word, and a report of `len` words after the header comes. -/
abbrev oneWordExchange (len : BitVec 16) : List (Act Unit) :=
  [.call () 0x0380 1, .down (), .statement (), .statement (), .statement (), .statement (), .statement (),
    .sent () true, .report ⟨fun _ => 0x0380, len⟩, .irq, .irq, .irq, .irq, .irq, .irq, .irq]

theorem process_rbcmd_copies_header :
    Always step CopiesRight (Rbcmd.probed Unit fun _ _ => 0) (oneWordExchange 0) :=
  process_rbcmd_copies_right (fun _ _ => 0) _
    ⟨trivial, trivial, trivial, trivial, trivial, trivial, trivial, fun _ h => (nomatch h), trivial,
      fun _ h => (nomatch h), trivial, fun _ _ h => (nomatch h), trivial, trivial, trivial, trivial, trivial⟩

/-- A report as long as the buffer is copied one word behind its end. -/
theorem process_rbcmd_overrun : ¬Always step CopiesRight (Rbcmd.probed Unit fun _ _ => 0) (oneWordExchange 1) := by
  intro hright
  have hsplit : oneWordExchange 1 = (oneWordExchange 1).dropLast ++ [.irq] := rfl
  rw [hsplit, always_append] at hright
  obtain ⟨c, -, hk, -⟩ : ∃ c, some () = some c ∧ 1 < (1 : BitVec 16).toNat ∧ _ := hright.2.1
  exact absurd hk (by decide)

end Driver

end Sirius.Touch.Rbcmd
