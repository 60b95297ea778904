import Sirius.Lib.Runs
import Sirius.RadioFm.Model

/-!
# Commands and the events that answer them

Commands are sent one at a time, under `fm->lock`. The callback that handles the events shares one
completion and one status byte with all of them: it takes a command-status event without looking
at its opcode, and knows no event from an earlier one of the same opcode.
-/
namespace Sirius.RadioFm
open Runs

/-- How far the caller of `wcnss_fm_cmd` has come with its command. -/
inductive Host
  | idle
  | reinited (opcode : BitVec 16)
  | pending (opcode : BitVec 16)
  | cleared (opcode : BitVec 16)
  | waiting (opcode : BitVec 16)
  | woken (opcode : BitVec 16)
  deriving DecidableEq, Repr

/-- A packet of the tuner, with the number of commands it had been sent before. -/
structure Event where
  stamp : ℕ
  buf : Packet
  deriving DecidableEq, Repr

/-- How far the callback has come with a packet that ends a command. -/
inductive Rx
  | idle
  | store (e : Event) (status : Option Byte)
  | signal (e : Event)
  deriving DecidableEq, Repr

/-- The driver and the channel to the tuner; `heard` is what the tuner has sent since the last
command was sent. -/
structure Link where
  fm : Fm
  host : Host
  rx : Rx
  flight : List Event
  sends : ℕ
  heard : List Packet

def openChannel : Link where
  fm := wcnssFmProbe
  host := .idle
  rx := .idle
  flight := []
  sends := 0
  heard := []

/-- The next step of `wcnss_fm_cmd`, with the result of `rpmsg_send` where it sends, and what it
returns if it returns. -/
def hostStep (l : Link) (sent : ℤ) : Link × Option (BitVec 16 × ℤ) :=
  match l.host with
  | .idle => (l, none)
  | .reinited opcode => ({ l with fm := { l.fm with pendingOpcode := opcode }, host := .pending opcode }, none)
  | .pending opcode => ({ l with fm := { l.fm with cmdStatus := 0 }, host := .cleared opcode }, none)
  | .cleared opcode =>
      if sent ≠ 0 then ({ l with host := .idle }, some (opcode, sent))
      else ({ l with host := .waiting opcode, sends := l.sends + 1, heard := [] }, none)
  | .waiting opcode =>
      if l.fm.cmdDone = 0 then (l, none)
      else ({ l with fm := { l.fm with cmdDone := l.fm.cmdDone - 1 }, host := .woken opcode }, none)
  | .woken opcode =>
      ({ l with host := .idle }, some (opcode, if l.fm.cmdStatus ≠ 0 then - EIO else 0))

def hostTimeout (l : Link) : Link × Option (BitVec 16 × ℤ) :=
  match l.host with
  | .waiting opcode => if l.fm.cmdDone = 0 then ({ l with host := .idle }, some (opcode, -ETIMEDOUT)) else (l, none)
  | _ => (l, none)

def rxStep (l : Link) : Link :=
  match l.rx with
  | .store e status =>
      { l with fm := { l.fm with cmdStatus := status.getD l.fm.cmdStatus }, rx := .signal e }
  | .signal _ => { l with fm := { l.fm with cmdDone := l.fm.cmdDone + 1 }, rx := .idle }
  | .idle =>
      match l.flight with
      | [] => l
      | e :: flight =>
          match wcnssFmRx l.fm.pendingOpcode e.buf with
          | .ignore => { l with flight }
          | .tuneStatus frequency rssi stereo => { l with flight, fm := { l.fm with frequency, rssi, stereo } }
          | .searchProgress => { l with flight, fm := { l.fm with seekDone := l.fm.seekDone + 1 } }
          | .cmdDone status => { l with flight, rx := .store e status }

/-- What happens on the channel: a call of `wcnss_fm_cmd`, a step of the caller, its timeout, a packet
from the tuner, a step of the callback. -/
inductive Act
  | cmd (opcode : BitVec 16)
  | host (sent : ℤ)
  | timeout
  | emit (buf : Packet)
  | rx

def act (l : Link) : Act → Link
  | .cmd opcode =>
      if l.host = .idle then { l with fm := { l.fm with cmdDone := 0 }, host := .reinited opcode } else l
  | .host sent => (hostStep l sent).1
  | .timeout => (hostTimeout l).1
  | .emit buf => { l with flight := l.flight ++ [⟨l.sends, buf⟩], heard := l.heard ++ [buf] }
  | .rx => rxStep l

def returns (l : Link) : Act → Option (BitVec 16 × ℤ)
  | .host sent => (hostStep l sent).2
  | .timeout => (hostTimeout l).2
  | _ => none

/-- A command returns zero only after the tuner has answered it with status zero. -/
def ReturnsAnswered (l : Link) (a : Act) : Prop :=
  ∀ opcode, returns l a = some (opcode, 0) → ∃ buf ∈ l.heard, answer buf = some (opcode, 0)

/-- The command the tuner has been sent and the caller has not returned from. -/
def Host.sent : Host → Option (BitVec 16)
  | .waiting opcode | .woken opcode => some opcode
  | _ => none

/-- The event answers the command that is being waited for, and was sent after it. -/
def Link.Own (l : Link) (e : Event) : Prop :=
  e.stamp = l.sends ∧ ∃ opcode status, l.host.sent = some opcode ∧ answer e.buf = some (opcode, status)

/-- While a command is in progress, no event but one of its own ends it. -/
def NoStray (l : Link) : Act → Prop
  | .rx => match l.rx with
      | .idle => True
      | .store e _ | .signal e => l.host = .idle ∨ l.Own e
  | _ => True

/-- The tuner has given the status that the driver holds. -/
def Link.Told (l : Link) (opcode : BitVec 16) : Prop := ∃ buf ∈ l.heard, answer buf = some (opcode, l.fm.cmdStatus)

/-- An event sent since the last command is among those heard since. -/
def Link.Timely (l : Link) (e : Event) : Prop := e.stamp ≤ l.sends ∧ (e.stamp = l.sends → e.buf ∈ l.heard)

/-- What the caller can rely on where it has come. -/
def Link.Expects (l : Link) : Prop :=
  match l.host with
  | .idle => True
  | .reinited _ | .pending _ | .cleared _ => l.fm.cmdDone = 0
  | .waiting opcode => l.Told opcode ∨ l.fm.cmdDone = 0 ∧ ∀ e, l.rx = .signal e → e.stamp ≠ l.sends
  | .woken opcode => l.Told opcode

structure Acked (l : Link) : Prop where
  flight : ∀ e ∈ l.flight, l.Timely e
  store : ∀ e status, l.rx = .store e status →
    l.Timely e ∧ ∀ opcode st, answer e.buf = some (opcode, st) → status = some st
  signal : ∀ e, l.rx = .signal e → e.stamp ≤ l.sends
  expects : l.Expects

theorem openChannel_acked : Acked openChannel := ⟨nofun, nofun, nofun, trivial⟩

/-- The callback reads the status where the answer has it. -/
theorem status_of_answer {pending opcode : BitVec 16} {buf : Packet} {status : Option Byte} {st : Byte}
    (hrx : wcnssFmRx pending buf = .cmdDone status) (hanswer : answer buf = some (opcode, st)) : status = some st := by
  unfold wcnssFmRx at hrx
  unfold answer at hanswer
  dsimp only at hrx hanswer
  split_ifs at hrx hanswer <;> simp_all

section
variable {l : Link}

theorem Link.Told.mono {l l' : Link} {opcode : BitVec 16} (h : l.Told opcode) (hheard : l.heard ⊆ l'.heard)
    (hstatus : l'.fm.cmdStatus = l.fm.cmdStatus) : l'.Told opcode := by
  obtain ⟨buf, hbuf, hanswer⟩ := h
  exact ⟨buf, hheard hbuf, hstatus ▸ hanswer⟩

theorem Link.Timely.mono {l l' : Link} {e : Event} (h : l.Timely e) (hsends : l'.sends = l.sends)
    (hheard : l.heard ⊆ l'.heard) : l'.Timely e :=
  ⟨hsends ▸ h.1, fun heq => hheard (h.2 (heq.trans hsends))⟩

/-- Hearing more, and a callback that signals nothing new, leave the caller what it relies on. -/
theorem Link.Expects.mono {l l' : Link} (h : l.Expects) (hhost : l'.host = l.host)
    (hdone : l'.fm.cmdDone = l.fm.cmdDone) (hstatus : l'.fm.cmdStatus = l.fm.cmdStatus) (hsends : l'.sends = l.sends)
    (hheard : l.heard ⊆ l'.heard) (hsignal : ∀ e, l'.rx = .signal e → l.rx = .signal e) : l'.Expects := by
  unfold Link.Expects at h ⊢
  rw [hhost]
  cases hl : l.host with
  | idle => trivial
  | waiting opcode =>
      rw [hl] at h
      refine h.imp (fun htold => htold.mono hheard hstatus) fun hno => ⟨hdone.trans hno.1, fun e he => ?_⟩
      rw [hsends]
      exact hno.2 e (hsignal e he)
  | woken opcode =>
      rw [hl] at h
      exact h.mono hheard hstatus
  | _ =>
      rw [hl] at h
      exact hdone.trans h

/-- Only the callback's own step and the sending of a command change what its events are worth. -/
theorem Acked.of_host (h : Acked l) {l' : Link} (hflight : l'.flight = l.flight) (hrx : l'.rx = l.rx)
    (hsends : l'.sends = l.sends) (hheard : l'.heard = l.heard) (hexpects : l'.Expects) : Acked l' := by
  have htimely : ∀ {e}, l.Timely e → l'.Timely e := fun he => he.mono hsends (hheard ▸ List.Subset.refl _)
  constructor
  case flight =>
    rw [hflight]
    exact fun e he => htimely (h.flight e he)
  case store =>
    intro e status hstore
    rw [hrx] at hstore
    exact ⟨htimely (h.store e status hstore).1, (h.store e status hstore).2⟩
  case signal =>
    intro e hsignal
    rw [hrx] at hsignal
    rw [hsends]
    exact h.signal e hsignal
  case expects => exact hexpects

theorem sent_acked (h : Acked l) {opcode : BitVec 16} (hdone : l.fm.cmdDone = 0) :
    Acked { l with host := .waiting opcode, sends := l.sends + 1, heard := [] } := by
  have hold : ∀ {e}, l.Timely e →
      ({ l with host := .waiting opcode, sends := l.sends + 1, heard := [] } : Link).Timely e :=
    fun he => ⟨Nat.le_succ_of_le he.1, fun heq => absurd (heq ▸ he.1) (Nat.not_succ_le_self _)⟩
  constructor
  case flight => exact fun e he => hold (h.flight e he)
  case store => exact fun e status hstore => ⟨hold (h.store e status hstore).1, (h.store e status hstore).2⟩
  case signal => exact fun e hsignal => Nat.le_succ_of_le (h.signal e hsignal)
  case expects =>
    refine Or.inr ⟨hdone, fun e hsignal heq => ?_⟩
    have hle := h.signal e hsignal
    rw [heq] at hle
    exact Nat.not_succ_le_self _ hle

theorem hostStep_acked (h : Acked l) (sent : ℤ) : Acked (hostStep l sent).1 := by
  have hexpects := h.expects
  unfold Link.Expects at hexpects
  unfold hostStep
  cases hhost : l.host with
  | idle => exact h
  | reinited opcode =>
      rw [hhost] at hexpects
      exact h.of_host rfl rfl rfl rfl hexpects
  | pending opcode =>
      rw [hhost] at hexpects
      exact h.of_host rfl rfl rfl rfl hexpects
  | cleared opcode =>
      rw [hhost] at hexpects
      dsimp only
      split_ifs
      · exact h.of_host rfl rfl rfl rfl trivial
      · exact sent_acked h hexpects
  | waiting opcode =>
      rw [hhost] at hexpects
      dsimp only
      split_ifs with hdone
      · exact h
      · refine h.of_host rfl rfl rfl rfl ?_
        exact (hexpects.resolve_right fun hno => hdone hno.1).mono (List.Subset.refl _) rfl
  | woken opcode => exact h.of_host rfl rfl rfl rfl trivial

theorem hostTimeout_acked (h : Acked l) : Acked (hostTimeout l).1 := by
  unfold hostTimeout
  cases hhost : l.host with
  | waiting opcode =>
      dsimp only
      split_ifs
      · exact h.of_host rfl rfl rfl rfl trivial
      · exact h
  | _ => exact h

theorem emit_acked (h : Acked l) (buf : Packet) : Acked (act l (.emit buf)) := by
  have hsub : l.heard ⊆ l.heard ++ [buf] := List.subset_append_left ..
  have hold : ∀ {e}, l.Timely e → (act l (.emit buf)).Timely e := fun he => he.mono rfl hsub
  constructor
  case flight =>
    intro e he
    rcases List.mem_append.mp he with he | he
    · exact hold (h.flight e he)
    · rw [List.mem_singleton.mp he]
      exact ⟨Nat.le_refl l.sends, fun _ => List.mem_append_right _ (List.mem_singleton_self buf)⟩
  case store => exact fun e status hstore => ⟨hold (h.store e status hstore).1, (h.store e status hstore).2⟩
  case signal => exact h.signal
  case expects => exact h.expects.mono rfl rfl rfl rfl hsub fun _ he => he

/-- A packet the callback takes from the channel. -/
theorem receive_acked (h : Acked l) {e : Event} {flight : List Event} (hflight : l.flight = e :: flight)
    {l' : Link} (hfm : l'.fm.cmdDone = l.fm.cmdDone ∧ l'.fm.cmdStatus = l.fm.cmdStatus)
    (hhost : l'.host = l.host) (hrest : l'.flight = flight) (hsends : l'.sends = l.sends)
    (hheard : l'.heard = l.heard)
    (hrx : l'.rx = .idle ∨ ∃ status, wcnssFmRx l.fm.pendingOpcode e.buf = .cmdDone status ∧ l'.rx = .store e status) :
    Acked l' := by
  have htimely : ∀ {e}, l.Timely e → l'.Timely e := fun he => he.mono hsends (hheard ▸ List.Subset.refl _)
  have hnosignal : ∀ e', l'.rx ≠ .signal e' := by
    intro e' he'
    rcases hrx with hrx | ⟨status, -, hrx⟩
    · rw [hrx] at he'
      cases he'
    · rw [hrx] at he'
      cases he'
  constructor
  case flight =>
    rw [hrest]
    exact fun e' he' => htimely (h.flight e' (hflight ▸ List.mem_cons_of_mem e he'))
  case store =>
    intro e' status hstore
    rcases hrx with hrx | ⟨status', heffect, hrx⟩
    · rw [hrx] at hstore
      cases hstore
    · rw [hrx] at hstore
      cases hstore
      exact ⟨htimely (h.flight e (hflight ▸ List.mem_cons_self)), fun _ _ => status_of_answer heffect⟩
  case signal => exact fun e' he' => absurd he' (hnosignal e')
  case expects =>
    exact h.expects.mono hhost hfm.1 hfm.2 hsends (hheard ▸ List.Subset.refl _) fun e' he' => absurd he' (hnosignal e')

/-- The callback stores the status of an event that belongs to the command in progress, if there is one. -/
theorem store_acked (h : Acked l) {e : Event} {status : Option Byte} (hrx : l.rx = .store e status)
    (hown : l.host = .idle ∨ l.Own e) :
    Acked { l with fm := { l.fm with cmdStatus := status.getD l.fm.cmdStatus }, rx := .signal e } := by
  obtain ⟨htimely, hstatus⟩ := h.store e status hrx
  constructor
  case flight => exact h.flight
  case store => exact fun e' status' he' => by cases he'
  case signal =>
    intro e' he'
    cases he'
    exact htimely.1
  case expects =>
    rcases hown with hidle | ⟨hstamp, opcode, st, hsent, hanswer⟩
    · unfold Link.Expects
      dsimp only
      rw [hidle]
      trivial
    · have htold : ({ l with fm := { l.fm with cmdStatus := status.getD l.fm.cmdStatus }, rx := .signal e } : Link).Told
          opcode := by
        refine ⟨e.buf, htimely.2 hstamp, ?_⟩
        rw [hanswer, hstatus opcode st hanswer]
        rfl
      unfold Link.Expects
      dsimp only
      cases hl : l.host with
      | waiting opcode' =>
          rw [hl] at hsent
          cases hsent
          exact Or.inl htold
      | woken opcode' =>
          rw [hl] at hsent
          cases hsent
          exact htold
      | _ =>
          rw [hl] at hsent
          cases hsent

theorem signal_acked (h : Acked l) {e : Event} (hrx : l.rx = .signal e) (hown : l.host = .idle ∨ l.Own e) :
    Acked { l with fm := { l.fm with cmdDone := l.fm.cmdDone + 1 }, rx := .idle } := by
  have hexpects := h.expects
  constructor
  case flight => exact h.flight
  case store => exact fun e' status' he' => by cases he'
  case signal => exact fun e' he' => by cases he'
  case expects =>
    unfold Link.Expects at hexpects ⊢
    dsimp only
    rcases hown with hidle | ⟨hstamp, opcode, st, hsent, -⟩
    · rw [hidle]
      trivial
    · cases hl : l.host with
      | waiting opcode' =>
          rw [hl] at hexpects
          -- the status of this event has been stored
          exact Or.inl ((hexpects.resolve_right fun hno => hno.2 e hrx hstamp).mono (List.Subset.refl _) rfl)
      | woken opcode' =>
          rw [hl] at hexpects
          exact hexpects.mono (List.Subset.refl _) rfl
      | _ =>
          rw [hl] at hsent
          cases hsent

theorem rxStep_acked (h : Acked l) (hstray : NoStray l .rx) : Acked (rxStep l) := by
  unfold NoStray at hstray
  unfold rxStep
  cases hrx : l.rx with
  | store e status =>
      rw [hrx] at hstray
      exact store_acked h hrx hstray
  | signal e =>
      rw [hrx] at hstray
      exact signal_acked h hrx hstray
  | idle =>
      cases hflight : l.flight with
      | nil => exact h
      | cons e flight =>
          dsimp only
          cases heffect : wcnssFmRx l.fm.pendingOpcode e.buf with
          | cmdDone status =>
              exact receive_acked h hflight ⟨rfl, rfl⟩ rfl rfl rfl rfl (Or.inr ⟨status, heffect, rfl⟩)
          | _ => exact receive_acked h hflight ⟨rfl, rfl⟩ rfl rfl rfl rfl (Or.inl rfl)

theorem act_acked (h : Acked l) {a : Act} (hstray : NoStray l a) : Acked (act l a) := by
  cases a with
  | cmd opcode =>
      rw [act]
      split_ifs
      · exact h.of_host rfl rfl rfl rfl rfl
      · exact h
  | host sent => exact hostStep_acked h sent
  | timeout => exact hostTimeout_acked h
  | emit buf => exact emit_acked h buf
  | rx => exact rxStep_acked h hstray

theorem Acked.returnsAnswered (h : Acked l) (a : Act) : ReturnsAnswered l a := by
  intro opcode hret
  have hexpects := h.expects
  unfold Link.Expects at hexpects
  cases a with
  | host sent =>
      simp only [returns, hostStep] at hret
      cases hhost : l.host with
      | woken opcode' =>
          rw [hhost] at hret hexpects
          dsimp only at hret
          split_ifs at hret with hstatus
          · cases hret
          · cases hret
            obtain ⟨buf, hbuf, hanswer⟩ := hexpects
            exact ⟨buf, hbuf, (not_not.mp hstatus) ▸ hanswer⟩
      | cleared opcode' =>
          rw [hhost] at hret
          dsimp only at hret
          split_ifs at hret with hsent
          cases hret
          exact absurd rfl hsent
      | waiting opcode' =>
          rw [hhost] at hret
          dsimp only at hret
          split_ifs at hret
      | _ =>
          rw [hhost] at hret
          cases hret
  | timeout =>
      simp only [returns, hostTimeout] at hret
      cases hhost : l.host with
      | waiting opcode' =>
          rw [hhost] at hret
          dsimp only at hret
          split_ifs at hret
          cases hret
      | _ =>
          rw [hhost] at hret
          cases hret
  | _ => cases hret

end

/-- In every run in which no event but a command's own ends it, a command returns zero only after the
tuner has answered it with status zero. -/
theorem no_stray_answered {acts : List Act} (h : Always act NoStray openChannel acts) :
    Always act ReturnsAnswered openChannel acts :=
  always_of_invariant (I := Acked) (fun _ _ hl hs => act_acked hl hs) (fun _ a hl _ => hl.returnsAnswered a)
    openChannel_acked h

def enableRecv : BitVec 16 := fmOpcode FM_OGF_RECV_CTRL FM_OCF_ENABLE_RECV
def disableRecv : BitVec 16 := fmOpcode FM_OGF_RECV_CTRL FM_OCF_DISABLE_RECV

def sendCmd (opcode : BitVec 16) : List Act := [.cmd opcode, .host 0, .host 0, .host 0]

def deliver (buf : Packet) : List Act := [.emit buf, .rx, .rx, .rx]

def enableComplete : Packet := [FM_PKT_EVENT, FM_EV_CMD_COMPLETE, 4, 1, 0x01, 0x4c, 0]
def enableStatus : Packet := [FM_PKT_EVENT, FM_EV_CMD_STATUS, 4, 0, 1, 0x01, 0x4c]

theorem no_stray_answered_enable :
    Always act ReturnsAnswered openChannel (sendCmd enableRecv ++ deliver enableComplete ++ [.host 0, .host 0]) := by
  apply no_stray_answered
  have hown : ∀ l : Link, l.sends = 1 → l.host = .waiting enableRecv → l.Own ⟨1, enableComplete⟩ :=
    fun l hsends hhost => ⟨hsends.symm, enableRecv, 0, by rw [hhost]; rfl, by decide⟩
  refine ⟨trivial, trivial, trivial, trivial, trivial, trivial, ?_, ?_, trivial, trivial, trivial⟩
  · exact Or.inr (hown _ rfl rfl)
  · exact Or.inr (hown _ rfl rfl)

/-- The first command times out; its status then comes in while the second one waits, and is taken for
the second one's. -/
theorem late_status_ends_the_next :
    ¬ ∀ acts, Always act ReturnsAnswered openChannel acts := by
  intro h
  have hrun := h (sendCmd enableRecv ++ [.timeout] ++ sendCmd disableRecv ++ deliver enableStatus ++ [.host 0, .host 0])
  obtain ⟨-, -, -, -, -, -, -, -, -, -, -, -, -, -, hreturns, -⟩ := hrun
  obtain ⟨buf, hbuf, hanswer⟩ := hreturns disableRecv (by decide)
  rw [List.mem_singleton.mp hbuf] at hanswer
  exact absurd hanswer (by decide)

end Sirius.RadioFm
