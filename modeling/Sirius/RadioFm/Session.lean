import Sirius.Lib.Runs
import Sirius.RadioFm.Events

/-!
# The ioctls of the radio and what they send

The calls come one after another under `fm->lock`, each command with the packets that are handled until its wait is
over; more may come between calls. What is sent is looked at as the tuner reads it.
-/
namespace Sirius.RadioFm
open Runs

def EINVAL : ℤ := 22
def EWOULDBLOCK : ℤ := 11

def FM_PKT_COMMAND : Byte := 0x11
def FM_OGF_COMMON_CTRL : ℕ := 0x15
def FM_OCF_SET_MUTE_MODE : ℕ := 0x0005
def FM_OCF_SET_STEREO_MODE : ℕ := 0x0006
def FM_OCF_GET_STATION_PARAM : ℕ := 0x000a
def FM_OCF_SEARCH_STATIONS : ℕ := 0x000e
def FM_OCF_CANCEL_SEARCH : ℕ := 0x0011
def FM_OCF_TUNE_STATION : ℕ := 0x0001
def FM_FREQ_HIGH : ℕ := 108000
def FM_FREQ_STEP : ℕ := 100

def V4L2_TUNER_MODE_MONO : ℕ := 0
def V4L2_CID_AUDIO_MUTE : ℕ := 0x00980909

/-- What `wcnss_fm_send` puts together. -/
def commandPacket (opcode : BitVec 16) (payload : List Byte) : Packet :=
  [FM_PKT_COMMAND, opcode.extractLsb' 0 8, opcode.extractLsb' 8 8, BitVec.ofNat 8 payload.length] ++ payload

/-- The driver, what it has sent, and the packets it has handled. -/
structure Session where
  fm : Fm
  wire : List Packet
  heard : List Packet

/-- The result of `rpmsg_send`, and the packets handled until the wait is over. -/
structure Reply where
  sent : ℤ
  packets : List Packet

def Fm.rx (fm : Fm) (buf : Packet) : Fm :=
  match wcnssFmRx fm.pendingOpcode buf with
  | .ignore => fm
  | .tuneStatus frequency rssi stereo => { fm with frequency, rssi, stereo }
  | .searchProgress => { fm with seekDone := fm.seekDone + 1 }
  | .cmdDone status => { fm with cmdStatus := status.getD fm.cmdStatus, cmdDone := fm.cmdDone + 1 }

def Session.hear (s : Session) (packets : List Packet) : Session :=
  { s with fm := packets.foldl Fm.rx s.fm, heard := s.heard ++ packets }

/-- `wcnss_fm_cmd` with its packet. -/
def Session.cmd (s : Session) (opcode : BitVec 16) (payload : List Byte) (r : Reply) : Session × ℤ :=
  let s := { s with fm := { s.fm with cmdDone := 0, pendingOpcode := opcode, cmdStatus := 0 } }
  if r.sent ≠ 0 then (s, r.sent)
  else
    let s := { s with wire := s.wire ++ [commandPacket opcode payload] }
    let s := s.hear r.packets
    if s.fm.cmdDone = 0 then (s, -ETIMEDOUT)
    else
      let s := { s with fm := { s.fm with cmdDone := s.fm.cmdDone - 1 } }
      (s, if s.fm.cmdStatus ≠ 0 then - EIO else 0)

/-- `struct fm_recv_conf` as `wcnss_fm_enable` fills it. -/
def recvConf : List Byte :=
  [0, 0, 0, 0] ++ le32Bytes (BitVec.ofNat 32 FM_FREQ_LOW) ++ le32Bytes (BitVec.ofNat 32 FM_FREQ_HIGH)

def Session.enable (s : Session) (r r' : Reply) : Session × ℤ :=
  let (s, ret) := s.cmd (fmOpcode FM_OGF_RECV_CTRL FM_OCF_ENABLE_RECV) recvConf r
  if ret ≠ 0 then (s, ret)
  else
    let (s, _) := s.cmd (fmOpcode FM_OGF_RECV_CTRL FM_OCF_SET_ANTENNA) [0] r'
    ({ s with fm := { s.fm with enabled := true } }, 0)

def Session.disable (s : Session) (r : Reply) : Session × ℤ :=
  if s.fm.enabled = false then (s, 0)
  else
    let (s, ret) := s.cmd (fmOpcode FM_OGF_RECV_CTRL FM_OCF_DISABLE_RECV) [] r
    ({ s with fm := { s.fm with enabled := false } }, ret)

def wcnssFmTune (s : Session) (khz : BitVec 32) (r : Reply) : Session × ℤ :=
  s.cmd (fmOpcode FM_OGF_COMMON_CTRL FM_OCF_TUNE_STATION) (le32Bytes khz) r

/-- `KHZ_TO_V4L2` -/
def khzToV4l2 (k : BitVec 32) : BitVec 32 := k * 16

/-- `V4L2_TO_KHZ` -/
def v4l2ToKhz (f : BitVec 32) : BitVec 32 := f / 16

/-- What `wcnss_fm_g_tuner` fills in from the tuner. -/
structure TunerInfo where
  stereo : Bool
  signal : ℕ
  deriving DecidableEq, Repr

def wcnssFmGTuner (s : Session) (index : ℕ) (r : Reply) : Session × Except ℤ TunerInfo :=
  if index ≠ 0 then (s, .error (-EINVAL))
  else
    let (s, ret) := s.cmd (fmOpcode FM_OGF_RECV_CTRL FM_OCF_GET_STATION_PARAM) [] r
    if ret ≠ 0 then (s, .error ret) else (s, .ok ⟨s.fm.stereo, s.fm.rssi.toNat <<< 8⟩)

def wcnssFmSTuner (s : Session) (index audmode : ℕ) (r : Reply) : Session × ℤ :=
  if index ≠ 0 then (s, -EINVAL)
  else
    let mode : Byte := if audmode = V4L2_TUNER_MODE_MONO then 1 else 0
    s.cmd (fmOpcode FM_OGF_RECV_CTRL FM_OCF_SET_STEREO_MODE) [mode] r

def wcnssFmGFrequency (s : Session) (tuner : ℕ) : Except ℤ (BitVec 32) :=
  if tuner ≠ 0 then .error (-EINVAL) else .ok (khzToV4l2 s.fm.frequency)

/-- `clamp_t(u32, val, lo, hi)` -/
def clamp (val lo hi : BitVec 32) : BitVec 32 := if val < lo then lo else if val > hi then hi else val

/-- The channel of a frequency: clamped to the band and rounded down to the step. -/
def channel (f : BitVec 32) : BitVec 32 :=
  let khz := clamp (v4l2ToKhz f) (BitVec.ofNat 32 FM_FREQ_LOW) (BitVec.ofNat 32 FM_FREQ_HIGH)
  khz - khz % BitVec.ofNat 32 FM_FREQ_STEP

def wcnssFmSFrequency (s : Session) (tuner : ℕ) (f : BitVec 32) (r : Reply) : Session × ℤ :=
  if tuner ≠ 0 then (s, -EINVAL) else wcnssFmTune s (channel f) r

/-- `packets` are those handled while it waits for the search. -/
def wcnssFmSHwFreqSeek (s : Session) (tuner : ℕ) (nonblock seekUpward : Bool) (r : Reply) (packets : List Packet)
    (r' : Reply) : Session × ℤ :=
  if tuner ≠ 0 then (s, -EINVAL)
  else if nonblock then (s, -EWOULDBLOCK)
  else
    let s := { s with fm := { s.fm with seekDone := 0 } }
    let (s, ret) := s.cmd (fmOpcode FM_OGF_RECV_CTRL FM_OCF_SEARCH_STATIONS) [if seekUpward then 1 else 0, 1] r
    if ret ≠ 0 then (s, ret)
    else
      let s := s.hear packets
      if s.fm.seekDone = 0 then
        ((s.cmd (fmOpcode FM_OGF_RECV_CTRL FM_OCF_CANCEL_SEARCH) [] r').1, -ETIMEDOUT)
      else ({ s with fm := { s.fm with seekDone := s.fm.seekDone - 1 } }, 0)

def wcnssFmSCtrl (s : Session) (id : ℕ) (val : ℤ) (r : Reply) : Session × ℤ :=
  if id = V4L2_CID_AUDIO_MUTE then
    let mute : Byte := if val ≠ 0 then 3 else 0
    s.cmd (fmOpcode FM_OGF_RECV_CTRL FM_OCF_SET_MUTE_MODE) [mute] r
  else (s, -EINVAL)

/-- A call under the lock, or packets that come between calls. -/
inductive Call
  | enable (r r' : Reply)
  | disable (r : Reply)
  | gTuner (index : ℕ) (r : Reply)
  | sTuner (index audmode : ℕ) (r : Reply)
  | sFrequency (tuner : ℕ) (f : BitVec 32) (r : Reply)
  | seek (tuner : ℕ) (nonblock seekUpward : Bool) (r : Reply) (packets : List Packet) (r' : Reply)
  | sCtrl (id : ℕ) (val : ℤ) (r : Reply)
  | packets (packets : List Packet)

def Session.step (s : Session) : Call → Session
  | .enable r r' => (s.enable r r').1
  | .disable r => (s.disable r).1
  | .gTuner index r => (wcnssFmGTuner s index r).1
  | .sTuner index audmode r => (wcnssFmSTuner s index audmode r).1
  | .sFrequency tuner f r => (wcnssFmSFrequency s tuner f r).1
  | .seek tuner nonblock seekUpward r packets r' => (wcnssFmSHwFreqSeek s tuner nonblock seekUpward r packets r').1
  | .sCtrl id val r => (wcnssFmSCtrl s id val r).1
  | .packets packets => s.hear packets

def openSession : Session := ⟨wcnssFmProbe, [], []⟩

/-- A command as the tuner reads it. -/
def parseCommand (buf : Packet) : Option (BitVec 16 × List Byte) :=
  if buf.byte 0 = FM_PKT_COMMAND ∧ buf.length = 4 + (buf.byte 3).toNat then some (buf.le16 1, buf.drop 4) else none

/-- A frequency of the band in its steps, in kHz. -/
def OnGrid (khz : ℕ) : Prop := FM_FREQ_LOW ≤ khz ∧ khz ≤ FM_FREQ_HIGH ∧ khz % FM_FREQ_STEP = 0

/-- The commands there are, with the payloads they may have. -/
inductive Command : BitVec 16 → List Byte → Prop
  | enable : Command (fmOpcode FM_OGF_RECV_CTRL FM_OCF_ENABLE_RECV) recvConf
  | antenna : Command (fmOpcode FM_OGF_RECV_CTRL FM_OCF_SET_ANTENNA) [0]
  | disable : Command (fmOpcode FM_OGF_RECV_CTRL FM_OCF_DISABLE_RECV) []
  | station : Command (fmOpcode FM_OGF_RECV_CTRL FM_OCF_GET_STATION_PARAM) []
  | stereo (mode : Byte) (h : mode = 0 ∨ mode = 1) : Command (fmOpcode FM_OGF_RECV_CTRL FM_OCF_SET_STEREO_MODE) [mode]
  | mute (mode : Byte) (h : mode = 0 ∨ mode = 3) : Command (fmOpcode FM_OGF_RECV_CTRL FM_OCF_SET_MUTE_MODE) [mode]
  | tune (payload : Packet) (hlen : payload.length = 4) (hgrid : OnGrid (payload.le32 0).toNat) :
      Command (fmOpcode FM_OGF_COMMON_CTRL FM_OCF_TUNE_STATION) payload
  | search (up : Byte) (h : up = 0 ∨ up = 1) : Command (fmOpcode FM_OGF_RECV_CTRL FM_OCF_SEARCH_STATIONS) [up, 1]
  | cancel : Command (fmOpcode FM_OGF_RECV_CTRL FM_OCF_CANCEL_SEARCH) []

theorem parseCommand_commandPacket (opcode : BitVec 16) {payload : List Byte} (h : payload.length < 256) :
    parseCommand (commandPacket opcode payload) = some (opcode, payload) := by
  have hlen : (commandPacket opcode payload).length = 4 + (BitVec.ofNat 8 payload.length).toNat := by
    rw [BitVec.toNat_ofNat, Nat.mod_eq_of_lt h, Nat.add_comm]
    rfl
  have hopcode : opcode.extractLsb' 8 8 ++ opcode.extractLsb' 0 8 = opcode :=
    BitVec.extractLsb'_append_extractLsb'
  rw [parseCommand, if_pos ⟨rfl, hlen⟩]
  exact congrArg (fun op => some (op, payload)) hopcode

theorem toNat_clamp {val lo hi : BitVec 32} (h : lo.toNat ≤ hi.toNat) :
    (clamp val lo hi).toNat = min (max val.toNat lo.toNat) hi.toNat := by
  unfold clamp
  split
  · rename_i hlt
    have := BitVec.lt_def.mp hlt
    omega
  · rename_i hlt
    rw [BitVec.lt_def] at hlt
    split
    · rename_i hgt
      have := BitVec.lt_def.mp hgt
      omega
    · rename_i hgt
      have := mt BitVec.lt_def.mpr hgt
      omega

theorem toNat_v4l2ToKhz (f : BitVec 32) : (v4l2ToKhz f).toNat = f.toNat / 16 := BitVec.toNat_udiv

def khzOf (f : BitVec 32) : ℕ := min (max (f.toNat / 16) FM_FREQ_LOW) FM_FREQ_HIGH

theorem toNat_channel (f : BitVec 32) : (channel f).toNat = khzOf f - khzOf f % FM_FREQ_STEP := by
  have hclamp := @toNat_clamp (v4l2ToKhz f) (BitVec.ofNat 32 FM_FREQ_LOW) (BitVec.ofNat 32 FM_FREQ_HIGH) (by decide)
  rw [toNat_v4l2ToKhz] at hclamp
  change _ = khzOf f at hclamp
  have hmod : (clamp (v4l2ToKhz f) (BitVec.ofNat 32 FM_FREQ_LOW) (BitVec.ofNat 32 FM_FREQ_HIGH) %
      BitVec.ofNat 32 FM_FREQ_STEP).toNat = khzOf f % FM_FREQ_STEP := by
    rw [BitVec.toNat_umod, hclamp]
    rfl
  have hle : clamp (v4l2ToKhz f) (BitVec.ofNat 32 FM_FREQ_LOW) (BitVec.ofNat 32 FM_FREQ_HIGH) %
        BitVec.ofNat 32 FM_FREQ_STEP ≤
      clamp (v4l2ToKhz f) (BitVec.ofNat 32 FM_FREQ_LOW) (BitVec.ofNat 32 FM_FREQ_HIGH) := by
    rw [BitVec.le_def, hmod, hclamp]
    exact Nat.mod_le ..
  rw [channel, BitVec.toNat_sub_of_le hle, hmod, hclamp]

theorem onGrid_channel (f : BitVec 32) : OnGrid (channel f).toNat := by
  rw [OnGrid, toNat_channel]
  simp only [khzOf, FM_FREQ_LOW, FM_FREQ_HIGH, FM_FREQ_STEP]
  omega

/-- A channel is found again from its own frequency. -/
theorem channel_khzToV4l2 {khz : BitVec 32} (h : OnGrid khz.toNat) : channel (khzToV4l2 khz) = khz := by
  obtain ⟨hlow, hhigh, hstep⟩ := h
  refine BitVec.eq_of_toNat_eq ?_
  have hmul : (khzToV4l2 khz).toNat = khz.toNat * 16 := by
    rw [khzToV4l2, BitVec.toNat_mul]
    exact Nat.mod_eq_of_lt (by simp only [FM_FREQ_HIGH] at hhigh; simp; omega)
  rw [toNat_channel, khzOf, hmul]
  simp only [FM_FREQ_LOW, FM_FREQ_HIGH, FM_FREQ_STEP] at *
  omega

section
variable {P : Session → Prop} {s : Session}

/-- A call sends commands and handles packets, and sets two flags of its own. -/
theorem step_keeps
    (hcmd : ∀ {s opcode payload}, Command opcode payload → ∀ r, P s → P (s.cmd opcode payload r).1)
    (hhear : ∀ {s} packets, P s → P (s.hear packets))
    (henabled : ∀ {s : Session} b, P s → P { s with fm := { s.fm with enabled := b } })
    (hseek : ∀ {s : Session} n, P s → P { s with fm := { s.fm with seekDone := n } }) (h : P s) (c : Call) :
    P (s.step c) := by
  cases c with
  | enable r r' =>
      rw [Session.step, Session.enable]
      have hon := hcmd .enable r h
      dsimp only
      split
      · exact hon
      · exact henabled _ (hcmd .antenna r' hon)
  | disable r =>
      rw [Session.step, Session.disable]
      split
      · exact h
      · exact henabled _ (hcmd .disable r h)
  | gTuner index r =>
      rw [Session.step, wcnssFmGTuner]
      have hasked := hcmd .station r h
      split
      · exact h
      · dsimp only
        split <;> exact hasked
  | sTuner index audmode r =>
      rw [Session.step, wcnssFmSTuner]
      split
      · exact h
      · exact hcmd (.stereo _ (by split; exacts [.inr rfl, .inl rfl])) r h
  | sFrequency tuner f r =>
      rw [Session.step, wcnssFmSFrequency]
      split
      · exact h
      · refine hcmd (.tune _ rfl ?_) r h
        rw [le32_le32Bytes]
        exact onGrid_channel f
  | seek tuner nonblock seekUpward r packets r' =>
      rw [Session.step, wcnssFmSHwFreqSeek]
      split
      · exact h
      · split
        · exact h
        · have hsearch : Command _ [if seekUpward then 1 else 0, 1] :=
            .search _ (by split; exacts [.inr rfl, .inl rfl])
          dsimp only
          generalize (if seekUpward then (1 : Byte) else 0) = up at hsearch ⊢
          have hsent := hcmd hsearch r (hseek 0 h)
          split
          · exact hsent
          · split
            · exact hcmd .cancel r' (hhear packets hsent)
            · exact hseek _ (hhear packets hsent)
  | sCtrl id val r =>
      rw [Session.step, wcnssFmSCtrl]
      split
      · exact hcmd (.mute _ (by split; exacts [.inr rfl, .inl rfl])) r h
      · exact h
  | packets packets => exact hhear packets h

end

/-- The packet is a command that the tuner reads as it was meant. -/
def Understood (buf : Packet) : Prop :=
  ∃ opcode payload, parseCommand buf = some (opcode, payload) ∧ Command opcode payload

section
variable {s : Session} {opcode : BitVec 16} {payload : List Byte} {r : Reply}

theorem Command.length_lt (h : Command opcode payload) : payload.length < 256 := by
  cases h with
  | tune payload hlen => omega
  | _ => simp [recvConf, le32Bytes]

theorem wire_cmd (s : Session) (opcode : BitVec 16) (payload : List Byte) (r : Reply) :
    (s.cmd opcode payload r).1.wire = s.wire ++ if r.sent = 0 then [commandPacket opcode payload] else [] := by
  unfold Session.cmd
  dsimp only
  by_cases hsent : r.sent = 0
  · rw [if_neg (not_not.mpr hsent), if_pos hsent]
    split <;> rfl
  · rw [if_pos hsent, if_neg hsent]
    exact (List.append_nil _).symm

theorem understood_cmd (h : Command opcode payload) (r : Reply) (hs : ∀ buf ∈ s.wire, Understood buf) :
    ∀ buf ∈ (s.cmd opcode payload r).1.wire, Understood buf := by
  intro buf hbuf
  rw [wire_cmd] at hbuf
  obtain hbuf | hbuf := List.mem_append.mp hbuf
  · exact hs buf hbuf
  · split at hbuf
    · rw [List.mem_singleton.mp hbuf]
      exact ⟨opcode, payload, parseCommand_commandPacket opcode h.length_lt, h⟩
    · exact (List.not_mem_nil hbuf).elim

theorem understood_step (c : Call) (hs : ∀ buf ∈ s.wire, Understood buf) : ∀ buf ∈ (s.step c).wire, Understood buf :=
  step_keeps (P := fun s => ∀ buf ∈ s.wire, Understood buf) understood_cmd (fun _ h => h) (fun _ h => h) (fun _ h => h)
    hs c

end

/-- Whatever is called and whatever the tuner answers, every packet that is sent is a command with a payload of its
own kind, and a tune command is for a channel of the band. -/
theorem run_understood (calls : List Call) : ∀ buf ∈ (run Session.step openSession calls).wire, Understood buf :=
  run_keeps (I := fun s : Session => ∀ buf ∈ s.wire, Understood buf) (fun _ c hs => understood_step c hs)
    (fun _ h => (List.not_mem_nil h).elim) calls

/-- A tune to 98.2 MHz that nothing answers. -/
theorem run_understood_tune :
    Understood (commandPacket (fmOpcode FM_OGF_COMMON_CTRL FM_OCF_TUNE_STATION) (le32Bytes (channel 1571200))) :=
  run_understood [.sFrequency 0 1571200 ⟨0, []⟩] _ List.mem_cons_self

/-- The tune status that a packet carries. -/
def tuneStatus (buf : Packet) : Option FmTuneStatus :=
  match message buf with
  | some (.tuneStatus st) => some st
  | _ => none

/-- The channel, the strength and whether it is stereo. -/
def FmTuneStatus.status (st : FmTuneStatus) : BitVec 32 × Byte × Bool := (st.stationFreq, st.rssi, st.stereoPrg ≠ 0)

/-- What the tuner has said last, and before that what probe has put there. -/
def lastStatus (heard : List Packet) : BitVec 32 × Byte × Bool :=
  ((heard.filterMap tuneStatus).getLast?).elim (BitVec.ofNat 32 FM_FREQ_LOW, 0, false) FmTuneStatus.status

def Fm.status (fm : Fm) : BitVec 32 × Byte × Bool := (fm.frequency, fm.rssi, fm.stereo)

/-- What a message changes in the driver. -/
def Fm.told (fm : Fm) : Message → Fm
  | .cmdComplete opcode status =>
      if opcode = fm.pendingOpcode then { fm with cmdStatus := status, cmdDone := fm.cmdDone + 1 } else fm
  | .cmdStatus status => { fm with cmdStatus := status.getD fm.cmdStatus, cmdDone := fm.cmdDone + 1 }
  | .tuneStatus st => { fm with frequency := st.stationFreq, rssi := st.rssi, stereo := st.stereoPrg ≠ 0 }
  | .searchProgress => { fm with seekDone := fm.seekDone + 1 }

theorem rx_eq (fm : Fm) (buf : Packet) : fm.rx buf = (message buf).elim fm fm.told := by
  rw [Fm.rx, wcnssFmRx_eq]
  cases message buf with
  | none => rfl
  | some m =>
      cases m with
      | cmdComplete opcode status =>
          rw [Option.elim_some, Option.elim_some, Message.effect, Fm.told]
          by_cases hopcode : opcode = fm.pendingOpcode
          · rw [if_pos hopcode, if_pos hopcode]
            rfl
          · rw [if_neg hopcode, if_neg hopcode]
      | cmdStatus status => rfl
      | tuneStatus st => rfl
      | searchProgress => rfl

/-- Whether a packet is a tune status does not depend on the command that is pending. -/
theorem status_rx (fm : Fm) (buf : Packet) :
    (fm.rx buf).status = (tuneStatus buf).elim fm.status FmTuneStatus.status := by
  rw [rx_eq, tuneStatus]
  cases message buf with
  | none => rfl
  | some m =>
      cases m with
      | cmdComplete opcode status =>
          rw [Option.elim_some, Fm.told]
          split <;> rfl
      | cmdStatus status => rfl
      | tuneStatus st => rfl
      | searchProgress => rfl

theorem lastStatus_append (heard : List Packet) (buf : Packet) :
    lastStatus (heard ++ [buf]) = (tuneStatus buf).elim (lastStatus heard) FmTuneStatus.status := by
  rw [lastStatus, List.filterMap_append]
  cases hbuf : tuneStatus buf with
  | none => rw [List.filterMap_cons_none hbuf, List.filterMap_nil, List.append_nil]; rfl
  | some status => rw [List.filterMap_cons_some hbuf, List.filterMap_nil, List.getLast?_concat]; rfl

theorem status_foldl {fm : Fm} {heard : List Packet} (h : fm.status = lastStatus heard) (packets : List Packet) :
    (packets.foldl Fm.rx fm).status = lastStatus (heard ++ packets) := by
  induction packets generalizing fm heard with
  | nil => rwa [List.append_nil]
  | cons buf packets ih =>
      have hbuf : (fm.rx buf).status = lastStatus (heard ++ [buf]) := by rw [status_rx, lastStatus_append, h]
      rw [List.foldl_cons, ih hbuf, List.append_assoc, List.singleton_append]

/-- The driver holds the last tune status of all the packets it has handled. -/
def Reports (s : Session) : Prop := s.fm.status = lastStatus s.heard

section
variable {s : Session} {opcode : BitVec 16} {payload : List Byte} {r : Reply}

theorem reports_hear (h : Reports s) (packets : List Packet) : Reports (s.hear packets) := status_foldl h packets

theorem reports_cmd (h : Reports s) : Reports (s.cmd opcode payload r).1 := by
  unfold Session.cmd
  dsimp only
  split
  · exact h
  · have hheard : Reports (Session.hear
        { s with
          fm := { s.fm with cmdDone := 0, pendingOpcode := opcode, cmdStatus := 0 }
          wire := s.wire ++ [commandPacket opcode payload] } r.packets) :=
      @status_foldl { s.fm with cmdDone := 0, pendingOpcode := opcode, cmdStatus := 0 } s.heard h r.packets
    split
    · exact hheard
    · exact hheard

theorem heard_cmd (h : (s.cmd opcode payload r).2 = 0) : (s.cmd opcode payload r).1.heard = s.heard ++ r.packets := by
  unfold Session.cmd at h ⊢
  dsimp only at h ⊢
  split at h
  · exact absurd h ‹_›
  · rw [if_neg ‹_›]
    split <;> rfl

theorem reports_step (h : Reports s) (c : Call) : Reports (s.step c) :=
  step_keeps (P := Reports) (fun _ _ => reports_cmd) (fun packets h => reports_hear h packets) (fun _ h => h)
    (fun _ h => h) h c

end

/-- After any calls the frequency and the tuner that are reported are those of the last tune status, also of one that
came while something else was done, and setting the frequency that is reported tunes to the same channel. -/
theorem run_reports (calls : List Call) :
    let s := run Session.step openSession calls
    wcnssFmGFrequency s 0 = .ok (khzToV4l2 (lastStatus s.heard).1) ∧
      (∀ r info, (wcnssFmGTuner s 0 r).2 = .ok info → info =
        ⟨(lastStatus (s.heard ++ r.packets)).2.2, (lastStatus (s.heard ++ r.packets)).2.1.toNat <<< 8⟩) ∧
      (OnGrid (lastStatus s.heard).1.toNat → ∀ f r, wcnssFmGFrequency s 0 = .ok f →
        wcnssFmSFrequency s 0 f r = wcnssFmTune s (lastStatus s.heard).1 r) := by
  have h : Reports (run Session.step openSession calls) :=
    run_keeps (I := Reports) (fun _ c hs => reports_step hs c) (show Reports openSession from rfl) calls
  intro s
  have hfreq : s.fm.frequency = (lastStatus s.heard).1 := congrArg Prod.fst h
  refine ⟨congrArg (fun k => Except.ok (khzToV4l2 k)) hfreq, fun r info hinfo => ?_, fun hgrid f r hf => ?_⟩
  · rw [wcnssFmGTuner, if_neg (not_not.mpr rfl)] at hinfo
    dsimp only at hinfo
    split at hinfo
    · cases hinfo
    · have hstatus : (s.cmd (fmOpcode FM_OGF_RECV_CTRL FM_OCF_GET_STATION_PARAM) [] r).1.fm.status =
          lastStatus (s.heard ++ r.packets) := by
        rw [← heard_cmd (not_not.mp ‹_›)]
        exact reports_cmd h
      cases hinfo
      rw [← hstatus]
      rfl
  · rw [wcnssFmGFrequency, if_neg (not_not.mpr rfl), hfreq] at hf
    cases hf
    rw [wcnssFmSFrequency, if_neg (not_not.mpr rfl), channel_khzToV4l2 hgrid]

/-- A stereo station at 98.2 MHz, told between two calls. -/
theorem run_reports_told :
    let calls := [.sTuner 0 0 ⟨0, []⟩, .packets [eventPacket FM_EV_TUNE_STATUS (FmTuneStatus.bytes
      ⟨0, 98200, 1, 60, 1, 0, 0, 0, 0⟩)], .disable ⟨0, []⟩]
    wcnssFmGFrequency (run Session.step openSession calls) 0 = .ok 1571200 :=
  (run_reports [.sTuner 0 0 ⟨0, []⟩, .packets [eventPacket FM_EV_TUNE_STATUS (FmTuneStatus.bytes
    ⟨0, 98200, 1, 60, 1, 0, 0, 0, 0⟩)], .disable ⟨0, []⟩]).1

/-- The packet reports the progress of a search. -/
def Progress (buf : Packet) : Prop := message buf = some .searchProgress

instance (buf : Packet) : Decidable (Progress buf) := inferInstanceAs (Decidable (_ = _))

theorem seekDone_rx (fm : Fm) (buf : Packet) :
    (fm.rx buf).seekDone = if Progress buf then fm.seekDone + 1 else fm.seekDone := by
  rw [rx_eq]
  by_cases hbuf : Progress buf
  · rw [if_pos hbuf, show message buf = some .searchProgress from hbuf]
    rfl
  · rw [if_neg hbuf]
    cases hmessage : message buf with
    | none => rfl
    | some m =>
        cases m with
        | cmdComplete opcode status =>
            rw [Option.elim_some, Fm.told]
            split <;> rfl
        | cmdStatus status => rfl
        | tuneStatus st => rfl
        | searchProgress => exact absurd hmessage hbuf

theorem seekDone_foldl (packets : List Packet) (fm : Fm) :
    (packets.foldl Fm.rx fm).seekDone = 0 ↔ fm.seekDone = 0 ∧ ∀ buf ∈ packets, ¬Progress buf := by
  induction packets generalizing fm with
  | nil => simp
  | cons buf packets ih =>
      rw [List.foldl_cons, ih, seekDone_rx]
      by_cases hbuf : Progress buf <;> simp [hbuf]

theorem seekDone_cmd {s : Session} {opcode : BitVec 16} {payload : List Byte} {r : Reply}
    (h : (s.cmd opcode payload r).2 = 0) :
    (s.cmd opcode payload r).1.fm.seekDone = 0 ↔ s.fm.seekDone = 0 ∧ ∀ buf ∈ r.packets, ¬Progress buf := by
  have hfoldl := seekDone_foldl r.packets { s.fm with cmdDone := 0, pendingOpcode := opcode, cmdStatus := 0 }
  unfold Session.cmd at h ⊢
  dsimp only at h ⊢
  split at h
  · exact absurd h ‹_›
  · rw [if_neg ‹_›]
    split <;> exact hfoldl

/-- The packet ends the command: a command complete of its own, or any command status. -/
def Ends (opcode : BitVec 16) (buf : Packet) : Prop :=
  (∃ status, message buf = some (.cmdComplete opcode status)) ∨ ∃ status, message buf = some (.cmdStatus status)

/-- The status that such a packet gives, if any. -/
def statusGiven (opcode : BitVec 16) (buf : Packet) : Option Byte :=
  match message buf with
  | some (.cmdComplete op status) => if op = opcode then some status else none
  | some (.cmdStatus status) => status
  | _ => none

/-- The command goes out and is answered, with zero as the last status given, if any is. -/
structure Accepted (opcode : BitVec 16) (r : Reply) : Prop where
  sent : r.sent = 0
  answered : ∃ buf ∈ r.packets, Ends opcode buf
  status : (r.packets.filterMap (statusGiven opcode)).getLast?.getD 0 = 0

/-- What a packet does to a command that is waited for. -/
theorem rx_cmd (fm : Fm) (buf : Packet) :
    (fm.rx buf).pendingOpcode = fm.pendingOpcode ∧
      ((fm.rx buf).cmdDone = 0 ↔ fm.cmdDone = 0 ∧ ¬Ends fm.pendingOpcode buf) ∧
      (fm.rx buf).cmdStatus = (statusGiven fm.pendingOpcode buf).getD fm.cmdStatus := by
  rw [rx_eq, statusGiven, Ends]
  cases message buf with
  | none => simp
  | some m =>
      cases m with
      | cmdComplete opcode status =>
          rw [Option.elim_some, Fm.told]
          by_cases hopcode : opcode = fm.pendingOpcode <;> simp [hopcode]
      | cmdStatus status => simp [Fm.told]
      | tuneStatus st => simp [Fm.told]
      | searchProgress => simp [Fm.told]

theorem foldl_cmd (packets : List Packet) (fm : Fm) :
    ((packets.foldl Fm.rx fm).cmdDone = 0 ↔ fm.cmdDone = 0 ∧ ∀ buf ∈ packets, ¬Ends fm.pendingOpcode buf) ∧
      (packets.foldl Fm.rx fm).cmdStatus =
        (packets.filterMap (statusGiven fm.pendingOpcode)).getLast?.getD fm.cmdStatus := by
  induction packets generalizing fm with
  | nil => simp
  | cons buf packets ih =>
      obtain ⟨hpending, hdone, hstatus⟩ := rx_cmd fm buf
      obtain ⟨ihdone, ihstatus⟩ := ih (fm.rx buf)
      rw [hpending] at ihdone ihstatus
      rw [List.foldl_cons, ihdone, hdone, ihstatus, hstatus, List.forall_mem_cons, and_assoc]
      refine ⟨Iff.rfl, ?_⟩
      cases hbuf : statusGiven fm.pendingOpcode buf with
      | none => rw [List.filterMap_cons_none hbuf, Option.getD_none]
      | some status => rw [List.filterMap_cons_some hbuf, List.getLast?_cons, Option.getD_some, Option.getD_some]

/-- A command succeeds if it is accepted, and only then. -/
theorem cmd_eq_zero_iff {s : Session} {opcode : BitVec 16} {payload : List Byte} {r : Reply} :
    (s.cmd opcode payload r).2 = 0 ↔ Accepted opcode r := by
  obtain ⟨hdone, hstatus⟩ := foldl_cmd r.packets { s.fm with cmdDone := 0, pendingOpcode := opcode, cmdStatus := 0 }
  unfold Session.cmd
  dsimp only
  split
  · rename_i hsent
    exact iff_of_false hsent fun h => hsent h.sent
  · rename_i hsent
    split
    · rename_i hzero
      refine iff_of_false (show ¬-ETIMEDOUT = 0 by decide) fun h => ?_
      obtain ⟨buf, hbuf, hends⟩ := h.answered
      exact (hdone.mp hzero).2 buf hbuf hends
    · rename_i hone
      have hanswered : ∃ buf ∈ r.packets, Ends opcode buf := by
        by_contra hnone
        exact hone (hdone.mpr ⟨rfl, fun buf hbuf hends => hnone ⟨buf, hbuf, hends⟩⟩)
      split
      · rename_i hrefused
        exact iff_of_false (show ¬- EIO = 0 by decide) fun h => hrefused (hstatus.trans h.status)
      · rename_i hok
        exact iff_of_true rfl ⟨not_not.mp hsent, hanswered, hstatus.symm.trans (not_not.mp hok)⟩

def search (s : Session) (seekUpward : Bool) (r : Reply) : Session × ℤ :=
  Session.cmd { s with fm := { s.fm with seekDone := 0 } } (fmOpcode FM_OGF_RECV_CTRL FM_OCF_SEARCH_STATIONS)
    [if seekUpward then 1 else 0, 1] r

theorem seekDone_search {s : Session} {seekUpward : Bool} {r : Reply} (h : (search s seekUpward r).2 = 0)
    (packets : List Packet) :
    ((search s seekUpward r).1.hear packets).fm.seekDone = 0 ↔ ∀ buf ∈ r.packets ++ packets, ¬Progress buf := by
  rw [Session.hear, seekDone_foldl, search, seekDone_cmd h, List.forall_mem_append]
  exact and_congr_left' (and_iff_right rfl)

theorem wcnssFmSHwFreqSeek_eq (s : Session) (seekUpward : Bool) (r : Reply) (packets : List Packet) (r' : Reply) :
    wcnssFmSHwFreqSeek s 0 false seekUpward r packets r' =
      if (search s seekUpward r).2 ≠ 0 then search s seekUpward r
      else
        let s := (search s seekUpward r).1.hear packets
        if s.fm.seekDone = 0 then
          ((s.cmd (fmOpcode FM_OGF_RECV_CTRL FM_OCF_CANCEL_SEARCH) [] r').1, -ETIMEDOUT)
        else ({ s with fm := { s.fm with seekDone := s.fm.seekDone - 1 } }, 0) := by
  rw [wcnssFmSHwFreqSeek, if_neg (not_not.mpr rfl), if_neg Bool.false_ne_true]
  rfl

end Sirius.RadioFm
