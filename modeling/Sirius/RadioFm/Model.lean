import Mathlib.Logic.Function.Basic
import Mathlib.Data.Int.Order.Basic
import Mathlib.Data.List.Nodup

/-!
# The FM receiver, drivers/fm/radio-wcnss-fm.c

Commands go to the tuner as packets and are answered by event packets. Opening the first file
enables the receiver and releasing the last one disables it.
-/
namespace Sirius.RadioFm

@[simp] def EIO : ℤ := 5
@[simp] def ETIMEDOUT : ℤ := 110

abbrev Byte := BitVec 8

/-- What `rpmsg_send` carries; byte `i` of a shorter packet is never asked for. -/
abbrev Packet := List Byte

def Packet.byte (buf : Packet) (i : ℕ) : Byte := buf.getD i 0

/-- `get_unaligned_le16` -/
def Packet.le16 (buf : Packet) (i : ℕ) : BitVec 16 := buf.byte (i + 1) ++ buf.byte i

/-- `le32_to_cpu` -/
def Packet.le32 (buf : Packet) (i : ℕ) : BitVec 32 :=
  buf.byte (i + 3) ++ buf.byte (i + 2) ++ buf.byte (i + 1) ++ buf.byte i

def FM_PKT_EVENT : Byte := 0x14

/-- `fm_opcode` -/
def fmOpcode (ogf ocf : ℕ) : BitVec 16 := BitVec.ofNat 16 ((ocf &&& 0x03ff) ||| (ogf <<< 10))

def FM_OGF_RECV_CTRL : ℕ := 0x13
def FM_OCF_ENABLE_RECV : ℕ := 0x0001
def FM_OCF_DISABLE_RECV : ℕ := 0x0002
def FM_OCF_SET_ANTENNA : ℕ := 0x0007

def FM_EV_TUNE_STATUS : Byte := 0x01
def FM_EV_SEARCH_PROGRESS : Byte := 0x05
def FM_EV_CMD_COMPLETE : Byte := 0x0f
def FM_EV_CMD_STATUS : Byte := 0x10

@[simp] def FM_FREQ_LOW : ℕ := 87500

/-- `struct wcnss_fm`; a completion is the number of times it can be waited for. -/
structure Fm where
  cmdDone : ℕ
  pendingOpcode : BitVec 16
  cmdStatus : Byte
  seekDone : ℕ
  frequency : BitVec 32
  rssi : Byte
  stereo : Bool
  enabled : Bool
  deriving DecidableEq, Repr

/-- `wcnss_fm_probe` -/
def wcnssFmProbe : Fm where
  cmdDone := 0
  pendingOpcode := 0
  cmdStatus := 0
  seekDone := 0
  frequency := BitVec.ofNat 32 FM_FREQ_LOW
  rssi := 0
  stereo := false
  enabled := false

/-- What `wcnss_fm_rx` does with a packet. -/
inductive RxEffect
  | ignore
  | tuneStatus (frequency : BitVec 32) (rssi : Byte) (stereo : Bool)
  | searchProgress
  | cmdDone (status : Option Byte)
  deriving DecidableEq, Repr

/-- The size of `struct fm_tune_status`. -/
@[simp] def TUNE_STATUS_LEN : ℕ := 12

/-- `wcnss_fm_rx` up to its effect, with the opcode that is pending when it looks. -/
def wcnssFmRx (pending : BitVec 16) (buf : Packet) : RxEffect :=
  if buf.length < 3 ∨ buf.byte 0 ≠ FM_PKT_EVENT then .ignore
  else
    let plen := (buf.byte 2).toNat
    if buf.length < 3 + plen then .ignore
    else if buf.byte 1 = FM_EV_CMD_COMPLETE then
      -- payload: num_hci_cmd_pkts(1), opcode(2), status(1)
      if plen < 4 then .ignore
      else if buf.le16 4 ≠ pending then .ignore
      else .cmdDone (some (buf.byte 6))
    else if buf.byte 1 = FM_EV_CMD_STATUS then
      -- payload: status(1), num_hci_cmd_pkts(1), opcode(2)
      .cmdDone (if plen ≥ 1 then some (buf.byte 3) else none)
    else if buf.byte 1 = FM_EV_TUNE_STATUS then
      if plen < TUNE_STATUS_LEN then .ignore
      else .tuneStatus (buf.le32 4) (buf.byte 9) (buf.byte 10 ≠ 0)
    else if buf.byte 1 = FM_EV_SEARCH_PROGRESS then .searchProgress
    else .ignore

/-- The opcode an event answers and the status it gives, by the layout of its payload. -/
def answer (buf : Packet) : Option (BitVec 16 × Byte) :=
  if buf.length < 3 ∨ buf.byte 0 ≠ FM_PKT_EVENT then none
  else
    let plen := (buf.byte 2).toNat
    if buf.length < 3 + plen ∨ plen < 4 then none
    else if buf.byte 1 = FM_EV_CMD_COMPLETE then some (buf.le16 4, buf.byte 6)
    else if buf.byte 1 = FM_EV_CMD_STATUS then some (buf.le16 5, buf.byte 3)
    else none

/-- The driver and the tuner behind it. -/
structure Tuner where
  fm : Fm
  receiving : Bool
  deriving DecidableEq, Repr

/-- What a command that succeeds does to the tuner. -/
def command (opcode : BitVec 16) (receiving : Bool) : Bool :=
  if opcode = fmOpcode FM_OGF_RECV_CTRL FM_OCF_ENABLE_RECV then true
  else if opcode = fmOpcode FM_OGF_RECV_CTRL FM_OCF_DISABLE_RECV then false
  else receiving

section
variable (cmd : BitVec 16 → ℤ)

/-- `wcnss_fm_cmd` by its result; a command that fails has not reached the receiver. -/
def wcnssFmCmd (opcode : BitVec 16) (t : Tuner) : Tuner × ℤ :=
  if cmd opcode = 0 then ({ t with receiving := command opcode t.receiving }, 0) else (t, cmd opcode)

def wcnssFmEnable (t : Tuner) : Tuner × ℤ :=
  let (t, ret) := wcnssFmCmd cmd (fmOpcode FM_OGF_RECV_CTRL FM_OCF_ENABLE_RECV) t
  if ret ≠ 0 then (t, ret)
  else
    -- a refused antenna is only a warning
    let (t, _) := wcnssFmCmd cmd (fmOpcode FM_OGF_RECV_CTRL FM_OCF_SET_ANTENNA) t
    ({ t with fm := { t.fm with enabled := true } }, 0)

def wcnssFmDisable (t : Tuner) : Tuner × ℤ :=
  if t.fm.enabled = false then (t, 0)
  else
    let (t, ret) := wcnssFmCmd cmd (fmOpcode FM_OGF_RECV_CTRL FM_OCF_DISABLE_RECV) t
    ({ t with fm := { t.fm with enabled := false } }, ret)

end

/-- How far the open or the release of a file has come. -/
inductive Phase
  | closed
  | opening
  | opened
  | closing
  deriving DecidableEq, Repr

/-- The radio device: its tuner, the file handles registered on it, and the files. -/
structure Radio where
  tuner : Tuner
  fhList : List ℕ
  phase : ℕ → Phase

def registerRadio : Radio where
  tuner := ⟨wcnssFmProbe, false⟩
  fhList := []
  phase := fun _ => .closed

/-- `v4l2_fh_is_singular_file`, for a file whose handle is registered. -/
def Radio.isSingularFile (r : Radio) : Bool := r.fhList.length = 1

/-- The atomic steps of `wcnss_fm_open` and `wcnss_fm_release` on a file, with the answers they get. -/
inductive Step
  | fhOpen (file : ℕ) (ret : ℤ)
  | openLocked (file : ℕ) (cmd : BitVec 16 → ℤ)
  | releaseLocked (file : ℕ) (cmd : BitVec 16 → ℤ)
  | fhRelease (file : ℕ)

/-- `v4l2_fh_release` -/
def v4l2FhRelease (r : Radio) (file : ℕ) : Radio :=
  { r with fhList := r.fhList.erase file, phase := Function.update r.phase file .closed }

/-- `v4l2_fh_open`, the first step of `wcnss_fm_open`. -/
def v4l2FhOpen (r : Radio) (file : ℕ) (ret : ℤ) : Radio :=
  if ret ≠ 0 then r
  else { r with fhList := file :: r.fhList, phase := Function.update r.phase file .opening }

/-- `wcnss_fm_open` under `fm->lock`. -/
def openLocked (r : Radio) (file : ℕ) (cmd : BitVec 16 → ℤ) : Radio :=
  if r.isSingularFile then
    let (tuner, ret) := wcnssFmEnable cmd r.tuner
    if ret ≠ 0 then v4l2FhRelease { r with tuner } file
    else { r with tuner, phase := Function.update r.phase file .opened }
  else { r with phase := Function.update r.phase file .opened }

/-- `wcnss_fm_release` under `fm->lock`. -/
def releaseLocked (r : Radio) (file : ℕ) (cmd : BitVec 16 → ℤ) : Radio :=
  let r := if r.isSingularFile then { r with tuner := (wcnssFmDisable cmd r.tuner).1 } else r
  { r with phase := Function.update r.phase file .closing }

/-- A step that its file is not ready for does nothing. -/
def step (r : Radio) : Step → Radio
  | .fhOpen file ret => if r.phase file = .closed then v4l2FhOpen r file ret else r
  | .openLocked file cmd => if r.phase file = .opening then openLocked r file cmd else r
  | .releaseLocked file cmd => if r.phase file = .opened then releaseLocked r file cmd else r
  | .fhRelease file => if r.phase file = .closing then v4l2FhRelease r file else r

end Sirius.RadioFm
