import Sirius.Q6common.Model
import Sirius.Lib.Stores

/-!
# The bytes of voice commands, q6mvm.c and q6cvp.c

A command is a packed struct on the stack, filled by assignments: some in the function that builds it, some in
`q6voice_common_send`, some in `apr_send_pkt`. What it held before is a parameter. The bytes do not depend on it but
in the two commands with a name.
-/
namespace Sirius.StackBytes

open Stores
open Q6voice (PathType)
open Q6common (port ETIMEDOUT)

abbrev Packet := List Byte

@[simp] def APR_HDR_SIZE : ℕ := 20
@[simp] def APR_DOMAIN_APPS : Byte := 0x5

@[simp] def VSS_IMVM_CMD_CREATE_PASSIVE_CONTROL_SESSION : BitVec 32 := 0x000110FF
@[simp] def VSS_IMVM_CMD_SET_POLICY_DUAL_CONTROL : BitVec 32 := 0x00011327
@[simp] def VSS_IMVM_CMD_ATTACH_STREAM : BitVec 32 := 0x0001123C
@[simp] def VSS_IMVM_CMD_DETACH_STREAM : BitVec 32 := 0x0001123D
@[simp] def VSS_IMVM_CMD_ATTACH_VOCPROC : BitVec 32 := 0x0001123E
@[simp] def VSS_IMVM_CMD_DETACH_VOCPROC : BitVec 32 := 0x0001123F
@[simp] def VSS_IMVM_CMD_START_VOICE : BitVec 32 := 0x00011190
@[simp] def VSS_IMVM_CMD_STOP_VOICE : BitVec 32 := 0x00011192
@[simp] def VSS_IVOCPROC_DIRECTION_RX_TX : BitVec 16 := 2
@[simp] def VSS_IVOCPROC_PORT_ID_NONE : BitVec 16 := 0xFFFF
@[simp] def VSS_ICOMMON_CAL_NETWORK_ID_NONE : BitVec 32 := 0x0001135E
@[simp] def VSS_IVOLUME_CMD_MUTE_V2 : BitVec 32 := 0x0001138B
@[simp] def VSS_IVOLUME_CMD_SET_STEP : BitVec 32 := 0x000112C2
@[simp] def VSS_IVOLUME_DIRECTION_TX : BitVec 16 := 0
@[simp] def VSS_IVOLUME_DIRECTION_RX : BitVec 16 := 1
@[simp] def VSS_IVOLUME_MUTE_OFF : BitVec 16 := 0
@[simp] def VSS_IVOCPROC_CMD_ENABLE : BitVec 32 := 0x000100C6
@[simp] def VSS_IVOCPROC_CMD_DISABLE : BitVec 32 := 0x000110E1
@[simp] def VSS_IVOCPROC_CMD_TOPOLOGY_COMMIT : BitVec 32 := 0x00013198
@[simp] def VSS_IVOCPROC_CMD_CREATE_FULL_CONTROL_SESSION_V2 : BitVec 32 := 0x000112BF
@[simp] def APRV2_IBASIC_CMD_DESTROY_SESSION : BitVec 32 := 0x0001003C

/-- A C string without its terminator. -/
structure CString where
  chars : List Byte
  nonzero : 0 ∉ chars

/-- `struct apr_device`, as far as `apr_send_pkt` reads it. -/
structure AprDevice where
  svcId : Byte
  domainId : Byte
  deriving DecidableEq, Repr

/-- `struct q6voice_session` -/
structure Session where
  adev : AprDevice
  port : BitVec 16
  handle : BitVec 16
  deriving DecidableEq, Repr

inductive ServiceType
  | mvm
  | cvp
  deriving DecidableEq, Repr

/-- `struct q6voice_service`: whether a slot is taken is all that is asked of its sessions. -/
structure Service where
  adev : AprDevice
  sessions : PathType → Bool

structure Reply where
  srcPort : BitVec 16
  status : BitVec 32
  deriving DecidableEq, Repr

/-- What a command comes to: the value of `apr_send_pkt`, and the reply to it, if one comes in time. -/
structure Answer where
  ret : ℤ
  reply : Option Reply
  deriving DecidableEq, Repr

/-- All that a call is given besides its arguments. The DSP answers by what it has been sent. -/
structure Env where
  names : PathType → Option CString
  txTopology : BitVec 32
  rxTopology : BitVec 32
  vocprocMode : BitVec 32
  services : ServiceType → Option Service
  kzalloc : Bool
  dsp : List Packet → Answer

/-- The stack, where the command of the call and the one of `q6voice_session_destroy` come to lie. -/
structure Stack where
  cmd : Memory
  destroy : Memory

/-- The structs are packed, their fields little-endian. -/
def le16 (x : BitVec 16) : List Byte := [x.setWidth 8, (x >>> 8).setWidth 8]

def le32 (x : BitVec 32) : List Byte := le16 (x.setWidth 16) ++ le16 ((x >>> 16).setWidth 16)

def hdrField (x : BitVec 16) : Store := ⟨0, le16 x⟩
def pktSize (x : BitVec 16) : Store := ⟨2, le16 x⟩
def srcSvc (x : Byte) : Store := ⟨4, [x]⟩
def srcDomain (x : Byte) : Store := ⟨5, [x]⟩
def srcPort (x : BitVec 16) : Store := ⟨6, le16 x⟩
def destSvc (x : Byte) : Store := ⟨8, [x]⟩
def destDomain (x : Byte) : Store := ⟨9, [x]⟩
def destPort (x : BitVec 16) : Store := ⟨10, le16 x⟩
def token (x : BitVec 32) : Store := ⟨12, le32 x⟩
def opcode (x : BitVec 32) : Store := ⟨16, le32 x⟩

/-- `strscpy` into a field of `size` bytes. -/
def strscpy (offset : ℕ) (name : CString) (size : ℕ) : Store := ⟨offset, name.chars.take (size - 1) ++ [0]⟩

/-- The `pkt_size` bytes of a command. -/
def packet (cmd : Memory) : Packet := load cmd ((cmd 2).toNat + 256 * (cmd 3).toNat)

def aprSendPkt (adev : AprDevice) : List Store :=
  [srcDomain APR_DOMAIN_APPS, srcSvc adev.svcId, destDomain adev.domainId, destSvc adev.svcId]

/-- What `q6voice_common_send` assigns itself; the header field says a command, five words of header, version 0. -/
def commonHeader (s : Session) : List Store :=
  [hdrField 0x250, srcPort s.port, destPort s.handle, token 0]

def q6voiceSessionCallback (s : Session) (r : Reply) : Option (Session × BitVec 32) :=
  if s.handle = 0 then some ({ s with handle := r.srcPort }, r.status)
  else if s.handle ≠ r.srcPort then none
  else some (s, r.status)

structure Sent where
  session : Session
  packets : List Packet
  cmd : Memory
  ret : ℤ

/-- How `q6voice_common_send` ends, once the packet is handed over. -/
def commonResult (s : Session) (answer : Answer) : Session × ℤ :=
  if answer.ret < 0 then (s, answer.ret)
  else
    match answer.reply.bind (q6voiceSessionCallback s) with
    | none => (s, - ETIMEDOUT)
    | some (s, status) => (s, if status.toNat > 0 then - Q6common.EIO else 0)

def q6voiceCommonSend (env : Env) (s : Session) (cmd : Memory) (packets : List Packet) : Sent :=
  let cmd := run cmd (commonHeader s ++ aprSendPkt s.adev)
  let packets := packets ++ [packet cmd]
  let result := commonResult s (env.dsp packets)
  { session := result.1, packets, cmd, ret := result.2 }

def q6voiceSessionDestroy (env : Env) (s : Session) (cmd : Memory) (packets : List Packet) : List Packet :=
  let cmd := run cmd [pktSize 20, opcode APRV2_IBASIC_CMD_DESTROY_SESSION]
  (q6voiceCommonSend env s cmd packets).packets

/-- The command of a new session, and the one that ends it again when the creation failed with a handle. -/
def createCommand (env : Env) (s : Session) (cmd destroy : Memory) : List Packet :=
  let sent := q6voiceCommonSend env s cmd []
  if (sent.ret ≠ 0 ∨ sent.session.handle = 0) ∧ sent.session.handle ≠ 0 then
    q6voiceSessionDestroy env sent.session destroy sent.packets
  else sent.packets

def q6voiceSessionCreate (env : Env) (type : ServiceType) (path : PathType) (cmd destroy : Memory) : List Packet :=
  match env.services type with
  | none => []
  | some svc =>
      if !env.kzalloc then []
      else if svc.sessions path then []
      else createCommand env { adev := svc.adev, port := BitVec.ofNat 16 (port path), handle := 0 } cmd destroy

def ofString (s : List Char) : List Byte := s.map fun c => BitVec.ofNat 8 c.toNat

def q6voiceGetSessionName : PathType → Option CString
  | .voice => some ⟨ofString "default modem voice".toList, by decide⟩
  | .volte => some ⟨ofString "default volte voice".toList, by decide⟩
  | .voice2 => some ⟨ofString "10DC1000".toList, by decide⟩
  | .qchat => some ⟨ofString "10803000".toList, by decide⟩
  | .vowlan => some ⟨ofString "10002000".toList, by decide⟩
  | .voicemmode1 => some ⟨ofString "11C05000".toList, by decide⟩
  | .voicemmode2 => some ⟨ofString "11DC5000".toList, by decide⟩
  | .voip => none

section
variable (env : Env) (stack : Stack)

def q6mvmSetDualControl (mvm : Session) : List Packet :=
  let cmd := run stack.cmd [pktSize 21, opcode VSS_IMVM_CMD_SET_POLICY_DUAL_CONTROL, ⟨20, [1]⟩]
  (q6voiceCommonSend env mvm cmd []).packets

def mvmCreateCmd (path : PathType) : List Store :=
  [pktSize 40, opcode VSS_IMVM_CMD_CREATE_PASSIVE_CONTROL_SESSION] ++
    match env.names path with
    | some sessionName => [strscpy 20 sessionName 20]
    | none => []

def q6mvmSessionCreate (path : PathType) : List Packet :=
  q6voiceSessionCreate env .mvm path (run stack.cmd (mvmCreateCmd env path)) stack.destroy

def q6mvmAttach (mvm cvp : Session) (state : Bool) : List Packet :=
  let cmd := run stack.cmd
    [pktSize 22, opcode (if state then VSS_IMVM_CMD_ATTACH_VOCPROC else VSS_IMVM_CMD_DETACH_VOCPROC),
      ⟨20, le16 cvp.handle⟩]
  (q6voiceCommonSend env mvm cmd []).packets

def q6mvmAttachStream (mvm cvs : Session) (state : Bool) : List Packet :=
  let cmd := run stack.cmd
    [pktSize 22, opcode (if state then VSS_IMVM_CMD_ATTACH_STREAM else VSS_IMVM_CMD_DETACH_STREAM),
      ⟨20, le16 cvs.handle⟩]
  (q6voiceCommonSend env mvm cmd []).packets

def q6mvmStart (mvm : Session) (state : Bool) : List Packet :=
  let cmd := run stack.cmd
    [pktSize 20, opcode (if state then VSS_IMVM_CMD_START_VOICE else VSS_IMVM_CMD_STOP_VOICE)]
  (q6voiceCommonSend env mvm cmd []).packets

/-- `struct vss_ivocproc_cmd_create_full_control_session_v2_cmd`, but for its name, at 44. -/
def cvpCreateCmd (txPort rxPort : BitVec 16) : List Store :=
  [pktSize 64, opcode VSS_IVOCPROC_CMD_CREATE_FULL_CONTROL_SESSION_V2,
    ⟨24, le32 env.txTopology⟩, ⟨30, le32 env.rxTopology⟩,
    ⟨20, le16 VSS_IVOCPROC_DIRECTION_RX_TX⟩, ⟨22, le16 txPort⟩, ⟨28, le16 rxPort⟩,
    ⟨34, le32 VSS_ICOMMON_CAL_NETWORK_ID_NONE⟩, ⟨38, le32 env.vocprocMode⟩, ⟨42, le16 VSS_IVOCPROC_PORT_ID_NONE⟩]

def q6cvpSessionCreate (path : PathType) (txPort rxPort : BitVec 16) : List Packet :=
  q6voiceSessionCreate env .cvp path (run stack.cmd (cvpCreateCmd env txPort rxPort)) stack.destroy

def muteCmd (dir : BitVec 16) (mute : Bool) : List Store :=
  [pktSize 26, opcode VSS_IVOLUME_CMD_MUTE_V2, ⟨20, le16 dir⟩, ⟨22, le16 (if mute then 1 else VSS_IVOLUME_MUTE_OFF)⟩,
    ⟨24, le16 0⟩]

/-- The loop over the directions, in one and the same command. -/
def muteLoop (cvp : Session) (mute : Bool) : (dirs : List (BitVec 16)) → Memory → List Packet → List Packet
  | [], _, packets => packets
  | dir :: dirs, cmd, packets =>
      let sent := q6voiceCommonSend env cvp (run cmd (muteCmd dir mute)) packets
      if sent.ret ≠ 0 then sent.packets else muteLoop sent.session mute dirs sent.cmd sent.packets

def q6cvpSetMute (cvp : Session) (mute : Bool) : List Packet :=
  muteLoop env cvp mute [VSS_IVOLUME_DIRECTION_TX, VSS_IVOLUME_DIRECTION_RX] stack.cmd []

def q6cvpSetVolume (cvp : Session) (value : BitVec 32) : List Packet :=
  let cmd := run stack.cmd
    [pktSize 28, opcode VSS_IVOLUME_CMD_SET_STEP, ⟨20, le16 VSS_IVOLUME_DIRECTION_RX⟩, ⟨22, le32 value⟩, ⟨26, le16 0⟩]
  (q6voiceCommonSend env cvp cmd []).packets

def q6cvpEnable (cvp : Session) (state : Bool) : List Packet :=
  let cmd := run stack.cmd
    [pktSize 20, opcode (if state then VSS_IVOCPROC_CMD_ENABLE else VSS_IVOCPROC_CMD_DISABLE)]
  (q6voiceCommonSend env cvp cmd []).packets

def q6cvpSendTopologyCommit (cvp : Session) : List Packet :=
  let cmd := run stack.cmd [pktSize 20, opcode VSS_IVOCPROC_CMD_TOPOLOGY_COMMIT]
  (q6voiceCommonSend env cvp cmd []).packets

end

/-- The functions that build a command, with their arguments. -/
inductive Call
  | setDualControl (mvm : Session)
  | mvmSessionCreate (path : PathType)
  | attach (mvm cvp : Session) (state : Bool)
  | attachStream (mvm cvs : Session) (state : Bool)
  | start (mvm : Session) (state : Bool)
  | cvpSessionCreate (path : PathType) (txPort rxPort : BitVec 16)
  | setMute (cvp : Session) (mute : Bool)
  | setVolume (cvp : Session) (value : BitVec 32)
  | enable (cvp : Session) (state : Bool)
  | sendTopologyCommit (cvp : Session)

def Call.packets (env : Env) (stack : Stack) : Call → List Packet
  | .setDualControl mvm => q6mvmSetDualControl env stack mvm
  | .mvmSessionCreate path => q6mvmSessionCreate env stack path
  | .attach mvm cvp state => q6mvmAttach env stack mvm cvp state
  | .attachStream mvm cvs state => q6mvmAttachStream env stack mvm cvs state
  | .start mvm state => q6mvmStart env stack mvm state
  | .cvpSessionCreate path txPort rxPort => q6cvpSessionCreate env stack path txPort rxPort
  | .setMute cvp mute => q6cvpSetMute env stack cvp mute
  | .setVolume cvp value => q6cvpSetVolume env stack cvp value
  | .enable cvp state => q6cvpEnable env stack cvp state
  | .sendTopologyCommit cvp => q6cvpSendTopologyCommit env stack cvp

/-- What is sent is the same whatever was on the stack. -/
def CarriesOnlyGiven (env : Env) (c : Call) : Prop :=
  ∀ stack stack' : Stack, c.packets env stack = c.packets env stack'

def hdrExtents : List (ℕ × ℕ) := [(0, 2), (6, 2), (10, 2), (12, 4), (5, 1), (4, 1), (9, 1), (8, 1)]

theorem extents_common (s : Session) : extents (commonHeader s ++ aprSendPkt s.adev) = hdrExtents := rfl

theorem le16_toNat (x : BitVec 16) : (x.setWidth 8).toNat + 256 * ((x >>> 8).setWidth 8).toNat = x.toNat := by
  have hlt := x.isLt
  rw [BitVec.toNat_setWidth, BitVec.toNat_setWidth, BitVec.toNat_ushiftRight, Nat.shiftRight_eq_div_pow]
  omega

/-- Once assigned, the size is what the rest of the assignments leave alone. -/
def KeepsSize (es : List (ℕ × ℕ)) : Prop := ¬ Within es 2 ∧ ¬ Within es 3

instance (es : List (ℕ × ℕ)) : Decidable (KeepsSize es) := inferInstanceAs (Decidable (_ ∧ _))

theorem packet_size (m : Memory) {x : BitVec 16} {sts : List Store} (h : KeepsSize (extents sts)) :
    packet (run m (pktSize x :: sts)) = load (run m (pktSize x :: sts)) x.toNat := by
  have hlow : run m (pktSize x :: sts) 2 = x.setWidth 8 := run_outside h.1
  have hhigh : run m (pktSize x :: sts) 3 = (x >>> 8).setWidth 8 := run_outside h.2
  rw [packet, hlow, hhigh, le16_toNat]

section
variable {own : List Store} {es : List (ℕ × ℕ)} {x : BitVec 16} {s : Session}

theorem command_eq (m : Memory) : run (run m (pktSize x :: own)) (commonHeader s ++ aprSendPkt s.adev) =
    run m (pktSize x :: (own ++ (commonHeader s ++ aprSendPkt s.adev))) :=
  (run_append m (pktSize x :: own) _).symm

theorem command_extents (hes : extents own = es) :
    extents (own ++ (commonHeader s ++ aprSendPkt s.adev)) = es ++ hdrExtents := by
  rw [extents_append, hes, extents_common]

/-- A command is given in full exactly when its assignments, with those of the two senders, cover it. -/
theorem command_given_iff (hes : extents own = es) (hsize : KeepsSize (es ++ hdrExtents)) :
    (∀ m m', packet (run (run m (pktSize x :: own)) (commonHeader s ++ aprSendPkt s.adev)) =
        packet (run (run m' (pktSize x :: own)) (commonHeader s ++ aprSendPkt s.adev))) ↔
      Covers ((2, 2) :: (es ++ hdrExtents)) x.toNat := by
  have hall : extents (pktSize x :: (own ++ (commonHeader s ++ aprSendPkt s.adev))) = (2, 2) :: (es ++ hdrExtents) := by
    rw [← command_extents hes]
    rfl
  rw [← command_extents (s := s) hes] at hsize
  simp only [command_eq, packet_size _ hsize]
  rw [← hall]
  constructor
  · intro h
    by_contra hcover
    exact load_uncovered hcover (fun _ => 0) (fun _ => 1) (fun _ => by decide) (h _ _)
  · intro h m m'
    exact load_covered h m m'

end

theorem command_given (own : List Store) (es : List (ℕ × ℕ)) (x : BitVec 16) (hes : extents own = es)
    (hsize : KeepsSize (es ++ hdrExtents)) (hcover : Covers ((2, 2) :: (es ++ hdrExtents)) x.toNat) (s : Session)
    (m m' : Memory) :
    packet (run (run m (pktSize x :: own)) (commonHeader s ++ aprSendPkt s.adev)) =
      packet (run (run m' (pktSize x :: own)) (commonHeader s ++ aprSendPkt s.adev)) :=
  (command_given_iff hes hsize).mpr hcover m m'

section
variable (env : Env) (s : Session) (packets : List Packet)

/-- It depends on the bytes that were sent alone. -/
theorem send_given {cmd cmd' : Memory}
    (h : packet (run cmd (commonHeader s ++ aprSendPkt s.adev)) =
      packet (run cmd' (commonHeader s ++ aprSendPkt s.adev))) :
    (q6voiceCommonSend env s cmd packets).packets = (q6voiceCommonSend env s cmd' packets).packets ∧
    (q6voiceCommonSend env s cmd packets).session = (q6voiceCommonSend env s cmd' packets).session ∧
    (q6voiceCommonSend env s cmd packets).ret = (q6voiceCommonSend env s cmd' packets).ret := by
  simp only [q6voiceCommonSend, h, and_self]

/-- A command that is filled in full, as all but those of a new session are. -/
theorem sent_given (own : List Store) (es : List (ℕ × ℕ)) (x : BitVec 16) (hes : extents own = es)
    (hsize : KeepsSize (es ++ hdrExtents)) (hcover : Covers ((2, 2) :: (es ++ hdrExtents)) x.toNat) (m m' : Memory) :
    (q6voiceCommonSend env s (run m (pktSize x :: own)) packets).packets =
      (q6voiceCommonSend env s (run m' (pktSize x :: own)) packets).packets :=
  (send_given env s packets (command_given own es x hes hsize hcover s m m')).1

theorem destroy_given (m m' : Memory) :
    q6voiceSessionDestroy env s m packets = q6voiceSessionDestroy env s m' packets :=
  sent_given env s packets _ [(16, 4)] 20 rfl (by decide) (by decide) m m'

/-- In the second round the command holds the first; it is filled again in full. -/
theorem mute_loop_given (mute : Bool) (dirs : List (BitVec 16)) (m m' : Memory) :
    muteLoop env s mute dirs m packets = muteLoop env s mute dirs m' packets := by
  induction dirs generalizing s packets m m' with
  | nil => rfl
  | cons dir dirs ih =>
      have hsent := command_given (muteCmd dir mute).tail [(16, 4), (20, 2), (22, 2), (24, 2)] 26 rfl
        (by decide) (by decide) s m m'
      obtain ⟨hpackets, hsession, hret⟩ := send_given env s packets hsent
      change (if (q6voiceCommonSend env s (run m (muteCmd dir mute)) packets).ret ≠ 0 then _ else _) =
        if (q6voiceCommonSend env s (run m' (muteCmd dir mute)) packets).ret ≠ 0 then _ else _
      rw [show muteCmd dir mute = pktSize 26 :: (muteCmd dir mute).tail from rfl, hpackets, hsession, hret]
      split
      · rfl
      · exact ih _ _ _ _

end

/-- The creation gets as far as its command. -/
def Opens (env : Env) (type : ServiceType) (path : PathType) : Prop :=
  ∃ svc, env.services type = some svc ∧ env.kzalloc = true ∧ svc.sessions path = false

section
variable {env : Env} {type : ServiceType} {path : PathType}

theorem session_create_none (h : ¬ Opens env type path) (cmd destroy : Memory) :
    q6voiceSessionCreate env type path cmd destroy = [] := by
  rw [q6voiceSessionCreate]
  cases hsvc : env.services type with
  | none => rfl
  | some svc =>
      cases halloc : env.kzalloc with
      | false => rfl
      | true =>
          cases hslot : svc.sessions path with
          | true => simp [hslot]
          | false => exact absurd ⟨svc, hsvc, halloc, hslot⟩ h

theorem session_create_some (h : Opens env type path) :
    ∃ s : Session, ∀ cmd destroy, q6voiceSessionCreate env type path cmd destroy = createCommand env s cmd destroy := by
  obtain ⟨svc, hsvc, halloc, hslot⟩ := h
  exact ⟨_, fun cmd destroy => by simp [q6voiceSessionCreate, hsvc, halloc, hslot]; rfl⟩

/-- The command comes first, also when the session is destroyed again. -/
theorem create_command_head (env : Env) (s : Session) (cmd destroy : Memory) :
    (createCommand env s cmd destroy).head? = some (packet (run cmd (commonHeader s ++ aprSendPkt s.adev))) := by
  rw [createCommand]
  split
  · rfl
  · rfl

theorem create_command_given {s : Session} {cmd cmd' : Memory}
    (h : packet (run cmd (commonHeader s ++ aprSendPkt s.adev)) =
      packet (run cmd' (commonHeader s ++ aprSendPkt s.adev))) (destroy destroy' : Memory) :
    createCommand env s cmd destroy = createCommand env s cmd' destroy' := by
  obtain ⟨hpackets, hsession, hret⟩ := send_given env s [] h
  simp only [createCommand, hpackets, hsession, hret, destroy_given _ _ _ destroy destroy']

/-- A creation gives away nothing when it fails before its command, or its command is covered. -/
theorem session_create_given_iff (own : List Store) (es : List (ℕ × ℕ)) (x : BitVec 16) (hes : extents own = es)
    (hsize : KeepsSize (es ++ hdrExtents)) :
    (∀ stack stack' : Stack,
      q6voiceSessionCreate env type path (run stack.cmd (pktSize x :: own)) stack.destroy =
        q6voiceSessionCreate env type path (run stack'.cmd (pktSize x :: own)) stack'.destroy) ↔
      (Opens env type path → Covers ((2, 2) :: (es ++ hdrExtents)) x.toNat) := by
  by_cases hopen : Opens env type path
  · obtain ⟨s, hs⟩ := session_create_some hopen
    simp only [hs, hopen, true_imp_iff]
    rw [← command_given_iff (s := s) hes hsize]
    constructor
    · intro h m m'
      have hhead := congrArg List.head? (h ⟨m, m⟩ ⟨m', m'⟩)
      rw [create_command_head, create_command_head, Option.some_inj] at hhead
      exact hhead
    · intro h stack stack'
      exact create_command_given (h _ _) _ _
  · simp [session_create_none hopen, hopen]

end

/-- All fields of `q6cvp_session_create` but the name. -/
def cvpCreateExtents : List (ℕ × ℕ) :=
  [(16, 4), (24, 4), (30, 4), (20, 2), (22, 2), (28, 2), (34, 4), (38, 4), (42, 2)]

theorem cvp_create_uncovered : ¬ Covers ((2, 2) :: (cvpCreateExtents ++ hdrExtents)) 64 := by
  decide

/-- The name of `q6mvm_session_create` is the last field: its last byte is set when the string reaches it. -/
theorem mvm_create_covered_iff (k : ℕ) : Covers ((2, 2) :: ([(16, 4), (20, k)] ++ hdrExtents)) 40 ↔ 20 ≤ k := by
  simp only [Covers, hdrExtents, List.cons_append, List.nil_append, within_cons, not_within_nil, or_false]
  constructor
  · intro h
    have hlast := h 39 (by decide)
    omega
  · intro hk i hi
    omega

theorem mvm_create_keeps_size (k : ℕ) : KeepsSize ([(16, 4), (20, k)] ++ hdrExtents) := by
  simp only [KeepsSize, hdrExtents, List.cons_append, List.nil_append, within_cons, not_within_nil, or_false]
  omega

theorem strscpy_length (offset : ℕ) (name : CString) :
    20 ≤ (strscpy offset name 20).bytes.length ↔ 19 ≤ name.chars.length := by
  simp only [strscpy, List.length_append, List.length_take, List.length_singleton]
  omega

/-- A path without a name leaves all twenty bytes, a short name those behind its terminator. -/
theorem mvm_create_given_iff (env : Env) (path : PathType) :
    CarriesOnlyGiven env (.mvmSessionCreate path) ↔
      (Opens env .mvm path → ∃ name, env.names path = some name ∧ 19 ≤ name.chars.length) := by
  simp only [CarriesOnlyGiven, Call.packets, q6mvmSessionCreate, mvmCreateCmd]
  cases hname : env.names path with
  | none =>
      refine (session_create_given_iff [opcode VSS_IMVM_CMD_CREATE_PASSIVE_CONTROL_SESSION] [(16, 4)] 40 rfl
        (by decide)).trans ?_
      have hcover : ¬ Covers ((2, 2) :: ([(16, 4)] ++ hdrExtents)) (40 : BitVec 16).toNat := by decide
      exact (imp_iff_not hcover).trans (by simp)
  | some name =>
      refine (session_create_given_iff [opcode VSS_IMVM_CMD_CREATE_PASSIVE_CONTROL_SESSION, strscpy 20 name 20] _ 40 rfl
        (mvm_create_keeps_size _)).trans ?_
      have hcover := (mvm_create_covered_iff _).trans (strscpy_length 20 name)
      simp only [Option.some.injEq, exists_eq_left']
      exact imp_congr_right fun _ => hcover

theorem cvp_create_given_iff (env : Env) (path : PathType) (txPort rxPort : BitVec 16) :
    CarriesOnlyGiven env (.cvpSessionCreate path txPort rxPort) ↔ ¬ Opens env .cvp path :=
  (session_create_given_iff (cvpCreateCmd env txPort rxPort).tail cvpCreateExtents 64 rfl (by decide)).trans
    (imp_iff_not cvp_create_uncovered)

/-- Nothing with a name is sent, or the name fills its field. -/
def Named (env : Env) : Call → Prop
  | .mvmSessionCreate path => Opens env .mvm path → ∃ name, env.names path = some name ∧ 19 ≤ name.chars.length
  | .cvpSessionCreate path _ _ => ¬ Opens env .cvp path
  | _ => True

/-- A voice command carries only what it was given when it has no name, or the name fills its field. -/
theorem voice_command_given_iff (env : Env) (c : Call) : CarriesOnlyGiven env c ↔ Named env c := by
  cases c with
  | mvmSessionCreate path => exact mvm_create_given_iff env path
  | cvpSessionCreate path txPort rxPort => exact cvp_create_given_iff env path txPort rxPort
  | setDualControl mvm =>
      refine iff_of_true (fun stack stack' => ?_) trivial
      exact sent_given env mvm [] _ [(16, 4), (20, 1)] 21 rfl (by decide) (by decide) _ _
  | attach mvm cvp state =>
      refine iff_of_true (fun stack stack' => ?_) trivial
      exact sent_given env mvm [] _ [(16, 4), (20, 2)] 22 rfl (by decide) (by decide) _ _
  | attachStream mvm cvs state =>
      refine iff_of_true (fun stack stack' => ?_) trivial
      exact sent_given env mvm [] _ [(16, 4), (20, 2)] 22 rfl (by decide) (by decide) _ _
  | start mvm state =>
      refine iff_of_true (fun stack stack' => ?_) trivial
      exact sent_given env mvm [] _ [(16, 4)] 20 rfl (by decide) (by decide) _ _
  | setMute cvp mute => exact iff_of_true (fun _ _ => mute_loop_given env cvp [] mute _ _ _) trivial
  | setVolume cvp value =>
      refine iff_of_true (fun stack stack' => ?_) trivial
      exact sent_given env cvp [] _ [(16, 4), (20, 2), (22, 4), (26, 2)] 28 rfl (by decide) (by decide) _ _
  | enable cvp state =>
      refine iff_of_true (fun stack stack' => ?_) trivial
      exact sent_given env cvp [] _ [(16, 4)] 20 rfl (by decide) (by decide) _ _
  | sendTopologyCommit cvp =>
      refine iff_of_true (fun stack stack' => ?_) trivial
      exact sent_given env cvp [] _ [(16, 4)] 20 rfl (by decide) (by decide) _ _

/-- With the names of `q6voice_get_session_name` the field is filled on the two default paths. -/
theorem get_session_name_fills (path : PathType) :
    (∃ name, q6voiceGetSessionName path = some name ∧ 19 ≤ name.chars.length) ↔ path = .voice ∨ path = .volte := by
  cases path <;> simp [q6voiceGetSessionName, ofString]

/-- With these names a manager session is given in full on the default paths alone. -/
theorem mvm_create_default_iff {env : Env} (hnames : env.names = q6voiceGetSessionName) {path : PathType}
    (hopen : Opens env .mvm path) :
    CarriesOnlyGiven env (.mvmSessionCreate path) ↔ path = .voice ∨ path = .volte := by
  rw [mvm_create_given_iff, hnames, get_session_name_fills]
  exact forall_prop_of_true hopen

/-- Both services are there and every slot is free; nothing answers. -/
def idleEnv : Env where
  names := q6voiceGetSessionName
  txTopology := 0x00010F71
  rxTopology := 0x00010F77
  vocprocMode := 0x00010F7C
  services := fun _ => some ⟨⟨4, 4⟩, fun _ => false⟩
  kzalloc := true
  dsp := fun _ => ⟨0, none⟩

/-- The processor session of the default path, and the manager session of a path without a name. -/
theorem session_names_stale :
    ¬ CarriesOnlyGiven idleEnv (.cvpSessionCreate .voice 0x100B 0x100A) ∧
    ¬ CarriesOnlyGiven idleEnv (.mvmSessionCreate .voip) := by
  constructor
  · intro h
    have hpackets := h ⟨fun _ => 0, fun _ => 0⟩ ⟨fun _ => 1, fun _ => 0⟩
    revert hpackets
    decide +kernel
  · intro h
    obtain hpath | hpath := (mvm_create_default_iff rfl ⟨_, rfl, rfl, rfl⟩).mp h
    · cases hpath
    · cases hpath

end Sirius.StackBytes
